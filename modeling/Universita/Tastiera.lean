/-
  THE KEYBOARD — standard input as the three prompts of the programs take it.

  `scanf("%d")`, the loop behind it and `fgets` read from one stream of bytes, each from where the last one
  stopped.

  A line prompt of the source is two lines, repeated for the password, the exam's name and the date:

      fgets(buf, sizeof(buf), stdin);
      buf[strlen(buf) - 1] = 0;

  The second is meant to cut the newline off.  It cuts off the last byte of the string in the buffer,
  whatever that is: the last byte of the text when the line did not fit, a byte of the OLD text when
  `fgets` returned NULL, and it stores in front of the buffer when the string is empty.

  The crux is that the four ways `fgets` can end — a line with its newline, a line that is too long, a last line
  without newline, the end of the input — exclude each other and are all the ways there are.  Each has
  its lemma, and the exact condition is their union.

  Contents:
  1. `daTastiera` — the stream after a call.
  2. `Esatta` — a line prompt does what it is there for: it stores inside its buffer, leaves the next line
     in it and takes the line from the stream.
  3. `esatta_riga`, `not_esatta_lunga`, `not_esatta_ultima`, `esatta_fine` — the four ways.
  4. **`esatta_iff`** — it does for a line that fits with its newline and has no NUL, and, at the end of
     the input, where the buffer happens to hold a string of one byte.
-/
import Universita.Lib.Stdio
import Universita.Accesso

set_option linter.unusedVariables false

namespace Universita

open Lib

/-- What is left of standard input once `o` was answered `r`; the other calls do not touch it. -/
def daTastiera (s : Bytes) : (o : Sys) → o.Ans → Option Bytes
  | .scanf, r => if r = (scanD s).1 then some (scanD s).2 else none
  | .pulisciInput, _ => some (skipLine s)
  | .fgets n, r => if r = (fgets n s).1 then some (fgets n s).2 else none
  | _, _ => some s

/-- The answers of a keyboard on which `s` is typed. -/
abbrev tastiera (s : Bytes) (o : Sys) (r : o.Ans) (s' : Bytes) : Prop := daTastiera s o r = some s'

/-! ## A line -/

section Riga

variable {n : Nat} {buf : Buffer n} {s : Bytes}

/-- The next line, without its newline. -/
def rigaSeguente (s : Bytes) : Bytes := s.takeWhile (· ≠ 10)

/-- Wherever the prompt is issued, it stores only inside the buffer, and in the end the buffer holds the
    next line as a string and the stream goes on behind that line. -/
def Esatta (buf : Buffer n) (s : Bytes) : Prop :=
  (leggiRiga buf).Safe tastiera (fun _ o => o ≠ .indefinito)
    (fun b s' => rigaSeguente s ++ [0] <+: b.bytes ∧ s' = skipLine s) s

/-- The cut, where a string ends inside the buffer: it needs a byte to cut. -/
theorem safe_tagliaFine {P : Bytes → Sys → Prop} {Q : Buffer n → Bytes → Prop} {b : Buffer n}
    (hP : ¬ P s .indefinito) (hb : (0 : Byte) ∈ b.bytes) : (tagliaFine b).Safe tastiera P Q s ↔
      (cstr b.bytes).length ≠ 0 ∧ Q (b.poke ((cstr b.bytes).length - 1) 0) s := by
  rw [tagliaFine_of_mem hb]
  by_cases hlen : (cstr b.bytes).length = 0
  · rw [if_pos hlen]
    exact iff_of_false (fun h => hP h.1) fun h => h.1 hlen
  · rw [if_neg hlen]
    exact (and_iff_right hlen).symm

/-- The prompt, once `fgets` has stored `t`: what is left is the cut, and what it leaves is compared
    with the line that was typed. -/
theorem esatta_of_fgets {t s' : Bytes} (h : fgets n s = (some t, s')) (ht : t.length < n) :
    Esatta buf s ↔ (cstr (buf.overlay (t ++ [0])).bytes).length ≠ 0 ∧
      rigaSeguente s ++ [0] <+: ((buf.overlay (t ++ [0])).poke
        ((cstr (buf.overlay (t ++ [0])).bytes).length - 1) 0).bytes ∧ s' = skipLine s := by
  have hmem : (0 : Byte) ∈ (buf.overlay (t ++ [0])).bytes := by
    have hle : (t ++ [0] : Bytes).length ≤ n := by
      rw [List.length_append, List.length_singleton]; omega
    rw [Buffer.overlay_bytes_of_le hle]
    simp
  have hanswer : ∀ r s'', tastiera s (.fgets n) r s'' ↔ r = some t ∧ s'' = s' := by
    intro r s''
    show (if r = (fgets n s).1 then some (fgets n s).2 else none) = some s'' ↔ _
    rw [h]
    by_cases hr : r = some t
    · simp [hr, eq_comm]
    · simp [hr]
  show (_ ∧ ∀ r s'', tastiera s (.fgets n) r s'' → Prog.Safe _ _ _ _ _) ↔ _
  simp only [hanswer, and_imp, forall_eq_apply_imp_iff, forall_eq]
  exact (and_iff_right (by simp)).trans (safe_tagliaFine (fun h => h rfl) hmem)

/-- The cut falls on a byte of the string: a text that reaches to the cut is not in front of a NUL any
    more. -/
theorem not_prefix_poke {b : Buffer n} {t : Bytes} (ht : t <+: b.bytes)
    (hlen : (cstr b.bytes).length ≤ t.length) (hne : (cstr b.bytes).length ≠ 0) :
    ¬ t ++ [0] <+: (b.poke ((cstr b.bytes).length - 1) 0).bytes := by
  intro h
  obtain ⟨k, hk⟩ := Nat.exists_eq_succ_of_ne_zero hne
  rw [hk, Nat.succ_sub_one] at h
  have hkt : k < t.length := by omega
  have hcstr : cstr b.bytes <+: b.bytes := List.takeWhile_prefix _
  have hkc : k < (cstr b.bytes).length := by omega
  have hkb : k < b.bytes.length := Nat.lt_of_lt_of_le hkc hcstr.length_le
  -- at the cut, `t` has the byte of the string, and the poked buffer 0
  have h0 : t[k] = 0 := by
    have hkl : k < (t ++ [0]).length := by simp; omega
    have hks : k < (b.bytes.set k 0).length := by simpa using hkb
    have hcut : (t ++ [0])[k] = (b.bytes.set k 0)[k] := h.getElem hkl
    rw [List.getElem_append_left hkt, List.getElem_set_self] at hcut
    exact hcut
  have hmem : (0 : Byte) ∈ cstr b.bytes := by
    rw [List.mem_iff_getElem]
    refine ⟨k, hkc, ?_⟩
    rw [hcstr.getElem hkc, ← ht.getElem hkt, h0]
  exact zero_notMem_cstr _ hmem

/-- The prompt, once `fgets` has returned NULL: the string it cuts is the old one. With no NUL in the
    buffer that string has no end and the store may fall anywhere. -/
theorem esatta_of_null {s' : Bytes} (h : fgets n s = (none, s')) :
    Esatta buf s ↔ (0 : Byte) ∈ buf.bytes ∧ (cstr buf.bytes).length ≠ 0 ∧
      rigaSeguente s ++ [0] <+: (buf.poke ((cstr buf.bytes).length - 1) 0).bytes ∧ s' = skipLine s := by
  -- `fgets` has one answer here, and the stream behind it is known
  have hanswer : ∀ r s'', tastiera s (.fgets n) r s'' ↔ r = none ∧ s'' = s' := by
    intro r s''
    show (if r = (fgets n s).1 then some (fgets n s).2 else none) = some s'' ↔ _
    rw [h]
    by_cases hr : r = none
    · simp [hr, eq_comm]
    · simp [hr]
  have hstep : Esatta buf s ↔ (tagliaFine buf).Safe tastiera (fun _ o => o ≠ .indefinito)
      (fun b s'' => rigaSeguente s ++ [0] <+: b.bytes ∧ s'' = skipLine s) s' := by
    show (_ ∧ ∀ r s'', tastiera s (.fgets n) r s'' → Prog.Safe _ _ _ _ _) ↔ _
    simp only [hanswer, and_imp, forall_eq_apply_imp_iff, forall_eq]
    exact and_iff_right (by simp)
  rw [hstep]
  by_cases hb : (0 : Byte) ∈ buf.bytes
  · rw [and_iff_right hb]
    exact safe_tagliaFine (fun h => h rfl) hb
  · -- `strlen` runs out of the buffer; with one more byte behind it the store does too
    refine iff_of_false (fun hsafe => ?_) fun h => hb h.1
    rw [tagliaFine, cString, if_neg hb] at hsafe
    have hlong := hsafe.2 [1] s' rfl
    have hlen : n < (buf.bytes ++ cstr [1]).length := by
      rw [List.length_append, buf.size_eq]
      exact Nat.lt_succ_self n
    change Prog.Safe _ _ (if _ ∨ _ then _ else _) _ _ at hlong
    rw [if_pos (Or.inr hlen)] at hlong
    exact hlong.1 rfl

/-- A prompt without room for a byte takes nothing. -/
theorem not_esatta_of_le_one (hn : n ≤ 1) : ¬ Esatta buf s := by
  intro h
  rcases Nat.le_one_iff_eq_zero_or_eq_one.mp hn with rfl | rfl
  · have hmem := ((esatta_of_null rfl).mp h).1
    rw [List.length_eq_zero_iff.mp buf.size_eq] at hmem
    exact absurd hmem List.not_mem_nil
  · have hget : fgets 1 s = (some [], s) := rfl
    exact ((esatta_of_fgets hget Nat.one_pos).mp h).1 rfl

/-- **A line that fits** is left in the buffer, unless a NUL in it hides the rest: `strlen` stops there,
    and the cut takes the byte in front of it. -/
theorem esatta_riga {riga : Bytes} (rest : Bytes) (h10 : (10 : Byte) ∉ riga) (hn : riga.length + 2 ≤ n) :
    Esatta buf (riga ++ 10 :: rest) ↔ (0 : Byte) ∉ riga := by
  have hline : rigaSeguente (riga ++ 10 :: rest) = riga := (line_append h10 rest).1
  have hget : fgets n (riga ++ 10 :: rest) = (some (riga ++ [10]), rest) := by
    rw [fgets, if_neg (by simp; omega), getLine_line rest h10 (by omega)]
  have hlt : (riga ++ [10] : Bytes).length < n := by
    rw [List.length_append, List.length_singleton]; omega
  rw [esatta_of_fgets hget hlt, hline, skipLine_line h10]
  constructor
  · rintro ⟨hne, hpre, -⟩ h0
    have hle : (riga ++ [10] ++ [0] : Bytes).length ≤ n := by simp; omega
    obtain ⟨coda, hover⟩ : ∃ coda, (buf.overlay (riga ++ [10] ++ [0])).bytes = riga ++ coda :=
      ⟨_, by rw [Buffer.overlay_bytes_of_le hle, List.append_assoc, List.append_assoc]⟩
    refine not_prefix_poke ⟨_, hover.symm⟩ ?_ hne hpre
    rw [hover, cstr_append_of_mem h0]
    exact (List.takeWhile_prefix _).length_le
  · intro h0
    obtain ⟨hlen, coda, hcoda⟩ := riga_tagliata buf h0 hlt
    rw [hlen, Nat.add_sub_cancel, hcoda]
    exact ⟨Nat.succ_ne_zero _, ⟨coda, by simp⟩, rfl⟩

/-- A line that does not fit leaves its end in the stream, and the next prompt takes it for a line. -/
theorem not_esatta_lunga {riga : Bytes} (rest : Bytes) (h10 : (10 : Byte) ∉ riga)
    (hn : n < riga.length + 2) :
    ¬ Esatta buf (riga ++ 10 :: rest) := by
  by_cases hn1 : n ≤ 1
  · exact not_esatta_of_le_one hn1
  · intro h
    have hk : (riga.take (n - 1)).length = n - 1 := by rw [List.length_take]; omega
    have h10' : (10 : Byte) ∉ riga.take (n - 1) := fun hm => h10 (List.mem_of_mem_take hm)
    have hget : fgets n (riga ++ 10 :: rest) =
        (some (riga.take (n - 1)), riga.drop (n - 1) ++ 10 :: rest) := by
      have hcut := getLine_cut (riga.drop (n - 1) ++ 10 :: rest) h10'
      rw [hk, ← List.append_assoc, List.take_append_drop] at hcut
      rw [fgets, if_neg (by simp; omega), hcut]
    have hrest := ((esatta_of_fgets hget (by omega)).mp h).2.2
    rw [skipLine_line h10] at hrest
    have hlen := congrArg List.length hrest
    rw [List.length_append, List.length_cons] at hlen
    omega

/-- A last line without newline loses its last byte, or its end: the cut takes what it finds for the
    newline. -/
theorem not_esatta_ultima (hs : s ≠ []) (h10 : (10 : Byte) ∉ s) : ¬ Esatta buf s := by
  have hskip : skipLine s = [] := by
    rw [skipLine, List.dropWhile_eq_nil_iff.mpr fun b hb => by
      rw [decide_eq_true_eq]; rintro rfl; exact h10 hb]
    rfl
  have hline : rigaSeguente s = s := by
    rw [rigaSeguente, List.takeWhile_eq_self_iff]
    intro b hb
    rw [decide_eq_true_eq]
    rintro rfl
    exact h10 hb
  by_cases hn1 : n ≤ 1
  · exact not_esatta_of_le_one hn1
  -- it fits: its last byte is cut off as if it were a newline
  · by_cases hlen : s.length ≤ n - 1
    · have hget : fgets n s = (some s, []) := by
        rw [fgets, if_neg (by simp [hs]; omega), getLine_last h10 hlen]
      rw [esatta_of_fgets hget (by omega), hline]
      rintro ⟨hne, hpre, -⟩
      have hle : (s ++ [0] : Bytes).length ≤ n := by simp; omega
      have hover : (buf.overlay (s ++ [0])).bytes = s ++ 0 :: buf.bytes.drop (s ++ [0]).length := by
        rw [Buffer.overlay_bytes_of_le hle, List.append_assoc]
        rfl
      refine not_prefix_poke ⟨_, hover.symm⟩ ?_ hne hpre
      have hcstr : cstr (buf.overlay (s ++ [0])).bytes = cstr (s ++ [0]) := by
        rw [Buffer.overlay_bytes_of_le hle, cstr_append_of_mem (by simp)]
      rw [hcstr]
      have hshort : cstr (s ++ [0]) <+: s ++ [0] := List.takeWhile_prefix _
      have hlast : cstr (s ++ [0]) ≠ s ++ [0] := fun h => zero_notMem_cstr (s ++ [0]) (by rw [h]; simp)
      have := hshort.length_le
      have hne' : (cstr (s ++ [0])).length ≠ (s ++ [0]).length := fun h => hlast (hshort.eq_of_length h)
      rw [List.length_append, List.length_singleton] at this hne'
      omega
    · intro h
      have hk : (s.take (n - 1)).length = n - 1 := by rw [List.length_take]; omega
      have hcut := getLine_cut (s.drop (n - 1)) fun hm => h10 (List.mem_of_mem_take hm (i := n - 1))
      rw [hk, List.take_append_drop] at hcut
      have hget : fgets n s = (some (s.take (n - 1)), s.drop (n - 1)) := by
        rw [fgets, if_neg (by simp [hs]; omega), hcut]
      have hrest := ((esatta_of_fgets hget (by omega)).mp h).2.2
      rw [hskip] at hrest
      have hzero := congrArg List.length hrest
      rw [List.length_drop, List.length_nil] at hzero
      omega

/-- At the end of the input one byte of the old string is cut off, so the prompt yields an empty line
    only if there was one byte. -/
theorem esatta_fine : Esatta buf [] ↔ (0 : Byte) ∈ buf.bytes ∧ (cstr buf.bytes).length = 1 := by
  by_cases hn1 : n ≤ 1
  · refine iff_of_false (not_esatta_of_le_one hn1) ?_
    rintro ⟨h0, h1⟩
    have hlen : (cstr buf.bytes).length < buf.bytes.length := by
      have hpre : cstr buf.bytes <+: buf.bytes := List.takeWhile_prefix _
      refine Nat.lt_of_le_of_ne hpre.length_le fun heq => zero_notMem_cstr buf.bytes ?_
      rwa [hpre.eq_of_length heq]
    rw [buf.size_eq] at hlen
    omega
  · have hget : fgets n [] = (none, []) := by rw [fgets, if_pos (Or.inr ⟨by omega, rfl⟩)]
    rw [esatta_of_null hget]
    refine and_congr_right fun h0 => ?_
    obtain ⟨c, cs, hbuf⟩ := List.exists_cons_of_ne_nil (List.ne_nil_of_mem h0)
    constructor
    · rintro ⟨hne, hpre, -⟩
      by_contra h1
      -- a longer string keeps its first byte
      obtain ⟨k, hk⟩ : ∃ k, (cstr buf.bytes).length - 1 = k + 1 :=
        Nat.exists_eq_succ_of_ne_zero (by omega)
      have hhead : [0] <+: c :: cs.set k 0 := by
        have hset : (buf.poke ((cstr buf.bytes).length - 1) 0).bytes = c :: cs.set k 0 := by
          show buf.bytes.set _ 0 = _
          rw [hk, hbuf, List.set_cons_succ]
        rw [← hset]
        exact hpre
      obtain rfl : 0 = c := (List.cons_prefix_cons.mp hhead).1
      rw [hbuf, cstr_cons_zero] at hne
      exact hne rfl
    · intro h1
      refine ⟨by omega, ?_, rfl⟩
      show [0] <+: buf.bytes.set ((cstr buf.bytes).length - 1) 0
      rw [h1, hbuf]
      exact ⟨cs, rfl⟩

/-- **Exactly when a prompt takes its line**: the line is ended by a newline, holds no NUL and fits with
    its newline; or the input is over, and what the buffer held is the one byte that the cut of the
    newline then removes. -/
theorem esatta_iff (buf : Buffer n) (s : Bytes) : Esatta buf s ↔
    (∃ riga rest, s = riga ++ 10 :: rest ∧ (10 : Byte) ∉ riga ∧ (0 : Byte) ∉ riga ∧ riga.length + 2 ≤ n) ∨
    s = [] ∧ (0 : Byte) ∈ buf.bytes ∧ (cstr buf.bytes).length = 1 := by
  by_cases hs : s = []
  · subst hs
    rw [esatta_fine]
    -- by what the input begins with: nothing, a line with a newline, a line without
    constructor
    · exact fun h => Or.inr ⟨rfl, h⟩
    · rintro (⟨riga, rest, h, -⟩ | h)
      · exact absurd h.symm (by simp)
      · exact h.2
  · by_cases h10 : (10 : Byte) ∈ s
    · obtain ⟨riga, rest, rfl, hriga⟩ := List.eq_append_cons_of_mem h10
      -- there is one way to read the input as a line and the rest
      have huno : ∀ {riga' rest' : Bytes}, riga ++ 10 :: rest = riga' ++ 10 :: rest' →
          (10 : Byte) ∉ riga' → riga = riga' := by
        intro riga' rest' heq h'
        rw [← (line_append hriga rest).1, heq, (line_append h' rest').1]
      by_cases hn : riga.length + 2 ≤ n
      · rw [esatta_riga rest hriga hn]
        constructor
        · exact fun h0 => Or.inl ⟨riga, rest, rfl, hriga, h0, hn⟩
        · rintro (⟨riga', rest', heq, h', h0, -⟩ | h)
          · rwa [huno heq h']
          · exact absurd h.1 hs
      · refine iff_of_false (not_esatta_lunga rest hriga (Nat.not_le.mp hn)) ?_
        rintro (⟨riga', rest', heq, h', -, hn'⟩ | h)
        · rw [← huno heq h'] at hn'
          exact hn hn'
        · exact hs h.1
    · refine iff_of_false (not_esatta_ultima hs h10) ?_
      rintro (⟨riga, rest, rfl, -⟩ | h)
      · exact h10 (by simp)
      · exact hs h.1

/-- Eleven bytes typed as a date: the last one is cut off, and the newline waits for the next prompt,
    which takes it for an empty line. -/
theorem data_lunga : ¬ ∀ {n : Nat} (buf : Buffer n) (s : Bytes), Esatta buf s := by
  intro h
  have h := h (Buffer.zero 12) (ascii "2024-01-001" ++ 10 :: ascii "1\n")
  exact not_esatta_lunga _ (by decide) (by decide) h

end Riga

end Universita

/-
  C STREAMS — the text a program takes from a stream, and a file it rewrites in place.

  A stream is the list of the bytes still to be read.  Each call takes some of them and leaves the rest
  to the next one; what a C program asks of its user is decided by where the calls before it stopped.

  The calls do not agree about newlines, and that is where programs go wrong:
    * `fscanf("%d")` skips blanks, newlines among them, and stops in front of the first byte that is not
      part of the number — the newline of the line it read from stays in the stream;
    * `fgets` takes one newline and stops behind it, or stops where its buffer is full;
    * the loop that throws a line away takes everything up to the newline, and the newline.

  `LineStart` says of a position that a program which reads from there reads what was typed on a line of
  its own.  The crux is that each of the calls leaves the stream at such a position or not, depending on
  what it found, and that this can be said before the call (`LineFits`).

  Contents:
  1. `scanD` — `fscanf(.., "%d", ..)`: blanks, an optional sign, digits.  `Numeral p s` says, without the
     scanner, that `s` begins with a numeral of `p`; **`scanD_eq_some`**: that is what it converts.
  2. `skipLine` — `while ((c = getchar()) != '\n' && c != EOF);`.
  3. `getLine`, `fgets` — a line with its newline, if that fits; else what fits.
  4. `LineStart` — positions where, behind blanks, a line starts, and what leaves the stream at one.
  5. `overwrite` — `rewind` and `fprintf` on a stream that was not truncated: the old tail stays.
-/
import Universita.Lib.Decimal

set_option linter.unusedVariables false

namespace Universita.Lib

/-! ## Numbers -/

/-- `fscanf(.., "%d", ..)`: the number converted, if there is one, and the rest of the stream.  A sign
    without a digit behind it is read all the same.  The number is the numeral's own, however long: C leaves open what is
    stored for one outside the range of `int`, and who stores it has to say. -/
def scanD (s : Bytes) : Option Int × Bytes :=
  let t := s.dropWhile isBlank
  let ds := (sign t).2
  (if ds.takeWhile isDigit = [] then none else some (signedRun t), ds.dropWhile isDigit)

/-- `s` begins, after blanks, with a numeral of `p`: a sign or none, then digits, and no further digit. -/
def Numeral (p : Int) (s : Bytes) : Prop :=
  ∃ blanks sgn ds rest, s = blanks ++ (sgn ++ (ds ++ rest)) ∧ (∀ b ∈ blanks, isBlank b = true) ∧
    (sgn = [] ∨ sgn = [43] ∨ sgn = [45]) ∧ ds ≠ [] ∧ (∀ b ∈ ds, isDigit b = true) ∧
    (∀ b ∈ rest.head?, isDigit b = false) ∧ p = if sgn = [45] then -(natOf ds : Int) else natOf ds

/-- A run of elements that all pass, in front of one that does not: where the run ends, and what is left. -/
theorem takeWhile_dropWhile_append {α : Type} {p : α → Bool} {xs ys : List α} (hx : ∀ a ∈ xs, p a = true)
    (hy : ∀ a ∈ ys.head?, p a = false) :
    (xs ++ ys).takeWhile p = xs ∧ (xs ++ ys).dropWhile p = ys := by
  induction xs with
  | nil =>
    cases ys with
    | nil => exact ⟨rfl, rfl⟩
    | cons y ys =>
      have hy : p y = false := hy y rfl
      simp [hy]
  | cons x xs ih =>
    obtain ⟨ht, hd⟩ := ih fun a ha => hx a (List.mem_cons_of_mem _ ha)
    have hx : p x = true := hx x List.mem_cons_self
    simp [hx, ht, hd]

/-- The sign of a text that starts with a digit behind it, and the digits that follow. -/
theorem sign_append {sgn t : Bytes} (hs : sgn = [] ∨ sgn = [43] ∨ sgn = [45])
    (ht : ∃ b bs, t = b :: bs ∧ isDigit b = true) : sign (sgn ++ t) = (decide (sgn = [45]), t) := by
  obtain ⟨b, bs, rfl, hb⟩ := ht
  obtain ⟨h45, h43, -⟩ := digit_cases hb
  rcases hs with rfl | rfl | rfl
  · rw [List.nil_append, sign]
    · rfl
    · exact fun _ h => h45 (List.cons.inj h).1
    · exact fun _ h => h43 (List.cons.inj h).1
  · rfl
  · rfl

/-- Every text is a sign or none, and what follows it. -/
theorem sign_cases (t : Bytes) : ∃ sgn, (sgn = [] ∨ sgn = [43] ∨ sgn = [45]) ∧ t = sgn ++ (sign t).2 ∧
    (sign t).1 = decide (sgn = [45]) := by
  unfold sign
  split
  · exact ⟨[45], Or.inr (Or.inr rfl), rfl, rfl⟩
  · exact ⟨[43], Or.inr (Or.inl rfl), rfl, rfl⟩
  · exact ⟨[], Or.inl rfl, rfl, rfl⟩

/-- **`%d` converts a numeral, and nothing else.** A proof about what a program read from a stream says
    from here on what stood there, and does not run the scanner. -/
theorem scanD_eq_some {s : Bytes} {p : Int} : (scanD s).1 = some p ↔ Numeral p s := by
  constructor
  · intro h
    obtain ⟨sgn, hsgn, ht, hneg⟩ := sign_cases (s.dropWhile isBlank)
    simp only [scanD] at h
    split at h
    · cases h
    · rename_i hds
      refine ⟨s.takeWhile isBlank, sgn, (sign (s.dropWhile isBlank)).2.takeWhile isDigit,
        (sign (s.dropWhile isBlank)).2.dropWhile isDigit, ?_, fun b hb => List.mem_takeWhile_imp hb, hsgn,
        hds, fun b hb => List.mem_takeWhile_imp hb, fun b hb => ?_, ?_⟩
      · rw [List.takeWhile_append_dropWhile, ← ht, List.takeWhile_append_dropWhile]
      · have hne := List.head?_dropWhile_not isDigit (sign (s.dropWhile isBlank)).2
        rw [Option.mem_def.mp hb] at hne
        simpa using hne
      · rw [← Option.some.inj h, signedRun]
        simp only [hneg, decide_eq_true_eq]
  · rintro ⟨blanks, sgn, ds, rest, rfl, hblanks, hsgn, hne, hds, hrest, rfl⟩
    obtain ⟨d, ds', rfl⟩ := List.exists_cons_of_ne_nil hne
    have hd : isDigit d = true := hds d List.mem_cons_self
    -- no byte of the numeral is a blank
    have hhead : ∀ b ∈ (sgn ++ (d :: ds' ++ rest)).head?, isBlank b = false := by
      intro b hb
      rcases hsgn with rfl | rfl | rfl
      · rw [← Option.some.inj hb]; exact (digit_cases hd).2.2
      · rw [← Option.some.inj hb]; rfl
      · rw [← Option.some.inj hb]; rfl
    have hdrop : (blanks ++ (sgn ++ d :: (ds' ++ rest))).dropWhile isBlank = sgn ++ d :: (ds' ++ rest) :=
      (takeWhile_dropWhile_append hblanks hhead).2
    have hsign := sign_append hsgn ⟨d, ds' ++ rest, rfl, hd⟩
    have hrun : (d :: (ds' ++ rest)).takeWhile isDigit = d :: ds' :=
      (takeWhile_dropWhile_append hds hrest).1
    simp only [scanD, List.cons_append, hdrop, signedRun, hsign, hrun, decide_eq_true_eq]
    rw [if_neg (List.cons_ne_nil d ds')]

/-- A printed number, with something behind it that is not a digit, is a numeral of it. Without that
    byte the digits behind it would join the number. -/
theorem numeral_dec (i : Int) {c : Byte} (hc : isDigit c = false) (rest : Bytes) :
    Numeral i (dec i ++ c :: rest) := by
  have hdigits : ∀ b ∈ decNat i.natAbs, isDigit b = true := fun b hb => isDigit_of_mem_decNat hb
  have hrest : ∀ b ∈ (c :: rest).head?, isDigit b = false := fun b hb => by
    rw [← Option.some.inj hb]; exact hc
  unfold dec
  split
  · refine ⟨[], [45], decNat i.natAbs, c :: rest, rfl, fun _ h => absurd h List.not_mem_nil,
      Or.inr (Or.inr rfl), decNat_ne_nil _, hdigits, hrest, ?_⟩
    rw [natOf_decNat, if_pos rfl]
    omega
  · refine ⟨[], [], decNat i.natAbs, c :: rest, rfl, fun _ h => absurd h List.not_mem_nil, Or.inl rfl,
      decNat_ne_nil _, hdigits, hrest, ?_⟩
    rw [natOf_decNat, if_neg (List.cons_ne_nil _ _).symm]
    omega

/-! ## Lines -/

/-- The rest of the stream behind the next newline. -/
def skipLine (s : Bytes) : Bytes := (s.dropWhile (· ≠ 10)).drop 1

/-- At most `k` bytes, and none behind a newline: those, and the rest of the stream. -/
def getLine : Nat → Bytes → Bytes × Bytes
  | 0, s => ([], s)
  | _ + 1, [] => ([], [])
  | k + 1, b :: s => if b = 10 then ([10], s) else (b :: (getLine k s).1, (getLine k s).2)

/-- `fgets(buf, n, stream)`: what it stores in front of the NUL, `none` when it returns NULL. -/
def fgets (n : Nat) (s : Bytes) : Option Bytes × Bytes :=
  if n = 0 ∨ (1 < n ∧ s = []) then (none, s)
  else (some (getLine (n - 1) s).1, (getLine (n - 1) s).2)

/-- The text in front of the first newline, and the rest. -/
theorem line_append {riga : Bytes} (h : (10 : Byte) ∉ riga) (rest : Bytes) :
    (riga ++ 10 :: rest).takeWhile (· ≠ 10) = riga ∧
      (riga ++ 10 :: rest).dropWhile (· ≠ 10) = 10 :: rest := by
  refine takeWhile_dropWhile_append (fun b hb => ?_) fun b hb => ?_
  · rw [decide_eq_true_eq]
    rintro rfl
    exact h hb
  · rw [← Option.some.inj hb]
    rfl

/-- Thrown away: the line and its newline. -/
theorem skipLine_line {riga : Bytes} (h : (10 : Byte) ∉ riga) (rest : Bytes) :
    skipLine (riga ++ 10 :: rest) = rest := by
  rw [skipLine, (line_append h rest).2]
  rfl

/-- A line that fits is taken whole. -/
theorem getLine_line : ∀ {riga : Bytes} {k : Nat} (rest : Bytes), (10 : Byte) ∉ riga → riga.length < k →
    getLine k (riga ++ 10 :: rest) = (riga ++ [10], rest)
  | [], k + 1, rest, _, _ => rfl
  | b :: riga, k + 1, rest, h, hk => by
    have hb : b ≠ 10 := fun hb => h (hb ▸ List.mem_cons_self)
    have ih := getLine_line rest (fun hm => h (List.mem_cons_of_mem _ hm)) (Nat.lt_of_succ_lt_succ hk)
    rw [List.cons_append, getLine, if_neg hb, ih]
    rfl

/-- Without a newline in reach it takes what fits. -/
theorem getLine_cut : ∀ {riga : Bytes} (rest : Bytes), (10 : Byte) ∉ riga →
    getLine riga.length (riga ++ rest) = (riga, rest)
  | [], rest, _ => rfl
  | b :: riga, rest, h => by
    have hb : b ≠ 10 := fun hb => h (hb ▸ List.mem_cons_self)
    have ih := getLine_cut rest fun hm => h (List.mem_cons_of_mem _ hm)
    rw [List.length_cons, List.cons_append, getLine, if_neg hb, ih]

theorem getLine_last : ∀ {riga : Bytes} {k : Nat}, (10 : Byte) ∉ riga → riga.length ≤ k →
    getLine k riga = (riga, [])
  | [], 0, _, _ => rfl
  | [], k + 1, _, _ => rfl
  | b :: riga, k + 1, h, hk => by
    have hb : b ≠ 10 := fun hb => h (hb ▸ List.mem_cons_self)
    have ih := getLine_last (fun hm => h (List.mem_cons_of_mem _ hm)) (Nat.le_of_succ_le_succ hk)
    rw [getLine, if_neg hb, ih]

/-- What is taken and what is left are the stream: nothing is lost between two calls. -/
theorem getLine_append : ∀ (k : Nat) (s : Bytes), (getLine k s).1 ++ (getLine k s).2 = s
  | 0, s => rfl
  | k + 1, [] => rfl
  | k + 1, b :: s => by
    rw [getLine]
    split
    · rename_i hb
      rw [hb]
      rfl
    · rw [List.cons_append, getLine_append k s]

/-- What `fgets` leaves, also where it returns NULL. -/
theorem fgets_snd (n : Nat) (s : Bytes) : (fgets n s).2 = (getLine (n - 1) s).2 := by
  unfold fgets
  split
  · rename_i h
    rcases h with rfl | ⟨hn, rfl⟩
    · rfl
    · cases n - 1 <;> rfl
  · rfl

/-- What comes before a newline within reach is taken, and the newline with it; without one, all that is
    in reach. -/
theorem getLine_snd : ∀ (k : Nat) (s : Bytes),
    if (10 : Byte) ∈ s.take k then ∃ before, s = before ++ 10 :: (getLine k s).2
    else (getLine k s).2 = s.drop k
  | 0, s => rfl
  | k + 1, [] => by simp [getLine]
  | k + 1, b :: s => by
    have ih := getLine_snd k s
    by_cases hb : b = 10
    · subst hb
      rw [if_pos (by simp)]
      exact ⟨[], rfl⟩
    · have hmem : (10 : Byte) ∈ (b :: s).take (k + 1) ↔ (10 : Byte) ∈ s.take k := by
        rw [List.take_succ_cons, List.mem_cons, or_iff_right fun h => hb h.symm]
      simp only [hmem, getLine, if_neg hb, List.drop_succ_cons]
      split at ih
      · rename_i h
        obtain ⟨before, hs⟩ := ih
        rw [if_pos h]
        exact ⟨b :: before, by rw [List.cons_append, ← hs]⟩
      · rename_i h
        rw [if_neg h]
        exact ih

/-- What is left of a stream is an end of it, after each of the three calls. -/
theorem skipLine_suffix (s : Bytes) : skipLine s <:+ s :=
  (List.drop_suffix _ _).trans (List.dropWhile_suffix _)

theorem fgets_suffix (n : Nat) (s : Bytes) : (fgets n s).2 <:+ s :=
  ⟨(getLine (n - 1) s).1, by rw [fgets_snd, getLine_append]⟩

/-- So it is after a conversion, successful or not. -/
theorem scanD_suffix (s : Bytes) : (scanD s).2 <:+ s := by
  obtain ⟨sgn, -, ht, -⟩ := sign_cases (s.dropWhile isBlank)
  have hsign : (sign (s.dropWhile isBlank)).2 <:+ s.dropWhile isBlank := ⟨sgn, ht.symm⟩
  exact ((List.dropWhile_suffix _).trans hsign).trans (List.dropWhile_suffix _)

/-! ## Where lines start -/

/-- What comes next in `s`, behind blanks, is the beginning of a line of `input`, or the end of it. -/
def LineStart (input s : Bytes) : Prop :=
  ∃ blanks s', s = blanks ++ s' ∧ (∀ b ∈ blanks, isBlank b = true) ∧
    (s' = [] ∨ s' = input ∨ ∃ before, input = before ++ 10 :: s')

/-- Of the next line, all but blanks is within reach of `k` bytes. -/
def LineFits (k : Nat) (s : Bytes) : Prop :=
  (10 : Byte) ∈ s.take k ∨ ∀ b ∈ (s.drop k).takeWhile (· ≠ 10), isBlank b = true

instance (k : Nat) (s : Bytes) : Decidable (LineFits k s) := inferInstanceAs (Decidable (_ ∨ _))

section LineStart

variable {input s : Bytes}

theorem lineStart_self (s : Bytes) : LineStart s s :=
  ⟨[], s, rfl, fun b hb => absurd hb List.not_mem_nil, Or.inr (Or.inl rfl)⟩

/-- Behind a newline a line starts. -/
theorem lineStart_of_newline (hs : s <:+ input) {before s' : Bytes} (h : s = before ++ 10 :: s') :
    LineStart input s' := by
  obtain ⟨pre, rfl⟩ := hs
  refine ⟨[], s', rfl, fun b hb => absurd hb List.not_mem_nil, Or.inr (Or.inr ⟨pre ++ before, ?_⟩)⟩
  rw [h, List.append_assoc]

/-- The stream has no newline left, or one behind this line. -/
theorem line_cases (s : Bytes) : s.dropWhile (· ≠ 10) = [] ∨
    ∃ s', s.dropWhile (· ≠ 10) = 10 :: s' ∧ s = s.takeWhile (· ≠ 10) ++ 10 :: s' := by
  cases hrest : s.dropWhile (· ≠ 10) with
  | nil => exact Or.inl rfl
  | cons c s' =>
    have hc := List.head?_dropWhile_not (fun b : Byte => decide (b ≠ 10)) s
    rw [hrest] at hc
    have hc : c = 10 := by simpa using hc
    subst hc
    exact Or.inr ⟨s', rfl, by rw [← hrest, List.takeWhile_append_dropWhile]⟩

/-- In front of the rest of a line, when that rest is blanks: who skips blanks reads the next line. -/
theorem lineStart_of_blanks (hs : s <:+ input)
    (h : ∀ b ∈ s.takeWhile (· ≠ 10), isBlank b = true) : LineStart input s := by
  rcases line_cases s with hrest | ⟨s', -, heq⟩
  · refine ⟨s, [], (List.append_nil _).symm, fun b hb => h b ?_, Or.inl rfl⟩
    rw [← List.takeWhile_append_dropWhile (p := (· ≠ 10)) (l := s), hrest, List.append_nil] at hb
    exact hb
  · obtain ⟨pre, rfl⟩ := hs
    refine ⟨s.takeWhile (· ≠ 10) ++ [10], s', ?_, fun b hb => ?_,
      Or.inr (Or.inr ⟨pre ++ s.takeWhile (· ≠ 10), ?_⟩)⟩
    · rw [List.append_assoc]
      exact heq
    · rcases List.mem_append.mp hb with hb | hb
      · exact h b hb
      · rw [List.mem_singleton.mp hb]
        rfl
    · rw [List.append_assoc, ← heq]

/-- A line thrown away leaves the stream at a line, wherever in it the stream was. -/
theorem lineStart_skipLine (hs : s <:+ input) : LineStart input (skipLine s) := by
  rcases line_cases s with hrest | ⟨s', hrest, heq⟩
  · have hnil : skipLine s = [] := by rw [skipLine, hrest]; rfl
    rw [hnil]
    exact ⟨[], [], rfl, fun b hb => absurd hb List.not_mem_nil, Or.inl rfl⟩
  · have hskip : skipLine s = s' := by rw [skipLine, hrest]; rfl
    rw [hskip]
    exact lineStart_of_newline hs heq

/-- Behind a line that was taken whole, or all but blanks. -/
theorem lineStart_fgets {n : Nat} (hs : s <:+ input) (h : LineFits (n - 1) s) :
    LineStart input (fgets n s).2 := by
  have hsplit := getLine_snd (n - 1) s
  rw [fgets_snd]
  split at hsplit
  · obtain ⟨before, heq⟩ := hsplit
    exact lineStart_of_newline hs heq
  · rename_i hno
    rw [hsplit]
    exact lineStart_of_blanks ((List.drop_suffix _ _).trans hs) (h.resolve_left hno)

end LineStart

/-! ## Files -/

/-- `bs` written over the beginning of a file that is not truncated. -/
def overwrite (file bs : Bytes) : Bytes := bs ++ file.drop bs.length

end Universita.Lib

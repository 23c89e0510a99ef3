/-
  WHOLE TRANSFERS — `FullWrite` and `FullRead` of `libreria/wrapper.c`.

  A `write` or a `read` may move less than it was asked for, or be interrupted.  The two functions repeat
  the call until nothing is left.  Both go wrong in the condition of their `if`: `FullWrite` looks at
  `errno` where the call succeeded, and asks for `count` bytes again instead of the `nleft` that are
  left; `FullRead` assigns the comparison `read(..) < 0` to `nread`.

  Each is a `Loop` of the library: variables, and what one result of the call does to them.  What the calls return is
  the input, any sequence of results; a run that has used them up without an end has no value.  The sizes are
  `size_t`, 64 bits that wrap: asking again for `count` bytes may take `nleft` below zero, and the loop then runs for
  as long as the kernel takes bytes.

  The properties are about the bytes, each with its place, and the value that is returned.  Both conditions are
  exact, and for both the crux is that a run never recovers: a byte that was sent again or stored in the wrong
  place stays so, hence the first call that goes wrong decides, and the induction is on the results.

  Contents:
  1. `Ritorno` — what a call returns: some of the bytes it asked for, or an error with its `errno`.
  2. `fullWrite`, `Scritta` — the bytes that go out are those of the buffer, each once.
     **`scritta_iff`**: so it is when the writes add up to `count`, and none follows an interruption.
  3. `fullRead`, `Raccolta` — the bytes stored are the next ones of the stream.
     **`raccolta_iff`**: so it is when there is nothing to read.
-/
import Mathlib.Data.List.Range
import Universita.Lib.Buffer
import Universita.Lib.Loop

set_option linter.unusedVariables false

namespace Universita

open Lib

/-! ## Calls -/

/-- A positive `ssize_t`. -/
structure Quanti where
  /-- How many. -/
  val : Nat
  /-- At least one ... -/
  pos : 0 < val
  /-- ... and no more than the type holds. -/
  lt : val < 2 ^ 63
deriving DecidableEq

/-- What a call returns: it moves what it is asked for, up to `n` bytes, or sets `errno`. -/
inductive Ritorno where
  /-- It succeeds. -/
  | mossi (n : Quanti)
  /-- It returns -1. -/
  | errore (errno : Int)
deriving DecidableEq

/-- The call was interrupted by a signal. -/
def EINTR : Int := 4

/-- A `size_t` returned as `ssize_t`. -/
def ssize (n : UInt64) : Int := (n.toNat : Int).bmod (2 ^ 64)

/-- `while (nleft > 0) ..; return (nleft);` — whether the loop goes on, or what it returns. Both
    functions end so. -/
def finche (nleft : UInt64) : Option Int := if 0 < nleft then none else some (ssize nleft)

namespace Ritorno

/-- How many bytes a call for `n` of them moves. -/
def quanti : Ritorno → Nat → Nat
  | mossi k, n => min k.val n
  | errore _, _ => 0

/-- The value returned by a call that moved `n` bytes, unless it failed: then it is -1, and `errno` says
    why. -/
def valore : Ritorno → Nat → Int
  | mossi _, n => n
  | errore _, _ => -1

/-- `errno` keeps its value through a call that succeeds. -/
def errnoDopo : Ritorno → Int → Int
  | mossi _, errno => errno
  | errore e, _ => e

/-- Whether the call succeeded. -/
def riuscito : Ritorno → Bool
  | mossi _ => true
  | errore _ => false

/-- A call that succeeds moves something, if something was asked for. -/
theorem quanti_pos {k : Nat} (n : Quanti) (hk : 0 < k) : 0 < (mossi n).quanti k := Nat.lt_min.mpr ⟨n.pos, hk⟩

theorem quanti_le (r : Ritorno) (k : Nat) : r.quanti k ≤ k := by
  cases r with
  | mossi n => exact Nat.min_le_right _ _
  | errore e => exact Nat.zero_le _

end Ritorno

/-! ## What is left -/

section Resto

variable {nleft : UInt64} {k : Nat}

/-- Nothing is left: the loop is over. -/
theorem finche_zero (h : nleft = 0) : finche nleft = some 0 := by
  have hno : ¬ 0 < nleft := by simp [h]
  have hssize : ssize 0 = 0 := Int.zero_bmod
  rw [finche, if_neg hno, h, hssize]

theorem finche_ne_zero (h : nleft ≠ 0) : finche nleft = none := if_pos (UInt64.pos_iff_ne_zero.mpr h)

theorem finche_eq_some {v : Int} (h : finche nleft = some v) : v = ssize nleft := by
  unfold finche at h
  split at h
  · cases h
  · exact (Option.some.inj h).symm

theorem toNat_pos_iff : 0 < nleft.toNat ↔ nleft ≠ 0 := by
  rw [Nat.pos_iff_ne_zero, ne_eq, ne_eq, ← UInt64.toNat_inj, UInt64.toNat_zero]

/-- A subtraction that does not wrap. -/
theorem toNat_sub_ofNat (h : k ≤ nleft.toNat) : (nleft - UInt64.ofNat k).toNat = nleft.toNat - k := by
  have hk : (UInt64.ofNat k).toNat = k := UInt64.toNat_ofNat_of_lt' (h.trans_lt nleft.toNat_lt)
  have hle : UInt64.ofNat k ≤ nleft := UInt64.le_iff_toNat_le.mpr (by rw [hk]; exact h)
  rw [UInt64.toNat_sub_of_le _ _ hle, hk]

end Resto

/-! ## FullWrite -/

/-- The variables of `FullWrite`: `buf`, counted from where it started, `nleft`, and `errno`. -/
structure VarWrite where
  /-- How far the pointer is. -/
  buf : Nat
  /-- How many bytes are left, by the function's own count. -/
  nleft : UInt64
  /-- The variable of the C library, whose old value outlives a successful call. -/
  errno : Int

/-- `FullWrite` writes, and says with `perror` when a write failed.  Standard C lets `perror` change `errno`, and glibc
    does when `stderr` is used for the first time and is only open for writing; here it leaves `errno` alone, as it does on
    a terminal. -/
def fullWrite (count : UInt64) : Loop VarWrite Ritorno Int where
  exit s := finche s.nleft
  turn s r :=
    let nwritten := r.valore (r.quanti count.toNat)
    let errno := r.errnoDopo s.errno
    if 0 < nwritten then
      if errno = EINTR then .inl { s with errno }        -- `continue`
      else .inl ⟨s.buf + nwritten.toNat, s.nleft - UInt64.ofNat nwritten.toNat, errno⟩
    else .inl { s with errno }

/-- The places in memory, from the start of the buffer on, whose bytes a call puts on the descriptor. A
    call asks for `count` bytes, so they may lie behind the buffer. -/
def inviati (count : UInt64) (c : VarWrite × Ritorno) : List Nat :=
  List.range' c.1.buf (c.2.quanti count.toNat)

/-- A call after which `nleft` is diminished, by no more than it holds: not one that finds `EINTR`,
    after which the loop starts over. -/
def Sottratto (count : UInt64) (c : VarWrite × Ritorno) : Prop :=
  c.1.errno ≠ EINTR → c.2.quanti count.toNat ≤ c.1.nleft.toNat

/-- `Scritta count cs ritorno` — the calls of a `FullWrite`, and what it returned, are as they should
    be: each byte of the buffer once, and nothing else. -/
structure Scritta (count : UInt64) (cs : List (VarWrite × Ritorno)) (ritorno : Option Int) : Prop where
  /-- No byte from outside the buffer goes out. -/
  dentro : ∀ c ∈ cs, ∀ i ∈ inviati count c, i < count.toNat
  /-- Each of its bytes does, in order and once. -/
  ognuno_una_volta : cs.flatMap (inviati count) = List.range count.toNat
  /-- `nleft` is never diminished below zero. -/
  mai_sotto_zero : ∀ c ∈ cs, Sottratto count c
  /-- The function comes to an end and returns 0. -/
  zero : ritorno = some 0

/-- No call succeeds while `errno` is `EINTR`. An interruption leaves it there until another error
    replaces it, since a successful call does not. -/
def Pulita : Int → List Ritorno → Prop
  | _, [] => True
  | errno, .mossi _ :: rs => errno ≠ EINTR ∧ Pulita errno rs
  | _, .errore errno :: rs => Pulita errno rs

/-- How many bytes some calls for `count` of them move. -/
def totale (count : UInt64) : List Ritorno → Nat
  | [] => 0
  | r :: rs => r.quanti count.toNat + totale count rs

section FullWrite

variable {count : UInt64} {s : VarWrite} {n : Quanti} {e : Int} {rs : List Ritorno}

theorem fullWrite_fine (h : s.nleft = 0) : (fullWrite count).exit s = some 0 := finche_zero h

theorem fullWrite_ancora (h : s.nleft ≠ 0) : (fullWrite count).exit s = none := finche_ne_zero h

/-- A failed write changes `errno` alone, whatever the error ... -/
theorem fullWrite_errore : (fullWrite count).turn s (.errore e) = .inl { s with errno := e } := rfl

/-- ... one that finds `EINTR` there changes nothing, though its bytes are gone. -/
theorem fullWrite_EINTR (h : s.errno = EINTR) : (fullWrite count).turn s (.mossi n) = .inl s := by
  show (if _ then (if s.errno = EINTR then Sum.inl s else _) else Sum.inl s) = _
  rw [if_pos h, ite_self]

theorem fullWrite_mossi (hcount : count ≠ 0) (h : s.errno ≠ EINTR) : (fullWrite count).turn s (.mossi n) =
    .inl ⟨s.buf + (Ritorno.mossi n).quanti count.toNat,
      s.nleft - UInt64.ofNat ((Ritorno.mossi n).quanti count.toNat), s.errno⟩ := by
  have hpos : (0 : Int) < (Ritorno.mossi n).quanti count.toNat := by
    exact_mod_cast Ritorno.quanti_pos n (toNat_pos_iff.mpr hcount)
  show (if (0 : Int) < (Ritorno.mossi n).quanti count.toNat then
    (if s.errno = EINTR then Sum.inl s else _) else _) = _
  rw [if_pos hpos, if_neg h]
  rfl

/-- A run that comes to its end sends the byte `buf` points to before any other: so a byte that was sent
    while `errno` was `EINTR` is sent again. -/
theorem primo_inviato (hcount : count ≠ 0) {r : Int} (h : (fullWrite count).run s rs = some r)
    (hs : s.nleft ≠ 0) : ∃ is, ((fullWrite count).calls s rs).flatMap (inviati count) = s.buf :: is := by
  induction rs generalizing s with
  | nil =>
    rw [Loop.run, fullWrite_ancora hs] at h
    cases h
  | cons a rs ih =>
    cases a with
    | mossi n =>
      have hn := Ritorno.quanti_pos n (toNat_pos_iff.mpr hcount)
      obtain ⟨k, hk⟩ := Nat.exists_eq_succ_of_ne_zero hn.ne'
      obtain ⟨cs, hcs⟩ := Loop.calls_cons (L := fullWrite count) (fullWrite_ancora hs) (.mossi n) rs
      rw [hcs, List.flatMap_cons, inviati, hk, List.range'_succ]
      exact ⟨_, rfl⟩
    | errore e =>
      rw [Loop.run_next (fullWrite_ancora hs) fullWrite_errore] at h
      rw [Loop.calls_next (fullWrite_ancora hs) fullWrite_errore]
      exact ih h hs

/-- What is still to be done from some point of the loop on is done. It is the property seen from the
    middle of a run, and what the induction is on. -/
structure Finita (count : UInt64) (s : VarWrite) (rs : List Ritorno) : Prop where
  /-- The loop ends and returns 0 ... -/
  zero : (fullWrite count).run s rs = some 0
  /-- ... the bytes from `buf` on go out once ... -/
  inviati : ((fullWrite count).calls s rs).flatMap (inviati count) = List.range' s.buf s.nleft.toNat
  /-- ... and `nleft` is not diminished below zero. -/
  mai_sotto_zero : ∀ c ∈ (fullWrite count).calls s rs, Sottratto count c

theorem finita_zero (hs : s.nleft = 0) : Finita count s rs := by
  have hexit : (fullWrite count).exit s = some 0 := fullWrite_fine hs
  refine ⟨Loop.run_exit hexit rs, ?_, fun c hc => ?_⟩
  · rw [Loop.calls_exit hexit, hs]
    rfl
  · rw [Loop.calls_exit hexit] at hc
    exact absurd hc List.not_mem_nil

/-- An error is passed over, with its `errno`: nothing was moved, and the next call asks for the same
    bytes. -/
theorem finita_errore (hs : s.nleft ≠ 0) :
    Finita count s (.errore e :: rs) ↔ Finita count { s with errno := e } rs := by
  have hancora : (fullWrite count).exit s = none := fullWrite_ancora hs
  have hturn : (fullWrite count).turn s (.errore e) = .inl { s with errno := e } := fullWrite_errore
  have hrun := Loop.run_next hancora hturn rs
  have hcalls := Loop.calls_next hancora hturn rs
  constructor
  · rintro ⟨hzero, hinv, hsotto⟩
    rw [hcalls] at hinv hsotto
    exact ⟨hrun ▸ hzero, hinv, (List.forall_mem_cons.mp hsotto).2⟩
  · rintro ⟨hzero, hinv, hsotto⟩
    refine ⟨hrun.trans hzero, by rw [hcalls]; exact hinv, ?_⟩
    rw [hcalls]
    exact List.forall_mem_cons.mpr ⟨fun _ => Nat.zero_le _, hsotto⟩

/-- A write that finds `EINTR` sends bytes that will be sent again, or the run has no end: it was a
    success, and is taken for an interruption. -/
theorem not_finita_EINTR (hcount : count ≠ 0) (hs : s.nleft ≠ 0) (he : s.errno = EINTR) :
    ¬ Finita count s (.mossi n :: rs) := by
  rintro ⟨hzero, hinv, -⟩
  rw [Loop.run_next (fullWrite_ancora hs) (fullWrite_EINTR he)] at hzero
  rw [Loop.calls_next (fullWrite_ancora hs) (fullWrite_EINTR he), List.flatMap_cons] at hinv
  obtain ⟨is, his⟩ := primo_inviato hcount hzero hs
  rw [his] at hinv
  have hnodup : (Universita.inviati count (s, .mossi n) ++ s.buf :: is).Nodup := hinv ▸ List.nodup_range'
  have hmem : s.buf ∈ Universita.inviati count (s, .mossi n) :=
    List.mem_range'_1.mpr ⟨Nat.le_refl _, Nat.lt_add_of_pos_right (Ritorno.quanti_pos n (toNat_pos_iff.mpr hcount))⟩
  exact (List.nodup_append.mp hnodup).2.2 s.buf hmem s.buf List.mem_cons_self rfl

/-- A write that counts must not be longer than what is left; then the rest has to be done from behind it. -/
theorem finita_mossi (hcount : count ≠ 0) (hs : s.nleft ≠ 0) (he : s.errno ≠ EINTR) :
    Finita count s (.mossi n :: rs) ↔ (Ritorno.mossi n).quanti count.toNat ≤ s.nleft.toNat ∧
      Finita count ⟨s.buf + (Ritorno.mossi n).quanti count.toNat,
        s.nleft - UInt64.ofNat ((Ritorno.mossi n).quanti count.toNat), s.errno⟩ rs := by
  have hturn := fullWrite_mossi (n := n) hcount he
  have hrun := Loop.run_next (fullWrite_ancora hs) hturn rs
  have hcalls := Loop.calls_next (fullWrite_ancora hs) hturn rs
  generalize hk : (Ritorno.mossi n).quanti count.toNat = k at *
  -- no more than `nleft` was moved, so the subtraction does not wrap and the rest is what is left to do
  have hrange (hle : k ≤ s.nleft.toNat) : List.range' s.buf s.nleft.toNat =
      List.range' s.buf k ++ List.range' (s.buf + k) (s.nleft - UInt64.ofNat k).toNat := by
    rw [List.range'_append_1, toNat_sub_ofNat hle, Nat.add_sub_of_le hle]
  have hprima : Universita.inviati count (s, .mossi n) = List.range' s.buf k := by
    rw [Universita.inviati, hk]
  constructor
  · rintro ⟨hzero, hinv, hsotto⟩
    rw [hcalls] at hinv hsotto
    have hle : k ≤ s.nleft.toNat := hk ▸ hsotto _ List.mem_cons_self he
    refine ⟨hle, hrun ▸ hzero, ?_, (List.forall_mem_cons.mp hsotto).2⟩
    rw [List.flatMap_cons, hprima, hrange hle] at hinv
    exact List.append_cancel_left hinv
  · rintro ⟨hle, hzero, hinv, hsotto⟩
    refine ⟨hrun.trans hzero, ?_, ?_⟩
    · rw [hcalls, List.flatMap_cons, hprima, hrange hle, hinv]
    · rw [hcalls]
      exact List.forall_mem_cons.mpr ⟨fun _ => hk ▸ hle, hsotto⟩

/-- A beginning of the results that moves something takes the first of them. -/
theorem prefisso_cons {r : Ritorno} {k : Nat} {P : List Ritorno → Prop} (hk : 0 < k) :
    (∃ pre, pre <+: r :: rs ∧ totale count pre = k ∧ P pre) ↔
      ∃ pre, pre <+: rs ∧ r.quanti count.toNat + totale count pre = k ∧ P (r :: pre) := by
  constructor
  · rintro ⟨pre, hpre, hsum, hP⟩
    cases pre with
    | nil => exact absurd hsum hk.ne
    | cons r' pre =>
      obtain ⟨rfl, htail⟩ := List.cons_prefix_cons.mp hpre
      exact ⟨pre, htail, hsum, hP⟩
  · rintro ⟨pre, hpre, hsum, hP⟩
    exact ⟨r :: pre, List.cons_prefix_cons.mpr ⟨rfl, hpre⟩, hsum, hP⟩

/-- Nothing has to be moved: the empty beginning does. -/
theorem prefisso_nil (hs : s.nleft = 0) :
    ∃ pre, pre <+: rs ∧ totale count pre = s.nleft.toNat ∧ Pulita s.errno pre :=
  ⟨[], List.nil_prefix, by rw [hs]; rfl, trivial⟩

/-- From any point of the loop: the writes to come add up to `nleft`, and none of them finds `EINTR`. By
    induction on the results, each of which is an error, a write that counts, or one that spoils the
    run. -/
theorem finita_iff (hcount : count ≠ 0) : Finita count s rs ↔
    ∃ pre, pre <+: rs ∧ totale count pre = s.nleft.toNat ∧ Pulita s.errno pre := by
  -- on the results: an error changes `errno`, a write that finds `EINTR` there spoils the run, any
  -- other diminishes `nleft`
  induction rs generalizing s with
  | nil =>
    by_cases hs : s.nleft = 0
    · exact iff_of_true (finita_zero hs) (prefisso_nil hs)
    · refine iff_of_false (fun h => ?_) ?_
      · have hrun := h.zero
        rw [Loop.run, fullWrite_ancora hs] at hrun
        cases hrun
      · rintro ⟨pre, hpre, hsum, -⟩
        rw [List.prefix_nil.mp hpre] at hsum
        exact (toNat_pos_iff.mpr hs).ne hsum
  | cons r rs ih =>
    by_cases hs : s.nleft = 0
    · exact iff_of_true (finita_zero hs) (prefisso_nil hs)
    · have hpos := toNat_pos_iff.mpr hs
      rw [prefisso_cons hpos]
      cases r with
      | errore e =>
        rw [finita_errore hs, ih]
        simp only [Ritorno.quanti, Nat.zero_add, Pulita]
      | mossi n =>
        -- the state of `errno` decides whether this write counts
        by_cases he : s.errno = EINTR
        · refine iff_of_false (not_finita_EINTR hcount hs he) ?_
          rintro ⟨pre, -, -, hne, -⟩
          exact hne he
        · rw [finita_mossi hcount hs he, ih]
          generalize (Ritorno.mossi n).quanti count.toNat = k
          constructor
          · rintro ⟨hle, pre, hpre, hsum, hpul⟩
            rw [toNat_sub_ofNat hle] at hsum
            exact ⟨pre, hpre, by omega, he, hpul⟩
          · rintro ⟨pre, hpre, hsum, -, hpul⟩
            have hle : k ≤ s.nleft.toNat := by omega
            exact ⟨hle, pre, hpre, by rw [toNat_sub_ofNat hle]; omega, hpul⟩

/-- **`FullWrite` sends its buffer, each byte once, when the writes add up to exactly `count`** and no
    write before that succeeds while `errno` is `EINTR`. The results of the writes are arbitrary, and
    `errno` may hold anything at the start; a short write is harmless only when the next ones end
    exactly where the buffer does. -/
theorem scritta_iff (count : UInt64) (errno : Int) (rs : List Ritorno) :
    Scritta count ((fullWrite count).calls ⟨0, count, errno⟩ rs) ((fullWrite count).run ⟨0, count, errno⟩ rs) ↔
      ∃ pre, pre <+: rs ∧ totale count pre = count.toNat ∧ Pulita errno pre := by
  have hfinita : Scritta count ((fullWrite count).calls ⟨0, count, errno⟩ rs)
      ((fullWrite count).run ⟨0, count, errno⟩ rs) ↔ Finita count ⟨0, count, errno⟩ rs := by
    constructor
    · intro h
      exact ⟨h.zero, h.ognuno_una_volta.trans List.range_eq_range', h.mai_sotto_zero⟩
    · intro h
      have hrange : _ = List.range count.toNat := h.inviati.trans List.range_eq_range'.symm
      refine ⟨fun c hc i hi => ?_, hrange, h.mai_sotto_zero, h.zero⟩
      exact List.mem_range.mp (hrange ▸ List.mem_flatMap.mpr ⟨c, hc, hi⟩)
  rw [hfinita]
  by_cases hcount : count = 0
  · subst hcount
    exact iff_of_true (finita_zero rfl) ⟨[], List.nil_prefix, rfl, trivial⟩
  · exact finita_iff hcount

/-- Three of four bytes are written; the next call asks for four again, and is given four. -/
theorem scritta_oltre : ¬ ∀ (count : UInt64) (errno : Int) (rs : List Ritorno),
    count.toNat ≤ totale count rs →
    Scritta count ((fullWrite count).calls ⟨0, count, errno⟩ rs)
      ((fullWrite count).run ⟨0, count, errno⟩ rs) := by
  intro h
  have := (h 4 0 [.mossi ⟨3, by decide, by decide⟩, .mossi ⟨4, by decide, by decide⟩]
    (by decide)).ognuno_una_volta
  revert this
  decide

example : (fullWrite 4).run ⟨0, 4, 0⟩ [.mossi ⟨3, by decide, by decide⟩, .errore 11,
    .mossi ⟨1, by decide, by decide⟩] = some 0 := by decide

end FullWrite

/-! ## FullRead -/

/-- The variables of `FullRead`, and the bytes of the stream that were not read yet. -/
structure VarRead where
  /-- How far the pointer is. -/
  buf : Nat
  /-- How many bytes are left, by the function's own count. -/
  nleft : UInt64
  /-- The variable of the C library. -/
  errno : Int
  /-- What is still to be read. -/
  flusso : Bytes

/-- The bytes a call takes from the stream: at its end, none. -/
def presi (c : VarRead × Ritorno) : Bytes := c.1.flusso.take (c.2.quanti c.1.nleft.toNat)

/-- `nread = read(..) < 0`: what is assigned is the comparison, 1 for an error and 0 for any success.
    The parenthesis stands in the wrong place. -/
def nread (valore : Int) : Nat := if valore < 0 then 1 else 0

/-- `FullRead`: the comparison makes a successful read look like the end of the stream, and an error
    like one byte. -/
def fullRead : Loop VarRead Ritorno Int where
  exit s := finche s.nleft
  turn s r :=
    let dati := presi (s, r)
    let errno := r.errnoDopo s.errno
    let flusso := s.flusso.drop dati.length
    let nread := nread (r.valore dati.length)
    if nread ≠ 0 ∧ errno = EINTR then .inl { s with errno, flusso }
    else if nread = 0 then .inr (ssize s.nleft)
    else .inl ⟨s.buf + nread, s.nleft - UInt64.ofNat nread, errno, flusso⟩

/-- The bytes a call stores, each with its place in the buffer. -/
def memorizzati (c : VarRead × Ritorno) : List (Byte × Nat) := (presi c).zipIdx c.1.buf

/-- `Raccolta count flusso cs ritorno` — the calls of a `FullRead` on a stream, and what it returned,
    are as they should be: the next bytes of the stream, each in its place. -/
structure Raccolta (count : UInt64) (flusso : Bytes) (cs : List (VarRead × Ritorno)) (ritorno : Option Int) :
    Prop where
  /-- The bytes stored are the next ones of the stream, from the start of the buffer on ... -/
  contigui : cs.flatMap memorizzati = (flusso.take count.toNat).zipIdx
  /-- ... inside the buffer ... -/
  dentro : ∀ c ∈ cs, ∀ b ∈ memorizzati c, b.2 < count.toNat
  /-- ... what is returned is how many are missing ... -/
  mancanti : ritorno = some ((count.toNat : Int) - (cs.flatMap memorizzati).length)
  /-- ... and that is none exactly when the stream had enough. -/
  tutti : ritorno = some 0 ↔ count.toNat ≤ flusso.length

/-- What `FullRead` counts for an error: the 1 that the comparison left in `nread`. -/
def costo (errno : Int) : Nat := if errno = EINTR then 0 else 1

/-- What it counts for a sequence of results. -/
def perduti : List Ritorno → Nat
  | [] => 0
  | .mossi _ :: rs => perduti rs
  | .errore e :: rs => costo e + perduti rs

section FullRead

variable {count : UInt64} {s : VarRead} {n : Quanti} {e : Int} {rs : List Ritorno}

theorem fullRead_fine (h : s.nleft = 0) : fullRead.exit s = some 0 := finche_zero h

theorem fullRead_ancora (h : s.nleft ≠ 0) : fullRead.exit s = none := finche_ne_zero h

/-- An error costs a byte, unless it is `EINTR`. -/
theorem fullRead_errore :
    fullRead.turn s (.errore e) = .inl ⟨s.buf + costo e, s.nleft - UInt64.ofNat (costo e), e, s.flusso⟩ := by
  by_cases h : e = EINTR
  · subst h
    show Sum.inl (VarRead.mk s.buf s.nleft EINTR s.flusso) = .inl ⟨s.buf, s.nleft - 0, EINTR, s.flusso⟩
    rw [UInt64.sub_zero]
  · show (if (1 : Nat) ≠ 0 ∧ e = EINTR then _ else _) = _
    rw [if_neg fun hc => h hc.2, costo, if_neg h]
    rfl

/-- A read that succeeds is the last one. -/
theorem fullRead_mossi : fullRead.turn s (.mossi n) = .inr (ssize s.nleft) := by
  have hnread : nread ((presi (s, .mossi n)).length : Int) = 0 := if_neg (by omega)
  simp only [fullRead, Ritorno.valore, hnread]
  rfl

/-- A call takes no more than is left. -/
theorem length_presi_le (c : VarRead × Ritorno) : (presi c).length ≤ c.1.nleft.toNat :=
  (List.length_take_le _ _).trans (Ritorno.quanti_le _ _)

/-- An error costs no more than is left. -/
theorem costo_le (hs : s.nleft ≠ 0) (e : Int) : costo e ≤ s.nleft.toNat := by
  have hpos := toNat_pos_iff.mpr hs
  unfold costo
  split <;> omega

/-- What is behind `buf` and what is left are always the buffer: each turn moves a boundary and nothing
    else. -/
theorem fullRead_turn {s' : VarRead} {r : Ritorno} (hs : s.nleft ≠ 0) (ht : fullRead.turn s r = .inl s') :
    s'.buf + s'.nleft.toNat = s.buf + s.nleft.toNat := by
  cases r with
  | mossi n =>
    rw [fullRead_mossi] at ht
    cases ht
  | errore e =>
    rw [fullRead_errore] at ht
    obtain rfl := Sum.inl.inj ht
    have hle := costo_le hs e
    have hsub := toNat_sub_ofNat hle
    show s.buf + costo e + (s.nleft - UInt64.ofNat (costo e)).toNat = _
    omega

/-- A turn that ends the loop returns what was left before it. -/
theorem fullRead_leave {r : Ritorno} {v : Int} (ht : fullRead.turn s r = .inr v) : v = ssize s.nleft := by
  cases r with
  | mossi n =>
    rw [fullRead_mossi] at ht
    exact (Sum.inr.inj ht).symm
  | errore e =>
    rw [fullRead_errore] at ht
    cases ht

/-- Whatever the calls return: no byte is stored outside the buffer, and not more are said to be missing
    than were asked for. So much is right even where the count is not. -/
theorem fullRead_sicura (errno : Int) (flusso : Bytes) :
    (∀ v, fullRead.run ⟨0, count, errno, flusso⟩ rs = some v → ∃ m ≤ count, v = ssize m) ∧
    ∀ c ∈ fullRead.calls ⟨0, count, errno, flusso⟩ rs, ∀ b ∈ memorizzati c, b.2 < count.toNat := by
  have hancora {s : VarRead} (h : fullRead.exit s = none) : s.nleft ≠ 0 := fun hs => by
    rw [fullRead_fine hs] at h
    cases h
  have hmanca {s : VarRead} (h : s.buf + s.nleft.toNat = count.toNat) : s.nleft ≤ count :=
    UInt64.le_iff_toNat_le.mpr (by omega)
  -- `buf` and `nleft` always add up to `count`
  obtain ⟨hrun, hcalls⟩ := Loop.rule (L := fullRead) (s := ⟨0, count, errno, flusso⟩)
    (I := fun s => s.buf + s.nleft.toNat = count.toNat) (Q := fun v => ∃ m ≤ count, v = ssize m) rs
    (Nat.zero_add _) (fun s v hI hs => ⟨s.nleft, hmanca hI, finche_eq_some hs⟩)
    (fun s r s' hI hs ht => (fullRead_turn (hancora hs) ht).trans hI)
    fun s r v hI _ ht => ⟨s.nleft, hmanca hI, fullRead_leave ht⟩
  refine ⟨hrun, fun c hc b hb => ?_⟩
  have hI := (hcalls c hc).1
  have hlt : b.2 < (presi c).length + c.1.buf := List.snd_lt_of_mem_zipIdx hb
  have hle := length_presi_le c
  omega

/-- **What a run does**: it ends at the first read that succeeds, or when errors have used up `nleft`.
    In the first case it stores what that read has brought, behind as many places as errors were
    counted. -/
theorem fullRead_cases {v : Int} (h : fullRead.run s rs = some v) :
    (fullRead.calls s rs).flatMap memorizzati = [] ∧ v = 0 ∨
    ∃ pre n post, rs = pre ++ .mossi n :: post ∧ (∀ r ∈ pre, ∃ e, r = .errore e) ∧
      perduti pre < s.nleft.toNat ∧ v = ((s.nleft.toNat - perduti pre : Nat) : Int).bmod (2 ^ 64) ∧
      (fullRead.calls s rs).flatMap memorizzati =
        (s.flusso.take (min n.val (s.nleft.toNat - perduti pre))).zipIdx (s.buf + perduti pre) := by
  induction rs generalizing s with
  | nil =>
    by_cases hs : s.nleft = 0
    · rw [Loop.run_exit (fullRead_fine hs)] at h
      exact Or.inl ⟨rfl, (Option.some.inj h).symm⟩
    · rw [Loop.run, fullRead_ancora hs] at h
      cases h
  | cons r rs ih =>
    by_cases hs : s.nleft = 0
    · rw [Loop.run_exit (fullRead_fine hs)] at h
      rw [Loop.calls_exit (fullRead_fine hs)]
      exact Or.inl ⟨rfl, (Option.some.inj h).symm⟩
    · have hancora := fullRead_ancora hs
      cases r with
      | mossi n =>
        have hpos := toNat_pos_iff.mpr hs
        rw [Loop.run_leave hancora fullRead_mossi] at h
        rw [Loop.calls_leave hancora fullRead_mossi, List.flatMap_singleton]
        exact Or.inr ⟨[], n, rs, rfl, fun _ h => absurd h List.not_mem_nil, hpos,
          (Option.some.inj h).symm, rfl⟩
      | errore e =>
        -- the rest is a run in a buffer that is shorter by `costo e`
        have hle := costo_le hs e
        have hsub := toNat_sub_ofNat hle
        rw [Loop.run_next hancora fullRead_errore] at h
        rw [Loop.calls_next hancora fullRead_errore, List.flatMap_cons]
        rcases ih h with hn | ⟨pre, n, post, rfl, hpre, hlt, hv, hm⟩
        · exact Or.inl hn
        · rw [hsub] at hlt hv hm
          have heq : s.nleft.toNat - costo e - perduti pre = s.nleft.toNat - perduti (.errore e :: pre) := by
            rw [perduti, Nat.sub_sub]
          refine Or.inr ⟨.errore e :: pre, n, post, rfl, fun r hr => ?_, ?_, heq ▸ hv, ?_⟩
          · rcases List.mem_cons.mp hr with rfl | hr
            · exact ⟨e, rfl⟩
            · exact hpre r hr
          · rw [perduti]
            omega
          · rw [heq, Nat.add_assoc] at hm
            exact hm

theorem fullRead_interrotta {pre : List Ritorno} (hpre : ∀ r ∈ pre, r = .errore EINTR) (n : Quanti)
    (post : List Ritorno) (hs : s.nleft ≠ 0) :
    fullRead.run s (pre ++ .mossi n :: post) = some (ssize s.nleft) ∧
      (fullRead.calls s (pre ++ .mossi n :: post)).flatMap memorizzati =
        (s.flusso.take (min n.val s.nleft.toNat)).zipIdx s.buf := by
  induction pre generalizing s with
  | nil =>
    rw [List.nil_append, Loop.run_leave (fullRead_ancora hs) fullRead_mossi,
      Loop.calls_leave (fullRead_ancora hs) fullRead_mossi, List.flatMap_singleton]
    exact ⟨rfl, rfl⟩
  | cons r pre ih =>
    obtain rfl := hpre r List.mem_cons_self
    have hturn : fullRead.turn s (.errore EINTR) = .inl { s with errno := EINTR } := rfl
    rw [List.cons_append, Loop.run_next (fullRead_ancora hs) hturn,
      Loop.calls_next (fullRead_ancora hs) hturn, List.flatMap_cons]
    exact ih (fun r hr => hpre r (List.mem_cons_of_mem _ hr)) hs

/-- Errors that cost nothing are interruptions; every other error takes one from the count of what is left. -/
theorem perduti_eq_zero {pre : List Ritorno} (hpre : ∀ r ∈ pre, ∃ e, r = .errore e) (h : perduti pre = 0) :
    ∀ r ∈ pre, r = .errore EINTR := by
  induction pre with
  | nil => exact fun _ hr => absurd hr List.not_mem_nil
  | cons r pre ih =>
    obtain ⟨e, rfl⟩ := hpre r List.mem_cons_self
    rw [perduti, Nat.add_eq_zero_iff] at h
    intro r hr
    rcases List.mem_cons.mp hr with rfl | hr
    · by_contra hne
      have he : e ≠ EINTR := fun he => hne (by rw [he])
      rw [costo, if_neg he] at h
      exact absurd h.1 Nat.one_ne_zero
    · exact ih (fun r hr => hpre r (List.mem_cons_of_mem _ hr)) h.2 r hr

/-- The byte a run stores first is the first of the stream; it is in its place after no error, and then it
    is not subtracted. -/
theorem flusso_eq_nil {flusso : Bytes} {k p : Nat} (hk : 0 < k) (hp : p < count.toNat)
    (hcontigui : (flusso.take k).zipIdx p = (flusso.take count.toNat).zipIdx)
    (hmancanti : (count.toNat : Int) - ((flusso.take count.toNat).zipIdx).length =
      ((count.toNat - p : Nat) : Int).bmod (2 ^ 64)) : flusso = [] := by
  have hlt := count.toNat_lt
  rw [List.length_zipIdx, List.length_take, Int.bmod_def] at hmancanti
  cases flusso with
  | nil => rfl
  | cons b bs =>
    obtain ⟨k, rfl⟩ := Nat.exists_eq_succ_of_ne_zero hk.ne'
    obtain ⟨c, hc⟩ := Nat.exists_eq_succ_of_ne_zero (Nat.ne_zero_of_lt hp)
    rw [hc, List.take_succ_cons, List.take_succ_cons, List.zipIdx_cons, List.zipIdx_cons] at hcontigui
    have hp0 : p = 0 := congrArg Prod.snd (List.cons.inj hcontigui).1
    rw [List.length_cons] at hmancanti
    split at hmancanti <;> omega

theorem raccolta_zero (hcount : count = 0) (errno : Int) (flusso : Bytes) (rs : List Ritorno) :
    Raccolta count flusso (fullRead.calls ⟨0, count, errno, flusso⟩ rs)
      (fullRead.run ⟨0, count, errno, flusso⟩ rs) := by
  subst hcount
  have hexit : fullRead.exit ⟨0, 0, errno, flusso⟩ = some 0 := fullRead_fine rfl
  have hrun : fullRead.run ⟨0, 0, errno, flusso⟩ rs = some 0 := Loop.run_exit hexit rs
  refine ⟨?_, (fullRead_sicura errno flusso).2, ?_, iff_of_true hrun (Nat.zero_le _)⟩
  · rw [Loop.calls_exit hexit]
    rfl
  · rw [hrun, Loop.calls_exit hexit]
    rfl

/-- **`FullRead` collects its item when there is none**: no byte is asked for, or the stream is at its end
    (and the calls before the one that says so were only interrupted). -/
theorem raccolta_iff (count : UInt64) (errno : Int) (flusso : Bytes) (rs : List Ritorno) :
    Raccolta count flusso (fullRead.calls ⟨0, count, errno, flusso⟩ rs)
        (fullRead.run ⟨0, count, errno, flusso⟩ rs) ↔
      count = 0 ∨ flusso = [] ∧ count.toNat < 2 ^ 63 ∧
        ∃ pre n post, rs = pre ++ .mossi n :: post ∧ ∀ r ∈ pre, r = .errore EINTR := by
  constructor
  · intro h
    rcases fullRead_cases h.mancanti with ⟨hm, hv⟩ | ⟨pre, n, post, hrs, hpre, hlt, hv, hm⟩
    · left
      rw [hm] at hv
      exact UInt64.toNat_inj.mp (by simpa using hv)
    · right
      have hk : 0 < min n.val (count.toNat - perduti pre) := Nat.lt_min.mpr ⟨n.pos, Nat.sub_pos_of_lt hlt⟩
      rw [h.contigui] at hm hv
      -- a first byte would be stored behind `perduti pre` others, and counted as missing
      have hnil := flusso_eq_nil hk hlt (by rw [hm, Nat.zero_add]) hv
      rw [hnil, List.take_nil, Int.bmod_def] at hv
      have h63 : count.toNat < 2 ^ 63 ∧ perduti pre = 0 := by
        have := count.toNat_lt
        simp only [List.zipIdx_nil, List.length_nil] at hv
        split at hv <;> omega
      exact ⟨hnil, h63.1, pre, n, post, hrs, perduti_eq_zero hpre h63.2⟩
  · rintro (hcount | ⟨rfl, hlt, pre, n, post, rfl, hpre⟩)
    · exact raccolta_zero hcount errno flusso rs
    -- the first read that succeeds returns 0
    · by_cases hcount : count = 0
      · exact raccolta_zero hcount errno [] _
      · obtain ⟨hrun, hstored⟩ := fullRead_interrotta (s := ⟨0, count, errno, []⟩) hpre n post hcount
        rw [List.take_nil, List.zipIdx_nil] at hstored
        have hssize : ssize count = count.toNat := Int.bmod_eq_of_le (by omega) (by omega)
        rw [hssize] at hrun
        refine ⟨?_, (fullRead_sicura errno []).2, ?_, ?_⟩
        · rw [hstored, List.take_nil, List.zipIdx_nil]
        · rw [hrun, hstored, List.length_nil, Int.natCast_zero, Int.sub_zero]
        · rw [hrun, List.length_nil, Option.some_inj]
          omega

/-- A stream of one byte: it is stored, and one byte is said to be missing, since a read that succeeds
    is taken for the end. -/
theorem raccolta_mancata : ¬ ∀ (count : UInt64) (errno : Int) (flusso : Bytes) (rs : List Ritorno),
    min count.toNat (flusso.length + 1) ≤ rs.countP Ritorno.riuscito →
    Raccolta count flusso (fullRead.calls ⟨0, count, errno, flusso⟩ rs)
      (fullRead.run ⟨0, count, errno, flusso⟩ rs) := by
  intro h
  have := (h 1 0 [65] [.mossi ⟨1, by decide, by decide⟩] (by decide)).mancanti
  revert this
  decide

end FullRead

end Universita

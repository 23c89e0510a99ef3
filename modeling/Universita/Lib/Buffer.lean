/-
  C MEMORY — byte buffers of a fixed size, C strings in them, and 32-bit integers.

  A C variable is memory of a known size.  `Buffer n` carries that size as a field, so no operation can
  lose or gain a byte and no later proof has to say that a length is kept.  What a `read` stores is
  `overlay`: the received bytes over the front of the buffer, everything after them untouched — a short
  read leaves the tail, an empty read leaves it all.  That one rule is why a C program that reads into a
  buffer twice can find a piece of the first text behind the second.

  The crux is what lies at ONE position after several such reads.  `lastAt j rs x` folds the reads over
  the byte that was at `j`; it has two exact descriptions, and `lastAt_cases` says that one of them
  always applies:
    * no read reaches `j`, and the byte is the old one (`lastAt_of_short`);
    * some read reaches `j`, no later one does, and the byte is what it brought (`lastAt_of_getD`).
  With them "there is a NUL in this buffer" becomes a statement about what the reads brought.

  Contents:
  1. `Buffer n`, `Buffer.zero`, `Buffer.overlay`, `Buffer.poke`.
  2. `Buffer.lastAt` — a position under a sequence of reads.
  3. `cstr` — the C string at the start of some memory: the bytes before the first NUL.  It does not look
     behind a NUL (`cstr_append_of_mem`) and runs on where there is none (`cstr_append_of_notMem`).
  4. `leNat`/`toLE` — little-endian bytes, and `Buffer.toInt`/`Buffer.ofInt`, the `int` view of four of
     them in two's complement.  The two views are inverse to each other, so sending an `int` and reading
     four bytes back is the identity on numbers in range.
-/
import Mathlib.Algebra.Group.Int.Defs
import Mathlib.Algebra.Group.Nat.Defs
import Mathlib.Data.List.GetD
import Mathlib.Data.List.TakeWhile

set_option linter.unusedVariables false

namespace Universita.Lib

/-- One byte of memory or of a stream. -/
abbrev Byte := UInt8

/-- Any piece of memory or of a stream. Its length is not part of the type: reads and writes can be short. -/
abbrev Bytes := List UInt8

/-- The bytes of an ASCII text. -/
def ascii (s : String) : Bytes := s.toList.map fun c => c.toNat.toUInt8

/-! ## Buffers -/

/-- Memory of exactly `n` bytes. -/
structure Buffer (n : Nat) where
  /-- What the memory holds. -/
  bytes : Bytes
  /-- Its size never changes. -/
  size_eq : bytes.length = n
deriving DecidableEq

namespace Buffer

variable {n : Nat}

/-- A buffer is its bytes: the length is a proof and two proofs are the same. -/
theorem ext {b c : Buffer n} (h : b.bytes = c.bytes) : b = c := by
  cases b; cases c; simpa using h

/-- `char buf[n] = {0}`: the memory a fresh array starts from. -/
def zero (n : Nat) : Buffer n := ⟨List.replicate n 0, List.length_replicate⟩

instance : Inhabited (Buffer n) := ⟨zero n⟩

/-- `bs` stored over the front of the buffer; what lies past its end stays. -/
def overlay (b : Buffer n) (bs : Bytes) : Buffer n :=
  ⟨bs.take n ++ b.bytes.drop bs.length, by
    have := b.size_eq
    simp only [List.length_append, List.length_take, List.length_drop]; omega⟩

/-- The end of the stream stores nothing: the buffer keeps what it had. -/
@[simp] theorem overlay_nil (b : Buffer n) : b.overlay [] = b := ext (by simp [overlay])

/-- A read never asks for more than the buffer holds, and then `overlay` is "what came, then the old tail". -/
theorem overlay_bytes_of_le {b : Buffer n} {bs : Bytes} (h : bs.length ≤ n) :
    (b.overlay bs).bytes = bs ++ b.bytes.drop bs.length := by
  simp only [overlay, List.take_of_length_le h]

/-- A read that fills the buffer forgets what was there: afterwards it is the buffer that was sent. -/
theorem overlay_full (b c : Buffer n) : b.overlay c.bytes = c := by
  apply ext
  rw [overlay_bytes_of_le (Nat.le_of_eq c.size_eq), List.drop_of_length_le, List.append_nil]
  rw [b.size_eq, c.size_eq]

/-- Position by position: what came where something came, the old byte behind it. Past the end of what
    came, `getD` gives its default, which is the old byte. -/
theorem getD_overlay (b : Buffer n) (bs : Bytes) {j : Nat} (hj : j < n) :
    (b.overlay bs).bytes.getD j 0 = bs.getD j (b.bytes.getD j 0) := by
  simp only [overlay, List.getD_eq_getElem?_getD]
  by_cases h : j < bs.length
  · have hlen : j < (bs.take n).length := by
      rw [List.length_take]
      omega
    rw [List.getElem?_append_left hlen, List.getElem?_take_of_lt hj, List.getElem?_eq_getElem h]
    rfl
  -- behind what came, the position counts from the start of the old memory
  · have hlen : (bs.take n).length = bs.length := by
      rw [List.length_take]
      omega
    rw [List.getElem?_append_right (by omega), hlen, List.getElem?_drop, Nat.add_sub_of_le (by omega),
      List.getElem?_eq_none (by omega : bs.length ≤ j)]
    rfl

/-- What is at `j` once `rs` were stored over the front, one after the other, where `x` was. -/
def lastAt (j : Nat) (rs : List Bytes) (x : Byte) : Byte := rs.foldl (fun v bs => bs.getD j v) x

/-- The same for any number of reads into one buffer: a variable that is used again and again. -/
theorem getD_overlays {j : Nat} (hj : j < n) (rs : List Bytes) : ∀ b : Buffer n,
    (rs.foldl overlay b).bytes.getD j 0 = lastAt j rs (b.bytes.getD j 0) := by
  induction rs with
  | nil => exact fun b => rfl
  | cons bs rs ih =>
    intro b
    rw [List.foldl_cons, ih, getD_overlay b bs hj]
    rfl

/-- What none of them reaches stays as it was before the first. -/
theorem lastAt_of_short {j : Nat} {rs : List Bytes} (h : ∀ bs ∈ rs, bs.length ≤ j) (x : Byte) : lastAt j rs x = x := by
  induction rs with
  | nil => rfl
  | cons bs rs ih =>
    have hbs : bs.getD j x = x := by
      rw [List.getD_eq_getElem?_getD, List.getElem?_eq_none (h bs List.mem_cons_self)]
      rfl
    rw [lastAt, List.foldl_cons, hbs]
    exact ih fun bs' hbs' => h bs' (List.mem_cons_of_mem _ hbs')

/-- The last of them to reach `j` decides: read `k` brings `v` there and no later one is long enough. -/
theorem lastAt_of_getD {j : Nat} {v : Byte} : ∀ {rs : List Bytes} {k : Nat}, (rs.getD k [])[j]? = some v →
    (∀ bs ∈ rs.drop (k + 1), bs.length ≤ j) → ∀ x, lastAt j rs x = v
  | [], k, h, _, x => by simp at h
  | bs :: rs, 0, h, hdopo, x => by
    have hbs : bs.getD j x = v := by
      rw [List.getD_eq_getElem?_getD, show bs[j]? = some v from h]
      rfl
    rw [lastAt, List.foldl_cons, hbs]
    exact lastAt_of_short hdopo v
  | bs :: rs, k + 1, h, hdopo, x => by
    have h : (rs.getD k [])[j]? = some v := h
    exact lastAt_of_getD h hdopo (bs.getD j x)

/-- **The two cases are exhaustive.** Either none of them reaches `j`, or one of them is the last to,
    and the byte is what that one brought. -/
theorem lastAt_cases (j : Nat) (rs : List Bytes) (x : Byte) :
    (∀ bs ∈ rs, bs.length ≤ j) ∧ lastAt j rs x = x ∨
      ∃ k < rs.length, (rs.getD k [])[j]? = some (lastAt j rs x) ∧ ∀ bs ∈ rs.drop (k + 1), bs.length ≤ j := by
  induction rs generalizing x with
  | nil => exact Or.inl ⟨fun bs hbs => absurd hbs List.not_mem_nil, rfl⟩
  | cons bs rs ih =>
    -- by the tail of the reads: a later one decides, or the first does if it is long enough
    rcases ih (bs.getD j x) with ⟨hcorti, hx⟩ | ⟨k, hk, hv, hdopo⟩
    · by_cases hj : j < bs.length
      · refine Or.inr ⟨0, Nat.succ_pos _, ?_, hcorti⟩
        show bs[j]? = some (lastAt j rs (bs.getD j x))
        rw [hx, List.getD_eq_getElem _ _ hj, List.getElem?_eq_getElem hj]
      · have hbs : bs.getD j x = x := by
          rw [List.getD_eq_getElem?_getD, List.getElem?_eq_none (Nat.not_lt.mp hj)]
          rfl
        refine Or.inl ⟨fun bs' hbs' => ?_, hx.trans hbs⟩
        rcases List.mem_cons.mp hbs' with rfl | hbs'
        · exact Nat.not_lt.mp hj
        · exact hcorti bs' hbs'
    · exact Or.inr ⟨k + 1, Nat.succ_lt_succ hk, hv, hdopo⟩

/-- There is a NUL in a buffer when one of its bytes is one. -/
theorem zero_mem_iff (b : Buffer n) : (0 : Byte) ∈ b.bytes ↔ ∃ j < n, b.bytes.getD j 0 = 0 := by
  rw [List.mem_iff_getElem]
  constructor
  · rintro ⟨j, hj, h⟩
    exact ⟨j, b.size_eq ▸ hj, by rw [List.getD_eq_getElem _ _ hj, h]⟩
  · rintro ⟨j, hj, h⟩
    rw [← b.size_eq] at hj
    exact ⟨j, hj, by rw [← List.getD_eq_getElem _ 0 hj, h]⟩

/-- `buf[k] = v`, as in `buf[strcspn(buf, "\n")] = 0`; a `k` past the end changes nothing here. -/
def poke (b : Buffer n) (k : Nat) (v : Byte) : Buffer n :=
  ⟨b.bytes.set k v, by rw [List.length_set, b.size_eq]⟩

end Buffer

/-! ## C strings -/

/-- The C string at the start of a piece of memory: the bytes before the first NUL. -/
def cstr (bs : Bytes) : Bytes := bs.takeWhile (· ≠ 0)

@[simp] theorem cstr_nil : cstr [] = [] := rfl

/-- A NUL in front: the empty string, whatever lies behind. -/
theorem cstr_cons_zero (bs : Bytes) : cstr (0 :: bs) = [] := rfl

/-- Any other byte belongs to the string. -/
theorem cstr_cons {b : Byte} (bs : Bytes) (hb : b ≠ 0) : cstr (b :: bs) = b :: cstr bs := by
  simp [cstr, hb]

theorem zero_notMem_cstr (bs : Bytes) : (0 : Byte) ∉ cstr bs := fun h => by
  simpa using List.mem_takeWhile_imp h

/-- Memory without a NUL is its own string. In C the string would run on behind it: that is for the
    caller to exclude. -/
theorem cstr_of_notMem {bs : Bytes} (h : (0 : Byte) ∉ bs) : cstr bs = bs := by
  rw [cstr, List.takeWhile_eq_self_iff]
  intro x hx
  simp only [ne_eq, decide_eq_true_eq]
  rintro rfl
  exact h hx

/-- What lies behind a NUL is not looked at. -/
theorem cstr_append_of_mem {bs : Bytes} (h : (0 : Byte) ∈ bs) (ys : Bytes) :
    cstr (bs ++ ys) = cstr bs := by
  induction bs with
  | nil => simp at h
  | cons b bs ih =>
    by_cases hb : b = 0
    · subst hb; rw [List.cons_append, cstr_cons_zero, cstr_cons_zero]
    · rw [List.cons_append, cstr_cons _ hb, cstr_cons _ hb,
        ih ((List.mem_cons.mp h).resolve_left fun h0 => hb h0.symm)]

/-- Without a NUL the string runs on into what follows. -/
theorem cstr_append_of_notMem {bs : Bytes} (h : (0 : Byte) ∉ bs) (ys : Bytes) :
    cstr (bs ++ ys) = bs ++ cstr ys := by
  induction bs with
  | nil => rfl
  | cons b bs ih =>
    rw [List.mem_cons, not_or] at h
    rw [List.cons_append, cstr_cons _ (Ne.symm h.1), ih h.2, List.cons_append]

/-- A zeroed buffer holds the empty string. -/
theorem cstr_replicate_zero (n : Nat) : cstr (List.replicate n 0) = [] := by
  cases n <;> rfl

/-- A NUL-free text read into a zeroed buffer with room to spare is the C string found there. -/
theorem cstr_zero_overlay {n : Nat} {bs : Bytes} (h0 : (0 : Byte) ∉ bs) (hn : bs.length ≤ n) :
    cstr ((Buffer.zero n).overlay bs).bytes = bs := by
  rw [Buffer.overlay_bytes_of_le hn, cstr_append_of_notMem h0, Buffer.zero, List.drop_replicate,
    cstr_replicate_zero, List.append_nil]

/-! ## Little-endian integers -/

/-- The number whose little-endian bytes are `bs`. -/
def leNat : Bytes → Nat
  | [] => 0
  | b :: bs => b.toNat + 256 * leNat bs

/-- The `k` low little-endian bytes of `n`. -/
def toLE : Nat → Nat → Bytes
  | 0, _ => []
  | k + 1, n => (n % 256).toUInt8 :: toLE k (n / 256)

/-- `toLE k` has `k` bytes, whatever the number: an `int` always takes four. -/
@[simp] theorem length_toLE (k : Nat) : ∀ n, (toLE k n).length = k := by
  induction k with
  | zero => exact fun _ => rfl
  | succ k ih => intro n; rw [toLE, List.length_cons, ih]

/-- `k` bytes are a number below `256 ^ k`. -/
theorem leNat_lt : ∀ bs : Bytes, leNat bs < 256 ^ bs.length
  | [] => by simp [leNat]
  | b :: bs => by
    have hb := b.toNat_lt
    have ih := leNat_lt bs
    rw [leNat, List.length_cons, Nat.pow_succ]
    omega

/-- Number to bytes to number, for numbers that fit. -/
theorem leNat_toLE (k : Nat) : ∀ n, n < 256 ^ k → leNat (toLE k n) = n := by
  induction k with
  | zero => intro n hn; simp at hn; simp [toLE, leNat, hn]
  | succ k ih =>
    intro n hn
    rw [Nat.pow_succ] at hn
    have hdiv : n / 256 < 256 ^ k := by omega
    have hmod : (n % 256).toUInt8.toNat = n % 256 := by simp
    rw [toLE, leNat, ih _ hdiv, hmod]
    omega

/-- Bytes to number to bytes, always. -/
theorem toLE_leNat : ∀ bs : Bytes, toLE bs.length (leNat bs) = bs
  | [] => rfl
  | b :: bs => by
    have hb := b.toNat_lt
    have hmod : (b.toNat + 256 * leNat bs) % 256 = b.toNat := by omega
    have hdiv : (b.toNat + 256 * leNat bs) / 256 = leNat bs := by omega
    rw [List.length_cons, leNat, toLE, hmod, hdiv, toLE_leNat bs]
    simp

namespace Buffer

/-- The `int` in four bytes of memory. -/
def toInt (b : Buffer 4) : Int :=
  if leNat b.bytes < 2 ^ 31 then (leNat b.bytes : Int) else (leNat b.bytes : Int) - 2 ^ 32

/-- The four bytes of an `int`, its value reduced modulo `2 ^ 32`. -/
def ofInt (i : Int) : Buffer 4 := ⟨toLE 4 (i % 2 ^ 32).toNat, length_toLE 4 _⟩

/-- Four bytes are a number below `2 ^ 32`. -/
theorem leNat_bytes_lt (b : Buffer 4) : leNat b.bytes < 2 ^ 32 := by
  have h := leNat_lt b.bytes
  rw [b.size_eq] at h
  exact h

/-- ... and read as an `int` they lie between the two ends of its range. -/
theorem toInt_bounds (b : Buffer 4) : -2 ^ 31 ≤ b.toInt ∧ b.toInt < 2 ^ 31 := by
  have h := leNat_bytes_lt b
  unfold toInt
  split <;> omega

/-- An `int` in range survives the four bytes it is sent as. -/
theorem toInt_ofInt {i : Int} (h1 : -2 ^ 31 ≤ i) (h2 : i < 2 ^ 31) : (ofInt i).toInt = i := by
  have hlt : (i % 2 ^ 32).toNat < 256 ^ 4 := by omega
  have hle : leNat (ofInt i).bytes = (i % 2 ^ 32).toNat := leNat_toLE 4 _ hlt
  unfold toInt
  rw [hle]
  split <;> omega

/-- Four bytes survive being read as an `int`, with no condition: every pattern is some `int`. -/
@[simp] theorem ofInt_toInt (b : Buffer 4) : ofInt b.toInt = b := by
  have h := leNat_bytes_lt b
  have hmod : (b.toInt % 2 ^ 32).toNat = leNat b.bytes := by
    unfold toInt
    split <;> omega
  apply ext
  have hb := toLE_leNat b.bytes
  rw [b.size_eq] at hb
  show toLE 4 (b.toInt % 2 ^ 32).toNat = b.bytes
  rw [hmod, hb]

end Buffer

end Universita.Lib

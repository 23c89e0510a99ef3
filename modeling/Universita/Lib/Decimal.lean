/-
  DECIMAL TEXT — integers to text (`%d`) and text to numbers (`strtol`, SQL numeric conversion).

  Rendering and the two readings are not inverse to each other: many texts read as the same number
  (leading zeros, blanks, signs, fractions, exponents, trailing garbage), one of them is rendered.
  What holds, and is proved here, is that reading back what was rendered gives the number.  That is the
  half a program relies on when it prints a number into a message and another one reads it there.

  All definitions compute.  `decNat` goes through `Nat.digits`, whose length and value lemmas Mathlib
  has; the readings are `takeWhile`/`dropWhile` over the bytes, so a proof about them is a proof about
  where the run of digits ends, and never about digits one by one.

  Two limits of the model are worth knowing:
    * nothing is clamped here.  C's `strtol` stops at the ends of `long`, and what `%d` stores for a
      numeral out of the range of `int` is undefined; who stores the number says what becomes of it.
    * a SQL engine compares a string with a number as doubles.  On texts of a few dozen characters the
      comparison of the decimal values is the same, except that values next to zero underflow to it
      (`underflow`), and only that exception is modelled.

  Contents:
  1. `dec i` — the text `%d` prints for `i`; `natOf` — the value of a run of digits.
  2. `strtol` — C's base-10 conversion: blanks, an optional sign, the longest run of digits.
  3. `number` — the number a SQL engine takes a string for when it compares it with a number: blanks,
     an optional sign, digits, an optional fraction and exponent, the rest ignored, nothing at all
     read as 0.
  4. `strtol_dec`, `number_dec` — the round trips, from which `dec` is injective.
-/
import Mathlib.Data.Nat.Digits.Lemmas
import Mathlib.Data.Rat.Cast.Order
import Mathlib.Algebra.Order.Ring.Rat
import Mathlib.Tactic.NormNum
import Universita.Lib.Buffer

set_option linter.unusedVariables false

namespace Universita.Lib

/-! ## Rendering -/

/-- `'0' <= b && b <= '9'`. -/
def isDigit (b : Byte) : Bool := 48 ≤ b.toNat && b.toNat ≤ 57

/-- The decimal digits of a natural number, most significant first. -/
def decNat (n : Nat) : Bytes :=
  if n = 0 then [48] else ((Nat.digits 10 n).map fun d => (48 + d).toUInt8).reverse

/-- The text of an `int` under `%d`: a `-` for a negative number, and the digits of its absolute value. -/
def dec (i : Int) : Bytes := if i < 0 then 45 :: decNat i.natAbs else decNat i.natAbs

/-- The value of a run of digits. Leading zeros are worth nothing. -/
def natOf (ds : Bytes) : Nat := Nat.ofDigits 10 (ds.reverse.map fun b => b.toNat - 48)

/-- The byte of a digit: `'0' + d` does not overflow. -/
theorem toNat_digit {d : Nat} (h : d < 10) : (48 + d).toUInt8.toNat = 48 + d := by
  simp only [Nat.toUInt8, UInt8.toNat_ofNat']
  omega

/-- Digits are all there is in the text of a natural number, so a reading of it ends where the text ends. -/
theorem isDigit_of_mem_decNat {n : Nat} {b : Byte} (h : b ∈ decNat n) : isDigit b = true := by
  unfold decNat at h
  split at h
  · rw [List.mem_singleton] at h
    subst h; rfl
  · rw [List.mem_reverse, List.mem_map] at h
    obtain ⟨d, hd, rfl⟩ := h
    have hlt : d < 10 := Nat.digits_lt_base (by decide) hd
    rw [isDigit, toNat_digit hlt]
    simp only [Bool.and_eq_true, decide_eq_true_eq]
    omega

theorem decNat_ne_nil (n : Nat) : decNat n ≠ [] := by
  unfold decNat
  split
  · exact List.cons_ne_nil _ _
  · rename_i h
    simpa [Nat.digits_ne_nil_iff_ne_zero] using h

/-- A number below `10 ^ k` has at most `k` digits. -/
theorem length_decNat_le {k n : Nat} (hk : 0 < k) (hn : n < 10 ^ k) : (decNat n).length ≤ k := by
  unfold decNat
  split
  · exact hk
  · rw [List.length_reverse, List.length_map, Nat.digits_length_le_iff (by decide)]
    exact hn

/-- The text of a 32-bit integer has at most eleven characters, so it fits a `char[12]` with its NUL. -/
theorem length_dec_toInt_le (b : Buffer 4) : (dec b.toInt).length ≤ 11 := by
  have hb := b.toInt_bounds
  have hn : (decNat b.toInt.natAbs).length ≤ 10 := length_decNat_le (by decide) (by omega)
  unfold dec
  split
  · rw [List.length_cons]; omega
  · omega

/-- The digits of a number are worth that number: this is the whole arithmetic of the round trips, and
    Mathlib has it. -/
theorem natOf_decNat (n : Nat) : natOf (decNat n) = n := by
  unfold decNat natOf
  split
  · rename_i h
    rw [h]; rfl
  · rw [List.reverse_reverse, List.map_map]
    have hid : (Nat.digits 10 n).map ((fun b : Byte => b.toNat - 48) ∘ fun d => (48 + d).toUInt8)
        = Nat.digits 10 n := by
      conv_rhs => rw [← List.map_id (Nat.digits 10 n)]
      refine List.map_congr_left fun d hd => ?_
      rw [Function.comp_apply, toNat_digit (Nat.digits_lt_base (by decide) hd)]
      simp
    rw [hid, Nat.ofDigits_digits]

/-- A number's text is made of digits, but for a `-` in front. -/
theorem dec_cases (i : Int) : (dec i = 45 :: decNat i.natAbs ∨ dec i = decNat i.natAbs) := by
  unfold dec
  split
  · exact Or.inl rfl
  · exact Or.inr rfl

/-- A number's text starts with a digit or, below zero, with `-`: never with a blank or a NUL. -/
theorem dec_eq_cons (i : Int) : ∃ b bs, dec i = b :: bs ∧ (b = 45 ∨ isDigit b = true) := by
  unfold dec
  split
  · exact ⟨45, _, rfl, Or.inl rfl⟩
  · obtain ⟨b, bs, hb⟩ := List.exists_cons_of_ne_nil (decNat_ne_nil i.natAbs)
    exact ⟨b, bs, hb, Or.inr (isDigit_of_mem_decNat (n := i.natAbs) (by rw [hb]; simp))⟩

/-! ## Reading -/

/-- C's `isspace` in the C locale: space, tab, newline, vertical tab, form feed, carriage return. -/
def isBlank (b : Byte) : Bool := b = 32 || (9 ≤ b.toNat && b.toNat ≤ 13)

/-- An optional sign: whether it is `-`, and what follows it. -/
def sign : Bytes → Bool × Bytes
  | 45 :: bs => (true, bs)
  | 43 :: bs => (false, bs)
  | bs => (false, bs)

/-- An optional sign and the longest run of digits after it. -/
def signedRun (s : Bytes) : Int :=
  let (neg, ds) := sign s
  if neg then -(natOf (ds.takeWhile isDigit) : Int) else natOf (ds.takeWhile isDigit)

/-- `strtol(s, NULL, 10)`, without the clamping at the ends of `long`. -/
def strtol (s : Bytes) : Int := signedRun (s.dropWhile isBlank)

/-- The exponent part of a decimal number, 0 when there is none. -/
def exponent : Bytes → Int
  | 101 :: s | 69 :: s => signedRun s
  | _ => 0

/-- The digits after a decimal point, and what follows them. -/
def fraction : Bytes → Bytes × Bytes
  | 46 :: s => (s.takeWhile isDigit, s.dropWhile isDigit)
  | s => ([], s)

/-- Values this close to zero are zero as doubles. -/
def underflow (q : ℚ) : ℚ := if |q| * 2 ^ 1075 ≤ 1 then 0 else q

/-- The number a string is taken for when it is compared with a number. -/
def number (s : Bytes) : ℚ :=
  let (neg, s) := sign (s.dropWhile isBlank)
  let (fp, rest) := fraction (s.dropWhile isDigit)
  let m : ℚ := natOf (s.takeWhile isDigit ++ fp) * (10 : ℚ) ^ (exponent rest - fp.length)
  underflow (if neg then -m else m)

/-! ## The round trips -/

/-- A run of digits does not stop before the end of a number's text. -/
theorem takeWhile_decNat (n : Nat) : (decNat n).takeWhile isDigit = decNat n :=
  List.takeWhile_eq_self_iff.mpr fun _ hb => isDigit_of_mem_decNat hb

theorem dropWhile_decNat (n : Nat) : (decNat n).dropWhile isDigit = [] :=
  List.dropWhile_eq_nil_iff.mpr fun _ hb => isDigit_of_mem_decNat hb

/-- A digit is neither a sign nor a blank. -/
theorem digit_cases {b : Byte} (h : isDigit b = true) : b ≠ 45 ∧ b ≠ 43 ∧ isBlank b = false := by
  simp only [isDigit, Bool.and_eq_true, decide_eq_true_eq] at h
  refine ⟨?_, ?_, ?_⟩
  · rintro rfl; exact absurd h.1 (by decide)
  · rintro rfl; exact absurd h.1 (by decide)
  · rw [isBlank, Bool.or_eq_false_iff, Bool.and_eq_false_iff]
    refine ⟨?_, Or.inr ?_⟩
    · rw [decide_eq_false_iff_not]
      rintro rfl; exact absurd h.1 (by decide)
    · rw [decide_eq_false_iff_not]; omega

/-- There are no blanks to skip in front of a number's text. -/
theorem dropWhile_blank_dec (i : Int) : (dec i).dropWhile isBlank = dec i := by
  obtain ⟨b, bs, hb, hc⟩ := dec_eq_cons i
  have hblank : isBlank b = false := by
    rcases hc with rfl | hd
    · rfl
    · exact (digit_cases hd).2.2
  rw [hb, List.dropWhile_cons_of_neg (by simp [hblank])]

/-- Its sign is that of the number, and what follows are the digits of the absolute value; a positive
    number has none. -/
theorem sign_dec (i : Int) : sign (dec i) = (decide (i < 0), decNat i.natAbs) := by
  unfold dec
  split
  · rename_i h
    rw [decide_eq_true h]; rfl
  · rename_i h
    rw [decide_eq_false h]
    -- a digit in front is no sign
    obtain ⟨b, bs, hb⟩ := List.exists_cons_of_ne_nil (decNat_ne_nil i.natAbs)
    have hd := digit_cases (isDigit_of_mem_decNat (n := i.natAbs) (b := b) (by rw [hb]; simp))
    rw [hb, sign]
    · exact fun _ h1 => hd.1 (List.cons.inj h1).1
    · exact fun _ h1 => hd.2.1 (List.cons.inj h1).1

/-- **Printed and read back, an integer is the same.** -/
theorem strtol_dec (i : Int) : strtol (dec i) = i := by
  rw [strtol, dropWhile_blank_dec, signedRun, sign_dec]
  simp only [takeWhile_decNat, natOf_decNat, decide_eq_true_eq]
  split <;> omega

/-- Two integers with one text are one: the text on a page names its number. -/
theorem dec_injective {i j : Int} (h : dec i = dec j) : i = j := by
  rw [← strtol_dec i, h, strtol_dec]

/-- An integer is never lost to underflow: but for 0 it is at least 1 away from 0. -/
theorem underflow_intCast (i : Int) : underflow i = i := by
  unfold underflow
  split
  · rename_i h
    rcases eq_or_ne i 0 with rfl | hi
    · rfl
    · exfalso
      have h1 : (1 : ℚ) ≤ |(i : ℚ)| := by exact_mod_cast Int.one_le_abs hi
      have h2 : (1 : ℚ) < 2 ^ 1075 := one_lt_pow₀ one_lt_two (by decide)
      have h3 : (2 : ℚ) ^ 1075 ≤ |(i : ℚ)| * 2 ^ 1075 :=
        le_mul_of_one_le_left (pow_nonneg zero_le_two _) h1
      exact absurd (h2.trans_le (h3.trans h)) (lt_irrefl 1)
  · rfl

/-- **The text of an integer is taken for that integer.** A column of such texts is therefore compared
    with numbers as one would expect; other spellings of the number are taken for it as well. -/
theorem number_dec (i : Int) : number (dec i) = i := by
  have hm : (if i < 0 then -(i.natAbs : ℚ) else (i.natAbs : ℚ)) = i := by
    split
    · rename_i h
      rw [Nat.cast_natAbs, abs_of_neg h, Int.cast_neg, neg_neg]
    · rename_i h
      rw [Nat.cast_natAbs, abs_of_nonneg (not_lt.mp h)]
  rw [number, dropWhile_blank_dec, sign_dec]
  simp only [dropWhile_decNat, takeWhile_decNat, fraction, exponent, List.append_nil, natOf_decNat,
    List.length_nil, Nat.cast_zero, sub_zero, zpow_zero, mul_one, decide_eq_true_eq]
  rw [hm, underflow_intCast]

/-! ## Running the conversions -/

example : number (ascii "0124000001") = 124000001 := by decide +kernel  -- leading zeros are dropped
example : number (ascii " 12.50e1x") = 125 := by decide +kernel         -- ... and so is the garbage
example : dec (-2147483648) = ascii "-2147483648" := by decide +kernel

end Universita.Lib

/-
  THE PORT FILE — `setPorta` and `getPorta` of `libreria/wrapper.c`.

  The server listens on the number it finds in `porta/porta.txt` plus one and leaves that number there for
  the secretary.  The file is opened with "r+", which does not truncate: what is printed covers as many bytes as it
  has, and the rest of the old text stays behind it.  The newline that `fprintf` adds keeps the two apart, and the
  next `fscanf` stops in front of it.

  So the property is not that the file holds the number, which it does not, but that it BEGINS with it
  (`Numeral`), and this is what one start hands to the next.  When the decimal text gets longer, from 999 to 1000, it
  runs over the old newline and into whatever was left there.

  The variable `porta` has no initializer, and a file that does not begin with a number leaves it as it is; it is a
  parameter of both functions, and the result holds for any content of it.

  Contents:
  1. `setPorta`, `getPorta`, and `avvii`: the server started again and again.
  2. `setPorta_numeral` — one start: the next number, and a file that begins with it.
  3. **`porta_fedele`** — any number of starts, by induction on their list.
-/
import Universita.Lib.Stdio

set_option linter.unusedVariables false

namespace Universita

open Lib

/-! ## The two functions -/

/-- `fscanf(fp, "%d", &porta)`, from the uninitialised `porta` on.  A numeral outside the range of `int`, for which C
    defines nothing, is stored modulo 2^32. -/
def leggiPorta (porta : Buffer 4) (file : Bytes) : Int :=
  match (scanD file).1 with
  | none => porta.toInt
  | some p => (Buffer.ofInt p).toInt

/-- The port and the new file: the number that is read, and one more, printed over the beginning of the
    old text with a newline behind it. Nothing is defined without a file, nor for `INT_MAX + 1`. -/
def setPorta (porta : Buffer 4) : Option Bytes → Option (Int × Option Bytes)
  | none => none
  | some file =>
    let porta := leggiPorta porta file
    if porta = 2 ^ 31 - 1 then none
    else some (porta + 1, some (overwrite file (dec (porta + 1) ++ [10])))

/-- The port the secretary connects to; nothing is defined without a file. -/
def getPorta (porta : Buffer 4) : Option Bytes → Option Int
  | none => none
  | some file => some (leggiPorta porta file)

/-- The ports of several starts of the server, one for each content of the uninitialised variable, and the
    file they leave. -/
def avvii : List (Buffer 4) → Option Bytes → Option (List Int × Option Bytes)
  | [], file => some ([], file)
  | memoria :: memorie, file => do
    let (porta, file) ← setPorta memoria file
    let (porte, file) ← avvii memorie file
    pure (porta :: porte, file)

/-! ## The counter -/

section Contatore

variable {p : Int} {file : Bytes}

/-- What a file that begins with a number in the range of `int` is read as, whatever the variable held. -/
theorem leggiPorta_numeral (hp : Numeral p file) (hmin : -2 ^ 31 ≤ p) (hmax : p < 2 ^ 31)
    (memoria : Buffer 4) : leggiPorta memoria file = p := by
  rw [leggiPorta, scanD_eq_some.mpr hp]
  exact Buffer.toInt_ofInt hmin hmax

/-- **One start**: whatever the old text was, the file now begins with the next number. The newline that
    is printed behind it is what ends the numeral, whether the old text was shorter or longer. -/
theorem setPorta_numeral (hp : Numeral p file) (hmin : -2 ^ 31 ≤ p) (hmax : p + 1 < 2 ^ 31)
    (memoria : Buffer 4) : ∃ file', setPorta memoria (some file) = some (p + 1, some file') ∧
      Numeral (p + 1) file' := by
  have hleggi : leggiPorta memoria file = p := leggiPorta_numeral hp hmin (by omega) memoria
  refine ⟨overwrite file (dec (p + 1) ++ [10]), ?_, ?_⟩
  · rw [setPorta, hleggi]
    exact if_neg (by omega)
  -- the newline ends the number, whatever is left of the old text behind it
  · rw [overwrite, List.append_assoc]
    exact numeral_dec (p + 1) (by decide) _

/-- **Any number of starts**: they count on from the number in the file, whatever text stood behind it
    and whatever the variable held each time, and both programs agree on the last one. The bound is that
    no number exceeds an `int`. -/
theorem porta_fedele (hp : Numeral p file) (hmin : -2 ^ 31 ≤ p) (memorie : List (Buffer 4))
    (hmax : p + memorie.length < 2 ^ 31) :
    ∃ file', avvii memorie (some file) =
        some ((List.range memorie.length).map fun i : Nat => p + i + 1, some file') ∧
      ∀ memoria, getPorta memoria (some file') = some (p + memorie.length) := by
  induction memorie generalizing p file with
  | nil =>
    refine ⟨file, rfl, fun memoria => ?_⟩
    have hp' : p < 2 ^ 31 := by simpa using hmax
    rw [getPorta, leggiPorta_numeral hp hmin hp', List.length_nil, Int.natCast_zero, Int.add_zero]
  | cons memoria memorie ih =>
    have hlen : ((memoria :: memorie).length : Int) = memorie.length + 1 := rfl
    rw [hlen] at hmax ⊢
    -- the first start leaves a file that begins with the next number, from which the others go on
    obtain ⟨file₁, hset, hp₁⟩ := setPorta_numeral hp hmin (by omega) memoria
    obtain ⟨file₂, havvii, hget⟩ := ih hp₁ (by omega) (by omega)
    refine ⟨file₂, ?_, fun memoria' => ?_⟩
    · have hporte : (List.range (memorie.length + 1)).map (fun i : Nat => p + i + 1) =
          (p + 1) :: (List.range memorie.length).map fun i : Nat => p + 1 + i + 1 := by
        rw [List.range_succ_eq_map, List.map_cons, List.map_map]
        congr 1
        · omega
        · exact List.map_congr_left fun i _ => by simp; omega
      rw [avvii, hset]
      simp only [Option.bind_eq_bind, Option.bind_some, havvii, List.length_cons, hporte]
      rfl
    · rw [hget memoria']
      congr 1
      omega

/-- From the shipped file, started three times: 1031, 1032, 1033, and the secretary reads 1033. -/
theorem porta_fedele_tre : ∃ file',
    avvii [Buffer.zero 4, Buffer.zero 4, Buffer.zero 4] (some (ascii "1030\n")) =
      some ([1031, 1032, 1033], some file') ∧
    ∀ memoria, getPorta memoria (some file') = some 1033 :=
  have hp : Numeral 1030 (ascii "1030\n") := scanD_eq_some.mp (by decide +kernel)
  porta_fedele hp (by decide) [Buffer.zero 4, Buffer.zero 4, Buffer.zero 4] (by decide)

end Contatore

example : (setPorta (Buffer.zero 4) (some (ascii " -0010rest"))).map (fun p => p.1) = some (-9) := by
  decide +kernel

end Universita

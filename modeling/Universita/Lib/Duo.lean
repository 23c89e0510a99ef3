/-
  TWO PROCESSES IN ONE WORLD — the interleaving semantics of a pair of looping programs.

  Each process repeats a body forever: `body : σ → Prog O R σ` carries its local variables `σ` from one
  TURN of its loop to the next.  The two share a world `E` (channels, descriptors, observations), and
  an environment function `ans : E → (o : O) → R o → Option E` says which answers a call admits.

  Everything nondeterministic is in the LABEL of a move: which process goes on, and what its call is
  answered.  So `step` is a partial function and a run is a list of labels — a counterexample is a list
  that evaluates, and no scheduler has to be chosen anywhere.

  The crux is `Reach.local₁`/`Reach.local₂`.  An induction over interleavings of two programs would have
  to describe every pair of program points.  The rule asks for less: a VIEW of the state that the other
  process leaves alone, an invariant of the loop head in terms of the view, and one weakest-precondition
  proof of the body (`Prog.Safe`), whose cases are the calls of one program in order.  What is known of
  the other process comes in as `J`, a fact about reachable states proved before; so two proofs can lean
  on each other in turn without a circle.

  Contents:
  1. `Duo` — the pair; `Duo.State` — a global state: for each process the variables its current turn
     started with, the calls answered so far in that turn (`trace`), and what is left to run.
  2. `Duo.step` — one move of one process, as an EXECUTABLE partial function; its inversion lemmas
     `step_turn₁`, …, `step_act₂`, which say everything a move does.
  3. `Reach S C d₀` — reachability by moves that all meet a condition `C` (`Any` for no condition);
     `run`, `reach_run` — a run checked by evaluation.
  4. `Reach.local₁`/`Reach.local₂` — the proof rule: each process is verified alone, and the rule carries
     the result to every interleaving.
  5. `Reach.turns₂` — from what one turn does to what is known at the beginning of every turn.
  6. `Reach.world` — the runs in a world that refines another.
-/
import Universita.Lib.Prog

set_option linter.unusedVariables false

namespace Universita.Lib

/-- An answered call: what was asked, and what came back. -/
abbrev Event (O : Type) (R : O → Type) := Σ o : O, R o

/-- Two looping programs and the world they share. -/
structure Duo (O : Type) (R : O → Type) (σ₁ σ₂ E : Type) where
  /-- One turn of the first process, from its variables to the next ones. -/
  body₁ : σ₁ → Prog O R σ₁
  /-- One turn of the second. -/
  body₂ : σ₂ → Prog O R σ₂
  /-- What the world may answer to the first process, and the world it leaves. -/
  ans₁ : E → (o : O) → R o → Option E
  /-- ... and to the second. -/
  ans₂ : E → (o : O) → R o → Option E

namespace Duo

variable {O : Type} {R : O → Type} {σ₁ σ₂ E V : Type}

/-- A global state. The traces are those of the turns in progress only: what happened before is in the
    world, or forgotten. -/
structure State (O : Type) (R : O → Type) (σ₁ σ₂ E : Type) where
  /-- The variables the current turn of the first process began with. -/
  turn₁ : σ₁
  /-- The calls answered to it in this turn. -/
  trace₁ : List (Event O R)
  /-- What is left of the turn. -/
  prog₁ : Prog O R σ₁
  /-- The same three of the second process. -/
  turn₂ : σ₂
  trace₂ : List (Event O R)
  prog₂ : Prog O R σ₂
  /-- The world between them. -/
  env : E

/-- One move: a process starts its next turn, or has its pending call answered. -/
inductive Move (O : Type) (R : O → Type) where
  | turn₁
  | act₁ (o : O) (r : R o)
  | turn₂
  | act₂ (o : O) (r : R o)

/-- The moves of the first process. -/
def Move.first : Move O R → Prop
  | .turn₁ | .act₁ _ _ => True
  | .turn₂ | .act₂ _ _ => False

variable [DecidableEq O] (S : Duo O R σ₁ σ₂ E)

/-- The effect of a move, `none` when it is not possible. -/
def step (d : State O R σ₁ σ₂ E) : Move O R → Option (State O R σ₁ σ₂ E)
  | .turn₁ => match d.prog₁ with
    | .ret s => some { d with turn₁ := s, trace₁ := [], prog₁ := S.body₁ s }
    | .call _ _ => none
  | .act₁ o r => match d.prog₁ with
    | .ret _ => none
    | .call o' k =>
      if h : o = o' then
        (S.ans₁ d.env o r).map fun e =>
          { d with prog₁ := k (h ▸ r), trace₁ := d.trace₁ ++ [⟨o, r⟩], env := e }
      else none
  | .turn₂ => match d.prog₂ with
    | .ret s => some { d with turn₂ := s, trace₂ := [], prog₂ := S.body₂ s }
    | .call _ _ => none
  | .act₂ o r => match d.prog₂ with
    | .ret _ => none
    | .call o' k =>
      if h : o = o' then
        (S.ans₂ d.env o r).map fun e =>
          { d with prog₂ := k (h ▸ r), trace₂ := d.trace₂ ++ [⟨o, r⟩], env := e }
      else none

/-! ## What a move can do -/

/-- A new turn begins when the old one has ended, with the variables it ended with, and with no trace. -/
theorem step_turn₁ {d d' : State O R σ₁ σ₂ E} (h : S.step d .turn₁ = some d') :
    ∃ s, d.prog₁ = .ret s ∧ d' = { d with turn₁ := s, trace₁ := [], prog₁ := S.body₁ s } := by
  cases hp : d.prog₁ with
  | ret s => exact ⟨s, rfl, by simpa [step, hp] using h.symm⟩
  | call o k => simp [step, hp] at h

/-- A call is answered when it is the pending one and the world can give that answer. Then the process
    goes on with it, its trace is one event longer, and the world is the one the answer leads to. -/
theorem step_act₁ {d d' : State O R σ₁ σ₂ E} {o : O} {r : R o}
    (h : S.step d (.act₁ o r) = some d') :
    ∃ k e, d.prog₁ = .call o k ∧ S.ans₁ d.env o r = some e ∧
      d' = { d with prog₁ := k r, trace₁ := d.trace₁ ++ [⟨o, r⟩], env := e } := by
  cases hp : d.prog₁ with
  | ret s => simp [step, hp] at h
  | call o' k =>
    by_cases ho : o = o'
    · subst ho
      simp only [step, hp, dif_pos, Option.map_eq_some_iff] at h
      obtain ⟨e, he, hd⟩ := h
      exact ⟨k, e, rfl, he, hd.symm⟩
    · simp [step, hp, ho] at h

/-- A new turn of the second process. -/
theorem step_turn₂ {d d' : State O R σ₁ σ₂ E} (h : S.step d .turn₂ = some d') :
    ∃ s, d.prog₂ = .ret s ∧ d' = { d with turn₂ := s, trace₂ := [], prog₂ := S.body₂ s } := by
  cases hp : d.prog₂ with
  | ret s => exact ⟨s, rfl, by simpa [step, hp] using h.symm⟩
  | call o k => simp [step, hp] at h

/-- An answer to the second process; the first stays where it is, as do its trace and the variables of
    its turn. -/
theorem step_act₂ {d d' : State O R σ₁ σ₂ E} {o : O} {r : R o}
    (h : S.step d (.act₂ o r) = some d') :
    ∃ k e, d.prog₂ = .call o k ∧ S.ans₂ d.env o r = some e ∧
      d' = { d with prog₂ := k r, trace₂ := d.trace₂ ++ [⟨o, r⟩], env := e } := by
  cases hp : d.prog₂ with
  | ret s => simp [step, hp] at h
  | call o' k =>
    by_cases ho : o = o'
    · subst ho
      simp only [step, hp, dif_pos, Option.map_eq_some_iff] at h
      obtain ⟨e, he, hd⟩ := h
      exact ⟨k, e, rfl, he, hd.symm⟩
    · simp [step, hp, ho] at h

/-! ## Reachability -/

/-- No condition on the moves. -/
def Any (d : State O R σ₁ σ₂ E) (m : Move O R) : Prop := True

/-- The states reached from `d₀` by moves that all meet `C`. -/
inductive Reach (C : State O R σ₁ σ₂ E → Move O R → Prop) (d₀ : State O R σ₁ σ₂ E) :
    State O R σ₁ σ₂ E → Prop
  | init : Reach C d₀ d₀
  | step {d d' : State O R σ₁ σ₂ E} {m : Move O R} :
      Reach C d₀ d → C d m → S.step d m = some d' → Reach C d₀ d'

/-- A run given by the list of its moves, `none` when one is impossible or does not meet `ok`. -/
def run (ok : State O R σ₁ σ₂ E → Move O R → Bool) :
    State O R σ₁ σ₂ E → List (Move O R) → Option (State O R σ₁ σ₂ E)
  | d, [] => some d
  | d, m :: ms => if ok d m then (S.step d m).bind fun d' => run ok d' ms else none

variable {S} {C : State O R σ₁ σ₂ E → Move O R → Prop} {d₀ : State O R σ₁ σ₂ E}

/-- A run that evaluates is a witness of reachability: `decide` on `run` is all a counterexample needs. -/
theorem reach_run {ok : State O R σ₁ σ₂ E → Move O R → Bool} (hok : ∀ d m, ok d m = true → C d m)
    (ms : List (Move O R)) : ∀ {d d' : State O R σ₁ σ₂ E},
    Reach S C d₀ d → S.run ok d ms = some d' → Reach S C d₀ d' := by
  induction ms with
  | nil =>
    intro d d' hd h
    obtain rfl : d = d' := Option.some.inj h
    exact hd
  | cons m ms ih =>
    intro d d' hd h
    rw [run] at h
    split at h
    · rename_i hm
      obtain ⟨d₁, h1, h2⟩ := Option.bind_eq_some_iff.mp h
      exact ih (Reach.step hd (hok d m hm) h1) h2
    · cases h

/-- Reachability under a condition is reachability under a weaker one. -/
theorem Reach.mono {C' : State O R σ₁ σ₂ E → Move O R → Prop} (hC : ∀ d m, C d m → C' d m)
    {d : State O R σ₁ σ₂ E} (hd : Reach S C d₀ d) : Reach S C' d₀ d := by
  induction hd with
  | init => exact .init
  | step _ hm hs ih => exact ih.step (hC _ _ hm) hs

/-- One run after another, under one condition. -/
theorem Reach.trans {d d' : State O R σ₁ σ₂ E} (h : Reach S C d₀ d) (h' : Reach S C d d') :
    Reach S C d₀ d' := by
  induction h' with
  | init => exact h
  | step _ hm hs ih => exact ih.step hm hs

/-- What one move preserves, every run preserves. The step may use that the state is reachable. -/
theorem Reach.invariant {J : State O R σ₁ σ₂ E → Prop} (h0 : J d₀)
    (hstep : ∀ d m d', Reach S C d₀ d → J d → C d m → S.step d m = some d' → J d')
    {d : State O R σ₁ σ₂ E} (hd : Reach S C d₀ d) : J d := by
  induction hd with
  | init => exact h0
  | step hd hC hs ih => exact hstep _ _ _ hd ih hC hs

/-! ## Verifying each process alone -/

/-- The first process, where what is known of the reachable states keeps the second from changing the
    view. -/
theorem Reach.rely₁ (view : State O R σ₁ σ₂ E → V) {T : V → (o : O) → R o → V → Prop}
    {P : V → O → Prop} {I : σ₁ → V → Prop} (J : State O R σ₁ σ₂ E → Prop)
    (hJ : ∀ d, Reach S C d₀ d → J d)
    (hact : ∀ d o r d', J d → J d' → C d (.act₁ o r) → S.step d (.act₁ o r) = some d' →
      T (view d) o r (view d'))
    (hturn : ∀ d s d', J d → C d .turn₁ → d.prog₁ = .ret s → S.step d .turn₁ = some d' →
      I s (view d) → (S.body₁ s).Safe T P I (view d'))
    (hother : ∀ d m d', J d → C d m → ¬ m.first → S.step d m = some d' → view d' = view d)
    (h0 : d₀.prog₁.Safe T P I (view d₀))
    {d : State O R σ₁ σ₂ E} (hd : Reach S C d₀ d) : d.prog₁.Safe T P I (view d) := by
  induction hd with
  | init => exact h0
  | @step d d' m hd hC hs ih =>
    cases m with
    | turn₁ =>
      obtain ⟨s, hp, rfl⟩ := step_turn₁ S hs
      rw [hp] at ih
      exact hturn d s _ (hJ _ hd) hC hp hs ih
    | act₁ o r =>
      have hT := hact d o r d' (hJ _ hd) (hJ _ (Reach.step hd hC hs)) hC hs
      -- the pending call was `o`, and its continuation is safe for every answer
      obtain ⟨k, e, hp, -, rfl⟩ := step_act₁ S hs
      rw [hp] at ih
      exact ih.2 r _ hT
    | turn₂ =>
      have hv := hother d .turn₂ d' (hJ _ hd) hC (fun h => h) hs
      obtain ⟨s, hp, rfl⟩ := step_turn₂ S hs
      rw [hv]
      exact ih
    | act₂ o r =>
      have hv := hother d (.act₂ o r) d' (hJ _ hd) hC (fun h => h) hs
      obtain ⟨k, e, hp, -, rfl⟩ := step_act₂ S hs
      rw [hv]
      exact ih

/-- The second process, the mirror image of `Reach.rely₁`: the body is verified against its own view,
    and the moves of the first leave that view alone. -/
theorem Reach.rely₂ (view : State O R σ₁ σ₂ E → V) {T : V → (o : O) → R o → V → Prop}
    {P : V → O → Prop} {I : σ₂ → V → Prop} (J : State O R σ₁ σ₂ E → Prop)
    (hJ : ∀ d, Reach S C d₀ d → J d)
    (hact : ∀ d o r d', J d → J d' → C d (.act₂ o r) → S.step d (.act₂ o r) = some d' →
      T (view d) o r (view d'))
    (hturn : ∀ d s d', J d → C d .turn₂ → d.prog₂ = .ret s → S.step d .turn₂ = some d' →
      I s (view d) → (S.body₂ s).Safe T P I (view d'))
    (hother : ∀ d m d', J d → C d m → m.first → S.step d m = some d' → view d' = view d)
    (h0 : d₀.prog₂.Safe T P I (view d₀))
    {d : State O R σ₁ σ₂ E} (hd : Reach S C d₀ d) : d.prog₂.Safe T P I (view d) := by
  induction hd with
  | init => exact h0
  | @step d d' m hd hC hs ih =>
    cases m with
    | turn₂ =>
      obtain ⟨s, hp, rfl⟩ := step_turn₂ S hs
      rw [hp] at ih
      exact hturn d s _ (hJ _ hd) hC hp hs ih
    | act₂ o r =>
      have hT := hact d o r d' (hJ _ hd) (hJ _ (Reach.step hd hC hs)) hC hs
      obtain ⟨k, e, hp, -, rfl⟩ := step_act₂ S hs
      rw [hp] at ih
      exact ih.2 r _ hT
    | turn₁ =>
      have hv := hother d .turn₁ d' (hJ _ hd) hC trivial hs
      obtain ⟨s, hp, rfl⟩ := step_turn₁ S hs
      rw [hv]
      exact ih
    | act₁ o r =>
      have hv := hother d (.act₁ o r) d' (hJ _ hd) hC trivial hs
      obtain ⟨k, e, hp, -, rfl⟩ := step_act₁ S hs
      rw [hv]
      exact ih

/-- **The rule for the first process.**  `view` is the part of the state the second process leaves
    alone (`hother`); every answer the world can give is one that `T` allows on views (`hact`); and
    from any loop state in `I` the body is `Safe`, ending again in `I` (`hturn`).  Then the rest of
    the current turn is safe in every reachable state.  `J` collects facts already known of
    reachable states. -/
theorem Reach.local₁ (view : State O R σ₁ σ₂ E → V) {T : V → (o : O) → R o → V → Prop}
    {P : V → O → Prop} {I : σ₁ → V → Prop} (J : State O R σ₁ σ₂ E → Prop)
    (hJ : ∀ d, Reach S C d₀ d → J d)
    (hact : ∀ d o r d', J d → J d' → C d (.act₁ o r) → S.step d (.act₁ o r) = some d' →
      T (view d) o r (view d'))
    (hturn : ∀ d s d', J d → C d .turn₁ → d.prog₁ = .ret s → S.step d .turn₁ = some d' →
      I s (view d) → (S.body₁ s).Safe T P I (view d'))
    (hother : ∀ d m d', ¬ m.first → S.step d m = some d' → view d' = view d)
    (h0 : d₀.prog₁.Safe T P I (view d₀))
    {d : State O R σ₁ σ₂ E} (hd : Reach S C d₀ d) : d.prog₁.Safe T P I (view d) :=
  hd.rely₁ view J hJ hact hturn (fun d m d' _ _ hm hs => hother d m d' hm hs) h0

/-- **The rule for the second process**, the mirror image of `Reach.local₁`: what is known of the first
    one comes in as `J`. -/
theorem Reach.local₂ (view : State O R σ₁ σ₂ E → V) {T : V → (o : O) → R o → V → Prop}
    {P : V → O → Prop} {I : σ₂ → V → Prop} (J : State O R σ₁ σ₂ E → Prop)
    (hJ : ∀ d, Reach S C d₀ d → J d)
    (hact : ∀ d o r d', J d → J d' → C d (.act₂ o r) → S.step d (.act₂ o r) = some d' →
      T (view d) o r (view d'))
    (hturn : ∀ d s d', J d → C d .turn₂ → d.prog₂ = .ret s → S.step d .turn₂ = some d' →
      I s (view d) → (S.body₂ s).Safe T P I (view d'))
    (hother : ∀ d m d', m.first → S.step d m = some d' → view d' = view d)
    (h0 : d₀.prog₂.Safe T P I (view d₀))
    {d : State O R σ₁ σ₂ E} (hd : Reach S C d₀ d) : d.prog₂.Safe T P I (view d) :=
  hd.rely₂ view J hJ hact hturn (fun d m d' _ _ hm hs => hother d m d' hm hs) h0

/-! ## Turn by turn -/

/-- **From turns to runs.**  `W v s v'` is what a turn of the second process can do that began in the view `v` and
    ends with the variables `s` in `v'`; `K d v` is what is known of the run up to that beginning, which only a new
    turn puts in question (`hkeep`, `hturn`). -/
theorem Reach.turns₂ (view : State O R σ₁ σ₂ E → V) {T : V → (o : O) → R o → V → Prop}
    {P : V → V → O → Prop} {W : V → σ₂ → V → Prop} {K : State O R σ₁ σ₂ E → V → Prop}
    (hact : ∀ d o r d', Reach S C d₀ d → C d (.act₂ o r) → S.step d (.act₂ o r) = some d' →
      T (view d) o r (view d'))
    (hbody : ∀ d s d', d.prog₂ = .ret s → S.step d .turn₂ = some d' →
      (S.body₂ s).Safe T (P (view d')) (W (view d')) (view d'))
    (hother : ∀ d m d', Reach S C d₀ d → m.first → S.step d m = some d' → view d' = view d)
    (hkeep : ∀ d m d' v, Reach S C d₀ d → C d m → m ≠ .turn₂ → S.step d m = some d' → K d v → K d' v)
    (hturn : ∀ d s d' v, Reach S C d₀ d → d.prog₂ = .ret s → S.step d .turn₂ = some d' → K d v →
      W v s (view d) → K d' (view d'))
    (h0 : K d₀ (view d₀)) (h0' : d₀.prog₂.Safe T (P (view d₀)) (W (view d₀)) (view d₀))
    {d : State O R σ₁ σ₂ E} (hd : Reach S C d₀ d) : ∃ v, K d v ∧ d.prog₂.Safe T (P v) (W v) (view d) := by
  induction hd with
  | init => exact ⟨view d₀, h0, h0'⟩
  | @step d d' m hd hC hs ih =>
    -- `v` is the view with which the turn in progress began
    obtain ⟨v, hK, ih⟩ := ih
    cases m with
    | turn₂ =>
      have hbody' := fun s hp => hbody d s d' hp hs
      have hturn' := fun s hp => hturn d s d' v hd hp hs hK
      obtain ⟨s, hp, rfl⟩ := step_turn₂ S hs
      rw [hp] at ih
      exact ⟨_, hturn' s hp ih, hbody' s hp⟩
    | act₂ o r =>
      have hT := hact d o r d' hd hC hs
      have hK' := hkeep d _ d' v hd hC nofun hs hK
      obtain ⟨k, e, hp, -, rfl⟩ := step_act₂ S hs
      rw [hp] at ih
      exact ⟨v, hK', ih.2 r _ hT⟩
    | turn₁ =>
      have hv := hother d .turn₁ d' hd trivial hs
      have hK' := hkeep d _ d' v hd hC nofun hs hK
      obtain ⟨s, hp, rfl⟩ := step_turn₁ S hs
      exact ⟨v, hK', by rw [hv]; exact ih⟩
    | act₁ o r =>
      have hv := hother d (.act₁ o r) d' hd trivial hs
      have hK' := hkeep d _ d' v hd hC nofun hs hK
      obtain ⟨k, e, hp, -, rfl⟩ := step_act₁ S hs
      exact ⟨v, hK', by rw [hv]; exact ih⟩

/-! ## Two worlds -/

/-- The same state in another world. -/
def State.inWorld {E' : Type} (d : State O R σ₁ σ₂ E') (e : E) : State O R σ₁ σ₂ E := { d with env := e }

end Duo

end Universita.Lib

/-
  ONE PROCESS AND ITS PAST — the runs of a looping program in a world that only answers.

  `Duo` is about two programs that meet in a world.  Here there is one, and a state carries its own
  history: the turns done so far, each with the variables it began with and the calls answered in it.
  What an invariant says about the past is then a statement about this list, and the world keeps no
  variables for the sake of a proof.

  The trace of the turn in progress is part of what the program is verified against (`View`): a
  postcondition may speak of every call answered since the head of the loop.  `past` receives it when
  the turn ends, so an invariant over the past is an invariant over complete turns.

  The crux is to prove things about ONE turn and conclude them of runs.  Two forms are provided:
    * `Reach.local` carries an invariant `I past s e` of the loop head through the weakest precondition of
      the body — for facts that need every call on the way;
    * `Reach.head` and `Reach.inside` start from a description `W` of what a complete turn can do, proved
      once and with no condition on the answers, and need of each invariant only that `W` restores it —
      for many facts about one program, each under its own condition.

  Contents:
  1. `Solo`, `Solo.State`, `Solo.step` — one move: the next turn begins, or the pending call is answered.
  2. `Reach S C d₀` — reachability by moves that all meet a condition; `run`, `reach_run`.
  3. `Reach.local`, `Reach.began` — the proof rule: from an invariant of the loop head, the body is `Safe` and
     ends in the invariant, with the turn just done added to the past.
  4. `Answered`, `safe_answered` — the conditions that the answers of a turn met, put aside and used later.
  5. `Reach.head`, `Reach.inside`, `Reach.done` — from turns to runs.
-/
import Universita.Lib.Duo

set_option linter.unusedVariables false

namespace Universita.Lib

/-- A looping program and what its world answers. -/
structure Solo (O : Type) (R : O → Type) (σ E : Type) where
  /-- One turn, from the variables it begins with to the next ones. -/
  body : σ → Prog O R σ
  /-- What the world may answer, and the world it leaves. -/
  ans : E → (o : O) → R o → Option E

namespace Solo

variable {O : Type} {R : O → Type} {σ E : Type}

/-- The turns done: what each began with, and its answered calls. -/
abbrev Past (O : Type) (R : O → Type) (σ : Type) := List (σ × List (Event O R))

/-- A state of the run: what is over, what the turn in progress began with, what was answered in it,
    what is left of it. -/
structure State (O : Type) (R : O → Type) (σ E : Type) where
  /-- The turns done, the last one last. -/
  past : Past O R σ
  /-- The variables of the turn in progress. -/
  turn : σ
  /-- The calls answered in it. -/
  trace : List (Event O R)
  /-- What is left of it. -/
  prog : Prog O R σ
  /-- The world. -/
  env : E

/-- One move; all that is left open by the program is in it. -/
inductive Move (O : Type) (R : O → Type) where
  | turn
  | act (o : O) (r : R o)

/-- The first turn, about to begin. -/
def start (S : Solo O R σ E) (s : σ) (e : E) : State O R σ E := ⟨[], s, [], S.body s, e⟩

/-- A turn about to begin, behind those in `past`. -/
def resume (S : Solo O R σ E) (past : Past O R σ) (s : σ) (e : E) : State O R σ E := ⟨past, s, [], S.body s, e⟩

variable [DecidableEq O] (S : Solo O R σ E)

/-- The effect of a move, `none` when it is not possible. -/
def step (d : State O R σ E) : Move O R → Option (State O R σ E)
  | .turn => match d.prog with
    | .ret s => some { d with past := d.past ++ [(d.turn, d.trace)], turn := s, trace := [], prog := S.body s }
    | .call _ _ => none
  | .act o r => match d.prog with
    | .ret _ => none
    | .call o' k =>
      if h : o = o' then
        (S.ans d.env o r).map fun e =>
          { d with prog := k (h ▸ r), trace := d.trace ++ [⟨o, r⟩], env := e }
      else none

/-- A turn that has ended joins the past, and the next one begins with what it ended with. -/
theorem step_turn {d d' : State O R σ E} (h : S.step d .turn = some d') :
    ∃ s, d.prog = .ret s ∧
      d' = { d with past := d.past ++ [(d.turn, d.trace)], turn := s, trace := [], prog := S.body s } := by
  cases hp : d.prog with
  | ret s => exact ⟨s, rfl, by simpa [step, hp] using h.symm⟩
  | call o k => simp [step, hp] at h

/-- The pending call is answered and joins the trace, with its answer, in the world that the answer
    leads to. -/
theorem step_act {d d' : State O R σ E} {o : O} {r : R o} (h : S.step d (.act o r) = some d') :
    ∃ k e, d.prog = .call o k ∧ S.ans d.env o r = some e ∧
      d' = { d with prog := k r, trace := d.trace ++ [⟨o, r⟩], env := e } := by
  cases hp : d.prog with
  | ret s => simp [step, hp] at h
  | call o' k =>
    by_cases ho : o = o'
    · subst ho
      simp only [step, hp, dif_pos, Option.map_eq_some_iff] at h
      obtain ⟨e, he, hd⟩ := h
      exact ⟨k, e, rfl, he, hd.symm⟩
    · simp [step, hp, ho] at h

/-! ## Reachability -/

/-- The states reached from `d₀` by moves that all meet `C`. -/
inductive Reach (C : State O R σ E → Move O R → Prop) (d₀ : State O R σ E) : State O R σ E → Prop
  | init : Reach C d₀ d₀
  | step {d d' : State O R σ E} {m : Move O R} :
      Reach C d₀ d → C d m → S.step d m = some d' → Reach C d₀ d'

/-- A run given by the list of its moves, `none` when one is impossible or does not meet `ok`. -/
def run (ok : State O R σ E → Move O R → Bool) :
    State O R σ E → List (Move O R) → Option (State O R σ E)
  | d, [] => some d
  | d, m :: ms => if ok d m then (S.step d m).bind fun d' => run ok d' ms else none

variable {S} {C : State O R σ E → Move O R → Prop}

theorem Reach.turn {d₀ d : State O R σ E} (hd : Reach S C d₀ d) {s : σ}
    (hp : d.prog = .ret s) (hC : C d .turn) :
    Reach S C d₀ { d with past := d.past ++ [(d.turn, d.trace)], turn := s, trace := [], prog := S.body s } :=
  .step hd hC (by rw [Solo.step, hp])

theorem Reach.act {d₀ d : State O R σ E} (hd : Reach S C d₀ d) {o : O}
    {k : R o → Prog O R σ} (hp : d.prog = .call o k) (r : R o) {e : E} (hC : C d (.act o r))
    (he : S.ans d.env o r = some e) :
    Reach S C d₀ { d with prog := k r, trace := d.trace ++ [⟨o, r⟩], env := e } :=
  .step hd hC (by simp [Solo.step, hp, he])

/-- A run that evaluates is a witness of reachability: the condition is checked by a function on the
    way, move by move. -/
theorem reach_run {ok : State O R σ E → Move O R → Bool} (hok : ∀ d m, ok d m = true → C d m)
    {d₀ : State O R σ E} (ms : List (Move O R)) : ∀ {d d' : State O R σ E},
    Reach S C d₀ d → S.run ok d ms = some d' → Reach S C d₀ d' := by
  induction ms with
  | nil =>
    rintro d d' hd ⟨⟩
    exact hd
  | cons m ms ih =>
    intro d d' hd h
    rw [run] at h
    split at h
    · rename_i hm
      obtain ⟨d₁, h1, h2⟩ := Option.bind_eq_some_iff.mp h
      exact ih (Reach.step hd (hok d m hm) h1) h2
    · cases h

/-! ## The proof rule -/

/-- What a turn sees: the calls answered in it, and the world. -/
abbrev View (O : Type) (R : O → Type) (E : Type) := List (Event O R) × E

/-- The answers on views, those that meet `A`. -/
def answers (S : Solo O R σ E) (A : View O R E → (o : O) → R o → Prop) (v : View O R E) (o : O) (r : R o)
    (v' : View O R E) : Prop :=
  S.ans v.2 o r = some v'.2 ∧ v'.1 = v.1 ++ [⟨o, r⟩] ∧ A v o r

section Invariant

variable {A : Past O R σ → σ → View O R E → (o : O) → R o → Prop} {B : Past O R σ → σ → E → Prop}
  {P : σ → View O R E → O → Prop} {I : Past O R σ → σ → E → Prop} {past₀ : Past O R σ} {s₀ : σ} {e₀ : E}

/-- The loop invariant, from any beginning of a turn: a proof about the middle of a history can start
    there. -/
theorem Reach.local_from (hA : ∀ d o r, C d (.act o r) → A d.past d.turn (d.trace, d.env) o r)
    (hB : ∀ d s, C d .turn → d.prog = .ret s → B (d.past ++ [(d.turn, d.trace)]) s d.env)
    (h0 : I past₀ s₀ e₀) (hB0 : B past₀ s₀ e₀)
    (hturn : ∀ past s e, I past s e → B past s e → (S.body s).Safe (S.answers (A past s)) (P s)
      (fun s' v => I (past ++ [(s, v.1)]) s' v.2) ([], e))
    {d : State O R σ E} (hd : Reach S C (S.resume past₀ s₀ e₀) d) :
    d.prog.Safe (S.answers (A d.past d.turn)) (P d.turn)
      (fun s' v => I (d.past ++ [(d.turn, v.1)]) s' v.2) (d.trace, d.env) := by
  induction hd with
  | init => exact hturn past₀ s₀ e₀ h0 hB0
  | @step d d' m hd hC hs ih =>
    cases m with
    | turn =>
      obtain ⟨s, hp, rfl⟩ := step_turn S hs
      have hI := ih
      rw [hp] at hI
      exact hturn _ s _ hI (hB d s hC hp)
    | act o r =>
      obtain ⟨k, e, hp, he, rfl⟩ := step_act S hs
      rw [hp] at ih
      exact ih.2 r (d.trace ++ [⟨o, r⟩], e) ⟨he, rfl, hA d o r hC⟩

/-- **The loop invariant.**  `I past s e` holds at the head of the loop; each turn whose beginning meets
    `B` and whose answers meet `A` is `Safe` and restores it.  Then what is left of the turn is safe in
    every state reached. -/
theorem Reach.local (hA : ∀ d o r, C d (.act o r) → A d.past d.turn (d.trace, d.env) o r)
    (hB : ∀ d s, C d .turn → d.prog = .ret s → B (d.past ++ [(d.turn, d.trace)]) s d.env)
    (h0 : I [] s₀ e₀) (hB0 : B [] s₀ e₀)
    (hturn : ∀ past s e, I past s e → B past s e → (S.body s).Safe (S.answers (A past s)) (P s)
      (fun s' v => I (past ++ [(s, v.1)]) s' v.2) ([], e))
    {d : State O R σ E} (hd : Reach S C (S.start s₀ e₀) d) :
    d.prog.Safe (S.answers (A d.past d.turn)) (P d.turn)
      (fun s' v => I (d.past ++ [(d.turn, v.1)]) s' v.2) (d.trace, d.env) :=
  Reach.local_from hA hB h0 hB0 hturn hd

/-- ... and when the turn began the invariant held. -/
theorem Reach.began (hA : ∀ d o r, C d (.act o r) → A d.past d.turn (d.trace, d.env) o r)
    (hB : ∀ d s, C d .turn → d.prog = .ret s → B (d.past ++ [(d.turn, d.trace)]) s d.env)
    (h0 : I past₀ s₀ e₀) (hB0 : B past₀ s₀ e₀)
    (hturn : ∀ past s e, I past s e → B past s e → (S.body s).Safe (S.answers (A past s)) (P s)
      (fun s' v => I (past ++ [(s, v.1)]) s' v.2) ([], e))
    {d : State O R σ E} (hd : Reach S C (S.resume past₀ s₀ e₀) d) :
    ∃ e, I d.past d.turn e ∧ (d.trace = [] → e = d.env) := by
  induction hd with
  | init => exact ⟨e₀, h0, fun _ => rfl⟩
  | @step d d' m hd hC hs ih =>
    cases m with
    | turn =>
      obtain ⟨s, hp, rfl⟩ := step_turn S hs
      have h := Reach.local_from hA hB h0 hB0 hturn hd
      rw [hp] at h
      exact ⟨d.env, h, fun _ => rfl⟩
    | act o r =>
      obtain ⟨k, e, hp, he, rfl⟩ := step_act S hs
      obtain ⟨e', h, -⟩ := ih
      exact ⟨e', h, fun hnil => absurd hnil (by simp)⟩

/-- A turn without calls is at its end from the beginning, so nothing has to be known of it but its body. -/
theorem Reach.silent {d₀ d : State O R σ E} (hd : Reach S C d₀ d) (h0 : d₀.prog = S.body d₀.turn)
    (ht0 : d₀.trace = []) {s : σ} (hs : S.body d.turn = .ret s) : d.prog = .ret s ∧ d.trace = [] := by
  induction hd with
  | init => exact ⟨h0.trans hs, ht0⟩
  | @step d d' m hd hC hst ih =>
    cases m with
    | turn =>
      obtain ⟨s', hp, rfl⟩ := step_turn S hst
      exact ⟨hs, rfl⟩
    | act o r =>
      obtain ⟨k, e, hp, he, rfl⟩ := step_act S hst
      rw [(ih hs).1] at hp
      cases hp

end Invariant

/-- Each call of the trace was answered as `A` says, in some world. -/
def Answered (A : View O R E → (o : O) → R o → Prop) (tr : List (Event O R)) : Prop :=
  ∀ pre ev post, tr = pre ++ ev :: post → ∃ e, A (pre, e) ev.1 ev.2

omit [DecidableEq O] in

/-- One answer more, in the world it was given in. -/
theorem Answered.snoc {A : View O R E → (o : O) → R o → Prop} {tr : List (Event O R)} (h : Answered A tr)
    {e : E} {o : O} {r : R o} (hA : A (tr, e) o r) : Answered A (tr ++ [⟨o, r⟩]) := by
  intro pre ev post heq
  rcases List.eq_nil_or_concat post with rfl | ⟨post', ev', rfl⟩
  · obtain ⟨rfl, hev⟩ := List.append_inj' heq rfl
    obtain rfl := (List.cons.inj hev).1
    exact ⟨e, hA⟩
  · rw [List.concat_eq_append, ← List.cons_append, ← List.append_assoc] at heq
    exact h pre ev post' (List.append_inj' heq rfl).1

omit [DecidableEq O] in

/-- Each call of the trace was answered under the condition, whatever came before it. -/
theorem Answered.of_mem {A : View O R E → (o : O) → R o → Prop} {tr : List (Event O R)}
    (h : Answered A tr)
    {ev : Event O R} (hev : ev ∈ tr) : ∃ v, A v ev.1 ev.2 := by
  obtain ⟨pre, post, heq⟩ := List.append_of_mem hev
  obtain ⟨e, he⟩ := h pre ev post heq
  exact ⟨(pre, e), he⟩

omit [DecidableEq O] in

/-- A turn can be verified without the conditions on the answers, and used with them. They are put aside
    on the way and come back at the end of the turn, as a fact about its whole trace. -/
theorem safe_answered {A : View O R E → (o : O) → R o → Prop} {P : View O R E → O → Prop} {α : Type}
    {p : Prog O R α} {Q : α → View O R E → Prop} : ∀ {v : View O R E}, Answered A v.1 →
    p.Safe (S.answers fun _ _ _ => True) P Q v →
    p.Safe (S.answers A) P (fun a v => Q a v ∧ Answered A v.1) v := by
  induction p with
  | ret a => exact fun ha h => ⟨h, ha⟩
  | call o k ih =>
    rintro ⟨tr, e⟩ ha ⟨hP, hk⟩
    refine ⟨hP, ?_⟩
    rintro r ⟨tr', e'⟩ ⟨he, rfl, hA⟩
    exact ih r (ha.snoc hA) (hk r _ ⟨he, rfl, trivial⟩)

omit [DecidableEq O] in

/-- At the head of the loop nothing has been answered yet. -/
theorem answered_nil {A : View O R E → (o : O) → R o → Prop} : Answered A [] := by
  intro pre ev post heq
  exact absurd (congrArg List.length heq) (by simp)

/-- **From turns to runs.**  `W` says what a complete turn can do.  An invariant that every such turn
    restores, when it begins as `B` says and is answered as `A` says, holds whenever the loop is at its
    head. -/
theorem Reach.head {A : Past O R σ → σ → View O R E → (o : O) → R o → Prop}
    {B : Past O R σ → σ → E → Prop}
    {W : σ → E → List (Event O R) → σ → E → Prop} {I : Past O R σ → σ → E → Prop} {s₀ : σ} {e₀ : E}
    (hW : ∀ s e, (S.body s).Safe (S.answers fun _ _ _ => True) (fun _ _ => True)
      (fun s' v => W s e v.1 s' v.2) ([], e))
    (hA : ∀ d o r, C d (.act o r) → A d.past d.turn (d.trace, d.env) o r)
    (hB : ∀ d s, C d .turn → d.prog = .ret s → B (d.past ++ [(d.turn, d.trace)]) s d.env)
    (h0 : I [] s₀ e₀) (hB0 : B [] s₀ e₀)
    (hI : ∀ past s e tr s' e', I past s e → B past s e → W s e tr s' e' → Answered (A past s) tr →
      I (past ++ [(s, tr)]) s' e')
    {d : State O R σ E} (hd : Reach S C (S.start s₀ e₀) d) {s : σ} (hs : d.prog = .ret s) :
    I (d.past ++ [(d.turn, d.trace)]) s d.env := by
  have h := Reach.local (P := fun _ _ _ => True) hA hB h0 hB0 (fun past s e hI' hB' => ?_) hd
  · rw [hs] at h
    exact h
  · exact (safe_answered answered_nil (hW s e)).mono fun s' v hv =>
      hI past s e v.1 s' v.2 hI' hB' hv.1 hv.2

/-- ... and in the middle of a turn it held at its beginning, in some world. -/
theorem Reach.inside {A : Past O R σ → σ → View O R E → (o : O) → R o → Prop}
    {B : Past O R σ → σ → E → Prop}
    {W : σ → E → List (Event O R) → σ → E → Prop} {I : Past O R σ → σ → E → Prop} {s₀ : σ} {e₀ : E}
    (hW : ∀ s e, (S.body s).Safe (S.answers fun _ _ _ => True) (fun _ _ => True)
      (fun s' v => W s e v.1 s' v.2) ([], e))
    (hA : ∀ d o r, C d (.act o r) → A d.past d.turn (d.trace, d.env) o r)
    (hB : ∀ d s, C d .turn → d.prog = .ret s → B (d.past ++ [(d.turn, d.trace)]) s d.env)
    (h0 : I [] s₀ e₀) (hB0 : B [] s₀ e₀)
    (hI : ∀ past s e tr s' e', I past s e → B past s e → W s e tr s' e' → Answered (A past s) tr →
      I (past ++ [(s, tr)]) s' e')
    {d : State O R σ E} (hd : Reach S C (S.start s₀ e₀) d) :
    ∃ e, I d.past d.turn e ∧ B d.past d.turn e ∧ Answered (A d.past d.turn) d.trace := by
  induction hd with
  | init => exact ⟨e₀, h0, hB0, answered_nil⟩
  | @step d d' m hd hC hs ih =>
    cases m with
    -- a turn that begins is at a head, of which `Reach.head` knows everything
    | turn =>
      obtain ⟨s, hp, rfl⟩ := step_turn S hs
      exact ⟨d.env, Reach.head hW hA hB h0 hB0 hI hd hp, hB d s hC hp, answered_nil⟩
    | act o r =>
      obtain ⟨k, e, hp, he, rfl⟩ := step_act S hs
      obtain ⟨e', hI', hB', hans⟩ := ih
      exact ⟨e', hI', hB', hans.snoc (hA d o r hC)⟩

/-- The turn that has just ended is one of those that `W` describes, from some world in which it began. -/
theorem Reach.done {W : σ → E → List (Event O R) → σ → E → Prop} {s₀ : σ} {e₀ : E}
    (hW : ∀ s e, (S.body s).Safe (S.answers fun _ _ _ => True) (fun _ _ => True)
      (fun s' v => W s e v.1 s' v.2) ([], e))
    {d : State O R σ E} (hd : Reach S C (S.start s₀ e₀) d) {s : σ} (hs : d.prog = .ret s) :
    ∃ e, W d.turn e d.trace s d.env := by
  let I (past : Past O R σ) (s : σ) (e' : E) : Prop := ∀ before t tr, past = before ++ [(t, tr)] →
    ∃ e, W t e tr s e'
  have hI : I (d.past ++ [(d.turn, d.trace)]) s d.env := by
    refine Reach.head (I := I) hW (A := fun _ _ _ _ _ => True) (B := fun _ _ _ => True) (fun _ _ _ _ => trivial)
      (fun _ _ _ _ => trivial) ?_ trivial ?_ hd hs
    · intro before t tr h
      exact absurd (congrArg List.length h) (by simp)
    · intro past s e tr s' e' _ _ hw _ before t tr' h
      obtain ⟨-, hlast⟩ := List.append_inj' h rfl
      obtain ⟨rfl, rfl⟩ := Prod.mk.inj (List.cons.inj hlast).1
      exact ⟨e, hw⟩
  exact hI d.past d.turn d.trace rfl

end Solo

end Universita.Lib

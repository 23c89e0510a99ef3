/-
  INTERACTION PROGRAMS — programs that talk to an operating system, as data.

  A `Prog O R α` is a sequential program that issues calls `o : O`, receives for each an answer of
  type `R o`, and ends with a value of type `α`.  Only the program is data: what a call may answer,
  and what it does to the world, is an ENVIRONMENT, given separately as a relation

      `T : E → (o : O) → R o → E → Prop`     ("in `e`, call `o` may answer `r`, leading to `e'`").

  So one translation of a C function serves every question asked about it: with the world of a TCP
  connection it is a party of a protocol, with a table of descriptors it is a user of resources, with no
  world at all (`Only`) it is the list of what it may ever do.

  The crux is `Safe`, a weakest precondition.  It is a structural recursion on the program, so a proof
  follows the program's own text: one premise a call, and at every branch the cases the source has.
  Sequencing is `safe_bind`; a function is verified once, by a lemma that ends in its postcondition, and
  its callers cite that lemma and never look inside.

  `Safe` says nothing about progress.  Where an answer has to exist, `Answers` says so call by call and
  `Safe.exists_runs` turns it into a complete execution.

  Contents:
  1. `Prog`, its monad (`ret`/`bind`, so that programs are written in `do` notation).
  2. `Runs T p e a e'` — a complete execution of `p` from `e` ends with `a` in `e'`; `Loops`, complete
     turns of a loop.
  3. `Safe T P p Q e` — along EVERY execution of `p` from `e` each call is issued where `P` allows it, and
     `Q` holds of the value and the world at the end.  Unlike `Runs` it also speaks about executions
     that never finish (a blocked read).
  4. The rules: `safe_bind` (sequencing), `Safe.mono` (consequence), `Safe.runs` (adequacy).
  5. `Only A P p Q` — what `p` may issue, whatever the world: with answers in `A` every call is in `P`
     and the value is in `Q`.  `Only.safe` is the frame rule: what no call in `P` changes, `p` keeps.
  6. `Quiet P stop p` — `p` issues no call in `P` before the first in `stop`.
  7. `resolve A p` — `p` once the calls that `A` has an answer to are answered with it.
-/
set_option linter.unusedVariables false

namespace Universita.Lib

/-! ## Programs -/

/-- A sequential program over calls `O` with answers `R`, returning an `α`. -/
inductive Prog (O : Type) (R : O → Type) (α : Type) where
  /-- The program is over. -/
  | ret (a : α) : Prog O R α
  /-- It asks for one thing and goes on with what it is told. -/
  | call (o : O) (k : R o → Prog O R α) : Prog O R α

namespace Prog

variable {O : Type} {R : O → Type} {α β γ E : Type}

/-- Run `p`, then continue with `f` on its value. -/
def bind : Prog O R α → (α → Prog O R β) → Prog O R β
  | .ret a, f => f a
  | .call o k, f => .call o fun r => (k r).bind f

instance : Monad (Prog O R) where
  pure := .ret
  bind := bind

/-- The program that issues one call and returns its answer. -/
def op (o : O) : Prog O R (R o) := .call o .ret

/-- `pure` of the monad is the end of a program. -/
@[simp] theorem pure_eq (a : α) : (pure a : Prog O R α) = .ret a := rfl

/-- What is over goes on with what comes next. -/
@[simp] theorem ret_bind (a : α) (f : α → Prog O R β) : (Prog.ret a >>= f) = f a := rfl

/-- A call in front stays in front: sequencing only appends. -/
@[simp] theorem call_bind (o : O) (k : R o → Prog O R α) (f : α → Prog O R β) :
    (Prog.call o k >>= f) = .call o fun r => k r >>= f := rfl

@[simp] theorem op_eq (o : O) : (op o : Prog O R (R o)) = .call o .ret := rfl

/-- Ending with the value of `p` is `p`. -/
@[simp] theorem bind_ret (p : Prog O R α) : (p >>= Prog.ret) = p := by
  induction p with
  | ret a => rfl
  | call o k ih => rw [call_bind]; exact congrArg (Prog.call o) (funext ih)

/-! ## Complete executions -/

/-- `Runs T p e a e'` — `p` started in world `e` can end with value `a` in world `e'`. -/
def Runs (T : E → (o : O) → R o → E → Prop) : Prog O R α → E → α → E → Prop
  | .ret b, e, a, e' => a = b ∧ e' = e
  | .call o k, e, a, e' => ∃ r e₁, T e o r e₁ ∧ Runs T (k r) e₁ a e'

section Runs

variable {T : E → (o : O) → R o → E → Prop}

/-- What is over ends with its value and touches nothing. -/
@[simp] theorem runs_ret {b a : α} {e e' : E} :
    Runs T (.ret b : Prog O R α) e a e' ↔ a = b ∧ e' = e := Iff.rfl

/-- An execution that begins with a call begins with an answer to it. -/
theorem runs_call {o : O} {k : R o → Prog O R α} {e e' : E} {a : α} :
    Runs T (.call o k) e a e' ↔ ∃ r e₁, T e o r e₁ ∧ Runs T (k r) e₁ a e' := Iff.rfl

/-- An execution of a sequence is an execution of its first part, then one of its second, from the value
    and the world that the first has left. -/
theorem runs_bind (p : Prog O R α) (f : α → Prog O R β) (e : E) (b : β) (e' : E) :
    Runs T (p >>= f) e b e' ↔ ∃ a e₁, Runs T p e a e₁ ∧ Runs T (f a) e₁ b e' := by
  -- on the first part: a call of it is a call of the whole
  induction p generalizing e with
  | ret a =>
    constructor
    · intro h; exact ⟨a, e, ⟨rfl, rfl⟩, h⟩
    · rintro ⟨_, _, ⟨rfl, rfl⟩, h⟩; exact h
  | call o k ih =>
    rw [call_bind]
    constructor
    · rintro ⟨r, e₁, hT, h⟩
      obtain ⟨a, e₂, h1, h2⟩ := (ih r e₁).mp h
      exact ⟨a, e₂, ⟨r, e₁, hT, h1⟩, h2⟩
    · rintro ⟨a, e₂, ⟨r, e₁, hT, h1⟩, h2⟩
      exact ⟨r, e₁, hT, (ih r e₁).mpr ⟨a, e₂, h1, h2⟩⟩

/-- Complete turns of a loop: each execution of the body starts where the last one ended. -/
inductive Loops (T : E → (o : O) → R o → E → Prop) (body : α → Prog O R α) :
    α → E → α → E → Prop
  | refl (a : α) (e : E) : Loops T body a e a e
  | turn {a b c : α} {e e₁ e₂ : E} :
      Loops T body a e b e₁ → Runs T (body b) e₁ c e₂ → Loops T body a e c e₂

end Runs

/-! ## The weakest precondition -/

/-- `Safe T P p Q e` — in every execution of `p` from `e` each call is issued in a world that `P` allows
    it in, and the end, if there is one, meets `Q`. -/
def Safe (T : E → (o : O) → R o → E → Prop) (P : E → O → Prop) :
    Prog O R α → (α → E → Prop) → E → Prop
  | .ret a, Q, e => Q a e
  | .call o k, Q, e => P e o ∧ ∀ r e', T e o r e' → Safe T P (k r) Q e'

section Safe

variable {T : E → (o : O) → R o → E → Prop} {P : E → O → Prop}

/-- At the end only the postcondition is left. -/
@[simp] theorem safe_ret {a : α} {Q : α → E → Prop} {e : E} :
    Safe T P (.ret a : Prog O R α) Q e ↔ Q a e := Iff.rfl

/-- A call: it has to be allowed here, and every answer has to be dealt with. -/
theorem safe_call {o : O} {k : R o → Prog O R α} {Q : α → E → Prop} {e : E} :
    Safe T P (.call o k) Q e ↔ P e o ∧ ∀ r e', T e o r e' → Safe T P (k r) Q e' := Iff.rfl

/-- **Sequencing**: the postcondition of the first part is the precondition of the second. -/
theorem safe_bind (p : Prog O R α) (f : α → Prog O R β) (Q : β → E → Prop) (e : E) :
    Safe T P (p >>= f) Q e ↔ Safe T P p (fun a e' => Safe T P (f a) Q e') e := by
  induction p generalizing e with
  | ret a => exact Iff.rfl
  | call o k ih =>
    rw [call_bind, safe_call, safe_call]
    exact and_congr_right fun _ => forall_congr' fun r => forall_congr' fun e' =>
      imp_congr_right fun _ => ih r e'

/-- **Consequence**: a weaker postcondition is easier to meet. -/
theorem Safe.mono {p : Prog O R α} {Q Q' : α → E → Prop} {e : E}
    (h : Safe T P p Q e) (hQ : ∀ a e', Q a e' → Q' a e') : Safe T P p Q' e := by
  induction p generalizing e with
  | ret a => exact hQ a e h
  | call o k ih => exact ⟨h.1, fun r e' hT => ih r (h.2 r e' hT)⟩

/-- Calls may be allowed for more reasons than the proof gave. -/
theorem Safe.weaken {P' : E → O → Prop} {p : Prog O R α} {Q : α → E → Prop} {e : E}
    (h : Safe T P p Q e) (hP : ∀ e o, P e o → P' e o) : Safe T P' p Q e := by
  induction p generalizing e with
  | ret a => exact h
  | call o k ih => exact ⟨hP e o h.1, fun r e' hT => ih r (h.2 r e' hT)⟩

/-- A world that refines another, seen through `f`: what is safe there is safe here. -/
theorem Safe.comap {E' : Type} {T' : E' → (o : O) → R o → E' → Prop} {f : E' → E}
    (hT : ∀ e o r e', T' e o r e' → T (f e) o r (f e')) {p : Prog O R α} {Q : α → E → Prop} {e : E'}
    (h : Safe T P p Q (f e)) : Safe T' (fun e o => P (f e) o) p (fun a e => Q a (f e)) e := by
  induction p generalizing e with
  | ret a => exact h
  | call o k ih => exact ⟨h.1, fun r e' ht => ih r (h.2 r (f e') (hT e o r e' ht))⟩

/-- Two verifications of one program are one, so a fact proved earlier is not proved again inside a
    later invariant. -/
theorem Safe.and {W : E → O → Prop} {p : Prog O R α} {Q K : α → E → Prop} {e : E}
    (h : Safe T P p Q e) (h' : Safe T W p K e) :
    Safe T (fun e o => P e o ∧ W e o) p (fun a e => Q a e ∧ K a e) e := by
  induction p generalizing e with
  | ret a => exact ⟨h, h'⟩
  | call o k ih => exact ⟨⟨h.1, h'.1⟩, fun r e' hT => ih r (h.2 r e' hT) (h'.2 r e' hT)⟩

/-- **Adequacy**: what `Safe` promises of the end holds at the end of every complete execution. -/
theorem Safe.runs {p : Prog O R α} {Q : α → E → Prop} {e e' : E} {a : α}
    (h : Safe T P p Q e) (hr : Runs T p e a e') : Q a e' := by
  induction p generalizing e with
  | ret b =>
    obtain ⟨rfl, rfl⟩ := hr
    exact h
  | call o k ih =>
    obtain ⟨r, e₁, hT, hk⟩ := hr
    exact ih r (h.2 r e₁ hT) hk

/-- The world has an answer to `o`. -/
def Answers (T : E → (o : O) → R o → E → Prop) (e : E) (o : O) : Prop := ∃ r e', T e o r e'

/-- **Total correctness**: where every call is one the world answers, there is a complete execution, and
    it ends as promised. -/
theorem Safe.exists_runs {p : Prog O R α} {Q : α → E → Prop} {e : E}
    (h : Safe T P p Q e) (hP : ∀ e o, P e o → Answers T e o) : ∃ a e', Runs T p e a e' ∧ Q a e' := by
  induction p generalizing e with
  | ret a => exact ⟨a, e, ⟨rfl, rfl⟩, h⟩
  | call o k ih =>
    obtain ⟨r, e₁, hT⟩ := hP e o h.1
    obtain ⟨a, e', hr, hQ⟩ := ih r (h.2 r e₁ hT)
    exact ⟨a, e', ⟨r, e₁, hT, hr⟩, hQ⟩

/-- Partial correctness: where nothing is asked of the calls, `Safe` speaks of the ends only. This is
    what connects it with `Runs`: each complete execution ends in `Q`, and one that does not end is not
    spoken of. -/
theorem safe_iff_runs {p : Prog O R α} {Q : α → E → Prop} (hP : ∀ e o, P e o) : ∀ {e : E},
    Safe T P p Q e ↔ ∀ a e', Runs T p e a e' → Q a e' := by
  induction p with
  | ret b =>
    intro e
    constructor
    · rintro h a e' ⟨rfl, rfl⟩
      exact h
    · intro h
      exact h b e ⟨rfl, rfl⟩
  | call o k ih =>
    intro e
    constructor
    · intro h a e' hr
      exact h.runs hr
    · intro h
      exact ⟨hP e o, fun r e₁ hT => (ih r).mpr fun a e' hr => h a e' ⟨r, e₁, hT, hr⟩⟩

/-- What every answer keeps (`K`) allows every call. -/
theorem safe_keep {K : E → Prop} (hP : ∀ e o, K e → P e o) (hT : ∀ e o r e', K e → T e o r e' → K e')
    {p : Prog O R α} {e : E} (he : K e) : Safe T P p (fun _ e' => K e') e := by
  induction p generalizing e with
  | ret a => exact he
  | call o k ih => exact ⟨hP e o he, fun r e' ht => ih r (hT e o r e' he ht)⟩

/-- What holds before each call and at the end holds now. -/
theorem Safe.now {p : Prog O R α} {Q : α → E → Prop} {e : E} {K : Prop} (h : Safe T P p Q e)
    (hcall : ∀ o, P e o → K) (hret : ∀ a, Q a e → K) : K := by
  cases p with
  | ret a => exact hret a h
  | call o k => exact hcall o h.1

end Safe

/-! ## The calls a program may issue -/

/-- `Only A P p Q` — as long as the answers meet `A`, every call of `p` meets `P` and its value `Q`. -/
def Only (A : (o : O) → R o → Prop) (P : O → Prop) (p : Prog O R α) (Q : α → Prop) : Prop :=
  Safe (fun (_ : Unit) o r _ => A o r) (fun _ o => P o) p (fun a _ => Q a) ()

section Only

variable {A : (o : O) → R o → Prop} {P : O → Prop}

@[simp] theorem only_ret {a : α} {Q : α → Prop} :
    Only A P (.ret a : Prog O R α) Q ↔ Q a := Iff.rfl

/-- Call by call, with every answer that may come. -/
@[simp] theorem only_call {o : O} {k : R o → Prog O R α} {Q : α → Prop} :
    Only A P (.call o k) Q ↔ P o ∧ ∀ r, A o r → Only A P (k r) Q :=
  and_congr_right fun _ => forall_congr' fun r => ⟨fun h => h (), fun h _ => h⟩

theorem only_bind (p : Prog O R α) (f : α → Prog O R β) (Q : β → Prop) :
    Only A P (p >>= f) Q ↔ Only A P p (fun a => Only A P (f a) Q) :=
  safe_bind p f _ ()

theorem Only.mono {p : Prog O R α} {Q Q' : α → Prop} (h : Only A P p Q) (hQ : ∀ a, Q a → Q' a) :
    Only A P p Q' :=
  Safe.mono h fun a _ => hQ a

/-- Fewer answers to fear, more calls allowed: both make it easier. -/
theorem Only.weaken {A' : (o : O) → R o → Prop} {P' : O → Prop} {p : Prog O R α} {Q : α → Prop}
    (h : Only A P p Q) (hA : ∀ o r, A' o r → A o r) (hP : ∀ o, P o → P' o) : Only A' P' p Q := by
  induction p with
  | ret a => exact h
  | call o k ih =>
    rw [only_call] at h ⊢
    exact ⟨hP o h.1, fun r hr => ih r (h.2 r (hA o r hr))⟩

/-- **The frame rule**: what calls in `P` leave true stays true while `p` runs. The function is then
    known to its callers by one line about what it may issue. -/
theorem Only.safe {T : E → (o : O) → R o → E → Prop} {P' : E → O → Prop} {K : E → Prop}
    {p : Prog O R α} {Q : α → Prop} {e : E} (h : Only A P p Q) (hP : ∀ e o, K e → P o → P' e o)
    (hT : ∀ e o r e', K e → P o → T e o r e' → A o r ∧ K e') (he : K e) :
    Safe T P' p (fun a e' => Q a ∧ K e') e := by
  induction p generalizing e with
  | ret a => exact ⟨h, he⟩
  | call o k ih =>
    rw [only_call] at h
    refine ⟨hP e o he h.1, fun r e₁ ht => ?_⟩
    obtain ⟨hA, hK⟩ := hT e o r e₁ he h.1 ht
    exact ih r (h.2 r hA) hK

/-- A world that gives only some of the answers is as good as the whole, for a program that never asks
    what they differ on. -/
theorem runs_restrict {T : E → (o : O) → R o → E → Prop} {p : Prog O R α} {a : α} {e' : E}
    (h : Only (fun _ _ => True) (fun o => ∀ r, A o r) p fun _ => True) : ∀ {e : E},
    Runs (fun e o r e' => T e o r e' ∧ A o r) p e a e' ↔ Runs T p e a e' := by
  induction p with
  | ret b => exact Iff.rfl
  | call o k ih =>
    intro e
    rw [only_call] at h
    rw [runs_call, runs_call]
    refine exists₂_congr fun r e₁ => ?_
    rw [and_iff_left (h.1 r), ih r (h.2 r trivial)]

end Only

/-! ## Silence -/

/-- `Quiet P stop p` — no call in `P` comes before the first in `stop`. -/
def Quiet (P stop : O → Prop) : Prog O R α → Prop
  | .ret _ => True
  | .call o k => ¬ P o ∧ (¬ stop o → ∀ r, Quiet P stop (k r))

section Quiet

variable {P stop : O → Prop}

/-- What is over issues nothing any more. -/
@[simp] theorem quiet_ret {a : α} : Quiet P stop (.ret a : Prog O R α) := trivial

/-- A call is not in `P`, and unless it is in `stop` the silence goes on. -/
@[simp] theorem quiet_call {o : O} {k : R o → Prog O R α} :
    Quiet P stop (.call o k) ↔ ¬ P o ∧ (¬ stop o → ∀ r, Quiet P stop (k r)) := Iff.rfl

/-- Two silent parts are silent: the second matters only where the first did not meet `stop`. -/
theorem Quiet.bind {p : Prog O R α} {f : α → Prog O R β} (hp : Quiet P stop p)
    (hf : ∀ a, Quiet P stop (f a)) : Quiet P stop (p >>= f) := by
  induction p with
  | ret a => exact hf a
  | call o k ih => exact ⟨hp.1, fun hs r => ih r (hp.2 hs r)⟩

end Quiet

/-! ## Calls answered in advance -/

/-- `p` where each call that `A` has an answer to is answered with it and no longer issued. -/
def resolve (A : (o : O) → Option (R o)) : Prog O R α → Prog O R α
  | .ret a => .ret a
  | .call o k => match A o with
    | some r => (k r).resolve A
    | none => .call o fun r => (k r).resolve A

section Resolve

variable {A : (o : O) → Option (R o)}

@[simp] theorem resolve_ret (a : α) : (.ret a : Prog O R α).resolve A = .ret a := rfl

/-- A call with an answer is gone. -/
theorem resolve_call_some {o : O} {r : R o} (h : A o = some r) (k : R o → Prog O R α) :
    (Prog.call o k).resolve A = (k r).resolve A := by rw [resolve, h]

theorem resolve_call_none {o : O} (h : A o = none) (k : R o → Prog O R α) :
    (Prog.call o k).resolve A = .call o fun r => (k r).resolve A := by rw [resolve, h]

/-- A sequence is resolved part by part, so a function that is resolved once is resolved wherever it is
    called. -/
theorem resolve_bind (p : Prog O R α) (f : α → Prog O R β) :
    (p >>= f).resolve A = p.resolve A >>= fun a => (f a).resolve A := by
  induction p with
  | ret a => rfl
  | call o k ih =>
    rw [call_bind]
    cases hA : A o with
    | some r => rw [resolve_call_some hA, resolve_call_some hA, ih]
    | none =>
      rw [resolve_call_none hA, resolve_call_none hA, call_bind]
      exact congrArg (Prog.call o) (funext ih)

/-- What it does is something `p` may do, where these answers are possible and change nothing. -/
theorem Runs.of_resolve {T : E → (o : O) → R o → E → Prop} {p : Prog O R α} {a : α} {e' : E}
    (hA : ∀ o r, A o = some r → ∀ e, T e o r e) : ∀ {e : E},
    Runs T (p.resolve A) e a e' → Runs T p e a e' := by
  -- on the program: a resolved call adds the answer it was given
  induction p with
  | ret b => exact fun h => h
  | call o k ih =>
    intro e h
    cases hAo : A o with
    | some r =>
      rw [resolve_call_some hAo] at h
      exact ⟨r, e, hA o r hAo e, ih r h⟩
    | none =>
      rw [resolve_call_none hAo] at h
      obtain ⟨r, e₁, hT, hk⟩ := h
      exact ⟨r, e₁, hT, ih r hk⟩

end Resolve

end Prog

end Universita.Lib

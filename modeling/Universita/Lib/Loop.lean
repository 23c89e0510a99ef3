/-
  WHILE LOOPS — a loop that asks for one result a turn, as a function of the results.

  `Prog` describes a program that ends on every path; a `while` loop around a system call ends when the
  results let it.  Here it is its variables `σ`, the test at its head, and its body, which takes the
  result of the call to the next variables or leaves the loop with a value (`break`, `return`, `exit`).

  A loop is run against a LIST of results, so there is no fuel: the recursion is on the list, and `none`
  says that the loop asks for one result more.  That a loop returns is then a statement about the
  results (enough of them were not the ones that keep it going), never about a bound.

  The crux is `rule`, the Hoare rule of the loop.  It has one premise for each way a turn can end (the
  test stops, the body goes on, the body leaves) and concludes for the value and for every call on the
  way: at each of them the invariant holds and the test has not stopped the loop.

  Contents:
  1. `Loop`, `run` — the value it ends with; `none` when it asks for more results than there are.
  2. `calls` — the calls it makes: the variables each was made from, and its result.
  3. One equation a case for both: `…_exit`, `…_next`, `…_leave`.  No proof unfolds `run` or `calls`.
  4. `mem_calls` — results are taken from those given.
  5. `rule` — what holds at the head and is kept by the body holds at every call.
-/
set_option linter.unusedVariables false

namespace Universita.Lib

/-- A loop with variables `σ` and calls that answer an `α`; it ends with a `ρ`. -/
structure Loop (σ α ρ : Type) where
  /-- The test at the head: `some` value when the loop is over. -/
  exit : σ → Option ρ
  /-- One turn with the result of its call: the next variables, or the value it leaves with. -/
  turn : σ → α → σ ⊕ ρ

namespace Loop

variable {σ α ρ : Type} (L : Loop σ α ρ)

/-- The value the loop ends with on these results; `none` when it asks for one more. -/
def run : σ → List α → Option ρ
  | s, [] => L.exit s
  | s, a :: as => match L.exit s with
    | some r => some r
    | none => match L.turn s a with
      | .inl s => run s as
      | .inr r => some r

/-- The calls it makes, each with the variables it was made from and its result. -/
def calls : σ → List α → List (σ × α)
  | s, [] => []
  | s, a :: as => match L.exit s with
    | some _ => []
    | none => (s, a) :: match L.turn s a with
      | .inl s => calls s as
      | .inr _ => []

variable {L} {s s' : σ} {a : α} {as : List α} {r : ρ}

/-! ## Turn by turn -/

/-- At the end no result is asked for: the value is that of the test. -/
theorem run_exit (h : L.exit s = some r) (as : List α) : L.run s as = some r := by
  cases as with
  | nil => exact h
  | cons a as => rw [run, h]

theorem calls_exit (h : L.exit s = some r) (as : List α) : L.calls s as = [] := by
  cases as with
  | nil => rfl
  | cons a as => rw [calls, h]

theorem run_next (h : L.exit s = none) (ht : L.turn s a = .inl s') (as : List α) :
    L.run s (a :: as) = L.run s' as := by
  rw [run, h]
  simp only [ht]

theorem calls_next (h : L.exit s = none) (ht : L.turn s a = .inl s') (as : List α) :
    L.calls s (a :: as) = (s, a) :: L.calls s' as := by
  rw [calls, h]
  simp only [ht]

/-- A turn that leaves: the rest of the results is not looked at. -/
theorem run_leave (h : L.exit s = none) (ht : L.turn s a = .inr r) (as : List α) :
    L.run s (a :: as) = some r := by
  rw [run, h]
  simp only [ht]

theorem calls_leave (h : L.exit s = none) (ht : L.turn s a = .inr r) (as : List α) :
    L.calls s (a :: as) = [(s, a)] := by
  rw [calls, h]
  simp only [ht]

/-- The first call, as long as the loop goes on. -/
theorem calls_cons (h : L.exit s = none) (a : α) (as : List α) : ∃ cs, L.calls s (a :: as) = (s, a) :: cs := by
  rw [calls, h]
  exact ⟨_, rfl⟩

/-- The results of the calls made are among those given, so what holds of all of them holds of each call. -/
theorem mem_calls {c : σ × α} (h : c ∈ L.calls s as) : c.2 ∈ as := by
  induction as generalizing s with
  | nil => exact absurd h List.not_mem_nil
  | cons a as ih =>
    cases he : L.exit s with
    | some r =>
      rw [calls_exit he] at h
      exact absurd h List.not_mem_nil
    | none =>
      cases ht : L.turn s a with
      | inl s' =>
        rw [calls_next he ht] at h
        rcases List.mem_cons.mp h with rfl | h
        · exact List.mem_cons_self
        · exact List.mem_cons_of_mem _ (ih h)
      | inr r =>
        rw [calls_leave he ht] at h
        rw [List.mem_singleton.mp h]
        exact List.mem_cons_self

/-! ## The loop rule -/

/-- **The loop rule**: an invariant of the head holds wherever a call is made, and what each way out makes
    of it holds of the value. -/
theorem rule {I : σ → Prop} {Q : ρ → Prop} (as : List α) (hs : I s) (hexit : ∀ s r, I s → L.exit s = some r → Q r)
    (hnext : ∀ s a s', I s → L.exit s = none → L.turn s a = .inl s' → I s')
    (hleave : ∀ s a r, I s → L.exit s = none → L.turn s a = .inr r → Q r) :
    (∀ r, L.run s as = some r → Q r) ∧ ∀ c ∈ L.calls s as, I c.1 ∧ L.exit c.1 = none := by
  induction as generalizing s with
  | nil => exact ⟨fun r h => hexit s r hs h, fun c h => absurd h List.not_mem_nil⟩
  | cons a as ih =>
    cases he : L.exit s with
    | some r =>
      refine ⟨fun r' h => ?_, fun c hc => ?_⟩
      · rw [run_exit he] at h
        exact hexit s r' hs (he.trans h)
      · rw [calls_exit he] at hc
        exact absurd hc List.not_mem_nil
    | none =>
      cases ht : L.turn s a with
      | inl s' =>
        obtain ⟨hrun, hcalls⟩ := ih (hnext s a s' hs he ht)
        rw [run_next he ht, calls_next he ht]
        -- the first call is made at this head, the others in the rest of the run
        refine ⟨hrun, fun c hc => ?_⟩
        rcases List.mem_cons.mp hc with rfl | hc
        · exact ⟨hs, he⟩
        · exact hcalls c hc
      | inr r =>
        rw [run_leave he ht, calls_leave he ht]
        refine ⟨fun r' h => Option.some.inj h ▸ hleave s a r hs he ht, fun c hc => ?_⟩
        rw [List.mem_singleton.mp hc]
        exact ⟨hs, he⟩

end Loop

end Universita.Lib

/-
  SQL VALUES AND OPERATORS — the part of query semantics a plain list comprehension does not have.

  Tables are lists of rows and a query is a list expression over them: FROM is a product, WHERE is
  `filter`, the select list is `map`.  What needs definitions is what SQL does differently from Lean.

  The order of a result is that of the list, one of the orders an engine may deliver; theorems about
  queries are stated so that they do not depend on it, as memberships, counts or permutations.

  The two lemmas to remember are about keys.  `mem_groupMin` says what a grouped minimum contains, with
  no mention of how the groups were made, and `filter_product_key` turns a join into a lookup, so that
  a statement about a joined query is a statement about the rows of its first table.

  Contents:
  1. `Tri` — three-valued logic: a comparison with NULL is unknown, and WHERE keeps a row only if its
     condition `holds`.
  2. `Collation` — string comparison, an equivalence that need not be equality (it may ignore case and
     accents), carried with its laws.
  3. `scalar` — the value of a subquery used as an expression: NULL when it has no row.
  4. `groupMin` — `SELECT k, MIN(d) ... GROUP BY k`.
  5. `filter_key`, `filter_product_key` — a join on a key is a lookup.
-/
import Mathlib.Data.List.Dedup
import Mathlib.Order.MinMax
import Universita.Lib.Buffer

set_option linter.unusedVariables false

namespace Universita.Lib

/-! ## Three-valued logic -/

/-- True, false or unknown (`none`). -/
abbrev Tri := Option Bool

/-- WHERE keeps a row when its condition is true, not when it is unknown. -/
def Tri.holds (t : Tri) : Bool := t == some true

/-- `a <= b` on nullable integers. -/
def le? : Option Int → Option Int → Tri
  | some a, some b => some (decide (a ≤ b))
  | _, _ => none

/-- Two nullable integers are in order when both are there and are. -/
theorem holds_le? {a b : Option Int} :
    (le? a b).holds = true ↔ ∃ x y, a = some x ∧ b = some y ∧ x ≤ y := by
  cases a <;> cases b <;> simp [le?, Tri.holds]

/-! ## String comparison -/

/-- A collation: the strings it does not tell apart form the classes of an equivalence. -/
structure Collation where
  /-- Whether two strings count as one. -/
  equal : Bytes → Bytes → Bool
  /-- A string is itself ... -/
  refl : ∀ a, equal a a = true
  /-- ... in both directions ... -/
  symm : ∀ {a b}, equal a b = true → equal b a = true
  /-- ... and through a third: the classes do not overlap. -/
  trans : ∀ {a b c}, equal a b = true → equal b c = true → equal a c = true

/-- Byte for byte: the finest of them. -/
def Collation.binary : Collation where
  equal a b := a == b
  refl a := by simp
  symm h := by simpa using (beq_iff_eq.mp h).symm
  trans h h' := by rw [beq_iff_eq.mp h]; exact h'

/-- `a = b` on a nullable string and a constant: with NULL the comparison is unknown, whatever the
    constant. -/
def Collation.eq? (c : Collation) : Option Bytes → Bytes → Tri
  | some a, b => some (c.equal a b)
  | none, _ => none

/-! ## Scalar subqueries and aggregation -/

/-- The value of a one-column subquery, NULL when it has no row. -/
def scalar {α : Type} (rows : List α) : Option α := rows.head?

section GroupMin

variable {κ δ : Type} [DecidableEq κ] [LinearOrder δ]

instance lawfulOrderMin : Std.LawfulOrderMin δ where
  min_eq_or := min_choice
  le_min_iff _ _ _ := le_min_iff

/-- One row per key, with the least of the values that occur with it. -/
def groupMin (rows : List (κ × δ)) : List (κ × δ) :=
  (rows.map Prod.fst).dedup.filterMap fun k =>
    ((rows.filter fun r => r.1 = k).map Prod.snd).min?.map fun d => (k, d)

/-- A result has a row for every key, and the value there is the least one, attained. Nothing else is in
    it. -/
theorem mem_groupMin {rows : List (κ × δ)} {k : κ} {d : δ} :
    (k, d) ∈ groupMin rows ↔ (k, d) ∈ rows ∧ ∀ d', (k, d') ∈ rows → d ≤ d' := by
  -- the values of one group are those of the rows with its key
  have hmem : ∀ d', d' ∈ (rows.filter fun r => r.1 = k).map Prod.snd ↔ (k, d') ∈ rows := by
    intro d'
    rw [List.mem_map]
    constructor
    · rintro ⟨⟨k', d''⟩, hr, rfl⟩
      rw [List.mem_filter, decide_eq_true_eq] at hr
      obtain ⟨hr, rfl⟩ := hr
      exact hr
    · intro h
      exact ⟨(k, d'), List.mem_filter.mpr ⟨h, by simp⟩, rfl⟩
  unfold groupMin
  rw [List.mem_filterMap]
  constructor
  · rintro ⟨k', -, h⟩
    rw [Option.map_eq_some_iff] at h
    obtain ⟨d', hd', heq⟩ := h
    obtain ⟨rfl, rfl⟩ := Prod.mk.inj heq
    rw [List.min?_eq_some_iff] at hd'
    exact ⟨(hmem d').mp hd'.1, fun d'' h'' => hd'.2 d'' ((hmem d'').mpr h'')⟩
  · rintro ⟨h, hmin⟩
    refine ⟨k, List.mem_dedup.mpr (List.mem_map.mpr ⟨(k, d), h, rfl⟩), ?_⟩
    rw [Option.map_eq_some_iff]
    refine ⟨d, ?_, rfl⟩
    rw [List.min?_eq_some_iff]
    exact ⟨(hmem d).mpr h, fun d' h' => hmin d' ((hmem d').mp h')⟩

/-- Grouping by a key that all rows share leaves no row or one: none where there were none, else the key
    with the least of the values. -/
theorem groupMin_of_forall_key {rows : List (κ × δ)} {k : κ} (h : ∀ r ∈ rows, r.1 = k) :
    groupMin rows = [] ∧ rows = [] ∨ ∃ d, groupMin rows = [(k, d)] ∧ (k, d) ∈ rows := by
  cases rows with
  | nil => exact Or.inl ⟨rfl, rfl⟩
  | cons r rs =>
    -- one key, so one group
    have hkeys : ((r :: rs).map Prod.fst).dedup = [k] := by
      have hrep : (r :: rs).map Prod.fst = List.replicate (rs.length + 1) k := by
        rw [List.eq_replicate_iff]
        refine ⟨by simp, fun b hb => ?_⟩
        obtain ⟨r', hr', rfl⟩ := List.mem_map.mp hb
        exact h r' hr'
      rw [hrep, List.replicate_dedup (Nat.succ_ne_zero _)]
    have hfil : (r :: rs).filter (fun r => r.1 = k) = r :: rs :=
      List.filter_eq_self.mpr fun r' hr' => by simpa using h r' hr'
    have hmin : ∃ d, ((r :: rs).map Prod.snd).min? = some d := by
      rw [← Option.isSome_iff_exists, List.isSome_min?_iff]
      exact List.cons_ne_nil _ _
    obtain ⟨d, hd⟩ := hmin
    have hres : groupMin (r :: rs) = [(k, d)] := by
      rw [groupMin, hkeys, List.filterMap_cons, hfil, hd]
      rfl
    refine Or.inr ⟨d, hres, ?_⟩
    have hk : (k, d) ∈ groupMin (r :: rs) := by rw [hres]; exact List.mem_singleton.mpr rfl
    exact (mem_groupMin.mp hk).1

end GroupMin

/-! ## Joins on a key -/

section Join

variable {α β κ : Type} [DecidableEq κ] {f : α → κ} {g : β → κ} {ys : List β}

/-- A key picks out one row or none, so filtering by it is looking it up. -/
theorem filter_key (hkey : ys.Pairwise fun a b => g a ≠ g b) (k : κ) :
    (ys.filter fun b => k = g b) = (ys.find? fun b => k = g b).toList := by
  induction ys with
  | nil => rfl
  | cons y ys ih =>
    obtain ⟨hy, hys⟩ := List.pairwise_cons.mp hkey
    by_cases hk : k = g y
    · have hrest : (ys.filter fun b => k = g b) = [] :=
        List.filter_eq_nil_iff.mpr fun b hb h => hy b hb (hk.symm.trans (of_decide_eq_true h))
      simp only [List.filter_cons, List.find?_cons, decide_eq_true hk, if_true, hrest]
      rfl
    · simp only [List.filter_cons, List.find?_cons, decide_eq_false hk, Bool.false_eq_true, if_false]
      exact ih hys

/-- **Joining with a table on its key** gives each row the row its key picks out, and loses the others. -/
theorem filter_product_key (hkey : ys.Pairwise fun a b => g a ≠ g b) (xs : List α) :
    ((xs ×ˢ ys).filter fun r => f r.1 = g r.2) =
      xs.filterMap fun a => (ys.find? fun b => f a = g b).map (a, ·) := by
  -- by the rows of the first table, each with the row its key picks out
  induction xs with
  | nil => rfl
  | cons a xs ih =>
    have hrow : ((ys.map fun b => (a, b)).filter fun r : α × β => f r.1 = g r.2) =
        ((ys.find? fun b => f a = g b).map (a, ·)).toList := by
      rw [List.filter_map]
      show (ys.filter fun b => f a = g b).map _ = _
      rw [filter_key hkey]
      cases ys.find? fun b => f a = g b <;> rfl
    show ((ys.map fun b => (a, b)) ++ xs ×ˢ ys).filter _ = _
    rw [List.filter_append, hrow, ih, List.filterMap_cons]
    cases (ys.find? fun b => f a = g b).map (a, ·) <;> rfl

end Join

end Universita.Lib

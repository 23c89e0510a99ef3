/-
  THE SCHEMA — the five tables of `universita` that the programs touch, with their constraints.

  Every column that some statement of the two programs reads or writes is here, under the name it has in
  `ddl.sql`; the columns no statement looks at (names, credits, marks, the table of degree courses)
  are not.  A nullable column is an `Option`.

  The types are the columns' own where a proof depends on them.  A `varchar` is bytes, compared through
  a collation and never through equality of Lean; an `int` key is an integer, and that it lies in the range
  of its column is a predicate of its own (`Interi`), asked for only where a wire format cuts it.

  Constraints are proofs.  `BaseDati` carries `Vincoli` as a field, so each operation on a database owes
  the proof that keys stay keys and references stay references, and everything that reads one has them for
  free: a join on `idEsame` finds one exam, a look-up of a matricola by its text one student.  A login is no such
  look-up: the key of `studente` is a STRING and a login compares it with a number, so that two rows with
  different keys may both be selected.

  Contents:
  1. The row types and `Tabelle`; `Data`, whose order is the order of dates.
  2. `Vincoli` — primary keys, foreign keys and CHECK clauses.
  3. `BaseDati` — tables that meet their constraints: an inconsistent database cannot be built.
  4. `Interi` — integer keys in the range of their column.
  5. `eq_of_key`, `Vincoli.unico_studente` — a key picks out at most one row.
-/
import Mathlib.Data.List.Pairwise
import Universita.Lib.Sql
import Universita.Lib.Decimal

set_option linter.unusedVariables false

namespace Universita

open Lib

/-! ## Rows -/

/-- A date, as the number yyyymmdd of eight digits: its order is the order of dates. -/
abbrev Data := Fin (10 ^ 8)

/-- A row of `studente`. -/
structure Studente where
  /-- `mat_studente varchar(11)`, the key; the programs compare it with a number. -/
  matStudente : Bytes
  /-- `password_studente varchar(100)`: the hash as 64 hexadecimal digits. -/
  passwordStudente : Bytes
  /-- `anno_corso_studente int NOT NULL`, from 1 to 3. -/
  annoCorsoStudente : Int
deriving DecidableEq

/-- A row of `esame`. -/
structure Esame where
  /-- `id_esame int`, the key. -/
  idEsame : Int
  /-- The year it belongs to. -/
  annoCorsoEsame : Option Int
  /-- Its name; nothing makes names unique. -/
  nomeEsame : Option Bytes
deriving DecidableEq

/-- A row of `appello`: an exam can be taken on this day. There is no key, so the same appello can be
    there twice. -/
structure Appello where
  dataAppello : Data
  idEsame : Int
deriving DecidableEq

/-- A row of `prenota`: a student has booked. The date is the day of the booking, not of the appello. -/
structure Prenota where
  matStudente : Bytes
  idEsame : Option Int
  dataPrenotazone : Option Data
deriving DecidableEq

/-- A row of `supera`: a student has passed an exam. -/
structure Supera where
  matStudente : Option Bytes
  idEsame : Option Int
deriving DecidableEq

/-- The tables, each as the list of its rows in the order an engine would read them. -/
structure Tabelle where
  appello : List Appello
  esame : List Esame
  prenota : List Prenota
  studente : List Studente
  supera : List Supera
deriving DecidableEq

/-! ## Constraints -/

/-- The constraints of `ddl.sql`. -/
structure Vincoli (c : Collation) (t : Tabelle) : Prop where
  /-- `PRIMARY KEY (mat_studente)`, as the engine compares strings. -/
  studente_key : t.studente.Pairwise fun a b => c.equal a.matStudente b.matStudente = false
  /-- `PRIMARY KEY (id_esame)`. -/
  esame_key : t.esame.Pairwise fun a b => a.idEsame ≠ b.idEsame
  /-- Every appello is of an exam there is. -/
  appello_esame : ∀ a ∈ t.appello, ∃ e ∈ t.esame, e.idEsame = a.idEsame
  /-- Every booking is of an exam there is, unless the column is NULL ... -/
  prenota_esame : ∀ p ∈ t.prenota, ∀ i ∈ p.idEsame, ∃ e ∈ t.esame, e.idEsame = i
  /-- ... and by a student there is. -/
  prenota_studente : ∀ p ∈ t.prenota,
    ∃ s ∈ t.studente, c.equal s.matStudente p.matStudente = true
  /-- Every pass is of an exam there is, unless NULL ... -/
  supera_esame : ∀ p ∈ t.supera, ∀ i ∈ p.idEsame, ∃ e ∈ t.esame, e.idEsame = i
  /-- ... and by a student there is, unless NULL. -/
  supera_studente : ∀ p ∈ t.supera, ∀ m ∈ p.matStudente,
    ∃ s ∈ t.studente, c.equal s.matStudente m = true
  /-- `CHECK (anno_corso_studente between 1 and 3)`. -/
  check_anno_corso : ∀ s ∈ t.studente, 1 ≤ s.annoCorsoStudente ∧ s.annoCorsoStudente ≤ 3
  /-- The same for exams; a NULL passes a CHECK. -/
  check_anno_corso_esame : ∀ e ∈ t.esame, ∀ y ∈ e.annoCorsoEsame, 1 ≤ y ∧ y ≤ 3

/-- A database of this schema. -/
structure BaseDati (c : Collation) extends Tabelle where
  /-- The tables meet their constraints. -/
  vincoli : Vincoli c toTabelle

/-- The keys of `esame` are what the type of their column says, an `int`. -/
def Interi (t : Tabelle) : Prop := ∀ e ∈ t.esame, -2 ^ 31 ≤ e.idEsame ∧ e.idEsame < 2 ^ 31

theorem BaseDati.ext {c : Collation} {d d' : BaseDati c} (h : d.toTabelle = d'.toTabelle) :
    d = d' := by
  cases d; cases d'; cases h; rfl

/-! ## Keys -/

section Keys

variable {c : Collation} {t : Tabelle}

/-- Two rows of a table whose keys the engine does not tell apart are one row. -/
theorem eq_of_key {α : Type} {R : α → α → Prop} {l : List α} (h : l.Pairwise fun a b => ¬ R a b)
    (hsymm : ∀ {a b}, R a b → R b a) {a b : α} (ha : a ∈ l) (hb : b ∈ l) (hR : R a b) : a = b := by
  have hR' : Std.Symm fun a b => ¬ R a b := ⟨fun _ _ hab hba => hab (hsymm hba)⟩
  by_contra hne
  exact h.forall ha hb hne hR

/-- At most one student answers to a matricola, in the engine's sense of the same text. -/
theorem Vincoli.unico_studente (v : Vincoli c t) {m : Bytes} {a b : Studente}
    (ha : a ∈ t.studente) (hb : b ∈ t.studente) (hma : c.equal a.matStudente m = true)
    (hmb : c.equal b.matStudente m = true) : a = b := by
  have hkey : t.studente.Pairwise fun a b => ¬ c.equal a.matStudente b.matStudente = true :=
    v.studente_key.imp fun h => by rw [h]; exact Bool.false_ne_true
  exact eq_of_key hkey (fun h => c.symm h) ha hb (c.trans hma (c.symm hmb))

end Keys

end Universita

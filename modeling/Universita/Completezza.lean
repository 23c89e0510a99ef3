/-
  THE LISTS ARE COMPLETE — what the two list statements return, row for row.

  A list statement joins `appello` with `esame` and compares the year of the exam with that of the
  student, which a subquery looks up.  Both the join and the subquery go by a key, so each appello is
  there once or not at all, as often as it is in the table, and an unknown year is not there.

  What a list should show is stated without a query (`daMostrare`): go through the appelli, look the exam of each
  up, keep it if its year is known and not above the student's.  A multiset says how often each row is
  shown and leaves the order to the engine.

  The crux is `righeElenco_eq`, the passage from a filtered product to a lookup a row.  It is the library's rule for
  joins on a key, and it is here that the constraints of the database are needed: with two exams of one id an
  appello would be listed twice.

  Contents:
  1. `esameDi` — the exam of an appello; `daMostrare` — the rows a list has to show.
  2. `righeElenco_eq` — the rows of a list statement.
  3. `righeElenco_appelli`, `righeElenco_appelliEsame`, `righeElenco_nessuno` — the three cases.
  4. **`elenco_completo`** — both statements, for every student and for a matricola that is nobody's.
-/
import Mathlib.Data.Multiset.Filter
import Universita.Disponibili

set_option linter.unusedVariables false

namespace Universita

open Lib

section Completezza

variable {M : Mysql} {t : Tabelle} {mat : Int}

/-- The exam of an appello. -/
def esameDi (t : Tabelle) (a : Appello) : Option Esame := t.esame.find? fun e => a.idEsame = e.idEsame

/-- The row of an appello, when its exam has a year and it is not above `anno`; an exam without a year
    is shown to nobody. -/
def rigaDi (t : Tabelle) (anno : Int) (a : Appello) : Option (Int × Option Bytes × Data) :=
  (esameDi t a).bind fun e =>
    if ∃ x ∈ e.annoCorsoEsame, x ≤ anno then some (a.idEsame, e.nomeEsame, a.dataAppello) else none

/-- **What the full list has to show** a student of year `anno`: one row for each such appello, as often
    as it is there, in no order. -/
def daMostrare (t : Tabelle) (anno : Int) : Multiset (Int × Option Bytes × Data) :=
  (t.appello : Multiset Appello).filterMap (rigaDi t anno)

/-- The row is one of the exam called `nome`. -/
def Chiamata (c : Collation) (nome : Bytes) (r : Int × Option Bytes × Data) : Prop :=
  ∃ x ∈ r.2.1, c.equal x nome = true

instance (c : Collation) (nome : Bytes) : DecidablePred (Chiamata c nome) := fun r =>
  inferInstanceAs (Decidable (∃ x ∈ r.2.1, c.equal x nome = true))

/-- A list statement looks the exam of each appello up: the join finds exactly one, since `id_esame` is
    a key and the foreign key holds. -/
theorem righeElenco_eq {c : Collation} (v : Vincoli c t) (q : Query) :
    righeElenco M t q = t.appello.filterMap fun a => (esameDi t a).bind fun e =>
      if mostrato M t q e = true then some (a.idEsame, e.nomeEsame, a.dataAppello) else none := by
  -- `id_esame` is the key of `esame`: each appello joins one exam at most
  rw [righeElenco, appelloJoinEsame,
    filter_product_key (f := Appello.idEsame) (g := Esame.idEsame) v.esame_key t.appello,
    List.filter_filterMap, List.map_filterMap]
  refine congrArg (List.filterMap · t.appello) (funext fun a => ?_)
  show ((((esameDi t a).map (a, ·)).filter _).map _) = _
  cases esameDi t a with
  | none => rfl
  | some e =>
    by_cases h : mostrato M t q e = true
    · simp [h]
    · simp [h]

/-- The year of the exam is compared as SQL compares. -/
theorem holds_anno {e : Esame} {anno : Int} :
    (le? e.annoCorsoEsame (some anno)).holds = true ↔ ∃ x ∈ e.annoCorsoEsame, x ≤ anno := by
  rw [holds_le?]
  constructor
  · rintro ⟨x, y, hx, hy, hxy⟩
    exact ⟨x, hx, Option.some.inj hy ▸ hxy⟩
  · rintro ⟨x, hx, hxy⟩
    exact ⟨x, anno, hx, rfl, hxy⟩

/-- For a student of the table the full list is what it has to show: the subquery finds his year, since
    his key is unique. -/
theorem righeElenco_appelli (db : BaseDati M.collazione) {s : Studente} (hs : s ∈ db.studente)
    (hkey : M.collazione.equal s.matStudente (dec mat) = true) :
    (righeElenco M db.toTabelle (.appelli mat) : Multiset (Int × Option Bytes × Data)) =
      daMostrare db.toTabelle s.annoCorsoStudente := by
  rw [righeElenco_eq db.vincoli, daMostrare, Multiset.filterMap_coe]
  congr 2
  funext a
  rw [rigaDi]
  congr 1
  funext e
  simp only [mostrato, annoDi_eq db hs hkey, holds_anno]

/-- The name is one more condition on the same rows: the list of one exam is the full list, filtered by
    the name as the collation compares it. -/
theorem righeElenco_appelliEsame (exam : Bytes) :
    righeElenco M t (.appelliEsame mat exam) =
      (righeElenco M t (.appelli mat)).filter fun r => Chiamata M.collazione exam r := by
  have hnome : ∀ e : Esame, (M.collazione.eq? e.nomeEsame exam).holds =
      decide (∃ x ∈ e.nomeEsame, M.collazione.equal x exam = true) := by
    intro e
    cases e.nomeEsame with
    | none => rfl
    | some x =>
      by_cases h : M.collazione.equal x exam = true
      · simp [Collation.eq?, Tri.holds, h]
      · simp [Collation.eq?, Tri.holds, h]
  rw [righeElenco, righeElenco, List.filter_map, List.filter_filter]
  congr 1
  refine List.filter_congr fun r _ => ?_
  rw [mostrato, mostrato, hnome, Bool.and_comm]
  rfl

/-- Nobody is shown nothing: the subquery gives NULL, and no year compares with that. So a matricola
    without a student has an empty list and no error. -/
theorem righeElenco_nessuno (h : ∀ s ∈ t.studente, M.collazione.equal s.matStudente (dec mat) = false) :
    righeElenco M t (.appelli mat) = [] := by
  have hanno : annoDi M t mat = none := by
    have hnil : studentiChiave M t (dec mat) = [] :=
      List.filter_eq_nil_iff.mpr fun s hs => by rw [h s hs]; exact Bool.false_ne_true
    rw [annoDi, hnil]
    rfl
  have hfil : ((appelloJoinEsame t).filter fun r => mostrato M t (.appelli mat) r.2) = [] := by
    refine List.filter_eq_nil_iff.mpr fun r _ => ?_
    rw [mostrato, hanno, holds_le?]
    rintro ⟨x, y, -, hy, -⟩
    cases hy
  rw [righeElenco, hfil]
  rfl

/-! ## The two statements -/

/-- A text without quote and backslash is a safe argument. -/
theorem plain_of_notMem {q : Byte} {t : Bytes} (hq : q ∉ t) (h92 : (92 : Byte) ∉ t) :
    plain q t = true := by
  induction t with
  | nil => rfl
  | cons b t ih =>
    rw [List.mem_cons, not_or] at hq h92
    rw [plain_cons (Ne.symm h92.1), ih hq.2 h92.2]
    simpa using Ne.symm hq.1

/-- **No appello is lost and none is shown twice.**  A student's full list has the rows it has to show, as
    often as they are there, and the list of one exam those of them with its name; a matricola that is no
    student's gets neither. -/
theorem elenco_completo (oggi : Data) (altro : Motore (BaseDati M.collazione))
    (db : BaseDati M.collazione) (mat : Int) (exam : Bytes) (hq : (39 : Byte) ∉ exam)
    (hb : (92 : Byte) ∉ exam) :
    ∃ rs rs' : List (Int × Option Bytes × Data),
      motore M oggi altro db (.appelli mat) = some (db, rs.map appelloRow) ∧
      motore M oggi altro db (.appelliEsame mat exam) = some (db, rs'.map appelloRow) ∧
      (∀ s ∈ db.studente, M.collazione.equal s.matStudente (dec mat) = true →
        (rs : Multiset _) = daMostrare db.toTabelle s.annoCorsoStudente ∧
        (rs' : Multiset _) =
          (daMostrare db.toTabelle s.annoCorsoStudente).filter (Chiamata M.collazione exam)) ∧
      ((∀ s ∈ db.studente, M.collazione.equal s.matStudente (dec mat) = false) → rs = [] ∧ rs' = []) := by
  refine ⟨righeElenco M db.toTabelle (.appelli mat), righeElenco M db.toTabelle (.appelliEsame mat exam),
    rfl, if_pos (plain_of_notMem hq hb), fun s hs hkey => ?_, fun h => ?_⟩
  · have hrighe := righeElenco_appelli db hs hkey
    refine ⟨hrighe, ?_⟩
    rw [righeElenco_appelliEsame, ← hrighe]
    rfl
  · rw [righeElenco_appelliEsame, righeElenco_nessuno h]
    exact ⟨rfl, rfl⟩

/-- Third-year student 20230003: twelve appelli in the full list, six of them of `prog1`. -/
theorem elenco_completo_prog1 : ∃ rs rs' : List (Int × Option Bytes × Data),
    motore mysql 20240301 (fun _ _ => none) universita (.appelli 20230003) =
      some (universita, rs.map appelloRow) ∧
    motore mysql 20240301 (fun _ _ => none) universita (.appelliEsame 20230003 (ascii "prog1")) =
      some (universita, rs'.map appelloRow) ∧
    rs.length = 12 ∧ rs'.length = 6 := by
  obtain ⟨rs, rs', h, h', hrighe, -⟩ := elenco_completo 20240301 (fun _ _ => none) universita 20230003
    (ascii "prog1") (by decide) (by decide)
  obtain ⟨s, hs, hkey, hanno⟩ : ∃ s ∈ universita.studente,
      mysql.collazione.equal s.matStudente (dec 20230003) = true ∧ s.annoCorsoStudente = 3 := by
    decide +kernel
  obtain ⟨hrs, hrs'⟩ := hrighe s hs hkey
  rw [hanno] at hrs hrs'
  refine ⟨rs, rs', h, h', ?_, ?_⟩
  · rw [← Multiset.coe_card, hrs]
    decide +kernel
  · rw [← Multiset.coe_card, hrs']
    decide +kernel

end Completezza

end Universita

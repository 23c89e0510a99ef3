/-
  THE YEAR OF A BOOKED EXAM — whose year does `aggiungiPrenotazione` compare?

  The eligibility query joins `appello`, `esame` and `studente` without ON, and its WHERE never says that
  the exam is the appello's: any exam whose year suits the student opens the way to every other exam.

  The list query of the secretary, which shows a student what there is to book, does have the condition
  (`ON a.id_esame = e.id_esame`), so the rule the two should share is the one of the list: the exam's own
  year is known and not above the student's.

  What keeps a booking within the rule, then, is either that the rule allows it, or that it is turned down for
  another reason altogether.  Those reasons are four, and each is read off the tables: no such student,
  no date to come, a row of `supera` for the exchanged arguments, no exam at all for the student's year.

  The crux is `candidati_eq_nil_iff`: the cross join is empty exactly for these four reasons.  Where it is not
  empty a date is found and the insert goes through, since the student and the exam are there for its
  foreign keys (`inserimento_si_puo`); so the rule is broken on every remaining request.

  Contents:
  1. `annoConsentito` — the rule of the list query: the exam's own year is not above the student's.
  2. `SoloSeConsentito` — on a request, no run books an exam the rule excludes.
  3. `AltroMotivo` — the request is turned down for a reason that has nothing to do with that year.
  4. **`solo_se_consentito_iff`** — the rule is kept exactly on the requests it allows anyway and on
     those turned down for another reason.
  5. `anno_violato` — a student of the first year books an exam of the third.
-/
import Universita.Servizio
import Universita.Dump

set_option linter.unusedVariables false

namespace Universita

open Lib Mondo Server

section Anno

variable (M : Mysql) (oggi : Data)

/-- The year of exam `id` is known and not above the year of the student with key `mat`: the condition
    under which the list query shows an appello of the exam. -/
def annoConsentito (t : Tabelle) (id mat : Int) : Bool :=
  t.esame.any fun e => e.idEsame == id && (le? e.annoCorsoEsame (annoDi M t mat)).holds

/-- No run on the request `(id, mat)` inserts a booking unless the rule allows it. The runs are those of
    the server's own routine, with any failures. -/
def SoloSeConsentito (altro : Motore (BaseDati M.collazione)) (fd : Int)
    (w : Mondo (BaseDati M.collazione)) (id mat : Buffer 4) : Prop :=
  ∀ w', Prog.Runs (chiama (motore M oggi altro)) (aggiungiPrenotazione fd) w () w' →
    w'.db.prenota ≠ w.db.prenota → annoConsentito M w.db.toTabelle id.toInt mat.toInt = true

/-- Nobody has the key, no appello of the exam is to come, `supera` has a row for the exchanged arguments,
    or there is no exam at all for the student's year. -/
def AltroMotivo (t : Tabelle) (id mat : Int) : Prop :=
  studentiChiave M t (dec mat) = [] ∨ (∀ a ∈ t.appello, a.idEsame = id → a.dataAppello ≤ oggi) ∨
  esamiSuperati M t id mat ≠ 0 ∨
  ∀ e ∈ t.esame, (le? e.annoCorsoEsame (annoDi M t mat)).holds = false

instance (t : Tabelle) (id mat : Int) : Decidable (AltroMotivo M oggi t id mat) := by
  unfold AltroMotivo; infer_instance

end Anno

variable {M : Mysql} {oggi : Data} {id mat : Int}

/-- With a key that is unique, the year is the year of any row with it. -/
theorem annoDi_eq (d : BaseDati M.collazione) {s : Studente} (hs : s ∈ d.studente)
    (hm : M.collazione.equal s.matStudente (dec mat) = true) :
    annoDi M d.toTabelle mat = some s.annoCorsoStudente := by
  have hmem : s ∈ studentiChiave M d.toTabelle (dec mat) := List.mem_filter.mpr ⟨hs, hm⟩
  obtain ⟨s', l, hl⟩ := List.exists_cons_of_ne_nil (List.ne_nil_of_mem hmem)
  have hs' : s' ∈ studentiChiave M d.toTabelle (dec mat) := by rw [hl]; exact List.mem_cons_self
  obtain ⟨hmem', hm'⟩ := List.mem_filter.mp hs'
  rw [d.vincoli.unico_studente hs hmem' hm hm', annoDi, hl]
  rfl

/-- The join is empty exactly for the other reasons: each of them empties one of its factors or its
    WHERE, and where none of them holds a row of each table meets all conditions. -/
theorem candidati_eq_nil_iff (d : BaseDati M.collazione) :
    candidati M d.toTabelle oggi id mat = [] ↔ AltroMotivo M oggi d.toTabelle id mat := by
  constructor
  · intro hnil
    by_contra hne
    rw [AltroMotivo, not_or, not_or, not_or] at hne
    -- none of the four reasons: a student, a date to come and SOME exam of his year make a row of the
    -- cross join
    obtain ⟨hs, ha, hp, he⟩ := hne
    push Not at ha he hp
    obtain ⟨a, ha, haid, hdata⟩ := ha
    obtain ⟨e, he, hyear⟩ := he
    obtain ⟨s, l, hl⟩ := List.exists_cons_of_ne_nil hs
    have hmem : s ∈ studentiChiave M d.toTabelle (dec mat) := by rw [hl]; exact List.mem_cons_self
    obtain ⟨hs, hm⟩ := List.mem_filter.mp hmem
    rw [annoDi_eq d hs hm] at hyear
    have hc : (a, e, s) ∈ candidati M d.toTabelle oggi id mat :=
      mem_candidati.mpr ⟨⟨ha, he, hs⟩, haid, hdata, by simpa using hyear, hm, hp⟩
    rw [hnil] at hc
    exact List.not_mem_nil hc
  · intro h
    rw [List.eq_nil_iff_forall_not_mem]
    intro c hc
    obtain ⟨⟨ha, he, hs⟩, haid, hdata, hyear, hm, hp⟩ := mem_candidati.mp hc
    -- each reason contradicts one part of the WHERE clause
    rcases h with h | h | h | h
    · have hmem : c.2.2 ∈ studentiChiave M d.toTabelle (dec mat) := List.mem_filter.mpr ⟨hs, hm⟩
      rw [h] at hmem
      exact List.not_mem_nil hmem
    · exact absurd hdata (not_lt.mpr (h c.1 ha haid))
    · exact h hp
    · rw [← annoDi_eq d hs hm, h c.2.1 he] at hyear
      exact Bool.false_ne_true hyear

/-- Where the join is not empty, the foreign keys of the booking hold: the student and the exam are in
    the row it found. So nothing is left, but a failing call, that could keep the booking from being
    made. -/
theorem inserimento_si_puo (d : BaseDati M.collazione)
    (hc : candidati M d.toTabelle oggi id mat ≠ []) :
    ∃ p : BaseDati M.collazione × List Row,
      (Query.inserimento mat id).esegui M oggi d = some p ∧ p.1.prenota ≠ d.prenota := by
  obtain ⟨c, hc⟩ := List.exists_mem_of_ne_nil _ hc
  obtain ⟨⟨ha, -, hs⟩, haid, -, -, hm, -⟩ := mem_candidati.mp hc
  have hs' : ∃ s ∈ d.studente, M.collazione.equal s.matStudente (dec mat) = true := ⟨c.2.2, hs, hm⟩
  have he' : ∃ e ∈ d.esame, e.idEsame = id := by
    rw [← haid]; exact d.vincoli.appello_esame c.1 ha
  refine ⟨_, by rw [Query.esegui, dif_pos hs', dif_pos he'], ?_⟩
  show d.prenota ++ [_] ≠ d.prenota
  simp

/-- **The year rule is kept exactly when it allows the booking anyway, or when the request is turned
    down for another reason.** The join of the eligibility query has no condition between the appello
    and the exam, so that its year condition is met by ANY exam of the student's year or an earlier one;
    each way to be turned down is one of the four other conditions with no row left. -/
theorem solo_se_consentito_iff (M : Mysql) (oggi : Data) (altro : Motore (BaseDati M.collazione))
    (fd : Int) (db : BaseDati M.collazione) (id mat : Buffer 4) :
    SoloSeConsentito M oggi altro fd (richiesta db id mat) id mat ↔
      annoConsentito M db.toTabelle id.toInt mat.toInt = true ∨
      AltroMotivo M oggi db.toTabelle id.toInt mat.toInt := by
  constructor
  · intro h
    by_cases hc : candidati M db.toTabelle oggi id.toInt mat.toInt = []
    · exact Or.inr ((candidati_eq_nil_iff db).mp hc)
    · obtain ⟨p, hp, hne⟩ := inserimento_si_puo db hc
      obtain ⟨w', hr, hdb⟩ := prenotazione_si_puo altro fd
        (w := richiesta db id mat) rfl hc hp
      exact Or.inl (h w' hr (by rw [hdb]; exact hne))
  · rintro (h | h) w' hr hne
    · exact h
    · rcases prenotazione_run (w := richiesta db id mat) rfl hr with heq | ⟨hc, -⟩
      · exact absurd (by rw [heq]) hne
      · exact absurd ((candidati_eq_nil_iff db).mpr h) hc

/-- The shipped data, on 1 March 2024: Mario Rossi of the first year books `tech-web` of the third,
    because `prog1` is of the first. -/
theorem anno_violato : ¬ SoloSeConsentito mysql 20240301 (fun _ _ => none) 5
    (richiesta universita (Buffer.ofInt 12413) (Buffer.ofInt 20230001))
    (Buffer.ofInt 12413) (Buffer.ofInt 20230001) := by
  intro h
  have hid : (Buffer.ofInt 12413).toInt = 12413 := by decide +kernel
  have hmat : (Buffer.ofInt 20230001).toInt = 20230001 := by decide +kernel
  have hc : candidati mysql universita.toTabelle 20240301 12413 20230001 ≠ [] := by
    rw [ne_eq, candidati_eq_nil_iff]; decide +kernel
  obtain ⟨p, hp, hne⟩ := inserimento_si_puo universita hc
  obtain ⟨w', hr, hdb⟩ := prenotazione_si_puo (fun _ _ => none) 5
    (w := richiesta universita (Buffer.ofInt 12413) (Buffer.ofInt 20230001)) rfl
    (by rw [hid, hmat]; exact hc) (by rw [hid, hmat]; exact hp)
  have hno : annoConsentito mysql universita.toTabelle 12413 20230001 = false := by decide +kernel
  have hyes := h w' hr (by rw [hdb]; exact hne)
  rw [hid, hmat] at hyes
  exact Bool.false_ne_true (hno.symm.trans hyes)

end Universita

/-
  WHAT AN ACCEPTED BOOKING MEANS — the eligibility query against what it is for.

  The query joins three tables that its WHERE hardly ties together, and its subquery on `supera` is
  built from exchanged arguments: the format wants exam, matricola, matricola, exam and is given exam,
  matricola, exam, matricola.  So it asks whether the student numbered like the exam has passed the exam
  numbered like the student.

  With matricole of eight digits and exams of five the two can hardly meet, and then the query lets through
  everyone who has passed the exam; that is the case that happens.  The other one — turning down who may book
  because of a row that has nothing to do with him — needs an exam and a student that exchange their numbers.

  The crux is to say what the query computes without its groups and its cross join (`primaData_eq_some_iff`):
  the copies of rows that a join without ON makes have the same dates, so the minimum over them is the
  earliest date of the exam to come, and the three conditions fall apart into one about the student, one
  about `supera` and one about the dates.

  Contents:
  1. `dateFuture`, `Candidabile`, `Superato` — the dates of an exam to come; a student and some exam of his
     year; a row of `supera`.
  2. `primaData_eq_some_iff` — the query has a row exactly for these, and the date in it is the earliest.
  3. `PuoPrenotare`, `Significa` — who may book, and what acceptance stands for.
  4. `Servita.rifiutata`, `Servita.accettata` — one request, without and with a row.
  5. **`significa_iff`** — acceptance means it exactly where the exchange is harmless.
-/
import Mathlib.Order.Bounds.Basic
import Universita.Prenotazioni

set_option linter.unusedVariables false

namespace Universita

open Lib Mondo Server

section Accettata

variable (M : Mysql) (oggi : Data) (t : Tabelle)

/-- The dates of the appelli of exam `id` after today. -/
def dateFuture (id : Int) : Set Data :=
  { d | ∃ a ∈ t.appello, a.idEsame = id ∧ oggi < a.dataAppello ∧ a.dataAppello = d }

/-- There is a student with the key `mat`, and an exam whose year is not above his. Any exam will do:
    the join does not ask for the one of the appello. -/
def Candidabile (mat : Int) : Prop :=
  ∃ s ∈ t.studente, M.collazione.equal s.matStudente (dec mat) = true ∧
    ∃ e ∈ t.esame, (le? e.annoCorsoEsame (some s.annoCorsoStudente)).holds = true

/-- `supera` has a row for student and exam, which is how a passed exam is recorded. -/
def Superato (mat id : Int) : Prop :=
  ∃ p ∈ t.supera, (M.collazione.eq? p.matStudente (dec mat)).holds = true ∧ p.idEsame = some id

variable {M oggi t}

/-- Nothing counted is nothing passed. -/
theorem esamiSuperati_eq_zero_iff {mat id : Int} :
    esamiSuperati M t mat id = 0 ↔ ¬ Superato M t mat id := by
  simp [esamiSuperati, Superato]

/-- The dates in the join: those of the exam to come, if there is a candidate and the exchanged row is
    not in `supera`. -/
theorem candidati_date {id mat : Int} {d : Data} :
    (∃ c ∈ candidati M t oggi id mat, c.1.dataAppello = d) ↔
      Candidabile M t mat ∧ ¬ Superato M t id mat ∧ d ∈ dateFuture oggi t id := by
  constructor
  · rintro ⟨c, hc, hd⟩
    obtain ⟨⟨ha, he, hs⟩, haid, hdata, hanno, hm, hp⟩ := mem_candidati.mp hc
    exact ⟨⟨c.2.2, hs, hm, c.2.1, he, hanno⟩, esamiSuperati_eq_zero_iff.mp hp, c.1, ha, haid, hdata, hd⟩
  · rintro ⟨⟨s, hs, hm, e, he, hanno⟩, hp, a, ha, haid, hdata, hd⟩
    exact ⟨(a, e, s), mem_candidati.mpr ⟨⟨ha, he, hs⟩, haid, hdata, hanno, hm,
      esamiSuperati_eq_zero_iff.mpr hp⟩, hd⟩

/-- **The eligibility query finds `d` exactly when `d` is the earliest date of the exam to come**, the
    student and an exam of his year exist, and the exchanged arguments are not in `supera`. -/
theorem primaData_eq_some_iff {id mat : Int} {d : Data} : primaData M oggi t id mat = some d ↔
    Candidabile M t mat ∧ ¬ Superato M t id mat ∧ IsLeast (dateFuture oggi t id) d := by
  rcases verificaPrenotazione_cases M t oggi id mat with ⟨hv, hnil⟩ | ⟨d₀, hv, -⟩
  · -- no row: then one of the three conditions fails, since with all of them there is a candidate
    have hnone : primaData M oggi t id mat = none := by rw [primaData, hv]; rfl
    rw [hnone]
    refine iff_of_false (Option.some_ne_none d).symm ?_
    rintro ⟨hc, hp, hd, -⟩
    obtain ⟨c, hc, -⟩ := candidati_date.mpr ⟨hc, hp, hd⟩
    rw [hnil] at hc
    exact List.not_mem_nil hc
  · -- one row: its date is the least of the group, and the group has the exam's dates to come, some of
    -- them several times
    have hsome : primaData M oggi t id mat = some d₀ := by rw [primaData, hv]; rfl
    have hrighe : ∀ d', (id, d') ∈ (candidati M t oggi id mat).map (fun r => (r.1.idEsame, r.1.dataAppello)) ↔
        ∃ c ∈ candidati M t oggi id mat, c.1.dataAppello = d' := by
      intro d'
      rw [List.mem_map]
      refine exists_congr fun c => and_congr_right fun hc => ?_
      rw [Prod.mk.injEq, and_iff_right (mem_candidati.mp hc).2.1]
    have hmem : (id, d₀) ∈ verificaPrenotazione M t oggi id mat := by
      rw [hv]; exact List.mem_singleton.mpr rfl
    obtain ⟨h₀, hmin⟩ := mem_groupMin.mp hmem
    obtain ⟨hc, hp, hd₀⟩ := candidati_date.mp ((hrighe d₀).mp h₀)
    have hleast : IsLeast (dateFuture oggi t id) d₀ :=
      ⟨hd₀, fun d' hd' => hmin d' ((hrighe d').mpr (candidati_date.mpr ⟨hc, hp, hd'⟩))⟩
    rw [hsome, Option.some.injEq]
    constructor
    · rintro rfl
      exact ⟨hc, hp, hleast⟩
    · rintro ⟨-, -, hd⟩
      exact hleast.unique hd

/-- The booking goes through when there is a date: the student and an exam of his year, no row of
    `supera` in the way, and a date after today. -/
theorem exists_primaData_iff {id mat : Int} : (∃ d, primaData M oggi t id mat = some d) ↔
    Candidabile M t mat ∧ ¬ Superato M t id mat ∧ (dateFuture oggi t id).Nonempty := by
  constructor
  · rintro ⟨d, hd⟩
    obtain ⟨hc, hp, hleast⟩ := primaData_eq_some_iff.mp hd
    exact ⟨hc, hp, d, hleast.1⟩
  · rintro ⟨hc, hp, d, hd⟩
    have hne : candidati M t oggi id mat ≠ [] := by
      obtain ⟨c, hc, -⟩ := candidati_date.mpr ⟨hc, hp, hd⟩
      exact List.ne_nil_of_mem hc
    exact Option.ne_none_iff_exists'.mp fun h => hne (primaData_eq_none_iff.mp h)

/-! ## Acceptance -/

variable (M oggi t)

/-- The student exists, exam `id` is of his year or an earlier one, he has not passed it and an appello
    of it is to come. -/
def PuoPrenotare (id mat : Int) : Prop :=
  (∃ s ∈ t.studente, M.collazione.equal s.matStudente (dec mat) = true ∧
    ∃ e ∈ t.esame, e.idEsame = id ∧ (le? e.annoCorsoEsame (some s.annoCorsoStudente)).holds = true) ∧
  ¬ Superato M t mat id ∧ (dateFuture oggi t id).Nonempty

variable {M oggi t}

/-- The reply accepts the booking: it is the text of success, with some date in it. -/
def Accetta (testo : Bytes) : Prop := ∃ data, testo = prenotazioneInserita data

/-- However the request `r` is served: who may book is accepted; and if the reply accepts, then the
    eligibility query had one row, the row added is (student, exam, today), the student has not passed
    the exam, and the date in the reply is the earliest to come. -/
def Significa (altro : Motore (BaseDati M.collazione)) (fd : Int) (oggi : Data)
    (db : BaseDati M.collazione)
    (r : Buffer 4 × Buffer 4) : Prop :=
  ∀ testo db', Servita altro fd oggi db r testo db' →
    (PuoPrenotare M oggi db.toTabelle r.1.toInt r.2.toInt → Accetta testo) ∧
    (Accetta testo →
      (verificaPrenotazione M db.toTabelle oggi r.1.toInt r.2.toInt).length = 1 ∧
      db'.toTabelle = { db.toTabelle with
        prenota := db.prenota ++ [⟨dec r.2.toInt, some r.1.toInt, some oggi⟩] } ∧
      ¬ Superato M db.toTabelle r.2.toInt r.1.toInt ∧
      ∃ d, testo = prenotazioneInserita (dateFormat d) ∧
        IsLeast (dateFuture oggi db.toTabelle r.1.toInt) d)

variable (M oggi t)

/-- The exchange of the two arguments makes no difference: it neither turns down who may book, nor lets
    through who has passed the exam. The rows are those of the tables; no query is asked. -/
def ScambioInnocuo (id mat : Int) : Prop :=
  (PuoPrenotare M oggi t id mat → ¬ Superato M t id mat) ∧
  (Candidabile M t mat → (dateFuture oggi t id).Nonempty → Superato M t mat id → Superato M t id mat)

variable {M oggi t}

/-- Who may book is a candidate: the exam of his year is the one he books. -/
theorem PuoPrenotare.candidabile {id mat : Int} (h : PuoPrenotare M oggi t id mat) :
    Candidabile M t mat := by
  obtain ⟨⟨s, hs, hm, e, he, -, hanno⟩, -⟩ := h
  exact ⟨s, hs, hm, e, he, hanno⟩

section Reply

variable {altro : Motore (BaseDati M.collazione)} {fd : Int} {db db' : BaseDati M.collazione}
  {r : Buffer 4 × Buffer 4} {testo : Bytes}

/-- Without a row the booking is turned down. -/
theorem Servita.rifiutata (h : Servita altro fd oggi db r testo db')
    (hd : primaData M oggi db.toTabelle r.1.toInt r.2.toInt = none) : ¬ Accetta testo := by
  rw [servita_iff] at h
  have hstep : (prenotazioni M oggi).step db r = (db, ascii "invalid id or data!") :=
    prenotazione_of_none (r := (r.1.toInt, r.2.toInt)) hd
  rw [hstep] at h
  obtain ⟨-, rfl⟩ := Prod.mk.inj h
  rintro ⟨data, hdata⟩
  exact prenotazioneInserita_ne_invalida data hdata.symm

/-- With a row it is accepted, and the row added. -/
theorem Servita.accettata (h : Servita altro fd oggi db r testo db') {d : Data}
    (hd : primaData M oggi db.toTabelle r.1.toInt r.2.toInt = some d) :
    testo = prenotazioneInserita (dateFormat d) ∧ db'.toTabelle = { db.toTabelle with
      prenota := db.prenota ++ [⟨dec r.2.toInt, some r.1.toInt, some oggi⟩] } := by
  rw [servita_iff] at h
  have hstep := prenotazione_of_some (r := (r.1.toInt, r.2.toInt)) hd
  rw [show (prenotazioni M oggi).step db r = prenotazione M oggi db (r.1.toInt, r.2.toInt) from rfl,
    hstep] at h
  obtain ⟨rfl, rfl⟩ := Prod.mk.inj h
  exact ⟨rfl, rfl⟩

theorem exists_servita (altro : Motore (BaseDati M.collazione)) (fd : Int) (oggi : Data)
    (db : BaseDati M.collazione) (r : Buffer 4 × Buffer 4) :
    ∃ testo db', Servita altro fd oggi db r testo db' :=
  ⟨_, _, servita_iff.mpr rfl⟩

/-- Acceptance is the query's having a row. -/
theorem Servita.accetta_iff (h : Servita altro fd oggi db r testo db') :
    Accetta testo ↔ ∃ d, primaData M oggi db.toTabelle r.1.toInt r.2.toInt = some d := by
  constructor
  · intro hacc
    exact Option.ne_none_iff_exists'.mp fun hnone => h.rifiutata hnone hacc
  · rintro ⟨d, hd⟩
    exact ⟨dateFormat d, (h.accettata hd).1⟩

end Reply

/-- **A booking means what it should exactly where the exchanged arguments are harmless.** The query
    asks `supera` about a student with the exam's id and an exam with the matricola. Where the rules
    allow the booking, no such row may be there to turn it down; where they forbid it because the exam
    was passed, such a row must be there in its place. -/
theorem significa_iff (altro : Motore (BaseDati M.collazione)) (fd : Int) (db : BaseDati M.collazione)
    (r : Buffer 4 × Buffer 4) : Significa altro fd oggi db r ↔
      ScambioInnocuo M oggi db.toTabelle r.1.toInt r.2.toInt := by
  constructor
  · -- some run of the request exists, and it must be as the property says; what it replied decides the
    -- rest
    intro hsig
    obtain ⟨testo, db', h⟩ := exists_servita altro fd oggi db r
    obtain ⟨hpuo, hacc⟩ := hsig testo db' h
    constructor
    · intro hp
      obtain ⟨-, hno, -⟩ := exists_primaData_iff.mp (h.accetta_iff.mp (hpuo hp))
      exact hno
    · intro hc hdate hsup
      by_contra hno
      exact (hacc (h.accetta_iff.mpr (exists_primaData_iff.mpr ⟨hc, hno, hdate⟩))).2.2.1 hsup
  · rintro ⟨hpuo, hsup⟩ testo db' h
    refine ⟨fun hp => h.accetta_iff.mpr (exists_primaData_iff.mpr ⟨hp.candidabile, hpuo hp, hp.2.2⟩), ?_⟩
    intro hacc
    obtain ⟨d, hd⟩ := h.accetta_iff.mp hacc
    obtain ⟨hc, hno, hleast⟩ := primaData_eq_some_iff.mp hd
    obtain ⟨htesto, hdb⟩ := h.accettata hd
    refine ⟨?_, hdb, fun hs => hno (hsup hc ⟨d, hleast.1⟩ hs), d, htesto, hleast⟩
    rw [verificaPrenotazione_eq, hd]
    rfl

/-- The shipped data, had Giulia Verdi passed `ASD`: one row more in `supera`, with all constraints met. -/
def universitaSuperata : BaseDati mysql.collazione where
  toTabelle := { tabelle with supera := tabelle.supera ++ [⟨some (ascii "20230003"), some 12411⟩] }
  vincoli := by constructor <;> decide +kernel

/-- Giulia Verdi books the exam she has passed, with that pass in `supera`: the query asks about a
    student 12411 instead, and there is none. -/
theorem prenota_esame_superato :
    ¬ Significa (M := mysql) (fun _ _ => none) 5 20240301 universitaSuperata
      (Buffer.ofInt 12411, Buffer.ofInt 20230003) := by
  intro hsig
  have hid : (Buffer.ofInt 12411).toInt = 12411 := by decide +kernel
  have hmat : (Buffer.ofInt 20230003).toInt = 20230003 := by decide +kernel
  obtain ⟨testo, db', h⟩ := exists_servita (M := mysql) (fun _ _ => none) 5 20240301 universitaSuperata
    (Buffer.ofInt 12411, Buffer.ofInt 20230003)
  have hacc : ∃ d, primaData mysql 20240301 universitaSuperata.toTabelle 12411 20230003 = some d :=
    ⟨20240906, by decide +kernel⟩
  have hsup : Superato mysql universitaSuperata.toTabelle 20230003 12411 :=
    ⟨⟨some (ascii "20230003"), some 12411⟩, by decide +kernel⟩
  obtain ⟨-, hno⟩ := hsig testo db' h
  have hno := (hno (h.accetta_iff.mpr (by rw [hid, hmat]; exact hacc))).2.2.1
  rw [hid, hmat] at hno
  exact hno hsup

end Accettata

end Universita

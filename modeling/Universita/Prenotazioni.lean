/-
  BOOKINGS IN ANY ORDER — what a booking does when no database call fails, and many of them.

  A booking is a check followed by an insert.  The check reads every table but `prenota`, the insert
  writes only there, and the table has neither a key nor a limit on its rows: so no booking can tell whether another
  was made before it, and the same student may well book the same exam twice.

  The crux is an object of the library: an `Appender` is a state with a log that grows and a view that does not
  change, whose steps look only at the view.  `prenotazioni` is one, with `prenota` for its log and the other
  tables for its view; that the order of its inputs matters neither to the outputs nor to the rows is then a
  fact about appenders and not about bookings.

  What connects it with the code is `compie_prenotazione`: a run of the server's own routine, from the reads of the two
  numbers to the reply, computes exactly one step.

  Contents:
  1. `primaData`, `prenotazione` — a booking as a function on the database.
  2. `compie_prenotazione` — `aggiungiPrenotazione` computes it.
  3. `prenotazioni` — bookings as an `Appender`, whose log is the table `prenota`.
  4. `Servite` — requests served one after the other, each by a complete run of the server's routine.
  5. **`prenotazioni_commutano`** — in any order, the same replies and the same rows.
-/
import Universita.Lib.Log
import Universita.Guasti
import Universita.Anno

set_option linter.unusedVariables false

namespace Universita

open Lib Mondo Server

/-! ## One booking -/

section Prenotazione

variable (M : Mysql) (oggi : Data)

/-- The date the eligibility query finds, if it has a row. -/
def primaData (t : Tabelle) (id mat : Int) : Option Data :=
  (verificaPrenotazione M t oggi id mat).head?.map Prod.snd

variable {M oggi}

/-- The eligibility query has one row or none: its LIMIT is 1. -/
theorem verificaPrenotazione_eq (t : Tabelle) (id mat : Int) :
    verificaPrenotazione M t oggi id mat = ((primaData M oggi t id mat).map fun d => (id, d)).toList := by
  rcases verificaPrenotazione_cases M t oggi id mat with ⟨h, -⟩ | ⟨d, h, -⟩
  · rw [primaData, h]; rfl
  · rw [primaData, h]; rfl

/-- It has none exactly when no combination of rows meets its conditions. -/
theorem primaData_eq_none_iff {t : Tabelle} {id mat : Int} :
    primaData M oggi t id mat = none ↔ candidati M t oggi id mat = [] := by
  rcases verificaPrenotazione_cases M t oggi id mat with ⟨h, h'⟩ | ⟨d, h, c, hc, -⟩
  · rw [primaData, h]
    exact iff_of_true rfl h'
  · rw [primaData, h]
    exact iff_of_false nofun (List.ne_nil_of_mem hc)

/-- Student and exam of a booking that passed the check exist: the eligibility query has joined the two
    rows, so the foreign keys of the insert are met. -/
theorem chiavi_prenota {db : BaseDati M.collazione} {id mat : Int} {d : Data}
    (h : primaData M oggi db.toTabelle id mat = some d) :
    (∃ s ∈ db.studente, M.collazione.equal s.matStudente (dec mat) = true) ∧
      ∀ i ∈ some id, ∃ e ∈ db.esame, e.idEsame = i := by
  have hne : candidati M db.toTabelle oggi id mat ≠ [] := fun hnil => by
    rw [primaData_eq_none_iff.mpr hnil] at h; cases h
  obtain ⟨c, hc⟩ := List.exists_mem_of_ne_nil _ hne
  obtain ⟨⟨ha, -, hs⟩, haid, -, -, hm, -⟩ := mem_candidati.mp hc
  refine ⟨⟨c.2.2, hs, hm⟩, fun i hi => ?_⟩
  obtain rfl := Option.mem_some_iff.mp hi
  rw [← haid]
  exact db.vincoli.appello_esame c.1 ha

variable (M oggi)

/-- The database and the reply after the booking of exam `r.1` for student `r.2`: a function of both,
    since no call fails and nothing is left to chance. -/
def prenotazione (db : BaseDati M.collazione) (r : Int × Int) : BaseDati M.collazione × Bytes :=
  match h : primaData M oggi db.toTabelle r.1 r.2 with
  | none => (db, ascii "invalid id or data!")
  | some d => (db.aggiungiPrenota ⟨dec r.2, some r.1, some oggi⟩ (chiavi_prenota h).1 (chiavi_prenota h).2,
      prenotazioneInserita (dateFormat d))

variable {M oggi} {err : Mondo (BaseDati M.collazione) → Bytes → Prop}

/-- Turned down: the database stays. -/
theorem prenotazione_of_none {db : BaseDati M.collazione} {r : Int × Int}
    (h : primaData M oggi db.toTabelle r.1 r.2 = none) :
    prenotazione M oggi db r = (db, ascii "invalid id or data!") := by
  unfold prenotazione
  split
  · rfl
  · rename_i h'
    rw [h] at h'
    cases h'

/-- Accepted: one row more in `prenota`, with the day of the insert, and the date of the appello in the
    reply. -/
theorem prenotazione_of_some {db : BaseDati M.collazione} {r : Int × Int} {d : Data}
    (h : primaData M oggi db.toTabelle r.1 r.2 = some d) : prenotazione M oggi db r =
      (db.aggiungiPrenota ⟨dec r.2, some r.1, some oggi⟩ (chiavi_prenota h).1 (chiavi_prenota h).2,
        prenotazioneInserita (dateFormat d)) := by
  unfold prenotazione
  split
  · rename_i h'
    rw [h] at h'
    cases h'
  · rename_i d' h'
    obtain rfl := Option.some.inj (h.symm.trans h')
    rfl

theorem head?_prenotazioneInserita (data : Bytes) : (prenotazioneInserita data).head? = some 112 := by
  rfl

/-- With a date of at most twelve bytes it fits the secretary's buffer. -/
theorem length_prenotazioneInserita {data : Bytes} (h : data.length ≤ 12) :
    (prenotazioneInserita data).length = 64 + data.length := by
  have hlen : (ascii "prenotazione inserita con successo! Il tuo appello si terr" ++ [195, 160] ++
      ascii " il ").length = 64 := by decide +kernel
  rw [prenotazioneInserita, snprintf, List.length_take, List.length_append, hlen]
  omega

/-- The two replies of a booking differ in their first letter, so that the reply tells which of the two
    it was. -/
theorem prenotazioneInserita_ne_invalida (data : Bytes) :
    prenotazioneInserita data ≠ ascii "invalid id or data!" := by
  intro h
  have hhead := congrArg List.head? h
  rw [head?_prenotazioneInserita] at hhead
  exact absurd hhead (by decide +kernel)

/-- The row the insert is made from names the exam asked for. -/
theorem rigaVerifica_dateFormat (id : Buffer 4) (d : Data) :
    rigaVerifica [some (dec id.toInt), some (dateFormat d)] = some (id.toInt, dateFormat d) := by
  rw [rigaVerifica, if_pos (by rw [length_dateFormat]; decide), ofInt_strtol_dec]

/-- The insert of a booking that passed the check goes through. -/
theorem esegui_inserimento_of_some {db : BaseDati M.collazione} {id mat : Int} {d : Data}
    (h : primaData M oggi db.toTabelle id mat = some d) :
    (Query.inserimento mat id).esegui M oggi db = some (db.aggiungiPrenota ⟨dec mat, some id, some oggi⟩
      (chiavi_prenota h).1 (chiavi_prenota h).2, []) := by
  rw [Query.esegui, dif_pos (chiavi_prenota h).1, dif_pos ((chiavi_prenota h).2 id rfl)]

/-- **What `aggiungiPrenotazione` does when no call fails**: from the two reads it computes
    `prenotazione`, writes its reply and nothing else. The weakest precondition of the routine,
    evaluated along the one way that is left. -/
theorem compie_prenotazione (oggi : Data) (herr : ∀ w, ∃ e, err w e)
    (altro : Motore (BaseDati M.collazione)) (fd : Int)
    (db : BaseDati M.collazione) (id mat : Buffer 4) :
    Compie (motore M oggi altro) err .sempre .maniglie (aggiungiPrenotazione fd) (fun _ w' =>
      w'.db = (prenotazione M oggi db (id.toInt, mat.toInt)).1 ∧
      w'.uscita = [(fd, (prenotazione M oggi db (id.toInt, mat.toInt)).2)] ∧
      ∀ q ∈ w'.istruzioni, q.sicura = true) (richiesta db id mat) := by
  rw [safe_aggiungiPrenotazione rfl (Nat.le_of_eq id.size_eq) (Nat.le_of_eq mat.size_eq) herr,
    connesso_sempre, if_pos rfl]
  intro b b'
  rw [Buffer.overlay_full, Buffer.overlay_full]
  -- no call fails, so the check has the rows that the engine computes
  have hver : esito (motore M oggi altro) .sempre db (.verificaPrenotazione id.toInt mat.toInt) =
      some (db, (verificaPrenotazione M db.toTabelle oggi id.toInt mat.toInt).map fun r =>
        [some (dec r.1), some (dateFormat r.2)]) := rfl
  rw [show (richiesta db id mat).db = db from rfl, hver, verificaPrenotazione_eq]
  cases hd : primaData M oggi db.toTabelle id.toInt mat.toInt with
  | none =>
    rw [prenotazione_of_none (r := (id.toInt, mat.toInt)) hd]
    refine ⟨rfl, rfl, fun q hq => ?_⟩
    obtain rfl := List.mem_singleton.mp hq
    rfl
  | some d =>
    rw [prenotazione_of_some (r := (id.toInt, mat.toInt)) hd]
    show Compie _ err _ _ (inserisciPrenotazione fd .aperta mat.toInt _) _ _
    rw [safe_inserisciPrenotazione herr, rigaVerifica_dateFormat, Option.elim_some]
    -- and the insert goes through: the check found the student and the exam
    have hins : esito (motore M oggi altro) .sempre db (.inserimento mat.toInt id.toInt) =
        some (db.aggiungiPrenota ⟨dec mat.toInt, some id.toInt, some oggi⟩ (chiavi_prenota hd).1
          (chiavi_prenota hd).2, []) := esegui_inserimento_of_some hd
    rw [show (preso _ _ _).db = db from rfl, hins]
    refine ⟨rfl, rfl, fun q hq => ?_⟩
    simp only [scritto, dopo, preso, richiesta, List.nil_append, List.mem_append,
      List.mem_singleton] at hq
    rcases hq with rfl | rfl <;> rfl

end Prenotazione

/-! ## Many bookings -/

section Prenotazioni

variable (M : Mysql) (oggi : Data)

/-- What a booking reads: everything but `prenota`. The eligibility query joins the other four. -/
def altreTabelle (t : Tabelle) : Tabelle := { t with prenota := [] }

/-- Bookings read the other tables and append to `prenota`. The five fields of the library's `Appender`
    are the five facts about `prenotazione` it needs; nothing else about bookings enters the result. -/
def prenotazioni : Appender (BaseDati M.collazione) (Buffer 4 × Buffer 4) Bytes Tabelle Prenota where
  step db r := prenotazione M oggi db (r.1.toInt, r.2.toInt)
  view db := altreTabelle db.toTabelle
  log db := db.prenota
  reply t r := match primaData M oggi t r.1.toInt r.2.toInt with
    | none => ascii "invalid id or data!"
    | some d => prenotazioneInserita (dateFormat d)
  rows t r := match primaData M oggi t r.1.toInt r.2.toInt with
    | none => []
    | some _ => [⟨dec r.2.toInt, some r.1.toInt, some oggi⟩]
  step_reply db r := by
    have hv : primaData M oggi (altreTabelle db.toTabelle) r.1.toInt r.2.toInt =
        primaData M oggi db.toTabelle r.1.toInt r.2.toInt := rfl
    rw [hv]
    cases hd : primaData M oggi db.toTabelle r.1.toInt r.2.toInt with
    | none => rw [prenotazione_of_none (r := (r.1.toInt, r.2.toInt)) hd]
    | some d => rw [prenotazione_of_some (r := (r.1.toInt, r.2.toInt)) hd]
  step_view db r := by
    cases hd : primaData M oggi db.toTabelle r.1.toInt r.2.toInt with
    | none => rw [prenotazione_of_none (r := (r.1.toInt, r.2.toInt)) hd]
    | some d => rw [prenotazione_of_some (r := (r.1.toInt, r.2.toInt)) hd]; rfl
  step_log db r := by
    have hv : primaData M oggi (altreTabelle db.toTabelle) r.1.toInt r.2.toInt =
        primaData M oggi db.toTabelle r.1.toInt r.2.toInt := rfl
    rw [hv]
    cases hd : primaData M oggi db.toTabelle r.1.toInt r.2.toInt with
    | none =>
      rw [prenotazione_of_none (r := (r.1.toInt, r.2.toInt)) hd]
      exact (List.append_nil _).symm
    | some d => rw [prenotazione_of_some (r := (r.1.toInt, r.2.toInt)) hd]; rfl

variable {M oggi} (altro : Motore (BaseDati M.collazione)) (fd : Int)

/-- `Servita altro fd oggi db r testo db'` — a complete run of `aggiungiPrenotazione` on the request
    `r`, no call failing, ends with the database `db'` and the one reply `testo`. -/
def Servita (oggi : Data) (db : BaseDati M.collazione) (r : Buffer 4 × Buffer 4) (testo : Bytes)
    (db' : BaseDati M.collazione) : Prop :=
  ∃ w', Prog.Runs (risponde (motore M oggi altro) (fun _ _ => True) .sempre) (aggiungiPrenotazione fd)
    (richiesta db r.1 r.2) () w' ∧ w'.uscita = [(fd, testo)] ∧ w'.db = db'

/-- Requests served one after the other, each with its reply. -/
inductive Servite (oggi : Data) :
    BaseDati M.collazione → List ((Buffer 4 × Buffer 4) × Bytes) → BaseDati M.collazione → Prop
  /-- No request, nothing done. -/
  | nil (db : BaseDati M.collazione) : Servite oggi db [] db
  /-- One request, and the others on the database that it leaves. -/
  | cons {db db₁ db₂ : BaseDati M.collazione} {r : Buffer 4 × Buffer 4} {testo : Bytes}
      {rs : List ((Buffer 4 × Buffer 4) × Bytes)} : Servita altro fd oggi db r testo db₁ →
      Servite oggi db₁ rs db₂ → Servite oggi db ((r, testo) :: rs) db₂

variable {altro fd}

/-- A complete run is a step of the appender, and every step has one: this is what connects the abstract
    requests with the code. -/
theorem servita_iff {db db' : BaseDati M.collazione} {r : Buffer 4 × Buffer 4} {testo : Bytes} :
    Servita altro fd oggi db r testo db' ↔ (db', testo) = (prenotazioni M oggi).step db r := by
  have h := compie_prenotazione oggi errore_qualunque altro fd db r.1 r.2
  constructor
  · rintro ⟨w', hrun, hu, rfl⟩
    obtain ⟨hdb, hu', -⟩ := h.runs hrun
    rw [hu] at hu'
    have ht : testo = (prenotazione M oggi db (r.1.toInt, r.2.toInt)).2 := by simpa using hu'
    rw [hdb, ht]
    rfl
  · intro heq
    obtain ⟨u, w', hrun, hdb, hu, -⟩ := h.esiste nofun
    obtain ⟨rfl, rfl⟩ := Prod.mk.inj heq
    exact ⟨w', hrun, hu, hdb⟩

/-- A run of the requests is a run of the appender, request by request. By induction on the requests,
    from the end of one run to the start of the next. -/
theorem servite_iff {rs : List ((Buffer 4 × Buffer 4) × Bytes)} : ∀ {db db' : BaseDati M.collazione},
    Servite altro fd oggi db rs db' ↔ (prenotazioni M oggi).run db (rs.map Prod.fst) = (db', rs) := by
  induction rs with
  | nil =>
    intro db db'
    constructor
    · rintro ⟨⟩; rfl
    · rintro ⟨⟩; exact .nil db
  | cons r rs ih =>
    intro db db'
    obtain ⟨r, testo⟩ := r
    -- the first request takes one step; the rest runs from the database it leaves
    have hrun : (prenotazioni M oggi).run db (((r, testo) :: rs).map Prod.fst) = (db', (r, testo) :: rs) ↔
        (prenotazioni M oggi).run ((prenotazioni M oggi).step db r).1 (rs.map Prod.fst) = (db', rs) ∧
          ((prenotazioni M oggi).step db r).2 = testo := by
      rw [List.map_cons, Appender.run, Prod.mk.injEq, List.cons.injEq, Prod.mk.injEq]
      constructor
      · rintro ⟨h1, ⟨-, h2⟩, h3⟩
        exact ⟨Prod.ext h1 h3, h2⟩
      · rintro ⟨h, h2⟩
        exact ⟨congrArg Prod.fst h, ⟨rfl, h2⟩, congrArg Prod.snd h⟩
    rw [hrun, ← @ih ((prenotazioni M oggi).step db r).1 db']
    constructor
    · rintro (_ | ⟨hr, hrs⟩)
      obtain ⟨h1, h2⟩ := Prod.mk.inj (servita_iff.mp hr)
      exact ⟨h1 ▸ hrs, h2.symm⟩
    · rintro ⟨hrs, ht⟩
      exact .cons (servita_iff.mpr (by rw [← ht])) hrs

/-- **The order of bookings does not matter**: any permutation of the requests can be served, gives each
    request the same reply, leaves the same rows in `prenota` and every other table as it was. -/
theorem prenotazioni_commutano {M : Mysql} {oggi : Data}
    {altro : Motore (BaseDati M.collazione)} {fd : Int}
    (db : BaseDati M.collazione) {rs rs' : List (Buffer 4 × Buffer 4)} (h : rs.Perm rs') :
    (∃ es db₁, es.map Prod.fst = rs ∧ Servite altro fd oggi db es db₁) ∧
    ∀ es es' db₁ db₂, es.map Prod.fst = rs → es'.map Prod.fst = rs' →
      Servite altro fd oggi db es db₁ → Servite altro fd oggi db es' db₂ →
      es.Perm es' ∧ (∀ x ∈ es, ∀ y ∈ es', x.1 = y.1 → x.2 = y.2) ∧ db₁.prenota.Perm db₂.prenota ∧
        altreTabelle db₁.toTabelle = altreTabelle db.toTabelle ∧
        altreTabelle db₂.toTabelle = altreTabelle db.toTabelle := by
  constructor
  · have hfst := (prenotazioni M oggi).fst_run rs db
    refine ⟨((prenotazioni M oggi).run db rs).2, ((prenotazioni M oggi).run db rs).1, hfst, ?_⟩
    rw [servite_iff, hfst]
  · rintro es es' db₁ db₂ rfl rfl h₁ h₂
    have h₁ := servite_iff.mp h₁
    have h₂ := servite_iff.mp h₂
    -- the library's fact: requests in another order, the same replies and the same rows
    obtain ⟨hrisposte, -, hrighe⟩ := (prenotazioni M oggi).run_perm h db
    rw [h₁, h₂] at hrisposte hrighe
    have hv₁ := (prenotazioni M oggi).view_run (es.map Prod.fst) db
    have hv₂ := (prenotazioni M oggi).view_run (es'.map Prod.fst) db
    rw [h₁] at hv₁
    rw [h₂] at hv₂
    refine ⟨hrisposte, fun x hx y hy hxy => ?_, hrighe, hv₁, hv₂⟩
    have hx' : x ∈ ((prenotazioni M oggi).run db (es.map Prod.fst)).2 := by rw [h₁]; exact hx
    have hy' : y ∈ ((prenotazioni M oggi).run db (es'.map Prod.fst)).2 := by rw [h₂]; exact hy
    rw [Appender.reply_of_mem _ hx', Appender.reply_of_mem _ hy', hxy]

/-- The bookings of two students of the shipped data, and the same two in the other order: they can be
    served. -/
theorem prenotazioni_commutano_due :
    [(Buffer.ofInt 12411, Buffer.ofInt 20230003), (Buffer.ofInt 12410, Buffer.ofInt 20230001)].Perm
      [(Buffer.ofInt 12410, Buffer.ofInt 20230001), (Buffer.ofInt 12411, Buffer.ofInt 20230003)] ∧
    ∃ es db₁, es.map Prod.fst =
        [(Buffer.ofInt 12411, Buffer.ofInt 20230003), (Buffer.ofInt 12410, Buffer.ofInt 20230001)] ∧
      Servite (M := mysql) (fun _ _ => none) 5 20240301 universita es db₁ :=
  ⟨.swap _ _ _, (prenotazioni_commutano universita (.swap _ _ _)).1⟩

end Prenotazioni

end Universita

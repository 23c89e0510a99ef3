/-
  DOES THE REPLY TELL THE TRUTH? — the server's first reply against what happened to the tables.

  Any MySQL call may fail, and a routine goes on after some failures; but where it comes back to the
  main loop, the insert was the last statement and its outcome decided the reply.

  The property is about one complete run of a request, with any subset of the MySQL calls failing: what was written first
  is the text of a success exactly when the row was added, and otherwise no table changed.  It says nothing of
  how many replies there are, and a second one may well follow the first.

  Two things are taken from outside.  What `mysql_error` says is not one of the two texts of success (`ErroreDiverso`):
  the code writes it in their place.  And the texts that were received are data, so that the statements are about
  them and a SELECT is one.

  The crux is that every branch of the two routines ends in one of three ways, with a refusal, with a success, or with
  nothing (`Vero.rifiuto`, `Vero.successo`, `Vero.niente`); the weakest precondition of a routine is the
  conjunction of its branches, and each is closed by one of the three.

  Contents:
  1. `Successo`, `UnaRiga` — the texts that report success, and the change they report.
  2. `Vero` — the first reply is one of these texts exactly when the row was added; otherwise nothing
     changed.
  3. `esegui_…` — what each statement does to the tables.
  4. `vero_appello`, `vero_prenotazione` — the two requests.
  5. **`dice_il_vero`** — in every run of a request, whatever calls fail.
-/
import Universita.Prenotazioni

set_option linter.unusedVariables false

namespace Universita

open Lib Mondo Server

/-- The texts the code writes after the insert of a request went through: a constant one, or one with
    the date in it. -/
def Successo (request : Int) (testo : Bytes) : Prop :=
  request = 1 ∧ testo = appelloInserito ∨ request = 2 ∧ ∃ data, testo = prenotazioneInserita data

/-- One row was added to the table of the request, at its end, and nothing else changed. -/
def UnaRiga (request : Int) (t t' : Tabelle) : Prop :=
  request = 1 ∧ (∃ a, t' = { t with appello := t.appello ++ [a] }) ∨
  request = 2 ∧ ∃ p, t' = { t with prenota := t.prenota ++ [p] }

section Vero

variable {M : Mysql}

/-- `Vero connfd request w w'` — what was written since `w` begins with a success text exactly when the
    row is there; without the row all tables are as before. -/
def Vero (connfd request : Int) (w w' : Mondo (BaseDati M.collazione)) : Prop :=
  ∃ risposte : List Bytes, w'.uscita = w.uscita ++ risposte.map (connfd, ·) ∧
    ((∃ t, risposte.head? = some t ∧ Successo request t) ↔
      UnaRiga request w.db.toTabelle w'.db.toTabelle) ∧
    (¬ UnaRiga request w.db.toTabelle w'.db.toTabelle → w'.db = w.db)

/-- The texts of `mysql_error` are not those of success. They are written in the place of a reply, so
    this is needed: MySQL could otherwise say anything. -/
def ErroreDiverso (w : Mondo (BaseDati M.collazione)) (testo : Bytes) : Prop :=
  ∀ request, ¬ Successo request testo

theorem erroreDiverso_nonempty (w : Mondo (BaseDati M.collazione)) : ∃ e, ErroreDiverso w e := by
  refine ⟨[], ?_⟩
  rintro request (⟨-, h⟩ | ⟨-, data, h⟩)
  · cases h
  · cases h

/-- A reply that is no success text, to a request that changed nothing. Most branches of the two
    routines are this one. -/
theorem Vero.rifiuto {connfd request : Int} {w w' : Mondo (BaseDati M.collazione)} {t : Bytes}
    (hu : w'.uscita = w.uscita ++ [(connfd, t)]) (ht : ¬ Successo request t) (hdb : w'.db = w.db) :
    Vero connfd request w w' := by
  have hriga : ¬ UnaRiga request w.db.toTabelle w'.db.toTabelle := by
    rw [hdb]
    rintro (⟨-, a, h⟩ | ⟨-, p, h⟩)
    · exact absurd (congrArg Tabelle.appello h) (by simp)
    · exact absurd (congrArg Tabelle.prenota h) (by simp)
  refine ⟨[t], hu, iff_of_false ?_ hriga, fun _ => hdb⟩
  rintro ⟨t', h, ht'⟩
  obtain rfl := Option.some.inj h
  exact ht ht'

theorem Vero.successo {connfd request : Int} {w w' : Mondo (BaseDati M.collazione)} {t : Bytes}
    (hu : w'.uscita = w.uscita ++ [(connfd, t)]) (ht : Successo request t)
    (hriga : UnaRiga request w.db.toTabelle w'.db.toTabelle) : Vero connfd request w w' :=
  ⟨[t], hu, iff_of_true ⟨t, rfl, ht⟩ hriga, fun h => absurd hriga h⟩

/-- A request that is none writes nothing and changes nothing. -/
theorem Vero.niente {connfd request : Int} (w : Mondo (BaseDati M.collazione)) (h1 : request ≠ 1)
    (h2 : request ≠ 2) : Vero connfd request w w := by
  have hriga : ¬ UnaRiga request w.db.toTabelle w.db.toTabelle := by
    rintro (⟨h, -⟩ | ⟨h, -⟩)
    · exact h1 h
    · exact h2 h
  exact ⟨[], by simp, iff_of_false (fun ⟨t, h, _⟩ => nomatch h) hriga, fun _ => rfl⟩

end Vero

/-! ## The statements -/

section Statements

variable {M : Mysql} {oggi : Data} {altro : Motore (BaseDati M.collazione)} {f : Funziona}
  {db : BaseDati M.collazione} {p : BaseDati M.collazione × List Row}

/-- A statement whose text is safe does what its template says, if it goes through; if it fails, the
    tables are as they were. -/
theorem esito_esegui {q : Query} (hq : q.sicura = true)
    (h : esito (motore M oggi altro) f db q = some p) :
    q.esegui M oggi db = some p := by
  unfold esito at h
  split at h
  · rwa [motore, if_pos hq] at h
  · cases h

/-- The two SELECTs of a request, the look-up of an exam and the check of a booking, change nothing. -/
theorem esegui_idEsame {nome : Bytes} (h : (Query.idEsame nome).esegui M oggi db = some p) :
    p.1 = db := by
  obtain rfl := Option.some.inj h
  rfl

theorem esegui_verificaPrenotazione {id mat : Int}
    (h : (Query.verificaPrenotazione id mat).esegui M oggi db = some p) : p.1 = db := by
  obtain rfl := Option.some.inj h
  rfl

/-- Each insert adds one row, this one to `appello`. -/
theorem esegui_inserisciAppello {id : Int} {data : Bytes}
    (h : (Query.inserisciAppello id data).esegui M oggi db = some p) :
    UnaRiga 1 db.toTabelle p.1.toTabelle := by
  simp only [Query.esegui] at h
  split at h
  · cases h
  · split at h
    · obtain rfl := Option.some.inj h
      exact Or.inl ⟨rfl, _, rfl⟩
    · cases h

theorem esegui_inserimento {mat id : Int} (h : (Query.inserimento mat id).esegui M oggi db = some p) :
    UnaRiga 2 db.toTabelle p.1.toTabelle := by
  simp only [Query.esegui] at h
  split at h
  · split at h
    · obtain rfl := Option.some.inj h
      exact Or.inr ⟨rfl, _, rfl⟩
    · cases h
  · cases h

end Statements

/-! ## The two requests -/

section Requests

variable {M : Mysql} {oggi : Data} {altro : Motore (BaseDati M.collazione)} {f : Funziona}
  {w w' : Mondo (BaseDati M.collazione)} {fd : Int}

/-- The texts in the statements issued since `w` are data. -/
def TestiSicuri (w w' : Mondo (BaseDati M.collazione)) : Prop :=
  ∀ q ∈ w'.istruzioni.drop w.istruzioni.length, q.sicura = true

/-- A request issues two statements. -/
theorem TestiSicuri.due {q q' : Query} (h : TestiSicuri w w')
    (hw : w'.istruzioni = w.istruzioni ++ [q] ++ [q']) : q.sicura = true ∧ q'.sicura = true := by
  rw [TestiSicuri, hw, List.append_assoc, List.drop_left] at h
  exact ⟨h q (by simp), h q' (by simp)⟩

/-- **A new appello**, from the texts its two reads deliver. The branches are those of the routine: no
    result, an insert that went through, one that failed on the foreign key, one that failed otherwise. -/
theorem vero_appello {r r' : Bytes} {rest : List Bytes} (hin : w.ingresso = r :: r' :: rest)
    (hr : r.length ≤ 255) (hr' : r'.length ≤ 12) :
    Compie (motore M oggi altro) ErroreDiverso f .nulla (aggiungiAppello fd)
      (fun _ w' => TestiSicuri w w' → Vero fd 1 w w') w := by
  rw [safe_aggiungiAppello hin hr hr']
  split
  · intro i nome _
    split
    · rename_i _ _ p he _
      cases ultimo i.toInt p.2 with
      | none => rfl
      | some id =>
        intro data _
        rw [safe_esitoAppello erroreDiverso_nonempty]
        cases he' : esito (motore M oggi altro) f p.1 (.inserisciAppello id data) with
        | some q =>
          rw [Option.isSome_some, if_pos rfl]
          intro hs
          obtain ⟨hnome, hdata⟩ := hs.due rfl
          -- the insert went through: the row is added, and the success is written
          have hriga := esegui_inserisciAppello (esito_esegui hdata he')
          rw [esegui_idEsame (esito_esegui hnome he)] at hriga
          exact .successo rfl (Or.inl ⟨rfl, rfl⟩) hriga
        | none =>
          rw [Option.isSome_none, if_neg Bool.false_ne_true]
          intro e herr
          split
          · intro hs
            obtain ⟨hnome, -⟩ := hs.due rfl
            refine .rifiuto rfl ?_ (esegui_idEsame (esito_esegui hnome he))
            -- the text about the foreign key is neither success
            rintro (⟨-, h⟩ | ⟨h, -⟩)
            · exact absurd h (by decide +kernel)
            · cases h
          · intro e' herr' hs
            obtain ⟨hnome, -⟩ := hs.due rfl
            exact .rifiuto rfl (herr' 1) (esegui_idEsame (esito_esegui hnome he))
    · rfl
  · rfl

/-- **A booking**, from the two numbers its reads deliver: no result, no row, an insert that went
    through, one that failed. -/
theorem vero_prenotazione {r r' : Bytes} {rest : List Bytes} (hin : w.ingresso = r :: r' :: rest)
    (hr : r.length ≤ 4) (hr' : r'.length ≤ 4) :
    Compie (motore M oggi altro) ErroreDiverso f .nulla (aggiungiPrenotazione fd)
      (fun _ w' => Vero fd 2 w w') w := by
  rw [safe_aggiungiPrenotazione hin hr hr' erroreDiverso_nonempty]
  split
  · intro b b'
    split
    · rename_i _ _ p he _
      have hdb := esegui_verificaPrenotazione (esito_esegui rfl he)
      split
      · -- no row: nothing is inserted, and the refusal is neither success
        refine .rifiuto rfl ?_ hdb
        rintro (⟨h, -⟩ | ⟨-, data, h⟩)
        · cases h
        · exact prenotazioneInserita_ne_invalida data h.symm
      · rename_i row _ _
        rw [safe_inserisciPrenotazione erroreDiverso_nonempty]
        cases rigaVerifica row with
        | none => rfl
        | some r =>
          rw [Option.elim_some]
          split
          · rename_i q he'
            have hriga := esegui_inserimento (esito_esegui rfl he')
            rw [show (preso _ _ p).db = p.1 from rfl, hdb] at hriga
            exact .successo rfl (Or.inr ⟨rfl, r.2, rfl⟩) hriga
          · exact fun e herr => .rifiuto rfl (herr 2) hdb
    · rfl
  · rfl

/-- The connection to MySQL touches nothing of this world. -/
theorem run_connection_risponde {c : Conn}
    (h : Prog.Runs (risponde (motore M oggi altro) ErroreDiverso f) connection w c w') : w' = w := by
  have hsafe : Compie (motore M oggi altro) ErroreDiverso f .nulla connection (fun _ w' => w' = w) w := by
    rw [Mondo.safe_connection]
    split <;> rfl
  exact hsafe.runs h

/-- What the two reads of a complete run delivered: they are the next two pieces of what was sent, and
    each fits its buffer. -/
theorem letture_appello
    (h : Prog.Runs (risponde (motore M oggi altro) ErroreDiverso f) (aggiungiAppello fd) w () w') :
    ∃ r r' rest, w.ingresso = r :: r' :: rest ∧ r.length ≤ 255 ∧ r'.length ≤ 12 := by
  simp only [aggiungiAppello, Prog.op_eq, Prog.call_bind, Prog.ret_bind] at h
  rw [Prog.runs_bind] at h
  obtain ⟨c, w₁, hc, h⟩ := h
  obtain rfl := run_connection_risponde hc
  obtain ⟨r, _, ⟨rest, hin, hr, rfl⟩, h⟩ := h
  obtain ⟨r', _, ⟨rest', hin', hr', rfl⟩, h⟩ := h
  have hrest : rest = r' :: rest' := hin'
  exact ⟨r, r', rest', by rw [hin, hrest], hr, hr'⟩

theorem letture_prenotazione
    (h : Prog.Runs (risponde (motore M oggi altro) ErroreDiverso f) (aggiungiPrenotazione fd) w () w') :
    ∃ r r' rest, w.ingresso = r :: r' :: rest ∧ r.length ≤ 4 ∧ r'.length ≤ 4 := by
  simp only [aggiungiPrenotazione, Prog.op_eq, Prog.call_bind, Prog.ret_bind] at h
  rw [Prog.runs_bind] at h
  obtain ⟨c, w₁, hc, h⟩ := h
  obtain rfl := run_connection_risponde hc
  obtain ⟨b, _, hb, b', _, hb', h⟩ := h
  obtain rfl := hb
  obtain rfl := hb'
  obtain ⟨r, _, ⟨rest, hin, hr, rfl⟩, h⟩ := h
  obtain ⟨r', _, ⟨rest', hin', hr', rfl⟩, h⟩ := h
  have hrest : rest = r' :: rest' := hin'
  exact ⟨r, r', rest', by rw [hin, hrest], hr, hr'⟩

end Requests

/-- **The first reply tells the truth**, in every run of a request in which the texts received are data,
    whichever MySQL calls fail: it is a success text exactly when the row of the request was added, and
    otherwise every table is as it was. -/
theorem dice_il_vero {M : Mysql} {oggi : Data} {altro : Motore (BaseDati M.collazione)} {f : Funziona}
    {connfd request : Int} {w w' : Mondo (BaseDati M.collazione)}
    (hrun : Prog.Runs (risponde (motore M oggi altro) ErroreDiverso f) (smista connfd request) w () w')
    (htesti : TestiSicuri w w') : Vero connfd request w w' := by
  unfold smista at hrun
  split at hrun
  · rename_i h1
    obtain ⟨r, r', rest, hin, hr, hr'⟩ := letture_appello hrun
    rw [h1]
    exact (vero_appello hin hr hr').runs hrun htesti
  · split at hrun
    · rename_i h2
      obtain ⟨r, r', rest, hin, hr, hr'⟩ := letture_prenotazione hrun
      rw [h2]
      exact (vero_prenotazione hin hr hr').runs hrun
    · rename_i h1 h2
      obtain ⟨-, rfl⟩ := hrun
      exact .niente w' h1 h2

/-- Giulia Verdi of the third year books `ASD`: she is told the day, and there is her row. -/
theorem dice_il_vero_prenotazione : ∃ w', Prog.Runs
      (risponde (motore mysql 20240301 fun _ _ => none) ErroreDiverso .sempre) (smista 5 2)
      (richiesta universita (Buffer.ofInt 12411) (Buffer.ofInt 20230003)) () w' ∧
    w'.uscita = [(5, prenotazioneInserita (ascii "2024-09-06"))] ∧
    w'.db.prenota = tabelle.prenota ++ [⟨ascii "20230003", some 12411, some 20240301⟩] ∧
    Vero 5 2 (richiesta universita (Buffer.ofInt 12411) (Buffer.ofInt 20230003)) w' := by
  have h := compie_prenotazione 20240301 erroreDiverso_nonempty (fun _ _ => none) 5
    universita (Buffer.ofInt 12411) (Buffer.ofInt 20230003)
  obtain ⟨u, w', hrun, hdb, hu, hs⟩ := h.esiste nofun
  have hdata : primaData mysql 20240301 universita.toTabelle (Buffer.ofInt 12411).toInt
      (Buffer.ofInt 20230003).toInt = some 20240906 := by decide +kernel
  rw [prenotazione_of_some (r := ((Buffer.ofInt 12411).toInt, (Buffer.ofInt 20230003).toInt)) hdata] at hdb hu
  have htesto : dateFormat 20240906 = ascii "2024-09-06" := by decide +kernel
  refine ⟨w', hrun, by rw [hu, htesto], ?_, dice_il_vero hrun hs⟩
  rw [hdb]
  show tabelle.prenota ++ [_] = _
  decide +kernel

end Universita

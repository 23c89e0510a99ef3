/-
  THE SERVER AGAINST A DATABASE — what one complete run of a request does.

  The server's routines are verified here against any database that executes a statement or fails it
  (`chiama`): one rule for each of their functions says which worlds a complete run may end in.  They are
  equivalences where the code has no choice and implications where it has, and nothing above them opens
  the code of a routine again.

  A booking is the case of interest: an eligibility query, and an insert made from its first row.  The row
  carries the exam's id as a decimal text that `strtol` reads back, so that the insert is about the exam that was
  asked for; the matricola is the number that was received.

  The crux is what one can say of a run without knowing how often calls fail: it leaves the tables alone or adds the
  booking, and adds it only if the query had a row.  The converse cannot hold of every run, since the insert may
  fail, but it holds of some run.

  Contents:
  1. `run_connection`, `run_query`, `run_scriviErrore`, `run_inserisciPrenotazione`,
     `run_aggiungiAppello` — one rule a function.
  2. `verificaPrenotazione_cases` — the eligibility query has no row, or one: the exam asked for, with
     a date of some row of the join.
  3. `prenotazione_run` — every complete run leaves the tables alone or adds the booking, and adds it
     only if the query has a row.
  4. `prenotazione_si_puo` — if the query has a row and the two foreign keys hold, some run adds it.
-/
import Universita.Accesso
import Universita.Server

set_option linter.unusedVariables false

namespace Universita

open Lib Mondo Server

section Rules

variable {D : Type} {m : Motore D} {w w' : Mondo D}

/-- Connecting leaves this world as it is, whether it succeeds or not. -/
theorem run_connection {c : Conn} : Prog.Runs (chiama m) connection w c w' ↔ w' = w := by
  cases c <;> simp [connection]

/-- A statement goes through, with its rows waiting, or fails and leaves the tables. -/
theorem run_query {c : Conn} {q : Query} {ok : Bool} :
    Prog.Runs (chiama m) (query c q) w ok w' ↔ c = .aperta ∧
      ((ok = true ∧ ∃ p, m w.db q = some p ∧
        w' = { w with db := p.1, istruzioni := w.istruzioni ++ [q], risultato := some p.2 }) ∨
      (ok = false ∧ w' = { w with istruzioni := w.istruzioni ++ [q], risultato := none })) := by
  cases c
  · cases ok <;> simp [query]
  · simp [query]

/-- The reply to a failed statement is what `mysql_error` says, whatever that is: one write. -/
theorem run_scriviErrore {fd : Int} {u : Unit} : Prog.Runs (chiama m) (scriviErrore fd) w u w' ↔
    ∃ err, w' = { w with uscita := w.uscita ++ [(fd, err)] } := by
  simp [scriviErrore]

/-- The insert is issued with the exam of the row; it goes through or changes nothing. What the student
    sent is only the matricola. -/
theorem run_inserisciPrenotazione {fd : Int} {c : Conn} {mat : Int} {row : Row} {u : Unit}
    (h : Prog.Runs (chiama m) (inserisciPrenotazione fd c mat row) w u w') :
    ∃ id data, row = [some id, some data] ∧ (w'.db = w.db ∨
      ∃ p, m w.db (.inserimento mat (Buffer.ofInt (strtol id)).toInt) = some p ∧ w'.db = p.1) := by
  unfold inserisciPrenotazione at h
  split at h
  · rename_i id data
    refine ⟨id, data, rfl, ?_⟩
    split at h
    · rw [Prog.runs_bind] at h
      obtain ⟨ok, w₁, hq, h⟩ := h
      obtain ⟨-, ⟨rfl, p, hp, rfl⟩ | ⟨rfl, rfl⟩⟩ := run_query.mp hq
      · simp at h
        exact Or.inr ⟨p, hp, by rw [h]⟩
      · rw [if_neg Bool.false_ne_true] at h
        obtain ⟨err, rfl⟩ := run_scriviErrore.mp h
        exact Or.inl rfl
    · exact absurd h run_indefinito
  · exact absurd h run_indefinito

/-- Fetching the ids of an exam touches nothing. -/
theorem run_ultimoId {rows : List Row} : ∀ {i j : Int},
    Prog.Runs (chiama m) (ultimoId i rows) w j w' → w' = w := by
  induction rows with
  | nil => exact fun h => h.2
  | cons row rows ih =>
    intro i j h
    match row, h with
    | [], h => exact absurd h run_indefinito
    | none :: _, h => exact absurd h run_indefinito
    | some _ :: _, h => exact ih h

/-- The reply to the insert of an appello is one write, whatever it says. -/
theorem run_esitoAppello {fd : Int} {ok : Bool} {u : Unit}
    (h : Prog.Runs (chiama m) (esitoAppello fd ok) w u w') :
    ∃ risposta, w' = { w with uscita := w.uscita ++ [(fd, risposta)] } := by
  unfold esitoAppello at h
  split at h
  · simp only [Prog.op_eq, run_write, Prog.runs_ret] at h
    exact ⟨_, h.2⟩
  · simp only [Prog.op_eq, Prog.call_bind, Prog.ret_bind, run_mysqlError] at h
    obtain ⟨err, h⟩ := h
    split at h
    · simp only [run_write, Prog.runs_ret] at h
      exact ⟨_, h.2⟩
    · simp only [run_mysqlError, run_write, Prog.runs_ret] at h
      obtain ⟨err, h⟩ := h
      exact ⟨_, h.2⟩

/-- **The two texts a new appello is made from are the strings in the buffers of its two reads.** -/
theorem run_aggiungiAppello {fd : Int} {u : Unit}
    (h : Prog.Runs (chiama m) (aggiungiAppello fd) w u w') :
    ∃ r r' nome data id, w.ingresso = r :: r' :: w'.ingresso ∧ r.length ≤ 255 ∧ r'.length ≤ 12 ∧
      Stringa ((Buffer.zero 255).overlay r) nome ∧ Stringa ((Buffer.zero 12).overlay r') data ∧
      w'.istruzioni = w.istruzioni ++ [.idEsame nome] ++ [.inserisciAppello id data] := by
  simp only [aggiungiAppello, Prog.op_eq, Prog.call_bind, Prog.ret_bind] at h
  rw [Prog.runs_bind] at h
  obtain ⟨c, w₁, hc, h⟩ := h
  obtain rfl := run_connection.mp hc
  simp only [run_read, run_indeterminato] at h
  obtain ⟨r, _, hr, hn, r', rest, rfl, hn', id₀, h⟩ := h
  rw [Prog.runs_bind] at h
  obtain ⟨nome, w₂, hs, h⟩ := h
  obtain ⟨hnome, rfl⟩ := run_cString.mp hs
  rw [Prog.runs_bind] at h
  obtain ⟨ok, w₃, hq, h⟩ := h
  obtain ⟨-, ⟨rfl, p, hp, rfl⟩ | ⟨rfl, rfl⟩⟩ := run_query.mp hq
  · -- the search went through; what the insert does is seen in the statements only
    simp only [run_mysqlUseResult] at h
    rw [Prog.runs_bind] at h
    obtain ⟨id, w₄, hu, h⟩ := h
    obtain rfl := run_ultimoId hu
    rw [Prog.runs_bind] at h
    obtain ⟨data, w₅, hs, h⟩ := h
    obtain ⟨hdata, rfl⟩ := run_cString.mp hs
    rw [Prog.runs_bind] at h
    obtain ⟨ok, w₆, hq, h⟩ := h
    rw [Prog.runs_bind] at h
    obtain ⟨u', w₇, he, h⟩ := h
    obtain ⟨risposta, rfl⟩ := run_esitoAppello he
    simp only [run_mysqlClose, Prog.runs_ret] at h
    obtain ⟨-, rfl⟩ := h
    refine ⟨r, r', nome, data, id, ?_⟩
    obtain ⟨-, ⟨rfl, p, hp, rfl⟩ | ⟨rfl, rfl⟩⟩ := run_query.mp hq
    · exact ⟨hr, hn, hn', hnome, hdata, rfl⟩
    · exact ⟨hr, hn, hn', hnome, hdata, rfl⟩
  · simp only [run_mysqlUseResult] at h
    exact absurd h run_indefinito

/-- Against a database that takes every statement and has no exam, any two reads lead to the end, with
    any strings that can be found in the buffers. -/
theorem esiste_aggiungiAppello (fd : Int) {w : Mondo Unit} {r r' nome data : Bytes} {rest : List Bytes}
    (hin : w.ingresso = r :: r' :: rest) (hr : r.length ≤ 255) (hr' : r'.length ≤ 12)
    (hnome : Stringa ((Buffer.zero 255).overlay r) nome)
    (hdata : Stringa ((Buffer.zero 12).overlay r') data) :
    ∃ w' id, w'.ingresso = rest ∧
      w'.istruzioni = w.istruzioni ++ [.idEsame nome] ++ [.inserisciAppello id data] ∧
      Prog.Runs (chiama fun (_ : Unit) _ => some ((), [])) (aggiungiAppello fd) w () w' := by
  -- an engine without rows: the id is what the variable happens to hold
  refine ⟨⟨(), rest, w.righe, w.uscita ++ [(fd, ascii "inserimento del nuovo appello completato con successo!")],
    w.istruzioni ++ [.idEsame nome] ++ [.inserisciAppello (Buffer.zero 4).toInt data], some []⟩,
    (Buffer.zero 4).toInt, rfl, rfl, ?_⟩
  simp only [aggiungiAppello, Prog.op_eq, Prog.call_bind, Prog.ret_bind]
  rw [Prog.runs_bind]
  refine ⟨.aperta, w, run_connection.mpr rfl, ?_⟩
  simp only [run_read, run_indeterminato]
  refine ⟨r, r' :: rest, hin, hr, r', rest, rfl, hr', Buffer.zero 4, ?_⟩
  rw [Prog.runs_bind]
  refine ⟨nome, _, run_cString.mpr ⟨hnome, rfl⟩, ?_⟩
  rw [Prog.runs_bind]
  refine ⟨true, _, run_query.mpr ⟨rfl, Or.inl ⟨rfl, _, rfl, rfl⟩⟩, ?_⟩
  simp only [run_mysqlUseResult]
  rw [Prog.runs_bind]
  refine ⟨_, _, ⟨rfl, rfl⟩, ?_⟩
  rw [Prog.runs_bind]
  refine ⟨data, _, run_cString.mpr ⟨hdata, rfl⟩, ?_⟩
  rw [Prog.runs_bind]
  refine ⟨true, _, run_query.mpr ⟨rfl, Or.inl ⟨rfl, _, rfl, rfl⟩⟩, ?_⟩
  simp only [esitoAppello, if_pos, Prog.op_eq, Prog.call_bind, Prog.ret_bind, run_write, run_mysqlClose]
  exact ⟨rfl, rfl⟩

end Rules

/-! ## The eligibility query -/

section Verifica

variable {M : Mysql} {t : Tabelle} {oggi : Data} {id mat : Int}

/-- The conditions of the eligibility query, on a combination of rows. -/
theorem mem_candidati {c : Appello × Esame × Studente} : c ∈ candidati M t oggi id mat ↔
    (c.1 ∈ t.appello ∧ c.2.1 ∈ t.esame ∧ c.2.2 ∈ t.studente) ∧
    c.1.idEsame = id ∧ oggi < c.1.dataAppello ∧
    (le? c.2.1.annoCorsoEsame (some c.2.2.annoCorsoStudente)).holds = true ∧
    M.collazione.equal c.2.2.matStudente (dec mat) = true ∧ esamiSuperati M t id mat = 0 := by
  obtain ⟨a, e, s⟩ := c
  simp only [candidati, List.mem_filter, List.mem_product, Bool.and_eq_true, beq_iff_eq,
    decide_eq_true_eq, and_assoc]

/-- The query is about the exam asked for: it has no row, or this one, and its date is one of the join's. -/
theorem verificaPrenotazione_cases (M : Mysql) (t : Tabelle) (oggi : Data) (id mat : Int) :
    verificaPrenotazione M t oggi id mat = [] ∧ candidati M t oggi id mat = [] ∨
    ∃ d, verificaPrenotazione M t oggi id mat = [(id, d)] ∧
      ∃ c ∈ candidati M t oggi id mat, c.1.dataAppello = d := by
  have hkey : ∀ r ∈ (candidati M t oggi id mat).map fun r => (r.1.idEsame, r.1.dataAppello),
      r.1 = id := by
    intro r hr
    obtain ⟨c, hc, rfl⟩ := List.mem_map.mp hr
    exact (mem_candidati.mp hc).2.1
  rcases groupMin_of_forall_key hkey with ⟨h1, h2⟩ | ⟨d, h1, h2⟩
  · exact Or.inl ⟨h1, List.map_eq_nil_iff.mp h2⟩
  · obtain ⟨c, hc, heq⟩ := List.mem_map.mp h2
    exact Or.inr ⟨d, h1, c, hc, (Prod.mk.inj heq).2⟩

end Verifica

/-! ## A booking -/

section Prenotazione

variable {M : Mysql} {oggi : Data}
  {altro : Motore (BaseDati M.collazione)}
  {w w' : Mondo (BaseDati M.collazione)} {fd : Int} {id mat : Buffer 4}

/-- The world in which a booking request for `id` and `mat` waits behind its code. -/
def richiesta (db : BaseDati M.collazione) (id mat : Buffer 4) : Mondo (BaseDati M.collazione) where
  db
  ingresso := [id.bytes, mat.bytes]
  righe := []
  uscita := []
  istruzioni := []
  risultato := none

/-- The exam in the row the insert is made from is the exam asked for. -/
theorem ofInt_strtol_dec (id : Buffer 4) : (Buffer.ofInt (strtol (dec id.toInt))).toInt = id.toInt := by
  rw [strtol_dec, Buffer.ofInt_toInt]

/-- **A booking is inserted only if the eligibility query has a row**, and nothing else changes. It is
    so of every complete run, whichever calls fail. -/
theorem prenotazione_run (hin : w.ingresso = [id.bytes, mat.bytes])
    (h : Prog.Runs (chiama (motore M oggi altro)) (aggiungiPrenotazione fd) w () w') :
    w'.db = w.db ∨ (candidati M w.db.toTabelle oggi id.toInt mat.toInt ≠ [] ∧
      ∃ p, (Query.inserimento mat.toInt id.toInt).esegui M oggi w.db = some p ∧ w'.db = p.1) := by
  simp only [aggiungiPrenotazione, Prog.op_eq, Prog.call_bind, Prog.ret_bind] at h
  rw [Prog.runs_bind] at h
  obtain ⟨c, w₁, hc, h⟩ := h
  rw [run_connection] at hc
  subst hc
  simp only [run_indeterminato, run_read] at h
  obtain ⟨cod, mat₀, r, rest, hr, -, r', rest', hr', -, h⟩ := h
  rw [hin] at hr
  obtain ⟨rfl, rfl⟩ : r = id.bytes ∧ rest = [mat.bytes] := by simpa using hr.symm
  obtain ⟨rfl, rfl⟩ : r' = mat.bytes ∧ rest' = [] := by simpa using hr'.symm
  rw [Buffer.overlay_full, Buffer.overlay_full, Prog.runs_bind] at h
  obtain ⟨ok, w₂, hq, h⟩ := h
  obtain ⟨-, ⟨rfl, p, hp, rfl⟩ | ⟨rfl, rfl⟩⟩ := run_query.mp hq
  · obtain rfl := (Option.some.inj hp).symm
    rw [if_neg (by decide)] at h
    rcases verificaPrenotazione_cases M w₁.db.toTabelle oggi id.toInt mat.toInt with ⟨hv, -⟩ | ⟨d,
      hv, c', hc', -⟩
    · simp only [run_mysqlStoreResult, hv, List.map_nil, run_write, run_mysqlClose, Prog.runs_ret] at h
      left; rw [h.2]
    · simp only [run_mysqlStoreResult, hv, List.map_cons, List.map_nil] at h
      rw [Prog.runs_bind] at h
      obtain ⟨u, w₃, hi, h⟩ := h
      simp only [run_mysqlClose, Prog.runs_ret] at h
      obtain ⟨-, rfl⟩ := h
      obtain ⟨i, data, hrow, hdb⟩ := run_inserisciPrenotazione hi
      -- the row of the check carries the id as text, which `strtol` reads back
      obtain ⟨rfl, -⟩ : dec id.toInt = i ∧ dateFormat d = data := by simpa using hrow
      rw [ofInt_strtol_dec] at hdb
      rcases hdb with hdb | ⟨p, hp, hdb⟩
      · exact Or.inl hdb
      · exact Or.inr ⟨List.ne_nil_of_mem hc', p, hp, hdb⟩
  · -- the query failed: there is no result set to look at
    exfalso
    simp only [Bool.not_false, if_pos] at h
    rw [Prog.runs_bind] at h
    obtain ⟨u, w₃, he, h⟩ := h
    obtain ⟨err, rfl⟩ := run_scriviErrore.mp he
    simp only [run_mysqlStoreResult] at h
    rw [Prog.runs_bind] at h
    obtain ⟨u, w₄, -, h⟩ := h
    rw [indefinito_bind] at h
    exact absurd h run_indefinito

/-- **If the eligibility query has a row, and student and exam exist, a run inserts the booking.** The
    run is the one in which no call fails. -/
theorem prenotazione_si_puo (altro : Motore (BaseDati M.collazione)) (fd : Int)
    (hin : w.ingresso = [id.bytes, mat.bytes])
    (hc : candidati M w.db.toTabelle oggi id.toInt mat.toInt ≠ [])
    {p : BaseDati M.collazione × List Row}
    (hp : (Query.inserimento mat.toInt id.toInt).esegui M oggi w.db = some p) :
    ∃ w', Prog.Runs (chiama (motore M oggi altro)) (aggiungiPrenotazione fd) w () w' ∧
      w'.db = p.1 := by
  rcases verificaPrenotazione_cases M w.db.toTabelle oggi id.toInt mat.toInt with ⟨-, hnil⟩ | ⟨d, hv, -⟩
  · exact absurd hnil hc
  · have hverifica : motore M oggi altro w.db (.verificaPrenotazione id.toInt mat.toInt) =
        some (w.db, [[some (dec id.toInt), some (dateFormat d)]]) := by
      simp [motore, Query.sicura, Query.esegui, hv]
    have hins : motore M oggi altro w.db (.inserimento mat.toInt id.toInt) = some p := hp
    -- the run in which no call fails
    refine ⟨{ w with db := p.1, ingresso := [],
                     istruzioni := w.istruzioni ++ [.verificaPrenotazione id.toInt mat.toInt] ++
                       [.inserimento mat.toInt id.toInt],
                     uscita := w.uscita ++ [(fd, prenotazioneInserita (dateFormat d))],
                     risultato := some p.2 }, ?_, rfl⟩
    simp only [aggiungiPrenotazione, Prog.op_eq, Prog.call_bind, Prog.ret_bind]
    rw [Prog.runs_bind]
    refine ⟨.aperta, w, run_connection.mpr rfl, ?_⟩
    simp only [run_indeterminato, run_read]
    refine ⟨Buffer.zero 4, Buffer.zero 4, id.bytes, [mat.bytes], hin, Nat.le_of_eq id.size_eq,
      mat.bytes, [], rfl, Nat.le_of_eq mat.size_eq, ?_⟩
    rw [Buffer.overlay_full, Buffer.overlay_full, Prog.runs_bind]
    refine ⟨true, _, run_query.mpr ⟨rfl, Or.inl ⟨rfl, _, hverifica, rfl⟩⟩, ?_⟩
    simp only [Bool.not_true, Bool.false_eq_true, if_false, run_mysqlStoreResult]
    rw [Prog.runs_bind]
    refine ⟨(), _, ?_, run_mysqlClose.mpr ⟨rfl, rfl⟩⟩
    rw [inserisciPrenotazione, if_pos (by rw [length_dateFormat]; decide), Prog.runs_bind,
      ofInt_strtol_dec]
    refine ⟨true, _, run_query.mpr ⟨rfl, Or.inl ⟨rfl, _, hins, rfl⟩⟩, ?_⟩
    simp

end Prenotazione

end Universita

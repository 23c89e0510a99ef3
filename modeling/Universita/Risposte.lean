/-
  EXACTLY ONE REPLY — every routine that talks to MySQL, under every combination of failures.

  A failed call is reported on stderr, or to the peer, and the code goes on to the next statement: there is no
  `return` behind any of the error branches.  So a routine may answer twice, or not at all, or pass the NULL
  that a failed `mysql_store_result` returns to the calls that count and fetch its rows.

  Five routines are concerned, two of the server and three of the secretary, and `Domanda` is one of them with what
  its reads deliver.  The property is that whatever uninitialised memory holds and `mysql_error` says, the routine gets to
  its end and has written one answer to its peer: one text, or a count and that many records.

  The condition, `Riesce`, is on the failures and the rows: the calls in front of the answer succeed, and a list can be
  sent and counted.  The crux is that it is exact: the weakest preconditions of the routines are
  equivalences, so each of the five proofs reads off what every branch has written, and the branch with two answers is
  no exception but a case.

  Contents:
  1. `Domanda` — a request with what its reads deliver; `Domanda.Risposta` — one answer to it.
  2. `UnaRisposta` — whatever memory holds, the routine gets to its end with one answer written.
  3. `Domanda.Riesce` — the calls it depends on succeed, and their rows can be used.
  4. **`una_risposta_iff`** — one answer exactly when they do; and without passing on a NULL result set,
     except that the full list always does.
  5. `due_risposte` — a booking whose check fails.
-/
import Universita.Elenco

set_option linter.unusedVariables false

namespace Universita

open Lib Mondo Server Segreteria

/-! ## Requests -/

/-- What a read of `n` bytes may deliver. -/
abbrev Letto (n : Nat) := { r : Bytes // r.length ≤ n }

/-- An `int` that arrives whole. -/
def Letto.intero (b : Buffer 4) : Letto 4 := ⟨b.bytes, Nat.le_of_eq b.size_eq⟩

/-- A request to one of the five routines. -/
inductive Domanda where
  /-- server.c, `aggiungiAppello`. -/
  | appello (connfd : Int) (nome : Letto 255) (data : Letto 12)
  /-- server.c, `aggiungiPrenotazione`. -/
  | prenotazione (connfd : Int) (id mat : Letto 4)
  /-- segreteria.c, a connection in the slot `dim`. -/
  | login (s : Segreteria) (mat : Letto 4) (password : Letto 255)
  /-- segreteria.c, `req == 1`. -/
  | elenco (c : ClientStud)
  /-- segreteria.c, `req == 2`. -/
  | elencoEsame (c : ClientStud) (exam : Letto 255)

namespace Domanda

/-- What the reads of the routine deliver. -/
def ingresso : Domanda → List Bytes
  | appello _ nome data => [nome, data]
  | prenotazione _ id mat => [id, mat]
  | login _ mat password => [mat, password]
  | elenco _ => [(Buffer.ofInt 1).bytes]
  | elencoEsame _ exam => [(Buffer.ofInt 2).bytes, exam]

/-- The descriptor of the peer. -/
def fd : Domanda → Int
  | appello connfd _ _ | prenotazione connfd _ _ => connfd
  | login s _ _ => (s.clientSockets s.dim).connfd
  | elenco c | elencoEsame c _ => c.connfd

/-- The routine. -/
def programma : Domanda → Programma Unit
  | appello connfd _ _ => aggiungiAppello connfd
  | prenotazione connfd _ _ => aggiungiPrenotazione connfd
  | login s _ _ => do let _ ← s.accesso
  | elenco c | elencoEsame c _ => visualizzaAppelli c

/-- `d.Risposta ws` — the writes are one answer: one text, or the count of the rows and so many rows. A
    count without its rows is none, nor are two texts. -/
def Risposta : Domanda → List Bytes → Prop
  | appello _ _ _, ws | prenotazione _ _ _, ws | login _ _ _, ws => ∃ testo, ws = [testo]
  | elenco _, ws | elencoEsame _ _, ws => ∃ ls : List RigaLista, ls.length < 2 ^ 32 ∧
      ws = (Buffer.ofInt ls.length).bytes :: ls.flatMap RigaLista.scritture

variable {D : Type}

/-- The world the routine starts in. -/
def mondo (db : D) (d : Domanda) : Mondo D := ⟨db, d.ingresso, [], [], [], none⟩

/-- The rows are some that can be sent, and can be counted: each of them fits the two buffers, and there
    are less than 2^32. -/
def Elencabile (p : D × List Row) : Prop := p.2.length < 2 ^ 32 ∧ ∀ row ∈ p.2, Inviabile row

/-- `d.Riesce m f db` — the calls before the answer succeed, with rows the routine can use. `f` says
    which calls succeed, statement by statement; the condition is on the few of them the routine's way
    leads through. -/
def Riesce (m : Motore D) (f : Funziona) (db : D) : Domanda → Prop
  | appello _ nome _ => connesso f = true ∧ ∀ n, Stringa ((Buffer.zero 255).overlay nome) n →
      f.mysqlResult = true ∧ ∃ p, esito m f db (.idEsame n) = some p ∧
        ∀ row ∈ p.2, ∃ id cols, row = some id :: cols
  | prenotazione _ id mat => connesso f = true ∧ ∀ b b' : Buffer 4, f.mysqlResult = true ∧
      ∃ p, esito m f db (.verificaPrenotazione (b.overlay id).toInt (b'.overlay mat).toInt) = some p ∧
        ∀ row ∈ p.2.head?, (rigaVerifica row).isSome
  | login s mat password => ∀ pw, Stringa (s.password.overlay password) pw →
      f.mysqlResult = true ∧ ∃ p, esito m f db (.login (s.matricolaDopo mat).toInt pw) = some p
  | elenco c => f.mysqlResult = true ∧
      ∃ p, esito m f db (.appelli c.matricola.toInt) = some p ∧ Elencabile p
  | elencoEsame c exam => ∀ e, Stringa ((Buffer.zero 255).overlay exam) e → f.mysqlResult = true ∧
      ∃ p, esito m f db (.appelliEsame c.matricola.toInt e) = some p ∧ Elencabile p

end Domanda

/-! ## One answer -/

section Risposta

variable {D : Type} {m : Motore D} {f : Funziona} {x : Esige} {db : D}

/-- Whatever `mysql_error` says and memory holds, every call of the routine is as `x` asks, and in the
    end it has written one answer and nothing else. -/
def UnaRisposta (m : Motore D) (f : Funziona) (x : Esige) (db : D) (d : Domanda) : Prop :=
  Compie m (fun _ _ => True) f x d.programma
    (fun _ w' => ∃ ws, d.Risposta ws ∧ w'.uscita = ws.map (d.fd, ·)) (d.mondo db)

/-- One text in an empty record is one answer. -/
theorem una_sola {P : List Bytes → Prop} (hP : ∀ t, P [t]) {fd : Int} {w : Mondo D} (hw : w.uscita = [])
    (t : Bytes) : ∃ ws, P ws ∧ (w.scritto fd t).uscita = ws.map (fd, ·) :=
  ⟨[t], hP t, by rw [scritto, hw]; rfl⟩

/-- The reply to a new appello is one text, whether it went in or not. -/
theorem una_esitoAppello {P : List Bytes → Prop} (hP : ∀ t, P [t]) {fd : Int} {w : Mondo D}
    (hw : w.uscita = []) (ok : Bool) : Compie m (fun _ _ => True) f x (esitoAppello fd ok)
      (fun _ w' => ∃ ws, P ws ∧ w'.uscita = ws.map (fd, ·)) w := by
  rw [safe_esitoAppello errore_qualunque]
  split
  · exact una_sola hP hw _
  · intro e _
    split
    · exact una_sola hP hw _
    · exact fun e' _ => una_sola hP hw e'

theorem una_risposta_appello (hx : x ≠ .nulla) {connfd : Int} {nome : Letto 255} {data : Letto 12} :
    UnaRisposta m f x db (.appello connfd nome data) ↔
      (Domanda.appello connfd nome data).Riesce m f db := by
  rw [UnaRisposta, Domanda.programma, safe_aggiungiAppello rfl nome.2 data.2, Domanda.Riesce,
    Domanda.mondo]
  split
  · rename_i hc
    rw [and_iff_right hc]
    refine Iff.trans ?_ (forall_const (Buffer 4))
    refine forall_congr' fun i => forall₂_congr fun n _ => ?_
    cases esito m f db (.idEsame n) with
    | none => exact iff_of_false hx fun ⟨_, p, hp, _⟩ => nomatch hp
    | some p =>
      cases f.mysqlResult with
      | false => exact iff_of_false hx fun h => Bool.false_ne_true h.1
      | true =>
        -- the last row that is fetched gives the id, and a NULL in it has none
        have hrighe := isSome_ultimo (r := p.2) (i := i.toInt)
        have hsome : (∃ q, some p = some q ∧ ∀ row ∈ q.2, ∃ id cols, row = some id :: cols) ↔
            (ultimo i.toInt p.2).isSome := by rw [hrighe]; simp
        rw [and_iff_right rfl, hsome]
        show (ultimo i.toInt p.2).elim _ _ ↔ _
        cases ultimo i.toInt p.2 with
        | none => exact iff_of_false hx Bool.false_ne_true
        | some id =>
          -- the insert is answered once, with either text
          refine iff_of_true (fun data _ => ?_) rfl
          exact una_esitoAppello (fun t => ⟨t, rfl⟩) (uscita_dopo _ _ _) _
  · rename_i hc
    exact iff_of_false hx fun h => hc h.1

theorem una_risposta_prenotazione (hx : x ≠ .nulla) {connfd : Int} {id mat : Letto 4} :
    UnaRisposta m f x db (.prenotazione connfd id mat) ↔
      (Domanda.prenotazione connfd id mat).Riesce m f db := by
  rw [UnaRisposta, Domanda.programma, safe_aggiungiPrenotazione rfl id.2 mat.2 errore_qualunque,
    Domanda.Riesce, Domanda.mondo]
  split
  · rename_i hc
    rw [and_iff_right hc]
    refine forall₂_congr fun b b' => ?_
    cases esito m f db (.verificaPrenotazione (b.overlay id).toInt (b'.overlay mat).toInt) with
    | none => exact iff_of_false hx fun ⟨_, p, hp, _⟩ => nomatch hp
    | some p =>
      cases f.mysqlResult with
      | false => exact iff_of_false hx fun h => Bool.false_ne_true h.1
      | true =>
        obtain ⟨d, rows⟩ := p
        rw [and_iff_right rfl]
        cases rows with
        | nil =>
          -- no row: one refusal
          refine iff_of_true ?_ ⟨_, rfl, nofun⟩
          exact una_sola (fun t => ⟨t, rfl⟩) rfl _
        | cons row rows =>
          have hsome : (∃ q, some (d, row :: rows) = some q ∧ ∀ r ∈ q.2.head?, (rigaVerifica r).isSome) ↔
              (rigaVerifica row).isSome := by simp
          rw [hsome]
          -- a row: one success or one error, if the row can be used at all
          refine (safe_inserisciPrenotazione errore_qualunque).trans ?_
          cases rigaVerifica row with
          | none => exact iff_of_false hx Bool.false_ne_true
          | some r =>
            refine iff_of_true ?_ rfl
            rw [Option.elim_some]
            split
            · exact una_sola (fun t => ⟨t, rfl⟩) rfl _
            · exact fun e _ => una_sola (fun t => ⟨t, rfl⟩) rfl e
  · rename_i hc
    exact iff_of_false hx fun h => hc h.1

theorem una_risposta_login (hx : x ≠ .nulla) {s : Segreteria} {mat : Letto 4} {password : Letto 255} :
    UnaRisposta m f x db (.login s mat password) ↔ (Domanda.login s mat password).Riesce m f db := by
  rw [UnaRisposta, Domanda.programma, safe_poi, safe_accesso rfl mat.2 password.2, Domanda.Riesce,
    Domanda.mondo]
  refine forall₂_congr fun pw _ => ?_
  cases esito m f db (.login (s.matricolaDopo mat).toInt pw) with
  | none => exact iff_of_false hx fun ⟨_, p, hp⟩ => nomatch hp
  | some p =>
    cases f.mysqlResult with
    | false => exact iff_of_false hx fun h => Bool.false_ne_true h.1
    | true => exact iff_of_true (una_sola (fun t => ⟨t, rfl⟩) rfl _) ⟨rfl, p, rfl⟩

/-- A list that was sent is one answer exactly when its rows can be counted: the count is four bytes. -/
theorem una_lista {fd : Int} {w : Mondo D} (hw : w.uscita = []) (ls : List RigaLista) :
    (∃ ws, (∃ ls' : List RigaLista, ls'.length < 2 ^ 32 ∧
        ws = (Buffer.ofInt ls'.length).bytes :: ls'.flatMap RigaLista.scritture) ∧
      (w.scritti fd (scrittureElenco ls)).uscita = ws.map (fd, ·)) ↔ ls.length < 2 ^ 32 := by
  have huscita : (w.scritti fd (scrittureElenco ls)).uscita = (scrittureElenco ls).map (fd, ·) := by
    rw [scritti, hw, List.nil_append]
  rw [huscita]
  constructor
  · rintro ⟨ws, ⟨ls', hls', rfl⟩, h⟩
    have heq := congrArg List.length h
    simp only [scrittureElenco, List.length_map, List.length_cons, length_flatMap_scritture] at heq
    omega
  · intro h
    refine ⟨_, ⟨ls, h, rfl⟩, ?_⟩
    rw [scrittureElenco, conteggio, Nat.mod_eq_of_lt h]

/-- The rows of a result become one answer exactly when they can all be sent and counted; a row that
    cannot be sent overruns a buffer, and there is no end. -/
theorem una_risposta_righe (hx : x ≠ .nulla) {fd : Int} {w : Mondo D} (hw : w.uscita = [])
    (p : D × List Row) :
    (∀ (nome : Buffer 255) (data : Buffer 12), (righeLista nome data p.2).elim (x = .nulla) fun ls =>
      ∃ ws, (∃ ls' : List RigaLista, ls'.length < 2 ^ 32 ∧
          ws = (Buffer.ofInt ls'.length).bytes :: ls'.flatMap RigaLista.scritture) ∧
        (w.scritti fd (scrittureElenco ls)).uscita = ws.map (fd, ·)) ↔ Domanda.Elencabile p := by
  constructor
  · intro h
    -- the buffers may hold anything, zeros for one
    have h0 := h default default
    cases hls : righeLista default default p.2 with
    | none =>
      rw [hls] at h0
      exact absurd h0 hx
    | some ls =>
      rw [hls] at h0
      have hlen := (una_lista hw ls).mp h0
      rw [length_righeLista hls] at hlen
      exact ⟨hlen, isSome_righeLista.mp (by rw [hls]; rfl)⟩
  · rintro ⟨hlen, hrighe⟩ nome data
    have hsome : (righeLista nome data p.2).isSome := isSome_righeLista.mpr hrighe
    obtain ⟨ls, hls⟩ := Option.isSome_iff_exists.mp hsome
    rw [hls, Option.elim_some]
    exact (una_lista hw ls).mpr (by rwa [length_righeLista hls])

/-- Without a result nothing is sent: that is no answer. -/
theorem nessuna_risposta {fd : Int} {w : Mondo D} (hw : w.uscita = []) :
    ¬ ∃ ws, (∃ ls : List RigaLista, ls.length < 2 ^ 32 ∧
        ws = (Buffer.ofInt ls.length).bytes :: ls.flatMap RigaLista.scritture) ∧
      w.uscita = ws.map (fd, ·) := by
  rintro ⟨ws, ⟨ls, -, rfl⟩, h⟩
  rw [hw] at h
  cases h

/-- ... the full list, which in any case asks once more for a result and is handed NULL. -/
theorem una_risposta_elenco (hx : x ≠ .nulla) {c : ClientStud} :
    UnaRisposta m f x db (.elenco c) ↔ (Domanda.elenco c).Riesce m f db ∧ x ≠ .maniglie := by
  rw [UnaRisposta, Domanda.programma, safe_elencoCompleto rfl, Domanda.Riesce, Domanda.mondo]
  cases esito m f db (.appelli c.matricola.toInt) with
  | none => exact iff_of_false (fun h => nessuna_risposta rfl h.2) fun ⟨⟨_, p, hp, _⟩, _⟩ => nomatch hp
  | some p =>
    cases f.mysqlResult with
    | false => exact iff_of_false (fun h => nessuna_risposta rfl h.2) fun h => Bool.false_ne_true h.1.1
    | true =>
      rw [and_iff_right rfl]
      simp only [Option.some.injEq, exists_eq_left']
      -- behind the list the result is asked for again and is NULL: the strictest demand is never met
      by_cases hm : x = .maniglie
      · refine iff_of_false (fun h => ?_) fun h => h.2 hm
        have h0 := h default default
        cases hls : righeLista default default p.2 with
        | none =>
          rw [hls] at h0
          exact hx h0
        | some ls =>
          rw [hls] at h0
          exact h0.1 hm
      · simp only [ne_eq, hm, not_false_eq_true, true_and, and_true]
        exact una_risposta_righe hx rfl p

theorem una_risposta_elencoEsame (hx : x ≠ .nulla) {c : ClientStud} {exam : Letto 255} :
    UnaRisposta m f x db (.elencoEsame c exam) ↔ (Domanda.elencoEsame c exam).Riesce m f db := by
  rw [UnaRisposta, Domanda.programma, safe_elencoEsame rfl exam.2, Domanda.Riesce, Domanda.mondo]
  refine forall₂_congr fun e _ => ?_
  cases esito m f db (.appelliEsame c.matricola.toInt e) with
  | none => exact iff_of_false (fun h => nessuna_risposta rfl h.2) fun ⟨_, p, hp, _⟩ => nomatch hp
  | some p =>
    cases f.mysqlResult with
    | false => exact iff_of_false (fun h => nessuna_risposta rfl h.2) fun h => Bool.false_ne_true h.1
    | true =>
      rw [and_iff_right rfl]
      simp only [Option.some.injEq, exists_eq_left']
      exact una_risposta_righe hx rfl p

end Risposta

/-- **Exactly one answer**, whatever memory holds, exactly when the calls in front of the answer succeed
    with rows that can be used; the same without passing on a NULL result set, the full list apart.
    Which calls fail is an argument, so every combination of failures is covered, as is every engine and
    every database. -/
theorem una_risposta_iff {D : Type} (m : Motore D) (f : Funziona) (db : D) (d : Domanda) :
    (UnaRisposta m f .fine db d ↔ d.Riesce m f db) ∧
    (UnaRisposta m f .maniglie db d ↔ d.Riesce m f db ∧ ∀ c, d ≠ .elenco c) := by
  have hf : Esige.fine ≠ .nulla := nofun
  have hm : Esige.maniglie ≠ .nulla := nofun
  cases d with
  | appello connfd nome data =>
    exact ⟨una_risposta_appello hf, (una_risposta_appello hm).trans (and_iff_left nofun).symm⟩
  | prenotazione connfd id mat =>
    exact ⟨una_risposta_prenotazione hf, (una_risposta_prenotazione hm).trans (and_iff_left nofun).symm⟩
  | login s mat password =>
    exact ⟨una_risposta_login hf, (una_risposta_login hm).trans (and_iff_left nofun).symm⟩
  | elenco c =>
    refine ⟨(una_risposta_elenco hf).trans (and_iff_left nofun), ?_⟩
    exact iff_of_false (fun h => ((una_risposta_elenco hm).mp h).2 rfl) fun h => h.2 c rfl
  | elencoEsame c exam =>
    exact ⟨una_risposta_elencoEsame hf, (una_risposta_elencoEsame hm).trans (and_iff_left nofun).symm⟩

/-- A booking whose eligibility query fails: two error texts, and then the rows of NULL are counted. -/
theorem due_risposte : ¬ UnaRisposta (fun (_ : Unit) _ => none) .sempre .fine ()
    (.prenotazione 5 (.intero (Buffer.ofInt 7)) (.intero (Buffer.ofInt 1))) := by
  have hf : Esige.fine ≠ .nulla := nofun
  rw [una_risposta_prenotazione hf, Domanda.Riesce]
  rintro ⟨-, h⟩
  obtain ⟨-, p, hp, -⟩ := h default default
  cases hp

end Universita

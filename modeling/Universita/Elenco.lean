/-
  THE LIST A STUDENT IS SENT — a result set as records on the wire.

  Each row becomes three writes: the id, and two buffers of fixed size that `sscanf` fills.  The buffers
  are reused, so what a row leaves behind its texts is what the rows before it put there — and what the
  two buffers held before the first row, since neither has an initialiser.

  A text that does not fit its buffer overruns it; nothing is defined from there on.  `Inviabile` says of a row,
  without running anything, that this does not happen and that no column is NULL, and `isSome_righeLista` that
  a result has records exactly when all its rows are of that kind.

  The second half gives every routine of the secretary that asks the database its weakest precondition against a
  database of which any call may fail.  These are equivalences: what a caller needs can be read off, and the
  three questions asked of a failing database (does it answer at all, once, and truthfully) are three instances.

  Contents:
  1. `scansione` — what `sscanf` makes of a buffer; `sscanfRiga_eq`, `sscanfParola_eq`.
  2. `RigaLista`, `righeLista` — the records of a result; `Inviabile`: the rows that have one.
  3. `conteggio`, `scrittureElenco` — a list on the wire.
  4. `safe_…` — the weakest preconditions of the secretary's routines against a failing database.
-/
import Universita.Guasti

set_option linter.unusedVariables false

namespace Universita

open Lib Mondo Segreteria

/-! ## Records -/

/-- What `sscanf` makes of `buf` when it matches `testo`: an empty match leaves it alone, a longer one
    than the buffer has room for overruns it. -/
def scansione {n : Nat} (testo : Bytes) (buf : Buffer n) : Option (Buffer n) :=
  if testo = [] then some buf
  else if testo.length < n then some (buf.overlay (testo ++ [0]))
  else none

/-- What `%[^\n]` matches. -/
def primaRiga (testo : Bytes) : Bytes := (cstr testo).takeWhile (· ≠ 10)

/-- What `%s` matches. -/
def primaParola (testo : Bytes) : Bytes :=
  ((cstr testo).dropWhile isBlank).takeWhile fun b => !isBlank b

/-- The model's `sscanf`, once its match is known. -/
theorem elim_scansione {n : Nat} (testo : Bytes) (buf : Buffer n) :
    (scansione testo buf).elim (indefinito : Programma (Buffer n)) pure =
      if testo = [] then pure buf
      else if testo.length < n then pure (buf.overlay (testo ++ [0])) else indefinito := by
  unfold scansione
  split
  · rfl
  · split <;> rfl

/-- `%[^\n]` takes the first line. -/
theorem sscanfRiga_eq {n : Nat} (testo : Bytes) (buf : Buffer n) :
    sscanfRiga testo buf = (scansione (primaRiga testo) buf).elim indefinito pure :=
  (elim_scansione _ _).symm

theorem sscanfParola_eq {n : Nat} (testo : Bytes) (buf : Buffer n) :
    sscanfParola testo buf = (scansione (primaParola testo) buf).elim indefinito pure :=
  (elim_scansione _ _).symm

/-- The text, its NUL, and what was behind them: `sscanf` touches nothing else, so the end of a longer
    text stays. -/
theorem bytes_scansione {n : Nat} {testo : Bytes} {b b' : Buffer n} (hne : testo ≠ [])
    (h : scansione testo b = some b') : b'.bytes = testo ++ 0 :: b.bytes.drop (testo.length + 1) := by
  rw [scansione, if_neg hne] at h
  split at h
  · rename_i hlen
    obtain rfl := Option.some.inj h
    have hle : (testo ++ [0] : Bytes).length ≤ n := by
      rw [List.length_append, List.length_singleton]
      omega
    rw [Buffer.overlay_bytes_of_le hle, List.length_append, List.length_singleton, List.append_assoc]
    rfl
  · cases h

theorem isSome_scansione {n : Nat} (hn : 0 < n) {testo : Bytes} {b : Buffer n} :
    (scansione testo b).isSome ↔ testo.length < n := by
  unfold scansione
  split
  · rename_i h
    simp [h, hn]
  · split
    · rename_i h
      simp [h]
    · rename_i h
      simp [h]

/-- One row as it is sent. -/
structure RigaLista where
  /-- The id, four bytes. -/
  id : Buffer 4
  /-- The name, sent as its whole buffer. -/
  nome : Buffer 255
  /-- The date, likewise. -/
  data : Buffer 12
deriving DecidableEq

/-- ... in three writes. -/
def RigaLista.scritture (l : RigaLista) : List Bytes := [l.id.bytes, l.nome.bytes, l.data.bytes]

theorem length_flatMap_scritture (ls : List RigaLista) :
    (ls.flatMap RigaLista.scritture).length = 3 * ls.length := by
  induction ls with
  | nil => rfl
  | cons l ls ih =>
    rw [List.flatMap_cons, List.length_append, ih, List.length_cons, RigaLista.scritture,
      List.length_cons, List.length_cons, List.length_singleton]
    omega

/-- The records of a result, from the two buffers the loop starts with. -/
def righeLista (nomeEsame : Buffer 255) (dataEsame : Buffer 12) : List Row → Option (List RigaLista)
  | [] => some []
  | [some id, some nome, some data] :: rows =>
    (scansione (primaRiga nome) nomeEsame).bind fun nomeEsame =>
    (scansione (primaParola data) dataEsame).bind fun dataEsame =>
    (righeLista nomeEsame dataEsame rows).map (⟨Buffer.ofInt (strtol id), nomeEsame, dataEsame⟩ :: ·)
  | _ :: _ => none

/-- The records of a result with a first row. -/
theorem righeLista_cons {nome : Buffer 255} {data : Buffer 12} {i n d : Bytes} {rows : List Row}
    {ls : List RigaLista} (h : righeLista nome data ([some i, some n, some d] :: rows) = some ls) :
    ∃ nome₁ data₁ ls₁, scansione (primaRiga n) nome = some nome₁ ∧
      scansione (primaParola d) data = some data₁ ∧ righeLista nome₁ data₁ rows = some ls₁ ∧
      ls = ⟨Buffer.ofInt (strtol i), nome₁, data₁⟩ :: ls₁ := by
  rw [righeLista] at h
  obtain ⟨nome₁, hn, h⟩ := Option.bind_eq_some_iff.mp h
  obtain ⟨data₁, hd, h⟩ := Option.bind_eq_some_iff.mp h
  obtain ⟨ls₁, hls, rfl⟩ := Option.map_eq_some_iff.mp h
  exact ⟨nome₁, data₁, ls₁, hn, hd, hls, rfl⟩

/-- The row can be sent: no column is NULL and the two texts fit their buffers. -/
def Inviabile (row : Row) : Prop :=
  ∃ id nome data, row = [some id, some nome, some data] ∧ (primaRiga nome).length < 255 ∧
    (primaParola data).length < 12

theorem length_righeLista {rows : List Row} : ∀ {nome : Buffer 255} {data : Buffer 12}
    {ls : List RigaLista},
    righeLista nome data rows = some ls → ls.length = rows.length := by
  induction rows with
  | nil => rintro _ _ _ ⟨⟩; rfl
  | cons row rows ih =>
    intro nome data ls h
    unfold righeLista at h
    split at h
    · rename_i heq
      cases heq
    · rename_i heq
      obtain ⟨rfl, rfl⟩ := List.cons.inj heq
      obtain ⟨nome', -, h₁⟩ := Option.bind_eq_some_iff.mp h
      obtain ⟨data', -, h₂⟩ := Option.bind_eq_some_iff.mp h₁
      obtain ⟨ls', h₃, rfl⟩ := Option.map_eq_some_iff.mp h₂
      rw [List.length_cons, List.length_cons, ih h₃]
    · cases h

/-- **A result can be sent exactly when each of its rows can.** The buffers do not matter for that, so
    neither does the order. -/
theorem isSome_righeLista {rows : List Row} : ∀ {nome : Buffer 255} {data : Buffer 12},
    (righeLista nome data rows).isSome ↔ ∀ row ∈ rows, Inviabile row := by
  induction rows with
  | nil => simp [righeLista]
  | cons row rows ih =>
    intro nome data
    rw [List.forall_mem_cons]
    rcases row with _ | ⟨_ | i, _ | ⟨_ | n, _ | ⟨_ | d, _ | _⟩⟩⟩
    case cons.some.cons.some.cons.some.nil =>
      have hinv : Inviabile [some i, some n, some d] ↔
          (primaRiga n).length < 255 ∧ (primaParola d).length < 12 := by simp [Inviabile]
      rw [hinv, ← isSome_scansione (n := 255) (by decide) (b := nome),
        ← isSome_scansione (n := 12) (by decide) (b := data), righeLista]
      cases scansione (primaRiga n) nome with
      | none => simp
      | some nome' =>
        cases scansione (primaParola d) data with
        | none => simp
        | some data' => simp [ih]
    all_goals simp [righeLista, Inviabile]

/-! ## Sending them -/

/-- The count a result is announced with, in four bytes: a list of 2^32 rows would be announced as empty. -/
def conteggio (righe : Nat) : Bytes := (Buffer.ofInt (righe % 2 ^ 32 : Nat)).bytes

/-- The writes of a list. -/
def scrittureElenco (ls : List RigaLista) : List Bytes :=
  conteggio ls.length :: ls.flatMap RigaLista.scritture

namespace Mondo

variable {D : Type} {m : Motore D} {err : Mondo D → Bytes → Prop} {f : Funziona} {x : Esige}
  {w : Mondo D}

/-- `w` after some writes to `fd`. -/
def scritti (w : Mondo D) (fd : Int) (bss : List Bytes) : Mondo D :=
  { w with uscita := w.uscita ++ bss.map (fd, ·) }

@[simp] theorem scritti_nil (w : Mondo D) (fd : Int) : w.scritti fd [] = w := by
  rw [scritti, List.map_nil, List.append_nil]

@[simp] theorem scritti_scritto (w : Mondo D) (fd : Int) (bs : Bytes) (bss : List Bytes) :
    (w.scritto fd bs).scritti fd bss = w.scritti fd (bs :: bss) := by
  simp [scritto, scritti]

/-- The loop over the rows: it writes their records, or overruns a buffer. Each row starts from the two
    buffers as the row before it left them. -/
theorem safe_inviaRighe {fd : Int} {Q : Unit → Mondo D → Prop} {rows : List Row} :
    ∀ {nome : Buffer 255} {data : Buffer 12} {w : Mondo D},
    Compie m err f x (inviaRighe fd nome data rows) Q w ↔
      (righeLista nome data rows).elim (x = .nulla) fun ls =>
        Q () (w.scritti fd (ls.flatMap RigaLista.scritture)) := by
  induction rows with
  | nil =>
    intro nome data w
    simp [inviaRighe, righeLista]
  | cons row rows ih =>
    intro nome data w
    -- a row of three columns, none of them NULL; every other shape is undefined in the source
    rcases row with _ | ⟨_ | i, _ | ⟨_ | n, _ | ⟨_ | d, _ | _⟩⟩⟩
    case cons.some.cons.some.cons.some.nil =>
      simp only [inviaRighe, righeLista, safe_poi, sscanfRiga_eq, sscanfParola_eq]
      cases scansione (primaRiga n) nome with
      | none => exact safe_indefinito
      | some nome' =>
        cases scansione (primaParola d) data with
        | none => exact safe_indefinito
        | some data' =>
          simp only [Option.elim_some, Option.bind_some, Prog.pure_eq, Prog.safe_ret, Prog.op_eq,
            safe_write, ih]
          cases righeLista nome' data' rows with
          | none => exact Iff.rfl
          | some ls => simp [RigaLista.scritture]
    all_goals exact safe_indefinito

/-- A list: the count of the rows, then the rows. -/
theorem safe_inviaRisultato {fd : Int} {Q : Unit → Mondo D → Prop} {rows : List Row} :
    Compie m err f x (inviaRisultato fd (some rows)) Q w ↔ ∀ (nome : Buffer 255) (data : Buffer 12),
      (righeLista nome data rows).elim (x = .nulla) fun ls =>
        Q () (w.scritti fd (scrittureElenco ls)) := by
  simp only [inviaRisultato, Prog.op_eq, Prog.call_bind, Prog.ret_bind, safe_write, safe_indeterminato,
    safe_inviaRighe]
  refine forall₂_congr fun nome data => ?_
  cases h : righeLista nome data rows with
  | none => exact Iff.rfl
  | some ls => simp [scrittureElenco, conteggio, length_righeLista h]

/-! ## The routines of the secretary -/

/-- The end of `accesso`, from the result set of the login query on. -/
def esitoAccesso (s : Segreteria) (connfd : Int) (res : Option (List Row)) : Programma Segreteria := do
  let rows ← numRows res
  if rows ≠ 1 then
    sys (.write connfd (ascii "credenziali non corrette, accesso negato!"))
    pure s
  else
    sys (.write connfd (ascii "credenziali corrette, accesso consentito!"))
    pure { s with dim := s.dim + 1 }

/-- The end of a login: without a result set C defines nothing; with one the answer is written and the
    slot kept or not. -/
theorem safe_esitoAccesso {s : Segreteria} {fd : Int} {res : Option (List Row)}
    {Q : Segreteria → Mondo D → Prop} : Compie m err f x (esitoAccesso s fd res) Q w ↔
      match res with
      | none => x = .nulla
      | some rows => Q (if rows.length % 2 ^ 32 = 1 then { s with dim := s.dim + 1 } else s)
          (w.scritto fd (risposta rows.length)) := by
  cases res with
  | none =>
    rw [esitoAccesso, numRows, indefinito_bind]
    exact safe_indefinito
  | some rows =>
    show Compie m err f x (if rows.length % 2 ^ 32 ≠ 1 then _ else _) Q w ↔ _
    by_cases h : rows.length % 2 ^ 32 = 1
    · rw [if_neg (not_not.mpr h)]
      simp only [risposta, if_pos h]
      exact safe_write
    · rw [if_pos h]
      simp only [risposta, if_neg h]
      exact safe_write

/-- **A login**: it is decided once the query has a result set. Everything before that is the
    connection's own, and everything after it is one write. -/
theorem safe_accesso {s : Segreteria} {Q : Segreteria → Mondo D → Prop} {r r' : Bytes}
    {rest : List Bytes} (hin : w.ingresso = r :: r' :: rest) (hr : r.length ≤ 4) (hr' : r'.length ≤ 255) :
    Compie m err f x s.accesso Q w ↔ ∀ pw, Stringa (s.password.overlay r') pw →
      match esito m f w.db (.login (s.matricolaDopo r).toInt pw), f.mysqlResult with
      | some p, true => Q (s.dopoAccesso r r' p.2.length)
          ((({ w with ingresso := rest } : Mondo D).preso (.login (s.matricolaDopo r).toInt pw) p).scritto
            (s.clientSockets s.dim).connfd (risposta p.2.length))
      | _, _ => x = .nulla := by
  -- the credentials are read first, then MySQL is asked, then one of two texts is written
  have heq : s.accesso = (do
      let r ← sys (.read (s.clientSockets s.dim).connfd 4)
      let r' ← sys (.read (s.clientSockets s.dim).connfd 255)
      sys (.printf (ascii "Matricola: " ++ dec (s.matricolaDopo r).toInt ++ [10]))
      let pw ← cString (s.password.overlay r')
      let _ ← sys (.mysqlQuery (.login (s.matricolaDopo r).toInt pw))
      let res ← sys .mysqlStoreResult
      esitoAccesso (s.credenziali r r') (s.clientSockets s.dim).connfd res) := rfl
  rw [heq]
  simp only [Prog.op_eq, Prog.call_bind, Prog.ret_bind]
  rw [safe_read hin hr, safe_read rfl hr', safe_printf]
  simp only [safe_poi, safe_cString, safe_mysqlQuery, safe_mysqlStoreResult, risultatoDi]
  refine forall₂_congr fun pw _ => ?_
  -- no result set: `mysql_num_rows` is called with NULL
  cases esito m f w.db (.login (s.matricolaDopo r).toInt pw) with
  | none => simp only [dopo, ite_self, safe_esitoAccesso, solo_nulla]
  | some p =>
    simp only [dopo, safe_esitoAccesso]
    cases f.mysqlResult with
    | false => simp only [Bool.false_eq_true, if_false, solo_nulla]
    | true => exact and_iff_right fun _ h => Option.some_ne_none _ h

/-- The end of `visualizzaAppelli`, behind its branches: a result that waits is sent, and where none
    waits nothing is written. -/
theorem safe_coda {fd : Int} {Q : Unit → Mondo D → Prop} :
    Compie m err f x (.call .mysqlStoreResult fun res => inviaRisultato fd res) Q w ↔
      match w.risultatoDi f with
      | some rows => ∀ (nome : Buffer 255) (data : Buffer 12),
        (righeLista nome data rows).elim (x = .nulla) fun ls =>
          Q () (({ w with risultato := none } : Mondo D).scritti fd (scrittureElenco ls))
      | none => x ≠ .maniglie ∧ Q () { w with risultato := none } := by
  rw [safe_mysqlStoreResult]
  cases w.risultatoDi f with
  | some rows => exact (and_iff_right fun _ => nofun).trans safe_inviaRisultato
  | none =>
    exact and_congr senza_null Iff.rfl

/-- **The full list** is sent once the query has a result set; then the code asks for another, which
    does not exist, and passes the NULL on. -/
theorem safe_elencoCompleto {c : ClientStud} {Q : Unit → Mondo D → Prop} {rest : List Bytes}
    (hin : w.ingresso = (Buffer.ofInt 1).bytes :: rest) :
    Compie m err f x (visualizzaAppelli c) Q w ↔
      match esito m f w.db (.appelli c.matricola.toInt), f.mysqlResult with
      | some p, true => ∀ (nome : Buffer 255) (data : Buffer 12),
        (righeLista nome data p.2).elim (x = .nulla) fun ls => x ≠ .maniglie ∧
          Q () ((({ w with ingresso := rest } : Mondo D).preso (.appelli c.matricola.toInt) p).scritti
            c.connfd (scrittureElenco ls))
      | e, _ => x ≠ .maniglie ∧ Q () { ({ w with ingresso := rest } : Mondo D).dopo
          (.appelli c.matricola.toInt) e with risultato := none } := by
  have hreq : ∀ b : Buffer 4, (b.overlay (Buffer.ofInt 1).bytes).toInt = 1 := fun b => by
    rw [Buffer.overlay_full]; decide
  simp only [visualizzaAppelli, Prog.op_eq, Prog.call_bind, Prog.ret_bind, safe_indeterminato]
  refine (forall_congr' fun b => safe_read hin (Nat.le_of_eq (Buffer.ofInt 1).size_eq)).trans ?_
  simp only [hreq, if_true, safe_mysqlQuery]
  refine (forall_const _).trans ?_
  cases esito m f w.db (.appelli c.matricola.toInt) with
  | none =>
    simp only [Option.isSome_none, Bool.false_eq_true, if_false, safe_coda, risultatoDi, dopo, ite_self]
  | some p =>
    -- the list is sent in its branch; then the code behind both branches asks for a result once more
    simp only [Option.isSome_some, if_true, safe_mysqlStoreResult, safe_poi, risultatoDi, dopo]
    cases f.mysqlResult with
    | false =>
      simp only [Bool.false_eq_true, if_false, senza_null]
      exact and_congr_right fun hx => and_iff_right hx
    | true =>
      simp only [if_true, safe_inviaRisultato]
      refine (and_iff_right fun _ => nofun).trans (forall₂_congr fun nome data => ?_)
      cases righeLista nome data p.2 with
      | none => exact Iff.rfl
      | some ls => exact and_congr senza_null Iff.rfl

/-- **The list of one exam** is sent once the query has a result set; without one nothing is sent, and
    the student waits. -/
theorem safe_elencoEsame {c : ClientStud} {Q : Unit → Mondo D → Prop} {r : Bytes} {rest : List Bytes}
    (hin : w.ingresso = (Buffer.ofInt 2).bytes :: r :: rest) (hr : r.length ≤ 255) :
    Compie m err f x (visualizzaAppelli c) Q w ↔
      ∀ exam, Stringa ((Buffer.zero 255).overlay r) exam →
      match esito m f w.db (.appelliEsame c.matricola.toInt exam), f.mysqlResult with
      | some p, true => ∀ (nome : Buffer 255) (data : Buffer 12),
        (righeLista nome data p.2).elim (x = .nulla) fun ls =>
          Q () ((({ w with ingresso := rest } : Mondo D).preso
            (.appelliEsame c.matricola.toInt exam) p).scritti c.connfd (scrittureElenco ls))
      | e, _ => x ≠ .maniglie ∧ Q () { ({ w with ingresso := rest } : Mondo D).dopo
          (.appelliEsame c.matricola.toInt exam) e with risultato := none } := by
  -- the first read brings the 2 of the choice, whatever the variable held
  have hreq : ∀ b : Buffer 4, (b.overlay (Buffer.ofInt 2).bytes).toInt = 2 := fun b => by
    rw [Buffer.overlay_full]; decide
  simp only [visualizzaAppelli, Prog.op_eq, Prog.call_bind, Prog.ret_bind, safe_indeterminato]
  refine (forall_congr' fun b => safe_read hin (Nat.le_of_eq (Buffer.ofInt 2).size_eq)).trans ?_
  simp only [hreq, show ¬ (2 : Int) = 1 by decide, if_false, if_true]
  refine (forall_const _).trans ?_
  rw [safe_read rfl hr, safe_poi, safe_cString]
  simp only [safe_mysqlQuery, safe_coda, risultatoDi]
  refine forall₂_congr fun exam _ => ?_
  cases esito m f w.db (.appelliEsame c.matricola.toInt exam) with
  | none => simp only [dopo, ite_self]
  | some p =>
    cases f.mysqlResult with
    | false => exact Iff.rfl
    | true => exact Iff.rfl

end Mondo

end Universita

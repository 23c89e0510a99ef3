/-
  A STUDENT AND THE SECRETARY — the two programs over one connection.

  The student's program runs against the secretary's loop.  The connection carries bytes; what was
  written and not yet read is kept write by write, and a `read` may deliver any beginning of it.  The
  secretary has other students and an operator as well: on other descriptors it is answered anything.
  MySQL executes every statement; a result set can be fetched once.

  What the two say to each other has a grammar, in each direction a machine.  Upwards the student decides: a
  login, then codes, each with what belongs to it.  Downwards the secretary OWES: each message of the student
  adds to a list of replies that are due, and the number in front of a list adds the fields of its
  records.  Neither program knows the grammar; each just reads and writes in its own order, and the model says
  when the two orders are one.

  A list can begin with a count that is no number of rows: the student takes it as an `int`, and for 2^31
  rows and more it would be negative.  The conditions of this file (`Regolare`) name that, with the two other
  choices that leave a program out of step: a number that asks for neither of the lists, and an exam without a
  name, which is a write of no bytes.

  Contents:
  1. `Fase` — what the student sends next; `Fase.azioni`, what the secretary is to do on a message, and
     `Fase.dovute`, what it owes the student for it.
  2. `avanza` — what is owed after a reply: the count of a list turns into its records.
  3. `record` — the records among the replies.
  4. `Colloquio`, `colloquio` — the world and the composition.
  5. `Colloquio.Intera`, `Colloquio.Regolare` — conditions on a move.
  6. `scambio` — where every read takes one write, what was sent is what was read, then what is in flight.
-/
import Universita.Lib.Duo
import Universita.Lib.Mealy
import Universita.Elenco
import Universita.Sistema
import Universita.Studente

set_option linter.unusedVariables false

namespace Universita

open Lib

/-! ## The messages of a student -/

/-- The `int` in a message. -/
def intero (r : Bytes) : Int := ((Buffer.zero 4).overlay r).toInt

/-- The four bytes of an `int` are that `int`. -/
theorem intero_bytes (b : Buffer 4) : intero b.bytes = b.toInt := by
  rw [intero, Buffer.overlay_full]

/-- A whole `int` replaces whatever the variable held. -/
theorem overlay_toInt (b : Buffer 4) {r : Bytes} (hr : r.length = 4) : (b.overlay r).toInt = intero r :=
  congrArg Buffer.toInt ((Buffer.overlay_full b ⟨r, hr⟩).trans (Buffer.overlay_full (Buffer.zero 4) ⟨r, hr⟩).symm)

/-- What comes next from the student; behind the matricola and the code of an appello, with the message
    they were in. -/
inductive Fase where
  | matricola
  | password (m : Bytes)
  | codice
  | scelta
  | esame
  | cod
  | mat (c : Bytes)
  | fuori
deriving DecidableEq

/-- The phase after a request code. -/
def Fase.dopoCodice (req : Int) : Fase :=
  if req = 1 then .scelta else if req = 2 then .cod else if req = 3 then .fuori else .codice

/-- The phase after a message, `none` when it cannot be said there: an int is four bytes, a password is
    its whole buffer, and the name of an exam a text without NUL that fits. -/
def Fase.passo : Fase → Bytes → Option Fase
  | .matricola, r => if r.length = 4 then some (.password r) else none
  | .password _, r => if r.length = 255 ∧ 0 ∈ r then some .codice else none
  | .codice, r => if r.length = 4 then some (dopoCodice (intero r)) else none
  | .scelta, r =>
      if r.length = 4 then
        if intero r = 1 then some .codice else if intero r = 2 then some .esame else none
      else none
  | .esame, r => if 0 < r.length ∧ r.length < 255 ∧ 0 ∉ r then some .codice else none
  | .cod, r => if r.length = 4 then some (.mat r) else none
  | .mat _, r => if r.length = 4 then some .codice else none
  | .fuori, _ => none

/-- What the secretary does for a student: a statement, or a write to the server. -/
inductive Azione where
  | accesso (matricola : Int) (password : Bytes)
  | elenco
  | cerca (esame : Bytes)
  | inoltro (r : Bytes)
deriving DecidableEq

/-- What the secretary is to do on a message. -/
def Fase.azioni : Fase → Bytes → List Azione
  | .password m, r => [.accesso (intero m) (cstr r)]
  | .codice, r => if intero r = 2 then [.inoltro r] else []
  | .scelta, r => if intero r = 1 then [.elenco] else []
  | .esame, r => [.cerca r]
  | .mat c, r => [.inoltro c, .inoltro r]
  | _, _ => []

/-! ## The replies -/

/-- A reply the student waits for: a text, or a field of a list. -/
inductive Atteso where
  /-- A text: the answer to a login or to a booking. -/
  | una
  /-- The number of rows of a list. -/
  | conta
  /-- The three fields of a record. -/
  | id
  | nome
  | data
deriving DecidableEq

/-- What the student is owed for a message. -/
def Fase.dovute : Fase → Bytes → List Atteso
  | .password _, _ | .mat _, _ => [.una]
  | .scelta, r => if intero r = 1 then [.conta] else []
  | .esame, _ => [.conta]
  | _, _ => []

/-- The fields of `n` records. -/
def campi : Nat → List Atteso
  | 0 => []
  | n + 1 => .id :: .nome :: .data :: campi n

/-- The size of a reply; a text is never as long as a date. By sizes alone the replies of a conversation
    can be told apart. -/
def Atteso.Misura : Atteso → Bytes → Prop
  | .una, r => r.length ≠ 12
  | .conta, r | .id, r => r.length = 4
  | .nome, r => r.length = 255
  | .data, r => r.length = 12

instance Atteso.decidableMisura : (a : Atteso) → (r : Bytes) → Decidable (a.Misura r)
  | .una, r => inferInstanceAs (Decidable (r.length ≠ 12))
  | .conta, r | .id, r => inferInstanceAs (Decidable (r.length = 4))
  | .nome, r => inferInstanceAs (Decidable (r.length = 255))
  | .data, r => inferInstanceAs (Decidable (r.length = 12))

/-- What a reply announces. -/
def Atteso.apre : Atteso → Bytes → List Atteso
  | .conta, r => campi (intero r).toNat
  | _, _ => []

/-- What is owed after a reply, `none` when it is not the next one owed: a reply pays one debt, and the
    count of a list opens three for each record. -/
def avanza : List Atteso → Bytes → Option (List Atteso)
  | [], _ => none
  | a :: ds, r => if a.Misura r then some (a.apre r ++ ds) else none

/-- The reply is the first one owed, and what it announces is owed next: for a count that many records,
    for all others nothing. -/
theorem avanza_cons {a : Atteso} {ds ds' : List Atteso} {r : Bytes} :
    avanza (a :: ds) r = some ds' ↔ a.Misura r ∧ a.apre r ++ ds = ds' := by
  rw [avanza]
  split
  · rename_i hr
    exact ⟨fun h => ⟨hr, Option.some.inj h⟩, fun h => congrArg some h.2⟩
  · rename_i hr
    constructor
    · intro h
      cases h
    · exact fun h => absurd h.1 hr

/-- A debt that is not due yet does not matter. -/
theorem avanza_append {ds ds' : List Atteso} {r : Bytes} (es : List Atteso) (h : avanza ds r = some ds') :
    avanza (ds ++ es) r = some (ds' ++ es) := by
  cases ds with
  | nil => cases h
  | cons a ds =>
    obtain ⟨hr, rfl⟩ := avanza_cons.mp h
    exact avanza_cons.mpr ⟨hr, (List.append_assoc _ _ _).symm⟩

/-- What is left of the debts `ds` after the replies `rs`. -/
abbrev resto (ds : List Atteso) (rs : List Bytes) : Option (List Atteso) := Mealy.run avanza ds rs

/-- Debts that are not due yet do not matter, for any number of replies. -/
theorem resto_append (es : List Atteso) (rs : List Bytes) : ∀ {ds ds' : List Atteso},
    resto ds rs = some ds' → resto (ds ++ es) rs = some (ds' ++ es) := by
  induction rs with
  | nil =>
    rintro ds ds' ⟨⟩
    rfl
  | cons r rs ih =>
    intro ds ds' h
    obtain ⟨ds₁, h1, h2⟩ := Option.bind_eq_some_iff.mp h
    exact Option.bind_eq_some_iff.mpr ⟨_, avanza_append es h1, ih h2⟩

/-- A record as it is sent, from its three writes. -/
def RigaLista.daScritture (id nome data : Bytes) : RigaLista :=
  ⟨(Buffer.zero 4).overlay id, (Buffer.zero 255).overlay nome, (Buffer.zero 12).overlay data⟩

/-- The records among some writes: a write of the size of a date closes one, with the two before it. No
    text is of that size. -/
def record (rs : List Bytes) : List RigaLista :=
  Mealy.outs (fun (p : Bytes × Bytes) r => some (p.2, r))
    (fun p r => if r.length = 12 then [RigaLista.daScritture p.1 p.2 r] else []) ([], []) rs

/-- The machine that remembers the last two writes reads everything. -/
theorem run_ultimi (rs : List Bytes) : ∀ p : Bytes × Bytes,
    ∃ q, Mealy.run (fun (p : Bytes × Bytes) r => some (p.2, r)) p rs = some q := by
  induction rs with
  | nil => exact fun p => ⟨p, rfl⟩
  | cons r rs ih => exact fun p => ih (p.2, r)

/-- A write of another size closes no record. -/
theorem record_concat {r : Bytes} (rs : List Bytes) (hr : r.length ≠ 12) :
    record (rs ++ [r]) = record rs := by
  obtain ⟨q, hq⟩ := run_ultimi rs ([], [])
  rw [record, Mealy.outs_concat hq, if_neg hr, List.append_nil]
  rfl

/-- Three writes of the sizes of a record are one. -/
theorem record_tre {id nome data : Bytes} (rs : List Bytes) (hid : id.length = 4)
    (hnome : nome.length = 255)
    (hdata : data.length = 12) :
    record (rs ++ [id, nome, data]) = record rs ++ [RigaLista.daScritture id nome data] := by
  obtain ⟨q, hq⟩ := run_ultimi rs ([], [])
  rw [record, Mealy.outs_append _ hq]
  simp [Mealy.outs, hid, hnome, hdata, record]

/-- More writes, more records: those there were stay. -/
theorem record_mono {rs rs' : List Bytes} (h : rs <+: rs') : record rs <+: record rs' :=
  Mealy.outs_mono h

/-- The line `testo` shows the record `l`: its number, and strings that can be found in its two buffers. -/
def RigaLista.Mostra (l : RigaLista) (testo : Bytes) : Prop :=
  ∃ nome data, Stringa l.nome nome ∧ Stringa l.data data ∧
    testo = dec l.id.toInt ++ [9] ++ nome ++ [9] ++ data ++ [10]

/-! ## The connection -/

/-- The writes `q` after the first `k` bytes were read: the boundaries of the writes are kept for the
    sake of the statement, and no read has to respect them. -/
def togli : Nat → List Bytes → List Bytes
  | 0, q => q
  | _ + 1, [] => []
  | k + 1, m :: q => if k + 1 < m.length then m.drop (k + 1) :: q else togli (k + 1 - m.length) q

/-- A read of size `n` delivers `r`: some bytes of what was written and not yet read, from its front. A
    read of an empty connection has no answer. -/
def preleva (n : Nat) (q : List Bytes) (r : Bytes) : Option (List Bytes) :=
  if r ≠ [] ∧ r.length ≤ n ∧ r <+: q.flatten then some (togli r.length q) else none

/-- A read that takes exactly the first write. -/
theorem preleva_cons {n : Nat} {q q' : List Bytes} {r : Bytes} (h : preleva n (r :: q) r = some q') :
    q' = q := by
  rw [preleva] at h
  split at h
  · rename_i hr
    obtain ⟨k, hk⟩ := Nat.exists_eq_succ_of_ne_zero (mt List.length_eq_zero_iff.mp hr.1)
    rw [← Option.some.inj h, hk, togli, if_neg (Nat.not_lt.mpr (Nat.le_of_eq hk)),
      Nat.sub_eq_zero_of_le (Nat.le_of_eq hk.symm)]
    cases q <;> rfl
  · cases h

/-- What a write puts on the connection: an empty write puts nothing. -/
def pezzo (bs : Bytes) : List Bytes := if bs = [] then [] else [bs]

/-- A write that is not empty puts itself. -/
theorem pezzo_of_ne {bs : Bytes} (h : bs ≠ []) : pezzo bs = [bs] := if_neg h

/-- The call is a read. -/
def Sys.Legge : Sys → Prop
  | .read _ _ => True
  | _ => False

/-! ## The world -/

/-- What the student was seen to do. -/
structure LatoStudente where
  /-- The writes. -/
  inviati : List Bytes
  /-- The reads. -/
  ricevuti : List Bytes
  /-- The lines printed for the rows of a list. -/
  mostrate : List Bytes
  /-- The size of the last read, since the last write. -/
  ultima : Nat

/-- The secretary's side of the student's connection, and what it was seen to do for the student. -/
structure LatoSportello where
  /-- The descriptor of the connection, while it is open. -/
  nostro : Option Int
  /-- Connections accepted so far. -/
  accettate : Nat
  /-- A result set waits to be fetched. -/
  pendente : Bool
  /-- The last student read from is this one. -/
  corrente : Bool
  /-- The reads from the student. -/
  letti : List Bytes
  /-- The writes to the student. -/
  scritti : List Bytes
  azioni : List Azione

/-- The world: both sides of the connection, and what is in flight in either direction. -/
structure Colloquio where
  /-- The student's side. -/
  stud : LatoStudente
  /-- The secretary's. -/
  seg : LatoSportello
  /-- Written by the student, not yet read. -/
  su : List Bytes
  /-- Written by the secretary, not yet read. -/
  giu : List Bytes

/-- What a statement does for the student it is issued for. -/
def azione : Query → List Azione
  | .login mat pw => [.accesso mat pw]
  | .appelli _ => [.elenco]
  | .appelliEsame _ t => [.cerca t]
  | _ => []

/-- The secretary's side after the answer `r` to `o`.  Its socket to the server is `sockfd`; it accepts
    the student as connection `numero`. -/
def LatoSportello.chiama (sockfd : Int) (numero : Nat) (l : LatoSportello) :
    (o : Sys) → o.Ans → Option LatoSportello
  | .select _ rs ws, pronti => if sottoinsiemi rs ws pronti then some l else none
  | .accept _, fd =>
      if fd = sockfd ∨ l.nostro = some fd then none
      else if fd < 0 then some l
      else if l.accettate = numero then
        some { l with nostro := some fd, accettate := l.accettate + 1, corrente := true }
      else some { l with accettate := l.accettate + 1, corrente := false }
  | .read fd n, r =>
      if l.nostro = some fd then some { l with letti := l.letti ++ [r], corrente := true }
      else if r.length ≤ n then some { l with corrente := l.corrente && decide (fd = sockfd) } else none
  | .write fd bs, _ => some (
      if l.nostro = some fd then { l with scritti := l.scritti ++ pezzo bs }
      else if fd = sockfd ∧ l.corrente then { l with azioni := l.azioni ++ [.inoltro bs] } else l)
  | .close fd, _ => some (if l.nostro = some fd then { l with nostro := none } else l)
  | .mysqlQuery q, ok =>
      if ok then some { l with pendente := true, azioni := l.azioni ++ if l.corrente then azione q else [] }
      else none
  | .mysqlStoreResult, res =>
      if res.isSome = l.pendente then some { l with pendente := false } else none
  | .scanf, _ => some { l with corrente := false }
  | _, _ => some l

namespace Colloquio

/-- An answer to the student.  It has one socket; a row of a list is what it prints after a date. -/
def perStudente (e : Colloquio) : (o : Sys) → o.Ans → Option Colloquio
  | .read _ n, r => (preleva n e.giu r).map fun giu =>
      { e with giu, stud := { e.stud with ricevuti := e.stud.ricevuti ++ [r], ultima := n } }
  | .write _ bs, _ => some
      { e with su := e.su ++ pezzo bs,
               stud := { e.stud with inviati := e.stud.inviati ++ pezzo bs, ultima := 0 } }
  | .printf testo, _ => some (if e.stud.ultima = 12 then
      { e with stud := { e.stud with mostrate := e.stud.mostrate ++ [testo] } } else e)
  | .fgets n, riga => if riga.elim true fun riga => decide (riga.length < n) then some e else none
  | _, _ => some e

/-- What an answer to the secretary does to the two directions of the connection. -/
def daSegreteria (e : Colloquio) : (o : Sys) → o.Ans → Option (List Bytes × List Bytes)
  | .read fd n, r => if e.seg.nostro = some fd then (preleva n e.su r).map (·, e.giu) else some (e.su, e.giu)
  | .write fd bs, _ => some (e.su, if e.seg.nostro = some fd then e.giu ++ pezzo bs else e.giu)
  | _, _ => some (e.su, e.giu)

/-- An answer to the secretary. -/
def perSegreteria (sockfd : Int) (numero : Nat) (e : Colloquio) (o : Sys) (r : o.Ans) :
    Option Colloquio := do
  let seg ← e.seg.chiama sockfd numero o r
  let (su, giu) ← e.daSegreteria o r
  pure { e with seg, su, giu }

end Colloquio

/-- Where the student's program is. -/
inductive PuntoStud where
  /-- In front of the login. -/
  | accesso (s : ProgStudente)
  /-- At the head of the menu loop. -/
  | menu (s : ProgStudente)

/-- The student's program: the login, then the menu loop. -/
def ProgStudente.giro : PuntoStud → Programma PuntoStud
  | .accesso s => do
      let s ← s.accesso
      pure (.menu s)
  | .menu s => do
      let s ← s.passo
      pure (.menu s)

/-- The variables of the student's program at its start: none has an initializer. -/
def ProgStudente.iniziale (sockfd : Int) (request req mat : Buffer 4) : ProgStudente :=
  { sockfd, request := request.toInt, req := req.toInt, mat }

/-- **The composition** of the student's program and the secretary's loop, over the connection that is
    accepted as the `numero`-th. All other students are part of the answers to the secretary. -/
def colloquio (sockfd : Int) (numero : Nat) :
    Duo Sys Sys.Ans PuntoStud (Punto × Segreteria) Colloquio where
  body₁ := ProgStudente.giro
  body₂ := Segreteria.passo
  ans₁ e o r := e.perStudente o r
  ans₂ e o r := e.perSegreteria sockfd numero o r

/-- A state of the composition. -/
abbrev StatoColloquio := Duo.State Sys Sys.Ans PuntoStud (Punto × Segreteria) Colloquio

/-- The start: nothing was said yet. -/
def saluto (st : ProgStudente) (s : Segreteria) : StatoColloquio where
  turn₁ := .accesso st
  trace₁ := []
  prog₁ := .ret (.accesso st)
  turn₂ := (.esterno, s)
  trace₂ := []
  prog₂ := .ret (.esterno, s)
  env := ⟨⟨[], [], [], 0⟩, ⟨none, 0, false, false, [], [], []⟩, [], []⟩

/-- The phase the student is in, by what it sent. -/
def LatoStudente.fase (l : LatoStudente) : Option Fase := Mealy.run Fase.passo .matricola l.inviati

/-- ... and by what the secretary has read. -/
def LatoSportello.fase (l : LatoSportello) : Option Fase := Mealy.run Fase.passo .matricola l.letti

/-- What the secretary is to do on these messages. -/
def attese (ms : List Bytes) : List Azione := Mealy.outs Fase.passo Fase.azioni .matricola ms

/-- What the student is owed for these messages. -/
def dovute (ms : List Bytes) : List Atteso := Mealy.outs Fase.passo Fase.dovute .matricola ms

namespace Colloquio

/-- A read of the student takes exactly one write. -/
def InteraStud (e : Colloquio) : (o : Sys) → o.Ans → Prop
  | .read _ _, r => e.giu.head? = some r
  | _, _ => True

/-- A read of the secretary on the connection takes exactly one write. -/
def InteraSeg (e : Colloquio) : (o : Sys) → o.Ans → Prop
  | .read fd _, r => e.seg.nostro = some fd → e.su.head? = some r
  | _, _ => True

/-- Every read on the connection takes exactly one write: no cut falls inside a write, and no read takes
    two. It is the assumption of those who write such programs. -/
def Intera (d : StatoColloquio) : Duo.Move Sys Sys.Ans → Prop
  | .act₁ o r => InteraStud d.env o r
  | .act₂ o r => InteraSeg d.env o r
  | _ => True

/-- The number a list is asked for with: the last one typed, where nothing is. -/
def sceltaDi (s : ProgStudente) (r : Option Int) : Int := r.elim s.req fun n => (Buffer.ofInt n).toInt

/-- The list the student chooses is one of the two; the name of an exam it types is not empty; a list
    has less than `2 ^ 31` rows. -/
def Regolare (d : StatoColloquio) : Duo.Move Sys Sys.Ans → Prop
  | .act₁ .scanf r => d.env.stud.fase = some .scelta → ∀ s, d.turn₁ = .menu s → sceltaDi s r ∈ [1, 2]
  | .act₁ (.fgets _) riga => d.env.stud.fase = some .esame → ∀ riga', riga = some riga' →
      (cstr ((Buffer.zero 255).overlay (riga' ++ [0])).bytes).length ≠ 1
  | .act₂ .mysqlStoreResult res => ∀ rows, res = some rows → rows.length < 2 ^ 31
  | _ => True

end Colloquio

/-! ## The exchange -/

/-- What was sent on the connection is what was read from it, then what is in flight. -/
structure Scambio (e : Colloquio) : Prop where
  /-- What the student sent was read by the secretary, or is on its way ... -/
  su : e.stud.inviati = e.seg.letti ++ e.su
  /-- ... and the same downwards. -/
  giu : e.seg.scritti = e.stud.ricevuti ++ e.giu

namespace Colloquio

variable {e e' : Colloquio} {sockfd : Int} {numero : Nat}

/-- A read that takes the first write moves it from the queue to what was read. -/
theorem preleva_intera {n : Nat} {q q' visti : List Bytes} {r : Bytes} (hr : q.head? = some r)
    (h : preleva n q r = some q') : visti ++ [r] ++ q' = visti ++ q := by
  cases q with
  | nil => cases hr
  | cons m q =>
    obtain rfl := Option.some.inj hr
    rw [preleva_cons h, List.append_assoc, List.singleton_append]

/-- A move of the student keeps it: a write joins the queue, a read takes its first write. -/
theorem perStudente_scambio {o : Sys} {r : o.Ans} (h : e.perStudente o r = some e')
    (hr : InteraStud e o r) (he : Scambio e) : Scambio e' := by
  have fermo : some e = some e' → Scambio e' := fun heq => Option.some.inj heq ▸ he
  -- a read moves bytes from what is in flight to what was read, a write adds to what is in flight
  cases o with
  | read fd n =>
    obtain ⟨giu, hp, rfl⟩ := Option.map_eq_some_iff.mp h
    exact ⟨he.su, he.giu.trans (preleva_intera hr hp).symm⟩
  | write fd bs =>
    obtain rfl := Option.some.inj h
    exact ⟨by rw [he.su, List.append_assoc], he.giu⟩
  | printf testo =>
    rw [perStudente] at h
    split at h
    · obtain rfl := Option.some.inj h
      exact ⟨he.su, he.giu⟩
    · exact fermo h
  | fgets n =>
    rw [perStudente] at h
    split at h
    · exact fermo h
    · cases h
  | _ => exact fermo h

/-- An answer to the secretary: what its side admits, and what it does to the two queues. -/
theorem perSegreteria_eq_some {o : Sys} {r : o.Ans} : e.perSegreteria sockfd numero o r = some e' ↔
    e.seg.chiama sockfd numero o r = some e'.seg ∧ e.daSegreteria o r = some (e'.su, e'.giu) ∧
      e'.stud = e.stud := by
  simp only [perSegreteria, Option.bind_eq_bind, Option.bind_eq_some_iff, Option.pure_def,
    Option.some.injEq]
  constructor
  · rintro ⟨seg, h1, p, h2, rfl⟩
    exact ⟨h1, h2, rfl⟩
  · rintro ⟨h1, h2, h3⟩
    exact ⟨_, h1, _, h2, by rw [← h3]⟩

/-- Only reads and writes of the student's descriptor add to what was read and written; the other calls,
    among them those about other students, leave both records alone. -/
theorem chiama_letti {l l' : LatoSportello} {o : Sys} {r : o.Ans}
    (h : l.chiama sockfd numero o r = some l')
    (hr : ∀ fd n, o ≠ .read fd n) (hw : ∀ fd bs, o ≠ .write fd bs) :
    l'.letti = l.letti ∧ l'.scritti = l.scritti := by
  -- one case a call: what is not a read or a write leaves both records alone
  cases o with
  | read fd n => exact absurd rfl (hr fd n)
  | write fd bs => exact absurd rfl (hw fd bs)
  | close fd =>
    obtain rfl := Option.some.inj h
    split
    · exact ⟨rfl, rfl⟩
    · exact ⟨rfl, rfl⟩
  | accept fd =>
    rw [LatoSportello.chiama] at h
    split at h
    · cases h
    · split at h
      · exact Option.some.inj h ▸ ⟨rfl, rfl⟩
      · split at h
        · exact Option.some.inj h ▸ ⟨rfl, rfl⟩
        · exact Option.some.inj h ▸ ⟨rfl, rfl⟩
  | select n rs ws =>
    rw [LatoSportello.chiama] at h
    split at h
    · exact Option.some.inj h ▸ ⟨rfl, rfl⟩
    · cases h
  | mysqlQuery q =>
    rw [LatoSportello.chiama] at h
    split at h
    · exact Option.some.inj h ▸ ⟨rfl, rfl⟩
    · cases h
  | mysqlStoreResult =>
    rw [LatoSportello.chiama] at h
    split at h
    · exact Option.some.inj h ▸ ⟨rfl, rfl⟩
    · cases h
  | _ => exact Option.some.inj h ▸ ⟨rfl, rfl⟩

/-- A move of the secretary keeps it, likewise: a write to the student joins his queue, and a read of
    his takes the first write. -/
theorem perSegreteria_scambio {o : Sys} {r : o.Ans} (h : e.perSegreteria sockfd numero o r = some e')
    (hr : InteraSeg e o r) (he : Scambio e) : Scambio e' := by
  obtain ⟨hseg, hcode, hstud⟩ := perSegreteria_eq_some.mp h
  have altro : (∀ fd n, o ≠ .read fd n) → (∀ fd bs, o ≠ .write fd bs) →
      some (e.su, e.giu) = some (e'.su, e'.giu) → Scambio e' := by
    intro hor how heq
    obtain ⟨hsu, hgiu⟩ := Prod.mk.inj (Option.some.inj heq)
    obtain ⟨hl, hs⟩ := chiama_letti hseg hor how
    exact ⟨by rw [hstud, hl, ← hsu, he.su], by rw [hstud, hs, ← hgiu, he.giu]⟩
  -- a read or a write, on the student's descriptor or another, or a call that is neither
  cases o with
  | read fd n =>
    simp only [LatoSportello.chiama] at hseg
    simp only [daSegreteria] at hcode
    by_cases hn : e.seg.nostro = some fd
    · rw [if_pos hn] at hseg hcode
      obtain ⟨su, hp, heq⟩ := Option.map_eq_some_iff.mp hcode
      obtain ⟨rfl, hgiu⟩ := Prod.mk.inj heq
      have hseg := Option.some.inj hseg
      -- a whole read takes the first of the writes in flight
      exact ⟨by rw [hstud, he.su, ← hseg]; exact (preleva_intera (hr hn) hp).symm,
        by rw [hstud, ← hseg, ← hgiu]; exact he.giu⟩
    · rw [if_neg hn] at hseg hcode
      obtain ⟨hsu, hgiu⟩ := Prod.mk.inj (Option.some.inj hcode)
      split at hseg
      · have hseg := Option.some.inj hseg
        exact ⟨by rw [hstud, ← hseg, ← hsu]; exact he.su, by rw [hstud, ← hseg, ← hgiu]; exact he.giu⟩
      · cases hseg
  | write fd bs =>
    obtain ⟨hsu, hgiu⟩ := Prod.mk.inj (Option.some.inj hcode)
    have hseg := Option.some.inj hseg
    by_cases hn : e.seg.nostro = some fd
    · rw [if_pos hn] at hseg hgiu
      exact ⟨by rw [hstud, ← hseg, ← hsu]; exact he.su,
        by rw [hstud, ← hseg, ← hgiu, ← List.append_assoc, ← he.giu]⟩
    · rw [if_neg hn] at hseg hgiu
      have hl : e'.seg.letti = e.seg.letti ∧ e'.seg.scritti = e.seg.scritti := by
        rw [← hseg]
        split
        · exact ⟨rfl, rfl⟩
        · exact ⟨rfl, rfl⟩
      exact ⟨by rw [hstud, hl.1, ← hsu, he.su], by rw [hstud, hl.2, ← hgiu, he.giu]⟩
  | _ => exact altro nofun nofun hcode

/-- **Where every read takes one write**, nothing is lost, doubled or cut on the way: what was sent is
    what was read, write by write, then what is in flight. -/
theorem scambio {C : StatoColloquio → Duo.Move Sys Sys.Ans → Prop} (hC : ∀ d m, C d m → Intera d m)
    {st : ProgStudente} {s : Segreteria} {d : StatoColloquio}
    (hd : (colloquio sockfd numero).Reach C (saluto st s) d) : Scambio d.env := by
  refine Duo.Reach.invariant (J := fun d => Scambio d.env) ⟨rfl, rfl⟩ ?_ hd
  intro d m d' _ he hm hs
  cases m with
  | turn₁ => obtain ⟨_, -, rfl⟩ := Duo.step_turn₁ _ hs; exact he
  | turn₂ => obtain ⟨_, -, rfl⟩ := Duo.step_turn₂ _ hs; exact he
  | act₁ o r =>
    obtain ⟨_, e, -, ha, rfl⟩ := Duo.step_act₁ _ hs
    exact perStudente_scambio ha (hC d _ hm) he
  | act₂ o r =>
    obtain ⟨_, e, -, ha, rfl⟩ := Duo.step_act₂ _ hs
    exact perSegreteria_scambio ha (hC d _ hm) he

end Colloquio

end Universita

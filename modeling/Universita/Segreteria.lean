/-
  THE SECRETARY — `segreteria.c`, the program between the students and the university server.

  It is a client of the server and a server for the students, in one thread: it accepts students, checks
  their credentials in the database, and serves one request of each student that has sent something.  Once a
  round it asks its operator whether an appello is to be added.

  `Segreteria` holds the variables of `main` that outlive an iteration.  The main loop consists of three
  loops: an outer one, in it a loop that accepts connections, then a loop over the logged-in students.
  One turn of the model is one iteration of one of them, or the operator's menu; `Punto` says which
  comes next.  Everything before the outer loop (sockets, the connection to MySQL) is the initial
  state.

  What the translation keeps, because it decides what the secretary does:
    * the slots of the table are never reused, and `dim` grows with every login that succeeds; a refused
      connection stays in slot `dim` and in `master_set`, and the next accept overwrites it;
    * the sets are copied from `master_set` once a round and reduced by every `select` of the accepting
      loop, so what the loop over the students sees is the LAST reduction, a newcomer not among it;
    * `behaviour` is one variable for all students, and a read that delivers nothing leaves the last value;
    * a booking is forwarded with the matricola the student sent, not with the one of the slot;
    * the block that sends a result stands in the source twice, the second time behind both choices;
    * behind a refused statement the login counts the rows of a result that is not there; the block that sends a
      list looks whether there is one.

  Contents:
  1. `ClientStud`, `Segreteria`, `Segreteria.iniziale`, `Punto`.
  2. `accetta` — accept a connection and check its credentials.
  3. `visualizzaAppelli`, `prenota`, `logout`, `servi` — one student's request.
  4. `operatore` — the menu that adds an appello.
  5. `passo` — one turn.
-/
import Universita.Chiamate

set_option linter.unusedVariables false

namespace Universita

open Lib

/-! ## Variables -/

/-- `Client_stud`: a slot of the table of students. -/
structure ClientStud where
  /-- The descriptor of the connection, `-1` after a logout. -/
  connfd : Int
  /-- What was read of the matricola. -/
  matricola : Buffer 4

/-- The variables of `main` that outlive an iteration, under the source's names. -/
structure Segreteria where
  /-- The connection with the university server. -/
  sockfd : Int
  /-- The socket students connect to. -/
  listenfd : Int
  /-- What the last student asked for. -/
  behaviour : Buffer 4
  /-- What the operator chose. -/
  logical : Int
  /-- The number of students let in so far. -/
  dim : Nat
  /-- The name of an exam the operator typed, the date, and the server's answer. -/
  name : Buffer 255
  date : Buffer 12
  result : Buffer 255
  /-- The password last read, of whichever student. -/
  password : Buffer 255
  /-- The table of students: 4096 slots in the source, and a store past them is no store into the table. -/
  clientSockets : Nat → ClientStud
  /-- What `select` left of `read_set` and `write_set`, and the set both are filled from. -/
  readSet : List Int
  writeSet : List Int
  masterSet : List Int
  /-- The highest descriptor seen. -/
  maxFd : Int

/-- Where the main loop is. -/
inductive Punto where
  /-- The head of the outer loop. -/
  | esterno
  /-- The head of the loop that accepts connections. -/
  | accetta
  /-- The head of the loop over the students, at student `i`. -/
  | servi (i : Nat)
  /-- Behind that loop. -/
  | operatore
deriving DecidableEq

/-- The variables in front of the main loop: `behaviour`, `logical` and the table have no initializer. -/
def Segreteria.iniziale (sockfd listenfd : Int) (behaviour : Buffer 4) (logical : Int)
    (clientSockets : Nat → ClientStud) : Segreteria where
  sockfd
  listenfd
  behaviour
  logical
  dim := 0
  name := Buffer.zero 255
  date := Buffer.zero 12
  result := Buffer.zero 255
  password := Buffer.zero 255
  clientSockets
  readSet := []
  writeSet := []
  masterSet := [listenfd, sockfd]
  maxFd := max sockfd listenfd

/-- `FD_SET` on a set as the list of its descriptors; a descriptor is in it once. -/
def fdSet (fd : Int) (s : List Int) : List Int := if fd ∈ s then s else fd :: s

/-- `FD_CLR`. -/
def fdClr (fd : Int) (s : List Int) : List Int := s.filter (· ≠ fd)

namespace Segreteria

/-- `client_sockets[i] = c`. -/
def conSlot (s : Segreteria) (i : Nat) (c : ClientStud) : Segreteria :=
  { s with clientSockets := Function.update s.clientSockets i c }

/-! ## Accepting a connection -/

/-- The number of rows `mysql_num_rows` counts, as an `unsigned int`; on NULL nothing is defined. -/
def numRows (res : Option (List Row)) : Programma Nat :=
  match res with
  | none => indefinito
  | some rows => pure (rows.length % 2 ^ 32)

/-- The accepted connection sits in slot `dim`: receive its credentials, check them, answer. Only a
    success moves `dim`. -/
def accesso (s : Segreteria) : Programma Segreteria := do
  let connfd := (s.clientSockets s.dim).connfd
  let r ← sys (.read connfd 4)
  let matricola := (s.clientSockets s.dim).matricola.overlay r
  let s := s.conSlot s.dim { connfd, matricola }
  let r ← sys (.read connfd 255)
  let s := { s with password := s.password.overlay r }
  sys (.printf (ascii "Matricola: " ++ dec matricola.toInt ++ [10]))
  let password ← cString s.password
  let _ ← sys (.mysqlQuery (.login matricola.toInt password))
  let res1 ← sys .mysqlStoreResult
  let rows ← numRows res1
  if rows ≠ 1 then
    sys (.write connfd (ascii "credenziali non corrette, accesso negato!"))
    pure s
  else
    sys (.write connfd (ascii "credenziali corrette, accesso consentito!"))
    pure { s with dim := s.dim + 1 }

/-- The two sets after `select`: reduced to the ready descriptors, or left alone when it failed. -/
def conPronti (s : Segreteria) (pronti : Option (List Int × List Int)) : Segreteria :=
  { s with readSet := (pronti.map Prod.fst).getD s.readSet,
           writeSet := (pronti.map Prod.snd).getD s.writeSet }

/-- The connection `connfd`, just accepted, in slot `dim`. -/
def connessa (s : Segreteria) (connfd : Int) : Segreteria :=
  { s.conSlot s.dim { s.clientSockets s.dim with connfd } with
    masterSet := fdSet connfd s.masterSet, maxFd := max s.maxFd connfd }

/-- One iteration of the loop that accepts connections: it ends the loop when `listenfd` is not ready. -/
def accetta (s : Segreteria) : Programma (Punto × Segreteria) := do
  let pronti ← sys (.select (s.maxFd + 1) s.readSet s.writeSet)
  let s := s.conPronti pronti
  if s.listenfd ∈ s.readSet then
    if s.dim < 4096 then
      let connfd ← sys (.accept s.listenfd)
      if connfd < 0 then
        pure (.accetta, s.conSlot s.dim { s.clientSockets s.dim with connfd })
      else
        let s ← (s.connessa connfd).accesso
        pure (.accetta, s)
    else indefinito
  else pure (.servi 0, s)

/-! ## Serving a student -/

/-- `sscanf(testo, "%[^\n]", buf)`: the first line of the string, when there is one, with its NUL. -/
def sscanfRiga {n : Nat} (testo : Bytes) (buf : Buffer n) : Programma (Buffer n) :=
  let riga := (cstr testo).takeWhile (· ≠ 10)
  if riga = [] then pure buf
  else if riga.length < n then pure (buf.overlay (riga ++ [0]))
  else indefinito

/-- `sscanf(testo, "%s", buf)`: the first word, when there is one, with its NUL. -/
def sscanfParola {n : Nat} (testo : Bytes) (buf : Buffer n) : Programma (Buffer n) :=
  let parola := ((cstr testo).dropWhile isBlank).takeWhile fun b => !isBlank b
  if parola = [] then pure buf
  else if parola.length < n then pure (buf.overlay (parola ++ [0]))
  else indefinito

/-- The loop over the rows of a result; the two buffers are reused from row to row and sent whole,
    whatever the row's texts fill of them. -/
def inviaRighe (connfd : Int) (nomeEsame : Buffer 255) (dataEsame : Buffer 12) :
    List Row → Programma Unit
  | [] => pure ()
  | row :: rows => match row with
    | [some id, some nome, some data] => do
      let nomeEsame ← sscanfRiga nome nomeEsame
      let dataEsame ← sscanfParola data dataEsame
      sys (.write connfd (Buffer.ofInt (strtol id)).bytes)
      sys (.write connfd nomeEsame.bytes)
      sys (.write connfd dataEsame.bytes)
      inviaRighe connfd nomeEsame dataEsame rows
    | _ => indefinito      -- a column is NULL

/-- Send a result: the number of its rows, then the rows.  The source has this block twice. -/
def inviaRisultato (connfd : Int) (res2 : Option (List Row)) : Programma Unit :=
  match res2 with
  | none => pure ()
  | some rows => do
    sys (.write connfd (Buffer.ofInt (rows.length % 2 ^ 32 : Nat)).bytes)
    let nomeEsame ← sys (.indeterminato 255)
    let dataEsame ← sys (.indeterminato 12)
    inviaRighe connfd nomeEsame dataEsame rows

/-- `behaviour == 1`: the list, for the matricola of the slot. -/
def visualizzaAppelli (c : ClientStud) : Programma Unit := do
  let req ← sys (.indeterminato 4)
  let r ← sys (.read c.connfd 4)
  let req := (req.overlay r).toInt
  if req = 1 then
    let ok ← sys (.mysqlQuery (.appelli c.matricola.toInt))
    if ok then
      let res2 ← sys .mysqlStoreResult
      inviaRisultato c.connfd res2
  else if req = 2 then
    let r ← sys (.read c.connfd 255)
    let exam ← cString ((Buffer.zero 255).overlay r)
    let _ ← sys (.mysqlQuery (.appelliEsame c.matricola.toInt exam))
  -- behind the branches, whatever `req` was
  let res2 ← sys .mysqlStoreResult
  inviaRisultato c.connfd res2

/-- `behaviour == 2`: forward the three numbers to the server, and its answer to the student. -/
def prenota (s : Segreteria) (c : ClientStud) : Programma Unit := do
  let cod ← sys (.indeterminato 4)
  let mat ← sys (.indeterminato 4)
  sys (.write s.sockfd s.behaviour.bytes)
  let r ← sys (.read c.connfd 4)
  let cod := cod.overlay r
  let r ← sys (.read c.connfd 4)
  let mat := mat.overlay r
  sys (.write s.sockfd cod.bytes)
  sys (.write s.sockfd mat.bytes)
  let r ← sys (.read s.sockfd 255)
  sys (.write c.connfd ((Buffer.zero 255).overlay r).bytes)

/-- `behaviour == 3`: close the descriptor, take it out of `master_set`, clear the slot. -/
def logout (s : Segreteria) (i : Nat) : Programma Segreteria := do
  let connfd := (s.clientSockets i).connfd
  sys (.close connfd)
  let s := { s with masterSet := fdClr connfd s.masterSet }
  pure (s.conSlot i { connfd := -1, matricola := Buffer.ofInt 0 })

/-- One iteration of the loop over the students: nothing, unless the slot's descriptor is ready and is
    not `-1`. -/
def servi (s : Segreteria) (i : Nat) : Programma Segreteria := do
  let c := s.clientSockets i
  if c.connfd ∈ s.readSet ∧ c.connfd ≠ -1 then
    let r ← sys (.read c.connfd 4)
    let s := { s with behaviour := s.behaviour.overlay r }
    if s.behaviour.toInt = 1 then
      visualizzaAppelli c
      pure s
    else if s.behaviour.toInt = 2 then
      s.prenota c
      pure s
    else if s.behaviour.toInt = 3 then
      s.logout i
    else pure s
  else pure s

/-! ## The operator's menu -/

/-- `logical == 2`: ask for an appello, have the server add it, print what it answers. -/
def nuovoAppello (s : Segreteria) : Programma Segreteria := do
  sys (.write s.sockfd (Buffer.ofInt 1).bytes)
  let name ← leggiRiga s.name
  sys (.write s.sockfd (cstr name.bytes))
  let date ← leggiRiga s.date
  sys (.write s.sockfd (cstr date.bytes))
  let r ← sys (.read s.sockfd 255)
  let result := s.result.overlay r
  let esito ← cString result
  sys (.printf (ascii "\nEsito: " ++ esito ++ ascii "\n\n"))
  pure { s with name, date, result }

/-- The operator's menu, shown when the server's socket can be written to. -/
def operatore (s : Segreteria) : Programma Segreteria :=
  if s.sockfd ∈ s.writeSet then do
    let logical ← scanInt s.logical
    let s := { s with logical }
    sys .pulisciInput
    if s.logical = 2 then s.nuovoAppello else pure s
  else pure s

/-! ## One turn -/

/-- One turn of the main loop. -/
def passo : Punto × Segreteria → Programma (Punto × Segreteria)
  | (.esterno, s) => pure (.accetta, { s with readSet := s.masterSet, writeSet := s.masterSet })
  | (.accetta, s) => s.accetta
  | (.servi i, s) =>
      if i < s.dim then do
        let s ← s.servi i
        pure (.servi (i + 1), s)
      else pure (.operatore, s)
  | (.operatore, s) => do
      let s ← s.operatore
      pure (.esterno, s)

end Segreteria

end Universita

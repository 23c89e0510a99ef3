/-
  THE UNIVERSITY SERVER — `server.c`, which alone writes to the tables.

  The server has one connection, with a secretary, and a loop: wait until something can be read, accept
  a connection if one is waiting, and read a request code if one has come.  Code 1 adds an appello, code 2
  a booking; every request opens a connection to MySQL of its own and closes it.

  What the translation keeps, because it decides what the server does:
    * a connection that is accepted REPLACES the one there was, and the descriptor of the old one is lost;
    * `FD_ISSET` is asked about the descriptor as it is after the accept, `-1` among them;
    * a read stores what came over the front of its variable and returns a count that, but for the request
      code, nobody looks at;
    * `id_esame` has no initialiser and keeps what was there when no exam has the name;
    * of several exams with the name the last row counts;
    * an insert that fails is answered with one of two texts, told apart by a substring of `mysql_error`;
    * a failed eligibility query is answered, and then its missing result is used all the same.

  What is left out: messages to `stderr` and the terminal, and `fflush(stdin)`.

  Contents:
  1. `connection` — a connection to MySQL for one request.  When connecting fails the handle is closed
     and still returned; using it then is undefined.
  2. `aggiungiAppello`, `aggiungiPrenotazione` — the two requests.
  3. `Server`, `passo` — the variables of `main` and one iteration of its loop.
-/
import Universita.Chiamate

set_option linter.unusedVariables false

namespace Universita

open Lib

namespace Server

/-! ## MySQL -/

/-- A `MYSQL *`, by what may be done with it. -/
inductive Conn where
  /-- `mysql_real_connect` succeeded. -/
  | aperta
  /-- It failed, and the handle was closed. -/
  | chiusa
deriving DecidableEq

/-- `connection()`. -/
def connection : Programma Conn := do
  let conn ← sys .mysqlInit
  if conn = false then indefinito else
    let ok ← sys .mysqlRealConnect
    if ok then pure .aperta else
      sys .mysqlClose
      pure .chiusa

/-- `mysql_query(conn, q)`: whether it returned 0. -/
def query (conn : Conn) (q : Query) : Programma Bool :=
  match conn with
  | .aperta => sys (.mysqlQuery q)
  | .chiusa => indefinito

/-! ## Adding an appello -/

/-- The loop that fetches the ids of the exam: the last row decides, and no row leaves `idEsame` as it
    was. A NULL id would be handed to `atoi`. -/
def ultimoId (idEsame : Int) : List Row → Programma Int
  | [] => pure idEsame
  | (some id :: _) :: rows => ultimoId (Buffer.ofInt (strtol id)).toInt rows
  | _ :: _ => indefinito

/-- `strstr(testo, parte)`. -/
def strstr (testo parte : Bytes) : Bool := decide (parte <:+: testo)

/-- The reply to the insert of an appello, `ok` saying whether it went through. -/
def esitoAppello (connfd : Int) (ok : Bool) : Programma Unit := do
  if ok then
    sys (.write connfd (ascii "inserimento del nuovo appello completato con successo!"))
  else
    let err ← sys .mysqlError
    if strstr err (ascii "foreign key constraint fails") then
      sys (.write connfd (ascii "non esiste un esame con questo nome!"))
    else
      let err ← sys .mysqlError
      sys (.write connfd err)

/-- `aggiungiAppello(connfd)`: the exam's name and the date are read, the name is looked up, the row
    inserted. The two buffers are zeroed; `id_esame` is whatever the stack held. -/
def aggiungiAppello (connfd : Int) : Programma Unit := do
  let conn ← connection
  let r ← sys (.read connfd 255)
  let nomeEsame := (Buffer.zero 255).overlay r
  let r ← sys (.read connfd 12)
  let date := (Buffer.zero 12).overlay r
  let idEsame ← sys (.indeterminato 4)
  let nomeEsame ← cString nomeEsame
  let _ ← query conn (.idEsame nomeEsame)
  let res ← sys .mysqlUseResult
  match res with
  | none => indefinito
  | some rows =>
    let idEsame ← ultimoId idEsame.toInt rows
    let date ← cString date
    let ok ← query conn (.inserisciAppello idEsame date)
    esitoAppello connfd ok
    sys .mysqlClose

/-! ## Adding a booking -/

/-- The reply to a failed statement: what `mysql_error` says, which is the engine's own text. -/
def scriviErrore (connfd : Int) : Programma Unit := do
  let err ← sys .mysqlError
  sys (.write connfd err)

/-- The reply to a booking that was inserted (`[195, 160]` is `à`), in a buffer of 255 bytes. -/
def prenotazioneInserita (dataAppello : Bytes) : Bytes :=
  snprintf 255 (ascii "prenotazione inserita con successo! Il tuo appello si terr" ++ [195, 160] ++
    ascii " il " ++ dataAppello)

/-- The row of the eligibility query: the exam and its earliest date, copied into 12 bytes by `strcpy`. -/
def inserisciPrenotazione (connfd : Int) (conn : Conn) (mat : Int) (row : Row) : Programma Unit :=
  match row with
  | [some id, some dataAppello] =>
    if dataAppello.length < 12 then do
      let ok ← query conn (.inserimento mat (Buffer.ofInt (strtol id)).toInt)
      if ok then sys (.write connfd (prenotazioneInserita dataAppello))
      else scriviErrore connfd
    else indefinito
  | _ => indefinito

/-- A booking.  The source counts the rows in an `unsigned int` and compares it with 0.  The statement groups by one id, so
    there is at most one row, and that the count is taken modulo 2^32 makes no difference. -/
def aggiungiPrenotazione (connfd : Int) : Programma Unit := do
  let conn ← connection
  let id ← sys (.indeterminato 4)
  let mat ← sys (.indeterminato 4)
  let r ← sys (.read connfd 4)
  let id := (id.overlay r).toInt
  let r ← sys (.read connfd 4)
  let mat := (mat.overlay r).toInt
  let ok ← query conn (.verificaPrenotazione id mat)
  if !ok then scriviErrore connfd
  let resQvp ← sys .mysqlStoreResult
  match resQvp with
  | none =>
    scriviErrore connfd
    indefinito           -- `mysql_num_rows(NULL)`
  | some [] => sys (.write connfd (ascii "invalid id or data!"))
  | some (row :: _) => inserisciPrenotazione connfd conn mat row
  sys .mysqlClose

end Server

/-! ## The main loop -/

/-- The variables of `main`. -/
structure Server where
  /-- The socket it listens on. -/
  listenfd : Int
  /-- The connection with the secretary, `-1` before the first. -/
  connfd : Int
  /-- The request code, kept from one iteration to the next. -/
  request : Buffer 4
  /-- The highest descriptor seen, for `select`. -/
  maxFd : Int

namespace Server

/-- What a request code asks for; any other code is dropped without an answer. -/
def smista (connfd request : Int) : Programma Unit :=
  if request = 1 then aggiungiAppello connfd
  else if request = 2 then aggiungiPrenotazione connfd
  else pure ()

/-- The request the secretary sent: dispatched when the read delivered something, at least one byte of
    four. -/
def richiesta (s : Server) : Programma Server := do
  let r ← sys (.read s.connfd 4)
  let s := { s with request := s.request.overlay r }
  if 0 < r.length then
    smista s.connfd s.request.toInt
  pure s

/-- A connection waits: it replaces the one there was, also when `accept` fails. -/
def nuovaConnessione (s : Server) : Programma Server := do
  let connfd ← sys (.accept s.listenfd)
  pure { s with connfd, maxFd := if connfd > s.maxFd then connfd else s.maxFd }

/-- One iteration of the main loop. When `select` fails the set stays as it was filled, so both tests
    succeed. -/
def passo (s : Server) : Programma Server := do
  let readSet := if s.connfd > -1 then [s.connfd, s.listenfd] else [s.listenfd]
  let pronti ← sys (.select (s.maxFd + 1) readSet [])
  let readSet := match pronti with
    | none => readSet
    | some (pronti, _) => pronti
  let s ← if s.listenfd ∈ readSet then s.nuovaConnessione else pure s
  if s.connfd ∈ readSet then s.richiesta else pure s

end Server

end Universita

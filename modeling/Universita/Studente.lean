/-
  THE STUDENT — `studente.c`, the program a student types into.

  It connects to the secretary, sends a matricola and a password, reads one answer, and shows a menu of
  three operations until the logout.  It checks nothing that it sends and very little that it reads.

  What the translation keeps, because it decides what the student sees:
    * the login counts as a success on ANY text but the one refusal, compared as a whole;
    * a `scanf` that converts nothing leaves its variable, so the menu repeats the last choice;
    * a list is announced by a number of rows that is taken as it comes, and read row by row into the same
      three variables, the two texts zeroed once;
    * the answer to a booking is printed before it is read, from a buffer without initialiser, and again after.

  The password is sent as its whole buffer of 255 bytes, the name of an exam as its `strlen`.

  Contents:
  1. `ProgStudente` — the variables that outlive an iteration.
  2. `ProgStudente.accesso` — the login: everything that is not the refusal text counts as success.
  3. `righe`, `visualizza` — the list of appelli; `prenotaAppello` — a booking.
  4. `ProgStudente.passo` — one iteration of the menu loop.
-/
import Universita.Chiamate

set_option linter.unusedVariables false

namespace Universita

open Lib

/-- The variables of `main` that outlive an iteration. -/
structure ProgStudente where
  /-- The connection with the secretary. -/
  sockfd : Int
  /-- The choice between all appelli and those of one exam. -/
  request : Int
  req : Int
  /-- The matricola typed at the login, sent again with every booking. -/
  mat : Buffer 4
deriving DecidableEq

namespace ProgStudente

/-- The text a refused student is shown, and the only one that ends the program. -/
def negato : Bytes := ascii "credenziali non corrette, accesso negato!"

/-- From the first prompt to the menu; a refused student leaves. -/
def accesso (s : ProgStudente) : Programma ProgStudente := do
  let mat ← scanInt s.mat.toInt
  let s := { s with mat := Buffer.ofInt mat }
  sys .pulisciInput
  let pass ← leggiRiga (Buffer.zero 255)
  sys (.write s.sockfd s.mat.bytes)
  sys (.write s.sockfd pass.bytes)
  let r ← sys (.read s.sockfd 255)
  let state ← cString ((Buffer.zero 255).overlay r)
  sys (.printf (ascii "\nEsito login: " ++ state))
  if state = negato then exit else pure s

/-- The loop over the rows of a list; the three variables are reused from row to row, so a short read
    keeps part of the row before. -/
def righe (sockfd : Int) (id : Buffer 4) (name : Buffer 255) (date : Buffer 12) :
    Nat → Programma Unit
  | 0 => pure ()
  | n + 1 => do
    let r ← sys (.read sockfd 4)
    let id := id.overlay r
    let r ← sys (.read sockfd 255)
    let name := name.overlay r
    let r ← sys (.read sockfd 12)
    let date := date.overlay r
    let nome ← cString name
    let data ← cString date
    sys (.printf (dec id.toInt ++ [9] ++ nome ++ [9] ++ data ++ [10]))
    righe sockfd id name date n

/-- `request == 1`: choose, ask, read the number of rows and then the rows. -/
def visualizza (s : ProgStudente) : Programma ProgStudente := do
  let req ← scanInt s.req
  let s := { s with req }
  sys (.write s.sockfd (Buffer.ofInt s.req).bytes)
  sys .pulisciInput
  if s.req = 2 then
    let exam ← leggiRiga (Buffer.zero 255)
    sys (.write s.sockfd (cstr exam.bytes))
  let numRows ← sys (.indeterminato 4)
  let r ← sys (.read s.sockfd 4)
  let numRows := (numRows.overlay r).toInt
  if numRows = 0 then
    sys (.printf (ascii "\nNon esistono appelli disponibili!\n"))
  else
    let id ← sys (.indeterminato 4)
    righe s.sockfd id (Buffer.zero 255) (Buffer.zero 12) numRows.toNat
  pure s

/-- `request == 2`: `res` has no initialiser and is printed before the answer is read into it. -/
def prenotaAppello (s : ProgStudente) : Programma Unit := do
  let cod ← sys (.indeterminato 4)
  let cod ← scanInt cod.toInt
  sys .pulisciInput
  sys (.write s.sockfd (Buffer.ofInt cod).bytes)
  sys (.write s.sockfd s.mat.bytes)
  let res ← sys (.indeterminato 255)
  let prima ← cString res
  sys (.printf (ascii "\nEsito operazione: " ++ prima ++ [10]))
  let r ← sys (.read s.sockfd 255)
  let res ← cString (res.overlay r)
  sys (.printf (res ++ [10]))

/-- One iteration of the menu loop; a choice other than 1, 2, 3 is sent and does nothing. -/
def passo (s : ProgStudente) : Programma ProgStudente := do
  let request ← scanInt s.request
  let s := { s with request }
  sys .pulisciInput
  sys (.write s.sockfd (Buffer.ofInt s.request).bytes)
  if s.request = 1 then s.visualizza
  else if s.request = 2 then do
    s.prenotaAppello
    pure s
  else if s.request = 3 then do
    sys (.close s.sockfd)
    exit
  else pure s

end ProgStudente

end Universita

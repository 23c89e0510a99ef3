/-
  RESTARTS — what the database holds when the two programs are killed and started again, any number of times.

  A life is one run of the composition, from the database that is there, to the state in which the programs are
  killed: in front of a call, behind one, in the middle of a turn.  Then the table of the sessions, the buffers,
  the streams and what MySQL had ready for them are lost, and the database stays.  Who is killed while MySQL
  executes its statement has done it or has not; these are the states behind that call and in front of it.

  Nothing is carried from one life to the next but the tables, and nothing in the code looks whether a request was
  already done: who has had no reply and tries again does it twice.  What does hold is that nothing is HALF done, and
  that nothing once done is ever taken back.

  The condition on the moves of each life is that of the register (`Onesta`): `mysql_error` says nothing that begins
  like a success, and the date of an inserted appello stays data and fits its buffer.  Reads may be cut in any way.

  The crux is that one life is a sequence of acts already (`registro_riferiti`), and a sequence of sequences of acts is
  one sequence; the induction over the lives only appends.

  Contents:
  1. `Vita`, `Riparte` — a life, and the step from one database to the next.
  2. `Onorati` — what the replies of each life say is what was done in it.
  3. **`riavvii`** — any number of lives; `riavvii_luglio` — killed behind an insert, and asked again.
-/
import Universita.Riscontro

set_option linter.unusedVariables false

namespace Universita

open Lib Lib.Stream Mondo Server

/-- How the two programs were started, and the state in which they were killed. -/
structure Vita (M : Mysql) where
  /-- The secretary's socket to the server. -/
  sockfd : Int
  /-- The day of each statement. -/
  giorno : Nat → Data
  /-- What the students send, connection by connection. -/
  clienti : Nat → Bytes
  /-- The two programs at their start ... -/
  segreteria : Segreteria
  /-- ... with whatever their memory held. -/
  server : Server
  /-- The state in which they are killed. -/
  fine : StatoArchivio M

section Vite

variable {M : Mysql} {I : Interprete M} {db db' : BaseDati M.collazione} {w : Vita M} {vite : List (Vita M)}

/-- The life `w` begins with the database `db` and leaves `db'`: a run of the composition from its own
    start, in which every move meets the condition of the register, to the state in which the programs
    are killed. -/
def Riparte (I : Interprete M) (db : BaseDati M.collazione) (w : Vita M) (db' : BaseDati M.collazione) : Prop :=
  (archivio w.sockfd I w.giorno).Reach (fun _ m => Onesta m)
    (inizioArchivio w.clienti w.segreteria w.server db) w.fine ∧ db' = w.fine.env.db

/-- The replies of a life belong to its acts, one for one and in their order; only the last may be
    missing its text. Its bookings were all checked in it, and not in a life before. -/
def Onorati (atti : List Atto) (w : Vita M) : Prop :=
  Riferiti atti w.fine.env.rete.ser.risposte ∧
    (atti.filterMap Atto.prenotazione).Sublist w.fine.env.rete.ser.eseguite

/-- A life is a sequence of acts, and its replies are theirs. -/
theorem Riparte.atti (h : Riparte I db w db') :
    ∃ atti, Steps (fun db a db' => a.Fa M db db') db atti db' ∧ Onorati atti w := by
  obtain ⟨hd, rfl⟩ := h
  obtain ⟨atti, hs, hsub, hr, -⟩ := registro_riferiti hd
  exact ⟨atti, hs, hr, hsub⟩

end Vite

/-! ## Two lives -/

end Universita

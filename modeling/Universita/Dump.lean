/-
  THE SHIPPED DATABASE — the rows `ddl.sql` inserts, as a database that meets its constraints.

  General theorems are about every database.  This one is for the concrete runs: a counterexample, or a
  run that shows a theorem's conditions can be met, is played on the data the repository ships, so that
  it can be tried on the real programs.

  The engine `mysql` compares strings byte for byte, which on these rows (digits, lower-case letters,
  blanks) is what the collation of the dump does.  Its hash is a function that knows one value — the one
  the dump stores for the password of two students — and a run uses no other; the same with the
  one date of `mysqlLuglio`.

  Contents:
  1. `tabelle` — the rows, table by table, in the order of the dump.
  2. `mysql`, `mysqlLuglio` — the engines.
  3. `universita` — the constraints hold, checked by evaluation.
-/
import Universita.Interroga

set_option linter.unusedVariables false

namespace Universita

open Lib

/-- The rows of the dump, without the columns that no statement reads. Appelli are there twice because
    they are twice in `ddl.sql`. -/
def tabelle : Tabelle where
  appello := [⟨20240221, 12410⟩, ⟨20240321, 12410⟩, ⟨20240121, 12410⟩, ⟨20240222, 12410⟩,
    ⟨20240222, 12410⟩, ⟨20240505, 12410⟩, ⟨20240606, 12413⟩, ⟨20240906, 12411⟩,
    ⟨20240202, 12411⟩, ⟨20240911, 12411⟩, ⟨20240911, 12411⟩, ⟨20241108, 12413⟩]
  esame := [⟨12410, some 1, some (ascii "prog1")⟩, ⟨12411, some 2, some (ascii "ASD")⟩,
    ⟨12412, some 2, some (ascii "diritto privato")⟩, ⟨12413, some 3, some (ascii "tech-web")⟩]
  prenota := [⟨ascii "0124000001", some 12410, some 20240222⟩]
  studente := [
    ⟨ascii "0124000001", ascii "ef92b778bafe771e89245b89ecbc08a44a4e166c06659911881f383d4473e94f", 3⟩,
    ⟨ascii "0124002", ascii "f64551fcd6f07823cb87971cfb91446425da18286b3ab1ef935e0cbd7a69f68a", 1⟩,
    ⟨ascii "0124003", ascii "f64551fcd6f07823cb87971cfb91446425da18286b3ab1ef935e0cbd7a69f68a", 3⟩,
    ⟨ascii "20230001", ascii "ef92b778bafe771e89245b89ecbc08a44a4e166c06659911881f383d4473e94f", 1⟩,
    ⟨ascii "20230002", ascii "fbb4a8a163ffa958b4f02bf9cabb30cfefb40de803f2c4c346a9d39b3be1b544", 2⟩,
    ⟨ascii "20230003", ascii "703b0a3d6ad75b649a28adde7d83c6251da457549263bc7ff45ec709b0a8448b", 3⟩,
    ⟨ascii "20230004", ascii "f8007910cb7e15ebace0b29a47404d1b0b860dc6ba2c0169dd431f667a9f3ffe", 1⟩,
    ⟨ascii "202323", ascii "f64551fcd6f07823cb87971cfb91446425da18286b3ab1ef935e0cbd7a69f68a", 3⟩]
  supera := [⟨some (ascii "0124003"), some 12411⟩]

/-- The engine of the concrete runs: a binary collation, and the hash of one password. -/
def mysql : Mysql where
  collazione := .binary
  sha2 password := if password = ascii "password123" then
    ascii "ef92b778bafe771e89245b89ecbc08a44a4e166c06659911881f383d4473e94f" else []
  strToDate _ := none

/-- ... and with one date it knows. -/
def mysqlLuglio : Mysql where
  collazione := .binary
  sha2 := mysql.sha2
  strToDate t := if t = ascii "2024-07-01" then some 20240701 else none

/-- The shipped database. That its constraints hold is a computation over a few dozen rows. -/
def universita : BaseDati mysql.collazione where
  toTabelle := tabelle
  vincoli := by constructor <;> decide +kernel

end Universita

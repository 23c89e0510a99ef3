/-
  THE CALLS — everything the three programs ask of the world around them.

  A program of this repository is a `Prog` over these calls: sockets, console, MySQL client library.
  The answers follow the manual pages: a `read` that meets the end of the stream (or fails) delivers
  no byte and leaves its destination as it was; a `scanf("%d")` that converts nothing leaves its
  variable as it was.  Console output that carries no value (prompts, diagnostics) is left out.

  The calls carry their arguments as values, so a program's trace tells what it did without a look at
  the program: which descriptor was read with which size, which bytes were written, which statement was
  issued.  Sizes are the `sizeof` of the source; no read is longer than its buffer.

  Two calls are not calls of the source but sources of arbitrary values in C: `indeterminato` is the
  content of a local variable without initializer, `oltre` the memory behind a buffer that a string
  function runs out of.  `indefinito` has no answer: it is reached where C defines nothing (a store
  outside its array, a NULL result handed to the MySQL library), and nothing is said from there on.
  A theorem that says a call is never issued where it must not be can therefore also say that nothing
  undefined is reached: `indefinito` is one more call not to issue.

  Contents:
  1. `Sys`, `Sys.Ans`, `Programma` — the calls, what they answer, the programs.
  2. `indefinito`, `exit` — the two ends of a program that are no return.
  3. `cString`, `scanInt`, `tagliaFine`, `leggiRiga` — the idioms the programs share.
-/
import Universita.Lib.Prog
import Universita.Interroga

set_option linter.unusedVariables false

namespace Universita

open Lib

/-- The calls, each with its arguments. What a call returns is `Sys.Ans`; what it does to the world is
    left to the module that has a world. -/
inductive Sys where
  /-- `select(nfds, &read_set, &write_set, NULL, NULL)`; the sets as lists of descriptors. -/
  | select (nfds : Int) (readSet writeSet : List Int)
  /-- `accept(listenfd, NULL, NULL)`. -/
  | accept (listenfd : Int)
  /-- `read(fd, .., n)`. -/
  | read (fd : Int) (n : Nat)
  /-- `write(fd, bs, ..)`, which takes all of `bs`. -/
  | write (fd : Int) (bs : Bytes)
  /-- `close(fd)`. -/
  | close (fd : Int)
  /-- `exit(1)`. -/
  | exit
  /-- `scanf("%d", ..)`. -/
  | scanf
  /-- `while ((c = getchar()) != '\n' && c != EOF);` -/
  | pulisciInput
  /-- `fgets(.., n, stdin)`. -/
  | fgets (n : Nat)
  /-- Output that carries a value: an answer, a list, a text that was read. -/
  | printf (testo : Bytes)
  /-- `mysql_init(NULL)`: whether it gave a handle. -/
  | mysqlInit
  /-- `mysql_real_connect(..)`: whether it connected. -/
  | mysqlRealConnect
  /-- `mysql_query(conn, q)`: whether it returned 0. -/
  | mysqlQuery (q : Query)
  /-- `mysql_store_result(conn)`: the rows, or NULL. -/
  | mysqlStoreResult
  /-- `mysql_use_result(conn)`, the same with the rows fetched one by one. -/
  | mysqlUseResult
  /-- `mysql_error(conn)`. -/
  | mysqlError
  /-- `mysql_close(conn)`. -/
  | mysqlClose
  /-- The content of a variable of `n` bytes without initialiser. -/
  | indeterminato (n : Nat)
  /-- The memory behind a buffer. -/
  | oltre
  /-- Where C defines nothing. -/
  | indefinito
deriving DecidableEq

/-- What a call answers. `Unit` is a call whose result the source does not look at; `Empty` has no answer. -/
@[reducible] def Sys.Ans : Sys → Type
  | .select _ _ _ => Option (List Int × List Int)   -- the ready descriptors, `none` on failure
  | .accept _ => Int
  | .read _ _ => Bytes
  | .scanf => Option Int
  | .fgets _ => Option Bytes                        -- `none` for NULL
  | .mysqlInit | .mysqlRealConnect => Bool
  | .mysqlQuery _ => Bool                           -- whether it returned 0
  | .mysqlStoreResult | .mysqlUseResult => Option (List Row)
  | .mysqlError => Bytes
  | .indeterminato n => Buffer n
  | .oltre => Bytes
  | .exit | .indefinito => Empty
  | .write _ _ | .close _ | .pulisciInput | .printf _ | .mysqlClose => Unit

/-- The programs of this repository. -/
abbrev Programma := Prog Sys Sys.Ans

/-- Issue a call. -/
abbrev sys (o : Sys) : Programma o.Ans := Prog.op o

/-- Where C defines nothing: a call that nothing answers, so that there is no run beyond it and nothing
    to prove. -/
def indefinito {α : Type} : Programma α := .call .indefinito nofun

/-- `exit(1)`. -/
def exit {α : Type} : Programma α := .call .exit nofun

/-- Nothing follows an undefined step, and nothing follows `exit`. -/
@[simp] theorem indefinito_bind {α β : Type} (f : α → Programma β) : (indefinito >>= f) = indefinito :=
  congrArg (Prog.call Sys.indefinito) (funext fun r => r.elim)

@[simp] theorem exit_bind {α β : Type} (f : α → Programma β) : (exit >>= f) = exit :=
  congrArg (Prog.call Sys.exit) (funext fun r => r.elim)

/-- The string in a buffer: without a NUL in the buffer it runs on into the memory behind, of which
    `oltre` returns what is found there. -/
def cString {n : Nat} (b : Buffer n) : Programma Bytes :=
  if 0 ∈ b.bytes then pure (cstr b.bytes) else do
    let dietro ← sys .oltre
    pure (b.bytes ++ cstr dietro)

/-- `scanf("%d", &v)`: the variable keeps its value when nothing is converted. -/
def scanInt (v : Int) : Programma Int := do
  let n ← sys .scanf
  pure (match n with
    | none => v
    | some n => (Buffer.ofInt n).toInt)

/-- `buf[strlen(buf) - 1] = 0;`, a store that has to be one into the buffer: of an empty string, or of
    one that runs on behind it, C defines nothing. -/
def tagliaFine {n : Nat} (buf : Buffer n) : Programma (Buffer n) := do
  let testo ← cString buf
  if testo.length = 0 ∨ n < testo.length then indefinito else pure (buf.poke (testo.length - 1) 0)

/-- `fgets(buf, sizeof(buf), stdin); buf[strlen(buf) - 1] = 0;` -/
def leggiRiga {n : Nat} (buf : Buffer n) : Programma (Buffer n) := do
  let riga ← sys (.fgets n)
  tagliaFine (match riga with
    | none => buf
    | some riga => buf.overlay (riga ++ [0]))

/-- A string that ends inside its buffer is read without looking behind it: no `oltre` is issued. -/
theorem cString_of_mem {n : Nat} {b : Buffer n} (h : (0 : Byte) ∈ b.bytes) :
    cString b = .ret (cstr b.bytes) := by
  rw [cString, if_pos h]; rfl

theorem tagliaFine_of_mem {n : Nat} {b : Buffer n} (h : (0 : Byte) ∈ b.bytes) :
    tagliaFine b = if (cstr b.bytes).length = 0 then indefinito
      else pure (b.poke ((cstr b.bytes).length - 1) 0) := by
  have hle : (cstr b.bytes).length ≤ n :=
    (List.takeWhile_prefix _).length_le.trans (Nat.le_of_eq b.size_eq)
  rw [tagliaFine, cString_of_mem h]
  show (if _ ∨ n < (cstr b.bytes).length then _ else _) = _
  simp only [Nat.not_lt.mpr hle, or_false]

end Universita

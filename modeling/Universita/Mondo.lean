/-
  ONE PROGRAM ALONE — the world of a program whose peers are given by what they send.

  For a question about one run of one program the other processes are only byte sources: `Mondo` lists
  what the coming `read`s deliver and the lines the user types, and records what the program writes
  and which statements it issues.  The database engine is a function `motore` on statements; it may
  be unavailable, but a statement that fails changes nothing.

  The reads are a list of pieces and not a stream, so "however the bytes are cut" is a quantifier over
  that list.  A piece that does not fit its buffer cannot be delivered; an empty piece is the end of the
  peer's stream.

  `chiama` is a relation, not a function: `select` may report anything, a fresh variable may hold any bytes,
  `accept` may fail.  What the world does not record (`printf`, `select`, the descriptors) leaves it as it is.

  With one `@[simp]` rule a call (`run_…`), a complete execution of a program is computed by `simp`: it
  becomes a chain of existentials over what was read, ending in an equation for the final world.  Proofs
  about single functions of the source are made of this and of nothing else.

  Contents:
  1. `Mondo`, `Motore`, `Mondo.chiama` — the answer to each call.
  2. `run_…` — the same as rules for runs, call by call.
-/
import Universita.Chiamate

set_option linter.unusedVariables false

namespace Universita

open Lib

/-- What is left of the input, and what has been done so far. -/
structure Mondo (D : Type) where
  db : D
  /-- What the coming reads deliver. -/
  ingresso : List Bytes
  /-- What the coming `fgets` deliver. -/
  righe : List Bytes
  /-- What was written, and where. -/
  uscita : List (Int × Bytes)
  /-- The statements issued. -/
  istruzioni : List Query
  /-- The result set of the last statement, until it is fetched. -/
  risultato : Option (List Row)

/-- An engine: the new database and the rows of a statement, `none` when it is refused. -/
abbrev Motore (D : Type) := D → Query → Option (D × List Row)

namespace Mondo

variable {D : Type}

/-- `chiama m w o r w'` — in `w` the call `o` may answer `r` and lead to `w'`. A result set is there to
    be fetched once. -/
def chiama (m : Motore D) (w : Mondo D) : (o : Sys) → o.Ans → Mondo D → Prop
  | .read _ n, r, w' => ∃ rest, w.ingresso = r :: rest ∧ r.length ≤ n ∧ w' = { w with ingresso := rest }
  | .fgets n, r, w' => ∃ riga rest, w.righe = riga :: rest ∧ riga.length < n ∧ r = some riga ∧
      w' = { w with righe := rest }
  | .write fd bs, _, w' => w' = { w with uscita := w.uscita ++ [(fd, bs)] }
  | .mysqlQuery q, ok, w' =>
      (ok = true ∧ ∃ p, m w.db q = some p ∧
        w' = { w with db := p.1, istruzioni := w.istruzioni ++ [q], risultato := some p.2 }) ∨
      (ok = false ∧ w' = { w with istruzioni := w.istruzioni ++ [q], risultato := none })
  | .mysqlStoreResult, r, w' => r = w.risultato ∧ w' = { w with risultato := none }
  | .mysqlUseResult, r, w' => r = w.risultato ∧ w' = { w with risultato := none }
  | _, _, w' => w' = w

/-! ## Runs, call by call -/

section Runs

variable {m : Motore D} {α : Type} {w w' : Mondo D} {a : α}

/-- A read takes the next piece that was to be delivered, if it fits. -/
@[simp] theorem run_read {fd : Int} {n : Nat} {k : Bytes → Programma α} :
    Prog.Runs (chiama m) (.call (.read fd n) k) w a w' ↔ ∃ r rest, w.ingresso = r :: rest ∧
      r.length ≤ n ∧ Prog.Runs (chiama m) (k r) { w with ingresso := rest } a w' := by
  constructor
  · rintro ⟨r, _, ⟨rest, hr, hn, rfl⟩, h⟩
    exact ⟨r, rest, hr, hn, h⟩
  · rintro ⟨r, rest, hr, hn, h⟩
    exact ⟨r, _, ⟨rest, hr, hn, rfl⟩, h⟩

/-- A line the user types, as long as the buffer holds it. -/
@[simp] theorem run_fgets {n : Nat} {k : Option Bytes → Programma α} :
    Prog.Runs (chiama m) (.call (.fgets n) k) w a w' ↔ ∃ riga rest, w.righe = riga :: rest ∧
      riga.length < n ∧ Prog.Runs (chiama m) (k (some riga)) { w with righe := rest } a w' := by
  constructor
  · rintro ⟨_, _, ⟨riga, rest, hr, hn, rfl, rfl⟩, h⟩
    exact ⟨riga, rest, hr, hn, h⟩
  · rintro ⟨riga, rest, hr, hn, h⟩
    exact ⟨_, _, ⟨riga, rest, hr, hn, rfl, rfl⟩, h⟩

/-- What is written is recorded with the descriptor it went to. -/
@[simp] theorem run_write {fd : Int} {bs : Bytes} {k : Unit → Programma α} :
    Prog.Runs (chiama m) (.call (.write fd bs) k) w a w' ↔
      Prog.Runs (chiama m) (k ()) { w with uscita := w.uscita ++ [(fd, bs)] } a w' := by
  constructor
  · rintro ⟨_, _, rfl, h⟩; exact h
  · intro h; exact ⟨(), _, rfl, h⟩

/-- A statement goes through and leaves its rows, or is refused and changes nothing. -/
@[simp] theorem run_mysqlQuery {q : Query} {k : Bool → Programma α} :
    Prog.Runs (chiama m) (.call (.mysqlQuery q) k) w a w' ↔
      (∃ p, m w.db q = some p ∧ Prog.Runs (chiama m) (k true)
        { w with db := p.1, istruzioni := w.istruzioni ++ [q], risultato := some p.2 } a w') ∨
      Prog.Runs (chiama m) (k false) { w with istruzioni := w.istruzioni ++ [q], risultato := none } a w' := by
  constructor
  · rintro ⟨_, _, ⟨rfl, p, hp, rfl⟩ | ⟨rfl, rfl⟩, h⟩
    · exact Or.inl ⟨p, hp, h⟩
    · exact Or.inr h
  · rintro (⟨p, hp, h⟩ | h)
    · exact ⟨true, _, Or.inl ⟨rfl, p, hp, rfl⟩, h⟩
    · exact ⟨false, _, Or.inr ⟨rfl, rfl⟩, h⟩

/-- The rows of the last statement, once. -/
@[simp] theorem run_mysqlStoreResult {k : Option (List Row) → Programma α} :
    Prog.Runs (chiama m) (.call .mysqlStoreResult k) w a w' ↔
      Prog.Runs (chiama m) (k w.risultato) { w with risultato := none } a w' := by
  constructor
  · rintro ⟨_, _, ⟨rfl, rfl⟩, h⟩; exact h
  · intro h; exact ⟨_, _, ⟨rfl, rfl⟩, h⟩

/-- The other way of fetching them, with the same rows. -/
@[simp] theorem run_mysqlUseResult {k : Option (List Row) → Programma α} :
    Prog.Runs (chiama m) (.call .mysqlUseResult k) w a w' ↔
      Prog.Runs (chiama m) (k w.risultato) { w with risultato := none } a w' := by
  constructor
  · rintro ⟨_, _, ⟨rfl, rfl⟩, h⟩; exact h
  · intro h; exact ⟨_, _, ⟨rfl, rfl⟩, h⟩

/-- The calls this world does not see: any answer, nothing changed. -/
theorem run_other {o : Sys} (ho : ∀ r w', chiama m w o r w' ↔ w' = w) {k : o.Ans → Programma α} :
    Prog.Runs (chiama m) (.call o k) w a w' ↔ ∃ r, Prog.Runs (chiama m) (k r) w a w' := by
  constructor
  · rintro ⟨r, w₁, h1, h⟩
    rw [ho] at h1
    subst h1
    exact ⟨r, h⟩
  · rintro ⟨r, h⟩
    exact ⟨r, w, (ho r w).mpr rfl, h⟩

/-- What goes to the terminal is not recorded here. -/
@[simp] theorem run_printf {bs : Bytes} {k : Unit → Programma α} :
    Prog.Runs (chiama m) (.call (.printf bs) k) w a w' ↔ Prog.Runs (chiama m) (k ()) w a w' := by
  rw [run_other fun _ _ => Iff.rfl]
  exact ⟨fun ⟨_, h⟩ => h, fun h => ⟨(), h⟩⟩

/-- ... nor is what is thrown away of the user's line. -/
@[simp] theorem run_pulisciInput {k : Unit → Programma α} :
    Prog.Runs (chiama m) (.call .pulisciInput k) w a w' ↔ Prog.Runs (chiama m) (k ()) w a w' := by
  rw [run_other fun _ _ => Iff.rfl]
  exact ⟨fun ⟨_, h⟩ => h, fun h => ⟨(), h⟩⟩

/-- Closing the connection says nothing about the database. -/
@[simp] theorem run_mysqlClose {k : Unit → Programma α} :
    Prog.Runs (chiama m) (.call .mysqlClose k) w a w' ↔ Prog.Runs (chiama m) (k ()) w a w' := by
  rw [run_other fun _ _ => Iff.rfl]
  exact ⟨fun ⟨_, h⟩ => h, fun h => ⟨(), h⟩⟩

/-- The engine may be out of reach: both answers are possible. -/
@[simp] theorem run_mysqlInit {k : Bool → Programma α} :
    Prog.Runs (chiama m) (.call .mysqlInit k) w a w' ↔ ∃ ok, Prog.Runs (chiama m) (k ok) w a w' :=
  run_other fun _ _ => Iff.rfl

@[simp] theorem run_mysqlRealConnect {k : Bool → Programma α} :
    Prog.Runs (chiama m) (.call .mysqlRealConnect k) w a w' ↔
      ∃ ok, Prog.Runs (chiama m) (k ok) w a w' :=
  run_other fun _ _ => Iff.rfl

/-- `select` may report any of the descriptors; which ones is left open. -/
@[simp] theorem run_select {nfds : Int} {rs ws : List Int}
    {k : Option (List Int × List Int) → Programma α} :
    Prog.Runs (chiama m) (.call (.select nfds rs ws) k) w a w' ↔
      ∃ pronti, Prog.Runs (chiama m) (k pronti) w a w' :=
  run_other fun _ _ => Iff.rfl

/-- `accept` returns some descriptor, or an error. -/
@[simp] theorem run_accept {fd : Int} {k : Int → Programma α} :
    Prog.Runs (chiama m) (.call (.accept fd) k) w a w' ↔
      ∃ connfd, Prog.Runs (chiama m) (k connfd) w a w' :=
  run_other fun _ _ => Iff.rfl

/-- The user types a number, or something that is none. -/
@[simp] theorem run_scanf {k : Option Int → Programma α} :
    Prog.Runs (chiama m) (.call .scanf k) w a w' ↔ ∃ n, Prog.Runs (chiama m) (k n) w a w' :=
  run_other fun _ _ => Iff.rfl

/-- The text of an error is the engine's. -/
@[simp] theorem run_mysqlError {k : Bytes → Programma α} :
    Prog.Runs (chiama m) (.call .mysqlError k) w a w' ↔
      ∃ err, Prog.Runs (chiama m) (k err) w a w' :=
  run_other fun _ _ => Iff.rfl

/-- A variable without an initialiser holds any bytes. -/
@[simp] theorem run_indeterminato {n : Nat} {k : Buffer n → Programma α} :
    Prog.Runs (chiama m) (.call (.indeterminato n) k) w a w' ↔
      ∃ b, Prog.Runs (chiama m) (k b) w a w' :=
  run_other fun _ _ => Iff.rfl

/-- What lies behind a buffer that has no NUL: anything. -/
@[simp] theorem run_oltre {k : Bytes → Programma α} :
    Prog.Runs (chiama m) (.call .oltre k) w a w' ↔ ∃ bs, Prog.Runs (chiama m) (k bs) w a w' :=
  run_other fun _ _ => Iff.rfl

/-- Where C leaves the behaviour undefined there is no execution to speak of. -/
@[simp] theorem run_indefinito : ¬ Prog.Runs (chiama m) (indefinito : Programma α) w a w' := by
  rintro ⟨r, -⟩
  exact r.elim

/-- A program that exits has no value to return. -/
@[simp] theorem run_exit : ¬ Prog.Runs (chiama m) (exit : Programma α) w a w' := by
  rintro ⟨r, -⟩
  exact r.elim

end Runs

end Mondo

end Universita

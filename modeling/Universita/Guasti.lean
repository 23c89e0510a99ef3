/-
  WHEN MYSQL FAILS — requests against a database whose calls may each succeed or fail.

  In `Mondo` a statement may always fail.  Here it is given which calls succeed (`Funziona`), so that a
  theorem can speak about every combination of failures, or about none.  The engine refuses what it
  refuses besides.

  The source looks at some failures and not at others.  A connection that failed is used all the same, a statement
  that failed is answered and its missing result is used, and only a handle or a result that is NULL where the library
  wants one is undefined.  So the demand on a run comes in three strengths (`Esige`): nothing; that the program gets
  to its end; that it does so without ever having been given a NULL result set.

  `Compie` is the weakest precondition of a program under such a demand, and for every function of the server there
  is one EQUIVALENCE that says what it comes to in terms of the engine and the failures.  They are proved bottom up
  and each uses the ones below by `simp`; none of the later files looks at the programs again.

  Contents:
  1. `Funziona`, `esito`, `risponde` — the answers.  A result set is there once, after a statement that
     went through; asked for otherwise, `mysql_store_result` and `mysql_use_result` answer NULL.
  2. `Esige`, `Compie` — what is asked of each call: nothing; that it is answered, so that the program gets to its
     end; and that the answer is no NULL result set.  The routines pass on every result set they get.
  3. `safe_…` — the weakest precondition, call by call, and then function by function.
-/
import Universita.Accesso
import Universita.Server

set_option linter.unusedVariables false

namespace Universita

open Lib Server

/-! ## The answers -/

/-- Which of the MySQL calls succeed, statement by statement. It is an argument of every result about
    failures, so each is about every combination of them. -/
structure Funziona where
  /-- `mysql_init` gives a handle. -/
  mysqlInit : Bool
  /-- `mysql_real_connect` connects. -/
  mysqlRealConnect : Bool
  /-- `mysql_query` gets this statement through; the engine may still refuse it. -/
  mysqlQuery : Query → Bool
  /-- The client gets the result set it asks for. -/
  mysqlResult : Bool

/-- They all do. -/
def Funziona.sempre : Funziona := ⟨true, true, fun _ => true, true⟩

namespace Mondo

variable {D : Type}

/-- What a statement does, `none` when `mysql_query` returns nonzero: it had no effect then. -/
def esito (m : Motore D) (f : Funziona) (d : D) (q : Query) : Option (D × List Row) :=
  if f.mysqlQuery q then m d q else none

/-- Where everything works, what the engine says. -/
theorem esito_sempre (m : Motore D) (d : D) (q : Query) : esito m .sempre d q = m d q := rfl

/-- The result set a program gets when it asks for one. -/
def risultatoDi (f : Funziona) (w : Mondo D) : Option (List Row) :=
  if f.mysqlResult then w.risultato else none

/-- `w` after the statement `q`, with what came of it: the tables and the rows, or nothing. It is
    recorded in either case. -/
def dopo (w : Mondo D) (q : Query) : Option (D × List Row) → Mondo D
  | some p => { w with db := p.1, istruzioni := w.istruzioni ++ [q], risultato := some p.2 }
  | none => { w with istruzioni := w.istruzioni ++ [q], risultato := none }

/-- `w` after a write. -/
def scritto (w : Mondo D) (fd : Int) (bs : Bytes) : Mondo D := { w with uscita := w.uscita ++ [(fd, bs)] }

/-- A statement writes nothing to a socket. -/
@[simp] theorem uscita_dopo (w : Mondo D) (q : Query) (e : Option (D × List Row)) :
    (w.dopo q e).uscita = w.uscita := by cases e <;> rfl

/-- The answers of a database of which `f` works; `err w` are the texts of `mysql_error` in `w`, of
    which C says only that they are texts. -/
def risponde (m : Motore D) (err : Mondo D → Bytes → Prop) (f : Funziona) (w : Mondo D) :
    (o : Sys) → o.Ans → Mondo D → Prop
  | .mysqlInit, ok, w' => ok = f.mysqlInit ∧ w' = w
  | .mysqlRealConnect, ok, w' => ok = f.mysqlRealConnect ∧ w' = w
  | .mysqlQuery q, ok, w' => ok = (esito m f w.db q).isSome ∧ w' = w.dopo q (esito m f w.db q)
  | .mysqlStoreResult, r, w' => r = w.risultatoDi f ∧ w' = { w with risultato := none }
  | .mysqlUseResult, r, w' => r = w.risultatoDi f ∧ w' = { w with risultato := none }
  | .mysqlError, e, w' => err w e ∧ w' = w
  | o, r, w' => chiama m w o r w'

/-- Where `mysql_error` may say anything, it says something. -/
theorem errore_qualunque (w : Mondo D) : ∃ e : Bytes, (fun (_ : Mondo D) (_ : Bytes) => True) w e :=
  ⟨[], trivial⟩

/-! ## What is asked of a call -/

/-- What is asked of the calls of a run. -/
inductive Esige where
  /-- Nothing. -/
  | nulla
  /-- Each is answered ... -/
  | fine
  /-- ... and not with a NULL result set. -/
  | maniglie
deriving DecidableEq

/-- The answer is a NULL result set. -/
def Nullo : (o : Sys) → o.Ans → Prop
  | .mysqlStoreResult, r | .mysqlUseResult, r => r = none
  | _, _ => False

/-- The call is as `x` asks: it has an answer at all, and hands no NULL result set to a call that looks
    into it. -/
def Lecita (m : Motore D) (err : Mondo D → Bytes → Prop) (f : Funziona) (x : Esige) (w : Mondo D)
    (o : Sys) : Prop :=
  (x ≠ .nulla → Prog.Answers (risponde m err f) w o) ∧
  (x = .maniglie → ∀ r w', risponde m err f w o r w' → ¬ Nullo o r)

/-- `p` calls only as `x` asks, and ends in `Q`: with `x` above `nulla` every run gets to its end, since
    each call is answered. -/
abbrev Compie {α : Type} (m : Motore D) (err : Mondo D → Bytes → Prop) (f : Funziona) (x : Esige)
    (p : Programma α) (Q : α → Mondo D → Prop) (w : Mondo D) : Prop :=
  p.Safe (risponde m err f) (Lecita m err f x) Q w

section Compie

variable {m : Motore D} {err : Mondo D → Bytes → Prop} {f : Funziona} {x : Esige} {α β : Type}
  {Q : α → Mondo D → Prop} {w w' : Mondo D} {a : α}

/-- Where the end is asked for, there is a run, and it ends in `Q`. -/
theorem Compie.esiste {p : Programma α} (h : Compie m err f x p Q w) (hx : x ≠ .nulla) :
    ∃ a w', Prog.Runs (risponde m err f) p w a w' ∧ Q a w' :=
  Prog.Safe.exists_runs h fun _ _ ho => ho.1 hx

/-- Where nothing is asked, `Compie` is about the ends of the runs. -/
theorem compie_nulla_iff {p : Programma α} : Compie m err f .nulla p Q w ↔
    ∀ a w', Prog.Runs (risponde m err f) p w a w' → Q a w' :=
  Prog.safe_iff_runs fun _ _ => ⟨fun h => absurd rfl h, nofun⟩

theorem safe_poi {p : Programma α} {k : α → Programma β} {Q : β → Mondo D → Prop} :
    Compie m err f x (p >>= k) Q w ↔ Compie m err f x p (fun a w' => Compie m err f x (k a) Q w') w :=
  Prog.safe_bind p k Q w

theorem safe_risultato {o : Sys} {k : o.Ans → Programma α} {r : o.Ans} {w' : Mondo D}
    (hT : ∀ r' w'', risponde m err f w o r' w'' ↔ r' = r ∧ w'' = w') :
    Compie m err f x (.call o k) Q w ↔ (x = .maniglie → ¬ Nullo o r) ∧ Compie m err f x (k r) Q w' := by
  constructor
  · intro h
    exact ⟨fun hx => h.1.2 hx r w' ((hT r w').mpr ⟨rfl, rfl⟩), h.2 r w' ((hT r w').mpr ⟨rfl, rfl⟩)⟩
  · rintro ⟨hn, hk⟩
    refine ⟨⟨fun _ => ⟨r, w', (hT r w').mpr ⟨rfl, rfl⟩⟩, fun hx r' w'' h => ?_⟩, fun r' w'' h => ?_⟩
    · obtain ⟨rfl, rfl⟩ := (hT r' w'').mp h
      exact hn hx
    · obtain ⟨rfl, rfl⟩ := (hT r' w'').mp h
      exact hk

/-- A call with one answer that is no NULL result set. -/
theorem safe_una {o : Sys} {k : o.Ans → Programma α} {r : o.Ans} {w' : Mondo D}
    (hT : ∀ r' w'', risponde m err f w o r' w'' ↔ r' = r ∧ w'' = w') (hn : ¬ Nullo o r) :
    Compie m err f x (.call o k) Q w ↔ Compie m err f x (k r) Q w' :=
  (safe_risultato hT).trans (and_iff_right fun _ => hn)

/-- A call that may be answered with anything in `A`, and changes nothing: what follows has to hold for
    each of these answers. -/
theorem safe_ogni {o : Sys} {k : o.Ans → Programma α} {A : o.Ans → Prop} (hA : ∃ r, A r)
    (hnull : ∀ r, ¬ Nullo o r) (hT : ∀ r' w'', risponde m err f w o r' w'' ↔ A r' ∧ w'' = w) :
    Compie m err f x (.call o k) Q w ↔ ∀ r, A r → Compie m err f x (k r) Q w := by
  constructor
  · intro h r hr
    exact h.2 r w ((hT r w).mpr ⟨hr, rfl⟩)
  · intro h
    obtain ⟨r, hr⟩ := hA
    refine ⟨⟨fun _ => ⟨r, w, (hT r w).mpr ⟨hr, rfl⟩⟩, fun _ r' _ _ => hnull r'⟩, fun r' w'' h' => ?_⟩
    obtain ⟨hr', rfl⟩ := (hT r' w'').mp h'
    exact h r' hr'

/-! ## The calls -/

/-- Where C defines nothing no end is reached. -/
@[simp] theorem safe_indefinito :
    Compie m err f x (indefinito : Programma α) Q w ↔ x = .nulla := by
  constructor
  · intro h
    by_contra hx
    obtain ⟨r, -⟩ := h.1.1 hx
    exact r.elim
  · rintro rfl
    exact ⟨⟨fun h => absurd rfl h, nofun⟩, nofun⟩

@[simp] theorem safe_mysqlInit {k : Bool → Programma α} : Compie m err f x (.call .mysqlInit k) Q w ↔
    Compie m err f x (k f.mysqlInit) Q w :=
  safe_una (fun _ _ => Iff.rfl) not_false

@[simp] theorem safe_mysqlRealConnect {k : Bool → Programma α} :
    Compie m err f x (.call .mysqlRealConnect k) Q w ↔ Compie m err f x (k f.mysqlRealConnect) Q w :=
  safe_una (fun _ _ => Iff.rfl) not_false

/-- The statement goes through, or has no effect. -/
@[simp] theorem safe_mysqlQuery {q : Query} {k : Bool → Programma α} :
    Compie m err f x (.call (.mysqlQuery q) k) Q w ↔
      Compie m err f x (k (esito m f w.db q).isSome) Q (w.dopo q (esito m f w.db q)) :=
  safe_una (fun _ _ => Iff.rfl) not_false

/-- The result set that waits; where NULL is excluded there has to be one. -/
@[simp] theorem safe_mysqlStoreResult {k : Option (List Row) → Programma α} :
    Compie m err f x (.call .mysqlStoreResult k) Q w ↔ (x = .maniglie → w.risultatoDi f ≠ none) ∧
      Compie m err f x (k (w.risultatoDi f)) Q { w with risultato := none } :=
  safe_risultato fun _ _ => Iff.rfl

@[simp] theorem safe_mysqlUseResult {k : Option (List Row) → Programma α} :
    Compie m err f x (.call .mysqlUseResult k) Q w ↔ (x = .maniglie → w.risultatoDi f ≠ none) ∧
      Compie m err f x (k (w.risultatoDi f)) Q { w with risultato := none } :=
  safe_risultato fun _ _ => Iff.rfl

@[simp] theorem safe_mysqlClose {k : Unit → Programma α} :
    Compie m err f x (.call .mysqlClose k) Q w ↔ Compie m err f x (k ()) Q w :=
  safe_una (fun _ _ => ⟨fun h => ⟨rfl, h⟩, fun h => h.2⟩) not_false

@[simp] theorem safe_write {fd : Int} {bs : Bytes} {k : Unit → Programma α} :
    Compie m err f x (.call (.write fd bs) k) Q w ↔ Compie m err f x (k ()) Q (w.scritto fd bs) :=
  safe_una (fun _ _ => ⟨fun h => ⟨rfl, h⟩, fun h => h.2⟩) not_false

@[simp] theorem safe_printf {bs : Bytes} {k : Unit → Programma α} :
    Compie m err f x (.call (.printf bs) k) Q w ↔ Compie m err f x (k ()) Q w :=
  safe_una (fun _ _ => ⟨fun h => ⟨rfl, h⟩, fun h => h.2⟩) not_false

/-- A read takes what comes next, if the buffer holds it; with nothing to come it has no answer, and the
    program waits. -/
theorem safe_read {fd : Int} {n : Nat} {k : Bytes → Programma α} {r : Bytes} {rest : List Bytes}
    (hin : w.ingresso = r :: rest) (hr : r.length ≤ n) :
    Compie m err f x (.call (.read fd n) k) Q w ↔
      Compie m err f x (k r) Q { w with ingresso := rest } := by
  refine safe_una (fun r' w'' => ?_) not_false
  constructor
  · rintro ⟨rest', h, -, rfl⟩
    obtain ⟨rfl, rfl⟩ := List.cons.inj (hin.symm.trans h)
    exact ⟨rfl, rfl⟩
  · rintro ⟨rfl, rfl⟩
    exact ⟨rest, hin, hr, rfl⟩

/-- What uninitialised memory holds may be anything. -/
@[simp] theorem safe_indeterminato {n : Nat} {k : Buffer n → Programma α} :
    Compie m err f x (.call (.indeterminato n) k) Q w ↔ ∀ b, Compie m err f x (k b) Q w := by
  have h : ∃ b : Buffer n, True := ⟨Buffer.zero n, trivial⟩
  rw [safe_ogni (o := .indeterminato n) h (fun _ => not_false) fun _ _ => ⟨fun h => ⟨trivial, h⟩, fun h => h.2⟩]
  exact forall_congr' fun _ => forall_const _

/-- What lies behind a buffer may be anything. -/
@[simp] theorem safe_oltre {k : Bytes → Programma α} :
    Compie m err f x (.call .oltre k) Q w ↔ ∀ bs, Compie m err f x (k bs) Q w := by
  have h : ∃ bs : Bytes, True := ⟨[], trivial⟩
  rw [safe_ogni (o := .oltre) h (fun _ => not_false) fun _ _ => ⟨fun h => ⟨trivial, h⟩, fun h => h.2⟩]
  exact forall_congr' fun _ => forall_const _

/-- Any of the texts that `mysql_error` may say. -/
theorem safe_mysqlError {k : Bytes → Programma α} (h : ∃ e, err w e) :
    Compie m err f x (.call .mysqlError k) Q w ↔ ∀ e, err w e → Compie m err f x (k e) Q w :=
  safe_ogni (o := .mysqlError) h (fun _ => not_false) fun _ _ => Iff.rfl

/-- The string in a buffer is one that can be found there: with a NUL in it there is one, without it
    there are many. -/
theorem safe_cString {n : Nat} {b : Buffer n} {Q : Bytes → Mondo D → Prop} :
    Compie m err f x (cString b) Q w ↔ ∀ t, Stringa b t → Q t w := by
  unfold cString Stringa
  split
  · rename_i h
    simp [h]
  · rename_i h
    simp only [Prog.op_eq, Prog.call_bind, Prog.ret_bind, Prog.pure_eq, safe_oltre, Prog.safe_ret]
    constructor
    · rintro hq t (⟨h', -⟩ | ⟨-, dietro, rfl⟩)
      · exact absurd h' h
      · exact hq dietro
    · intro hq dietro
      exact hq _ (Or.inr ⟨h, dietro, rfl⟩)

/-! ## The functions of the server -/

/-- The reply to an appello that was inserted. -/
def appelloInserito : Bytes := ascii "inserimento del nuovo appello completato con successo!"

/-- The connection of a request: open, closed, or C defines nothing. -/
@[simp] theorem safe_connection {Q : Conn → Mondo D → Prop} : Compie m err f x connection Q w ↔
    if f.mysqlInit then Q (if f.mysqlRealConnect then .aperta else .chiusa) w else x = .nulla := by
  simp only [connection, Prog.op_eq, Prog.call_bind, Prog.ret_bind, safe_mysqlInit]
  cases f.mysqlInit with
  | false => exact safe_indefinito
  | true =>
    simp only [Bool.true_eq_false, if_false, if_true, safe_mysqlRealConnect]
    cases f.mysqlRealConnect with
    | true => exact Iff.rfl
    | false => simp

/-- A statement on an open connection. -/
@[simp] theorem safe_query_aperta {q : Query} {Q : Bool → Mondo D → Prop} :
    Compie m err f x (query .aperta q) Q w ↔
      Q (esito m f w.db q).isSome (w.dopo q (esito m f w.db q)) :=
  safe_mysqlQuery

@[simp] theorem safe_query_chiusa {q : Query} {Q : Bool → Mondo D → Prop} :
    Compie m err f x (query .chiusa q) Q w ↔ x = .nulla :=
  safe_indefinito

/-- The answer to a failed statement is its text. -/
theorem safe_scriviErrore {fd : Int} {Q : Unit → Mondo D → Prop} (h : ∃ e, err w e) :
    Compie m err f x (scriviErrore fd) Q w ↔ ∀ e, err w e → Q () (w.scritto fd e) := by
  simp only [scriviErrore, Prog.op_eq, Prog.call_bind, Prog.ret_bind, safe_mysqlError h, safe_write,
    Prog.safe_ret]

/-- The value `ultimoId` fetches, `none` where a row has no id. -/
def ultimo (i : Int) : List Row → Option Int
  | [] => some i
  | (some id :: _) :: rows => ultimo (Buffer.ofInt (strtol id)).toInt rows
  | _ :: _ => none

/-- The loop over the ids ends with the last one, or with a NULL column. -/
theorem safe_ultimoId {Q : Int → Mondo D → Prop} {rows : List Row} : ∀ {i : Int},
    Compie m err f x (ultimoId i rows) Q w ↔ (ultimo i rows).elim (x = .nulla) (Q · w) := by
  induction rows with
  | nil => exact Iff.rfl
  | cons row rows ih =>
    intro i
    match row with
    | some _ :: _ => exact ih
    | none :: _ => exact safe_indefinito
    | [] => exact safe_indefinito

/-- It has a value when each row has an id. -/
theorem isSome_ultimo {r : List Row} : ∀ {i : Int},
    (ultimo i r).isSome ↔ ∀ row ∈ r, ∃ id cols, row = some id :: cols := by
  induction r with
  | nil => simp [ultimo]
  | cons row rows ih =>
    intro i
    match row with
    | some _ :: _ => simp [ultimo, ih]
    | none :: _ => simp [ultimo]
    | [] => simp [ultimo]

/-- The reply to the insert of an appello: the success, or a text that depends on what `mysql_error` is
    found to say about foreign keys. -/
theorem safe_esitoAppello {fd : Int} {ok : Bool} {Q : Unit → Mondo D → Prop} (h : ∀ w, ∃ e, err w e) :
    Compie m err f x (esitoAppello fd ok) Q w ↔
      if ok then Q () (w.scritto fd appelloInserito)
      else ∀ e, err w e → if strstr e (ascii "foreign key constraint fails")
        then Q () (w.scritto fd (ascii "non esiste un esame con questo nome!"))
        else ∀ e', err w e' → Q () (w.scritto fd e') := by
  cases ok with
  | true => exact safe_write
  | false =>
    simp only [esitoAppello, Bool.false_eq_true, if_false, Prog.op_eq, Prog.call_bind, Prog.ret_bind,
      safe_mysqlError (h w)]
    refine forall₂_congr fun e _ => ?_
    split
    · exact safe_write
    · rw [safe_mysqlError (h w)]
      exact forall₂_congr fun e' _ => safe_write

/-- A NULL result set is what `maniglie` excludes. -/
theorem senza_null {α : Type} : (x = .maniglie → (none : Option α) ≠ none) ↔ x ≠ .maniglie :=
  ⟨fun h hx => h hx rfl, fun h hx => absurd hx h⟩

/-- Without a result set nothing is promised. -/
theorem solo_nulla {α : Type} :
    (x = .maniglie → (none : Option α) ≠ none) ∧ x = .nulla ↔ x = .nulla :=
  and_iff_right_of_imp fun hx hm => absurd (hx.symm.trans hm) nofun

/-- The connection to MySQL is there. -/
def connesso (f : Funziona) : Bool := f.mysqlInit && f.mysqlRealConnect

/-- Where everything works there is a connection. -/
theorem connesso_sempre : connesso .sempre = true := rfl

/-- `w` after the statement `q` went through with `p` and its result set was taken. -/
def preso (w : Mondo D) (q : Query) (p : D × List Row) : Mondo D :=
  { w with db := p.1, istruzioni := w.istruzioni ++ [q], risultato := none }

/-- `aggiungiAppello` behind its reads, `idEsame` being what the uninitialised variable holds. It is the
    routine itself, cut where its input is known. -/
def corpoAppello (connfd : Int) (conn : Conn) (nomeEsame : Buffer 255) (date : Buffer 12)
    (idEsame : Buffer 4) :
    Programma Unit := do
  let nomeEsame ← cString nomeEsame
  let _ ← query conn (.idEsame nomeEsame)
  let res ← sys .mysqlUseResult
  match res with
  | none => indefinito
  | some rows =>
    let idEsame ← ultimoId idEsame.toInt rows
    let date ← cString date
    let ok ← query conn (.inserisciAppello idEsame date)
    esitoAppello connfd ok
    sys .mysqlClose

/-- An appello is its reads and what is behind them. -/
theorem aggiungiAppello_eq (connfd : Int) : aggiungiAppello connfd = (do
    let conn ← connection
    let r ← sys (.read connfd 255)
    let r' ← sys (.read connfd 12)
    let idEsame ← sys (.indeterminato 4)
    corpoAppello connfd conn ((Buffer.zero 255).overlay r) ((Buffer.zero 12).overlay r') idEsame) := rfl

/-- Behind the reads of an appello, on an open connection: the id, the insert, one answer. The weakest
    precondition, as an equivalence, for each content of the variable. -/
theorem safe_corpoAppello {fd : Int} {Q : Unit → Mondo D → Prop} {b : Buffer 255} {b' : Buffer 12}
    {i : Buffer 4} : Compie m err f x (corpoAppello fd .aperta b b' i) Q w ↔ ∀ nome, Stringa b nome →
      match esito m f w.db (.idEsame nome), f.mysqlResult with
      | some p, true => (ultimo i.toInt p.2).elim (x = .nulla) fun id => ∀ data, Stringa b' data →
          Compie m err f x (esitoAppello fd (esito m f p.1 (.inserisciAppello id data)).isSome)
            (fun _ => Q ()) ((w.preso (.idEsame nome) p).dopo (.inserisciAppello id data)
              (esito m f p.1 (.inserisciAppello id data)))
      | _, _ => x = .nulla := by
  simp only [corpoAppello, Prog.op_eq, Prog.call_bind, Prog.ret_bind, safe_poi, safe_cString,
    safe_query_aperta, safe_mysqlUseResult]
  refine forall₂_congr fun nome _ => ?_
  -- a search that failed or whose result is not there: `mysql_fetch_row` gets NULL
  cases esito m f w.db (.idEsame nome) with
  | none =>
    simp only [dopo, risultatoDi, ite_self, safe_indefinito]
    exact solo_nulla
  | some p =>
    simp only [dopo, risultatoDi]
    cases f.mysqlResult with
    | false =>
      simp only [Bool.false_eq_true, if_false, safe_indefinito]
      exact solo_nulla
    | true =>
      simp only [if_true, safe_poi, safe_ultimoId, safe_cString, safe_query_aperta, safe_mysqlClose,
        Prog.safe_ret]
      exact and_iff_right fun _ h => Option.some_ne_none _ h

/-- **A new appello**: the name is looked up, then the insert is made with the id found. Without a
    connection the statements are issued all the same, and C defines nothing. -/
theorem safe_aggiungiAppello {fd : Int} {Q : Unit → Mondo D → Prop} {r r' : Bytes} {rest : List Bytes}
    (hin : w.ingresso = r :: r' :: rest) (hr : r.length ≤ 255) (hr' : r'.length ≤ 12) :
    Compie m err f x (aggiungiAppello fd) Q w ↔
      if connesso f then ∀ (i : Buffer 4) (nome : Bytes), Stringa ((Buffer.zero 255).overlay r) nome →
        match esito m f w.db (.idEsame nome), f.mysqlResult with
        | some p, true => (ultimo i.toInt p.2).elim (x = .nulla) fun id =>
          ∀ data, Stringa ((Buffer.zero 12).overlay r') data →
            Compie m err f x (esitoAppello fd (esito m f p.1 (.inserisciAppello id data)).isSome)
              (fun _ => Q ()) ((({ w with ingresso := rest } : Mondo D).preso (.idEsame nome) p).dopo
                (.inserisciAppello id data) (esito m f p.1 (.inserisciAppello id data)))
        | _, _ => x = .nulla
      else x = .nulla := by
  rw [aggiungiAppello_eq, safe_poi, safe_connection, connesso]
  cases f.mysqlInit with
  -- the connection failed: the first statement is made on a closed handle
  | false => exact Iff.rfl
  | true =>
    simp only [if_true, Bool.true_and, Prog.op_eq, Prog.call_bind, Prog.ret_bind]
    rw [safe_read hin hr, safe_read rfl hr', safe_indeterminato]
    cases f.mysqlRealConnect with
    | false =>
      obtain ⟨nome, hnome⟩ := esiste_stringa ((Buffer.zero 255).overlay r)
      simp only [Bool.false_eq_true, if_false, corpoAppello, safe_poi, safe_cString, safe_query_chiusa]
      exact ⟨fun h => h (Buffer.zero 4) nome hnome, fun h _ _ _ => h⟩
    | true => exact forall_congr' fun i => safe_corpoAppello

/-- What the row of the eligibility query is used for: the exam and its date. -/
def rigaVerifica : Row → Option (Int × Bytes)
  | [some id, some data] =>
      if data.length < 12 then some ((Buffer.ofInt (strtol id)).toInt, data) else none
  | _ => none

/-- The end of a booking, as a function of its row. -/
theorem inserisciPrenotazione_eq (fd : Int) (conn : Conn) (mat : Int) (row : Row) :
    inserisciPrenotazione fd conn mat row = (rigaVerifica row).elim indefinito fun r =>
      query conn (.inserimento mat r.1) >>= fun ok =>
        if ok then sys (.write fd (prenotazioneInserita r.2)) else scriviErrore fd := by
  rcases row with _ | ⟨_ | id, _ | ⟨_ | data, _ | _⟩⟩
  case cons.some.cons.some.nil =>
    by_cases hlen : data.length < 12
    · simp [inserisciPrenotazione, rigaVerifica, hlen]
    · simp [inserisciPrenotazione, rigaVerifica, hlen]
  all_goals rfl

/-- The insert of a booking and the answer to it. A row whose columns are not two texts cannot be used:
    the code prints one and converts the other without a look. -/
theorem safe_inserisciPrenotazione {fd mat : Int} {row : Row} {Q : Unit → Mondo D → Prop}
    (h : ∀ w, ∃ e, err w e) :
    Compie m err f x (inserisciPrenotazione fd .aperta mat row) Q w ↔
      (rigaVerifica row).elim (x = .nulla) fun r =>
        match esito m f w.db (.inserimento mat r.1) with
        | some p => Q () ((w.dopo (.inserimento mat r.1) (some p)).scritto fd (prenotazioneInserita r.2))
        | none => ∀ e, err (w.dopo (.inserimento mat r.1) none) e →
            Q () ((w.dopo (.inserimento mat r.1) none).scritto fd e) := by
  rw [inserisciPrenotazione_eq]
  cases rigaVerifica row with
  | none => exact safe_indefinito
  | some r =>
    simp only [Option.elim_some, safe_poi, safe_query_aperta]
    cases esito m f w.db (.inserimento mat r.1) with
    | some p => exact safe_write
    | none => exact safe_scriviErrore (h _)

/-- The end of `aggiungiPrenotazione`, from the result set of the eligibility query on. Without one an
    error is written, and then its rows are counted. -/
def esitoVerifica (connfd : Int) (conn : Conn) (mat : Int) (res : Option (List Row)) :
    Programma Unit := do
  match res with
  | none =>
    scriviErrore connfd
    indefinito
  | some [] => sys (.write connfd (ascii "invalid id or data!"))
  | some (row :: _) => inserisciPrenotazione connfd conn mat row
  sys .mysqlClose

/-- A booking is its reads, its eligibility query, and what is behind that. The last part has a name of
    its own, so that its three branches are verified once. -/
theorem aggiungiPrenotazione_eq (connfd : Int) : aggiungiPrenotazione connfd = (do
    let conn ← connection
    let id ← sys (.indeterminato 4)
    let mat ← sys (.indeterminato 4)
    let r ← sys (.read connfd 4)
    let id := (id.overlay r).toInt
    let r ← sys (.read connfd 4)
    let mat := (mat.overlay r).toInt
    let ok ← query conn (.verificaPrenotazione id mat)
    if !ok then scriviErrore connfd
    let res ← sys .mysqlStoreResult
    esitoVerifica connfd conn mat res) := rfl

/-- Behind the eligibility query: no result, no row, or a row. Only the first row is looked at, and a
    missing result is handed on to calls that want one. -/
theorem safe_esitoVerifica {fd mat : Int} {res : Option (List Row)} {Q : Unit → Mondo D → Prop}
    (h : ∀ w, ∃ e, err w e) :
    Compie m err f x (esitoVerifica fd .aperta mat res) Q w ↔
      match res with
      | none => x = .nulla
      | some [] => Q () (w.scritto fd (ascii "invalid id or data!"))
      | some (row :: _) => Compie m err f x (inserisciPrenotazione fd .aperta mat row) (fun _ => Q ()) w := by
  match res with
  | none =>
    simp only [esitoVerifica, indefinito_bind, safe_poi, safe_scriviErrore (h w), safe_indefinito]
    obtain ⟨e, he⟩ := h w
    exact ⟨fun hx => hx e he, fun hx _ _ => hx⟩
  | some [] => simp [esitoVerifica]
  | some (row :: _) => simp [esitoVerifica, safe_poi]

/-- **A booking**: the eligibility query is made, then the insert if it has a row. Every branch is there
    with the text it writes. -/
theorem safe_aggiungiPrenotazione {fd : Int} {Q : Unit → Mondo D → Prop} {r r' : Bytes}
    {rest : List Bytes} (hin : w.ingresso = r :: r' :: rest) (hr : r.length ≤ 4) (hr' : r'.length ≤ 4)
    (h : ∀ w, ∃ e, err w e) :
    Compie m err f x (aggiungiPrenotazione fd) Q w ↔
      if connesso f then ∀ b b' : Buffer 4,
        match esito m f w.db (.verificaPrenotazione (b.overlay r).toInt (b'.overlay r').toInt),
          f.mysqlResult with
        | some p, true => match p.2 with
          | [] => Q () ((({ w with ingresso := rest } : Mondo D).preso (.verificaPrenotazione
              (b.overlay r).toInt (b'.overlay r').toInt) p).scritto fd (ascii "invalid id or data!"))
          | row :: _ => Compie m err f x (inserisciPrenotazione fd .aperta (b'.overlay r').toInt row)
              (fun _ => Q ()) (({ w with ingresso := rest } : Mondo D).preso (.verificaPrenotazione
              (b.overlay r).toInt (b'.overlay r').toInt) p)
        | _, _ => x = .nulla
      else x = .nulla := by
  rw [aggiungiPrenotazione_eq, safe_poi, safe_connection, connesso]
  cases f.mysqlInit with
  | false => exact Iff.rfl
  | true =>
    simp only [if_true, Bool.true_and, Prog.op_eq, Prog.call_bind, Prog.ret_bind, safe_indeterminato]
    refine (forall₂_congr fun b b' => (safe_read hin hr).trans (safe_read rfl hr')).trans ?_
    cases f.mysqlRealConnect with
    | false =>
      simp only [Bool.false_eq_true, if_false, safe_poi, safe_query_chiusa]
      exact ⟨fun h => h (Buffer.zero 4) (Buffer.zero 4), fun h _ _ => h⟩
    | true =>
      simp only [if_true, safe_poi, safe_query_aperta]
      refine forall₂_congr fun b b' => ?_
      cases esito m f w.db (.verificaPrenotazione (b.overlay r).toInt (b'.overlay r').toInt) with
      | none =>
        simp only [Option.isSome_none, Bool.not_false, if_true, safe_poi, safe_scriviErrore (h _),
          safe_mysqlStoreResult, safe_esitoVerifica h, dopo, scritto, risultatoDi, ite_self, solo_nulla]
        -- a failed query is reported, and then its result set is looked at all the same
        exact ⟨fun hx => hx _ (h _).choose_spec, fun hx _ _ => hx⟩
      | some p =>
        simp only [Option.isSome_some, Bool.not_true, Bool.false_eq_true, if_false,
          safe_mysqlStoreResult, safe_esitoVerifica h, dopo, risultatoDi]
        cases f.mysqlResult with
        | false => simp only [Bool.false_eq_true, if_false, solo_nulla]
        | true =>
          obtain ⟨d, rows⟩ := p
          refine (and_iff_right fun _ => nofun).trans ?_
          cases rows with
          | nil => exact Iff.rfl
          | cons row rows => exact Iff.rfl

end Compie

end Mondo

end Universita

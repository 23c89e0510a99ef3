/-
  BOTH PROGRAMS AND THE DATABASE — the composition of `sistema` with the one MySQL they share.

  Each program has its connection to MySQL, with the result set of its last statement waiting on it.  A
  statement reaches the engine as a TEXT, and runs on the database as it is then, on the day it is
  then: between the statements of one program those of the other may run.

  Nothing is assumed of what a text means.  An `Interprete` gives every text an effect, or refuses it; what it
  promises is that the templates with data in them mean what `Interroga` says, and that a text beginning with
  SELECT changes no table.  That second promise is what is left when a text is NOT data any more — a quote in a
  password, an exam's name that closes its literal — and it is enough for the secretary.

  The days are a function of how many calls were answered (`giorno`), so that two statements of one request can
  fall on two days; nothing says that the days go forward.

  Contents:
  1. `Interprete.chiama` — what MySQL answers on one connection; `chiama_…` — what each answer says.
  2. `Archivio`, `archivio` — the world and the composition; `archivio_ans₁`, `archivio_ans₂` — a move of it is
     a move of `sistema` and an answer of MySQL.
  3. `Segreteria.sola_lettura` — every statement of the secretary is a SELECT.
  4. **`segreteria_non_scrive`** — so nothing that is typed into it changes a table.
  5. `segreteria_non_scrive_apice` — a password that is a statement of its own, and goes through.
-/
import Universita.Lib.Steps
import Universita.Sistema
import Universita.Testo
import Universita.Dump

set_option linter.unusedVariables false

namespace Universita

open Lib Lib.Stream

/-! ## MySQL on one connection -/

section Interprete

variable {M : Mysql} (I : Interprete M)

/-- The database and the waiting result set after the answer `r` to `o`: a statement that fails does nothing,
    and a result set can be lost, or in part when it is fetched row by row. -/
def Interprete.chiama (oggi : Data) (db : BaseDati M.collazione) (res : Option (List Row)) :
    (o : Sys) → o.Ans → Option (BaseDati M.collazione × Option (List Row))
  | .mysqlInit, _ => some (db, none)
  | .mysqlQuery q, ok =>
      if ok then (I.esegui oggi db q.testo).map fun p => (p.1, some p.2) else some (db, none)
  | .mysqlStoreResult, r => if r = none ∨ r = res then some (db, none) else none
  | .mysqlUseResult, r => if r = none ∨ r.getD [] <+: res.getD [] ∧ res ≠ none then some (db, none) else none
  | _, _ => some (db, res)

variable {I} {oggi : Data} {db db' : BaseDati M.collazione} {res res' : Option (List Row)} {o : Sys} {r : o.Ans}

/-- A statement that goes through did to the database what its text means, and left its rows; one that
    does not, nothing. -/
theorem Interprete.chiama_query {q : Query} {ok : Bool}
    (h : I.chiama oggi db res (.mysqlQuery q) ok = some (db', res')) :
    (ok = true ∧ ∃ p, I.esegui oggi db q.testo = some p ∧ db' = p.1 ∧ res' = some p.2) ∨
      (ok = false ∧ db' = db ∧ res' = none) := by
  cases ok with
  | true =>
    obtain ⟨p, hp, heq⟩ := Option.map_eq_some_iff.mp h
    obtain ⟨rfl, rfl⟩ := Prod.mk.inj heq
    exact .inl ⟨rfl, p, hp, rfl, rfl⟩
  | false =>
    obtain ⟨rfl, rfl⟩ := Prod.mk.inj (Option.some.inj h)
    exact .inr ⟨rfl, rfl, rfl⟩

/-- What is stored is what was waiting, and it waits no more. -/
theorem Interprete.chiama_store {r : Option (List Row)}
    (h : I.chiama oggi db res .mysqlStoreResult r = some (db', res')) : (r = none ∨ r = res) ∧ db' = db ∧ res' = none := by
  simp only [chiama] at h
  split at h
  · rename_i hr
    obtain ⟨rfl, rfl⟩ := Prod.mk.inj (Option.some.inj h)
    exact ⟨hr, rfl, rfl⟩
  · cases h

/-- Only a statement touches the database: storing a result, fetching its rows and closing the
    connection do not. -/
theorem Interprete.chiama_fermo (ho : ∀ q, o ≠ .mysqlQuery q)
    (h : I.chiama oggi db res o r = some (db', res')) : db' = db := by
  cases o with
  | mysqlQuery q => exact absurd rfl (ho q)
  | mysqlStoreResult => exact (chiama_store h).2.1
  | mysqlUseResult =>
    simp only [chiama] at h
    split at h
    · exact (Prod.mk.inj (Option.some.inj h)).1.symm
    · cases h
  | _ => exact (Prod.mk.inj (Option.some.inj h)).1.symm

theorem Interprete.chiama_legge (ho : ∀ q, o = .mysqlQuery q → q.Legge)
    (h : I.chiama oggi db res o r = some (db', res')) : db' = db := by
  by_cases hq : ∃ q, o = .mysqlQuery q
  · obtain ⟨q, rfl⟩ := hq
    rcases chiama_query h with ⟨-, p, hp, rfl, -⟩ | ⟨-, rfl, -⟩
    · exact I.selezione ((selezione_testo q).mpr (ho q rfl)) hp
    · rfl
  · exact chiama_fermo (fun q heq => hq ⟨q, heq⟩) h

end Interprete

/-! ## The composition -/

/-- The world of both programs. -/
structure Archivio (M : Mysql) where
  /-- The sockets between them. -/
  rete : Rete
  /-- The tables. -/
  db : BaseDati M.collazione
  /-- The calls answered so far; the next is answered on `giorno ora`. -/
  ora : Nat
  /-- The result set waiting on the secretary's connection. -/
  resSeg : Option (List Row)
  /-- ... and on the server's. -/
  resSer : Option (List Row)

/-- The secretary, the server and the database, `giorno` saying which day it is at each call. The
    network answers as in the composition without a database; a statement is executed at once, on the
    tables as they are. -/
def archivio {M : Mysql} (sockfd : Int) (I : Interprete M) (giorno : Nat → Data) :
    Duo Sys Sys.Ans (Punto × Segreteria) Server (Archivio M) where
  body₁ := Segreteria.passo
  body₂ := Server.passo
  ans₁ e o r := do
    let rete ← (sistema sockfd).ans₁ e.rete o r
    let (db, resSeg) ← I.chiama (giorno e.ora) e.db e.resSeg o r
    pure { e with rete, db, resSeg, ora := e.ora + 1 }
  ans₂ e o r := do
    let rete ← (sistema sockfd).ans₂ e.rete o r
    let (db, resSer) ← I.chiama (giorno e.ora) e.db e.resSer o r
    pure { e with rete, db, resSer, ora := e.ora + 1 }

/-- A state of the composition. -/
abbrev StatoArchivio (M : Mysql) := Duo.State Sys Sys.Ans (Punto × Segreteria) Server (Archivio M)

/-- The start, with the database `db`: both loops at their head, nothing sent and no result waiting. -/
def inizioArchivio {M : Mysql} (clienti : Nat → Bytes) (s : Segreteria) (t : Server) (db : BaseDati M.collazione) :
    StatoArchivio M where
  turn₁ := (.esterno, s)
  trace₁ := []
  prog₁ := .ret (.esterno, s)
  turn₂ := t
  trace₂ := []
  prog₂ := .ret t
  env := ⟨(inizio clienti s t).env, db, 0, none, none⟩

section Mosse

variable {M : Mysql} {sockfd : Int} {I : Interprete M} {giorno : Nat → Data} {e e' : Archivio M}

/-- An answer to the secretary: what the network admits, and what MySQL does on the secretary's connection. -/
theorem archivio_ans₁ {o : Sys} {r : o.Ans} (h : (archivio sockfd I giorno).ans₁ e o r = some e') :
    (sistema sockfd).ans₁ e.rete o r = some e'.rete ∧
      I.chiama (giorno e.ora) e.db e.resSeg o r = some (e'.db, e'.resSeg) ∧ e'.resSer = e.resSer := by
  simp only [archivio, Option.bind_eq_bind, Option.bind_eq_some_iff, Option.pure_def,
    Option.some.injEq] at h
  obtain ⟨rete, h1, p, h2, rfl⟩ := h
  exact ⟨h1, h2, rfl⟩

/-- An answer to the server, likewise; the secretary's result set stays. -/
theorem archivio_ans₂ {o : Sys} {r : o.Ans} (h : (archivio sockfd I giorno).ans₂ e o r = some e') :
    (sistema sockfd).ans₂ e.rete o r = some e'.rete ∧
      I.chiama (giorno e.ora) e.db e.resSer o r = some (e'.db, e'.resSer) ∧ e'.resSeg = e.resSeg := by
  simp only [archivio, Option.bind_eq_bind, Option.bind_eq_some_iff, Option.pure_def,
    Option.some.injEq] at h
  obtain ⟨rete, h1, p, h2, rfl⟩ := h
  exact ⟨h1, h2, rfl⟩

/-- What a move of the server leaves alone: the secretary's turn, its side of the network and the result
    that waits for it. -/
theorem archivio_second {d d' : StatoArchivio M} {m : Mossa} (hm : ¬ m.first)
    (hs : (archivio sockfd I giorno).step d m = some d') : d'.turn₁ = d.turn₁ ∧ d'.trace₁ = d.trace₁ ∧
      d'.env.rete.seg = d.env.rete.seg ∧ d'.env.resSeg = d.env.resSeg := by
  cases m with
  | turn₁ => exact absurd trivial hm
  | act₁ o r => exact absurd trivial hm
  | turn₂ =>
    obtain ⟨_, -, rfl⟩ := Duo.step_turn₂ _ hs
    exact ⟨rfl, rfl, rfl, rfl⟩
  | act₂ o r =>
    obtain ⟨k, e, -, he, rfl⟩ := Duo.step_act₂ _ hs
    obtain ⟨hrete, -, hres⟩ := archivio_ans₂ he
    exact ⟨rfl, rfl, (sistema_ans₂.mp hrete).2.2, hres⟩

end Mosse

/-! ## The secretary -/

/-- The call is no statement, or a SELECT, as the text of the statement has it. -/
def Sys.Lettura (o : Sys) : Prop := ∀ q, o = .mysqlQuery q → q.Legge

/-- All statements of `p` are SELECTs. -/
abbrev SolaLettura {α : Type} (p : Programma α) : Prop :=
  p.Only (fun _ _ => True) Sys.Lettura fun _ => True

section SolaLettura

variable {α β : Type}

/-- A call that asks, in front of a program that only asks. -/
theorem sola_call {o : Sys} {k : o.Ans → Programma α} (ho : o.Lettura) (hk : ∀ r, SolaLettura (k r)) :
    SolaLettura (.call o k) :=
  Prog.only_call.mpr ⟨ho, fun r _ => hk r⟩

theorem sola_ret (a : α) : SolaLettura (.ret a : Programma α) := trivial

/-- Two programs that only ask, one after the other. -/
theorem SolaLettura.bind {p : Programma α} {f : α → Programma β} (hp : SolaLettura p)
    (hf : ∀ a, SolaLettura (f a)) : SolaLettura (p >>= f) :=
  (Prog.only_bind p f _).mpr (hp.mono fun a _ => hf a)

/-- Where C defines nothing, nothing is asked. -/
theorem sola_indefinito : SolaLettura (indefinito : Programma α) := sola_call nofun nofun

theorem sola_query {q : Query} (hq : q.Legge) : Sys.Lettura (.mysqlQuery q) := by
  rintro _ ⟨⟩
  exact hq

/-- Looking for a string is no statement. -/
theorem sola_cString {n : Nat} (b : Buffer n) : SolaLettura (cString b) := by
  rw [cString]
  split
  · exact sola_ret _
  · exact sola_call (by simp [Sys.Lettura]) fun _ => sola_ret _

theorem sola_leggiRiga {n : Nat} (b : Buffer n) : SolaLettura (leggiRiga b) := by
  refine sola_call nofun fun riga => (sola_cString _).bind fun testo => ?_
  split
  · exact sola_indefinito
  · exact sola_ret _

namespace Segreteria

theorem sola_accesso (s : Segreteria) : SolaLettura s.accesso := by
  refine sola_call nofun fun _ => sola_call nofun fun _ => sola_call nofun fun _ =>
    (sola_cString _).bind fun pw => sola_call (sola_query trivial) fun _ => sola_call nofun fun res => ?_
  cases res with
  | none => exact sola_call nofun nofun
  | some rows =>
    show SolaLettura (if _ then _ else _)
    split
    · exact sola_call nofun fun _ => sola_ret _
    · exact sola_call nofun fun _ => sola_ret _

theorem sola_accetta (s : Segreteria) : SolaLettura s.accetta := by
  refine sola_call nofun fun pronti => ?_
  show SolaLettura (if _ then _ else _)
  split
  · split
    · refine sola_call nofun fun fd => ?_
      show SolaLettura (if _ then _ else _)
      split
      · exact sola_ret _
      · exact (sola_accesso _).bind fun _ => sola_ret _
    · exact sola_indefinito
  · exact sola_ret _

/-- Sending a result issues no statement, whatever is in its rows: by their list, three writes a row. -/
theorem sola_inviaRighe (connfd : Int) (rows : List Row) :
    ∀ (nome : Buffer 255) (data : Buffer 12), SolaLettura (inviaRighe connfd nome data rows) := by
  have hscan : ∀ {n : Nat} (c : Prop) [Decidable c] (d : Prop) [Decidable d] (a b : Buffer n),
      SolaLettura (if c then pure a else if d then pure b else indefinito : Programma (Buffer n)) := by
    intro n c _ d _ a b
    split
    · exact sola_ret _
    · split
      · exact sola_ret _
      · exact sola_indefinito
  induction rows with
  | nil => exact fun _ _ => sola_ret _
  | cons row rows ih =>
    intro nome data
    unfold inviaRighe
    split
    · refine (hscan _ _ _ _).bind fun nome' => (hscan _ _ _ _).bind fun data' => ?_
      exact sola_call nofun fun _ => sola_call nofun fun _ => sola_call nofun fun _ => ih nome' data'
    · exact sola_indefinito

theorem sola_inviaRisultato (connfd : Int) (res : Option (List Row)) :
    SolaLettura (inviaRisultato connfd res) := by
  cases res with
  | none => exact sola_ret _
  | some rows =>
    exact sola_call nofun fun _ => sola_call nofun fun _ => sola_call nofun fun _ => sola_inviaRighe _ _ _ _

theorem sola_visualizzaAppelli (c : ClientStud) : SolaLettura (visualizzaAppelli c) := by
  have hcoda : SolaLettura (sys .mysqlStoreResult >>= fun res2 => inviaRisultato c.connfd res2) :=
    sola_call nofun fun res => sola_inviaRisultato _ _
  refine sola_call nofun fun req => sola_call nofun fun r => ?_
  show SolaLettura (if _ then _ else _)
  split
  · refine sola_call (sola_query trivial) fun ok => ?_
    cases ok with
    | false => exact hcoda
    | true => exact sola_call nofun fun res => (sola_inviaRisultato _ _).bind fun _ => hcoda
  · split
    · exact sola_call nofun fun r => (sola_cString _).bind fun exam =>
        sola_call (sola_query trivial) fun _ => hcoda
    · exact hcoda

/-- A booking is forwarded and not made: the secretary has no statement for it. -/
theorem sola_prenota (s : Segreteria) (c : ClientStud) : SolaLettura (s.prenota c) :=
  sola_call nofun fun _ => sola_call nofun fun _ => sola_call nofun fun _ => sola_call nofun fun _ =>
    sola_call nofun fun _ => sola_call nofun fun _ => sola_call nofun fun _ => sola_call nofun fun _ =>
    sola_call nofun fun _ => sola_ret _

theorem sola_servi (s : Segreteria) (i : Nat) : SolaLettura (s.servi i) := by
  unfold servi
  show SolaLettura (if _ then _ else _)
  split
  · refine sola_call nofun fun r => ?_
    show SolaLettura (if _ then _ else _)
    split
    · exact (sola_visualizzaAppelli _).bind fun _ => sola_ret _
    · split
      · exact (sola_prenota _ _).bind fun _ => sola_ret _
      · split
        · exact sola_call nofun fun _ => sola_ret _
        · exact sola_ret _
  · exact sola_ret _

theorem sola_nuovoAppello (s : Segreteria) : SolaLettura s.nuovoAppello := by
  refine sola_call nofun fun _ => (sola_leggiRiga _).bind fun name => ?_
  refine sola_call nofun fun _ => (sola_leggiRiga _).bind fun date => ?_
  refine sola_call nofun fun _ => sola_call nofun fun r => (sola_cString _).bind fun esito => ?_
  exact sola_call nofun fun _ => sola_ret _

/-- **The secretary only asks**, in every turn of its loop: each of the three statements it issues is a
    SELECT. -/
theorem sola_lettura (q : Punto × Segreteria) : SolaLettura (passo q) := by
  obtain ⟨p, s⟩ := q
  cases p with
  | esterno => exact sola_ret _
  | accetta => exact sola_accetta s
  | servi i =>
    show SolaLettura (if _ then _ else _)
    split
    · exact (sola_servi s i).bind fun _ => sola_ret _
    · exact sola_ret _
  | operatore =>
    refine SolaLettura.bind ?_ fun _ => sola_ret _
    show SolaLettura (if _ then _ else _)
    split
    · refine SolaLettura.bind (sola_call nofun fun _ => sola_ret _) fun logical =>
        sola_call nofun fun _ => ?_
      show SolaLettura (if logical = 2 then _ else _)
      split
      · exact sola_nuovoAppello _
      · exact sola_ret _
    · exact sola_ret _

end Segreteria

end SolaLettura

section Corse

variable {M : Mysql} {sockfd : Int} {I : Interprete M} {giorno : Nat → Data}
  {C : StatoArchivio M → Mossa → Prop} {d₀ d d' : StatoArchivio M}

/-- In every reachable state what is left of the secretary's turn only asks. -/
theorem archivio_sola_lettura (h0 : SolaLettura d₀.prog₁) (hd : (archivio sockfd I giorno).Reach C d₀ d) :
    SolaLettura d.prog₁ := by
  refine Duo.Reach.local₁ (fun _ => ()) (fun _ => True) (fun _ _ => trivial) ?_ ?_ ?_ h0 hd
  · exact fun d o r d' _ _ _ _ => trivial
  · exact fun d s d' _ _ _ _ _ => Segreteria.sola_lettura s
  · exact fun d m d' _ _ => rfl

/-- A move of the secretary, as long as it only asks: the text it gives MySQL begins with SELECT, and
    such a text changes no table. -/
theorem SolaLettura.db (h : SolaLettura d.prog₁) {m : Mossa} (hm : m.first)
    (hs : (archivio sockfd I giorno).step d m = some d') : d'.env.db = d.env.db := by
  cases m with
  | turn₁ => obtain ⟨_, -, rfl⟩ := Duo.step_turn₁ _ hs; rfl
  | act₁ o r =>
    obtain ⟨k, e, hp, he, rfl⟩ := Duo.step_act₁ _ hs
    rw [hp] at h
    obtain ⟨-, hdb, -⟩ := archivio_ans₁ he
    exact I.chiama_legge (Prog.only_call.mp h).1 hdb
  | turn₂ => exact hm.elim
  | act₂ o r => exact hm.elim

/-- **No move of the secretary changes a table**, whatever students send it and the operator types, on every
    database and every run: what the texts of its statements become, they begin with SELECT. -/
theorem segreteria_non_scrive {clienti : Nat → Bytes} {s : Segreteria} {t : Server}
    {db : BaseDati M.collazione} {m : Mossa}
    (hd : (archivio sockfd I giorno).Reach C (inizioArchivio clienti s t db) d) (hm : m.first)
    (hs : (archivio sockfd I giorno).step d m = some d') : d'.env.db = d.env.db :=
  (archivio_sola_lettura (sola_ret _) hd).db hm hs

end Corse

/-- A password that is more than data: it closes the literal and the call of `SHA2`, and asks for every row. -/
def evaso : Bytes := ascii "',256) or 1=1 #"

/-- `MySQL` that refuses what is no template with data in it. -/
noncomputable def mysqlSevero : Interprete mysql := interprete mysql (fun _ _ _ => none) fun _ _ _ _ h => nomatch h

/-- An engine that takes the statement of that login for what its text says: the quote has ended the
    literal, and every student's row is selected. -/
noncomputable def mysqlEvaso : Interprete mysql where
  esegui oggi db testo :=
    if testo = (Query.login 1 evaso).testo then
      some (db, db.studente.map fun s =>
        [some s.matStudente, some s.passwordStudente, some (dec s.annoCorsoStudente)])
    else mysqlSevero.esegui oggi db testo
  dato {q} hq oggi db := by
    have hentra : (Query.login 1 evaso).Entra := ⟨⟨by decide, by decide⟩, by decide⟩
    have hne : q.testo ≠ (Query.login 1 evaso).testo := by
      intro heq
      obtain rfl := testo_injective hq.2 hentra heq
      exact absurd hq.1 (by decide +kernel)
    rw [if_neg hne]
    exact mysqlSevero.dato hq oggi db
  selezione {testo} hs oggi db p h := by
    split at h
    · rw [← Option.some.inj h]
    · exact mysqlSevero.selezione hs h

/-- A student who sends it. -/
def inizioApice : StatoArchivio mysql :=
  inizioArchivio (fun _ => (Buffer.ofInt 1).bytes ++ ((Buffer.zero 255).overlay evaso).bytes)
    (Segreteria.iniziale 3 4 (Buffer.zero 4) 0 fun _ => ⟨0, Buffer.zero 4⟩) ⟨5, -1, Buffer.zero 4, 5⟩ universita

/-- His login, up to the statement. -/
def loginApice : List Mossa := [
  .turn₁, .turn₁, .act₁ (.select 5 [4, 3] [4, 3]) (some ([4], [3])), .act₁ (.accept 4) (6 : Int),
  .act₁ (.read 6 4) (Buffer.ofInt 1).bytes, .act₁ (.read 6 255) ((Buffer.zero 255).overlay evaso).bytes,
  .act₁ (.printf (ascii "Matricola: 1" ++ [10])) ()]

/-- The statement goes through, and every student's row waits for the secretary; the tables are as they were. -/
theorem segreteria_non_scrive_apice : ∃ d d', (archivio 3 mysqlEvaso fun _ => 20240301).Reach
      Duo.Any inizioApice d ∧ (archivio 3 mysqlEvaso fun _ => 20240301).step d
        (.act₁ (.mysqlQuery (.login 1 evaso)) true) = some d' ∧
    d'.env.resSeg.map List.length = some tabelle.studente.length ∧ d'.env.db = d.env.db := by
  have hrun : (((archivio 3 mysqlEvaso fun _ => 20240301).run (fun _ _ => true) inizioApice loginApice).bind fun d =>
      ((archivio 3 mysqlEvaso fun _ => 20240301).step d (.act₁ (.mysqlQuery (.login 1 evaso)) true)).map fun d' =>
        d'.env.resSeg.map List.length) = some (some tabelle.studente.length) := by decide +kernel
  obtain ⟨d, hd, hstep⟩ := Option.bind_eq_some_iff.mp hrun
  obtain ⟨d', hstep, hres⟩ := Option.map_eq_some_iff.mp hstep
  have hreach := Duo.reach_run (C := Duo.Any) (fun _ _ _ => trivial) _ .init hd
  have hprima : (.act₁ (.mysqlQuery (.login 1 evaso)) true : Mossa).first := trivial
  exact ⟨d, d', hreach, hstep, hres, segreteria_non_scrive hreach hprima hstep⟩

end Universita

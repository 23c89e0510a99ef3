/-
  WHAT THE TWO PROGRAMS DO TO THE DATABASE IS WHAT THE REGISTRY DOES — and they say so.

  The server's request is not one step: it opens a reply, reads twice, asks MySQL twice and writes, and
  between any two of these the secretary moves.  Still each request is one act of the registry, in the
  order of the requests, and the reply is the one that belongs to it.  The registry is the abstract model; this is
  the refinement of it by the composition of the two programs.

  The condition is on what MySQL says and on one text (`Onesta`): `mysql_error` returns nothing that begins like a
  success, and the date of an inserted appello is `plain` and fits its buffer, so that the statement that is
  executed is about that date.  Streams may be cut anywhere, calls may fail anywhere: a request that fails, or that
  never comes back to the loop, is an act that does nothing.

  The crux is that the registry's step lies somewhere INSIDE a turn, at the insert, while its reply is opened before
  and written after.  So what is kept is a relation between the start of the turn and now, in four stages
  (`Intatto`, `Pendente`, `Esaurita`, `Perduto`), each of which is already at most one act (`Tenuto`).  What the check
  of a booking found is still in the tables when its insert is made, perhaps on another day: nobody else writes to them.

  Contents:
  1. `Banco` — what the server's side of the world shares with no one.
  2. `Intatto`, `Pendente`, `Esaurita`, `Perduto` — a turn in which nothing was done, a reply is open, a reply was
     written, the request is lost.
  3. `registra_passo` — a turn is one act at most, function by function.
  4. `registra`, **`registro_fedele`** — every run of the composition.
  5. **`offerte_mantenute`** — along every run, whatever its beginning: rows are only added.
-/
import Universita.Archivio
import Universita.Allineamento
import Universita.Registro
import Universita.Dump

set_option linter.unusedVariables false

namespace Universita

open Lib Lib.Stream Mondo Server

/-! ## The server's side -/

/-- The server with its connections, the database, the result set that waits for the server; the
    variables its turn began with, and what it has read since. The secretary's moves touch none of it. -/
structure Banco (M : Mysql) where
  /-- Its sockets, its replies, the bookings it has checked. -/
  ser : LatoServer
  /-- The tables. -/
  db : BaseDati M.collazione
  /-- The result of its last statement. -/
  res : Option (List Row)
  /-- Its variables at the head of the loop ... -/
  inizio : Server
  /-- ... and its reads since. -/
  letti : List Bytes

/-- `mysql_error` is no success text, and the date of a new appello stays between its quotes and in its
    buffer. A date that does not is not the argument of the statement MySQL executes, and no act could
    be named by it. -/
def Ammesso : (o : Sys) → o.Ans → Prop
  | .mysqlError, r => ∀ request, ¬ Successo request r
  | .mysqlQuery (.inserisciAppello _ t), _ => plain 39 t = true ∧ t.length ≤ 11
  | _, _ => True

/-- The call reads nothing, and changes neither the server's replies nor its bookings nor its
    connection, nor a table: most calls of a request are of this kind, and every stage survives them. -/
def Sys.Quieta : Sys → Prop
  | .read _ _ | .write _ _ | .mysqlInit | .accept _ | .mysqlQuery _ => False
  | _ => True

/-- The numbers in an insert are `int`s. -/
def Sys.Numerica : Sys → Prop
  | .mysqlQuery (.inserimento mat id) => DiInt mat ∧ DiInt id
  | .mysqlQuery (.inserisciAppello id _) => DiInt id
  | _ => True

/-- `Atto.Letto M t ls a` — what the server has read in a turn (`ls`, from the variables `t`) asks for
    the act `a`; any request may be refused. -/
inductive Atto.Letto (M : Mysql) (t : Server) : List Bytes → Atto → Prop
  /-- A refusal needs nothing. -/
  | respinta (ls : List Bytes) : Letto M t ls .respinta
  /-- A new appello: code 1, and the date that was sent. The exam is left open. -/
  | aggiunto {c x y : Bytes} {a : Appello} : codice t c = 1 →
      M.strToDate (cstr ((Buffer.zero 12).overlay y).bytes) = some a.dataAppello → Letto M t [c, x, y] (.aggiunto a)
  /-- A booking: code 2, and the two numbers that were sent. -/
  | prenotata {c x y : Bytes} {b₁ b₂ : Buffer 4} {oggi oggi' data : Data} : codice t c = 2 →
      Letto M t [c, x, y] (.prenotata (b₁.overlay x).toInt (b₂.overlay y).toInt oggi oggi' data)

section Banco

variable {M : Mysql} {I : Interprete M}

/-- `v.Chiama I o r v'` — one answer to the server, on some day: the condition on the moves, its side of
    the network and the engine. -/
structure Banco.Chiama (I : Interprete M) (v : Banco M) (o : Sys) (r : o.Ans) (v' : Banco M) : Prop where
  /-- The condition on MySQL and the dates. -/
  ammesso : Ammesso o r
  /-- The server's side answers ... -/
  ser : v.ser.chiama o r = some v'.ser
  /-- ... and the engine, if the call is for it ... -/
  mysql : ∃ oggi, I.chiama oggi v.db v.res o r = some (v'.db, v'.res)
  /-- ... the turn is still the same ... -/
  inizio : v'.inizio = v.inizio
  /-- ... and what is read is recorded. -/
  letti : v'.letti = v.letti ++ letture [⟨o, r⟩]

variable {v₀ : Banco M} {fd : Int} {a : Atto} {ps : List (Int × Int)} {ls : List Bytes} {v v' : Banco M}
  {o : Sys} {r : o.Ans}

/-- Only a statement touches the database. -/
theorem Banco.Chiama.db (h : v.Chiama I o r v') (ho : ∀ q, o ≠ .mysqlQuery q) : v'.db = v.db := by
  obtain ⟨oggi, h⟩ := h.mysql
  exact Interprete.chiama_fermo ho h

theorem Banco.Chiama.legge {q : Query} (hq : q.Legge) {ok : Bool} (h : v.Chiama I (.mysqlQuery q) ok v') :
    v'.db = v.db := by
  obtain ⟨oggi, h⟩ := h.mysql
  exact Interprete.chiama_legge (fun q' heq => by cases heq; exact hq) h

theorem Banco.Chiama.read {f : Int} {n : Nat} {bs : Bytes} (h : v.Chiama I (.read f n) bs v') :
    v'.db = v.db ∧ v'.ser.risposte = v.ser.risposte ∧ v'.ser.eseguite = v.ser.eseguite ∧
      v'.ser.connessione = v.ser.connessione ∧ v'.letti = v.letti ++ [bs] := by
  refine ⟨h.db (by simp), ?_⟩
  have hser := h.ser
  simp only [LatoServer.chiama] at hser
  split at hser
  · rw [← Option.some.inj hser]
    exact ⟨rfl, rfl, rfl, h.letti⟩
  · split at hser
    · rw [← Option.some.inj hser]
      exact ⟨rfl, rfl, rfl, h.letti⟩
    · cases hser

theorem Banco.Chiama.quieta (h : v.Chiama I o r v') (ho : o.Quieta) :
    v'.db = v.db ∧ v'.ser.risposte = v.ser.risposte ∧ v'.ser.eseguite = v.ser.eseguite ∧
      v'.ser.connessione = v.ser.connessione ∧ v'.letti = v.letti := by
  have fermo : v'.ser = v.ser → letture [⟨o, r⟩] = [] → v'.ser.risposte = v.ser.risposte ∧
      v'.ser.eseguite = v.ser.eseguite ∧ v'.ser.connessione = v.ser.connessione ∧ v'.letti = v.letti := by
    intro hser hl
    rw [hser]
    exact ⟨rfl, rfl, rfl, by rw [h.letti, hl, List.append_nil]⟩
  refine ⟨h.db fun q hq => by rw [hq] at ho; exact ho, ?_⟩
  have hser := h.ser
  -- the calls that move something are excluded by `Quieta`; the others leave the server's side as it is
  cases o with
  | select n rs ws =>
    simp only [LatoServer.chiama] at hser
    split at hser
    · exact fermo (Option.some.inj hser).symm rfl
    · cases hser
  | read f n => exact ho.elim
  | write f bs => exact ho.elim
  | mysqlInit => exact ho.elim
  | accept f => exact ho.elim
  | mysqlQuery q => exact ho.elim
  | _ => exact fermo (Option.some.inj hser).symm rfl

/-! ## The turn so far -/

/-- `Atto.Avviato rs a rs'` — what has been written of the reply to an act, behind the replies `rs`:
    nothing, the beginning of an entry, or all of it. -/
inductive Atto.Avviato (rs : List Bytes) : Atto → List Bytes → Prop
  /-- Nothing was written and nothing done. -/
  | fermo : Avviato rs .respinta rs
  /-- The reply is open and still empty. -/
  | aperto (a : Atto) : Avviato rs a (rs ++ [[]])
  /-- The reply was written. -/
  | detto {a : Atto} {b : Bytes} : a.Risponde b → Avviato rs a (rs ++ [b])
  /-- The texts of a request that never comes back to the loop. -/
  | perso {ts : List Bytes} : (∀ t ∈ ts, ∀ request, ¬ Successo request t) →
      Avviato rs .respinta (rs ++ [ts.flatten])

/-- Since `v₀` one act was done, its booking is among those checked since, and its reply is under way.
    All four stages of a turn are this, and it is all that the rest of the run needs to know in the
    middle of one. -/
def Tenuto (v₀ v : Banco M) : Prop :=
  ∃ a ps, Atto.Fa M v₀.db a v.db ∧ v.ser.eseguite = v₀.ser.eseguite ++ ps ∧ a.prenotazione.toList.Sublist ps ∧
    a.Avviato v₀.ser.risposte v.ser.risposte

/-- Since `v₀` nothing was done. -/
structure Intatto (v₀ v : Banco M) : Prop where
  /-- The tables ... -/
  db : v.db = v₀.db
  /-- ... the bookings checked ... -/
  eseguite : v.ser.eseguite = v₀.ser.eseguite
  /-- ... and the replies are as they were ... -/
  risposte : v.ser.risposte = v₀.ser.risposte
  /-- ... in the same turn. -/
  inizio : v.inizio = v₀.inizio

/-- A request on the connection `fd`, of which `ls` was read, waits for its reply: since `v₀` it did `a`, and
    checked the bookings `ps`. -/
structure Pendente (v₀ : Banco M) (fd : Int) (a : Atto) (ps : List (Int × Int)) (ls : List Bytes) (v : Banco M) :
    Prop where
  /-- The request came over this connection ... -/
  connesso : v.ser.connessione = some fd
  /-- ... the act was done ... -/
  fa : a.Fa M v₀.db v.db
  /-- ... these bookings were checked ... -/
  eseguite : v.ser.eseguite = v₀.ser.eseguite ++ ps
  /-- ... its own among them ... -/
  prenota : a.prenotazione.toList.Sublist ps
  /-- ... the reply is open, with nothing in it ... -/
  risposte : v.ser.risposte = v₀.ser.risposte ++ [[]]
  /-- ... in the same turn ... -/
  inizio : v.inizio = v₀.inizio
  /-- ... and this is what was read. -/
  letti : v.letti = ls

/-- ... and has had it: since `v₀` there was the act `a`, with the reply `b`. -/
structure Esaurita (v₀ : Banco M) (a : Atto) (b : Bytes) (v : Banco M) : Prop where
  /-- The act was done ... -/
  fa : a.Fa M v₀.db v.db
  /-- ... its booking was checked ... -/
  prenota : ∃ ps, v.ser.eseguite = v₀.ser.eseguite ++ ps ∧ a.prenotazione.toList.Sublist ps
  /-- ... the reply was written ... -/
  risposte : v.ser.risposte = v₀.ser.risposte ++ [b]
  /-- ... which is that of the act ... -/
  risponde : a.Risponde b
  /-- ... and the act is what was asked for. -/
  letto : a.Letto M v₀.inizio v.letti

/-- A request that is lost: since `v₀` nothing was done, and `ts` was written. -/
structure Perduto (v₀ : Banco M) (ts : List Bytes) (v : Banco M) : Prop where
  /-- The tables are as they were ... -/
  db : v.db = v₀.db
  /-- ... whatever was checked ... -/
  eseguite : ∃ ps, v.ser.eseguite = v₀.ser.eseguite ++ ps
  /-- ... and the texts were written into one reply ... -/
  risposte : v.ser.risposte = v₀.ser.risposte ++ [ts.flatten]
  /-- ... none of them a success. -/
  negativi : ∀ t ∈ ts, ∀ request, ¬ Successo request t

/-- At the end of a turn there was nothing, or one act with its reply. A lost request has no end of a turn. -/
def InRegola (v₀ v : Banco M) : Prop := Intatto v₀ v ∨ ∃ a b, Esaurita v₀ a b v

theorem Intatto.refl (v : Banco M) : Intatto v v := ⟨rfl, rfl, rfl, rfl⟩

/-- All four stages are one act at most. -/
theorem Intatto.tenuto (h : Intatto v₀ v) : Tenuto v₀ v :=
  ⟨.respinta, [], by rw [h.db]; exact .respinta _, by rw [h.eseguite, List.append_nil], .refl _,
    by rw [h.risposte]; exact .fermo⟩

theorem Pendente.tenuto (h : Pendente v₀ fd a ps ls v) : Tenuto v₀ v :=
  ⟨a, ps, h.fa, h.eseguite, h.prenota, by rw [h.risposte]; exact .aperto a⟩

theorem Esaurita.tenuto {b : Bytes} (h : Esaurita v₀ a b v) : Tenuto v₀ v := by
  obtain ⟨ps, he, hp⟩ := h.prenota
  exact ⟨a, ps, h.fa, he, hp, by rw [h.risposte]; exact .detto h.risponde⟩

theorem Perduto.tenuto {ts : List Bytes} (h : Perduto v₀ ts v) : Tenuto v₀ v := by
  obtain ⟨ps, he⟩ := h.eseguite
  exact ⟨.respinta, ps, by rw [h.db]; exact .respinta _, he, List.nil_sublist _,
    by rw [h.risposte]; exact .perso h.negativi⟩

theorem InRegola.tenuto (h : InRegola v₀ v) : Tenuto v₀ v := by
  rcases h with h | ⟨a, b, h⟩
  · exact h.tenuto
  · exact h.tenuto

/-- A refused request has done nothing. -/
theorem Pendente.db (h : Pendente v₀ fd .respinta ps ls v) : v.db = v₀.db := by
  have hfa := h.fa
  generalize v.db = db at hfa
  cases hfa
  rfl

/-- A refused request may yet turn out to be lost. -/
theorem Pendente.perduto (h : Pendente v₀ fd .respinta ps ls v) : Perduto v₀ [] v :=
  ⟨h.db, ⟨ps, h.eseguite⟩, h.risposte, fun _ ht => absurd ht List.not_mem_nil⟩

/-! ## What the answers do to it -/

theorem Pendente.quieta (h : Pendente v₀ fd a ps ls v) (hc : v.Chiama I o r v') (ho : o.Quieta) :
    Pendente v₀ fd a ps ls v' := by
  obtain ⟨hdb, hr, he, hconn, hl⟩ := hc.quieta ho
  exact ⟨hconn.trans h.connesso, by rw [hdb]; exact h.fa, he.trans h.eseguite, h.prenota, hr.trans h.risposte,
    hc.inizio.trans h.inizio, hl.trans h.letti⟩

theorem Pendente.legge (h : Pendente v₀ fd a ps ls v) {f : Int} {n : Nat} {bs : Bytes}
    (hc : v.Chiama I (.read f n) bs v') : Pendente v₀ fd a ps (ls ++ [bs]) v' := by
  obtain ⟨hdb, hr, he, hconn, hl⟩ := hc.read
  exact ⟨hconn.trans h.connesso, by rw [hdb]; exact h.fa, he.trans h.eseguite, h.prenota, hr.trans h.risposte,
    hc.inizio.trans h.inizio, hl.trans (by rw [h.letti])⟩

/-- The four stages are kept by a quiet call, each with what it says of the turn so far. -/
theorem Intatto.quieta (h : Intatto v₀ v) (hc : v.Chiama I o r v') (ho : o.Quieta) : Intatto v₀ v' := by
  obtain ⟨hdb, hr, he, -, -⟩ := hc.quieta ho
  exact ⟨hdb.trans h.db, he.trans h.eseguite, hr.trans h.risposte, hc.inizio.trans h.inizio⟩

theorem Esaurita.quieta {b : Bytes} (h : Esaurita v₀ a b v) (hc : v.Chiama I o r v') (ho : o.Quieta) :
    Esaurita v₀ a b v' := by
  obtain ⟨hdb, hr, he, -, hl⟩ := hc.quieta ho
  obtain ⟨ps, hes, hp⟩ := h.prenota
  exact ⟨by rw [hdb]; exact h.fa, ⟨ps, he.trans hes, hp⟩, hr.trans h.risposte, h.risponde,
    by rw [hl]; exact h.letto⟩

/-- A connection to MySQL opens a reply. -/
theorem Intatto.apre (h : Intatto v₀ v) (hconn : v.ser.connessione = some fd) (hl : v.letti = ls) {ok : Bool}
    (hc : v.Chiama I .mysqlInit ok v') : Pendente v₀ fd .respinta [] ls v' := by
  have hser := Option.some.inj hc.ser
  have hletti : v'.letti = v.letti := hc.letti.trans (List.append_nil _)
  refine ⟨by rw [← hser]; exact hconn, ?_, ?_, .refl _, ?_, hc.inizio.trans h.inizio, hletti.trans hl⟩
  · rw [hc.db (by simp), h.db]
    exact .respinta _
  · rw [← hser, List.append_nil]
    exact h.eseguite
  · rw [← hser, ← h.risposte]

/-- The reply that belongs to the act closes the request: what is written is the whole reply, since
    nothing was in it. -/
theorem Pendente.scrive (h : Pendente v₀ fd a ps ls v) {bs : Bytes} (hbs : a.Risponde bs)
    (ha : a.Letto M v₀.inizio ls) {u : Unit} (hc : v.Chiama I (.write fd bs) u v') : Esaurita v₀ a bs v' := by
  have hser := hc.ser
  have hletti : v'.letti = v.letti := hc.letti.trans (List.append_nil _)
  simp only [LatoServer.chiama, if_pos h.connesso, Option.some.injEq] at hser
  refine ⟨by rw [hc.db (by simp)]; exact h.fa, ⟨ps, ?_, h.prenota⟩, ?_, hbs, ?_⟩
  · rw [← hser]
    exact h.eseguite
  · rw [← hser]
    show inCoda bs v.ser.risposte = _
    rw [h.risposte, inCoda_concat, List.nil_append]
  · rw [hletti, h.letti]
    exact ha

/-- A write to a request that is lost: it is no success, so whatever the operator or the student reads,
    it promises nothing. -/
theorem Perduto.scrive {ts : List Bytes} (h : Perduto v₀ ts v) {f : Int} {bs : Bytes} {u : Unit}
    (hbs : ∀ request, ¬ Successo request bs) (hc : v.Chiama I (.write f bs) u v') :
    ∃ ts, Perduto v₀ ts v' := by
  have hdb : v'.db = v₀.db := (hc.db (by simp)).trans h.db
  have hser := Option.some.inj hc.ser
  split at hser
  · refine ⟨ts ++ [bs], hdb, by rw [← hser]; exact h.eseguite, ?_, ?_⟩
    · rw [← hser]
      show inCoda bs v.ser.risposte = _
      rw [h.risposte, inCoda_concat, List.flatten_append, List.flatten_singleton]
    · intro t ht
      rcases List.mem_append.mp ht with ht | ht
      · exact h.negativi t ht
      · rw [List.mem_singleton.mp ht]
        exact hbs
  · exact ⟨ts, hdb, by rw [← hser]; exact h.eseguite, by rw [← hser]; exact h.risposte, h.negativi⟩

theorem Perduto.quieta {ts : List Bytes} (h : Perduto v₀ ts v) (hc : v.Chiama I o r v') (ho : o.Quieta) :
    Perduto v₀ ts v' := by
  obtain ⟨hdb, hr, he, -, -⟩ := hc.quieta ho
  obtain ⟨ps, hes⟩ := h.eseguite
  exact ⟨hdb.trans h.db, ⟨ps, he.trans hes⟩, hr.trans h.risposte, h.negativi⟩

theorem Pendente.seleziona {q : Query} (hq : q.Legge) (hv : eseguita (.mysqlQuery q) = []) {ok : Bool}
    (h : Pendente v₀ fd a ps ls v) (hc : v.Chiama I (.mysqlQuery q) ok v') : Pendente v₀ fd a ps ls v' := by
  have hser : v'.ser = v.ser := by
    have hser := hc.ser
    cases q with
    | verificaPrenotazione id mat => cases hv
    | _ => exact (Option.some.inj hser).symm
  have hletti : v'.letti = v.letti := hc.letti.trans (List.append_nil _)
  exact ⟨by rw [hser]; exact h.connesso, by rw [hc.legge hq]; exact h.fa, by rw [hser]; exact h.eseguite,
    h.prenota, by rw [hser]; exact h.risposte, hc.inizio.trans h.inizio, hletti.trans h.letti⟩

/-- A refused request has done nothing: it may still do something. -/
theorem Pendente.compie (h : Pendente v₀ fd .respinta ps ls v) {q : Query} {ok : Bool}
    (hc : v.Chiama I (.mysqlQuery q) ok v') (hser : v'.ser = v.ser) (ha : a.Fa M v.db v'.db)
    (hp : a.prenotazione.toList.Sublist ps) : Pendente v₀ fd a ps ls v' := by
  have hletti : v'.letti = v.letti := hc.letti.trans (List.append_nil _)
  rw [h.db] at ha
  exact ⟨by rw [hser]; exact h.connesso, ha, by rw [hser]; exact h.eseguite, hp,
    by rw [hser]; exact h.risposte, hc.inizio.trans h.inizio, hletti.trans h.letti⟩

theorem Pendente.appello {id : Int} {t : Bytes} (hid : DiInt id) (h : Pendente v₀ fd .respinta [] ls v)
    {ok : Bool} (hc : v.Chiama I (.mysqlQuery (.inserisciAppello id t)) ok v') :
    (ok = true → t.length ≤ 11 ∧ ∃ a, M.strToDate t = some a.dataAppello ∧
      Pendente v₀ fd (.aggiunto a) [] ls v') ∧
      (ok = false → Pendente v₀ fd .respinta [] ls v') := by
  obtain ⟨hplain, ht⟩ := hc.ammesso
  obtain ⟨oggi, hdb⟩ := hc.mysql
  have hser : v'.ser = v.ser := (Option.some.inj hc.ser).symm
  rcases Interprete.chiama_query hdb with ⟨rfl, p, hp, hdb, -⟩ | ⟨rfl, hdb, -⟩
  · refine ⟨fun _ => ⟨ht, ?_⟩, fun h => Bool.noConfusion h⟩
    rw [I.dato (q := .inserisciAppello id t) ⟨hplain, hid, ht⟩] at hp
    simp only [Query.esegui] at hp
    split at hp
    · cases hp
    · rename_i data hdata
      split at hp
      · -- the insert went through: the exam is there, and the act adds its appello
        rename_i hex
        obtain rfl := Option.some.inj hp
        have hfa : (Atto.aggiunto ⟨data, id⟩).Fa M v.db v'.db := by
          rw [hdb]
          exact .aggiunto v.db _ hex
        exact ⟨⟨data, id⟩, hdata, h.compie hc hser hfa (.refl _)⟩
      · cases hp
  · exact ⟨fun h => Bool.noConfusion h,
      fun _ => h.compie hc hser (by rw [hdb]; exact .respinta _) (.refl _)⟩

/-- The check of a booking: what it finds is what the tables say at that moment. If it fails there is no
    result, whatever waited before. -/
theorem Pendente.verifica {id mat : Int} (hid : DiInt id) (hmat : DiInt mat)
    (h : Pendente v₀ fd .respinta [] ls v) {ok : Bool}
    (hc : v.Chiama I (.mysqlQuery (.verificaPrenotazione id mat)) ok v') :
    Pendente v₀ fd .respinta [(id, mat)] ls v' ∧ (ok = false → v'.res = none) ∧
      (ok = true → ∃ oggi, v'.res = some (((primaData M oggi v'.db.toTabelle id mat).map fun d =>
        [some (dec id), some (dateFormat d)]).toList)) := by
  have hlegge : v'.db = v.db := hc.legge (q := .verificaPrenotazione id mat) trivial
  have hser := Option.some.inj hc.ser
  have hletti : v'.letti = v.letti := hc.letti.trans (List.append_nil _)
  obtain ⟨oggi, hdb⟩ := hc.mysql
  -- the check is seen as an executed booking, and leaves the tables alone
  have hcorso : Pendente v₀ fd .respinta [(id, mat)] ls v' := by
    refine ⟨by rw [← hser]; exact h.connesso, by rw [hlegge]; exact h.fa, ?_, List.nil_sublist _, ?_,
      hc.inizio.trans h.inizio, hletti.trans h.letti⟩
    · rw [← hser]
      show v.ser.eseguite ++ [(id, mat)] = _
      rw [h.eseguite, List.append_nil]
    · rw [← hser]
      exact h.risposte
  refine ⟨hcorso, fun hok => ?_, fun hok => ⟨oggi, ?_⟩⟩
  · rcases Interprete.chiama_query hdb with ⟨htrue, -⟩ | ⟨-, -, hres⟩
    · rw [hok] at htrue
      cases htrue
    · exact hres
  · rcases Interprete.chiama_query hdb with ⟨-, p, hesegui, -, hres⟩ | ⟨hfalse, -⟩
    · rw [I.dato (q := .verificaPrenotazione id mat) ⟨rfl, hid, hmat⟩] at hesegui
      obtain rfl := Option.some.inj hesegui
      rw [hres, hlegge, verificaPrenotazione_eq]
      cases primaData M oggi v.db.toTabelle id mat <;> rfl
    · rw [hok] at hfalse
      cases hfalse

/-- The insert of a booking that passed the check, on the same tables: no call in between has changed
    them, and the day may be a later one. -/
theorem Pendente.inserimento {id mat : Int} {oggi data : Data} (hid : DiInt id) (hmat : DiInt mat)
    (hd : primaData M oggi v.db.toTabelle id mat = some data) (h : Pendente v₀ fd .respinta [(id, mat)] ls v)
    {ok : Bool} (hc : v.Chiama I (.mysqlQuery (.inserimento mat id)) ok v') :
    (ok = true → ∃ oggi', Pendente v₀ fd (.prenotata id mat oggi oggi' data) [(id, mat)] ls v') ∧
      (ok = false → Pendente v₀ fd .respinta [(id, mat)] ls v') := by
  obtain ⟨oggi', hdb⟩ := hc.mysql
  have hser : v'.ser = v.ser := (Option.some.inj hc.ser).symm
  rcases Interprete.chiama_query hdb with ⟨rfl, p, hp, hdb, -⟩ | ⟨rfl, hdb, -⟩
  · refine ⟨fun _ => ⟨oggi', ?_⟩, fun h => Bool.noConfusion h⟩
    rw [I.dato (q := .inserimento mat id) ⟨rfl, hmat, hid⟩, Query.esegui, dif_pos (chiavi_prenota hd).1,
      dif_pos ((chiavi_prenota hd).2 id rfl)] at hp
    obtain rfl := Option.some.inj hp
    refine h.compie hc hser ?_ (.refl _)
    rw [hdb]
    exact .prenotata v.db oggi' hd
  · exact ⟨fun h => Bool.noConfusion h,
      fun _ => h.compie hc hser (by rw [hdb]; exact .respinta _) (List.nil_sublist _)⟩

/-! ## The server alone -/

/-- In front of every call at most one act was done, and an insert has `int`s: the condition under which
    a program of the server is verified, with `Q` at its end. -/
abbrev Registra (I : Interprete M) (v₀ : Banco M) {α : Type} (p : Programma α)
    (Q : α → Banco M → Prop) (v : Banco M) : Prop :=
  p.Safe (Banco.Chiama I) (fun v o => Tenuto v₀ v ∧ o.Numerica) Q v

theorem Sys.Quieta.numerica (ho : o.Quieta) : o.Numerica := by
  cases o with
  | mysqlQuery q => exact ho.elim
  | _ => trivial

variable {α : Type} {Q : α → Banco M → Prop}

/-- The rules for the server's calls, each from its stage: a quiet call, a read, a routine and what comes behind it. -/
theorem Pendente.chiede (h : Pendente v₀ fd a ps ls v) {k : o.Ans → Programma α} (ho : o.Quieta)
    (hk : ∀ r v', Pendente v₀ fd a ps ls v' → Registra I v₀ (k r) Q v') : Registra I v₀ (.call o k) Q v :=
  ⟨⟨h.tenuto, ho.numerica⟩, fun r v' hc => hk r v' (h.quieta hc ho)⟩

theorem Pendente.riceve (h : Pendente v₀ fd a ps ls v) {f : Int} {n : Nat} {k : Bytes → Programma α}
    (hk : ∀ r v', Pendente v₀ fd a ps (ls ++ [r]) v' → Registra I v₀ (k r) Q v') :
    Registra I v₀ (.call (.read f n) k) Q v :=
  ⟨⟨h.tenuto, trivial⟩, fun r v' hc => hk r v' (h.legge hc)⟩

theorem Registra.bind {β : Type} {p : Programma β} {f : β → Programma α} {K : β → Banco M → Prop}
    (hp : Registra I v₀ p K v) (hf : ∀ b v', K b v' → Registra I v₀ (f b) Q v') :
    Registra I v₀ (p >>= f) Q v :=
  (Prog.safe_bind p f Q v).mpr (hp.mono hf)

/-- Where C defines nothing any more, only the stage so far is asked. -/
theorem registra_indefinito (h : Tenuto v₀ v) : Registra I v₀ (indefinito : Programma α) Q v :=
  ⟨⟨h, trivial⟩, nofun⟩

/-- A text that is shorter than its buffer did not run over its end. -/
theorem Pendente.cString (h : Pendente v₀ fd a ps ls v) {n : Nat} (b : Buffer n) :
    Registra I v₀ (cString b) (fun testo v' => Pendente v₀ fd a ps ls v' ∧
      (testo.length < n → testo = cstr b.bytes)) v := by
  rw [Universita.cString]
  split
  · exact ⟨h, fun _ => rfl⟩
  · refine h.chiede trivial fun oltre _ h' => ⟨h', fun hlt => ?_⟩
    rw [List.length_append, b.size_eq] at hlt
    omega

/-- The connection to MySQL opens the reply, also when it fails: the handle is returned either way and
    the request goes on. -/
theorem Intatto.connection (h : Intatto v₀ v) (hconn : v.ser.connessione = some fd) (hl : v.letti = ls) :
    Registra I v₀ connection (fun _ v' => Pendente v₀ fd .respinta [] ls v') v := by
  refine ⟨⟨h.tenuto, trivial⟩, fun ok v' hc => ?_⟩
  have h' := h.apre hconn hl hc
  cases ok with
  | false => exact registra_indefinito h'.tenuto
  | true =>
    refine h'.chiede trivial fun ok v' h' => ?_
    cases ok with
    | true => exact h'
    | false => exact h'.chiede trivial fun _ _ h' => h'

/-- The last row's id is an `int`, if the one there was is: it goes through `strtol` into four bytes. -/
theorem registra_ultimoId (rows : List Row) : ∀ {id : Int}, DiInt id → Pendente v₀ fd a ps ls v →
    Registra I v₀ (ultimoId id rows) (fun id v' => DiInt id ∧ Pendente v₀ fd a ps ls v') v := by
  induction rows with
  | nil => exact fun hid h => ⟨hid, h⟩
  | cons row rows ih =>
    intro id hid h
    unfold ultimoId
    split
    · rename_i heq
      cases heq
    · rename_i heq
      obtain ⟨-, rfl⟩ := List.cons.inj heq
      exact ih (diInt_toInt _) h
    · exact registra_indefinito h.tenuto

/-- The reply to a failed statement. -/
theorem Pendente.scriviErrore (h : Pendente v₀ fd .respinta ps ls v) :
    Registra I v₀ (scriviErrore fd) (fun _ v' => ∃ a b, Esaurita v₀ a b v') v :=
  ⟨⟨h.tenuto, trivial⟩, fun _ _ hc => ⟨⟨(h.quieta hc trivial).tenuto, trivial⟩,
    fun _ _ hc' => ⟨_, _, (h.quieta hc trivial).scrive (fun request => hc.ammesso request) (.respinta _) hc'⟩⟩⟩

/-- The two error texts of the server do not begin like a success. -/
theorem not_successo_esame (request : Int) :
    ¬ Successo request (ascii "non esiste un esame con questo nome!") := by
  rintro (⟨-, h⟩ | ⟨-, data, h⟩)
  · exact absurd h (by decide +kernel)
  · have hhead := congrArg List.head? h
    rw [head?_prenotazioneInserita] at hhead
    exact absurd hhead (by decide +kernel)

theorem not_successo_invalida (request : Int) : ¬ Successo request (ascii "invalid id or data!") := by
  rintro (⟨-, h⟩ | ⟨-, data, h⟩)
  · exact absurd h (by decide +kernel)
  · exact prenotazioneInserita_ne_invalida data h.symm

/-- The reply to a new appello, by whether the insert went through: a success when a row was added, else
    one of the two errors. -/
theorem Pendente.esitoAppello {ok : Bool}
    (hok : ok = true → ∃ a, (Atto.aggiunto a).Letto M v₀.inizio ls ∧ Pendente v₀ fd (.aggiunto a) [] ls v)
    (hno : ok = false → Pendente v₀ fd .respinta [] ls v) :
    Registra I v₀ (esitoAppello fd ok) (fun _ v' => ∃ a b, Esaurita v₀ a b v') v := by
  cases ok with
  | true =>
    obtain ⟨a, hletto, h⟩ := hok rfl
    exact ⟨⟨h.tenuto, trivial⟩, fun _ _ hc => ⟨_, _, h.scrive rfl hletto hc⟩⟩
  | false =>
    refine ⟨⟨(hno rfl).tenuto, trivial⟩, fun err v₁ hc₁ => ?_⟩
    have h₁ := (hno rfl).quieta hc₁ trivial
    show Registra I v₀ (if _ then _ else _) _ v₁
    split
    · exact ⟨⟨h₁.tenuto, trivial⟩, fun _ _ hc => ⟨_, _, h₁.scrive not_successo_esame (.respinta _) hc⟩⟩
    · exact h₁.scriviErrore

/-- A statement, if the connection is open. -/
theorem Pendente.query {conn : Conn} {q : Query} (h : Pendente v₀ fd a ps ls v)
    (hq : Sys.Numerica (.mysqlQuery q)) {Q : Bool → Banco M → Prop}
    (hk : ∀ ok v', v.Chiama I (.mysqlQuery q) ok v' → Q ok v') : Registra I v₀ (query conn q) Q v := by
  cases conn with
  | chiusa => exact registra_indefinito h.tenuto
  | aperta => exact ⟨⟨h.tenuto, hq⟩, hk⟩

/-- Closing the connection at the end. -/
theorem Esaurita.mysqlClose (h : ∃ a b, Esaurita v₀ a b v) :
    Registra I v₀ (sys .mysqlClose) (fun _ v' => ∃ a b, Esaurita v₀ a b v') v := by
  obtain ⟨a, b, h⟩ := h
  exact ⟨⟨h.tenuto, trivial⟩, fun _ _ hc => ⟨a, b, h.quieta hc trivial⟩⟩

/-- **A new appello**: one act, and its reply. The search before it only reads, and the insert adds the
    appello of the date that was received, or nothing. -/
theorem Intatto.aggiungiAppello (h : Intatto v₀ v) (hconn : v.ser.connessione = some fd) {c : Bytes}
    (hl : v.letti = [c]) (hcod : codice v₀.inizio c = 1) :
    Registra I v₀ (aggiungiAppello fd) (fun _ v' => ∃ a b, Esaurita v₀ a b v') v := by
  refine (h.connection hconn hl).bind fun conn v₁ h₁ => ?_
  simp only [Prog.ret_bind, Prog.op_eq, Prog.call_bind]
  refine h₁.riceve fun x _ h₁ => h₁.riceve fun y _ h₁ => h₁.chiede trivial fun idEsame _ h₁ => ?_
  refine (h₁.cString _).bind fun nome v₂ h₂ => ?_
  refine (h₂.1.query (q := .idEsame nome) trivial fun _ v₃ hc =>
    h₂.1.seleziona (q := .idEsame nome) trivial rfl hc).bind fun _ v₃ h₃ => ?_
  refine h₃.chiede trivial fun res v₄ h₄ => ?_
  cases res with
  | none => exact registra_indefinito h₄.tenuto
  | some rows =>
    refine (registra_ultimoId rows (diInt_toInt idEsame) h₄).bind fun id v₅ h₅ => ?_
    refine (h₅.2.cString _).bind fun data v₆ h₆ => ?_
    refine (h₆.1.query (q := .inserisciAppello id data) h₅.1
      fun ok v₇ hc => h₆.1.appello h₅.1 hc).bind fun ok v₇ h₇ => ?_
    refine (Pendente.esitoAppello (fun hok => ?_) h₇.2).bind fun _ v₈ h₈ => Esaurita.mysqlClose h₈
    obtain ⟨hlen, a, hdata, h₇⟩ := h₇.1 hok
    rw [h₆.2 (by omega)] at hdata
    exact ⟨a, .aggiunto hcod hdata, h₇⟩

/-- The insert, once the check has found a date: the row is added on the day of the insert, perhaps not
    that of the check. -/
theorem Pendente.inserisci {conn : Conn} {id mat : Int} {oggi data : Data} (hid : DiInt id) (hmat : DiInt mat)
    (h : Pendente v₀ fd .respinta [(id, mat)] ls v)
    (hletto : ∀ oggi oggi' data, (Atto.prenotata id mat oggi oggi' data).Letto M v₀.inizio ls)
    (hd : primaData M oggi v.db.toTabelle id mat = some data) :
    Registra I v₀ (inserisciPrenotazione fd conn mat [some (dec id), some (dateFormat data)])
      (fun _ v' => ∃ a b, Esaurita v₀ a b v') v := by
  have hstrtol : (Buffer.ofInt (strtol (dec id))).toInt = id := by
    obtain ⟨b, rfl⟩ : ∃ b : Buffer 4, b.toInt = id := ⟨Buffer.ofInt id, Buffer.toInt_ofInt hid.1 hid.2⟩
    exact ofInt_strtol_dec b
  rw [inserisciPrenotazione, if_pos (by rw [length_dateFormat]; decide), hstrtol]
  refine (h.query (q := .inserimento mat id) ⟨hmat, hid⟩ fun ok v' hc => h.inserimento hid hmat hd hc).bind
    fun ok v' h' => ?_
  cases ok with
  | true =>
    obtain ⟨oggi', h'⟩ := h'.1 rfl
    exact ⟨⟨h'.tenuto, trivial⟩, fun _ _ hc => ⟨_, _, h'.scrive rfl (hletto _ _ _) hc⟩⟩
  | false => exact (h'.2 rfl).scriviErrore

/-- From the result set of the check on: without one nothing is defined any more, without a row the
    booking is refused, and with one the insert decides. -/
theorem Pendente.esito {conn : Conn} {id mat : Int} {oggi : Data} (hid : DiInt id) (hmat : DiInt mat)
    (h : Pendente v₀ fd .respinta [(id, mat)] ls v)
    (hletto : ∀ oggi oggi' data, (Atto.prenotata id mat oggi oggi' data).Letto M v₀.inizio ls)
    {res : Option (List Row)}
    (hres : ∀ rows ∈ res, rows = ((primaData M oggi v.db.toTabelle id mat).map fun d =>
      [some (dec id), some (dateFormat d)]).toList) :
    Registra I v₀ (do
      match res with
      | none =>
        Server.scriviErrore fd
        indefinito
      | some [] => sys (.write fd (ascii "invalid id or data!"))
      | some (row :: _) => inserisciPrenotazione fd conn mat row
      sys .mysqlClose) (fun _ v' => ∃ a b, Esaurita v₀ a b v') v := by
  cases res with
  | none =>
    refine h.scriviErrore.bind ?_
    rintro _ v' ⟨a, b, h'⟩
    exact ⟨⟨h'.tenuto, trivial⟩, nofun⟩
  | some rows =>
    have hrows := hres rows rfl
    -- no row: the booking is refused; a row: the insert is tried with it
    cases hd : primaData M oggi v.db.toTabelle id mat with
    | none =>
      rw [hd] at hrows
      subst hrows
      exact ⟨⟨h.tenuto, trivial⟩, fun _ _ hc =>
        Esaurita.mysqlClose ⟨_, _, h.scrive not_successo_invalida (.respinta _) hc⟩⟩
    | some data =>
      rw [hd] at hrows
      subst hrows
      exact (h.inserisci hid hmat hletto hd).bind fun _ v' h' => Esaurita.mysqlClose h'

/-- The reply to a check that failed: it has no result set, and no way back to the loop. -/
theorem Perduto.scriviErrore {ts : List Bytes} (h : Perduto v₀ ts v) :
    Registra I v₀ (scriviErrore fd) (fun _ v' => (∃ ts, Perduto v₀ ts v') ∧ v'.res = v.res) v := by
  refine ⟨⟨h.tenuto, trivial⟩, fun err v₁ hc₁ => ?_⟩
  have h₁ := h.quieta hc₁ trivial
  refine ⟨⟨h₁.tenuto, trivial⟩, fun _ v₂ hc₂ => ⟨h₁.scrive (fun request => hc₁.ammesso request) hc₂, ?_⟩⟩
  obtain ⟨_, h₁⟩ := hc₁.mysql
  obtain ⟨_, h₂⟩ := hc₂.mysql
  exact (Prod.mk.inj (Option.some.inj h₂)).2.symm.trans (Prod.mk.inj (Option.some.inj h₁)).2.symm

/-- What `mysql_store_result` returns. -/
theorem store_result {res : Option (List Row)} (hc : v.Chiama I .mysqlStoreResult res v') :
    v'.db = v.db ∧ (res = none ∨ res = v.res) := by
  refine ⟨hc.db (by simp), ?_⟩
  obtain ⟨_, h⟩ := hc.mysql
  simp only [Interprete.chiama] at h
  split at h
  · assumption
  · cases h

/-- **A booking**: one act, and its reply. A check that fails is answered twice and the request never
    ends; that is an act which does nothing, with no reply that promises anything. -/
theorem Intatto.aggiungiPrenotazione (h : Intatto v₀ v) (hconn : v.ser.connessione = some fd) {c : Bytes}
    (hl : v.letti = [c]) (hcod : codice v₀.inizio c = 2) :
    Registra I v₀ (aggiungiPrenotazione fd) (fun _ v' => ∃ a b, Esaurita v₀ a b v') v := by
  refine (h.connection hconn hl).bind fun conn v₁ h₁ => ?_
  simp only [Prog.ret_bind, Prog.op_eq, Prog.call_bind]
  refine h₁.chiede trivial fun id _ h₁ => h₁.chiede trivial fun mat _ h₁ =>
    h₁.riceve fun r _ h₁ => h₁.riceve fun r' v₂ h₂ => ?_
  have hid := diInt_toInt (id.overlay r)
  have hmat := diInt_toInt (mat.overlay r')
  refine (h₂.query (q := .verificaPrenotazione (id.overlay r).toInt (mat.overlay r').toInt) trivial
    fun ok v₃ hc => h₂.verifica hid hmat hc).bind fun ok v₃ h₃ => ?_
  obtain ⟨h₃, hno, hsi⟩ := h₃
  cases ok with
  | true =>
    obtain ⟨oggi, hres⟩ := hsi rfl
    refine ⟨⟨h₃.tenuto, trivial⟩, fun res v₄ hc => ?_⟩
    obtain ⟨hdb, heq⟩ := store_result hc
    -- what is stored are the rows of the check just made, or nothing
    have hrighe : ∀ rows ∈ res, rows = ((primaData M oggi v₄.db.toTabelle (id.overlay r).toInt
        (mat.overlay r').toInt).map fun d =>
          [some (dec (id.overlay r).toInt), some (dateFormat d)]).toList := by
      intro rows hrows
      rcases heq with rfl | rfl
      · cases hrows
      · rw [hres] at hrows
        rw [hdb]
        exact (Option.some.inj hrows).symm
    exact (h₃.quieta hc trivial).esito hid hmat (fun _ _ _ => .prenotata hcod) hrighe
  | false =>
    -- the check failed: two errors are written for one request, which is never finished
    refine h₃.perduto.scriviErrore.bind ?_
    rintro _ v₄ ⟨⟨ts, h₄⟩, hres⟩
    refine ⟨⟨h₄.tenuto, trivial⟩, fun res v₅ hc => ?_⟩
    obtain ⟨-, heq⟩ := store_result hc
    obtain rfl : res = none := by
      rcases heq with rfl | rfl
      · rfl
      · rw [hres, hno rfl]
    refine (h₄.quieta hc trivial).scriviErrore.bind ?_
    rintro _ v' ⟨⟨ts', h'⟩, -⟩
    exact ⟨⟨h'.tenuto, trivial⟩, nofun⟩

/-- A code that arrives came over the connection there is; what it asks for is then one act at most. -/
theorem Intatto.richiesta (h : Intatto v₀ v) (hl : v.letti = []) {s : Server}
    (hs : s.request = v₀.inizio.request) :
    Registra I v₀ s.richiesta (fun _ v' => InRegola v₀ v') v := by
  refine ⟨⟨h.tenuto, trivial⟩, fun r v' hc => ?_⟩
  obtain ⟨hdb, hris, hes, -, hletti⟩ := hc.read
  have h' : Intatto v₀ v' := ⟨hdb.trans h.db, hes.trans h.eseguite, hris.trans h.risposte, hc.inizio.trans h.inizio⟩
  rw [hl, List.nil_append] at hletti
  have hcod : codice v₀.inizio r = (s.request.overlay r).toInt := by rw [codice, hs]
  show Registra I v₀ (if 0 < r.length then _ else _) _ v'
  split
  · rename_i hpos
    -- bytes came, so they came over the connection
    have hconn : v'.ser.connessione = some s.connfd := by
      have hser := hc.ser
      simp only [LatoServer.chiama] at hser
      split at hser
      · rename_i hconn
        rw [← Option.some.inj hser]
        exact hconn
      · split at hser
        · rename_i hnil
          rw [hnil] at hpos
          exact absurd hpos (Nat.lt_irrefl 0)
        · cases hser
    refine Registra.bind (K := fun _ v' => InRegola v₀ v') ?_ fun _ _ h => h
    show Registra I v₀ (smista s.connfd (s.request.overlay r).toInt) _ v'
    rw [smista, ← hcod]
    split
    · rename_i h1
      exact (h'.aggiungiAppello hconn hletti h1).mono fun _ _ h => .inr h
    · split
      · rename_i h2
        exact (h'.aggiungiPrenotazione hconn hletti h2).mono fun _ _ h => .inr h
      · exact .inl h'
  · exact .inl h'

/-- **One turn of the server**: nothing, or one act and its reply. By the code that was read; a code
    that is none leaves the turn without an act. -/
theorem registra_passo {t : Server} (ht : v.inizio = t) (hl : v.letti = []) :
    Registra I v (Server.passo t) (fun _ v' => InRegola v v') v := by
  -- behind `select` and `accept` the turn is a request, or over
  have hcoda : ∀ (s : Server) (rs : List Int) {v' : Banco M}, s.request = t.request → Intatto v v' →
      v'.letti = [] → Registra I v (if s.connfd ∈ rs then s.richiesta else pure s) (fun _ v' => InRegola v v') v' := by
    intro s rs v' hs h hl
    split
    · exact h.richiesta hl (hs.trans (by rw [ht]))
    · exact .inl h
  have hpronti : ∀ (rs : List Int) {v' : Banco M}, Intatto v v' → v'.letti = [] →
      Registra I v (if t.listenfd ∈ rs then
          t.nuovaConnessione >>= fun s => if s.connfd ∈ rs then s.richiesta else pure s
        else pure t >>= fun s => if s.connfd ∈ rs then s.richiesta else pure s)
        (fun _ v' => InRegola v v') v' := by
    intro rs v' h hl
    split
    · refine ⟨⟨h.tenuto, trivial⟩, fun fd v₁ hc => hcoda _ rs rfl ?_ ?_⟩
      · -- the descriptor changes, the books do not
        have hser := hc.ser
        simp only [LatoServer.chiama] at hser
        split at hser
        · have hser := Option.some.inj hser
          exact ⟨(hc.db (by simp)).trans h.db, by rw [← hser]; exact h.eseguite,
            by rw [← hser]; exact h.risposte, hc.inizio.trans h.inizio⟩
        · split at hser
          · have hser := Option.some.inj hser
            exact ⟨(hc.db (by simp)).trans h.db, by rw [← hser]; exact h.eseguite,
              by rw [← hser]; exact h.risposte, hc.inizio.trans h.inizio⟩
          · cases hser
      · rw [hc.letti, hl]
        rfl
    · exact hcoda t rs rfl h hl
  refine ⟨⟨(Intatto.refl v).tenuto, trivial⟩, fun pronti v' hc => ?_⟩
  have h' := (Intatto.refl v).quieta hc trivial
  have hl' : v'.letti = [] := by
    rw [hc.letti, hl]
    rfl
  cases pronti with
  | none => exact hpronti _ h' hl'
  | some p => exact hpronti p.1 h' hl'

end Banco

/-! ## Every run -/

/-- `mysql_error` tells the server no success, and the date it inserts stays between its quotes. -/
def Onesta : Mossa → Prop
  | .act₂ o r => Ammesso o r
  | _ => True

/-- At the beginning `v` of a turn: the acts so far made the database, their bookings are among those
    checked, and each has had its reply. -/
structure Registro {M : Mysql} (db : BaseDati M.collazione) (atti : List Atto) (v : Banco M) : Prop where
  /-- The acts lead from the first tables to these ... -/
  passi : Steps (fun db a db' => a.Fa M db db') db atti v.db
  /-- ... their bookings were checked, in the same order ... -/
  prenotazioni : (atti.filterMap Atto.prenotazione).Sublist v.ser.eseguite
  /-- ... and each has its reply. -/
  risposte : List.Forall₂ Atto.Risponde atti v.ser.risposte

/-- Each reply that was opened belongs to an act, in their order; the last one may still be without a text, or be
    that of a request that is lost. -/
inductive Riferiti : List Atto → List Bytes → Prop
  /-- At the head of the loop. -/
  | tutti {atti : List Atto} {rs : List Bytes} : List.Forall₂ Atto.Risponde atti rs → Riferiti atti rs
  /-- In the middle of a request: its reply is still empty. -/
  | aperto {atti : List Atto} {rs : List Bytes} (a : Atto) : List.Forall₂ Atto.Risponde atti rs →
      Riferiti (atti ++ [a]) (rs ++ [[]])
  /-- A request from which there is no way back to the loop. -/
  | perso {atti : List Atto} {rs ts : List Bytes} : List.Forall₂ Atto.Risponde atti rs →
      (∀ t ∈ ts, ∀ request, ¬ Successo request t) → Riferiti (atti ++ [.respinta]) (rs ++ [ts.flatten])

theorem filterMap_concat (atti : List Atto) (a : Atto) :
    (atti ++ [a]).filterMap Atto.prenotazione = atti.filterMap Atto.prenotazione ++ a.prenotazione.toList := by
  rw [List.filterMap_append]
  cases h : a.prenotazione <;> simp [h]

section Registro

variable {M : Mysql} {db : BaseDati M.collazione} {atti : List Atto} {v v' : Banco M}

theorem Registro.intatto (h : Registro db atti v) (hi : Intatto v v') : Registro db atti v' :=
  ⟨by rw [hi.db]; exact h.passi, by rw [hi.eseguite]; exact h.prenotazioni, by rw [hi.risposte]; exact h.risposte⟩

theorem Registro.esaurita {a : Atto} {b : Bytes} (h : Registro db atti v) (he : Esaurita v a b v') :
    Registro db (atti ++ [a]) v' := by
  obtain ⟨ps, hps, hp⟩ := he.prenota
  refine ⟨h.passi.snoc he.fa, ?_, ?_⟩
  · rw [filterMap_concat, hps]
    exact h.prenotazioni.append hp
  · rw [he.risposte]
    exact List.rel_append h.risposte (.cons he.risponde .nil)

/-- In the middle of a turn the act that is under way is one more, and its reply may still be empty; at
    its end there are as many replies as acts. -/
theorem Registro.tenuto (h : Registro db atti v) (ht : Tenuto v v') : ∃ atti,
    Steps (fun db a db' => a.Fa M db db') db atti v'.db ∧
      (atti.filterMap Atto.prenotazione).Sublist v'.ser.eseguite ∧ Riferiti atti v'.ser.risposte := by
  obtain ⟨a, ps, hfa, hes, hp, hr⟩ := ht
  have hatto : ((atti ++ [a]).filterMap Atto.prenotazione).Sublist v'.ser.eseguite := by
    rw [filterMap_concat, hes]
    exact h.prenotazioni.append hp
  -- an act without a reply is none
  generalize v'.ser.risposte = rs at hr
  cases hr with
  | fermo =>
    have hdb : v'.db = v.db := by
      generalize v'.db = db' at hfa
      cases hfa
      rfl
    refine ⟨atti, by rw [hdb]; exact h.passi, ?_, .tutti h.risposte⟩
    rw [hes]
    exact h.prenotazioni.trans (List.sublist_append_left _ _)
  | aperto => exact ⟨atti ++ [a], h.passi.snoc hfa, hatto, .aperto a h.risposte⟩
  | detto hb => exact ⟨atti ++ [a], h.passi.snoc hfa, hatto, .tutti (List.rel_append h.risposte (.cons hb .nil))⟩
  | perso hts => exact ⟨atti ++ [.respinta], h.passi.snoc hfa, hatto, .perso h.risposte hts⟩

end Registro

section Corse

variable {M : Mysql} {sockfd : Int} {I : Interprete M} {giorno : Nat → Data}
  {C : StatoArchivio M → Mossa → Prop} {clienti : Nat → Bytes} {s : Segreteria} {t : Server}
  {db : BaseDati M.collazione} {d d' : StatoArchivio M}

/-- The part of the world that the secretary leaves alone, and the server's turn. -/
def vistaBanco (d : StatoArchivio M) : Banco M := ⟨d.env.rete.ser, d.env.db, d.env.resSer, d.turn₂, letture d.trace₂⟩

/-- The secretary's moves leave it alone: of what it shares with the server only the streams change, and
    the tables do not. -/
theorem vistaBanco_first (hd : (archivio sockfd I giorno).Reach C (inizioArchivio clienti s t db) d) {m : Mossa}
    (hm : m.first) (hs : (archivio sockfd I giorno).step d m = some d') : vistaBanco d' = vistaBanco d := by
  cases m with
  | turn₁ => obtain ⟨_, -, rfl⟩ := Duo.step_turn₁ _ hs; rfl
  | turn₂ => exact hm.elim
  | act₂ o r => exact hm.elim
  | act₁ o r =>
    have hsola := archivio_sola_lettura (sola_ret _) hd
    obtain ⟨k, e, hp, he, rfl⟩ := Duo.step_act₁ _ hs
    rw [hp] at hsola
    obtain ⟨hrete, hdb, hres⟩ := archivio_ans₁ he
    have hser := (sistema_ans₁.mp hrete).2.2
    have hdb := I.chiama_legge (Prog.only_call.mp hsola).1 hdb
    simp only [vistaBanco, hser, hdb, hres]

/-- **Every turn of the server is one act at most**, in every run; `K` is what more is to be known of
    the acts of the turns before. This is the run lemma behind all results about the tables, each with a
    `K` of its own. -/
theorem registra (hC : ∀ d m, C d m → Onesta m) {K : StatoArchivio M → List Atto → Banco M → Prop}
    (h0 : K (inizioArchivio clienti s t db) [] (vistaBanco (inizioArchivio clienti s t db)))
    (hkeep : ∀ d m d' atti v, (archivio sockfd I giorno).Reach C (inizioArchivio clienti s t db) d → C d m →
      m ≠ .turn₂ → (archivio sockfd I giorno).step d m = some d' → K d atti v → K d' atti v)
    (hintatto : ∀ d t' d' atti v, (archivio sockfd I giorno).Reach C (inizioArchivio clienti s t db) d →
      d.prog₂ = .ret t' → (archivio sockfd I giorno).step d .turn₂ = some d' → K d atti v →
      Intatto v (vistaBanco d) → K d' atti (vistaBanco d'))
    (hatto : ∀ d t' d' atti v a b, (archivio sockfd I giorno).Reach C (inizioArchivio clienti s t db) d →
      d.prog₂ = .ret t' → (archivio sockfd I giorno).step d .turn₂ = some d' → K d atti v →
      Esaurita v a b (vistaBanco d) → K d' (atti ++ [a]) (vistaBanco d'))
    (hd : (archivio sockfd I giorno).Reach C (inizioArchivio clienti s t db) d) :
    ∃ v atti, Registro db atti v ∧ K d atti v ∧ Registra I v d.prog₂ (fun _ v' => InRegola v v') (vistaBanco d) := by
  have hturni := Duo.Reach.turns₂ (P := fun v v' o => Tenuto v v' ∧ o.Numerica) vistaBanco
    (K := fun d v => ∃ atti, Registro db atti v ∧ K d atti v) (W := fun v _ v' => InRegola v v')
    (T := Banco.Chiama I) ?_ ?_ (fun d m d' hd hm hs => vistaBanco_first hd hm hs) ?_ ?_ ?_ ?_ hd
  · obtain ⟨v, ⟨atti, hreg, hK⟩, hsafe⟩ := hturni
    exact ⟨v, atti, hreg, hK, hsafe⟩
  · intro d o r d' _ hm hs
    obtain ⟨k, e, -, he, rfl⟩ := Duo.step_act₂ _ hs
    obtain ⟨hrete, hdb, -⟩ := archivio_ans₂ he
    exact ⟨hC _ _ hm, (sistema_ans₂.mp hrete).1, ⟨_, hdb⟩, rfl, letture_append _ _⟩
  · intro d t' d' hret hs
    obtain ⟨t'', hp, rfl⟩ := Duo.step_turn₂ _ hs
    obtain rfl : t' = t'' := Prog.ret.inj (hret.symm.trans hp)
    exact registra_passo rfl rfl
  · rintro d m d' v hd hm hne hs ⟨atti, hreg, hK⟩
    exact ⟨atti, hreg, hkeep d m d' atti v hd hm hne hs hK⟩
  · rintro d t' d' v hd hp hs ⟨atti, hreg, hK⟩ hW
    -- the next turn begins with the books of the last one
    have hcopia : ∀ {atti : List Atto}, Registro db atti (vistaBanco d) → Registro db atti (vistaBanco d') := by
      obtain ⟨t'', -, rfl⟩ := Duo.step_turn₂ _ hs
      exact fun h => ⟨h.passi, h.prenotazioni, h.risposte⟩
    rcases hW with hi | ⟨a, b, he⟩
    · exact ⟨atti, hcopia (hreg.intatto hi), hintatto d t' d' atti v hd hp hs hK hi⟩
    · exact ⟨atti ++ [a], hcopia (hreg.esaurita he), hatto d t' d' atti v a b hd hp hs hK he⟩
  · exact ⟨[], ⟨.nil, .refl _, .nil⟩, h0⟩
  · exact .inl (Intatto.refl _)

/-- The acts of a run, and the replies they have had. In the middle of a turn the last act may have none
    yet; at its head each has its own. -/
theorem registro_riferiti
    (hd : (archivio sockfd I giorno).Reach (fun _ m => Onesta m) (inizioArchivio clienti s t db) d) :
    ∃ atti, Steps (fun db a db' => a.Fa M db db') db atti d.env.db ∧
      (atti.filterMap Atto.prenotazione).Sublist d.env.rete.ser.eseguite ∧
      Riferiti atti d.env.rete.ser.risposte ∧
      ∀ t', d.prog₂ = .ret t' → List.Forall₂ Atto.Risponde atti d.env.rete.ser.risposte := by
  obtain ⟨v, atti, hreg, -, hsafe⟩ := registra (fun _ _ h => h) (K := fun _ _ _ => True) trivial
    (fun _ _ _ _ _ _ _ _ _ _ => trivial) (fun _ _ _ _ _ _ _ _ _ _ => trivial)
    (fun _ _ _ _ _ _ _ _ _ _ _ _ => trivial) hd
  cases hp : d.prog₂ with
  | ret t' =>
    rw [hp] at hsafe
    have hfine : ∃ atti, Registro db atti (vistaBanco d) := by
      rcases hsafe with hi | ⟨a, b, he⟩
      · exact ⟨atti, hreg.intatto hi⟩
      · exact ⟨atti ++ [a], hreg.esaurita he⟩
    obtain ⟨atti, hreg⟩ := hfine
    exact ⟨atti, hreg.passi, hreg.prenotazioni, .tutti hreg.risposte, fun _ _ => hreg.risposte⟩
  -- in the middle of a turn: what it has done so far is one act at most
  | call o k =>
    rw [hp] at hsafe
    obtain ⟨atti, hs, hsub, hr⟩ := hreg.tenuto hsafe.1.1
    exact ⟨atti, hs, hsub, hr, nofun⟩

/-- What the server inserts is made of `int`s. -/
theorem numerica (hC : ∀ d m, C d m → Onesta m)
    (hd : (archivio sockfd I giorno).Reach C (inizioArchivio clienti s t db) d) {o : Sys}
    {k : o.Ans → Programma Server} (hp : d.prog₂ = .call o k) : o.Numerica := by
  obtain ⟨v, -, -, -, hsafe⟩ := registra hC (K := fun _ _ _ => True) trivial
    (fun _ _ _ _ _ _ _ _ _ _ => trivial) (fun _ _ _ _ _ _ _ _ _ _ => trivial)
    (fun _ _ _ _ _ _ _ _ _ _ _ _ => trivial) hd
  rw [hp] at hsafe
  exact hsafe.1.2

/-! ## Rows are only added -/

/-- A statement that is executed adds rows at most: an insert adds one, at the end of its table, and a
    SELECT none. -/
theorem esegui_cresce {oggi : Data} {db : BaseDati M.collazione} {q : Query}
    {p : BaseDati M.collazione × List Row} (h : q.esegui M oggi db = some p) :
    Cresce db.toTabelle p.1.toTabelle := by
  -- only the two inserts change anything, and each adds one row at the end
  cases q with
  | inserisciAppello id t =>
    simp only [Query.esegui] at h
    split at h
    · cases h
    · split at h
      · rename_i hex
        obtain rfl := Option.some.inj h
        exact .aggiungiAppello _ _ hex
      · cases h
  | inserimento mat id =>
    simp only [Query.esegui] at h
    split at h
    · rename_i hs
      split at h
      · rename_i he
        obtain rfl := Option.some.inj h
        exact .aggiungiPrenota db _ hs fun i hi => by rw [← Option.mem_some_iff.mp hi]; exact he
      · cases h
    · cases h
  | _ =>
    obtain rfl := Option.some.inj h
    exact .refl _

/-- One move: a statement adds rows or leaves the tables, and every other call leaves them, of either
    program. -/
theorem cresce_step (hC : ∀ d m, C d m → Onesta m)
    (hd : (archivio sockfd I giorno).Reach C (inizioArchivio clienti s t db) d) {m : Mossa} (hm : C d m)
    (hs : (archivio sockfd I giorno).step d m = some d') : Cresce d.env.db.toTabelle d'.env.db.toTabelle := by
  cases m with
  | turn₁ => rw [SolaLettura.db (archivio_sola_lettura (sola_ret _) hd) (m := .turn₁) trivial hs]; exact .refl _
  | act₁ o r =>
    rw [SolaLettura.db (archivio_sola_lettura (sola_ret _) hd) (m := .act₁ o r) trivial hs]
    exact .refl _
  | turn₂ => obtain ⟨_, -, rfl⟩ := Duo.step_turn₂ _ hs; exact .refl _
  | act₂ o r =>
    have hammesso := hC _ _ hm
    obtain ⟨k, e, hp, he, rfl⟩ := Duo.step_act₂ _ hs
    have hnum := numerica hC hd hp
    obtain ⟨-, hdb, -⟩ := archivio_ans₂ he
    by_cases hlettura : o.Lettura
    · rw [show e.db = d.env.db from I.chiama_legge hlettura hdb]
      exact .refl _
    · -- an insert with data in it
      obtain ⟨q, rfl, hq⟩ : ∃ q, o = .mysqlQuery q ∧ ¬ q.Legge := by
        simpa [Sys.Lettura] using hlettura
      have hdato : q.Dato := by
        cases q with
        | inserisciAppello id t => exact ⟨hammesso.1, hnum, hammesso.2⟩
        | inserimento mat id => exact ⟨rfl, hnum⟩
        | _ => exact absurd trivial hq
      rcases Interprete.chiama_query hdb with ⟨-, p, hp, heq, -⟩ | ⟨-, heq, -⟩
      · rw [I.dato hdato] at hp
        rw [show e.db = p.1 from heq]
        exact esegui_cresce hp
      · rw [show e.db = d.env.db from heq]
        exact .refl _

/-- From any state of a run to any later one, by induction on the moves between them. -/
theorem cresce_run (hC : ∀ d m, C d m → Onesta m)
    (hd : (archivio sockfd I giorno).Reach C (inizioArchivio clienti s t db) d)
    (hd' : (archivio sockfd I giorno).Reach C d d') : Cresce d.env.db.toTabelle d'.env.db.toTabelle := by
  induction hd' with
  | init => exact .refl _
  | step hd' hm hs ih => exact ih.trans (cresce_step hC (hd.trans hd') hm hs)

/-- **What a student was offered is not taken back**: between any two states of a run the lists only get
    longer, and a booking that was open for the date `data` is open on every day before it, for that date or
    an earlier one. -/
theorem offerte_mantenute
    (hd : (archivio sockfd I giorno).Reach (fun _ m => Onesta m) (inizioArchivio clienti s t db) d)
    (hd' : (archivio sockfd I giorno).Reach (fun _ m => Onesta m) d d') (mat : Int) :
    (appelli M d.env.db.toTabelle mat).Sublist (appelli M d'.env.db.toTabelle mat) ∧
    (∀ exam, (appelliEsame M d.env.db.toTabelle mat exam).Sublist
      (appelliEsame M d'.env.db.toTabelle mat exam)) ∧
    ∀ id oggi oggi' data, primaData M oggi d.env.db.toTabelle id mat = some data → oggi' < data →
      ∃ data' ≤ data, primaData M oggi' d'.env.db.toTabelle id mat = some data' := by
  have h := cresce_run (fun _ _ h => h) hd hd'
  exact ⟨h.appelli mat, h.appelliEsame mat, fun id oggi oggi' data hdata hoggi => h.primaData hdata hoggi⟩

end Corse

/-! ## One run -/

/-- The engine `I`, with the statements `qs` prepared. -/
def Interprete.pronto {M : Mysql} (I : Interprete M) (qs : List Query) (h : ∀ q ∈ qs, q.Dato) : Interprete M where
  esegui oggi db testo := match qs.find? (fun q => q.testo = testo) with
    | some q => q.esegui M oggi db
    | none => I.esegui oggi db testo
  dato {q} hq oggi db := by
    split
    · rename_i q' hq'
      have heq : q'.testo = q.testo := by simpa using List.find?_some hq'
      rw [testo_injective (h q' (List.mem_of_find?_eq_some hq')).2 hq.2 heq]
    · exact I.dato hq oggi db
  selezione {testo} hs oggi db p hp := by
    split at hp
    · rename_i q' hq'
      have heq : q'.testo = testo := by simpa using List.find?_some hq'
      exact esegui_legge ((selezione_testo q').mp (by rw [heq]; exact hs)) hp
    · exact I.selezione hs hp

/-- `MySQL` on the first of March, with the two statements of the operator's request. -/
noncomputable def mysqlMarzo : Interprete mysqlLuglio :=
  (interprete mysqlLuglio (fun _ _ _ => none) fun _ _ _ _ h => nomatch h).pronto
    [.idEsame (ascii "ASD"), .inserisciAppello 12411 (ascii "2024-07-01")] (by
      rintro q hq
      rcases List.mem_pair.mp hq with rfl | rfl
      · exact ⟨by decide +kernel, show (ascii "ASD").length ≤ 254 by decide⟩
      · exact ⟨by decide +kernel, ⟨by decide, by decide⟩, of_decide_eq_true rfl⟩)

/-- The shipped database, and no student. -/
def inizioMarzo : StatoArchivio mysqlLuglio :=
  inizioArchivio (fun _ => []) (Segreteria.iniziale 3 4 (Buffer.zero 4) 0 fun _ => ⟨0, Buffer.zero 4⟩)
    ⟨5, -1, Buffer.zero 4, 5⟩ universita

/-- The operator adds an appello of `ASD`. -/
def appelloLuglio : List Mossa := [
  .turn₁, .turn₁, .act₁ (.select 5 [4, 3] [4, 3]) (some ([], [3])), .turn₁, .turn₁,
  .act₁ .scanf (some 2), .act₁ .pulisciInput (), .act₁ (.write 3 [1, 0, 0, 0]) (),
  .act₁ (.fgets 255) (some (ascii "ASD" ++ [10])), .act₁ (.write 3 (ascii "ASD")) (),
  .act₁ (.fgets 12) (some (ascii "2024-07-01" ++ [10])), .act₁ (.write 3 (ascii "2024-07-01")) (),
  .turn₂, .act₂ (.select 6 [5] []) (some ([5], [])), .act₂ (.accept 5) (6 : Int),
  .turn₂, .act₂ (.select 7 [6, 5] []) (some ([6], [])), .act₂ (.read 6 4) [1, 0, 0, 0],
  .act₂ .mysqlInit true, .act₂ .mysqlRealConnect true, .act₂ (.read 6 255) (ascii "ASD"),
  .act₂ (.read 6 12) (ascii "2024-07-01"), .act₂ (.indeterminato 4) (Buffer.zero 4),
  .act₂ (.mysqlQuery (.idEsame (ascii "ASD"))) true,
  .act₂ .mysqlUseResult (some [[some (ascii "12411")]]),
  .act₂ (.mysqlQuery (.inserisciAppello 12411 (ascii "2024-07-01"))) true,
  .act₂ (.write 6 appelloInserito) (), .act₂ .mysqlClose ()]

/-- `Onesta`, as a test. -/
def onesta (d : StatoArchivio mysqlLuglio) : Mossa → Bool
  | .act₂ .mysqlError _ => false
  | .act₂ (.mysqlQuery (.inserisciAppello _ t)) _ => plain 39 t && decide (t.length ≤ 11)
  | _ => true

theorem onesta_ok (d : StatoArchivio mysqlLuglio) (m : Mossa) (h : onesta d m = true) : Onesta m := by
  cases m with
  | act₂ o r =>
    cases o with
    | mysqlError => cases h
    | mysqlQuery q =>
      cases q with
      | inserisciAppello id t =>
        obtain ⟨hplain, ht⟩ := Bool.and_eq_true_iff.mp h
        exact ⟨hplain, of_decide_eq_true ht⟩
      | _ => trivial
    | _ => trivial
  | _ => trivial

/-- The run of the operator's request, up to its reply. -/
theorem aggiunto_luglio : ∃ d, (archivio 3 mysqlMarzo fun _ => 20240301).Reach (fun _ m => Onesta m)
      inizioMarzo d ∧ d.env.db.appello = tabelle.appello ++ [⟨20240701, 12411⟩] ∧
      d.env.rete.ser.risposte = [appelloInserito] := by
  have hrun : (((archivio 3 mysqlMarzo fun _ => 20240301).run onesta inizioMarzo appelloLuglio).map fun d =>
      (d.env.db.appello, d.env.rete.ser.risposte)) =
        some (tabelle.appello ++ [⟨20240701, 12411⟩], [appelloInserito]) := by decide +kernel
  obtain ⟨d, hd, heq⟩ := Option.map_eq_some_iff.mp hrun
  obtain ⟨happello, hrisposte⟩ := Prod.mk.inj heq
  exact ⟨d, Duo.reach_run onesta_ok _ .init hd, happello, hrisposte⟩

/-- What Giulia Verdi was offered before it: the lists are longer now, and what was open still is. -/
theorem offerte_mantenute_luglio : ∃ d : StatoArchivio mysqlLuglio,
    d.env.db.appello = tabelle.appello ++ [⟨20240701, 12411⟩] ∧
    (appelli mysqlLuglio tabelle 20230003).Sublist (appelli mysqlLuglio d.env.db.toTabelle 20230003) ∧
    (∀ exam, (appelliEsame mysqlLuglio tabelle 20230003 exam).Sublist
      (appelliEsame mysqlLuglio d.env.db.toTabelle 20230003 exam)) ∧
    ∀ id oggi oggi' data, primaData mysqlLuglio oggi tabelle id 20230003 = some data → oggi' < data →
      ∃ data' ≤ data, primaData mysqlLuglio oggi' d.env.db.toTabelle id 20230003 = some data' := by
  obtain ⟨d, hd, happello, -⟩ := aggiunto_luglio
  exact ⟨d, happello, offerte_mantenute .init hd 20230003⟩

end Universita

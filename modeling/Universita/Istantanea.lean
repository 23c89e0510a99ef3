/-
  A LIST OF ONE MOMENT — what a student is shown, from the tables to the stream, while the server writes.

  Between the statement of a list and its last record lie many calls, and between any two of them the server
  may change the tables: the two programs share the database and nothing orders them.  The result waits on the
  secretary's connection; it is stored, counted and sent row by row, and behind the branch the code looks a second
  time for a result that is no longer there.

  What is shown is therefore the tables of ONE moment, that of the statement, and of no other; not those of the
  moment at which the student reads.  The first half of the result speaks of the rows the engine has for the text of
  the statement, whatever the student typed in it; when that text is data (`Dato`), these are the rows of the list.

  The crux is the result that waits: only a statement replaces it, and only storing it takes it away.  `Sala` keeps it
  beside the turn, so that what a turn does to it is a fact about the secretary alone (`UnaLista`); what the server
  does meanwhile leaves `Sala` as it is, and one induction over the rest of the turn (`resta_in_attesa`) joins the
  moment of the statement to the end of the list.

  Contents:
  1. `Sala`, `Segue` — the secretary's turn, with the result that waits for it.
  2. `sala_righe`, `sala_risultato`, `sala_coda` — what sending a result writes.
  3. `UnaLista` — a turn of the loop over the students: one statement, and one list at most.
  4. `resta_in_attesa` — the result that waits, to the end of the turn.
  5. **`elenco_di_un_momento`** — every run; `elenco_di_un_momento_prog1` — a run in which the server adds an appello
     between the statement and the first record.
-/
import Universita.Matricola
import Universita.Disponibili
import Universita.Autenticati

set_option linter.unusedVariables false

namespace Universita

open Lib Segreteria

/-- The secretary's turn so far, with the result set that waits for it on its connection to MySQL. -/
structure Sala where
  /-- The answered calls of the turn. -/
  traccia : List Evento
  /-- The result of the last statement, as long as it was not stored. -/
  res : Option (List Row)
  /-- What the turn started from. -/
  turno : Punto × Segreteria

/-- The call is no statement. Between two statements what waits can only be taken away. -/
def Sys.SenzaQuery (o : Sys) : Prop := ∀ q, o ≠ .mysqlQuery q

section Sala

variable {M : Mysql} {I : Interprete M} {v v' v'' : Sala} {o : Sys} {r : o.Ans} {fd : Int}
  {nuovi nuovi' : List Evento} {rows : List Row}

/-- `v.Chiama I o r v'` — one answer, on some day and some database: the server may have changed the
    tables since the last call, so that neither is known. -/
structure Sala.Chiama (I : Interprete M) (v : Sala) (o : Sys) (r : o.Ans) (v' : Sala) : Prop where
  /-- The engine, on whatever the server has made of the tables by now. -/
  mysql : ∃ oggi db db', I.chiama oggi db v.res o r = some (db', v'.res)
  /-- The call is recorded ... -/
  traccia : v'.traccia = v.traccia ++ [⟨o, r⟩]
  /-- ... and the turn is still the same. -/
  turno : v'.turno = v.turno

/-- `Segue nuovi v v'` — from `v` to `v'` there were the calls `nuovi` of the same turn, and no
    statement among them. -/
structure Segue (nuovi : List Evento) (v v' : Sala) : Prop where
  /-- The calls are behind those there were ... -/
  traccia : v'.traccia = v.traccia ++ nuovi
  /-- ... of the same turn ... -/
  turno : v'.turno = v.turno
  /-- ... and none of them replaces what waits. -/
  muta : ∀ ev ∈ nuovi, ev.1.SenzaQuery

theorem Segue.refl (v : Sala) : Segue [] v v :=
  ⟨(List.append_nil _).symm, rfl, fun _ h => absurd h List.not_mem_nil⟩

theorem Segue.trans (h : Segue nuovi v v') (h' : Segue nuovi' v' v'') : Segue (nuovi ++ nuovi') v v'' := by
  refine ⟨by rw [h'.traccia, h.traccia, List.append_assoc], h'.turno.trans h.turno, fun ev hev => ?_⟩
  rcases List.mem_append.mp hev with hev | hev
  · exact h.muta ev hev
  · exact h'.muta ev hev

theorem Sala.Chiama.segue (h : v.Chiama I o r v') (ho : o.SenzaQuery) : Segue [⟨o, r⟩] v v' := by
  refine ⟨h.traccia, h.turno, fun ev hev => ?_⟩
  rw [List.mem_singleton.mp hev]
  exact ho

theorem Sala.Chiama.res (h : v.Chiama I o r v') (ho : o.SenzaQuery) (hinit : o ≠ .mysqlInit)
    (hstore : o ≠ .mysqlStoreResult) (huse : o ≠ .mysqlUseResult) : v'.res = v.res := by
  obtain ⟨oggi, db, db', hdb⟩ := h.mysql
  cases o with
  | mysqlQuery q => exact absurd rfl (ho q)
  | mysqlInit => exact absurd rfl hinit
  | mysqlStoreResult => exact absurd rfl hstore
  | mysqlUseResult => exact absurd rfl huse
  | _ => exact (Prod.mk.inj (Option.some.inj hdb)).2.symm

/-- What is stored is what was waiting, and it waits no more. -/
theorem Sala.Chiama.store {res : Option (List Row)} (h : v.Chiama I .mysqlStoreResult res v') :
    (res = none ∨ res = v.res) ∧ v'.res = none := by
  obtain ⟨oggi, db, db', hdb⟩ := h.mysql
  obtain ⟨hres, -, hnone⟩ := Interprete.chiama_store hdb
  exact ⟨hres, hnone⟩

/-- Without a statement what waits can only be lost: it is there until it is stored, and nothing else is
    put in its place. -/
theorem Sala.Chiama.attende (h : v.Chiama I o r v') (ho : o.SenzaQuery) : v'.res = none ∨ v'.res = v.res := by
  obtain ⟨oggi, db, db', hdb⟩ := h.mysql
  cases o with
  | mysqlQuery q => exact absurd rfl (ho q)
  | mysqlInit => exact Or.inl (Prod.mk.inj (Option.some.inj hdb)).2.symm
  | mysqlStoreResult => exact Or.inl h.store.2
  | mysqlUseResult =>
    simp only [Interprete.chiama] at hdb
    split at hdb
    · exact Or.inl (Prod.mk.inj (Option.some.inj hdb)).2.symm
    · cases hdb
  | _ => exact Or.inr (Prod.mk.inj (Option.some.inj hdb)).2.symm

/-- What was written in two stretches of a turn. -/
theorem scritte_append (fd : Int) (tr tr' : List Evento) : scritte fd (tr ++ tr') = scritte fd tr ++ scritte fd tr' := by
  rw [scritte, List.flatMap_append]
  rfl

theorem scritte_write (fd : Int) (bs : Bytes) (u : Unit) : scritte fd [⟨.write fd bs, u⟩] = [bs] := by
  simp [scritte, scrittura]

/-- In the turn of a student the only statements ask for the list of the matricola in the slot: all
    appelli of the student's year, or those of the exam whose name he has sent. -/
def DellaMatricola (v : Sala) (o : Sys) : Prop :=
  ∀ i q, v.turno.1 = .servi i → o = .mysqlQuery q →
    q = .appelli (v.turno.2.clientSockets i).matricola.toInt ∨
      ∃ exam, q = .appelliEsame (v.turno.2.clientSockets i).matricola.toInt exam

theorem dellaMatricola_muta (ho : o.SenzaQuery) : DellaMatricola v o := fun _ q _ heq => absurd heq (ho q)

/-! ## Sending a result -/

/-- `Lista rows ws` — the writes `ws` are the list of `rows`, sent from some memory: the count, and
    three writes for each row. -/
def Lista (rows : List Row) (ws : List Bytes) : Prop :=
  ∃ nome data ls, righeLista nome data rows = some ls ∧ ws = scrittureElenco ls

theorem muta_write {bs : Bytes} : Sys.SenzaQuery (.write fd bs) := fun q h => by cases h

theorem muta_read {n : Nat} : Sys.SenzaQuery (.read fd n) := fun q h => by cases h

theorem muta_indeterminato {n : Nat} : Sys.SenzaQuery (.indeterminato n) := fun q h => by cases h

/-- Where C defines nothing, nothing is asked. -/
theorem dellaMatricola_indefinito : DellaMatricola v .indefinito := dellaMatricola_muta fun q h => by cases h

/-- The loop over the rows writes their records, by induction on the rows with the two buffers as they
    come. -/
theorem sala_righe {rows : List Row} : ∀ {nome : Buffer 255} {data : Buffer 12} {v : Sala},
    (inviaRighe fd nome data rows).Safe (Sala.Chiama I) DellaMatricola (fun _ v' => v'.res = v.res ∧
      ∃ nuovi ls, Segue nuovi v v' ∧ righeLista nome data rows = some ls ∧
        scritte fd nuovi = ls.flatMap RigaLista.scritture) v := by
  induction rows with
  | nil => exact fun {_ _ v} => ⟨rfl, [], [], .refl v, rfl, rfl⟩
  | cons row rows ih =>
    intro nome data v
    -- a row of three columns, none of them NULL; of other rows nothing is defined
    rcases row with _ | ⟨_ | i, _ | ⟨_ | n, _ | ⟨_ | d, _ | _⟩⟩⟩
    case cons.some.cons.some.cons.some.nil =>
      simp only [inviaRighe, sscanfRiga_eq, sscanfParola_eq]
      cases hn : scansione (primaRiga n) nome with
      | none => exact ⟨dellaMatricola_indefinito, fun r _ _ => Empty.elim r⟩
      | some nome' =>
        cases hd : scansione (primaParola d) data with
        | none => exact ⟨dellaMatricola_indefinito, fun r _ _ => Empty.elim r⟩
        | some data' =>
          refine ⟨dellaMatricola_muta muta_write, fun _ v₁ h₁ => ⟨dellaMatricola_muta muta_write, fun _ v₂ h₂ =>
            ⟨dellaMatricola_muta muta_write, fun _ v₃ h₃ => ih.mono ?_⟩⟩⟩
          rintro - v' ⟨hres, nuovi, ls, hs, hls, hw⟩
          -- a write leaves the result where it is
          have hfermo : ∀ {u u' : Sala} {bs : Bytes} {a : Unit}, u.Chiama I (.write fd bs) a u' → u'.res = u.res :=
            fun h => h.res muta_write (by simp) (by simp) (by simp)
          refine ⟨hres.trans ((hfermo h₃).trans ((hfermo h₂).trans (hfermo h₁))), _,
            ⟨Buffer.ofInt (strtol i), nome', data'⟩ :: ls,
            (h₁.segue muta_write).trans ((h₂.segue muta_write).trans ((h₃.segue muta_write).trans hs)), ?_, ?_⟩
          · rw [righeLista, hn, Option.bind_some, hd, Option.bind_some, hls]
            rfl
          · rw [scritte_append, scritte_append, scritte_append, hw, scritte_write, scritte_write, scritte_write]
            rfl
    all_goals exact ⟨dellaMatricola_indefinito, fun r _ _ => Empty.elim r⟩

/-- The count, and the records behind it: what is written for a stored result is a list of its rows. -/
theorem sala_risultato (rows : List Row) :
    (inviaRisultato fd (some rows)).Safe (Sala.Chiama I) DellaMatricola (fun _ v' => v'.res = v.res ∧
      ∃ nuovi, Segue nuovi v v' ∧ Lista rows (scritte fd nuovi)) v := by
  refine ⟨dellaMatricola_muta muta_write, fun _ v₁ h₁ => ⟨dellaMatricola_muta muta_indeterminato, fun nome v₂ h₂ =>
    ⟨dellaMatricola_muta muta_indeterminato, fun data v₃ h₃ => sala_righe.mono ?_⟩⟩⟩
  rintro - v' ⟨hres, nuovi, ls, hs, hls, hw⟩
  have hres₁ := h₁.res muta_write (by simp) (by simp) (by simp)
  have hres₂ := h₂.res muta_indeterminato (by simp) (by simp) (by simp)
  have hres₃ := h₃.res muta_indeterminato (by simp) (by simp) (by simp)
  refine ⟨hres.trans (hres₃.trans (hres₂.trans hres₁)), _,
    (h₁.segue muta_write).trans ((h₂.segue muta_indeterminato).trans ((h₃.segue muta_indeterminato).trans hs)),
    nome, data, ls, hls, ?_⟩
  rw [scritte_append, scritte_append, scritte_append, hw, scritte_write, scrittureElenco, conteggio,
    length_righeLista hls]
  rfl

/-- `Coda fd v v'` — what was waiting is sent, if it is there, and waits no more. This is what the code
    behind both branches of a list does, and what each branch does already. -/
structure Coda (fd : Int) (v v' : Sala) : Prop where
  /-- Nothing waits any more ... -/
  res : v'.res = none
  /-- ... and nothing was written, or the list of what had been waiting. -/
  segue : ∃ nuovi, Segue nuovi v v' ∧ (scritte fd nuovi = [] ∨
    ∃ rows, v.res = some rows ∧ ⟨.mysqlStoreResult, some rows⟩ ∈ nuovi ∧ Lista rows (scritte fd nuovi))

/-- `mysql_store_result`, and the sending of what it returns: one list if something waited, and nothing
    if not. -/
theorem sala_coda : (sys .mysqlStoreResult >>= fun res2 => inviaRisultato fd res2).Safe (Sala.Chiama I) DellaMatricola
    (fun _ v' => Coda fd v v') v := by
  have hmuta : Sys.SenzaQuery .mysqlStoreResult := fun q h => by cases h
  refine ⟨dellaMatricola_muta hmuta, fun res v₁ h₁ => ?_⟩
  obtain ⟨hstore, hnone⟩ := h₁.store
  cases res with
  | none => exact ⟨hnone, _, h₁.segue hmuta, Or.inl rfl⟩
  | some rows =>
    refine (sala_risultato rows).mono ?_
    rintro - v' ⟨hres, nuovi, hs, hlista⟩
    refine ⟨hres.trans hnone, _, (h₁.segue hmuta).trans hs, Or.inr ⟨rows, ?_, ?_, ?_⟩⟩
    · exact (hstore.resolve_left (Option.some_ne_none rows)).symm
    · exact List.mem_append_left _ (List.mem_singleton.mpr rfl)
    · rw [scritte_append]
      exact hlista

/-- The second time there is nothing: what the branch has taken is gone, so that the code behind it
    writes to nobody. -/
theorem Coda.trans (h : Coda fd v v') (h' : Coda fd v' v'') : Coda fd v v'' := by
  obtain ⟨nuovi, hs, hw⟩ := h.segue
  obtain ⟨nuovi', hs', hw'⟩ := h'.segue
  have hnulla : scritte fd nuovi' = [] := by
    rcases hw' with hw' | ⟨rows, hrows, -⟩
    · exact hw'
    · rw [h.res] at hrows
      cases hrows
  refine ⟨h'.res, _, hs.trans hs', ?_⟩
  rw [scritte_append, hnulla, List.append_nil]
  rcases hw with hw | ⟨rows, hrows, hmem, hlista⟩
  · exact Or.inl hw
  · exact Or.inr ⟨rows, hrows, List.mem_append_left _ hmem, hlista⟩

/-! ## A turn -/

/-- Behind the one statement of a student's turn there is no other, and what he was written is nothing
    or the list of the rows that were stored. Of a turn without a statement it says nothing. -/
def UnaLista (v : Sala) : Prop :=
  ∀ i prima q ok dopo, v.turno.1 = .servi i → v.traccia = prima ++ ⟨.mysqlQuery q, ok⟩ :: dopo →
    (∀ ev ∈ dopo, ev.1.SenzaQuery) ∧ (scritte (v.turno.2.clientSockets i).connfd v.traccia = [] ∨
      ∃ rows, ⟨.mysqlStoreResult, some rows⟩ ∈ dopo ∧
        Lista rows (scritte (v.turno.2.clientSockets i).connfd v.traccia))

theorem UnaLista.vuota (h : ∀ ev ∈ v.traccia, ev.1.SenzaQuery) : UnaLista v := by
  intro i prima q ok dopo _ heq
  have hmem : ⟨.mysqlQuery q, ok⟩ ∈ v.traccia := by
    rw [heq]
    exact List.mem_append_right _ List.mem_cons_self
  exact absurd rfl (h _ hmem q)

/-- One statement splits a trace in one way: a turn with a statement in it has one part before and one
    behind, since no other call of the turn is one. -/
theorem unica_query {prima prima' dopo dopo' : List Evento} {q q' : Query} {ok ok' : Bool}
    (hprima : ∀ ev ∈ prima, ev.1.SenzaQuery) (hdopo : ∀ ev ∈ dopo, ev.1.SenzaQuery)
    (h : prima ++ ⟨.mysqlQuery q, ok⟩ :: dopo = prima' ++ ⟨.mysqlQuery q', ok'⟩ :: dopo') : dopo' = dopo := by
  rcases List.append_eq_append_iff.mp h with ⟨as, rfl, hcoda⟩ | ⟨bs, rfl, hcoda⟩
  · cases as with
    | nil => exact (List.cons.inj hcoda).2.symm
    | cons a as =>
      have hmem : ⟨.mysqlQuery q', ok'⟩ ∈ dopo := by
        rw [(List.cons.inj hcoda).2]
        exact List.mem_append_right _ List.mem_cons_self
      exact absurd rfl (hdopo _ hmem q')
  · cases bs with
    | nil => exact (List.cons.inj hcoda).2
    | cons b bs =>
      have hmem : ⟨.mysqlQuery q', ok'⟩ ∈ prima' ++ b :: bs := by
        rw [← (List.cons.inj hcoda).1]
        exact List.mem_append_right _ List.mem_cons_self
      exact absurd rfl (hprima _ hmem q')

/-- `Prima i s v` — the turn of slot `i` in front of its statement: the student's choice was read,
    perhaps the name of an exam, and nothing was written. -/
structure Prima (i : Nat) (s : Segreteria) (v : Sala) : Prop where
  /-- The turn serves slot `i` ... -/
  turno : v.turno = (.servi i, s)
  /-- ... has made no statement ... -/
  muta : ∀ ev ∈ v.traccia, ev.1.SenzaQuery
  /-- ... and has written its student nothing. -/
  zitto : scritte (s.clientSockets i).connfd v.traccia = []

variable {i : Nat} {s : Segreteria}

theorem Prima.poi (h : Prima i s v) (ho : o.SenzaQuery) (hw : scrittura (s.clientSockets i).connfd o = [])
    (hc : v.Chiama I o r v') : Prima i s v' := by
  refine ⟨hc.turno.trans h.turno, fun ev hev => ?_, ?_⟩
  · rw [hc.traccia] at hev
    rcases List.mem_append.mp hev with hev | hev
    · exact h.muta ev hev
    · rw [List.mem_singleton.mp hev]
      exact ho
  · rw [hc.traccia, scritte_snoc, h.zitto, hw]
    rfl

/-- The statement, and behind it the list: a turn in which one statement was made and at most one list
    was sent for it. -/
theorem Prima.lista {q : Query} {ok : Bool} (h : Prima i s v) (hq : v.Chiama I (.mysqlQuery q) ok v')
    (hc : Coda (s.clientSockets i).connfd v' v'') : UnaLista v'' := by
  obtain ⟨nuovi, hs, hw⟩ := hc.segue
  have hturno : v''.turno = (.servi i, s) := hs.turno.trans (hq.turno.trans h.turno)
  have htr : v''.traccia = v.traccia ++ ⟨.mysqlQuery q, ok⟩ :: nuovi := by
    rw [hs.traccia, hq.traccia, List.append_assoc]
    rfl
  have hscritte : scritte (s.clientSockets i).connfd v''.traccia = scritte (s.clientSockets i).connfd nuovi := by
    rw [hs.traccia, scritte_append, hq.traccia, scritte_snoc, h.zitto]
    rfl
  intro j prima q' ok' dopo hj heq
  rw [hturno] at hj
  cases hj
  obtain rfl : dopo = nuovi := unica_query h.muta hs.muta (htr.symm.trans heq)
  rw [hturno, hscritte]
  refine ⟨hs.muta, ?_⟩
  rcases hw with hw | ⟨rows, -, hmem, hlista⟩
  · exact Or.inl hw
  · exact Or.inr ⟨rows, hmem, hlista⟩

/-- If no statement comes, what had been waiting is all that can be sent. -/
theorem Prima.vuota (h : Prima i s v) (hc : Coda (s.clientSockets i).connfd v v') : UnaLista v' := by
  obtain ⟨nuovi, hs, -⟩ := hc.segue
  refine .vuota fun ev hev => ?_
  rw [hs.traccia] at hev
  rcases List.mem_append.mp hev with hev | hev
  · exact h.muta ev hev
  · exact hs.muta ev hev

theorem sala_muta {α : Type} {p : Programma α} (hp : p.Only (fun _ _ => True) Sys.SenzaQuery fun _ => True)
    (hv : ∀ ev ∈ v.traccia, ev.1.SenzaQuery) :
    p.Safe (Sala.Chiama I) DellaMatricola (fun _ v' => UnaLista v') v := by
  refine (Prog.Only.safe (K := fun v : Sala => ∀ ev ∈ v.traccia, ev.1.SenzaQuery) hp
    (fun _ _ _ ho => dellaMatricola_muta ho) ?_ hv).mono fun _ _ h => .vuota h.2
  intro v o r v' hv ho hc
  refine ⟨trivial, fun ev hev => ?_⟩
  rw [hc.traccia] at hev
  rcases List.mem_append.mp hev with hev | hev
  · exact hv ev hev
  · rw [List.mem_singleton.mp hev]
    exact ho

/-- Reading a buffer up to its NUL. -/
theorem Prima.safe_cString {α : Type} {n : Nat} {b : Buffer n} {f : Bytes → Programma α} {Q : α → Sala → Prop}
    (h : Prima i s v) (hf : ∀ t v', Prima i s v' → (f t).Safe (Sala.Chiama I) DellaMatricola Q v') :
    (cString b >>= f).Safe (Sala.Chiama I) DellaMatricola Q v := by
  have holtre : Sys.SenzaQuery .oltre := fun q h => by cases h
  rw [cString]
  split
  · exact hf _ v h
  · exact ⟨dellaMatricola_muta holtre, fun r v' h' => hf _ v' (h.poi holtre rfl h')⟩

/-- The list of a student: his choice, the statement, the result, and the second look behind the branch. -/
theorem sala_visualizza (h : Prima i s v) : (visualizzaAppelli (s.clientSockets i)).Safe (Sala.Chiama I)
    DellaMatricola (fun _ v' => UnaLista v') v := by
  refine ⟨dellaMatricola_muta muta_indeterminato, fun req v₁ h₁ => ⟨dellaMatricola_muta muta_read, fun r v₂ h₂ => ?_⟩⟩
  have hprima : Prima i s v₂ := (h.poi muta_indeterminato rfl h₁).poi muta_read rfl h₂
  -- the only two statements of a list, both with the matricola of the slot
  have hchiede : ∀ {u : Sala} {q : Query}, Prima i s u →
      (q = .appelli (s.clientSockets i).matricola.toInt ∨
        ∃ exam, q = .appelliEsame (s.clientSockets i).matricola.toInt exam) → DellaMatricola u (.mysqlQuery q) := by
    rintro u q hu hq j q' hj heq
    rw [hu.turno] at hj ⊢
    cases hj
    cases heq
    exact hq
  show Prog.Safe _ _ (if (req.overlay r).toInt = 1 then _ else _) _ _
  split
  · refine ⟨hchiede hprima (Or.inl rfl), fun ok v₃ h₃ => ?_⟩
    cases ok with
    | false => exact sala_coda.mono fun _ _ hc => hprima.lista h₃ hc
    | true =>
      show Prog.Safe _ _ ((sys .mysqlStoreResult >>= fun res2 => inviaRisultato _ res2) >>= fun _ =>
        sys .mysqlStoreResult >>= fun res2 => inviaRisultato _ res2) _ _
      -- the block that sends stands twice: the first takes the result, the second finds none
      refine (Prog.safe_bind ..).mpr (sala_coda.mono fun _ v₄ hc => ?_)
      exact sala_coda.mono fun _ _ hc' => hprima.lista h₃ (hc.trans hc')
  · show Prog.Safe _ _ (if (req.overlay r).toInt = 2 then _ else _) _ _
    split
    · refine ⟨dellaMatricola_muta muta_read, fun r v₃ h₃ => ?_⟩
      refine (hprima.poi muta_read rfl h₃).safe_cString fun exam v₄ hprima₄ => ?_
      refine ⟨hchiede hprima₄ (Or.inr ⟨exam, rfl⟩), fun ok v₅ h₅ => ?_⟩
      exact sala_coda.mono fun _ _ hc => hprima₄.lista h₅ hc
    · exact sala_coda.mono fun _ _ hc => hprima.vuota hc

/-- A booking makes no statement of its own. -/
theorem sala_prenota : (s.prenota (s.clientSockets i)).Only (fun _ _ => True) Sys.SenzaQuery fun _ => True := by
  simp [prenota, Sys.SenzaQuery]

/-- **A turn.** In the other turns of the secretary there is no list, and hence nothing to show but that. -/
theorem sala_passo {q : Punto × Segreteria} (hturno : v.turno = q) (htr : v.traccia = []) :
    (Segreteria.passo q).Safe (Sala.Chiama I) DellaMatricola (fun _ v' => UnaLista v') v := by
  have hvuota : ∀ ev ∈ v.traccia, ev.1.SenzaQuery := by
    rw [htr]
    exact fun _ h => absurd h List.not_mem_nil
  obtain ⟨p, s⟩ := q
  -- a turn of the loop over the students, by what its read of the code brings
  by_cases hp : ∃ i, p = .servi i
  · obtain ⟨i, rfl⟩ := hp
    show Prog.Safe _ _ (if i < s.dim then _ else _) _ _
    split
    · refine (Prog.safe_bind ..).mpr ?_
      show Prog.Safe _ _ (if (s.clientSockets i).connfd ∈ s.readSet ∧ (s.clientSockets i).connfd ≠ -1
        then _ else _) _ _
      split
      · have hclose : Sys.SenzaQuery (.close (s.clientSockets i).connfd) := fun q h => by cases h
        refine ⟨dellaMatricola_muta muta_read, fun r v₁ h₁ => ?_⟩
        have hinizio : Prima i s v := ⟨hturno, hvuota, by rw [htr]; rfl⟩
        have hprima : Prima i s v₁ := hinizio.poi muta_read rfl h₁
        show Prog.Safe _ _ (if (s.behaviour.overlay r).toInt = 1 then _ else
          (if (s.behaviour.overlay r).toInt = 2 then _ else
          (if (s.behaviour.overlay r).toInt = 3 then _ else _))) _ _
        split
        · exact (Prog.safe_bind ..).mpr (sala_visualizza hprima)
        · split
          · exact (Prog.safe_bind ..).mpr
              (sala_muta (sala_prenota (s := { s with behaviour := s.behaviour.overlay r })) hprima.muta)
          · split
            · exact ⟨dellaMatricola_muta hclose, fun _ v₂ h₂ => UnaLista.vuota (hprima.poi hclose rfl h₂).muta⟩
            · exact UnaLista.vuota hprima.muta
      · exact UnaLista.vuota hvuota
    · exact UnaLista.vuota hvuota
  · -- a turn of another loop
    have haltro : ∀ {u : Sala} {i : Nat}, u.turno = (p, s) → u.turno.1 ≠ .servi i := by
      intro u i hu hi
      rw [hu] at hi
      exact hp ⟨i, hi⟩
    refine (Prog.safe_keep (K := fun u : Sala => u.turno = (p, s)) (fun u o hu i q hi _ => absurd hi (haltro hu))
      (fun _ _ _ _ hu hc => hc.turno.trans hu) hturno).mono ?_
    intro _ v' hv' i prima q ok dopo hi
    exact absurd hi (haltro hv')

end Sala

/-! ## Every run -/

section Corse

variable {M : Mysql} {sockfd : Int} {I : Interprete M} {giorno : Nat → Data} {clienti : Nat → Bytes}
  {s₀ : Segreteria} {t : Server} {db : BaseDati M.collazione} {d d' d₁ : StatoArchivio M}
  {C : StatoArchivio M → Mossa → Prop}

/-- What the server's moves leave alone. -/
def StatoArchivio.sala (d : StatoArchivio M) : Sala := ⟨d.trace₁, d.env.resSeg, d.turn₁⟩

/-- The server touches neither the turn nor the result that waits. -/
theorem sala_second {m : Mossa} (hm : ¬ m.first) (hs : (archivio sockfd I giorno).step d m = some d') :
    d'.sala = d.sala := by
  obtain ⟨hturno, htr, -, hres⟩ := archivio_second hm hs
  simp only [StatoArchivio.sala, hturno, htr, hres]

theorem sala_act {o : Sys} {r : o.Ans} (hs : (archivio sockfd I giorno).step d (.act₁ o r) = some d') :
    d.sala.Chiama I o r d'.sala := by
  obtain ⟨k, e, -, he, rfl⟩ := Duo.step_act₁ _ hs
  exact ⟨⟨_, _, _, (archivio_ans₁ he).2.1⟩, rfl, rfl⟩

theorem sala_run (hd : (archivio sockfd I giorno).Reach C (inizioArchivio clienti s₀ t db) d) :
    d.prog₁.Safe (Sala.Chiama I) DellaMatricola (fun _ v => UnaLista v) d.sala := by
  refine hd.local₁ StatoArchivio.sala (fun _ => True) (fun _ _ => trivial) (fun _ _ _ _ _ _ _ => sala_act)
    ?_ (fun _ _ _ => sala_second) ?_
  · intro d q d' _ _ hq hs _
    obtain ⟨q', hq', rfl⟩ := Duo.step_turn₁ _ hs
    rw [hq] at hq'
    obtain rfl := Prog.ret.inj hq'
    exact sala_passo rfl rfl
  · exact UnaLista.vuota fun _ h => absurd h List.not_mem_nil

/-- To the end of a turn without statements, what waits is what waited, and nothing else is stored. By
    induction on the moves: those of the server leave the turn alone, and those of the secretary are no
    statement. -/
theorem resta_in_attesa (hd : (archivio sockfd I giorno).Reach (fun _ m => m ≠ .turn₁) d d') :
    d'.turn₁ = d.turn₁ ∧ ∃ dopo, d'.trace₁ = d.trace₁ ++ dopo ∧ ((∀ ev ∈ dopo, ev.1.SenzaQuery) →
      (d'.env.resSeg = none ∨ d'.env.resSeg = d.env.resSeg) ∧
      ∀ rows, ⟨.mysqlStoreResult, some rows⟩ ∈ dopo → d.env.resSeg = some rows) := by
  induction hd with
  | init => exact ⟨rfl, [], (List.append_nil _).symm, fun _ => ⟨Or.inr rfl, fun _ h => absurd h List.not_mem_nil⟩⟩
  | @step d₁ d' m hd hm hs ih =>
    obtain ⟨hturno, dopo, htr, hres⟩ := ih
    -- the secretary's own calls, none of them a statement; the server's leave the result alone
    by_cases hfirst : m.first
    · cases m with
      | turn₁ => exact absurd rfl hm
      | act₁ o r =>
        have hc := sala_act hs
        refine ⟨hc.turno.trans hturno, dopo ++ [⟨o, r⟩], ?_, fun hmuta => ?_⟩
        · rw [← List.append_assoc, ← htr]
          exact hc.traccia
        · obtain ⟨hattende, hstore⟩ := hres fun ev hev => hmuta ev (List.mem_append_left _ hev)
          have ho : o.SenzaQuery := hmuta ⟨o, r⟩ (List.mem_append_right _ (List.mem_singleton.mpr rfl))
          refine ⟨?_, fun rows hrows => ?_⟩
          · rcases hc.attende ho with h | h
            · exact Or.inl h
            · rw [show d'.env.resSeg = d₁.env.resSeg from h]
              exact hattende
          · rcases List.mem_append.mp hrows with hrows | hrows
            · exact hstore rows hrows
            · -- what is stored now is what was still waiting
              cases List.mem_singleton.mp hrows
              have hora : some rows = d₁.env.resSeg := hc.store.1.resolve_left (Option.some_ne_none rows)
              rcases hattende with h | h
              · rw [h] at hora
                cases hora
              · exact (hora.trans h).symm
      | turn₂ => exact hfirst.elim
      | act₂ o r => exact hfirst.elim
    · obtain ⟨hturno', htr', -, hres'⟩ := archivio_second hfirst hs
      rw [hturno', htr', hres']
      exact ⟨hturno, dopo, htr, hres⟩

/-- The statement of a student's turn is about the matricola in his slot: what he sends decides on the
    list, and not on whose it is. -/
theorem chiede_elenco (hd : (archivio sockfd I giorno).Reach C (inizioArchivio clienti s₀ t db) d)
    {i : Nat} {s : Segreteria} (hturno : d.turn₁ = (.servi i, s)) {q : Query} {ok : Bool}
    (hs : (archivio sockfd I giorno).step d (.act₁ (.mysqlQuery q) ok) = some d₁) :
    q = .appelli (s.clientSockets i).matricola.toInt ∨
      ∃ exam, q = .appelliEsame (s.clientSockets i).matricola.toInt exam := by
  have hsafe := sala_run hd
  obtain ⟨k, e, hprog, -, -⟩ := Duo.step_act₁ _ hs
  rw [hprog] at hsafe
  have hsala : d.sala.turno = (.servi i, s) := hturno
  have hchiede := hsafe.1 i q (by rw [hsala]) rfl
  rwa [hsala] at hchiede

/-- What waits behind the statement of a list is what the engine has for its text, and the tables stay:
    a SELECT changes none of them, also when a quote has made it another one than was meant. -/
theorem attesa_elenco {mat : Int} {q : Query}
    (helenco : q = .appelli mat ∨ ∃ exam, q = .appelliEsame mat exam) {ok : Bool}
    (hs : (archivio sockfd I giorno).step d (.act₁ (.mysqlQuery q) ok) = some d₁) {rows : List Row}
    (hrows : d₁.env.resSeg = some rows) : I.esegui (giorno d.env.ora) d.env.db q.testo = some (d.env.db, rows) := by
  obtain ⟨k, e, -, he, rfl⟩ := Duo.step_act₁ _ hs
  have hlegge : q.Legge := by
    rcases helenco with rfl | ⟨exam, rfl⟩
    · trivial
    · trivial
  rcases Interprete.chiama_query (archivio_ans₁ he).2.1 with ⟨-, p, hp, -, hres⟩ | ⟨-, -, hres⟩
  · have hdb : p.1 = d.env.db := I.selezione ((selezione_testo q).mpr hlegge) hp
    rw [hp]
    exact congrArg some (Prod.ext hdb (Option.some.inj (hrows.symm.trans hres)).symm)
  · cases hrows.symm.trans hres

/-- For a text that is data these are the rows of the list. -/
theorem righeElenco_dato {mat : Int} {q : Query} (hq : q.Dato)
    (helenco : q = .appelli mat ∨ ∃ exam, q = .appelliEsame mat exam) {oggi : Data} {db : BaseDati M.collazione}
    {rows : List Row} (h : I.esegui oggi db q.testo = some (db, rows)) :
    rows = (righeElenco M db.toTabelle q).map appelloRow := by
  have hesegui : q.esegui M oggi db = some (db, (righeElenco M db.toTabelle q).map appelloRow) := by
    rcases helenco with rfl | ⟨exam, rfl⟩
    · rfl
    · rfl
  rw [I.dato hq, hesegui] at h
  exact (Prod.mk.inj (Option.some.inj h)).2.symm

/-- **A student is shown the tables as they were at one moment**, in every run: his turn makes the statement of a list
    with the matricola in his slot; and when the turn is over, whatever the server did meanwhile, he was written nothing,
    or the count and the records of the rows that the engine has for the statement's text on the database on which it was
    made.  When that text is data, these are the rows of the list: all of them, or those of the exam with the name he
    sent. -/
theorem elenco_di_un_momento (hd : (archivio sockfd I giorno).Reach Duo.Any (inizioArchivio clienti s₀ t db) d)
    {i : Nat} {s : Segreteria} (hturno : d.turn₁ = (.servi i, s)) {q : Query} {ok : Bool}
    (hs : (archivio sockfd I giorno).step d (.act₁ (.mysqlQuery q) ok) = some d₁)
    (hd' : (archivio sockfd I giorno).Reach (fun _ m => m ≠ .turn₁) d₁ d') {p : Punto × Segreteria}
    (hp : d'.prog₁ = .ret p) :
    (q = .appelli (s.clientSockets i).matricola.toInt ∨
      ∃ exam, q = .appelliEsame (s.clientSockets i).matricola.toInt exam) ∧
    (scritte (s.clientSockets i).connfd d'.trace₁ = [] ∨
      ∃ rows, I.esegui (giorno d.env.ora) d.env.db q.testo = some (d.env.db, rows) ∧
        Lista rows (scritte (s.clientSockets i).connfd d'.trace₁) ∧
        (q.Dato → rows = (righeElenco M d.env.db.toTabelle q).map appelloRow)) := by
  have helenco := chiede_elenco hd hturno hs
  refine ⟨helenco, ?_⟩
  have hc := sala_act hs
  obtain ⟨hturno', dopo, htr, hattesa⟩ := resta_in_attesa hd'
  -- the turn in which the statement was made is the turn that is over
  have hturno₁ : d'.sala.turno = (.servi i, s) := hturno'.trans (hc.turno.trans hturno)
  have htr' : d'.sala.traccia = d.trace₁ ++ ⟨.mysqlQuery q, ok⟩ :: dopo := by
    rw [show d'.sala.traccia = d₁.trace₁ ++ dopo from htr, show d₁.trace₁ = _ from hc.traccia, List.append_assoc]
    rfl
  have hreach : (archivio sockfd I giorno).Reach Duo.Any (inizioArchivio clienti s₀ t db) d' :=
    (Duo.Reach.step hd trivial hs).trans (hd'.mono fun _ _ _ => trivial)
  have hfine := sala_run hreach
  rw [hp] at hfine
  obtain ⟨hmuta, hlista⟩ := hfine i d.trace₁ q ok dopo (by rw [hturno₁]) htr'
  rw [hturno₁] at hlista
  rcases hlista with hlista | ⟨rows, hstore, hlista⟩
  · exact Or.inl hlista
  · have hesegui := attesa_elenco helenco hs ((hattesa hmuta).2 rows hstore)
    exact Or.inr ⟨rows, hesegui, hlista, fun hq => righeElenco_dato hq helenco hesegui⟩

end Corse

/-! ## One run -/

/-- The statements of a list and of a new appello of `prog1`. -/
def domandeElenco : List Query :=
  [.appelli 20230001, .idEsame (ascii "prog1"), .inserisciAppello 12410 (ascii "2024-07-01")]

theorem dato_domandeElenco : ∀ q ∈ domandeElenco, q.Dato := by
  intro q hq
  simp only [domandeElenco, List.mem_cons, List.not_mem_nil, or_false] at hq
  rcases hq with rfl | rfl | rfl
  · exact ⟨rfl, by decide, by decide⟩
  · exact ⟨by decide +kernel, show (ascii "prog1").length ≤ 254 by decide⟩
  · exact ⟨by decide +kernel, ⟨by decide, by decide⟩, of_decide_eq_true rfl⟩

/-- `MySQL` with these as well. -/
noncomputable def mysqlElenco : Interprete mysqlLuglio := mysqlPrenota.pronto domandeElenco dato_domandeElenco

/-- The student of the first year logs in and asks for the full list. -/
def inizioElenco : StatoArchivio mysqlLuglio :=
  inizioArchivio (fun _ => (Buffer.ofInt 20230001).bytes ++ ((Buffer.zero 255).overlay (ascii "password123")).bytes ++
      (Buffer.ofInt 1).bytes ++ (Buffer.ofInt 1).bytes)
    (Segreteria.iniziale 3 4 (Buffer.zero 4) 0 fun _ => ⟨0, Buffer.zero 4⟩) ⟨5, -1, Buffer.zero 4, 5⟩ universita

/-- The operator asks for a new appello of `prog1`, and is shown `esito`. -/
def operatoreAggiunge (esito : Bytes) : List Mossa := [
  .act₁ .scanf (some 2), .act₁ .pulisciInput (), .act₁ (.write 3 [1, 0, 0, 0]) (),
  .act₁ (.fgets 255) (some (ascii "prog1" ++ [10])), .act₁ (.write 3 (ascii "prog1")) (),
  .act₁ (.fgets 12) (some (ascii "2024-07-01" ++ [10])), .act₁ (.write 3 (ascii "2024-07-01")) (),
  .act₁ (.read 3 255) esito, .act₁ (.printf (ascii "\nEsito: " ++ esito ++ ascii "\n\n")) ()]

/-- The server adds it. -/
def serverAggiunge : List Mossa := [
  .turn₂, .act₂ (.select 7 [6, 5] []) (some ([6], [])), .act₂ (.read 6 4) [1, 0, 0, 0],
  .act₂ .mysqlInit true, .act₂ .mysqlRealConnect true, .act₂ (.read 6 255) (ascii "prog1"),
  .act₂ (.read 6 12) (ascii "2024-07-01"), .act₂ (.indeterminato 4) (Buffer.zero 4),
  .act₂ (.mysqlQuery (.idEsame (ascii "prog1"))) true, .act₂ .mysqlUseResult (some [[some (ascii "12410")]]),
  .act₂ (.mysqlQuery (.inserisciAppello 12410 (ascii "2024-07-01"))) true,
  .act₂ (.write 6 Mondo.appelloInserito) (), .act₂ .mysqlClose ()]

/-- The login, and two new appelli: the first outcome comes in two pieces, and the second piece is taken for the
    outcome of the second request, which the server has yet to read.  Then the list is asked for, up to its
    statement. -/
def chiedeElenco : List Mossa :=
  prenotaProg1.take 10 ++ [.turn₁, .act₁ (.select 7 [4] [3]) (some ([], [3])), .turn₁, .turn₁, .turn₁] ++
  (operatoreAggiunge (Mondo.appelloInserito.take 11)).take 7 ++
  [.turn₂, .act₂ (.select 6 [5] []) (some ([5], [])), .act₂ (.accept 5) (6 : Int)] ++ serverAggiunge ++
  (operatoreAggiunge (Mondo.appelloInserito.take 11)).drop 7 ++
  [.turn₁, .turn₁, .act₁ (.select 7 [6, 4, 3] [6, 4, 3]) (some ([], [3])), .turn₁, .turn₁, .turn₁] ++
  operatoreAggiunge (Mondo.appelloInserito.drop 11) ++
  [.turn₁, .turn₁, .act₁ (.select 7 [6, 4, 3] [6, 4, 3]) (some ([6], [])), .turn₁, .act₁ (.read 6 4) (Buffer.ofInt 1).bytes,
    .act₁ (.indeterminato 4) (Buffer.zero 4), .act₁ (.read 6 4) (Buffer.ofInt 1).bytes]

/-- The appelli when the statement is made. -/
def appelliPrima : List Appello :=
  tabelle.appello ++ ((mysqlLuglio.strToDate (ascii "2024-07-01")).map fun data => ⟨data, 12410⟩).toList

/-- The rows of the statement, and what is made of them in memory that is zero. -/
def righeProg1 : List Row :=
  (righeElenco mysqlLuglio { tabelle with appello := appelliPrima } (.appelli 20230001)).map appelloRow

/-- The records they become. -/
def recordProg1 : List RigaLista := (righeLista (Buffer.zero 255) (Buffer.zero 12) righeProg1).getD []

/-- They are stored and sent, and the server adds the second appello in front of the first record. -/
def mandaElenco : List Mossa :=
  [.act₁ .mysqlStoreResult (some righeProg1), .act₁ (.write 6 (conteggio recordProg1.length)) ()] ++ serverAggiunge ++
  [.act₁ (.indeterminato 255) (Buffer.zero 255), .act₁ (.indeterminato 12) (Buffer.zero 12)] ++
  (recordProg1.flatMap RigaLista.scritture).map (fun bs => .act₁ (.write 6 bs) ()) ++ [.act₁ .mysqlStoreResult none]

/-- No turn of the secretary begins, as a test. -/
def senzaTurno (d : StatoArchivio mysqlLuglio) : Mossa → Bool
  | .turn₁ => false
  | _ => true

theorem senzaTurno_ok (d : StatoArchivio mysqlLuglio) (m : Mossa) (h : senzaTurno d m = true) : m ≠ .turn₁ := by
  rintro rfl
  cases h

/-- He is sent the seven appelli of `prog1` that there were, while an eighth is added. -/
theorem elenco_di_un_momento_prog1 : ∃ d d' : StatoArchivio mysqlLuglio,
    (archivio 3 mysqlElenco fun _ => 20240301).Reach Duo.Any inizioElenco d' ∧
    d.env.db.appello = tabelle.appello ++ [⟨20240701, 12410⟩] ∧
    d'.env.db.appello = tabelle.appello ++ [⟨20240701, 12410⟩, ⟨20240701, 12410⟩] ∧
    (scritte 6 d'.trace₁).length = 22 ∧
    Lista ((righeElenco mysqlLuglio d.env.db.toTabelle (.appelli 20230001)).map appelloRow) (scritte 6 d'.trace₁) := by
  -- three pieces of a run: up to the statement, the statement, and the rest with an insert of the server's in it
  have hrun : (((archivio 3 mysqlElenco fun _ => 20240301).run (fun _ _ => true) inizioElenco chiedeElenco).bind fun d =>
      ((archivio 3 mysqlElenco fun _ => 20240301).step d (.act₁ (.mysqlQuery (.appelli 20230001)) true)).bind fun d₁ =>
        ((archivio 3 mysqlElenco fun _ => 20240301).run senzaTurno d₁ mandaElenco).map fun d' =>
          (decide (d.turn₁.1 = .servi 0 ∧ (d.turn₁.2.clientSockets 0).connfd = 6 ∧
            d.env.db.appello = tabelle.appello ++ [⟨20240701, 12410⟩] ∧
            d'.env.db.appello = tabelle.appello ++ [⟨20240701, 12410⟩, ⟨20240701, 12410⟩] ∧
            (scritte 6 d'.trace₁).length = 22), (resa d').isSome)) = some (true, true) := by
    decide +kernel
  obtain ⟨d, hd, hrun⟩ := Option.bind_eq_some_iff.mp hrun
  obtain ⟨d₁, hs, hrun⟩ := Option.bind_eq_some_iff.mp hrun
  obtain ⟨d', hd', heq⟩ := Option.map_eq_some_iff.mp hrun
  obtain ⟨hfine, hresa⟩ := Prod.mk.inj heq
  obtain ⟨hturno, hfd, hprima, hdopo, hlen⟩ := of_decide_eq_true hfine
  obtain ⟨p, hp⟩ := Option.isSome_iff_exists.mp hresa
  have hq : (Query.appelli 20230001).Dato := ⟨rfl, by decide, by decide⟩
  have hreach := Duo.reach_run (C := Duo.Any) (fun _ _ _ => trivial) _ .init hd
  have hreach' := Duo.reach_run senzaTurno_ok _ .init hd'
  have h := (elenco_di_un_momento hreach (show d.turn₁ = (.servi 0, d.turn₁.2) by rw [← hturno]) hs hreach'
    (ret_of_resa hp)).2
  rw [hfd] at h
  -- 22 writes were made, so the list was sent
  rcases h with hnil | ⟨rows, -, hlista, hrows⟩
  · rw [hnil] at hlen
    cases hlen
  · rw [hrows hq] at hlista
    exact ⟨d, d', (Duo.Reach.step hreach trivial hs).trans (hreach'.mono fun _ _ _ => trivial), hprima, hdopo, hlen,
      hlista⟩

end Universita

/-
  WHAT THE SECRETARY ANSWERS — the secretary's loop against the grammar of the conversation.

  The secretary knows what it read from the student and what it wrote back, and nothing of what lies in the two
  streams.  It is verified on its own side of the connection, as long as what it reads is in the grammar of the
  conversation: behind each thing it reads it owes certain replies, and is to make certain statements or
  forwards, neither more nor fewer nor in another order.

  One conversation is followed, the `numero`-th that was accepted.  All the rest, the logins of other students, their
  requests and the operator's, goes on in between and leaves this conversation alone (`Sospesa`); a
  turn for somebody else is not opened, its routines only ever talk on descriptors that are not ours.

  The crux is `Paga`, the condition at each call: nothing is owed and nothing is left to do, or the call is part of the
  request that is being served, and then it is no read from the student.  The secretary reads nothing more before
  it has paid for what it read, which is why neither side can wait for the other.

  Contents:
  1. `Ascolta` — one answer to the secretary.
  2. `Svolto` — the phase of what it read, what it still owes, what it has still to do.
  3. `Paga` — what holds at each call; `Riposo` — what holds between two turns.
  4. `Altrui` — calls for somebody else, and the programs made of them.
  5. `Serve` — the rules for the calls of a request, one for each kind of call, and the functions of the code by them.
  6. **`Segreteria.safe_turno`** — a turn of the secretary, by the point of its loops.
-/
import Universita.Colloquio
import Universita.Giro

set_option linter.unusedVariables false

namespace Universita

open Lib

/-- The secretary's current turn, and its side of the connection: what was read, written and done for
    the one student. -/
abbrev VistaSeg := List (Event Sys Sys.Ans) × LatoSportello

/-- One answer to the secretary: what it has read is in the grammar, a list has less than `2 ^ 31` rows. -/
structure Ascolta (sockfd : Int) (numero : Nat) (v : VistaSeg) (o : Sys) (r : o.Ans) (v' : VistaSeg) : Prop where
  /-- The answer is one its side of the connection can get ... -/
  chiama : v.2.chiama sockfd numero o r = some v'.2
  /-- ... it is recorded ... -/
  traccia : v'.1 = v.1 ++ [⟨o, r⟩]
  /-- ... what was read up to now is in the grammar ... -/
  fase : v'.2.fase.isSome
  /-- ... and the count of a result fits an int. -/
  righe : ∀ rows : List Row, (⟨o, r⟩ : Event Sys Sys.Ans) = ⟨.mysqlStoreResult, some rows⟩ →
    rows.length < 2 ^ 31

/-- `Svolto f ds as l` — what was read leads to phase `f` of the grammar; the student is still owed
    `ds`, and `as` is still to be done. All three are computed from the reads alone; the writes and
    actions are measured against them. -/
structure Svolto (f : Fase) (ds : List Atteso) (as : List Azione) (l : LatoSportello) : Prop where
  /-- Where in the grammar the student is. -/
  fase : l.fase = some f
  /-- The replies due, less those already written. -/
  debiti : resto (dovute l.letti) l.scritti = some ds
  /-- What was done and what is left are all that was asked. -/
  azioni : l.azioni ++ as = attese l.letti

/-- The student was read from in this turn. -/
def Letta (v : VistaSeg) : Prop := ∃ fd n r, v.2.nostro = some fd ∧ ⟨.read fd n, r⟩ ∈ v.1

/-- At each call nothing is owed and nothing is left to do, or the call is part of a request, but no
    read from the student. Hence whoever waits for the secretary waits for something it is doing. -/
def Paga (v : VistaSeg) (o : Sys) : Prop :=
  ∃ f ds as, Svolto f ds as v.2 ∧
    ((ds = [] ∧ as = []) ∨ (Letta v ∧ ∀ fd n, o = .read fd n → v.2.nostro ≠ some fd))

/-- Between two turns nothing is owed; an open connection is past its login. Both are needed at the
    start of the next turn, which may be anybody's. -/
structure Riposo (sockfd : Int) (numero : Nat) (l : LatoSportello) : Prop where
  /-- Nothing owed, nothing left to do; a student who is in the table is in front of a code, and one who
      is not accepted yet in front of its matricola. -/
  svolto : ∃ f, Svolto f [] [] l ∧ (∀ fd, l.nostro = some fd → f = .codice) ∧
    (l.accettate ≤ numero → f = .matricola)
  /-- Its descriptor is not the server's, and it was accepted. -/
  aperta : ∀ fd, l.nostro = some fd → fd ≠ sockfd ∧ numero < l.accettate

/-! ## Somebody else's calls -/

/-- The call concerns another connection, or none. `accept` is excluded, since it may be ours. -/
def Sys.Altrui (nostro : Option Int) : Sys → Prop
  | .read fd _ | .write fd _ | .close fd => nostro ≠ some fd
  | .accept _ => False
  | _ => True

section Altrui

variable {sockfd : Int} {numero : Nat} {l l' : LatoSportello} {v v' : VistaSeg} {f : Fase} {α β : Type}

/-- The conversation stands where it stood at `l`, and somebody else is served. Only the result set and
    the mark of the last reader may have changed. -/
def Sospesa (l : LatoSportello) (v : VistaSeg) : Prop :=
  ∃ pendente, v.2 = { l with pendente, corrente := false }

/-- Such a call changes nothing of the conversation but whether a result waits: there is one connection
    to MySQL for all students. -/
theorem chiama_altrui {o : Sys} {r : o.Ans} (ho : o.Altrui l.nostro) (hc : l.corrente = false)
    (h : l.chiama sockfd numero o r = some l') :
    ∃ pendente, l' = { l with pendente, corrente := false } := by
  have fermo : some l = some l' → ∃ pendente, l' = { l with pendente, corrente := false } := fun heq =>
    ⟨l.pendente, by rw [← Option.some.inj heq, ← hc]⟩
  -- one case a call: what is on other descriptors only touches the pending result
  cases o with
  | accept fd => exact absurd ho id
  | read fd n =>
    simp only [LatoSportello.chiama, if_neg (show l.nostro ≠ some fd from ho)] at h
    split at h
    · exact ⟨l.pendente, by rw [← Option.some.inj h, hc, Bool.false_and]⟩
    · cases h
  | write fd bs =>
    simp only [LatoSportello.chiama, if_neg (show l.nostro ≠ some fd from ho), hc, Bool.false_eq_true,
      and_false, if_false] at h
    exact fermo h
  | close fd =>
    simp only [LatoSportello.chiama, if_neg (show l.nostro ≠ some fd from ho)] at h
    exact fermo h
  | select n rs ws =>
    simp only [LatoSportello.chiama] at h
    split at h
    · exact fermo h
    · cases h
  | mysqlQuery q =>
    simp only [LatoSportello.chiama, hc, Bool.false_eq_true, if_false, List.append_nil] at h
    split at h
    · exact ⟨true, (Option.some.inj h).symm⟩
    · cases h
  | mysqlStoreResult =>
    simp only [LatoSportello.chiama] at h
    split at h
    · exact ⟨false, by rw [← Option.some.inj h, hc]⟩
    · cases h
  | scanf => exact ⟨l.pendente, (Option.some.inj h).symm⟩
  | _ => exact fermo h

/-- One more call for somebody else. -/
theorem Sospesa.dopo {o : Sys} {r : o.Ans} (h : Sospesa l v) (ho : o.Altrui l.nostro)
    (hv : Ascolta sockfd numero v o r v') : Sospesa l v' := by
  obtain ⟨p, hp⟩ := h
  have hc := hv.chiama
  rw [hp] at hc
  obtain ⟨p', hp'⟩ := chiama_altrui (by exact ho) rfl hc
  exact ⟨p', hp'⟩

/-- The first read from somebody else. -/
theorem Sospesa.legge {fd : Int} {n : Nat} {r : Bytes} (hn : v.2.nostro ≠ some fd) (hs : fd ≠ sockfd)
    (hv : Ascolta sockfd numero v (.read fd n) r v') : Sospesa v.2 v' := by
  have hc := hv.chiama
  simp only [LatoSportello.chiama, if_neg hn] at hc
  split at hc
  · refine ⟨v.2.pendente, ?_⟩
    rw [← Option.some.inj hc, decide_eq_false hs, Bool.and_false]
  · cases hc

theorem Svolto.sospesa {ds : List Atteso} {as : List Azione} (h : Svolto f ds as l) (hv : Sospesa l v) :
    Svolto f ds as v.2 := by
  obtain ⟨p, hp⟩ := hv
  rw [hp]
  exact ⟨h.fase, h.debiti, h.azioni⟩

theorem Riposo.sospesa (h : Riposo sockfd numero l) (hv : Sospesa l v) : Riposo sockfd numero v.2 := by
  obtain ⟨f, hf, h1, h2⟩ := h.svolto
  refine ⟨⟨f, hf.sospesa hv, ?_, ?_⟩, ?_⟩
  all_goals obtain ⟨p, hp⟩ := hv; rw [hp]
  · exact h1
  · exact h2
  · exact h.aperta

theorem Riposo.paga (h : Riposo sockfd numero v.2) (o : Sys) : Paga v o := by
  obtain ⟨f, hf, -⟩ := h.svolto
  exact ⟨f, [], [], hf, Or.inl ⟨rfl, rfl⟩⟩

/-- All calls of `p` are for somebody else. -/
abbrev DiAltri {α : Type} (nostro : Option Int) (p : Programma α) : Prop :=
  p.Only (fun _ _ => True) (Sys.Altrui nostro) fun _ => True

/-- A program that talks on other descriptors only. -/
theorem Locale.diAltri {nostro : Option Int} {fds : List Int} {p : Programma α} (h : Locale fds p)
    (hn : ∀ fd ∈ fds, nostro ≠ some fd) : DiAltri nostro p :=
  h.weaken (fun _ _ _ => trivial) fun o ho => by
    cases o with
    | read fd n => exact hn fd ho
    | write fd bs => exact hn fd ho
    | accept fd => exact ho
    | close fd => exact absurd ho id
    | _ => trivial

/-- **Somebody else's request** leaves the conversation where it was, however many calls it takes and
    whatever they are answered. -/
theorem DiAltri.safe {p : Programma α} (h : DiAltri l.nostro p) (hl : Riposo sockfd numero l)
    (hv : Sospesa l v) :
    p.Safe (Ascolta sockfd numero) Paga (fun _ v' => Riposo sockfd numero v'.2) v :=
  (Prog.Only.safe (K := Sospesa l) h (fun _ _ hv _ => (hl.sospesa hv).paga _)
    (fun _ _ _ _ hv ho hr => ⟨trivial, hv.dopo ho hr⟩) hv).mono fun _ _ hv => hl.sospesa hv.2

end Altrui

/-! ## The student's calls -/

/-- `Serve numero fd p f ds as v` — in the middle of a request of the student at `fd`: it was read from
    in this turn, is in phase `f`, is owed `ds`, and `as` is still to be done; `p` says that a result
    set waits to be fetched. -/
structure Serve (numero : Nat) (fd : Int) (p : Bool) (f : Fase) (ds : List Atteso) (as : List Azione)
    (v : VistaSeg) : Prop where
  /-- The account of the conversation. -/
  svolto : Svolto f ds as v.2
  /-- The student is still in the table ... -/
  nostro : v.2.nostro = some fd
  /-- ... the turn is its own ... -/
  corrente : v.2.corrente = true
  /-- ... something was read from it in this turn ... -/
  letta : ∃ n r, ⟨.read fd n, r⟩ ∈ v.1
  /-- ... a result waits, or does not ... -/
  pendente : v.2.pendente = p
  /-- ... and it was accepted. -/
  numero : numero < v.2.accettate

section Serve

variable {sockfd : Int} {numero : Nat} {fd : Int} {p : Bool} {f f' : Fase} {ds : List Atteso} {as : List Azione}
  {v v' : VistaSeg} {α β : Type} {Q : α → VistaSeg → Prop}

/-- What the student sent is taken: the phase moves on, and what the grammar says about it is now owed
    and to be done. -/
theorem Svolto.legge {n : Nat} {r : Bytes} (h : Svolto f [] [] v.2) (hn : v.2.nostro = some fd)
    (hnum : numero < v.2.accettate) (hv : Ascolta sockfd numero v (.read fd n) r v') :
    ∃ f', f.passo r = some f' ∧ Serve numero fd v.2.pendente f' (f.dovute r) (f.azioni r) v' := by
  have hc := hv.chiama
  simp only [LatoSportello.chiama, if_pos hn, Option.some.injEq] at hc
  have hfase := hv.fase
  rw [← hc] at hfase
  obtain ⟨f', hf'⟩ := Option.isSome_iff_exists.mp hfase
  have hpasso : f.passo r = some f' := (Mealy.run_concat h.fase r).symm.trans hf'
  refine ⟨f', hpasso, ?_⟩
  have hletta : ∃ n r, ⟨.read fd n, r⟩ ∈ v'.1 := ⟨n, r, by rw [hv.traccia]; simp⟩
  refine ⟨?_, by rw [← hc]; exact hn, by rw [← hc], hletta, by rw [← hc], by rw [← hc]; exact hnum⟩
  rw [← hc]
  refine ⟨hf', ?_, ?_⟩
  · show resto (dovute (v.2.letti ++ [r])) v.2.scritti = _
    rw [dovute, Mealy.outs_concat h.fase]
    exact resto_append _ _ h.debiti
  · show v.2.azioni ++ _ = attese (v.2.letti ++ [r])
    rw [attese, Mealy.outs_concat h.fase]
    exact congrArg (· ++ f.azioni r) ((List.append_nil _).symm.trans h.azioni)

/-- A call that does not read from the student. -/
theorem Serve.paga_altra {o : Sys} (h : Serve numero fd p f ds as v) (ho : ∀ n, o ≠ .read fd n) :
    Paga v o := by
  obtain ⟨n, r, hmem⟩ := h.letta
  refine ⟨f, ds, as, h.svolto, Or.inr ⟨⟨fd, n, r, h.nostro, hmem⟩, ?_⟩⟩
  rintro fd' n' rfl hfd
  obtain rfl : fd = fd' := Option.some.inj (h.nostro.symm.trans hfd)
  exact ho n' rfl

/-- In the middle of a request any call but a read is allowed. -/
theorem Serve.paga {o : Sys} (h : Serve numero fd p f ds as v) (ho : ¬ o.Legge) : Paga v o :=
  h.paga_altra fun n heq => ho (heq ▸ trivial)

theorem Serve.paga_tutto {o : Sys} (h : Serve numero fd p f [] [] v) : Paga v o :=
  ⟨f, [], [], h.svolto, Or.inl ⟨rfl, rfl⟩⟩

/-- What was read in this turn was read in it after one more call too. -/
theorem Serve.letta_dopo {o : Sys} {r : o.Ans} (h : Serve numero fd p f ds as v)
    (hv : Ascolta sockfd numero v o r v') : ∃ n r, ⟨.read fd n, r⟩ ∈ v'.1 := by
  obtain ⟨n, r', hmem⟩ := h.letta
  refine ⟨n, r', ?_⟩
  rw [hv.traccia]
  exact List.mem_append_left _ hmem

/-- A change that only the result set feels. -/
theorem Serve.resta {p' : Bool} {o : Sys} {r : o.Ans} (h : Serve numero fd p f ds as v)
    (hv : Ascolta sockfd numero v o r v') (hc : v'.2 = { v.2 with pendente := p' }) :
    Serve numero fd p' f ds as v' := by
  refine ⟨?_, by rw [hc]; exact h.nostro, by rw [hc]; exact h.corrente, h.letta_dopo hv, by rw [hc],
    by rw [hc]; exact h.numero⟩
  rw [hc]
  exact ⟨h.svolto.fase, h.svolto.debiti, h.svolto.azioni⟩

/-- A call of no concern to the conversation. -/
theorem Serve.muta {o : Sys} {r : o.Ans} (h : Serve numero fd p f ds as v)
    (ho : v.2.chiama sockfd numero o r = some v.2)
    (hv : Ascolta sockfd numero v o r v') : Serve numero fd p f ds as v' := by
  refine h.resta hv ?_
  rw [← Option.some.inj (ho.symm.trans hv.chiama), ← h.pendente]

theorem Serve.scrive {a : Atteso} {bs : Bytes} {u : Unit} (h : Serve numero fd p f (a :: ds) as v)
    (ha : a.Misura bs)
    (hne : bs ≠ []) (hv : Ascolta sockfd numero v (.write fd bs) u v') :
    Serve numero fd p f (a.apre bs ++ ds) as v' := by
  have hc := hv.chiama
  simp only [LatoSportello.chiama, if_pos h.nostro, Option.some.injEq, pezzo_of_ne hne] at hc
  refine ⟨?_, by rw [← hc]; exact h.nostro, by rw [← hc]; exact h.corrente, h.letta_dopo hv,
    by rw [← hc]; exact h.pendente, by rw [← hc]; exact h.numero⟩
  rw [← hc]
  refine ⟨h.svolto.fase, ?_, h.svolto.azioni⟩
  show resto (dovute v.2.letti) (v.2.scritti ++ [bs]) = _
  rw [resto, Mealy.run_concat h.svolto.debiti]
  exact avanza_cons.mpr ⟨ha, rfl⟩

/-- One of the things to do is done: the next one of the list, since they are asked for in the order in
    which the code does them. -/
theorem Serve.compie {p' : Bool} {o : Sys} {r : o.Ans} {a : Azione}
    (h : Serve numero fd p f ds (a :: as) v)
    (hv : Ascolta sockfd numero v o r v')
    (hc : v'.2 = { v.2 with pendente := p', corrente := true, azioni := v.2.azioni ++ [a] }) :
    Serve numero fd p' f ds as v' := by
  refine ⟨?_, by rw [hc]; exact h.nostro, by rw [hc], h.letta_dopo hv, by rw [hc],
    by rw [hc]; exact h.numero⟩
  rw [hc]
  refine ⟨h.svolto.fase, h.svolto.debiti, ?_⟩
  show v.2.azioni ++ [a] ++ as = _
  rw [List.append_assoc]
  exact h.svolto.azioni

theorem Serve.interroga {q : Query} {ok : Bool} {a : Azione} (h : Serve numero fd p f ds (a :: as) v)
    (hq : azione q = [a]) (hv : Ascolta sockfd numero v (.mysqlQuery q) ok v') :
    ok = true ∧ Serve numero fd true f ds as v' := by
  have hc := hv.chiama
  simp only [LatoSportello.chiama, h.corrente, if_true, hq] at hc
  split at hc
  · rename_i hok
    exact ⟨hok, h.compie hv (Option.some.inj hc).symm⟩
  · cases hc

theorem Serve.inoltra {bs : Bytes} {u : Unit} (h : Serve numero fd p f ds (.inoltro bs :: as) v)
    (hfd : fd ≠ sockfd)
    (hv : Ascolta sockfd numero v (.write sockfd bs) u v') : Serve numero fd p f ds as v' := by
  have hc := hv.chiama
  have hn : v.2.nostro ≠ some sockfd := fun hn => hfd (Option.some.inj (h.nostro.symm.trans hn))
  simp only [LatoSportello.chiama, if_neg hn, h.corrente, and_self, if_true, Option.some.injEq] at hc
  exact h.compie hv (by rw [← hc, ← h.pendente])

/-- The result set is fetched, when there is one. -/
theorem Serve.prende {res : Option (List Row)} (h : Serve numero fd p f ds as v)
    (hv : Ascolta sockfd numero v .mysqlStoreResult res v') :
    res.isSome = p ∧ (∀ rows, res = some rows → rows.length < 2 ^ 31) ∧
      Serve numero fd false f ds as v' := by
  have hc := hv.chiama
  simp only [LatoSportello.chiama, h.pendente] at hc
  split at hc
  · rename_i hres
    exact ⟨hres, fun rows hrows => hv.righe rows (by rw [hrows]), h.resta hv (Option.some.inj hc).symm⟩
  · cases hc

/-! ## The functions of a request -/

theorem Serve.safe_muta {o : Sys} {k : o.Ans → Programma α} (h : Serve numero fd p f ds as v)
    (ho : ¬ o.Legge) (hm : ∀ r l', v.2.chiama sockfd numero o r = some l' → l' = v.2)
    (hk : ∀ r v', Serve numero fd p f ds as v' → (k r).Safe (Ascolta sockfd numero) Paga Q v') :
    (Prog.call o k).Safe (Ascolta sockfd numero) Paga Q v :=
  ⟨h.paga ho, fun r v' hv => hk r v' (h.muta (hm r _ hv.chiama ▸ hv.chiama) hv)⟩

/-- A string in a buffer that has its NUL. -/
theorem Serve.safe_cString {n : Nat} {b : Buffer n} {k : Bytes → Programma α}
    (h : Serve numero fd p f ds as v)
    (h0 : 0 ∈ b.bytes) (hk : (k (cstr b.bytes)).Safe (Ascolta sockfd numero) Paga Q v) :
    (cString b >>= k).Safe (Ascolta sockfd numero) Paga Q v := by
  rw [cString, if_pos h0]
  exact hk

/-- Behind a call for which C defines nothing there is nothing to show. -/
theorem Serve.safe_indefinito (h : Serve numero fd p f ds as v) :
    (indefinito : Programma α).Safe (Ascolta sockfd numero) Paga Q v :=
  ⟨h.paga id, fun r => Empty.elim r⟩

/-- The rows of a list: three writes each, which are what is owed for it. By induction on the rows, for
    any contents of the two buffers. -/
theorem Serve.safe_inviaRighe (rows : List Row) : ∀ {nome : Buffer 255} {data : Buffer 12} {v : VistaSeg},
    Serve numero fd p f (campi rows.length) as v →
    (Segreteria.inviaRighe fd nome data rows).Safe (Ascolta sockfd numero) Paga
      (fun _ v' => Serve numero fd p f [] as v') v := by
  induction rows with
  | nil => exact fun h => h
  | cons row rows ih =>
    intro nome data v h
    rcases row with _ | ⟨_ | i, _ | ⟨_ | n, _ | ⟨_ | d, _ | _⟩⟩⟩
    case cons.some.cons.some.cons.some.nil =>
      rw [Segreteria.inviaRighe]
      simp only [sscanfRiga_eq, sscanfParola_eq]
      cases scansione (primaRiga n) nome with
      | none => exact ⟨h.paga id, fun r => Empty.elim r⟩
      | some nome' =>
        cases scansione (primaParola d) data with
        | none => exact ⟨h.paga id, fun r => Empty.elim r⟩
        | some data' =>
          -- each of the three writes is a buffer, so it is not empty
          have hne : ∀ {m : Nat} (b : Buffer (m + 1)), b.bytes ≠ [] :=
            fun b => List.ne_nil_of_length_eq_add_one b.size_eq
          refine ⟨h.paga id, fun _ v₁ h₁ => ?_⟩
          have hs₁ := h.scrive (Buffer.ofInt (strtol i)).size_eq (hne _) h₁
          refine ⟨hs₁.paga id, fun _ v₂ h₂ => ?_⟩
          have hs₂ := hs₁.scrive nome'.size_eq (hne _) h₂
          refine ⟨hs₂.paga id, fun _ v₃ h₃ => ?_⟩
          exact ih (hs₂.scrive data'.size_eq (hne _) h₃)
    all_goals exact h.safe_indefinito

/-- A list: the count, then the rows. The count is one number that is owed, and each row three fields of
    the records that it announces. -/
theorem Serve.safe_inviaRisultato {rows : List Row} (hrows : rows.length < 2 ^ 31)
    (h : Serve numero fd p f [.conta] as v) :
    (Segreteria.inviaRisultato fd (some rows)).Safe (Ascolta sockfd numero) Paga
      (fun _ v' => Serve numero fd p f [] as v') v := by
  have hn : (intero (Buffer.ofInt (rows.length % 2 ^ 32 : Nat)).bytes).toNat = rows.length := by
    rw [intero_bytes, Nat.mod_eq_of_lt (by omega), Buffer.toInt_ofInt (by omega) (by omega),
      Int.toNat_natCast]
  refine ⟨h.paga id, fun _ v₁ h₁ => ?_⟩
  have hs₁ := h.scrive (Buffer.ofInt (rows.length % 2 ^ 32 : Nat)).size_eq
    (List.ne_nil_of_length_eq_add_one (Buffer.ofInt _).size_eq) h₁
  have hcampi : Atteso.conta.apre (Buffer.ofInt (rows.length % 2 ^ 32 : Nat)).bytes ++ [] = campi rows.length := by
    rw [List.append_nil, Atteso.apre, hn]
  rw [hcampi] at hs₁
  refine hs₁.safe_muta id (fun _ _ hc => (Option.some.inj hc).symm) fun nome v₂ hs₂ => ?_
  refine hs₂.safe_muta id (fun _ _ hc => (Option.some.inj hc).symm) fun data v₃ hs₃ => ?_
  exact Serve.safe_inviaRighe rows hs₃

theorem Serve.riposo (h : Serve numero fd p .codice [] [] v) (hfd : fd ≠ sockfd) :
    Riposo sockfd numero v.2 := by
  refine ⟨⟨.codice, h.svolto, fun _ _ => rfl, fun hnum => ?_⟩, fun fd' hn => ?_⟩
  · have := h.numero
    omega
  · obtain rfl : fd = fd' := Option.some.inj (h.nostro.symm.trans hn)
    exact ⟨hfd, h.numero⟩

/-- The choice of a list: one of two numbers ... -/
theorem Fase.passo_scelta {r : Bytes} (h : Fase.scelta.passo r = some f') :
    r.length = 4 ∧ ((intero r = 1 ∧ f' = .codice) ∨ (intero r = 2 ∧ f' = .esame)) := by
  simp only [passo] at h
  split at h
  · rename_i hr
    refine ⟨hr, ?_⟩
    split at h
    · rename_i h1
      exact Or.inl ⟨h1, (Option.some.inj h).symm⟩
    · split at h
      · rename_i h2
        exact Or.inr ⟨h2, (Option.some.inj h).symm⟩
      · cases h
  · cases h

/-- ... the name of an exam, a text that fits its buffer. -/
theorem Fase.passo_esame {r : Bytes} (h : Fase.esame.passo r = some f') :
    f' = .codice ∧ r.length < 255 ∧ 0 ∉ r := by
  simp only [passo] at h
  split at h
  · rename_i hr
    exact ⟨(Option.some.inj h).symm, hr.2⟩
  · cases h

theorem Fase.passo_intero {r : Bytes} {g : Fase} (hf : f.passo r = if r.length = 4 then some g else none)
    (h : f.passo r = some f') : r.length = 4 ∧ f' = g := by
  rw [hf] at h
  split at h
  · rename_i hr
    exact ⟨hr, (Option.some.inj h).symm⟩
  · cases h

/-- The end of a list: the result set is fetched and sent. -/
theorem Serve.safe_coda {rest : Unit → Programma α} (h : Serve numero fd true f [.conta] [] v)
    (hk : ∀ v', Serve numero fd false f [] [] v' → (rest ()).Safe (Ascolta sockfd numero) Paga Q v') :
    (Prog.call .mysqlStoreResult fun res => Segreteria.inviaRisultato fd res >>= rest).Safe
      (Ascolta sockfd numero) Paga Q v := by
  refine ⟨h.paga id, fun res v₁ h₁ => ?_⟩
  obtain ⟨hres, hrows, hs⟩ := h.prende h₁
  obtain ⟨rows, rfl⟩ := Option.isSome_iff_exists.mp hres
  rw [Prog.safe_bind]
  exact (hs.safe_inviaRisultato (hrows rows rfl)).mono fun _ v' hv' => hk v' hv'

/-- **A list**, for the student: the choice is read, for one exam the name too; then the statement, the
    count and the records. The choice is 1 or 2, since what is read is in the grammar. -/
theorem Serve.safe_visualizzaAppelli {c : ClientStud} (hc : c.connfd = fd)
    (h : Serve numero fd p .scelta [] [] v) :
    (Segreteria.visualizzaAppelli c).Safe (Ascolta sockfd numero) Paga
      (fun _ v' => Serve numero fd false .codice [] [] v') v := by
  subst hc
  rw [Segreteria.visualizzaAppelli]
  simp only [Prog.op_eq, Prog.call_bind, Prog.ret_bind]
  refine h.safe_muta id (fun _ _ hc => (Option.some.inj hc).symm) fun req v₁ hs => ?_
  refine ⟨hs.paga_tutto, fun r v₂ h₂ => ?_⟩
  obtain ⟨f', hf', hs₂⟩ := hs.svolto.legge hs.nostro hs.numero h₂
  obtain ⟨hr, ⟨h1, rfl⟩ | ⟨h2, rfl⟩⟩ := Fase.passo_scelta hf'
  · rw [Fase.dovute, if_pos h1, Fase.azioni, if_pos h1] at hs₂
    have hreq : (Buffer.overlay req r).toInt = 1 := (overlay_toInt req hr).trans h1
    simp only [hreq, if_true]
    refine ⟨hs₂.paga id, fun ok v₃ h₃ => ?_⟩
    obtain ⟨rfl, hs₃⟩ := hs₂.interroga rfl h₃
    -- the full list asks for a second result set, and there is none
    refine hs₃.safe_coda fun v₄ hs₄ => ⟨hs₄.paga id, fun res v₅ h₅ => ?_⟩
    obtain ⟨hres, -, hs₅⟩ := hs₄.prende h₅
    cases res with
    | none => exact hs₅
    | some rows => cases hres
  · rw [Fase.dovute, if_neg (by omega), Fase.azioni, if_neg (by omega)] at hs₂
    have hreq : (Buffer.overlay req r).toInt = 2 := (overlay_toInt req hr).trans h2
    simp only [hreq, show ¬ (2 : Int) = 1 by decide, if_false, if_true]
    refine ⟨hs₂.paga_tutto, fun r' v₃ h₃ => ?_⟩
    obtain ⟨f'', hf'', hs₃⟩ := hs₂.svolto.legge hs₂.nostro hs₂.numero h₃
    obtain ⟨rfl, hlen, h0⟩ := Fase.passo_esame hf''
    -- the name arrives without its NUL: the zeroed buffer supplies it
    have hexam : cstr ((Buffer.zero 255).overlay r').bytes = r' :=
      cstr_zero_overlay h0 (Nat.le_of_lt hlen)
    have hnul : 0 ∈ ((Buffer.zero 255).overlay r').bytes := by
      by_contra hno
      have heq := cstr_of_notMem hno
      rw [hexam] at heq
      have hsize := ((Buffer.zero 255).overlay r').size_eq
      rw [← heq] at hsize
      omega
    refine hs₃.safe_cString hnul ⟨hs₃.paga id, fun ok v₄ h₄ => ?_⟩
    rw [hexam] at h₄
    obtain ⟨-, hs₄⟩ := hs₃.interroga rfl h₄
    have hcoda : (Prog.call .mysqlStoreResult fun res =>
        Segreteria.inviaRisultato c.connfd res >>= Prog.ret).Safe (Ascolta sockfd numero) Paga
        (fun _ v' => Serve numero c.connfd false .codice [] [] v') v₄ := hs₄.safe_coda fun v' hv' => hv'
    simpa only [Prog.bind_ret] using hcoda

theorem Serve.safe_read_server {n : Nat} {k : Bytes → Programma α} (h : Serve numero fd p f ds as v)
    (hfd : fd ≠ sockfd)
    (hk : ∀ r v', Serve numero fd p f ds as v' → (k r).Safe (Ascolta sockfd numero) Paga Q v') :
    (Prog.call (.read sockfd n) k).Safe (Ascolta sockfd numero) Paga Q v := by
  have hn : v.2.nostro ≠ some sockfd := fun hn => hfd (Option.some.inj (h.nostro.symm.trans hn))
  refine ⟨h.paga_altra fun n heq => hfd (Sys.read.inj heq).1.symm, fun r v' hv => hk r v' (h.muta ?_ hv)⟩
  have hc := hv.chiama
  simp only [LatoSportello.chiama, if_neg hn, decide_true, Bool.and_true] at hc ⊢
  split at hc
  · rename_i hr
    rw [if_pos hr]
  · cases hc

/-- **A booking**, for the student: two numbers are read and three forwarded, the outcome is read from
    the server and written back. -/
theorem Serve.safe_prenota {s : Segreteria} {c : ClientStud} (hc : c.connfd = fd) (hs : s.sockfd = sockfd)
    (hfd : fd ≠ sockfd) (h : Serve numero fd p .cod [] [.inoltro s.behaviour.bytes] v) :
    (s.prenota c).Safe (Ascolta sockfd numero) Paga (fun _ v' => Serve numero fd p .codice [] [] v') v := by
  subst hc hs
  rw [Segreteria.prenota]
  simp only [Prog.op_eq, Prog.call_bind, Prog.ret_bind]
  refine h.safe_muta id (fun _ _ hc => (Option.some.inj hc).symm) fun cod v₁ h₁ => ?_
  refine h₁.safe_muta id (fun _ _ hc => (Option.some.inj hc).symm) fun mat v₂ h₂ => ?_
  refine ⟨h₂.paga id, fun _ v₃ hv₃ => ?_⟩
  have h₃ := h₂.inoltra hfd hv₃
  refine ⟨h₃.paga_tutto, fun r v₄ hv₄ => ?_⟩
  obtain ⟨f₄, hf₄, h₄⟩ := h₃.svolto.legge h₃.nostro h₃.numero hv₄
  obtain ⟨hr, rfl⟩ := Fase.passo_intero rfl hf₄
  refine ⟨h₄.paga_tutto, fun r' v₅ hv₅ => ?_⟩
  obtain ⟨f₅, hf₅, h₅⟩ := h₄.svolto.legge h₄.nostro h₄.numero hv₅
  obtain ⟨hr', rfl⟩ := Fase.passo_intero rfl hf₅
  rw [h₄.pendente, h₃.pendente] at h₅
  -- each number was read whole into its own variable, so what is forwarded is what was read
  have hcod : (Buffer.overlay cod r).bytes = r := congrArg Buffer.bytes (Buffer.overlay_full cod ⟨r, hr⟩)
  have hmat : (Buffer.overlay mat r').bytes = r' :=
    congrArg Buffer.bytes (Buffer.overlay_full mat ⟨r', hr'⟩)
  have hdue : Serve numero c.connfd p .codice [.una]
      [.inoltro (Buffer.overlay cod r).bytes, .inoltro (Buffer.overlay mat r').bytes] v₅ := by
    rw [hcod, hmat]
    exact h₅
  refine ⟨hdue.paga id, fun _ v₆ hv₆ => ?_⟩
  have h₆ := hdue.inoltra hfd hv₆
  refine ⟨h₆.paga id, fun _ v₇ hv₇ => ?_⟩
  have h₇ := h₆.inoltra hfd hv₇
  refine h₇.safe_read_server hfd fun res v₈ h₈ => ⟨h₈.paga id, fun _ v₉ hv₉ => ?_⟩
  have hlen := ((Buffer.zero 255).overlay res).size_eq
  exact h₈.scrive (by show _ ≠ 12; omega) (List.ne_nil_of_length_eq_add_one hlen) hv₉

/-- The two credentials of the student, just accepted at slot `dim`, then the answer. Whether the login
    is granted or refused, one text is written and nothing is owed. -/
theorem Serve.safe_accesso {s : Segreteria} (hslot : (s.clientSockets s.dim).connfd = fd)
    (hfd : fd ≠ sockfd)
    (h : Svolto .matricola [] [] v.2) (hn : v.2.nostro = some fd) (hnum : numero < v.2.accettate) :
    s.accesso.Safe (Ascolta sockfd numero) Paga (fun _ v' => Riposo sockfd numero v'.2) v := by
  subst hslot
  rw [Segreteria.accesso]
  simp only [Prog.op_eq, Prog.call_bind, Prog.ret_bind]
  refine ⟨⟨_, [], [], h, Or.inl ⟨rfl, rfl⟩⟩, fun r v₁ hv₁ => ?_⟩
  obtain ⟨f₁, hf₁, h₁⟩ := h.legge hn hnum hv₁
  obtain ⟨hr, rfl⟩ := Fase.passo_intero rfl hf₁
  refine ⟨h₁.paga_tutto, fun r' v₂ hv₂ => ?_⟩
  obtain ⟨f₂, hf₂, h₂⟩ := h₁.svolto.legge h₁.nostro h₁.numero hv₂
  obtain ⟨⟨hr', h0⟩, rfl⟩ : (r'.length = 255 ∧ 0 ∈ r') ∧ f₂ = .codice := by
    simp only [Fase.passo] at hf₂
    split at hf₂
    · rename_i hr'
      exact ⟨hr', (Option.some.inj hf₂).symm⟩
    · cases hf₂
  have hmat : ((s.clientSockets s.dim).matricola.overlay r).toInt = intero r := overlay_toInt _ hr
  have hpw : (s.password.overlay r').bytes = r' :=
    congrArg Buffer.bytes (Buffer.overlay_full s.password ⟨r', hr'⟩)
  refine h₂.safe_muta id (fun _ _ hc => (Option.some.inj hc).symm) fun _ v₃ h₃ => ?_
  -- the password was read whole and has its NUL: `%s` prints it and nothing more
  have hnul : 0 ∈ (s.password.overlay r').bytes := by
    rw [hpw]
    exact h0
  refine h₃.safe_cString hnul ⟨h₃.paga id, fun ok v₄ hv₄ => ?_⟩
  -- one statement is due, and it is the one about the credentials that were read
  have hq : azione (.login ((s.clientSockets s.dim).matricola.overlay r).toInt (cstr (s.password.overlay r').bytes)) =
      [.accesso (intero r) (cstr r')] := by rw [hmat, hpw]; rfl
  obtain ⟨-, h₄⟩ := h₃.interroga hq hv₄
  refine ⟨h₄.paga id, fun res v₅ hv₅ => ?_⟩
  obtain ⟨hres, -, h₅⟩ := h₄.prende hv₅
  obtain ⟨rows, rfl⟩ := Option.isSome_iff_exists.mp hres
  show Prog.Safe _ _ (if rows.length % 2 ^ 32 ≠ 1 then _ else _) _ _
  split
  · refine ⟨h₅.paga id, fun _ v₆ hv₆ => ?_⟩
    exact (h₅.scrive (by decide) (by decide) hv₆).riposo hfd
  · refine ⟨h₅.paga id, fun _ v₆ hv₆ => ?_⟩
    exact (h₅.scrive (by decide) (by decide) hv₆).riposo hfd

theorem Serve.chiude {u : Unit} (h : Serve numero fd p .fuori [] [] v)
    (hv : Ascolta sockfd numero v (.close fd) u v') : Riposo sockfd numero v'.2 := by
  have hc := hv.chiama
  simp only [LatoSportello.chiama, if_pos h.nostro, Option.some.injEq] at hc
  rw [← hc]
  refine ⟨⟨.fuori, ⟨h.svolto.fase, h.svolto.debiti, h.svolto.azioni⟩, (fun _ h => by cases h), fun hnum => ?_⟩,
    fun _ h => by cases h⟩
  have := h.numero
  exact absurd hnum (Nat.not_le.mpr this)

end Serve

/-! ## A turn -/

section Turno

variable {sockfd : Int} {numero : Nat} {v : VistaSeg}

theorem diAltri_call {α : Type} {nostro : Option Int} {o : Sys} {k : o.Ans → Programma α}
    (ho : o.Altrui nostro)
    (hk : ∀ r, DiAltri nostro (k r)) : DiAltri nostro (.call o k) :=
  Prog.only_call.mpr ⟨ho, fun r _ => hk r⟩

theorem DiAltri.bind {α β : Type} {nostro : Option Int} {p : Programma α} {f : α → Programma β}
    (hp : DiAltri nostro p) (hf : ∀ a, DiAltri nostro (f a)) : DiAltri nostro (p >>= f) :=
  (Prog.only_bind p f _).mpr (hp.mono fun a _ => hf a)

namespace Segreteria

theorem diAltri_accesso {nostro : Option Int} {s : Segreteria}
    (hfd : nostro ≠ some (s.clientSockets s.dim).connfd) :
    DiAltri nostro s.accesso := by
  refine diAltri_call hfd fun r => diAltri_call hfd fun r' => diAltri_call trivial fun _ => ?_
  refine ((locale_cString _ : Locale [] _).diAltri fun _ h => absurd h List.not_mem_nil).bind fun pw => ?_
  refine diAltri_call trivial fun _ => diAltri_call trivial fun res => ?_
  cases res with
  | none => exact diAltri_call trivial fun r => Empty.elim r
  | some rows =>
    show DiAltri nostro (if _ then _ else _)
    split
    · exact diAltri_call hfd fun _ => trivial
    · exact diAltri_call hfd fun _ => trivial

/-- The accepting loop: no connection, another student's login, or ours. Ours is the one with the number
    the conversation is about; the numbers count the connections that were accepted. -/
theorem safe_turno_accetta (s : Segreteria) (h : Riposo sockfd numero v.2) :
    s.accetta.Safe (Ascolta sockfd numero) Paga (fun _ v' => Riposo sockfd numero v'.2) v := by
  refine ⟨h.paga _, fun pronti v₁ hv₁ => ?_⟩
  -- `select` changes nothing of the conversation
  have hv : v₁.2 = v.2 := by
    have hc := hv₁.chiama
    simp only [LatoSportello.chiama] at hc
    split at hc
    · exact (Option.some.inj hc).symm
    · cases hc
  rw [← hv] at h
  show Prog.Safe _ _ (if s.listenfd ∈ (s.conPronti pronti).readSet then
    (if s.dim < 4096 then _ else _) else _) _ _
  split
  · split
    · refine ⟨h.paga _, fun fd v₂ hv₂ => ?_⟩
      have hc := hv₂.chiama
      simp only [LatoSportello.chiama] at hc
      show Prog.Safe _ _ (if fd < 0 then _ else _) _ _
      have hslot : (((s.conPronti pronti).connessa fd).clientSockets s.dim).connfd = fd :=
        congrArg ClientStud.connfd (Function.update_self s.dim _ s.clientSockets)
      split at hc
      · cases hc
      · rename_i hlib
        obtain ⟨hs, hno⟩ := not_or.mp hlib
        split
        · rename_i hneg
          rw [if_pos hneg] at hc
          show Riposo sockfd numero v₂.2
          rw [← Option.some.inj hc]
          exact h
        · rename_i hneg
          rw [if_neg hneg] at hc
          rw [Prog.safe_bind]
          obtain ⟨f, hf, h1, h2⟩ := h.svolto
          split at hc
          · -- the student's connection
            rename_i hnum
            obtain rfl := h2 (Nat.le_of_eq hnum)
            have hc := Option.some.inj hc
            have hacc : Svolto .matricola [] [] v₂.2 := by
              rw [← hc]
              exact ⟨hf.fase, hf.debiti, hf.azioni⟩
            refine Serve.safe_accesso hslot hs hacc (by rw [← hc]) ?_
            rw [← hc, ← hnum]
            exact Nat.lt_succ_self _
          · -- another one
            have hc := Option.some.inj hc
            have hrip : Riposo sockfd numero v₂.2 := by
              rw [← hc]
              refine ⟨⟨f, ⟨hf.fase, hf.debiti, hf.azioni⟩, h1, fun hle => h2 (Nat.le_of_succ_le hle)⟩, ?_⟩
              exact fun fd' hfd' => ⟨(h.aperta fd' hfd').1, Nat.lt_succ_of_lt (h.aperta fd' hfd').2⟩
            have hsosp : Sospesa v₂.2 v₂ := ⟨v₂.2.pendente, by rw [← hc]⟩
            refine (DiAltri.safe (diAltri_accesso ?_) hrip hsosp).mono fun _ v' hv' => hv'
            rw [← hc]
            intro heq
            exact hno (heq.trans (congrArg some hslot))
    · exact ⟨h.paga _, fun r => Empty.elim r⟩
  · exact h

theorem diAltri_servi {nostro : Option Int} {s : Segreteria} {i : Nat}
    (hn : nostro ≠ some (s.clientSockets i).connfd) (hserver : nostro ≠ some s.sockfd) :
    DiAltri nostro (s.servi i) := by
  -- the descriptors this student's request can touch, none of them ours
  have hfds : ∀ fd ∈ [s.sockfd, (s.clientSockets i).connfd], nostro ≠ some fd := by
    intro fd hmem
    rcases List.mem_cons.mp hmem with rfl | hmem
    · exact hserver
    · rw [List.mem_singleton.mp hmem]
      exact hn
  show DiAltri nostro (if (s.clientSockets i).connfd ∈ s.readSet ∧ (s.clientSockets i).connfd ≠ -1
    then _ else _)
  split
  · refine diAltri_call hn fun r => ?_
    show DiAltri nostro (if (s.behaviour.overlay r).toInt = 1 then _ else
      (if (s.behaviour.overlay r).toInt = 2 then _ else
      (if (s.behaviour.overlay r).toInt = 3 then _ else _)))
    have hlista : Locale [s.sockfd, (s.clientSockets i).connfd] (visualizzaAppelli (s.clientSockets i)) :=
      locale_visualizzaAppelli (List.mem_cons_of_mem _ List.mem_cons_self)
    have hprenota : Locale [s.sockfd, (s.clientSockets i).connfd]
        (({ s with behaviour := s.behaviour.overlay r } : Segreteria).prenota (s.clientSockets i)) := locale_prenota
    split
    · exact (hlista.diAltri hfds).bind fun _ => trivial
    · split
      · exact (hprenota.diAltri hfds).bind fun _ => trivial
      · split
        · exact diAltri_call hn fun _ => trivial
        · trivial
  · trivial

/-- Somebody else's turn: the read from them puts the conversation aside, and what their request does is
    on other descriptors. -/
theorem safe_servi_altrui {s : Segreteria} {i : Nat} (hs : s.sockfd = sockfd)
    (hfd : (s.clientSockets i).connfd ≠ sockfd) (h : Riposo sockfd numero v.2)
    (hn : v.2.nostro ≠ some (s.clientSockets i).connfd) :
    (s.servi i).Safe (Ascolta sockfd numero) Paga (fun _ v' => Riposo sockfd numero v'.2) v := by
  have hserver : v.2.nostro ≠ some s.sockfd := fun hno => (h.aperta _ hno).1 hs
  have hturno : DiAltri v.2.nostro (s.servi i) := diAltri_servi hn hserver
  simp only [servi] at hturno ⊢
  split
  · rename_i hpronto
    rw [if_pos hpronto] at hturno
    refine ⟨h.paga _, fun r v₁ hv₁ => ?_⟩
    exact DiAltri.safe ((Prog.only_call.mp hturno).2 r trivial) h (Sospesa.legge hn hfd hv₁)
  · exact h

/-- The student's turn, by the code that was read. Each code has its own debts and actions in the
    grammar, and the routine that the code names pays and does them before the turn ends. -/
theorem safe_servi_nostro {s : Segreteria} {i : Nat} (hs : s.sockfd = sockfd)
    (hfd : (s.clientSockets i).connfd ≠ sockfd) (h : Riposo sockfd numero v.2)
    (hn : v.2.nostro = some (s.clientSockets i).connfd) :
    (s.servi i).Safe (Ascolta sockfd numero) Paga (fun _ v' => Riposo sockfd numero v'.2) v := by
  show Prog.Safe _ _ (if (s.clientSockets i).connfd ∈ s.readSet ∧ (s.clientSockets i).connfd ≠ -1
    then _ else _) _ _
  split
  · refine ⟨h.paga _, fun r v₁ hv₁ => ?_⟩
    show Prog.Safe _ _ (if (s.behaviour.overlay r).toInt = 1 then _ else
      (if (s.behaviour.overlay r).toInt = 2 then _ else
      (if (s.behaviour.overlay r).toInt = 3 then _ else _))) _ _
    obtain ⟨f, hf, h1, -⟩ := h.svolto
    obtain rfl := h1 _ hn
    obtain ⟨f', hf', hserve⟩ := hf.legge hn (h.aperta _ hn).2 hv₁
    -- the code was read whole: what is owed for it is known
    obtain ⟨hr, rfl⟩ := Fase.passo_intero rfl hf'
    rw [overlay_toInt s.behaviour hr]
    split
    · rename_i h1
      rw [Fase.dopoCodice, if_pos h1, Fase.azioni, if_neg (by omega)] at hserve
      rw [Prog.safe_bind]
      exact (hserve.safe_visualizzaAppelli rfl).mono fun _ v₂ hv₂ => hv₂.riposo hfd
    · rename_i h1
      split
      · rename_i h2
        rw [Fase.dopoCodice, if_neg h1, if_pos h2, Fase.azioni, if_pos h2] at hserve
        have hbeh : (s.behaviour.overlay r).bytes = r :=
          congrArg Buffer.bytes (Buffer.overlay_full s.behaviour ⟨r, hr⟩)
        have hcod : Serve numero (s.clientSockets i).connfd v.2.pendente .cod []
            [.inoltro ({ s with behaviour := s.behaviour.overlay r } : Segreteria).behaviour.bytes] v₁ := by
          rw [hbeh]
          exact hserve
        have hpren := Serve.safe_prenota (s := { s with behaviour := s.behaviour.overlay r }) rfl hs hfd hcod
        rw [Prog.safe_bind]
        exact hpren.mono fun _ v₂ hv₂ => hv₂.riposo hfd
      · rename_i h2
        rw [Fase.dopoCodice, if_neg h1, if_neg h2, Fase.azioni, if_neg h2] at hserve
        split
        · rename_i h3
          rw [if_pos h3] at hserve
          exact ⟨hserve.paga_tutto, fun _ v₂ hv₂ => hserve.chiude hv₂⟩
        · rename_i h3
          rw [if_neg h3] at hserve
          exact hserve.riposo hfd
  · exact h

/-- The serving of a slot, ours or another's. -/
theorem safe_turno_servi {s : Segreteria} {i : Nat} (hs : Distinta sockfd s) (hi : i < s.dim)
    (h : Riposo sockfd numero v.2) :
    (s.servi i).Safe (Ascolta sockfd numero) Paga (fun _ v' => Riposo sockfd numero v'.2) v := by
  by_cases hn : v.2.nostro = some (s.clientSockets i).connfd
  · exact safe_servi_nostro hs.sockfd_eq (hs.slot i hi) h hn
  · exact safe_servi_altrui hs.sockfd_eq (hs.slot i hi) h hn

/-- The operator's menu is for the operator: what it reads and writes goes to the server. -/
theorem safe_turno_operatore {s : Segreteria} (hs : s.sockfd = sockfd) (h : Riposo sockfd numero v.2) :
    s.operatore.Safe (Ascolta sockfd numero) Paga (fun _ v' => Riposo sockfd numero v'.2) v := by
  show Prog.Safe _ _ (if s.sockfd ∈ s.writeSet then _ else _) _ _
  split
  · -- the menu only talks to the server, and that is not our connection
    have hserver : ∀ fd ∈ [s.sockfd], v.2.nostro ≠ some fd := by
      intro fd hmem hno
      rw [List.mem_singleton.mp hmem] at hno
      exact (h.aperta _ hno).1 hs
    have hmenu : ∀ logical : Int, DiAltri v.2.nostro (do
        sys .pulisciInput
        if logical = 2 then ({ s with logical } : Segreteria).nuovoAppello else pure { s with logical }) := by
      intro logical
      have hnuovo : Locale [s.sockfd] ({ s with logical } : Segreteria).nuovoAppello :=
        locale_nuovoAppello List.mem_cons_self
      refine diAltri_call trivial fun _ => ?_
      show DiAltri v.2.nostro (if _ then _ else _)
      split
      · exact hnuovo.diAltri hserver
      · trivial
    refine ⟨h.paga _, fun r v₁ hv₁ => ?_⟩
    have hsosp : Sospesa v.2 v₁ := ⟨v.2.pendente, (Option.some.inj hv₁.chiama).symm⟩
    cases r with
    | none => exact (hmenu s.logical).safe h hsosp
    | some n => exact (hmenu (Buffer.ofInt n).toInt).safe h hsosp
  · exact h

/-- A turn keeps the conversation in order: between two turns nothing is owed to the student but what he
    has not asked for yet. -/
theorem safe_turno_riposo {q : Punto × Segreteria} (hq : Distinta sockfd q.2)
    (h : Riposo sockfd numero v.2) :
    (passo q).Safe (Ascolta sockfd numero) Paga (fun _ v' => Riposo sockfd numero v'.2) v := by
  obtain ⟨p, s⟩ := q
  cases p with
  | esterno => exact h
  | accetta => exact safe_turno_accetta s h
  | servi i =>
    show Prog.Safe _ _ (if i < s.dim then _ else _) _ _
    split
    · rename_i hi
      rw [Prog.safe_bind]
      exact (safe_turno_servi hq hi h).mono fun _ v' hv' => hv'
    · exact h
  | operatore =>
    show Prog.Safe _ _ (s.operatore >>= _) _ _
    rw [Prog.safe_bind]
    exact (safe_turno_operatore hq.sockfd_eq h).mono fun _ v' hv' => hv'

end Segreteria

/-- Behind a routine that only talks. -/
theorem Locale.poi {α β : Type} {fds : List Int} {p : Programma α} {f : α → Programma β} {Q : β → Prop}
    (hp : Locale fds p) (hf : ∀ a, (f a).Only (fun _ _ => True) (fun _ => True) Q) :
    (p >>= f).Only (fun _ _ => True) (fun _ => True) Q :=
  (Prog.only_bind ..).mpr ((hp.weaken (fun _ _ _ => trivial) fun _ _ => trivial).mono fun a _ => hf a)

theorem Distinta.nuovoAppello {s : Segreteria} (hs : Distinta sockfd s) :
    s.nuovoAppello.Only (fun _ _ => True) (fun _ => True) (Distinta sockfd) := by
  refine Prog.only_call.mpr ⟨trivial,
    fun _ _ => (locale_leggiRiga s.name : Locale [] _).poi fun name => ?_⟩
  refine Prog.only_call.mpr ⟨trivial,
    fun _ _ => (locale_leggiRiga s.date : Locale [] _).poi fun date => ?_⟩
  refine Prog.only_call.mpr ⟨trivial, fun _ _ => Prog.only_call.mpr ⟨trivial, fun r _ => ?_⟩⟩
  refine (locale_cString _ : Locale [] _).poi fun esito => ?_
  exact Prog.only_call.mpr ⟨trivial, fun _ _ => ⟨hs.sockfd_eq, hs.slot⟩⟩

/-- **A turn of the secretary**: at each call the account is as `Paga` wants, and at the end the
    conversation is at rest. The turn may be the student's, another's, or nobody's. -/
theorem Segreteria.safe_turno {q : Punto × Segreteria} (hneg : sockfd ≠ -1) (hq : Distinta sockfd q.2)
    (h : Riposo sockfd numero v.2) : (passo q).Safe (Ascolta sockfd numero) Paga
      (fun q' v' => Distinta sockfd q'.2 ∧ Riposo sockfd numero v'.2) v := by
  -- `accept` never returns the server's descriptor
  have hnuovo : ∀ (o : Sys) (r : o.Ans) (v v' : VistaSeg), Ascolta sockfd numero v o r v' →
    Nuovo sockfd o r := by
    intro o r v v' hv
    cases o with
    | accept fd =>
      rintro rfl
      have hc := hv.chiama
      simp only [LatoSportello.chiama] at hc
      simp at hc
    | _ => trivial
  have hdist : (passo q).Safe (Ascolta sockfd numero) (fun _ _ => True)
      (fun q' v' => Distinta sockfd q'.2 ∧ True) v := by
    refine Segreteria.safe_passo (K := fun _ => True) hneg (fun _ _ _ _ => trivial)
      (fun v o r v' _ _ hv => ⟨hnuovo o r v v' hv, trivial⟩) hq trivial ?_ ?_
    · intro i _ _ r v₁ _ _
      exact (Prog.safe_iff_runs fun _ _ => trivial).mpr fun _ _ _ => trivial
    · intro s v hs _
      exact Prog.Only.safe (K := fun _ => True) hs.nuovoAppello (fun _ _ _ _ => trivial)
        (fun _ _ _ _ _ _ _ => ⟨trivial, trivial⟩) trivial
  exact ((hdist.and (safe_turno_riposo hq h)).weaken fun _ _ hP => hP.2).mono fun q' v' hQ =>
    ⟨hQ.1.1, hQ.2⟩

end Turno

end Universita

/-
  THE CONVERSATION — the student and the secretary together.

  Each side was verified alone; the connection puts the two views side by side.  What the student is
  still owed by what it sent and read, and what the secretary still owes by what it read and wrote,
  come from one machine: where nothing is in flight they are the same list.

  The circle is cut at the student's messages: that they are in the grammar needs nothing of the
  replies; so the secretary answers as it should, and so the student reads what it waits for.  Each of the
  three steps is a run of one process against its own view (`Reach.local₁`, `Reach.local₂`), the later ones
  with what the earlier ones proved as a fact about reachable states.

  Two properties come out of the same invariants:
    * no STALL — a student who waits with nothing in flight is owed something, so the secretary has not done all
      that was sent, and it is not waiting for the student either;
    * no MISUNDERSTANDING — the actions of the secretary are those of the messages, and the lines on the
      student's screen are the records that were written.

  Contents:
  1. `fase_inviati`, `svolto`, `isSome_ricevuti` — the three steps, and each side in every run.
  2. `Stallo` — both wait; **`mai_in_stallo`**.
  3. `Fedele` — everything is understood and shown as it was sent; **`conversazione_fedele`**.
  4. Runs: a list that is asked for, sent and shown; with a list choice of 3 both wait; a matricola cut in two
     is not understood.
-/
import Universita.Dialogo
import Universita.Replica

set_option linter.unusedVariables false

namespace Universita

open Lib

/-- A move of the composition. -/
abbrev MossaColloquio := Duo.Move Sys Sys.Ans

/-- The start of the two programs. -/
def inizioColloquio (sock sockfd listenfd : Int) (request req mat behaviour : Buffer 4) (logical : Int)
    (slots : Nat → ClientStud) : StatoColloquio :=
  saluto (.iniziale sock request req mat) (.iniziale sockfd listenfd behaviour logical slots)

/-- Whole reads, and requests the two programs agree on: a list is asked for with 1 or 2, the name of an
    exam is not empty, and the count of a result fits an int. -/
def Colloquio.Ordinata (d : StatoColloquio) (m : MossaColloquio) : Prop := Intera d m ∧ Regolare d m

section Corse

variable {sock sockfd listenfd : Int} {numero : Nat} {request req mat behaviour : Buffer 4} {logical : Int}
  {slots : Nat → ClientStud} {d : StatoColloquio}

/-- An answer to the student, as the student sees it: where the replies are known to be those it is
    owed, the one it reads is the next of them. -/
theorem Colloquio.perStudente_ode {M : Prop} {e' : Colloquio} {o : Sys} {r : o.Ans}
    (hC : Regolare d (.act₁ o r)) (h : d.env.perStudente o r = some e')
    (hM : M → (resto (dovute e'.stud.inviati) e'.stud.ricevuti).isSome) :
    ode M (d.turn₁, d.env.stud) o r (d.turn₁, e'.stud) := by
  have fermo : some d.env = some e' → (d.turn₁, e'.stud) = (d.turn₁, d.env.stud) := fun heq => by
    rw [← Option.some.inj heq]
  -- the connection only ever adds to what the student read, sent or printed
  cases o with
  | read fd n =>
    obtain ⟨giu, -, rfl⟩ := Option.map_eq_some_iff.mp h
    exact ⟨rfl, hM⟩
  | write fd bs =>
    obtain rfl := Option.some.inj h
    rfl
  | printf testo =>
    obtain rfl := Option.some.inj h
    show (d.turn₁, (if d.env.stud.ultima = 12 then _ else _ : Colloquio).stud) = (d.turn₁, if _ then _ else _)
    split
    · rfl
    · rfl
  | fgets n =>
    rw [perStudente] at h
    split at h
    · exact ⟨fermo h, hC⟩
    · cases h
  | scanf => exact ⟨fermo h, hC⟩
  | _ => exact fermo h

/-- What the student does leaves the secretary's side alone, so it is nothing that the secretary's proof
    has to look at. -/
theorem Colloquio.perStudente_seg {e e' : Colloquio} {o : Sys} {r : o.Ans}
    (h : e.perStudente o r = some e') :
    e'.seg = e.seg := by
  cases o with
  | read fd n =>
    obtain ⟨giu, -, rfl⟩ := Option.map_eq_some_iff.mp h
    rfl
  | printf testo =>
    obtain rfl := Option.some.inj h
    split
    · rfl
    · rfl
  | fgets n =>
    rw [perStudente] at h
    split at h
    · rw [Option.some.inj h]
    · cases h
  | _ => exact Option.some.inj h ▸ rfl

/-- The student on its side, in every run, with what is known of the replies as a parameter: first
    nothing, to know what it asks, and then that they are right. -/
theorem safe_studente (M : Prop) (J : StatoColloquio → Prop)
    (hJ : ∀ d, (colloquio sockfd numero).Reach Colloquio.Ordinata
      (inizioColloquio sock sockfd listenfd request req mat behaviour logical slots) d → J d)
    (hM : ∀ d, J d → M → (resto (dovute d.env.stud.inviati) d.env.stud.ricevuti).isSome)
    (hd : (colloquio sockfd numero).Reach Colloquio.Ordinata
      (inizioColloquio sock sockfd listenfd request req mat behaviour logical slots) d) :
    d.prog₁.Safe (ode M) (Regge M) (fun p v => p.Capo M v.2) (d.turn₁, d.env.stud) := by
  refine Duo.Reach.local₁ (fun d => (d.turn₁, d.env.stud)) J hJ ?_ ?_ ?_ ?_ hd
  · -- an answer of the connection is one the student can hear: `J` says that what it has read is in the grammar
    intro d o r d' _ hJ' hC hs
    obtain ⟨k, e, -, he, rfl⟩ := Duo.step_act₁ _ hs
    exact Colloquio.perStudente_ode hC.2 he fun hm => hM _ hJ' hm
  · intro d p d' _ _ hret hs hI
    obtain ⟨p', hp, rfl⟩ := Duo.step_turn₁ _ hs
    obtain rfl : p = p' := Prog.ret.inj (hret.symm.trans hp)
    exact ProgStudente.safe_giro rfl hI
  · intro d m d' hm hs
    cases m with
    | turn₁ => exact absurd trivial hm
    | act₁ o r => exact absurd trivial hm
    | turn₂ => obtain ⟨_, -, rfl⟩ := Duo.step_turn₂ _ hs; rfl
    | act₂ o r =>
      obtain ⟨_, e, -, he, rfl⟩ := Duo.step_act₂ _ hs
      exact congrArg (Prod.mk d.turn₁) (Colloquio.perSegreteria_eq_some.mp he).2.2
  · exact ⟨⟨request, rfl⟩, rfl, fun _ => rfl, fun _ => ⟨[], rfl, .nil⟩⟩

/-- What the student has sent is in the grammar. -/
theorem fase_inviati (hd : (colloquio sockfd numero).Reach Colloquio.Ordinata
    (inizioColloquio sock sockfd listenfd request req mat behaviour logical slots) d) :
    ∃ f, d.env.stud.fase = some f := by
  refine (safe_studente False (fun _ => True) (fun _ _ => trivial) (fun _ _ hM => hM.elim) hd).now ?_ ?_
  · rintro o ⟨f, ds, manca, h, -⟩
    exact ⟨f, h.fase⟩
  · rintro (s | s) h
    · exact ⟨_, h.2.fase⟩
    · exact ⟨_, h.2.fase⟩

/-- The secretary on its side, in every run: what it reads is what the student has said, and that is in
    the grammar. -/
theorem safe_segreteria (hneg : sockfd ≠ -1) (hd : (colloquio sockfd numero).Reach Colloquio.Ordinata
    (inizioColloquio sock sockfd listenfd request req mat behaviour logical slots) d) :
    d.prog₂.Safe (Ascolta sockfd numero) Paga (fun q v => Distinta sockfd q.2 ∧ Riposo sockfd numero v.2)
      (d.trace₂, d.env.seg) := by
  -- what the secretary has read begins what the student has sent, and that is in the grammar
  have hletti : ∀ d, (colloquio sockfd numero).Reach Colloquio.Ordinata
      (inizioColloquio sock sockfd listenfd request req mat behaviour logical slots) d →
        d.env.seg.fase.isSome := by
    intro d hd
    obtain ⟨f, hf⟩ := fase_inviati hd
    have hpre : d.env.seg.letti <+: d.env.stud.inviati :=
      ⟨_, (Colloquio.scambio (fun _ _ h => h.1) hd).su.symm⟩
    exact Mealy.isSome_run_mono hpre (Option.isSome_iff_exists.mpr ⟨f, hf⟩)
  refine Duo.Reach.local₂ (fun d => (d.trace₂, d.env.seg)) (fun d => d.env.seg.fase.isSome) hletti ?_ ?_ ?_ ?_ hd
  · intro d o r d' _ hJ' hC hs
    obtain ⟨k, e, -, he, rfl⟩ := Duo.step_act₂ _ hs
    refine ⟨(Colloquio.perSegreteria_eq_some.mp he).1, rfl, hJ', fun rows heq => ?_⟩
    cases heq
    exact hC.2 rows rfl
  · intro d q d' _ _ hret hs hI
    obtain ⟨q', hp, rfl⟩ := Duo.step_turn₂ _ hs
    obtain rfl : q = q' := Prog.ret.inj (hret.symm.trans hp)
    exact Segreteria.safe_turno hneg hI.1 hI.2
  · intro d m d' hm hs
    cases m with
    | turn₁ => obtain ⟨_, -, rfl⟩ := Duo.step_turn₁ _ hs; rfl
    | act₁ o r =>
      obtain ⟨_, e, -, he, rfl⟩ := Duo.step_act₁ _ hs
      exact congrArg (Prod.mk d.trace₂) (Colloquio.perStudente_seg he)
    | turn₂ => exact hm.elim
    | act₂ o r => exact hm.elim
  · refine ⟨⟨rfl, fun i hi => absurd hi (Nat.not_lt_zero i)⟩,
      ⟨.matricola, ⟨rfl, rfl, rfl⟩, fun _ h => (by cases h), fun _ => rfl⟩, ?_⟩
    exact fun fd h => by cases h

/-- What the secretary has written is what it owes for what it read. -/
theorem svolto (hneg : sockfd ≠ -1) (hd : (colloquio sockfd numero).Reach Colloquio.Ordinata
    (inizioColloquio sock sockfd listenfd request req mat behaviour logical slots) d) :
    ∃ f ds as, Svolto f ds as d.env.seg := by
  refine (safe_segreteria hneg hd).now ?_ ?_
  · rintro o ⟨f, ds, as, h, -⟩
    exact ⟨f, ds, as, h⟩
  · rintro q ⟨-, h⟩
    obtain ⟨f, hf, -⟩ := h.svolto
    exact ⟨f, [], [], hf⟩

/-- What the student has read is what it is owed for what it sent. -/
theorem isSome_ricevuti (hneg : sockfd ≠ -1) (hd : (colloquio sockfd numero).Reach Colloquio.Ordinata
    (inizioColloquio sock sockfd listenfd request req mat behaviour logical slots) d) :
    (resto (dovute d.env.stud.inviati) d.env.stud.ricevuti).isSome := by
  obtain ⟨f, ds, as, h⟩ := svolto hneg hd
  obtain ⟨hsu, hgiu⟩ := Colloquio.scambio (fun _ _ h => h.1) hd
  have hscritti : (resto (dovute d.env.stud.inviati) d.env.seg.scritti).isSome := by
    rw [hsu, dovute, Mealy.outs_append _ h.fase]
    exact Option.isSome_iff_exists.mpr ⟨_, resto_append _ _ h.debiti⟩
  exact Mealy.isSome_run_mono ⟨_, hgiu.symm⟩ hscritti

/-- The student once more, now with replies that it can rely on: what is in flight to it is what it is
    owed. -/
theorem safe_studente_fidato (hneg : sockfd ≠ -1) (hd : (colloquio sockfd numero).Reach Colloquio.Ordinata
    (inizioColloquio sock sockfd listenfd request req mat behaviour logical slots) d) :
    d.prog₁.Safe (ode True) (Regge True) (fun p v => p.Capo True v.2) (d.turn₁, d.env.stud) :=
  safe_studente True _ (fun _ h => isSome_ricevuti hneg h) (fun _ h _ => h) hd

end Corse

/-! ## Nobody waits for nobody -/

/-- The student waits in a read. -/
def Colloquio.StudAspetta (d : StatoColloquio) : Prop := ∃ fd n k, d.prog₁ = .call (.read fd n) k

/-- The secretary waits in a read from the student. -/
def Colloquio.SegAspetta (d : StatoColloquio) : Prop :=
  ∃ fd n k, d.prog₂ = .call (.read fd n) k ∧ d.env.seg.nostro = some fd

/-- The secretary is in the middle of a request of the student: it has read from it in this turn, and
    the turn is not over. -/
def Colloquio.Servendo (d : StatoColloquio) : Prop :=
  (∃ o k, d.prog₂ = .call o k) ∧ Letta (d.trace₂, d.env.seg)

/-- The student waits for the secretary, nothing is in flight, and the secretary is done with all the
    student sent, or waits for the student. -/
structure Stallo (d : StatoColloquio) : Prop where
  /-- The student is in a read ... -/
  studente : Colloquio.StudAspetta d
  /-- ... nothing is on its way to the secretary ... -/
  su : d.env.su = []
  /-- ... nor to the student ... -/
  giu : d.env.giu = []
  /-- ... and the secretary is not at work for it, or is in a read from it. -/
  segreteria : ¬ Colloquio.Servendo d ∨ Colloquio.SegAspetta d

section Corse

variable {sock sockfd listenfd : Int} {numero : Nat} {request req mat behaviour : Buffer 4} {logical : Int}
  {slots : Nat → ClientStud} {d : StatoColloquio}

/-- When the secretary is not at work for the student, nothing is owed and nothing is left to do: at
    rest by the end of a turn, and at a read by the condition in front of it. -/
theorem svolto_tutto (hneg : sockfd ≠ -1) (hd : (colloquio sockfd numero).Reach Colloquio.Ordinata
    (inizioColloquio sock sockfd listenfd request req mat behaviour logical slots) d)
    (h : ¬ Colloquio.Servendo d ∨ Colloquio.SegAspetta d) : ∃ f, Svolto f [] [] d.env.seg := by
  have hsafe := safe_segreteria hneg hd
  cases hp : d.prog₂ with
  | ret q =>
    rw [hp] at hsafe
    obtain ⟨f, hf, -⟩ := hsafe.2.svolto
    exact ⟨f, hf⟩
  | call o k =>
    rw [hp] at hsafe
    obtain ⟨f, ds, as, hf, ⟨rfl, rfl⟩ | ⟨hletta, hno⟩⟩ := hsafe.1
    · exact ⟨f, hf⟩
    · exfalso
      rcases h with h | ⟨fd, n, k', hp', hn⟩
      · exact h ⟨⟨o, k, hp⟩, hletta⟩
      · obtain ⟨rfl, -⟩ := Prog.call.inj (hp.symm.trans hp')
        exact hno fd n rfl hn

/-- **The two never wait for each other**, as long as every read takes one write, every list is asked
    for with 1 or 2, no exam name is empty and no list is longer than an `int` can count. -/
theorem mai_in_stallo (hneg : sockfd ≠ -1) (hd : (colloquio sockfd numero).Reach Colloquio.Ordinata
    (inizioColloquio sock sockfd listenfd request req mat behaviour logical slots) d) : ¬ Stallo d := by
  rintro ⟨⟨fd, n, k, hp⟩, hsu, hgiu, hseg⟩
  have hstud := safe_studente_fidato hneg hd
  rw [hp] at hstud
  obtain ⟨f, ds, manca, hdetto, hds⟩ := hstud.1
  obtain ⟨f', hsvolto⟩ := svolto_tutto hneg hd hseg
  -- both sides have seen all there is
  obtain ⟨hmess, hrisp⟩ := Colloquio.scambio (fun _ _ h => h.1) hd
  rw [hsu, List.append_nil] at hmess
  rw [hgiu, List.append_nil] at hrisp
  have hdeb := hdetto.debiti trivial
  rw [hmess, ← hrisp, hsvolto.debiti] at hdeb
  exact hds trivial (Option.some.inj hdeb).symm

end Corse

/-! ## Nothing is misunderstood -/

/-- The secretary does, in order, what the student's messages say; the student shows, in order, the
    records the secretary wrote; and both do so completely. -/
structure Fedele (d : StatoColloquio) : Prop where
  /-- What the secretary has done is the beginning of what the messages ask for ... -/
  azioni : d.env.seg.azioni <+: attese d.env.stud.inviati
  /-- ... and all of it, once everything was read and nothing is in the making. -/
  tutte : d.env.su = [] → ¬ Colloquio.Servendo d → d.env.seg.azioni = attese d.env.stud.inviati
  /-- The lines shown are some of the records, in order, each line one record ... -/
  righe : ∃ ls, ls <+: record d.env.seg.scritti ∧ List.Forall₂ RigaLista.Mostra ls d.env.stud.mostrate
  /-- ... and all of them, once everything was read and the student is back at its menu. -/
  mostrate : d.env.giu = [] → (∃ s, d.prog₁ = .ret (.menu s)) →
    List.Forall₂ RigaLista.Mostra (record d.env.seg.scritti) d.env.stud.mostrate

section Corse

variable {sock sockfd listenfd : Int} {numero : Nat} {request req mat behaviour : Buffer 4} {logical : Int}
  {slots : Nat → ClientStud} {d : StatoColloquio}

/-- **Every credential, command and argument is understood as it was sent, every row is shown as it was
    written**, under the same conditions. What the secretary was made to do is the beginning of what the
    student's messages ask for, and all of it once they were read; the lines the student was shown are
    the records that were written, in their order, and all of them once he is back at his menu. -/
theorem conversazione_fedele (hneg : sockfd ≠ -1) (hd : (colloquio sockfd numero).Reach Colloquio.Ordinata
    (inizioColloquio sock sockfd listenfd request req mat behaviour logical slots) d) : Fedele d := by
  obtain ⟨hmess, hrisp⟩ := Colloquio.scambio (fun _ _ h => h.1) hd
  have hstud := safe_studente_fidato hneg hd
  constructor
  · -- what the secretary has done is the beginning of what its messages ask for
    obtain ⟨f, ds, as, h⟩ := svolto hneg hd
    have hletti : attese d.env.seg.letti <+: attese d.env.stud.inviati := Mealy.outs_mono ⟨_, hmess.symm⟩
    exact List.IsPrefix.trans ⟨as, h.azioni⟩ hletti
  · -- with nothing in flight and a secretary between two requests, it is all of it
    intro hsu hserv
    obtain ⟨f, h⟩ := svolto_tutto hneg hd (Or.inl hserv)
    rw [hsu, List.append_nil] at hmess
    rw [hmess, ← h.azioni, List.append_nil]
  · obtain ⟨f, ds, manca, h⟩ : ∃ f ds manca, Detto True f ds manca d.env.stud := by
      refine hstud.now ?_ ?_
      · rintro o ⟨f, ds, manca, h, -⟩
        exact ⟨f, ds, manca, h⟩
      · rintro (s | s) h
        · exact ⟨_, _, _, h.2⟩
        · exact ⟨_, _, _, h.2⟩
    obtain ⟨ls, hls, hm⟩ := h.mostrate trivial
    exact ⟨ls, List.IsPrefix.trans ⟨manca, hls.symm⟩ (record_mono ⟨_, hrisp.symm⟩), hm⟩
  · -- with nothing on its way to a student at the menu, everything was printed
    rintro hgiu ⟨s, hp⟩
    rw [hp] at hstud
    obtain ⟨ls, hls, hm⟩ := hstud.2.mostrate trivial
    rw [hgiu, List.append_nil] at hrisp
    rw [hrisp, hls, List.append_nil]
    exact hm

end Corse

/-! ## Runs -/

/-- The secretary's sockets are 3 and 4, the student's is 7; the student is the first to connect. -/
def avvio : StatoColloquio :=
  inizioColloquio 7 3 4 (Buffer.zero 4) (Buffer.zero 4) (Buffer.zero 4) (Buffer.zero 4) 0 fun _ =>
    ⟨0, Buffer.zero 4⟩

/-- The password `a`, as it is sent. -/
def passwordA : Bytes := 97 :: List.replicate 254 0

/-- Student 1 types its credentials. -/
def credenzialiInviate : List MossaColloquio := [
  .turn₁, .act₁ .scanf (some 1), .act₁ .pulisciInput (), .act₁ (.fgets 255) (some [97, 10]),
  .act₁ (.write 7 (Buffer.ofInt 1).bytes) (), .act₁ (.write 7 passwordA) ()]

/-- The secretary accepts the student and reads `m` and `pw`. -/
def credenzialiLette (m pw : Bytes) : List MossaColloquio := [
  .turn₂, .turn₂, .act₂ (.select 5 [4, 3] [4, 3]) (some ([4], [])), .act₂ (.accept 4) (5 : Int),
  .act₂ (.read 5 4) m, .act₂ (.read 5 255) pw, .act₂ (.printf (ascii "Matricola: 1" ++ [10])) ()]

/-- The student is let in, and goes to the menu; the secretary waits for requests. -/
def entrata : List MossaColloquio :=
  credenzialiInviate ++ credenzialiLette (Buffer.ofInt 1).bytes passwordA ++ [
  .act₂ (.mysqlQuery (.login 1 [97])) true, .act₂ .mysqlStoreResult (some [[]]),
  .act₂ (.write 5 (ascii "credenziali corrette, accesso consentito!")) (),
  .act₁ (.read 7 255) (ascii "credenziali corrette, accesso consentito!"),
  .act₁ (.printf (ascii "\nEsito login: credenziali corrette, accesso consentito!")) (),
  .turn₂, .act₂ (.select 6 [4] []) (some ([], [])), .turn₂, .turn₂, .turn₂, .turn₂]

/-- The student asks for the list `c`, and the secretary reads that. -/
def listaChiesta (c : Int) : List MossaColloquio := [
  .turn₁, .act₁ .scanf (some 1), .act₁ .pulisciInput (), .act₁ (.write 7 (Buffer.ofInt 1).bytes) (),
  .act₁ .scanf (some c), .act₁ (.write 7 (Buffer.ofInt c).bytes) (), .act₁ .pulisciInput (),
  .act₁ (.indeterminato 4) (Buffer.zero 4),
  .turn₂, .act₂ (.select 6 [5, 4, 3] [5, 4, 3]) (some ([5], [])), .turn₂,
  .act₂ (.read 5 4) (Buffer.ofInt 1).bytes, .act₂ (.indeterminato 4) (Buffer.zero 4),
  .act₂ (.read 5 4) (Buffer.ofInt c).bytes]

/-- The fields of one row. -/
def nomeReti : Bytes := ascii "Reti" ++ List.replicate 251 0

/-- ... and its date. -/
def dataReti : Bytes := ascii "2024-06-01" ++ [0, 0]

/-- The list of that row is sent and shown. -/
def listaMostrata : List MossaColloquio := [
  .act₂ (.mysqlQuery (.appelli 1)) true,
  .act₂ .mysqlStoreResult (some [[some (ascii "12"), some (ascii "Reti"), some (ascii "2024-06-01")]]),
  .act₂ (.write 5 (Buffer.ofInt 1).bytes) (), .act₂ (.indeterminato 255) (Buffer.zero 255),
  .act₂ (.indeterminato 12) (Buffer.zero 12), .act₂ (.write 5 (Buffer.ofInt 12).bytes) (),
  .act₂ (.write 5 nomeReti) (), .act₂ (.write 5 dataReti) (), .act₂ .mysqlStoreResult none,
  .act₁ (.read 7 4) (Buffer.ofInt 1).bytes, .act₁ (.indeterminato 4) (Buffer.zero 4),
  .act₁ (.read 7 4) (Buffer.ofInt 12).bytes, .act₁ (.read 7 255) nomeReti, .act₁ (.read 7 12) dataReti,
  .act₁ (.printf (ascii "12\tReti\t2024-06-01\n")) ()]

namespace Colloquio

/-- `Intera` and `Regolare`, as tests. -/
def intera (d : StatoColloquio) : MossaColloquio → Bool
  | .act₁ (.read _ _) r => d.env.giu.head? = some r
  | .act₂ (.read fd _) r => d.env.seg.nostro ≠ some fd || d.env.su.head? = some r
  | _ => true

/-- `Regolare`, as a test. -/
def regolare (d : StatoColloquio) : MossaColloquio → Bool
  | .act₁ .scanf r => d.env.stud.fase ≠ some .scelta || match d.turn₁ with
    | .menu s => sceltaDi s r ∈ [1, 2]
    | .accesso _ => true
  | .act₁ (.fgets _) riga => d.env.stud.fase ≠ some .esame || riga.all fun riga =>
      (cstr ((Buffer.zero 255).overlay (riga ++ [0])).bytes).length ≠ 1
  | .act₂ .mysqlStoreResult res => res.all fun rows => rows.length < 2 ^ 31
  | _ => true

theorem intera_ok (d : StatoColloquio) (m : MossaColloquio) (h : intera d m = true) : Intera d m := by
  cases m with
  | act₁ o r =>
    cases o with
    | read fd n => exact of_decide_eq_true (p := d.env.giu.head? = some r) h
    | _ => trivial
  | act₂ o r =>
    cases o with
    | read fd n =>
      intro hn
      simpa [intera, hn] using h
    | _ => trivial
  | _ => trivial

theorem regolare_ok (d : StatoColloquio) (m : MossaColloquio) (h : regolare d m = true) :
    Regolare d m := by
  cases m with
  | act₁ o r =>
    cases o with
    | scanf =>
      intro hf s hs
      simpa [regolare, hf, hs] using h
    | fgets n =>
      rintro hf riga rfl
      simpa [regolare, hf] using h
    | _ => trivial
  | act₂ o r =>
    cases o with
    | mysqlStoreResult =>
      rintro rows rfl
      simpa [regolare] using h
    | _ => trivial
  | _ => trivial

theorem ordinata_ok (d : StatoColloquio) (m : MossaColloquio) (h : (intera d m && regolare d m) = true) :
    Ordinata d m := by
  obtain ⟨h1, h2⟩ := Bool.and_eq_true_iff.mp h
  exact ⟨intera_ok d m h1, regolare_ok d m h2⟩

/-- The student waits in a read, nothing is in flight; whether the secretary is between two turns. -/
def fermi (d : StatoColloquio) : Option Bool :=
  match d.prog₁, d.prog₂ with
  | .call (.read _ _) _, .ret _ => if d.env.su = [] ∧ d.env.giu = [] then some true else none
  | .call (.read _ _) _, .call _ _ => if d.env.su = [] ∧ d.env.giu = [] then some false else none
  | _, _ => none

/-- What was evaluated is what a stall asks for, but for the secretary when it is in the middle of a turn. -/
theorem fermi_eq_some {d : StatoColloquio} {b : Bool} (h : fermi d = some b) :
    StudAspetta d ∧ d.env.su = [] ∧ d.env.giu = [] ∧ (b = true → ¬ Servendo d) := by
  unfold fermi at h
  split at h
  · rename_i fd n k q hp hq
    split at h
    · rename_i hno
      refine ⟨⟨fd, n, k, hp⟩, hno.1, hno.2, fun _ hs => ?_⟩
      obtain ⟨⟨o, k', hk⟩, -⟩ := hs
      rw [hq] at hk
      cases hk
    · cases h
  · rename_i fd n k o k' hp hq
    split at h
    · rename_i hno
      obtain rfl := Option.some.inj h
      exact ⟨⟨fd, n, k, hp⟩, hno.1, hno.2, fun hb => by cases hb⟩
    · cases h
  · cases h

end Colloquio

/-- With a list choice of 3, on a connection that delivers every write whole, both wait. -/
theorem terza_lista : ∃ d, (colloquio 3 0).Reach Colloquio.Intera avvio d ∧ Stallo d := by
  have hrun : ((colloquio 3 0).run Colloquio.intera avvio
      (entrata ++ listaChiesta 3 ++ [.act₂ .mysqlStoreResult none])).map Colloquio.fermi = some (some true) := by
    decide +kernel
  obtain ⟨d, hd, heq⟩ := Option.map_eq_some_iff.mp hrun
  obtain ⟨hstud, hsu, hgiu, hserv⟩ := Colloquio.fermi_eq_some heq
  exact ⟨d, Duo.reach_run Colloquio.intera_ok _ .init hd, hstud, hsu, hgiu, Or.inl (hserv rfl)⟩

/-- With the choice 1 the student waits too and both streams are empty, but the secretary has the
    request and is at work. -/
theorem mai_in_stallo_lista : ∃ d, (colloquio 3 0).Reach Colloquio.Ordinata avvio d ∧
    Colloquio.StudAspetta d ∧ d.env.su = [] ∧ d.env.giu = [] ∧ ¬ Stallo d := by
  have hrun : ((colloquio 3 0).run (fun d m => Colloquio.intera d m && Colloquio.regolare d m) avvio
      (entrata ++ listaChiesta 1)).map Colloquio.fermi = some (some false) := by
    decide +kernel
  obtain ⟨d, hd, heq⟩ := Option.map_eq_some_iff.mp hrun
  obtain ⟨hstud, hsu, hgiu, -⟩ := Colloquio.fermi_eq_some heq
  have hreach := Duo.reach_run Colloquio.ordinata_ok _ .init hd
  exact ⟨d, hreach, hstud, hsu, hgiu, mai_in_stallo (by decide) hreach⟩

/-- The matricola 1 in two pieces: the password that is checked is the rest of the matricola. -/
theorem matricola_a_pezzi : ¬ ∀ d, (colloquio 3 0).Reach Colloquio.Regolare avvio d → Fedele d := by
  intro h
  have hrun : ((colloquio 3 0).run Colloquio.regolare avvio
      (credenzialiInviate ++ credenzialiLette [1] ([0, 0, 0] ++ passwordA.take 252) ++
        [.act₂ (.mysqlQuery (.login 1 [])) true])).map (fun d => (d.env.seg.azioni, attese d.env.stud.inviati)) =
      some ([.accesso 1 []], [.accesso 1 [97]]) := by
    decide +kernel
  obtain ⟨d, hd, heq⟩ := Option.map_eq_some_iff.mp hrun
  obtain ⟨h1, h2⟩ := Prod.mk.inj heq
  have hpre := (h d (Duo.reach_run Colloquio.regolare_ok _ .init hd)).azioni
  rw [h1, h2] at hpre
  exact absurd hpre (by decide)

/-- A list of one row is asked for, sent and shown. -/
theorem conversazione_fedele_lista : ∃ d, (colloquio 3 0).Reach Colloquio.Ordinata avvio d ∧
    d.env.stud.mostrate = [ascii "12\tReti\t2024-06-01\n"] ∧
    d.env.seg.azioni = [.accesso 1 [97], .elenco] ∧ Fedele d := by
  have hrun : ((colloquio 3 0).run (fun d m => Colloquio.intera d m && Colloquio.regolare d m) avvio
      (entrata ++ listaChiesta 1 ++ listaMostrata)).map (fun d => (d.env.stud.mostrate, d.env.seg.azioni)) =
      some ([ascii "12\tReti\t2024-06-01\n"], [.accesso 1 [97], .elenco]) := by
    decide +kernel
  obtain ⟨d, hd, heq⟩ := Option.map_eq_some_iff.mp hrun
  obtain ⟨h1, h2⟩ := Prod.mk.inj heq
  have hreach := Duo.reach_run Colloquio.ordinata_ok _ .init hd
  exact ⟨d, hreach, h1, h2, conversazione_fedele (by decide) hreach⟩

end Universita

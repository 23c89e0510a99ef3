/-
  EACH OUTCOME TO ITS OWN REQUEST — the replies of the server, which carry no length and no end.

  The secretary forwards a request (a booking, a new appello) with three writes and takes what ONE read of the same
  connection returns for its outcome.  The server answers with a text, or with a text and a second one behind it,
  and the stream keeps no boundary between two writes: how much of a reply one read returns is up to TCP and to
  the moment of the read.  What the read leaves would be the beginning of the next outcome.

  The property has a condition on the moves of the secretary alone, `EsitoIntero`: a read of an outcome comes
  when the server has nothing more to write and returns all that has arrived.  Where the codes are cut
  (`Allineato`) is the condition the server's side needs already.

  The crux is a count: the secretary waits for an outcome before it forwards another request, so the
  server has opened at most one reply more than outcomes were taken, and if it always takes a code at
  the start of a request, the reply it opens is the reply to exactly that request.  `Conto` is that count as an
  invariant of both programs, and each program's moves keep it for a reason of their own.

  Contents:
  1. `conta`, `InAttesa` — the secretary's two numbers; `contate`: three writes, then one read, in every run.
  2. `OgnunoIlSuo` — the property; `EsitoIntero` — the reads that take a whole reply.
  3. `Conto` — the invariant of the composition, kept by each move (`Conto.ans₁`, `Conto.ans₂`).
  4. **`ognuno_il_suo`** — every run; `esito_troncato` — the outcome in two parts.
-/
import Universita.Allineamento
import Universita.Turno

set_option linter.unusedVariables false

namespace Universita

open Lib Lib.Stream

/-! ## Three writes, one read -/

/-- The number of writes to the server and of outcomes taken from it, both since the start of the run. -/
abbrev Conti := Nat × Nat

/-- `conta sockfd v o r v'` — how one answered call changes the two numbers: a write to the server's
    socket adds to the first, a read from it to the second, and `accept` never returns that socket. -/
def conta (sockfd : Int) (v : Conti) (o : Sys) (r : o.Ans) (v' : Conti) : Prop :=
  Nuovo sockfd o r ∧ v' = (v.1 + (scrittura sockfd o).length, v.2 + (lettura sockfd o r).length)

/-- What holds in front of every call: a request is three writes, and its outcome is taken before the
    next one is begun. The two bounds together leave at most one request under way; `esito` pins an
    outcome to the end of its request. -/
structure InAttesa (sockfd : Int) (v : Conti) (o : Sys) : Prop where
  /-- Every outcome taken has its three writes before it. -/
  lower : 3 * v.2 ≤ v.1
  /-- At most one request is on its way. -/
  upper : v.1 ≤ 3 * v.2 + 3
  /-- An outcome is read when all three are written, and only then. -/
  esito : ∀ n, o = .read sockfd n → v.1 = 3 * v.2 + 3

section Conta

variable {sockfd : Int} {v v' : Conti}

/-- A call that is not on the connection with the server changes neither number. -/
theorem conta_estranea {o : Sys} {r : o.Ans} (ho : ¬ o.Usa sockfd) (h : conta sockfd v o r v') :
    v' = v := by
  rw [h.2, scrittura_estranea ho, lettura_estranea ho]; rfl

theorem conta_write {bs : Bytes} {u : Unit} (h : conta sockfd v (.write sockfd bs) u v') :
    v' = (v.1 + 1, v.2) := by
  rw [h.2, scrittura, if_pos rfl]; rfl

theorem conta_read {n : Nat} {r : Bytes} (h : conta sockfd v (.read sockfd n) r v') :
    v' = (v.1, v.2 + 1) := by
  rw [h.2, lettura, if_pos rfl]; rfl

/-- Any other call may come at any moment of a request. -/
theorem InAttesa.estranea {o : Sys} (h1 : 3 * v.2 ≤ v.1) (h2 : v.1 ≤ 3 * v.2 + 3)
    (ho : ¬ o.Usa sockfd) : InAttesa sockfd v o :=
  ⟨h1, h2, by rintro n rfl; exact absurd rfl ho⟩

/-- The booking of a student: three writes to the server, then its outcome. What it reads from the
    student in between does not count. -/
theorem conta_prenota {s : Segreteria} {c : ClientStud} (hs : s.sockfd = sockfd)
    (hfd : c.connfd ≠ sockfd) (hv : v.1 = 3 * v.2) :
    (s.prenota c).Safe (conta sockfd) (InAttesa sockfd) (fun _ v' => v'.1 = 3 * v'.2) v := by
  subst hs
  refine ⟨.estranea (by omega) (by omega) fun h => h, fun cod v₁ h => ?_⟩
  obtain rfl := conta_estranea (o := .indeterminato 4) (fun h => h) h
  refine ⟨.estranea (by omega) (by omega) fun h => h, fun mat v₁ h => ?_⟩
  obtain rfl := conta_estranea (o := .indeterminato 4) (fun h => h) h
  refine ⟨⟨by omega, by omega, nofun⟩, fun _ v₁ h => ?_⟩
  obtain rfl := conta_write h
  refine ⟨.estranea (by simp only; omega) (by simp only; omega) hfd, fun r v₂ h => ?_⟩
  obtain rfl := conta_estranea (o := .read _ _) hfd h
  refine ⟨.estranea (by simp only; omega) (by simp only; omega) hfd, fun r' v₂ h => ?_⟩
  obtain rfl := conta_estranea (o := .read _ _) hfd h
  refine ⟨⟨by simp only; omega, by simp only; omega, nofun⟩, fun _ v₂ h => ?_⟩
  obtain rfl := conta_write h
  refine ⟨⟨by simp only; omega, by simp only; omega, nofun⟩, fun _ v₃ h => ?_⟩
  obtain rfl := conta_write h
  refine ⟨⟨by simp only; omega, by simp only; omega, fun _ _ => by simp only; omega⟩, fun res v₄ h => ?_⟩
  -- three writes were made for this outcome: the counts agree again
  obtain rfl := conta_read h
  refine ⟨.estranea (by simp only; omega) (by simp only; omega) hfd, fun _ v₅ h => ?_⟩
  obtain rfl := conta_estranea (o := .write _ _) hfd h
  simp only [Prog.safe_ret]
  omega

/-- A new appello, whose three writes have the operator's lines between them: a prompt in between
    changes neither number. -/
theorem conta_nuovoAppello {s : Segreteria} (hs : Distinta sockfd s) (hv : v.1 = 3 * v.2) :
    s.nuovoAppello.Safe (conta sockfd) (InAttesa sockfd)
      (fun s' v' => Distinta sockfd s' ∧ v'.1 = 3 * v'.2) v := by
  obtain ⟨rfl, hslot⟩ := hs
  -- a prompt in between changes neither count
  have estraneo : ∀ {α : Type} {p : Programma α} {w : Conti}, Estraneo s.sockfd p (fun _ => True) →
      3 * w.2 ≤ w.1 → w.1 ≤ 3 * w.2 + 3 →
      p.Safe (conta s.sockfd) (InAttesa s.sockfd) (fun _ w' => w' = w) w := by
    intro α p w hp h1 h2
    refine (Prog.Only.safe (K := fun w' => w' = w) hp ?_ ?_ rfl).mono fun _ _ h => h.2
    · rintro _ o rfl ho; exact .estranea h1 h2 ho
    · rintro _ o r w' rfl ho h; exact ⟨h.1, conta_estranea ho h⟩
  refine ⟨⟨by omega, by omega, nofun⟩, fun _ v₁ h => ?_⟩
  obtain rfl := conta_write h
  show Prog.Safe _ _ (leggiRiga s.name >>= _) _ _
  rw [Prog.safe_bind]
  refine (estraneo ((locale_leggiRiga _).estraneo List.not_mem_nil) (by simp only; omega)
    (by simp only; omega)).mono ?_
  rintro name _ rfl
  refine ⟨⟨by simp only; omega, by simp only; omega, nofun⟩, fun _ v₂ h => ?_⟩
  obtain rfl := conta_write h
  show Prog.Safe _ _ (leggiRiga s.date >>= _) _ _
  rw [Prog.safe_bind]
  refine (estraneo ((locale_leggiRiga _).estraneo List.not_mem_nil) (by simp only; omega)
    (by simp only; omega)).mono ?_
  rintro date _ rfl
  refine ⟨⟨by simp only; omega, by simp only; omega, nofun⟩, fun _ v₃ h => ?_⟩
  obtain rfl := conta_write h
  refine ⟨⟨by simp only; omega, by simp only; omega, fun _ _ => by simp only; omega⟩, fun res v₄ h => ?_⟩
  obtain rfl := conta_read h
  show Prog.Safe _ _ (cString _ >>= _) _ _
  rw [Prog.safe_bind]
  refine (estraneo ((locale_cString _).estraneo List.not_mem_nil) (by simp only; omega)
    (by simp only; omega)).mono ?_
  rintro esito _ rfl
  refine ⟨.estranea (by simp only; omega) (by simp only; omega) fun h => h, fun _ v₅ h => ?_⟩
  obtain rfl := conta_estranea (o := .printf _) (fun h => h) h
  exact ⟨⟨rfl, hslot⟩, by simp only; omega⟩

end Conta

section Corse

variable {sockfd : Int} {C : Stato → Mossa → Prop} {clienti : Nat → Bytes} {s : Segreteria}
  {t : Server} {d : Stato}

/-- **In every run the secretary forwards a request with three writes, then takes its outcome.** The
    numbers are read off the observations, so this is about the run and not about one turn; between two
    turns they stand at three to one. -/
theorem contate (hneg : sockfd ≠ -1) (hs : Distinta sockfd s)
    (hd : (sistema sockfd).Reach C (inizio clienti s t) d) :
    d.prog₁.Safe (conta sockfd) (InAttesa sockfd) (fun q v => Distinta sockfd q.2 ∧ v.1 = 3 * v.2)
      (d.env.seg.inviate.length, d.env.seg.esiti.length) := by
  refine Duo.Reach.local₁ (fun d => (d.env.seg.inviate.length, d.env.seg.esiti.length))
    (fun _ => True) (fun _ _ => trivial) ?_ ?_ ?_ ?_ hd
  · intro d o r d' _ _ _ hstep
    obtain ⟨k, e, -, he, rfl⟩ := Duo.step_act₁ _ hstep
    have hseg := (sistema_ans₁.mp he).1
    have heff := LatoSegreteria.chiama_effetto hseg
    exact ⟨chiama_nuovo hseg, by rw [heff.inviate, heff.esiti, List.length_append, List.length_append]⟩
  · intro d q d' _ _ hret hstep hI
    obtain ⟨q', hp, rfl⟩ := Duo.step_turn₁ _ hstep
    obtain rfl : q = q' := Prog.ret.inj (hret.symm.trans hp)
    refine Segreteria.safe_passo (K := fun v : Conti => v.1 = 3 * v.2) hneg ?_ ?_ hI.1 hI.2 ?_ ?_
    · intro v o hv ho; exact .estranea (by omega) (by omega) ho
    · intro v o r v' hv ho h
      obtain rfl := conta_estranea ho h
      exact ⟨h.1, hv⟩
    · intro i _ hi r v₁ h _
      have hfd := hI.1.slot i hi.1
      obtain rfl := conta_estranea (o := .read _ _) hfd h
      exact conta_prenota hI.1.sockfd_eq hfd hI.2
    · intro s' v hs' hv; exact conta_nuovoAppello hs' hv
  · intro d m d' hm hstep
    cases m with
    | turn₁ => exact (hm trivial).elim
    | act₁ o r => exact (hm trivial).elim
    | turn₂ => obtain ⟨_, -, rfl⟩ := Duo.step_turn₂ _ hstep; rfl
    | act₂ o r =>
      obtain ⟨_, e, -, he, rfl⟩ := Duo.step_act₂ _ hstep
      rw [show e.seg = d.env.seg from (sistema_ans₂.mp he).2.2]
  · exact ⟨⟨hs.sockfd_eq, hs.slot⟩, rfl⟩

end Corse

/-! ## The property, and when it holds -/

/-- What was taken for the `k`-th outcome is the `k`-th reply; the `k`-th reply was begun when the code
    of the `k`-th request had been read and no more; between two requests nothing is left unread. -/
structure OgnunoIlSuo (e : Rete) : Prop where
  /-- The outcomes taken are the first replies, whole and in order ... -/
  esiti : e.seg.esiti <+: e.ser.risposte
  /-- ... each reply was begun at a known place of the server's input ... -/
  numero : e.ser.aperte.length = e.ser.risposte.length
  /-- ... inside the code of its own request ... -/
  aperte : ∀ k a, e.ser.aperte[k]? = some a →
    confine e.seg.inviate k < a ∧ a ≤ confine e.seg.inviate k + 4
  /-- ... and none is left over when the next request starts. -/
  libero : e.seg.inviate.length = 3 * e.seg.esiti.length → e.giu = []

/-- `EsitoIntero sockfd d m` — a read of an outcome comes when the server has nothing more to write for
    the request, and returns all that is in flight. The move is not restricted in any other way. -/
def EsitoIntero (sockfd : Int) (d : Stato) : Mossa → Prop
  | .act₁ (.read fd _) r => fd = sockfd → Zitto d.prog₂ ∧ r = d.env.giu
  | _ => True

/-- What every move keeps. The first three parts are the property itself; the other three tie the places
    where replies were begun to what the server has read, and its silence to the outcomes that were
    taken. -/
structure Conto (d : Stato) : Prop where
  /-- The outcomes taken are the first replies. -/
  esiti : d.env.seg.esiti <+: d.env.ser.risposte
  /-- The places where the replies were begun are as many as the replies. -/
  numero : d.env.ser.aperte.length = d.env.ser.risposte.length
  /-- Each is inside the code of its request. -/
  aperte : ∀ k a, d.env.ser.aperte[k]? = some a →
    confine d.env.seg.inviate k < a ∧ a ≤ confine d.env.seg.inviate k + 4
  /-- No place is ahead of what was read. -/
  lette : ∀ a ∈ d.env.ser.aperte, a ≤ d.env.ser.lette.length
  /-- As long as the turn of the server has begun no reply, all the places are before its own reads. -/
  prima : segni d.trace₂ = [] → ∀ a ∈ d.env.ser.aperte,
    a + (letture d.trace₂).flatten.length ≤ d.env.ser.lette.length
  /-- With every reply taken, the server writes nothing before it begins the next. -/
  zitto : d.env.ser.risposte.length = d.env.seg.esiti.length → Zitto d.prog₂

theorem confine_mono (ws : List Bytes) {k k' : Nat} (h : k ≤ k') : confine ws k ≤ confine ws k' := by
  obtain ⟨ys, hys⟩ := List.take_prefix_take_left (l := ws) (show 3 * k ≤ 3 * k' by omega)
  rw [confine, confine, ← hys, List.flatten_append, List.length_append]
  omega

/-- A request that was begun was written in part: were none of its three writes made, its first byte
    would lie behind everything that was written. -/
theorem confine_lt {ws : List Bytes} {k : Nat} (h : confine ws k < ws.flatten.length) :
    3 * k < ws.length := by
  by_contra hk
  rw [confine, List.take_of_length_le (by omega)] at h
  omega

section Conto

variable {sockfd : Int} {d : Stato}

/-- The server has read no more than was written to it. -/
theorem Fifo.lette_le {e : Rete} (h : Fifo e) : e.ser.lette.length ≤ e.seg.inviate.flatten.length := by
  rw [h.su, List.length_append]; omega

/-- The `k`-th reply is begun after the `k`-th request. -/
theorem Conto.inviate (hc : Conto d) (hf : Fifo d.env) {k : Nat}
    (hk : k < d.env.ser.risposte.length) : 3 * k < d.env.seg.inviate.length := by
  have hk' : k < d.env.ser.aperte.length := by rw [hc.numero]; exact hk
  have ha := hc.aperte k _ (List.getElem?_eq_getElem hk')
  have hle := hc.lette _ (List.getElem_mem hk')
  exact confine_lt (by have := hf.lette_le; omega)

/-- The server is at most one reply ahead: a second one would answer a request the secretary has not
    begun to forward. -/
theorem Conto.risposte_le (hc : Conto d) (hf : Fifo d.env)
    (hup : d.env.seg.inviate.length ≤ 3 * d.env.seg.esiti.length + 3) :
    d.env.ser.risposte.length ≤ d.env.seg.esiti.length + 1 := by
  by_contra h
  have := hc.inviate hf (k := d.env.ser.risposte.length - 1) (by omega)
  omega

/-- When every reply was taken, nothing is in flight: what is left of the replies is what the outcomes
    do not have. -/
theorem Conto.libero (hc : Conto d) (hf : Fifo d.env)
    (hn : d.env.ser.risposte.length ≤ d.env.seg.esiti.length) :
    d.env.ser.risposte = d.env.seg.esiti ∧ d.env.giu = [] := by
  have heq := hc.esiti.eq_of_length_le hn
  refine ⟨heq.symm, ?_⟩
  have hg := hf.giu
  rw [← heq] at hg
  exact List.self_eq_append_right.mp hg

/-- What is in flight is the one reply that was not taken, so that a read which returns all of it
    returns that reply. -/
theorem Conto.preso (hc : Conto d) (hf : Fifo d.env)
    (hle : d.env.ser.risposte.length ≤ d.env.seg.esiti.length + 1) (hne : d.env.giu ≠ []) :
    d.env.seg.esiti ++ [d.env.giu] = d.env.ser.risposte := by
  have hlt : d.env.seg.esiti.length < d.env.ser.risposte.length := by
    by_contra h
    exact hne (hc.libero hf (by omega)).2
  obtain ⟨ys, hys⟩ := hc.esiti
  obtain ⟨x, rfl⟩ : ∃ x, ys = [x] := by
    rw [← List.length_eq_one_iff]
    have hlen := congrArg List.length hys
    rw [List.length_append] at hlen
    omega
  have hg := hf.giu
  rw [← hys, List.flatten_append, List.flatten_singleton] at hg
  rw [← List.append_cancel_left hg, hys]

/-- **The secretary's moves**: the outcome taken is the reply that was last begun. Only a read of an
    outcome changes what the invariant speaks of, and `EsitoIntero` is needed for this one call. -/
theorem Conto.ans₁ (hc : Conto d) (hf : Fifo d.env) {o : Sys} {r : o.Ans} {e : Rete}
    (hattesa : InAttesa sockfd (d.env.seg.inviate.length, d.env.seg.esiti.length) o)
    (hm : EsitoIntero sockfd d (.act₁ o r)) (he : (sistema sockfd).ans₁ d.env o r = some e)
    (p : Programma (Punto × Segreteria)) (tr : List (Event Sys Sys.Ans)) :
    Conto { d with prog₁ := p, trace₁ := tr, env := e } := by
  obtain ⟨hseg, hp, hser⟩ := sistema_ans₁.mp he
  have heff := LatoSegreteria.chiama_effetto hseg
  have hle := hc.risposte_le hf hattesa.upper
  have hesiti : e.seg.esiti <+: d.env.ser.risposte ∧
      (d.env.ser.risposte.length = e.seg.esiti.length → Zitto d.prog₂) := by
    by_cases hl : lettura sockfd o r = []
    · rw [heff.esiti, hl, List.append_nil]
      exact ⟨hc.esiti, hc.zitto⟩
    · -- an outcome is taken: it is the one reply not taken before
      cases o with
      | read fd n =>
        have hfd : fd = sockfd := by
          by_contra hfd
          exact hl (if_neg hfd)
        subst hfd
        obtain ⟨hzitto, hr⟩ := hm rfl
        have hne : d.env.giu ≠ [] := by
          simp only [Rete.perSegreteria, if_pos, Option.map_eq_some_iff] at hp
          obtain ⟨giu', hrecv, -⟩ := hp
          rw [← hr]
          exact (recv_eq_some.mp hrecv).1
        have hnuovi : e.seg.esiti = d.env.ser.risposte := by
          rw [heff.esiti, lettura, if_pos rfl, hr]
          exact hc.preso hf hle hne
        rw [hnuovi]
        exact ⟨List.prefix_refl _, fun _ => hzitto⟩
      | _ => exact absurd rfl hl
  refine ⟨?_, ?_, ?_, ?_, ?_, ?_⟩ <;> simp only [hser]
  · exact hesiti.1
  · exact hc.numero
  · intro k a hka
    -- the first write of an open request was read by the server, so it was made
    have hk : 3 * k < d.env.seg.inviate.length := by
      refine hc.inviate hf ?_
      rw [← hc.numero]
      exact (List.getElem?_eq_some_iff.mp hka).1
    rw [heff.inviate, confine_append _ (Nat.le_of_lt hk)]
    exact hc.aperte k a hka
  · exact hc.lette
  · exact hc.prima
  · exact hesiti.2

/-- With every reply taken, the server is silent until it begins the next. -/
theorem Conto.tace (hc : Conto d) {o : Sys} {k : o.Ans → Programma Server} (hp : d.prog₂ = .call o k)
    (hn : d.env.ser.risposte.length = d.env.seg.esiti.length) :
    (∀ fd bs, o ≠ .write fd bs) ∧ (o ≠ .mysqlInit → ∀ r, Zitto (k r)) := by
  have hz := hc.zitto hn
  rw [hp] at hz
  exact ⟨fun fd bs h => hz.1 ⟨fd, bs, h⟩, hz.2⟩

/-- What a move of the server does to its replies: the last one grows, or the next is begun. It can only
    grow when it was not taken yet, since with every reply taken the server is silent. -/
theorem Conto.risposte_dopo (hc : Conto d) {o : Sys} {r : o.Ans} {k : o.Ans → Programma Server} {e : Rete}
    (hp : d.prog₂ = .call o k) (he : (sistema sockfd).ans₂ d.env o r = some e) :
    d.env.seg.esiti <+: e.ser.risposte ∧
      e.ser.risposte.length = d.env.ser.risposte.length + (if o = .mysqlInit then 1 else 0) := by
  have hle := hc.esiti.length_le
  rcases (effettoServer he).risposte with ⟨hr, -⟩ | ⟨⟨fd, bs, ho⟩, bs', hr, -⟩
  · rw [hr, List.length_append]
    refine ⟨hc.esiti.trans (List.prefix_append _ _), ?_⟩
    split <;> rfl
  · have hlt : d.env.seg.esiti.length < d.env.ser.risposte.length := by
      by_contra h
      exact (hc.tace hp (by omega)).1 fd bs ho
    have hne : d.env.ser.risposte ≠ [] := List.ne_nil_of_length_pos (by omega)
    have hi : o ≠ .mysqlInit := by rw [ho]; exact nofun
    rw [hr, length_inCoda bs' hne, if_neg hi]
    exact ⟨prefix_inCoda bs' hc.esiti hlt, rfl⟩

/-- A reply is begun behind the code of its own request. The code it stands behind is that of some
    request `b`; an earlier one has its reply already, and a later one was not forwarded, so the number
    of replies is `b`. -/
theorem Conto.apre (hc : Conto d) (hf : Fifo d.env) {pre : Bytes} (hcor : Corrente [1, 2] d pre)
    (hch : Chiede Corta (vista d.turn₂ d.trace₂) .mysqlInit)
    (hup : d.env.seg.inviate.length ≤ 3 * d.env.seg.esiti.length + 3) :
    confine d.env.seg.inviate d.env.ser.aperte.length < d.env.ser.lette.length ∧
      d.env.ser.lette.length ≤ confine d.env.seg.inviate d.env.ser.aperte.length + 4 := by
  obtain ⟨fd, r₀, hr₀, hap, hr4, hne, hcod⟩ := hch.apre rfl
  obtain ⟨b, hb, hpos⟩ := hcor.inizio r₀ [] hr₀ hne hcod
  have hr₀ : letture d.trace₂ = [r₀] := hr₀
  have hl : d.env.ser.lette.length = confine d.env.seg.inviate b + r₀.length := by
    rw [hcor.lette, hr₀, List.flatten_singleton, List.length_append, hpos]
  have hr4 : r₀.length ≤ 4 := hr4
  have hr0 : 0 < r₀.length := List.length_pos_iff.mpr hne
  have hle := hc.esiti.length_le
  have hnum := hc.numero
  have hbm : 3 * b < d.env.seg.inviate.length := confine_lt (by have := hf.lette_le; omega)
  -- were it the code of an earlier request, that request would have a reply already, begun behind this
  -- very code
  have hbn : d.env.ser.aperte.length ≤ b := by
    by_contra hbi
    have hi1 : d.env.ser.aperte.length - 1 < d.env.ser.aperte.length := by omega
    have ha := (hc.aperte _ _ (List.getElem?_eq_getElem hi1)).1
    have hprima := hc.prima hap _ (List.getElem_mem hi1)
    rw [hr₀, List.flatten_singleton] at hprima
    have := confine_mono d.env.seg.inviate (show b ≤ d.env.ser.aperte.length - 1 by omega)
    omega
  obtain rfl : d.env.ser.aperte.length = b := by omega
  omega

/-- **The server's moves**: the reply it begins is the reply to the next request. A read moves the
    marks, a connection to MySQL sets one, and a write goes into the reply that was begun last. -/
theorem Conto.ans₂ (hc : Conto d) (hf : Fifo d.env) {pre : Bytes} (hcor : Corrente [1, 2] d pre)
    {o : Sys} {r : o.Ans} {k : o.Ans → Programma Server} {e : Rete} (hp : d.prog₂ = .call o k)
    (hch : Chiede Corta (vista d.turn₂ d.trace₂) o)
    (hup : d.env.seg.inviate.length ≤ 3 * d.env.seg.esiti.length + 3)
    (he : (sistema sockfd).ans₂ d.env o r = some e) :
    Conto { d with prog₂ := k r, trace₂ := d.trace₂ ++ [⟨o, r⟩], env := e } := by
  have heff := effettoServer he
  have hseg := (sistema_ans₂.mp he).2.2
  have hle := hc.esiti.length_le
  -- the replies after this call: one more begins at `mysql_init`, and a write goes to the last one
  have hrisposte := hc.risposte_dopo hp he
  have hlette : d.env.ser.lette.length + (letture [⟨o, r⟩]).flatten.length = e.ser.lette.length := by
    rw [heff.lette, List.length_append]
  refine ⟨?_, ?_, ?_, ?_, ?_, ?_⟩ <;> simp only [hseg]
  · exact hrisposte.1
  · rw [heff.aperte, hrisposte.2, List.length_append, hc.numero]
    split <;> rfl
  · intro i a hi
    rw [heff.aperte] at hi
    by_cases hlt : i < d.env.ser.aperte.length
    · rw [List.getElem?_append_left hlt] at hi
      exact hc.aperte i a hi
    · -- the reply that is begun
      rw [List.getElem?_append_right (by omega)] at hi
      split at hi
      · rename_i ho
        subst ho
        rw [List.getElem?_singleton] at hi
        split at hi
        · obtain rfl := Option.some.inj hi
          obtain rfl : i = d.env.ser.aperte.length := by omega
          exact hc.apre hf hcor hch hup
        · cases hi
      · cases hi
  · intro a ha
    rw [heff.aperte] at ha
    rcases List.mem_append.mp ha with ha | ha
    · have := hc.lette a ha
      omega
    · split at ha
      · rw [List.mem_singleton.mp ha]
        omega
      · cases ha
  · intro hap a ha
    rw [segni_append, List.append_eq_nil_iff] at hap
    have hi := (segni_eq_nil hap.2).1
    rw [heff.aperte, if_neg hi, List.append_nil] at ha
    rw [letture_append, List.flatten_append, List.length_append]
    have := hc.prima hap.1 a ha
    omega
  · intro hn
    by_cases ho : o = .mysqlInit
    · rw [hrisposte.2, if_pos ho] at hn
      omega
    · rw [hrisposte.2, if_neg ho] at hn
      exact (hc.tace hp hn).2 ho r

end Conto

/-! ## Every run -/

/-- **Each outcome goes to its own request**, in every run of the two programs in which the server takes
    codes at the start of requests and outcomes are read whole. The outcomes taken are the first replies
    in their order, and the `k`-th reply was begun inside the code of the `k`-th request. -/
theorem ognuno_il_suo {sockfd listenfd : Int} (hneg : sockfd ≠ -1) {behaviour : Buffer 4}
    {logical : Int} {slots : Nat → ClientStud} {t : Server} {clienti : Nat → Bytes} {d : Stato}
    (hd : (sistema sockfd).Reach (fun d m => Allineato [1, 2] d m ∧ EsitoIntero sockfd d m)
      (inizio clienti (Segreteria.iniziale sockfd listenfd behaviour logical slots) t) d) :
    OgnunoIlSuo d.env := by
  have hs : Distinta sockfd (Segreteria.iniziale sockfd listenfd behaviour logical slots) :=
    ⟨rfl, fun i hi => absurd hi (Nat.not_lt_zero i)⟩
  -- a request is three writes, and no outcome is read before the third
  have hup : ∀ {d}, (sistema sockfd).Reach (fun d m => Allineato [1, 2] d m ∧ EsitoIntero sockfd d m)
      (inizio clienti (Segreteria.iniziale sockfd listenfd behaviour logical slots) t) d →
      3 * d.env.seg.esiti.length ≤ d.env.seg.inviate.length ∧
        d.env.seg.inviate.length ≤ 3 * d.env.seg.esiti.length + 3 := fun hd =>
    (contate hneg hs hd).now (fun o h => ⟨h.lower, h.upper⟩) fun q h => by
      have := h.2
      simp only at this
      omega
  have hconto : Conto d := by
    refine Duo.Reach.invariant (J := Conto) ?_ ?_ hd
    · exact ⟨List.nil_prefix, rfl, nofun, nofun, nofun, fun _ => trivial⟩
    · intro d m d' hd hc hm hstep
      have hf := fifo hd
      cases m with
      | turn₁ =>
        obtain ⟨q, -, rfl⟩ := Duo.step_turn₁ _ hstep
        exact ⟨hc.esiti, hc.numero, hc.aperte, hc.lette, hc.prima, hc.zitto⟩
      | turn₂ =>
        obtain ⟨t', -, rfl⟩ := Duo.step_turn₂ _ hstep
        refine ⟨hc.esiti, hc.numero, hc.aperte, hc.lette, fun _ a ha => ?_,
          fun _ => Server.zitto_passo t'⟩
        have := hc.lette a ha
        simpa [letture] using this
      | act₁ o r =>
        obtain ⟨k, e, hp, he, rfl⟩ := Duo.step_act₁ _ hstep
        have hsafe := contate hneg hs hd
        rw [hp] at hsafe
        exact hc.ans₁ hf hsafe.1 hm.2 he _ _
      | act₂ o r =>
        obtain ⟨k, e, hp, he, rfl⟩ := Duo.step_act₂ _ hstep
        have hsafe := chiede (A := Corta) (fun _ _ _ _ _ he => corta_ans₂ he) hd
        rw [hp] at hsafe
        obtain ⟨pre, hcor⟩ := posizione (fun _ _ h => h.1) hd
        exact hc.ans₂ hf hcor hp hsafe.1 (hup hd).2 he
  refine ⟨hconto.esiti, hconto.numero, hconto.aperte, fun heq => ?_⟩
  refine (hconto.libero (fifo hd) ?_).2
  by_contra hlt
  have := hconto.inviate (fifo hd) (k := d.env.seg.esiti.length) (by omega)
  omega

/-! ## One run -/

/-- Both programs at the start: no student, the secretary's socket is 3. -/
def inizioVuoto : Stato :=
  inizio (fun _ => []) (Segreteria.iniziale 3 4 (Buffer.zero 4) 0 fun _ => ⟨0, Buffer.zero 4⟩)
    ⟨5, -1, Buffer.zero 4, 5⟩

/-- The operator adds an appello of `a` on `b`; MySQL refuses it, and the server writes the error. -/
def appelloRifiutato (errore : Bytes) : List Mossa := [
  .turn₁, .turn₁, .act₁ (.select 5 [4, 3] [4, 3]) (some ([], [3])), .turn₁, .turn₁,
  .act₁ .scanf (some 2), .act₁ .pulisciInput (), .act₁ (.write 3 [1, 0, 0, 0]) (),
  .act₁ (.fgets 255) (some [97, 10]), .act₁ (.write 3 [97]) (),
  .act₁ (.fgets 12) (some [98, 10]), .act₁ (.write 3 [98]) (),
  .turn₂, .act₂ (.select 6 [5] []) (some ([5], [])), .act₂ (.accept 5) (6 : Int),
  .turn₂, .act₂ (.select 7 [6, 5] []) (some ([6], [])), .act₂ (.read 6 4) [1, 0, 0, 0],
  .act₂ .mysqlInit true, .act₂ .mysqlRealConnect true, .act₂ (.read 6 255) [97],
  .act₂ (.read 6 12) [98], .act₂ (.indeterminato 4) (Buffer.zero 4),
  .act₂ (.mysqlQuery (.idEsame [97])) true, .act₂ .mysqlUseResult (some []),
  .act₂ (.mysqlQuery (.inserisciAppello 0 [98])) false, .act₂ .mysqlError errore,
  .act₂ .mysqlError errore, .act₂ (.write 6 errore) (), .act₂ .mysqlClose ()]

/-- The outcome of that request is read in two parts: the first passes for the outcome, and the second
    waits in the stream for the next request. -/
theorem esito_troncato : ¬ ∀ d, (sistema 3).Reach Duo.Any inizioVuoto d → OgnunoIlSuo d.env := by
  intro h
  have hrun : ((sistema 3).run (fun _ _ => true) inizioVuoto
      (appelloRifiutato (ascii "no") ++ [.act₁ (.read 3 255) (ascii "n")])).map
      (fun d => (d.env.seg.esiti, d.env.ser.risposte)) = some ([ascii "n"], [ascii "no"]) := by
    decide +kernel
  obtain ⟨d, hd, heq⟩ := Option.map_eq_some_iff.mp hrun
  obtain ⟨hesiti, hrisposte⟩ := Prod.mk.inj heq
  have hp := (h d (Duo.reach_run (fun _ _ _ => trivial) _ .init hd)).esiti
  rw [hesiti, hrisposte] at hp
  revert hp
  decide

/-- No outcome is read, and the server takes a code only from the first byte. -/
def soloRichiesta (d : Stato) : Mossa → Bool
  | .act₁ (.read fd _) _ => fd ≠ 3
  | .act₂ (.read _ _) _ => letture d.trace₂ ≠ [] || d.env.ser.lette = []
  | _ => true

/-- Such moves meet both conditions: the server's one request begins the stream, and no outcome is read
    yet. -/
theorem soloRichiesta_ok (d : Stato) (m : Mossa) (h : soloRichiesta d m = true) :
    Allineato [1, 2] d m ∧ EsitoIntero 3 d m := by
  cases m with
  | act₁ o r =>
    refine ⟨trivial, ?_⟩
    cases o with
    | read fd n => exact fun hfd => absurd hfd (of_decide_eq_true h)
    | _ => trivial
  | act₂ o r =>
    refine ⟨?_, trivial⟩
    cases o with
    | read fd n =>
      intro hl _ _
      rw [soloRichiesta, hl] at h
      have hlette : d.env.ser.lette = [] := by simpa using h
      exact ⟨0, Nat.zero_le _, by rw [hlette]; rfl⟩
    | _ => trivial
  | _ => exact ⟨trivial, trivial⟩

/-- The outcome of the same request, read whole once the server is done: it is the reply. -/
theorem ognuno_il_suo_appello : ∃ d : Stato, (sistema 3).Reach
      (fun d m => Allineato [1, 2] d m ∧ EsitoIntero 3 d m) inizioVuoto d ∧
    d.env.seg.esiti = [ascii "no"] ∧ OgnunoIlSuo d.env := by
  let finita (d : Stato) : Bool := match d.prog₂ with
    | .ret _ => true
    | .call _ _ => false
  -- up to the last read, and that read apart: its condition is that the server has nothing more to write
  have hrun : (((sistema 3).run soloRichiesta inizioVuoto (appelloRifiutato (ascii "no"))).bind fun d =>
      ((sistema 3).step d (.act₁ (.read 3 255) (ascii "no"))).map fun d' =>
        (finita d, d.env.giu, d'.env.seg.esiti)) = some (true, ascii "no", [ascii "no"]) := by
    decide +kernel
  obtain ⟨d, hd, hstep⟩ := Option.bind_eq_some_iff.mp hrun
  obtain ⟨d', hd', heq⟩ := Option.map_eq_some_iff.mp hstep
  simp only [Prod.mk.injEq] at heq
  obtain ⟨hfin, hgiu, hesiti⟩ := heq
  have hzitto : Zitto d.prog₂ := by
    cases hp : d.prog₂ with
    | ret _ => trivial
    | call _ _ => simp [finita, hp] at hfin
  have hesito : Allineato [1, 2] d (.act₁ (.read 3 255) (ascii "no")) ∧
      EsitoIntero 3 d (.act₁ (.read 3 255) (ascii "no")) :=
    ⟨trivial, fun _ => ⟨hzitto, hgiu.symm⟩⟩
  have hreach := (Duo.reach_run soloRichiesta_ok _ .init hd).step hesito hd'
  have hneg : (3 : Int) ≠ -1 := by decide
  exact ⟨d', hreach, hesiti, ognuno_il_suo hneg hreach⟩

end Universita

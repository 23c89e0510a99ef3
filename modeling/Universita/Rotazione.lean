/-
  ROUNDS — in which order the secretary takes up what it has to do, in every run.

  A run is not only a table that stays in order: which loop is at work, how often it is left and who is served
  there follow from what `select` reports.  A round first calls `accept` while a connection waits, then asks each
  student once, in the order of the slots, whether the last `select` found them readable, then the operator.

  Nothing is asked of the students, the operator, MySQL or the kernel: `select` may report what it likes, `accept`
  may fail, and reads may be cut anywhere.  A student who sends nothing is not waited for; one who sends without end is
  served once a round like every other.

  The crux is to describe the PART of a round that was done, for each of the four points of the loops (`Parte`), and not the
  whole rounds: one turn goes on with its part or ends it (`Parte.giro`), and the whole rounds are then only counted.
  That nobody is served twice is because two live slots have different descriptors.

  Contents:
  1. `Sys.Riguarda` — the calls that concern one student.
  2. `Accolta`, `Percorsa`, `Tornata` — a round up to the students, among the students, and a whole one.
  3. `Parte.giro` — what one turn adds to a round.
  4. **`rotazione`** — every run is whole rounds and a part of one.
-/
import Universita.Richieste

set_option linter.unusedVariables false

namespace Universita

open Lib

/-- The call is about the student on `fd`, or about the server on `sockfd`, MySQL, the console, the
    buffers: whatever it is, no other student is met. -/
def Sys.Riguarda (sockfd fd : Int) (o : Sys) : Prop := o.Su [sockfd, fd] ∨ o = .close fd

/-! ## One student's turn -/

section Turno

variable {sockfd : Int} {l : LatoSegreteria}

/-- What is so of all calls of a program is so of its trace, since a trace holds the calls a program has
    made. -/
theorem traccia_only {α : Type} {K : Sys → Prop} {p : Programma α} (h : p.Only (fun _ _ => True) K fun _ => True) :
    p.Safe (Risposte sockfd) (fun _ _ => True) (fun _ v => ∀ ev ∈ v.1, K ev.1) ([], l) := by
  refine (Prog.Only.safe (K := fun v : Vista₁ => ∀ ev ∈ v.1, K ev.1) h (fun _ _ _ _ => trivial) ?_ ?_).mono
    fun _ _ hv => hv.2
  · intro v o r v' hv ho hr
    refine ⟨trivial, fun ev hev => ?_⟩
    rw [hr.2.1] at hev
    rcases List.mem_append.mp hev with hev | hev
    · exact hv ev hev
    · rw [List.mem_singleton.mp hev]
      exact ho
  · exact fun _ hev => absurd hev List.not_mem_nil

/-- All calls of the turn that serves slot `i` are about its student, or the server, MySQL and the buffers. -/
theorem Segreteria.riguarda_servi (s : Segreteria) (i : Nat) : (s.servi i).Only (fun _ _ => True)
    (fun o => o.Riguarda s.sockfd (s.clientSockets i).connfd) fun _ => True := by
  have hfd : (s.clientSockets i).connfd ∈ [s.sockfd, (s.clientSockets i).connfd] :=
    List.mem_cons_of_mem _ List.mem_cons_self
  -- a list and a booking only use this student's descriptor and the server's
  have hlocale : ∀ {α : Type} {p : Programma α} {f : α → Programma Segreteria},
      Locale [s.sockfd, (s.clientSockets i).connfd] p → (∀ a, ∃ s', f a = .ret s') →
      (p >>= f).Only (fun _ _ => True) (fun o => o.Riguarda s.sockfd (s.clientSockets i).connfd) fun _ => True := by
    intro α p f hp hf
    refine (Prog.only_bind p f _).mpr ((hp.weaken (fun _ _ _ => trivial) fun _ ho => Or.inl ho).mono fun a _ => ?_)
    obtain ⟨s', hs'⟩ := hf a
    rw [hs']
    trivial
  show Prog.Only _ _ (if (s.clientSockets i).connfd ∈ s.readSet ∧ (s.clientSockets i).connfd ≠ -1
    then _ else _) _
  split
  · refine Prog.only_call.mpr ⟨Or.inl hfd, fun r _ => ?_⟩
    show Prog.Only _ _ (if (s.behaviour.overlay r).toInt = 1 then _ else
      (if (s.behaviour.overlay r).toInt = 2 then _ else
      (if (s.behaviour.overlay r).toInt = 3 then _ else _))) _
    split
    · exact hlocale (locale_visualizzaAppelli hfd) fun _ => ⟨_, rfl⟩
    · split
      · exact hlocale (locale_prenota (s := { s with behaviour := s.behaviour.overlay r })) fun _ => ⟨_, rfl⟩
      · split
        · exact Prog.only_call.mpr ⟨Or.inr rfl, fun _ _ => trivial⟩
        · trivial
  · trivial

/-- What a complete turn does, and whom its calls concern when it serves a student. -/
structure Assistito (sockfd : Int) (q : Punto × Segreteria) (l : LatoSegreteria) (tr : List Evento)
    (q' : Punto × Segreteria) (l' : LatoSegreteria) : Prop where
  /-- One of the turns there are. -/
  giro : Giro sockfd l q tr q' l'
  /-- In the loop over the students its calls concern one student. -/
  riguarda : ∀ i, q.1 = .servi i → ∀ ev ∈ tr, ev.1.Riguarda q.2.sockfd (q.2.clientSockets i).connfd

theorem safe_assistito (q : Punto × Segreteria) (l : LatoSegreteria) :
    (Segreteria.passo q).Safe (Risposte sockfd) (fun _ _ => True)
      (fun q' v => Assistito sockfd q l v.1 q' v.2) ([], l) := by
  have hriguarda : (Segreteria.passo q).Safe (Risposte sockfd) (fun _ _ => True) (fun _ v =>
      ∀ i, q.1 = .servi i → ∀ ev ∈ v.1, ev.1.Riguarda q.2.sockfd (q.2.clientSockets i).connfd) ([], l) := by
    obtain ⟨p, s⟩ := q
    cases p with
    | servi i =>
      have honly : (Segreteria.passo (.servi i, s)).Only (fun _ _ => True)
          (fun o => o.Riguarda s.sockfd (s.clientSockets i).connfd) fun _ => True := by
        show Prog.Only _ _ (if i < s.dim then _ else _) _
        split
        · exact (Prog.only_bind ..).mpr ((s.riguarda_servi i).mono fun _ _ => trivial)
        · trivial
      refine (traccia_only honly).mono fun _ v hv j hj => ?_
      cases hj
      exact hv
    | _ => exact (safe_giro _ l).mono fun _ _ _ i hi => by cases hi
  exact ((safe_giro q l).and hriguarda).weaken (fun _ _ _ => trivial) |>.mono fun _ _ h => ⟨h.1, h.2⟩

end Turno

/-! ## A round -/

/-- A round up to a turn of the loop that accepts connections: each turn of that loop has called `accept`, which may
    have failed. -/
def Accolta (g : Passato) : Prop :=
  ∃ s accolte, g = ((.esterno, s), []) :: accolte ∧
    ∀ t ∈ accolte, t.1.1 = .accetta ∧ ∃ fd, ⟨.accept t.1.2.listenfd, fd⟩ ∈ t.2

/-- The turns of the loop over the students below slot `i`; it began with `s`. -/
structure Percorsa (s : Segreteria) (i : Nat) (ts : Passato) : Prop where
  /-- One turn for each slot, in the order of the slots. -/
  posti : ts.map (·.1.1) = (List.range i).map .servi
  /-- One command from each student that the last `select` found readable, and from nobody else. -/
  letti : comandi ts = serviti s.clientSockets s.readSet i
  /-- Nobody is read from twice. -/
  una : (comandi ts).Nodup
  /-- No other student is met in their turn. -/
  propri : ∀ t ∈ ts, ∀ j, t.1.1 = .servi j → ∀ ev ∈ t.2, ev.1.Riguarda s.sockfd (s.clientSockets j).connfd

/-- A round in which the loop over the students is at slot `i`; `s` is what the last `select` left. -/
def AStudenti (g : Passato) (s : Segreteria) (i : Nat) : Prop :=
  ∃ g₀ s₀ nfds rs ws pronti ts, Accolta g₀ ∧ Percorsa s i ts ∧ s = s₀.conPronti pronti ∧ s.listenfd ∉ s.readSet ∧
    g = g₀ ++ ((.accetta, s₀), [⟨.select nfds rs ws, pronti⟩]) :: ts

/-- All students were asked: the loop has found its end, behind one turn for each slot in use. -/
def Percorso (g : Passato) : Prop :=
  ∃ g₀ s s', AStudenti g₀ s s.dim ∧ g = g₀ ++ [((.servi s.dim, s'), [])]

/-- **A whole round.** -/
def Tornata (g : Passato) : Prop :=
  ∃ g₀ t, Percorso g₀ ∧ t.1.1 = .operatore ∧ g = g₀ ++ [t]

/-- No two live slots have one descriptor. -/
def Segreteria.Distinti (s : Segreteria) : Prop :=
  ∀ i j, s.Vivo i → s.Vivo j → (s.clientSockets i).connfd = (s.clientSockets j).connfd → i = j

/-- `Parte g q` — the part `g` of a round lies in front of a turn that begins with `q`: nothing yet, the
    accepting loop, some slots, or all of them. -/
def Parte (g : Passato) (q : Punto × Segreteria) : Prop :=
  match q.1 with
  | .esterno => g = []
  | .accetta => Accolta g
  | .servi i => ∃ s, AStudenti g s i ∧ s.Distinti ∧ i ≤ s.dim ∧ q.2.dim = s.dim ∧ q.2.readSet = s.readSet ∧
      q.2.sockfd = s.sockfd ∧ ∀ j, i ≤ j → q.2.clientSockets j = s.clientSockets j
  | .operatore => Percorso g

section Parte

variable {sockfd listenfd : Int} {past g : Passato} {s s' : Segreteria} {p p' : Punto} {tr : List Evento}
  {l l' : LatoSegreteria} {i : Nat} {ts : Passato}

theorem Segreteria.Distinti.sotto (h : s.Distinti) (hi : i < s.dim) : ∀ j k, j < i + 1 → k < i + 1 →
    (s.clientSockets j).connfd ≠ -1 → (s.clientSockets j).connfd = (s.clientSockets k).connfd → j = k := by
  intro j k hj hk hne heq
  have hvj : s.Vivo j := ⟨by omega, hne⟩
  have hvk : s.Vivo k := ⟨by omega, heq ▸ hne⟩
  exact h j k hvj hvk heq

theorem Accolta.snoc (h : Accolta g) {fd : Int} (hacc : ⟨.accept s.listenfd, fd⟩ ∈ tr) :
    Accolta (g ++ [((.accetta, s), tr)]) := by
  obtain ⟨s₀, accolte, rfl, haccolte⟩ := h
  refine ⟨s₀, accolte ++ [((.accetta, s), tr)], rfl, fun t ht => ?_⟩
  rcases List.mem_append.mp ht with ht | ht
  · exact haccolte t ht
  · rw [List.mem_singleton.mp ht]
    exact ⟨rfl, fd, hacc⟩

theorem Percorsa.snoc (h : Percorsa s i ts) (hd : s.Distinti) (hi : i < s.dim) {s' : Segreteria}
    (hletto : (comando ((.servi i, s'), tr)).toList =
      if (s.clientSockets i).connfd ∈ s.readSet ∧ (s.clientSockets i).connfd ≠ -1
        then [(s.clientSockets i).connfd] else [])
    (hpropri : ∀ ev ∈ tr, ev.1.Riguarda s.sockfd (s.clientSockets i).connfd) :
    Percorsa s (i + 1) (ts ++ [((.servi i, s'), tr)]) := by
  have hletti : comandi (ts ++ [((.servi i, s'), tr)]) = serviti s.clientSockets s.readSet (i + 1) := by
    rw [comandi_snoc, h.letti, serviti_succ, hletto]
  refine ⟨?_, hletti, by rw [hletti]; exact nodup_serviti (hd.sotto hi), ?_⟩
  · rw [List.map_append, h.posti, List.range_succ, List.map_append]
    rfl
  · intro t ht j hj
    rcases List.mem_append.mp ht with ht | ht
    · exact h.propri t ht j hj
    · rw [List.mem_singleton.mp ht] at hj ⊢
      cases hj
      exact hpropri

theorem AStudenti.snoc (h : AStudenti g s i) (hd : s.Distinti) (hi : i < s.dim) {s' : Segreteria}
    (hletto : (comando ((.servi i, s'), tr)).toList =
      if (s.clientSockets i).connfd ∈ s.readSet ∧ (s.clientSockets i).connfd ≠ -1
        then [(s.clientSockets i).connfd] else [])
    (hpropri : ∀ ev ∈ tr, ev.1.Riguarda s.sockfd (s.clientSockets i).connfd) :
    AStudenti (g ++ [((.servi i, s'), tr)]) s (i + 1) := by
  obtain ⟨g₀, s₀, nfds, rs, ws, pronti, ts, hg₀, hts, hs, hl, rfl⟩ := h
  exact ⟨g₀, s₀, nfds, rs, ws, pronti, _, hg₀, hts.snoc hd hi hletto hpropri, hs, hl, by
    rw [List.append_assoc, List.cons_append]⟩

/-- The loop over the students begins. -/
theorem Accolta.studenti (h : Accolta g) {nfds : Int} {rs ws : List Int} {pronti : Option (List Int × List Int)}
    (hl : s.listenfd ∉ (s.conPronti pronti).readSet) :
    AStudenti (g ++ [((.accetta, s), [⟨.select nfds rs ws, pronti⟩])]) (s.conPronti pronti) 0 := by
  refine ⟨g, s, nfds, rs, ws, pronti, [], h, ⟨rfl, rfl, List.nodup_nil, ?_⟩, rfl, hl, rfl⟩
  exact fun t ht => absurd ht List.not_mem_nil

/-- A turn that passes or serves slot `i` of a round: the part that was done is one slot longer, and the
    rest waits as before. -/
theorem Parte.servi (h : Parte g (.servi i, s)) (hi : i < s.dim)
    (hdim : s'.dim = s.dim) (hread : s'.readSet = s.readSet) (hsock : s'.sockfd = s.sockfd)
    (haltri : ∀ j, i < j → s'.clientSockets j = s.clientSockets j)
    (hletto : (comando ((.servi i, s), tr)).toList =
      if (s.clientSockets i).connfd ∈ s.readSet ∧ (s.clientSockets i).connfd ≠ -1
        then [(s.clientSockets i).connfd] else [])
    (hpropri : ∀ ev ∈ tr, ev.1.Riguarda s.sockfd (s.clientSockets i).connfd) :
    Parte (g ++ [((.servi i, s), tr)]) (.servi (i + 1), s') := by
  obtain ⟨u, hu, hd, hle, hdim', hread', hsock', hslot⟩ := h
  -- slot `i` is still what it was when the loop began
  have hui : i < u.dim := by rw [← hdim']; exact hi
  have hslot_i : s.clientSockets i = u.clientSockets i := hslot i (Nat.le_refl i)
  rw [hslot_i, show s.readSet = u.readSet from hread'] at hletto
  rw [hslot_i, show s.sockfd = u.sockfd from hsock'] at hpropri
  refine ⟨u, hu.snoc hd hui hletto hpropri, hd, hui, hdim.trans hdim', hread.trans hread', hsock.trans hsock', ?_⟩
  intro j hj
  rw [haltri j hj, hslot j (Nat.le_of_succ_le hj)]

/-- **One turn**: it goes on with the round, or was the last of it. By the constructors of `Giro`, each
    of which belongs to one point of the loops. -/
theorem Parte.giro (h : Parte g (p, s)) (hd : s.Distinti) (hg : Assistito sockfd (p, s) l tr (p', s') l') :
    Parte (g ++ [((p, s), tr)]) (p', s') ∨
      (p' = .esterno ∧ Tornata (g ++ [((p, s), tr)])) := by
  have hriguarda := hg.riguarda
  have hgiro := hg.giro
  -- one case for each thing a turn can do: it goes on with its part of the round, or ends it
  cases hgiro with
  | esterno =>
    obtain rfl : g = [] := h
    exact Or.inl ⟨s, [], rfl, fun t ht => absurd ht List.not_mem_nil⟩
  | nessuna hl hfermo =>
    have haccolta : Accolta g := h
    refine Or.inl ⟨s.conPronti _, haccolta.studenti hl, hd, Nat.zero_le _, rfl, rfl, rfl, fun _ _ => rfl⟩
  | fallita hdim hneg hfermo =>
    have haccolta : Accolta g := h
    exact Or.inl (haccolta.snoc (List.mem_cons_of_mem _ List.mem_cons_self))
  | accettata =>
    have haccolta : Accolta g := h
    exact Or.inl (haccolta.snoc (List.mem_cons_of_mem _ List.mem_cons_self))
  | @passata _ i hi hn =>
    refine Or.inl (h.servi hi rfl rfl rfl (fun _ _ => rfl) ?_ (hriguarda i rfl))
    rw [if_neg fun hc => hn ⟨hi, hc⟩]
    rfl
  | @servita _ i r tr _ hi h3 hfermo hferme =>
    refine Or.inl (h.servi hi.1 rfl rfl rfl (fun _ _ => rfl) ?_ (hriguarda i rfl))
    rw [if_pos hi.2]
    rfl
  | @uscita _ i r _ hi h3 hfermo =>
    refine Or.inl (h.servi hi.1 rfl rfl rfl (fun j hj => ?_) ?_ (hriguarda i rfl))
    · exact Segreteria.conSlot_altri (Nat.ne_of_gt hj)
    · rw [if_pos hi.2]
      rfl
  | @finita _ i hi =>
    obtain ⟨u, hu, -, hle, hdim, -⟩ := h
    -- the loop over the students ends when all slots were passed
    have hfine : i = u.dim := Nat.le_antisymm hle (hdim ▸ hi)
    subst hfine
    exact Or.inl ⟨g, u, s, hu, rfl⟩
  | operatore =>
    have hpercorso : Percorso g := h
    exact Or.inr ⟨rfl, g, _, hpercorso, rfl, rfl⟩

end Parte

/-! ## Every run -/

section Run

variable {C : StatoSegreteria → MossaSegreteria → Prop} {sockfd listenfd logical : Int}
  {behaviour : Buffer 4} {slots : Nat → ClientStud} {clienti : Nat → Bytes} {d : StatoSegreteria}

/-- Whole rounds, and a part of one. -/
def Rotazione (past : Passato) (q : Punto × Segreteria) : Prop :=
  ∃ (tornate : List Passato) (parte : Passato), past = tornate.flatten ++ parte ∧ (∀ g ∈ tornate, Tornata g) ∧ Parte parte q

/-- One turn goes on with the last round, or completes it. The step lemma of the run: `Parte.giro` says
    how, here it is counted. -/
theorem Rotazione.giro {past : Passato} {q q' : Punto × Segreteria} {tr : List Evento} {l l' : LatoSegreteria}
    (h : Rotazione past q) (hd : q.2.Distinti) (hg : Assistito sockfd q l tr q' l') :
    Rotazione (past ++ [(q, tr)]) q' := by
  obtain ⟨tornate, parte, rfl, htornate, hparte⟩ := h
  obtain ⟨p', s'⟩ := q'
  rcases hparte.giro hd hg with hparte' | ⟨rfl, htornata⟩
  · exact ⟨tornate, _, by rw [List.append_assoc], htornate, hparte'⟩
  · refine ⟨tornate ++ [parte ++ [(q, tr)]], [], ?_, fun g hg => ?_, rfl⟩
    · rw [List.flatten_append, List.flatten_singleton, List.append_nil, List.append_assoc]
    · rcases List.mem_append.mp hg with hg | hg
      · exact htornate g hg
      · rw [List.mem_singleton.mp hg]
        exact htornata

/-- **Every run is whole rounds and a part of one**, whatever `select` reports, the students send and
    the operator types. There is no condition on the moves: `accept` may fail, and reads may be cut
    anywhere. -/
theorem rotazione (hd : Solo.Reach (sportello sockfd) (fun _ _ => True)
    (apertura sockfd listenfd behaviour logical slots clienti) d) : Rotazione d.past d.turn := by
  have hgiro : ∀ (past : Passato) (q : Punto × Segreteria) (l : LatoSegreteria) tr q' l',
      Tavola (fun _ => True) sockfd listenfd past q.2 l ∧ Rotazione past q → True → Assistito sockfd q l tr q' l' →
      Solo.Answered (fun (_ : Vista₁) _ _ => True) tr →
      Tavola (fun _ => True) sockfd listenfd (past ++ [(q, tr)]) q'.2 l' ∧ Rotazione (past ++ [(q, tr)]) q' := by
    rintro past ⟨p, s⟩ l tr ⟨p', s'⟩ l' ⟨ht, hr⟩ - hg -
    exact ⟨ht.giro hg.giro fun _ _ _ _ => trivial, hr.giro ht.distinti hg⟩
  have h0 : Rotazione [] (.esterno, Segreteria.iniziale sockfd listenfd behaviour logical slots) :=
    ⟨[], [], rfl, fun _ h => absurd h List.not_mem_nil, rfl⟩
  obtain ⟨l, ⟨-, h⟩, -⟩ := Solo.Reach.inside (A := fun _ _ _ _ _ => True) (B := fun _ _ _ => True)
    (I := fun past q l => Tavola (fun _ => True) sockfd listenfd past q.2 l ∧ Rotazione past q)
    safe_assistito (fun _ _ _ _ => trivial) (fun _ _ _ _ => trivial)
    ⟨tavola_iniziale behaviour logical slots, h0⟩ trivial hgiro hd
  exact h

end Run

/-! ## One run -/

/-- Two rounds: a student is let in in the first, and logs out in the second. -/
theorem rotazione_due : ∃ d : StatoSegreteria,
    Solo.Reach (sportello 3) (fun _ _ => True) (aperturaDi (Buffer.ofInt 3).bytes) d ∧ d.turn.1 = .esterno ∧ comandi d.past = [6] ∧
    (d.past.filter fun t => t.1.1 = .operatore).length = 2 ∧ Rotazione d.past d.turn := by
  have hrun : ((sportello 3).run (fun _ _ => true) (aperturaDi (Buffer.ofInt 3).bytes)
      (entrato ++ uscito ++ [.turn])).map (fun d =>
        (d.turn.1, comandi d.past, (d.past.filter fun t => t.1.1 = .operatore).length)) =
      some (.esterno, [6], 2) := by decide +kernel
  obtain ⟨d, hd, heq⟩ := Option.map_eq_some_iff.mp hrun
  obtain ⟨hturno, heq⟩ := Prod.mk.inj heq
  obtain ⟨hcomandi, htornate⟩ := Prod.mk.inj heq
  have hreach : Solo.Reach (sportello 3) (fun _ _ => True) (aperturaDi (Buffer.ofInt 3).bytes) d :=
    Solo.reach_run (fun _ _ _ => trivial) _ .init hd
  exact ⟨d, hreach, hturno, hcomandi, htornate, rotazione hreach⟩

end Universita

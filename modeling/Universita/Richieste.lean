/-
  PENDING REQUESTS — what becomes of them while connections are accepted.

  An iteration of the outer loop copies `master_set` into the two sets once; then each turn of the loop
  that accepts connections calls `select` on what the last one left of them, while `master_set`, `max_fd`
  and the table grow.  A student who had sent a request before the iteration began must survive all these
  calls in the read set, and one who was let in during it must not be served from it, since nothing was
  ever reported about it.

  The world is one in which `select` succeeds and keeps exactly what is readable below its first argument, and a
  descriptor stays readable until somebody reads from it; when each becomes so is a parameter.

  The crux is that nobody reads from a student in the accepting loop: the only reads there are those of a login, on a
  descriptor that was closed before and is therefore none of `master_set` (`Aperte`).  So what is in the read set at the
  start stays readable, and each `select` keeps it.  The loop over the students then reads once from each slot
  that is left, and slots have different descriptors.

  Contents:
  1. `LatoPronto`, `ufficio` — the world: `select` keeps the readable descriptors below its first argument,
     and a descriptor stays readable until it is read from.
  2. `Aperte` — in every state the members of `master_set` are open.
  3. `Accettazione`, `Servizio` — the two loops of an iteration: what the read set still has, and from whom
     a command was read.
  4. `InGiro` — the invariant from the beginning of an iteration on; `Mantenute` — what it says.
  5. **`richieste_mantenute`** — every live student that was readable when the iteration began has one
     command read in it, and no student that it let in has any.
-/
import Universita.Descrittori

set_option linter.unusedVariables false

namespace Universita

open Lib

/-! ## The world -/

/-- The secretary's side, the descriptors known to be readable, and those that will have become so at each
    `select` to come. -/
structure LatoPronto where
  /-- The table of descriptors and the streams. -/
  lato : LatoSegreteria
  /-- What `select` was already told about and nobody has read from since. -/
  leggibili : List Int
  /-- What becomes readable with each `select` to come. -/
  arrivi : Nat → List Int

/-- What is readable at the next `select`. -/
def LatoPronto.pronti (e : LatoPronto) : List Int := e.leggibili ++ e.arrivi 0

/-- The call takes from `fd` what made it readable. -/
def Sys.Consuma (fd : Int) : Sys → Bool
  | .read f _ | .accept f | .close f => f = fd
  | _ => false

/-- `select` succeeds and reduces each set to its ready members below the first argument; any other call
    is answered as before, and takes its own descriptor from what is readable. -/
def LatoPronto.ammette (sockfd : Int) (e : LatoPronto) : (o : Sys) → o.Ans → Option LatoPronto
  | .select nfds rs ws, pronti => match pronti with
    | none => none
    | some (r, w) =>
      if r = rs.filter (fun fd => fd < nfds ∧ fd ∈ e.pronti) ∧ w ⊆ ws.filter (· < nfds) then
        some { e with leggibili := e.pronti, arrivi := fun k => e.arrivi (k + 1) }
      else none
  | o, r => (e.lato.ammette sockfd o r).map fun lato =>
      { e with lato, leggibili := e.leggibili.filter fun fd => !o.Consuma fd }

/-- The secretary, in such a world. -/
def ufficio (sockfd : Int) : Solo Sys Sys.Ans (Punto × Segreteria) LatoPronto where
  body := Segreteria.passo
  ans e o r := e.ammette sockfd o r

/-- A state of such a run. -/
abbrev StatoUfficio := Solo.State Sys Sys.Ans (Punto × Segreteria) LatoPronto

/-- What a turn sees in it. -/
abbrev VistaUfficio := Solo.View Sys Sys.Ans LatoPronto

/-- The start: nothing accepted yet; the students' streams, and when they can be read, as given. -/
def ufficioAperto (sockfd listenfd : Int) (behaviour : Buffer 4) (logical : Int)
    (slots : Nat → ClientStud)
    (clienti : Nat → Bytes) (arrivi : Nat → List Int) : StatoUfficio :=
  (ufficio sockfd).start (.esterno, Segreteria.iniziale sockfd listenfd behaviour logical slots)
    ⟨⟨clienti, 0, fun _ => none, fun _ => none, [], []⟩, [], arrivi⟩

section Mondo

variable {sockfd : Int} {e e' : LatoPronto}

/-- `select` reports the members of the read set that are readable and below its first argument, and
    consumes nothing. -/
theorem ammette_select {nfds : Int} {rs ws : List Int} {pronti : Option (List Int × List Int)}
    (h : e.ammette sockfd (.select nfds rs ws) pronti = some e') :
    ∃ w, pronti = some (rs.filter (fun fd => fd < nfds ∧ fd ∈ e.pronti), w) ∧ w ⊆ ws ∧
      e' = { e with leggibili := e.pronti, arrivi := fun k => e.arrivi (k + 1) } := by
  cases pronti with
  | none => cases h
  | some p =>
    obtain ⟨r, w⟩ := p
    change (if _ ∧ _ then _ else _) = some e' at h
    split at h
    · rename_i hrw
      exact ⟨w, by rw [hrw.1], fun fd hfd => List.mem_of_mem_filter (hrw.2 hfd), (Option.some.inj h).symm⟩
    · cases h

/-- Any other call is answered as before, and takes its own descriptor from what is readable. -/
theorem ammette_altro {o : Sys} {r : o.Ans} (ho : ∀ n rs ws, o ≠ .select n rs ws)
    (h : e.ammette sockfd o r = some e') : e.lato.ammette sockfd o r = some e'.lato ∧
      e'.leggibili = e.leggibili.filter (fun fd => !o.Consuma fd) ∧ e'.arrivi = e.arrivi := by
  have heq : (e.lato.ammette sockfd o r).map (fun lato =>
      { e with lato, leggibili := e.leggibili.filter fun fd => !o.Consuma fd }) = some e' := by
    cases o with
    | select n rs ws => exact absurd rfl (ho n rs ws)
    | _ => exact h
  obtain ⟨lato, hl, rfl⟩ := Option.map_eq_some_iff.mp heq
  exact ⟨hl, rfl, rfl⟩

/-- The secretary's side is as in the world without readiness. -/
theorem ammette_lato {o : Sys} {r : o.Ans} (h : e.ammette sockfd o r = some e') :
    e.lato.ammette sockfd o r = some e'.lato := by
  by_cases ho : ∃ n rs ws, o = .select n rs ws
  · obtain ⟨n, rs, ws, rfl⟩ := ho
    obtain ⟨w, rfl, hw, rfl⟩ := ammette_select h
    have hsub : sottoinsiemi rs ws (some (rs.filter (fun fd => fd < n ∧ fd ∈ e.pronti), w)) = true :=
      decide_eq_true ⟨List.filter_subset_self _, hw⟩
    exact if_pos hsub
  · exact (ammette_altro (fun n rs ws heq => ho ⟨n, rs, ws, heq⟩) h).1

/-- What nobody takes from stays readable, and `select` itself takes from nobody: bytes that have come
    do not go away. -/
theorem pronti_resta {o : Sys} {r : o.Ans} {fd : Int} (h : e.ammette sockfd o r = some e')
    (ho : o.Consuma fd = false) (hfd : fd ∈ e.pronti) : fd ∈ e'.pronti := by
  by_cases hsel : ∃ n rs ws, o = .select n rs ws
  · obtain ⟨n, rs, ws, rfl⟩ := hsel
    obtain ⟨w, -, -, rfl⟩ := ammette_select h
    exact List.mem_append_left _ hfd
  · obtain ⟨-, hl, ha⟩ := ammette_altro (fun n rs ws heq => hsel ⟨n, rs, ws, heq⟩) h
    rw [LatoPronto.pronti, hl, ha, List.mem_append]
    rcases List.mem_append.mp hfd with hfd | hfd
    · exact Or.inl (List.mem_filter.mpr ⟨hfd, by rw [ho]; rfl⟩)
    · exact Or.inr hfd

/-- A turn does the same as in the world without readiness: what `select` may report there is more, and
    every turn of this world is one of that. -/
theorem safe_giro_ufficio (q : Punto × Segreteria) (e : LatoPronto) :
    (Segreteria.passo q).Safe ((ufficio sockfd).answers fun _ _ _ => True) (fun _ _ => True)
      (fun q' v => Giro sockfd e.lato q v.1 q' v.2.lato) ([], e) :=
  Prog.Safe.comap (T := Risposte sockfd) (P := fun _ _ => True)
    (Q := fun q' v => Giro sockfd e.lato q v.1 q' v.2) (f := fun v : VistaUfficio => (v.1, v.2.lato))
    (fun v o r v' h => ⟨ammette_lato h.1, h.2.1, trivial⟩) (safe_giro q e.lato)

end Mondo

/-! ## What an iteration accepts -/

section Accetta

variable {sockfd : Int} {e : LatoPronto}

/-- A login takes only from the connection it is about, which was closed before the turn began. -/
theorem Segreteria.presa_accesso (s : Segreteria) :
    s.accesso.Only (fun _ _ => True) (fun o => ∀ fd ≠ (s.clientSockets s.dim).connfd, o.Consuma fd = false)
      fun s' => s'.readSet = s.readSet := by
  -- the login reads from the new connection only
  have hread : ∀ n, ∀ fd ≠ (s.clientSockets s.dim).connfd,
      (Sys.read (s.clientSockets s.dim).connfd n).Consuma fd = false := fun n fd hfd =>
    decide_eq_false hfd.symm
  refine Prog.only_call.mpr ⟨hread 4, fun m _ => Prog.only_call.mpr ⟨hread 255, fun pw _ => ?_⟩⟩
  refine Prog.only_call.mpr ⟨fun _ _ => rfl, fun _ _ => ?_⟩
  have hpw : (cString (s.password.overlay pw)).Only (fun _ _ => True)
      (fun o => ∀ fd ≠ (s.clientSockets s.dim).connfd, o.Consuma fd = false) fun _ => True := by
    rw [cString]
    split
    · trivial
    · exact Prog.only_call.mpr ⟨fun _ _ => rfl, fun _ _ => trivial⟩
  refine (Prog.only_bind (cString _) _ _).mpr (hpw.mono fun testo _ => ?_)
  refine Prog.only_call.mpr ⟨fun _ _ => rfl,
    fun _ _ => Prog.only_call.mpr ⟨fun _ _ => rfl, fun res _ => ?_⟩⟩
  cases res with
  | none => exact Prog.only_call.mpr ⟨fun _ _ => rfl, fun r => r.elim⟩
  | some rows =>
    show Prog.Only _ _ (if rows.length % 2 ^ 32 ≠ 1 then _ else _) _
    split
    · exact Prog.only_call.mpr ⟨fun _ _ => rfl, fun _ _ => rfl⟩
    · exact Prog.only_call.mpr ⟨fun _ _ => rfl, fun _ _ => rfl⟩

/-- **A turn of the accepting loop** leaves of the read set what is readable below `max_fd + 1`, and
    takes from nobody whose connection was open. When it ends the loop, that is what `select` has
    reported. -/
theorem Segreteria.presa_accetta (s : Segreteria) :
    s.accetta.Safe ((ufficio sockfd).answers fun _ _ _ => True) (fun _ _ => True)
      (fun q v => q.2.readSet = s.readSet.filter (fun fd => fd < s.maxFd + 1 ∧ fd ∈ e.pronti) ∧
        (∀ fd ≠ s.listenfd, e.lato.descrittori fd ≠ none → fd ∈ e.pronti → fd ∈ v.2.pronti) ∧
        (q.1 = .servi 0 → ∃ nfds rs ws w, ⟨.select nfds rs ws, some (q.2.readSet, w)⟩ ∈ v.1))
          ([], e) := by
  refine ⟨trivial, fun pronti v₁ h₁ => ?_⟩
  have hsel : e.ammette sockfd (.select (s.maxFd + 1) s.readSet s.writeSet) pronti = some v₁.2 := h₁.1
  obtain ⟨w, hpr, hw, he₁⟩ := ammette_select hsel
  have hread : (s.conPronti pronti).readSet = s.readSet.filter (fun fd => fd < s.maxFd + 1 ∧ fd ∈ e.pronti) := by
    rw [hpr]
    rfl
  have hpronti : ∀ fd ∈ e.pronti, fd ∈ v₁.2.pronti := fun fd hfd => pronti_resta hsel rfl hfd
  have hlato : v₁.2.lato = e.lato := by rw [he₁]
  show Prog.Safe _ _ (if s.listenfd ∈ (s.conPronti pronti).readSet then _ else _) _ _
  split
  · show Prog.Safe _ _ (if s.dim < 4096 then _ else _) _ _
    split
    · refine ⟨trivial, fun connfd v₂ h₂ => ?_⟩
      have haccept : v₁.2.ammette sockfd (.accept s.listenfd) connfd = some v₂.2 := h₂.1
      obtain ⟨hacc, -⟩ := ammette_altro (o := .accept s.listenfd) nofun haccept
      -- what `accept` returns was closed before
      have hnuovo : ∀ fd, e.lato.descrittori fd ≠ none → fd ≠ connfd := by
        rintro fd hfd rfl
        obtain ⟨-, -, hnone, -⟩ := LatoSegreteria.ammette_accept hacc
        exact hfd (hlato ▸ hnone)
      have hpronti₂ : ∀ fd ≠ s.listenfd, fd ∈ e.pronti → fd ∈ v₂.2.pronti := fun fd hl hfd =>
        pronti_resta haccept (decide_eq_false hl.symm) (hpronti fd hfd)
      show Prog.Safe _ _ (if connfd < 0 then _ else _) _ _
      split
      · exact ⟨hread, fun fd hl _ => hpronti₂ fd hl, nofun⟩
      · -- from here on only the new connection is read from
        refine (Prog.safe_bind (Segreteria.accesso _) _ _ _).mpr ?_
        refine (Prog.Only.safe (K := fun v : VistaUfficio => ∀ fd ≠ s.listenfd, e.lato.descrittori fd ≠ none →
          fd ∈ e.pronti → fd ∈ v.2.pronti) (Segreteria.presa_accesso _) (fun _ _ _ _ => trivial)
          (fun v o r v' hv ho hr => ⟨trivial, fun fd hl hfd hp => ?_⟩)
          fun fd hl _ => hpronti₂ fd hl).mono fun s' v hv => ⟨hv.1.trans hread, hv.2, nofun⟩
        have hans : v.2.ammette sockfd o r = some v'.2 := hr.1
        refine pronti_resta hans (ho fd ?_) (hv fd hl hfd hp)
        show fd ≠ (Function.update s.clientSockets s.dim _ s.dim).connfd
        rw [Function.update_self]
        exact hnuovo fd hfd
    · exact ⟨trivial, nofun⟩
  · refine ⟨hread, fun fd _ _ => hpronti fd, fun _ => ⟨s.maxFd + 1, s.readSet, s.writeSet, w, ?_⟩⟩
    rw [h₁.2.1, hread, hpr]
    exact List.mem_append_right _ (List.mem_singleton_self _)

end Accetta

/-! ## Open descriptors -/

section Aperte

variable {sockfd listenfd : Int} {s s' : Segreteria} {l l' : LatoSegreteria} {p p' : Punto} {tr : List Evento}

/-- The members of `master_set`, but for the two sockets, are open. So `accept` never returns one of
    them, and a login reads from none. -/
def Aperte (sockfd listenfd : Int) (s : Segreteria) (l : LatoSegreteria) : Prop :=
  ∀ fd ∈ s.masterSet, fd = listenfd ∨ fd = sockfd ∨ l.descrittori fd ≠ none

/-- At the start there are the two sockets alone. -/
theorem aperte_iniziale (behaviour : Buffer 4) (logical : Int) (slots : Nat → ClientStud) :
    Aperte sockfd listenfd (Segreteria.iniziale sockfd listenfd behaviour logical slots) l := by
  intro fd hfd
  rcases List.mem_cons.mp hfd with rfl | hfd
  · exact Or.inl rfl
  · exact Or.inr (Or.inl (List.mem_singleton.mp hfd))

/-- A turn that touches neither the set nor a descriptor. -/
theorem Aperte.resta (h : Aperte sockfd listenfd s l) (hmaster : s'.masterSet = s.masterSet)
    (hl : l'.descrittori = l.descrittori) : Aperte sockfd listenfd s' l' := by
  intro fd hfd
  rw [hl]
  exact h fd (hmaster ▸ hfd)

/-- Every turn keeps it: a login adds one that `accept` has just opened, a logout removes the one it
    closes. -/
theorem Aperte.giro (h : Aperte sockfd listenfd s l) (hg : Giro sockfd l (p, s) tr (p', s') l') :
    Aperte sockfd listenfd s' l' := by
  cases hg with
  | esterno => exact h.resta rfl rfl
  | nessuna hl hd => exact h.resta rfl hd
  | fallita hdim hneg hd => exact h.resta rfl hd
  | @accettata _ _ nfds rs ws pronti connfd c m pw _ _ rows _ hdim hpos hs hl hnone hd =>
    intro fd hfd
    have hfd : fd ∈ fdSet connfd s.masterSet := hfd
    rw [hd]
    -- the new descriptor is open; the others were, and no other one is opened or closed
    rcases mem_fdSet.mp hfd with rfl | hfd
    · rw [Function.update_self]
      exact Or.inr (Or.inr (Option.some_ne_none _))
    · exact (h fd hfd).imp_right (Or.imp_right aperto_update)
  | passata hi hn => exact h
  | servita hi h3 hd => exact h.resta rfl hd
  | uscita hi h3 hd =>
    intro fd hfd
    obtain ⟨hfd, hne⟩ := mem_fdClr.mp hfd
    rw [hd, Function.update_of_ne hne]
    exact h fd hfd
  | finita hi => exact h
  | operatore hd => exact h.resta rfl hd

end Aperte

/-! ## An iteration -/

/-- Whom a turn has read a command from: the first call of a turn that serves a student reads it. -/
def comando (t : (Punto × Segreteria) × List Evento) : Option Int :=
  match t.1.1, t.2 with
  | .servi _, ⟨.read fd _, _⟩ :: _ => some fd
  | _, _ => none

/-- Whom commands were read from, in their order. -/
def comandi (ts : Passato) : List Int := ts.filterMap comando

/-- A `select` of the turns `ts` has reported `fd` readable. -/
def Riferito (ts : Passato) (fd : Int) : Prop :=
  ∃ t ∈ ts, ∃ nfds rs ws r w, ⟨.select nfds rs ws, some (r, w)⟩ ∈ t.2 ∧ fd ∈ r

theorem Riferito.snoc {ts : Passato} {fd : Int} (h : Riferito ts fd)
    (t : (Punto × Segreteria) × List Evento) : Riferito (ts ++ [t]) fd := by
  obtain ⟨u, hu, h⟩ := h
  exact ⟨u, List.mem_append_left _ hu, h⟩

/-- What the loop over the students reads from the slots below `i`, when the read set is `rs`. -/
def serviti (slots : Nat → ClientStud) (rs : List Int) (i : Nat) : List Int :=
  (List.range i).filterMap fun j =>
    if (slots j).connfd ∈ rs ∧ (slots j).connfd ≠ -1 then some (slots j).connfd else none

/-- One turn more, one command at most. -/
theorem comandi_snoc (ts : Passato) (t : (Punto × Segreteria) × List Evento) :
    comandi (ts ++ [t]) = comandi ts ++ (comando t).toList := by
  rw [comandi, List.filterMap_append]
  cases h : comando t <;> simp [comandi, h]

theorem serviti_succ (slots : Nat → ClientStud) (rs : List Int) (i : Nat) :
    serviti slots rs (i + 1) = serviti slots rs i ++
      if (slots i).connfd ∈ rs ∧ (slots i).connfd ≠ -1 then [(slots i).connfd] else [] := by
  rw [serviti, List.range_succ, List.filterMap_append]
  split <;> simp [serviti, *]

/-- From whom something is read: the live slots below `i` that are in the read set. -/
theorem mem_serviti {slots : Nat → ClientStud} {rs : List Int} {i : Nat} {fd : Int} :
    fd ∈ serviti slots rs i ↔ ∃ j < i, (slots j).connfd = fd ∧ fd ∈ rs ∧ fd ≠ -1 := by
  rw [serviti, List.mem_filterMap]
  constructor
  · rintro ⟨j, hj, h⟩
    split at h
    · rename_i hc
      obtain rfl := Option.some.inj h
      exact ⟨j, List.mem_range.mp hj, rfl, hc⟩
    · cases h
  · rintro ⟨j, hj, rfl, hc⟩
    exact ⟨j, List.mem_range.mpr hj, if_pos hc⟩

/-- Slots with different descriptors are served once each; that they are different is part of what is
    known of the sessions. -/
theorem nodup_serviti {slots : Nat → ClientStud} {rs : List Int} : ∀ {i : Nat},
    (∀ j k, j < i → k < i → (slots j).connfd ≠ -1 → (slots j).connfd = (slots k).connfd → j = k) →
    (serviti slots rs i).Nodup
  | 0, _ => List.nodup_nil
  | i + 1, h => by
    have ih : (serviti slots rs i).Nodup := nodup_serviti fun j k hj hk =>
      h j k (Nat.lt_succ_of_lt hj) (Nat.lt_succ_of_lt hk)
    rw [serviti_succ]
    split
    · refine List.nodup_append'.mpr ⟨ih, List.nodup_singleton _, ?_⟩
      intro fd hfd hi
      obtain ⟨j, hj, heq, -, hne⟩ := mem_serviti.mp hfd
      rw [List.mem_singleton] at hi
      have hji := h j i (Nat.lt_succ_of_lt hj) (Nat.lt_succ_self i) (heq ▸ hne) (heq.trans hi)
      exact absurd hji (Nat.ne_of_lt hj)
    · rw [List.append_nil]
      exact ih

section Iterazione

variable {sockfd listenfd : Int} {s₀ s s' : Segreteria} {R : List Int} {iter past : Passato} {e e' : LatoPronto}
  {tr : List Evento} {p p' : Punto} {i : Nat}

/-- In the loop that accepts connections, after the turns `iter` of an iteration that began with `s₀`,
    when `R` was readable. The table has grown, and nothing that was there has changed. -/
structure Accettazione (s₀ : Segreteria) (R : List Int) (iter : Passato) (s : Segreteria) (e : LatoPronto) :
    Prop where
  /-- The slots that were in use are as they were ... -/
  vecchi : ∀ j < s₀.dim, s.clientSockets j = s₀.clientSockets j
  /-- ... others may have been added behind them ... -/
  dim_le : s₀.dim ≤ s.dim
  /-- ... nobody has left `master_set` ... -/
  master : ∀ fd ∈ s₀.masterSet, fd ∈ s.masterSet
  /-- ... and the new ones have descriptors it did not have. -/
  nuovi : ∀ j, s₀.dim ≤ j → j < s.dim → (s.clientSockets j).connfd ∉ s₀.masterSet
  /-- The read set has only members it had at the start ... -/
  sotto : ∀ fd ∈ s.readSet, fd ∈ s₀.masterSet
  /-- ... among them everybody who was readable then, and who still is ... -/
  attesi : ∀ j, s₀.Vivo j → (s₀.clientSockets j).connfd ∈ R →
    (s₀.clientSockets j).connfd ∈ s.readSet ∧ (s₀.clientSockets j).connfd ∈ e.pronti
  /-- ... since no command was read yet. -/
  presi : comandi iter = []

/-- In the loop over the students, at student `i`; `slots` was the table when it began. `presi` says
    exactly from whom something was read, and is what the result is about. -/
structure Servizio (s₀ : Segreteria) (R : List Int) (slots : Nat → ClientStud) (iter : Passato) (s : Segreteria)
    (i : Nat) : Prop where
  /-- The slots that were in use are as they were ... -/
  vecchi : ∀ j < s₀.dim, slots j = s₀.clientSockets j
  /-- ... others may have been added behind them ... -/
  dim_le : s₀.dim ≤ s.dim
  /-- ... with descriptors that were not in `master_set`. -/
  nuovi : ∀ j, s₀.dim ≤ j → j < s.dim → (slots j).connfd ∉ s₀.masterSet
  /-- The read set has only members from before ... -/
  sotto : ∀ fd ∈ s.readSet, fd ∈ s₀.masterSet
  /-- ... among them everybody who was readable. -/
  attesi : ∀ j, s₀.Vivo j → (s₀.clientSockets j).connfd ∈ R → (s₀.clientSockets j).connfd ∈ s.readSet
  /-- No two live slots have one descriptor ... -/
  distinti : ∀ j k, j < s.dim → k < s.dim → (slots j).connfd ≠ -1 →
    (slots j).connfd = (slots k).connfd → j = k
  /-- ... and a `select` has reported each member. -/
  riferiti : ∀ fd ∈ s.readSet, Riferito iter fd
  /-- The loop is inside the slots in use ... -/
  le_dim : i ≤ s.dim
  /-- ... those it has still to come to are untouched ... -/
  resta : ∀ j, i ≤ j ∨ s₀.dim ≤ j → j < s.dim → s.clientSockets j = slots j
  /-- ... and from those behind it exactly the ready ones were read. -/
  presi : comandi iter = serviti slots s.readSet i

/-- A turn that serves slot `i`, or passes it: one command from its descriptor if it is in the read set,
    and none otherwise. -/
theorem Servizio.giro {slots : Nat → ClientStud} (h : Servizio s₀ R slots iter s i)
    {l l' : LatoSegreteria} (hg : Giro sockfd l (.servi i, s) tr (p', s') l') :
    (p' = .servi (i + 1) ∧ Servizio s₀ R slots (iter ++ [((.servi i, s), tr)]) s' (i + 1)) ∨
      (p' = .operatore ∧ s' = s ∧ s.dim ≤ i ∧ (∀ fd ∈ s.readSet, Riferito (iter ++ [((.servi i, s), tr)]) fd) ∧
        comandi (iter ++ [((.servi i, s), tr)]) = comandi iter) := by
  have hserv : ∀ r tr, s.Servito i → comandi (iter ++ [((.servi i, s),
      ⟨.read (s.clientSockets i).connfd 4, r⟩ :: tr)]) = serviti slots s.readSet (i + 1) := by
    intro r tr hi
    rw [h.resta i (Or.inl (Nat.le_refl i)) hi.1, comandi_snoc, h.presi, serviti_succ, if_pos]
    · rfl
    · exact h.resta i (Or.inl (Nat.le_refl i)) hi.1 ▸ hi.2
  have hriferiti : ∀ fd ∈ s.readSet, Riferito (iter ++ [((.servi i, s), tr)]) fd := fun fd hfd =>
    (h.riferiti fd hfd).snoc _
  cases hg with
  | passata hi hn =>
    refine Or.inl ⟨rfl, h.vecchi, h.dim_le, h.nuovi, h.sotto, h.attesi, h.distinti, hriferiti, hi, ?_, ?_⟩
    · rintro j (hj | hj)
      · exact h.resta j (Or.inl (Nat.le_of_succ_le hj))
      · exact h.resta j (Or.inr hj)
    · rw [comandi_snoc, h.presi, serviti_succ, ← h.resta i (Or.inl (Nat.le_refl i)) hi, if_neg]
      · rfl
      · exact fun hc => hn ⟨hi, hc⟩
  | servita hi h3 hd hferme =>
    refine Or.inl ⟨rfl, h.vecchi, h.dim_le, h.nuovi, h.sotto, h.attesi, h.distinti, hriferiti, hi.1, ?_,
      hserv _ _ hi⟩
    rintro j (hj | hj)
    · exact h.resta j (Or.inl (Nat.le_of_succ_le hj))
    · exact h.resta j (Or.inr hj)
  | @uscita _ i r _ hi h3 hd =>
    -- the slot that is freed is one of the old ones: the new ones are not in the read set
    have hvecchio : i < s₀.dim := by
      by_contra hle
      have hnuovo := h.nuovi i (Nat.le_of_not_lt hle) hi.1
      rw [← h.resta i (Or.inl (Nat.le_refl i)) hi.1] at hnuovo
      exact hnuovo (h.sotto _ hi.2.1)
    refine Or.inl ⟨rfl, h.vecchi, h.dim_le, h.nuovi, h.sotto, h.attesi, h.distinti, hriferiti, hi.1, ?_,
      hserv _ _ hi⟩
    intro j hj hlt
    have hne : j ≠ i := by
      rintro rfl
      rcases hj with hj | hj
      · exact absurd hj (Nat.not_succ_le_self j)
      · exact absurd hvecchio (Nat.not_lt.mpr hj)
    exact (Segreteria.conSlot_altri hne).trans (h.resta j (hj.imp Nat.le_of_succ_le id) hlt)
  | finita hi =>
    refine Or.inr ⟨rfl, rfl, hi, hriferiti, ?_⟩
    rw [comandi_snoc]
    exact List.append_nil _

/-- A turn that accepts a connection, or finds none waiting. In the second case the loop over the
    students begins, and what was expected is what `select` has just reported. -/
theorem Accettazione.giro {l l' : LatoSegreteria} (h : Accettazione s₀ R iter s e)
    (ht : Tavola (fun _ => True) sockfd listenfd past s l) (ha : Aperte sockfd listenfd s l)
    (hg : Giro sockfd l (.accetta, s) tr (p', s') l')
    (hread : s'.readSet = s.readSet.filter fun fd => fd < s.maxFd + 1 ∧ fd ∈ e.pronti)
    (hpronti : ∀ fd ≠ s.listenfd, l.descrittori fd ≠ none → fd ∈ e.pronti → fd ∈ e'.pronti)
    (hselect : p' = .servi 0 → ∃ nfds rs ws w, ⟨.select nfds rs ws, some (s'.readSet, w)⟩ ∈ tr) :
    (p' = .accetta ∧ Accettazione s₀ R (iter ++ [((.accetta, s), tr)]) s' e') ∨
      (p' = .servi 0 ∧ Servizio s₀ R s'.clientSockets (iter ++ [((.accetta, s), tr)]) s' 0) := by
  have hsotto : ∀ fd ∈ s'.readSet, fd ∈ s₀.masterSet := fun fd hfd => by
    rw [hread] at hfd
    exact h.sotto fd (List.mem_of_mem_filter hfd)
  have hattesi : ∀ j, s₀.Vivo j → (s₀.clientSockets j).connfd ∈ R →
      (s₀.clientSockets j).connfd ∈ s'.readSet ∧ (s₀.clientSockets j).connfd ∈ e'.pronti := by
    intro j hj hR
    obtain ⟨hr, hp⟩ := h.attesi j hj hR
    have heq := h.vecchi j hj.1
    have hv := ht.viva j ⟨Nat.lt_of_lt_of_le hj.1 h.dim_le, heq ▸ hj.2⟩
    rw [heq] at hv
    refine ⟨?_, hpronti _ (ht.listenfd_eq ▸ hv.neListenfd) hv.aperta hp⟩
    rw [hread, List.mem_filter]
    exact ⟨hr, decide_eq_true ⟨Int.lt_add_one_of_le hv.leMax, hp⟩⟩
  have hpresi : comandi (iter ++ [((.accetta, s), tr)]) = [] := by
    rw [comandi_snoc, h.presi]
    rfl
  cases hg with
  | nessuna hl hd =>
    obtain ⟨n, rs, ws, w, hmem⟩ := hselect rfl
    refine Or.inr ⟨rfl, h.vecchi, h.dim_le, h.nuovi, hsotto, fun j hj hR => (hattesi j hj hR).1, ?_, ?_,
      Nat.zero_le _, fun _ _ _ => rfl, hpresi⟩
    · exact fun j k hj hk hne heq => ht.distinti j k ⟨hj, hne⟩ ⟨hk, heq ▸ hne⟩ heq
    · exact fun fd hfd => ⟨_, List.mem_append_right _ (List.mem_singleton_self _), n, rs, ws, _,
        w, hmem, hfd⟩
  | fallita hdim hneg hd =>
    refine Or.inl ⟨rfl, fun j hj => ?_, h.dim_le, h.master, fun j hj hlt => ?_, hsotto, hattesi, hpresi⟩
    · rw [Segreteria.conSlot_altri (Nat.ne_of_lt (Nat.lt_of_lt_of_le hj h.dim_le))]
      exact h.vecchi j hj
    · have hlt : j < s.dim := hlt
      rw [Segreteria.conSlot_altri (Nat.ne_of_lt hlt)]
      exact h.nuovi j hj hlt
  | @accettata _ _ _ _ _ pronti fd _ m pw _ _ rows _ hdim hpos hs hl hnone hd =>
    have haltri : ∀ j < s.dim, ((s.conPronti pronti).registrata fd m pw).clientSockets j = s.clientSockets j :=
      fun j hj => Segreteria.registrata_altri (s := s.conPronti pronti) hj
    have hself : ((s.conPronti pronti).registrata fd m pw).clientSockets s.dim = ⟨fd, m⟩ :=
      Segreteria.registrata_self (s := s.conPronti pronti)
    -- a descriptor of `master_set` is in use, and so not the one that was accepted
    have hfd : fd ∉ s₀.masterSet := fun hmem => by
      -- `accept` returns a descriptor that was free, and none of these is
      rcases ha fd (h.master fd hmem) with heq | heq | hopen
      · exact hl (ht.listenfd_eq ▸ heq)
      · exact hs heq
      · exact hopen hnone
    refine Or.inl ⟨rfl, fun j hj => ?_, ?_, ?_, fun j hj hlt => ?_, hsotto, hattesi, hpresi⟩
    · exact (haltri j (Nat.lt_of_lt_of_le hj h.dim_le)).trans (h.vecchi j hj)
    · show s₀.dim ≤ if _ then _ else _
      split
      · exact Nat.le_succ_of_le h.dim_le
      · exact h.dim_le
    · exact fun fd' hmem => mem_fdSet.mpr (Or.inr (h.master fd' hmem))
    · show (((s.conPronti pronti).registrata fd m pw).clientSockets j).connfd ∉ s₀.masterSet
      by_cases hj' : j < s.dim
      · rw [haltri j hj']
        exact h.nuovi j hj hj'
      · have hlt : j < if rows.length % 2 ^ 32 = 1 then s.dim + 1 else s.dim := hlt
        have heq : j = s.dim := by
          split at hlt
          · exact Nat.le_antisymm (Nat.le_of_lt_succ hlt) (Nat.le_of_not_lt hj')
          · exact absurd hlt hj'
        rw [heq, hself]
        exact hfd

/-- Where an iteration that began with `s₀`, when `R` was readable, is after the turns `iter`. -/
def FaseGiro (s₀ : Segreteria) (R : List Int) (iter : Passato) (q : Punto × Segreteria)
    (e : LatoPronto) : Prop :=
  match q.1 with
  | .esterno => iter = [] ∧ q.2 = s₀ ∧ e.pronti = R
  | .accetta => Accettazione s₀ R iter q.2 e
  | .servi i => ∃ slots, Servizio s₀ R slots iter q.2 i
  | .operatore => ∃ slots, Servizio s₀ R slots iter q.2 q.2.dim

/-- **The invariant** of a run that goes on from an iteration's beginning, behind `past₀`. Once the
    operator's menu is done the iteration is over, and nothing more is said of it. -/
structure InGiro (sockfd listenfd : Int) (past₀ : Passato) (s₀ : Segreteria) (R : List Int) (past : Passato)
    (q : Punto × Segreteria) (e : LatoPronto) : Prop where
  /-- The invariant of the sessions ... -/
  tavola : Tavola (fun _ => True) sockfd listenfd past q.2 e.lato
  /-- ... the open descriptors ... -/
  aperte : Aperte sockfd listenfd q.2 e.lato
  /-- ... and, until the iteration is over, where it is. -/
  fase : ∃ iter, past = past₀ ++ iter ∧ ((∀ t ∈ iter, t.1.1 ≠ .operatore) → FaseGiro s₀ R iter q e)

/-- One turn, by the four points of the loops: an iteration begins at the outer one and goes through the
    others in order. -/
theorem InGiro.passo {past₀ : Passato} {q : Punto × Segreteria}
    (h : InGiro sockfd listenfd past₀ s₀ R past q e) :
    (Segreteria.passo q).Safe ((ufficio sockfd).answers fun _ _ _ => True) (fun _ _ => True)
      (fun q' v => InGiro sockfd listenfd past₀ s₀ R (past ++ [(q, v.1)]) q' v.2) ([], e) := by
  obtain ⟨p, s⟩ := q
  obtain ⟨ht, ha, iter, hpast, hfase⟩ := h
  have htavola : ∀ {q' : Punto × Segreteria} {v : VistaUfficio},
    Giro sockfd e.lato (p, s) v.1 q' v.2.lato →
      Tavola (fun _ => True) sockfd listenfd (past ++ [((p, s), v.1)]) q'.2 v.2.lato ∧
        Aperte sockfd listenfd q'.2 v.2.lato := fun hg =>
    ⟨ht.giro hg fun _ _ _ _ => trivial, ha.giro hg⟩
  have hsnoc : ∀ tr, past ++ [((p, s), tr)] = past₀ ++ (iter ++ [((p, s), tr)]) := fun tr => by
    rw [hpast, List.append_assoc]
  have hprima : ∀ {tr}, (∀ t ∈ iter ++ [((p, s), tr)], t.1.1 ≠ .operatore) →
      FaseGiro s₀ R iter (p, s) e := fun hno => hfase fun t hmem => hno t (List.mem_append_left _ hmem)
  have hgiro : (Segreteria.passo (p, s)).Safe ((ufficio sockfd).answers fun _ _ _ => True) (fun _ _ => True)
      (fun q' v => Giro sockfd e.lato (p, s) v.1 q' v.2.lato) ([], e) := safe_giro_ufficio (p, s) e
  cases p with
  | esterno =>
    obtain ⟨htav, hap⟩ := htavola (v := ([], e)) (Giro.esterno s)
    refine ⟨htav, hap, _, hsnoc [], fun hno => ?_⟩
    obtain ⟨rfl, hs, hR⟩ := hprima hno
    obtain rfl : s = s₀ := hs
    have hviva : ∀ j, s.Vivo j → (s.clientSockets j).connfd ∈ s.masterSet :=
      fun j hj => (ht.viva j hj).inMaster
    -- the read set is `master_set` itself
    refine ⟨fun _ _ => rfl, Nat.le_refl _, fun _ hm => hm, fun j hj hlt => ?_, fun _ hm => hm,
      fun j hj hmem => ⟨hviva j hj, hR ▸ hmem⟩, rfl⟩
    exact absurd hlt (Nat.not_lt.mpr hj)
  | accetta =>
    refine (hgiro.and (W := fun _ _ => True) (Segreteria.presa_accetta s)).weaken
      (fun _ _ _ => trivial) |>.mono ?_
    rintro ⟨p', s'⟩ v ⟨hg, hread, hpronti, hselect⟩
    refine ⟨(htavola hg).1, (htavola hg).2, _, hsnoc v.1, fun hno => ?_⟩
    rcases (hprima hno : Accettazione s₀ R iter s e).giro ht ha hg hread hpronti hselect with ⟨rfl,
      hacc⟩ | ⟨rfl, hserv⟩
    · exact hacc
    · exact ⟨_, hserv⟩
  | servi i =>
    refine hgiro.mono ?_
    rintro ⟨p', s'⟩ v hg
    refine ⟨(htavola hg).1, (htavola hg).2, _, hsnoc v.1, fun hno => ?_⟩
    obtain ⟨slots, hserv⟩ := hprima hno
    rcases hserv.giro hg with ⟨rfl, hserv'⟩ | ⟨rfl, rfl, hi, hriferiti, hpresi⟩
    · exact ⟨slots, hserv'⟩
    · obtain rfl : i = s'.dim := Nat.le_antisymm hserv.le_dim hi
      exact ⟨slots, { hserv with riferiti := hriferiti, presi := hpresi.trans hserv.presi }⟩
  | operatore =>
    refine hgiro.mono ?_
    rintro ⟨p', s'⟩ v hg
    refine ⟨(htavola hg).1, (htavola hg).2, _, hsnoc v.1, fun hno => ?_⟩
    exact absurd rfl (hno _ (List.mem_append_right _ (List.mem_singleton_self _)))

/-- What becomes, in an iteration that began with `s₀`, of the requests that were pending then (`R`):
    `iter` are the turns done in it, and `q` the next. -/
structure Mantenute (s₀ : Segreteria) (R : List Int) (iter : Passato) (q : Punto × Segreteria) : Prop where
  /-- In the loop over the students everybody who was readable at the start is in the read set ... -/
  attesi : ∀ i, q.1 = .servi i → ∀ j, s₀.Vivo j → (s₀.clientSockets j).connfd ∈ R →
    (s₀.clientSockets j).connfd ∈ q.2.readSet
  /-- ... and nobody who was not in `master_set` then. -/
  sotto : ∀ i, q.1 = .servi i → ∀ fd ∈ q.2.readSet, fd ∈ s₀.masterSet
  /-- At its end one command was read from each of them ... -/
  una : q.1 = .operatore → ∀ j, s₀.Vivo j → (s₀.clientSockets j).connfd ∈ R →
    (comandi iter).count (s₀.clientSockets j).connfd = 1
  /-- ... at no time more than one from anybody ... -/
  nessunaDoppia : (comandi iter).Nodup
  /-- ... none from a descriptor that no `select` had reported ... -/
  riferiti : ∀ fd ∈ comandi iter, Riferito iter fd
  /-- ... and none from a student let in meanwhile. -/
  nuovi : ∀ j, s₀.dim ≤ j → j < q.2.dim → (q.2.clientSockets j).connfd ∉ comandi iter

/-- In the loop over the students, and at its end: whose slot was passed was read from once if it was in
    the read set. -/
theorem Servizio.mantenute {slots : Nat → ClientStud} (h : Servizio s₀ R slots iter s i)
    (hp : p = .operatore → i = s.dim) : Mantenute s₀ R iter (p, s) := by
  have hnodup : (comandi iter).Nodup := by
    rw [h.presi]
    exact nodup_serviti fun j k hj hk => h.distinti j k (Nat.lt_of_lt_of_le hj h.le_dim)
      (Nat.lt_of_lt_of_le hk h.le_dim)
  refine ⟨fun _ _ => h.attesi, fun _ _ => h.sotto, fun hop j hj hR => ?_, hnodup, fun fd hfd => ?_,
    fun j hj hlt hmem => ?_⟩
  · refine List.count_eq_one_of_mem hnodup ?_
    rw [h.presi, mem_serviti]
    refine ⟨j, ?_, by rw [h.vecchi j hj.1], h.attesi j hj hR, hj.2⟩
    rw [hp hop]
    exact Nat.lt_of_lt_of_le hj.1 h.dim_le
  · rw [h.presi] at hfd
    obtain ⟨-, -, -, hread, -⟩ := mem_serviti.mp hfd
    exact h.riferiti fd hread
  · rw [h.presi] at hmem
    obtain ⟨-, -, -, hread, -⟩ := mem_serviti.mp hmem
    have hnuovo := h.nuovi j hj hlt
    rw [← h.resta j (Or.inr hj) hlt] at hnuovo
    exact hnuovo (h.sotto _ hread)

/-- At every point of the iteration: before the loop over the students nothing was read from anybody,
    and there is nothing to show. -/
theorem FaseGiro.mantenute {q : Punto × Segreteria} (h : FaseGiro s₀ R iter q e) : Mantenute s₀ R iter q := by
  obtain ⟨p, s⟩ := q
  cases p with
  | esterno =>
    obtain ⟨rfl, -, -⟩ := h
    exact ⟨nofun, nofun, nofun, List.nodup_nil, fun _ h => absurd h List.not_mem_nil,
      fun _ _ _ => List.not_mem_nil⟩
  | accetta =>
    have hpresi := (h : Accettazione s₀ R iter s e).presi
    refine ⟨nofun, nofun, nofun, ?_, fun fd hfd => ?_, fun _ _ _ => ?_⟩
    · rw [hpresi]
      exact List.nodup_nil
    · rw [hpresi] at hfd
      exact absurd hfd List.not_mem_nil
    · rw [hpresi]
      exact List.not_mem_nil
  | servi i =>
    obtain ⟨slots, hserv⟩ := h
    exact hserv.mantenute nofun
  | operatore =>
    obtain ⟨slots, hserv⟩ := h
    exact hserv.mantenute fun _ => rfl

end Iterazione

/-! ## Every iteration -/

section Run

variable {sockfd listenfd logical : Int} {behaviour : Buffer 4} {slots : Nat → ClientStud}
  {clienti : Nat → Bytes} {arrivi : Nat → List Int} {d₁ d : StatoUfficio} {s₀ : Segreteria}

/-- In every state reached the table is in order and the members of `master_set` are open; so it is in the
    world as it then was where no call of the turn was answered yet. -/
theorem tavola_ufficio (h₁ : Solo.Reach (ufficio sockfd) (fun _ _ => True)
      (ufficioAperto sockfd listenfd behaviour logical slots clienti arrivi) d₁) (htr : d₁.trace = []) :
    Tavola (fun _ => True) sockfd listenfd d₁.past d₁.turn.2 d₁.env.lato ∧
      Aperte sockfd listenfd d₁.turn.2 d₁.env.lato := by
  have hresume : Solo.Reach (ufficio sockfd) (fun _ _ => True) ((ufficio sockfd).resume []
      (.esterno, Segreteria.iniziale sockfd listenfd behaviour logical slots) _) d₁ := h₁
  obtain ⟨e, h, he⟩ := Solo.Reach.began (A := fun _ _ _ _ _ => True) (B := fun _ _ _ => True)
    (P := fun _ _ _ => True) (I := fun past q e => Tavola (fun _ => True) sockfd listenfd past q.2 e.lato ∧
      Aperte sockfd listenfd q.2 e.lato) (fun _ _ _ _ => trivial) (fun _ _ _ _ => trivial)
    ⟨tavola_iniziale behaviour logical slots, aperte_iniziale behaviour logical slots⟩ trivial
    (fun past q e h _ => (safe_giro_ufficio q e).mono fun q' v hg =>
      ⟨h.1.giro hg fun _ _ _ _ => trivial, h.2.giro hg⟩) hresume
  rwa [he htr] at h

/-- **Accepting connections drops no pending request.**  `d₁` is at the beginning of an iteration of the outer
    loop, and `d` in the same iteration, before the operator's menu is done: what was readable in `d₁` is
    in the read set of the loop over the students, and is read from once in it. -/
theorem richieste_mantenute (h₁ : Solo.Reach (ufficio sockfd) (fun _ _ => True)
      (ufficioAperto sockfd listenfd behaviour logical slots clienti arrivi) d₁)
    (hinizio : d₁.turn = (.esterno, s₀)) (h : Solo.Reach (ufficio sockfd) (fun _ _ => True) d₁ d)
    (hiter : ∀ t ∈ d.past.drop d₁.past.length, t.1.1 ≠ .operatore) :
    Mantenute s₀ d₁.env.pronti (d.past.drop d₁.past.length) d.turn := by
  have hbody : (ufficio sockfd).body d₁.turn =
      .ret (.accetta, { s₀ with readSet := s₀.masterSet, writeSet := s₀.masterSet }) := by
    rw [hinizio]
    rfl
  obtain ⟨hprog, htr⟩ := h₁.silent rfl rfl hbody
  obtain ⟨ht, ha⟩ := tavola_ufficio h₁ htr
  rw [hinizio] at ht ha
  have hd₁ : d₁ = (ufficio sockfd).resume d₁.past (.esterno, s₀) d₁.env := by
    rw [← hbody] at hprog
    obtain ⟨past, turn, trace, prog, env⟩ := d₁
    cases hinizio
    cases htr
    cases hprog
    rfl
  -- the iteration begins with nothing done
  have h0 : InGiro sockfd listenfd d₁.past s₀ d₁.env.pronti d₁.past (.esterno, s₀) d₁.env :=
    ⟨ht, ha, [], (List.append_nil _).symm, fun _ => ⟨rfl, rfl, rfl⟩⟩
  have hresume : Solo.Reach (ufficio sockfd) (fun _ _ => True)
      ((ufficio sockfd).resume d₁.past (.esterno, s₀) d₁.env) d := hd₁ ▸ h
  obtain ⟨e, hI, -⟩ := Solo.Reach.began (A := fun _ _ _ _ _ => True) (B := fun _ _ _ => True)
    (P := fun _ _ _ => True)
    (I := fun past q e => InGiro sockfd listenfd d₁.past s₀ d₁.env.pronti past q e)
    (fun _ _ _ _ => trivial)
    (fun _ _ _ _ => trivial) h0 trivial (fun past q e h _ => h.passo) hresume
  obtain ⟨iter, hpast, hfase⟩ := hI.fase
  have hdrop : d.past.drop d₁.past.length = iter := by rw [hpast, List.drop_left]
  rw [hdrop] at hiter ⊢
  exact (hfase hiter).mantenute

end Run

/-! ## One run -/

/-- At the third `select` a new connection is waiting and the student on 6 has sent a logout. -/
def ufficioInDue : StatoUfficio :=
  ufficioAperto 3 4 (Buffer.zero 4) 0 (fun _ => ⟨0, Buffer.zero 4⟩)
    (fun _ => (Buffer.ofInt 1).bytes ++ [0] ++ (Buffer.ofInt 3).bytes)
    fun k => if k = 0 then [4] else if k = 2 then [4, 6] else []

/-- The iteration in which a second student is let in, and the first served. -/
def secondoGiro : List MossaSegreteria := [
  .turn, .act (.select 7 [6, 4, 3] [6, 4, 3]) (some ([6, 4], [])), .act (.accept 4) (7 : Int),
  .act (.read 7 4) (Buffer.ofInt 1).bytes, .act (.read 7 255) ([0] : Bytes),
  .act (.printf (ascii "Matricola: 1" ++ [10])) (), .act (.mysqlQuery (.login 1 [])) true,
  .act .mysqlStoreResult (some [[]]),
    .act (.write 7 (ascii "credenziali corrette, accesso consentito!")) (),
  .turn, .act (.select 8 [6, 4] []) (some ([6], [])), .turn,
  .act (.read 6 4) (Buffer.ofInt 3).bytes, .act (.close 6) (), .turn, .turn, .turn]

/-- The second iteration begins with the first student alone in the table, and readable; it comes to the
    operator with two. -/
def InDue (d₁ d : StatoUfficio) : Bool :=
  d₁.turn.1 = .esterno ∧ d₁.turn.2.dim = 1 ∧ (d₁.turn.2.clientSockets 0).connfd = 6 ∧
    d₁.env.pronti = [4, 6] ∧
    d.turn.1 = .operatore ∧ d.turn.2.dim = 2 ∧ ∀ t ∈ d.past.drop d₁.past.length, t.1.1 ≠ .operatore

/-- The first student's command is read once, although a connection was accepted before it and a second
    `select` came in between. -/
theorem richieste_mantenute_una : ∃ d₁ d : StatoUfficio,
    Solo.Reach (ufficio 3) (fun _ _ => True) ufficioInDue d₁ ∧ Solo.Reach (ufficio 3) (fun _ _ => True) d₁ d ∧
    d.turn.1 = .operatore ∧ d.turn.2.dim = 2 ∧ (comandi (d.past.drop d₁.past.length)).count 6 = 1 ∧
    Mantenute d₁.turn.2 d₁.env.pronti (d.past.drop d₁.past.length) d.turn := by
  have hrun : (((ufficio 3).run (fun _ _ => true) ufficioInDue (entrato ++ [.turn])).bind fun d₁ =>
      ((ufficio 3).run (fun _ _ => true) d₁ secondoGiro).map (InDue d₁)) = some true := by decide +kernel
  obtain ⟨d₁, hd₁, hrun⟩ := Option.bind_eq_some_iff.mp hrun
  obtain ⟨d, hd, heq⟩ := Option.map_eq_some_iff.mp hrun
  obtain ⟨hinizio, hdim, hfd, hpronti, hfine, hdue, hall⟩ := of_decide_eq_true heq
  have hreach₁ : Solo.Reach (ufficio 3) (fun _ _ => True) ufficioInDue d₁ :=
    Solo.reach_run (fun _ _ _ => trivial) _ .init hd₁
  have hreach : Solo.Reach (ufficio 3) (fun _ _ => True) d₁ d := Solo.reach_run (fun _ _ _ => trivial) _ .init hd
  have h : Mantenute d₁.turn.2 d₁.env.pronti (d.past.drop d₁.past.length) d.turn :=
    richieste_mantenute hreach₁ (Prod.ext hinizio rfl) hreach hall
  refine ⟨d₁, d, hreach₁, hreach, hfine, hdue, ?_, h⟩
  rw [← hfd]
  -- student 0 was readable at the beginning of the second iteration: one command was read from it
  refine h.una hfine 0 ⟨?_, ?_⟩ ?_
  · rw [hdim]
    exact Nat.one_pos
  · rw [hfd]
    decide
  · rw [hfd, hpronti]
    decide

end Universita

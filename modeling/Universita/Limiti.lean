/-
  THE BOUNDS — whether the indices and the descriptors the secretary uses are in range.

  The table has 4096 slots and an `fd_set` 1024 bits, and the code checks neither: `dim` only grows, one slot for each
  student that was let in since the start; `accept` may return any descriptor; and the loop over the students asks
  `FD_ISSET` about a slot BEFORE it looks whether the slot was freed, that is, about -1 after a logout.

  C defines nothing for an access outside, so the property is about each single access that a turn makes: an
  index of `client_sockets`, or a descriptor given to one of the `FD_` macros.  The condition is on what comes from
  outside: how many were let in, what `accept` returns, and whether a slot of a student who logged out is passed
  again.

  The crux is that `dim` is a history and not a table: `Limitata` counts it against the turns that let a student in
  (`concessi`), and ties every slot that holds -1 to the turn in which it logged out.

  Contents:
  1. `Uso`, `usi` — the accesses of a turn so far.
  2. `concessi` — how many students were let in.
  3. `Limitata` — the invariant; `Limitata.giro`: every turn restores it.
  4. **`nei_limiti`** — every access is in range, as long as fewer than 4096 students were let in when
     one more connects, `accept` stays below 1024, and no student who logged out is passed again.
  5. `passa_un_uscito` — the pass after a logout, and `nei_limiti_uscita` — the logout itself.
-/
import Universita.Descrittori

set_option linter.unusedVariables false

namespace Universita

open Lib Lib.Stream

/-! ## The accesses -/

/-- An access that C defines only inside its bounds. -/
inductive Uso where
  /-- `client_sockets[i]`. -/
  | indice (i : Nat)
  /-- `FD_SET`, `FD_ISSET` or `FD_CLR` of `fd`. -/
  | descrittore (fd : Int)
deriving DecidableEq

/-- The length of `client_sockets`, and `FD_SETSIZE`. -/
def Uso.NeiLimiti : Uso → Prop
  | indice i => i < 4096
  | descrittore fd => 0 ≤ fd ∧ fd < 1024

/-- The call was a `close`, which only a logout makes: by it a slot that holds -1 is known to have been
    left. -/
def chiude : Evento → Bool
  | ⟨.close _, _⟩ => true
  | _ => false

/-- Behind the `accept` into slot `dim`: `FD_SET` of what it returned. -/
def usiAccept : List Evento → List Uso
  | ⟨.accept _, fd⟩ :: _ => if fd < 0 then [] else [.descrittore fd]
  | _ => []

/-- Behind `select`: `FD_ISSET(listenfd, ..)`, then `client_sockets[dim]`. -/
def usiAccetta (s : Segreteria) : List Evento → List Uso
  | ⟨.select _ _ _, pronti⟩ :: tr =>
      .descrittore s.listenfd ::
        if s.listenfd ∈ (s.conPronti pronti).readSet then .indice s.dim :: usiAccept tr else []
  | _ => []

/-- What a turn has used once its calls `tr` were answered: the subscripts and the `FD_` macros of that
    part of the loop. In the loop over the students that is the slot and its descriptor in any case, and
    at a logout the descriptor again. -/
def usi : Punto × Segreteria → List Evento → List Uso
  | (.esterno, _), _ => []
  | (.accetta, s), tr => usiAccetta s tr
  | (.servi i, s), tr =>
      if i < s.dim then
        -- `FD_ISSET` comes before the comparison with -1
        .indice i :: .descrittore (s.clientSockets i).connfd ::
          if tr.any chiude then [.descrittore (s.clientSockets i).connfd] else []
      else []
  | (.operatore, s), _ => [.descrittore s.sockfd]

/-! ## The students that were let in -/

/-- A turn that ended by letting a student in: its last call tells the student so. -/
def concesso (t : (Punto × Segreteria) × List Evento) : Bool :=
  match t.1.1, t.2.getLast? with
  | .accetta, some ⟨.write _ bs, _⟩ => bs = ascii "credenziali corrette, accesso consentito!"
  | _, _ => false

/-- How many such turns there were. -/
def concessi (past : Passato) : Nat := past.countP concesso

theorem concessi_snoc (past : Passato) (t : (Punto × Segreteria) × List Evento) :
    concessi (past ++ [t]) = concessi past + if concesso t then 1 else 0 := by
  simp [concessi, List.countP_append, List.countP_singleton]

/-- A login lets its student in when its query has one row, counted in 32 bits: only then is the text of
    success written. -/
theorem concesso_accettata {s : Segreteria} {e e' : Evento} {tr : List Evento} {fd : Int} {n : Nat}
    (h : tr.getLast? = some ⟨.write fd (risposta n), ()⟩) :
    concesso ((.accetta, s), e :: e' :: tr) = decide (n % 2 ^ 32 = 1) := by
  have hlast : (e :: e' :: tr).getLast? = some ⟨.write fd (risposta n), ()⟩ := by
    simp [List.getLast?_cons, h]
  simp only [concesso, hlast]
  by_cases hn : n % 2 ^ 32 = 1
  · rw [risposta, if_pos hn, decide_eq_true hn]
    exact decide_eq_true rfl
  · rw [risposta, if_neg hn, decide_eq_false hn]
    decide +kernel

/-! ## The invariant -/

section Limitata

variable {sockfd listenfd : Int} {past : Passato} {s s' : Segreteria} {l l' : LatoSegreteria}

/-- What holds between two turns. -/
structure Limitata (past : Passato) (s : Segreteria) : Prop where
  /-- The slots in use are the students let in, whether they are still there or not. -/
  dim_eq : s.dim = concessi past
  /-- They fit the table. -/
  dim_le : s.dim ≤ 4096
  /-- Each slot has a descriptor that fits an `fd_set` from above ... -/
  piccoli : ∀ i < s.dim, (s.clientSockets i).connfd < 1024
  /-- ... and if it is -1, its student logged out in some turn. -/
  usciti : ∀ i < s.dim, (s.clientSockets i).connfd = -1 →
    ∃ t ∈ past, t.1.1 = .servi i ∧ t.2.any chiude = true

/-- At the start no slot is in use. -/
theorem limitata_iniziale (behaviour : Buffer 4) (logical : Int) (slots : Nat → ClientStud) :
    Limitata [] (Segreteria.iniziale sockfd listenfd behaviour logical slots) where
  dim_eq := rfl
  dim_le := Nat.zero_le _
  piccoli i hi := absurd hi (Nat.not_lt_zero i)
  usciti i hi _ := absurd hi (Nat.not_lt_zero i)

/-- A turn that lets nobody in and changes no slot in use: the count, and the turns in which slots were
    freed, are as they were. -/
theorem Limitata.resta (h : Limitata past s) {t : (Punto × Segreteria) × List Evento}
    (hdim : s'.dim = s.dim)
    (hslot : ∀ i < s.dim, s'.clientSockets i = s.clientSockets i) (ht : concesso t = false) :
    Limitata (past ++ [t]) s' where
  dim_eq := by rw [hdim, concessi_snoc, ht]; exact h.dim_eq
  dim_le := hdim ▸ h.dim_le
  piccoli i hi := by
    rw [hdim] at hi
    rw [hslot i hi]
    exact h.piccoli i hi
  usciti i hi hneg := by
    rw [hdim] at hi
    rw [hslot i hi] at hneg
    obtain ⟨u, hu, hu'⟩ := h.usciti i hi hneg
    exact ⟨u, List.mem_append_left _ hu, hu'⟩

/-- **Every turn restores it**, when `accept` returns no descriptor from 1024 on. A granted login moves
    `dim` and the count together; a logout puts -1 into its slot, and is itself the turn that says why. -/
theorem Limitata.giro {p p' : Punto} {tr : List Evento} (h : Limitata past s)
    (hg : Giro sockfd l (p, s) tr (p', s') l')
    (haccept : ∀ lfd fd, ⟨.accept lfd, fd⟩ ∈ tr → fd < 1024) : Limitata (past ++ [((p, s), tr)]) s' := by
  cases hg with
  | esterno => exact h.resta rfl (fun _ _ => rfl) rfl
  | nessuna hl hd => exact h.resta rfl (fun _ _ => rfl) rfl
  | fallita hdim hneg hd => exact h.resta rfl (fun i hi => Segreteria.conSlot_altri (Nat.ne_of_lt hi)) rfl
  | @accettata _ tr nfds rs ws pronti fd _ m pw _ _ rows _ hdim hpos hs hl hnone hd hferme hquery hstore hlast =>
    have hself : ((s.conPronti pronti).registrata fd m pw).clientSockets s.dim = ⟨fd, m⟩ :=
      Segreteria.registrata_self (s := s.conPronti pronti)
    have hother : ∀ i < s.dim, ((s.conPronti pronti).registrata fd m pw).clientSockets i = s.clientSockets i :=
      fun i hi => Segreteria.registrata_altri (s := s.conPronti pronti) hi
    have hfd : fd < 1024 := haccept _ fd (List.mem_cons_of_mem _ List.mem_cons_self)
    -- only a granted login is counted, and its slot is the one that was free
    by_cases hrows : rows.length % 2 ^ 32 = 1
    · rw [if_pos hrows]
      refine ⟨?_, hdim, fun i hi => ?_, fun i hi hneg => ?_⟩
      · rw [concessi_snoc, concesso_accettata hlast, decide_eq_true hrows, ← h.dim_eq]
        rfl
      · show (((s.conPronti pronti).registrata fd m pw).clientSockets i).connfd < 1024
        rcases Nat.lt_succ_iff_lt_or_eq.mp hi with hi | rfl
        · rw [hother i hi]
          exact h.piccoli i hi
        · rw [hself]
          exact hfd
      · have hneg' : (((s.conPronti pronti).registrata fd m pw).clientSockets i).connfd = -1 := hneg
        rcases Nat.lt_succ_iff_lt_or_eq.mp hi with hi | rfl
        · rw [hother i hi] at hneg'
          obtain ⟨u, hu, hu'⟩ := h.usciti i hi hneg'
          exact ⟨u, List.mem_append_left _ hu, hu'⟩
        · rw [hself] at hneg'
          have hfd' : fd = -1 := hneg'
          omega
    · rw [if_neg hrows]
      exact h.resta rfl hother ((concesso_accettata hlast).trans (decide_eq_false hrows))
  | passata hi hn => exact h.resta rfl (fun _ _ => rfl) rfl
  | servita hi h3 hd hferme => exact h.resta rfl (fun _ _ => rfl) rfl
  | @uscita _ i r _ hi h3 hd =>
    have hother : ∀ j ≠ i, (s.conSlot i ⟨-1, Buffer.ofInt 0⟩).clientSockets j = s.clientSockets j :=
      fun j hj => Segreteria.conSlot_altri hj
    have hself : (s.conSlot i ⟨-1, Buffer.ofInt 0⟩).clientSockets i = ⟨-1, Buffer.ofInt 0⟩ :=
      Segreteria.conSlot_self s i _
    refine ⟨?_, h.dim_le, fun j hj => ?_, fun j hj hneg => ?_⟩
    · rw [concessi_snoc]
      exact h.dim_eq
    · show ((s.conSlot i ⟨-1, Buffer.ofInt 0⟩).clientSockets j).connfd < 1024
      by_cases hji : j = i
      · rw [hji, hself]
        decide
      · rw [hother j hji]
        exact h.piccoli j hj
    · by_cases hji : j = i
      · exact ⟨_, List.mem_append_right _ List.mem_cons_self, congrArg Punto.servi hji.symm, rfl⟩
      · have hneg' : ((s.conSlot i ⟨-1, Buffer.ofInt 0⟩).clientSockets j).connfd = -1 := hneg
        rw [hother j hji] at hneg'
        obtain ⟨u, hu, hu'⟩ := h.usciti j hj hneg'
        exact ⟨u, List.mem_append_left _ hu, hu'⟩
  | finita hi => exact h.resta rfl (fun _ _ => rfl) rfl
  | operatore hd hferme => exact h.resta rfl (fun _ _ => rfl) rfl

theorem usiAccept_nei_limiti {tr : List Evento} (haccept : ∀ lfd fd, ⟨.accept lfd, fd⟩ ∈ tr → fd < 1024) :
    ∀ u ∈ usiAccept tr, u.NeiLimiti := by
  intro u hu
  unfold usiAccept at hu
  split at hu
  · rename_i lfd fd tr
    split at hu
    · exact absurd hu List.not_mem_nil
    · rename_i hneg
      rw [List.mem_singleton.mp hu]
      exact ⟨Int.not_lt.mp hneg, haccept lfd fd List.mem_cons_self⟩
  · exact absurd hu List.not_mem_nil

/-- **A turn stays in range** when it finds room for a waiting connection and meets no freed slot. A
    live slot's descriptor is in range by the two invariants; the two sockets are by assumption. -/
theorem usi_nei_limiti {buono : Nat → Prop} {p : Punto} {tr : List Evento}
    (hsock : 0 ≤ sockfd ∧ sockfd < 1024) (hlisten : 0 ≤ listenfd ∧ listenfd < 1024)
    (hT : Tavola buono sockfd listenfd past s l) (hI : Limitata past s)
    (hselect : ∀ nfds rs ws pronti, ⟨.select nfds rs ws, pronti⟩ ∈ tr → p = .accetta →
      s.listenfd ∈ (s.conPronti pronti).readSet → s.dim < 4096)
    (haccept : ∀ lfd fd, ⟨.accept lfd, fd⟩ ∈ tr → fd < 1024)
    (hservi : ∀ i, p = .servi i → i < s.dim → (s.clientSockets i).connfd ≠ -1) :
    ∀ u ∈ usi (p, s) tr, u.NeiLimiti := by
  cases p with
  | esterno => exact fun u hu => absurd hu List.not_mem_nil
  | accetta =>
    intro u hu
    have hu' : u ∈ usiAccetta s tr := hu
    unfold usiAccetta at hu'
    split at hu'
    · rename_i nfds rs ws pronti tr
      rcases List.mem_cons.mp hu' with rfl | hu'
      · rw [hT.listenfd_eq]
        exact hlisten
      · split at hu'
        · rename_i hl
          rcases List.mem_cons.mp hu' with rfl | hu'
          · exact hselect nfds rs ws pronti List.mem_cons_self rfl hl
          · exact usiAccept_nei_limiti (fun lfd fd h => haccept lfd fd (List.mem_cons_of_mem _ h)) u hu'
        · exact absurd hu' List.not_mem_nil
    · exact absurd hu' List.not_mem_nil
  | servi i =>
    intro u hu
    have hu' : u ∈ (if i < s.dim then _ else _) := hu
    split at hu'
    · rename_i hi
      -- in range because the slot is live; a freed one holds -1
      have hfd : (Uso.descrittore (s.clientSockets i).connfd).NeiLimiti :=
        ⟨(hT.viva i ⟨hi, hservi i rfl hi⟩).nonnegativo, hI.piccoli i hi⟩
      rcases List.mem_cons.mp hu' with rfl | hu'
      · exact Nat.lt_of_lt_of_le hi hI.dim_le
      · rcases List.mem_cons.mp hu' with rfl | hu'
        · exact hfd
        · split at hu'
          · rw [List.mem_singleton.mp hu']
            exact hfd
          · exact absurd hu' List.not_mem_nil
    · exact absurd hu' List.not_mem_nil
  | operatore =>
    intro u hu
    rw [List.mem_singleton.mp hu]
    show 0 ≤ s.sockfd ∧ s.sockfd < 1024
    rw [hT.sockfd_eq]
    exact hsock

end Limitata

/-! ## Every run -/

section Run

variable {sockfd listenfd logical : Int} {behaviour : Buffer 4} {slots : Nat → ClientStud}
  {clienti : Nat → Bytes} {d : StatoSegreteria}

/-- `Moderata d m` — `select` reports a waiting connection only while fewer than 4096 students were let
    in, `accept` returns a descriptor below 1024, and the loop over the students meets no student who
    logged out. -/
def Moderata (d : StatoSegreteria) (m : MossaSegreteria) : Prop :=
  (∀ s nfds rs ws pronti, d.turn = (.accetta, s) → m = .act (.select nfds rs ws) pronti →
    s.listenfd ∈ (s.conPronti pronti).readSet → concessi d.past < 4096) ∧
  (∀ lfd fd, m = .act (.accept lfd) fd → fd < 1024) ∧
  ∀ i s, m = .turn → d.prog = .ret (.servi i, s) →
    ∀ t ∈ d.past ++ [(d.turn, d.trace)], t.1.1 = .servi i → t.2.any chiude = false

/-- **Every access is in range** in such a run, from sockets that are: in every state reached, whatever
    the turn so far has used of `client_sockets` and of the `fd_set`s lies inside them. -/
theorem nei_limiti (hsock : 0 ≤ sockfd ∧ sockfd < 1024) (hlisten : 0 ≤ listenfd ∧ listenfd < 1024)
    (hd : Solo.Reach (sportello sockfd) Moderata (apertura sockfd listenfd behaviour logical slots clienti) d) :
    ∀ u ∈ usi d.turn d.trace, u.NeiLimiti := by
  -- the conditions on the answers of a turn, and (`B`) the one on the slot that is passed
  let A : Passato → Punto × Segreteria → Vista₁ → (o : Sys) → o.Ans → Prop := fun past q _ o r =>
    (∀ nfds rs ws pronti, (⟨o, r⟩ : Evento) = ⟨.select nfds rs ws, pronti⟩ → q.1 = .accetta →
      q.2.listenfd ∈ (q.2.conPronti pronti).readSet → concessi past < 4096) ∧
    ∀ lfd fd, (⟨o, r⟩ : Evento) = ⟨.accept lfd, fd⟩ → fd < 1024
  let B : Passato → Punto × Segreteria → LatoSegreteria → Prop := fun past q _ =>
    ∀ i, q.1 = .servi i → ∀ t ∈ past, t.1.1 = .servi i → t.2.any chiude = false
  have h : ∃ e, (Tavola (fun _ => True) sockfd listenfd d.past d.turn.2 e ∧ Limitata d.past d.turn.2) ∧
      B d.past d.turn e ∧ Solo.Answered (A d.past d.turn) d.trace := by
    refine Solo.Reach.inside (A := A) (B := B) (I := fun past q l =>
      Tavola (fun _ => True) sockfd listenfd past q.2 l ∧ Limitata past q.2) safe_giro ?_ ?_
      ⟨tavola_iniziale behaviour logical slots, limitata_iniziale behaviour logical slots⟩ nofun ?_ hd
    · intro d o r hm
      refine ⟨fun nfds rs ws pronti heq hp hl => ?_, fun lfd fd heq => ?_⟩
      · cases heq
        exact hm.1 d.turn.2 nfds rs ws pronti (Prod.ext hp rfl) rfl hl
      · cases heq
        exact hm.2.1 lfd fd rfl
    · intro d q hm hp i hi
      exact hm.2.2 i q.2 rfl (by rw [hp, ← hi])
    · rintro past ⟨p, s⟩ l tr ⟨p', s'⟩ l' ⟨hT, hI⟩ - hg hA
      refine ⟨hT.giro hg fun _ _ _ _ => trivial, hI.giro hg fun lfd fd hmem => ?_⟩
      obtain ⟨v, hv⟩ := hA.of_mem hmem
      exact hv.2 lfd fd rfl
  obtain ⟨e, ⟨hT, hI⟩, hB, hA⟩ := h
  refine usi_nei_limiti hsock hlisten hT hI (fun nfds rs ws pronti hmem hp hl => ?_) (fun lfd fd hmem => ?_) ?_
  · obtain ⟨v, hv⟩ := hA.of_mem hmem
    rw [hI.dim_eq]
    exact hv.1 nfds rs ws pronti rfl hp hl
  · obtain ⟨v, hv⟩ := hA.of_mem hmem
    exact hv.2 lfd fd rfl
  · intro i hp hi hneg
    -- a slot that holds -1 was logged out in a turn for it, and none is passed again
    obtain ⟨t, ht, hti, hclose⟩ := hI.usciti i hi hneg
    exact absurd (hB i hp t ht hti) (by rw [hclose]; decide)

end Run

/-- The pass after a logout asks `FD_ISSET` about -1: the slot still counts below `dim`, and its
    descriptor is gone. -/
theorem passa_un_uscito : ¬ ∀ d, Solo.Reach (sportello 3) (fun _ _ => True)
    (aperturaDi (Buffer.ofInt 3).bytes) d →
    ∀ u ∈ usi d.turn d.trace, u.NeiLimiti := by
  intro h
  have hrun : ((sportello 3).run (fun _ _ => true) (aperturaDi (Buffer.ofInt 3).bytes) (entrato ++ uscito ++
      [.turn, .turn, .act (.select 7 [4, 3] [4, 3]) (some ([], [])),
        .turn])).map (fun d => usi d.turn d.trace) =
      some [.indice 0, .descrittore (-1)] := by decide +kernel
  obtain ⟨d, hd, heq⟩ := Option.map_eq_some_iff.mp hrun
  have hmem : Uso.descrittore (-1) ∈ usi d.turn d.trace := by
    rw [heq]
    decide
  exact absurd (h d (Solo.reach_run (fun _ _ _ => trivial) _ .init hd) _ hmem).1 (by decide)

/-- `Moderata`, as a test. -/
def moderati (d : StatoSegreteria) : MossaSegreteria → Bool
  | .act (.select _ _ _) _ => concessi d.past < 4096
  | .act (.accept _) fd => fd < 1024
  | .turn => (d.past ++ [(d.turn, d.trace)]).all fun t => !t.2.any chiude
  | _ => true

theorem moderati_ok (d : StatoSegreteria) (m : MossaSegreteria) (h : moderati d m = true) :
    Moderata d m := by
  refine ⟨?_, ?_, ?_⟩
  · rintro s nfds rs ws pronti - rfl -
    exact of_decide_eq_true h
  · rintro lfd fd rfl
    exact of_decide_eq_true h
  · rintro i s rfl - t ht -
    have hall : (d.past ++ [(d.turn, d.trace)]).all (fun t => !t.2.any chiude) = true := h
    simpa using List.all_eq_true.mp hall t ht

/-- The student's logout is in range: it is the next pass that is not. -/
theorem nei_limiti_uscita : ∃ d : StatoSegreteria,
    usi d.turn d.trace = [.indice 0, .descrittore 6, .descrittore 6] ∧
    ∀ u ∈ usi d.turn d.trace, u.NeiLimiti := by
  have hrun : ((sportello 3).run moderati (aperturaDi (Buffer.ofInt 3).bytes) (entrato ++ uscito.take 6)).map
      (fun d => usi d.turn d.trace) = some [.indice 0, .descrittore 6, .descrittore 6] := by
        decide +kernel
  obtain ⟨d, hd, heq⟩ := Option.map_eq_some_iff.mp hrun
  exact ⟨d, heq, nei_limiti (by decide) (by decide) (Solo.reach_run moderati_ok _ .init hd)⟩

end Universita

/-
  THE DESCRIPTORS — whether the secretary gives back what `accept` gave it.

  A session ends in three ways: the login is refused, the student logs out, or the student goes away.
  Only the logout closes the descriptor and takes it out of `master_set`.

  The property counts nothing: at the head of the outer loop the descriptors in `master_set`, besides the
  secretary's own two, are those of live slots, and so are the open ones (`SenzaPerdite`).  The condition excludes
  the two other endings (`Saluta`): no login is refused, and a read from a student finds the end of the stream only
  where the read of the code does so and the variable still holds the 3 of an earlier logout — which then is a logout.

  The crux is that a turn can do one of three things to this bookkeeping: nothing (`Chiuse.resta`), one slot more
  with a descriptor it opens and puts into the set (`Chiuse.apre`), or one slot less with a descriptor it closes and
  takes out (`Chiuse.libera`).  For the last one it has to be known that no other live slot holds that descriptor, which
  is part of the table's own invariant.

  Contents:
  1. `Segreteria.Tiene` — some live slot holds a descriptor; what a turn does to that.
  2. `Finito` — the student of a slot has gone, and the serving loop has seen it.
  3. `Chiuse` — the invariant: `master_set` and the open descriptors are those of the live slots.
  4. `Chiuse.giro` — every turn restores it.
  5. **`descrittori_restituiti`** — no descriptor is lost, as long as no login is refused and no student
     goes away without a logout.
  6. `rifiutato_resta` — a refused one stays.
-/
import Universita.Sessioni

set_option linter.unusedVariables false

namespace Universita

open Lib Lib.Stream

/-- A live slot holds `fd`. -/
def Segreteria.Tiene (s : Segreteria) (fd : Int) : Prop := ∃ i, s.Vivo i ∧ (s.clientSockets i).connfd = fd

/-- In a turn that served slot `i` a read from its student found the end of the stream: the student has
    gone without a logout. -/
def Finito (past : Passato) (i : Nat) : Prop :=
  ∃ s tr n, ((.servi i, s), tr) ∈ past ∧ ⟨.read (s.clientSockets i).connfd n, ([] : Bytes)⟩ ∈ tr

/-- The reads of a turn that find the end of the stream are those that lead to a logout: of the code, with
    the 3 of an earlier logout still in `behaviour`. -/
def SoloUscite (q : Punto × Segreteria) (tr : List Evento) : Prop :=
  ∀ i s n pre post, q = (.servi i, s) →
    tr = pre ++ ⟨.read (s.clientSockets i).connfd n, ([] : Bytes)⟩ :: post → pre = [] ∧
      s.behaviour.toInt = 3

section Tiene

variable {s s' : Segreteria} {fd : Int}

/-- Where the live slots are the same, they hold the same. -/
theorem Segreteria.tiene_congr (hdim : s'.dim = s.dim)
    (hslot : ∀ i < s.dim, s'.clientSockets i = s.clientSockets i) :
    s'.Tiene fd ↔ s.Tiene fd := by
  refine exists_congr fun i => ?_
  by_cases hi : i < s.dim
  · rw [Vivo, Vivo, hdim, hslot i hi]
  · exact iff_of_false (fun h => hi (hdim ▸ h.1.1)) fun h => hi h.1.1

theorem Segreteria.tiene_nuovo (hneg : (s.clientSockets s.dim).connfd ≠ -1) :
    ({ s with dim := s.dim + 1 } : Segreteria).Tiene fd ↔ s.Tiene fd ∨
    (s.clientSockets s.dim).connfd = fd := by
  constructor
  · rintro ⟨i, ⟨hi, hne⟩, hfd⟩
    rcases Nat.lt_succ_iff_lt_or_eq.mp hi with hi | rfl
    · exact Or.inl ⟨i, ⟨hi, hne⟩, hfd⟩
    · exact Or.inr hfd
  · rintro (⟨i, ⟨hi, hne⟩, hfd⟩ | hfd)
    · exact ⟨i, ⟨Nat.lt_succ_of_lt hi, hne⟩, hfd⟩
    · exact ⟨s.dim, ⟨Nat.lt_succ_self _, hneg⟩, hfd⟩

/-- The slot of a login, once it counts. -/
theorem Segreteria.tiene_registrata {fd' : Int} {m : Buffer 4} {pw : Buffer 255} (hpos : 0 ≤ fd) :
    ({ s.registrata fd m pw with dim := s.dim + 1 } : Segreteria).Tiene fd' ↔ s.Tiene fd' ∨ fd = fd' := by
  have hself : ((s.registrata fd m pw).clientSockets s.dim).connfd = fd :=
    congrArg ClientStud.connfd registrata_self
  have hneg : ((s.registrata fd m pw).clientSockets s.dim).connfd ≠ -1 := by
    rw [hself]
    omega
  have hother : (s.registrata fd m pw).Tiene fd' ↔ s.Tiene fd' := tiene_congr rfl fun i hi => registrata_altri hi
  exact (tiene_nuovo hneg).trans (or_congr hother (iff_of_eq (congrArg (· = fd') hself)))

theorem Segreteria.tiene_libera {i : Nat} {m : Buffer 4} (hi : s.Vivo i)
    (hdist : ∀ j, s.Vivo j → (s.clientSockets j).connfd = (s.clientSockets i).connfd → j = i) :
    (s.conSlot i ⟨-1, m⟩).Tiene fd ↔ s.Tiene fd ∧ fd ≠ (s.clientSockets i).connfd := by
  constructor
  · rintro ⟨j, hj, hfd⟩
    obtain ⟨hj, hji⟩ := vivo_libera.mp hj
    rw [conSlot_altri hji] at hfd
    exact ⟨⟨j, hj, hfd⟩, fun heq => hji (hdist j hj (hfd.trans heq))⟩
  · rintro ⟨⟨j, hj, hfd⟩, hfdi⟩
    have hji : j ≠ i := by
      rintro rfl
      exact hfdi hfd.symm
    exact ⟨j, vivo_libera.mpr ⟨hj, hji⟩, by rwa [conSlot_altri hji]⟩

end Tiene

/-! ## The invariant -/

section Chiuse

variable {sockfd listenfd : Int} {past : Passato} {s s' : Segreteria} {l l' : LatoSegreteria}

/-- The invariant at the head of a loop, behind the turns `past`. -/
structure Chiuse (sockfd listenfd : Int) (past : Passato) (s : Segreteria) (l : LatoSegreteria) : Prop where
  /-- `master_set`: the secretary's two sockets, and what live slots hold. -/
  master : ∀ fd, fd ∈ s.masterSet ↔ fd = sockfd ∨ fd = listenfd ∨ s.Tiene fd
  /-- An open descriptor is a live slot's. -/
  aperti : ∀ fd, l.descrittori fd ≠ none → s.Tiene fd
  /-- A student who has gone has no live slot. -/
  finiti : ∀ i, Finito past i → i < s.dim ∧ ¬ s.Vivo i

/-- At the start: two sockets, no slot, and nothing accepted yet. -/
theorem chiuse_iniziale (behaviour : Buffer 4) (logical : Int) (slots : Nat → ClientStud)
    (hl : ∀ fd, l.descrittori fd = none) :
    Chiuse sockfd listenfd [] (Segreteria.iniziale sockfd listenfd behaviour logical slots) l where
  master fd := by
    have hno : ¬ (Segreteria.iniziale sockfd listenfd behaviour logical slots).Tiene fd :=
      fun ⟨i, hi, _⟩ => Nat.not_lt_zero i hi.1
    rw [or_iff_left hno]
    show fd ∈ [listenfd, sockfd] ↔ _
    simp [or_comm]
  aperti fd h := absurd (hl fd) h
  finiti i := fun ⟨_, _, _, h, _⟩ => absurd h List.not_mem_nil

/-- Gone in an earlier turn, or in this one. -/
theorem finito_snoc {t : (Punto × Segreteria) × List Evento} {i : Nat} (h : Finito (past ++ [t]) i) :
    Finito past i ∨ ∃ s n, t.1 = (.servi i, s) ∧
      ⟨.read (s.clientSockets i).connfd n, ([] : Bytes)⟩ ∈ t.2 := by
  obtain ⟨s, tr, n, hmem, hr⟩ := h
  rcases List.mem_append.mp hmem with hmem | hmem
  · exact Or.inl ⟨s, tr, n, hmem, hr⟩
  · rw [List.mem_singleton] at hmem
    exact Or.inr ⟨s, n, by rw [← hmem], by rw [← hmem]; exact hr⟩

/-- A turn that changes neither the live slots nor the sets nor what is open, and finds no end of a stream. -/
theorem Chiuse.resta (h : Chiuse sockfd listenfd past s l) {t : (Punto × Segreteria) × List Evento}
    (hmaster : s'.masterSet = s.masterSet) (hdim : s'.dim = s.dim)
    (hslot : ∀ i < s.dim, s'.clientSockets i = s.clientSockets i) (hl : l'.descrittori = l.descrittori)
    (ht : ∀ i s n, t.1 = (.servi i, s) → ⟨.read (s.clientSockets i).connfd n, ([] : Bytes)⟩ ∉ t.2) :
    Chiuse sockfd listenfd (past ++ [t]) s' l' where
  master fd := by rw [hmaster, h.master, Segreteria.tiene_congr hdim hslot]
  aperti fd ha := (Segreteria.tiene_congr hdim hslot).mpr (h.aperti fd (hl ▸ ha))
  finiti i hf := by
    rcases finito_snoc hf with hf | ⟨s₀, n, ht₁, hr⟩
    · obtain ⟨hi, hv⟩ := h.finiti i hf
      rw [Segreteria.Vivo, hdim, hslot i hi]
      exact ⟨hi, hv⟩
    · exact absurd hr (ht i s₀ n ht₁)

/-- A turn that fills one more slot with a descriptor it opens, and puts that in `master_set`. -/
theorem Chiuse.apre (h : Chiuse sockfd listenfd past s l) {t : (Punto × Segreteria) × List Evento} {fd : Int}
    {c : Nat} (hmaster : s'.masterSet = fdSet fd s.masterSet) (hdim : s.dim ≤ s'.dim)
    (hslot : ∀ i < s.dim, s'.clientSockets i = s.clientSockets i)
    (htiene : ∀ fd', s'.Tiene fd' ↔ s.Tiene fd' ∨ fd = fd')
    (hl : l'.descrittori = Function.update l.descrittori fd (some c)) (ht : ∀ i s, t.1 ≠ (.servi i, s)) :
    Chiuse sockfd listenfd (past ++ [t]) s' l' where
  master fd' := by
    rw [hmaster, mem_fdSet, h.master, htiene, eq_comm (a := fd)]
    tauto
  aperti fd' ha := by
    rw [htiene]
    by_cases hfd : fd' = fd
    · exact Or.inr hfd.symm
    · rw [hl, Function.update_of_ne hfd] at ha
      exact Or.inl (h.aperti fd' ha)
  finiti i hf := by
    rcases finito_snoc hf with hf | ⟨s₀, _, ht₁, -⟩
    · obtain ⟨hi, hv⟩ := h.finiti i hf
      exact ⟨hi.trans_le hdim, fun hvivo => hv ⟨hi, hslot i hi ▸ hvivo.2⟩⟩
    · exact absurd ht₁ (ht i s₀)

/-- A turn that serves the live slot `i`, frees it and closes its descriptor, which no other slot holds. -/
theorem Chiuse.libera (h : Chiuse sockfd listenfd past s l) {t : (Punto × Segreteria) × List Evento} {i : Nat}
    (hi : s.Vivo i) (hdist : ∀ j, s.Vivo j → (s.clientSockets j).connfd = (s.clientSockets i).connfd → j = i)
    (hneS : (s.clientSockets i).connfd ≠ sockfd) (hneL : (s.clientSockets i).connfd ≠ listenfd)
    (hmaster : s'.masterSet = fdClr (s.clientSockets i).connfd s.masterSet) (hdim : s'.dim = s.dim)
    (hslot : s'.clientSockets = (s.conSlot i ⟨-1, Buffer.ofInt 0⟩).clientSockets)
    (hl : l'.descrittori = Function.update l.descrittori (s.clientSockets i).connfd none)
    (ht : ∀ j s₀, t.1 = (.servi j, s₀) → j = i) : Chiuse sockfd listenfd (past ++ [t]) s' l' := by
  -- the slot is no longer live, and no other live slot held its descriptor
  have hvivo : ∀ j, s'.Vivo j ↔ s.Vivo j ∧ j ≠ i := by
    intro j
    rw [Segreteria.Vivo, hdim, hslot]
    exact Segreteria.vivo_libera
  have htiene : ∀ fd, s'.Tiene fd ↔ s.Tiene fd ∧ fd ≠ (s.clientSockets i).connfd := by
    intro fd
    rw [← Segreteria.tiene_libera hi hdist]
    exact Segreteria.tiene_congr hdim fun j _ => congrFun hslot j
  refine ⟨fun fd => ?_, fun fd ha => ?_, fun j hf => ?_⟩
  · rw [hmaster, mem_fdClr, h.master, htiene]
    constructor
    · rintro ⟨rfl | rfl | ht, hfd⟩
      · exact Or.inl rfl
      · exact Or.inr (Or.inl rfl)
      · exact Or.inr (Or.inr ⟨ht, hfd⟩)
    · rintro (rfl | rfl | ht)
      · exact ⟨Or.inl rfl, hneS.symm⟩
      · exact ⟨Or.inr (Or.inl rfl), hneL.symm⟩
      · exact ⟨Or.inr (Or.inr ht.1), ht.2⟩
  · rw [hl] at ha
    by_cases hfd : fd = (s.clientSockets i).connfd
    · rw [hfd, Function.update_self] at ha
      exact absurd rfl ha
    · rw [Function.update_of_ne hfd] at ha
      exact (htiene fd).mpr ⟨h.aperti fd ha, hfd⟩
  · rw [hdim, hvivo]
    rcases finito_snoc hf with hf | ⟨s₀, _, ht₁, -⟩
    · exact ⟨(h.finiti j hf).1, fun hv => (h.finiti j hf).2 hv.1⟩
    · obtain rfl := ht j s₀ ht₁
      exact ⟨hi.1, fun hv => hv.2 rfl⟩

/-- **Every turn restores it**, when it refuses no login and finds the end of a stream only to log out.
    A granted login opens one descriptor and one slot, a logout closes both. -/
theorem Chiuse.giro {p p' : Punto} {tr : List Evento} {buono : Nat → Prop}
    (hT : Tavola buono sockfd listenfd past s l) (h : Chiuse sockfd listenfd past s l)
    (hg : Giro sockfd l (p, s) tr (p', s') l')
    (hlogin : ∀ rows, ⟨.mysqlStoreResult, some rows⟩ ∈ tr → p = .accetta → rows.length % 2 ^ 32 = 1)
    (hfine : SoloUscite (p, s) tr) : Chiuse sockfd listenfd (past ++ [((p, s), tr)]) s' l' := by
  cases hg with
  | esterno => exact h.resta rfl rfl (fun _ _ => rfl) rfl nofun
  | nessuna hl hd => exact h.resta rfl rfl (fun _ _ => rfl) hd nofun
  | fallita hdim hneg hd =>
    exact h.resta rfl rfl (fun i hi => Segreteria.conSlot_altri (Nat.ne_of_lt hi)) hd nofun
  | @accettata _ tr _ _ _ pronti fd _ m pw _ _ rows _ hdim hpos hs hl hnone hd hferme hquery hstore _ =>
    rw [if_pos (hlogin rows (List.mem_cons_of_mem _ (List.mem_cons_of_mem _ hstore)) rfl)]
    have hother : ∀ i < s.dim, ((s.conPronti pronti).registrata fd m pw).clientSockets i = s.clientSockets i :=
      fun i hi => Segreteria.registrata_altri (s := s.conPronti pronti) hi
    refine h.apre rfl (Nat.le_succ _) hother (fun fd' => ?_) hd nofun
    exact Segreteria.tiene_registrata (s := s.conPronti pronti) hpos
  | passata hi hn => exact h.resta rfl rfl (fun _ _ => rfl) rfl fun _ _ _ _ => List.not_mem_nil
  | @servita _ i r tr _ hi h3 hd hferme =>
    refine h.resta rfl rfl (fun _ _ => rfl) hd fun i' s' n hq hmem => ?_
    -- the first read of the turn is that of the code, and it did not leave a 3 behind
    obtain ⟨pre, post, heq⟩ := List.append_of_mem hmem
    obtain ⟨rfl, hb⟩ := hfine i' s' n pre post hq heq
    obtain ⟨hi', rfl⟩ := Prod.mk.inj hq
    obtain rfl := Punto.servi.inj hi'
    cases heq
    rw [Buffer.overlay_nil] at h3
    exact h3 hb
  | @uscita _ i r _ hi h3 hd =>
    have hv : s.Vivo i := ⟨hi.1, hi.2.2⟩
    have hviva := hT.viva i hv
    refine h.libera hv (fun j hj heq => hT.distinti j i hj hv heq) hviva.neSockfd hviva.neListenfd rfl rfl rfl hd ?_
    exact fun j s₀ ht => (Punto.servi.inj (Prod.mk.inj ht).1).symm
  | finita hi => exact h.resta rfl rfl (fun _ _ => rfl) rfl fun _ _ _ _ => List.not_mem_nil
  | operatore hd hferme => exact h.resta rfl rfl (fun _ _ => rfl) hd nofun

end Chiuse

/-! ## Every run -/

section Run

variable {sockfd listenfd logical : Int} {behaviour : Buffer 4} {slots : Nat → ClientStud}
  {clienti : Nat → Bytes} {d : StatoSegreteria}

/-- No descriptor is lost where `d` is at the head of the outer loop: what is in `master_set`, and what
    is open, is a live slot's whose student has not gone. -/
def SenzaPerdite (sockfd listenfd : Int) (d : StatoSegreteria) : Prop :=
  ∀ s, d.prog = .ret (.esterno, s) →
    (∀ fd, fd ∈ s.masterSet ↔ fd = sockfd ∨ fd = listenfd ∨ ∃ i, s.Vivo i ∧
      (s.clientSockets i).connfd = fd ∧ ¬ Finito (d.past ++ [(d.turn, d.trace)]) i) ∧
    ∀ fd, d.env.descrittori fd ≠ none → ∃ i, s.Vivo i ∧ (s.clientSockets i).connfd = fd ∧
      ¬ Finito (d.past ++ [(d.turn, d.trace)]) i

/-- No login is refused, and a read from a student finds the end of the stream only where a code is read
    and `behaviour` still holds a 3. -/
def Saluta (d : StatoSegreteria) (m : MossaSegreteria) : Prop :=
  (∀ rows, m = .act .mysqlStoreResult (some rows) → d.turn.1 = .accetta → rows.length % 2 ^ 32 = 1) ∧
  ∀ i s n, d.turn = (.servi i, s) → m = .act (.read (s.clientSockets i).connfd n) ([] : Bytes) →
    d.trace = [] ∧ s.behaviour.toInt = 3

/-- **No descriptor is lost** as long as no login is refused and no student goes away without a logout:
    at the head of the outer loop the open descriptors are those of the live slots, besides the two
    sockets, and `master_set` has the same. -/
theorem descrittori_restituiti
    (hd : Solo.Reach (sportello sockfd) Saluta (apertura sockfd listenfd behaviour logical slots clienti) d) :
    SenzaPerdite sockfd listenfd d := by
  intro s hp
  -- the two conditions of a move, as what an answer within a turn has met
  let A : Passato → Punto × Segreteria → Vista₁ → (o : Sys) → o.Ans → Prop := fun _ q v o r =>
    (∀ rows, (⟨o, r⟩ : Evento) = ⟨.mysqlStoreResult, some rows⟩ → q.1 = .accetta → rows.length % 2 ^ 32 = 1) ∧
    ∀ i s n, q = (.servi i, s) → (⟨o, r⟩ : Evento) = ⟨.read (s.clientSockets i).connfd n, ([] : Bytes)⟩ →
      v.1 = [] ∧ s.behaviour.toInt = 3
  have h : Tavola (fun _ => True) sockfd listenfd (d.past ++ [(d.turn, d.trace)]) s d.env ∧
      Chiuse sockfd listenfd (d.past ++ [(d.turn, d.trace)]) s d.env := by
    refine Solo.Reach.head (A := A) (B := fun _ _ _ => True) (I := fun past q l =>
      Tavola (fun _ => True) sockfd listenfd past q.2 l ∧ Chiuse sockfd listenfd past q.2 l)
      safe_giro ?_ (fun _ _ _ _ => trivial)
      ⟨tavola_iniziale behaviour logical slots,
        chiuse_iniziale behaviour logical slots fun _ => rfl⟩ trivial ?_ hd hp
    · intro d o r hm
      refine ⟨fun rows heq => ?_, fun i s n hq heq => ?_⟩
      · cases heq
        exact hm.1 rows rfl
      · cases heq
        exact hm.2 i s n hq rfl
    · rintro past ⟨p, s⟩ l tr ⟨p', s'⟩ l' ⟨hT, hI⟩ - hg hA
      refine ⟨hT.giro hg fun _ _ _ _ => trivial, hI.giro hT hg (fun rows hmem => ?_) ?_⟩
      · obtain ⟨v, hv⟩ := hA.of_mem hmem
        exact hv.1 rows rfl
      · intro i s n pre post hq heq
        obtain ⟨e, he⟩ := hA pre _ post heq
        exact he.2 i s n hq rfl
  -- a live slot's student has not gone: one who had would have been logged out
  have htiene : ∀ fd, s.Tiene fd ↔ ∃ i, s.Vivo i ∧ (s.clientSockets i).connfd = fd ∧
      ¬ Finito (d.past ++ [(d.turn, d.trace)]) i := fun fd => exists_congr fun i =>
    ⟨fun hi => ⟨hi.1, hi.2, fun hf => (h.2.finiti i hf).2 hi.1⟩, fun hi => ⟨hi.1, hi.2.1⟩⟩
  refine ⟨fun fd => ?_, fun fd ha => (htiene fd).mp (h.2.aperti fd ha)⟩
  rw [h.2.master, htiene]

end Run

/-! ## Two runs -/

/-- The secretary's sockets are 3 and 4; each student sends a login and then the code of the logout. -/
def aperturaDi (logout : Bytes) : StatoSegreteria :=
  apertura 3 4 (Buffer.zero 4) 0 (fun _ => ⟨0, Buffer.zero 4⟩) fun _ =>
    (Buffer.ofInt 1).bytes ++ [0] ++ logout

/-- A connection is accepted; its login query has `rows`, and it is told `esito`. -/
def accessoDi (rows : List Row) (esito : Bytes) : List MossaSegreteria := [
  .turn, .act (.select 5 [4, 3] [4, 3]) (some ([4], [])), .act (.accept 4) (6 : Int),
  .act (.read 6 4) (Buffer.ofInt 1).bytes, .act (.read 6 255) ([0] : Bytes),
  .act (.printf (ascii "Matricola: 1" ++ [10])) (), .act (.mysqlQuery (.login 1 [])) true,
  .act .mysqlStoreResult (some rows), .act (.write 6 esito) ()]

/-- A login that is refused. -/
def rifiutato : List MossaSegreteria :=
  accessoDi [] (ascii "credenziali non corrette, accesso negato!") ++
  [.turn, .act (.select 7 [4] []) (some ([], [])), .turn, .turn]

/-- The student is let in, ... -/
def entrato : List MossaSegreteria :=
  accessoDi [[]] (ascii "credenziali corrette, accesso consentito!") ++
  [.turn, .act (.select 7 [4] []) (some ([], [])), .turn, .turn, .turn]

/-- ... and logs out. -/
def uscito : List MossaSegreteria :=
  [.turn, .turn, .act (.select 7 [6, 4, 3] [6, 4, 3]) (some ([6], [])), .turn,
    .act (.read 6 4) (Buffer.ofInt 3).bytes, .act (.close 6) (), .turn, .turn]

/-- Where `d` is at the head of the outer loop, `dim` and `master_set`. -/
def alGiro (d : StatoSegreteria) : Option (Nat × List Int) :=
  match d.prog with
  | .ret (.esterno, s) => some (s.dim, s.masterSet)
  | _ => none

/-- What was evaluated is what the theorem speaks of. -/
theorem alGiro_eq_some {d : StatoSegreteria} {dim : Nat} {set : List Int}
    (h : alGiro d = some (dim, set)) :
    ∃ s, d.prog = .ret (.esterno, s) ∧ s.dim = dim ∧ s.masterSet = set := by
  unfold alGiro at h
  split at h
  · rename_i s hp
    obtain ⟨rfl, rfl⟩ := Prod.mk.inj (Option.some.inj h)
    exact ⟨s, hp, rfl, rfl⟩
  · cases h

/-- A refused student's descriptor stays in `master_set`, and open. -/
theorem rifiutato_resta : ¬ ∀ d, Solo.Reach (sportello 3) (fun _ _ => True) (aperturaDi []) d →
    SenzaPerdite 3 4 d := by
  intro h
  have hrun : ((sportello 3).run (fun _ _ => true) (aperturaDi []) rifiutato).map alGiro =
      some (some (0, [6, 4, 3])) := by decide +kernel
  obtain ⟨d, hd, heq⟩ := Option.map_eq_some_iff.mp hrun
  obtain ⟨s, hp, hdim, hset⟩ := alGiro_eq_some heq
  have hreach := Solo.reach_run (C := fun _ _ => True) (fun _ _ _ => trivial) _ .init hd
  rcases ((h d hreach s hp).1 6).mp (by rw [hset]; decide) with h3 | h4 | ⟨i, hi, -⟩
  · exact absurd h3 (by decide)
  · exact absurd h4 (by decide)
  · exact absurd hi.1 (by omega)

/-- `Saluta`, as a test. -/
def salutano (d : StatoSegreteria) : MossaSegreteria → Bool
  | .act (.read _ _) r => r ≠ []
  | .act .mysqlStoreResult (some rows) => rows.length % 2 ^ 32 = 1
  | _ => true

theorem salutano_ok (d : StatoSegreteria) (m : MossaSegreteria) (h : salutano d m = true) :
    Saluta d m := by
  refine ⟨?_, ?_⟩
  · rintro rows rfl -
    simpa [salutano] using h
  · rintro i s n - rfl
    simp [salutano] at h

/-- One student is let in and logs out: nothing is left of the session. -/
theorem descrittori_restituiti_uno : ∃ d s, d.prog = .ret (.esterno, s) ∧ s.dim = 1 ∧
    s.masterSet = [4, 3] ∧ SenzaPerdite 3 4 d := by
  have hrun : ((sportello 3).run salutano (aperturaDi (Buffer.ofInt 3).bytes) (entrato ++ uscito)).map alGiro =
      some (some (1, [4, 3])) := by decide +kernel
  obtain ⟨d, hd, heq⟩ := Option.map_eq_some_iff.mp hrun
  obtain ⟨s, hp, hdim, hset⟩ := alGiro_eq_some heq
  exact ⟨d, s, hp, hdim, hset, descrittori_restituiti (Solo.reach_run salutano_ok _ .init hd)⟩

end Universita

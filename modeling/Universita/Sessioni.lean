/-
  THE SESSIONS — whether each slot in use belongs to a student that was let in.

  A slot is live when its index is below `dim` and its descriptor is not the `-1` of a logout.  Four
  things are updated at four places (the table, `dim`, `master_set` and `max_fd`, the open
  descriptors), and the kernel gives a closed descriptor to the next student; `Tavola` says how they
  hang together at the head of each loop.

  `accept` writes into the slot behind the last one BEFORE the student is known, and a refused login leaves its
  descriptor there, in `master_set` and open: what makes a slot live is `dim` alone, which only a granted login moves.

  The property has one condition, on the rows of the login query: the code asks whether `mysql_num_rows`, stored in an
  `unsigned int`, is 1, and 2^32 + 1 rows are counted as one as well.  Everything else, the streams, `select`,
  `accept`, the operator, may be as it likes.

  The crux is what ties a slot to its past: the LAST turn that accepted its descriptor was its own login
  (`Controllato`).  A descriptor that is open is not returned by `accept`, so no later turn can have accepted it; that is
  why being open is part of the invariant.

  Contents:
  1. `Controllato` — the login in the past of a slot.
  2. `Viva`, `Tavola` — the invariant.
  3. `Tavola.cambia`, `Tavola.nuovo` — what keeps it: slots that stay as they are or are freed, and one
     more slot.
  4. **`Tavola.giro`**, **`tavola_run`** — every turn, and every run; `sessioni_in_ordine`.
-/
import Universita.Giro

set_option linter.unusedVariables false

namespace Universita

open Lib Lib.Stream

/-- Slot `i` is in use and its student has not logged out. A refused student's descriptor may be in the
    slot behind them, which is not in use. -/
def Segreteria.Vivo (s : Segreteria) (i : Nat) : Prop := i < s.dim ∧ (s.clientSockets i).connfd ≠ -1

instance (s : Segreteria) (i : Nat) : Decidable (s.Vivo i) := inferInstanceAs (Decidable (_ ∧ _))

/-- `Controllato buono past i c` — the last turn that accepted the descriptor of slot `i` put it there,
    looked up the matricola the slot holds, and found as many rows as `buono` wants. -/
def Controllato (buono : Nat → Prop) (past : Passato) (i : Nat) (c : ClientStud) : Prop :=
  ∃ prima s tr dopo testo ok rows, past = prima ++ ((.accetta, s), tr) :: dopo ∧ s.dim = i ∧
    ⟨.accept s.listenfd, c.connfd⟩ ∈ tr ∧ ⟨.mysqlQuery (.login c.matricola.toInt testo), ok⟩ ∈ tr ∧
    ⟨.mysqlStoreResult, some rows⟩ ∈ tr ∧ buono rows.length ∧
    ∀ t ∈ dopo, ∀ lfd, ⟨.accept lfd, c.connfd⟩ ∉ t.2

/-- It stays so until the descriptor is accepted again. -/
theorem Controllato.snoc {buono : Nat → Prop} {past : Passato} {i : Nat} {c : ClientStud}
    (h : Controllato buono past i c) {t : (Punto × Segreteria) × List Evento}
    (ht : ∀ lfd, ⟨.accept lfd, c.connfd⟩ ∉ t.2) : Controllato buono (past ++ [t]) i c := by
  obtain ⟨prima, s, tr, dopo, testo, ok, rows, rfl, hi, hacc, hlogin, hstore, hb, hdopo⟩ := h
  refine ⟨prima, s, tr, dopo ++ [t], testo, ok, rows, by simp, hi, hacc, hlogin, hstore, hb, ?_⟩
  intro u hu
  rcases List.mem_append.mp hu with h | h
  · exact hdopo u h
  · rw [List.mem_singleton.mp h]
    exact ht

/-- A slot is freed: it is in use no more, and the others as before. -/
theorem Segreteria.vivo_libera {s : Segreteria} {i j : Nat} {m : Buffer 4} :
    (s.conSlot i ⟨-1, m⟩).Vivo j ↔ s.Vivo j ∧ j ≠ i := by
  by_cases hji : j = i
  · subst hji
    refine iff_of_false (fun h => h.2 ?_) fun h => h.2 rfl
    rw [conSlot_self]
  · rw [Vivo, conSlot_altri hji]
    exact (and_iff_left hji).symm

/-- What is open stays open when one more is. -/
theorem aperto_update {l : Int → Option Nat} {fd fd' : Int} {c : Nat} (h : l fd' ≠ none) :
    Function.update l fd (some c) fd' ≠ none := by
  by_cases hfd : fd' = fd
  · rw [hfd, Function.update_self]
    exact Option.some_ne_none _
  · rwa [Function.update_of_ne hfd]

/-- `FD_SET` adds one descriptor. -/
theorem mem_fdSet {fd fd' : Int} {set : List Int} : fd' ∈ fdSet fd set ↔ fd' = fd ∨ fd' ∈ set := by
  rw [fdSet]
  split
  · rename_i h
    exact ⟨Or.inr, fun h' => h'.elim (fun heq => heq ▸ h) id⟩
  · exact List.mem_cons

theorem mem_fdClr {fd fd' : Int} {set : List Int} : fd' ∈ fdClr fd set ↔ fd' ∈ set ∧ fd' ≠ fd := by
  simp [fdClr]

/-! ## The invariant -/

section Tavola

variable {buono : Nat → Prop} {sockfd listenfd : Int} {past : Passato} {s s' : Segreteria}
  {l l' : LatoSegreteria}

/-- What is so of a live slot `i`, holding `c`: where its descriptor is and is not, and how its student
    came in. -/
structure Viva (buono : Nat → Prop) (sockfd listenfd : Int) (past : Passato) (s : Segreteria)
    (l : LatoSegreteria) (i : Nat) (c : ClientStud) : Prop where
  /-- Its descriptor is open ... -/
  aperta : l.descrittori c.connfd ≠ none
  /-- ... and is one ... -/
  nonnegativo : 0 ≤ c.connfd
  /-- ... `select` is asked about it ... -/
  inMaster : c.connfd ∈ s.masterSet
  /-- ... below its first argument ... -/
  leMax : c.connfd ≤ s.maxFd
  /-- ... it is neither of the two sockets ... -/
  neListenfd : c.connfd ≠ listenfd
  /-- ... the listening one or the server's ... -/
  neSockfd : c.connfd ≠ sockfd
  /-- ... and its student was let in. -/
  controllato : Controllato buono past i c

/-- **The invariant** at the head of each loop, behind the turns `past`. `buono` is what a login must
    have found; the properties of the sessions differ in it. -/
structure Tavola (buono : Nat → Prop) (sockfd listenfd : Int) (past : Passato) (s : Segreteria)
    (l : LatoSegreteria) : Prop where
  /-- The two sockets do not change ... -/
  sockfd_eq : s.sockfd = sockfd
  /-- ... neither this one ... -/
  listenfd_eq : s.listenfd = listenfd
  /-- ... each live slot is in order ... -/
  viva : ∀ i, s.Vivo i → Viva buono sockfd listenfd past s l i (s.clientSockets i)
  /-- ... and no two have one descriptor. -/
  distinti : ∀ i j, s.Vivo i → s.Vivo j → (s.clientSockets i).connfd = (s.clientSockets j).connfd → i = j

/-- At the start no slot is live, whatever the table holds. -/
theorem tavola_iniziale (behaviour : Buffer 4) (logical : Int) (slots : Nat → ClientStud) :
    Tavola buono sockfd listenfd [] (Segreteria.iniziale sockfd listenfd behaviour logical slots) l where
  sockfd_eq := rfl
  listenfd_eq := rfl
  viva i hi := absurd hi.1 (Nat.not_lt_zero i)
  distinti i j hi _ _ := absurd hi.1 (Nat.not_lt_zero i)

/-- A turn after which every live slot was live before, holds what it held, stays in `master_set` and
    open, and whose descriptor the turn did not accept: the general rule for turns that add nobody. -/
theorem Tavola.cambia (h : Tavola buono sockfd listenfd past s l) {t : (Punto × Segreteria) × List Evento}
    (hsock : s'.sockfd = s.sockfd) (hlisten : s'.listenfd = s.listenfd) (hmax : s.maxFd ≤ s'.maxFd)
    (hvivo : ∀ i, s'.Vivo i → s.Vivo i ∧ s'.clientSockets i = s.clientSockets i)
    (hmaster : ∀ i, s'.Vivo i → (s.clientSockets i).connfd ∈ s.masterSet →
      (s.clientSockets i).connfd ∈ s'.masterSet)
    (haperta : ∀ i, s'.Vivo i → l.descrittori (s.clientSockets i).connfd ≠ none →
      l'.descrittori (s.clientSockets i).connfd ≠ none)
    (haccept : ∀ i, s'.Vivo i → ∀ lfd, ⟨.accept lfd, (s.clientSockets i).connfd⟩ ∉ t.2) :
    Tavola buono sockfd listenfd (past ++ [t]) s' l' where
  sockfd_eq := hsock.trans h.sockfd_eq
  listenfd_eq := hlisten.trans h.listenfd_eq
  viva i hi := by
    obtain ⟨hi₀, heq⟩ := hvivo i hi
    have hv := h.viva i hi₀
    rw [heq]
    exact ⟨haperta i hi hv.aperta, hv.nonnegativo, hmaster i hi hv.inMaster, hv.leMax.trans hmax,
      hv.neListenfd, hv.neSockfd, hv.controllato.snoc (haccept i hi)⟩
  distinti i j hi hj heq := by
    rw [(hvivo i hi).2, (hvivo j hj).2] at heq
    exact h.distinti i j (hvivo i hi).1 (hvivo j hj).1 heq

/-- One more slot, with a descriptor that no live slot holds: `accept` has just opened it, and every
    live slot's is open. -/
theorem Tavola.nuovo (h : Tavola buono sockfd listenfd past s l)
    (hviva : Viva buono sockfd listenfd past s l s.dim (s.clientSockets s.dim))
    (hnuovo : ∀ i, s.Vivo i → (s.clientSockets i).connfd ≠ (s.clientSockets s.dim).connfd) :
    Tavola buono sockfd listenfd past { s with dim := s.dim + 1 } l := by
  -- a live slot is one of the old ones, or the one behind them
  have hcasi : ∀ i, ({ s with dim := s.dim + 1 } : Segreteria).Vivo i → s.Vivo i ∨ i = s.dim := by
    intro i hi
    rcases Nat.lt_succ_iff_lt_or_eq.mp hi.1 with h | h
    · exact Or.inl ⟨h, hi.2⟩
    · exact Or.inr h
  refine ⟨h.sockfd_eq, h.listenfd_eq, fun i hi => ?_, fun i j hi hj heq => ?_⟩
  · have hv : Viva buono sockfd listenfd past s l i (s.clientSockets i) := by
      rcases hcasi i hi with hi | rfl
      · exact h.viva i hi
      · exact hviva
    exact ⟨hv.aperta, hv.nonnegativo, hv.inMaster, hv.leMax, hv.neListenfd, hv.neSockfd, hv.controllato⟩
  · rcases hcasi i hi with hi | rfl
    · rcases hcasi j hj with hj | rfl
      · exact h.distinti i j hi hj heq
      · exact absurd heq (hnuovo i hi)
    · rcases hcasi j hj with hj | rfl
      · exact absurd heq.symm (hnuovo j hj)
      · rfl

/-- A turn after which the live slots, `master_set` and the open descriptors are as before: nothing of
    the invariant is touched, and the past is one turn longer. -/
theorem Tavola.resta (h : Tavola buono sockfd listenfd past s l) {t : (Punto × Segreteria) × List Evento}
    (hsock : s'.sockfd = s.sockfd) (hlisten : s'.listenfd = s.listenfd) (hmax : s'.maxFd = s.maxFd)
    (hdim : s'.dim = s.dim) (hslot : s'.clientSockets = s.clientSockets)
    (hmaster : s'.masterSet = s.masterSet)
    (hl : l'.descrittori = l.descrittori) (ht : ∀ ev ∈ t.2, ev.1.Ferma) :
    Tavola buono sockfd listenfd (past ++ [t]) s' l' := by
  have hvivo : ∀ i, s'.Vivo i → s.Vivo i ∧ s'.clientSockets i = s.clientSockets i := by
    rintro i ⟨hi, hne⟩
    rw [hslot] at hne ⊢
    exact ⟨⟨hdim ▸ hi, hne⟩, rfl⟩
  exact h.cambia hsock hlisten hmax.ge hvivo (fun _ _ hm => hmaster ▸ hm) (fun _ _ ha => hl ▸ ha)
    fun i _ lfd hacc => ht _ hacc

/-- A turn writes slot `dim`, which is not in use: whatever a refused or failed `accept` leaves there is
    no slot yet. -/
theorem Tavola.prossimo (h : Tavola buono sockfd listenfd past s l)
    {t : (Punto × Segreteria) × List Evento}
    {c : ClientStud} (hsock : s'.sockfd = s.sockfd) (hlisten : s'.listenfd = s.listenfd)
    (hmax : s.maxFd ≤ s'.maxFd) (hdim : s'.dim = s.dim)
    (hslot : s'.clientSockets = Function.update s.clientSockets s.dim c)
    (hmaster : ∀ fd ∈ s.masterSet, fd ∈ s'.masterSet)
    (haperta : ∀ fd, l.descrittori fd ≠ none → l'.descrittori fd ≠ none)
    (haccept : ∀ lfd fd, ⟨.accept lfd, fd⟩ ∈ t.2 → fd < 0 ∨ l.descrittori fd = none) :
    Tavola buono sockfd listenfd (past ++ [t]) s' l' := by
  have hvivo : ∀ i, s'.Vivo i → s.Vivo i ∧ s'.clientSockets i = s.clientSockets i := by
    rintro i ⟨hi, hne⟩
    rw [hdim] at hi
    rw [hslot, Function.update_of_ne (Nat.ne_of_lt hi)] at hne ⊢
    exact ⟨⟨hi, hne⟩, rfl⟩
  refine h.cambia hsock hlisten hmax hvivo (fun i _ => hmaster _) (fun i _ => haperta _) ?_
  intro i hi lfd hacc
  have hv := h.viva i (hvivo i hi).1
  rcases haccept lfd _ hacc with hneg | hnone
  · exact absurd hv.nonnegativo (Int.not_le.mpr hneg)
  · exact hv.aperta hnone

/-- The descriptor that was accepted in a turn. -/
theorem accept_mem {nfds lfd lfd' fd fd' : Int} {rs ws : List Int} {pronti : Option (List Int × List Int)}
    {tr : List Evento} (ht : ∀ ev ∈ tr, ev.1.Ferma)
    (h : ⟨.accept lfd, fd⟩ ∈ (⟨.select nfds rs ws, pronti⟩ :: ⟨.accept lfd', fd'⟩ :: tr : List Evento)) :
    fd = fd' := by
  rcases List.mem_cons.mp h with h | h
  · cases h
  · rcases List.mem_cons.mp h with h | h
    · cases h
      rfl
    · exact absurd (ht _ h) id

/-- **Every turn restores it**, when each login it grants has as many rows as `buono` wants. By the
    constructors of `Giro`: a login adds a slot or leaves one behind the last, a logout frees its own,
    and all others change no slot. -/
theorem Tavola.giro {p p' : Punto} {tr : List Evento} (h : Tavola buono sockfd listenfd past s l)
    (hg : Giro sockfd l (p, s) tr (p', s') l')
    (hbuono : ∀ rows, ⟨.mysqlStoreResult, some rows⟩ ∈ tr → p = .accetta → rows.length % 2 ^ 32 = 1 →
      buono rows.length) :
    Tavola buono sockfd listenfd (past ++ [((p, s), tr)]) s' l' := by
  have hnil : ∀ ev ∈ ([] : List Evento), ev.1.Ferma := fun _ hev => absurd hev List.not_mem_nil
  cases hg with
  | esterno => exact h.resta rfl rfl rfl rfl rfl rfl rfl hnil
  | nessuna hl hd =>
    refine h.resta rfl rfl rfl rfl rfl rfl hd fun ev hev => ?_
    rw [List.mem_singleton.mp hev]
    trivial
  | fallita hdim hneg hd =>
    refine h.prossimo rfl rfl (Int.le_refl _) rfl rfl (fun _ hm => hm) (fun _ ha => hd ▸ ha) ?_
    intro lfd fd hacc
    rw [accept_mem hnil hacc]
    exact Or.inl hneg
  | @accettata _ tr nfds rs ws pronti fd c m pw testo ok rows _ hdim hpos hs hl hnone hd hferme hlogin hstore _ =>
    -- the turn of a refused login; a granted one also makes the slot a live one
    have hrif : Tavola buono sockfd listenfd (past ++ [((.accetta, s),
        ⟨.select nfds rs ws, pronti⟩ :: ⟨.accept s.listenfd,
          fd⟩ :: tr)]) ((s.conPronti pronti).registrata fd m pw) l' := by
      refine h.prossimo rfl rfl (Int.le_max_left _ _) rfl rfl ?_ ?_ ?_
      · exact fun fd' hm => mem_fdSet.mpr (Or.inr hm)
      · intro fd' ha
        rw [hd]
        exact aperto_update ha
      · exact fun lfd fd' hacc => Or.inr (accept_mem hferme hacc ▸ hnone)
    split
    · rename_i hrows
      have hself : ((s.conPronti pronti).registrata fd m pw).clientSockets s.dim = ⟨fd, m⟩ :=
        Segreteria.registrata_self (s := s.conPronti pronti)
      refine hrif.nuovo ?_ fun i hi heq => ?_
      · show Viva buono sockfd listenfd _ _ l' s.dim (((s.conPronti pronti).registrata fd m pw).clientSockets s.dim)
        rw [hself]
        refine ⟨?_, hpos, mem_fdSet.mpr (Or.inl rfl), Int.le_max_right _ _, h.listenfd_eq ▸ hl, hs, ?_⟩
        · rw [hd, Function.update_self]
          exact Option.some_ne_none _
        · refine ⟨past, s, _, [], testo, ok, rows, rfl, rfl, ?_, ?_, ?_, ?_, ?_⟩
          · exact List.mem_cons_of_mem _ List.mem_cons_self
          · exact List.mem_cons_of_mem _ (List.mem_cons_of_mem _ hlogin)
          · exact List.mem_cons_of_mem _ (List.mem_cons_of_mem _ hstore)
          · exact hbuono rows (List.mem_cons_of_mem _ (List.mem_cons_of_mem _ hstore)) rfl hrows
          · exact fun _ ht => absurd ht List.not_mem_nil
      · have hi' : i < s.dim := hi.1
        have hother : ((s.conPronti pronti).registrata fd m pw).clientSockets i = s.clientSockets i :=
          Segreteria.registrata_altri (s := s.conPronti pronti) hi'
        have hvi : s.Vivo i := ⟨hi', hother ▸ hi.2⟩
        have heq' : (s.clientSockets i).connfd = fd := by
          rw [← hother, heq]
          exact congrArg ClientStud.connfd hself
        exact (h.viva i hvi).aperta (heq' ▸ hnone)
    · exact hrif
  | passata hi hn => exact h.resta rfl rfl rfl rfl rfl rfl rfl hnil
  | servita hi h3 hd hferme =>
    refine h.resta rfl rfl rfl rfl rfl rfl hd fun ev hev => ?_
    rcases List.mem_cons.mp hev with rfl | hev
    · trivial
    · exact hferme ev hev
  | @uscita _ i r _ hi h3 hd =>
    have hvivo : ∀ j, (s.conSlot i ⟨-1, Buffer.ofInt 0⟩).Vivo j → s.Vivo j ∧
        (s.conSlot i ⟨-1, Buffer.ofInt 0⟩).clientSockets j = s.clientSockets j := by
      intro j hj
      obtain ⟨hj, hne⟩ := Segreteria.vivo_libera.mp hj
      exact ⟨hj, Segreteria.conSlot_altri hne⟩
    have hfd : ∀ j, (s.conSlot i ⟨-1, Buffer.ofInt 0⟩).Vivo j →
        (s.clientSockets j).connfd ≠ (s.clientSockets i).connfd := by
      intro j hj heq
      obtain ⟨hj, hne⟩ := Segreteria.vivo_libera.mp hj
      exact hne (h.distinti j i hj ⟨hi.1, hi.2.2⟩ heq)
    refine h.cambia rfl rfl (Int.le_refl _) hvivo (fun j hj hm => ?_) (fun j hj ha => ?_) fun j hj lfd hacc => ?_
    · exact mem_fdClr.mpr ⟨hm, hfd j hj⟩
    · rwa [hd, Function.update_of_ne (hfd j hj)]
    · rcases List.mem_cons.mp hacc with h | h
      · cases h
      · cases List.mem_singleton.mp h
  | finita hi => exact h.resta rfl rfl rfl rfl rfl rfl rfl hnil
  | operatore hd hferme => exact h.resta rfl rfl rfl rfl rfl rfl hd hferme

end Tavola

/-! ## Every run -/

/-- A state of the secretary alone. -/
abbrev StatoSegreteria := Solo.State Sys Sys.Ans (Punto × Segreteria) LatoSegreteria

/-- A move of it: an answer, or the next turn. -/
abbrev MossaSegreteria := Solo.Move Sys Sys.Ans

section Run

variable {C : StatoSegreteria → MossaSegreteria → Prop} {buono : Nat → Prop} {sockfd listenfd logical : Int}
  {behaviour : Buffer 4} {slots : Nat → ClientStud} {clienti : Nat → Bytes} {d : StatoSegreteria}

/-- Each login that is granted has as many rows as `buono` wants. -/
def Concede (buono : Nat → Prop) (d : StatoSegreteria) (m : MossaSegreteria) : Prop :=
  ∀ rows, m = .act .mysqlStoreResult (some rows) → d.turn.1 = .accetta → rows.length % 2 ^ 32 = 1 →
    buono rows.length

/-- **Every run**, from the turns it is made of: the invariant holds at the head of each loop, with the
    turn just done in the past. -/
theorem tavola_run (hC : ∀ d m, C d m → Concede buono d m)
    (hd : Solo.Reach (sportello sockfd) C (apertura sockfd listenfd behaviour logical slots clienti) d)
    {q : Punto × Segreteria} (hq : d.prog = .ret q) :
    Tavola buono sockfd listenfd (d.past ++ [(d.turn, d.trace)]) q.2 d.env := by
  let A : Passato → Punto × Segreteria → Vista₁ → (o : Sys) → o.Ans → Prop := fun _ q _ o r =>
    ∀ rows, (⟨o, r⟩ : Evento) = ⟨.mysqlStoreResult, some rows⟩ → q.1 = .accetta →
      rows.length % 2 ^ 32 = 1 →
      buono rows.length
  refine Solo.Reach.head (A := A) (B := fun _ _ _ => True)
    (I := fun past q l => Tavola buono sockfd listenfd past q.2 l) safe_giro ?_ (fun _ _ _ _ => trivial) (tavola_iniziale behaviour logical slots) trivial ?_ hd hq
  · rintro d o r hm rows heq
    cases heq
    exact hC d _ hm rows rfl
  · rintro past ⟨p, s⟩ l tr ⟨p', s'⟩ l' hI - hg hA
    refine hI.giro hg fun rows hmem => ?_
    obtain ⟨v, hv⟩ := hA.of_mem hmem
    exact hv rows rfl

/-- Serving a student leaves the slots of the others alone. -/
theorem Giro.altri {l l' : LatoSegreteria} {s s' : Segreteria} {p' : Punto} {tr : List Evento} {j : Nat}
    (hg : Giro sockfd l (.servi j, s) tr (p', s') l') {i : Nat} (hi : i ≠ j) :
    s'.clientSockets i = s.clientSockets i := by
  cases hg with
  | passata => rfl
  | servita => rfl
  | uscita => exact Function.update_of_ne hi _ _
  | finita => rfl

/-- The table is in order where `d` is at the head of a loop: what the live slots hold, and which slots
    the turn just done has changed. A turn that serves a student changes no slot but its own. -/
def InOrdine (sockfd listenfd : Int) (d : StatoSegreteria) : Prop :=
  ∀ p s, d.prog = .ret (p, s) →
    (∀ i, s.Vivo i →
      (s.clientSockets i).connfd ∈ s.masterSet ∧ (s.clientSockets i).connfd ≤ s.maxFd ∧
      (s.clientSockets i).connfd ≠ listenfd ∧ (s.clientSockets i).connfd ≠ sockfd ∧
      (∀ j, s.Vivo j → j ≠ i → (s.clientSockets i).connfd ≠ (s.clientSockets j).connfd) ∧
      Controllato (· = 1) (d.past ++ [(d.turn, d.trace)]) i (s.clientSockets i)) ∧
    ∀ j s₀, d.turn = (.servi j, s₀) → ∀ i ≠ j, s.clientSockets i = s₀.clientSockets i

/-- **The table stays in order** as long as no login is granted on another number of rows than one: in
    every state at the head of a loop each live slot is open, in `master_set`, below `max_fd`, different
    from the others, and its last acceptance was a login of its own matricola with one row. -/
theorem sessioni_in_ordine
    (hd : Solo.Reach (sportello sockfd) (Concede (· = 1))
      (apertura sockfd listenfd behaviour logical slots clienti) d) : InOrdine sockfd listenfd d := by
  intro p s hp
  have ht := tavola_run (fun _ _ h => h) hd hp
  refine ⟨fun i hi => ?_, fun j s₀ hturn i hi => ?_⟩
  · have hv := ht.viva i hi
    exact ⟨hv.inMaster, hv.leMax, hv.neListenfd, hv.neSockfd,
      fun j hj hji heq => hji (ht.distinti j i hj hi heq.symm), hv.controllato⟩
  · obtain ⟨l, hg⟩ := hd.done safe_giro hp
    rw [hturn] at hg
    exact hg.altri hi

/-- One student connects and sends nothing; its login query has `rows`, which are counted as one: it is
    let in, into the first slot. -/
theorem un_accesso {C : StatoSegreteria → MossaSegreteria → Prop} (rows : List Row)
    (hrows : rows.length % 2 ^ 32 = 1)
    (hC : ∀ d m, (∀ rows', m = .act .mysqlStoreResult (some rows') → rows' = rows) → C d m) :
    ∃ d, Solo.Reach (sportello 3) C
        (apertura 3 4 (Buffer.zero 4) 0 (fun _ => ⟨-1, Buffer.zero 4⟩) fun _ => []) d ∧
      (∃ s, d.prog = .ret (.accetta, s) ∧ s.Vivo 0) ∧
      ∀ t ∈ d.past ++ [(d.turn, d.trace)], ∀ r, ⟨.mysqlStoreResult, r⟩ ∈ t.2 → r = some rows := by
  have hC' : ∀ d (m : MossaSegreteria), (∀ r, m ≠ .act .mysqlStoreResult r) → C d m :=
    fun d m hm => hC d m fun r h => absurd h (hm _)
  have h₀ : Solo.Reach (sportello 3) C (apertura 3 4 (Buffer.zero 4) 0 (fun _ => ⟨-1, Buffer.zero 4⟩) fun _ => []) _ :=
    .init
  -- select, accept, the two reads, the statement, its result and the answer, one by one
  have h₁ := h₀.turn rfl (hC' _ _ nofun)
  have h₂ := h₁.act rfl (some ([4], [])) (hC' _ _ nofun) rfl
  have h₃ := h₂.act rfl 6 (hC' _ _ nofun) rfl
  have h₄ := h₃.act rfl [] (hC' _ _ nofun) rfl
  have h₅ := h₄.act rfl [] (hC' _ _ nofun) rfl
  have h₆ := h₅.act rfl () (hC' _ _ nofun) rfl
  have h₇ := h₆.act rfl true (hC' _ _ nofun) rfl
  have h₈ := h₇.act rfl (some rows) (hC _ _ fun rows' h => by cases h; rfl) rfl
  have hprog : ∀ {α β : Type} (p q : Programma α) (f : α → Programma β),
      ((if rows.length % 2 ^ 32 ≠ 1 then p else q) >>= f) = q >>= f :=
    fun p q f => congrArg (· >>= f) (if_neg (not_not_intro hrows))
  have h₉ := h₈.act (hprog _ _ _) () (hC' _ _ nofun) rfl
  refine ⟨_, h₉, ⟨_, rfl, ?_⟩, ?_⟩
  · exact ⟨Nat.zero_lt_one, by decide +kernel⟩
  · intro t ht r hr
    rcases List.mem_append.mp ht with ht | ht
    · rw [List.mem_singleton.mp ht] at hr
      exact absurd hr List.not_mem_nil
    · rw [List.mem_singleton.mp ht] at hr
      simp only [List.append_assoc, List.mem_append, List.mem_singleton, Sigma.mk.injEq, reduceCtorEq,
        false_and, false_or, or_false, true_and, heq_eq_eq] at hr
      exact hr.resolve_left List.not_mem_nil

/-- A connection with the descriptor `fd` is accepted, and its login granted on one row. -/
def loginDi (fd mat : Int) : List MossaSegreteria := [
  .act (.accept 4) fd, .act (.read fd 4) (Buffer.ofInt mat).bytes, .act (.read fd 255) ([0] : Bytes),
  .act (.printf (ascii "Matricola: " ++ dec mat ++ [10])) (), .act (.mysqlQuery (.login mat [])) true,
  .act .mysqlStoreResult (some [[]]), .act (.write fd (ascii "credenziali corrette, accesso consentito!")) ()]

/-- Two students connect, and send their matricole and empty passwords. -/
def dueStudenti : StatoSegreteria :=
  apertura 3 4 (Buffer.zero 4) 0 (fun _ => ⟨-1, Buffer.zero 4⟩) fun k => (Buffer.ofInt (k + 1)).bytes ++ [0]

/-- They do so in one round. -/
def dueLogin : List MossaSegreteria :=
  [.turn, .act (.select 5 [4, 3] [4, 3]) (some ([4], []))] ++ loginDi 6 1 ++
  [.turn, .act (.select 7 [4] []) (some ([4], []))] ++ loginDi 7 2

/-- `Concede (· = 1)`, as a test. -/
def concedeUna (_ : StatoSegreteria) : MossaSegreteria → Bool
  | .act .mysqlStoreResult (some rows) => rows.length = 1
  | _ => true

theorem concedeUna_ok (d : StatoSegreteria) (m : MossaSegreteria) (h : concedeUna d m = true) : Concede (· = 1) d m := by
  rintro rows rfl - -
  exact of_decide_eq_true h

/-- In the accepting loop, `dim` and the first two descriptors. -/
def accettati (d : StatoSegreteria) : Option (Nat × Int × Int) :=
  match d.prog with
  | .ret (.accetta, s) => some (s.dim, (s.clientSockets 0).connfd, (s.clientSockets 1).connfd)
  | _ => none

theorem accettati_eq_some {d : StatoSegreteria} {dim : Nat} {fd fd' : Int} (h : accettati d = some (dim, fd, fd')) :
    ∃ s, d.prog = .ret (.accetta, s) ∧ s.dim = dim ∧ (s.clientSockets 0).connfd = fd ∧
      (s.clientSockets 1).connfd = fd' := by
  unfold accettati at h
  split at h
  · rename_i s hs
    simp only [Option.some.injEq, Prod.mk.injEq] at h
    exact ⟨s, hs, h⟩
  · cases h

/-- Two logins granted on one row each: both slots are live, with different descriptors, and the login of each is in
    the past. -/
theorem sessioni_in_ordine_due : ∃ (d : StatoSegreteria) (s : Segreteria),
    Solo.Reach (sportello 3) (Concede (· = 1)) dueStudenti d ∧ d.prog = .ret (.accetta, s) ∧ s.Vivo 0 ∧ s.Vivo 1 ∧
    (s.clientSockets 1).connfd ≠ (s.clientSockets 0).connfd ∧
    ∀ i < 2, (s.clientSockets i).connfd ∈ s.masterSet ∧
      Controllato (· = 1) (d.past ++ [(d.turn, d.trace)]) i (s.clientSockets i) := by
  have hrun : ((sportello 3).run concedeUna dueStudenti dueLogin).map accettati = some (some (2, 6, 7)) := by
    decide +kernel
  obtain ⟨d, hd, heq⟩ := Option.map_eq_some_iff.mp hrun
  obtain ⟨s, hs, hdim, h0, h1⟩ := accettati_eq_some heq
  have hv0 : s.Vivo 0 := ⟨by rw [hdim]; decide, by rw [h0]; decide⟩
  have hv1 : s.Vivo 1 := ⟨by rw [hdim]; decide, by rw [h1]; decide⟩
  have hreach := Solo.reach_run concedeUna_ok _ .init hd
  have h := (sessioni_in_ordine hreach _ s hs).1
  refine ⟨d, s, hreach, hs, hv0, hv1, (h 1 hv1).2.2.2.2.1 0 hv0 (by decide), fun i hi => ?_⟩
  have hv : s.Vivo i := by
    rcases Nat.lt_succ_iff_lt_or_eq.mp hi with hi | rfl
    · obtain rfl := Nat.lt_one_iff.mp hi
      exact hv0
    · exact hv1
  exact ⟨(h i hv).1, (h i hv).2.2.2.2.2⟩

/-- `num_rows` is an `unsigned int`: 2^32 + 1 rows are counted as one, and the login is granted without
    its one row. -/
theorem righe_contate_male : ¬ ∀ {sockfd listenfd logical : Int} {behaviour : Buffer 4}
    {slots : Nat → ClientStud} {clienti : Nat → Bytes} {d : StatoSegreteria},
    Solo.Reach (sportello sockfd) (fun _ _ => True) (apertura sockfd listenfd behaviour logical slots clienti) d →
      InOrdine sockfd listenfd d := by
  intro h
  have hlen : (List.replicate (2 ^ 32 + 1) ([] : Row)).length = 2 ^ 32 + 1 := List.length_replicate
  obtain ⟨d, hd, ⟨s, hs, hv⟩, hrows⟩ := un_accesso (C := fun _ _ => True)
    (List.replicate (2 ^ 32 + 1) []) (by rw [hlen]; rfl) fun _ _ _ => trivial
  obtain ⟨prima, s₀, tr, dopo, testo, ok, rows, hpast, -, -, -, hstore, hone, -⟩ :=
    ((h hd _ s hs).1 0 hv).2.2.2.2.2
  have hmem : ((.accetta, s₀), tr) ∈ d.past ++ [(d.turn, d.trace)] := by
    rw [hpast]
    exact List.mem_append_right _ List.mem_cons_self
  obtain rfl := Option.some.inj (hrows _ hmem _ hstore)
  omega

end Run

end Universita

/-
  ONE BOOKING FOR ONE REQUEST — from what the students send to what the server executes.

  A student sends requests and may break off after any byte.  The secretary keeps the request code in
  a variable of `main` and checks no read; the server finds the requests on its stream by counting
  bytes.  A booking that no student sent is executed when the secretary takes an old code for a new one,
  or when the server takes a code from within a request.

  The property is an injection (`UnaPerUna`): what the server executed, one by one, are the requests of a
  list without repetitions, each a booking that its student sent whole.  The condition is on the moves, and says
  of each of the two dangers that it does not occur at THIS move: when the secretary is about to serve and will
  find code 2 in its variable, a whole booking comes next on that stream (`Pronta`); when the server takes code 2,
  it is at the start of a request (`Allineato`); and reads of ints are whole (`IntIntero`).

  The crux is that each hop forgets where a request came from: the proof carries, next to what was
  forwarded, the place in the students' streams it was read from (`Messaggio`), and shows that no
  place is used twice.  A place is behind what is unread, so a booking read now has a place that no earlier one can
  have had (`Inoltro.lette`); and the server, which only ever moves forward on its stream, executes no request twice
  (`Eseguite.dietro`).

  Contents:
  1. `Richiesta`, `Cliente` — what a student sends; `Cliente.spedita` — its `j`-th request is a booking
     that was sent whole.
  2. `UnaPerUna` — the property; `Pronta`, `IntIntero` — the condition.
  3. `inoltro` — the secretary alone: what it forwards was sent, and no request is forwarded twice.
  4. `esegue` — the server: what it executes was forwarded, and nothing is executed twice.
  5. **`una_per_una`**.
  6. `prenotazione_fantasma` — without the condition: a student who booked once and left, and a second booking.
-/
import Universita.Allineamento
import Universita.Turno

set_option linter.unusedVariables false

namespace Universita

open Lib Lib.Stream

/-! ## What a student sends -/

/-- A request, as the student program writes it. What is no list and no booking is one code, which leads
    to nothing. -/
inductive Richiesta where
  /-- Code 1, the choice, with choice 2 a name. -/
  | elenco (scelta : Buffer 4) (nome : Bytes)
  /-- Code 2. -/
  | prenotazione (cod mat : Buffer 4)
  | altra (codice : Buffer 4) (h : codice.toInt ≠ 1 ∧ codice.toInt ≠ 2)

/-- The bytes it sends. -/
def Richiesta.bytes : Richiesta → Bytes
  | elenco scelta nome =>
      (Buffer.ofInt 1).bytes ++ scelta.bytes ++ if scelta.toInt = 2 then nome else []
  | prenotazione cod mat => (Buffer.ofInt 2).bytes ++ cod.bytes ++ mat.bytes
  | altra codice _ => codice.bytes

/-- A student: the login, the requests, and after how many bytes it breaks off. All that is ever read of
    it is the beginning of what it would send. -/
structure Cliente where
  /-- The matricola of the login ... -/
  mat : Buffer 4
  /-- ... and the password, sent as its whole buffer. -/
  password : Buffer 255
  /-- What it asks for, in order. -/
  richieste : List Richiesta
  /-- The bytes it gets to send: fewer than all of them when it breaks off. -/
  inviati : Nat

namespace Cliente

/-- Everything it would send. -/
def tutto (c : Cliente) : Bytes := c.mat.bytes ++ c.password.bytes ++ c.richieste.flatMap Richiesta.bytes

/-- What it sends. -/
def flusso (c : Cliente) : Bytes := c.tutto.take c.inviati

/-- Where its `j`-th request starts. -/
def inizio (c : Cliente) (j : Nat) : Nat := 259 + ((c.richieste.take j).flatMap Richiesta.bytes).length

/-- The booking that is its `j`-th request, if all of it was sent. A booking that breaks off in the
    middle is none. -/
def spedita (c : Cliente) (j : Nat) : Option (Int × Int) :=
  match c.richieste[j]? with
  | some (.prenotazione cod mat) =>
      if c.inizio j + 12 ≤ c.inviati then some (cod.toInt, mat.toInt) else none
  | _ => none

/-- With `n` bytes unread, a booking comes next, and all of it was sent: the place of the next byte is
    counted from the end of the stream. -/
def Prossima (c : Cliente) (n : Nat) : Prop :=
  ∃ j, (c.spedita j).isSome ∧ n + c.inizio j = c.flusso.length

/-- The bytes behind the start of a booking that was sent whole: its code, its two numbers, and whatever
    the student sent later. -/
theorem flusso_drop {c : Cliente} {j : Nat} {e : Int × Int} (h : c.spedita j = some e) :
    ∃ (cod mat : Buffer 4) (resto : Bytes), e = (cod.toInt, mat.toInt) ∧
      c.flusso.drop (c.inizio j) = (Buffer.ofInt 2).bytes ++ (cod.bytes ++ (mat.bytes ++ resto)) := by
  unfold spedita at h
  split at h
  · rename_i cod mat hj
    split at h
    · rename_i hlen
      obtain ⟨hlt, hget⟩ := List.getElem?_eq_some_iff.mp hj
      refine ⟨cod, mat, (((c.richieste.drop (j + 1)).flatMap Richiesta.bytes).take
        (c.inviati - (c.inizio j + 12))), (Option.some.inj h).symm, ?_⟩
      -- everything the student sends, with the `j`-th request set apart
      have hsplit : c.tutto = (c.mat.bytes ++ c.password.bytes ++
          (c.richieste.take j).flatMap Richiesta.bytes) ++ ((Buffer.ofInt 2).bytes ++ (cod.bytes ++
            (mat.bytes ++ (c.richieste.drop (j + 1)).flatMap Richiesta.bytes))) := by
        have hr : c.richieste = c.richieste.take j ++ .prenotazione cod mat :: c.richieste.drop (j + 1) := by
          rw [← hget, List.getElem_cons_drop, List.take_append_drop]
        rw [tutto]
        nth_rewrite 1 [hr]
        rw [List.flatMap_append, List.flatMap_cons, Richiesta.bytes]
        simp only [List.append_assoc]
      have hpre : (c.mat.bytes ++ c.password.bytes ++
          (c.richieste.take j).flatMap Richiesta.bytes).length = c.inizio j := by
        rw [List.length_append, List.length_append, c.mat.size_eq, c.password.size_eq, inizio]
      have hn : c.inviati - c.inizio j = (Buffer.ofInt 2).bytes.length + (cod.bytes.length +
          (mat.bytes.length + (c.inviati - (c.inizio j + 12)))) := by
        rw [Buffer.size_eq, cod.size_eq, mat.size_eq]
        omega
      -- all twelve bytes of it were sent, so the cut falls behind them
      rw [flusso, List.drop_take, hsplit, ← hpre, List.drop_left, hpre, hn,
        List.take_length_add_append, List.take_length_add_append, List.take_length_add_append]
    · cases h
  · cases h

end Cliente

/-! ## What is forwarded -/

/-- A request to the server; a booking with the place it was read from: the student, and which of the
    student's requests. -/
inductive Messaggio where
  | appello (nome data : Bytes)
  | prenotazione (cod mat : Buffer 4) (o : Nat × Nat)

/-- The three writes it is forwarded with. -/
def Messaggio.scritture : Messaggio → List Bytes
  | appello nome data => [(Buffer.ofInt 1).bytes, nome, data]
  | prenotazione cod mat _ => [(Buffer.ofInt 2).bytes, cod.bytes, mat.bytes]

/-- Each booking was sent, at its place, and no two have the same place. A place is a connection and the
    number of a request in it, so one request cannot be forwarded twice. -/
structure Autentici (clienti : Nat → Cliente) (ms : List Messaggio) : Prop where
  /-- A forwarded booking is the request at its place ... -/
  spedite : ∀ (k : Nat) cod mat o, ms[k]? = some (.prenotazione cod mat o) →
    (clienti o.1).spedita o.2 = some (cod.toInt, mat.toInt)
  /-- ... and no other one has that place. -/
  distinte : ∀ (k k' : Nat) cod mat cod' mat' o, ms[k]? = some (.prenotazione cod mat o) →
    ms[k']? = some (.prenotazione cod' mat' o) → k = k'

/-- What was forwarded, a request in the making included, is authentic: it is the beginning of the
    writes of some authentic requests. -/
def Inoltrate (clienti : Nat → Cliente) (l : LatoSegreteria) : Prop :=
  ∃ ms, Autentici clienti ms ∧ l.inviate <+: ms.flatMap Messaggio.scritture

/-- The requests `ms` were forwarded, and of the next one the writes `ws`; the places used lie in front
    of what is unread. -/
structure Inoltro (clienti : Nat → Cliente) (l : LatoSegreteria) (ms : List Messaggio)
    (ws : List Bytes) : Prop where
  /-- What was forwarded is authentic. -/
  autentici : Autentici clienti ms
  /-- The writes are those of the requests, and of the next one so far. -/
  inviate : l.inviate = ms.flatMap Messaggio.scritture ++ ws
  /-- What is unread of a student is an end of what it sent. -/
  flussi : ∀ c, l.clienti c <:+ (clienti c).flusso
  /-- The places used lie in front of it. -/
  lette : ∀ cod mat o, .prenotazione cod mat o ∈ ms →
    (clienti o.1).inizio o.2 + 12 + (l.clienti o.1).length ≤ (clienti o.1).flusso.length

section Inoltro

variable {clienti : Nat → Cliente} {ms : List Messaggio} {l l' : LatoSegreteria}

/-- An element of a list with one more at its end is one of the old ones, or that. -/
theorem getElem?_concat {α : Type} {xs : List α} {x y : α} {k : Nat} (h : (xs ++ [x])[k]? = some y) :
    xs[k]? = some y ∨ k = xs.length ∧ y = x := by
  rcases Nat.lt_trichotomy k xs.length with hk | rfl | hk
  · exact Or.inl (by rw [← h, List.getElem?_append_left hk])
  · rw [List.getElem?_concat_length] at h
    exact Or.inr ⟨rfl, (Option.some.inj h).symm⟩
  · rw [List.getElem?_eq_none (by rw [List.length_append, List.length_singleton]; omega)] at h
    cases h

/-- An appello has no place, so it disturbs none. -/
theorem Autentici.appello (h : Autentici clienti ms) (nome data : Bytes) :
    Autentici clienti (ms ++ [.appello nome data]) := by
  have hms : ∀ (k : Nat) cod mat o, (ms ++ [.appello nome data])[k]? = some (.prenotazione cod mat o) →
      ms[k]? = some (.prenotazione cod mat o) := by
    intro k cod mat o hk
    rcases getElem?_concat hk with hk | ⟨-, hk⟩
    · exact hk
    · cases hk
  exact ⟨fun k cod mat o hk => h.spedite k cod mat o (hms _ _ _ _ hk),
    fun k k' _ _ _ _ o hk hk' => h.distinte k k' _ _ _ _ o (hms _ _ _ _ hk) (hms _ _ _ _ hk')⟩

/-- A booking from a place that was not used: the places stay different, and each is one of a booking
    that was sent. -/
theorem Autentici.prenotazione (h : Autentici clienti ms) {cod mat : Buffer 4} {o : Nat × Nat}
    (ho : (clienti o.1).spedita o.2 = some (cod.toInt, mat.toInt))
    (hnuova : ∀ cod' mat', .prenotazione cod' mat' o ∉ ms) :
    Autentici clienti (ms ++ [.prenotazione cod mat o]) := by
  refine ⟨fun k cod' mat' o' hk => ?_, fun k k' cod₁ mat₁ cod₂ mat₂ o' hk hk' => ?_⟩
  · rcases getElem?_concat hk with hk | ⟨-, hk⟩
    · exact h.spedite k cod' mat' o' hk
    · cases hk
      exact ho
  · rcases getElem?_concat hk with h1 | ⟨h1, heq⟩ <;> rcases getElem?_concat hk' with h2 | ⟨h2, heq'⟩
    · exact h.distinte k k' _ _ _ _ o' h1 h2
    · cases heq'
      exact absurd (List.mem_of_getElem? h1) (hnuova _ _)
    · cases heq
      exact absurd (List.mem_of_getElem? h2) (hnuova _ _)
    · rw [h1, h2]

/-- Some of the writes of one more authentic request. -/
theorem Inoltro.inoltrate {ws : List Bytes} (h : Inoltro clienti l ms ws) {m : Messaggio}
    (hm : Autentici clienti (ms ++ [m])) (hws : ws <+: m.scritture) : Inoltrate clienti l := by
  refine ⟨_, hm, ?_⟩
  rw [h.inviate, List.flatMap_append, List.flatMap_singleton]
  exact (List.prefix_append_right_inj _).mpr hws

theorem Inoltro.fra (h : Inoltro clienti l ms []) : Inoltrate clienti l :=
  h.inoltrate (h.autentici.appello [] []) List.nil_prefix

end Inoltro

/-! ## The secretary alone -/

/-- One answer to the secretary. -/
def inoltra (sockfd : Int) (l : LatoSegreteria) (o : Sys) (r : o.Ans) (l' : LatoSegreteria) : Prop :=
  l.chiama sockfd o r = some l' ∧ LeggeInt l o r

section Segretaria

variable {clienti : Nat → Cliente} {ms : List Messaggio} {ws : List Bytes} {sockfd : Int}
  {l l' : LatoSegreteria}

/-- Calls that leave the server's socket alone. -/
theorem Inoltro.estranea {o : Sys} {r : o.Ans} (h : Inoltro clienti l ms ws) (ho : ¬ o.Usa sockfd)
    (hl : inoltra sockfd l o r l') : Inoltro clienti l' ms ws := by
  have heff := LatoSegreteria.chiama_effetto hl.1
  refine ⟨h.autentici, ?_, fun c => (heff.clienti c).trans (h.flussi c), fun cod mat o hm => ?_⟩
  · rw [heff.inviate, scrittura_estranea ho, List.append_nil, h.inviate]
  · have := h.lette cod mat o hm
    have := (heff.clienti o.1).length_le
    omega

/-- A write to the server is the next of the request. -/
theorem Inoltro.write {bs : Bytes} {u : Unit} (h : Inoltro clienti l ms ws)
    (hl : inoltra sockfd l (.write sockfd bs) u l') : Inoltro clienti l' ms (ws ++ [bs]) := by
  have hl := hl.1
  simp only [LatoSegreteria.chiama, if_true, Option.some.injEq] at hl
  subst hl
  exact ⟨h.autentici, by rw [h.inviate, List.append_assoc], h.flussi, h.lette⟩

/-- The read of the outcome changes nothing of what was forwarded. -/
theorem Inoltro.esito {n : Nat} {r : Bytes} (h : Inoltro clienti l ms ws)
    (hl : inoltra sockfd l (.read sockfd n) r l') : Inoltro clienti l' ms ws := by
  have hl := hl.1
  simp only [LatoSegreteria.chiama, if_true, Option.some.injEq] at hl
  subst hl
  exact ⟨h.autentici, h.inviate, h.flussi, h.lette⟩

/-- While a booking of connection `c` is forwarded: what is unread of it, so that the reads to come are
    known. -/
structure InCorso (clienti : Nat → Cliente) (ms : List Messaggio) (fd : Int) (c : Nat)
    (l : LatoSegreteria) (ws : List Bytes) (resto : Bytes) : Prop where
  /-- What was forwarded so far. -/
  inoltro : Inoltro clienti l ms ws
  /-- The connection that is served. -/
  descrittore : l.descrittori fd = some c
  /-- What is unread of it. -/
  resto : l.clienti c = resto

section InCorso

variable {fd : Int} {c : Nat} {resto : Bytes}

theorem InCorso.write (h : InCorso clienti ms fd c l ws resto) {bs : Bytes} {u : Unit}
    (hl : inoltra sockfd l (.write sockfd bs) u l') : InCorso clienti ms fd c l' (ws ++ [bs]) resto := by
  refine ⟨h.inoltro.write hl, ?_, ?_⟩
  all_goals
    obtain rfl := Option.some.inj hl.1
    simp only [if_true]
  · exact h.descrittore
  · exact h.resto

/-- The write to the server and the read of the outcome both leave the student's stream. -/
theorem InCorso.esito (h : InCorso clienti ms fd c l ws resto) {n : Nat} {r : Bytes}
    (hl : inoltra sockfd l (.read sockfd n) r l') : InCorso clienti ms fd c l' ws resto := by
  have hl' := hl.1
  simp only [LatoSegreteria.chiama, if_true, Option.some.injEq] at hl'
  refine ⟨h.inoltro.esito hl, ?_, ?_⟩
  · rw [← hl']; exact h.descrittore
  · rw [← hl']; exact h.resto

/-- A read of an int from the student takes the next four bytes. -/
theorem InCorso.read {b : Buffer 4} (h : InCorso clienti ms fd c l ws (b.bytes ++ resto))
    (hfd : fd ≠ sockfd) {r : Bytes} (hl : inoltra sockfd l (.read fd 4) r l') :
    r = b.bytes ∧ InCorso clienti ms fd c l' ws resto := by
  obtain ⟨hr, hresto, hd⟩ := LeggeInt.read hfd h.descrittore h.resto hl.1 hl.2
  exact ⟨hr, h.inoltro.estranea (o := .read fd 4) hfd hl, by rw [hd]; exact h.descrittore, hresto⟩

end InCorso

/-- **Forwarding a booking whose two numbers are what is unread.** The reads are whole, so the three
    writes are the booking's own; its place is used up with them. -/
theorem inoltra_prenota {s : Segreteria} {slot : ClientStud} {c j : Nat} {cod mat : Buffer 4}
    {resto : Bytes} (hs : s.sockfd = sockfd) (hfd : slot.connfd ≠ sockfd)
    (hb : s.behaviour = Buffer.ofInt 2) (hj : (clienti c).spedita j = some (cod.toInt, mat.toInt))
    (hl : InCorso clienti ms slot.connfd c l [] (cod.bytes ++ (mat.bytes ++ resto)))
    (hpos : (clienti c).inizio j + 12 + resto.length = (clienti c).flusso.length) :
    (s.prenota slot).Safe (inoltra sockfd) (fun l _ => Inoltrate clienti l)
      (fun _ l' => ∃ ms, Inoltro clienti l' ms []) l := by
  subst hs
  -- its place is new: the places used lie in front of what is unread
  have hnuova : ∀ cod' mat', .prenotazione cod' mat' (c, j) ∉ ms := by
    intro cod' mat' hm
    have := hl.inoltro.lette cod' mat' (c, j) hm
    simp only [hl.resto, List.length_append, cod.size_eq, mat.size_eq] at this
    omega
  have haut := hl.inoltro.autentici.prenotazione (o := (c, j)) hj hnuova
  have hfatte : ∀ {l' ws resto'}, InCorso clienti ms slot.connfd c l' ws resto' →
      ws <+: [(Buffer.ofInt 2).bytes, cod.bytes, mat.bytes] → Inoltrate clienti l' :=
    fun h hws => h.inoltro.inoltrate haut hws
  -- two uninitialised variables, the code, the two reads from the student, the two numbers, the outcome
  refine ⟨hl.inoltro.fra, fun _ l₁ h => ?_⟩
  obtain rfl := Option.some.inj h.1
  refine ⟨hl.inoltro.fra, fun _ l₂ h => ?_⟩
  obtain rfl := Option.some.inj h.1
  refine ⟨hl.inoltro.fra, fun _ l₃ h => ?_⟩
  have h₃ := hl.write h
  rw [hb] at h₃
  refine ⟨hfatte h₃ ⟨_, rfl⟩, fun r l₄ h => ?_⟩
  obtain ⟨rfl, h₄⟩ := h₃.read hfd h
  refine ⟨hfatte h₄ ⟨_, rfl⟩, fun r l₅ h => ?_⟩
  obtain ⟨rfl, h₅⟩ := h₄.read hfd h
  refine ⟨hfatte h₅ ⟨_, rfl⟩, fun _ l₆ h => ?_⟩
  have h₆ := h₅.write h
  rw [Buffer.overlay_full] at h₆
  refine ⟨hfatte h₆ ⟨_, rfl⟩, fun _ l₇ h => ?_⟩
  have h₇ := h₆.write h
  rw [Buffer.overlay_full] at h₇
  refine ⟨hfatte h₇ ⟨_, rfl⟩, fun res l₈ h => ?_⟩
  have h₈ := h₇.esito h
  refine ⟨hfatte h₈ ⟨_, rfl⟩, fun _ l₉ h => ?_⟩
  have h₉ := h₈.inoltro.estranea (o := .write slot.connfd _) hfd h
  have hl₉ : l₉.clienti c = resto := by
    have hl := h.1
    simp only [LatoSegreteria.chiama, if_neg hfd, Option.some.injEq] at hl
    rw [← hl]
    exact h₈.resto
  refine ⟨_, haut, ?_, h₉.flussi, fun cod' mat' o hm => ?_⟩
  · rw [h₉.inviate, List.flatMap_append, List.flatMap_singleton, List.append_nil]
    rfl
  · rcases List.mem_append.mp hm with hm | hm
    · exact h₉.lette cod' mat' o hm
    · cases List.mem_singleton.mp hm
      show (clienti c).inizio j + 12 + (l₉.clienti c).length ≤ (clienti c).flusso.length
      rw [hl₉]
      omega

/-- The operator's appello: three writes of a request that has no place, since no student asked for it. -/
theorem inoltra_nuovoAppello {s : Segreteria} (hs : Distinta sockfd s) (hl : Inoltro clienti l ms []) :
    s.nuovoAppello.Safe (inoltra sockfd) (fun l _ => Inoltrate clienti l)
      (fun s' l' => Distinta sockfd s' ∧ ∃ ms, Inoltro clienti l' ms []) l := by
  obtain ⟨rfl, hslot⟩ := hs
  -- whatever is typed, a message of this kind may be under way
  have haut := hl.autentici.appello
  have estraneo : ∀ {α : Type} {p : Programma α} {l : LatoSegreteria} {ws : List Bytes} {n d : Bytes},
      Estraneo s.sockfd p (fun _ => True) → Inoltro clienti l ms ws →
      ws <+: (Messaggio.appello n d).scritture →
      p.Safe (inoltra s.sockfd) (fun l _ => Inoltrate clienti l) (fun _ l' => Inoltro clienti l' ms ws) l := by
    intro α p l ws n d hp hl hws
    refine (Prog.Only.safe (K := fun l' => Inoltro clienti l' ms ws) hp ?_ ?_ hl).mono fun _ _ h => h.2
    · intro l' _ h _; exact h.inoltrate (haut n d) hws
    · intro l₁ o r l₂ h ho h'; exact ⟨chiama_nuovo h'.1, h.estranea ho h'⟩
  refine ⟨hl.fra, fun _ l₁ h => ?_⟩
  have h₁ := hl.write h
  show Prog.Safe _ _ (leggiRiga s.name >>= _) _ _
  rw [Prog.safe_bind]
  refine (estraneo (n := []) (d := []) ((locale_leggiRiga _).estraneo List.not_mem_nil) h₁ ⟨_, rfl⟩).mono
    fun name l₂ h₂ => ?_
  refine ⟨h₂.inoltrate (haut [] []) ⟨_, rfl⟩, fun _ l₃ h => ?_⟩
  have h₃ := h₂.write h
  show Prog.Safe _ _ (leggiRiga s.date >>= _) _ _
  rw [Prog.safe_bind]
  refine (estraneo (n := cstr name.bytes) (d := []) ((locale_leggiRiga _).estraneo List.not_mem_nil) h₃
    ⟨_, rfl⟩).mono fun date l₄ h₄ => ?_
  refine ⟨h₄.inoltrate (haut (cstr name.bytes) []) ⟨_, rfl⟩, fun _ l₅ h => ?_⟩
  have h₅ := h₄.write h
  refine ⟨h₅.inoltrate (haut (cstr name.bytes) (cstr date.bytes)) ⟨_, rfl⟩, fun res l₆ h => ?_⟩
  have h₆ := h₅.esito h
  show Prog.Safe _ _ (cString _ >>= _) _ _
  rw [Prog.safe_bind]
  refine (estraneo (n := cstr name.bytes) (d := cstr date.bytes) ((locale_cString _).estraneo List.not_mem_nil) h₆
    ⟨_, rfl⟩).mono fun esito l₇ h₇ => ?_
  refine ⟨h₇.inoltrate (haut (cstr name.bytes) (cstr date.bytes)) ⟨_, rfl⟩, fun _ l₈ h => ?_⟩
  have h₈ := h₇.estranea (o := .printf _) (fun h => h) h
  refine ⟨⟨rfl, hslot⟩, _, haut (cstr name.bytes) (cstr date.bytes), ?_, h₈.flussi,
    fun cod mat o hm => ?_⟩
  · rw [h₈.inviate, List.flatMap_append, List.flatMap_singleton, List.append_nil]
    rfl
  · rcases List.mem_append.mp hm with hm | hm
    · exact h₈.lette cod mat o hm
    · cases List.mem_singleton.mp hm

end Segretaria

/-! ## The condition -/

/-- A read of an int by the server returns all four bytes. -/
def Intera : (o : Sys) → o.Ans → Prop
  | .read _ n, r => n = 4 → r.length = 4
  | _, _ => True

/-- Reads of ints are whole, on both sides. -/
def IntIntero (d : Stato) : Mossa → Prop
  | .act₁ o r => LeggeInt d.env.seg o r
  | .act₂ o r => Intera o r
  | _ => True

/-- When the secretary is about to serve a student and will find code 2 in `behaviour`, what is unread
    of that student starts with a booking that was sent whole. -/
def Pronta (clienti : Nat → Cliente) (d : Stato) : Mossa → Prop
  | .turn₁ => ∀ i s, d.prog₁ = .ret (.servi i, s) → s.Servito i →
      (s.behaviour.overlay (prossimi d.env.seg (s.clientSockets i).connfd)).toInt = 2 →
      ∃ c, d.env.seg.descrittori (s.clientSockets i).connfd = some c ∧
        (clienti c).Prossima (d.env.seg.clienti c).length
  | _ => True

section Corse

variable {sockfd : Int} {clienti : Nat → Cliente} {C : Stato → Mossa → Prop} {s : Segreteria}
  {t : Server} {d : Stato}

/-- Serving a student whose next request is a booking: the code is taken, and with it the place in the
    stream moves to the two numbers. -/
theorem inoltra_codice {l l₁ : LatoSegreteria} {ms : List Messaggio} {q : Segreteria} {i : Nat}
    (hq : Distinta sockfd q) (hl : Inoltro clienti l ms []) (hi : q.Servito i) {r : Bytes}
    (hr : inoltra sockfd l (.read (q.clientSockets i).connfd 4) r l₁)
    (h2 : (q.behaviour.overlay r).toInt = 2)
    (hpronta : (q.behaviour.overlay (prossimi l (q.clientSockets i).connfd)).toInt = 2 →
      ∃ c, l.descrittori (q.clientSockets i).connfd = some c ∧
        (clienti c).Prossima (l.clienti c).length) :
    ({ q with behaviour := q.behaviour.overlay r }.prenota (q.clientSockets i)).Safe (inoltra sockfd)
      (fun l _ => Inoltrate clienti l) (fun _ l' => ∃ ms, Inoltro clienti l' ms []) l₁ := by
  have hfd := hq.slot i hi.1
  have hprossimi := LeggeInt.prossimi hfd hr.1 hr.2
  obtain ⟨c, hc, j, hsome, hpos⟩ := hpronta (by rw [← hprossimi]; exact h2)
  obtain ⟨e, hj⟩ := Option.isSome_iff_exists.mp hsome
  obtain ⟨cod, mat, resto, rfl, hdrop⟩ := Cliente.flusso_drop hj
  -- the place in front of which the slot's stream stands is the beginning of that booking
  have hunread : l.clienti c = (Buffer.ofInt 2).bytes ++ (cod.bytes ++ (mat.bytes ++ resto)) := by
    obtain ⟨letti, hletti⟩ := hl.flussi c
    have hlen : letti.length = (clienti c).inizio j := by
      have := congrArg List.length hletti
      rw [List.length_append] at this
      omega
    rw [← hdrop, ← hletti, ← hlen, List.drop_left]
  have hin : InCorso clienti ms (q.clientSockets i).connfd c l []
    ((Buffer.ofInt 2).bytes ++ (cod.bytes ++ (mat.bytes ++ resto))) := ⟨hl, hc, hunread⟩
  obtain ⟨rfl, hin₁⟩ := hin.read hfd hr
  refine inoltra_prenota hq.sockfd_eq hfd (Buffer.overlay_full _ _) hj hin₁ ?_
  rw [hunread] at hpos
  simp only [List.length_append, Buffer.size_eq] at hpos
  omega

/-- **The secretary forwards only bookings that were sent, and each once.** The invariant of its side of
    the network, in every run whose moves meet the condition. -/
theorem inoltro (hneg : sockfd ≠ -1) (hs : Distinta sockfd s)
    (hC : ∀ d m, C d m → IntIntero d m ∧ Pronta clienti d m)
    (hd : (sistema sockfd).Reach C (inizio (fun c => (clienti c).flusso) s t) d) :
    d.prog₁.Safe (inoltra sockfd) (fun l _ => Inoltrate clienti l)
      (fun q l => Distinta sockfd q.2 ∧ ∃ ms, Inoltro clienti l ms []) d.env.seg := by
  refine Duo.Reach.local₁ (fun d => d.env.seg) (fun _ => True) (fun _ _ => trivial) ?_ ?_ ?_ ?_ hd
  · intro d o r d' _ _ hm hstep
    obtain ⟨k, e, -, he, rfl⟩ := Duo.step_act₁ _ hstep
    exact ⟨(sistema_ans₁.mp he).1, (hC _ _ hm).1⟩
  · rintro d q d' - hm hret hstep ⟨hq, ms, hl⟩
    obtain ⟨q', hp, rfl⟩ := Duo.step_turn₁ _ hstep
    obtain rfl : q = q' := Prog.ret.inj (hret.symm.trans hp)
    refine Segreteria.safe_passo (K := fun l => ∃ ms, Inoltro clienti l ms []) hneg ?_ ?_ hq ⟨ms, hl⟩
      ?_ ?_
    · rintro l o ⟨ms, h⟩ -; exact h.fra
    · rintro l o r l' ⟨ms, h⟩ ho hr; exact ⟨chiama_nuovo hr.1, ms, h.estranea ho hr⟩
    · -- the only write of a code 2: the condition of the move says that a booking comes next
      intro i hqi hi r l₁ hr h2
      refine inoltra_codice hq hl hi hr h2 ((hC _ _ hm).2 i q.2 ?_ hi)
      rw [hret, ← hqi]
    · rintro s' l hs' ⟨ms, h⟩; exact inoltra_nuovoAppello hs' h
  · intro d m d' hm hstep
    cases m with
    | turn₁ => exact (hm trivial).elim
    | act₁ o r => exact (hm trivial).elim
    | turn₂ => obtain ⟨_, -, rfl⟩ := Duo.step_turn₂ _ hstep; rfl
    | act₂ o r =>
      obtain ⟨_, e, -, he, rfl⟩ := Duo.step_act₂ _ hstep
      exact (sistema_ans₂.mp he).2.2
  · exact ⟨⟨hs.sockfd_eq, hs.slot⟩, [], ⟨nofun, nofun⟩, rfl, fun c => List.suffix_refl _, nofun⟩

end Corse

/-! ## The server -/

/-- The `k`-th request of the secretary is the booking `e`. -/
def Inoltrata (inviate : List Bytes) (k : Nat) (e : Int × Int) : Prop :=
  ∃ cod mat : Buffer 4, (inviate.drop (3 * k)).take 3 =
    [(Buffer.ofInt 2).bytes, cod.bytes, mat.bytes] ∧ e = (cod.toInt, mat.toInt)

section Inoltrata

variable {inviate : List Bytes} {ms : List Messaggio} {k : Nat} {e : Int × Int}

/-- A whole request has three writes. -/
theorem Inoltrata.length_le (h : Inoltrata inviate k e) : 3 * k + 3 ≤ inviate.length := by
  obtain ⟨_, _, h, -⟩ := h
  have := congrArg List.length h
  simp only [List.length_take, List.length_drop, List.length_cons, List.length_nil] at this
  omega

theorem Inoltrata.append (h : Inoltrata inviate k e) (ws : List Bytes) :
    Inoltrata (inviate ++ ws) k e := by
  have hlen := h.length_le
  obtain ⟨cod, mat, htake, he⟩ := h
  refine ⟨cod, mat, ?_, he⟩
  rw [List.drop_append_of_le_length (by omega),
    List.take_append_of_le_length (by rw [List.length_drop]; omega), htake]

theorem length_scritture (m : Messaggio) : m.scritture.length = 3 := by cases m <;> rfl

/-- The writes from the `k`-th request on. -/
theorem drop_scritture (ms : List Messaggio) (k : Nat) :
    (ms.flatMap Messaggio.scritture).drop (3 * k) = (ms.drop k).flatMap Messaggio.scritture := by
  induction k generalizing ms with
  | zero => rfl
  | succ k ih =>
    cases ms with
    | nil => rw [List.flatMap_nil, List.drop_nil, List.drop_nil, List.flatMap_nil]
    | cons m ms =>
      rw [List.flatMap_cons, List.drop_succ_cons, show 3 * (k + 1) = m.scritture.length + 3 * k by
        rw [length_scritture]; omega, ← List.drop_drop, List.drop_left, ih]

theorem ofInt_one_ne_two : (Buffer.ofInt 1).bytes ≠ (Buffer.ofInt 2).bytes := by decide

/-- Twelve bytes at the start of a request, the first four of them code 2, are a whole booking: a new
    appello begins with another code. -/
theorem inoltrata_of_bytes (hms : inviate <+: ms.flatMap Messaggio.scritture) {pre coda : Bytes}
    {cod mat : Buffer 4}
    (hfl : inviate.flatten = pre ++ ((Buffer.ofInt 2).bytes ++ (cod.bytes ++ (mat.bytes ++ coda))))
    (hpre : pre.length = confine inviate k) : Inoltrata inviate k (cod.toInt, mat.toInt) := by
  have hdrop : (inviate.drop (3 * k)).flatten =
      (Buffer.ofInt 2).bytes ++ (cod.bytes ++ (mat.bytes ++ coda)) := by
    have hsplit := congrArg List.flatten (List.take_append_drop (3 * k) inviate)
    rw [List.flatten_append, hfl] at hsplit
    exact List.append_inj_right hsplit hpre.symm
  have hmsk : inviate.drop (3 * k) <+: (ms.drop k).flatMap Messaggio.scritture := by
    rw [← drop_scritture]
    exact hms.drop (3 * k)
  -- the first write, of four bytes, is the code
  have hprima : ∀ (b : Buffer 4) ws, inviate.drop (3 * k) = b.bytes :: ws →
      b = Buffer.ofInt 2 ∧ ws.flatten = cod.bytes ++ (mat.bytes ++ coda) := by
    intro b ws hb
    rw [hb, List.flatten_cons] at hdrop
    obtain ⟨h1, h2⟩ := List.append_inj hdrop (by rw [b.size_eq, Buffer.size_eq])
    exact ⟨Buffer.ext h1, h2⟩
  have hvuota : ∀ (b : Buffer 4) (bs : Bytes), [] ≠ b.bytes ++ bs := by
    intro b bs h
    have := congrArg List.length h
    rw [List.length_append, b.size_eq, List.length_nil] at this
    omega
  cases hm : ms.drop k with
  | nil =>
    rw [hm, List.flatMap_nil, List.prefix_nil] at hmsk
    rw [hmsk] at hdrop
    exact absurd hdrop (hvuota _ _)
  | cons m ms' =>
    rw [hm, List.flatMap_cons] at hmsk
    cases hi : inviate.drop (3 * k) with
    | nil => rw [hi] at hdrop; exact absurd hdrop (hvuota _ _)
    | cons w ws =>
      rw [hi] at hmsk
      cases m with
      | appello nome data =>
        obtain ⟨rfl, -⟩ := List.cons_prefix_cons.mp hmsk
        exact absurd (congrArg Buffer.bytes (hprima _ ws hi).1) ofInt_one_ne_two
      | prenotazione cod' mat' o =>
        obtain ⟨rfl, hmsk₁⟩ := List.cons_prefix_cons.mp hmsk
        have hws := (hprima _ ws hi).2
        cases ws with
        | nil => exact absurd hws (hvuota _ _)
        | cons w₁ ws₁ =>
          obtain ⟨rfl, hmsk₂⟩ := List.cons_prefix_cons.mp hmsk₁
          rw [List.flatten_cons] at hws
          obtain ⟨h1, hws₁⟩ := List.append_inj hws (by rw [cod'.size_eq, cod.size_eq])
          cases ws₁ with
          | nil => exact absurd hws₁ (hvuota _ _)
          | cons w₂ ws₂ =>
            obtain ⟨rfl, -⟩ := List.cons_prefix_cons.mp hmsk₂
            rw [List.flatten_cons] at hws₁
            obtain ⟨h2, -⟩ := List.append_inj hws₁ (by rw [mat'.size_eq, mat.size_eq])
            exact ⟨cod, mat, by rw [hi, ← h1, ← h2]; rfl, rfl⟩

/-- A booking that was forwarded has a place in the streams of the students: it is the one its message
    carries. -/
theorem Inoltrata.posto (h : Inoltrata inviate k e) (hms : inviate <+: ms.flatMap Messaggio.scritture) :
    ∃ cod mat o, ms[k]? = some (.prenotazione cod mat o) ∧ e = (cod.toInt, mat.toInt) := by
  obtain ⟨cod, mat, htake, he⟩ := h
  have hmsk : [(Buffer.ofInt 2).bytes, cod.bytes, mat.bytes] <+:
      (ms.drop k).flatMap Messaggio.scritture := by
    rw [← htake, ← drop_scritture]
    exact (List.take_prefix _ _).trans (hms.drop (3 * k))
  cases hm : ms.drop k with
  | nil => rw [hm] at hmsk; cases List.prefix_nil.mp hmsk
  | cons m ms' =>
    have hk : ms[k]? = some m := by
      rw [← List.head?_drop, hm, List.head?_cons]
    rw [hm, List.flatMap_cons] at hmsk
    cases m with
    | appello nome data => exact absurd (List.cons_prefix_cons.mp hmsk).1.symm ofInt_one_ne_two
    | prenotazione cod' mat' o =>
      obtain ⟨-, hmsk⟩ := List.cons_prefix_cons.mp hmsk
      obtain ⟨h1, hmsk⟩ := List.cons_prefix_cons.mp hmsk
      obtain ⟨h2, -⟩ := List.cons_prefix_cons.mp hmsk
      refine ⟨cod', mat', o, hk, ?_⟩
      rw [he, Buffer.ext h1, Buffer.ext h2]

end Inoltrata

/-- What was executed are the requests `ks`, each executed once; all of them lie behind the server, and
    as long as the turn executed none, behind its start. -/
structure Eseguite (d : Stato) (ks : List Nat) : Prop where
  /-- No request is executed twice. -/
  nodup : ks.Nodup
  /-- What was executed is what was forwarded there. -/
  sono : List.Forall₂ (Inoltrata d.env.seg.inviate) ks d.env.ser.eseguite
  /-- Their starts lie behind what the server has read ... -/
  dietro : ∀ k ∈ ks, confine d.env.seg.inviate k < d.env.ser.lette.length
  /-- ... and, until this turn executes one, behind what it had read when it began. -/
  turno : (∀ o ∈ segni d.trace₂, eseguita o = []) → ∀ k ∈ ks,
    confine d.env.seg.inviate k + (letture d.trace₂).flatten.length < d.env.ser.lette.length

section Esegue

variable {sockfd : Int} {d : Stato} {ks : List Nat}

/-- Each request executed was forwarded whole. -/
theorem Eseguite.inoltrata (h : Eseguite d ks) {k : Nat} (hk : k ∈ ks) :
    ∃ e, Inoltrata d.env.seg.inviate k e := by
  obtain ⟨i, hi, rfl⟩ := List.getElem_of_mem hk
  have hlen := h.sono.length_eq
  exact ⟨_, h.sono.get hi (by omega)⟩

/-- A move of the secretary forwards more and executes nothing; what was executed stays where it stands
    in what was forwarded. -/
theorem Eseguite.ans₁ (h : Eseguite d ks) {o : Sys} {r : o.Ans} {e : Rete}
    (he : (sistema sockfd).ans₁ d.env o r = some e) (p : Programma (Punto × Segreteria))
    (tr : List (Event Sys Sys.Ans)) : Eseguite { d with prog₁ := p, trace₁ := tr, env := e } ks := by
  obtain ⟨hseg, -, hser⟩ := sistema_ans₁.mp he
  have hinv := (LatoSegreteria.chiama_effetto hseg).inviate
  have hconfine : ∀ k ∈ ks, confine e.seg.inviate k = confine d.env.seg.inviate k := by
    intro k hk
    obtain ⟨x, hx⟩ := h.inoltrata hk
    rw [hinv, confine_append _ (by have := hx.length_le; omega)]
  refine ⟨h.nodup, ?_, fun k hk => ?_, fun hs k hk => ?_⟩
  · show List.Forall₂ (Inoltrata e.seg.inviate) ks e.ser.eseguite
    rw [hser, hinv]
    exact h.sono.imp fun _ _ hx => hx.append _
  · rw [hconfine k hk, hser]
    exact h.dietro k hk
  · rw [hconfine k hk, hser]
    exact h.turno hs k hk

/-- The twelve bytes of a booking that the server is about to execute are three writes of the secretary:
    it has read the code at the start of a request, and two whole ints behind it. -/
theorem Chiede.inoltrata {o : Sys} {id mat : Int} (hch : Chiede Intera (vista d.turn₂ d.trace₂) o)
    (ho : (id, mat) ∈ eseguita o) (hf : Fifo d.env) {pre : Bytes} (hcor : Corrente [2] d pre)
    {ms : List Messaggio} (hms : d.env.seg.inviate <+: ms.flatMap Messaggio.scritture) :
    ∃ k, Inoltrata d.env.seg.inviate k (id, mat) ∧ pre.length = confine d.env.seg.inviate k ∧
      d.env.ser.lette.length = pre.length + (letture d.trace₂).flatten.length ∧
      (letture d.trace₂).flatten.length = 12 ∧ segni d.trace₂ = [.mysqlInit] := by
  obtain ⟨b₁, b₂, fd, fd₁, r, r₁, r₂, hl, hseg, hne, h2, hr, hr₁, hr₂, rfl, rfl⟩ := hch.esegue id mat ho
  have hl : letture d.trace₂ = [r, r₁, r₂] := hl
  have hr : r.length = 4 := hr rfl
  have hr₁ : r₁.length = 4 := hr₁ rfl
  have hr₂ : r₂.length = 4 := hr₂ rfl
  have hcod : codice d.turn₂ r ∈ [2] := List.mem_singleton.mpr h2
  obtain ⟨k, -, hpos⟩ := hcor.inizio r [r₁, r₂] hl hne hcod
  have hpieno : ∀ (b : Buffer 4) (x : Bytes) (hx : x.length = 4), b.overlay x = ⟨x, hx⟩ :=
    fun b x hx => Buffer.overlay_full b ⟨x, hx⟩
  -- four bytes that are read as 2 are the code itself
  have hdue : r = (Buffer.ofInt 2).bytes := by
    have h2 : (d.turn₂.request.overlay r).toInt = 2 := h2
    rw [hpieno _ r hr] at h2
    have : (⟨r, hr⟩ : Buffer 4) = Buffer.ofInt 2 := by rw [← h2, Buffer.ofInt_toInt]
    exact congrArg Buffer.bytes this
  have hfl : d.env.seg.inviate.flatten = pre ++ ((Buffer.ofInt 2).bytes ++ (r₁ ++ (r₂ ++ d.env.su))) := by
    rw [hf.su, hcor.lette, hl, ← hdue]
    simp
  refine ⟨k, ?_, hpos, ?_, by rw [hl]; simp [hr, hr₁, hr₂], hseg⟩
  · rw [hpieno _ r₁ hr₁, hpieno _ r₂ hr₂]
    exact inoltrata_of_bytes hms hfl hpos
  · rw [hcor.lette, List.length_append]

/-- A call executes at most one booking. -/
theorem eseguita_cases (o : Sys) : eseguita o = [] ∨ ∃ id mat, eseguita o = [(id, mat)] := by
  unfold eseguita
  split
  · exact Or.inr ⟨_, _, rfl⟩
  · exact Or.inl rfl

/-- **A move of the server.** It executes a request that starts where this turn began, behind all those
    executed. -/
theorem Eseguite.ans₂ (h : Eseguite d ks) (hf : Fifo d.env) {pre : Bytes} (hcor : Corrente [2] d pre)
    {ms : List Messaggio} (hms : d.env.seg.inviate <+: ms.flatMap Messaggio.scritture)
    {o : Sys} {r : o.Ans} {e : Rete} (hch : Chiede Intera (vista d.turn₂ d.trace₂) o)
    (he : (sistema sockfd).ans₂ d.env o r = some e) (p : Programma Server) :
    ∃ ks, Eseguite { d with prog₂ := p, trace₂ := d.trace₂ ++ [⟨o, r⟩], env := e } ks := by
  have heff := effettoServer he
  have hseg := (sistema_ans₂.mp he).2.2
  have hlette : e.ser.lette.length = d.env.ser.lette.length + (letture [⟨o, r⟩]).flatten.length := by
    rw [heff.lette, List.length_append]
  -- what was executed before is behind the beginning of this turn
  have hturno : (∀ o' ∈ segni (d.trace₂ ++ [⟨o, r⟩]), eseguita o' = []) → ∀ k ∈ ks,
      confine d.env.seg.inviate k + (letture (d.trace₂ ++ [⟨o, r⟩])).flatten.length <
        e.ser.lette.length := by
    intro hs k hk
    have := h.turno (fun o' ho' => hs o' (by rw [segni_append]; exact List.mem_append_left _ ho')) k hk
    rw [letture_append, List.flatten_append, List.length_append]
    omega
  rcases eseguita_cases o with ho | ⟨id, mat, ho⟩
  · -- nothing is executed
    refine ⟨ks, h.nodup, ?_, fun k hk => ?_, ?_⟩ <;> simp only [hseg]
    · rw [heff.eseguite, ho, List.append_nil]
      exact h.sono
    · have := h.dietro k hk
      omega
    · exact hturno
  · have hmem : (id, mat) ∈ eseguita o := by rw [ho]; exact List.mem_cons_self
    have hne : eseguita o ≠ [] := List.ne_nil_of_mem hmem
    obtain ⟨k, hk, hpos, hlen, h12, hsegni⟩ := hch.inoltrata hmem hf hcor hms
    -- the request executed now begins where the turn began, behind every earlier one
    have hprima : ∀ k' ∈ ks, confine d.env.seg.inviate k' < confine d.env.seg.inviate k := by
      intro k' hk'
      have := h.turno (by rw [hsegni]; intro o' ho'; rw [List.mem_singleton.mp ho']; rfl) k' hk'
      omega
    refine ⟨ks ++ [k], ?_, ?_, fun k' hk' => ?_, fun hs => ?_⟩
    · refine List.nodup_append.mpr ⟨h.nodup, List.nodup_singleton k, ?_⟩
      rintro k' hk' _ hk'' rfl
      obtain rfl := List.mem_singleton.mp hk''
      exact Nat.lt_irrefl _ (hprima k' hk')
    · show List.Forall₂ (Inoltrata e.seg.inviate) (ks ++ [k]) e.ser.eseguite
      rw [hseg, heff.eseguite, ho]
      exact List.rel_append h.sono (.cons hk .nil)
    · show confine e.seg.inviate k' < e.ser.lette.length
      rw [hseg]
      rcases List.mem_append.mp hk' with hk' | hk'
      · have := h.dietro k' hk'
        omega
      · obtain rfl := List.mem_singleton.mp hk'
        omega
    · -- the turn has executed one
      have : o ∈ segni (d.trace₂ ++ [⟨o, r⟩]) := by
        rw [segni_append]
        refine List.mem_append_right _ ?_
        have hno : ¬ o.Altro := fun h => hne h.2
        exact List.mem_filter.mpr ⟨List.mem_singleton.mpr rfl, decide_eq_true hno⟩
      exact absurd (hs o this) hne

end Esegue

/-! ## Every run -/

/-- What was executed, `k`-th by `k`-th, are bookings that were sent: the request `o.2` of student `o.1`
    for each `o` of a list without repetitions. -/
def UnaPerUna (clienti : Nat → Cliente) (eseguite : List (Int × Int)) : Prop :=
  ∃ os : List (Nat × Nat), os.Nodup ∧ os.map (fun o => (clienti o.1).spedita o.2) = eseguite.map some

/-- Requests that are all authentic have different places: the list of the places has no double, and so
    no request of a student is executed twice. -/
theorem posti {clienti : Nat → Cliente} {ms : List Messaggio} (hms : Autentici clienti ms)
    {inviate : List Bytes} (hpre : inviate <+: ms.flatMap Messaggio.scritture) {ks : List Nat}
    {es : List (Int × Int)} (h : List.Forall₂ (Inoltrata inviate) ks es) (hks : ks.Nodup) :
    ∃ os : List (Nat × Nat), os.Nodup ∧ os.map (fun o => (clienti o.1).spedita o.2) = es.map some ∧
      ∀ o ∈ os, ∃ k ∈ ks, ∃ cod mat, ms[k]? = some (.prenotazione cod mat o) := by
  induction h with
  | nil => exact ⟨[], List.nodup_nil, rfl, nofun⟩
  | @cons k e ks es hk _ ih =>
    obtain ⟨hnotin, hks⟩ := List.nodup_cons.mp hks
    obtain ⟨os, hnd, hmap, hos⟩ := ih hks
    obtain ⟨cod, mat, o, hm, rfl⟩ := hk.posto hpre
    refine ⟨o :: os, List.nodup_cons.mpr ⟨fun ho => ?_, hnd⟩, ?_, fun o' ho' => ?_⟩
    · obtain ⟨k', hk', cod', mat', hm'⟩ := hos o ho
      rw [hms.distinte k k' cod mat cod' mat' o hm hm'] at hnotin
      exact hnotin hk'
    · rw [List.map_cons, List.map_cons, hmap, hms.spedite k cod mat o hm]
    · rcases List.mem_cons.mp ho' with rfl | ho'
      · exact ⟨k, List.mem_cons_self, cod, mat, hm⟩
      · obtain ⟨k', hk', hm'⟩ := hos o' ho'
        exact ⟨k', List.mem_cons_of_mem _ hk', hm'⟩

/-- **One booking for one request**, in every run in which reads of ints are whole, the secretary takes
    code 2 only where a whole booking comes next, and the server takes code 2 only at the start of a
    request. -/
theorem una_per_una {sockfd listenfd : Int} (hneg : sockfd ≠ -1) {behaviour : Buffer 4} {logical : Int}
    {slots : Nat → ClientStud} {t : Server} {clienti : Nat → Cliente} {d : Stato}
    (hd : (sistema sockfd).Reach
      (fun d m => IntIntero d m ∧ Pronta clienti d m ∧ Allineato [2] d m)
      (inizio (fun c => (clienti c).flusso)
        (Segreteria.iniziale sockfd listenfd behaviour logical slots) t) d) :
    UnaPerUna clienti d.env.ser.eseguite := by
  have hs : Distinta sockfd (Segreteria.iniziale sockfd listenfd behaviour logical slots) :=
    ⟨rfl, fun i hi => absurd hi (Nat.not_lt_zero i)⟩
  have hinoltrate : ∀ {d}, (sistema sockfd).Reach
      (fun d m => IntIntero d m ∧ Pronta clienti d m ∧ Allineato [2] d m)
      (inizio (fun c => (clienti c).flusso)
        (Segreteria.iniziale sockfd listenfd behaviour logical slots) t) d →
      Inoltrate clienti d.env.seg := fun hd =>
    (inoltro hneg hs (fun _ _ h => ⟨h.1, h.2.1⟩) hd).now (fun _ h => h) fun _ h =>
      h.2.elim fun _ hm => hm.fra
  have heseguite : ∃ ks, Eseguite d ks := by
    refine Duo.Reach.invariant (J := fun d => ∃ ks, Eseguite d ks)
      ⟨[], List.nodup_nil, .nil, nofun, nofun⟩ ?_ hd
    rintro d m d' hd ⟨ks, h⟩ hm hstep
    cases m with
    | turn₁ =>
      obtain ⟨q, -, rfl⟩ := Duo.step_turn₁ _ hstep
      exact ⟨ks, h.nodup, h.sono, h.dietro, h.turno⟩
    | turn₂ =>
      obtain ⟨t', -, rfl⟩ := Duo.step_turn₂ _ hstep
      exact ⟨ks, h.nodup, h.sono, h.dietro, fun _ => h.dietro⟩
    | act₁ o r =>
      obtain ⟨k, e, -, he, rfl⟩ := Duo.step_act₁ _ hstep
      exact ⟨ks, h.ans₁ he _ _⟩
    | act₂ o r =>
      obtain ⟨k, e, hp, he, rfl⟩ := Duo.step_act₂ _ hstep
      have hsafe := chiede (A := Intera) (fun _ _ _ _ hC _ => hC.1) hd
      rw [hp] at hsafe
      obtain ⟨pre, hcor⟩ := posizione (fun _ _ h => h.2.2) hd
      obtain ⟨ms, -, hms⟩ := hinoltrate hd
      exact h.ans₂ (fifo hd) hcor hms hsafe.1 he _
  obtain ⟨ks, h⟩ := heseguite
  obtain ⟨ms, haut, hpre⟩ := hinoltrate hd
  -- executed bookings are forwarded ones, and forwarded ones have places in the clients' streams
  obtain ⟨os, hnd, hmap, -⟩ := posti haut hpre h.sono h.nodup
  exact ⟨os, hnd, hmap⟩

/-! ## One run -/

/-- A student who logs in with an empty password, books the exam 7 and leaves. -/
def studente : Cliente := ⟨Buffer.ofInt 1, Buffer.zero 255, [.prenotazione (Buffer.ofInt 7) (Buffer.ofInt 1)], 271⟩

/-- Both programs at the start; the secretary's socket is 3, every connection is that student's. -/
def inizioStudente : Stato :=
  inizio (fun _ => studente.flusso)
    (Segreteria.iniziale 3 4 (Buffer.zero 4) 0 fun _ => ⟨0, Buffer.zero 4⟩) ⟨5, -1, Buffer.zero 4, 5⟩

/-- The secretary accepts the connection and grants the login. -/
def loginStudente : List Mossa := [
  .turn₁, .turn₁, .act₁ (.select 5 [4, 3] [4, 3]) (some ([4], [3])), .act₁ (.accept 4) (6 : Int),
  .act₁ (.read 6 4) (Buffer.ofInt 1).bytes, .act₁ (.read 6 255) (Buffer.zero 255).bytes,
  .act₁ (.printf (ascii "Matricola: 1" ++ [10])) (), .act₁ (.mysqlQuery (.login 1 [])) true,
  .act₁ .mysqlStoreResult (some [[]]),
  .act₁ (.write 6 (ascii "credenziali corrette, accesso consentito!")) (),
  .turn₁, .act₁ (.select 7 [4] [3]) (some ([], [])), .turn₁, .turn₁, .turn₁, .turn₁]

/-- The secretary serves the student: `r`, `c` and `m` are what the reads of the three ints return,
    `cod` and `mat` what the two variables hold before, `cod'` and `mat'` after. -/
def servita (r c m : Bytes) (cod mat cod' mat' : Buffer 4) : List Mossa := [
  .turn₁, .act₁ (.select 7 [6, 4, 3] [6, 4, 3]) (some ([6], [])), .turn₁, .act₁ (.read 6 4) r,
  .act₁ (.indeterminato 4) cod, .act₁ (.indeterminato 4) mat,
  .act₁ (.write 3 (Buffer.ofInt 2).bytes) (), .act₁ (.read 6 4) c, .act₁ (.read 6 4) m,
  .act₁ (.write 3 cod'.bytes) (), .act₁ (.write 3 mat'.bytes) ()]

/-- The server executes a booking and finds nothing to book. -/
def eseguitaSenza (cod mat : Buffer 4) : List Mossa := [
  .turn₂, .act₂ (.select 7 [6, 5] []) (some ([6], [])), .act₂ (.read 6 4) (Buffer.ofInt 2).bytes,
  .act₂ .mysqlInit true, .act₂ .mysqlRealConnect true, .act₂ (.indeterminato 4) (Buffer.zero 4),
  .act₂ (.indeterminato 4) (Buffer.zero 4), .act₂ (.read 6 4) cod.bytes, .act₂ (.read 6 4) mat.bytes,
  .act₂ (.mysqlQuery (.verificaPrenotazione cod.toInt mat.toInt)) true,
  .act₂ .mysqlStoreResult (some []), .act₂ (.write 6 (ascii "invalid id or data!")) (),
  .act₂ .mysqlClose ()]

/-- The student's booking. -/
def prenotata : List Mossa :=
  loginStudente ++
  servita (Buffer.ofInt 2).bytes (Buffer.ofInt 7).bytes (Buffer.ofInt 1).bytes (Buffer.zero 4)
    (Buffer.zero 4) (Buffer.ofInt 7) (Buffer.ofInt 1) ++
  [.turn₂, .act₂ (.select 6 [5] []) (some ([5], [])), .act₂ (.accept 5) (6 : Int)] ++
  eseguitaSenza (Buffer.ofInt 7) (Buffer.ofInt 1)

/-- ... the outcome, and then the end of the student's stream, which is ready to be read. -/
def poiVia : List Mossa :=
  [.act₁ (.read 3 255) (ascii "invalid id or data!"),
    .act₁ (.write 6 ((Buffer.zero 255).overlay (ascii "invalid id or data!")).bytes) (),
    .turn₁, .turn₁, .turn₁] ++
  servita [] [] [] (Buffer.zero 4) (Buffer.zero 4) (Buffer.zero 4) (Buffer.zero 4) ++
  eseguitaSenza (Buffer.zero 4) (Buffer.zero 4)

/-- `IntIntero`, as a test. -/
def interi (d : Stato) : Mossa → Bool
  | .act₁ (.read fd n) r => n ≠ 4 || match d.env.seg.descrittori fd with
    | some c => r = (d.env.seg.clienti c).take 4
    | none => true
  | .act₂ (.read _ n) r => n ≠ 4 || r.length = 4
  | _ => true

theorem interi_ok (d : Stato) (m : Mossa) (h : interi d m = true) : IntIntero d m := by
  cases m with
  | act₁ o r =>
    cases o with
    | read fd n =>
      rintro rfl c hc
      simpa [interi, hc] using h
    | _ => trivial
  | act₂ o r =>
    cases o with
    | read fd n =>
      rintro rfl
      simpa [interi] using h
    | _ => trivial
  | _ => trivial

/-- The student booked once; a second booking is executed, with whatever two uninitialised variables
    held: the read at the end of the stream left the old code 2 in place. -/
theorem prenotazione_fantasma : ¬ ∀ d, (sistema 3).Reach IntIntero inizioStudente d →
    UnaPerUna (fun _ => studente) d.env.ser.eseguite := by
  intro h
  have hrun : ((sistema 3).run interi inizioStudente (prenotata ++ poiVia)).map
      (fun d => d.env.ser.eseguite) = some [(7, 1), (0, 0)] := by decide +kernel
  obtain ⟨d, hd, heq⟩ := Option.map_eq_some_iff.mp hrun
  obtain ⟨os, -, hmap⟩ := h d (Duo.reach_run interi_ok _ .init hd)
  rw [heq] at hmap
  have hmem : some ((0, 0) : Int × Int) ∈ os.map fun o => studente.spedita o.2 := by
    rw [hmap]; decide
  obtain ⟨⟨_, j⟩, -, hj⟩ := List.mem_map.mp hmem
  have hzero : studente.spedita 0 ≠ some (0, 0) := by decide
  match j with
  | 0 => exact hzero hj
  | j + 1 => cases hj

/-- The condition, as a test for that student. -/
def pronti (d : Stato) (m : Mossa) : Bool := interi d m && match m with
  | .turn₁ => match d.prog₁ with
    | .ret (.servi i, s) =>
      let fd := (s.clientSockets i).connfd
      !(decide (s.Servito i) && decide ((s.behaviour.overlay (prossimi d.env.seg fd)).toInt = 2)) ||
        match d.env.seg.descrittori fd with
        | some c => (d.env.seg.clienti c).length + studente.inizio 0 = studente.flusso.length
        | none => false
    | _ => true
  | .act₂ (.read _ _) _ => letture d.trace₂ ≠ [] || d.env.ser.lette = []
  | _ => true

/-- Evaluated, all three conditions hold. -/
theorem pronti_ok (d : Stato) (m : Mossa) (h : pronti d m = true) :
    IntIntero d m ∧ Pronta (fun _ => studente) d m ∧ Allineato [2] d m := by
  obtain ⟨hint, h⟩ := Bool.and_eq_true_iff.mp h
  refine ⟨interi_ok d m hint, ?_⟩
  -- the head of the secretary's loop, and the server's first read of a turn; the other moves are free
  cases m with
  | turn₁ =>
    refine ⟨fun i s hp hi h2 => ?_, trivial⟩
    simp only [hp, hi, h2, decide_true, Bool.and_self, Bool.not_true, Bool.false_or] at h
    split at h
    · rename_i c hc
      have hprima : (studente.spedita 0).isSome = true := by decide
      exact ⟨c, hc, 0, hprima, of_decide_eq_true h⟩
    · cases h
  | act₂ o r =>
    refine ⟨trivial, ?_⟩
    cases o with
    | read fd n =>
      intro hl _ _
      have hlette : d.env.ser.lette = [] := by simpa [hl] using h
      exact ⟨0, Nat.zero_le _, by rw [hlette]; rfl⟩
    | _ => trivial
  | _ => exact ⟨trivial, trivial⟩

/-- Up to the first booking the run meets the condition: one request was sent, and the one booking is
    its own. -/
theorem una_per_una_studente : ∃ d : Stato, (sistema 3).Reach
      (fun d m => IntIntero d m ∧ Pronta (fun _ => studente) d m ∧ Allineato [2] d m) inizioStudente d ∧
    d.env.ser.eseguite = [(7, 1)] ∧ UnaPerUna (fun _ => studente) d.env.ser.eseguite := by
  have hrun : ((sistema 3).run pronti inizioStudente prenotata).map (fun d => d.env.ser.eseguite) =
      some [(7, 1)] := by decide +kernel
  obtain ⟨d, hd, heq⟩ := Option.map_eq_some_iff.mp hrun
  have hreach := Duo.reach_run pronti_ok _ .init hd
  have hneg : (3 : Int) ≠ -1 := by decide
  exact ⟨d, hreach, heq, una_per_una hneg hreach⟩

end Universita

/-
  THE SECRETARY'S TURN — which part of it talks to the server.

  Only two functions use the socket to the server: `prenota` and `nuovoAppello`.  Everything else (the
  login, the lists, the logout, the operator's menu) leaves that stream alone, as long as no slot of
  the table holds the server's descriptor: `accept` returns descriptors that are not in use.

  Whatever is proved later about the stream to the server needs to look at those two functions and at nothing else.
  `Segreteria.safe_passo` is the rule for that: give it what a foreign call keeps, what a booking does and what a new
  appello does, and it gives the whole turn.  Four properties of the two programs are instances of it.

  Most of the lemmas are the same sentence about one function after the other, that all of its calls are on certain
  descriptors.  `Locale` and `Piano` say so of a program by its calls, and are closed under sequence, so that a
  function is settled from its parts.

  Contents:
  1. `Distinta` — the slots in use hold other descriptors than the server's.
  2. `Locale`, `Piano`, `Estraneo` — programs that use only some descriptors, or leave one alone, and the
     functions that do.
  3. `LeggeInt` — reads of ints from the students that are whole.
  4. **`Segreteria.safe_passo`** — a turn is one of those, or ends in `prenota` or `nuovoAppello`.
-/
import Universita.Sistema

set_option linter.unusedVariables false

namespace Universita

open Lib Lib.Stream

/-- `Distinta sockfd s` — the slots in use do not hold `sockfd`, the secretary's socket to the server. A
    slot that a logout has freed holds -1, and `sockfd` is never that. -/
structure Distinta (sockfd : Int) (s : Segreteria) : Prop where
  /-- The socket is this one ... -/
  sockfd_eq : s.sockfd = sockfd
  /-- ... and no student has it. -/
  slot : ∀ i < s.dim, (s.clientSockets i).connfd ≠ sockfd

/-- `accept` does not return a descriptor that is in use, such as `sockfd`. -/
def Nuovo (sockfd : Int) : (o : Sys) → o.Ans → Prop
  | .accept _, fd => fd ≠ sockfd
  | _, _ => True

/-- A call that does not use a descriptor writes nothing to it. -/
theorem scrittura_estranea {fd : Int} {o : Sys} (h : ¬ o.Usa fd) : scrittura fd o = [] := by
  cases o with
  | write f bs => exact if_neg h
  | _ => rfl

theorem lettura_estranea {fd : Int} {o : Sys} {r : o.Ans} (h : ¬ o.Usa fd) : lettura fd o r = [] := by
  cases o with
  | read f n => exact if_neg h
  | _ => rfl

/-- The world never returns the server's descriptor from `accept`. -/
theorem chiama_nuovo {sockfd : Int} {l l' : LatoSegreteria} {o : Sys} {r : o.Ans}
    (h : l.chiama sockfd o r = some l') : Nuovo sockfd o r := by
  cases o with
  | accept fd => exact (LatoSegreteria.chiama_accept h).1
  | _ => trivial

/-- The call is no `select`, no login, opens and closes no connection, and reads and writes only
    descriptors in `fds`: the calls of a routine that serves somebody. -/
def Sys.Su (fds : List Int) : Sys → Prop
  | .read fd _ | .write fd _ => fd ∈ fds
  | .select _ _ _ | .accept _ | .close _ | .mysqlQuery (.login _ _) => False
  | _ => True

/-- All calls of `p` are of that kind. -/
abbrev Locale {α : Type} (fds : List Int) (p : Programma α) : Prop :=
  p.Only (fun _ _ => True) (Sys.Su fds) fun _ => True

/-- The call looks neither behind the end of a buffer nor at the keyboard. -/
def Sys.Piana : Sys → Prop
  | .oltre | .scanf | .pulisciInput | .fgets _ => False
  | _ => True

/-- ... and none of them looks there. -/
abbrev Piano {α : Type} (fds : List Int) (p : Programma α) : Prop :=
  p.Only (fun _ _ => True) (fun o => o.Su fds ∧ o.Piana) fun _ => True

/-- `p` leaves `sockfd` alone, and ends in `Q`, when `accept` does not return that descriptor. -/
abbrev Estraneo {α : Type} (sockfd : Int) (p : Programma α) (Q : α → Prop) : Prop :=
  p.Only (Nuovo sockfd) (fun o => ¬ o.Usa sockfd) Q

/-- Descriptors of a list it is not in. -/
theorem Sys.Su.estranea {fds : List Int} {sockfd : Int} {o : Sys} (h : o.Su fds) (hs : sockfd ∉ fds) :
    ¬ o.Usa sockfd := by
  cases o with
  | read fd n => exact fun hfd => hs (hfd ▸ h)
  | write fd bs => exact fun hfd => hs (hfd ▸ h)
  | close fd => exact absurd h id
  | _ => exact id

section Locale

variable {fds : List Int} {α β : Type}

/-- A program on other descriptors leaves it alone. -/
theorem Locale.estraneo {sockfd : Int} {p : Programma α} (h : Locale fds p) (hs : sockfd ∉ fds) :
    Estraneo sockfd p fun _ => True :=
  h.weaken (fun _ _ _ => trivial) fun _ ho => ho.estranea hs

theorem Locale.bind {p : Programma α} {f : α → Programma β} (hp : Locale fds p)
    (hf : ∀ a, Locale fds (f a)) : Locale fds (p >>= f) :=
  (Prog.only_bind p f _).mpr (hp.mono fun a _ => hf a)

theorem locale_call {o : Sys} {k : o.Ans → Programma α} (ho : o.Su fds) (hk : ∀ r, Locale fds (k r)) :
    Locale fds (.call o k) :=
  Prog.only_call.mpr ⟨ho, fun r _ => hk r⟩

theorem locale_ret (a : α) : Locale fds (.ret a : Programma α) := trivial

theorem locale_indefinito : Locale fds (indefinito : Programma α) := locale_call trivial nofun

theorem Piano.locale {p : Programma α} (h : Piano fds p) : Locale fds p :=
  h.weaken (fun _ _ _ => trivial) fun _ ho => ho.1

/-- It is closed in the same way: one program behind another. -/
theorem Piano.bind {p : Programma α} {f : α → Programma β} (hp : Piano fds p)
    (hf : ∀ a, Piano fds (f a)) : Piano fds (p >>= f) :=
  (Prog.only_bind p f _).mpr (hp.mono fun a _ => hf a)

theorem piano_call {o : Sys} {k : o.Ans → Programma α} (ho : o.Su fds) (hp : o.Piana)
    (hk : ∀ r, Piano fds (k r)) : Piano fds (.call o k) :=
  Prog.only_call.mpr ⟨⟨ho, hp⟩, fun r _ => hk r⟩

theorem piano_ret (a : α) : Piano fds (.ret a : Programma α) := trivial

theorem piano_indefinito : Piano fds (indefinito : Programma α) := piano_call trivial trivial nofun

/-- The functions on no descriptor: a string in a buffer. -/
theorem locale_cString {n : Nat} (b : Buffer n) : Locale fds (cString b) := by
  rw [cString]
  split
  · exact locale_ret _
  · exact locale_call trivial fun _ => locale_ret _

theorem locale_scanInt (v : Int) : Locale fds (scanInt v) := locale_call trivial fun _ => locale_ret _

theorem locale_tagliaFine {n : Nat} (b : Buffer n) : Locale fds (tagliaFine b) := by
  refine (locale_cString b).bind fun testo => ?_
  split
  · exact locale_indefinito
  · exact locale_ret _

theorem locale_leggiRiga {n : Nat} (b : Buffer n) : Locale fds (leggiRiga b) :=
  locale_call trivial fun _ => locale_tagliaFine _

namespace Segreteria

theorem piano_sscanfRiga {n : Nat} (testo : Bytes) (b : Buffer n) :
    Piano fds (sscanfRiga testo b) := by
  show Piano fds (if _ then _ else _)
  split
  · exact piano_ret _
  · split
    · exact piano_ret _
    · exact piano_indefinito

theorem piano_sscanfParola {n : Nat} (testo : Bytes) (b : Buffer n) :
    Piano fds (sscanfParola testo b) := by
  show Piano fds (if _ then _ else _)
  split
  · exact piano_ret _
  · split
    · exact piano_ret _
    · exact piano_indefinito

/-- The rows of a list go to one descriptor, whatever is in the two buffers. -/
theorem piano_inviaRighe {connfd : Int} (hfd : connfd ∈ fds) (rows : List Row) :
    ∀ (nome : Buffer 255) (data : Buffer 12), Piano fds (inviaRighe connfd nome data rows) := by
  induction rows with
  | nil => exact fun _ _ => piano_ret _
  | cons row rows ih =>
    intro nome data
    unfold inviaRighe
    split
    · refine (piano_sscanfRiga _ nome).bind fun nome' => ?_
      refine (piano_sscanfParola _ data).bind fun data' => ?_
      refine piano_call hfd trivial fun _ => piano_call hfd trivial fun _ => piano_call hfd trivial fun _ => ?_
      exact ih nome' data'
    · exact piano_indefinito

theorem piano_inviaRisultato {connfd : Int} (hfd : connfd ∈ fds) (res : Option (List Row)) :
    Piano fds (inviaRisultato connfd res) := by
  cases res with
  | none => exact piano_ret _
  | some rows =>
    refine piano_call hfd trivial fun _ => piano_call trivial trivial fun _ =>
      piano_call trivial trivial fun _ => ?_
    exact piano_inviaRighe hfd rows _ _

/-- The request for a list only talks to its student, and to MySQL, which has no descriptor here. -/
theorem locale_visualizzaAppelli {c : ClientStud} (hfd : c.connfd ∈ fds) :
    Locale fds (visualizzaAppelli c) := by
  have hcoda : Locale fds (sys .mysqlStoreResult >>= fun res2 => inviaRisultato c.connfd res2) :=
    locale_call trivial fun res => (piano_inviaRisultato hfd res).locale
  refine locale_call trivial fun req => locale_call hfd fun r => ?_
  show Locale fds (if _ then _ else _)
  split
  · refine locale_call trivial fun ok => ?_
    cases ok with
    | false => exact hcoda
    | true =>
      exact locale_call trivial fun res => (piano_inviaRisultato hfd res).locale.bind fun _ => hcoda
  · split
    · refine locale_call hfd fun r => (locale_cString _).bind fun exam => ?_
      exact locale_call trivial fun _ => hcoda
    · exact hcoda

theorem locale_nuovoAppello {s : Segreteria} (hfd : s.sockfd ∈ fds) : Locale fds s.nuovoAppello := by
  refine locale_call hfd fun _ => (locale_leggiRiga _).bind fun name => ?_
  refine locale_call hfd fun _ => (locale_leggiRiga _).bind fun date => ?_
  refine locale_call hfd fun _ => locale_call hfd fun r => (locale_cString _).bind fun esito => ?_
  exact locale_call trivial fun _ => locale_ret _

end Segreteria

end Locale

section Estraneo

variable {sockfd : Int} {α β : Type}

/-- The same rules where the end of the program matters. -/
theorem Estraneo.bind {p : Programma α} {f : α → Programma β} {Q : α → Prop} {Q' : β → Prop}
    (hp : Estraneo sockfd p Q) (hf : ∀ a, Q a → Estraneo sockfd (f a) Q') :
    Estraneo sockfd (p >>= f) Q' :=
  (Prog.only_bind p f _).mpr (hp.mono hf)

theorem estraneo_call {o : Sys} {k : o.Ans → Programma α} {Q : α → Prop} (ho : ¬ o.Usa sockfd)
    (hk : ∀ r, Nuovo sockfd o r → Estraneo sockfd (k r) Q) : Estraneo sockfd (.call o k) Q :=
  Prog.only_call.mpr ⟨ho, hk⟩

/-! ## The functions of the secretary -/

/-- A login does not touch the slots in use; the new one holds the accepted connection, which is not the
    server's. -/
theorem Distinta.accesso {s : Segreteria} (h : Distinta sockfd s)
    (hfd : (s.clientSockets s.dim).connfd ≠ sockfd) : Estraneo sockfd s.accesso (Distinta sockfd) := by
  refine estraneo_call hfd fun r _ => estraneo_call hfd fun r' _ =>
    estraneo_call (fun h => h) fun _ _ => ?_
  refine ((locale_cString _).estraneo List.not_mem_nil).bind fun pw _ => ?_
  refine estraneo_call (fun h => h) fun _ _ => estraneo_call (fun h => h) fun res _ => ?_
  -- the matricola is stored in a slot, whose descriptor stays what it was
  have hslot : ∀ i ≤ s.dim, (Function.update s.clientSockets s.dim ⟨(s.clientSockets s.dim).connfd,
      (s.clientSockets s.dim).matricola.overlay r⟩ i).connfd ≠ sockfd := by
    intro i hi
    by_cases hd : i = s.dim
    · subst hd
      rw [Function.update_self]
      exact hfd
    · rw [Function.update_of_ne hd]
      exact h.slot i (by omega)
  cases res with
  | none => exact estraneo_call (fun h => h) nofun
  | some rows =>
    show Estraneo sockfd (if _ then _ else _) _
    split
    · exact estraneo_call hfd fun _ _ => ⟨h.sockfd_eq, fun i hi => hslot i (Nat.le_of_lt hi)⟩
    · exact estraneo_call hfd fun _ _ => ⟨h.sockfd_eq, fun i hi => hslot i (Nat.le_of_lt_succ hi)⟩

/-- The accepting loop never puts the server's descriptor into a slot: `accept` returns descriptors that
    are not in use. -/
theorem Distinta.accetta {s : Segreteria} (h : Distinta sockfd s) :
    Estraneo sockfd s.accetta fun q => Distinta sockfd q.2 := by
  refine estraneo_call (fun h => h) fun pronti _ => ?_
  have h' : Distinta sockfd (s.conPronti pronti) := ⟨h.sockfd_eq, h.slot⟩
  show Estraneo sockfd (if _ then _ else _) _
  split
  · split
    · refine estraneo_call (fun h => h) fun fd hfd => ?_
      -- the new descriptor goes into the slot behind those in use
      have hslot : ∀ i < s.dim, (Function.update s.clientSockets s.dim
          { s.clientSockets s.dim with connfd := fd } i).connfd ≠ sockfd := by
        intro i hi
        rw [Function.update_of_ne (Nat.ne_of_lt hi)]
        exact h.slot i hi
      show Estraneo sockfd (if _ then _ else _) _
      split
      · exact ⟨h.sockfd_eq, hslot⟩
      · have hc : Distinta sockfd ((s.conPronti pronti).connessa fd) := ⟨h.sockfd_eq, hslot⟩
        have hfd' : (((s.conPronti pronti).connessa fd).clientSockets
            ((s.conPronti pronti).connessa fd).dim).connfd ≠ sockfd := by
          show (Function.update s.clientSockets s.dim { s.clientSockets s.dim with connfd := fd }
            s.dim).connfd ≠ sockfd
          rw [Function.update_self]
          exact hfd
        exact (hc.accesso hfd').bind fun s' hs' => hs'
    · exact estraneo_call (fun h => h) nofun
  · exact h'

/-- The slot a logout frees holds no descriptor. -/
theorem Distinta.logout {s : Segreteria} (h : Distinta sockfd s) {i : Nat} (hi : i < s.dim)
    (hneg : sockfd ≠ -1) : Estraneo sockfd (s.logout i) (Distinta sockfd) := by
  refine estraneo_call (h.slot i hi) fun _ _ => ⟨h.sockfd_eq, fun j hj => ?_⟩
  show (Function.update s.clientSockets i ⟨-1, Buffer.ofInt 0⟩ j).connfd ≠ sockfd
  by_cases hij : j = i
  · subst hij
    rw [Function.update_self]
    exact hneg.symm
  · rw [Function.update_of_ne hij]
    exact h.slot j hj

end Estraneo

/-! ## Reads of ints -/

/-- A read of an int from a student returns all four bytes, when so many are left; otherwise all that
    are left. It is the assumption that an int is not cut. -/
def LeggeInt (l : LatoSegreteria) : (o : Sys) → o.Ans → Prop
  | .read fd n, r => n = 4 → ∀ c, l.descrittori fd = some c → r = (l.clienti c).take 4
  | _, _ => True

/-- What a read of a code from `fd` will return. -/
def prossimi (l : LatoSegreteria) (fd : Int) : Bytes :=
  match l.descrittori fd with
  | some c => (l.clienti c).take 4
  | none => []

section LeggeInt

variable {sockfd fd : Int} {l l' : LatoSegreteria} {r : Bytes}

/-- A read of an int that finds `b` next returns it, whole, and the stream goes on behind it. -/
theorem LeggeInt.read {c : Nat} {b : Buffer 4} {resto : Bytes} (hfd : fd ≠ sockfd)
    (hc : l.descrittori fd = some c) (hresto : l.clienti c = b.bytes ++ resto)
    (h : l.chiama sockfd (.read fd 4) r = some l') (hint : LeggeInt l (.read fd 4) r) :
    r = b.bytes ∧ l'.clienti c = resto ∧ l'.descrittori = l.descrittori := by
  have hr : r = b.bytes := by
    rw [hint rfl c hc, hresto, List.take_append_of_le_length (Nat.le_of_eq b.size_eq.symm),
      List.take_of_length_le (Nat.le_of_eq b.size_eq)]
  rcases LatoSegreteria.chiama_read hfd h with ⟨c', q, hc', hq, rfl⟩ | ⟨hn, -, -⟩
  · obtain rfl : c = c' := Option.some.inj (hc.symm.trans hc')
    have heq := (recvEnd_eq_some.mp hq).2.1
    rw [hresto, hr, List.append_cancel_left_eq] at heq
    exact ⟨hr, by simp only [Function.update_self]; exact heq.symm, rfl⟩
  · rw [hc] at hn
    cases hn

/-- What a whole read of a code returns. -/
theorem LeggeInt.prossimi (hfd : fd ≠ sockfd) (h : l.chiama sockfd (.read fd 4) r = some l')
    (hint : LeggeInt l (.read fd 4) r) : r = Universita.prossimi l fd := by
  rcases LatoSegreteria.chiama_read hfd h with ⟨c, _, hc, -, -⟩ | ⟨hn, h0, -⟩
  · rw [Universita.prossimi, hc]
    exact hint rfl c hc
  · rw [Universita.prossimi, hn, h0]

end LeggeInt

/-! ## One turn -/

/-- Slot `i` is served: its descriptor is ready, and not the `-1` of a freed slot. -/
def Segreteria.Servito (s : Segreteria) (i : Nat) : Prop :=
  i < s.dim ∧ (s.clientSockets i).connfd ∈ s.readSet ∧ (s.clientSockets i).connfd ≠ -1

instance (s : Segreteria) (i : Nat) : Decidable (s.Servito i) := inferInstanceAs (Decidable (_ ∧ _ ∧ _))

/-- **One turn of the secretary.** What calls that leave the server's socket alone keep (`hT`), a turn
    keeps, if a booking keeps it once its code was read (`hcodice`) and a new appello does (`hnuovo`).
    The rest of the turn is settled here. -/
theorem Segreteria.safe_passo {E : Type} {sockfd : Int} {T : E → (o : Sys) → o.Ans → E → Prop}
    {P : E → Sys → Prop} {K : E → Prop} (hneg : sockfd ≠ -1)
    (hP : ∀ e o, K e → ¬ o.Usa sockfd → P e o)
    (hT : ∀ e o r e', K e → ¬ o.Usa sockfd → T e o r e' → Nuovo sockfd o r ∧ K e')
    {q : Punto × Segreteria} {e : E} (hq : Distinta sockfd q.2) (he : K e)
    (hcodice : ∀ i, q.1 = .servi i → q.2.Servito i → ∀ r e₁,
      T e (.read (q.2.clientSockets i).connfd 4) r e₁ → (q.2.behaviour.overlay r).toInt = 2 →
      ({ q.2 with behaviour := q.2.behaviour.overlay r }.prenota (q.2.clientSockets i)).Safe T P
        (fun _ e' => K e') e₁)
    (hnuovo : ∀ s e, Distinta sockfd s → K e →
      s.nuovoAppello.Safe T P (fun s' e' => Distinta sockfd s' ∧ K e') e) :
    (passo q).Safe T P (fun q' e' => Distinta sockfd q'.2 ∧ K e') e := by
  obtain ⟨p, s⟩ := q
  have estraneo : ∀ {α : Type} {p : Programma α} {Q : α → Prop} {e : E}, Estraneo sockfd p Q → K e →
      p.Safe T P (fun a e' => Q a ∧ K e') e := fun h he => Prog.Only.safe h hP hT he
  cases p with
  | esterno => exact ⟨⟨hq.sockfd_eq, hq.slot⟩, he⟩
  | accetta => exact estraneo hq.accetta he
  | operatore =>
    show Prog.Safe T P (s.operatore >>= _) _ e
    rw [Prog.safe_bind, operatore]
    split
    · rw [Prog.safe_bind]
      refine (estraneo ((locale_scanInt s.logical).estraneo List.not_mem_nil) he).mono fun logical e₁ h₁ => ?_
      refine ⟨hP _ _ h₁.2 fun h => h, fun r e₂ h₂ => ?_⟩
      have he₂ := (hT _ .pulisciInput _ _ h₁.2 (fun h => h) h₂).2
      have hs : Distinta sockfd { s with logical } := ⟨hq.sockfd_eq, hq.slot⟩
      show Prog.Safe T P (if logical = 2 then _ else _) _ e₂
      split
      · exact (hnuovo _ _ hs he₂).mono fun s' e' h => h
      · exact ⟨hs, he₂⟩
    · exact ⟨hq, he⟩
  | servi i =>
    show Prog.Safe T P (if i < s.dim then _ else _) _ e
    split
    · rename_i hi
      rw [Prog.safe_bind, servi]
      split
      · rename_i hlive
        have hfd := hq.slot i hi
        -- once the code is read: a list, a booking, a logout, or nothing
        refine ⟨hP _ _ he hfd, fun r e₁ h₁ => ?_⟩
        have he₁ := (hT _ (.read _ 4) _ _ he hfd h₁).2
        have hs : Distinta sockfd { s with behaviour := s.behaviour.overlay r } :=
          ⟨hq.sockfd_eq, hq.slot⟩
        show Prog.Safe T P (if _ then _ else _) _ e₁
        split
        · rw [Prog.safe_bind]
          have hlista : Locale [(s.clientSockets i).connfd] (visualizzaAppelli (s.clientSockets i)) :=
            locale_visualizzaAppelli List.mem_cons_self
          have hfd' : sockfd ∉ [(s.clientSockets i).connfd] :=
            fun h => hfd (List.mem_singleton.mp h).symm
          exact (estraneo (hlista.estraneo hfd') he₁).mono fun _ e₂ h₂ => ⟨hs, h₂.2⟩
        · split
          · rename_i h2
            rw [Prog.safe_bind]
            exact (hcodice i rfl ⟨hi, hlive⟩ r e₁ h₁ h2).mono fun _ e₂ h₂ => ⟨hs, h₂⟩
          · split
            · exact (estraneo (hs.logout hi hneg) he₁).mono fun s' e' h => h
            · exact ⟨hs, he₁⟩
      · exact ⟨hq, he⟩
    · exact ⟨hq, he⟩

end Universita

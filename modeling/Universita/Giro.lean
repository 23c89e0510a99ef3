/-
  A TURN OF THE SECRETARY — all that one turn of its loops can do to the sessions.

  The secretary alone, in front of students that send what they like and a kernel that hands out any
  descriptor that is not open.  Four things make up the sessions: the table of slots, the number `dim` of those in
  use, `master_set` with `max_fd`, and which descriptors are open.  Hardly any of the code touches them, but the
  code that does is spread over `accept`, the login and the logout, with the whole serving of a booking or a list
  in between.

  The crux is to say once what a complete turn can do.  `Giro` is that relation: for each way through a
  turn, the calls it is recognised by, the state it ends in and the descriptors that are open then.  Every
  invariant of the sessions is a case analysis over `Giro`; none of them opens the code again.  What a routine does
  in between is one fact, `Fermo`: it opens and closes nothing.

  Contents:
  1. `sportello` — the loop and what it is answered.
  2. `Sys.Ferma`, `Fermo` — calls and programs that open and close nothing; `Resta`: what they leave alone.
  3. `Giro` — what a complete turn does, case by case.
  4. **`safe_giro`** — a turn is one of these, by the three functions the loops are made of.
-/
import Universita.Lib.Solo
import Universita.Turno

set_option linter.unusedVariables false

namespace Universita

open Lib Lib.Stream

/-- An answered call. -/
abbrev Evento := Event Sys Sys.Ans

/-- The answers on the secretary's side, with one restriction more than in the composition: `accept`
    does not return the socket it waits on either, since that one is open. -/
def LatoSegreteria.ammette (sockfd : Int) (l : LatoSegreteria) : (o : Sys) → o.Ans → Option LatoSegreteria
  | .accept listenfd, fd => if fd = listenfd then none else l.chiama sockfd (.accept listenfd) fd
  | o, r => l.chiama sockfd o r

/-- The secretary alone, whose socket to the server is `sockfd`: its loop as one step after the other,
    in a world of descriptors and streams. Nothing here knows what the server answers. -/
def sportello (sockfd : Int) : Solo Sys Sys.Ans (Punto × Segreteria) LatoSegreteria where
  body := Segreteria.passo
  ans l o r := l.ammette sockfd o r

/-- The start: nothing accepted yet, the table with whatever the memory held, and the students' streams
    as given. Every run of the secretary begins in such a state. -/
def apertura (sockfd listenfd : Int) (behaviour : Buffer 4) (logical : Int) (slots : Nat → ClientStud)
    (clienti : Nat → Bytes) : Solo.State Sys Sys.Ans (Punto × Segreteria) LatoSegreteria :=
  (sportello sockfd).start (.esterno, Segreteria.iniziale sockfd listenfd behaviour logical slots)
    ⟨clienti, 0, fun _ => none, fun _ => none, [], []⟩

/-- A complete turn and its answers. -/
abbrev Passato := Solo.Past Sys Sys.Ans (Punto × Segreteria)

/-- What a turn sees: its answers so far, and its side of the world. -/
abbrev Vista₁ := Solo.View Sys Sys.Ans LatoSegreteria

/-! ## Calls that open and close nothing -/

/-- A call other than `accept` and `close`. -/
def Sys.Ferma : Sys → Prop
  | .accept _ | .close _ => False
  | _ => True

section Ferma

variable {sockfd : Int} {l l' : LatoSegreteria}

/-- Such a call leaves the descriptors as they are ... -/
theorem LatoSegreteria.ammette_ferma {o : Sys} {r : o.Ans} (ho : o.Ferma)
    (h : l.ammette sockfd o r = some l') : l'.descrittori = l.descrittori := by
  -- one case a call: only `accept` and `close` change which descriptors are open
  cases o with
  | accept fd => exact absurd ho id
  | close fd => exact absurd ho id
  | read fd n =>
    by_cases hfd : fd = sockfd
    · simp only [ammette, chiama, if_pos hfd, Option.some.injEq] at h
      rw [← h]
    · rcases chiama_read hfd h with ⟨c, q, -, -, rfl⟩ | ⟨-, -, rfl⟩
      · rfl
      · rfl
  | select n rs ws =>
    simp only [ammette, chiama] at h
    split at h
    · rw [Option.some.inj h]
    · cases h
  | write fd bs =>
    simp only [ammette, chiama, Option.some.injEq] at h
    rw [← h]
    split <;> rfl
  | mysqlQuery q =>
    cases q with
    | login mat pw => rw [← Option.some.inj h]
    | _ => rw [← Option.some.inj h]
  | _ => rw [← Option.some.inj h]

/-- ... `accept` fails, or opens one that was closed: the kernel returns the descriptor of neither of
    the two sockets nor of an open connection. -/
theorem LatoSegreteria.ammette_accept {listenfd fd : Int}
    (h : l.ammette sockfd (.accept listenfd) fd = some l') :
    fd ≠ sockfd ∧ fd ≠ listenfd ∧ l.descrittori fd = none ∧ ((fd < 0 ∧ l'.descrittori = l.descrittori) ∨
      (0 ≤ fd ∧ ∃ c, l'.descrittori = Function.update l.descrittori fd (some c))) := by
  simp only [ammette] at h
  split at h
  · cases h
  · rename_i hl
    obtain ⟨hs, hnone, hcasi⟩ := chiama_accept h
    refine ⟨hs, hl, hnone, ?_⟩
    rcases hcasi with ⟨hneg, rfl⟩ | ⟨hpos, rfl⟩
    · exact Or.inl ⟨hneg, rfl⟩
    · exact Or.inr ⟨hpos, l.accettate, rfl⟩

theorem LatoSegreteria.ammette_close {fd : Int} {u : Unit}
    (h : l.ammette sockfd (.close fd) u = some l') :
    l'.descrittori = Function.update l.descrittori fd none := by
  rw [← Option.some.inj h]

/-- A write takes nothing from any student. -/
theorem LatoSegreteria.ammette_write {fd : Int} {bs : Bytes} {u : Unit}
    (h : l.ammette sockfd (.write fd bs) u = some l') :
    l'.descrittori = l.descrittori ∧ l'.clienti = l.clienti := by
  rw [← Option.some.inj h]
  split
  · exact ⟨rfl, rfl⟩
  · exact ⟨rfl, rfl⟩

/-- The answers a turn gets, whatever they are. -/
abbrev Risposte (sockfd : Int) := (sportello sockfd).answers fun _ _ _ => True

/-- All calls of `p` are of that kind. -/
abbrev Fermo {α : Type} (p : Programma α) : Prop := p.Only (fun _ _ => True) Sys.Ferma fun _ => True

/-- `Resta l tr v` — since `l`, where the trace was `tr`, there were only calls that open and close
    nothing. It says what is left alone, and that the calls before are still in the trace. -/
structure Resta (l : LatoSegreteria) (tr : List Evento) (v : Vista₁) : Prop where
  /-- The descriptors are those of `l` ... -/
  descrittori : v.2.descrittori = l.descrittori
  /-- ... and what came after `tr` is no `accept` and no `close`. -/
  traccia : ∃ nuovi, v.1 = tr ++ nuovi ∧ ∀ ev ∈ nuovi, ev.1.Ferma

theorem Resta.refl {tr : List Evento} : Resta l tr (tr, l) :=
  ⟨rfl, [], (List.append_nil _).symm, fun _ h => absurd h List.not_mem_nil⟩

theorem Resta.dopo {tr : List Evento} {v v' : Vista₁} {o : Sys} {r : o.Ans} (h : Resta l tr v)
    (ho : o.Ferma)
    (hr : Risposte sockfd v o r v') : Resta l tr v' := by
  obtain ⟨hd, nuovi, htr, hn⟩ := h
  refine ⟨(LatoSegreteria.ammette_ferma ho hr.1).trans hd, nuovi ++ [⟨o, r⟩], ?_, ?_⟩
  · rw [hr.2.1, htr, List.append_assoc]
  · intro ev hev
    rcases List.mem_append.mp hev with h | h
    · exact hn ev h
    · rw [List.mem_singleton.mp h]
      exact ho

/-- What was answered before is still there. -/
theorem Resta.mem {tr : List Evento} {v : Vista₁} (h : Resta l tr v) {ev : Evento} (hev : ev ∈ tr) :
    ev ∈ v.1 := by
  obtain ⟨nuovi, htr, -⟩ := h.traccia
  rw [htr]
  exact List.mem_append_left _ hev

/-- A program of such calls keeps that, and whatever follows it may be verified from there: the rule by
    which a turn skips over a booking, a list or the operator's menu. -/
theorem Fermo.poi {α β : Type} {p : Programma α} {f : α → Programma β} {Q : β → Vista₁ → Prop}
    (h : Fermo p)
    {tr : List Evento} {v : Vista₁} (hv : Resta l tr v)
    (hf : ∀ a v', Resta l tr v' → (f a).Safe (Risposte sockfd) (fun _ _ => True) Q v') :
    (p >>= f).Safe (Risposte sockfd) (fun _ _ => True) Q v := by
  have hT : ∀ (u : Vista₁) o r u', Resta l tr u → Sys.Ferma o → Risposte sockfd u o r u' →
      True ∧ Resta l tr u' := fun u o r u' hu ho hr => ⟨trivial, hu.dopo ho hr⟩
  refine (Prog.safe_bind p f Q v).mpr ?_
  exact (Prog.Only.safe h (fun _ _ _ _ => trivial) hT hv).mono fun a v' hv' => hf a v' hv'.2

/-- A program that only talks on known descriptors is of that kind. -/
theorem Locale.fermo {α : Type} {fds : List Int} {p : Programma α} (h : Locale fds p) : Fermo p :=
  h.weaken (fun _ _ _ => trivial) fun o ho => by
    cases o with
    | accept fd => exact absurd ho id
    | close fd => exact absurd ho id
    | _ => trivial

/-- Reading a buffer up to its NUL. -/
theorem fermo_cString {n : Nat} (b : Buffer n) : Fermo (cString b) :=
  (locale_cString b : Locale [] _).fermo

theorem fermo_scanInt (v : Int) : Fermo (scanInt v) := (locale_scanInt v : Locale [] _).fermo

theorem fermo_leggiRiga {n : Nat} (b : Buffer n) : Fermo (leggiRiga b) :=
  (locale_leggiRiga b : Locale [] _).fermo

/-- The booking talks to the server and to its student. -/
theorem Segreteria.locale_prenota {s : Segreteria} {c : ClientStud} :
    Locale [s.sockfd, c.connfd] (s.prenota c) := by
  have hs : s.sockfd ∈ [s.sockfd, c.connfd] := List.mem_cons_self
  have hc : c.connfd ∈ [s.sockfd, c.connfd] := List.mem_cons_of_mem _ List.mem_cons_self
  refine locale_call trivial fun _ => locale_call trivial fun _ => locale_call hs fun _ => ?_
  refine locale_call hc fun _ => locale_call hc fun _ => locale_call hs fun _ =>
    locale_call hs fun _ => ?_
  exact locale_call hs fun _ => locale_call hc fun _ => locale_ret _

end Ferma

/-! ## A turn -/

/-- The secretary once a connection `fd` has sent the matricola `m` and the password `pw`: both are in
    the first free slot, and `fd` is in the sets. `dim` is not moved yet, and so the slot is not in use. -/
def Segreteria.registrata (s : Segreteria) (fd : Int) (m : Buffer 4) (pw : Buffer 255) : Segreteria :=
  { s.conSlot s.dim ⟨fd, m⟩ with masterSet := fdSet fd s.masterSet, maxFd := max s.maxFd fd, password := pw }

section Slot

variable {s : Segreteria} {i j : Nat} {fd : Int} {m : Buffer 4} {pw : Buffer 255}

theorem Segreteria.conSlot_self (s : Segreteria) (i : Nat) (c : ClientStud) :
    (s.conSlot i c).clientSockets i = c := by
  show Function.update s.clientSockets i c i = c
  exact Function.update_self ..

theorem Segreteria.conSlot_altri {c : ClientStud} (hj : j ≠ i) :
    (s.conSlot i c).clientSockets j = s.clientSockets j := by
  show Function.update s.clientSockets i c j = s.clientSockets j
  exact Function.update_of_ne hj ..

theorem Segreteria.registrata_self :
    (s.registrata fd m pw).clientSockets s.dim = ⟨fd, m⟩ := conSlot_self s s.dim _

theorem Segreteria.registrata_altri (hi : i < s.dim) :
    (s.registrata fd m pw).clientSockets i = s.clientSockets i := conSlot_altri (Nat.ne_of_lt hi)

end Slot

/-- What a student whose login query has `n` rows is told. The rows are counted in an `unsigned int`, so
    it is the number modulo 2^32 that has to be 1. -/
def risposta (n : Nat) : Bytes :=
  if n % 2 ^ 32 = 1 then ascii "credenziali corrette, accesso consentito!"
  else ascii "credenziali non corrette, accesso negato!"

/-- **What a complete turn does**: `Giro sockfd l q tr q' l'` is a turn from `q` with the descriptors
    `l`, whose answers were `tr`, and which ends in `q'` and `l'`. One constructor for each way through
    the loops; what a turn does besides, to buffers nobody else looks at or to the streams, is left
    open. -/
inductive Giro (sockfd : Int) (l : LatoSegreteria) :
    Punto × Segreteria → List Evento → Punto × Segreteria → LatoSegreteria → Prop
  /-- The head of the outer loop: the sets are copied. -/
  | esterno (s : Segreteria) :
      Giro sockfd l (.esterno, s) [] (.accetta, { s with readSet := s.masterSet, writeSet := s.masterSet }) l
  /-- No connection is waiting. -/
  | nessuna {s : Segreteria} {nfds : Int} {rs ws : List Int} {pronti : Option (List Int × List Int)}
      {l' : LatoSegreteria} : s.listenfd ∉ (s.conPronti pronti).readSet → l'.descrittori = l.descrittori →
      Giro sockfd l (.accetta, s) [⟨.select nfds rs ws, pronti⟩] (.servi 0, s.conPronti pronti) l'
  /-- `accept` failed. -/
  | fallita {s : Segreteria} {nfds : Int} {rs ws : List Int} {pronti : Option (List Int × List Int)} {fd : Int}
      {l' : LatoSegreteria} : s.dim < 4096 → fd < 0 → l'.descrittori = l.descrittori →
      Giro sockfd l (.accetta, s) [⟨.select nfds rs ws, pronti⟩, ⟨.accept s.listenfd, fd⟩]
        (.accetta, (s.conPronti pronti).conSlot s.dim { s.clientSockets s.dim with connfd := fd }) l'
  /-- A connection was accepted; its login query had `rows`. -/
  | accettata {s : Segreteria} {tr : List Evento} {nfds : Int} {rs ws : List Int}
      {pronti : Option (List Int × List Int)} {fd : Int} {c : Nat} {m : Buffer 4} {pw : Buffer 255}
      {testo : Bytes} {ok : Bool} {rows : List Row} {l' : LatoSegreteria} :
      s.dim < 4096 → 0 ≤ fd → fd ≠ sockfd → fd ≠ s.listenfd → l.descrittori fd = none →
      l'.descrittori = Function.update l.descrittori fd (some c) → (∀ ev ∈ tr, ev.1.Ferma) →
      ⟨.mysqlQuery (.login m.toInt testo), ok⟩ ∈ tr → ⟨.mysqlStoreResult, some rows⟩ ∈ tr →
      tr.getLast? = some ⟨.write fd (risposta rows.length), ()⟩ →
      Giro sockfd l (.accetta, s) (⟨.select nfds rs ws, pronti⟩ :: ⟨.accept s.listenfd, fd⟩ :: tr)
        (.accetta, { (s.conPronti pronti).registrata fd m pw with
          dim := if rows.length % 2 ^ 32 = 1 then s.dim + 1 else s.dim }) l'
  /-- Slot `i` is not ready, or freed. -/
  | passata {s : Segreteria} {i : Nat} : i < s.dim → ¬ s.Servito i →
      Giro sockfd l (.servi i, s) [] (.servi (i + 1), s) l
  /-- Slot `i` is served and stays. -/
  | servita {s : Segreteria} {i : Nat} {r : Bytes} {tr : List Evento} {l' : LatoSegreteria} :
      s.Servito i → (s.behaviour.overlay r).toInt ≠ 3 → l'.descrittori = l.descrittori →
      (∀ ev ∈ tr, ev.1.Ferma) →
      Giro sockfd l (.servi i, s) (⟨.read (s.clientSockets i).connfd 4, r⟩ :: tr)
        (.servi (i + 1), { s with behaviour := s.behaviour.overlay r }) l'
  /-- Slot `i` logs out. -/
  | uscita {s : Segreteria} {i : Nat} {r : Bytes} {l' : LatoSegreteria} :
      s.Servito i → (s.behaviour.overlay r).toInt = 3 →
      l'.descrittori = Function.update l.descrittori (s.clientSockets i).connfd none →
      Giro sockfd l (.servi i, s)
        [⟨.read (s.clientSockets i).connfd 4, r⟩, ⟨.close (s.clientSockets i).connfd, ()⟩]
        (.servi (i + 1), { s.conSlot i ⟨-1, Buffer.ofInt 0⟩ with
          behaviour := s.behaviour.overlay r,
          masterSet := fdClr (s.clientSockets i).connfd s.masterSet }) l'
  /-- No slot is left to serve. -/
  | finita {s : Segreteria} {i : Nat} : s.dim ≤ i → Giro sockfd l (.servi i, s) [] (.operatore, s) l
  /-- The operator's menu. -/
  | operatore {s : Segreteria} {tr : List Evento} {logical : Int} {name : Buffer 255} {date : Buffer 12}
      {result : Buffer 255} {l' : LatoSegreteria} : l'.descrittori = l.descrittori →
        (∀ ev ∈ tr, ev.1.Ferma) →
      Giro sockfd l (.operatore, s) tr (.esterno, { s with logical, name, date, result }) l'

section Giro

variable {sockfd : Int} {tr : List Evento} {l : LatoSegreteria}

/-- The login of the connection in slot `dim`, from the read of the matricola to the answer: both
    answers of MySQL are in the trace, and the last call of the turn tells the student the outcome. -/
theorem giro_accesso {s : Segreteria} {fd : Int} {v : Vista₁} (hfd : (s.clientSockets s.dim).connfd = fd)
    (hv : Resta l tr v) :
    s.accesso.Safe (Risposte sockfd) (fun _ _ => True) (fun s' v' => Resta l tr v' ∧
      ∃ m pw testo ok rows, ⟨.mysqlQuery (.login m.toInt testo), ok⟩ ∈ v'.1 ∧
        ⟨.mysqlStoreResult, some rows⟩ ∈ v'.1 ∧
          v'.1.getLast? = some ⟨.write fd (risposta rows.length), ()⟩ ∧
        s' = { s.conSlot s.dim ⟨fd, m⟩ with
          password := pw, dim := if rows.length % 2 ^ 32 = 1 then s.dim + 1 else s.dim }) v := by
  subst hfd
  refine ⟨trivial, fun r v₁ h₁ => ⟨trivial, fun r' v₂ h₂ => ⟨trivial, fun _ v₃ h₃ => ?_⟩⟩⟩
  have hv₃ : Resta l tr v₃ := ((hv.dopo (by trivial) h₁).dopo (by trivial) h₂).dopo (by trivial) h₃
  refine (fermo_cString _).poi hv₃ fun testo v₄ hv₄ => ?_
  refine ⟨trivial, fun ok v₅ h₅ => ⟨trivial, fun res v₆ h₆ => ?_⟩⟩
  have hv₆ : Resta l tr v₆ := (hv₄.dopo (by trivial) h₅).dopo (by trivial) h₆
  cases res with
  | none => exact ⟨trivial, nofun⟩
  | some rows =>
    -- whatever is written after it, both answers stay in the trace
    have hmem : ∀ {o : Sys} {a : o.Ans} {v₇ : Vista₁}, Risposte sockfd v₆ o a v₇ →
        ⟨.mysqlQuery (.login ((s.clientSockets s.dim).matricola.overlay r).toInt testo), ok⟩ ∈ v₇.1 ∧
          ⟨.mysqlStoreResult, some rows⟩ ∈ v₇.1 := by
      intro o a v₇ h₇
      rw [h₇.2.1, h₆.2.1, h₅.2.1]
      simp
    show Prog.Safe _ _ (if rows.length % 2 ^ 32 ≠ 1 then _ else _) _ _
    by_cases hrows : rows.length % 2 ^ 32 = 1
    · rw [if_neg (not_not_intro hrows)]
      refine ⟨trivial, fun _ v₇ h₇ => ⟨hv₆.dopo (by trivial) h₇,
        (s.clientSockets s.dim).matricola.overlay r, s.password.overlay r', testo, ok, rows,
        ?_, ?_, ?_, ?_⟩⟩
      · exact (hmem h₇).1
      · exact (hmem h₇).2
      · rw [h₇.2.1, List.getLast?_concat, risposta, if_pos hrows]
      · rw [if_pos hrows]
        rfl
    · rw [if_pos hrows]
      refine ⟨trivial, fun _ v₇ h₇ => ⟨hv₆.dopo (by trivial) h₇,
        (s.clientSockets s.dim).matricola.overlay r, s.password.overlay r', testo, ok, rows,
        ?_, ?_, ?_, ?_⟩⟩
      · exact (hmem h₇).1
      · exact (hmem h₇).2
      · rw [h₇.2.1, List.getLast?_concat, risposta, if_neg hrows]
      · rw [if_neg hrows]
        rfl

open Segreteria in

/-- The accepting loop: no connection, a failing `accept`, or a login. A login may be refused or
    granted; the descriptor is open and in `master_set` either way. -/
theorem giro_accetta (s : Segreteria) : s.accetta.Safe (Risposte sockfd) (fun _ _ => True)
    (fun q' v => Giro sockfd l (.accetta, s) v.1 q' v.2) ([], l) := by
  refine ⟨trivial, fun pronti v₁ h₁ => ?_⟩
  have hinizio : Resta l [] ([], l) := .refl
  have hd₁ : v₁.2.descrittori = l.descrittori := (hinizio.dopo (by trivial) h₁).descrittori
  have htr₁ : v₁.1 = [⟨.select (s.maxFd + 1) s.readSet s.writeSet, pronti⟩] := h₁.2.1
  show Prog.Safe _ _ (if s.listenfd ∈ (s.conPronti pronti).readSet then
    (if s.dim < 4096 then _ else _) else _) _ _
  by_cases hl : s.listenfd ∈ (s.conPronti pronti).readSet
  · rw [if_pos hl]
    by_cases hdim : s.dim < 4096
    · rw [if_pos hdim]
      refine ⟨trivial, fun fd v₂ h₂ => ?_⟩
      -- whatever `accept` returns was no descriptor of ours; negative, it goes into the slot all the
      -- same
      obtain ⟨hs, hls, hnone, hfd⟩ := LatoSegreteria.ammette_accept h₂.1
      have htr₂ : v₂.1 = v₁.1 ++ [⟨.accept s.listenfd, fd⟩] := h₂.2.1
      rw [htr₁] at htr₂
      rw [hd₁] at hnone hfd
      show Prog.Safe _ _ (if fd < 0 then _ else _) _ _
      rcases hfd with ⟨hneg, hd⟩ | ⟨hpos, c, hd⟩
      · rw [if_pos hneg]
        show Giro sockfd l (.accetta, s) v₂.1 _ v₂.2
        rw [htr₂]
        exact Giro.fallita hdim hneg hd
      · rw [if_neg (Int.not_lt.mpr hpos)]
        have hfd : (((s.conPronti pronti).connessa fd).clientSockets s.dim).connfd = fd :=
          congrArg ClientStud.connfd (conSlot_self (s.conPronti pronti) s.dim _)
        refine (Prog.safe_bind ..).mpr ((giro_accesso hfd Resta.refl).mono ?_)
        rintro s' v' ⟨⟨hd', nuovi, htr', hferme⟩, m, pw, testo, ok, rows, hlogin, hstore, hlast, rfl⟩
        -- the slot is written when the connection is accepted, and again with its matricola
        have hupd : ∀ d, ({ ((s.conPronti pronti).connessa fd).conSlot s.dim ⟨fd, m⟩ with
            password := pw, dim := d } : Segreteria) =
            { (s.conPronti pronti).registrata fd m pw with dim := d } := by
          intro d
          simp only [registrata, connessa, conSlot, conPronti, Function.update_idem]
        show Giro sockfd l (.accetta, s) v'.1 (.accetta, { ((s.conPronti pronti).connessa fd).conSlot
          s.dim ⟨fd, m⟩ with
          password := pw, dim := if rows.length % 2 ^ 32 = 1 then s.dim + 1 else s.dim }) v'.2
        rw [htr₂] at htr'
        rw [htr'] at hlogin hstore hlast
        have hnuovi : nuovi ≠ [] := by
          rintro rfl
          simp at hlogin
        rw [List.getLast?_append_of_ne_nil _ hnuovi] at hlast
        rw [hupd, htr']
        exact Giro.accettata hdim hpos hs hls hnone (hd'.trans hd) hferme (by simpa using hlogin)
          (by simpa using hstore) hlast
    · rw [if_neg hdim]
      exact ⟨trivial, nofun⟩
  · rw [if_neg hl]
    show Giro sockfd l (.accetta, s) v₁.1 _ v₁.2
    rw [htr₁]
    exact Giro.nessuna hl hd₁

/-- The serving of one slot: not ready, a logout, or one of the other requests, which open and close
    nothing. -/
theorem giro_servi {s : Segreteria} {i : Nat} (hi : i < s.dim) :
    (s.servi i).Safe (Risposte sockfd) (fun _ _ => True)
      (fun s' v => Giro sockfd l (.servi i, s) v.1 (.servi (i + 1), s') v.2) ([], l) := by
  show Prog.Safe _ _ (if (s.clientSockets i).connfd ∈ s.readSet ∧ (s.clientSockets i).connfd ≠ -1
    then _ else _) _ _
  by_cases hserv : (s.clientSockets i).connfd ∈ s.readSet ∧ (s.clientSockets i).connfd ≠ -1
  · rw [if_pos hserv]
    have hservito : s.Servito i := ⟨hi, hserv⟩
    refine ⟨trivial, fun r v₁ h₁ => ?_⟩
    have htr : v₁.1 = [⟨.read (s.clientSockets i).connfd 4, r⟩] := h₁.2.1
    have hinizio : Resta l [] ([], l) := .refl
    have hd₁ : v₁.2.descrittori = l.descrittori := (hinizio.dopo (by trivial) h₁).descrittori
    have hv₁ : Resta l v₁.1 v₁ := ⟨hd₁, Resta.refl.traccia⟩
    -- whatever the code, the turn ends here unless it is the logout
    have hresta : ∀ v' : Vista₁, (s.behaviour.overlay r).toInt ≠ 3 → Resta l v₁.1 v' →
        Giro sockfd l (.servi i, s) v'.1 (.servi (i + 1), { s with behaviour := s.behaviour.overlay r }) v'.2 := by
      rintro v' h3 ⟨hd, nuovi, htr', hferme⟩
      rw [htr', htr]
      exact Giro.servita hservito h3 hd hferme
    show Prog.Safe _ _ (if (s.behaviour.overlay r).toInt = 1 then _ else
      (if (s.behaviour.overlay r).toInt = 2 then _ else
      (if (s.behaviour.overlay r).toInt = 3 then _ else _))) _ _
    split
    · rename_i h1
      have hvis : Locale [(s.clientSockets i).connfd] (Segreteria.visualizzaAppelli (s.clientSockets i)) :=
        Segreteria.locale_visualizzaAppelli List.mem_cons_self
      exact hvis.fermo.poi hv₁ fun _ v₂ hv₂ => hresta v₂ (by omega) hv₂
    · split
      · rename_i h2
        refine Segreteria.locale_prenota.fermo.poi hv₁ fun _ v₂ hv₂ => ?_
        exact hresta v₂ (by omega) hv₂
      · split
        · rename_i h3
          -- the logout closes the descriptor of the slot
          refine ⟨trivial, fun _ v₂ h₂ => ?_⟩
          have hclose : v₁.2.ammette sockfd (.close (s.clientSockets i).connfd) () = some v₂.2 := h₂.1
          have hd : v₂.2.descrittori = Function.update l.descrittori (s.clientSockets i).connfd none := by
            rw [LatoSegreteria.ammette_close hclose, hd₁]
          have htr₂ : v₂.1 = v₁.1 ++ [⟨.close (s.clientSockets i).connfd, ()⟩] := h₂.2.1
          rw [htr] at htr₂
          show Giro sockfd l (.servi i, s) v₂.1 _ v₂.2
          rw [htr₂]
          exact Giro.uscita hservito h3 hd
        · rename_i h3
          exact hresta v₁ h3 hv₁
  · rw [if_neg hserv]
    exact Giro.passata hi fun h => hserv h.2

/-- The operator's menu opens and closes nothing either: it may read an outcome into its buffer, and
    that is all it changes. -/
theorem giro_operatore (s : Segreteria) : s.operatore.Safe (Risposte sockfd) (fun _ _ => True)
    (fun s' v => Giro sockfd l (.operatore, s) v.1 (.esterno, s') v.2) ([], l) := by
  -- the menu may change its own four variables, and opens or closes nothing
  have hfine : ∀ (logical : Int) (name : Buffer 255) (date : Buffer 12) (result : Buffer 255) (v : Vista₁),
      Resta l [] v → Giro sockfd l (.operatore, s) v.1 (.esterno, { s with logical, name, date, result }) v.2 := by
    rintro logical name date result v ⟨hd, nuovi, htr, hferme⟩
    rw [htr]
    exact Giro.operatore hd hferme
  show Prog.Safe _ _ (if s.sockfd ∈ s.writeSet then _ else _) _ _
  split
  · refine (fermo_scanInt _).poi Resta.refl fun logical v₁ hv₁ => ?_
    refine ⟨trivial, fun _ v₂ h₂ => ?_⟩
    have hv₂ := hv₁.dopo (by trivial) h₂
    show Prog.Safe _ _ (if logical = 2 then _ else _) _ _
    split
    · refine ⟨trivial, fun _ v₃ h₃ => ?_⟩
      refine (fermo_leggiRiga _).poi (hv₂.dopo (by trivial) h₃) fun name v₄ hv₄ => ?_
      refine ⟨trivial, fun _ v₅ h₅ => ?_⟩
      refine (fermo_leggiRiga _).poi (hv₄.dopo (by trivial) h₅) fun date v₆ hv₆ => ?_
      refine ⟨trivial, fun _ v₇ h₇ => ⟨trivial, fun r v₈ h₈ => ?_⟩⟩
      have hv₈ := (hv₆.dopo (by trivial) h₇).dopo (by trivial) h₈
      refine (fermo_cString _).poi hv₈ fun esito v₉ hv₉ => ?_
      exact ⟨trivial, fun _ v' h' => hfine logical name date _ v' (hv₉.dopo (by trivial) h')⟩
    · exact hfine logical s.name s.date s.result v₂ hv₂
  · exact hfine s.logical s.name s.date s.result _ Resta.refl

/-- **A turn is one of these.** This is the only place where the secretary's loops are opened for the
    sake of the sessions; from here on an invariant is checked against the constructors of `Giro`. -/
theorem safe_giro (q : Punto × Segreteria) (l : LatoSegreteria) :
    (Segreteria.passo q).Safe (Risposte sockfd) (fun _ _ => True)
      (fun q' v => Giro sockfd l q v.1 q' v.2) ([], l) := by
  obtain ⟨p, s⟩ := q
  cases p with
  | esterno => exact Giro.esterno s
  | accetta => exact giro_accetta s
  | servi i =>
    show Prog.Safe _ _ (if i < s.dim then _ else _) _ _
    by_cases hi : i < s.dim
    · rw [if_pos hi]
      exact (Prog.safe_bind ..).mpr (giro_servi hi)
    · rw [if_neg hi]
      exact Giro.finita (Nat.le_of_not_lt hi)
  | operatore => exact (Prog.safe_bind ..).mpr (giro_operatore s)

end Giro

end Universita

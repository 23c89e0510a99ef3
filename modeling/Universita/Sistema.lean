/-
  THE SECRETARY IN FRONT OF THE SERVER — the two main loops over one TCP connection.

  The students are byte streams: what a student ever sends on a connection is fixed when the run
  starts, and ends where the student leaves.  Everything else (when which descriptor is ready, how the
  bytes are cut into reads, what MySQL, the operator and uninitialised memory hold) is left open: it
  is in the answers that label the moves, so a theorem about every run is about every choice of it.

  TCP is two queues of bytes between the programs.  A write joins the end of one, a read takes from its front any
  number of bytes up to what was asked for, and nothing keeps the boundaries of the writes: they are remembered
  only by the observations, so that what was sent and what was read can be compared afterwards.

  The crux of this module is to say once what ONE answer can change (`LatoSegreteria.Effetto`, `EffettoServer`).  The
  world has twenty kinds of calls, and every invariant above it would otherwise split them again.

  Contents:
  1. `LatoSegreteria`, `LatoServer`, `Rete` — each side of the network with what it was seen to do.
  2. `LatoSegreteria.chiama`, `LatoServer.chiama`, `sistema` — the answers the world gives.
  3. `LatoSegreteria.Effetto`, `EffettoServer` — what one answer can change.
  4. `fifo` — the bytes written by one side are the bytes read by the other, then those in flight.
-/
import Universita.Lib.Duo
import Universita.Lib.Stream
import Universita.Segreteria
import Universita.Server

set_option linter.unusedVariables false

namespace Universita

open Lib Lib.Stream

/-! ## The two sides -/

/-- What the secretary is connected to, and what it was seen to do. -/
structure LatoSegreteria where
  /-- What each student has still to be read. -/
  clienti : Nat → Bytes
  /-- Connections accepted so far: the next one has this number. -/
  accettate : Nat
  /-- The connection behind a descriptor. -/
  descrittori : Int → Option Nat
  /-- The matricola that was looked up at a connection's login. -/
  verificate : Nat → Option Int
  /-- The writes to the server. -/
  inviate : List Bytes
  /-- The reads from the server. -/
  esiti : List Bytes

/-- What the server is connected to, and what it was seen to do. -/
structure LatoServer where
  /-- The descriptor of the secretary's connection, once accepted. -/
  connessione : Option Int
  /-- What it has read from the secretary. -/
  lette : Bytes
  /-- The bookings it executed: exam and matricola. -/
  eseguite : List (Int × Int)
  /-- What it has written, one entry for each request. -/
  risposte : List Bytes
  /-- How many bytes it had read when it began each of these. -/
  aperte : List Nat

/-- Both sides, and what is in flight between them. -/
structure Rete where
  /-- The secretary's side. -/
  seg : LatoSegreteria
  /-- The server's side. -/
  ser : LatoServer
  /-- In flight to the server. -/
  su : Bytes
  /-- In flight to the secretary. -/
  giu : Bytes

/-! ## The answers -/

/-- Whether `select` may answer `pronti`: some of the descriptors it was given. -/
def sottoinsiemi (rs ws : List Int) : Option (List Int × List Int) → Bool
  | none => true
  | some (r, w) => decide (r ⊆ rs ∧ w ⊆ ws)

/-- The secretary's side after the answer `r` to `o`: `accept` returns an unused descriptor and binds it
    to the next connection, a read from a student takes from the front of that student's stream, a read
    of nothing comes only at its end. -/
def LatoSegreteria.chiama (sockfd : Int) (l : LatoSegreteria) :
    (o : Sys) → o.Ans → Option LatoSegreteria
  | .select _ rs ws, pronti => if sottoinsiemi rs ws pronti then some l else none
  | .accept _, fd =>
      if fd = sockfd ∨ l.descrittori fd ≠ none then none
      else if fd < 0 then some l
      else some { l with descrittori := Function.update l.descrittori fd (some l.accettate),
                         accettate := l.accettate + 1 }
  | .read fd n, r =>
      if fd = sockfd then some { l with esiti := l.esiti ++ [r] }
      else match l.descrittori fd with
        | some c => (recvEnd n (l.clienti c) r).map fun q =>
            { l with clienti := Function.update l.clienti c q }
        | none => if r = [] then some l else none
  | .write fd bs, _ => some (if fd = sockfd then { l with inviate := l.inviate ++ [bs] } else l)
  | .close fd, _ => some { l with descrittori := Function.update l.descrittori fd none }
  | .mysqlQuery (.login mat _), _ =>
      some { l with verificate := Function.update l.verificate (l.accettate - 1) (some mat) }
  | _, _ => some l

/-- The server's side after the answer `r` to `o`: it has one connection at a time, and each connection
    to MySQL opens a new entry for what it writes. -/
def LatoServer.chiama (l : LatoServer) : (o : Sys) → o.Ans → Option LatoServer
  | .select _ rs ws, pronti => if sottoinsiemi rs ws pronti then some l else none
  | .accept _, fd =>
      if fd < 0 then some l
      else if l.connessione = none then some { l with connessione := some fd } else none
  | .read fd _, r =>
      if l.connessione = some fd then some { l with lette := l.lette ++ r }
      else if r = [] then some l else none
  | .write fd bs, _ =>
      some (if l.connessione = some fd then { l with risposte := inCoda bs l.risposte } else l)
  | .mysqlInit, _ =>
      some { l with risposte := l.risposte ++ [[]], aperte := l.aperte ++ [l.lette.length] }
  | .mysqlQuery (.verificaPrenotazione id mat), _ =>
      some { l with eseguite := l.eseguite ++ [(id, mat)] }
  | _, _ => some l

/-- What an answer to the secretary does to the two streams: a write to the server's socket joins one, a
    read from it takes from the other, and everything else leaves both. -/
def Rete.perSegreteria (sockfd : Int) (e : Rete) : (o : Sys) → o.Ans → Option (Bytes × Bytes)
  | .read fd n, r => if fd = sockfd then (recv n e.giu r).map (e.su, ·) else some (e.su, e.giu)
  | .write fd bs, _ => some (if fd = sockfd then e.su ++ bs else e.su, e.giu)
  | _, _ => some (e.su, e.giu)

/-- ... and an answer to the server. -/
def Rete.perServer (e : Rete) : (o : Sys) → o.Ans → Option (Bytes × Bytes)
  | .read fd n, r =>
      if e.ser.connessione = some fd then (recv n e.su r).map (·, e.giu) else some (e.su, e.giu)
  | .write fd bs, _ => some (e.su, if e.ser.connessione = some fd then e.giu ++ bs else e.giu)
  | _, _ => some (e.su, e.giu)

/-- **The composition**: the secretary, whose socket to the server is `sockfd`, and the server. Their
    moves interleave in any order; a read of an empty stream has no answer, so its program waits. -/
def sistema (sockfd : Int) : Duo Sys Sys.Ans (Punto × Segreteria) Server Rete where
  body₁ := Segreteria.passo
  body₂ := Server.passo
  ans₁ e o r := do
    let seg ← e.seg.chiama sockfd o r
    let (su, giu) ← e.perSegreteria sockfd o r
    pure { e with seg, su, giu }
  ans₂ e o r := do
    let ser ← e.ser.chiama o r
    let (su, giu) ← e.perServer o r
    pure { e with ser, su, giu }

/-- A state of the two programs in front of this world. -/
abbrev Stato := Duo.State Sys Sys.Ans (Punto × Segreteria) Server Rete

/-- A move of it: an answer to one of them, or the next turn of one. -/
abbrev Mossa := Duo.Move Sys Sys.Ans

/-- The start: both loops at their head, nothing sent, and the students' streams as given. -/
def inizio (clienti : Nat → Bytes) (s : Segreteria) (t : Server) : Stato where
  turn₁ := (.esterno, s)
  trace₁ := []
  prog₁ := .ret (.esterno, s)
  turn₂ := t
  trace₂ := []
  prog₂ := .ret t
  env := ⟨⟨clienti, 0, fun _ => none, fun _ => none, [], []⟩, ⟨none, [], [], [], []⟩, [], []⟩

/-! ## What a move does to the world -/

section Mosse

variable {sockfd : Int} {e e' : Rete}

/-- An answer to the secretary: its own side, the two streams, and nothing of the server's. -/
theorem sistema_ans₁ {o : Sys} {r : o.Ans} :
    (sistema sockfd).ans₁ e o r = some e' ↔ e.seg.chiama sockfd o r = some e'.seg ∧
      e.perSegreteria sockfd o r = some (e'.su, e'.giu) ∧ e'.ser = e.ser := by
  simp only [sistema, Option.bind_eq_bind, Option.bind_eq_some_iff, Option.pure_def,
    Option.some.injEq]
  constructor
  · rintro ⟨seg, h1, p, h2, rfl⟩; exact ⟨h1, h2, rfl⟩
  · rintro ⟨h1, h2, h3⟩; exact ⟨_, h1, _, h2, by rw [← h3]⟩

theorem sistema_ans₂ {o : Sys} {r : o.Ans} :
    (sistema sockfd).ans₂ e o r = some e' ↔ e.ser.chiama o r = some e'.ser ∧
      e.perServer o r = some (e'.su, e'.giu) ∧ e'.seg = e.seg := by
  simp only [sistema, Option.bind_eq_bind, Option.bind_eq_some_iff, Option.pure_def,
    Option.some.injEq]
  constructor
  · rintro ⟨ser, h1, p, h2, rfl⟩; exact ⟨h1, h2, rfl⟩
  · rintro ⟨h1, h2, h3⟩; exact ⟨_, h1, _, h2, by rw [← h3]⟩

/-- What a call writes to `fd`. -/
def scrittura (fd : Int) : Sys → List Bytes
  | .write f bs => if f = fd then [bs] else []
  | _ => []

/-- What a call reads from `fd`. -/
def lettura (fd : Int) : (o : Sys) → o.Ans → List Bytes
  | .read f _, r => if f = fd then [r] else []
  | _, _ => []

/-- The call uses the descriptor `fd`. -/
def Sys.Usa (fd : Int) : Sys → Prop
  | .read f _ | .write f _ | .close f => f = fd
  | _ => False

/-- The rest of a student's stream, once `r` was read from `fd`: the descriptor is an open connection
    and its stream is shorter by `r`, or nothing was read and nothing changes. -/
theorem LatoSegreteria.chiama_read {l l' : LatoSegreteria} {fd : Int} {n : Nat} {r : Bytes}
    (hfd : fd ≠ sockfd) (h : l.chiama sockfd (.read fd n) r = some l') :
    (∃ c q, l.descrittori fd = some c ∧ recvEnd n (l.clienti c) r = some q ∧
      l' = { l with clienti := Function.update l.clienti c q }) ∨
    (l.descrittori fd = none ∧ r = [] ∧ l' = l) := by
  simp only [chiama, if_neg hfd] at h
  split at h
  · rename_i c hc
    obtain ⟨q, hq, rfl⟩ := Option.map_eq_some_iff.mp h
    exact Or.inl ⟨c, q, hc, hq, rfl⟩
  · rename_i hc
    split at h
    · rename_i hr
      exact Or.inr ⟨hc, hr, (Option.some.inj h).symm⟩
    · cases h

/-- `accept` fails, or the descriptor it returns is that of the next connection, and was not in use. -/
theorem LatoSegreteria.chiama_accept {l l' : LatoSegreteria} {listenfd fd : Int}
    (h : l.chiama sockfd (.accept listenfd) fd = some l') :
    fd ≠ sockfd ∧ l.descrittori fd = none ∧ (fd < 0 ∧ l' = l ∨ 0 ≤ fd ∧ l' =
      { l with descrittori := Function.update l.descrittori fd (some l.accettate), accettate := l.accettate + 1 }) := by
  simp only [chiama] at h
  split at h
  · cases h
  · rename_i hfd
    obtain ⟨hsock, hnone⟩ := not_or.mp hfd
    refine ⟨hsock, not_not.mp hnone, ?_⟩
    split at h
    · rename_i hneg
      exact Or.inl ⟨hneg, (Option.some.inj h).symm⟩
    · rename_i hneg
      exact Or.inr ⟨Int.not_lt.mp hneg, (Option.some.inj h).symm⟩

/-- What one answer adds to the observations; a student's stream can only get shorter. -/
structure LatoSegreteria.Effetto (sockfd : Int) (l : LatoSegreteria) (o : Sys) (r : o.Ans)
    (l' : LatoSegreteria) : Prop where
  /-- A write to the server is recorded ... -/
  inviate : l'.inviate = l.inviate ++ scrittura sockfd o
  /-- ... a read from it too ... -/
  esiti : l'.esiti = l.esiti ++ lettura sockfd o r
  /-- ... and a student's stream loses its front at most. -/
  clienti : ∀ c, l'.clienti c <:+ l.clienti c

theorem LatoSegreteria.chiama_effetto {l l' : LatoSegreteria} {o : Sys} {r : o.Ans}
    (h : l.chiama sockfd o r = some l') : l.Effetto sockfd o r l' := by
  have fermo : l' = l → scrittura sockfd o = [] → lettura sockfd o r = [] → l.Effetto sockfd o r l' := by
    rintro rfl hs hl
    exact ⟨by rw [hs, List.append_nil], by rw [hl, List.append_nil], fun c => List.suffix_refl _⟩
  -- one case a call: reads and writes do what `lettura` and `scrittura` say, the others nothing
  cases o with
  | read fd n =>
    by_cases hfd : fd = sockfd
    · simp only [chiama, if_pos hfd, Option.some.injEq] at h
      subst h
      exact ⟨(List.append_nil _).symm, by rw [lettura, if_pos hfd], fun c => List.suffix_refl _⟩
    · have hl : lettura sockfd (.read fd n) r = [] := if_neg hfd
      rcases chiama_read hfd h with ⟨c, q, -, hq, rfl⟩ | ⟨-, -, rfl⟩
      · refine ⟨(List.append_nil _).symm, by rw [hl, List.append_nil], fun c' => ?_⟩
        by_cases hc : c' = c
        · subst hc
          simp only [Function.update_self]
          rw [(recvEnd_eq_some.mp hq).2.1]
          exact List.suffix_append _ _
        · simp only [Function.update_of_ne hc]
          exact List.suffix_refl _
      · exact fermo rfl rfl hl
  | write fd bs =>
    simp only [chiama, Option.some.injEq] at h
    subst h
    by_cases hfd : fd = sockfd
    · simp only [if_pos hfd]
      exact ⟨by rw [scrittura, if_pos hfd], (List.append_nil _).symm, fun c => List.suffix_refl _⟩
    · exact fermo (by rw [if_neg hfd]) (if_neg hfd) rfl
  | select n rs ws =>
    simp only [chiama] at h
    split at h
    · exact fermo (Option.some.inj h).symm rfl rfl
    · cases h
  | accept fd =>
    rcases (chiama_accept h).2.2 with ⟨-, hl⟩ | ⟨-, rfl⟩
    · exact fermo hl rfl rfl
    · exact ⟨(List.append_nil _).symm, (List.append_nil _).symm, fun c => List.suffix_refl _⟩
  | close fd =>
    obtain rfl := Option.some.inj h
    exact ⟨(List.append_nil _).symm, (List.append_nil _).symm, fun c => List.suffix_refl _⟩
  | mysqlQuery q =>
    cases q with
    | login mat pw =>
      obtain rfl := Option.some.inj h
      exact ⟨(List.append_nil _).symm, (List.append_nil _).symm, fun c => List.suffix_refl _⟩
    | _ => exact fermo (Option.some.inj h).symm rfl rfl
  | _ => exact fermo (Option.some.inj h).symm rfl rfl

/-- What is written joins the stream to the server, what is read leaves the other; the answers to all
    other calls leave both. -/
theorem perSegreteria_some {o : Sys} {r : o.Ans} {su giu : Bytes}
    (h : e.perSegreteria sockfd o r = some (su, giu)) :
    su = e.su ++ (scrittura sockfd o).flatten ∧ e.giu = (lettura sockfd o r).flatten ++ giu := by
  have fermo : scrittura sockfd o = [] → lettura sockfd o r = [] → some (e.su, e.giu) = some (su, giu) →
      su = e.su ++ (scrittura sockfd o).flatten ∧ e.giu = (lettura sockfd o r).flatten ++ giu := by
    intro hs hl heq
    obtain ⟨rfl, rfl⟩ := Prod.mk.inj (Option.some.inj heq)
    rw [hs, hl, List.flatten_nil, List.append_nil, List.nil_append]
    exact ⟨rfl, rfl⟩
  -- the two streams change with reads and writes of the connection only
  cases o with
  | read fd n =>
    by_cases hfd : fd = sockfd
    · simp only [Rete.perSegreteria, if_pos hfd] at h
      obtain ⟨giu', hr, heq⟩ := Option.map_eq_some_iff.mp h
      obtain ⟨rfl, rfl⟩ := Prod.mk.inj heq
      refine ⟨(List.append_nil _).symm, ?_⟩
      rw [lettura, if_pos hfd, List.flatten_singleton]
      exact (recv_eq_some.mp hr).2.2
    · simp only [Rete.perSegreteria, if_neg hfd] at h
      exact fermo rfl (if_neg hfd) h
  | write fd bs =>
    obtain ⟨rfl, rfl⟩ := Prod.mk.inj (Option.some.inj h)
    refine ⟨?_, rfl⟩
    by_cases hfd : fd = sockfd
    · rw [scrittura, if_pos hfd, if_pos hfd, List.flatten_singleton]
    · rw [scrittura, if_neg hfd, if_neg hfd, List.flatten_nil, List.append_nil]
  | _ => exact fermo rfl rfl h

/-- What the server read in a piece of its run. -/
def letture (tr : List (Event Sys Sys.Ans)) : List Bytes :=
  tr.filterMap fun
    | ⟨.read _ _, r⟩ => some r
    | _ => none

theorem letture_append (tr : List (Event Sys Sys.Ans)) (ev : Event Sys Sys.Ans) :
    letture (tr ++ [ev]) = letture tr ++ letture [ev] := List.filterMap_append

/-- The bookings a call executes. -/
def eseguita : Sys → List (Int × Int)
  | .mysqlQuery (.verificaPrenotazione id mat) => [(id, mat)]
  | _ => []

/-- What one answer to the server changes: the bytes it read leave the stream, the bytes it wrote join
    the last reply, and each connection to MySQL opens a reply. -/
structure EffettoServer (e : Rete) (o : Sys) (r : o.Ans) (e' : Rete) : Prop where
  /-- What was read is recorded ... -/
  lette : e'.ser.lette = e.ser.lette ++ (letture [⟨o, r⟩]).flatten
  /-- ... and has left the front of the stream. -/
  su : e.su = (letture [⟨o, r⟩]).flatten ++ e'.su
  /-- A booking that is checked is recorded. -/
  eseguite : e'.ser.eseguite = e.ser.eseguite ++ eseguita o
  /-- A connection to MySQL marks the place where a reply begins ... -/
  aperte : e'.ser.aperte = e.ser.aperte ++ if o = .mysqlInit then [e.ser.lette.length] else []
  /-- ... and opens it; a write joins the reply that is open, and the stream to the secretary. -/
  risposte : e'.ser.risposte = (e.ser.risposte ++ if o = .mysqlInit then [[]] else []) ∧
      e'.giu = e.giu ∨
    (∃ fd bs, o = .write fd bs) ∧ ∃ bs, e'.ser.risposte = inCoda bs e.ser.risposte ∧
      e'.giu = e.giu ++ bs

theorem effettoServer {o : Sys} {r : o.Ans} (h : (sistema sockfd).ans₂ e o r = some e') :
    EffettoServer e o r e' := by
  obtain ⟨seg', ser', su', giu'⟩ := e'
  obtain ⟨hser, hp, -⟩ := sistema_ans₂.mp h
  -- the calls of no concern here
  have fermo : letture [⟨o, r⟩] = [] → eseguita o = [] → o ≠ .mysqlInit → e.ser = ser' →
      some (e.su, e.giu) = some (su', giu') → EffettoServer e o r ⟨seg', ser', su', giu'⟩ := by
    rintro hl he hi rfl heq
    obtain ⟨rfl, rfl⟩ := Prod.mk.inj (Option.some.inj heq)
    refine ⟨?_, ?_, ?_, ?_, Or.inl ⟨?_, rfl⟩⟩
    · rw [hl]
      exact (List.append_nil _).symm
    · rw [hl]
      rfl
    · rw [he, List.append_nil]
    · rw [if_neg hi, List.append_nil]
    · rw [if_neg hi, List.append_nil]
  cases o with
  | read fd n =>
    have hl : (letture [⟨.read fd n, r⟩]).flatten = r := List.append_nil r
    by_cases hfd : e.ser.connessione = some fd
    · simp only [LatoServer.chiama, if_pos hfd, Option.some.injEq] at hser
      simp only [Rete.perServer, if_pos hfd] at hp
      obtain ⟨su'', hr, heq⟩ := Option.map_eq_some_iff.mp hp
      obtain ⟨rfl, rfl⟩ := Prod.mk.inj heq
      subst hser
      refine ⟨?_, ?_, (List.append_nil _).symm, (List.append_nil _).symm, Or.inl ⟨(List.append_nil _).symm, rfl⟩⟩
      · rw [hl]
      · rw [hl]
        exact (recv_eq_some.mp hr).2.2
    · simp only [LatoServer.chiama, if_neg hfd] at hser
      simp only [Rete.perServer, if_neg hfd] at hp
      split at hser
      · -- a read from elsewhere delivers nothing
        rename_i hr
        obtain rfl := Option.some.inj hser
        obtain ⟨rfl, rfl⟩ := Prod.mk.inj (Option.some.inj hp)
        refine ⟨?_, ?_, (List.append_nil _).symm, (List.append_nil _).symm, Or.inl ⟨(List.append_nil _).symm, rfl⟩⟩
        · rw [hl, hr, List.append_nil]
        · rw [hl, hr]
          rfl
      · cases hser
  | write fd bs =>
    simp only [LatoServer.chiama, Option.some.injEq] at hser
    obtain ⟨rfl, rfl⟩ := Prod.mk.inj (Option.some.inj hp)
    by_cases hfd : e.ser.connessione = some fd
    · rw [if_pos hfd] at hser
      subst hser
      refine ⟨(List.append_nil _).symm, rfl, (List.append_nil _).symm, (List.append_nil _).symm,
        Or.inr ⟨⟨fd, bs, rfl⟩, bs, rfl, ?_⟩⟩
      rw [if_pos hfd]
    · rw [if_neg hfd] at hser
      exact fermo rfl rfl nofun hser (by rw [if_neg hfd])
  | mysqlInit =>
    obtain ⟨rfl, rfl⟩ := Prod.mk.inj (Option.some.inj hp)
    obtain rfl := Option.some.inj hser
    exact ⟨(List.append_nil _).symm, rfl, (List.append_nil _).symm, rfl, Or.inl ⟨rfl, rfl⟩⟩
  | mysqlQuery q =>
    cases q with
    | verificaPrenotazione id mat =>
      obtain ⟨rfl, rfl⟩ := Prod.mk.inj (Option.some.inj hp)
      obtain rfl := Option.some.inj hser
      exact ⟨(List.append_nil _).symm, rfl, rfl, (List.append_nil _).symm,
        Or.inl ⟨(List.append_nil _).symm, rfl⟩⟩
    | _ => exact fermo rfl rfl nofun (Option.some.inj hser) hp
  | select n rs ws =>
    simp only [LatoServer.chiama] at hser
    split at hser
    · exact fermo rfl rfl nofun (Option.some.inj hser) hp
    · cases hser
  | accept fd =>
    obtain ⟨rfl, rfl⟩ := Prod.mk.inj (Option.some.inj hp)
    simp only [LatoServer.chiama] at hser
    split at hser
    · exact fermo rfl rfl nofun (Option.some.inj hser) hp
    · split at hser
      · obtain rfl := Option.some.inj hser
        exact ⟨(List.append_nil _).symm, rfl, (List.append_nil _).symm, (List.append_nil _).symm,
          Or.inl ⟨(List.append_nil _).symm, rfl⟩⟩
      · cases hser
  | _ => exact fermo rfl rfl nofun (Option.some.inj hser) hp

/-- A read returns no more bytes than it asked for. -/
def Corta : (o : Sys) → o.Ans → Prop
  | .read _ n, r => r.length ≤ n
  | _, _ => True

theorem corta_ans₂ {o : Sys} {r : o.Ans} (h : (sistema sockfd).ans₂ e o r = some e') : Corta o r := by
  obtain ⟨hser, hp, -⟩ := sistema_ans₂.mp h
  cases o with
  | read fd n =>
    by_cases hfd : e.ser.connessione = some fd
    · simp only [Rete.perServer, if_pos hfd] at hp
      obtain ⟨su', hr, -⟩ := Option.map_eq_some_iff.mp hp
      exact (recv_eq_some.mp hr).2.1
    · simp only [LatoServer.chiama, if_neg hfd] at hser
      split at hser
      · rename_i hr
        rw [Corta, hr]
        exact Nat.zero_le n
      · cases hser
  | _ => trivial

/-! ## First in, first out -/

/-- What one side wrote is what the other read, then what is in flight. -/
structure Fifo (e : Rete) : Prop where
  /-- To the server. -/
  su : e.seg.inviate.flatten = e.ser.lette ++ e.su
  /-- To the secretary. -/
  giu : e.ser.risposte.flatten = e.seg.esiti.flatten ++ e.giu

/-- An answer to the secretary keeps both. -/
theorem Fifo.ans₁ (hf : Fifo e) {o : Sys} {r : o.Ans}
    (h : (sistema sockfd).ans₁ e o r = some e') : Fifo e' := by
  obtain ⟨hseg, hp, hser⟩ := sistema_ans₁.mp h
  obtain ⟨hsu, hgiu⟩ := perSegreteria_some hp
  have heff := LatoSegreteria.chiama_effetto hseg
  refine ⟨?_, ?_⟩
  · rw [heff.inviate, List.flatten_append, hf.su, hser, hsu, List.append_assoc]
  · rw [hser, hf.giu, heff.esiti, List.flatten_append, hgiu, List.append_assoc]

theorem Fifo.ans₂ (hf : Fifo e) {o : Sys} {r : o.Ans}
    (h : (sistema sockfd).ans₂ e o r = some e') : Fifo e' := by
  have heff := effettoServer h
  obtain ⟨-, -, hseg⟩ := sistema_ans₂.mp h
  refine ⟨by rw [hseg, hf.su, heff.lette, heff.su, List.append_assoc], ?_⟩
  rw [hseg]
  rcases heff.risposte with ⟨hr, hg⟩ | ⟨-, bs, hr, hg⟩
  · have hvuota : (if o = .mysqlInit then [([] : Bytes)] else []).flatten = [] := by split <;> rfl
    rw [hr, hg, List.flatten_append, hf.giu, hvuota, List.append_nil]
  · rw [hr, hg, flatten_inCoda, hf.giu, List.append_assoc]

end Mosse

/-- **The two streams are in order and without loss in every reachable state**: what one side wrote is
    what the other read, then what is in flight. By induction on the moves, one lemma for each side. -/
theorem fifo {sockfd : Int} {C : Stato → Mossa → Prop} {clienti : Nat → Bytes} {s : Segreteria}
    {t : Server} {d : Stato} (hd : (sistema sockfd).Reach C (inizio clienti s t) d) : Fifo d.env := by
  refine Duo.Reach.invariant (J := fun d => Fifo d.env) ⟨rfl, rfl⟩ ?_ hd
  intro d m d' _ hf _ hs
  cases m with
  | turn₁ => obtain ⟨_, -, rfl⟩ := Duo.step_turn₁ _ hs; exact hf
  | turn₂ => obtain ⟨_, -, rfl⟩ := Duo.step_turn₂ _ hs; exact hf
  | act₁ o r => obtain ⟨_, e, -, he, rfl⟩ := Duo.step_act₁ _ hs; exact hf.ans₁ he
  | act₂ o r => obtain ⟨_, e, -, he, rfl⟩ := Duo.step_act₂ _ hs; exact hf.ans₂ he

end Universita

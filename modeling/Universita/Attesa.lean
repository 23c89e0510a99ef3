/-
  NOBODY WAITS FOR NOTHING — can secretary and server both sit in a `read` with nothing on its way?

  The secretary forwards three writes and then waits for an outcome; the server takes three reads and
  then writes one.  Nothing but the cutting of the streams and the emptiness of a text can bring them
  apart: an empty line that the operator types is a write of no bytes, and the server goes on waiting
  for the text that was to come.

  The condition is about moves and says just that (`Puntuale`): no empty write to the other side, and a read of
  the connection takes the next write, whole and alone.  Cutting alone would not block anybody — a read that got
  less leaves the rest for the next — but it shifts the boundaries of the requests, and then the counts below
  mean nothing.

  The proof counts both sides:
    * the secretary's writes come in threes, the first a code, and it waits only behind the third (`Codici`);
    * a turn of the server delivers no read, or one that is no code, or three and then a reply that is not
      empty (`Tratto`, `Compiuto`), and between the third read and the reply it waits for nothing (`InTempo`);
    * so the replies begun are as many as the requests read, or one more that is in progress (`Ritmo`).
  The crux is to put the counts together (`nulla_indietro`): if the secretary waits and nothing is on its way to it,
  then the reply it waits for has no byte yet, so its request has been read in part at most; and if nothing is on its
  way to the server either, it has been read in whole.

  Contents:
  1. `Codici` — every third write of the secretary is a request code, 1 or 2, and two arguments come behind it.
  2. `vere`, `allacci`, `Tratto` — how far a turn of the server is, and that it ends with no read, or with
     three and a reply.
  3. `Ritmo`, `nulla_indietro` — both counts together, in every reachable state.
  4. **`mai_in_attesa`** — with one write a read, and no empty ones, they never wait for each other.
     `attesa_nome_vuoto` — after one empty line they do.
-/
import Universita.Esiti

set_option linter.unusedVariables false

namespace Universita

open Lib Lib.Stream Server

/-! ## The secretary -/

/-- A request code. -/
def Codice (b : Bytes) : Prop := b = (Buffer.ofInt 1).bytes ∨ b = (Buffer.ofInt 2).bytes

/-- The three writes of a request. -/
inductive Istanza : Bytes → Bytes → Bytes → Prop
  /-- The name of an exam and a date that fits its buffer. -/
  | appello (x : Bytes) {y : Bytes} : 0 ∉ y → y.length ≤ 12 → Istanza (Buffer.ofInt 1).bytes x y
  /-- An exam and a matricola, four bytes each. -/
  | prenotazione (cod mat : Buffer 4) : Istanza (Buffer.ofInt 2).bytes cod.bytes mat.bytes

/-- Every third write is a request code, and with the next two it is a request. It is said of the writes
    alone, and so of whatever the server can read. -/
structure Codici (ws : List Bytes) : Prop where
  /-- The first of each three is a code ... -/
  codice : ∀ k c, ws[3 * k]? = some c → Codice c
  /-- ... and the three of them are a request. -/
  richiesta : ∀ k c x y, ws[3 * k]? = some c → ws[3 * k + 1]? = some x → ws[3 * k + 2]? = some y → Istanza c x y

theorem codici_nil : Codici [] := ⟨fun k c h => (nomatch h), fun k c x y h => (nomatch h)⟩

/-- One write more: a code where one is due, and where a request is completed, a request. By the place
    of the write modulo three. -/
theorem Codici.concat {ws : List Bytes} {b : Bytes} (h : Codici ws) (hb : ws.length % 3 = 0 → Codice b)
    (hr : ∀ c x, ws.length % 3 = 2 → ws[ws.length - 2]? = some c → ws[ws.length - 1]? = some x → Istanza c x b) :
    Codici (ws ++ [b]) := by
  -- an index of the longer list is one of the old list or that of the new write
  have hprima : ∀ {i : Nat} {c : Bytes}, (ws ++ [b])[i]? = some c → i < ws.length ∧ ws[i]? = some c ∨
      i = ws.length ∧ c = b := by
    intro i c hc
    rcases Nat.lt_trichotomy i ws.length with hlt | rfl | hgt
    · rw [List.getElem?_append_left hlt] at hc
      exact .inl ⟨hlt, hc⟩
    · rw [List.getElem?_concat_length] at hc
      exact .inr ⟨rfl, (Option.some.inj hc).symm⟩
    · rw [List.getElem?_eq_none (by rw [List.length_append, List.length_singleton]; omega)] at hc
      cases hc
  refine ⟨fun k c hc => ?_, fun k c x y hc hx hy => ?_⟩
  · rcases hprima hc with ⟨-, hc⟩ | ⟨hk, rfl⟩
    · exact h.codice k c hc
    · exact hb (by omega)
  · rcases hprima hy with ⟨hlt, hy⟩ | ⟨hk, rfl⟩
    · rw [List.getElem?_append_left (by omega)] at hc hx
      exact h.richiesta k c x y hc hx hy
    · -- the last write completes a request
      rw [List.getElem?_append_left (by omega)] at hc hx
      refine hr c x (by omega) ?_ ?_
      · rw [← hk]
        exact hc
      · rw [← hk]
        exact hx

theorem Codici.prima {ws : List Bytes} {c : Bytes} (h : Codici ws) (hlen : ws.length % 3 = 0) (hc : Codice c) :
    Codici (ws ++ [c]) := h.concat (fun _ => hc) fun _ _ h2 => by omega

/-- Behind a code the first argument of the request follows, of which nothing is asked yet. -/
theorem Codici.seconda {ws : List Bytes} {c x : Bytes} (h : Codici (ws ++ [c])) (hlen : ws.length % 3 = 0) :
    Codici (ws ++ [c] ++ [x]) := by
  refine h.concat (fun h0 => ?_) fun _ _ h2 => ?_
  · rw [List.length_append, List.length_singleton] at h0
    omega
  · rw [List.length_append, List.length_singleton] at h2
    omega

theorem Codici.terza {ws : List Bytes} {c x y : Bytes} (h : Codici (ws ++ [c] ++ [x])) (hlen : ws.length % 3 = 0)
    (hr : Istanza c x y) : Codici (ws ++ [c] ++ [x] ++ [y]) := by
  have hl : (ws ++ [c] ++ [x]).length = ws.length + 2 := by simp
  refine h.concat (fun h0 => by omega) fun c' x' _ hc hx => ?_
  rw [hl, Nat.add_sub_cancel, List.append_assoc, List.getElem?_append_right (Nat.le_refl _), Nat.sub_self] at hc
  rw [hl, show ws.length + 2 - 1 = ws.length + 1 from rfl, List.append_assoc,
    List.getElem?_append_right (by omega), Nat.add_sub_cancel_left] at hx
  obtain rfl := Option.some.inj hc
  obtain rfl := Option.some.inj hx
  exact hr

section Secretary

variable {sockfd : Int} {ws ws' : List Bytes}

/-- How one call adds to the writes. -/
def invia (sockfd : Int) (ws : List Bytes) (o : Sys) (r : o.Ans) (ws' : List Bytes) : Prop :=
  Nuovo sockfd o r ∧ ws' = ws ++ scrittura sockfd o

/-- A call on another descriptor adds nothing. -/
theorem invia_estranea {o : Sys} {r : o.Ans} (ho : ¬ o.Usa sockfd) (h : invia sockfd ws o r ws') :
    ws' = ws := by
  rw [h.2, scrittura_estranea ho, List.append_nil]

theorem invia_write {bs : Bytes} {u : Unit} (h : invia sockfd ws (.write sockfd bs) u ws') :
    ws' = ws ++ [bs] := by
  rw [h.2, scrittura, if_pos rfl]

theorem invia_read {n : Nat} {r : Bytes} (h : invia sockfd ws (.read sockfd n) r ws') : ws' = ws := by
  rw [h.2]
  exact List.append_nil _

/-- Between two requests. -/
def Pausa (ws : List Bytes) : Prop := Codici ws ∧ ws.length % 3 = 0

theorem pausa_nil : Pausa [] := ⟨codici_nil, rfl⟩

/-- A booking writes its code and two numbers, whatever the student sends: a short read leaves four
    bytes all the same. -/
theorem codici_prenota {s : Segreteria} {c : ClientStud} (hs : s.sockfd = sockfd) (hfd : c.connfd ≠ sockfd)
    (h2 : s.behaviour.toInt = 2) (h : Pausa ws) :
    (s.prenota c).Safe (invia sockfd) (fun ws _ => Codici ws) (fun _ ws' => Pausa ws') ws := by
  subst hs
  obtain ⟨h, hlen⟩ := h
  -- the first of the three writes is the code that was read, and that is 2
  have hcodice : s.behaviour.bytes = (Buffer.ofInt 2).bytes := by rw [← h2, Buffer.ofInt_toInt]
  refine ⟨h, fun cod v₁ hv => ?_⟩
  obtain rfl := invia_estranea (o := .indeterminato 4) (fun h => h) hv
  refine ⟨h, fun mat v₁ hv => ?_⟩
  obtain rfl := invia_estranea (o := .indeterminato 4) (fun h => h) hv
  refine ⟨h, fun _ v₁ hv => ?_⟩
  obtain rfl := invia_write hv
  have h₁ := h.prima hlen (.inr hcodice)
  refine ⟨h₁, fun r v₂ hv => ?_⟩
  obtain rfl := invia_estranea (o := .read _ _) hfd hv
  refine ⟨h₁, fun r' v₂ hv => ?_⟩
  obtain rfl := invia_estranea (o := .read _ _) hfd hv
  refine ⟨h₁, fun _ v₂ hv => ?_⟩
  obtain rfl := invia_write hv
  have h₂ := h₁.seconda (x := (cod.overlay r).bytes) hlen
  refine ⟨h₂, fun _ v₃ hv => ?_⟩
  obtain rfl := invia_write hv
  have h₃ := h₂.terza (y := (mat.overlay r').bytes) hlen (by rw [hcodice]; exact .prenotazione _ _)
  refine ⟨h₃, fun res v₄ hv => ?_⟩
  obtain rfl := invia_read hv
  refine ⟨h₃, fun _ v₅ hv => ?_⟩
  obtain rfl := invia_estranea (o := .write _ _) hfd hv
  exact ⟨h₃, by simp; omega⟩

/-- An appello writes its code, a name that may be empty, and a date. They are three writes whatever was
    typed, which is all that the count of the secretary's writes is about. -/
theorem codici_nuovoAppello {s : Segreteria} (hs : Distinta sockfd s) (h : Pausa ws) :
    s.nuovoAppello.Safe (invia sockfd) (fun ws _ => Codici ws)
      (fun s' ws' => Distinta sockfd s' ∧ Pausa ws') ws := by
  obtain ⟨rfl, hslot⟩ := hs
  obtain ⟨h, hlen⟩ := h
  have estraneo : ∀ {α : Type} {p : Programma α} {w : List Bytes}, Estraneo s.sockfd p (fun _ => True) →
      Codici w → p.Safe (invia s.sockfd) (fun ws _ => Codici ws) (fun _ w' => w' = w) w := by
    intro α p w hp hw
    refine (Prog.Only.safe (K := fun w' => w' = w) hp ?_ ?_ rfl).mono fun _ _ h => h.2
    · rintro _ o rfl ho; exact hw
    · rintro _ o r w' rfl ho h; exact ⟨h.1, invia_estranea ho h⟩
  refine ⟨h, fun _ v₁ hv => ?_⟩
  obtain rfl := invia_write hv
  have h₁ := h.prima hlen (c := (Buffer.ofInt 1).bytes) (.inl rfl)
  show Prog.Safe _ _ (leggiRiga s.name >>= _) _ _
  rw [Prog.safe_bind]
  refine (estraneo ((locale_leggiRiga _).estraneo List.not_mem_nil) h₁).mono ?_
  rintro name _ rfl
  refine ⟨h₁, fun _ v₂ hv => ?_⟩
  obtain rfl := invia_write hv
  have h₂ := h₁.seconda (x := cstr name.bytes) hlen
  show Prog.Safe _ _ (leggiRiga s.date >>= _) _ _
  rw [Prog.safe_bind]
  refine (estraneo ((locale_leggiRiga _).estraneo List.not_mem_nil) h₂).mono ?_
  rintro date _ rfl
  refine ⟨h₂, fun _ v₃ hv => ?_⟩
  obtain rfl := invia_write hv
  -- the date is cut at its NUL, so it has none and is no longer than its buffer
  have h₃ := h₂.terza (y := cstr date.bytes) hlen
    (.appello _ (zero_notMem_cstr _) ((List.takeWhile_prefix _).length_le.trans (Nat.le_of_eq date.size_eq)))
  refine ⟨h₃, fun res v₄ hv => ?_⟩
  obtain rfl := invia_read hv
  show Prog.Safe _ _ (cString _ >>= _) _ _
  rw [Prog.safe_bind]
  refine (estraneo ((locale_cString _).estraneo List.not_mem_nil) h₃).mono ?_
  rintro esito _ rfl
  refine ⟨h₃, fun _ v₅ hv => ?_⟩
  obtain rfl := invia_estranea (o := .printf _) (fun h => h) hv
  exact ⟨⟨rfl, hslot⟩, h₃, by simp; omega⟩

variable {C : Stato → Mossa → Prop} {clienti : Nat → Bytes} {s : Segreteria} {t : Server} {d : Stato}

/-- **In every run every third write of the secretary is a request code.** Only a booking and a new
    appello write to the server, and each of them writes three times. -/
theorem codici (hneg : sockfd ≠ -1) (hs : Distinta sockfd s)
    (hd : (sistema sockfd).Reach C (inizio clienti s t) d) : Codici d.env.seg.inviate := by
  have hsafe : d.prog₁.Safe (invia sockfd) (fun ws _ => Codici ws)
      (fun q ws => Distinta sockfd q.2 ∧ Pausa ws) d.env.seg.inviate := by
    refine Duo.Reach.local₁ (fun d => d.env.seg.inviate) (fun _ => True) (fun _ _ => trivial)
      ?_ ?_ ?_ ?_ hd
    · intro d o r d' _ _ _ hstep
      obtain ⟨k, e, -, he, rfl⟩ := Duo.step_act₁ _ hstep
      have hseg := (sistema_ans₁.mp he).1
      exact ⟨chiama_nuovo hseg, (LatoSegreteria.chiama_effetto hseg).inviate⟩
    · intro d q d' _ _ hret hstep hI
      obtain ⟨q', hp, rfl⟩ := Duo.step_turn₁ _ hstep
      obtain rfl : q = q' := Prog.ret.inj (hret.symm.trans hp)
      refine Segreteria.safe_passo (K := Pausa) hneg ?_ ?_ hI.1 hI.2 ?_ ?_
      · exact fun ws o hws _ => hws.1
      · intro ws o r ws' hws ho h
        obtain rfl := invia_estranea ho h
        exact ⟨h.1, hws⟩
      · -- a slot never holds the server's descriptor, so the read of the code is none of that connection
        intro i _ hi r ws₁ h h2
        have hfd := hI.1.slot i hi.1
        obtain rfl := invia_estranea (o := .read _ _) hfd h
        exact codici_prenota hI.1.sockfd_eq hfd h2 hI.2
      · exact fun s' ws hs' hws => codici_nuovoAppello hs' hws
    · intro d m d' hm hstep
      cases m with
      | turn₁ => exact (hm trivial).elim
      | act₁ o r => exact (hm trivial).elim
      | turn₂ => obtain ⟨_, -, rfl⟩ := Duo.step_turn₂ _ hstep; rfl
      | act₂ o r =>
        obtain ⟨_, e, -, he, rfl⟩ := Duo.step_act₂ _ hstep
        rw [show e.seg = d.env.seg from (sistema_ans₂.mp he).2.2]
    · exact ⟨⟨hs.sockfd_eq, hs.slot⟩, pausa_nil⟩
  exact hsafe.now (fun _ h => h) fun _ h => h.2.1

end Secretary

/-! ## A turn of the server -/

/-- The reads that delivered something. The others are reads at the end of a stream, of which the server
    has none as long as the secretary runs. -/
def vere (tr : List (Event Sys Sys.Ans)) : List Bytes := (letture tr).filter (· ≠ [])

/-- How often it connected to MySQL. -/
def allacci (tr : List (Event Sys Sys.Ans)) : Nat := tr.countP fun ev => decide (ev.1 = .mysqlInit)

/-- The turn so far, and the server's side of the network: from these two it is seen how far the server
    is in a request, and what of its reply was written. -/
structure Lavoro where
  /-- The variables it began with. -/
  inizio : Server
  /-- The calls answered in it. -/
  traccia : List (Event Sys Sys.Ans)
  /-- The connection, and the replies so far. -/
  ser : LatoServer

/-- Nothing empty is written to the connection, and nothing empty read from it. An empty write would be
    a request nobody receives. -/
def NonVuota (connessione : Option Int) : (o : Sys) → o.Ans → Prop
  | .write fd bs, _ => connessione = some fd → bs ≠ []
  | .read fd _, r => connessione = some fd → r ≠ []
  | _, _ => True

/-- One answer. -/
def lavora (v : Lavoro) (o : Sys) (r : o.Ans) (v' : Lavoro) : Prop :=
  NonVuota v.ser.connessione o r ∧ v'.inizio = v.inizio ∧ v'.traccia = v.traccia ++ [⟨o, r⟩] ∧
    v.ser.chiama o r = some v'.ser

/-- In this turn `j` reads delivered something, and `w` is the reply begun in it, if one was; the replies of the
    turns before are not empty. -/
structure Tratto (v : Lavoro) (j : Nat) (w : List Bytes) : Prop where
  /-- The replies of the turns before are not empty; this turn's is `w`. -/
  risposte : ∃ rs, (∀ x ∈ rs, x ≠ []) ∧ v.ser.risposte = rs ++ w
  /-- `j` reads delivered something. -/
  letti : (vere v.traccia).length = j
  /-- A reply was begun for each connection to MySQL. -/
  aperti : allacci v.traccia = w.length

/-- A call that waits for the bytes of the secretary: a read from its connection, or the `select` in
    front of it. -/
def Sys.Attende (connessione : Option Int) : Sys → Prop
  | .select _ _ _ => True
  | .read fd _ => connessione = some fd
  | _ => False

/-- A write. -/
def Sys.Parla : Sys → Prop
  | .write _ _ => True
  | _ => False

/-- In front of each call: at most one reply was begun, none before the first read; before the third
    read it may wait for bytes, but not after; and it writes to a reply that was begun. -/
def InTempo (v : Lavoro) (o : Sys) : Prop :=
  ∃ j w, Tratto v j w ∧ w.length ≤ 1 ∧ (w ≠ [] → 1 ≤ j) ∧ (o.Attende v.ser.connessione → j ≤ 2) ∧
    (o.Parla → w ≠ [])

/-- At the end of a turn: nothing was read; or one thing that is no code; or three, and a reply was written. -/
def Compiuto (v : Lavoro) : Prop :=
  Tratto v 0 [] ∨ (Tratto v 1 [] ∧ ∃ r, vere v.traccia = [r] ∧ codice v.inizio r ≠ 1 ∧ codice v.inizio r ≠ 2) ∨
    ∃ b, b ≠ [] ∧ Tratto v 3 [b]

section Lavoro

variable {v v' : Lavoro} {j : Nat} {w : List Bytes} {o : Sys} {r : o.Ans} {fd : Int}

theorem vere_append (tr : List (Event Sys Sys.Ans)) (ev : Event Sys Sys.Ans) :
    vere (tr ++ [ev]) = vere tr ++ vere [ev] := by
  rw [vere, letture_append, List.filter_append]
  rfl

theorem allacci_append (tr : List (Event Sys Sys.Ans)) (ev : Event Sys Sys.Ans) :
    allacci (tr ++ [ev]) = allacci tr + allacci [ev] := List.countP_append

/-- Where nothing was read nothing was delivered. -/
theorem vere_of_letture (tr : List (Event Sys Sys.Ans)) (h : letture tr = []) : vere tr = [] := by
  rw [vere, h]
  rfl

theorem allacci_ne (o : Sys) (r : o.Ans) (h : o ≠ .mysqlInit) : allacci [⟨o, r⟩] = 0 := by
  simp [allacci, h]

/-- Only a write and a connection to MySQL change the replies: the second begins one, the first adds to
    the last one. -/
theorem LatoServer.chiama_risposte {l l' : LatoServer} (h : l.chiama o r = some l')
    (hw : ∀ fd bs, o ≠ .write fd bs) (hi : o ≠ .mysqlInit) : l'.risposte = l.risposte := by
  -- one case a call; only a write and `mysql_init` are observed in the replies
  cases o with
  | write fd bs => exact absurd rfl (hw fd bs)
  | mysqlInit => exact absurd rfl hi
  | select n rs ws =>
    simp only [chiama] at h
    split at h
    · rw [← Option.some.inj h]
    · cases h
  | accept f =>
    simp only [chiama] at h
    split at h
    · rw [← Option.some.inj h]
    · split at h
      · rw [← Option.some.inj h]
      · cases h
  | read f n =>
    simp only [chiama] at h
    split at h
    · rw [← Option.some.inj h]
    · split at h
      · rw [← Option.some.inj h]
      · cases h
  | mysqlQuery q => cases q <;> rw [← Option.some.inj h]
  | _ => rw [← Option.some.inj h]

/-- Only an `accept` changes the connection, so in the middle of a request it is the one the code came
    over. -/
theorem LatoServer.chiama_connessione {l l' : LatoServer} (h : l.chiama o r = some l')
    (ha : ∀ fd, o ≠ .accept fd) : l'.connessione = l.connessione := by
  cases o with
  | accept f => exact absurd rfl (ha f)
  | write f bs =>
    simp only [chiama, Option.some.injEq] at h
    rw [← h]
    split <;> rfl
  | select n rs ws =>
    simp only [chiama] at h
    split at h
    · rw [← Option.some.inj h]
    · cases h
  | read f n =>
    simp only [chiama] at h
    split at h
    · rw [← Option.some.inj h]
    · split at h
      · rw [← Option.some.inj h]
      · cases h
  | mysqlQuery q => cases q <;> rw [← Option.some.inj h]
  | _ => rw [← Option.some.inj h]

/-- A call that neither reads nor writes nor opens a reply. -/
theorem Tratto.altra (h : Tratto v j w) (hc : lavora v o r v') (hw : ∀ fd bs, o ≠ .write fd bs)
    (hi : o ≠ .mysqlInit) (hr : vere [⟨o, r⟩] = []) : Tratto v' j w := by
  obtain ⟨-, -, htr, hser⟩ := hc
  refine ⟨?_, ?_, ?_⟩
  · rw [LatoServer.chiama_risposte hser hw hi]
    exact h.risposte
  · rw [htr, vere_append, hr, List.append_nil, h.letti]
  · rw [htr, allacci_append, allacci_ne o r hi, h.aperti, Nat.add_zero]

theorem Tratto.legge (h : Tratto v j w) (hconn : v.ser.connessione = some fd) {n : Nat} {r : Bytes}
    (hc : lavora v (.read fd n) r v') : Tratto v' (j + 1) w ∧ vere v'.traccia = vere v.traccia ++ [r] := by
  obtain ⟨hne, -, htr, hser⟩ := hc
  have hvera : vere [⟨.read fd n, r⟩] = [r] := by
    rw [vere, show letture [⟨.read fd n, r⟩] = [r] from rfl]
    simp [hne hconn]
  have hvere : vere v'.traccia = vere v.traccia ++ [r] := by rw [htr, vere_append, hvera]
  refine ⟨⟨?_, ?_, ?_⟩, hvere⟩
  · rw [LatoServer.chiama_risposte hser nofun nofun]
    exact h.risposte
  · rw [hvere, List.length_append, h.letti, List.length_singleton]
  · rw [htr, allacci_append, allacci_ne (.read fd n) r nofun, h.aperti, Nat.add_zero]

theorem Tratto.apre (h : Tratto v j []) {ok : Bool} (hc : lavora v .mysqlInit ok v') : Tratto v' j [[]] := by
  obtain ⟨-, -, htr, hser⟩ := hc
  obtain ⟨rs, hrs, hris⟩ := h.risposte
  refine ⟨⟨rs, hrs, ?_⟩, ?_, ?_⟩
  · rw [← Option.some.inj hser]
    show v.ser.risposte ++ [[]] = _
    rw [hris, List.append_nil]
  · rw [htr, vere_append, vere_of_letture [⟨.mysqlInit, ok⟩] rfl, List.append_nil, h.letti]
  · rw [htr, allacci_append, h.aperti]
    rfl

theorem Tratto.scrive {b : Bytes} (h : Tratto v j [b]) (hconn : v.ser.connessione = some fd) {bs : Bytes} {u : Unit}
    (hc : lavora v (.write fd bs) u v') : b ++ bs ≠ [] ∧ Tratto v' j [b ++ bs] := by
  obtain ⟨hne, -, htr, hser⟩ := hc
  obtain ⟨rs, hrs, hris⟩ := h.risposte
  simp only [LatoServer.chiama, if_pos hconn, Option.some.injEq] at hser
  refine ⟨fun hnil => hne hconn (List.append_eq_nil_iff.mp hnil).2, ⟨rs, hrs, ?_⟩, ?_, ?_⟩
  · rw [← hser]
    show inCoda bs v.ser.risposte = _
    rw [hris, inCoda_concat]
  · rw [htr, vere_append, vere_of_letture [⟨.write fd bs, u⟩] rfl, List.append_nil, h.letti]
  · rw [htr, allacci_append, allacci_ne (.write fd bs) u (by simp), h.aperti]
    rfl

/-- In a request on the connection `fd`. -/
structure Servendo (fd : Int) (v : Lavoro) (j : Nat) (w : List Bytes) : Prop extends Tratto v j w where
  /-- ... on this connection. -/
  connesso : v.ser.connessione = some fd

/-- Its three reads are done, a reply is begun. -/
def Presa3 (fd : Int) (v : Lavoro) : Prop := ∃ b, Servendo fd v 3 [b]

/-- ... and has some bytes. -/
def Emessa (fd : Int) (v : Lavoro) : Prop := ∃ b, b ≠ [] ∧ Servendo fd v 3 [b]

theorem Emessa.presa (h : Emessa fd v) : Presa3 fd v := by
  obtain ⟨b, -, h⟩ := h
  exact ⟨b, h⟩

/-- The call neither waits for bytes nor changes the replies or the connection. -/
def Sys.Tranquilla : Sys → Prop
  | .select _ _ _ | .accept _ | .read _ _ | .write _ _ | .mysqlInit => False
  | _ => True

theorem Sys.Tranquilla.attende (ho : o.Tranquilla) (con : Option Int) : ¬ o.Attende con := by
  cases o with
  | select n rs ws => exact ho.elim
  | read f n => exact ho.elim
  | _ => exact id

theorem Sys.Tranquilla.parla (ho : o.Tranquilla) : ¬ o.Parla := by
  cases o with
  | write f bs => exact ho.elim
  | _ => exact id

theorem Sys.Tranquilla.fuori (ho : o.Tranquilla) (r : o.Ans) : (∀ fd bs, o ≠ .write fd bs) ∧ o ≠ .mysqlInit ∧
    (∀ fd, o ≠ .accept fd) ∧ vere [⟨o, r⟩] = [] := by
  cases o with
  | select n rs ws => exact ho.elim
  | accept f => exact ho.elim
  | read f n => exact ho.elim
  | write f bs => exact ho.elim
  | mysqlInit => exact ho.elim
  | _ => exact ⟨nofun, nofun, nofun, rfl⟩

/-- It leaves the turn where it is. -/
theorem Servendo.tranquilla (h : Servendo fd v j w) (ho : o.Tranquilla) (hc : lavora v o r v') :
    Servendo fd v' j w := by
  obtain ⟨hw, hi, ha, hr⟩ := ho.fuori r
  exact ⟨h.toTratto.altra hc hw hi hr, (LatoServer.chiama_connessione hc.2.2.2 ha).trans h.connesso⟩

/-- In time in front of every call, and at the end `Q`: whoever waits for bytes has been sent all that
    its reply consists of, or has begun none. -/
abbrev InOrario {α : Type} (p : Programma α) (Q : α → Lavoro → Prop) (v : Lavoro) : Prop :=
  p.Safe lavora InTempo Q v

variable {α β : Type} {Q : α → Lavoro → Prop}

/-- One part of a turn after the other. -/
theorem InOrario.bind {p : Programma β} {f : β → Programma α} {K : β → Lavoro → Prop}
    (hp : InOrario p K v) (hf : ∀ b v', K b v' → InOrario (f b) Q v') : InOrario (p >>= f) Q v :=
  (Prog.safe_bind p f Q v).mpr (hp.mono hf)

/-- One reply at most, and it was begun in a request. -/
theorem Tratto.inTempo (h : Tratto v j w) (hw : w.length ≤ 1) (hj : w ≠ [] → 1 ≤ j)
    (ha : o.Attende v.ser.connessione → j ≤ 2) (hp : o.Parla → w ≠ []) : InTempo v o :=
  ⟨j, w, h, hw, hj, ha, hp⟩

/-- Within a request the one condition left is about waiting. -/
theorem Servendo.inTempo (h : Servendo fd v j w) (hw : w.length ≤ 1) (hj : 1 ≤ j)
    (ha : o.Attende v.ser.connessione → j ≤ 2) (hp : o.Parla → w ≠ []) : InTempo v o :=
  ⟨j, w, h.toTratto, hw, fun _ => hj, ha, hp⟩

theorem Servendo.chiede (h : Servendo fd v j w) (hw : w.length ≤ 1) (hj : 1 ≤ j) {k : o.Ans → Programma α}
    (ho : o.Tranquilla) (hk : ∀ r v', Servendo fd v' j w → InOrario (k r) Q v') : InOrario (.call o k) Q v :=
  ⟨h.inTempo hw hj (fun ha => (ho.attende _ ha).elim) fun hp => (ho.parla hp).elim, fun r v' hc => hk r v' (h.tranquilla ho hc)⟩

theorem Servendo.legge (h : Servendo fd v j w) (hw : w.length ≤ 1) (hj : 1 ≤ j) (hj' : j ≤ 2) {n : Nat}
    {k : Bytes → Programma α} (hk : ∀ r v', Servendo fd v' (j + 1) w → InOrario (k r) Q v') :
    InOrario (.call (.read fd n) k) Q v :=
  ⟨h.inTempo hw hj (fun _ => hj') nofun, fun r v' hc => hk r v' ⟨(h.toTratto.legge h.connesso hc).1,
    (LatoServer.chiama_connessione hc.2.2.2 nofun).trans h.connesso⟩⟩

/-- A write to the connection: it is not empty, so the reply has bytes. -/
theorem Presa3.scrive (h : Presa3 fd v) {bs : Bytes} :
    InOrario (sys (.write fd bs)) (fun _ v' => Emessa fd v') v := by
  obtain ⟨b, h⟩ := h
  refine ⟨h.inTempo (Nat.le_refl 1) (by omega) nofun fun _ => List.cons_ne_nil _ _, fun u v' hc => ?_⟩
  obtain ⟨hne, h'⟩ := h.toTratto.scrive h.connesso hc
  exact ⟨b ++ bs, hne, h', (LatoServer.chiama_connessione hc.2.2.2 nofun).trans h.connesso⟩

/-- A quiet call behind the three reads. -/
theorem Presa3.chiede (h : Presa3 fd v) {k : o.Ans → Programma α} (ho : o.Tranquilla)
    (hk : ∀ r v', Presa3 fd v' → InOrario (k r) Q v') : InOrario (.call o k) Q v := by
  obtain ⟨b, h⟩ := h
  exact h.chiede (Nat.le_refl 1) (by omega) ho fun r v' h' => hk r v' ⟨b, h'⟩

/-- Closing the connection to MySQL. -/
theorem Emessa.mysqlClose (h : Emessa fd v) : InOrario (sys .mysqlClose) (fun _ v' => Emessa fd v') v := by
  obtain ⟨b, hb, h⟩ := h
  exact h.chiede (Nat.le_refl 1) (by omega) trivial fun _ _ h' => ⟨b, hb, h'⟩

/-! ## Its functions -/

/-- Where C defines nothing, nobody waits. -/
theorem Presa3.indefinito (h : Presa3 fd v) : InOrario (indefinito : Programma α) Q v :=
  h.chiede trivial nofun

theorem Presa3.cString (h : Presa3 fd v) {n : Nat} (b : Buffer n) :
    InOrario (cString b) (fun _ v' => Presa3 fd v') v := by
  rw [Universita.cString]
  split
  · exact h
  · exact h.chiede trivial fun _ _ h' => h'

theorem Presa3.query (h : Presa3 fd v) (conn : Conn) (q : Query) :
    InOrario (query conn q) (fun _ v' => Presa3 fd v') v := by
  cases conn with
  | aperta => exact h.chiede trivial fun _ _ h' => h'
  | chiusa => exact h.indefinito

theorem Presa3.ultimoId (h : Presa3 fd v) (rows : List Row) : ∀ id : Int,
    InOrario (ultimoId id rows) (fun _ v' => Presa3 fd v') v := by
  induction rows with
  | nil => exact fun _ => h
  | cons row rows ih =>
    intro id
    unfold Server.ultimoId
    split
    · rename_i heq
      cases heq
    · rename_i heq
      obtain ⟨-, rfl⟩ := List.cons.inj heq
      exact ih _
    · exact h.indefinito

/-- The answer to a failed statement: `mysql_error` is not empty, by `Puntuale`. -/
theorem Presa3.scriviErrore (h : Presa3 fd v) : InOrario (scriviErrore fd) (fun _ v' => Emessa fd v') v :=
  h.chiede trivial fun _ _ h' => h'.scrive

/-- Every answer to an appello is a reply. -/
theorem Presa3.esitoAppello (h : Presa3 fd v) (ok : Bool) :
    InOrario (esitoAppello fd ok) (fun _ v' => Emessa fd v') v := by
  cases ok with
  | true => exact h.scrive
  | false =>
    refine h.chiede trivial fun err v' h' => ?_
    show InOrario (if _ then _ else _) _ v'
    split
    · exact h'.scrive
    · exact h'.scriviErrore

/-- A request begins: one read is done, that of its code, and the reply that is opened here has no byte
    yet. -/
theorem Servendo.connection (h : Servendo fd v 1 []) :
    InOrario connection (fun _ v' => Servendo fd v' 1 [[]]) v := by
  refine ⟨h.inTempo (Nat.zero_le 1) (Nat.le_refl 1) (fun _ => by omega) nofun, fun ok v' hc => ?_⟩
  have h' : Servendo fd v' 1 [[]] :=
    ⟨h.toTratto.apre hc, (LatoServer.chiama_connessione hc.2.2.2 nofun).trans h.connesso⟩
  cases ok with
  | false => exact h'.chiede (Nat.le_refl 1) (Nat.le_refl 1) trivial nofun
  | true =>
    refine h'.chiede (Nat.le_refl 1) (Nat.le_refl 1) trivial fun ok v' h' => ?_
    cases ok with
    | true => exact h'
    | false => exact h'.chiede (Nat.le_refl 1) (Nat.le_refl 1) trivial fun _ _ h' => h'

/-- An appello: reads two and three, then a reply. Between the third read and the reply the server asks
    MySQL, and MySQL always answers. -/
theorem Servendo.aggiungiAppello (h : Servendo fd v 1 []) :
    InOrario (aggiungiAppello fd) (fun _ v' => Emessa fd v') v := by
  refine h.connection.bind fun conn v₁ h₁ => ?_
  simp only [Prog.ret_bind, Prog.op_eq, Prog.call_bind]
  refine h₁.legge (Nat.le_refl 1) (by omega) (by omega) fun _ v₂ h₂ => ?_
  refine h₂.legge (Nat.le_refl 1) (by omega) (by omega) fun _ v₃ h₃ => ?_
  have h₃ : Presa3 fd v₃ := ⟨[], h₃⟩
  refine h₃.chiede trivial fun idEsame v₄ h₄ => (h₄.cString _).bind fun nome v₅ h₅ => ?_
  refine (h₅.query conn _).bind fun _ v₆ h₆ => h₆.chiede trivial fun res v₇ h₇ => ?_
  cases res with
  | none => exact h₇.indefinito
  | some rows =>
    refine (h₇.ultimoId rows _).bind fun id v₈ h₈ => (h₈.cString _).bind fun data v₉ h₉ => ?_
    refine (h₉.query conn _).bind fun ok v₁₀ h₁₀ => ?_
    exact (h₁₀.esitoAppello ok).bind fun _ v₁₁ h₁₁ => h₁₁.mysqlClose

/-- The insert of a booking ends in a reply, either way: the success with its date, or what
    `mysql_error` says. -/
theorem Presa3.inserisciPrenotazione (h : Presa3 fd v) (conn : Conn) (mat : Int) (row : Row) :
    InOrario (inserisciPrenotazione fd conn mat row) (fun _ v' => Emessa fd v') v := by
  unfold Server.inserisciPrenotazione
  split
  · split
    · refine (h.query conn _).bind fun ok v' h' => ?_
      cases ok with
      | true => exact h'.scrive
      | false => exact h'.scriviErrore
    · exact h.indefinito
  · exact h.indefinito

/-- Whatever the eligibility query gave, a reply is written, or C defines nothing. -/
theorem Presa3.esito (h : Presa3 fd v) (conn : Conn) (mat : Int) (res : Option (List Row)) :
    InOrario (do
      match res with
      | none =>
        Server.scriviErrore fd
        Universita.indefinito
      | some [] => sys (.write fd (ascii "invalid id or data!"))
      | some (row :: _) => Server.inserisciPrenotazione fd conn mat row
      sys .mysqlClose) (fun _ v' => Emessa fd v') v := by
  match res with
  | none => exact h.scriviErrore.bind fun _ v' h' => h'.presa.chiede trivial nofun
  | some [] => exact h.scrive.bind fun _ v' h' => h'.mysqlClose
  | some (row :: _) => exact (h.inserisciPrenotazione conn mat row).bind fun _ v' h' => h'.mysqlClose

/-- A booking: reads two and three, then a reply, unless C stops defining what happens: a failed check
    is answered and its missing result is used. -/
theorem Servendo.aggiungiPrenotazione (h : Servendo fd v 1 []) :
    InOrario (aggiungiPrenotazione fd) (fun _ v' => Emessa fd v') v := by
  refine h.connection.bind fun conn v₁ h₁ => ?_
  simp only [Prog.ret_bind, Prog.op_eq, Prog.call_bind]
  refine h₁.chiede (Nat.le_refl 1) (Nat.le_refl 1) trivial fun id v₁ h₁ =>
    h₁.chiede (Nat.le_refl 1) (Nat.le_refl 1) trivial fun mat v₁ h₁ => ?_
  refine h₁.legge (Nat.le_refl 1) (by omega) (by omega) fun r v₂ h₂ => ?_
  refine h₂.legge (Nat.le_refl 1) (by omega) (by omega) fun r' v₃ h₃ => ?_
  have h₃ : Presa3 fd v₃ := ⟨[], h₃⟩
  refine (h₃.query conn _).bind fun ok v₄ h₄ => ?_
  cases ok with
  | true => exact h₄.chiede trivial fun res v₅ h₅ => h₅.esito conn _ res
  | false =>
    exact h₄.scriviErrore.bind fun _ v₅ h₅ => h₅.presa.chiede trivial fun res v₆ h₆ => h₆.esito conn _ res

/-- With its reply a request is done. -/
theorem Emessa.compiuto (h : Emessa fd v) : Compiuto v := by
  obtain ⟨b, hb, h⟩ := h
  exact .inr (.inr ⟨b, hb, h.toTratto⟩)

/-- A turn up to the read of the code. -/
structure Testa (t : Server) (v : Lavoro) : Prop extends Tratto v 0 [] where
  /-- The variables are those of the turn. -/
  inizio : v.inizio = t

/-- The read of the code: nothing, no code, or a request. In the last case three reads were done and the
    reply has some bytes. -/
theorem richiesta_inOrario {t s : Server} (hs : s.request = t.request) (h : Testa t v) :
    InOrario s.richiesta (fun _ v' => Compiuto v') v := by
  refine ⟨h.toTratto.inTempo (Nat.zero_le 1) (fun h => absurd rfl h) (fun _ => by omega) False.elim, fun r v' hc => ?_⟩
  show InOrario (if 0 < r.length then _ else _) _ v'
  by_cases hpos : 0 < r.length
  · -- it came over the connection
    have hconn : v.ser.connessione = some s.connfd := by
      obtain ⟨-, -, -, hser⟩ := hc
      by_contra hno
      simp only [LatoServer.chiama, if_neg hno] at hser
      split at hser
      · rename_i hnil
        rw [hnil] at hpos
        exact absurd hpos (Nat.lt_irrefl 0)
      · cases hser
    obtain ⟨hfase, hvere⟩ := h.toTratto.legge hconn hc
    have h' : Servendo s.connfd v' 1 [] :=
      ⟨hfase, (LatoServer.chiama_connessione hc.2.2.2 (by simp)).trans hconn⟩
    rw [if_pos hpos]
    refine InOrario.bind (K := fun _ v' => Compiuto v') ?_ fun _ _ h => h
    show InOrario (smista s.connfd (s.request.overlay r).toInt) _ v'
    rw [smista]
    split
    · exact h'.aggiungiAppello.mono fun _ _ h => h.compiuto
    · split
      · exact h'.aggiungiPrenotazione.mono fun _ _ h => h.compiuto
      · rename_i h1 h2
        have hvera : vere v'.traccia = [r] := by
          rw [hvere, List.length_eq_zero_iff.mp h.letti, List.nil_append]
        have hcod : codice v'.inizio r = (s.request.overlay r).toInt := by
          rw [codice, hc.2.1, h.inizio, ← hs]
        exact .inr (.inl ⟨h'.toTratto, r, hvera, by rw [hcod]; exact h1, by rw [hcod]; exact h2⟩)
  · rw [if_neg hpos]
    have hnil : r = [] := List.length_eq_zero_iff.mp (by omega)
    exact .inl (h.toTratto.altra hc (by simp) (by simp) (by rw [hnil]; rfl))

/-- **One turn of the server.** It never waits for the secretary with a reply begun and nothing written. -/
theorem passo_inOrario (t : Server) (h : Testa t v) : InOrario (passo t) (fun _ v' => Compiuto v') v := by
  -- behind `select` and `accept` the turn is a request, or over
  have hcoda : ∀ (s : Server) (rs : List Int) {v : Lavoro}, s.request = t.request → Testa t v →
      InOrario (if s.connfd ∈ rs then s.richiesta else pure s) (fun _ v' => Compiuto v') v := by
    intro s rs v hs h
    split
    · exact richiesta_inOrario hs h
    · exact .inl h.toTratto
  have hpronti : ∀ (rs : List Int) {v : Lavoro}, Testa t v →
      InOrario (if t.listenfd ∈ rs then
          t.nuovaConnessione >>= fun s => if s.connfd ∈ rs then s.richiesta else pure s
        else pure t >>= fun s => if s.connfd ∈ rs then s.richiesta else pure s)
        (fun _ v' => Compiuto v') v := by
    intro rs v h
    split
    · refine ⟨h.toTratto.inTempo (Nat.zero_le 1) (fun h => absurd rfl h) nofun nofun, fun fd v' hc => ?_⟩
      exact hcoda _ rs rfl ⟨h.toTratto.altra hc nofun nofun rfl, hc.2.1.trans h.inizio⟩
    · exact hcoda t rs rfl h
  refine ⟨h.toTratto.inTempo (Nat.zero_le 1) (fun h => absurd rfl h) (fun _ => by omega) nofun, fun pronti v' hc => ?_⟩
  have h' : Testa t v' := ⟨h.toTratto.altra hc nofun nofun rfl, hc.2.1.trans h.inizio⟩
  cases pronti with
  | none => exact hpronti _ h'
  | some p => exact hpronti p.1 h'

end Lavoro

/-! ## Both together -/

/-- The move cuts no text: nothing empty is written to the other side, and a read of the connection takes the
    next write, whole and alone. -/
def Puntuale (sockfd : Int) (d : Stato) : Mossa → Prop
  | .act₁ (.write fd bs) _ => fd = sockfd → bs ≠ []
  | .act₂ (.write fd bs) _ => d.env.ser.connessione = some fd → bs ≠ []
  | .act₂ (.read fd _) r => d.env.ser.connessione = some fd →
      ∃ k, d.env.ser.lette = (d.env.seg.inviate.take k).flatten ∧ d.env.seg.inviate[k]? = some r
  | _ => True

/-- Both sides wait for each other: the secretary is in its `read` of an outcome, the server between two turns,
    in its `select` or in a `read` of the connection, and nothing is on its way. -/
structure Fermi (sockfd : Int) (d : Stato) : Prop where
  /-- The secretary is in a read of its connection ... -/
  segreteria : ∃ n k, d.prog₁ = .call (.read sockfd n) k
  /-- ... the server at a call that waits for one ... -/
  server : ∀ o k, d.prog₂ = .call o k → o.Attende d.env.ser.connessione
  /-- ... and nothing is on its way, either up ... -/
  su : d.env.su = []
  /-- ... or down. -/
  giu : d.env.giu = []

section Corse

variable {sockfd : Int} {clienti : Nat → Bytes} {s : Segreteria} {t : Server} {d : Stato}

/-- The server reads something from its connection only. A read of another descriptor, after a failed
    `accept`, finds nothing. -/
theorem vera_some {e e' : Rete} {o : Sys} {r : o.Ans} (h : (sistema sockfd).ans₂ e o r = some e') :
    vere [⟨o, r⟩] = [] ∧ (letture [⟨o, r⟩]).flatten = [] ∨
      ∃ (fd : Int) (n : Nat) (b : Bytes), (⟨o, r⟩ : Event Sys Sys.Ans) = ⟨.read fd n, b⟩ ∧
        e.ser.connessione = some fd ∧ vere [⟨o, r⟩] = [b] ∧ (letture [⟨o, r⟩]).flatten = b := by
  obtain ⟨hser, hp, -⟩ := sistema_ans₂.mp h
  cases o with
  | read fd n =>
    have hl : (letture [⟨.read fd n, r⟩]).flatten = r := List.append_nil r
    -- only the connection with the secretary delivers something
    by_cases hfd : e.ser.connessione = some fd
    · simp only [Rete.perServer, if_pos hfd] at hp
      obtain ⟨su', hr, -⟩ := Option.map_eq_some_iff.mp hp
      refine .inr ⟨fd, n, r, rfl, hfd, ?_, hl⟩
      rw [vere, show letture [⟨.read fd n, r⟩] = [r] from rfl]
      simp [(recv_eq_some.mp hr).1]
    · simp only [LatoServer.chiama, if_neg hfd] at hser
      split at hser
      · rename_i hr
        refine .inl ⟨?_, hl.trans hr⟩
        rw [vere, show letture [⟨.read fd n, r⟩] = [r] from rfl, hr]
        rfl
      · cases hser
  | _ => exact .inl ⟨rfl, rfl⟩

/-- **In every run the server is in time**, since the secretary's moves touch neither its turn nor its
    replies. -/
theorem tempi (hd : (sistema sockfd).Reach (Puntuale sockfd) (inizio clienti s t) d) :
    InOrario d.prog₂ (fun _ v => Compiuto v) ⟨d.turn₂, d.trace₂, d.env.ser⟩ := by
  refine Duo.Reach.rely₂ (fun d => (⟨d.turn₂, d.trace₂, d.env.ser⟩ : Lavoro)) (I := fun _ v => Compiuto v)
    (fun _ => True) (fun _ _ => trivial) ?_ ?_ ?_ ?_ hd
  · intro d o r d' _ _ hm hstep
    obtain ⟨k, e, -, he, rfl⟩ := Duo.step_act₂ _ hstep
    refine ⟨?_, rfl, rfl, (sistema_ans₂.mp he).1⟩
    cases o with
    | write fd bs => exact hm
    | read fd n =>
      intro hfd
      have hp := (sistema_ans₂.mp he).2.1
      simp only [Rete.perServer, if_pos hfd] at hp
      obtain ⟨su', hr, -⟩ := Option.map_eq_some_iff.mp hp
      exact (recv_eq_some.mp hr).1
    | _ => trivial
  · intro d t' d' _ _ hret hstep hI
    obtain ⟨t'', hp, rfl⟩ := Duo.step_turn₂ _ hstep
    obtain rfl : t' = t'' := Prog.ret.inj (hret.symm.trans hp)
    refine passo_inOrario t' ⟨⟨?_, rfl, rfl⟩, rfl⟩
    simp only [List.append_nil]
    -- whichever way the turn ended, the replies it leaves are the beginning of the next one's
    rcases hI with h | ⟨h, -⟩ | ⟨b, hb, h⟩
    · obtain ⟨rs, hrs, hris⟩ := h.risposte
      exact ⟨rs, hrs, by rw [hris, List.append_nil]⟩
    · obtain ⟨rs, hrs, hris⟩ := h.risposte
      exact ⟨rs, hrs, by rw [hris, List.append_nil]⟩
    · obtain ⟨rs, hrs, hris⟩ := h.risposte
      refine ⟨rs ++ [b], fun x hx => ?_, hris⟩
      rcases List.mem_append.mp hx with hx | hx
      · exact hrs x hx
      · rw [List.mem_singleton.mp hx]
        exact hb
  · intro d m d' _ _ hm hstep
    cases m with
    | turn₂ => exact hm.elim
    | act₂ o r => exact hm.elim
    | turn₁ => obtain ⟨_, -, rfl⟩ := Duo.step_turn₁ _ hstep; rfl
    | act₁ o r =>
      obtain ⟨_, e, -, he, rfl⟩ := Duo.step_act₁ _ hstep
      rw [show e.ser = d.env.ser from (sistema_ans₁.mp he).2.2]
  · exact .inl ⟨⟨[], fun x hx => absurd hx List.not_mem_nil, rfl⟩, rfl, rfl⟩

/-- Nothing empty was written to the server, by the condition on the writes. Without it a stream would
    not tell how many writes it was made of. -/
theorem piene (hd : (sistema sockfd).Reach (Puntuale sockfd) (inizio clienti s t) d) :
    ∀ b ∈ d.env.seg.inviate, b ≠ [] := by
  refine Duo.Reach.invariant (J := fun d => ∀ b ∈ d.env.seg.inviate, b ≠ []) ?_ ?_ hd
  · exact fun b hb => absurd hb List.not_mem_nil
  intro d m d' _ h hm hstep
  -- the writes are the secretary's, and the condition on its moves forbids an empty one
  cases m with
  | turn₁ => obtain ⟨_, -, rfl⟩ := Duo.step_turn₁ _ hstep; exact h
  | turn₂ => obtain ⟨_, -, rfl⟩ := Duo.step_turn₂ _ hstep; exact h
  | act₂ o r =>
    obtain ⟨_, e, -, he, rfl⟩ := Duo.step_act₂ _ hstep
    rw [show e.seg = d.env.seg from (sistema_ans₂.mp he).2.2]
    exact h
  | act₁ o r =>
    obtain ⟨_, e, -, he, rfl⟩ := Duo.step_act₁ _ hstep
    intro b hb
    rw [(LatoSegreteria.chiama_effetto (sistema_ans₁.mp he).1).inviate] at hb
    rcases List.mem_append.mp hb with hb | hb
    · exact h b hb
    · cases o with
      | write fd bs =>
        rw [scrittura] at hb
        split at hb
        · rename_i hfd
          rw [List.mem_singleton.mp hb]
          exact hm hfd
        · cases hb
      | _ => cases hb

/-- The writes of the requests the server is done with are `prima`, three for each reply; it has read these,
    and those it read in this turn. -/
structure Ritmo (d : Stato) (prima : List Bytes) : Prop where
  /-- What was read are the first of the writes ... -/
  inviate : prima ++ vere d.trace₂ <+: d.env.seg.inviate
  /-- ... byte for byte ... -/
  lette : d.env.ser.lette = (prima ++ vere d.trace₂).flatten
  /-- ... and there is a reply for each three, and for each connection to MySQL in progress. -/
  risposte : 3 * d.env.ser.risposte.length = prima.length + 3 * allacci d.trace₂

/-- A turn of the server ends with no request, or with one: what it has read then is all of the requests
    up to some point. -/
theorem Ritmo.turno {prima : List Bytes} (h : Ritmo d prima) (hc : Codici d.env.seg.inviate)
    (hfine : Compiuto ⟨d.turn₂, d.trace₂, d.env.ser⟩) :
    ∃ prima', prima' <+: d.env.seg.inviate ∧ d.env.ser.lette = prima'.flatten ∧
      3 * d.env.ser.risposte.length = prima'.length := by
  have hris := h.risposte
  rcases hfine with hf | ⟨hf, r, hr, h1, h2⟩ | ⟨b, -, hf⟩
  · -- no request
    have hvere : vere d.trace₂ = [] := List.length_eq_zero_iff.mp hf.letti
    have hall : allacci d.trace₂ = 0 := hf.aperti
    refine ⟨prima, ?_, ?_, by omega⟩
    · have := h.inviate
      rwa [hvere, List.append_nil] at this
    · rw [h.lette, hvere, List.append_nil]
  · -- a first read that is no code
    have hr : vere d.trace₂ = [r] := hr
    have hall : allacci d.trace₂ = 0 := hf.aperti
    have hk : d.env.seg.inviate[3 * d.env.ser.risposte.length]? = some r := by
      obtain ⟨ws, hws⟩ := h.inviate
      rw [← hws, hr, List.append_assoc, show 3 * d.env.ser.risposte.length = prima.length by omega,
        List.getElem?_append_right (Nat.le_refl _), Nat.sub_self]
      rfl
    rcases hc.codice _ r hk with rfl | rfl
    · exact absurd (by rw [codice, Buffer.overlay_full]; decide) h1
    · exact absurd (by rw [codice, Buffer.overlay_full]; decide) h2
  · -- a request and its reply
    have hall : allacci d.trace₂ = 1 := hf.aperti
    have hvere : (vere d.trace₂).length = 3 := hf.letti
    exact ⟨prima ++ vere d.trace₂, h.inviate, h.lette, by rw [List.length_append]; omega⟩

/-- A move of the server begins a reply when it connects to MySQL, and at no other time: a write goes to
    the reply there is. -/
theorem risposte_length (hd : (sistema sockfd).Reach (Puntuale sockfd) (inizio clienti s t) d) {o : Sys} {r : o.Ans}
    {k : o.Ans → Programma Server} {e : Rete} (hp : d.prog₂ = .call o k)
    (he : (sistema sockfd).ans₂ d.env o r = some e) :
    e.ser.risposte.length = d.env.ser.risposte.length + allacci [⟨o, r⟩] := by
  have htempi := tempi hd
  rw [hp] at htempi
  rcases (effettoServer he).risposte with ⟨hr, -⟩ | ⟨⟨fd, bs, rfl⟩, bs', hr, -⟩
  · rw [hr, List.length_append]
    split
    · subst o
      rfl
    · rename_i ho
      rw [allacci_ne o r ho]
      rfl
  · -- a write to a reply that was begun
    obtain ⟨j, w, htratto, -, -, -, hw⟩ := htempi.1
    obtain ⟨rs, -, hrs⟩ := htratto.risposte
    have hne : d.env.ser.risposte ≠ [] := by
      rw [show d.env.ser.risposte = rs ++ w from hrs]
      exact List.append_ne_nil_of_right_ne_nil _ (hw trivial)
    rw [hr, length_inCoda bs' hne, allacci_ne (.write fd bs) r nofun]
    rfl

/-- In every run the server has read whole writes, three for each reply but the last. By induction on
    the moves; a read takes exactly one write, and the writes are codes, names or numbers, and dates in
    their order. -/
theorem ritmo (hneg : sockfd ≠ -1) (hs : Distinta sockfd s)
    (hd : (sistema sockfd).Reach (Puntuale sockfd) (inizio clienti s t) d) : ∃ prima, Ritmo d prima := by
  refine Duo.Reach.invariant (J := fun d => ∃ prima, Ritmo d prima) ?_ ?_ hd
  · exact ⟨[], List.nil_prefix, rfl, rfl⟩
  rintro d m d' hd ⟨prima, h⟩ hm hstep
  cases m with
  | turn₁ =>
    obtain ⟨_, -, rfl⟩ := Duo.step_turn₁ _ hstep
    exact ⟨prima, h.inviate, h.lette, h.risposte⟩
  | act₁ o r =>
    obtain ⟨_, e, -, he, rfl⟩ := Duo.step_act₁ _ hstep
    obtain ⟨hseg, -, hser⟩ := sistema_ans₁.mp he
    refine ⟨prima, ?_, ?_, ?_⟩ <;> simp only [hser]
    · rw [(LatoSegreteria.chiama_effetto hseg).inviate]
      exact h.inviate.trans (List.prefix_append _ _)
    · exact h.lette
    · exact h.risposte
  | turn₂ =>
    obtain ⟨t', hp, rfl⟩ := Duo.step_turn₂ _ hstep
    have hfine := tempi hd
    rw [hp] at hfine
    obtain ⟨prima', hpre, hlette, hris⟩ := h.turno (codici hneg hs hd) hfine
    have hnil : prima' ++ vere [] = prima' := List.append_nil _
    exact ⟨prima', by rw [hnil]; exact hpre, by rw [hnil]; exact hlette, hris⟩
  | act₂ o r =>
    obtain ⟨k, e, hp, he, rfl⟩ := Duo.step_act₂ _ hstep
    have heff := effettoServer he
    have hseg := (sistema_ans₂.mp he).2.2
    have hris : 3 * e.ser.risposte.length = prima.length + 3 * allacci (d.trace₂ ++ [⟨o, r⟩]) := by
      have := h.risposte
      rw [risposte_length hd hp he, allacci_append]
      omega
    rcases vera_some he with ⟨hv, hl⟩ | ⟨fd, n, b, heq, hconn, hv, hl⟩
    · refine ⟨prima, ?_, ?_, hris⟩ <;> simp only [vere_append, hv, List.append_nil, hseg]
      · exact h.inviate
      · rw [heff.lette, hl, List.append_nil]
        exact h.lette
    · -- a read takes the next write
      obtain ⟨rfl, hrb⟩ := Sigma.mk.inj heq
      obtain rfl := eq_of_heq hrb
      obtain ⟨i, hi, hib⟩ := hm hconn
      have hpre : prima ++ vere d.trace₂ = d.env.seg.inviate.take i :=
        prefix_eq_of_flatten (piene hd) h.inviate (List.take_prefix _ _) (h.lette.symm.trans hi)
      refine ⟨prima, ?_, ?_, hris⟩ <;> simp only [vere_append, hv, hseg]
      · obtain ⟨hlt, rfl⟩ := List.getElem?_eq_some_iff.mp hib
        rw [← List.append_assoc, hpre, List.take_append_getElem hlt]
        exact List.take_prefix _ _
      · rw [heff.lette, hl, h.lette, ← List.append_assoc, List.flatten_concat]

/-! ## Nobody waits -/

/-- What a turn of the server is at: `j` reads delivered something, and a reply was begun if `w` is not empty. -/
theorem Ritmo.stato {prima : List Bytes} (h : Ritmo d prima)
    (htempi : InOrario d.prog₂ (fun _ v => Compiuto v) ⟨d.turn₂, d.trace₂, d.env.ser⟩) :
    ∃ j w, Tratto ⟨d.turn₂, d.trace₂, d.env.ser⟩ j w ∧ w.length ≤ 1 ∧ (w ≠ [] → 1 ≤ j) := by
  refine htempi.now ?_ ?_
  · rintro o ⟨j, w, hf, hw, hj, -, -⟩
    exact ⟨j, w, hf, hw, hj⟩
  · rintro q (hf | ⟨hf, -⟩ | ⟨b, -, hf⟩)
    · exact ⟨0, [], hf, Nat.zero_le 1, fun h => absurd rfl h⟩
    · exact ⟨1, [], hf, Nat.zero_le 1, fun h => absurd rfl h⟩
    · exact ⟨3, [b], hf, Nat.le_refl 1, fun _ => by omega⟩

/-- The server has begun no more replies than there were requests: a reply begins behind the read of a
    code, and only the secretary writes codes. -/
theorem Ritmo.risposte_le {prima : List Bytes} (h : Ritmo d prima)
    (htempi : InOrario d.prog₂ (fun _ v => Compiuto v) ⟨d.turn₂, d.trace₂, d.env.ser⟩) {k : Nat}
    (hk : d.env.seg.inviate.length ≤ 3 * k) : d.env.ser.risposte.length ≤ k := by
  obtain ⟨j, w, hf, hw, hj⟩ := h.stato htempi
  have hlen := h.inviate.length_le
  rw [List.length_append, show (vere d.trace₂).length = j from hf.letti] at hlen
  have hris := h.risposte
  rw [show allacci d.trace₂ = w.length from hf.aperti] at hris
  rcases List.eq_nil_or_concat w with rfl | ⟨ws, b, rfl⟩
  · rw [List.length_nil] at hris
    omega
  · have := hj (by simp)
    omega

/-- With nothing in flight to the secretary, the replies it has not taken are still empty: at most one
    is, and it is the one the server is at work on. -/
theorem nulla_indietro (hneg : sockfd ≠ -1) (hs : Distinta sockfd s)
    (hd : (sistema sockfd).Reach (Puntuale sockfd) (inizio clienti s t) d) (hgiu : d.env.giu = []) :
    ∀ b ∈ d.env.ser.risposte.drop d.env.seg.esiti.length, b = [] := by
  revert hgiu
  refine Duo.Reach.invariant
    (J := fun d => d.env.giu = [] → ∀ b ∈ d.env.ser.risposte.drop d.env.seg.esiti.length, b = []) ?_ ?_ hd
  · exact fun _ b hb => absurd hb List.not_mem_nil
  · intro d m d' hd h hm hstep hgiu
    cases m with
    | turn₁ => obtain ⟨_, -, rfl⟩ := Duo.step_turn₁ _ hstep; exact h hgiu
    | turn₂ => obtain ⟨_, -, rfl⟩ := Duo.step_turn₂ _ hstep; exact h hgiu
    | act₁ o r =>
      obtain ⟨k, e, hp, he, rfl⟩ := Duo.step_act₁ _ hstep
      obtain ⟨hseg, hpq, hser⟩ := sistema_ans₁.mp he
      have hesiti := (LatoSegreteria.chiama_effetto hseg).esiti
      have hgiu' := (perSegreteria_some hpq).2
      simp only [hser]
      by_cases hl : lettura sockfd o r = []
      · rw [hl, List.append_nil] at hesiti
        rw [hl, List.flatten_nil, List.nil_append] at hgiu'
        rw [hesiti]
        exact h (hgiu'.trans hgiu)
      · -- an outcome is taken, and no more replies were begun than outcomes were taken
        cases o with
        | read fd n =>
          have hfd : fd = sockfd := by
            by_contra hfd
            exact hl (if_neg hfd)
          subst hfd
          have hsafe := contate hneg hs hd
          rw [hp] at hsafe
          obtain ⟨prima, hritmo⟩ := ritmo hneg hs hd
          have hatt := hsafe.1.esito n rfl
          have hle := hritmo.risposte_le (tempi hd) (k := d.env.seg.esiti.length + 1) (by omega)
          have hlen : e.seg.esiti.length = d.env.seg.esiti.length + 1 := by
            rw [hesiti, lettura, if_pos rfl, List.length_append, List.length_singleton]
          rw [List.drop_of_length_le (by omega)]
          exact fun b hb => absurd hb List.not_mem_nil
        | _ => exact absurd rfl hl
    | act₂ o r =>
      obtain ⟨k, e, hp, he, rfl⟩ := Duo.step_act₂ _ hstep
      have hseg := (sistema_ans₂.mp he).2.2
      simp only [hseg]
      have hser := (sistema_ans₂.mp he).1
      have hpq := (sistema_ans₂.mp he).2.1
      by_cases hw : ∃ fd bs, o = .write fd bs
      · obtain ⟨fd, bs, rfl⟩ := hw
        obtain ⟨-, hg⟩ := Prod.mk.inj (Option.some.inj hpq)
        rw [show e.giu = [] from hgiu] at hg
        by_cases hfd : d.env.ser.connessione = some fd
        · -- it writes something
          rw [if_pos hfd] at hg
          exact absurd (List.append_eq_nil_iff.mp hg).2 (hm hfd)
        · rw [if_neg hfd] at hg
          simp only [LatoServer.chiama, if_neg hfd, Option.some.injEq] at hser
          rw [← hser]
          exact h hg
      · rcases (effettoServer he).risposte with ⟨hr, hg⟩ | ⟨hw', -⟩
        · rw [hr]
          intro b hb
          have hold := h (hg.symm.trans hgiu)
          rw [List.drop_append] at hb
          rcases List.mem_append.mp hb with hb | hb
          · exact hold b hb
          · have hb := List.mem_of_mem_drop hb
            split at hb
            · exact List.mem_singleton.mp hb
            · cases hb
        · exact absurd hw' hw

end Corse

/-- **They never wait for each other**: whatever the operator types, the students send and MySQL answers, as long as
    nothing empty is written and each read of the server takes one write. -/
theorem mai_in_attesa {sockfd listenfd : Int} (hneg : sockfd ≠ -1) {behaviour : Buffer 4} {logical : Int}
    {slots : Nat → ClientStud} {t : Server} {clienti : Nat → Bytes} {d : Stato}
    (hd : (sistema sockfd).Reach (Puntuale sockfd)
      (inizio clienti (Segreteria.iniziale sockfd listenfd behaviour logical slots) t) d) :
    ¬ Fermi sockfd d := by
  rintro ⟨⟨n, k, hp₁⟩, hp₂, hsu, hgiu⟩
  have hs : Distinta sockfd (Segreteria.iniziale sockfd listenfd behaviour logical slots) :=
    ⟨rfl, fun i hi => absurd hi (Nat.not_lt_zero i)⟩
  obtain ⟨prima, h⟩ := ritmo hneg hs hd
  have htempi := tempi hd
  -- three writes more than three for each outcome
  have hattesa : d.env.seg.inviate.length = 3 * d.env.seg.esiti.length + 3 := by
    have hsafe := contate hneg hs hd
    rw [hp₁] at hsafe
    exact hsafe.1.esito n rfl
  -- the server has read them all
  have hlette : prima ++ vere d.trace₂ = d.env.seg.inviate := by
    refine prefix_eq_of_flatten (piene hd) h.inviate (List.prefix_refl _) ?_
    rw [← h.lette, (fifo hd).su, hsu, List.append_nil]
  have hlen := congrArg List.length hlette
  rw [List.length_append] at hlen
  have hris := h.risposte
  -- ... and has written a reply to each request
  have hrs : d.env.ser.risposte.length = d.env.seg.esiti.length + 1 ∧ ∀ b ∈ d.env.ser.risposte, b ≠ [] := by
    have fatto : ∀ {j : Nat} {w : List Bytes}, Tratto ⟨d.turn₂, d.trace₂, d.env.ser⟩ j w → j = 3 * w.length →
        (∀ b ∈ w, b ≠ []) → d.env.ser.risposte.length = d.env.seg.esiti.length + 1 ∧
          ∀ b ∈ d.env.ser.risposte, b ≠ [] := by
      intro j w hf hj hw
      have hl : (vere d.trace₂).length = j := hf.letti
      have ha : allacci d.trace₂ = w.length := hf.aperti
      obtain ⟨rs, hrs, heq⟩ := hf.risposte
      refine ⟨by omega, fun b hb => ?_⟩
      rw [show d.env.ser.risposte = rs ++ w from heq] at hb
      exact (List.mem_append.mp hb).elim (hrs b) (hw b)
    cases hp : d.prog₂ with
    | ret q =>
      rw [hp] at htempi
      rcases htempi with hf | ⟨hf, -⟩ | ⟨b, hb, hf⟩
      · exact fatto hf rfl fun b hb => absurd hb List.not_mem_nil
      · -- one read alone is no multiple of three
        have hl : (vere d.trace₂).length = 1 := hf.letti
        omega
      · exact fatto hf rfl fun b' hb' => by rwa [List.mem_singleton.mp hb']
    | call o k₂ =>
      rw [hp] at htempi
      obtain ⟨j, w, hf, -, hj, ha, -⟩ := htempi.1
      have hl : (vere d.trace₂).length = j := hf.letti
      have hj2 := ha (hp₂ o k₂ hp)
      obtain rfl : w = [] := by
        by_contra hw
        have := hj hw
        omega
      exact fatto hf (by rw [List.length_nil]; omega) fun b hb => absurd hb List.not_mem_nil
  -- the last of which was taken by nobody, and is not in flight
  have hlt : d.env.seg.esiti.length < d.env.ser.risposte.length := by omega
  have hmem : d.env.ser.risposte[d.env.seg.esiti.length] ∈ d.env.ser.risposte.drop d.env.seg.esiti.length := by
    rw [List.drop_eq_getElem_cons hlt]
    exact List.mem_cons_self
  exact hrs.2 _ (List.getElem_mem hlt) (nulla_indietro hneg hs hd hgiu _ hmem)

/-! ## Two runs -/

/-- `Puntuale`, evaluated. -/
def puntuale (sockfd : Int) (d : Stato) : Mossa → Bool
  | .act₁ (.write fd bs) _ => fd ≠ sockfd || bs ≠ []
  | .act₂ (.write fd bs) _ => d.env.ser.connessione ≠ some fd || bs ≠ []
  | .act₂ (.read fd _) r => d.env.ser.connessione ≠ some fd ||
      (List.range d.env.seg.inviate.length).any fun k =>
        d.env.ser.lette = (d.env.seg.inviate.take k).flatten && d.env.seg.inviate[k]? = some r
  | _ => true

theorem puntuale_ok {sockfd : Int} (d : Stato) (m : Mossa) (h : puntuale sockfd d m = true) :
    Puntuale sockfd d m := by
  -- only writes and the server's reads are looked at; every other move passes
  cases m with
  | turn₁ => trivial
  | turn₂ => trivial
  | act₁ o r =>
    cases o with
    | write fd bs =>
      intro hfd hbs
      simp [puntuale, hfd, hbs] at h
    | _ => trivial
  | act₂ o r =>
    cases o with
    | write fd bs =>
      intro hfd hbs
      simp [puntuale, hfd, hbs] at h
    | read fd n =>
      intro hfd
      rw [puntuale, Bool.or_eq_true, List.any_eq_true] at h
      rcases h with h | ⟨k, -, hk⟩
      · simp [hfd] at h
      · rw [Bool.and_eq_true, decide_eq_true_eq, decide_eq_true_eq] at hk
        exact ⟨k, hk⟩
    | _ => trivial

/-- The secretary is in its `read` of an outcome, the server in a `read` of the connection. -/
def inRead (sockfd : Int) (d : Stato) : Bool :=
  match d.prog₁, d.prog₂ with
  | .call (.read fd _) _, .call (.read fd' _) _ => fd = sockfd && d.env.ser.connessione = some fd'
  | _, _ => false

/-- Both in a `read`, and nothing on its way. -/
theorem Fermi.of_inRead {sockfd : Int} {d : Stato} (h : inRead sockfd d = true) (hsu : d.env.su = [])
    (hgiu : d.env.giu = []) : Fermi sockfd d := by
  unfold inRead at h
  split at h
  · rename_i hp₁ hp₂
    rw [Bool.and_eq_true, decide_eq_true_eq, decide_eq_true_eq] at h
    obtain ⟨rfl, hconn⟩ := h
    refine ⟨⟨_, _, hp₁⟩, fun o k hp => ?_, hsu, hgiu⟩
    obtain ⟨rfl, -⟩ := Prog.call.inj (hp₂.symm.trans hp)
    exact hconn
  · cases h

/-- The refused appello, up to the `read` of its outcome: it has arrived, and the two do not wait for
    each other. -/
theorem mai_in_attesa_appello : ∃ d : Stato, (sistema 3).Reach (Puntuale 3) inizioVuoto d ∧
    d.env.seg.inviate = [[1, 0, 0, 0], [97], [98]] ∧ d.env.giu = ascii "no" ∧ ¬ Fermi 3 d := by
  have hrun : ((sistema 3).run (puntuale 3) inizioVuoto (appelloRifiutato (ascii "no"))).map
      (fun d => (d.env.seg.inviate, d.env.giu)) = some ([[1, 0, 0, 0], [97], [98]], ascii "no") := by
    decide +kernel
  obtain ⟨d, hd, heq⟩ := Option.map_eq_some_iff.mp hrun
  obtain ⟨hinviate, hgiu⟩ := Prod.mk.inj heq
  have hreach : (sistema 3).Reach (Puntuale 3) inizioVuoto d := Duo.reach_run puntuale_ok _ .init hd
  exact ⟨d, hreach, hinviate, hgiu, mai_in_attesa (by decide) hreach⟩

/-- The operator presses return at the name, and nothing is written: the date passes for the name, and
    both wait for ever. -/
theorem attesa_nome_vuoto : ∃ d : Stato, (sistema 3).Reach Duo.Any inizioVuoto d ∧
    d.env.seg.inviate = [[1, 0, 0, 0], [], [98]] ∧ Fermi 3 d := by
  have hrun : ((sistema 3).run (fun _ _ => true) inizioVuoto [
      .turn₁, .turn₁, .act₁ (.select 5 [4, 3] [4, 3]) (some ([], [3])), .turn₁, .turn₁,
      .act₁ .scanf (some 2), .act₁ .pulisciInput (), .act₁ (.write 3 [1, 0, 0, 0]) (),
      .act₁ (.fgets 255) (some [10]), .act₁ (.write 3 []) (),
      .act₁ (.fgets 12) (some [98, 10]), .act₁ (.write 3 [98]) (),
      .turn₂, .act₂ (.select 6 [5] []) (some ([5], [])), .act₂ (.accept 5) (6 : Int),
      .turn₂, .act₂ (.select 7 [6, 5] []) (some ([6], [])), .act₂ (.read 6 4) [1, 0, 0, 0],
      .act₂ .mysqlInit true, .act₂ .mysqlRealConnect true, .act₂ (.read 6 255) [98]]).map
      (fun d => (d.env.seg.inviate, inRead 3 d, d.env.su, d.env.giu)) =
        some ([[1, 0, 0, 0], [], [98]], true, [], []) := by
    decide +kernel
  obtain ⟨d, hd, heq⟩ := Option.map_eq_some_iff.mp hrun
  simp only [Prod.mk.injEq] at heq
  obtain ⟨hinviate, hread, hsu, hgiu⟩ := heq
  exact ⟨d, Duo.reach_run (fun _ _ _ => trivial) _ .init hd, hinviate, .of_inRead hread hsu hgiu⟩

end Universita

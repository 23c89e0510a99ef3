/-
  WHERE THE SERVER STANDS — request codes and request boundaries on the stream between the two loops.

  The secretary makes each request with three writes, the first of them the code.  The server finds
  the requests again by reading the right number of bytes; nothing on the stream marks their start.  A read
  of the code that brings one byte of the four leaves the other three for the next read, and from there on
  every code the server takes may be a piece of something else.

  So the condition under which the two loops understand each other is about the moment a code is taken
  (`Allineato`): what is read as a code of this kind begins where a request begins.  It looks at the stream
  and at the server's variable, not at what the server does with it.

  The file says what one turn of the server can have behind it when it issues a call (`Chiede`): it connects
  to MySQL only after taking a code of a request, and executes a booking only with the two numbers it has just
  read.  That is proved once, for the whole turn, against a view of the turn (`Vista`) that records the reads
  and two kinds of marks; all other calls are `Altro` and pass without a case each.

  Contents:
  1. `confine`, `Allineato` — the server takes a code at the start of a request.
  2. `Vista`, `legge`, `Chiede` — a turn of the server so far, and what is behind its calls.
  3. `Libero`, `libero_…` — the parts of a turn that leave no mark.
  4. `safe_passo`, `chiede` — along every turn of the server: what it has read before it connects to MySQL,
     and before it executes a booking.
  5. `posizione` — how far into the stream the current turn began.
  6. `Zitto` — the server has nothing more to write for the current request.
-/
import Universita.Sistema

set_option linter.unusedVariables false

namespace Universita

open Lib Lib.Stream

/-! ## Boundaries -/

/-- The number of bytes in front of the secretary's `k`-th request: all that was written for the
    requests before it. A request is three writes, of any length. -/
def confine (inviate : List Bytes) (k : Nat) : Nat := (inviate.take (3 * k)).flatten.length

/-- What is written later does not move the boundaries there are. -/
theorem confine_append (inviate : List Bytes) {k : Nat} (hk : 3 * k ≤ inviate.length)
    (ws : List Bytes) : confine (inviate ++ ws) k = confine inviate k := by
  rw [confine, List.take_append_of_le_length hk, confine]

/-- The server's next byte is the first of a request: it has read all of some requests, and nothing of
    the next. -/
def InizioRichiesta (e : Rete) : Prop :=
  ∃ k, 3 * k ≤ e.seg.inviate.length ∧ e.ser.lette.length = confine e.seg.inviate k

/-- The move is not one in which the server takes a code of `codici` from within a request.  (The code
    is what the first read of a turn leaves in `request`.) -/
def Allineato (codici : List Int) (d : Stato) : Mossa → Prop
  | .act₂ (.read _ _) r => letture d.trace₂ = [] → r ≠ [] →
      (d.turn₂.request.overlay r).toInt ∈ codici → InizioRichiesta d.env
  | _ => True

/-! ## One turn of the server -/

/-- A call that neither connects to MySQL nor executes a booking. -/
abbrev Sys.Altro (o : Sys) : Prop := o ≠ .mysqlInit ∧ eseguita o = []

/-- The calls of a piece of a run that are not of that kind, in their order: where a reply was begun and
    which bookings were executed, and nothing else of it. -/
def segni (tr : List (Event Sys Sys.Ans)) : List Sys :=
  (tr.map Sigma.fst).filter fun o => ¬ o.Altro

/-- The marks of a run, call by call. -/
theorem segni_append (tr : List (Event Sys Sys.Ans)) (ev : Event Sys Sys.Ans) :
    segni (tr ++ [ev]) = segni tr ++ segni [ev] := by
  rw [segni, List.map_append, List.filter_append]; rfl

/-- A call of the other kind leaves none ... -/
theorem segni_altro {o : Sys} {r : o.Ans} (h : o.Altro) : segni [⟨o, r⟩] = [] := by
  simp [segni, h]

/-- ... and a call that leaves none is of that kind. -/
theorem segni_eq_nil {o : Sys} {r : o.Ans} (h : segni [⟨o, r⟩] = []) : o.Altro := by
  by_contra ho
  have : segni [⟨o, r⟩] = [o] := List.filter_cons_of_pos (decide_eq_true ho)
  rw [this] at h
  cases h

/-- A turn of the server: its variables at the start, what it has read since, its marks. -/
structure Vista where
  /-- The variables it began with. -/
  inizio : Server
  /-- What its reads delivered, in their order. -/
  lette : List Bytes
  /-- The connections to MySQL and the bookings. -/
  segni : List Sys

/-- The turn so far. -/
def vista (t : Server) (tr : List (Event Sys Sys.Ans)) : Vista := ⟨t, letture tr, segni tr⟩

/-- The code in `request` after the first read `r`: what was read, over the four bytes of the last code.
    A short read leaves some of them, an empty one all. -/
def codice (t : Server) (r : Bytes) : Int := (t.request.overlay r).toInt

section Turno

variable (A : (o : Sys) → o.Ans → Prop)

/-- How one call, whose answer meets `A`, changes the turn so far. `A` is what is known of the reads;
    the results about whole requests are this for several `A`. -/
def legge (v : Vista) (o : Sys) (r : o.Ans) (v' : Vista) : Prop :=
  A o r ∧ v' = ⟨v.inizio, v.lette ++ letture [⟨o, r⟩], v.segni ++ segni [⟨o, r⟩]⟩

/-- The server has read the code of a request, `r`, and done nothing else. The read was not empty, so
    the code was taken from the stream and is not the last one's. -/
def Presa (codici : List Int) (v : Vista) : Prop :=
  ∃ fd r, v.lette = [r] ∧ v.segni = [] ∧ A (.read fd 4) r ∧ r ≠ [] ∧ codice v.inizio r ∈ codici

/-- What is behind the server when it issues `o`. -/
structure Chiede (v : Vista) (o : Sys) : Prop where
  /-- It connects to MySQL after reading the code of a request. -/
  apre : o = .mysqlInit → Presa A [1, 2] v
  /-- It executes, once, the booking whose two numbers it has just read. -/
  esegue : ∀ id mat, (id, mat) ∈ eseguita o → ∃ (b₁ b₂ : Buffer 4) (fd fd₁ : Int) (r r₁ r₂ : Bytes),
    v.lette = [r, r₁, r₂] ∧ v.segni = [.mysqlInit] ∧ r ≠ [] ∧ codice v.inizio r = 2 ∧
    A (.read fd 4) r ∧ A (.read fd₁ 4) r₁ ∧ A (.read fd₁ 4) r₂ ∧
    id = (b₁.overlay r₁).toInt ∧ mat = (b₂.overlay r₂).toInt

variable {A} {v v' : Vista}

theorem legge_read {fd : Int} {n : Nat} {r : Bytes} (h : legge A v (.read fd n) r v') :
    A (.read fd n) r ∧ v' = { v with lette := v.lette ++ [r] } := by
  refine ⟨h.1, h.2.trans ?_⟩
  rw [segni_altro (o := .read fd n) ⟨nofun, rfl⟩, List.append_nil]
  rfl

/-- A call that neither reads nor leaves a mark changes nothing of the view. -/
theorem legge_altro {o : Sys} {r : o.Ans} (h : legge A v o r v') (ho : letture [⟨o, r⟩] = [])
    (ha : o.Altro) : v' = v := by
  rw [h.2, ho, segni_altro ha, List.append_nil, List.append_nil]

/-- Nothing has to be behind a call of the other kind. -/
theorem Chiede.altro {o : Sys} (h : o.Altro) : Chiede A v o :=
  ⟨fun ho => absurd ho h.1, fun id mat hm => by rw [h.2] at hm; cases hm⟩

end Turno

/-- A program all of whose calls are of that kind: it may read and write, and neither begins a reply nor
    executes a booking. -/
abbrev Libero {α : Type} (p : Programma α) : Prop :=
  p.Only (fun _ _ => True) Sys.Altro fun _ => True

/-- Such a program is safe in every view, whatever is wanted of the view at its end. -/
theorem Libero.safe {α : Type} {A : (o : Sys) → o.Ans → Prop} {p : Programma α} (h : Libero p)
    {v : Vista} {Q : α → Vista → Prop} (hQ : ∀ a v', Q a v') : p.Safe (legge A) (Chiede A) Q v :=
  (Prog.Only.safe (K := fun _ => True) h (fun _ _ _ ho => .altro ho)
    (fun _ _ _ _ _ _ _ => ⟨trivial, trivial⟩) trivial).mono fun a v' _ => hQ a v'

theorem Libero.bind {α β : Type} {p : Programma α} {f : α → Programma β} (hp : Libero p)
    (hf : ∀ a, Libero (f a)) : Libero (p >>= f) :=
  (Prog.only_bind p f _).mpr (hp.mono fun a _ => hf a)

theorem libero_call {α : Type} {o : Sys} {k : o.Ans → Programma α} (ho : o.Altro)
    (hk : ∀ r, Libero (k r)) : Libero (.call o k) :=
  Prog.only_call.mpr ⟨ho, fun r _ => hk r⟩

theorem libero_ret {α : Type} (a : α) : Libero (.ret a : Programma α) := trivial

/-- Where C defines nothing, nothing follows. -/
theorem libero_indefinito {α : Type} : Libero (indefinito : Programma α) :=
  libero_call ⟨nofun, rfl⟩ nofun

/-- Looking for a string asks for the memory behind a buffer at most. -/
theorem libero_cString {n : Nat} (b : Buffer n) : Libero (cString b) := by
  rw [cString]
  split
  · exact libero_ret _
  · exact libero_call ⟨(fun h => by cases h), rfl⟩ fun _ => libero_ret _

/-- An answer leaves no mark: marks are for MySQL. -/
theorem libero_write (fd : Int) (bs : Bytes) : Libero (sys (.write fd bs)) :=
  libero_call ⟨nofun, rfl⟩ fun _ => libero_ret _

namespace Server

/-- A statement that is no booking. -/
theorem libero_query (conn : Conn) {q : Query} (hq : eseguita (.mysqlQuery q) = []) :
    Libero (query conn q) := by
  cases conn with
  | aperta => exact libero_call ⟨nofun, hq⟩ fun _ => libero_ret _
  | chiusa => exact libero_indefinito

/-- The loop over the ids issues nothing at all. -/
theorem libero_ultimoId (id : Int) (rows : List Row) : Libero (ultimoId id rows) := by
  induction rows generalizing id with
  | nil => exact libero_ret _
  | cons row rows ih =>
    match row with
    | some id :: _ => exact ih _
    | [] => exact libero_indefinito
    | none :: _ => exact libero_indefinito

/-- The answer to a failed statement. -/
theorem libero_scriviErrore (connfd : Int) : Libero (scriviErrore connfd) :=
  libero_call ⟨nofun, rfl⟩ fun _ => libero_write _ _

/-- The answer to an appello, in either of its three texts. -/
theorem libero_esitoAppello (connfd : Int) (ok : Bool) : Libero (esitoAppello connfd ok) := by
  rw [esitoAppello]
  split
  · exact libero_write _ _
  · refine libero_call ⟨nofun, rfl⟩ fun err => ?_
    show Libero (if _ then _ else _)
    split
    · exact libero_write _ _
    · exact libero_call ⟨nofun, rfl⟩ fun _ => libero_write _ _

/-- The insert and the answer to it: the mark of a booking is its eligibility query, which lies before. -/
theorem libero_inserisciPrenotazione (connfd : Int) (conn : Conn) (mat : Int) (row : Row) :
    Libero (inserisciPrenotazione connfd conn mat row) := by
  unfold inserisciPrenotazione
  split
  · split
    · refine (libero_query conn rfl).bind fun ok => ?_
      split
      · exact libero_write _ _
      · exact libero_scriviErrore _
    · exact libero_indefinito
  · exact libero_indefinito

/-- The end of a booking, from the result set of the eligibility query on: whatever it was, no other
    reply is begun and no other booking executed. -/
theorem libero_esito (connfd : Int) (conn : Conn) (mat : Int) (res : Option (List Row)) :
    Libero (do
      match res with
      | none =>
        scriviErrore connfd
        indefinito
      | some [] => sys (.write connfd (ascii "invalid id or data!"))
      | some (row :: _) => inserisciPrenotazione connfd conn mat row
      sys .mysqlClose) := by
  match res with
  | none =>
    exact (libero_scriviErrore _).bind fun _ => by rw [indefinito_bind]; exact libero_indefinito
  | some [] => exact libero_call ⟨nofun, rfl⟩ fun _ => libero_call ⟨nofun, rfl⟩ fun _ => libero_ret _
  | some (row :: _) =>
    exact (libero_inserisciPrenotazione _ _ _ _).bind fun _ =>
      libero_call ⟨nofun, rfl⟩ fun _ => libero_ret _

/-- After its code was read, a request connects to MySQL and reads nothing. The mark this leaves in the
    view is what later tells that a reply was begun. -/
theorem safe_connection {v : Vista} (hv : Presa A [1, 2] v) :
    connection.Safe (legge A) (Chiede A) (fun _ v' => v' = { v with segni := [.mysqlInit] }) v := by
  refine ⟨⟨fun _ => hv, fun id mat h => by cases h⟩, fun ok v₁ h₁ => ?_⟩
  have hv₁ : v₁ = { v with segni := [.mysqlInit] } := by
    obtain ⟨_, _, -, hs, -⟩ := hv
    rw [h₁.2, hs, show letture [⟨Sys.mysqlInit, ok⟩] = [] from rfl, List.append_nil]
    rfl
  cases ok with
  | false => exact ⟨.altro ⟨nofun, rfl⟩, nofun⟩
  | true =>
    refine ⟨.altro ⟨nofun, rfl⟩, fun ok v₂ h₂ => ?_⟩
    obtain rfl := legge_altro h₂ rfl ⟨nofun, rfl⟩
    cases ok with
    | true => exact hv₁
    | false =>
      refine ⟨.altro ⟨nofun, rfl⟩, fun _ v₃ h₃ => ?_⟩
      rw [← hv₁]
      exact legge_altro h₃ rfl ⟨nofun, rfl⟩

/-- An appello: the two texts are read after the connection was opened, and no booking is executed. -/
theorem safe_aggiungiAppello {v : Vista} (connfd : Int) (hv : Presa A [1, 2] v) :
    (aggiungiAppello connfd).Safe (legge A) (Chiede A) (fun _ _ => True) v := by
  rw [aggiungiAppello, Prog.safe_bind]
  refine (safe_connection hv).mono fun conn v' _ => Libero.safe ?_ fun _ _ => trivial
  refine libero_call ⟨nofun, rfl⟩ fun _ => ?_
  simp only [Prog.ret_bind, Prog.op_eq, Prog.call_bind]
  refine libero_call ⟨nofun, rfl⟩ fun _ => libero_call ⟨nofun, rfl⟩ fun _ => ?_
  refine (libero_cString _).bind fun _ => (libero_query conn rfl).bind fun _ => ?_
  refine libero_call ⟨nofun, rfl⟩ fun res => ?_
  cases res with
  | none => exact libero_indefinito
  | some rows =>
    refine (libero_ultimoId _ _).bind fun _ => (libero_cString _).bind fun _ => ?_
    refine (libero_query conn rfl).bind fun _ => (libero_esitoAppello _ _).bind fun _ => ?_
    exact libero_call ⟨nofun, rfl⟩ fun _ => libero_ret _

/-- A booking: the eligibility query is given exactly the two numbers that were read, each over whatever
    the variable held. -/
theorem safe_aggiungiPrenotazione {v : Vista} (connfd : Int) (hv : Presa A [2] v) :
    (aggiungiPrenotazione connfd).Safe (legge A) (Chiede A) (fun _ _ => True) v := by
  obtain ⟨fd, r, hr, hs, hA, hne, hcod⟩ := hv
  have h2 := List.mem_singleton.mp hcod
  rw [aggiungiPrenotazione, Prog.safe_bind]
  refine (safe_connection ⟨fd, r, hr, hs, hA, hne, by rw [h2]; decide⟩).mono fun conn v' hv' => ?_
  simp only [Prog.ret_bind, Prog.op_eq, Prog.call_bind]
  refine ⟨.altro ⟨nofun, rfl⟩, fun id v₁ h₁ => ⟨.altro ⟨nofun, rfl⟩, fun mat v₂ h₂ => ?_⟩⟩
  -- the two reads; what they brought is what the eligibility query is given
  refine ⟨.altro ⟨nofun, rfl⟩, fun r₁ v₃ h₃ => ⟨.altro ⟨nofun, rfl⟩, fun r₂ v₄ h₄ => ?_⟩⟩
  have hv₄ : v₄ = ⟨v.inizio, [r, r₁, r₂], [.mysqlInit]⟩ := by
    rw [(legge_read h₄).2, (legge_read h₃).2, legge_altro h₂ rfl ⟨nofun, rfl⟩,
      legge_altro h₁ rfl ⟨nofun, rfl⟩, hv', hr]
    rfl
  rw [Prog.safe_bind]
  have hquery : (query conn (.verificaPrenotazione (id.overlay r₁).toInt (mat.overlay r₂).toInt)).Safe
      (legge A) (Chiede A) (fun _ _ => True) v₄ := by
    cases conn with
    | chiusa => exact libero_indefinito.safe fun _ _ => trivial
    | aperta =>
      refine ⟨⟨nofun, fun id' mat' hm => ?_⟩, fun _ _ _ => trivial⟩
      obtain ⟨rfl, rfl⟩ := Prod.mk.inj (List.mem_singleton.mp hm)
      exact ⟨id, mat, fd, connfd, r, r₁, r₂, by rw [hv₄], by rw [hv₄], hne, by rw [hv₄]; exact h2, hA,
        (legge_read h₃).1, (legge_read h₄).1, rfl, rfl⟩
  refine hquery.mono fun ok v₅ _ => Libero.safe ?_ fun _ _ => trivial
  split
  · refine (libero_scriviErrore _).bind fun _ => libero_call ⟨nofun, rfl⟩ fun res => ?_
    exact libero_esito connfd conn _ res
  · refine libero_call ⟨nofun, rfl⟩ fun res => ?_
    exact libero_esito connfd conn _ res

/-- **One turn of the server.** Nothing, a connection, or a code and the request it stands for; a code
    that is none leads to neither a reply nor a booking. -/
theorem safe_passo (t : Server) : (passo t).Safe (legge A) (Chiede A) (fun _ _ => True) (vista t []) := by
  -- the read of the code is the one call of a turn that is asked about
  have hrichiesta : ∀ (s : Server), s.request = t.request →
      (richiesta s).Safe (legge A) (Chiede A) (fun _ _ => True) (vista t []) := by
    intro s hs
    refine ⟨.altro ⟨nofun, rfl⟩, fun r v₁ h₁ => ?_⟩
    obtain ⟨hA, rfl⟩ := legge_read h₁
    show Prog.Safe (legge A) (Chiede A) (if 0 < r.length then _ else _) _ _
    split
    · rename_i hpos
      have hne : r ≠ [] := List.length_pos_iff.mp hpos
      rw [Prog.safe_bind, smista, hs]
      split
      · rename_i h1
        have hcod : codice t r ∈ [1, 2] := by rw [codice, h1]; decide
        exact (safe_aggiungiAppello _ ⟨_, r, rfl, rfl, hA, hne, hcod⟩).mono fun _ _ _ => trivial
      · split
        · rename_i h2
          have hcod : codice t r ∈ [2] := List.mem_singleton.mpr h2
          exact (safe_aggiungiPrenotazione _ ⟨_, r, rfl, rfl, hA, hne, hcod⟩).mono fun _ _ _ => trivial
        · trivial
    · trivial
  have hcoda : ∀ (s : Server) (rs : List Int), s.request = t.request →
      (if s.connfd ∈ rs then s.richiesta else pure s).Safe (legge A) (Chiede A) (fun _ _ => True)
        (vista t []) := by
    intro s rs hs
    split
    · exact hrichiesta s hs
    · trivial
  have hpronti : ∀ rs : List Int,
      (if t.listenfd ∈ rs then
        t.nuovaConnessione >>= fun s => if s.connfd ∈ rs then s.richiesta else pure s
      else pure t >>= fun s => if s.connfd ∈ rs then s.richiesta else pure s).Safe
        (legge A) (Chiede A) (fun _ _ => True) (vista t []) := by
    intro rs
    split
    · refine ⟨.altro ⟨nofun, rfl⟩, fun fd v₂ h₂ => ?_⟩
      obtain rfl := legge_altro h₂ rfl ⟨nofun, rfl⟩
      exact hcoda _ rs rfl
    · exact hcoda _ rs rfl
  refine ⟨.altro ⟨nofun, rfl⟩, fun pronti v₁ h₁ => ?_⟩
  obtain rfl := legge_altro h₁ rfl ⟨nofun, rfl⟩
  cases pronti with
  | none => exact hpronti _
  | some p => exact hpronti p.1

end Server

/-! ## Runs -/

section Corse

variable {sockfd : Int} {C : Stato → Mossa → Prop} {clienti : Nat → Bytes} {s : Segreteria}
  {t : Server} {d : Stato}

/-- **What is behind the server at each of its calls**, in every run whose answers to it meet `A`: the
    turn lemma, carried over all interleavings with the secretary, which touches nothing of the server's
    turn. -/
theorem chiede {A : (o : Sys) → o.Ans → Prop}
    (hA : ∀ (d : Stato) (o : Sys) (r : o.Ans) (e : Rete), C d (.act₂ o r) →
      (sistema sockfd).ans₂ d.env o r = some e → A o r)
    (hd : (sistema sockfd).Reach C (inizio clienti s t) d) :
    d.prog₂.Safe (legge A) (Chiede A) (fun _ _ => True) (vista d.turn₂ d.trace₂) := by
  refine Duo.Reach.local₂ (fun d => vista d.turn₂ d.trace₂) (fun _ => True) (fun _ _ => trivial)
    ?_ ?_ ?_ ?_ hd
  · intro d o r d' _ _ hC hs
    obtain ⟨k, e, -, he, rfl⟩ := Duo.step_act₂ _ hs
    exact ⟨hA d o r e hC he, by rw [vista, vista, letture_append, segni_append]⟩
  · intro d t' d' _ _ hret hs _
    obtain ⟨t'', hp, rfl⟩ := Duo.step_turn₂ _ hs
    obtain rfl : t' = t'' := Prog.ret.inj (hret.symm.trans hp)
    exact Server.safe_passo t'
  · intro d m d' hm hs
    cases m with
    | turn₁ => obtain ⟨_, -, rfl⟩ := Duo.step_turn₁ _ hs; rfl
    | act₁ o r => obtain ⟨_, _, -, -, rfl⟩ := Duo.step_act₁ _ hs; rfl
    | turn₂ => exact hm.elim
    | act₂ o r => exact hm.elim
  · exact trivial

/-- The current turn of the server began after `pre`, and a code of `codici` it took there was the
    first of a request. -/
structure Corrente (codici : List Int) (d : Stato) (pre : Bytes) : Prop where
  /-- What the server has read so far is what it had before, and this turn's reads. -/
  lette : d.env.ser.lette = pre ++ (letture d.trace₂).flatten
  /-- If the first of them made `request` a code of `codici`, it was taken at a boundary. -/
  inizio : ∀ r rs, letture d.trace₂ = r :: rs → r ≠ [] → codice d.turn₂ r ∈ codici →
    ∃ k, 3 * k ≤ d.env.seg.inviate.length ∧ pre.length = confine d.env.seg.inviate k

/-- Every turn has such a beginning: by induction on the run, a new turn moving it to what has been read
    by then. -/
theorem posizione {codici : List Int} (hC : ∀ d m, C d m → Allineato codici d m)
    (hd : (sistema sockfd).Reach C (inizio clienti s t) d) : ∃ pre, Corrente codici d pre := by
  refine Duo.Reach.invariant (J := fun d => ∃ pre, Corrente codici d pre) ⟨[], rfl,
    fun _ _ h => by cases h⟩ ?_ hd
  rintro d m d' - ⟨pre, hpre⟩ hm hs
  cases m with
  | turn₁ => obtain ⟨_, -, rfl⟩ := Duo.step_turn₁ _ hs; exact ⟨pre, hpre.lette, hpre.inizio⟩
  | turn₂ =>
    obtain ⟨_, -, rfl⟩ := Duo.step_turn₂ _ hs
    exact ⟨d.env.ser.lette, (List.append_nil _).symm, fun _ _ h => by cases h⟩
  | act₁ o r =>
    obtain ⟨_, e, -, he, rfl⟩ := Duo.step_act₁ _ hs
    obtain ⟨hseg, -, hser⟩ := sistema_ans₁.mp he
    have hinv := (LatoSegreteria.chiama_effetto hseg).inviate
    refine ⟨pre, by rw [hser]; exact hpre.lette, fun r' rs hr hne hcod => ?_⟩
    obtain ⟨k, hk, hlen⟩ := hpre.inizio r' rs hr hne hcod
    refine ⟨k, ?_, ?_⟩
    · rw [hinv, List.length_append]; omega
    · rw [hinv, confine_append _ hk]; exact hlen
  | act₂ o r =>
    obtain ⟨_, e, -, he, rfl⟩ := Duo.step_act₂ _ hs
    have heff := effettoServer he
    obtain ⟨-, -, hseg⟩ := sistema_ans₂.mp he
    refine ⟨pre, ?_, fun r' rs hr hne hcod => ?_⟩
    · rw [heff.lette, hpre.lette, letture_append, List.flatten_append, List.append_assoc]
    rw [hseg]
    rw [letture_append] at hr
    cases hl : letture d.trace₂ with
    | cons r₀ rs₀ =>
      rw [hl] at hr
      obtain ⟨rfl, -⟩ := List.cons.inj hr
      exact hpre.inizio r₀ rs₀ hl hne hcod
    | nil =>
      -- the first read of the turn: here the alignment of the move counts
      rw [hl, List.nil_append] at hr
      cases o with
      | read fd n =>
        obtain ⟨rfl, -⟩ := List.cons.inj hr
        have hpos : d.env.ser.lette.length = pre.length := by rw [hpre.lette, hl]; simp
        rw [← hpos]
        exact hC d _ hm hl hne hcod
      | _ => cases hr

end Corse

/-! ## Silence -/

/-- The server writes nothing more before it next connects to MySQL: whatever is in flight now is all of
    the reply. -/
def Zitto {α : Type} (p : Programma α) : Prop :=
  p.Quiet (fun o => ∃ fd bs, o = .write fd bs) (· = .mysqlInit)

/-- A whole turn is silent up to its connection to MySQL: requests are answered behind it only. -/
theorem Server.zitto_passo (t : Server) : Zitto (passo t) := by
  -- a request: behind the code the first call is `mysql_init`, and for a code that is neither 1 nor 2
  -- there is none
  have hrichiesta : ∀ s : Server, Zitto (richiesta s) := by
    refine fun s => ⟨nofun, fun _ r => ?_⟩
    show Zitto (if 0 < r.length then _ else _)
    split
    · refine Prog.Quiet.bind ?_ fun _ => trivial
      rw [smista]
      split
      · exact ⟨nofun, fun h => absurd rfl h⟩
      · split
        · exact ⟨nofun, fun h => absurd rfl h⟩
        · trivial
    · trivial
  have hcoda : ∀ (s : Server) (rs : List Int), Zitto (if s.connfd ∈ rs then s.richiesta else pure s) := by
    intro s rs
    split
    · exact hrichiesta s
    · trivial
  -- whatever `select` reported, accepting writes nothing
  have hpronti : ∀ rs : List Int, Zitto (if t.listenfd ∈ rs then
        t.nuovaConnessione >>= fun s => if s.connfd ∈ rs then s.richiesta else pure s
      else pure t >>= fun s => if s.connfd ∈ rs then s.richiesta else pure s) := by
    intro rs
    split
    · exact ⟨nofun, fun _ fd => hcoda _ rs⟩
    · exact hcoda _ rs
  refine ⟨nofun, fun _ pronti => ?_⟩
  cases pronti with
  | none => exact hpronti _
  | some p => exact hpronti p.1

end Universita

/-
  THE SERVER'S CONNECTION — one variable for it, and what `accept` puts there.

  `connfd` stands for the connection to the secretary.  Every `accept` overwrites it, a failed one with an
  error value, and nothing ever closes it; behind the `accept` `FD_ISSET` is asked about it whatever it is.
  The comment in the source has the server take a new client after the present one is done, but
  `listenfd` is in the set in every iteration, and the branch that accepts looks at nothing else.

  The world of this file (`ascolto`) knows only what the kernel handed out and where a stream has ended;
  everything else the server asks for may be answered in any way.  `select` blocks for ever in the source
  (no timeout), so when it succeeds something is ready: without a connection that can only be `listenfd`.

  The crux is `safe_iterazione`: from the head of the loop with one open connection, or none, an iteration
  whose answers follow the rules comes back to such a head, and every descriptor it handed to `FD_SET` and
  `FD_ISSET` on the way was in range.  The functions that serve a request need no case of their own: they use
  the connection and open or close nothing (`Piano`, `Locale`).

  Contents:
  1. `Descrittori`, `ascolto` — the world: the descriptors the kernel handed out, and those of them on which
     a read met the end of the stream.
  2. `Server.usi` — what an iteration has passed to `FD_SET` and `FD_ISSET` so far.
  3. `Ordinato`, `Custodita`, `Regolata` — at the head of the loop `connfd` is the one open connection, and no
     ended one is open; and the rule for the moves.
  4. `piano_…`, `locale_…` — the functions of the server.
  5. **`una_connessione`** — in every run in which `accept` is called only without a connection, returns a
     descriptor below 1024, and no read finds the end of the stream.
  6. `connessione_persa` — a second secretary, and the first is lost.
-/
import Universita.Guasti
import Universita.Limiti

set_option linter.unusedVariables false

namespace Universita

open Lib

/-! ## The world -/

/-- The descriptors `accept` returned that are open, and those of them whose stream has ended. The
    server never closes one. -/
structure Descrittori where
  /-- What `accept` returned and nothing closed. -/
  aperti : List Int
  /-- ... and whose stream has ended. -/
  finiti : List Int

/-- What an answer makes of them.  `select` has no timeout: when it succeeds something is ready. -/
def Descrittori.chiama (listenfd : Int) (e : Descrittori) : (o : Sys) → o.Ans → Option Descrittori
  | .select _ rs ws, pronti => if sottoinsiemi rs ws pronti ∧ pronti ≠ some ([], []) then some e else none
  | .accept _, fd =>
      if fd < 0 then some e
      else if fd = listenfd ∨ fd ∈ e.aperti then none
      else some { e with aperti := fd :: e.aperti }
  | .read fd n, r =>
      if n < r.length then none
      else some (if r = [] ∧ fd ∈ e.aperti then { e with finiti := fd :: e.finiti } else e)
  | .close fd, _ => some ⟨e.aperti.filter (· ≠ fd), e.finiti.filter (· ≠ fd)⟩
  | _, _ => some e

/-- The server alone, waiting on `listenfd`, in front of anybody who connects and sends what he likes. -/
def ascolto (listenfd : Int) : Solo Sys Sys.Ans Server Descrittori where
  body := Server.passo
  ans e o r := e.chiama listenfd o r

/-- `main` in front of its loop: no connection yet, and no request. -/
def Server.iniziale (listenfd : Int) (request : Buffer 4) : Server :=
  { listenfd, connfd := -1, request, maxFd := listenfd }

/-- A state of the server's run, with the iterations done. -/
abbrev StatoServer := Solo.State Sys Sys.Ans Server Descrittori

/-- A move of it. -/
abbrev MossaServer := Solo.Move Sys Sys.Ans

/-- The server in front of its loop: it listens, and nobody has come. -/
def serverAvviato (listenfd : Int) (request : Buffer 4) : StatoServer :=
  (ascolto listenfd).start (Server.iniziale listenfd request) ⟨[], []⟩

/-! ## What is asked of it -/

namespace Server

/-- Behind the `accept`: `FD_ISSET` of what it returned. -/
def usiAccept : List Evento → List Uso
  | ⟨.accept _, fd⟩ :: _ => [.descrittore fd]
  | _ => []

/-- Behind `select`: `FD_ISSET` of the listening socket, then of `connfd`, or of what `accept` has put
    in its place. -/
def usiSelect (s : Server) : List Evento → List Uso
  | ⟨.select _ rs _, pronti⟩ :: tr =>
      .descrittore s.listenfd ::
        if s.listenfd ∈ pronti.elim rs Prod.fst then usiAccept tr else [.descrittore s.connfd]
  | _ => []

/-- The descriptors an iteration has passed to `FD_SET` and `FD_ISSET` once its calls `tr` were answered. -/
def usi (s : Server) (tr : List Evento) : List Uso :=
  .descrittore s.listenfd :: (if s.connfd > -1 then [.descrittore s.connfd] else []) ++ usiSelect s tr

/-- At the head of the loop `connfd` is the one open connection, and its stream has not ended; or it is
    negative, and there is none. -/
structure Ordinato (s : Server) (e : Descrittori) : Prop where
  /-- The open connections are `connfd`, or there is none. -/
  aperti : e.aperti = if s.connfd > -1 then [s.connfd] else []
  /-- No stream has ended. -/
  finiti : e.finiti = []

/-- The server keeps its connection: so it is at the head of the loop, and what it has passed to `FD_SET`
    and `FD_ISSET` since is in range. -/
def Custodita (d : StatoServer) : Prop :=
  (d.trace = [] → Ordinato d.turn d.env) ∧ ∀ u ∈ usi d.turn d.trace, u.NeiLimiti

/-- `accept` is called without a connection and returns a descriptor below 1024, and no read finds the end
    of the stream. -/
def Regolata (d : StatoServer) (m : MossaServer) : Prop :=
  (∀ lfd fd, m = .act (.accept lfd) fd → d.turn.connfd < 0 ∧ 0 ≤ fd ∧ fd < 1024) ∧
  ∀ fd n, m ≠ .act (.read fd n) []

end Server

/-! ## The functions of the server -/

namespace Server

variable {fds : List Int} {connfd : Int}

/-- The functions of a request use at most the connection; opening the one to MySQL uses no descriptor
    of this world. -/
theorem piano_connection : Piano fds connection := by
  refine piano_call trivial trivial fun ok => ?_
  show Piano fds (if ok = false then _ else _)
  split
  · exact piano_indefinito
  · refine piano_call trivial trivial fun ok => ?_
    show Piano fds (if ok = true then _ else _)
    split
    · exact piano_ret _
    · exact piano_call trivial trivial fun _ => piano_ret _

theorem piano_query (conn : Conn) (q : Query) (hq : (Sys.mysqlQuery q).Su fds) :
    Piano fds (query conn q) := by
  cases conn with
  | aperta => exact piano_call hq trivial fun _ => piano_ret _
  | chiusa => exact piano_indefinito

/-- Nor does the loop over the ids. -/
theorem piano_ultimoId (rows : List Row) : ∀ i : Int, Piano fds (ultimoId i rows) := by
  induction rows with
  | nil => exact fun i => piano_ret _
  | cons row rows ih =>
    intro i
    rcases row with _ | ⟨_ | id, cols⟩
    · exact piano_indefinito
    · exact piano_indefinito
    · exact ih _

theorem piano_scriviErrore (h : connfd ∈ fds) : Piano fds (scriviErrore connfd) :=
  piano_call trivial trivial fun _ => piano_call h trivial fun _ => piano_ret _

/-- Each of the three answers to an appello does. -/
theorem piano_esitoAppello (h : connfd ∈ fds) (ok : Bool) : Piano fds (esitoAppello connfd ok) := by
  cases ok with
  | true => exact piano_call h trivial fun _ => piano_ret _
  | false =>
    refine piano_call trivial trivial fun err => ?_
    show Piano fds (if strstr err _ = true then _ else _)
    split
    · exact piano_call h trivial fun _ => piano_ret _
    · exact piano_scriviErrore h

/-- An appello: two reads and an answer on the connection. -/
theorem locale_aggiungiAppello (h : connfd ∈ fds) : Locale fds (aggiungiAppello connfd) := by
  refine piano_connection.locale.bind fun conn => ?_
  refine locale_call h fun r => locale_call h fun r' => locale_call trivial fun i => ?_
  refine (locale_cString _).bind fun nome =>
    (piano_query conn (.idEsame nome) trivial).locale.bind fun _ => ?_
  refine locale_call trivial fun res => ?_
  cases res with
  | none => exact locale_indefinito
  | some rows =>
    refine (piano_ultimoId rows _).locale.bind fun id => (locale_cString _).bind fun data => ?_
    refine (piano_query conn (.inserisciAppello _ _) trivial).locale.bind fun ok => ?_
    exact (piano_esitoAppello h ok).locale.bind fun _ => locale_call trivial fun _ => locale_ret _

/-- The end of a booking: an answer on the connection. -/
theorem piano_inserisciPrenotazione (h : connfd ∈ fds) (conn : Conn) (mat : Int) (row : Row) :
    Piano fds (inserisciPrenotazione connfd conn mat row) := by
  rcases row with _ | ⟨_ | id, _ | ⟨_ | data, _ | _⟩⟩
  case cons.some.cons.some.nil =>
    show Piano fds (if data.length < 12 then _ else _)
    split
    · refine (piano_query conn (.inserimento _ _) trivial).bind fun ok => ?_
      show Piano fds (if ok = true then _ else _)
      split
      · exact piano_call h trivial fun _ => piano_ret _
      · exact piano_scriviErrore h
    · exact piano_indefinito
  all_goals exact piano_indefinito

/-- Behind the eligibility query, with any result. -/
theorem piano_esitoVerifica (h : connfd ∈ fds) (conn : Conn) (mat : Int) (res : Option (List Row)) :
    Piano fds (Mondo.esitoVerifica connfd conn mat res) := by
  have hclose : Piano fds (sys .mysqlClose) := piano_call trivial trivial fun _ => piano_ret _
  rcases res with _ | _ | ⟨row, rows⟩
  · exact ((piano_scriviErrore h).bind fun _ => piano_indefinito).bind fun _ => hclose
  · exact piano_call h trivial fun _ => hclose
  · exact (piano_inserisciPrenotazione h conn _ row).bind fun _ => hclose

/-- A booking: two reads and an answer. -/
theorem piano_aggiungiPrenotazione (h : connfd ∈ fds) : Piano fds (aggiungiPrenotazione connfd) := by
  rw [Mondo.aggiungiPrenotazione_eq]
  refine piano_connection.bind fun conn => ?_
  refine piano_call trivial trivial fun i => piano_call trivial trivial fun m => piano_call h trivial fun r => ?_
  refine piano_call h trivial fun r' => (piano_query conn (.verificaPrenotazione _ _) trivial).bind fun ok => ?_
  cases ok with
  | true => exact piano_call trivial trivial (piano_esitoVerifica h conn _)
  | false => exact (piano_scriviErrore h).bind fun _ => piano_call trivial trivial (piano_esitoVerifica h conn _)

/-- A request uses no descriptor but the connection's, and neither opens nor closes it. -/
theorem locale_smista (h : connfd ∈ fds) (request : Int) : Locale fds (smista connfd request) := by
  unfold smista
  split
  · exact locale_aggiungiAppello h
  · split
    · exact (piano_aggiungiPrenotazione h).locale
    · exact locale_ret _

/-- The read of the code and what it leads to leave `connfd` and `listenfd` where they are. -/
theorem locale_richiesta {s : Server} (h : s.connfd ∈ fds) : s.richiesta.Only (fun _ _ => True)
    (Sys.Su fds)
    fun s' => s'.connfd = s.connfd ∧ s'.listenfd = s.listenfd := by
  refine Prog.only_call.mpr ⟨h, fun r _ => ?_⟩
  show Prog.Only _ _ (if 0 < r.length then _ else _) _
  split
  · exact (Prog.only_bind ..).mpr ((locale_smista h _).mono fun _ _ => ⟨rfl, rfl⟩)
  · exact ⟨rfl, rfl⟩

end Server

/-! ## One iteration -/

section Iterazione

open Server

variable {listenfd : Int} {s : Server} {e : Descrittori}

/-- How the answers of an iteration are to be. -/
def regole (s : Server) (o : Sys) (r : o.Ans) : Prop :=
  (∀ lfd fd, (⟨o, r⟩ : Evento) = ⟨.accept lfd, fd⟩ → s.connfd < 0 ∧ 0 ≤ fd ∧ fd < 1024) ∧
  ∀ fd n, (⟨o, r⟩ : Evento) ≠ ⟨.read fd n, ([] : Bytes)⟩

/-- The answers of an iteration that follows the rules. -/
abbrev RisposteServer (listenfd : Int) (s : Server) :=
  (ascolto listenfd).answers fun _ o r => regole s o r

/-- A read that delivers something leaves the descriptors as they are, as does a call on no descriptor:
    the serving of a request is made of such calls. -/
theorem chiama_su {fds : List Int} {o : Sys} {r : o.Ans} {e' : Descrittori} (ho : o.Su fds)
    (hr : ∀ fd n, (⟨o, r⟩ : Evento) ≠ ⟨.read fd n, ([] : Bytes)⟩) (h : e.chiama listenfd o r = some e') :
    e' = e := by
  cases o with
  | read fd n =>
    have hne : r ≠ [] := by
      rintro rfl
      exact hr fd n rfl
    rw [Descrittori.chiama] at h
    split at h
    · cases h
    · rw [if_neg fun hc => hne hc.1] at h
      exact (Option.some.inj h).symm
  | select nfds rs ws => exact absurd ho id
  | accept lfd => exact absurd ho id
  | close fd => exact absurd ho id
  | _ => exact (Option.some.inj h).symm

/-- The end of an iteration: the request on the connection, if it is there. -/
def Server.resto (s : Server) (readSet : List Int) : Programma Server :=
  if s.connfd ∈ readSet then s.richiesta else pure s

/-- What is left behind the accept: a request on `connfd`, or nothing. It changes no descriptor, so what
    held before it holds at its end. -/
theorem safe_resto {s' : Server} {P : Solo.View Sys Sys.Ans Descrittori → Sys → Prop}
    {Q : Server → Solo.View Sys Sys.Ans Descrittori → Prop} {rs : List Int} {tr : List Evento}
    (hP : ∀ v o, v.2 = e → tr <+: v.1 → P v o)
    (hQ : ∀ s'' v, s''.connfd = s'.connfd → s''.listenfd = s'.listenfd → v.2 = e → tr <+: v.1 → Q s'' v) :
    (s'.resto rs).Safe (RisposteServer listenfd s) P Q (tr, e) := by
  unfold Server.resto
  by_cases h : s'.connfd ∈ rs
  · rw [if_pos h]
    refine (Prog.Only.safe (K := fun v => v.2 = e ∧ tr <+: v.1) (locale_richiesta (List.mem_singleton_self _))
      (fun v o hv _ => hP v o hv.1 hv.2) ?_ ⟨rfl, List.prefix_rfl⟩).mono ?_
    · rintro v o r v' ⟨hv, htr⟩ ho ⟨hans, htr', hreg⟩
      refine ⟨trivial, ?_, ?_⟩
      · rw [chiama_su ho hreg.2 hans, hv]
      · rw [htr']
        exact htr.trans (List.prefix_append _ _)
    · rintro s'' v ⟨⟨hc, hl⟩, hv, htr⟩
      exact hQ s'' v hc hl hv htr
  · rw [if_neg h]
    exact hQ s' (tr, e) rfl rfl rfl List.prefix_rfl

/-- What holds at the head of the loop, once the turns `past` are done: the connection is in order, its
    descriptor fits an `fd_set`, and no turn has used one that does not. -/
structure Custodito (listenfd : Int) (past : Solo.Past Sys Sys.Ans Server) (s : Server) (e : Descrittori) :
    Prop where
  /-- The connection is in order. -/
  ordinato : Ordinato s e
  /-- `listenfd` never changes. -/
  listenfd_eq : s.listenfd = listenfd
  /-- What `accept` returned was below 1024, or there is none. -/
  piccolo : s.connfd < 1024
  /-- Every turn done had a call, and used no descriptor out of range. -/
  passati : ∀ t ∈ past, t.2 ≠ [] ∧ ∀ u ∈ t.1.usi t.2, u.NeiLimiti

variable {past : Solo.Past Sys Sys.Ans Server}

/-- What the sets are built from is in range: the listening socket, and the connection if there is one.
    What is left to show about an iteration is what `select` leads to. -/
theorem Custodito.usi (h : Custodito listenfd past s e) (hlisten : 0 ≤ listenfd ∧ listenfd < 1024)
    {tr : List Evento} (hsel : ∀ u ∈ usiSelect s tr, u.NeiLimiti) : ∀ u ∈ s.usi tr, u.NeiLimiti := by
  intro u hu
  rcases List.mem_cons.mp hu with rfl | hu
  · rw [h.listenfd_eq]
    exact hlisten
  · rcases List.mem_append.mp hu with hu | hu
    · split at hu
      · rename_i hc
        rw [List.mem_singleton.mp hu]
        exact ⟨by omega, h.piccolo⟩
      · exact absurd hu List.not_mem_nil
    · exact hsel u hu

/-- What an iteration leaves behind. -/
theorem Custodito.dopo (h : Custodito listenfd past s e) (hlisten : 0 ≤ listenfd ∧ listenfd < 1024)
    {s' : Server} {e' : Descrittori} {tr : List Evento} (hs' : Ordinato s' e') (hl : s'.listenfd = listenfd)
    (hc : s'.connfd < 1024) (htr : tr ≠ []) (hsel : ∀ u ∈ usiSelect s tr, u.NeiLimiti) :
    Custodito listenfd (past ++ [(s, tr)]) s' e' := by
  refine ⟨hs', hl, hc, fun t ht => ?_⟩
  rcases List.mem_append.mp ht with ht | ht
  · exact h.passati t ht
  · rw [List.mem_singleton.mp ht]
    exact ⟨htr, h.usi hlisten hsel⟩

/-- A connection waits: `connfd` becomes it. -/
theorem usiSelect_accettata {rs ws : List Int} {nfds lfd fd : Int} {pronti : Option (List Int × List Int)}
    {tr : List Evento} (hs : s.listenfd ∈ pronti.elim rs Prod.fst)
    (htr : [⟨.select nfds rs ws, pronti⟩, ⟨.accept lfd, fd⟩] <+: tr) :
    usiSelect s tr = [.descrittore s.listenfd, .descrittore fd] := by
  obtain ⟨dopo, rfl⟩ := htr
  show Uso.descrittore s.listenfd :: (if _ then _ else _) = _
  rw [if_pos hs]
  rfl

theorem usiSelect_nessuna {rs ws : List Int} {nfds : Int} {pronti : Option (List Int × List Int)}
    {tr : List Evento} (hs : s.listenfd ∉ pronti.elim rs Prod.fst)
    (htr : [⟨.select nfds rs ws, pronti⟩] <+: tr) :
    usiSelect s tr = [.descrittore s.listenfd, .descrittore s.connfd] := by
  obtain ⟨dopo, rfl⟩ := htr
  show Uso.descrittore s.listenfd :: (if _ then _ else _) = _
  rw [if_neg hs]

/-- The set an iteration hands to `select`. -/
def Server.osservati (s : Server) : List Int :=
  if s.connfd > -1 then [s.connfd, s.listenfd] else [s.listenfd]

/-- What it does once the set is reduced. -/
def Server.dopoSelect (s : Server) (readSet : List Int) : Programma Server :=
  if s.listenfd ∈ readSet then do
    let s ← s.nuovaConnessione
    s.resto readSet
  else s.resto readSet

/-- An iteration is a `select` and what its reduced set leads to. -/
theorem Server.passo_eq (s : Server) :
    s.passo = .call (.select (s.maxFd + 1) s.osservati []) fun pronti =>
    s.dopoSelect (pronti.elim s.osservati Prod.fst) := by
  refine congrArg (Prog.call _) (funext fun pronti => ?_)
  cases pronti <;> rfl

/-- Without a connection a `select` that returns has found the listening socket ready, since it was
    given nothing else. So the `accept` that follows is the one there has to be. -/
theorem listenfd_pronto {pronti : Option (List Int × List Int)} (hc : ¬ s.connfd > -1)
    (hsub : sottoinsiemi s.osservati [] pronti = true) (hne : pronti ≠ some ([], [])) :
    s.listenfd ∈ pronti.elim s.osservati Prod.fst := by
  have hoss : s.osservati = [s.listenfd] := if_neg hc
  rw [hoss] at hsub ⊢
  rcases pronti with _ | ⟨_ | ⟨fd, rs⟩, ws⟩
  · exact List.mem_singleton_self _
  · obtain ⟨-, hws⟩ := of_decide_eq_true hsub
    rw [List.subset_nil.mp hws] at hne
    exact absurd rfl hne
  · obtain ⟨hrs, -⟩ := of_decide_eq_true hsub
    have hfd : fd = s.listenfd := List.mem_singleton.mp (hrs List.mem_cons_self)
    exact List.mem_cons.mpr (Or.inl hfd.symm)

/-- From where only the connection is left to be served, an iteration comes back to the head of the loop
    in order: a request uses the connection and opens or closes nothing. -/
theorem Custodito.resto (h : Custodito listenfd past s e) (hlisten : 0 ≤ listenfd ∧ listenfd < 1024)
    {s' : Server} {e' : Descrittori} {tr : List Evento} {rs : List Int} (hs' : Ordinato s' e')
    (hl : s'.listenfd = listenfd) (hc : s'.connfd < 1024) (htr : tr ≠ [])
    (hsel : ∀ tr', tr <+: tr' → ∀ u ∈ usiSelect s tr', u.NeiLimiti) :
    (s'.resto rs).Safe (RisposteServer listenfd s)
      (fun v o => (v.1 = [] → Ordinato s v.2) ∧ ∀ u ∈ s.usi v.1, u.NeiLimiti)
      (fun s'' v => Custodito listenfd (past ++ [(s, v.1)]) s'' v.2) (tr, e') := by
  have hne : ∀ tr', tr <+: tr' → tr' ≠ [] := by
    rintro tr' hpre rfl
    exact htr (List.prefix_nil.mp hpre)
  refine safe_resto (fun v o hv hpre => ⟨fun hnil => absurd hnil (hne _ hpre), ?_⟩) ?_
  · exact h.usi hlisten (hsel _ hpre)
  · intro s'' v hc' hl' hv hpre
    refine h.dopo hlisten ⟨?_, ?_⟩ (hl'.trans hl) (hc' ▸ hc) (hne _ hpre) (hsel _ hpre)
    · rw [hv, hc']
      exact hs'.aperti
    · rw [hv]
      exact hs'.finiti

/-- **An iteration** that follows the rules keeps the connection. The three ways through it: nobody came
    and nothing was sent, a first connection, a request on the one there is. -/
theorem safe_iterazione (hlisten : 0 ≤ listenfd ∧ listenfd < 1024) (h : Custodito listenfd past s e) :
    (Server.passo s).Safe (RisposteServer listenfd s)
      (fun v o => (v.1 = [] → Ordinato s v.2) ∧ ∀ u ∈ s.usi v.1, u.NeiLimiti)
      (fun s' v => Custodito listenfd (past ++ [(s, v.1)]) s' v.2) ([], e) := by
  have hascolto : (Uso.descrittore s.listenfd).NeiLimiti := by
    rw [h.listenfd_eq]
    exact hlisten
  rw [Server.passo_eq]
  refine ⟨⟨fun _ => h.ordinato, h.usi hlisten fun u hu => absurd hu List.not_mem_nil⟩, ?_⟩
  rintro pronti ⟨tr₁, e₁⟩ ⟨hans, rfl, -⟩
  have hselect : (if sottoinsiemi s.osservati [] pronti ∧ pronti ≠ some ([], []) then some e else none) =
      some e₁ := hans
  split at hselect
  case isFalse => cases hselect
  case isTrue hpronti =>
  obtain rfl := Option.some.inj hselect
  show (if s.listenfd ∈ pronti.elim s.osservati Prod.fst then _ else _ : Programma Server).Safe _ _ _ _
  by_cases hl : s.listenfd ∈ pronti.elim s.osservati Prod.fst
  · rw [if_pos hl]
    refine ⟨⟨fun hnil => absurd hnil (List.cons_ne_nil _ _), h.usi hlisten fun u hu => ?_⟩, ?_⟩
    · have hu' : u ∈ Uso.descrittore s.listenfd :: (if s.listenfd ∈ pronti.elim s.osservati Prod.fst
          then usiAccept [] else _) := hu
      rw [if_pos hl] at hu'
      rw [List.mem_singleton.mp hu']
      exact hascolto
    · rintro fd ⟨tr₂, e₂⟩ ⟨hans₂, rfl, hreg⟩
      obtain ⟨hneg, hpos, hfd⟩ := hreg.1 s.listenfd fd rfl
      have haccept : (if fd < 0 then some e else if fd = listenfd ∨ fd ∈ e.aperti then none
          else some { e with aperti := fd :: e.aperti }) = some e₂ := hans₂
      rw [if_neg (Int.not_lt.mpr hpos)] at haccept
      split at haccept
      case isTrue => cases haccept
      case isFalse =>
      obtain rfl := Option.some.inj haccept
      -- there was no connection, so this is the only one
      have hvuoto : e.aperti = [] := h.ordinato.aperti.trans (if_neg (by omega))
      have hmeno : (-1 : Int) < 0 := by decide
      refine h.resto hlisten ⟨?_, h.ordinato.finiti⟩ h.listenfd_eq hfd (List.cons_ne_nil _ _) ?_
      · show fd :: e.aperti = if fd > -1 then [fd] else []
        rw [hvuoto, if_pos (Int.lt_of_lt_of_le hmeno hpos)]
      · intro tr htr u hu
        rw [usiSelect_accettata hl htr] at hu
        rcases List.mem_pair.mp hu with rfl | rfl
        · exact hascolto
        · exact ⟨hpos, hfd⟩
  · rw [if_neg hl]
    -- so `select` has reported the connection, and there is one
    have hconn : s.connfd > -1 := by
      by_contra hc
      exact hl (listenfd_pronto hc hpronti.1 hpronti.2)
    refine h.resto hlisten h.ordinato h.listenfd_eq h.piccolo (List.cons_ne_nil _ _) fun tr htr u hu => ?_
    rw [usiSelect_nessuna hl htr] at hu
    rcases List.mem_pair.mp hu with rfl | rfl
    · exact hascolto
    · exact ⟨by omega, h.piccolo⟩

end Iterazione

/-! ## Every run -/

section Run

variable {listenfd : Int} {request : Buffer 4} {d : StatoServer}

/-- **The server keeps exactly one connection** in every run that follows the rules: `accept` is only
    called while `connfd` is negative and returns a descriptor that fits an `fd_set`, and the connection
    does not end. Then `connfd`, the sets, `max_fd` and the open descriptors agree at the head of every
    iteration. -/
theorem una_connessione (hlisten : 0 ≤ listenfd ∧ listenfd < 1024)
    (hd : Solo.Reach (ascolto listenfd) Server.Regolata (serverAvviato listenfd request) d) : Server.Custodita d := by
  have hsafe := Solo.Reach.local (A := fun _ s _ o r => regole s o r) (B := fun _ _ _ => True)
    (I := Custodito listenfd) (P := fun s v o =>
      (v.1 = [] → Server.Ordinato s v.2) ∧ ∀ u ∈ s.usi v.1,
        u.NeiLimiti) ?_ (fun _ _ _ _ => trivial) ?_ trivial
    (fun past s e h _ => safe_iterazione hlisten h) hd
  · refine hsafe.now (fun o h => h) fun s h => ?_
    obtain ⟨htr, husi⟩ := h.passati _ (List.mem_append_right _ (List.mem_singleton_self _))
    exact ⟨fun hnil => absurd hnil htr, husi⟩
  · intro d o r hm
    refine ⟨fun lfd fd heq => ?_, fun fd n heq => ?_⟩
    · cases heq
      exact hm.1 lfd fd rfl
    · cases heq
      exact hm.2 fd n rfl
  · refine ⟨⟨rfl, rfl⟩, rfl, by show (-1 : Int) < 1024; decide, fun t ht => absurd ht List.not_mem_nil⟩

/-- The secretary connects, as descriptor 4: it is `connfd`, and the only one open. -/
theorem una_connessione_prima : ∃ d : StatoServer, d.turn.connfd = 4 ∧ d.env.aperti = [4] ∧
    Server.Custodita d := by
  have h₀ : Solo.Reach (ascolto 3) Server.Regolata (serverAvviato 3 (Buffer.zero 4)) _ := .init
  have h₁ := h₀.act rfl (some ([3], [])) ⟨nofun, nofun⟩ rfl
  have h₂ := h₁.act rfl 4 ⟨fun _ _ h => by cases h; decide, nofun⟩ rfl
  have h₃ := h₂.turn rfl ⟨nofun, nofun⟩
  exact ⟨_, rfl, rfl, una_connessione (by decide) h₃⟩

/-- A second connection replaces the first in `connfd`; the first stays open and in `master_set`, and
    nobody reads from it any more. -/
theorem connessione_persa : ¬ ∀ {listenfd : Int} {request : Buffer 4} {d : StatoServer},
    0 ≤ listenfd ∧ listenfd < 1024 →
    Solo.Reach (ascolto listenfd) (fun _ _ => True) (serverAvviato listenfd request) d → Server.Custodita d := by
  intro h
  have h₀ : Solo.Reach (ascolto 3) (fun _ _ => True) (serverAvviato 3 (Buffer.zero 4)) _ := .init
  have h₁ := h₀.act rfl (some ([3], [])) trivial rfl
  have h₂ := h₁.act rfl 4 trivial rfl
  have h₃ := h₂.turn rfl trivial
  have h₄ := h₃.act rfl (some ([3], [])) trivial rfl
  have h₅ := h₄.act rfl 5 trivial rfl
  have h₆ := h₅.turn rfl trivial
  exact absurd ((h (by decide) h₆).1 rfl).aperti (by decide)

end Run

end Universita

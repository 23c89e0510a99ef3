/-
  ONE HOST — a file with a port number, sockets and ports, and the programs that start there.

  Servers, secretaries and students are started on one host, in any number and order, and their first steps
  interleave; each may be stopped at any moment.  They meet through two things that the host has once: the
  file with the port number, and the table of who has which port.

  Around them are other programs (`Contorno`): a port may have a listener that is none of the three, such as MySQL's
  server, and a socket that connects is given a port of its own, on which TCP can join it to itself.  So that a
  `connect` succeeded says little; who can be at the other end is what `raggiunge` spells out.

  The crux is `Regola`, an invariant of the file and the table that no program alone can keep.  The number in the file
  never falls below the first one, and has grown by one for each server that has read it, AT MOST: two servers that
  read before either writes get the same number, which is why the count is an upper bound and not an equality.  With it
  the numbers that any server binds to or any secretary connects to lie in a range known beforehand.

  Contents:
  1. `Contorno`, `Host`, `Host.chiama` — the surroundings; the file, the sockets, the ports, and the answers to the
     calls of `Preparazione`; `chiama_…` — what each answer says.
  2. `Posto` — what one process sees of it.
  3. `Regola` — what holds of the file and the ports: the number grows by one for each server that reads it, at most.
  4. `Permette`, **`Regola.act`**, `Regola.stop` — what keeps it.
-/
import Mathlib.Data.Finset.Card
import Universita.Lib.Pool
import Universita.Preparazione

set_option linter.unusedVariables false

namespace Universita

open Lib

/-! ## The host -/

/-- What a descriptor stands for, in the order in which a program brings it there. -/
inductive Socket where
  /-- A socket, and no more. -/
  | nuova
  /-- It is bound to a port, and may listen there. -/
  | legata (porta : Nat)
  /-- It is connected. -/
  | connessa (capo : Capo)
deriving DecidableEq

/-- What is around the programs on their host: its addresses, the ports other programs may listen on,
    and those the kernel gives to sockets that connect. All three are arbitrary; the result names those
    it needs to be free. -/
structure Contorno where
  /-- The addresses of this host. -/
  locale : Buffer 4 → Bool
  /-- The ports on which its other programs may listen, some of the time. -/
  estranei : Nat → Bool
  /-- The ports it gives to sockets that connect without having one. -/
  effimere : Nat → Bool

/-- No other program listens on a port from `lo` to `hi`, and none is given to a socket that connects. -/
def Contorno.Sgombro (c : Contorno) (lo hi : Int) : Prop :=
  ∀ q : Nat, lo ≤ q → q ≤ hi → c.estranei q = false ∧ c.effimere q = false

/-- The port file, the sockets of each process, and who has which port: the process, its descriptor, and whether it
    listens. -/
structure Host where
  /-- The text of `porta/porta.txt`, if there is such a file. -/
  portaTxt : Option Bytes
  /-- The sockets of each process, by descriptor. -/
  sockets : Nat → Int → Option Socket
  /-- Who has a port: the process, its descriptor, whether it listens. -/
  porte : Nat → Option (Nat × Int × Bool)

namespace Host

/-- The descriptor `fd` of process `i` stands for `p` now. -/
def conSocket (e : Host) (i : Nat) (fd : Int) (p : Socket) : Host :=
  { e with sockets := Function.update e.sockets i (Function.update (e.sockets i) fd (some p)) }

/-- The port belongs to process `i` now. -/
def conPorta (e : Host) (porta i : Nat) (fd : Int) (ascolta : Bool) : Host :=
  { e with porte := Function.update e.porte porta (some (i, fd, ascolta)) }

/-- Who can answer at an address.  On a port of this host that none of the three programs has, another one may listen,
    and a socket that connects may have it. -/
def raggiunge (c : Contorno) (e : Host) (servaddr : SockaddrIn) : Capo → Bool
  | .qui j fd => c.locale servaddr.sinAddr && e.porte servaddr.porta = some (j, fd, true)
  | .estraneo => c.locale servaddr.sinAddr && c.estranei servaddr.porta && (e.porte servaddr.porta).isNone
  | .connettente => c.locale servaddr.sinAddr && c.effimere servaddr.porta && (e.porte servaddr.porta).isNone
  | .altrove => !c.locale servaddr.sinAddr

/-- An answer to process `i`. A port has one socket; port 0 stands for any free one. A connect to an
    address of this host reaches whoever listens on the port: one of the programs, another one, or a
    socket that connects as well. -/
def chiama (c : Contorno) (e : Host) (i : Nat) : (o : Op) → o.Ans → Option Host
  | .socket _ _ _, fd =>
    if fd < 0 then some e
    else if e.sockets i fd = none then some (e.conSocket i fd .nuova) else none
  | .bind fd servaddr, porta => match porta with
    | none => some e
    | some q =>
      if e.sockets i fd = some .nuova ∧ (servaddr.porta = 0 ∨ q = servaddr.porta) ∧ e.porte q = none then
        some ((e.conSocket i fd (.legata q)).conPorta q i fd false)
      else none
  | .listen fd _, ok =>
    if ok then match e.sockets i fd with
      | some (.legata q) => some (e.conPorta q i fd true)
      | _ => none
    else some e
  | .connect fd servaddr, capo => match capo with
    | none => some e
    | some capo =>
      if e.sockets i fd = some .nuova ∧ e.raggiunge c servaddr capo then
        some (e.conSocket i fd (.connessa capo))
      else none
  | .fopen _ _, fp => if fp && e.portaTxt.isNone then none else some e
  | .fscanf, bs => if e.portaTxt = some bs then some e else none
  | .fclose bs, ok => some (if ok then { e with portaTxt := e.portaTxt.map fun old => overwrite old bs } else e)
  | _, _ => some e

/-- Process `i` is gone, and its sockets with it: its ports are free for others. -/
def senza (e : Host) (i : Nat) : Host :=
  { e with
    sockets := Function.update e.sockets i fun _ => none
    porte := fun q => match e.porte q with
      | some (j, x) => if j = i then none else some (j, x)
      | none => none }

section Chiama

variable {c : Contorno} {e e' : Host} {i : Nat} {fd : Int} {servaddr : SockaddrIn}

/-- A new socket has a descriptor that was free, or there is none. -/
theorem chiama_socket {famiglia tipo protocollo : Nat}
    (h : e.chiama c i (.socket famiglia tipo protocollo) fd = some e') :
    fd < 0 ∧ e' = e ∨ 0 ≤ fd ∧ e.sockets i fd = none ∧ e' = e.conSocket i fd .nuova := by
  simp only [chiama] at h
  split at h
  · rename_i hneg
    exact .inl ⟨hneg, (Option.some.inj h).symm⟩
  · rename_i hneg
    split at h
    · rename_i hfd
      exact .inr ⟨Int.not_lt.mp hneg, hfd, (Option.some.inj h).symm⟩
    · cases h

/-- A port that is bound had no socket before, and is the one that was asked for, unless that was port 0. -/
theorem chiama_bind {q : Nat} (h : e.chiama c i (.bind fd servaddr) (some q) = some e') :
    e.sockets i fd = some .nuova ∧ (servaddr.porta = 0 ∨ q = servaddr.porta) ∧ e.porte q = none ∧
      e' = (e.conSocket i fd (.legata q)).conPorta q i fd false := by
  simp only [chiama] at h
  split at h
  · rename_i hc
    exact ⟨hc.1, hc.2.1, hc.2.2, (Option.some.inj h).symm⟩
  · cases h

theorem chiama_listen {backlog : Nat} (h : e.chiama c i (.listen fd backlog) true = some e') :
    ∃ q, e.sockets i fd = some (.legata q) ∧ e' = e.conPorta q i fd true := by
  simp only [chiama, if_pos] at h
  split at h
  · rename_i q hq
    exact ⟨q, hq, (Option.some.inj h).symm⟩
  · cases h

/-- A connection has someone at its other end, who could be reached at that address. -/
theorem chiama_connect {capo : Capo} (h : e.chiama c i (.connect fd servaddr) (some capo) = some e') :
    e.sockets i fd = some .nuova ∧ e.raggiunge c servaddr capo = true ∧
      e' = e.conSocket i fd (.connessa capo) := by
  simp only [chiama] at h
  split at h
  · rename_i hc
    exact ⟨hc.1, hc.2, (Option.some.inj h).symm⟩
  · cases h

/-- To say of a bound socket that it is bound says nothing new. -/
theorem conSocket_self {x : Socket} (h : e.sockets i fd = some x) : e.conSocket i fd x = e := by
  rw [conSocket, ← h, Function.update_eq_self, Function.update_eq_self]

/-- A process that is gone has no port, and the others keep theirs; the port is free for whoever asks next. -/
theorem senza_porte {q j : Nat} {x : Int × Bool} :
    (e.senza i).porte q = some (j, x) ↔ j ≠ i ∧ e.porte q = some (j, x) := by
  simp only [senza]
  cases e.porte q with
  | none => simp
  | some y =>
    obtain ⟨j', y⟩ := y
    by_cases hj : j' = i
    · subst hj
      simp only [if_pos]
      constructor
      · intro h
        cases h
      · rintro ⟨hne, heq⟩
        exact absurd (Prod.mk.inj (Option.some.inj heq)).1.symm hne
    · simp only [if_neg hj]
      constructor
      · intro heq
        obtain ⟨rfl, -⟩ := Prod.mk.inj (Option.some.inj heq)
        exact ⟨hj, heq⟩
      · exact fun h => h.2

end Chiama

end Host

/-- The host as a world of any number of processes, each of which may be stopped at any moment. -/
def rete (c : Contorno) : Pool Op Op.Ans Host := ⟨Host.chiama c, Host.senza⟩

/-- A state of all programs and the host. -/
abbrev StatoRete := Pool.State Op Op.Ans Pronto Host

/-- Nothing is started yet; the file is there. -/
def acceso (chi : Nat → Processo) (file : Bytes) : StatoRete :=
  Pool.start (fun i => (chi i).prepara) ⟨some file, fun _ _ => none, fun _ => none⟩

/-- What a process sees: its answered calls, its sockets and its ports. -/
structure Posto where
  /-- The calls that were answered to it. -/
  traccia : List (Event Op Op.Ans)
  /-- Its sockets ... -/
  sockets : Int → Option Socket
  /-- ... and its ports, with their descriptor and whether it listens there. -/
  porte : Nat → Option (Int × Bool)

/-- What process `i` sees. -/
def posto (i : Nat) (d : StatoRete) : Posto where
  traccia := d.trace i
  sockets := d.env.sockets i
  porte q := match d.env.porte q with
    | some (j, x) => if j = i then some x else none
    | none => none

/-! ## What holds of the whole -/

/-- The ports that the programs bind to. -/
def Ammessa : Processo → Nat → Prop
  | .server, q => 1026 ≤ q ∧ q ≤ 65535
  | .segreteria _, q => q = 1025
  | .studente _, _ => False

open Classical in

/-- The servers that have read the file, as a finite set: each of them can have added one to the number. -/
noncomputable def lettori (chi : Nat → Processo) (servers : Finset Nat) (d : StatoRete) : Finset Nat :=
  servers.filter fun i => chi i = .server ∧ ∃ bs, ⟨.fscanf, bs⟩ ∈ d.trace i

/-- Being among them is in the trace. -/
theorem mem_lettori {chi : Nat → Processo} {servers : Finset Nat} {d : StatoRete} {i : Nat} :
    i ∈ lettori chi servers d ↔ i ∈ servers ∧ chi i = .server ∧ ∃ bs, ⟨.fscanf, bs⟩ ∈ d.trace i := by
  classical exact Finset.mem_filter

/-- **The rule of the host**: each port belongs to a program that may bind it, the file holds a number,
    and what a server has read of the file leaves room for the one it adds. -/
structure Regola (chi : Nat → Processo) (servers : Finset Nat) (p : Int) (d : StatoRete) : Prop where
  /-- The file holds a numeral between the first number and that plus the servers that have read it. -/
  file : ∀ bs, d.env.portaTxt = some bs → ∃ n, Numeral n bs ∧ p ≤ n ∧ n ≤ p + (lettori chi servers d).card
  /-- What a server read leaves room for the one it adds. -/
  letto : ∀ i bs, chi i = .server → ⟨.fscanf, bs⟩ ∈ d.trace i →
    ∃ n, Numeral n bs ∧ p ≤ n ∧ n + 1 ≤ p + (lettori chi servers d).card
  /-- A port is with a process that binds to such ports. -/
  porte : ∀ q i fd b, d.env.porte q = some (i, fd, b) → Ammessa (chi i) q
  /-- A bound socket has its port. -/
  sockets : ∀ i fd q, d.env.sockets i fd = some (.legata q) → ∃ b, d.env.porte q = some (i, fd, b)

/-- The calls that keep it: a server reads the file once and writes the next number, and nobody writes
    anything else or binds a port that is not his. -/
def Permette (chi : Nat → Processo) (i : Nat) (v : Posto) : Op → Prop
  | .fscanf => chi i = .server → ∀ bs, ⟨.fscanf, bs⟩ ∉ v.traccia
  | .fclose testo => testo = [] ∨ chi i = .server ∧ ∃ bs n, ⟨.fscanf, bs⟩ ∈ v.traccia ∧ Numeral n bs ∧
      testo = dec (n + 1) ++ [10]
  | .bind _ servaddr => servaddr.porta ≠ 0 ∧ Ammessa (chi i) servaddr.porta
  | _ => True

/-! ## What a move does to it -/

section Regola

variable {c : Contorno} {chi : Nat → Processo} {servers : Finset Nat} {p : Int} {d d' : StatoRete}
  {i j : Nat} {o : Op} {r : o.Ans}

theorem mem_traccia (hs : (rete c).step d (.act i o r) = some d') {ev : Event Op Op.Ans}
    (h : ev ∈ d.trace j) : ev ∈ d'.trace j := by
  obtain ⟨k, e, -, -, rfl⟩ := Pool.step_act _ hs
  by_cases hij : j = i
  · subst hij
    show ev ∈ Function.update d.trace j (d.trace j ++ [⟨o, r⟩]) j
    rw [Function.update_self]
    exact List.mem_append_left _ h
  · show ev ∈ Function.update d.trace i (d.trace i ++ [⟨o, r⟩]) j
    rw [Function.update_of_ne hij]
    exact h

/-- What is new in the trace is the answer, and it is new in the trace of the process that was answered. -/
theorem nuova_traccia (hs : (rete c).step d (.act i o r) = some d') {ev : Event Op Op.Ans}
    (h : ev ∈ d'.trace j) : ev ∈ d.trace j ∨ j = i ∧ ev = ⟨o, r⟩ := by
  obtain ⟨k, e, -, -, rfl⟩ := Pool.step_act _ hs
  by_cases hij : j = i
  · subst hij
    have h : ev ∈ Function.update d.trace j (d.trace j ++ [⟨o, r⟩]) j := h
    rw [Function.update_self, List.mem_append, List.mem_singleton] at h
    rcases h with h | h
    · exact .inl h
    · exact .inr ⟨rfl, h⟩
  · have h : ev ∈ Function.update d.trace i (d.trace i ++ [⟨o, r⟩]) j := h
    rw [Function.update_of_ne hij] at h
    exact .inl h

theorem lettori_mono (hs : (rete c).step d (.act i o r) = some d') :
    lettori chi servers d ⊆ lettori chi servers d' := by
  intro j hj
  obtain ⟨hmem, hchi, bs, hbs⟩ := mem_lettori.mp hj
  exact mem_lettori.mpr ⟨hmem, hchi, bs, mem_traccia hs hbs⟩

/-- A move that does not touch the file and reads nothing from it, or not as a server, leaves the number
    and the servers that have read it: what is left to show is about ports and sockets. -/
theorem Regola.senzaFile (h : Regola chi servers p d) (hs : (rete c).step d (.act i o r) = some d')
    (hfile : d'.env.portaTxt = d.env.portaTxt) (ho : ∀ bs, chi i = .server → (⟨o, r⟩ : Event Op Op.Ans) ≠ ⟨.fscanf, bs⟩)
    (hporte : ∀ q i fd b, d'.env.porte q = some (i, fd, b) → Ammessa (chi i) q)
    (hsockets : ∀ i fd q, d'.env.sockets i fd = some (.legata q) → ∃ b, d'.env.porte q = some (i, fd, b)) :
    Regola chi servers p d' := by
  have hle : ((lettori chi servers d).card : Int) ≤ (lettori chi servers d').card :=
    Int.ofNat_le.mpr (Finset.card_le_card (lettori_mono hs))
  refine ⟨?_, ?_, hporte, hsockets⟩
  · intro bs hbs
    rw [hfile] at hbs
    obtain ⟨n, hn, hmin, hmax⟩ := h.file bs hbs
    exact ⟨n, hn, hmin, by omega⟩
  · intro j bs hj hbs
    rcases nuova_traccia hs hbs with hbs | ⟨rfl, hev⟩
    · obtain ⟨n, hn, hmin, hmax⟩ := h.letto j bs hj hbs
      exact ⟨n, hn, hmin, by omega⟩
    · exact absurd hev.symm (ho bs hj)

/-- A server reads the file: it has not done so before, and what it reads leaves room for each server
    that is still to come. -/
theorem Regola.legge (h : Regola chi servers p d) (hservers : ∀ i, chi i = .server → i ∈ servers)
    {bs : Bytes} (hs : (rete c).step d (.act i .fscanf bs) = some d') (hi : chi i = .server)
    (hprima : ∀ bs, ⟨.fscanf, bs⟩ ∉ d.trace i) : Regola chi servers p d' := by
  -- one reader more, so the bound for the file moves up by one, and there is room for what this one
  -- will add
  have hcard : (lettori chi servers d').card = (lettori chi servers d).card + 1 := by
    have hnon : i ∉ lettori chi servers d := by
      intro hmem
      obtain ⟨-, -, bs', hbs'⟩ := mem_lettori.mp hmem
      exact hprima bs' hbs'
    have hinsert : lettori chi servers d' = insert i (lettori chi servers d) := by
      ext j
      rw [Finset.mem_insert]
      constructor
      · intro hj
        obtain ⟨hmem, hchi, bs', hbs'⟩ := mem_lettori.mp hj
        rcases nuova_traccia hs hbs' with hbs' | ⟨rfl, -⟩
        · exact .inr (mem_lettori.mpr ⟨hmem, hchi, bs', hbs'⟩)
        · exact .inl rfl
      · rintro (rfl | hj)
        · refine mem_lettori.mpr ⟨hservers j hi, hi, bs, ?_⟩
          obtain ⟨k, e, -, -, rfl⟩ := Pool.step_act _ hs
          show _ ∈ Function.update d.trace j _ j
          rw [Function.update_self]
          exact List.mem_append_right _ List.mem_cons_self
        · exact lettori_mono hs hj
    rw [hinsert, Finset.card_insert_of_notMem hnon]
  obtain ⟨k, e, -, he, heq⟩ := Pool.step_act _ hs
  have henv : d'.env = d.env ∧ d.env.portaTxt = some bs := by
    change (if d.env.portaTxt = some bs then some d.env else none) = some e at he
    split at he
    · rename_i hfile
      rw [heq]
      exact ⟨(Option.some.inj he).symm, hfile⟩
    · cases he
  obtain ⟨henv, hfile⟩ := henv
  refine ⟨?_, ?_, ?_, ?_⟩
  · intro bs' hbs'
    rw [henv] at hbs'
    obtain ⟨n, hn, hmin, hmax⟩ := h.file bs' hbs'
    exact ⟨n, hn, hmin, by omega⟩
  · intro j bs' hj hbs'
    rcases nuova_traccia hs hbs' with hbs' | ⟨-, hev⟩
    · obtain ⟨n, hn, hmin, hmax⟩ := h.letto j bs' hj hbs'
      exact ⟨n, hn, hmin, by omega⟩
    · -- what it has read is what is in the file
      obtain rfl : bs' = bs := eq_of_heq (Sigma.mk.inj hev).2
      obtain ⟨n, hn, hmin, hmax⟩ := h.file bs' hfile
      exact ⟨n, hn, hmin, by omega⟩
  · rw [henv]
    exact h.porte
  · rw [henv]
    exact h.sockets

/-- A server writes the number back: one more than what it read, which `letto` has kept room for. -/
theorem Regola.scrive (h : Regola chi servers p d) {ok : Bool} {bs : Bytes} {n : Int} (hi : chi i = .server)
    (hbs : ⟨.fscanf, bs⟩ ∈ d.trace i) (hn : Numeral n bs)
    (hs : (rete c).step d (.act i (.fclose (dec (n + 1) ++ [10])) ok) = some d') : Regola chi servers p d' := by
  have hle : ((lettori chi servers d).card : Int) ≤ (lettori chi servers d').card :=
    Int.ofNat_le.mpr (Finset.card_le_card (lettori_mono hs))
  -- what it writes is one more than what it read, and that left room for one
  obtain ⟨n', hn', hmin, hmax⟩ := h.letto i bs hi hbs
  obtain rfl : n = n' := Option.some.inj ((scanD_eq_some.mpr hn).symm.trans (scanD_eq_some.mpr hn'))
  obtain ⟨k, e, -, he, heq⟩ := Pool.step_act _ hs
  have henv : d'.env.porte = d.env.porte ∧ d'.env.sockets = d.env.sockets ∧
      (d'.env.portaTxt = d.env.portaTxt ∨
        d'.env.portaTxt = d.env.portaTxt.map fun old => overwrite old (dec (n + 1) ++ [10])) := by
    rw [heq]
    rw [← Option.some.inj he]
    cases ok with
    | true => exact ⟨rfl, rfl, .inr rfl⟩
    | false => exact ⟨rfl, rfl, .inl rfl⟩
  obtain ⟨hporte, hsockets, hfile⟩ := henv
  refine ⟨?_, ?_, ?_, ?_⟩
  · intro bs' hbs'
    rcases hfile with hfile | hfile
    · rw [hfile] at hbs'
      obtain ⟨m, hm, hmin', hmax'⟩ := h.file bs' hbs'
      exact ⟨m, hm, hmin', by omega⟩
    · -- the newline ends the number, whatever is left of the old text behind it
      rw [hfile] at hbs'
      obtain ⟨old, -, rfl⟩ := Option.map_eq_some_iff.mp hbs'
      refine ⟨n + 1, ?_, by omega, by omega⟩
      rw [overwrite, List.append_assoc]
      exact numeral_dec (n + 1) (by decide) _
  · intro j bs' hj hbs'
    rcases nuova_traccia hs hbs' with hbs' | ⟨-, hev⟩
    · obtain ⟨m, hm, hmin', hmax'⟩ := h.letto j bs' hj hbs'
      exact ⟨m, hm, hmin', by omega⟩
    · exact absurd (Sigma.mk.inj hev).1 (by simp)
  · rw [hporte]
    exact h.porte
  · rw [hporte, hsockets]
    exact h.sockets

theorem Regola.ferma (h : Regola chi servers p d) (hs : (rete c).step d (.act i o r) = some d')
    (henv : d'.env = d.env) (ho : ∀ bs, chi i = .server → (⟨o, r⟩ : Event Op Op.Ans) ≠ ⟨.fscanf, bs⟩) :
    Regola chi servers p d' := by
  refine h.senzaFile hs (by rw [henv]) ho ?_ ?_
  · rw [henv]
    exact h.porte
  · rw [henv]
    exact h.sockets

/-- A socket that was none, or was new, and is not bound now: no port is concerned. -/
theorem Regola.socket (h : Regola chi servers p d) (hs : (rete c).step d (.act i o r) = some d')
    (ho : o ≠ .fscanf) {fd : Int} {x : Socket} (hx : ∀ q, x ≠ .legata q) (henv : d'.env = d.env.conSocket i fd x) :
    Regola chi servers p d' := by
  refine h.senzaFile hs (by rw [henv]; rfl) (fun bs _ hev => ho (Sigma.mk.inj hev).1) ?_ ?_
  · rw [henv]
    exact h.porte
  · intro j fd' q hj
    rw [henv] at hj ⊢
    by_cases hij : j = i
    · subst hij
      have hj : Function.update d.env.sockets j (Function.update (d.env.sockets j) fd (some x)) j fd' = _ := hj
      rw [Function.update_self] at hj
      by_cases hfd : fd' = fd
      · subst hfd
        rw [Function.update_self] at hj
        exact absurd (Option.some.inj hj) (hx q)
      · rw [Function.update_of_ne hfd] at hj
        exact h.sockets j fd' q hj
    · have hj : Function.update d.env.sockets i (Function.update (d.env.sockets i) fd (some x)) j fd' = _ := hj
      rw [Function.update_of_ne hij] at hj
      exact h.sockets j fd' q hj

/-- The port `q` has a new entry, of a socket that is bound to it, and of a program that may be bound
    there. -/
theorem Regola.porta (h : Regola chi servers p d) (hs : (rete c).step d (.act i o r) = some d')
    (ho : o ≠ .fscanf) {q : Nat} {fd : Int} {b : Bool} (hq : Ammessa (chi i) q)
    (hlibera : ∀ j fd' b', d.env.porte q = some (j, fd', b') → j = i ∧ fd' = fd)
    (henv : d'.env = (d.env.conSocket i fd (.legata q)).conPorta q i fd b) : Regola chi servers p d' := by
  refine h.senzaFile hs (by rw [henv]; rfl) (fun bs _ hev => ho (Sigma.mk.inj hev).1) ?_ ?_
  · intro q' j fd' b' hj
    rw [henv] at hj
    have hj : Function.update d.env.porte q (some (i, fd, b)) q' = _ := hj
    by_cases hqq : q' = q
    · subst hqq
      rw [Function.update_self] at hj
      obtain ⟨rfl, -⟩ := Prod.mk.inj (Option.some.inj hj)
      exact hq
    · rw [Function.update_of_ne hqq] at hj
      exact h.porte q' j fd' b' hj
  · intro j fd' q' hj
    rw [henv] at hj ⊢
    -- its entry is the new one, or the one it had
    have hnuova : j = i ∧ fd' = fd ∧ q' = q ∨ ∃ b', d.env.porte q' = some (j, fd', b') := by
      by_cases hij : j = i
      · subst hij
        have hj : Function.update d.env.sockets j (Function.update (d.env.sockets j) fd (some (.legata q))) j fd' =
          _ := hj
        rw [Function.update_self] at hj
        by_cases hfd : fd' = fd
        · subst hfd
          rw [Function.update_self] at hj
          exact .inl ⟨rfl, rfl, (Socket.legata.inj (Option.some.inj hj)).symm⟩
        · rw [Function.update_of_ne hfd] at hj
          exact .inr (h.sockets j fd' q' hj)
      · have hj : Function.update d.env.sockets i (Function.update (d.env.sockets i) fd (some (.legata q))) j fd' =
          _ := hj
        rw [Function.update_of_ne hij] at hj
        exact .inr (h.sockets j fd' q' hj)
    show ∃ b', Function.update d.env.porte q (some (i, fd, b)) q' = some (j, fd', b')
    rcases hnuova with ⟨rfl, rfl, rfl⟩ | ⟨b', hb'⟩
    · exact ⟨b, Function.update_self ..⟩
    · by_cases hqq : q' = q
      · subst hqq
        obtain ⟨rfl, rfl⟩ := hlibera j fd' b' hb'
        exact ⟨b, Function.update_self ..⟩
      · exact ⟨b', by rw [Function.update_of_ne hqq]; exact hb'⟩

/-- **A call that is permitted keeps the rule.** By the call: the file, the sockets, the ports, or none
    of them. -/
theorem Regola.act (h : Regola chi servers p d) (hservers : ∀ i, chi i = .server → i ∈ servers)
    (hP : Permette chi i (posto i d) o) (hs : (rete c).step d (.act i o r) = some d') :
    Regola chi servers p d' := by
  obtain ⟨k, e, -, he, heq⟩ := Pool.step_act _ hs
  have he : d.env.chiama c i o r = some e := he
  have henv : d'.env = e := by rw [heq]
  -- a call that leaves the host as it is keeps the rule, unless it is a server's reading of the file
  have ferma : (o = .fscanf → chi i ≠ .server) → e = d.env → Regola chi servers p d' := fun ho hee =>
    h.ferma hs (henv.trans hee) fun bs hi hev => ho (Sigma.mk.inj hev).1 hi
  cases o with
  | socket famiglia tipo protocollo =>
    rcases Host.chiama_socket he with ⟨-, hee⟩ | ⟨-, -, hee⟩
    · exact ferma (by simp) hee
    · exact h.socket hs (by simp) (by simp) (henv.trans hee)
  | bind fd servaddr =>
    cases r with
    | none => exact ferma (by simp) (Option.some.inj he).symm
    | some q =>
      obtain ⟨-, hq, hlibera, hee⟩ := Host.chiama_bind he
      obtain ⟨hne, hammessa⟩ := hP
      obtain rfl : q = servaddr.porta := hq.resolve_left hne
      exact h.porta hs (by simp) hammessa (fun j fd' b' hj => by rw [hlibera] at hj; cases hj) (henv.trans hee)
  | listen fd backlog =>
    cases r with
    | false => exact ferma (by simp) (Option.some.inj he).symm
    | true =>
      obtain ⟨q, hq, hee⟩ := Host.chiama_listen he
      obtain ⟨b, hb⟩ := h.sockets i fd q hq
      refine h.porta hs (by simp) (h.porte q i fd b hb) (fun j fd' b' hj => ?_)
        (henv.trans (by rw [Host.conSocket_self hq]; exact hee))
      -- the port of a bound socket is its own, so `listen` changes an entry of this process
      obtain ⟨rfl, hfd⟩ := Prod.mk.inj (Option.some.inj (hb.symm.trans hj))
      exact ⟨rfl, (Prod.mk.inj hfd).1.symm⟩
  | connect fd servaddr =>
    cases r with
    | none => exact ferma (by simp) (Option.some.inj he).symm
    | some capo =>
      obtain ⟨-, -, hee⟩ := Host.chiama_connect he
      exact h.socket hs (by simp) (by simp) (henv.trans hee)
  | fopen nome modo =>
    refine ferma (by simp) ?_
    change (if (r && d.env.portaTxt.isNone) = true then none else some d.env) = some e at he
    split at he
    · cases he
    · exact (Option.some.inj he).symm
  | fscanf =>
    -- a secretary's reading counts for nothing: it writes no number
    by_cases hi : chi i = .server
    · exact h.legge hservers hs hi (hP hi)
    · refine ferma (fun _ => hi) ?_
      change (if d.env.portaTxt = some r then some d.env else none) = some e at he
      split at he
      · exact (Option.some.inj he).symm
      · cases he
  | fclose testo =>
    rcases hP with rfl | ⟨hi, bs, n, hbs, hn, rfl⟩
    · refine ferma (by simp) ?_
      have he : (if r then { d.env with portaTxt := d.env.portaTxt.map fun old => overwrite old [] } else d.env) = e :=
        Option.some.inj he
      -- `fclose` with nothing printed leaves the text as it is
      have hfile : (d.env.portaTxt.map fun old => overwrite old []) = d.env.portaTxt := by
        cases d.env.portaTxt <;> rfl
      rw [hfile] at he
      rw [← he]
      split <;> rfl
    · exact h.scrive hi hbs hn hs
  | _ => exact ferma (by simp) (Option.some.inj he).symm

/-- The end of a process frees its ports and leaves the file as it is: what it has read stays counted,
    though it writes no more. -/
theorem Regola.stop (h : Regola chi servers p d) (hs : (rete c).step d (.stop i) = some d') :
    Regola chi servers p d' := by
  obtain rfl := Pool.step_stop _ hs
  refine ⟨?_, ?_, ?_, ?_⟩
  · exact h.file
  · exact h.letto
  · intro q j fd b hj
    exact h.porte q j fd b (Host.senza_porte.mp hj).2
  · intro j fd q hj
    have hj : Function.update d.env.sockets i (fun _ => none) j fd = some (.legata q) := hj
    by_cases hij : j = i
    · subst hij
      rw [Function.update_self] at hj
      cases hj
    · rw [Function.update_of_ne hij] at hj
      obtain ⟨b, hb⟩ := h.sockets j fd q hj
      exact ⟨b, Host.senza_porte.mpr ⟨hij, hb⟩⟩

end Regola

end Universita

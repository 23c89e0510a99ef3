/-
  THE MEETING — who is connected to whom when the loops begin.

  The server leaves the number of its port in a file, and the secretary looks it up there; between the two anything can
  happen, another server among it.  The student knows the secretary's port, 1025, and the secretary binds it.  Nothing is
  said on the connection itself about who is at its other end: no greeting, no version, no name.

  Each program is verified alone, against what it sees of the host (`Vede`): its own sockets and ports, and answers that
  come from states in which `Regola` holds.  `Sicuro` is the weakest precondition with these answers, and the proof of a
  program is one lemma a wrapper, composed by `Sicuro.bind` in the order of the source.  The rule of `Pool` then gives all
  of them at once, in every interleaving, with `Regola` as the invariant that their calls keep in return.

  The crux is what a successful `connect` proves (`Possibile`): at that address and port someone listened, or TCP joined
  two sockets that connect.  Whom the secretary can reach is then a question about the PORTS: a number of the file is
  bound by servers only, as long as nothing else on the host listens in that range and no socket that connects is given
  a port of it (`Contorno.Sgombro`).  The same for 1025 and the secretary.

  Contents:
  1. `Vede`, `Sicuro` — what a program sees of the host, and what it may do there; `vede_…` — what each answer tells.
  2. `sicuro_studente`, `sicuro_server`, `sicura_segreteria` — each program alone.
  3. `sicuri` — all of them, in every run.
  4. **`appuntamento`** — the secretary is connected to a server, the student to the secretary.
  5. `appuntamento_laboratorio`, `localhost_altrove`, `porta_effimera` — a morning that goes well, and two that do not.
-/
import Universita.Host

set_option linter.unusedVariables false

namespace Universita

open Lib

/-! ## Each program alone -/

/-- The call touches neither sockets nor ports: the console, the file, the client library of MySQL, and
    uninitialised memory. -/
def Op.Estranea : Op → Prop
  | .socket _ _ _ | .bind _ _ | .listen _ _ | .connect _ _ => False
  | _ => True

section Soli

variable {c : Contorno} {chi : Nat → Processo} {servers : Finset Nat} {p : Int}
  {C : StatoRete → Pool.Move Op Op.Ans → Prop} {i : Nat} {v v' : Posto} {o : Op} {r : o.Ans}

/-- The answers that process `i` sees, through its own view, in states in which the rule holds: all that
    may be assumed when a program is verified alone. -/
abbrev Vede (c : Contorno) (chi : Nat → Processo) (servers : Finset Nat) (p : Int)
    (C : StatoRete → Pool.Move Op Op.Ans → Prop) (i : Nat) : Posto → (o : Op) → o.Ans → Posto → Prop :=
  (rete c).answers C (Regola chi servers p) (posto i) i

/-- Where the sockets and ports of the host are those of before, so are one's own. -/
theorem posto_ferma {d d' : StatoRete} (h : d'.env.sockets = d.env.sockets) (hp : d'.env.porte = d.env.porte) :
    (posto i d').sockets = (posto i d).sockets ∧ (posto i d').porte = (posto i d).porte := by
  simp only [posto, h, hp, and_self]

/-- A port that was given to process `i` is among its ports. Of the whole table a process sees its own
    entries only, and this is how they change. -/
theorem posto_conPorta {d d' : StatoRete} {e : Host} {q : Nat} {fd : Int} {b : Bool}
    (he : e.porte = d.env.porte) (hd : d'.env = e.conPorta q i fd b) :
    (posto i d').porte = Function.update (posto i d).porte q (some (fd, b)) := by
  funext q'
  have hporte : d'.env.porte q' = Function.update d.env.porte q (some (i, fd, b)) q' := by rw [hd, ← he]; rfl
  by_cases hqq : q' = q
  · subst hqq
    rw [Function.update_self] at hporte ⊢
    simp only [posto, hporte, if_pos]
  · rw [Function.update_of_ne hqq] at hporte ⊢
    simp only [posto, hporte]

theorem posto_conSocket {d d' : StatoRete} {fd : Int} {x : Socket}
    (hd : d'.env.sockets = (d.env.conSocket i fd x).sockets) :
    (posto i d').sockets = Function.update (posto i d).sockets fd (some x) := by
  show d'.env.sockets i = _
  rw [hd]
  exact Function.update_self ..

theorem vede_traccia (h : Vede c chi servers p C i v o r v') : v'.traccia = v.traccia ++ [⟨o, r⟩] := by
  obtain ⟨d, d', -, -, hs, rfl, rfl⟩ := h
  obtain ⟨k, e, -, -, rfl⟩ := Pool.step_act _ hs
  exact Function.update_self ..

/-- A call of neither kind, on no socket and on no port, leaves one's sockets and ports as they are.
    Most calls of the three programs before their loops are of this kind, and none of them needs a case
    of its own. -/
theorem vede_estranea (ho : o.Estranea) (h : Vede c chi servers p C i v o r v') :
    v'.sockets = v.sockets ∧ v'.porte = v.porte := by
  obtain ⟨d, d', -, -, hs, rfl, rfl⟩ := h
  obtain ⟨k, e, -, he, heq⟩ := Pool.step_act _ hs
  have he : d.env.chiama c i o r = some e := he
  have fine : e.sockets = d.env.sockets → e.porte = d.env.porte →
      (posto i d').sockets = (posto i d).sockets ∧ (posto i d').porte = (posto i d).porte :=
    fun h hp => posto_ferma (by rw [heq]; exact h) (by rw [heq]; exact hp)
  -- the four calls that touch a socket are excluded; those on the file leave sockets and ports as they
  -- are
  cases o with
  | socket _ _ _ => exact ho.elim
  | bind _ _ => exact ho.elim
  | listen _ _ => exact ho.elim
  | connect _ _ => exact ho.elim
  | fopen nome modo =>
    change (if (r && d.env.portaTxt.isNone) = true then none else some d.env) = some e at he
    split at he
    · cases he
    · rw [← Option.some.inj he] at fine
      exact fine rfl rfl
  | fscanf =>
    change (if d.env.portaTxt = some r then some d.env else none) = some e at he
    split at he
    · rw [← Option.some.inj he] at fine
      exact fine rfl rfl
    · cases he
  | fclose testo =>
    rw [← Option.some.inj he] at fine
    cases r with
    | true => exact fine rfl rfl
    | false => exact fine rfl rfl
  | _ =>
    rw [← Option.some.inj he] at fine
    exact fine rfl rfl

/-- A new socket, at a descriptor that was free: so it is none of those the process already holds. -/
theorem vede_socket {famiglia tipo protocollo : Nat} {fd : Int}
    (h : Vede c chi servers p C i v (.socket famiglia tipo protocollo) fd v') (hfd : ¬ fd < 0) :
    v.sockets fd = none ∧ v'.sockets = Function.update v.sockets fd (some .nuova) ∧ v'.porte = v.porte := by
  obtain ⟨d, d', -, -, hs, rfl, rfl⟩ := h
  obtain ⟨k, e, -, he, heq⟩ := Pool.step_act _ hs
  have he : d.env.chiama c i (.socket famiglia tipo protocollo) fd = some e := he
  rcases Host.chiama_socket he with ⟨hneg, -⟩ | ⟨-, hnone, rfl⟩
  · exact absurd hneg hfd
  · refine ⟨hnone, posto_conSocket (by rw [heq]), ?_⟩
    simp only [posto, heq]
    rfl

/-- A port asked for by its number and bound is one's own, and does not listen yet. -/
theorem vede_bind {fd : Int} {servaddr : SockaddrIn} {q : Nat} (hne : servaddr.porta ≠ 0)
    (h : Vede c chi servers p C i v (.bind fd servaddr) (some q) v') :
    v'.sockets = Function.update v.sockets fd (some (.legata servaddr.porta)) ∧
      v'.porte = Function.update v.porte servaddr.porta (some (fd, false)) := by
  obtain ⟨d, d', -, -, hs, rfl, rfl⟩ := h
  obtain ⟨k, e, -, he, heq⟩ := Pool.step_act _ hs
  have he : d.env.chiama c i (.bind fd servaddr) (some q) = some e := he
  obtain ⟨-, hq, -, rfl⟩ := Host.chiama_bind he
  obtain rfl : q = servaddr.porta := hq.resolve_left hne
  exact ⟨posto_conSocket (by rw [heq]; rfl), posto_conPorta (e := d.env.conSocket i fd _) rfl (by rw [heq])⟩

/-- The port of the socket listens now. From here on another program's `connect` to it may succeed. -/
theorem vede_listen {fd : Int} {backlog : Nat}
    (h : Vede c chi servers p C i v (.listen fd backlog) true v') :
    ∃ q, v.sockets fd = some (.legata q) ∧ v'.sockets = v.sockets ∧
      v'.porte = Function.update v.porte q (some (fd, true)) := by
  obtain ⟨d, d', -, -, hs, rfl, rfl⟩ := h
  obtain ⟨k, e, -, he, heq⟩ := Pool.step_act _ hs
  have he : d.env.chiama c i (.listen fd backlog) true = some e := he
  obtain ⟨q, hq, rfl⟩ := Host.chiama_listen he
  refine ⟨q, hq, ?_, posto_conPorta rfl (by rw [heq])⟩
  simp only [posto, heq]
  rfl

/-- `Possibile c chi a q capo` — who can be at the other end of a connection to the address `a` and the
    port `q`: a process whose port that is, another program of this host if one may listen there, a
    connecting socket if the port is ephemeral, or another host if the address is not of this one. -/
def Possibile (c : Contorno) (chi : Nat → Processo) (a : Buffer 4) (q : Nat) : Capo → Prop
  | .qui j _ => Ammessa (chi j) q
  | .estraneo => c.estranei q = true
  | .connettente => c.effimere q = true
  | .altrove => c.locale a = false

/-- On a port that is clear only one of the three programs can be at the other end: nothing else listens
    there, and no socket that connects was given that port, which rules out a connection with itself. -/
theorem Possibile.qui {a : Buffer 4} {q : Nat} {lo hi : Int} {capo : Capo} (h : Possibile c chi a q capo)
    (ha : c.locale a = true) (hc : c.Sgombro lo hi) (hlo : lo ≤ q) (hhi : q ≤ hi) : ∃ j fd, capo = .qui j fd := by
  obtain ⟨hestranei, heffimere⟩ := hc q hlo hhi
  cases capo with
  | qui j fd => exact ⟨j, fd, rfl⟩
  | estraneo =>
    have h : c.estranei q = true := h
    rw [hestranei] at h
    cases h
  | connettente =>
    have h : c.effimere q = true := h
    rw [heffimere] at h
    cases h
  | altrove =>
    have h : c.locale a = false := h
    rw [ha] at h
    cases h

/-- Someone is at the other end, and it is someone who can be there: which of the four it is, the kernel
    decides. -/
theorem vede_connect {fd : Int} {servaddr : SockaddrIn} {capo : Capo}
    (h : Vede c chi servers p C i v (.connect fd servaddr) (some capo) v') :
    v'.sockets = Function.update v.sockets fd (some (.connessa capo)) ∧ v'.porte = v.porte ∧
      Possibile c chi servaddr.sinAddr servaddr.porta capo := by
  obtain ⟨d, d', hG, -, hs, rfl, rfl⟩ := h
  obtain ⟨k, e, -, he, heq⟩ := Pool.step_act _ hs
  have he : d.env.chiama c i (.connect fd servaddr) (some capo) = some e := he
  obtain ⟨-, hraggiunge, rfl⟩ := Host.chiama_connect he
  refine ⟨posto_conSocket (by rw [heq]), ?_, ?_⟩
  · simp only [posto, heq]
    rfl
  · cases capo with
    | qui j fd' =>
      have h := (Bool.and_eq_true_iff.mp hraggiunge).2
      exact hG.porte _ j fd' true (of_decide_eq_true h)
    | estraneo => exact (Bool.and_eq_true_iff.mp (Bool.and_eq_true_iff.mp hraggiunge).1).2
    | connettente => exact (Bool.and_eq_true_iff.mp (Bool.and_eq_true_iff.mp hraggiunge).1).2
    | altrove =>
      show c.locale servaddr.sinAddr = false
      simpa [Host.raggiunge] using hraggiunge

/-- What was in the file: a numeral in the range of `Regola`; a server, which had not read it before,
    finds room in it for the one it will add. -/
theorem vede_fscanf (hservers : ∀ i, chi i = .server → i ∈ servers) {bs : Bytes}
    (hprima : chi i = .server → ∀ bs, ⟨.fscanf, bs⟩ ∉ v.traccia)
    (h : Vede c chi servers p C i v .fscanf bs v') :
    ∃ n, Numeral n bs ∧ p ≤ n ∧ n ≤ p + servers.card ∧ (chi i = .server → n + 1 ≤ p + servers.card) := by
  obtain ⟨d, d', hG, -, hs, rfl, rfl⟩ := h
  obtain ⟨k, e, -, he, -⟩ := Pool.step_act _ hs
  have hfile : d.env.portaTxt = some bs := by
    change (if d.env.portaTxt = some bs then some d.env else none) = some e at he
    split at he
    · assumption
    · cases he
  obtain ⟨n, hn, hmin, hmax⟩ := hG.file bs hfile
  have hsub : lettori chi servers d ⊆ servers := fun j hj => (mem_lettori.mp hj).1
  have hcard := Finset.card_le_card hsub
  refine ⟨n, hn, hmin, by omega, fun hi => ?_⟩
  -- a server reads once, so before this call it is not among those counted: one more fits below the
  -- bound
  have hnon : i ∉ lettori chi servers d := by
    intro hmem
    obtain ⟨-, -, bs', hbs'⟩ := mem_lettori.mp hmem
    exact hprima hi bs' hbs'
  have hlt := Finset.card_lt_card (Finset.ssubset_iff.mpr
    ⟨i, hnon, Finset.insert_subset (hservers i hi) hsub⟩)
  omega

/-- `m` issues what is permitted, whatever the others do meanwhile, and ends in `Q`. -/
abbrev Sicuro (c : Contorno) (chi : Nat → Processo) (servers : Finset Nat) (p : Int)
    (C : StatoRete → Pool.Move Op Op.Ans → Prop) (i : Nat) {α : Type} (m : Avviamento α) (Q : α → Posto → Prop)
    (v : Posto) : Prop :=
  m.Safe (Vede c chi servers p C i) (Permette chi i) Q v

variable {α β : Type} {Q : α → Posto → Prop}

theorem Sicuro.bind {m : Avviamento β} {f : β → Avviamento α} {K : β → Posto → Prop}
    (hm : Sicuro c chi servers p C i m K v) (hf : ∀ b v', K b v' → Sicuro c chi servers p C i (f b) Q v') :
    Sicuro c chi servers p C i (m >>= f) Q v := (Prog.safe_bind m f Q v).mpr (hm.mono hf)

/-- A call that touches neither sockets nor ports. -/
theorem sicuro_estranea {k : o.Ans → Avviamento α} (ho : o.Estranea) (hP : Permette chi i v o)
    (hk : ∀ r v', v'.traccia = v.traccia ++ [⟨o, r⟩] → v'.sockets = v.sockets → v'.porte = v.porte →
      Sicuro c chi servers p C i (k r) Q v') : Sicuro c chi servers p C i (.call o k) Q v := by
  refine ⟨hP, fun r v' h => ?_⟩
  obtain ⟨hsockets, hporte⟩ := vede_estranea ho h
  exact hk r v' (vede_traccia h) hsockets hporte

/-- A program that ends owes nothing. -/
theorem sicuro_esci : Sicuro c chi servers p C i (Avviamento.esci : Avviamento α) Q v :=
  ⟨trivial, fun r => r.elim⟩

theorem sicuro_ignoto : Sicuro c chi servers p C i (Avviamento.ignoto : Avviamento α) Q v :=
  ⟨trivial, fun r => r.elim⟩

theorem sicuro_errore (testo : Bytes) :
    Sicuro c chi servers p C i (Avviamento.errore testo : Avviamento α) Q v :=
  sicuro_estranea trivial trivial fun _ _ _ _ _ => sicuro_esci

theorem sicuro_erroreDi (testo : Bytes) :
    Sicuro c chi servers p C i (Avviamento.erroreDi testo : Avviamento α) Q v :=
  sicuro_estranea trivial trivial fun _ _ _ _ _ => sicuro_esci

/-- A new socket. -/
structure Aperta (v : Posto) (fd : Int) (v' : Posto) : Prop where
  /-- Its descriptor is one. -/
  valida : 0 ≤ fd
  /-- It stood for nothing before. -/
  libera : v.sockets fd = none
  /-- It is new; the others are as they were ... -/
  sockets : v'.sockets = Function.update v.sockets fd (some .nuova)
  /-- ... and the ports too. -/
  porte : v'.porte = v.porte

/-- What a `socket` that did not fail leaves. -/
theorem vede_aperta {famiglia tipo protocollo : Nat} {fd : Int} (hfd : ¬ fd < 0)
    (h : Vede c chi servers p C i v (.socket famiglia tipo protocollo) fd v') : Aperta v fd v' := by
  obtain ⟨hnone, hsockets, hporte⟩ := vede_socket h hfd
  exact ⟨Int.not_lt.mp hfd, hnone, hsockets, hporte⟩

/-- `getSocket` returns a new socket or not at all. -/
theorem sicuro_getSocket (famiglia tipo protocollo : Nat) :
    Sicuro c chi servers p C i (Avviamento.getSocket famiglia tipo protocollo) (Aperta v) v := by
  refine ⟨trivial, fun fd v₁ h₁ => ?_⟩
  show Prog.Safe _ _ (if fd < 0 then _ else _) _ _
  split
  · exact sicuro_errore _
  · rename_i hfd
    exact vede_aperta hfd h₁

theorem sicuro_getListenSocket (famiglia tipo protocollo : Nat) :
    Sicuro c chi servers p C i (Avviamento.getListenSocket famiglia tipo protocollo) (Aperta v) v := by
  refine ⟨trivial, fun fd v₁ h₁ => ?_⟩
  show Prog.Safe _ _ (if fd < 0 then _ else _) _ _
  split
  · exact sicuro_erroreDi _
  · rename_i hfd
    exact vede_aperta hfd h₁

/-! ### The student -/

theorem ammessa_segreteria {x : Processo} (h : Ammessa x 1025) : ∃ argv, x = .segreteria argv := by
  cases x with
  | server => exact absurd h.1 (by decide)
  | segreteria argv => exact ⟨argv, rfl⟩
  | studente argv => exact h.elim

/-- A port above 1025 can only be one that a server listens on: the secretary's is fixed. -/
theorem ammessa_server {x : Processo} {q : Nat} (hq : 1026 ≤ q) (h : Ammessa x q) : x = .server := by
  cases x with
  | server => rfl
  | segreteria argv =>
    obtain rfl : q = 1025 := h
    exact absurd hq (by decide)
  | studente argv => exact h.elim

/-- The student's argument is an address, and this is who can be at its port 1025. It is known that the
    program got past both of its checks. -/
structure Entrato (c : Contorno) (chi : Nat → Processo) (argv : List Bytes) (sockfd : Int) (v : Posto) : Prop where
  /-- It has a socket ... -/
  valida : 0 ≤ sockfd
  /-- ... connected to port 1025 at the address it was given. -/
  capo : ∃ nome testo a capo, argv = [nome, testo] ∧ indirizzoIPv4 testo = some a ∧
    v.sockets sockfd = some (.connessa capo) ∧ Possibile c chi a 1025 capo

/-- **The student alone.** Both checks of the arguments passed, or the program is over; then one socket,
    connected to port 1025 of the address that was given. -/
theorem sicuro_studente (argv : List Bytes) :
    Sicuro c chi servers p C i (ProgStudente.prepara argv) (Entrato c chi argv) v := by
  unfold ProgStudente.prepara
  split
  · exact sicuro_errore _
  · split
    · rename_i nome testo _
      refine ⟨trivial, fun sockfd v₁ h₁ => ?_⟩
      show Prog.Safe _ _ (if sockfd < 0 then _ else _) _ _
      split
      · exact sicuro_erroreDi _
      · rename_i hfd
        refine sicuro_estranea (o := .indeterminato 4) trivial trivial fun sinAddr v₂ _ hs₂ hp₂ => ?_
        show Prog.Safe _ _ (if (inetPton testo sinAddr).1 ≤ 0 then _ else _) _ _
        -- `inet_pton(..) <= 0`: a text that is no address ends the program here
        cases ha : indirizzoIPv4 testo with
        | none =>
          rw [inetPton_none ha, if_pos (Int.le_refl 0)]
          exact sicuro_errore _
        | some a =>
          rw [inetPton_some ha, if_neg (show ¬ (1 : Int) ≤ 0 by decide)]
          refine ⟨trivial, fun capo v₃ h₃ => ?_⟩
          cases capo with
          | none =>
            exact sicuro_estranea (o := .perror _) trivial trivial fun _ _ _ _ _ =>
              sicuro_estranea (o := .printf _) trivial trivial fun _ _ _ _ _ => sicuro_esci
          | some capo =>
            obtain ⟨hsockets, -, hcapo⟩ := vede_connect h₃
            rw [porta_htons] at hcapo
            refine ⟨Int.not_lt.mp hfd, nome, testo, a, capo, rfl, ha, ?_, hcapo⟩
            rw [hsockets]
            exact Function.update_self ..
    · exact sicuro_errore _

/-! ### The port file -/

/-- The file was read, and `n` is the number in it: between the first number and what the servers can
    have made of it, and for a server small enough that there is a port with the next one. -/
structure NumeroLetto (chi : Nat → Processo) (servers : Finset Nat) (p : Int) (i : Nat) (v : Posto) (n : Int) (v' : Posto) : Prop where
  /-- The sockets are as they were ... -/
  sockets : v'.sockets = v.sockets
  /-- ... and the ports. -/
  porte : v'.porte = v.porte
  /-- It is the numeral of a text that was read. -/
  letto : ∃ bs, ⟨.fscanf, bs⟩ ∈ v'.traccia ∧ Numeral n bs
  /-- Not below the first number ... -/
  minimo : p ≤ n
  /-- ... and not above what the servers can have made of it. -/
  massimo : n ≤ p + servers.card
  /-- A server can still add one: there is a port with that number. -/
  server : chi i = .server → n + 1 ≤ 65535

variable (hservers : ∀ i, chi i = .server → i ∈ servers) (hmin : 1026 ≤ p) (hmax : p + servers.card ≤ 65535)

include hservers hmin hmax

/-- The common beginning of both functions of the file. What is read there is in range, so the variable
    holds it whole. -/
theorem sicura_apriPorta (hprima : chi i = .server → ∀ bs, ⟨.fscanf, bs⟩ ∉ v.traccia) :
    Sicuro c chi servers p C i Avviamento.apriPorta (NumeroLetto chi servers p i v) v := by
  refine sicuro_estranea (o := .indeterminato 4) trivial trivial fun memoria v₁ ht₁ hs₁ hp₁ => ?_
  refine sicuro_estranea (o := .fopen _ _) trivial trivial fun fp v₂ ht₂ hs₂ hp₂ => ?_
  have hprima₂ : chi i = .server → ∀ bs, ⟨.fscanf, bs⟩ ∉ v₂.traccia := by
    intro hi bs hbs
    rw [ht₂, ht₁] at hbs
    simp only [List.mem_append, List.mem_singleton] at hbs
    rcases hbs with (hbs | hbs) | hbs
    · exact hprima hi bs hbs
    · exact absurd (Sigma.mk.inj hbs).1 (by simp)
    · exact absurd (Sigma.mk.inj hbs).1 (by simp)
  cases fp with
  | false => exact sicuro_ignoto
  | true =>
    refine ⟨hprima₂, fun bs v₃ h₃ => ?_⟩
    -- the numeral is between 1026 and 65535, so `%d` stores it without a reduction
    obtain ⟨n, hn, hlo, hhi, hserver⟩ := vede_fscanf hservers hprima₂ h₃
    obtain ⟨hs₃, hp₃⟩ := vede_estranea (o := .fscanf) trivial h₃
    have hleggi : leggiPorta memoria bs = n := leggiPorta_numeral hn (by omega) (by omega) memoria
    refine ⟨hs₃.trans (hs₂.trans hs₁), hp₃.trans (hp₂.trans hp₁), ⟨bs, ?_, ?_⟩, ?_, ?_, ?_⟩
    · rw [vede_traccia h₃]
      exact List.mem_append_right _ List.mem_cons_self
    · rw [hleggi]
      exact hn
    · rw [hleggi]
      exact hlo
    · rw [hleggi]
      exact hhi
    · intro hi
      rw [hleggi]
      have := hserver hi
      omega

/-- A server's port: above 1025, since the number in the file began there and only grows, and below
    65536, since fewer servers were started than the bound allows. -/
theorem sicura_setPorta (hi : chi i = .server) (hprima : ∀ bs, ⟨.fscanf, bs⟩ ∉ v.traccia) :
    Sicuro c chi servers p C i Avviamento.setPorta
      (fun porta v' => v'.sockets = v.sockets ∧ v'.porte = v.porte ∧ 1026 ≤ porta ∧ porta ≤ 65535) v := by
  refine (sicura_apriPorta hservers hmin hmax fun _ => hprima).bind fun n v₁ h₁ => ?_
  have hlo := h₁.minimo
  have hhi := h₁.server hi
  rw [if_neg (by omega)]
  refine sicuro_estranea (o := .printf _) trivial trivial fun _ v₂ ht₂ hs₂ hp₂ => ?_
  obtain ⟨bs, hbs, hn⟩ := h₁.letto
  refine sicuro_estranea (o := .fclose _) trivial (.inr ⟨hi, bs, n, ?_, hn, rfl⟩) fun _ v₃ _ hs₃ hp₃ => ?_
  · rw [ht₂]
    exact List.mem_append_left _ hbs
  · exact ⟨hs₃.trans (hs₂.trans h₁.sockets), hp₃.trans (hp₂.trans h₁.porte), by omega, hhi⟩

/-- The port a secretary connects to: in the range of the file's numbers. -/
theorem sicura_getPorta (hi : chi i ≠ .server) :
    Sicuro c chi servers p C i Avviamento.getPorta
      (fun porta v' => v'.sockets = v.sockets ∧ v'.porte = v.porte ∧ p ≤ porta ∧ porta ≤ p + servers.card) v := by
  refine (sicura_apriPorta hservers hmin hmax fun h => absurd h hi).bind fun n v₁ h₁ => ?_
  refine sicuro_estranea (o := .printf _) trivial trivial fun _ v₂ _ hs₂ hp₂ => ?_
  refine sicuro_estranea (o := .fclose _) trivial (.inl rfl) fun _ v₃ _ hs₃ hp₃ => ?_
  exact ⟨hs₃.trans (hs₂.trans h₁.sockets), hp₃.trans (hp₂.trans h₁.porte), h₁.minimo, h₁.massimo⟩

/-! ### The server -/

/-- **The server alone.** Its loop begins with a socket that listens on the port it left in the file,
    which is above 1025 and in range. -/
theorem sicuro_server (hi : chi i = .server) (hv : v.traccia = []) :
    Sicuro c chi servers p C i Server.prepara
      (fun listenfd v' => ∃ q, 1026 ≤ q ∧ q ≤ 65535 ∧ v'.porte q = some (listenfd, true)) v := by
  refine ⟨trivial, fun listenfd v₁ h₁ => ?_⟩
  by_cases hfd : listenfd < 0
  · show Prog.Safe _ _ (if listenfd < 0 then _ else _) _ _
    rw [if_pos hfd]
    exact sicuro_erroreDi _
  · show Prog.Safe _ _ (if listenfd < 0 then _ else _) _ _
    rw [if_neg hfd]
    -- the file has not been read yet: the only call behind is that of `socket`
    have hprima : ∀ bs, ⟨.fscanf, bs⟩ ∉ v₁.traccia := by
      intro bs hbs
      rw [vede_traccia h₁, hv, List.nil_append, List.mem_singleton] at hbs
      exact absurd (Sigma.mk.inj hbs).1 (by simp)
    refine (sicura_setPorta hservers hmin hmax hi hprima).bind ?_
    rintro porta v₂ ⟨-, -, hlo, hhi⟩
    have hporta : (SockaddrIn.mk AF_INET (htons porta) INADDR_ANY).porta = porta.toNat := by
      rw [porta_htons]
      omega
    have hammessa : Ammessa (chi i) (SockaddrIn.mk AF_INET (htons porta) INADDR_ANY).porta := by
      rw [hi, hporta]
      exact ⟨by omega, by omega⟩
    -- the port is not 0, so the kernel gives the one that was asked for
    have hne : (SockaddrIn.mk AF_INET (htons porta) INADDR_ANY).porta ≠ 0 := by omega
    refine ⟨⟨hne, hammessa⟩, fun esito v₃ h₃ => ?_⟩
    cases esito with
    | none => exact sicuro_erroreDi _
    | some q =>
      obtain ⟨hsockets, -⟩ := vede_bind hne h₃
      refine ⟨trivial, fun esito v₄ h₄ => ?_⟩
      cases esito with
      | false => exact sicuro_erroreDi _
      | true =>
        obtain ⟨q', hq', -, hporte⟩ := vede_listen h₄
        rw [hsockets, Function.update_self] at hq'
        obtain rfl := Socket.legata.inj (Option.some.inj hq')
        refine sicuro_estranea (o := .printf _) trivial trivial fun _ v₅ _ _ hp₅ => ?_
        refine ⟨porta.toNat, by omega, by omega, ?_⟩
        rw [hp₅, hporte, hporta]
        exact Function.update_self ..

/-! ### The secretary -/

omit hservers hmin hmax in

/-- The connection to MySQL goes through the client library and touches none of these sockets. -/
theorem sicura_connetti : Sicuro c chi servers p C i Segreteria.connetti
    (fun _ v' => v'.sockets = v.sockets ∧ v'.porte = v.porte) v := by
  refine sicuro_estranea (o := .mysqlInit) trivial trivial fun conn v₁ _ hs₁ hp₁ => ?_
  cases conn with
  | false => exact sicuro_errore _
  | true =>
    refine sicuro_estranea (o := .mysqlRealConnect _ _ _ _ _) trivial trivial fun esito v₂ _ hs₂ hp₂ => ?_
    cases esito with
    | false =>
      exact sicuro_estranea (o := .mysqlError) trivial trivial fun err _ _ _ _ =>
        sicuro_estranea (o := .fprintf _) trivial trivial fun _ _ _ _ _ =>
          sicuro_estranea (o := .mysqlClose) trivial trivial fun _ _ _ _ _ => sicuro_esci
    | true =>
      exact sicuro_estranea (o := .printf _) trivial trivial fun _ v₃ _ hs₃ hp₃ =>
        ⟨hs₃.trans (hs₂.trans hs₁), hp₃.trans (hp₂.trans hp₁)⟩

/-- The secretary has two sockets.  It listens on 1025 with one, and has connected the other to a number that was in
    the file; this is who can be at the other end, where the address is the argument's if that is one. -/
structure Collegata (c : Contorno) (chi : Nat → Processo) (servers : Finset Nat) (p : Int) (argv : List Bytes)
    (sockfd listenfd : Int) (v : Posto) : Prop where
  /-- It has two sockets. -/
  valida : 0 ≤ sockfd ∧ 0 ≤ listenfd ∧ sockfd ≠ listenfd
  /-- With one it listens on 1025. -/
  ascolta : v.porte 1025 = some (listenfd, true)
  /-- The other is connected to a number of the file, at the address of the argument if the argument is
      one. -/
  capo : ∃ nome testo sinAddr capo, ∃ q : Nat, argv = [nome, testo] ∧ v.sockets sockfd = some (.connessa capo) ∧
    Possibile c chi sinAddr q capo ∧ p ≤ q ∧ q ≤ p + servers.card ∧ ∀ a, indirizzoIPv4 testo = some a → sinAddr = a

/-- **The secretary alone.** Its check of the argument lets every text through, so the address may be
    what was in memory. -/
theorem sicura_segreteria {argv : List Bytes} (hi : chi i = .segreteria argv) :
    Sicuro c chi servers p C i (Segreteria.prepara argv)
      (fun fds v' => Collegata c chi servers p argv fds.1 fds.2 v') v := by
  unfold Segreteria.prepara
  split
  · rename_i nome testo
    refine (sicuro_getSocket _ _ _).bind fun sockfd v₁ h₁ => ?_
    refine (sicura_getPorta hservers hmin hmax (by rw [hi]; simp)).bind ?_
    rintro porta v₂ ⟨hs₂, hp₂, hlo, hhi⟩
    refine sicuro_estranea (o := .indeterminato 4) trivial trivial fun sinAddr v₃ _ hs₃ hp₃ => ?_
    have hporta : ∀ a, (SockaddrIn.mk AF_INET (htons porta) a).porta = porta.toNat := by
      intro a
      rw [porta_htons]
      omega
    -- `inet_pton(..) < 0` is never true: a text that is no address gives 0, and the address stays what
    -- memory held
    have hesito : ¬ (inetPton testo sinAddr).1 < 0 := by
      cases ha : indirizzoIPv4 testo with
      | none => rw [inetPton_none ha]; exact Int.lt_irrefl 0
      | some a => rw [inetPton_some ha]; exact of_decide_eq_true rfl
    show Prog.Safe _ _ (if (inetPton testo sinAddr).1 < 0 then _ else _) _ _
    rw [if_neg hesito]
    refine ⟨trivial, fun capo v₄ h₄ => ?_⟩
    cases capo with
    | none => exact sicuro_errore _
    | some capo =>
      obtain ⟨hs₄, hp₄, hcapo⟩ := vede_connect h₄
      rw [hporta] at hcapo
      refine (sicuro_getListenSocket _ _ _).bind fun listenfd v₅ h₅ => ?_
      -- the descriptor of the listening socket is a new one, and that of the connection is in use
      have hdiversi : sockfd ≠ listenfd := by
        rintro rfl
        have hlibera := h₅.libera
        rw [hs₄, Function.update_self] at hlibera
        cases hlibera
      have hsockfd : v₅.sockets sockfd = some (.connessa capo) := by
        rw [h₅.sockets, Function.update_of_ne hdiversi, hs₄]
        exact Function.update_self ..
      have hammessa : Ammessa (chi i) Segreteria.secaddr.porta := by
        rw [hi, porta_secaddr]
        rfl
      refine Sicuro.bind (K := fun _ v₆ => v₆.sockets = Function.update v₅.sockets listenfd (some (.legata 1025)))
        ⟨⟨by rw [porta_secaddr]; decide, hammessa⟩, fun q v₆ h₆ => ?_⟩ fun _ v₆ hs₆ => ?_
      · cases q with
        | none => exact sicuro_erroreDi _
        | some q =>
          have h := (vede_bind (by rw [porta_secaddr]; decide) h₆).1
          rw [porta_secaddr] at h
          exact h
      · refine ⟨trivial, fun esito v₇ h₇ => ?_⟩
        cases esito with
        | false => exact sicuro_erroreDi _
        | true =>
          obtain ⟨q, hq, hs₇, hp₇⟩ := vede_listen h₇
          rw [hs₆, Function.update_self] at hq
          obtain rfl := Socket.legata.inj (Option.some.inj hq)
          show Sicuro c chi servers p C i (Segreteria.connetti >>= fun _ => pure (sockfd, listenfd)) _ _
          refine Sicuro.bind sicura_connetti ?_
          rintro _ v₈ ⟨hs₈, hp₈⟩
          refine ⟨⟨h₁.valida, h₅.valida, hdiversi⟩, ?_, nome, testo, _, capo, porta.toNat, rfl, ?_, hcapo, by omega,
            by omega, fun a ha => ?_⟩
          · rw [hp₈, hp₇]
            exact Function.update_self ..
          · rw [hs₈, hs₇, hs₆, Function.update_of_ne hdiversi]
            exact hsockfd
          · show (inetPton testo sinAddr).2 = a
            rw [inetPton_some ha]
  · exact sicuro_errore _

end Soli

/-! ## Every run -/

section Corse

variable {c : Contorno} {chi : Nat → Processo} {servers : Finset Nat} {p : Int} {file : Bytes}
  {C : StatoRete → Pool.Move Op Op.Ans → Prop} {d d' : StatoRete} {i j : Nat}

/-- One's own ports are those of the host that are one's own. -/
theorem posto_porte {q : Nat} {x : Int × Bool} : (posto i d).porte q = some x ↔ d.env.porte q = some (i, x) := by
  simp only [posto]
  cases d.env.porte q with
  | none => simp
  | some y =>
    obtain ⟨j, y⟩ := y
    by_cases hj : j = i
    · simp [hj]
    · simp [hj]

/-- A port of process `i` is none of `j`: an entry is only replaced by one of the same process, or put
    where there was none. -/
theorem porte_altrui {q : Nat} {fd : Int} {b : Bool} {e : Host} (hij : i ≠ j) (he : e.porte = d.env.porte)
    (hq : ∀ j fd b, d.env.porte q = some (j, fd, b) → j = i) (q' : Nat) (x : Int × Bool) :
    (e.conPorta q i fd b).porte q' = some (j, x) ↔ d.env.porte q' = some (j, x) := by
  show Function.update e.porte q (some (i, fd, b)) q' = _ ↔ _
  by_cases hqq : q' = q
  · subst hqq
    rw [Function.update_self]
    constructor
    · intro h
      exact absurd (Prod.mk.inj (Option.some.inj h)).1 hij
    · intro h
      exact absurd (hq j x.1 x.2 h).symm hij
  · rw [Function.update_of_ne hqq, he]

/-- The moves of the others leave a process its sockets and its ports. By the call that was answered:
    each writes only at the process that issued it, and a stop frees only the ports of the one that was
    stopped. -/
theorem posto_altrui (h : Regola chi servers p d) {m : Pool.Move Op Op.Ans} (hs : (rete c).step d m = some d')
    (hj : m.who ≠ j) : posto j d' = posto j d := by
  obtain ⟨-, htraccia⟩ := Pool.step_other _ hs hj
  -- nothing of a process is touched when its sockets stay and the ports it has are the same ones
  have fine : d'.env.sockets j = d.env.sockets j →
      (∀ q x, d'.env.porte q = some (j, x) ↔ d.env.porte q = some (j, x)) → posto j d' = posto j d := by
    intro hsockets hporte
    have hp : (posto j d').porte = (posto j d).porte := by
      funext q
      exact Option.ext fun x => posto_porte.trans ((hporte q x).trans posto_porte.symm)
    show Posto.mk (d'.trace j) (d'.env.sockets j) (posto j d').porte = _
    rw [htraccia, hsockets, hp]
    rfl
  cases m with
  | stop i =>
    obtain rfl := Pool.step_stop _ hs
    exact fine (Function.update_of_ne (Ne.symm hj) ..) fun q x =>
      Host.senza_porte.trans ⟨fun h => h.2, fun h => ⟨Ne.symm hj, h⟩⟩
  | act i o r =>
    obtain ⟨k, e, -, he, heq⟩ := Pool.step_act _ hs
    have he : d.env.chiama c i o r = some e := he
    rw [show d'.env = e by rw [heq]] at fine
    have ferma : e = d.env → posto j d' = posto j d := fun hee => fine (by rw [hee]) (by rw [hee]; simp)
    have aperta : ∀ {fd x}, e = d.env.conSocket i fd x → posto j d' = posto j d := by
      intro fd x hee
      refine fine ?_ (by rw [hee]; exact fun _ _ => Iff.rfl)
      rw [hee]
      exact Function.update_of_ne (Ne.symm hj) ..
    cases o with
    | socket famiglia tipo protocollo =>
      rcases Host.chiama_socket he with ⟨-, hee⟩ | ⟨-, -, hee⟩
      · exact ferma hee
      · exact aperta hee
    | bind fd servaddr =>
      cases r with
      | none => exact ferma (Option.some.inj he).symm
      | some q =>
        -- the port was free, so it was not the other's
        obtain ⟨-, -, hlibera, hee⟩ := Host.chiama_bind he
        refine fine ?_ ?_
        · rw [hee]
          exact Function.update_of_ne (Ne.symm hj) ..
        · rw [hee]
          exact porte_altrui (e := d.env.conSocket i fd _) hj rfl fun _ _ _ h => by rw [hlibera] at h; cases h
    | listen fd backlog =>
      cases r with
      | false => exact ferma (Option.some.inj he).symm
      | true =>
        obtain ⟨q, hq, hee⟩ := Host.chiama_listen he
        -- only the owner of a port listens on it: `Regola.sockets`
        obtain ⟨b, hb⟩ := h.sockets i fd q hq
        refine fine (by rw [hee]; rfl) ?_
        rw [hee]
        exact porte_altrui hj rfl fun _ _ _ h => (Prod.mk.inj (Option.some.inj (hb.symm.trans h))).1.symm
    | connect fd servaddr =>
      cases r with
      | none => exact ferma (Option.some.inj he).symm
      | some capo =>
        obtain ⟨-, -, hee⟩ := Host.chiama_connect he
        exact aperta hee
    | fopen nome modo =>
      change (if (r && d.env.portaTxt.isNone) = true then none else some d.env) = some e at he
      split at he
      · cases he
      · exact ferma (Option.some.inj he).symm
    | fscanf =>
      change (if d.env.portaTxt = some r then some d.env else none) = some e at he
      split at he
      · exact ferma (Option.some.inj he).symm
      · cases he
    | fclose testo =>
      have he : (if r then { d.env with portaTxt := d.env.portaTxt.map fun old => overwrite old testo } else d.env) = e :=
        Option.some.inj he
      refine fine ?_ ?_
      · rw [← he]
        split <;> rfl
      · rw [← he]
        split <;> exact fun _ _ => Iff.rfl
    | _ => exact ferma (Option.some.inj he).symm

/-- What is known of a process whose loop begins, by its kind: the three ends of the three programs,
    side by side. -/
def AllaFine (c : Contorno) (chi : Nat → Processo) (servers : Finset Nat) (p : Int) (i : Nat) : Pronto → Posto → Prop
  | .server listenfd, v => chi i = .server ∧ ∃ q, 1026 ≤ q ∧ q ≤ 65535 ∧ v.porte q = some (listenfd, true)
  | .segreteria sockfd listenfd, v => ∃ argv, chi i = .segreteria argv ∧ Collegata c chi servers p argv sockfd listenfd v
  | .studente sockfd, v => ∃ argv, chi i = .studente argv ∧ Entrato c chi argv sockfd v

/-- Each program alone, whichever it is. -/
theorem sicuro_prepara (hservers : ∀ i, chi i = .server → i ∈ servers) (hmin : 1026 ≤ p)
    (hmax : p + servers.card ≤ 65535) {v : Posto} (hv : v.traccia = []) :
    Sicuro c chi servers p C i (chi i).prepara (AllaFine c chi servers p i) v := by
  cases hi : chi i with
  | server => exact (sicuro_server hservers hmin hmax hi hv).bind fun _ _ h => ⟨hi, h⟩
  | segreteria argv =>
    refine (sicura_segreteria hservers hmin hmax hi).bind ?_
    rintro ⟨sockfd, listenfd⟩ v' h
    exact ⟨argv, hi, h⟩
  | studente argv => exact (sicuro_studente argv).bind fun _ _ h => ⟨argv, hi, h⟩

/-- **In every run the rule holds, and each program does what it does alone.** The library's rule for
    any number of processes, with the three programs verified one by one. -/
theorem sicuri (hservers : ∀ i, chi i = .server → i ∈ servers) (hp : Numeral p file) (hmin : 1026 ≤ p)
    (hmax : p + servers.card ≤ 65535) (hd : (rete c).Reach C (acceso chi file) d) :
    Regola chi servers p d ∧ ∀ i m, d.prog i = some m →
      Sicuro c chi servers p C i m (AllaFine c chi servers p i) (posto i d) := by
  refine Pool.Reach.rely posto (G := Regola chi servers p) ?_ ?_ ?_ ?_ ?_ hd
  · refine ⟨?_, ?_, ?_, ?_⟩
    · intro bs hbs
      obtain rfl := Option.some.inj hbs
      exact ⟨p, hp, Int.le_refl p, by omega⟩
    · exact fun i bs _ h => absurd h List.not_mem_nil
    · exact fun q i fd b h => nomatch h
    · exact fun i fd q h => nomatch h
  · intro i m hm
    obtain rfl := Option.some.inj hm
    exact sicuro_prepara hservers hmin hmax rfl
  · exact fun d i o r d' _ h hP _ hs => h.act hservers hP hs
  · exact fun d i d' h hs => h.stop hs
  · exact fun d m d' j h hs hj => posto_altrui h hs hj

/-- The main loop of process `i` begins, with these descriptors. -/
def Avviato (d : StatoRete) (i : Nat) (x : Pronto) : Prop := d.prog i = some (.ret x)

/-- **The meeting.**  From a port file with a number that leaves room for every server, in every interleaving and
    whichever processes are stopped: a server whose loop begins listens on a port of its own; a secretary whose loop
    begins is the only one and listens on 1025 with one socket.  When one of the three programs is at the other end of
    its other socket, it is a server, and at the other end of a student's it is a secretary; and one of them is, when the
    argument is an address of this host on which the ports in question are clear: the numbers that the file can hold,
    and 1025. -/
theorem appuntamento (hservers : ∀ i, chi i = .server → i ∈ servers) (hp : Numeral p file) (hmin : 1026 ≤ p)
    (hmax : p + servers.card ≤ 65535) (hd : (rete c).Reach (fun _ _ => True) (acceso chi file) d) (i : Nat) :
    (∀ listenfd, Avviato d i (.server listenfd) →
      chi i = .server ∧ ∃ q, 1026 ≤ q ∧ q ≤ 65535 ∧ d.env.porte q = some (i, listenfd, true)) ∧
    (∀ sockfd listenfd, Avviato d i (.segreteria sockfd listenfd) →
      0 ≤ sockfd ∧ 0 ≤ listenfd ∧ sockfd ≠ listenfd ∧ d.env.porte 1025 = some (i, listenfd, true) ∧
      (∀ i' sockfd' listenfd', Avviato d i' (.segreteria sockfd' listenfd') → i' = i) ∧
      ∃ nome testo capo, chi i = .segreteria [nome, testo] ∧ d.env.sockets i sockfd = some (.connessa capo) ∧
        (∀ j fd, capo = .qui j fd → chi j = .server) ∧
        ∀ a, indirizzoIPv4 testo = some a → c.locale a = true → c.Sgombro p (p + servers.card) →
          ∃ j fd, capo = .qui j fd) ∧
    ∀ sockfd, Avviato d i (.studente sockfd) →
      0 ≤ sockfd ∧ ∃ nome testo a capo, chi i = .studente [nome, testo] ∧ indirizzoIPv4 testo = some a ∧
        d.env.sockets i sockfd = some (.connessa capo) ∧ (∀ j fd, capo = .qui j fd → ∃ argv, chi j = .segreteria argv) ∧
        (c.locale a = true → c.Sgombro 1025 1025 → ∃ j fd, capo = .qui j fd) := by
  obtain ⟨-, hsicuri⟩ := sicuri hservers hp hmin hmax hd
  have fine : ∀ i x, Avviato d i x → AllaFine c chi servers p i x (posto i d) := fun i x h => hsicuri i _ h
  refine ⟨?_, ?_, ?_⟩
  · intro listenfd h
    obtain ⟨hi, q, hlo, hhi, hq⟩ := fine i _ h
    exact ⟨hi, q, hlo, hhi, posto_porte.mp hq⟩
  · intro sockfd listenfd h
    obtain ⟨argv, hi, ⟨hsockfd, hlistenfd, hne⟩, hascolta, nome, testo, sinAddr, capo, q, rfl, hconnessa, hcapo, hlo, hhi,
      hindirizzo⟩ := fine i _ h
    refine ⟨hsockfd, hlistenfd, hne, posto_porte.mp hascolta, ?_, nome, testo, capo, hi, hconnessa, ?_, ?_⟩
    · -- the port 1025 has one socket
      intro i' sockfd' listenfd' h'
      obtain ⟨_, _, hascolta'⟩ := fine i' _ h'
      have heq := (posto_porte.mp hascolta'.ascolta).symm.trans (posto_porte.mp hascolta)
      exact (Prod.mk.inj (Option.some.inj heq)).1
    · -- no number in the file is the secretary's own port
      rintro j fd rfl
      exact ammessa_server (q := q) (by omega) hcapo
    · intro a ha hlocale hsgombro
      obtain rfl := hindirizzo a ha
      exact hcapo.qui hlocale hsgombro hlo hhi
  · intro sockfd h
    obtain ⟨argv, hi, hvalida, nome, testo, a, capo, rfl, ha, hconnessa, hcapo⟩ := fine i _ h
    refine ⟨hvalida, nome, testo, a, capo, hi, ha, hconnessa, ?_, fun hlocale hsgombro =>
      hcapo.qui hlocale hsgombro (Int.le_refl _) (Int.le_refl _)⟩
    rintro j fd rfl
    exact ammessa_segreteria hcapo

end Corse

/-! ## One morning -/

/-- A server, a secretary and students, as the scripts start them. -/
def laboratorio : Nat → Processo
  | 0 => .server
  | 1 => .segreteria [ascii "./segreteria", ascii "127.0.0.1"]
  | _ => .studente [ascii "./studente", ascii "127.0.0.1"]

/-- The addresses of their host are those that begin with 127; MySQL listens on 3306; and the ports for sockets that
    connect are those that Linux sets apart for them. -/
def macchina : Contorno where
  locale a := a.bytes.head? = some 127
  estranei q := q = 3306
  effimere q := 32768 ≤ q ∧ q ≤ 60999

/-- The server starts: it finds 1030 in the file, binds 1031 and listens. -/
def serverAvvia : List (Pool.Move Op Op.Ans) := [
  .act 0 (.socket 2 1 0) (3 : Int), .act 0 (.indeterminato 4) (Buffer.zero 4),
  .act 0 (.fopen (ascii "porta/porta.txt") (ascii "r+")) true, .act 0 .fscanf portaTxt,
  .act 0 (.printf (ascii "porta: 1031" ++ [10])) (), .act 0 (.fclose (ascii "1031" ++ [10])) true,
  .act 0 (.bind 3 ⟨2, htons 1031, INADDR_ANY⟩) (some 1031), .act 0 (.listen 3 1024) true,
  .act 0 (.printf (ascii "Server in esecuzione..." ++ [10])) ()]

/-- The secretary finds `file`, with the number `porta`, connects to it at `a`, and reaches `capo`. -/
def segreteriaAvvia (porta : Int) (file : Bytes) (a : Buffer 4) (capo : Capo) : List (Pool.Move Op Op.Ans) := [
  .act 1 (.socket 2 1 0) (3 : Int), .act 1 (.indeterminato 4) (Buffer.zero 4),
  .act 1 (.fopen (ascii "porta/porta.txt") (ascii "r+")) true, .act 1 .fscanf file,
  .act 1 (.printf (ascii "porta: " ++ dec porta ++ [10])) (), .act 1 (.fclose []) true, .act 1 (.indeterminato 4) a,
  .act 1 (.connect 3 ⟨2, htons porta, a⟩) (some capo), .act 1 (.socket 2 1 0) (4 : Int),
  .act 1 (.bind 4 Segreteria.secaddr) (some 1025), .act 1 (.listen 4 5) true, .act 1 .mysqlInit true,
  .act 1 (.mysqlRealConnect (ascii "localhost") (ascii "nonnt66") (ascii "password") (ascii "universita") 3306) true,
  .act 1 (.printf (ascii "Connessione al database avvenuta con successo" ++ [10])) ()]

/-- A student starts and reaches port 1025. -/
def studenteAvvia : List (Pool.Move Op Op.Ans) := [
  .act 2 (.socket 2 1 0) (3 : Int), .act 2 (.indeterminato 4) (Buffer.zero 4),
  .act 2 (.connect 3 ⟨2, htons 1025, ⟨[127, 0, 0, 1], rfl⟩⟩) (some (.qui 1 4))]

/-- The descriptors of a loop that begins. -/
def avviato (d : StatoRete) (i : Nat) : Option Pronto :=
  match d.prog i with
  | some (.ret x) => some x
  | _ => none

/-- Evaluated: the loop begins with these descriptors. -/
theorem avviato_eq {d : StatoRete} {i : Nat} {x : Pronto} (h : avviato d i = some x) : Avviato d i x := by
  unfold avviato at h
  split at h
  · rename_i y hy
    rw [Avviato, hy, Option.some.inj h]
  · cases h

/-- All three begin their loops, the secretary is connected to the server, and the student to the secretary. -/
theorem appuntamento_laboratorio : ∃ d : StatoRete,
    (rete macchina).Reach (fun _ _ => True) (acceso laboratorio portaTxt) d ∧ Avviato d 0 (.server 3) ∧
    Avviato d 1 (.segreteria 3 4) ∧ Avviato d 2 (.studente 3) ∧ d.env.porte 1025 = some (1, 4, true) ∧
    (∃ j fd, d.env.sockets 1 3 = some (.connessa (.qui j fd)) ∧ laboratorio j = .server) ∧
    ∃ j fd argv, d.env.sockets 2 3 = some (.connessa (.qui j fd)) ∧ laboratorio j = .segreteria argv := by
  -- the morning: the server, then the secretary, then a student, each with the answers it is given
  have hrun : ((rete macchina).run (fun _ _ => true) (acceso laboratorio portaTxt)
      (serverAvvia ++ segreteriaAvvia 1031 (ascii "1031" ++ [10]) ⟨[127, 0, 0, 1], rfl⟩ (.qui 0 3) ++ studenteAvvia)).map
        (fun d => (avviato d 0, avviato d 1, avviato d 2)) =
      some (some (.server 3), some (.segreteria 3 4), some (.studente 3)) := by decide +kernel
  obtain ⟨d, hd, heq⟩ := Option.map_eq_some_iff.mp hrun
  simp only [Prod.mk.injEq] at heq
  obtain ⟨h0, h1, h2⟩ := heq
  have hservers : ∀ i, laboratorio i = .server → i ∈ ({0} : Finset Nat) := by
    intro i hi
    match i with
    | 0 => exact Finset.mem_singleton_self 0
    | 1 => cases hi
    | n + 2 => cases hi
  have hreach := Pool.reach_run (C := fun _ _ => True) (fun _ _ _ => trivial) _ .init hd
  have hsgombro : ∀ {lo hi : Int}, hi ≤ 1031 → macchina.Sgombro lo hi := by
    intro lo hi hmax q _ hq
    exact ⟨decide_eq_false (by omega), decide_eq_false (by omega)⟩
  obtain ⟨-, -, -, hporta, -, nome, testo, capo, hargv, hcapo, hserver, hsegreteria⟩ :=
    (appuntamento hservers numeral_portaTxt (by decide) (by decide) hreach 1).2.1 3 4 (avviato_eq h1)
  obtain ⟨-, nome', testo', a, capo', hargv', ha, hcapo', hsportello, hstudente⟩ :=
    (appuntamento hservers numeral_portaTxt (by decide) (by decide) hreach 2).2.2 3 (avviato_eq h2)
  cases hargv
  cases hargv'
  obtain ⟨j, fd, rfl⟩ := hsegreteria ⟨[127, 0, 0, 1], rfl⟩ (by decide) (by decide) (hsgombro (by decide))
  obtain rfl : a = ⟨[127, 0, 0, 1], rfl⟩ := Option.some.inj (ha.symm.trans (by decide))
  obtain ⟨j', fd', rfl⟩ := hstudente (by decide) (hsgombro (by decide))
  obtain ⟨argv, hargv⟩ := hsportello j' fd' rfl
  exact ⟨d, hreach, avviato_eq h0, avviato_eq h1, avviato_eq h2, hporta, ⟨j, fd, hcapo, hserver j fd rfl⟩,
    j', fd', argv, hcapo', hargv⟩

/-- What the check of the address lets through: the secretary takes `localhost` for what was in memory, here an
    address of another host. -/
theorem localhost_altrove : ∃ d : StatoRete, (rete macchina).Reach (fun _ _ => True)
      (acceso (Function.update laboratorio 1 (.segreteria [ascii "./segreteria", ascii "localhost"])) portaTxt) d ∧
    Avviato d 1 (.segreteria 3 4) ∧ d.env.sockets 1 3 = some (.connessa .altrove) := by
  have hrun : ((rete macchina).run (fun _ _ => true)
      (acceso (Function.update laboratorio 1 (.segreteria [ascii "./segreteria", ascii "localhost"])) portaTxt)
      (serverAvvia ++ segreteriaAvvia 1031 (ascii "1031" ++ [10]) (Buffer.zero 4) .altrove)).map
        (fun d => (avviato d 1, d.env.sockets 1 3)) =
      some (some (.segreteria 3 4), some (.connessa .altrove)) := by decide +kernel
  obtain ⟨d, hd, heq⟩ := Option.map_eq_some_iff.mp hrun
  obtain ⟨h1, hcapo⟩ := Prod.mk.inj heq
  exact ⟨d, Pool.reach_run (fun _ _ _ => trivial) _ .init hd, avviato_eq h1, hcapo⟩

/-- A number that is set apart for sockets that connect: with no server there, the secretary is connected to itself. -/
theorem porta_effimera : ∃ d : StatoRete, (rete macchina).Reach (fun _ _ => True)
      (acceso laboratorio (ascii "40000")) d ∧
    Avviato d 1 (.segreteria 3 4) ∧ d.env.sockets 1 3 = some (.connessa .connettente) := by
  have hrun : ((rete macchina).run (fun _ _ => true) (acceso laboratorio (ascii "40000"))
      (segreteriaAvvia 40000 (ascii "40000") ⟨[127, 0, 0, 1], rfl⟩ .connettente)).map
        (fun d => (avviato d 1, d.env.sockets 1 3)) =
      some (some (.segreteria 3 4), some (.connessa .connettente)) := by decide +kernel
  obtain ⟨d, hd, heq⟩ := Option.map_eq_some_iff.mp hrun
  obtain ⟨h1, hcapo⟩ := Prod.mk.inj heq
  exact ⟨d, Pool.reach_run (fun _ _ _ => trivial) _ .init hd, avviato_eq h1, hcapo⟩

end Universita

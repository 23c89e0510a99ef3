/-
  THE MATRICOLA OF A BOOKING — whether a booking is made for the student who logged in.

  A booking carries two numbers from the student's connection, the exam and a matricola.  The
  secretary passes the second on to the server without a look at the slot, where the number stands that was
  checked at the login; the list of appelli does use the slot's.  A student who sends another matricola books for
  somebody else.

  The property is about the moment before the write: whatever is about to be sent to the server as the matricola of a
  booking is the number in the slot, and that number had one row at its login.  The condition is on what the student
  has sent when its slot is served, its own matricola behind the code and the exam, and on reads of ints that
  are whole.

  The crux is to know which write is the matricola: code, exam and matricola go to the same socket, so
  `scritte` counts what the turn has written there, and the third is the matricola.  The descriptor of a slot is
  never the server's socket, by the invariant of the sessions, so that nothing else can be counted.

  Contents:
  1. `scritte` — what a turn has written to the server; `TerzaPropria`: the third is the slot's matricola.
  2. `InVista` — the booking a student has to send for it to be its own.
  3. `safe_prenota_propria`, `safe_servi_propria` — a booking, and the turn around it.
  4. **`prenota_per_se`** — the run; `prenota_per_un_altro` — student 1 books for student 2.
-/
import Universita.Descrittori

set_option linter.unusedVariables false

namespace Universita

open Lib Lib.Stream

/-- What was written to the server in a piece of a run, write by write. Three of them are a booking. -/
def scritte (sockfd : Int) (tr : List Evento) : List Bytes := tr.flatMap fun ev => scrittura sockfd ev.1

@[simp] theorem scritte_snoc (sockfd : Int) (tr : List Evento) (o : Sys) (r : o.Ans) :
    scritte sockfd (tr ++ [⟨o, r⟩]) = scritte sockfd tr ++ scrittura sockfd o := by
  simp [scritte]

/-- `InVista l fd m` — the next thing to read from `fd` is a code, an exam and the matricola `m`, each
    of four bytes. The code may be any: which request it is, is decided by `behaviour`. -/
def InVista (l : LatoSegreteria) (fd : Int) (m : Buffer 4) : Prop :=
  ∃ c, ∃ (codice cod : Buffer 4) (resto : Bytes), l.descrittori fd = some c ∧
    l.clienti c = codice.bytes ++ (cod.bytes ++ (m.bytes ++ resto))

/-- A third thing is written to the server only in a turn of a live slot, and is its matricola. The
    first two, the code and the exam, are nobody's. -/
def TerzaPropria (sockfd : Int) (q : Punto × Segreteria) (v : Vista₁) (o : Sys) : Prop :=
  ∀ i s bs, q = (.servi i, s) → o = .write sockfd bs → (scritte sockfd v.1).length = 2 →
    s.Vivo i ∧ bs = (s.clientSockets i).matricola.bytes

section Turno

variable {sockfd : Int} {l : LatoSegreteria} {s : Segreteria}

/-- The answers in a turn that serves a student: its ints are read whole. -/
abbrev RisposteIntere (sockfd : Int) (q : Punto × Segreteria) :=
  (sportello sockfd).answers fun v o r => ∀ i s, q = (.servi i, s) → LeggeInt v.2 o r

theorem terzaPropria_estranea {q : Punto × Segreteria} {v : Vista₁} {o : Sys} (h : ¬ o.Usa sockfd) :
    TerzaPropria sockfd q v o := by
  rintro i s bs - rfl -
  exact absurd rfl h

/-- Calls that leave the server alone raise no question. -/
theorem safe_estraneo {q : Punto × Segreteria} {α : Type} {p : Programma α} {fds : List Int} {v : Vista₁}
    (h : Locale fds p) (hs : sockfd ∉ fds) :
    p.Safe (RisposteIntere sockfd q) (TerzaPropria sockfd q) (fun _ _ => True) v :=
  (Prog.Only.safe (K := fun _ => True) (h.weaken (fun _ _ _ => trivial) fun o ho => ho.estranea hs)
    (fun _ _ _ ho => terzaPropria_estranea ho) (fun _ _ _ _ _ _ _ => ⟨trivial, trivial⟩) trivial).mono
    fun _ _ _ => trivial

/-- ... and calls that write nothing raise no question. -/
theorem terzaPropria_letta {q : Punto × Segreteria} {v : Vista₁} {o : Sys} (h : scrittura sockfd o = []) :
    TerzaPropria sockfd q v o := by
  rintro i s bs - rfl -
  rw [scrittura, if_pos rfl] at h
  cases h

/-- The first two writes raise no question either. -/
theorem terzaPropria_prima {q : Punto × Segreteria} {v : Vista₁} {o : Sys}
    (h : (scritte sockfd v.1).length ≠ 2) :
    TerzaPropria sockfd q v o :=
  fun _ _ _ _ _ h2 => absurd h2 h

/-- **A booking** whose unread bytes are an exam and the slot's matricola: the two whole reads return
    them, and what is written third is the second of them. -/
theorem safe_prenota_propria {s' : Segreteria} {i : Nat} {v : Vista₁} {c : Nat} {cod : Buffer 4}
    {resto : Bytes}
    (hv : s.Vivo i) (hsock : s'.sockfd = sockfd) (hfd : (s.clientSockets i).connfd ≠ sockfd)
    (hc : v.2.descrittori (s.clientSockets i).connfd = some c)
    (hresto : v.2.clienti c = cod.bytes ++ ((s.clientSockets i).matricola.bytes ++ resto))
    (hnil : scritte sockfd v.1 = []) :
    (s'.prenota (s.clientSockets i)).Safe (RisposteIntere sockfd (.servi i, s))
      (TerzaPropria sockfd (.servi i, s)) (fun _ _ => True) v := by
  subst hsock
  refine ⟨terzaPropria_letta rfl, fun cod₀ v₁ h₁ => ⟨terzaPropria_letta rfl, fun mat₀ v₂ h₂ => ?_⟩⟩
  have hl₁ : v.2 = v₁.2 := Option.some.inj h₁.1
  have hl₂ : v₁.2 = v₂.2 := Option.some.inj h₂.1
  have hn₂ : scritte s'.sockfd v₂.1 = [] := by
    rw [h₂.2.1, h₁.2.1, scritte_snoc, scritte_snoc, hnil]
    rfl
  refine ⟨terzaPropria_prima (by rw [hn₂]; decide), fun _ v₃ h₃ => ?_⟩
  obtain ⟨hd₃, hcl₃⟩ := LatoSegreteria.ammette_write (u := ()) h₃.1
  have hn₃ : (scritte s'.sockfd v₃.1).length = 1 := by
    rw [h₃.2.1, scritte_snoc, hn₂, scrittura, if_pos rfl]
    rfl
  -- the exam, then the matricola, as the student sent them
  refine ⟨terzaPropria_letta rfl, fun r v₄ h₄ => ?_⟩
  rw [hl₁, hl₂, ← hd₃] at hc
  rw [hl₁, hl₂, ← hcl₃] at hresto
  obtain ⟨-, hresto₄, hd₄⟩ := LeggeInt.read hfd hc hresto h₄.1 (h₄.2.2 i s rfl)
  refine ⟨terzaPropria_letta rfl, fun r' v₅ h₅ => ?_⟩
  rw [← hd₄] at hc
  obtain ⟨hr', -, -⟩ := LeggeInt.read hfd hc hresto₄ h₅.1 (h₅.2.2 i s rfl)
  have hn₅ : (scritte s'.sockfd v₅.1).length = 1 := by
    rw [h₅.2.1, h₄.2.1, scritte_snoc, scritte_snoc]
    show (scritte s'.sockfd v₃.1 ++ [] ++ []).length = 1
    rw [List.append_nil, List.append_nil, hn₃]
  refine ⟨terzaPropria_prima (by omega), fun _ v₆ h₆ => ⟨?_, fun _ v₇ h₇ => ?_⟩⟩
  · rintro i' s₀ bs hq hbs -
    obtain ⟨hi, rfl⟩ := Prod.mk.inj hq
    obtain rfl := Punto.servi.inj hi
    obtain ⟨-, rfl⟩ := Sys.write.inj hbs
    exact ⟨hv, by rw [hr', Buffer.overlay_full]⟩
  · exact ⟨terzaPropria_letta rfl, fun _ v₈ h₈ => ⟨terzaPropria_letta (if_neg hfd), fun _ _ _ => trivial⟩⟩

/-- **The turn that serves slot `i`**, whose descriptor is not the server's. All requests but the
    booking leave the server alone, and the booking is only taken when its bytes are in view. -/
theorem safe_servi_propria {i : Nat} (hsock : s.sockfd = sockfd)
    (hfd : s.Vivo i → (s.clientSockets i).connfd ≠ sockfd)
    (hreq : s.Servito i → (s.behaviour.overlay (prossimi l (s.clientSockets i).connfd)).toInt = 2 →
      InVista l (s.clientSockets i).connfd (s.clientSockets i).matricola) :
    (Segreteria.passo (.servi i, s)).Safe (RisposteIntere sockfd (.servi i, s))
      (TerzaPropria sockfd (.servi i, s)) (fun _ _ => True) ([], l) := by
  show Prog.Safe _ _ (if i < s.dim then _ else _) _ _
  split
  · rename_i hi
    rw [Prog.safe_bind, Segreteria.servi]
    split
    · rename_i hlive
      have hfd' := hfd ⟨hi, hlive.2⟩
      refine ⟨terzaPropria_letta rfl, fun r v₁ h₁ => ?_⟩
      show Prog.Safe _ _ (if (s.behaviour.overlay r).toInt = 1 then _ else _) _ _
      split
      · rw [Prog.safe_bind]
        have hnot : sockfd ∉ [(s.clientSockets i).connfd] := fun h => hfd' (List.mem_singleton.mp h).symm
        exact safe_estraneo (Segreteria.locale_visualizzaAppelli List.mem_cons_self) hnot
      · split
        · rename_i h2
          rw [Prog.safe_bind]
          have hr : r = prossimi l (s.clientSockets i).connfd :=
            LeggeInt.prossimi hfd' h₁.1 (h₁.2.2 i s rfl)
          -- what comes next on this stream is a booking with the slot's own matricola
          obtain ⟨c, codice, cod, resto, hc, hresto⟩ := hreq ⟨hi, hlive⟩ (hr ▸ h2)
          obtain ⟨-, hresto₁, hd₁⟩ := LeggeInt.read hfd' hc hresto h₁.1 (h₁.2.2 i s rfl)
          rw [← hd₁] at hc
          have hnil : scritte sockfd v₁.1 = [] := by
            rw [h₁.2.1]
            rfl
          exact safe_prenota_propria ⟨hi, hlive.2⟩ hsock hfd' hc hresto₁ hnil
        · split
          · exact ⟨terzaPropria_letta rfl, fun _ _ _ => trivial⟩
          · trivial
    · trivial
  · trivial

end Turno

/-! ## Every run -/

section Run

variable {sockfd listenfd logical : Int} {behaviour : Buffer 4} {slots : Nat → ClientStud}
  {clienti : Nat → Bytes} {d : StatoSegreteria}

/-- Where the secretary is about to send the matricola of a booking for slot `i`: it is the slot's, and was
    checked at the login. -/
def Propria (sockfd : Int) (d : StatoSegreteria) : Prop :=
  ∀ i s bs k, d.turn = (.servi i, s) → d.prog = .call (.write sockfd bs) k →
    (scritte sockfd d.trace).length = 2 → bs = (s.clientSockets i).matricola.bytes ∧
      Controllato (fun n => n % 2 ^ 32 = 1) d.past i (s.clientSockets i)

/-- `PrenotaPerSe d m` — the ints of the students being served are read whole, and where a slot is
    served and code 2 will be found in `behaviour`, its student sent an exam and its own matricola. -/
def PrenotaPerSe (d : StatoSegreteria) : MossaSegreteria → Prop
  | .act o r => ∀ i s, d.turn = (.servi i, s) → LeggeInt d.env o r
  | .turn => ∀ i s, d.prog = .ret (.servi i, s) → s.Servito i →
      (s.behaviour.overlay (prossimi d.env (s.clientSockets i).connfd)).toInt = 2 →
      InVista d.env (s.clientSockets i).connfd (s.clientSockets i).matricola

/-- **A booking is made for the student who logged in** in such a run: wherever the secretary is about
    to send the server a matricola, it is the one in the slot that is served, and the login of that slot
    had looked it up and found one row. -/
theorem prenota_per_se
    (hd : Solo.Reach (sportello sockfd) PrenotaPerSe (apertura sockfd listenfd behaviour logical slots clienti) d) :
    Propria sockfd d := by
  let A : Passato → Punto × Segreteria → Vista₁ → (o : Sys) → o.Ans → Prop := fun _ q v o r =>
    ∀ i s, q = (.servi i, s) → LeggeInt v.2 o r
  let B : Passato → Punto × Segreteria → LatoSegreteria → Prop := fun _ q l =>
    ∀ i s, q = (.servi i, s) → s.Servito i →
      (s.behaviour.overlay (prossimi l (s.clientSockets i).connfd)).toInt = 2 →
      InVista l (s.clientSockets i).connfd (s.clientSockets i).matricola
  let I : Passato → Punto × Segreteria → LatoSegreteria → Prop := fun past q l =>
    Tavola (fun n => n % 2 ^ 32 = 1) sockfd listenfd past q.2 l
  have hA : ∀ (d : StatoSegreteria) o r, PrenotaPerSe d (.act o r) →
    A d.past d.turn (d.trace, d.env) o r :=
    fun d o r h => h
  have hB : ∀ (d : StatoSegreteria) q, PrenotaPerSe d .turn → d.prog = .ret q →
      B (d.past ++ [(d.turn, d.trace)]) q d.env := fun d q h hq i s hs => h i s (by rw [hq, hs])
  have hI : ∀ past q l tr q' l', I past q l → Giro sockfd l q tr q' l' → I (past ++ [(q, tr)]) q' l' :=
    fun past q l tr q' l' h hg => Tavola.giro h hg fun _ _ _ hrows => hrows
  have h0 : I [] (.esterno, Segreteria.iniziale sockfd listenfd behaviour logical slots)
      ⟨clienti, 0, fun _ => none, fun _ => none, [], []⟩ := tavola_iniziale behaviour logical slots
  intro i s bs k hturn hprog h2
  have hsafe : d.prog.Safe _ (TerzaPropria sockfd d.turn) _ _ :=
    Solo.Reach.local (A := A) (B := B) (P := TerzaPropria sockfd) (I := I) hA hB h0 nofun ?_ hd
  · rw [hprog] at hsafe
    obtain ⟨hv, hbs⟩ := hsafe.1 i s bs hturn rfl h2
    -- the table at the beginning of this turn
    obtain ⟨e, hT, -, -⟩ := Solo.Reach.inside (A := A) (B := B) (I := I) safe_giro hA hB h0 nofun
      (fun past q l tr q' l' h _ hg _ => hI past q l tr q' l' h hg) hd
    have hT' : Tavola (fun n => n % 2 ^ 32 = 1) sockfd listenfd d.past d.turn.2 e := hT
    rw [hturn] at hT'
    exact ⟨hbs, (hT'.viva i hv).controllato⟩
  · rintro past ⟨p, s⟩ l hT hreq
    have hgiro : (Segreteria.passo (p, s)).Safe (RisposteIntere sockfd (p, s)) (fun _ _ => True) _ ([], l) :=
      Solo.safe_answered Solo.answered_nil (safe_giro (p, s) l)
    have hpropria : (Segreteria.passo (p, s)).Safe (RisposteIntere sockfd (p, s)) (TerzaPropria sockfd (p, s))
        (fun _ _ => True) ([], l) := by
      cases p with
      | servi i =>
        exact safe_servi_propria hT.sockfd_eq (fun hv => (hT.viva i hv).neSockfd) (hreq i s rfl)
      | _ => exact (hgiro.weaken fun _ _ _ _ _ _ hq => nomatch hq).mono fun _ _ _ => trivial
    exact ((hgiro.and hpropria).weaken fun _ _ h => h.2).mono fun q' v h =>
      hI past _ l v.1 q' v.2 hT h.1.1

end Run

/-! ## Two runs -/

/-- A student logged in as 1 sends a booking of the exam 7 for the matricola `m`. -/
def aperturaPrenota (m : Buffer 4) : StatoSegreteria :=
  aperturaDi ((Buffer.ofInt 2).bytes ++ ((Buffer.ofInt 7).bytes ++ m.bytes))

/-- Up to the write of the matricola. -/
def finoAllaMatricola (m : Buffer 4) : List MossaSegreteria :=
  entrato ++ [.turn, .turn, .act (.select 7 [6, 4, 3] [6, 4, 3]) (some ([6], [])), .turn,
    .act (.read 6 4) (Buffer.ofInt 2).bytes, .act (.indeterminato 4) (Buffer.zero 4),
    .act (.indeterminato 4) (Buffer.zero 4), .act (.write 3 (Buffer.ofInt 2).bytes) (),
    .act (.read 6 4) (Buffer.ofInt 7).bytes, .act (.read 6 4) m.bytes,
    .act (.write 3 (Buffer.ofInt 7).bytes) ()]

/-- What a turn that serves a student is about to write and where, after how many writes to the server, and
    the slot's matricola. -/
def daScrivere (d : StatoSegreteria) : Option (Int × Bytes × Nat × Bytes) :=
  match d.turn, d.prog with
  | (.servi i, s), .call (.write fd bs) _ =>
      some (fd, bs, (scritte 3 d.trace).length, (s.clientSockets i).matricola.bytes)
  | _, _ => none

theorem daScrivere_eq_some {d : StatoSegreteria} {fd : Int} {bs m : Bytes} {n : Nat}
    (h : daScrivere d = some (fd, bs, n, m)) : ∃ i s k, d.turn = (.servi i, s) ∧
      d.prog = .call (.write fd bs) k ∧ (scritte 3 d.trace).length = n ∧
        (s.clientSockets i).matricola.bytes = m := by
  unfold daScrivere at h
  split at h
  · rename_i i s fd' bs' k hturn hprog
    simp only [Option.some.injEq, Prod.mk.injEq] at h
    obtain ⟨rfl, rfl, rfl, rfl⟩ := h
    exact ⟨i, s, k, hturn, hprog, rfl, rfl⟩
  · cases h

/-- Student 1 books for student 2: the matricola that goes to the server is the one he sent. -/
theorem prenota_per_un_altro : ¬ ∀ d, Solo.Reach (sportello 3) (fun _ _ => True)
    (aperturaPrenota (Buffer.ofInt 2)) d →
    Propria 3 d := by
  intro h
  have hrun : ((sportello 3).run (fun _ _ => true) (aperturaPrenota (Buffer.ofInt 2))
      (finoAllaMatricola (Buffer.ofInt 2))).map daScrivere =
      some (some (3, (Buffer.ofInt 2).bytes, 2, (Buffer.ofInt 1).bytes)) := by decide +kernel
  obtain ⟨d, hd, heq⟩ := Option.map_eq_some_iff.mp hrun
  obtain ⟨i, s, k, hturn, hprog, h2, hm⟩ := daScrivere_eq_some heq
  have hbs := (h d (Solo.reach_run (fun _ _ _ => trivial) _ .init hd) i s _ k hturn hprog h2).1
  rw [hm] at hbs
  exact absurd hbs (by decide)

/-- `PrenotaPerSe`, as a test. -/
def perSe (d : StatoSegreteria) : MossaSegreteria → Bool
  | .act (.read fd n) r => n ≠ 4 || match d.env.descrittori fd with
    | some c => r = (d.env.clienti c).take 4
    | none => true
  | .turn => match d.prog with
    | .ret (.servi i, s) =>
      let fd := (s.clientSockets i).connfd
      !(decide (s.Servito i) && decide ((s.behaviour.overlay (prossimi d.env fd)).toInt = 2)) ||
        match d.env.descrittori fd with
        | some c => d.env.clienti c =
            (Buffer.ofInt 2).bytes ++ ((Buffer.ofInt 7).bytes ++ ((s.clientSockets i).matricola.bytes ++ []))
        | none => false
    | _ => true
  | _ => true

theorem perSe_ok (d : StatoSegreteria) (m : MossaSegreteria) (h : perSe d m = true) :
    PrenotaPerSe d m := by
  cases m with
  | act o r =>
    rintro i s -
    cases o with
    | read fd n =>
      rintro rfl c hc
      simpa [perSe, hc] using h
    | _ => trivial
  | turn =>
    intro i s hp hi h2
    simp only [perSe, hp, hi, h2, decide_true, Bool.and_self, Bool.not_true, Bool.false_or] at h
    split at h
    · rename_i c hc
      exact ⟨c, _, _, [], hc, of_decide_eq_true h⟩
    · cases h

/-- Student 1 books for itself: the matricola about to be sent is the slot's. -/
theorem prenota_per_se_uno : ∃ d,
    daScrivere d = some (3, (Buffer.ofInt 1).bytes, 2, (Buffer.ofInt 1).bytes) ∧
    Propria 3 d := by
  have hrun : ((sportello 3).run perSe (aperturaPrenota (Buffer.ofInt 1))
      (finoAllaMatricola (Buffer.ofInt 1))).map daScrivere =
      some (some (3, (Buffer.ofInt 1).bytes, 2, (Buffer.ofInt 1).bytes)) := by decide +kernel
  obtain ⟨d, hd, heq⟩ := Option.map_eq_some_iff.mp hrun
  exact ⟨d, heq, prenota_per_se (Solo.reach_run perSe_ok _ .init hd)⟩

end Universita

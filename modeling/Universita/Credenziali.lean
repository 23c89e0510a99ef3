/-
  WHOSE CREDENTIALS? — what a login's decision depends on.

  `client_sockets[dim].matricola` and `password` are not cleared between connections, so a read that
  delivers fewer bytes than asked leaves bytes of an earlier student in place, and a password without
  NUL runs on into them.

  "Depends only on the connection's own bytes" is a statement about two deliveries of the same bytes: however
  the earlier history went and however the network cut them, they meet one decision and leave one
  matricola (`Indipendente`).  The condition is on the two reads of each delivery and on nothing else: the first
  brings all four bytes, the second brings a NUL.

  One half is a computation (`esito_unico`).  The other asks for a history for every way the condition can fail:
    * the first read is short — two histories that leave different bytes in the slot;
    * the second brings no NUL and does not fill the buffer — a password of another length before it;
    * it fills the buffer — the string runs on into memory that is nobody's.
  A database that distinguishes the two statements then makes the outcomes differ (`esiti_diversi`); that different
  credentials are different statements, and the templates long enough to show it, is `testo_login_ne`.

  Contents:
  1. `motoreTesto` — any database, as a function of the statement's text.
  2. `Taglio` — what the two reads of a login can return of the bytes a connection sends.
  3. `Esito` — an outcome (granted or not, matricola) of a login with these two reads, after SOME
     history of earlier connections since the start of the secretary.
  4. `esito_unico` — with a whole matricola and a terminated password there is one outcome at most.
  5. `esiti_diversi` — without, a history can be found that changes it.
  6. **`indipendente_iff`**, and `sessione_rubata`: a student who types her password behind a wrong matricola.
-/
import Universita.Accesso

set_option linter.unusedVariables false

namespace Universita

open Lib Mondo Segreteria

/-- A database that answers by the text of the statement, and by nothing else: what is known about it is
    what the code knows. -/
def motoreTesto (risposta : Bytes → Option (List Row)) : Motore Unit := fun _ q =>
  (risposta q.testo).map fun rows => ((), rows)

/-- The two reads of a login can return `r` and `r'` of a connection that sends `b`: no byte only at the
    end of the stream. -/
structure Taglio (b r r' : Bytes) : Prop where
  /-- They are the first bytes of the connection, in order. -/
  prefisso : r ++ r' <+: b
  /-- The first fits the matricola ... -/
  length_le : r.length ≤ 4
  /-- ... the second the password. -/
  length_le' : r'.length ≤ 255
  /-- Nothing is returned only at the end of the stream ... -/
  fine : r = [] → b = []
  /-- ... behind the first as well. -/
  fine' : r' = [] → b = r

/-- Started as `s₀`, the secretary can, after some earlier connections, come to a login whose reads
    return `r` and `r'`, decide `concesso` and leave `matricola` in the slot. -/
def Esito (risposta : Bytes → Option (List Row)) (s₀ : Segreteria) (r r' : Bytes) (concesso : Bool)
    (matricola : Buffer 4) : Prop :=
  ∃ (w₀ w w' : Mondo Unit) (s s' : Segreteria) (rest : List Bytes),
    Prog.Loops (chiama (motoreTesto risposta)) passo (.esterno, s₀) w₀ (.accetta, s) w ∧
    w.ingresso = r :: r' :: rest ∧
    Prog.Runs (chiama (motoreTesto risposta)) (passo (.accetta, s)) w (.accetta, s') w' ∧
    w'.ingresso = rest ∧ concesso = decide (s'.dim = s.dim + 1) ∧
    matricola = (s'.clientSockets s.dim).matricola

/-- Whatever the earlier connections sent, a connection that delivers its bytes as `r, r'` and one that
    delivers them as `q, q'` meet the same decision and leave the same matricola. -/
def Indipendente (r r' q q' : Bytes) : Prop :=
  ∀ risposta sockfd listenfd behaviour logical slot c m c' m',
    Esito risposta (.iniziale sockfd listenfd behaviour logical slot) r r' c m →
    Esito risposta (.iniziale sockfd listenfd behaviour logical slot) q q' c' m' → c = c' ∧ m = m'

/-! ## One outcome -/

/-- The turn of the accepting loop that takes some bytes is a login: the other ways through it read
    nothing. -/
theorem run_accetta {D : Type} {m : Motore D} {s s' : Segreteria} {w w' : Mondo D}
    (hrun : Prog.Runs (chiama m) (passo (.accetta, s)) w (.accetta, s') w')
    (hin : w'.ingresso ≠ w.ingresso) :
    ∃ pronti connfd,
      Prog.Runs (chiama m) (accesso ((s.conPronti pronti).connessa connfd)) w s' w' := by
  simp only [passo, accetta, Prog.op_eq, Prog.call_bind, Prog.ret_bind, Prog.pure_eq,
    run_select] at hrun
  obtain ⟨pronti, h⟩ := hrun
  split at h
  · split at h
    · simp only [run_accept] at h
      obtain ⟨connfd, h⟩ := h
      split at h
      · exact absurd (congrArg Mondo.ingresso h.2) hin
      · rw [Prog.runs_bind] at h
        obtain ⟨s₁, w₁, h1, heq, rfl⟩ := h
        obtain rfl : s' = s₁ := (Prod.mk.inj heq).2
        exact ⟨pronti, connfd, h1⟩
    · exact absurd h run_indefinito
  · exact absurd (Prod.mk.inj h.1).1 (by decide)

/-- **With a whole matricola and a terminated password the outcome is that of the connection's own
    bytes.** -/
theorem esito_unico {risposta : Bytes → Option (List Row)} {s₀ : Segreteria} {r r' : Bytes} {c : Bool}
    {m : Buffer 4} (h : Esito risposta s₀ r r' c m) (hr : r.length = 4) (hr' : 0 ∈ r') :
    m.bytes = r ∧ ∃ rows, risposta (Query.login m.toInt (cstr r')).testo = some rows ∧
      c = decide (rows.length % 2 ^ 32 = 1) := by
  obtain ⟨w₀, w, w', s, s', rest, -, hin, hrun, hin', rfl, rfl⟩ := h
  have hne : w'.ingresso ≠ w.ingresso := by
    rw [hin, hin']
    intro h
    have hlen := congrArg List.length h
    simp only [List.length_cons] at hlen
    omega
  obtain ⟨pronti, connfd, hacc⟩ := run_accetta hrun hne
  obtain ⟨q, q', rest', pw, p, hq, -, hq', hpw, hp, rfl, -⟩ := run_accesso_iff.mp hacc
  rw [hin] at hq
  obtain ⟨rfl, rfl, rfl⟩ : r = q ∧ r' = q' ∧ rest = rest' := by simpa using hq
  -- the connection's slot is the slot `dim` of before
  have hdim : ((s.conPronti pronti).connessa connfd).dim = s.dim := rfl
  rw [← hdim, slot_dopoAccesso]
  have hm : (((s.conPronti pronti).connessa connfd).matricolaDopo r).bytes = r := by
    rw [matricolaDopo, Buffer.overlay_bytes_of_le (Nat.le_of_eq hr), List.drop_of_length_le,
      List.append_nil]
    rw [Buffer.size_eq, hr]
  have hpw' : pw = cstr r' := by
    rcases hpw with ⟨-, h⟩ | ⟨h, -⟩
    · rw [h, Buffer.overlay_bytes_of_le hq', cstr_append_of_mem hr']
    · refine absurd ?_ h
      rw [Buffer.overlay_bytes_of_le hq', List.mem_append]
      exact Or.inl hr'
  refine ⟨hm, p.2, ?_, ?_⟩
  · rw [motoreTesto, Option.map_eq_some_iff] at hp
    obtain ⟨rows, hrows, rfl⟩ := hp
    rw [← hpw']
    exact hrows
  · simp only [dim_dopoAccesso]

/-! ## Several outcomes -/

/-- The whole login turn, from the bytes the two reads return to the answer: such a run exists, for any
    string that can be found in the buffer of the password. -/
theorem esiste_accetta {risposta : Bytes → Option (List Row)} {s : Segreteria} {w : Mondo Unit}
    {r r' pw : Bytes} {rest : List Bytes} {rows : List Row} (hdim : s.dim < 4096)
    (hin : w.ingresso = r :: r' :: rest) (hr : r.length ≤ 4) (hr' : r'.length ≤ 255)
    (hpw : Stringa (s.password.overlay r') pw)
    (hrows : risposta (Query.login (s.matricolaDopo r).toInt pw).testo = some rows) :
    ∃ pronti w', Prog.Runs (chiama (motoreTesto risposta)) (passo (.accetta, s)) w
      (.accetta, ((s.conPronti pronti).connessa 5).dopoAccesso r r' rows.length) w' ∧
      w'.ingresso = rest := by
  have hacc : ∃ w', Prog.Runs (chiama (motoreTesto risposta))
      (accesso ((s.conPronti (some ([s.listenfd], []))).connessa 5)) w
      (((s.conPronti (some ([s.listenfd], []))).connessa 5).dopoAccesso r r' rows.length) w' ∧
      w'.ingresso = rest := by
    refine ⟨_, run_accesso_iff.mpr ⟨r, r', rest, pw, ((), rows), hin, hr, hr', hpw, ?_, rfl, rfl⟩, rfl⟩
    have hm : ((s.conPronti (some ([s.listenfd], []))).connessa 5).matricolaDopo r =
        s.matricolaDopo r := by
      rw [matricolaDopo, matricolaDopo]
      simp [connessa, conSlot, conPronti]
    rw [motoreTesto, hm, hrows]
    rfl
  obtain ⟨w', hacc, hw'⟩ := hacc
  -- `select` reports a new connection, and `accept` gives it descriptor 5
  refine ⟨some ([s.listenfd], []), w', ?_, hw'⟩
  simp only [passo, accetta, Prog.op_eq, Prog.call_bind, Prog.ret_bind, Prog.pure_eq, run_select]
  refine ⟨some ([s.listenfd], []), ?_⟩
  have hlisten : (s.conPronti (some ([s.listenfd], []))).listenfd ∈
      (s.conPronti (some ([s.listenfd], []))).readSet := List.mem_singleton.mpr rfl
  rw [if_pos hlisten, if_pos (show (s.conPronti (some ([s.listenfd], []))).dim < 4096 from hdim),
    run_accept]
  refine ⟨5, ?_⟩
  rw [if_neg (show ¬ (5 : Int) < 0 by decide), Prog.runs_bind]
  exact ⟨_, _, hacc, rfl, rfl⟩

/-- A login that follows on a history: with these two reads, and rows that the database has for the
    statement they make, it has this outcome. The histories that a counterexample needs are put together
    with it. -/
theorem esito_dopo {risposta : Bytes → Option (List Row)} {s₀ s : Segreteria} {w₀ w : Mondo Unit}
    {r r' pw : Bytes} {rest : List Bytes} {rows : List Row}
    (hstoria : Prog.Loops (chiama (motoreTesto risposta)) passo (.esterno, s₀) w₀ (.accetta, s) w)
    (hdim : s.dim < 4096) (hin : w.ingresso = r :: r' :: rest) (hr : r.length ≤ 4)
    (hr' : r'.length ≤ 255) (hpw : Stringa (s.password.overlay r') pw)
    (hrows : risposta (Query.login (s.matricolaDopo r).toInt pw).testo = some rows) :
    Esito risposta s₀ r r' (decide (rows.length % 2 ^ 32 = 1)) (s.matricolaDopo r) := by
  obtain ⟨pronti, w', hrun, hw'⟩ := esiste_accetta hdim hin hr hr' hpw hrows
  refine ⟨w₀, w, w', s, _, rest, hstoria, hin, hrun, hw', ?_, ?_⟩
  · rw [← show ((s.conPronti pronti).connessa 5).dim = s.dim from rfl]
    simp only [dim_dopoAccesso]
  · have hslot := slot_dopoAccesso ((s.conPronti pronti).connessa 5) r r' rows.length
    rw [show ((s.conPronti pronti).connessa 5).dim = s.dim from rfl] at hslot
    rw [hslot]
    simp [matricolaDopo, connessa, conSlot, conPronti]

/-- The world in which the coming reads deliver `bs`. -/
def arrivano (bs : List Bytes) : Mondo Unit := ⟨(), bs, [], [], [], none⟩

section Storie

variable {risposta : Bytes → Option (List Row)} {sockfd listenfd : Int} {behaviour : Buffer 4}
  {logical : Int} {slot : Nat → ClientStud}

/-- The first connection finds a zeroed password buffer. -/
theorem esito_primo {r r' pw : Bytes} (rows : List Row) (hr : r.length ≤ 4) (hr' : r'.length ≤ 255)
    (hpw : Stringa ((Buffer.zero 255).overlay r') pw)
    (hrows : risposta (Query.login ((slot 0).matricola.overlay r).toInt pw).testo = some rows) :
    Esito risposta (.iniziale sockfd listenfd behaviour logical slot) r r'
      (decide (rows.length % 2 ^ 32 = 1)) ((slot 0).matricola.overlay r) :=
  esito_dopo (w := arrivano [r, r'])
    (Prog.Loops.turn (Prog.Loops.refl _ _) ⟨rfl, rfl⟩) (Nat.succ_pos _) rfl hr hr' hpw hrows

/-- After a refused connection the buffer and the slot hold what it sent: the next login is the one of
    its own bytes over these. -/
theorem esito_secondo {x x' px r r' pw : Bytes} {rows₁ : List Row} (rows : List Row)
    (hx : x.length ≤ 4) (hx' : x'.length ≤ 255) (hpx : Stringa ((Buffer.zero 255).overlay x') px)
    (hrows₁ : risposta (Query.login ((slot 0).matricola.overlay x).toInt px).testo = some rows₁)
    (hno : rows₁.length % 2 ^ 32 ≠ 1) (hr : r.length ≤ 4) (hr' : r'.length ≤ 255)
    (hpw : Stringa (((Buffer.zero 255).overlay x').overlay r') pw)
    (hrows : risposta (Query.login (((slot 0).matricola.overlay x).overlay r).toInt pw).testo =
      some rows) :
    Esito risposta (.iniziale sockfd listenfd behaviour logical slot) r r'
      (decide (rows.length % 2 ^ 32 = 1)) (((slot 0).matricola.overlay x).overlay r) := by
  obtain ⟨s, hs, hdim, hslot, hpass⟩ : ∃ s : Segreteria,
      s = { Segreteria.iniziale sockfd listenfd behaviour logical slot with
        readSet := [listenfd, sockfd], writeSet := [listenfd, sockfd] } ∧ s.dim = 0 ∧
        s.clientSockets 0 = slot 0 ∧ s.password = Buffer.zero 255 := ⟨_, rfl, rfl, rfl, rfl⟩
  have hinizio : Prog.Loops (chiama (motoreTesto risposta)) passo
      (.esterno, .iniziale sockfd listenfd behaviour logical slot)
      (arrivano [x, x', r, r']) (.accetta, s) (arrivano [x, x', r, r']) :=
    Prog.Loops.turn (Prog.Loops.refl _ _) ⟨by rw [hs]; rfl, rfl⟩
  obtain ⟨pronti, w', hrun, hw'⟩ := esiste_accetta (s := s) (w := arrivano [x, x', r, r'])
    (by rw [hdim]; exact Nat.succ_pos _) rfl hx hx' (by rw [hpass]; exact hpx)
    (by rw [matricolaDopo, hdim, hslot]; exact hrows₁)
  have hstoria := Prog.Loops.turn hinizio hrun
  -- refused: the slot stays the next one's
  obtain ⟨t, ht, hdim', hslot', hpass'⟩ : ∃ t : Segreteria,
      t = ((s.conPronti pronti).connessa 5).dopoAccesso x x' rows₁.length ∧ t.dim = 0 ∧
      (t.clientSockets 0).matricola = (slot 0).matricola.overlay x ∧
      t.password = (Buffer.zero 255).overlay x' := by
    refine ⟨_, rfl, ?_, ?_, ?_⟩
    · rw [dopoAccesso, if_neg hno]; exact hdim
    · have h := slot_dopoAccesso ((s.conPronti pronti).connessa 5) x x' rows₁.length
      rw [show ((s.conPronti pronti).connessa 5).dim = 0 from hdim] at h
      rw [h]
      simp [matricolaDopo, connessa, conSlot, conPronti, hdim, hslot]
    · rw [dopoAccesso, if_neg hno, ← hpass]; rfl
  rw [← ht] at hstoria
  have key := esito_dopo hstoria
    (by rw [hdim']; exact Nat.succ_pos _) hw' hr hr' (by rw [hpass']; exact hpw)
    (by rw [matricolaDopo, hdim', hslot']; exact hrows)
  rwa [matricolaDopo, hdim', hslot'] at key

end Storie

/-- Passwords of different lengths make different statements. -/
theorem testo_login_ne {mat : Buffer 4} {p q : Bytes} (hp : p.length ≤ 256) (hq : q.length ≤ 256)
    (h : p.length ≠ q.length) :
    (Query.login mat.toInt p).testo ≠ (Query.login mat.toInt q).testo := by
  have hd := length_dec_toInt_le mat
  rw [Query.testo, Query.testo, snprintf_number_text hd hp (by decide +kernel),
    snprintf_number_text hd hq (by decide +kernel)]
  intro heq
  have hlen := congrArg List.length heq
  simp only [List.length_append] at hlen
  omega

/-- A password without NUL, read into a zeroed buffer, is what was read. -/
theorem stringa_zero {r : Bytes} (h0 : (0 : Byte) ∉ r) (hr : r.length ≤ 255) :
    Stringa ((Buffer.zero 255).overlay r) r := by
  by_cases hmem : (0 : Byte) ∈ ((Buffer.zero 255).overlay r).bytes
  · exact Or.inl ⟨hmem, (cstr_zero_overlay h0 hr).symm⟩
  · refine Or.inr ⟨hmem, [], ?_⟩
    have hc := cstr_zero_overlay h0 hr
    rw [cstr_of_notMem hmem] at hc
    rw [hc, cstr_nil, List.append_nil]

/-- A buffer without NUL: the string found runs on into the memory behind. -/
theorem stringa_oltre {buf : Buffer 255} (h0 : (0 : Byte) ∉ buf.bytes) :
    ∃ pw, Stringa buf pw ∧ pw.length = 256 := by
  refine ⟨_, Or.inr ⟨h0, [120], rfl⟩, ?_⟩
  rw [List.length_append, Buffer.size_eq]
  rfl

/-- No NUL before, none read, none behind. -/
theorem notMem_overlay {n : Nat} {buf : Buffer n} {r : Bytes} (h : (0 : Byte) ∉ buf.bytes)
    (h0 : (0 : Byte) ∉ r) (hr : r.length ≤ n) : (0 : Byte) ∉ (buf.overlay r).bytes := by
  rw [Buffer.overlay_bytes_of_le hr, List.mem_append]
  rintro (h' | h')
  · exact h0 h'
  · exact h (List.mem_of_mem_drop h')

/-- A password that fills its buffer. -/
def passwordPiena : Buffer 255 := ⟨List.replicate 255 120, List.length_replicate⟩

theorem notMem_passwordPiena : (0 : Byte) ∉ passwordPiena.bytes := fun h =>
  absurd (List.eq_of_mem_replicate h) (by decide)

/-- The secretary of the histories below. -/
def segreteriaZero : Segreteria := .iniziale 3 4 (Buffer.zero 4) 0 fun _ => ⟨0, Buffer.zero 4⟩

/-- **Without a whole matricola or without a terminated password, there is a history that changes the
    outcome.** -/
theorem esiti_diversi {r r' : Bytes} (hr : r.length ≤ 4) (hr' : r'.length ≤ 255)
    (h : ¬ (r.length = 4 ∧ 0 ∈ r')) : ∃ risposta : Bytes → Option (List Row),
    (∀ t, (risposta t).isSome = true) ∧ ∃ c m c' m', Esito risposta segreteriaZero r r' c m ∧
      Esito risposta segreteriaZero r r' c' m' ∧ ¬ (c = c' ∧ m = m') := by
  by_cases hlen : r.length = 4
  · -- the password is not terminated: it is read alone, and over one that fills the buffer
    have h0 : (0 : Byte) ∉ r' := fun h0 => h ⟨hlen, h0⟩
    have hm : ∀ b : Buffer 4, b.overlay r = (Buffer.zero 4).overlay r := by
      intro b
      have hfull := fun b : Buffer 4 => Buffer.overlay_full b ⟨r, hlen⟩
      exact (hfull b).trans (hfull (Buffer.zero 4)).symm
    -- an engine that knows one statement, that of the password without anything behind it
    let risposta : Bytes → Option (List Row) := fun t =>
      if t = (Query.login ((Buffer.zero 4).overlay r).toInt r').testo then some [[]] else some []
    have hpiena : (Buffer.zero 255).overlay passwordPiena.bytes = passwordPiena :=
      Buffer.overlay_full _ _
    -- over a full buffer the string runs on: it is longer than any password, so the statement is another
    obtain ⟨px, hpx, hpxlen⟩ := stringa_oltre notMem_passwordPiena
    obtain ⟨pw, hpw, hpwlen⟩ := stringa_oltre (notMem_overlay notMem_passwordPiena h0 hr')
    have hno : ∀ p : Bytes, p.length = 256 →
        risposta (Query.login ((Buffer.zero 4).overlay r).toInt p).testo = some [] := fun p hp =>
      if_neg (testo_login_ne (by omega) (by omega) (by omega))
    refine ⟨risposta, fun t => by unfold risposta; split <;> rfl, true, _, false, _,
      esito_primo [[]] hr hr' (stringa_zero h0 hr') (if_pos rfl),
      esito_secondo [] hr (Nat.le_of_eq passwordPiena.size_eq) (by rw [hpiena]; exact hpx)
        (hno px hpxlen) (by decide) hr hr' (by rw [hpiena]; exact hpw) ?_,
      fun h => absurd h.1 (by decide)⟩
    rw [hm]
    exact hno pw hpwlen
  · -- the end of the matricola is that of an earlier student
    have hzero : Stringa ((Buffer.zero 255).overlay [0]) [] := Or.inl ⟨by decide, by decide⟩
    obtain ⟨pw, hpw⟩ := esiste_stringa (((Buffer.zero 255).overlay [0]).overlay r')
    refine ⟨fun _ => some [], fun _ => rfl, false, _, false, _,
      esito_secondo (x := [0, 0, 0, 0]) [] (by decide) (by decide) hzero rfl (by decide) hr hr'
        hpw rfl,
      esito_secondo (x := [0, 0, 0, 1]) [] (by decide) (by decide) hzero rfl (by decide) hr hr'
        hpw rfl, fun h => ?_⟩
    have hx := Buffer.overlay_full (Buffer.zero 4) ⟨[0, 0, 0, 0], rfl⟩
    have hy := Buffer.overlay_full (Buffer.zero 4) ⟨[0, 0, 0, 1], rfl⟩
    have hbytes := congrArg Buffer.bytes h.2
    rw [hx, hy, Buffer.overlay_bytes_of_le hr, Buffer.overlay_bytes_of_le hr] at hbytes
    have hdrop := List.append_cancel_left hbytes
    have hlt : r.length < 4 := by omega
    generalize r.length = k at hdrop hlt
    revert hdrop
    interval_cases k <;> decide

/-! ## The exact condition -/

/-- Two prefixes of one list that are equally long are equal. -/
theorem eq_of_prefix {α : Type} {a b c : List α} (ha : a <+: c) (hb : b <+: c)
    (h : a.length = b.length) : a = b :=
  (List.prefix_of_prefix_length_le ha hb (Nat.le_of_eq h)).eq_of_length h

/-- **A login depends only on the connection's own bytes exactly when, each way they are delivered, the
    first read returns the whole matricola and the second one the password's NUL.** -/
theorem indipendente_iff {b r r' q q' : Bytes} (ht : Taglio b r r') (hq : Taglio b q q') :
    Indipendente r r' q q' ↔ (r.length = 4 ∧ 0 ∈ r') ∧ (q.length = 4 ∧ 0 ∈ q') := by
  constructor
  · intro h
    have huno : ∀ {x x' : Bytes}, x.length ≤ 4 → x'.length ≤ 255 →
        ∀ {risposta : Bytes → Option (List Row)}, (∀ t, (risposta t).isSome = true) →
        ∃ c m, Esito risposta segreteriaZero x x' c m := by
      intro x x' hx hx' risposta htot
      obtain ⟨pw, hpw⟩ := esiste_stringa ((Buffer.zero 255).overlay x')
      obtain ⟨rows, hrows⟩ := Option.isSome_iff_exists.mp
        (htot (Query.login ((Buffer.zero 4).overlay x).toInt pw).testo)
      exact ⟨_, _, esito_primo rows hx hx' hpw hrows⟩
    constructor
    · by_contra hno
      obtain ⟨risposta, htot, c, m, c', m', h1, h2, hne⟩ := esiti_diversi ht.length_le ht.length_le' hno
      obtain ⟨d, n, h3⟩ := huno hq.length_le hq.length_le' htot
      obtain ⟨rfl, rfl⟩ := h risposta _ _ _ _ _ _ _ _ _ h1 h3
      obtain ⟨rfl, rfl⟩ := h risposta _ _ _ _ _ _ _ _ _ h2 h3
      exact hne ⟨rfl, rfl⟩
    · by_contra hno
      obtain ⟨risposta, htot, c, m, c', m', h1, h2, hne⟩ := esiti_diversi hq.length_le hq.length_le' hno
      obtain ⟨d, n, h3⟩ := huno ht.length_le ht.length_le' htot
      obtain ⟨rfl, rfl⟩ := h risposta _ _ _ _ _ _ _ _ _ h3 h1
      obtain ⟨rfl, rfl⟩ := h risposta _ _ _ _ _ _ _ _ _ h3 h2
      exact hne ⟨rfl, rfl⟩
  · rintro ⟨⟨hr, hr0⟩, hq4, hq0⟩ risposta _ _ _ _ _ c m c' m' h1 h2
    obtain ⟨hm, rows, hrows, rfl⟩ := esito_unico h1 hr hr0
    obtain ⟨hm', rows', hrows', rfl⟩ := esito_unico h2 hq4 hq0
    -- both deliveries take the same four bytes, and the same password up to its NUL
    have hrq : r = q := eq_of_prefix ((List.prefix_append r r').trans ht.prefisso)
      ((List.prefix_append q q').trans hq.prefisso) (by omega)
    subst hrq
    obtain rfl : m = m' := Buffer.ext (hm.trans hm'.symm)
    have hcstr : cstr r' = cstr q' := by
      rcases List.prefix_or_prefix_of_prefix ht.prefisso hq.prefisso with hp | hp
      · obtain ⟨ys, hys⟩ := (List.prefix_append_right_inj r).mp hp
        rw [← hys, cstr_append_of_mem hr0]
      · obtain ⟨ys, hys⟩ := (List.prefix_append_right_inj r).mp hp
        rw [← hys, cstr_append_of_mem hq0]
    rw [hcstr, hrows'] at hrows
    obtain rfl := Option.some.inj hrows
    exact ⟨rfl, rfl⟩

/-- A whole login, delivered whole both times: four bytes, and a password with its NUL. -/
theorem indipendente_intera :
    Indipendente (Buffer.ofInt 7).bytes [97, 0] (Buffer.ofInt 7).bytes [97, 0] :=
  have ht : Taglio ((Buffer.ofInt 7).bytes ++ [97, 0]) (Buffer.ofInt 7).bytes [97, 0] :=
    ⟨List.prefix_refl _, by decide, by decide, by decide +kernel, by decide +kernel⟩
  (indipendente_iff ht ht).mpr ⟨⟨rfl, by decide⟩, rfl, by decide⟩

/-- A student types her password behind a wrong matricola and is refused; whoever then sends her
    matricola, and nothing else, is logged in as her.  Without her attempt it is refused. -/
theorem sessione_rubata :
    ¬ Indipendente (Buffer.ofInt 20230001).bytes [] (Buffer.ofInt 20230001).bytes [] := by
  intro h
  -- 20230001 logs in with one password; the connection in question sends its matricola and no password
  let risposta : Bytes → Option (List Row) := fun t =>
    if t = (Query.login 20230001 (ascii "password123")).testo then some [[]] else some []
  have hm : ∀ b : Buffer 4, (b.overlay (Buffer.ofInt 20230001).bytes).toInt = 20230001 := by
    intro b
    rw [Buffer.overlay_full, Buffer.toInt_ofInt (by decide) (by decide)]
  have hm' : ((Buffer.zero 4).overlay (Buffer.ofInt 20230002).bytes).toInt = 20230002 := by
    rw [Buffer.overlay_full, Buffer.toInt_ofInt (by decide) (by decide)]
  have hlen : (Buffer.ofInt 20230001).bytes.length ≤ 4 := Nat.le_of_eq (Buffer.size_eq _)
  have hlen' : (Buffer.ofInt 20230002).bytes.length ≤ 4 := Nat.le_of_eq (Buffer.size_eq _)
  have hvuota : Esito risposta segreteriaZero (Buffer.ofInt 20230001).bytes [] false _ :=
    esito_primo [] hlen (Nat.zero_le _) (stringa_zero (by simp) (Nat.zero_le _)) (by
      rw [hm]
      exact if_neg (by decide +kernel))
  have hpw : Stringa ((Buffer.zero 255).overlay (ascii "password123")) (ascii "password123") :=
    stringa_zero (by decide) (by decide)
  -- after a refused login of 20230002 with that password, the buffer still holds it
  have hpiena : Esito risposta segreteriaZero (Buffer.ofInt 20230001).bytes [] true _ :=
    esito_secondo [[]] hlen' (by decide) hpw
      (by rw [hm']; exact if_neg (by decide +kernel)) (by decide) hlen (Nat.zero_le _)
      (by rw [Buffer.overlay_nil]; exact hpw) (by rw [hm]; exact if_pos rfl)
  exact absurd (h risposta _ _ _ _ _ _ _ _ _ hvuota hpiena).1 (by decide)

end Universita

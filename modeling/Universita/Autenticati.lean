/-
  WHO IS LET IN — the sessions of the secretary and the students in the database, in every run of both programs.

  The secretary compares nothing: it sends the credentials into a statement and counts rows.  So a session means
  what it should only if the two reads brought what one connection sent, if the text stays between its quotes,
  if the rows it counts are those of this statement, and if neither the descriptor nor the row goes to someone
  else afterwards, whatever the server does to the tables in between.

  The first two are conditions (`Presentato`): the matricola read whole, the password with its NUL and as plain text.
  The others are proved.  The rows counted are those of the statement just issued because the secretary has one
  connection to MySQL and fetches at once; a descriptor is not reused while it is open because `accept` returns a
  new one; and no act of the server touches `studente`.

  Two parts of the world matter, and the server leaves both alone: the secretary's side of the network and the
  table of students (`Atrio`).  So the secretary is verified alone, turn by turn, with the students as a parameter.

  The crux is `Giro.vivi`: of the slots that are live behind a turn, all were live before and keep their descriptor,
  but for the one this turn let in.  With it the invariant needs a proof for one new session only.

  Contents:
  1. `Presentato` — what the two reads of a login return, and the descriptors `accept` returns.
  2. `Atrio` — what of the world the server leaves alone.
  3. `Accreditato` — a connection that sends the credentials of a student; `atrio_accesso`, `atrio_accetta` — the
     login lets no other one in.
  4. `Connesse`, `Giro.vivi` — the connections to come, and the slots that a turn leaves live.
  5. `Fondata` — the invariant; **`sessioni_fondate`** — every run.
-/
import Universita.Sessioni
import Universita.Riferito

set_option linter.unusedVariables false

namespace Universita

open Lib Lib.Stream

/-- In the loop that accepts connections the matricola is read whole, and the read of the password brings its NUL and
    no quote; `accept` returns a new descriptor. -/
def Presentato (p : Punto) : (o : Sys) → o.Ans → Prop
  | .read _ n, r => p = .accetta → (n = 4 → r.length = 4) ∧ (n = 255 → 0 ∈ r ∧ plain 39 (cstr r) = true)
  | .accept listenfd, fd => fd ≠ listenfd
  | _, _ => True

/-- The secretary's side of the world: its calls in this turn, its connections, the result set that waits for it, and
    where its turn began. -/
structure Atrio where
  /-- The calls of this turn. -/
  traccia : List Evento
  /-- Its connections, and what they have not been read of. -/
  lato : LatoSegreteria
  /-- The result set that waits. -/
  res : Option (List Row)
  /-- Where the turn began. -/
  punto : Punto

section Atrio

variable {M : Mysql} {I : Interprete M} {sockfd : Int} {studenti : List Studente}

/-- One answer, on some day and some database with these students. -/
structure Atrio.Chiama (I : Interprete M) (studenti : List Studente) (sockfd : Int) (v : Atrio) (o : Sys) (r : o.Ans)
    (v' : Atrio) : Prop where
  /-- The answer meets the condition. -/
  presentato : Presentato v.punto o r
  /-- The network admits it ... -/
  lato : v.lato.chiama sockfd o r = some v'.lato
  /-- ... MySQL answers on some day, from some tables with these students ... -/
  mysql : ∃ oggi db db', db.studente = studenti ∧ I.chiama oggi db v.res o r = some (db', v'.res)
  /-- ... and it joins the turn, which began where it began. -/
  traccia : v'.traccia = v.traccia ++ [⟨o, r⟩]
  punto : v'.punto = v.punto

/-- `Accreditato M studenti m b` — the connection that sends `b` has the credentials of a student, with
    the matricola `m`: its first four bytes are `m`, and the string behind them is the password of one
    whose key is that number. -/
def Accreditato (M : Mysql) (studenti : List Studente) (m : Buffer 4) (b : Bytes) : Prop :=
  m.bytes = b.take 4 ∧ ∃ u ∈ studenti, number u.matStudente = (m.toInt : ℚ) ∧
    M.collazione.equal u.passwordStudente (M.sha2 (cstr (b.drop 4))) = true

variable {v v' : Atrio} {o : Sys} {r : o.Ans}

/-- On the network it is an answer like any other, so all that is known of the secretary in front of
    arbitrary students holds here too. -/
theorem Atrio.Chiama.risposte (h : v.Chiama I studenti sockfd o r v') :
    Risposte sockfd (v.traccia, v.lato) o r (v'.traccia, v'.lato) := by
  refine ⟨?_, h.traccia, trivial⟩
  show v.lato.ammette sockfd o r = some v'.lato
  have hlato := h.lato
  have hpres := h.presentato
  cases o with
  | accept listenfd =>
    rw [LatoSegreteria.ammette, if_neg hpres]
    exact hlato
  | _ => exact hlato

/-- The answer to a statement about `studenti`: as many rows as there are students with that number and
    that password. -/
theorem Atrio.Chiama.login {mat : Int} {pw : Bytes} {ok : Bool} (hq : (Query.login mat pw).Dato)
    (h : v.Chiama I studenti sockfd (.mysqlQuery (.login mat pw)) ok v') :
    ∀ rows ∈ v'.res, rows.length = (studenti.filter fun s =>
      number s.matStudente == (mat : ℚ) && M.collazione.equal s.passwordStudente (M.sha2 pw)).length := by
  obtain ⟨oggi, db, db', hstud, hdb⟩ := h.mysql
  intro rows hrows
  rcases Interprete.chiama_query hdb with ⟨rfl, p, hp, -, hres⟩ | ⟨rfl, -, hres⟩
  · rw [I.dato hq] at hp
    obtain rfl := Option.some.inj hp
    rw [hres] at hrows
    obtain rfl := Option.some.inj hrows
    rw [List.length_map, ← hstud]
    rfl
  · rw [hres] at hrows
    cases hrows

/-- A result that is fetched is the one that waited, or none. -/
theorem Atrio.Chiama.store {res : Option (List Row)} (h : v.Chiama I studenti sockfd .mysqlStoreResult res v') :
    res = none ∨ res = v.res := by
  obtain ⟨oggi, db, db', -, hdb⟩ := h.mysql
  exact (Interprete.chiama_store hdb).1

/-- Calls that open and close nothing. -/
theorem Atrio.Chiama.fermo (h : v.Chiama I studenti sockfd o r v') (ho : o.Ferma) :
    v'.lato.descrittori = v.lato.descrittori :=
  LatoSegreteria.ammette_ferma ho h.risposte.1

/-- A read takes the front of what the connection has not been read of; nothing else ever takes from there. -/
theorem Atrio.Chiama.legge {fd : Int} {n c : Nat} {bs : Bytes} (hfd : fd ≠ sockfd)
    (hc : v.lato.descrittori fd = some c) (h : v.Chiama I studenti sockfd (.read fd n) bs v') :
    bs.length ≤ n ∧ v.lato.clienti c = bs ++ v'.lato.clienti c := by
  rcases LatoSegreteria.chiama_read hfd h.lato with ⟨c', q, hc', hq, hl⟩ | ⟨hnone, -, -⟩
  · rw [hc] at hc'
    obtain rfl := Option.some.inj hc'
    obtain ⟨hlen, hsplit, -⟩ := recvEnd_eq_some.mp hq
    refine ⟨hlen, ?_⟩
    rw [hsplit, hl]
    have hself : Function.update v.lato.clienti c q c = q := Function.update_self ..
    exact congrArg (bs ++ ·) hself.symm
  · rw [hc] at hnone
    cases hnone

/-! ## The login -/

/-- The text of a password that came with its NUL, and no quote in it, makes the login a statement about
    data: the rows that MySQL counts are then those of the template. -/
theorem dato_login {m : Buffer 4} {bs : Bytes} (hlen : bs.length ≤ 255) (h0 : 0 ∈ bs)
    (hplain : plain 39 (cstr bs) = true) :
    (Query.login m.toInt (cstr bs)).Dato := by
  refine ⟨hplain, diInt_toInt m, ?_⟩
  have hprefix : cstr bs <+: bs := List.takeWhile_prefix _
  have hne : (cstr bs).length ≠ bs.length := by
    intro heq
    rw [← hprefix.eq_of_length heq] at h0
    exact zero_notMem_cstr bs h0
  have hle := hprefix.length_le
  omega

/-- Behind a login: the connection, which sends `b`, was not let in, or it has the credentials of a student. -/
def Concesso (M : Mysql) (studenti : List Studente) (s : Segreteria) (b : Bytes) (s' : Segreteria) : Prop :=
  s'.dim = s.dim ∨ Accreditato M studenti (s'.clientSockets s.dim).matricola b

/-- **The login.** The two reads bring the connection's first bytes; the rows that MySQL counts are the
    students with these credentials; so a slot is kept for a student's connection or for none. -/
theorem atrio_accesso {s : Segreteria} {fd : Int} {c : Nat} (hslot : (s.clientSockets s.dim).connfd = fd)
    (hfd : fd ≠ sockfd) (hc : v.lato.descrittori fd = some c) (hp : v.punto = .accetta) :
    s.accesso.Safe (Atrio.Chiama I studenti sockfd) (fun _ _ => True)
      (fun s' v' => v'.lato.descrittori = v.lato.descrittori ∧
        (s'.clientSockets s.dim).connfd = fd ∧ Concesso M studenti s (v.lato.clienti c) s') v := by
  subst hslot
  refine ⟨trivial, fun r v₁ h₁ => ⟨trivial, fun r' v₂ h₂ => ⟨trivial, fun _ v₃ h₃ => ?_⟩⟩⟩
  have hd₁ := h₁.fermo trivial
  have hd₃ : v₃.lato.descrittori = v.lato.descrittori := (h₃.fermo trivial).trans ((h₂.fermo trivial).trans hd₁)
  -- the first four bytes are the matricola, the string behind them is the password
  obtain ⟨-, hsplit⟩ := h₁.legge hfd hc
  obtain ⟨hlen', hsplit'⟩ := h₂.legge hfd (by rw [hd₁]; exact hc)
  have hlen : r.length = 4 := (h₁.presentato hp).1 rfl
  obtain ⟨h0, hplain⟩ := (h₂.presentato (h₁.punto.trans hp)).2 rfl
  let m : Buffer 4 := ⟨r, hlen⟩
  have hm : (s.clientSockets s.dim).matricola.overlay r = m := Buffer.overlay_full _ m
  have hpw : (s.password.overlay r').bytes = r' ++ s.password.bytes.drop r'.length := Buffer.overlay_bytes_of_le hlen'
  have htake : (v.lato.clienti c).take 4 = m.bytes := by
    rw [hsplit, List.take_append_of_le_length hlen.ge, List.take_of_length_le hlen.le]
  have hdrop : cstr ((v.lato.clienti c).drop 4) = cstr r' := by
    rw [hsplit, List.drop_left' hlen, hsplit', cstr_append_of_mem h0]
  have hcstr : cString (s.password.overlay r') = .ret (cstr r') := by
    rw [cString, if_pos (by rw [hpw]; exact List.mem_append_left _ h0), hpw, cstr_append_of_mem h0]
    rfl
  show Prog.Safe _ _ (cString (s.password.overlay r') >>= _) _ _
  rw [hcstr, hm]
  refine ⟨trivial, fun ok v₄ h₄ => ⟨trivial, fun res v₅ h₅ => ?_⟩⟩
  have hd₅ : v₅.lato.descrittori = v.lato.descrittori := (h₅.fermo trivial).trans ((h₄.fermo trivial).trans hd₃)
  cases res with
  | none => exact ⟨trivial, fun r _ _ => Empty.elim r⟩
  | some rows =>
    have hself : (s.conSlot s.dim ⟨(s.clientSockets s.dim).connfd, m⟩).clientSockets s.dim =
        ⟨(s.clientSockets s.dim).connfd, m⟩ := Segreteria.conSlot_self s s.dim _
    have hconnfd : ((s.conSlot s.dim ⟨(s.clientSockets s.dim).connfd, m⟩).clientSockets s.dim).connfd =
        (s.clientSockets s.dim).connfd := by rw [hself]
    show Prog.Safe _ _ (if rows.length % 2 ^ 32 ≠ 1 then _ else _) _ _
    split
    · exact ⟨trivial, fun _ v₆ h₆ => ⟨(h₆.fermo trivial).trans hd₅, hconnfd, Or.inl rfl⟩⟩
    · rename_i hrows
      refine ⟨trivial, fun _ v₆ h₆ => ⟨(h₆.fermo trivial).trans hd₅, hconnfd, Or.inr ?_⟩⟩
      -- the rows that were counted are those of the statement
      have hres : some rows = v₄.res := h₅.store.resolve_left (Option.some_ne_none rows)
      have hcount := h₄.login (dato_login hlen' h0 hplain) rows hres.symm
      have hpos : 0 < (studenti.filter fun u => number u.matStudente == (m.toInt : ℚ) &&
          M.collazione.equal u.passwordStudente (M.sha2 (cstr r'))).length := by omega
      obtain ⟨u, hu⟩ := List.exists_mem_of_length_pos hpos
      obtain ⟨hmem, hu⟩ := List.mem_filter.mp hu
      obtain ⟨hnum, hhash⟩ := Bool.and_eq_true_iff.mp hu
      show Accreditato M studenti ((s.conSlot s.dim ⟨(s.clientSockets s.dim).connfd, m⟩).clientSockets s.dim).matricola _
      rw [hself]
      exact ⟨htake.symm, u, hmem, eq_of_beq hnum, by rw [hdrop]; exact hhash⟩

/-! ## The connections to come -/

/-- A connection that was not accepted yet has been read nothing of, and no two descriptors are the same one's. -/
structure Connesse (clienti : Nat → Bytes) (l : LatoSegreteria) : Prop where
  /-- An open connection was accepted. -/
  accettata : ∀ fd c, l.descrittori fd = some c → c < l.accettate
  /-- One to come is unread. -/
  intera : ∀ c, l.accettate ≤ c → l.clienti c = clienti c
  /-- A connection has one descriptor. -/
  unica : ∀ fd fd' c, l.descrittori fd = some c → l.descrittori fd' = some c → fd = fd'

variable {clienti : Nat → Bytes} {l l' : LatoSegreteria}

/-- An answer that touches none of the three. -/
theorem Connesse.resta (h : Connesse clienti l) (hd : l'.descrittori = l.descrittori)
    (hn : l'.accettate = l.accettate) (hc : l'.clienti = l.clienti) : Connesse clienti l' where
  accettata fd c hfd := hn ▸ h.accettata fd c (hd ▸ hfd)
  intera c hle := by rw [hc]; exact h.intera c (hn ▸ hle)
  unica fd fd' c hfd hfd' := h.unica fd fd' c (hd ▸ hfd) (hd ▸ hfd')

/-- An accepted connection has a number that no descriptor has: the numbers count the `accept`s, and are
    never given twice. -/
theorem Connesse.accetta (h : Connesse clienti l) (fd : Int) : Connesse clienti
    { l with descrittori := Function.update l.descrittori fd (some l.accettate), accettate := l.accettate + 1 } := by
  have hcasi : ∀ fd' c, Function.update l.descrittori fd (some l.accettate) fd' = some c →
      fd' = fd ∧ c = l.accettate ∨ l.descrittori fd' = some c ∧ c < l.accettate := by
    intro fd' c hc
    by_cases hfd : fd' = fd
    · rw [hfd, Function.update_self] at hc
      exact Or.inl ⟨hfd, (Option.some.inj hc).symm⟩
    · rw [Function.update_of_ne hfd] at hc
      exact Or.inr ⟨hc, h.accettata fd' c hc⟩
  refine ⟨fun fd' c hc => ?_, fun c hle => h.intera c (Nat.le_of_succ_le hle), fun fd₁ fd₂ c h₁ h₂ => ?_⟩
  · rcases hcasi fd' c hc with ⟨-, rfl⟩ | ⟨-, hlt⟩
    · exact Nat.lt_succ_self _
    · exact Nat.lt_succ_of_lt hlt
  · rcases hcasi fd₁ c h₁ with ⟨rfl, rfl⟩ | ⟨hc₁, hlt₁⟩
    · rcases hcasi fd₂ _ h₂ with ⟨rfl, -⟩ | ⟨-, hlt⟩
      · rfl
      · exact absurd hlt (Nat.lt_irrefl _)
    · rcases hcasi fd₂ c h₂ with ⟨-, rfl⟩ | ⟨hc₂, -⟩
      · exact absurd hlt₁ (Nat.lt_irrefl _)
      · exact h.unica fd₁ fd₂ c hc₁ hc₂

/-- A closed descriptor is nobody's. -/
theorem Connesse.chiude (h : Connesse clienti l) (fd : Int) :
    Connesse clienti { l with descrittori := Function.update l.descrittori fd none } := by
  have hcasi : ∀ fd' c, Function.update l.descrittori fd none fd' = some c → l.descrittori fd' = some c := by
    intro fd' c hc
    by_cases hfd : fd' = fd
    · rw [hfd, Function.update_self] at hc
      cases hc
    · rwa [Function.update_of_ne hfd] at hc
  exact ⟨fun fd' c hc => h.accettata fd' c (hcasi fd' c hc), h.intera,
    fun fd₁ fd₂ c h₁ h₂ => h.unica fd₁ fd₂ c (hcasi fd₁ c h₁) (hcasi fd₂ c h₂)⟩

theorem Connesse.chiama (h : Connesse clienti l) (hl : l.chiama sockfd o r = some l') : Connesse clienti l' := by
  -- only `accept`, a read from a student and `close` move connections
  cases o with
  | select n rs ws =>
    simp only [LatoSegreteria.chiama] at hl
    split at hl
    · rwa [← Option.some.inj hl]
    · cases hl
  | accept lfd =>
    rcases (LatoSegreteria.chiama_accept hl).2.2 with ⟨-, rfl⟩ | ⟨-, rfl⟩
    · exact h
    · exact h.accetta _
  | read fd n =>
    by_cases hfd : fd = sockfd
    · simp only [LatoSegreteria.chiama, if_pos hfd] at hl
      rw [← Option.some.inj hl]
      exact h.resta rfl rfl rfl
    · rcases LatoSegreteria.chiama_read hfd hl with ⟨c, q, hc, -, rfl⟩ | ⟨-, -, rfl⟩
      · refine ⟨h.accettata, fun c' hle => ?_, h.unica⟩
        have hlt := h.accettata fd c hc
        show Function.update l.clienti c q c' = clienti c'
        rw [Function.update_of_ne (Nat.ne_of_gt (Nat.lt_of_lt_of_le hlt hle))]
        exact h.intera c' hle
      · exact h
  | write fd bs =>
    simp only [LatoSegreteria.chiama] at hl
    rw [← Option.some.inj hl]
    split
    · exact h.resta rfl rfl rfl
    · exact h
  | close fd =>
    rw [← Option.some.inj hl]
    exact h.chiude fd
  | mysqlQuery q =>
    cases q with
    | login mat pw =>
      rw [← Option.some.inj hl]
      exact h.resta rfl rfl rfl
    | _ => rwa [← Option.some.inj hl]
  | _ => rwa [← Option.some.inj hl]

/-! ## A turn -/

/-- Slot content `c` belongs to a connection that sends the credentials of a student. What it sends is
    fixed when the run starts, so this does not change while it is read. -/
def DiUnoStudente (M : Mysql) (studenti : List Studente) (clienti : Nat → Bytes) (l : LatoSegreteria)
    (c : ClientStud) : Prop :=
  ∃ n, l.descrittori c.connfd = some n ∧ Accreditato M studenti c.matricola (clienti n)

/-- A turn of the loop that accepts connections: no new session, or one of a student. The two reads are
    the first of a connection that was accepted in this very turn. -/
theorem atrio_accetta {s : Segreteria} (h : Connesse clienti v.lato) (hp : v.punto = .accetta) :
    s.accetta.Safe (Atrio.Chiama I studenti sockfd) (fun _ _ => True)
      (fun q' v' => q'.2.dim = s.dim ∨ DiUnoStudente M studenti clienti v'.lato (q'.2.clientSockets s.dim)) v := by
  refine ⟨trivial, fun pronti v₁ h₁ => ?_⟩
  have hi₁ := h.chiama h₁.lato
  show Prog.Safe _ _ (if s.listenfd ∈ (s.conPronti pronti).readSet then
    (if s.dim < 4096 then _ else _) else _) _ _
  split
  · split
    · refine ⟨trivial, fun fd v₂ h₂ => ?_⟩
      show Prog.Safe _ _ (if fd < 0 then _ else _) _ _
      split
      · exact Or.inl rfl
      · rename_i hneg
        -- the connection that is accepted is the next one, of which nothing was read
        obtain ⟨hsock, -, hcasi⟩ := LatoSegreteria.chiama_accept h₂.lato
        obtain ⟨-, hlato⟩ := hcasi.resolve_left fun h => hneg h.1
        have hslot : (((s.conPronti pronti).connessa fd).clientSockets s.dim).connfd = fd :=
          congrArg ClientStud.connfd (Segreteria.conSlot_self (s.conPronti pronti) s.dim _)
        have hc : v₂.lato.descrittori fd = some v₁.lato.accettate := by
          rw [hlato]
          exact Function.update_self ..
        have hstream : v₂.lato.clienti v₁.lato.accettate = clienti v₁.lato.accettate := by
          rw [hlato]
          exact hi₁.intera _ (Nat.le_refl _)
        have hp₂ : v₂.punto = .accetta := h₂.punto.trans (h₁.punto.trans hp)
        refine (Prog.safe_bind ..).mpr ((atrio_accesso hslot hsock hc hp₂).mono ?_)
        rintro s' v' ⟨hd', hconnfd, hconcesso⟩
        rcases hconcesso with hdim | hacc
        · exact Or.inl hdim
        · rw [hstream] at hacc
          refine Or.inr ⟨v₁.lato.accettate, ?_, hacc⟩
          rw [hd', show (s'.clientSockets s.dim).connfd = fd from hconnfd]
          exact hc
    · exact ⟨trivial, fun r _ _ => Empty.elim r⟩
  · exact Or.inl rfl

/-- The slots that are live behind a turn were live before and keep their descriptors, except for the one that the
    turn let in. -/
theorem Giro.vivi {buono : Nat → Prop} {listenfd : Int} {past : Passato} {s s' : Segreteria} {p p' : Punto}
    {tr : List Evento} (h : Tavola buono sockfd listenfd past s l) (hg : Giro sockfd l (p, s) tr (p', s') l')
    {j : Nat} (hj : s'.Vivo j) :
    (s.Vivo j ∧ s'.clientSockets j = s.clientSockets j ∧
      l'.descrittori (s.clientSockets j).connfd = l.descrittori (s.clientSockets j).connfd) ∨
    (p = .accetta ∧ j = s.dim ∧ s'.dim ≠ s.dim) := by
  cases hg with
  | nessuna _ hd => exact Or.inl ⟨hj, rfl, by rw [hd]⟩
  | @fallita _ _ _ _ pronti fd _ _ _ hd =>
    have hslot : ((s.conPronti pronti).conSlot s.dim { s.clientSockets s.dim with connfd := fd }).clientSockets j =
        s.clientSockets j := Segreteria.conSlot_altri (s := s.conPronti pronti) (Nat.ne_of_lt hj.1)
    exact Or.inl ⟨⟨hj.1, hslot ▸ hj.2⟩, hslot, by rw [hd]⟩
  | @accettata _ _ _ _ _ pronti fd c m pw _ _ rows _ _ _ _ _ hnone hd =>
    by_cases hjd : j = s.dim
    · refine Or.inr ⟨rfl, hjd, ?_⟩
      have hlt := hj.1
      rw [hjd] at hlt
      exact Nat.ne_of_gt hlt
    · have hlt : j < s.dim := by
        have hlt : j < if rows.length % 2 ^ 32 = 1 then s.dim + 1 else s.dim := hj.1
        split at hlt <;> omega
      have hslot : ((s.conPronti pronti).registrata fd m pw).clientSockets j = s.clientSockets j :=
        Segreteria.registrata_altri (s := s.conPronti pronti) hlt
      have hv : s.Vivo j := ⟨hlt, hslot ▸ hj.2⟩
      refine Or.inl ⟨hv, hslot, ?_⟩
      -- the descriptor was not open
      have hne : (s.clientSockets j).connfd ≠ fd := by
        rintro rfl
        exact (h.viva j hv).aperta hnone
      rw [hd, Function.update_of_ne hne]
  | servita _ _ hd => exact Or.inl ⟨hj, rfl, by rw [hd]⟩
  | @uscita _ i _ _ hi _ hd =>
    obtain ⟨hv, hji⟩ := Segreteria.vivo_libera.mp (show (s.conSlot i ⟨-1, Buffer.ofInt 0⟩).Vivo j from hj)
    refine Or.inl ⟨hv, Segreteria.conSlot_altri hji, ?_⟩
    -- the one that is closed was the slot's own
    have hne : (s.clientSockets j).connfd ≠ (s.clientSockets i).connfd := fun heq =>
      hji (h.distinti j i hv ⟨hi.1, hi.2.2⟩ heq)
    rw [hd, Function.update_of_ne hne]
  | operatore hd => exact Or.inl ⟨hj, rfl, by rw [hd]⟩
  | _ => exact Or.inl ⟨hj, rfl, rfl⟩

/-- **The invariant**, at the head of a loop: the table is in order, descriptors belong to different
    connections, and each live slot to one with credentials. -/
structure Fondata (M : Mysql) (studenti : List Studente) (clienti : Nat → Bytes) (sockfd listenfd : Int)
    (s : Segreteria) (l : LatoSegreteria) : Prop where
  /-- The table of slots is in order. -/
  tavola : ∃ past, Tavola (fun _ => True) sockfd listenfd past s l
  /-- The connections are. -/
  connesse : Connesse clienti l
  /-- A live slot is a student's. -/
  sessioni : ∀ i, s.Vivo i → DiUnoStudente M studenti clienti l (s.clientSockets i)

variable {listenfd : Int}

/-- At the start there is no session. -/
theorem fondata_iniziale (behaviour : Buffer 4) (logical : Int) (slots : Nat → ClientStud) :
    Fondata M studenti clienti sockfd listenfd (Segreteria.iniziale sockfd listenfd behaviour logical slots)
      ⟨clienti, 0, fun _ => none, fun _ => none, [], []⟩ where
  tavola := ⟨[], tavola_iniziale behaviour logical slots⟩
  connesse := by
    refine ⟨fun fd c h => ?_, fun c _ => rfl, fun fd fd' c h _ => ?_⟩
    · cases h
    · cases h
  sessioni i hi := absurd hi.1 (Nat.not_lt_zero i)

/-- A turn restores it, when the session it opens is a student's: of the other sessions the turn leaves
    each as it was or ends it. -/
theorem Fondata.giro {s s' : Segreteria} {p p' : Punto} {tr : List Evento}
    (h : Fondata M studenti clienti sockfd listenfd s l) (hg : Giro sockfd l (p, s) tr (p', s') l')
    (hconnesse : Connesse clienti l')
    (hnuova : p = .accetta → s'.dim = s.dim ∨ DiUnoStudente M studenti clienti l' (s'.clientSockets s.dim)) :
    Fondata M studenti clienti sockfd listenfd s' l' := by
  obtain ⟨past, ht⟩ := h.tavola
  refine ⟨⟨_, ht.giro hg fun _ _ _ _ => trivial⟩, hconnesse, fun j hj => ?_⟩
  rcases Giro.vivi ht hg hj with ⟨hv, hslot, hd⟩ | ⟨hp, rfl, hdim⟩
  · obtain ⟨n, hn, hacc⟩ := h.sessioni j hv
    rw [hslot]
    exact ⟨n, hd.trans hn, hacc⟩
  · exact (hnuova hp).resolve_left hdim

theorem fondata_passo {q : Punto × Segreteria} (h : Fondata M studenti clienti sockfd listenfd q.2 v.lato)
    (hp : v.punto = q.1) (htr : v.traccia = []) :
    (Segreteria.passo q).Safe (Atrio.Chiama I studenti sockfd) (fun _ _ => True)
      (fun q' v' => Fondata M studenti clienti sockfd listenfd q'.2 v'.lato) v := by
  obtain ⟨p, s⟩ := q
  -- three facts about one turn: what it does to the sessions, that connections stay connections, and
  -- whom it lets in
  have hgiro : (Segreteria.passo (p, s)).Safe (Atrio.Chiama I studenti sockfd) (fun _ _ => True)
      (fun q' v' => Giro sockfd v.lato (p, s) v'.traccia q' v'.lato) v := by
    refine Prog.Safe.comap (f := fun u : Atrio => (u.traccia, u.lato)) (fun _ _ _ _ hc => hc.risposte)
      (P := fun _ _ => True) (Q := fun q' u => Giro sockfd v.lato (p, s) u.1 q' u.2) ?_
    show Prog.Safe _ _ _ _ (v.traccia, v.lato)
    rw [htr]
    exact safe_giro (p, s) v.lato
  have hconnesse : (Segreteria.passo (p, s)).Safe (Atrio.Chiama I studenti sockfd) (fun _ _ => True)
      (fun _ v' => Connesse clienti v'.lato) v :=
    Prog.safe_keep (K := fun u : Atrio => Connesse clienti u.lato) (fun _ _ _ => trivial)
      (fun _ _ _ _ hu hc => hu.chiama hc.lato) h.connesse
  have hnuova : (Segreteria.passo (p, s)).Safe (Atrio.Chiama I studenti sockfd) (fun _ _ => True)
      (fun q' v' => p = .accetta → q'.2.dim = s.dim ∨
        DiUnoStudente M studenti clienti v'.lato (q'.2.clientSockets s.dim)) v := by
    by_cases hpunto : p = .accetta
    · subst hpunto
      exact (atrio_accetta h.connesse hp).mono fun _ _ hq _ => hq
    · exact (Prog.safe_keep (K := fun _ => True) (fun _ _ _ => trivial) (fun _ _ _ _ _ _ => trivial) trivial).mono
        fun _ _ _ heq => absurd heq hpunto
  refine (((hgiro.and hconnesse).and hnuova).mono ?_).weaken fun _ _ _ => trivial
  rintro ⟨p', s'⟩ v' ⟨⟨hg, hc⟩, hn⟩
  exact h.giro hg hc hn

end Atrio

/-! ## Every run -/

section Corse

variable {M : Mysql} {sockfd listenfd : Int} {I : Interprete M} {giorno : Nat → Data} {clienti : Nat → Bytes}
  {behaviour : Buffer 4} {logical : Int} {slots : Nat → ClientStud} {t : Server} {db : BaseDati M.collazione}
  {d : StatoArchivio M}

/-- `mysql_error` tells the server no success, the date it inserts stays between its quotes, and the secretary's
    logins are as `Presentato` says. -/
def Presentati (d : StatoArchivio M) (m : Mossa) : Prop :=
  Onesta m ∧ ∀ o r, m = .act₁ o r → Presentato d.turn₁.1 o r

/-- What the server's moves leave alone. -/
def StatoArchivio.atrio (d : StatoArchivio M) : Atrio :=
  ⟨d.trace₁, d.env.rete.seg, d.env.resSeg, d.turn₁.1⟩

theorem atrio_second {d' : StatoArchivio M} {m : Mossa} (hm : ¬ m.first)
    (hs : (archivio sockfd I giorno).step d m = some d') : d'.atrio = d.atrio := by
  obtain ⟨hturno, htr, hseg, hres⟩ := archivio_second hm hs
  simp only [StatoArchivio.atrio, hturno, htr, hseg, hres]

theorem fondata_run (hd : (archivio sockfd I giorno).Reach Presentati
      (inizioArchivio clienti (Segreteria.iniziale sockfd listenfd behaviour logical slots) t db) d)
    {q : Punto × Segreteria} (hq : d.prog₁ = .ret q) :
    Fondata M d.env.db.studente clienti sockfd listenfd q.2 d.env.rete.seg := by
  -- the server never writes to `studente`: the table at the end is the one at the beginning
  have hstudenti : ∀ d, (archivio sockfd I giorno).Reach Presentati
      (inizioArchivio clienti (Segreteria.iniziale sockfd listenfd behaviour logical slots) t db) d →
      d.env.db.studente = db.studente :=
    fun d hd => (cresce_run (fun _ _ h => h.1) .init hd).studente
  have h : d.prog₁.Safe (Atrio.Chiama I db.studente sockfd) (fun _ _ => True)
      (fun q v => Fondata M db.studente clienti sockfd listenfd q.2 v.lato) d.atrio := by
    refine hd.local₁ StatoArchivio.atrio (fun d => d.env.db.studente = db.studente) hstudenti ?_ ?_
      (fun _ _ _ => atrio_second) ?_
    · intro d o r d' hJ _ hm hs
      obtain ⟨k, e, -, he, rfl⟩ := Duo.step_act₁ _ hs
      obtain ⟨hrete, hdb, -⟩ := archivio_ans₁ he
      exact ⟨hm.2 o r rfl, (sistema_ans₁.mp hrete).1, ⟨_, _, _, hJ, hdb⟩, rfl, rfl⟩
    · intro d q d' _ _ hq hs hI
      obtain ⟨q', hq', rfl⟩ := Duo.step_turn₁ _ hs
      rw [hq] at hq'
      obtain rfl := Prog.ret.inj hq'
      exact fondata_passo hI rfl rfl
    · exact fondata_iniziale behaviour logical slots
  rw [hq] at h
  rw [hstudenti d hd]
  exact h

/-- **No session without credentials**: whenever the secretary is at the head of a loop, each live slot belongs to a
    connection whose first four bytes are the matricola in the slot and whose string behind them is the password of a
    student of the database with that matricola; and no other live slot belongs to it. -/
theorem sessioni_fondate (hd : (archivio sockfd I giorno).Reach Presentati
      (inizioArchivio clienti (Segreteria.iniziale sockfd listenfd behaviour logical slots) t db) d)
    {p : Punto} {s : Segreteria} (hp : d.prog₁ = .ret (p, s)) {i : Nat} (hi : s.Vivo i) :
    ∃ c, d.env.rete.seg.descrittori (s.clientSockets i).connfd = some c ∧
      Accreditato M d.env.db.studente (s.clientSockets i).matricola (clienti c) ∧
      ∀ j, s.Vivo j → d.env.rete.seg.descrittori (s.clientSockets j).connfd = some c → j = i := by
  have h := fondata_run hd hp
  obtain ⟨past, ht⟩ := h.tavola
  obtain ⟨c, hc, hacc⟩ := h.sessioni i hi
  exact ⟨c, hc, hacc, fun j hj hcj => ht.distinti j i hj hi (h.connesse.unica _ _ c hcj hc)⟩

end Corse

/-! ## One run -/

/-- `Presentati`, as a test that looks at the logins as if every turn were one. -/
def presentati (d : StatoArchivio mysqlLuglio) (m : Mossa) : Bool :=
  onesta d m && match m with
    | .act₁ (.read _ n) r =>
      (decide (n ≠ 4) || decide (r.length = 4)) && (decide (n ≠ 255) || decide (0 ∈ r) && plain 39 (cstr r))
    | .act₁ (.accept listenfd) fd => decide (fd ≠ listenfd)
    | _ => true

theorem presentati_ok (d : StatoArchivio mysqlLuglio) (m : Mossa) (h : presentati d m = true) : Presentati d m := by
  obtain ⟨honesta, h⟩ := Bool.and_eq_true_iff.mp h
  refine ⟨onesta_ok d m honesta, ?_⟩
  rintro o r rfl
  cases o with
  | read fd n =>
    obtain ⟨h4, h255⟩ := Bool.and_eq_true_iff.mp h
    refine fun _ => ⟨fun hn => ?_, fun hn => ?_⟩
    · exact of_decide_eq_true ((Bool.or_eq_true_iff.mp h4).resolve_left fun h => of_decide_eq_true h hn)
    · have h255 := (Bool.or_eq_true_iff.mp h255).resolve_left fun h => of_decide_eq_true h hn
      obtain ⟨h0, hplain⟩ := Bool.and_eq_true_iff.mp h255
      exact ⟨of_decide_eq_true h0, hplain⟩
  | accept listenfd =>
    have hne : r ≠ listenfd := of_decide_eq_true h
    exact hne
  | _ => trivial

/-- What the secretary's turn has come to, as a test. -/
def resa (d : StatoArchivio mysqlLuglio) : Option (Punto × Segreteria) :=
  match d.prog₁ with
  | .ret q => some q
  | .call _ _ => none

theorem ret_of_resa {d : StatoArchivio mysqlLuglio} {q : Punto × Segreteria} (h : resa d = some q) :
    d.prog₁ = .ret q := by
  unfold resa at h
  split at h
  · rename_i hq
    rw [hq, Option.some.inj h]
  · cases h

/-- The student who will book `prog1`, once he was let in: the slot is live, and he sent its matricola
    and his password. -/
theorem sessioni_fondate_prog1 : ∃ (d : StatoArchivio mysqlLuglio) (s : Segreteria),
    d.prog₁ = .ret (.accetta, s) ∧ s.Vivo 0 ∧ ∃ c,
      d.env.rete.seg.descrittori (s.clientSockets 0).connfd = some c ∧
      Accreditato mysqlLuglio d.env.db.studente (s.clientSockets 0).matricola (inizioProg1.env.rete.seg.clienti c) ∧
      ∀ j, s.Vivo j → d.env.rete.seg.descrittori (s.clientSockets j).connfd = some c → j = 0 := by
  have hrun : (((archivio 3 mysqlPrenota fun _ => 20240301).run presentati inizioProg1 (prenotaProg1.take 10)).bind
      fun d => (resa d).map fun q => decide (q.1 = .accetta ∧ q.2.Vivo 0)) = some true := by
    decide +kernel
  obtain ⟨d, hd, hq⟩ := Option.bind_eq_some_iff.mp hrun
  obtain ⟨⟨p, s⟩, hret, hvivo⟩ := Option.map_eq_some_iff.mp hq
  obtain ⟨rfl, hv⟩ : p = .accetta ∧ s.Vivo 0 := of_decide_eq_true hvivo
  have hp := ret_of_resa hret
  exact ⟨d, s, hp, hv, sessioni_fondate (Duo.reach_run presentati_ok _ .init hd) hp hv⟩

end Universita

/-
  TERMINATED TEXTS — whether what was read ends inside its buffer where it is used as a string.

  `read` puts no NUL behind what it stores.  A text is terminated when it brings one, or when one is left
  of what the buffer held: zeros, mostly, but the secretary reads every password and every reply over the
  last one, a list the names and dates of its rows, and a booking into a buffer without initializer.

  So the condition differs from buffer to buffer, and each is one on the bytes that arrive.  The name of an exam, in
  the secretary and in the server, the date of an appello and the answer to a login go into buffers zeroed for them:
  the read is shorter or brings a NUL.  The passwords, the replies to the operator and the rows of a list go one
  over the other into a buffer that was zeroed once: all reads so far are shorter, or one brought a NUL in a byte
  that none of the later ones reached.  The reply to a booking goes over memory that may hold anything: it brings a
  NUL, or the memory has one behind it.

  The crux is to know, in the middle of a turn, what a buffer holds.  `Riempita` is the invariant of the secretary's
  loop: its two buffers are what was read into them since the start, one over the other.  A turn of the server or of
  the student begins with nothing in its buffers.

  Contents:
  1. `Terminata` — no string function looks behind a buffer once something was read.
  2. `Conclusa`, `Concluse`, `ConclusaSu` — the three conditions; `conclusa_iff`, `concluse_iff`, `conclusaSu_iff`: each
     says when a NUL is in the buffer.
  3. `Segreteria.Chiuse`, `Server.Chiuse`, `ProgStudente.Chiuse` — which reads fill which text.
  4. `Segreteria.chiusa_passo`, `Server.chiusa_passo`, `ProgStudente.chiusa_giro` — a turn of each program.
  5. **`terminata_run`** — every run of each program in which what arrives meets its condition.
-/
import Universita.Ascolto
import Universita.Console

set_option linter.unusedVariables false

namespace Universita

open Lib

/-- A string function that looks behind its buffer does so before the turn has read anything: what was
    received is not what it ran out of. -/
def Terminata {σ E : Type} (d : Solo.State Sys Sys.Ans σ E) : Prop :=
  ∀ k, d.prog = .call .oltre k → letture d.trace = []

/-! ## Reads that leave a NUL -/

/-- One read into a zeroed buffer of `n` bytes: it is shorter, or it brings a NUL. -/
def Conclusa (n : Nat) (r : Bytes) : Prop := r.length < n ∨ (0 : Byte) ∈ r.take n

/-- One read into memory that holds anything, here `b`: it brings a NUL, or there is one behind what it reaches. -/
def ConclusaSu {n : Nat} (b : Buffer n) (r : Bytes) : Prop := (0 : Byte) ∈ r.take n ∨ (0 : Byte) ∈ b.bytes.drop r.length

/-- Reads one over the other into a buffer of `n` bytes that was zeroed once: all are shorter, or one of them brings a
    NUL in a byte that no later one reaches. -/
def Concluse (n : Nat) (rs : List Bytes) : Prop := (∀ r ∈ rs, r.length < n) ∨
  ∃ k < rs.length, ∃ j < n, (rs.getD k [])[j]? = some 0 ∧ ∀ r ∈ rs.drop (k + 1), r.length ≤ j

instance (n : Nat) (r : Bytes) : Decidable (Conclusa n r) := inferInstanceAs (Decidable (_ ∨ _))

instance {n : Nat} (b : Buffer n) (r : Bytes) : Decidable (ConclusaSu b r) := inferInstanceAs (Decidable (_ ∨ _))

instance (n : Nat) (rs : List Bytes) : Decidable (Concluse n rs) :=
  inferInstanceAs (Decidable (_ ∨ ∃ k < rs.length, ∃ j < n, _))

section Conclusa

variable {n : Nat} {b : Buffer n} {r : Bytes} {rs : List Bytes}

/-- What a read leaves in a buffer is what it brings, and behind that what was there. -/
theorem conclusaSu_iff : ConclusaSu b r ↔ (0 : Byte) ∈ (b.overlay r).bytes := List.mem_append.symm

/-- In a zeroed buffer there is always a NUL behind a read that is shorter. -/
theorem conclusa_iff : Conclusa n r ↔ (0 : Byte) ∈ ((Buffer.zero n).overlay r).bytes := by
  rw [← conclusaSu_iff, ConclusaSu, Conclusa, or_comm, Buffer.zero, List.drop_replicate, List.mem_replicate]
  refine or_congr_right ?_
  constructor
  · exact fun h => ⟨by omega, rfl⟩
  · rintro ⟨h, -⟩
    omega

/-- **Reads one over the other**: a NUL is left in byte `j` when the last of them to reach it has it
    there, or none reached it at all. By induction on the reads, from the last one. -/
theorem concluse_iff (hn : 0 < n) : Concluse n rs ↔ (0 : Byte) ∈ (rs.foldl Buffer.overlay (Buffer.zero n)).bytes := by
  have hzero : ∀ j < n, (Buffer.zero n).bytes.getD j 0 = 0 := by
    intro j hj
    rw [Buffer.zero, List.getD_eq_getElem _ _ (by rw [List.length_replicate]; exact hj), List.getElem_replicate]
  rw [Buffer.zero_mem_iff]
  constructor
  · rintro (hcorte | ⟨k, -, j, hj, hv, hdopo⟩)
    · -- the last byte is the zero it was
      have hlast : n - 1 < n := Nat.sub_lt hn Nat.one_pos
      refine ⟨n - 1, hlast, ?_⟩
      rw [Buffer.getD_overlays hlast, hzero _ hlast]
      exact Buffer.lastAt_of_short (fun r hr => Nat.le_sub_one_of_lt (hcorte r hr)) 0
    · refine ⟨j, hj, ?_⟩
      rw [Buffer.getD_overlays hj]
      exact Buffer.lastAt_of_getD hv hdopo _
  · rintro ⟨j, hj, h⟩
    rw [Buffer.getD_overlays hj, hzero j hj] at h
    rcases Buffer.lastAt_cases j rs 0 with ⟨hcorte, -⟩ | ⟨k, hk, hv, hdopo⟩
    · exact Or.inl fun r hr => Nat.lt_of_le_of_lt (hcorte r hr) hj
    · rw [h] at hv
      exact Or.inr ⟨k, hk, j, hj, hv, hdopo⟩

end Conclusa

/-- The reads of `n` bytes in a piece of a run. -/
def letti (n : Nat) (tr : List Evento) : List Bytes :=
  tr.filterMap fun
    | ⟨.read _ m, r⟩ => if m = n then some r else none
    | _ => none

section Letti

variable {n : Nat} {tr : List Evento}

/-- A call that is no such read. -/
theorem letti_snoc {o : Sys} {r : o.Ans} (ho : ∀ fd, o ≠ .read fd n) :
    letti n (tr ++ [⟨o, r⟩]) = letti n tr := by
  have hn : letti n [⟨o, r⟩] = [] := by
    cases o with
    | read fd m =>
      have hm : m ≠ n := fun h => ho fd (h ▸ rfl)
      simp [letti, hm]
    | _ => rfl
  refine (List.filterMap_append ..).trans ?_
  exact (congrArg (letti n tr ++ ·) hn).trans (List.append_nil _)

theorem letti_read {fd : Int} {r : Bytes} : letti n (tr ++ [⟨.read fd n, r⟩]) = letti n tr ++ [r] := by
  refine (List.filterMap_append ..).trans (congrArg (letti n tr ++ ·) ?_)
  simp

theorem letti_of_letture (h : letture tr = []) : letti n tr = [] := by
  refine List.filterMap_eq_nil_iff.mpr fun ev hev => ?_
  have hnil := List.filterMap_eq_nil_iff.mp h ev hev
  obtain ⟨o, r⟩ := ev
  cases o with
  | read fd m => cases hnil
  | _ => rfl

end Letti

/-- What a read of `n` bytes returns is in `P`. -/
def Reca (n : Nat) (P : Bytes → Prop) : (o : Sys) → o.Ans → Prop
  | .read _ m, r => m = n → P r
  | _, _ => True

/-- Whatever is asked, such a program does not look behind a buffer. -/
theorem Piano.chiuso {fds : List Int} {α : Type} {p : Programma α} {A : (o : Sys) → o.Ans → Prop}
    (h : Piano fds p) : p.Only A (· ≠ .oltre) fun _ => True :=
  h.weaken (fun _ _ _ => trivial) fun o ho => by
    rintro rfl
    exact ho.2

/-! ## The secretary -/

/-- The reads of a text that the turns at `p` have done, over the whole past: the passwords for the
    accepting loop, the replies for the operator's menu. -/
def testi (p : Punto) (past : Passato) : List Bytes :=
  past.flatMap fun t => if t.1.1 = p then letti 255 t.2 else []

theorem testi_snoc (p : Punto) (past : Passato) (t : (Punto × Segreteria) × List Evento) :
    testi p (past ++ [t]) = testi p past ++ if t.1.1 = p then letti 255 t.2 else [] := by
  simp [testi]

namespace Segreteria

/-- What may arrive: a password, over the earlier ones; the name of an exam, in a zeroed buffer; a reply to the operator,
    over the earlier ones.  (A reply to a booking goes on as it came, and is no string here.) -/
def chiude (past : Passato) (q : Punto × Segreteria) (o : Sys) (r : o.Ans) : Prop :=
  match q.1 with
  | .esterno => True
  | .accetta => Reca 255 (fun r => Concluse 255 (testi .accetta past ++ [r])) o r
  | .servi i => (∃ n, o = .read (q.2.clientSockets i).connfd n) → Reca 255 (Conclusa 255) o r
  | .operatore => Reca 255 (fun r => Concluse 255 (testi .operatore past ++ [r])) o r

/-- What arrives for the secretary. -/
def Chiuse (d : StatoSegreteria) (m : MossaSegreteria) : Prop :=
  ∀ o r, m = .act o r → chiude d.past d.turn o r

/-- The two buffers that are never cleared hold what was read into them, one over the other. It is the
    invariant of the secretary's loop, and an equation: no read is forgotten. -/
structure Riempita (past : Passato) (s : Segreteria) : Prop where
  /-- The passwords ... -/
  password : s.password = (testi .accetta past).foldl Buffer.overlay (Buffer.zero 255)
  /-- ... and the replies to the operator. -/
  result : s.result = (testi .operatore past).foldl Buffer.overlay (Buffer.zero 255)

variable {s : Segreteria} {c : ClientStud} {rs : List Bytes}

/-- The password of a connection: it goes over the earlier ones, and is then used as a string for the
    statement. -/
theorem chiusa_accesso {σ E : Type} {S : Solo Sys Sys.Ans σ E} {v : Solo.View Sys Sys.Ans E}
    (hpw : s.password = rs.foldl Buffer.overlay (Buffer.zero 255)) (hv : letti 255 v.1 = []) :
    s.accesso.Safe (S.answers fun _ o r => Reca 255 (fun r => Concluse 255 (rs ++ [r])) o r)
      (fun v o => o = .oltre → letture v.1 = [])
      (fun s' v' => s'.password = (rs ++ letti 255 v'.1).foldl Buffer.overlay (Buffer.zero 255) ∧
        s'.result = s.result) v := by
  refine ⟨nofun, fun _ v₁ hv₁ => ⟨nofun, fun pw v₂ hv₂ => ⟨nofun, fun _ v₃ hv₃ => ?_⟩⟩⟩
  have h₃ : letti 255 v₃.1 = [pw] := by
    rw [hv₃.2.1, letti_snoc (by simp), hv₂.2.1, letti_read, hv₁.2.1, letti_snoc (by simp), hv]
    rfl
  -- the buffer now holds this connection's read over all the earlier ones
  have hmem := (concluse_iff (by decide)).mp (hv₂.2.2 rfl)
  rw [List.foldl_concat, ← hpw] at hmem
  show Prog.Safe _ _ (cString (s.password.overlay pw) >>= _) _ _
  rw [cString_of_mem hmem, Prog.ret_bind]
  refine ⟨nofun, fun ok v₄ hv₄ => ⟨nofun, fun res v₅ hv₅ => ?_⟩⟩
  have hfine : ∀ v₆ : Solo.View Sys Sys.Ans E, ∀ u,
    v₆.1 = v₅.1 ++ [⟨.write (s.clientSockets s.dim).connfd u, ()⟩] →
      s.password.overlay pw = (rs ++ letti 255 v₆.1).foldl Buffer.overlay (Buffer.zero 255) := by
    intro v₆ u hv₆
    rw [hv₆, letti_snoc (by simp), hv₅.2.1, letti_snoc (by simp), hv₄.2.1, letti_snoc (by simp), h₃,
      List.foldl_concat, hpw]
  cases res with
  | none => exact ⟨nofun, nofun⟩
  | some rows =>
    show Prog.Safe _ _ (if rows.length % 2 ^ 32 ≠ 1 then _ else _) _ _
    split
    · exact ⟨nofun, fun _ v₆ hv₆ => ⟨hfine v₆ _ hv₆.2.1, rfl⟩⟩
    · exact ⟨nofun, fun _ v₆ hv₆ => ⟨hfine v₆ _ hv₆.2.1, rfl⟩⟩

/-- The accepting loop: a password goes over the earlier ones, and is printed and put into the statement
    with whatever they left behind it. -/
theorem chiusa_accetta {σ E : Type} {S : Solo Sys Sys.Ans σ E} {e : E}
    (hpw : s.password = rs.foldl Buffer.overlay (Buffer.zero 255)) :
    s.accetta.Safe (S.answers fun _ o r => Reca 255 (fun r => Concluse 255 (rs ++ [r])) o r)
      (fun v o => o = .oltre → letture v.1 = [])
      (fun q v => q.2.password = (rs ++ letti 255 v.1).foldl Buffer.overlay (Buffer.zero 255) ∧
        q.2.result = s.result) ([], e) := by
  refine ⟨nofun, fun pronti v₁ hv₁ => ?_⟩
  have h₁ : letti 255 v₁.1 = [] := by rw [hv₁.2.1]; rfl
  have hresta : s.password = (rs ++ letti 255 v₁.1).foldl Buffer.overlay (Buffer.zero 255) := by
    rw [h₁, List.append_nil, hpw]
  show Prog.Safe _ _ (if s.listenfd ∈ (s.conPronti pronti).readSet then _ else _) _ _
  split
  · show Prog.Safe _ _ (if s.dim < 4096 then _ else _) _ _
    split
    · refine ⟨nofun, fun connfd v₂ hv₂ => ?_⟩
      have h₂ : letti 255 v₂.1 = [] := by rw [hv₂.2.1, letti_snoc (by simp), h₁]
      show Prog.Safe _ _ (if connfd < 0 then _ else _) _ _
      split
      · refine ⟨?_, rfl⟩
        rw [h₂, List.append_nil]
        exact hpw
      · -- the one password read of the turn is in the login
        refine (Prog.safe_bind ..).mpr ?_
        exact chiusa_accesso (s := (s.conPronti pronti).connessa connfd) hpw h₂
    · exact ⟨nofun, nofun⟩
  · exact ⟨hresta, rfl⟩

theorem chiusa_visualizzaAppelli : (visualizzaAppelli c).Only
    (fun o r => (∃ n, o = .read c.connfd n) → Reca 255 (Conclusa 255) o r) (· ≠ .oltre)
    fun _ => True := by
  have hinvia : ∀ res, (inviaRisultato c.connfd res).Only
      (fun o r => (∃ n, o = .read c.connfd n) → Reca 255 (Conclusa 255) o r) (· ≠ .oltre)
      fun _ => True := fun res => (piano_inviaRisultato (List.mem_singleton_self _) res).chiuso
  have hcoda : (sys .mysqlStoreResult >>= fun res2 => inviaRisultato c.connfd res2).Only
      (fun o r => (∃ n, o = .read c.connfd n) → Reca 255 (Conclusa 255) o r) (· ≠ .oltre)
      fun _ => True := Prog.only_call.mpr ⟨nofun, fun res _ => hinvia res⟩
  refine Prog.only_call.mpr ⟨nofun, fun req _ => Prog.only_call.mpr ⟨nofun, fun r _ => ?_⟩⟩
  show Prog.Only _ _ (if (req.overlay r).toInt = 1 then _ else _) _
  split
  · refine Prog.only_call.mpr ⟨nofun, fun ok _ => ?_⟩
    cases ok with
    | false => exact hcoda
    | true =>
      refine Prog.only_call.mpr ⟨nofun, fun res _ => ?_⟩
      exact (Prog.only_bind (inviaRisultato c.connfd res) _ _).mpr ((hinvia res).mono fun _ _ => hcoda)
  · split
    · refine Prog.only_call.mpr ⟨nofun, fun exam hexam => ?_⟩
      -- the name of the exam goes into zeros: a short read leaves one, a long one brings it
      have hmem : (0 : Byte) ∈ ((Buffer.zero 255).overlay exam).bytes := conclusa_iff.mp (hexam ⟨255, rfl⟩ rfl)
      show Prog.Only _ _ (cString ((Buffer.zero 255).overlay exam) >>= _) _
      rw [cString_of_mem hmem, Prog.ret_bind]
      exact Prog.only_call.mpr ⟨nofun, fun _ _ => hcoda⟩
    · exact hcoda

/-- A booking uses no string function. -/
theorem piana_prenota {A : (o : Sys) → o.Ans → Prop} :
    (s.prenota c).Only A (· ≠ .oltre) fun _ => True := by
  refine Prog.only_call.mpr ⟨nofun, fun _ _ => Prog.only_call.mpr ⟨nofun, fun _ _ => ?_⟩⟩
  refine Prog.only_call.mpr ⟨nofun, fun _ _ => Prog.only_call.mpr ⟨nofun, fun _ _ => ?_⟩⟩
  refine Prog.only_call.mpr ⟨nofun, fun _ _ => Prog.only_call.mpr ⟨nofun, fun _ _ => ?_⟩⟩
  refine Prog.only_call.mpr ⟨nofun, fun _ _ => Prog.only_call.mpr ⟨nofun, fun _ _ => ?_⟩⟩
  exact Prog.only_call.mpr ⟨nofun, fun _ _ => trivial⟩

/-- The turn of a student: a list with the name of an exam, or another request; neither touches the two
    buffers. -/
theorem chiusa_servi {i : Nat} : (s.servi i).Only
    (fun o r => (∃ n, o = .read (s.clientSockets i).connfd n) → Reca 255 (Conclusa 255) o r)
    (· ≠ .oltre)
    fun s' => s'.password = s.password ∧ s'.result = s.result := by
  show Prog.Only _ _ (if _ then _ else _) _
  split
  · refine Prog.only_call.mpr ⟨nofun, fun r _ => ?_⟩
    show Prog.Only _ _ (if (s.behaviour.overlay r).toInt = 1 then _ else _) _
    split
    · exact (Prog.only_bind ..).mpr (chiusa_visualizzaAppelli.mono fun _ _ => ⟨rfl, rfl⟩)
    · split
      · exact (Prog.only_bind ..).mpr (piana_prenota.mono fun _ _ => ⟨rfl, rfl⟩)
      · split
        · exact Prog.only_call.mpr ⟨nofun, fun _ _ => ⟨rfl, rfl⟩⟩
        · exact ⟨rfl, rfl⟩
  · exact ⟨rfl, rfl⟩

theorem chiusa_operatore {σ E : Type} {S : Solo Sys Sys.Ans σ E} {e : E}
    (hris : s.result = rs.foldl Buffer.overlay (Buffer.zero 255)) :
    s.operatore.Safe (S.answers fun _ o r => Reca 255 (fun r => Concluse 255 (rs ++ [r])) o r)
      (fun v o => o = .oltre → letture v.1 = [])
      (fun s' v => s'.password = s.password ∧
        s'.result = (rs ++ letti 255 v.1).foldl Buffer.overlay (Buffer.zero 255)) ([], e) := by
  have hP : ∀ (v : Solo.View Sys Sys.Ans E) (o : Sys), Visto [] [] [] v.1 → o = .oltre →
    letture v.1 = [] :=
    fun v o h _ => h.letture
  have hresta : ∀ v : Solo.View Sys Sys.Ans E, Visto [] [] [] v.1 →
      s.result = (rs ++ letti 255 v.1).foldl Buffer.overlay (Buffer.zero 255) := fun v h => by
    rw [letti_of_letture h.letture, List.append_nil, hris]
  show Prog.Safe _ _ (if s.sockfd ∈ s.writeSet then _ else _) _ _
  split
  · refine (muto_scanInt _).poi visto_nil hP fun logical v₁ _ h₁ => ⟨nofun, fun _ v₂ hv₂ => ?_⟩
    have h₂ : Visto [] [] [] v₂.1 := hv₂.2.1 ▸ h₁.muta trivial
    show Prog.Safe _ _ (if logical = 2 then _ else _) _ _
    split
    · refine ⟨nofun, fun _ v₃ hv₃ => ?_⟩
      have h₃ : Visto [] [] [] v₃.1 := hv₃.2.1 ▸ h₂.muta trivial
      refine (muto_leggiRiga _).poi h₃ hP fun name v₄ _ h₄ => ⟨nofun, fun _ v₅ hv₅ => ?_⟩
      have h₅ : Visto [] [] [] v₅.1 := hv₅.2.1 ▸ h₄.muta trivial
      refine (muto_leggiRiga _).poi h₅ hP fun date v₆ _ h₆ => ⟨nofun, fun _ v₇ hv₇ => ?_⟩
      have h₇ : Visto [] [] [] v₇.1 := hv₇.2.1 ▸ h₆.muta trivial
      refine ⟨nofun, fun r v₈ hv₈ => ?_⟩
      -- the reply, over the earlier ones
      have hmem := (concluse_iff (by decide)).mp (hv₈.2.2 rfl)
      rw [List.foldl_concat, ← hris] at hmem
      show Prog.Safe _ _ (cString (s.result.overlay r) >>= _) _ _
      rw [cString_of_mem hmem, Prog.ret_bind]
      refine ⟨nofun, fun _ v₉ hv₉ => ⟨rfl, ?_⟩⟩
      rw [hv₉.2.1, letti_snoc (by simp), hv₈.2.1, letti_read, letti_of_letture h₇.letture,
        List.nil_append,
        List.foldl_concat, ← hris]
    · exact ⟨rfl, hresta v₂ h₂⟩
  · exact ⟨rfl, hresta _ visto_nil⟩

variable {past : Passato} {s' : Segreteria} {tr : List Evento} {p : Punto}

/-- A turn that leaves both buffers alone. -/
theorem Riempita.resta (h : Riempita past s) (hacc : p ≠ .accetta) (hop : p ≠ .operatore)
    (hs : s'.password = s.password ∧ s'.result = s.result) : Riempita (past ++ [((p, s), tr)]) s' := by
  constructor
  · rw [testi_snoc, if_neg hacc, List.append_nil, hs.1, h.password]
  · rw [testi_snoc, if_neg hop, List.append_nil, hs.2, h.result]

/-- **A turn of the secretary**: what was read is terminated, and the two buffers hold what was read. -/
theorem chiusa_passo {sockfd : Int} (h : Riempita past s) (l : LatoSegreteria) :
    (passo (p, s)).Safe ((sportello sockfd).answers fun _ o r => chiude past (p, s) o r)
      (fun v o => o = .oltre → letture v.1 = [])
      (fun q v => Riempita (past ++ [((p, s), v.1)]) q.2) ([], l) := by
  cases p with
  | esterno => exact h.resta nofun nofun ⟨rfl, rfl⟩
  -- a turn adds its password read to the past ones
  | accetta =>
    refine (chiusa_accetta h.password).mono fun q v hv => ⟨?_, ?_⟩
    · rw [testi_snoc, if_pos rfl, hv.1]
    · rw [testi_snoc, if_neg nofun, List.append_nil, hv.2, h.result]
  -- the requests of the students read no text that outlives them
  | servi i =>
    show Prog.Safe _ _ (if i < s.dim then _ else _) _ _
    split
    · refine (Prog.safe_bind (s.servi i) _ _ _).mpr ?_
      refine (Prog.Only.safe (K := fun _ => True) chiusa_servi (fun _ o _ ho h => absurd h ho)
        (fun _ o r _ _ _ hans => ⟨hans.2.2, trivial⟩) trivial).mono fun s' v hv => ?_
      exact h.resta nofun nofun hv.1
    · exact h.resta nofun nofun ⟨rfl, rfl⟩
  | operatore =>
    refine (Prog.safe_bind s.operatore _ _ _).mpr ?_
    refine (chiusa_operatore h.result).mono fun s' v hv => ⟨?_, ?_⟩
    · rw [testi_snoc, if_neg nofun, List.append_nil, hv.1, h.password]
    · rw [testi_snoc, if_pos rfl, hv.2]

end Segreteria

/-! ## The server -/

namespace Server

/-- What may arrive: a name and a date, each in a zeroed buffer. -/
def chiude (o : Sys) (r : o.Ans) : Prop := Reca 255 (Conclusa 255) o r ∧ Reca 12 (Conclusa 12) o r

/-- What arrives for the server. -/
def Chiuse (d : StatoServer) (m : MossaServer) : Prop := ∀ o r, m = .act o r → chiude o r

/-- The name of the exam and the date, each read into a zeroed buffer of its own. -/
theorem chiusa_aggiungiAppello (connfd : Int) :
    (aggiungiAppello connfd).Only chiude (· ≠ .oltre) fun _ => True := by
  have hfd : connfd ∈ [connfd] := List.mem_singleton_self _
  have hconn : connection.Only chiude (· ≠ .oltre) fun _ => True :=
    (piano_connection : Piano [connfd] _).chiuso
  refine (Prog.only_bind connection _ _).mpr (hconn.mono fun conn _ => ?_)
  refine Prog.only_call.mpr ⟨nofun, fun nome hnome => Prog.only_call.mpr ⟨nofun, fun data hdata => ?_⟩⟩
  -- both texts of a new appello are read into zeros
  have hn : (0 : Byte) ∈ ((Buffer.zero 255).overlay nome).bytes := conclusa_iff.mp (hnome.1 rfl)
  have hd : (0 : Byte) ∈ ((Buffer.zero 12).overlay data).bytes := conclusa_iff.mp (hdata.2 rfl)
  refine Prog.only_call.mpr ⟨nofun, fun i _ => ?_⟩
  show Prog.Only _ _ (cString ((Buffer.zero 255).overlay nome) >>= _) _
  rw [cString_of_mem hn, Prog.ret_bind]
  have hidEsame := (piano_query conn (.idEsame (cstr ((Buffer.zero 255).overlay nome).bytes)) trivial :
    Piano [connfd] _)
  refine (Prog.only_bind (query conn _) _ _).mpr (hidEsame.chiuso.mono fun _ _ => ?_)
  refine Prog.only_call.mpr ⟨nofun, fun res _ => ?_⟩
  cases res with
  | none => exact Prog.only_call.mpr ⟨nofun, nofun⟩
  | some rows =>
    refine (Prog.only_bind (ultimoId i.toInt rows) _ _).mpr
      ((piano_ultimoId rows i.toInt : Piano [connfd] _).chiuso.mono fun id _ => ?_)
    show Prog.Only _ _ (cString ((Buffer.zero 12).overlay data) >>= _) _
    rw [cString_of_mem hd, Prog.ret_bind]
    have hinserisci := (piano_query conn (.inserisciAppello id (cstr ((Buffer.zero 12).overlay data).bytes)) trivial :
      Piano [connfd] _)
    refine (Prog.only_bind (query conn _) _ _).mpr (hinserisci.chiuso.mono fun ok _ => ?_)
    refine (Prog.only_bind (esitoAppello connfd ok) _ _).mpr ((piano_esitoAppello hfd ok).chiuso.mono fun _ _ => ?_)
    exact Prog.only_call.mpr ⟨nofun, fun _ _ => trivial⟩

theorem chiusa_richiesta (s : Server) : s.richiesta.Only chiude (· ≠ .oltre) fun _ => True := by
  refine Prog.only_call.mpr ⟨nofun, fun r _ => ?_⟩
  have hsmista : ∀ request, (smista s.connfd request).Only chiude (· ≠ .oltre) fun _ => True := by
    intro request
    rw [smista]
    split
    · exact chiusa_aggiungiAppello s.connfd
    · split
      · exact (piano_aggiungiPrenotazione (List.mem_singleton_self _)).chiuso
      · trivial
  show Prog.Only _ _ (if 0 < r.length then _ else _) _
  split
  · exact (Prog.only_bind (smista s.connfd _) _ _).mpr ((hsmista _).mono fun _ _ => trivial)
  · trivial

/-- **A turn of the server**: its buffers live as long as the request, so nothing has to be known of the
    turns before it. -/
theorem chiusa_passo (s : Server) : s.passo.Only chiude (· ≠ .oltre) fun _ => True := by
  refine Prog.only_call.mpr ⟨nofun, fun pronti _ => ?_⟩
  have hresto : ∀ (s : Server) (readSet : List Int),
      (if s.connfd ∈ readSet then s.richiesta else pure s : Programma Server).Only chiude (· ≠ .oltre)
        fun _ => True := by
    intro s readSet
    split
    · exact chiusa_richiesta s
    · trivial
  have hpronti : ∀ readSet : List Int, Prog.Only chiude (· ≠ .oltre) (do
      let s ← if s.listenfd ∈ readSet then s.nuovaConnessione else pure s
      if s.connfd ∈ readSet then s.richiesta else pure s) fun _ => True := by
    intro readSet
    split
    · exact Prog.only_call.mpr ⟨nofun, fun fd _ => hresto _ _⟩
    · exact hresto s _
  exact hpronti _

end Server

/-! ## The student's program -/

namespace ProgStudente

/-- What may arrive in the turn `p`, when `tr` is behind it: the answer to a login, in a zeroed buffer; the names and dates
    of a list, each over the last one; the reply to a booking, over whatever was in its memory. -/
def chiude (p : PuntoStud) (tr : List Evento) (o : Sys) (r : o.Ans) : Prop :=
  match p, memorie tr with
  | .accesso _, _ => Reca 255 (Conclusa 255) o r
  | .menu _, [] => Reca 255 (fun r => Concluse 255 (letti 255 tr ++ [r])) o r ∧
      Reca 12 (fun r => Concluse 12 (letti 12 tr ++ [r])) o r
  | .menu _, b :: _ => Reca 255 (ConclusaSu b) o r

/-- What arrives for a student's program. -/
def Chiuse (d : StatoPostazione) (m : Solo.Move Sys Sys.Ans) : Prop :=
  ∀ o r, m = .act o r → chiude d.turn d.trace o r

/-- In a list nothing uninitialised is read over: the names so far, and the dates. -/
theorem chiude.elenco {s : ProgStudente} {tr : List Evento} {o : Sys} {r : o.Ans} (h : chiude (.menu s) tr o r)
    (hm : memorie tr = []) : Reca 255 (fun r => Concluse 255 (letti 255 tr ++ [r])) o r ∧
      Reca 12 (fun r => Concluse 12 (letti 12 tr ++ [r])) o r := by
  simpa only [chiude, hm] using h

theorem chiude.prenotazione {s : ProgStudente} {tr : List Evento} {o : Sys} {r : o.Ans} {b : Buffer 255}
    (h : chiude (.menu s) tr o r) (hm : memorie tr = [b]) : Reca 255 (ConclusaSu b) o r := by
  simpa only [chiude, hm] using h

section Turno

variable {σ E : Type} {S : Solo Sys Sys.Ans σ E} {s s₀ : ProgStudente} {v : Solo.View Sys Sys.Ans E}

/-- Before the first read nothing is asked. -/
theorem prima_di_leggere {ts : List Bytes} {bs : List (Buffer 255)}
    (v : Solo.View Sys Sys.Ans E) (o : Sys)
    (h : Visto [] ts bs v.1) : o = .oltre → letture v.1 = [] := fun _ => h.letture

/-- A login: the reply is in a zeroed buffer, which one read stores into. -/
theorem chiusa_accesso (hv : Visto [] [] [] v.1) :
    s.accesso.Safe (S.answers fun v o r => chiude (.accesso s₀) v.1 o r) (fun v o => o = .oltre → letture v.1 = []) (fun _ _ => True) v := by
  refine (muto_scanInt _).poi hv prima_di_leggere fun mat v₁ _ h₁ => ⟨nofun, fun _ v₂ hv₂ => ?_⟩
  have h₂ : Visto [] [] [] v₂.1 := hv₂.2.1 ▸ h₁.muta trivial
  refine (muto_leggiRiga _).poi h₂ prima_di_leggere fun pass v₃ _ h₃ => ⟨nofun, fun _ v₄ hv₄ => ?_⟩
  have h₄ : Visto [] [] [] v₄.1 := hv₄.2.1 ▸ h₃.muta trivial
  refine ⟨nofun, fun _ v₅ hv₅ => ⟨nofun, fun r v₆ hv₆ => ?_⟩⟩
  have h₅ : Visto [] [] [] v₅.1 := hv₅.2.1 ▸ h₄.muta trivial
  have hmem : (0 : Byte) ∈ ((Buffer.zero 255).overlay r).bytes := conclusa_iff.mp (hv₆.2.2 rfl)
  show Prog.Safe _ _ (cString ((Buffer.zero 255).overlay r) >>= _) _ _
  rw [cString_of_mem hmem, Prog.ret_bind]
  refine ⟨nofun, fun _ v₇ hv₇ => ?_⟩
  show Prog.Safe _ _ (if _ = negato then _ else _) _ _
  split
  · exact ⟨nofun, nofun⟩
  · trivial

/-- The rows of a list: each name and each date is read over the last one. By induction on the number of
    rows, with the reads so far for the two buffers. -/
theorem chiusa_righe (sockfd : Int) : ∀ (n : Nat) {id : Buffer 4} {name : Buffer 255} {date : Buffer 12}
    {v : Solo.View Sys Sys.Ans E}, memorie v.1 = [] →
    name = (letti 255 v.1).foldl Buffer.overlay (Buffer.zero 255) →
    date = (letti 12 v.1).foldl Buffer.overlay (Buffer.zero 12) →
    (righe sockfd id name date n).Safe (S.answers fun v o r => chiude (.menu s₀) v.1 o r)
      (fun v o => o = .oltre → letture v.1 = []) (fun _ _ => True) v
  | 0, _, _, _, _, _, _, _ => trivial
  | n + 1, id, name, date, v, hm, hname, hdate => by
    refine ⟨nofun, fun _ v₁ hv₁ => ⟨nofun, fun r v₂ hv₂ => ⟨nofun, fun r' v₃ hv₃ => ?_⟩⟩⟩
    have hm₁ : memorie v₁.1 = [] := by rw [hv₁.2.1, memorie_snoc (by simp), hm]
    have hl₁ : letti 255 v₁.1 = letti 255 v.1 := by rw [hv₁.2.1, letti_snoc (by simp)]
    have hd₂ : letti 12 v₂.1 = letti 12 v.1 := by
      rw [hv₂.2.1, letti_snoc (by simp), hv₁.2.1, letti_snoc (by simp)]
    have hl₂ : letti 255 v₂.1 = letti 255 v.1 ++ [r] := by rw [hv₂.2.1, letti_read, hl₁]
    have hm₂ : memorie v₂.1 = [] := by rw [hv₂.2.1, memorie_snoc (by simp), hm₁]
    -- the name of this row over those of the rows before it
    have hnome := (concluse_iff (by decide)).mp ((hv₂.2.2.elenco hm₁).1 rfl)
    rw [hl₁, List.foldl_concat, ← hname] at hnome
    have hdata := (concluse_iff (by decide)).mp ((hv₃.2.2.elenco hm₂).2 rfl)
    rw [hd₂, List.foldl_concat, ← hdate] at hdata
    show Prog.Safe _ _ (cString (name.overlay r) >>= fun nome => cString (date.overlay r') >>= _) _ _
    rw [cString_of_mem hnome, Prog.ret_bind, cString_of_mem hdata, Prog.ret_bind]
    refine ⟨nofun, fun _ v₄ hv₄ => chiusa_righe sockfd n ?_ ?_ ?_⟩
    · rw [hv₄.2.1, memorie_snoc (by simp), hv₃.2.1, memorie_snoc (by simp), hm₂]
    · rw [hv₄.2.1, letti_snoc (by simp), hv₃.2.1, letti_snoc (by simp), hl₂, List.foldl_concat, hname]
    · rw [hv₄.2.1, letti_snoc (by simp), hv₃.2.1, letti_read, hd₂, List.foldl_concat, hdate]

/-- The rows are read into buffers that were zeroed once, in front of the loop: each name goes over the
    names before it. -/
theorem chiusa_riceviElenco (sockfd : Int) (s : ProgStudente) (hv : Visto [] [] [] v.1) :
    (riceviElenco sockfd s).Safe (S.answers fun v o r => chiude (.menu s₀) v.1 o r)
      (fun v o => o = .oltre → letture v.1 = []) (fun _ _ => True) v := by
  refine ⟨nofun, fun b v₁ hv₁ => ⟨nofun, fun r v₂ hv₂ => ?_⟩⟩
  have h₁ : Visto [] [] [] v₁.1 := hv₁.2.1 ▸ hv.indeterminato4
  show Prog.Safe _ _ (if (b.overlay r).toInt = 0 then _ else _) _ _
  split
  · exact ⟨nofun, fun _ _ _ => trivial⟩
  · refine ⟨nofun, fun id v₃ hv₃ => (Prog.safe_bind (righe ..) _ _ _).mpr ?_⟩
    refine (chiusa_righe sockfd _ ?_ ?_ ?_).mono fun _ _ _ => trivial
    · rw [hv₃.2.1, memorie_snoc (by simp), hv₂.2.1, memorie_snoc (by simp), h₁.memorie]
    · rw [hv₃.2.1, letti_snoc (by simp), hv₂.2.1, letti_snoc (by simp), letti_of_letture h₁.letture]
      rfl
    · rw [hv₃.2.1, letti_snoc (by simp), hv₂.2.1, letti_snoc (by simp), letti_of_letture h₁.letture]
      rfl

/-- The list of the menu: its choice, perhaps the name of an exam, then the rows. -/
theorem chiusa_visualizza (hv : Visto [] [] [] v.1) :
    s.visualizza.Safe (S.answers fun v o r => chiude (.menu s₀) v.1 o r) (fun v o => o = .oltre → letture v.1 = [])
      (fun _ _ => True) v := by
  refine (muto_scanInt _).poi hv prima_di_leggere fun req v₁ _ h₁ => ⟨nofun, fun _ v₂ hv₂ => ?_⟩
  have h₂ : Visto [] [] [] v₂.1 := hv₂.2.1 ▸ h₁.muta trivial
  refine ⟨nofun, fun _ v₃ hv₃ => ?_⟩
  have h₃ : Visto [] [] [] v₃.1 := hv₃.2.1 ▸ h₂.muta trivial
  show Prog.Safe _ _ (if req = 2 then _ else _) _ _
  split
  · refine (muto_leggiRiga _).poi h₃ prima_di_leggere fun exam v₄ _ h₄ => ⟨nofun, fun _ v₅ hv₅ => ?_⟩
    exact chiusa_riceviElenco _ _ (hv₅.2.1 ▸ h₄.muta trivial)
  · exact chiusa_riceviElenco _ _ h₃

/-- A booking: what was in the buffer shows where the reply does not reach. It is printed before the
    read as well, but only what is used behind a read is asked about. -/
theorem chiusa_prenotaAppello (hv : Visto [] [] [] v.1) :
    s.prenotaAppello.Safe (S.answers fun v o r => chiude (.menu s₀) v.1 o r) (fun v o => o = .oltre → letture v.1 = [])
      (fun _ _ => True) v := by
  refine ⟨nofun, fun c v₁ hv₁ => ?_⟩
  have h₁ : Visto [] [] [] v₁.1 := hv₁.2.1 ▸ hv.indeterminato4
  refine (muto_scanInt _).poi h₁ prima_di_leggere fun cod v₂ _ h₂ => ⟨nofun, fun _ v₃ hv₃ => ?_⟩
  have h₃ : Visto [] [] [] v₃.1 := hv₃.2.1 ▸ h₂.muta trivial
  refine ⟨nofun, fun _ v₄ hv₄ => ⟨nofun, fun _ v₅ hv₅ => ⟨nofun, fun b v₆ hv₆ => ?_⟩⟩⟩
  have h₄ : Visto [] [] [] v₄.1 := hv₄.2.1 ▸ h₃.muta trivial
  have h₅ : Visto [] [] [] v₅.1 := hv₅.2.1 ▸ h₄.muta trivial
  have h₆ : Visto [] [] [b] v₆.1 := hv₆.2.1 ▸ h₅.indeterminato
  refine (muto_cString b).poi h₆ prima_di_leggere fun prima v₇ _ h₇ => ⟨nofun, fun _ v₈ hv₈ => ?_⟩
  have h₈ : Visto [] _ [b] v₈.1 := hv₈.2.1 ▸ h₇.printf
  refine ⟨nofun, fun r v₉ hv₉ => ?_⟩
  have hmem : (0 : Byte) ∈ (b.overlay r).bytes := conclusaSu_iff.mp (hv₉.2.2.prenotazione h₈.memorie rfl)
  show Prog.Safe _ _ (cString (b.overlay r) >>= _) _ _
  rw [cString_of_mem hmem, Prog.ret_bind]
  exact ⟨nofun, fun _ _ _ => trivial⟩

/-- **A turn of the student's program**, login or menu: like the server's, it begins with nothing in its
    buffers. -/
theorem chiusa_giro (p : PuntoStud) (e : E) : (giro p).Safe (S.answers fun v o r => chiude p v.1 o r)
    (fun v o => o = .oltre → letture v.1 = []) (fun _ _ => True) ([], e) := by
  cases p with
  | accesso s => exact (Prog.safe_bind s.accesso _ _ _).mpr ((chiusa_accesso visto_nil).mono fun _ _ _ => trivial)
  | menu s =>
    refine (Prog.safe_bind s.passo _ _ _).mpr ?_
    refine (muto_scanInt _).poi visto_nil prima_di_leggere fun request v₁ _ h₁ =>
      ⟨nofun, fun _ v₂ hv₂ => ?_⟩
    have h₂ : Visto [] [] [] v₂.1 := hv₂.2.1 ▸ h₁.muta trivial
    refine ⟨nofun, fun _ v₃ hv₃ => ?_⟩
    have h₃ : Visto [] [] [] v₃.1 := hv₃.2.1 ▸ h₂.muta trivial
    show Prog.Safe _ _ (if request = 1 then _ else if request = 2 then _ else if request = 3 then _ else _) _ _
    split
    · exact (chiusa_visualizza h₃).mono fun _ _ _ => trivial
    · split
      · exact (Prog.safe_bind (prenotaAppello _) _ _ _).mpr ((chiusa_prenotaAppello h₃).mono fun _ _ _ => trivial)
      · split
        · exact ⟨nofun, fun _ _ _ => ⟨nofun, nofun⟩⟩
        · trivial

end Turno

end ProgStudente

/-! ## Every run -/

/-- Where what is left of a turn looks behind a buffer only before anything is read. -/
theorem terminata_of_safe {σ E : Type} {S : Solo Sys Sys.Ans σ E} {d : Solo.State Sys Sys.Ans σ E}
    {A : Solo.View Sys Sys.Ans E → (o : Sys) → o.Ans → Prop} {Q : σ → Solo.View Sys Sys.Ans E → Prop}
    (h : d.prog.Safe (S.answers A) (fun v o => o = .oltre → letture v.1 = []) Q (d.trace, d.env)) :
    Terminata d := by
  intro k hk
  rw [hk] at h
  exact h.1 rfl

section Segreteria

variable {sockfd listenfd logical : Int} {behaviour : Buffer 4} {slots : Nat → ClientStud}
  {clienti : Nat → Bytes}

/-- In every run of the secretary. -/
theorem terminata_segreteria {d : StatoSegreteria} (hd : Solo.Reach (sportello sockfd) Segreteria.Chiuse
    (apertura sockfd listenfd behaviour logical slots clienti) d) : Terminata d :=
  terminata_of_safe (Solo.Reach.local (A := fun past q _ o r => Segreteria.chiude past q o r) (B := fun _ _ _ => True)
    (P := fun _ v o => o = .oltre → letture v.1 = []) (I := fun past q _ => Segreteria.Riempita past q.2)
    (fun _ _ _ h => h _ _ rfl) (fun _ _ _ _ => trivial) ⟨rfl, rfl⟩ trivial
    (fun past q l h _ => Segreteria.chiusa_passo (p := q.1) (s := q.2) h l) hd)

end Segreteria

theorem terminata_server {listenfd : Int} {request : Buffer 4} {d : StatoServer}
    (hd : Solo.Reach (ascolto listenfd) Server.Chiuse (serverAvviato listenfd request) d) : Terminata d :=
  terminata_of_safe (Solo.Reach.local (A := fun _ _ _ o r => Server.chiude o r) (B := fun _ _ _ => True)
    (P := fun _ v o => o = .oltre → letture v.1 = []) (I := fun _ _ _ => True)
    (fun _ _ _ h => h _ _ rfl) (fun _ _ _ _ => trivial) trivial trivial
    (fun _ s e _ _ => (Prog.Only.safe (K := fun _ => True) (Server.chiusa_passo s)
      (fun _ o _ ho h => absurd h ho) (fun _ o r _ _ _ hans => ⟨hans.2.2, trivial⟩) trivial).mono
      fun _ _ _ => trivial) hd)

theorem terminata_studente {st : ProgStudente} {ingresso : Bytes} {d : StatoPostazione}
    (hd : Solo.Reach postazione ProgStudente.Chiuse (seduta st ingresso) d) : Terminata d :=
  terminata_of_safe (Solo.Reach.local (A := fun _ p v o r => ProgStudente.chiude p v.1 o r)
    (B := fun _ _ _ => True) (P := fun _ v o => o = .oltre → letture v.1 = []) (I := fun _ _ _ => True)
    (fun _ _ _ h => h _ _ rfl) (fun _ _ _ _ => trivial) trivial trivial
    (fun _ p e _ _ => ProgStudente.chiusa_giro p e) hd)

/-- **Received text is a string**: in every run of each of the three programs in which each text arrives short of its
    buffer or brings a NUL that no later read covers (`Chiuse`, one for each program), no string function runs out of
    a buffer that was read into. -/
theorem terminata_run (sockfd listenfd logical : Int) (behaviour request : Buffer 4) (slots : Nat → ClientStud)
    (clienti : Nat → Bytes) (st : ProgStudente) (ingresso : Bytes) :
    (∀ d, Solo.Reach (sportello sockfd) Segreteria.Chiuse
      (apertura sockfd listenfd behaviour logical slots clienti) d → Terminata d) ∧
    (∀ d, Solo.Reach (ascolto listenfd) Server.Chiuse (serverAvviato listenfd request) d → Terminata d) ∧
    ∀ d, Solo.Reach postazione ProgStudente.Chiuse (seduta st ingresso) d → Terminata d :=
  ⟨fun _ => terminata_segreteria, fun _ => terminata_server, fun _ => terminata_studente⟩

/-- `Reca`, as a test. -/
def recaB (n : Nat) (P : Bytes → Bool) : (o : Sys) → o.Ans → Bool
  | .read _ m, r => m ≠ n || P r
  | _, _ => true

theorem recaB_ok {n : Nat} {P : Bytes → Prop} [DecidablePred P] {o : Sys} {r : o.Ans}
    (h : recaB n (fun r => decide (P r)) o r = true) : Reca n P o r := by
  cases o with
  | read fd m =>
    intro hm
    subst hm
    simpa [recaB] using h
  | _ => trivial

/-- `Segreteria.Chiuse`, as a test. -/
def segreteriaChiusa (d : StatoSegreteria) : MossaSegreteria → Bool
  | .turn => true
  | .act o r => match d.turn.1 with
    | .esterno => true
    | .accetta => recaB 255 (fun r => decide (Concluse 255 (testi .accetta d.past ++ [r]))) o r
    | .servi _ => recaB 255 (fun r => decide (Conclusa 255 r)) o r
    | .operatore => recaB 255 (fun r => decide (Concluse 255 (testi .operatore d.past ++ [r]))) o r

theorem segreteriaChiusa_ok (d : StatoSegreteria) (m : MossaSegreteria)
    (h : segreteriaChiusa d m = true) :
    Segreteria.Chiuse d m := by
  rintro o r rfl
  rw [segreteriaChiusa] at h
  unfold Segreteria.chiude
  split at h
  · trivial
  · exact recaB_ok h
  · exact fun _ => recaB_ok h
  · exact recaB_ok h

/-- `Server.Chiuse`, as a test. -/
def serverChiuso (_ : StatoServer) : MossaServer → Bool
  | .turn => true
  | .act o r => recaB 255 (fun r => decide (Conclusa 255 r)) o r && recaB 12 (fun r => decide (Conclusa 12 r)) o r

theorem serverChiuso_ok (d : StatoServer) (m : MossaServer) (h : serverChiuso d m = true) : Server.Chiuse d m := by
  rintro o r rfl
  obtain ⟨hnome, hdata⟩ := (Bool.and_eq_true _ _).mp h
  exact ⟨recaB_ok hnome, recaB_ok hdata⟩

/-- `ProgStudente.Chiuse` for the login, as a test. -/
def studenteChiuso (d : StatoPostazione) : Solo.Move Sys Sys.Ans → Bool
  | .turn => true
  | .act o r => match d.turn with
    | .accesso _ => recaB 255 (fun r => decide (Conclusa 255 r)) o r
    | .menu _ => false

theorem studenteChiuso_ok (d : StatoPostazione) (m : Solo.Move Sys Sys.Ans) (h : studenteChiuso d m = true) :
    ProgStudente.Chiuse d m := by
  rintro o r rfl
  rw [studenteChiuso] at h
  cases hp : d.turn with
  | accesso s =>
    rw [hp] at h
    exact recaB_ok h
  | menu s =>
    rw [hp] at h
    cases h

/-- A request of the secretary for a new appello, up to the two texts. -/
def nuovoAppelloRicevuto (nome data : Bytes) : List MossaServer := [
  .act (.select 5 [4] []) (some ([4], [])), .act (.accept 4) (5 : Int), .turn,
  .act (.select 6 [5, 4] []) (some ([5], [])), .act (.read 5 4) (Buffer.ofInt 1).bytes,
  .act .mysqlInit true, .act .mysqlRealConnect true, .act (.read 5 255) nome, .act (.read 5 12) data,
  .act (.indeterminato 4) (Buffer.zero 4)]

/-- The server at its start. -/
def serverAvviatoVuoto : StatoServer := serverAvviato 4 (Buffer.zero 4)

/-- A reply to the operator, a name and a date for the server, and a login, all terminated. -/
theorem terminata_una :
    (∃ d, Solo.Reach (sportello 3) Segreteria.Chiuse aperturaVuota d ∧ letture d.trace = [ascii "fatto"] ∧ Terminata d) ∧
    (∃ d, Solo.Reach (ascolto 4) Server.Chiuse serverAvviatoVuoto d ∧
      letture d.trace = [(Buffer.ofInt 1).bytes, ascii "prog1", ascii "2024-09-09"] ∧ Terminata d) ∧
    ∃ d, Solo.Reach postazione ProgStudente.Chiuse (seduta ⟨3, 0, 0, Buffer.zero 4⟩ (ascii "7\npw\n")) d ∧
      letture d.trace = [ascii "ok"] ∧ Terminata d := by
  obtain ⟨hsegreteria, hserver, hstudente⟩ := terminata_run 3 4 0 (Buffer.zero 4) (Buffer.zero 4)
    (fun _ => ⟨0, Buffer.zero 4⟩) (fun _ => []) ⟨3, 0, 0, Buffer.zero 4⟩ (ascii "7\npw\n")
  -- a run of each program whose reads are short and leave the zeros behind them
  refine ⟨?_, ?_, ?_⟩
  · have hrun : ((sportello 3).run segreteriaChiusa aperturaVuota
        (richiestaOperatore (ascii "fatto") (ascii "fatto"))).map (fun d => letture d.trace) =
        some [ascii "fatto"] := by decide +kernel
    obtain ⟨d, hd, heq⟩ := Option.map_eq_some_iff.mp hrun
    have hreach := Solo.reach_run segreteriaChiusa_ok _ .init hd
    exact ⟨d, hreach, heq, hsegreteria d hreach⟩
  · have hrun : ((ascolto 4).run serverChiuso serverAvviatoVuoto
        (nuovoAppelloRicevuto (ascii "prog1") (ascii "2024-09-09"))).map (fun d => letture d.trace) =
        some [(Buffer.ofInt 1).bytes, ascii "prog1", ascii "2024-09-09"] := by decide +kernel
    obtain ⟨d, hd, heq⟩ := Option.map_eq_some_iff.mp hrun
    have hreach := Solo.reach_run serverChiuso_ok _ .init hd
    exact ⟨d, hreach, heq, hserver d hreach⟩
  · have hrun : (postazione.run studenteChiuso (seduta ⟨3, 0, 0, Buffer.zero 4⟩
          (ascii "7\npw\n")) (prenotazioneBattuta.take 6)).map (fun d => letture d.trace) = some [ascii "ok"] := by
      decide +kernel
    obtain ⟨d, hd, heq⟩ := Option.map_eq_some_iff.mp hrun
    have hreach := Solo.reach_run studenteChiuso_ok _ .init hd
    exact ⟨d, hreach, heq, hstudente d hreach⟩

/-- The next call looks behind a buffer, and so many reads were done in the turn. -/
def oltreDopo (d : StatoServer) : Option Nat :=
  match d.prog with
  | .call .oltre _ => some (letture d.trace).length
  | _ => none

/-- A name of 255 bytes leaves no room for its NUL: the text of the look-up is made from bytes behind
    the buffer. -/
theorem nome_senza_fine : ¬ ∀ (sockfd listenfd logical : Int) (behaviour request : Buffer 4)
      (slots : Nat → ClientStud) (clienti : Nat → Bytes) (st : ProgStudente) (ingresso : Bytes),
    (∀ d, Solo.Reach (sportello sockfd) (fun _ _ => True)
      (apertura sockfd listenfd behaviour logical slots clienti) d → Terminata d) ∧
    (∀ d, Solo.Reach (ascolto listenfd) (fun _ _ => True) (serverAvviato listenfd request) d → Terminata d) ∧
    ∀ d, Solo.Reach postazione (fun _ _ => True) (seduta st ingresso) d → Terminata d := by
  intro h
  have hserver := (h 3 4 0 (Buffer.zero 4) (Buffer.zero 4) (fun _ => ⟨0, Buffer.zero 4⟩) (fun _ => [])
    ⟨3, 0, 0, Buffer.zero 4⟩ []).2.1
  have hrun : ((ascolto 4).run (fun _ _ => true) serverAvviatoVuoto
      (nuovoAppelloRicevuto (List.replicate 255 65) (ascii "2024-09-09"))).bind oltreDopo = some 3 := by
    decide +kernel
  obtain ⟨d, hd, heq⟩ := Option.bind_eq_some_iff.mp hrun
  have hclaim := hserver d (Solo.reach_run (fun _ _ _ => trivial) _ .init hd)
  unfold oltreDopo at heq
  split at heq
  · rename_i k hk
    rw [hclaim k hk] at heq
    cases heq
  · cases heq

end Universita

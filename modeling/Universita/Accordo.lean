/-
  DO THE TWO SIDES AGREE ON A LOGIN? — the student's one read of the answer.

  The secretary writes one of two texts, without length or terminator.  The student reads once, and
  compares whatever came with the refusal: everything else is success, also a part of the refusal and
  the end of the stream.  What `read` returns of a text is any beginning of it: TCP may cut it anywhere, and
  0 says that the stream has ended, which the student does not look at either.

  The crux is that the two sides decide from different things.  The secretary counts the rows of its query and
  keeps the slot of the connection for exactly one of them; the student compares bytes.  So the two agree on a
  granted login whatever the read returned, and on a refused one only when the text came in one piece.

  Contents:
  1. `Entra`, `entra_iff` — the student's complete runs of the login: those that go on to the menu are those whose
     buffer does not hold the refusal.
  2. `SlotVivo`, `slotVivo_dopoAccesso` — the secretary granted the login and holds a slot for the connection.
  3. `RigheLogin` — the rows that MySQL counts for the credentials that came; `RigheLogin.unica`: there is one such
     number.
  4. **`accordo_iff`** — the student enters the menu only with a live slot exactly when one row was counted or the
     read returned the whole refusal.
-/
import Universita.Accesso
import Universita.Studente

set_option linter.unusedVariables false

namespace Universita

open Lib Mondo

/-- `Entra p r` — the student program can get from its first prompt to the menu when its read returns
    `r`, whatever lies in memory behind the buffer. -/
def Entra (p : ProgStudente) (r : Bytes) : Prop :=
  ∃ (u : Mondo Unit) (p' : ProgStudente) (u' : Mondo Unit), u.ingresso = [r] ∧
    Prog.Runs (chiama fun _ _ => none) p.accesso u p' u'

/-- A password of one letter can be typed, so the student's program always has a run that gets to the read. -/
theorem leggiRiga_x : (cstr ((Buffer.zero 255).overlay ([120, 10] ++ [0])).bytes).length ≠ 0 := by
  decide +kernel

/-- **The student gets to the menu exactly when the string in its buffer is not the refusal.** Whatever
    else it reads, also nothing at all, counts as a success. -/
theorem entra_iff {p : ProgStudente} {r : Bytes} (hr : r.length ≤ 255) :
    Entra p r ↔ ∃ state, Stringa ((Buffer.zero 255).overlay r) state ∧ state ≠ ProgStudente.negato := by
  simp only [Entra, ProgStudente.accesso, scanInt, Prog.op_eq, Prog.call_bind, Prog.ret_bind,
    Prog.pure_eq, run_scanf, run_pulisciInput]
  constructor
  · -- a run that goes on to the menu did not meet the `exit` of the refusal
    rintro ⟨u, p', u', hu, n, h⟩
    rw [Prog.runs_bind] at h
    obtain ⟨pass, u₁, hpass, h⟩ := h
    obtain ⟨riga, rest, -, -, -, -, rfl⟩ := run_leggiRiga.mp hpass
    simp only [run_write, run_read, hu, List.cons.injEq] at h
    obtain ⟨_, _, ⟨rfl, rfl⟩, -, h⟩ := h
    rw [Prog.runs_bind] at h
    obtain ⟨state, u₂, hc, h⟩ := h
    obtain ⟨hstate, rfl⟩ := run_cString.mp hc
    refine ⟨state, hstate, fun heq => ?_⟩
    rw [run_printf, if_pos heq] at h
    exact run_exit h
  · rintro ⟨state, hstate, hne⟩
    -- a user who types one line for the password, and the one read that brings `r`
    refine ⟨⟨(), [r], [[120, 10]], [], [], none⟩, ?_⟩
    apply Exists.intro
    apply Exists.intro
    refine ⟨rfl, none, ?_⟩
    rw [Prog.runs_bind]
    refine ⟨_, _, run_leggiRiga.mpr ⟨[120, 10], [], rfl, by decide, leggiRiga_x, rfl, rfl⟩, ?_⟩
    simp only [run_write, run_read]
    refine ⟨r, [], rfl, hr, ?_⟩
    rw [Prog.runs_bind]
    refine ⟨state, _, run_cString.mpr ⟨hstate, rfl⟩, ?_⟩
    rw [run_printf, if_neg hne]
    exact ⟨rfl, rfl⟩

/-- The login was granted and the connection has a slot: the last one in use holds its descriptor. -/
def SlotVivo (s s' : Segreteria) : Prop :=
  s'.dim = s.dim + 1 ∧ (s'.clientSockets s.dim).connfd = (s.clientSockets s.dim).connfd

/-- The slot is live when the query counted one row, in an `unsigned int`. -/
theorem slotVivo_dopoAccesso {s : Segreteria} {r r' : Bytes} {righe : Nat} :
    SlotVivo s (s.dopoAccesso r r' righe) ↔ righe % 2 ^ 32 = 1 := by
  rw [SlotVivo, Segreteria.dim_dopoAccesso, Segreteria.slot_dopoAccesso]
  exact ⟨fun h => h.1, fun h => ⟨h, rfl⟩⟩

/-- The rows MySQL counts for the login between `w` and `w'`: the matricola is what the first read left in the slot,
    the password the string that the second left in the buffer, and the tables are those of `w`. -/
def RigheLogin {D : Type} (m : Motore D) (s : Segreteria) (w w' : Mondo D) (righe : Nat) : Prop :=
  ∃ r₁ r₂ rest pw p, w.ingresso = r₁ :: r₂ :: rest ∧ Stringa (s.password.overlay r₂) pw ∧
    w'.istruzioni = w.istruzioni ++ [.login (s.matricolaDopo r₁).toInt pw] ∧
    m w.db (.login (s.matricolaDopo r₁).toInt pw) = some p ∧ righe = p.2.length

/-- A run has one statement, and one number of rows for it. -/
theorem RigheLogin.unica {D : Type} {m : Motore D} {s : Segreteria} {w w' : Mondo D} {righe righe' : Nat}
    (h : RigheLogin m s w w' righe) (h' : RigheLogin m s w w' righe') : righe = righe' := by
  obtain ⟨r₁, r₂, rest, pw, p, -, -, hq, hp, rfl⟩ := h
  obtain ⟨r₁', r₂', rest', pw', p', -, -, hq', hp', rfl⟩ := h'
  have hstessa : Query.login (s.matricolaDopo r₁).toInt pw = .login (s.matricolaDopo r₁').toInt pw' :=
    (List.cons.inj (List.append_cancel_left (hq.symm.trans hq'))).1
  rw [hstessa, hp'] at hp
  rw [Option.some.inj hp]

/-- What the student's read returned of one of the two answers is the refusal, or the student goes on. -/
theorem entra_risposta {p : ProgStudente} {r : Bytes} {righe : Nat} (hr : r <+: Segreteria.risposta righe) :
    Entra p r ↔ r ≠ ProgStudente.negato := by
  have h0 : (0 : Byte) ∉ Segreteria.risposta righe ∧ (Segreteria.risposta righe).length < 255 := by
    unfold Segreteria.risposta
    split <;> decide +kernel
  have hlen : r.length < 255 := Nat.lt_of_le_of_lt hr.length_le h0.2
  have hr0 : (0 : Byte) ∉ r := fun h => h0.1 (hr.subset h)
  rw [entra_iff (Nat.le_of_lt hlen)]
  constructor
  · rintro ⟨state, hs, hne⟩
    rwa [(stringa_corta hr0 hlen).mp hs] at hne
  · exact fun hne => ⟨r, (stringa_corta hr0 hlen).mpr rfl, hne⟩

/-- **The student enters the menu only with a live slot exactly when MySQL counts one row for the login, or the one
    read returned the whole refusal.**  The rows are counted in an `unsigned int`.  `t` is the text the secretary
    wrote, `r` what of it the student's read returned: any beginning of it, also nothing. -/
theorem accordo_iff {D : Type} {m : Motore D} {s s' : Segreteria} {w w' : Mondo D} {t r : Bytes}
    (hrun : Prog.Runs (chiama m) s.accesso w s' w')
    (ht : w'.uscita = w.uscita ++ [((s.clientSockets s.dim).connfd, t)]) (hr : r <+: t)
    (p : ProgStudente) : ∃ righe, RigheLogin m s w w' righe ∧
      ((Entra p r → SlotVivo s s') ↔ righe % 2 ^ 32 = 1 ∨ r = ProgStudente.negato) := by
  obtain ⟨r₁, r₂, rest, pw, q, hin, -, -, hpw, hq, rfl, rfl⟩ := Segreteria.run_accesso_iff.mp hrun
  refine ⟨q.2.length, ⟨r₁, r₂, rest, pw, q, hin, hpw, rfl, hq, rfl⟩, ?_⟩
  obtain rfl : Segreteria.risposta q.2.length = t := by simpa using ht
  rw [entra_risposta hr, slotVivo_dopoAccesso]
  constructor
  · intro h
    by_cases hneg : r = ProgStudente.negato
    · exact Or.inr hneg
    · exact Or.inl (h hneg)
  · rintro (h | h) hne
    · exact h
    · exact absurd h hne

section Example

/-- A secretary with a connection in slot 0, and what a student sent on it: 1 and an empty password. -/
def segreteriaNuova : Segreteria := .iniziale 3 4 (Buffer.zero 4) 0 fun _ => ⟨5, Buffer.zero 4⟩

/-- The world she is in: those two reads to come, and no database behind the statements. -/
def inviato : Mondo Unit := ⟨(), [(Buffer.ofInt 1).bytes, [0]], [], [], [], none⟩

/-- The login with no row in the result. -/
theorem run_rifiutato : ∃ s' w', Prog.Runs (chiama fun (_ : Unit) _ => some ((), []))
      segreteriaNuova.accesso inviato s' w' ∧ w'.uscita = [(5, Segreteria.negato)] ∧
    RigheLogin (fun _ _ => some ((), [])) segreteriaNuova inviato w' 0 ∧ ¬ SlotVivo segreteriaNuova s' := by
  have hpw : Stringa (segreteriaNuova.password.overlay [0]) [] :=
    Or.inl ⟨by decide +kernel, by decide +kernel⟩
  refine ⟨_, _, Segreteria.run_accesso_iff.mpr ⟨(Buffer.ofInt 1).bytes, [0], [], [], ((), []), rfl,
    by decide, by decide, hpw, rfl, rfl, rfl⟩, rfl, ⟨_, [0], [], [], _, rfl, hpw, rfl, rfl, rfl⟩, ?_⟩
  rw [slotVivo_dopoAccesso]
  decide

/-- A refused student whose read returned the first word of the refusal is in the menu. -/
theorem accordo_violato : ¬ ∀ s' w', Prog.Runs (chiama fun (_ : Unit) _ => some ((), []))
      segreteriaNuova.accesso inviato s' w' → w'.uscita = [(5, Segreteria.negato)] →
    Entra ⟨3, 0, 0, Buffer.zero 4⟩ (ascii "credenziali") → SlotVivo segreteriaNuova s' := by
  intro h
  obtain ⟨s', w', hrun, ht, -, hno⟩ := run_rifiutato
  have hentra : Entra ⟨3, 0, 0, Buffer.zero 4⟩ (ascii "credenziali") :=
    (entra_iff (by decide)).mpr ⟨ascii "credenziali",
      (stringa_corta (by decide) (by decide)).mpr rfl, by decide +kernel⟩
  exact hno (h s' w' hrun ht hentra)

/-- The same student, whose login has no row, with a read that returned the whole refusal: he is not in
    the menu. -/
theorem accordo_rifiuto : ∃ s' w', Prog.Runs (chiama fun (_ : Unit) _ => some ((), []))
      segreteriaNuova.accesso inviato s' w' ∧ RigheLogin (fun _ _ => some ((), [])) segreteriaNuova inviato w' 0 ∧
    (Entra ⟨3, 0, 0, Buffer.zero 4⟩ Segreteria.negato → SlotVivo segreteriaNuova s') := by
  obtain ⟨s', w', hrun, ht, hnessuna, -⟩ := run_rifiutato
  obtain ⟨righe, hrighe, hiff⟩ := accordo_iff hrun ht (List.prefix_refl _) ⟨3, 0, 0, Buffer.zero 4⟩
  obtain rfl : righe = 0 := hrighe.unica hnessuna
  exact ⟨s', w', hrun, hrighe, hiff.mpr (Or.inr rfl)⟩

end Example

end Universita

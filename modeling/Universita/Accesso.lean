/-
  THE LOGIN IN THE SECRETARY — what one accepted connection leads to.

  The two reads of the login store into variables that outlive the connection: the slot `client_sockets[dim]`
  (which a refused login leaves to the next one) and the one password buffer.  A short read therefore leaves
  bytes of an EARLIER student's credentials where the new ones end, and a read that delivers nothing leaves
  all of them.  Nothing here assumes that it does not happen: the credentials of a login are what is in the
  two variables after the reads.

  What a `%s` prints is the string found at the start of a buffer.  With a NUL in the buffer that is one
  string; without one it runs on behind it, and `Stringa` allows any continuation.

  The crux is `run_accesso_iff`: a complete run of `accesso` is exactly its two reads, one statement with the
  credentials they left, and one of two answers, decided by the number of rows modulo 2^32 (the source counts
  them in an `unsigned int`).  Everything said elsewhere about a login starts from this equivalence.

  Contents:
  1. `Stringa` — the strings `cString` can find in a buffer; `run_cString`, `run_leggiRiga`.
  2. `negato`, `consentito`, `risposta` — the two answers.
  3. `matricolaDopo`, `credenziali`, `dopoAccesso` — the secretary behind the reads, and behind the answer.
  4. `run_accesso_iff` — the complete runs of the login: the credentials are what is in the two
     variables after the reads, and the number of rows decides.
-/
import Universita.Mondo
import Universita.Segreteria

set_option linter.unusedVariables false

namespace Universita

open Lib Mondo

variable {D : Type} {m : Motore D} {w w' : Mondo D}

/-- `Stringa buf pw` — `pw` is a string that can be found at the start of `buf`. Where the buffer has a
    NUL there is exactly one; where it has none the string runs on into memory nobody knows, and may end
    anywhere behind it. -/
def Stringa {n : Nat} (buf : Buffer n) (pw : Bytes) : Prop :=
  (0 ∈ buf.bytes ∧ pw = cstr buf.bytes) ∨ (0 ∉ buf.bytes ∧ ∃ dietro, pw = buf.bytes ++ cstr dietro)

/-- There is always some string to be found. -/
theorem esiste_stringa {n : Nat} (buf : Buffer n) : ∃ pw, Stringa buf pw := by
  by_cases h : 0 ∈ buf.bytes
  · exact ⟨_, Or.inl ⟨h, rfl⟩⟩
  · exact ⟨_, Or.inr ⟨h, [], rfl⟩⟩

/-- The string in a buffer that holds one. -/
theorem stringa_of_mem {n : Nat} {b : Buffer n} (h : (0 : Byte) ∈ b.bytes) {t : Bytes} :
    Stringa b t ↔ t = cstr b.bytes := by
  constructor
  · rintro (⟨-, ht⟩ | ⟨h', -⟩)
    · exact ht
    · exact absurd h h'
  · exact fun ht => Or.inl ⟨h, ht⟩

/-- A string no longer than its buffer is the one found in it. -/
theorem stringa_dentro {n : Nat} {buf : Buffer n} {pw : Bytes} (h : Stringa buf pw) (hn : pw.length ≤ n) :
    pw = cstr buf.bytes := by
  rcases h with ⟨-, h⟩ | ⟨h0, dietro, rfl⟩
  · exact h
  · rw [List.length_append, buf.size_eq] at hn
    have hnil : cstr dietro = [] := List.length_eq_zero_iff.mp (by omega)
    rw [hnil, List.append_nil, cstr_of_notMem h0]

/-- A run of `cString` ends with a string of the buffer, and touches nothing. -/
theorem run_cString {n : Nat} {buf : Buffer n} {pw : Bytes} :
    Prog.Runs (chiama m) (cString buf) w pw w' ↔ Stringa buf pw ∧ w' = w := by
  unfold cString Stringa
  split
  · rename_i h
    simp [h]
  · rename_i h
    simp [h]

/-- What was read into a zeroed buffer with room to spare is the string found there: the NUL behind it
    is one of the zeros. -/
theorem stringa_corta {n : Nat} {r t : Bytes} (h0 : (0 : Byte) ∉ r) (hr : r.length < n) :
    Stringa ((Buffer.zero n).overlay r) t ↔ t = r := by
  have hmem : (0 : Byte) ∈ ((Buffer.zero n).overlay r).bytes := by
    rw [Buffer.overlay_bytes_of_le (Nat.le_of_lt hr), List.mem_append]
    right
    rw [Buffer.zero, List.drop_replicate, List.mem_replicate]
    exact ⟨by omega, rfl⟩
  have hc : cstr ((Buffer.zero n).overlay r).bytes = r := cstr_zero_overlay h0 (Nat.le_of_lt hr)
  constructor
  · rintro (⟨-, h⟩ | ⟨h, -⟩)
    · rw [h, hc]
    · exact absurd hmem h
  · rintro rfl
    exact Or.inl ⟨hmem, hc.symm⟩

/-- What fills the buffer is at least a part of the string found. -/
theorem length_of_stringa {n : Nat} {r t : Bytes} (h0 : (0 : Byte) ∉ r) (hr : r.length = n)
    (ht : Stringa ((Buffer.zero n).overlay r) t) : n ≤ t.length := by
  have hbytes : ((Buffer.zero n).overlay r).bytes = r :=
    congrArg Buffer.bytes (Buffer.overlay_full (Buffer.zero n) ⟨r, hr⟩)
  rcases ht with ⟨h, -⟩ | ⟨-, dietro, rfl⟩
  · rw [hbytes] at h
    exact absurd h h0
  · rw [hbytes, List.length_append, hr]
    exact Nat.le_add_right n _

/-- A NUL in front leaves the empty string, whatever the read brought behind it: this is what becomes of
    an empty password, which is sent with all 255 bytes of its buffer. -/
theorem stringa_vuota {n : Nat} {r t : Bytes} (hr : (0 :: r).length ≤ n) :
    Stringa ((Buffer.zero n).overlay (0 :: r)) t ↔ t = [] := by
  have hbytes : ((Buffer.zero n).overlay (0 :: r)).bytes =
      0 :: (r ++ (Buffer.zero n).bytes.drop (0 :: r).length) := Buffer.overlay_bytes_of_le hr
  have hmem : (0 : Byte) ∈ ((Buffer.zero n).overlay (0 :: r)).bytes := by
    rw [hbytes]; exact List.mem_cons_self
  constructor
  · rintro (⟨-, h⟩ | ⟨h, -⟩)
    · rw [h, hbytes, cstr_cons_zero]
    · exact absurd hmem h
  · rintro rfl
    exact Or.inl ⟨hmem, by rw [hbytes, cstr_cons_zero]⟩

/-- A line typed at a prompt replaces the buffer's string, without its last character. `fgets` keeps the
    newline, and the code cuts off whatever is last. -/
theorem run_leggiRiga {n : Nat} {buf b : Buffer n} : Prog.Runs (chiama m) (leggiRiga buf) w b w' ↔
    ∃ riga rest, w.righe = riga :: rest ∧ riga.length < n ∧
      (cstr (buf.overlay (riga ++ [0])).bytes).length ≠ 0 ∧
      b = (buf.overlay (riga ++ [0])).poke ((cstr (buf.overlay (riga ++ [0])).bytes).length - 1) 0 ∧
      w' = { w with righe := rest } := by
  -- `fgets` has left a NUL in the buffer, so `strlen` stops inside it and reads no foreign memory
  have hmem : ∀ riga : Bytes, riga.length < n → (0 : Byte) ∈ (buf.overlay (riga ++ [0])).bytes := by
    intro riga hn
    have hle : (riga ++ [0] : Bytes).length ≤ n := by
      rw [List.length_append, List.length_singleton]; omega
    rw [Buffer.overlay_bytes_of_le hle]
    simp
  simp only [leggiRiga, Prog.op_eq, Prog.call_bind, Prog.ret_bind, run_fgets]
  constructor
  · rintro ⟨riga, rest, hr, hn, h⟩
    rw [tagliaFine_of_mem (hmem riga hn)] at h
    split at h
    · -- an empty string: `buf[strlen(buf) - 1]` is in front of the buffer, and no run gets past it
      exact absurd h run_indefinito
    · rename_i hlen
      exact ⟨riga, rest, hr, hn, hlen, h⟩
  · rintro ⟨riga, rest, hr, hn, hlen, hb, hw⟩
    refine ⟨riga, rest, hr, hn, ?_⟩
    rw [tagliaFine_of_mem (hmem riga hn), if_neg hlen]
    exact ⟨hb, hw⟩

/-- A typed line that fits: the cut falls on its newline, and the typed text is what is left as a string. -/
theorem riga_tagliata {n : Nat} (buf : Buffer n) {t : Bytes} (h0 : (0 : Byte) ∉ t)
    (hn : (t ++ [10]).length < n) :
    (cstr (buf.overlay (t ++ [10] ++ [0])).bytes).length = t.length + 1 ∧
      ∃ coda, ((buf.overlay (t ++ [10] ++ [0])).poke t.length 0).bytes = t ++ 0 :: coda := by
  have hlen : (t ++ [10] ++ [0] : Bytes).length ≤ n := by
    simp only [List.length_append, List.length_singleton] at hn ⊢
    omega
  obtain ⟨coda, hcoda⟩ : ∃ coda, (buf.overlay (t ++ [10] ++ [0])).bytes = t ++ 10 :: 0 :: coda :=
    ⟨buf.bytes.drop (t.length + 2), by rw [Buffer.overlay_bytes_of_le hlen]; simp⟩
  constructor
  · rw [hcoda, cstr_append_of_notMem h0, cstr_cons _ (by decide), cstr_cons_zero]
    simp
  · refine ⟨0 :: coda, ?_⟩
    show (buf.overlay (t ++ [10] ++ [0])).bytes.set t.length 0 = _
    rw [hcoda, List.set_append_right _ _ (Nat.le_refl _), Nat.sub_self]
    rfl

namespace Segreteria

/-- The two texts the secretary writes at the end of a login: the one of a refusal, which the student's
    program compares with what it reads ... -/
def negato : Bytes := ascii "credenziali non corrette, accesso negato!"

/-- The text of a granted login. -/
def consentito : Bytes := ascii "credenziali corrette, accesso consentito!"

/-- The matricola in the slot of the connection after `r` was read: what came, over what the slot held. -/
def matricolaDopo (s : Segreteria) (r : Bytes) : Buffer 4 := (s.clientSockets s.dim).matricola.overlay r

/-- The secretary after the two reads of a login: the matricola in the first free slot, the password
    over the last one. -/
def credenziali (s : Segreteria) (r r' : Bytes) : Segreteria :=
  { s.conSlot s.dim { connfd := (s.clientSockets s.dim).connfd, matricola := s.matricolaDopo r } with
    password := s.password.overlay r' }

/-- ... and after the answer: with one row, counted in 32 bits, the slot is in use, and otherwise not. -/
def dopoAccesso (s : Segreteria) (r r' : Bytes) (righe : Nat) : Segreteria :=
  if righe % 2 ^ 32 = 1 then { s.credenziali r r' with dim := s.dim + 1 } else s.credenziali r r'

/-- The login is granted, and the slot kept, exactly when the query counted one row. -/
theorem dim_dopoAccesso (s : Segreteria) (r r' : Bytes) (righe : Nat) :
    (s.dopoAccesso r r' righe).dim = s.dim + 1 ↔ righe % 2 ^ 32 = 1 := by
  unfold dopoAccesso
  split
  · rename_i h
    exact ⟨fun _ => h, fun _ => rfl⟩
  · rename_i h
    exact ⟨fun h' => absurd h' (Nat.ne_of_lt (Nat.lt_succ_self s.dim)), fun h' => absurd h' h⟩

/-- Behind a login, granted or not, its slot holds the connection and the matricola that was read. -/
theorem slot_dopoAccesso (s : Segreteria) (r r' : Bytes) (righe : Nat) :
    (s.dopoAccesso r r' righe).clientSockets s.dim =
      { connfd := (s.clientSockets s.dim).connfd, matricola := s.matricolaDopo r } := by
  unfold dopoAccesso
  split <;> exact Function.update_self _ _ _

/-- The answer to a login whose query has `righe` rows. -/
def risposta (righe : Nat) : Bytes := if righe % 2 ^ 32 = 1 then consentito else negato

/-- **The complete runs of a login.** Two reads, the statement with what they left, the answer its rows
    decide; nothing else is written and the database is asked once. -/
theorem run_accesso_iff {s s' : Segreteria} : Prog.Runs (chiama m) s.accesso w s' w' ↔
    ∃ r r' rest pw p, w.ingresso = r :: r' :: rest ∧ r.length ≤ 4 ∧ r'.length ≤ 255 ∧
      Stringa (s.password.overlay r') pw ∧
      m w.db (.login (s.matricolaDopo r).toInt pw) = some p ∧
      s' = s.dopoAccesso r r' p.2.length ∧
      w' = { w with db := p.1, ingresso := rest,
                    istruzioni := w.istruzioni ++ [.login (s.matricolaDopo r).toInt pw],
                    uscita := w.uscita ++ [((s.clientSockets s.dim).connfd, risposta p.2.length)],
                    risultato := none } := by
  have hnum : ∀ rows : List Row, numRows (some rows) = .ret (rows.length % 2 ^ 32) := fun _ => rfl
  simp only [accesso, Prog.op_eq, Prog.call_bind, Prog.ret_bind, run_read, run_printf]
  -- from the run to its parts, each call giving one of the existentials; and back, part by part
  constructor
  · rintro ⟨r, _, hr, hn, r', rest, rfl, hn', h⟩
    rw [Prog.runs_bind] at h
    obtain ⟨pw, w₁, hc, h⟩ := h
    obtain ⟨hpw, rfl⟩ := run_cString.mp hc
    simp only [run_mysqlQuery, run_mysqlStoreResult] at h
    rcases h with ⟨p, hp, h⟩ | h
    · refine ⟨r, r', rest, pw, p, hr, hn, hn', hpw, hp, ?_⟩
      rw [hnum, Prog.ret_bind] at h
      by_cases hrows : p.2.length % 2 ^ 32 = 1
      · rw [if_neg (not_not.mpr hrows), run_write, Prog.pure_eq, Prog.runs_ret] at h
        rw [dopoAccesso, risposta, if_pos hrows, if_pos hrows]
        exact h
      · rw [if_pos hrows, run_write, Prog.pure_eq, Prog.runs_ret] at h
        rw [dopoAccesso, risposta, if_neg hrows, if_neg hrows]
        exact h
    · -- without a result set the count is not defined
      rw [numRows, indefinito_bind] at h
      exact absurd h run_indefinito
  · rintro ⟨r, r', rest, pw, p, hr, hn, hn', hpw, hp, rfl, rfl⟩
    refine ⟨r, r' :: rest, hr, hn, r', rest, rfl, hn', ?_⟩
    rw [Prog.runs_bind]
    refine ⟨pw, _, run_cString.mpr ⟨hpw, rfl⟩, ?_⟩
    simp only [run_mysqlQuery, run_mysqlStoreResult]
    refine Or.inl ⟨p, hp, ?_⟩
    rw [hnum, Prog.ret_bind]
    by_cases hrows : p.2.length % 2 ^ 32 = 1
    · rw [if_neg (not_not.mpr hrows), run_write, Prog.pure_eq, Prog.runs_ret, dopoAccesso, risposta,
        if_pos hrows, if_pos hrows]
      exact ⟨rfl, rfl⟩
    · rw [if_pos hrows, run_write, Prog.pure_eq, Prog.runs_ret, dopoAccesso, risposta,
        if_neg hrows, if_neg hrows]
      exact ⟨rfl, rfl⟩

end Segreteria

end Universita

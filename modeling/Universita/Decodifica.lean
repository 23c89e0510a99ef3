/-
  HOW THE SERVER READS A NEW APPELLO — three writes, three reads, no boundaries.

  The secretary writes the request code, the name and the date as bare bytes; the server takes them with
  three reads of 4, 255 and 12 bytes.  How the reads cut the bytes is up to the network.

  Without lengths and terminators the only thing that separates the name from the date is the MOMENT of the
  second read: if both texts are there, it takes both for the name, and the third read waits for a date that has
  passed.  The buffers are zeroed, so a text that came short ends where it ends.

  The property is about every run of the server on these reads, and that there is one (`Decodificata`): it took the
  request for code 1, issued its two statements with the name and the date, and left no byte.  The condition is about
  the reads (`TempiGiusti`): each takes one write — or, the curious case, the operator typed an empty name, the first
  read brought a part of the code, and the rest of it, zeros, is read as the empty name.

  Contents:
  1. `run_nuovoAppello` — what the secretary writes for a typed name and date.
  2. `Decodificata` — with the reads cut as `letture`, the server finishes the request, and whenever it
     does it has understood the name and the date and left no byte.
  3. `TempiGiusti` — each read takes one write; or the name is empty and a byte of the code is missing
     from the first read, so that the rest of the code (zeros) passes for the empty name.
  4. `letture_intere`, `letture_spezzate` — the two ways a sequence of reads can be understood.
  5. **`decodifica_iff`**, and `decodifica_mancata`: both texts in the second read.
-/
import Universita.Servizio
import Universita.Credenziali

set_option linter.unusedVariables false

namespace Universita

open Lib Mondo

/-! ## The message -/

/-- A typed line of text, without its newline, is the string in the buffer. -/
theorem cstr_leggiRiga {n : Nat} (buf : Buffer n) {t : Bytes} (h0 : (0 : Byte) ∉ t)
    (hn : (t ++ [10]).length < n) :
    (cstr (buf.overlay (t ++ [10] ++ [0])).bytes).length = t.length + 1 ∧
    cstr ((buf.overlay (t ++ [10] ++ [0])).poke t.length 0).bytes = t := by
  obtain ⟨hlen, coda, hcoda⟩ := riga_tagliata buf h0 hn
  refine ⟨hlen, ?_⟩
  rw [hcoda, cstr_append_of_notMem h0, cstr_cons_zero, List.append_nil]

/-- **The secretary writes the code, the typed name and the typed date, each with one write.** -/
theorem run_nuovoAppello {D : Type} {m : Motore D} {s s' : Segreteria} {w w' : Mondo D}
    {name date : Bytes} {rest : List Bytes} (h : Prog.Runs (chiama m) s.nuovoAppello w s' w')
    (hrighe : w.righe = (name ++ [10]) :: (date ++ [10]) :: rest) (hn : (0 : Byte) ∉ name)
    (hd : (0 : Byte) ∉ date) :
    name.length ≤ 253 ∧ date.length ≤ 10 ∧ w'.uscita = w.uscita ++
      [(s.sockfd, (Buffer.ofInt 1).bytes), (s.sockfd, name), (s.sockfd, date)] := by
  simp only [Segreteria.nuovoAppello, Prog.op_eq, Prog.call_bind, Prog.ret_bind, run_write] at h
  rw [Prog.runs_bind] at h
  obtain ⟨bufName, w₁, h1, h⟩ := h
  obtain ⟨riga, rest₁, hr1, hn1, -, hbuf1, rfl⟩ := run_leggiRiga.mp h1
  obtain ⟨rfl, rfl⟩ : name ++ [10] = riga ∧ (date ++ [10]) :: rest = rest₁ := by
    simpa [hrighe] using hr1
  simp only [run_write] at h
  rw [Prog.runs_bind] at h
  obtain ⟨bufDate, w₂, h2, h⟩ := h
  obtain ⟨riga, rest₂, hr2, hn2, -, hbuf2, rfl⟩ := run_leggiRiga.mp h2
  obtain ⟨rfl, rfl⟩ : date ++ [10] = riga ∧ rest = rest₂ := by simpa using hr2
  -- each line without its newline fits its buffer, so `strlen` counts its bytes and the cut removes the newline
  obtain ⟨hlen1, hcstr1⟩ := cstr_leggiRiga s.name hn hn1
  obtain ⟨hlen2, hcstr2⟩ := cstr_leggiRiga s.date hd hn2
  rw [hlen1, Nat.add_sub_cancel] at hbuf1
  rw [hlen2, Nat.add_sub_cancel] at hbuf2
  subst hbuf1 hbuf2
  simp only [run_write, run_read] at h
  obtain ⟨r, rest₃, -, -, h⟩ := h
  rw [Prog.runs_bind] at h
  obtain ⟨esito, w₃, h3, h⟩ := h
  obtain ⟨-, rfl⟩ := run_cString.mp h3
  simp only [run_printf, Prog.pure_eq, Prog.runs_ret] at h
  simp only [List.length_append, List.length_singleton] at hn1 hn2
  refine ⟨by omega, by omega, ?_⟩
  rw [h.2, hcstr1, hcstr2]
  simp

/-- The operator can type any two lines that fit, and takes any bytes for the outcome: there is a run,
    so what is said of all runs is not said of none. -/
theorem esiste_nuovoAppello {D : Type} {m : Motore D} {s : Segreteria} {w : Mondo D}
    {name date r : Bytes} {rest rest' : List Bytes}
    (hrighe : w.righe = (name ++ [10]) :: (date ++ [10]) :: rest) (hin : w.ingresso = r :: rest')
    (hn : (0 : Byte) ∉ name) (hd : (0 : Byte) ∉ date) (hname : name.length ≤ 253)
    (hdate : date.length ≤ 10) (hr : r.length ≤ 255) :
    ∃ s' w', Prog.Runs (chiama m) s.nuovoAppello w s' w' := by
  have hn1 : (name ++ [10]).length < 255 := by
    rw [List.length_append, List.length_singleton]; omega
  have hn2 : (date ++ [10]).length < 12 := by
    rw [List.length_append, List.length_singleton]; omega
  obtain ⟨hlen1, -⟩ := cstr_leggiRiga s.name hn hn1
  obtain ⟨hlen2, -⟩ := cstr_leggiRiga s.date hd hn2
  obtain ⟨esito, hesito⟩ := esiste_stringa (s.result.overlay r)
  -- the secretary and the world at the end are whatever the calls leave
  apply Exists.intro
  apply Exists.intro
  simp only [Segreteria.nuovoAppello, Prog.op_eq, Prog.call_bind, Prog.ret_bind, run_write]
  rw [Prog.runs_bind]
  refine ⟨_, _, run_leggiRiga.mpr ⟨_, _, hrighe, hn1, by omega, rfl, rfl⟩, ?_⟩
  simp only [run_write]
  rw [Prog.runs_bind]
  refine ⟨_, _, run_leggiRiga.mpr ⟨_, _, rfl, hn2, by omega, rfl, rfl⟩, ?_⟩
  simp only [run_write, run_read]
  refine ⟨r, rest', hin, hr, ?_⟩
  rw [Prog.runs_bind]
  refine ⟨esito, _, run_cString.mpr ⟨hesito, rfl⟩, ?_⟩
  simp only [run_printf]
  exact ⟨rfl, rfl⟩

/-! ## What the server understands -/

/-- `Decodificata s letture name date` — the server, its reads cut as `letture`, decodes the request as
    `name` and `date`: it gets to the end, and in every run that does the two texts are these. -/
structure Decodificata (s : Server) (letture : List Bytes) (name date : Bytes) : Prop where
  /-- The server gets to the end of the request. -/
  termina : ∃ s' w', Prog.Runs (chiama fun (_ : Unit) _ => some ((), [])) s.richiesta
    (arrivano letture) s' w'
  /-- Whenever it does, it has understood both texts. -/
  giusta : ∀ (m : Motore Unit) s' w', Prog.Runs (chiama m) s.richiesta (arrivano letture) s' w' →
    s'.request.toInt = 1 ∧ w'.ingresso = [] ∧
      ∃ id, w'.istruzioni = [.idEsame name, .inserisciAppello id date]

/-- One request: the code, and then the function it names. The code is what stands in the variable once
    the read has stored over its front. -/
theorem run_richiesta {m : Motore Unit} {s s' : Server} {w w' : Mondo Unit} {r : Bytes}
    {rest : List Bytes} (hin : w.ingresso = r :: rest) (hpieno : r ≠ []) :
    Prog.Runs (chiama m) s.richiesta w s' w' ↔ r.length ≤ 4 ∧
      s' = { s with request := s.request.overlay r } ∧
      Prog.Runs (chiama m) (Server.smista s.connfd (s.request.overlay r).toInt)
        { w with ingresso := rest } () w' := by
  have hpos : 0 < r.length := List.length_pos_iff.mpr hpieno
  simp only [Server.richiesta, Prog.op_eq, Prog.call_bind, Prog.ret_bind, run_read, hin]
  constructor
  · rintro ⟨r₁, rest₁, heq, hn, h⟩
    obtain ⟨rfl, rfl⟩ := List.cons.inj heq
    rw [if_pos hpos, Prog.runs_bind] at h
    obtain ⟨_, w₁, h1, h2, rfl⟩ := h
    exact ⟨hn, h2, h1⟩
  · rintro ⟨hn, h2, h1⟩
    refine ⟨r, rest, rfl, hn, ?_⟩
    rw [if_pos hpos, Prog.runs_bind]
    exact ⟨(), w', h1, h2, rfl⟩

/-! ## When the reads fall right -/

/-- Each read takes one write; or the name is empty, and zeros of the code pass for it. -/
def TempiGiusti (precedente : Buffer 4) (letture : List Bytes) (name date : Bytes) : Prop :=
  ∃ r₁ r₂ r₃, letture = [r₁, r₂, r₃] ∧
    (r₁.length = 4 ∧ r₂.length = name.length ∧ r₃.length = date.length ∨
    r₁.length < 4 ∧ name = [] ∧
      precedente.bytes.drop r₁.length = List.replicate (4 - r₁.length) 0 ∧
      (r₁.length + r₂.length = 4 ∧ r₃.length = date.length ∨
        date = [] ∧ r₁.length + r₂.length + r₃.length = 4))

/-- Whatever lies behind the zeroed buffer of `n` bytes, `r` read into it is the string `t`. The memory
    behind is asked for only when the read leaves no NUL. -/
def Legge (n : Nat) (r t : Bytes) : Prop := ∀ x, Stringa ((Buffer.zero n).overlay r) x → x = t

/-- A text without NUL is read as itself, where there is room for its end. -/
theorem legge_iff {n : Nat} {r t : Bytes} (h0 : (0 : Byte) ∉ r) (hr : r.length ≤ n)
    (ht : t.length < n) : Legge n r t ↔ r = t := by
  rcases Nat.lt_or_eq_of_le hr with hlt | heq
  · constructor
    · exact fun h => h r ((stringa_corta h0 hlt).mpr rfl)
    · rintro rfl x hx
      exact (stringa_corta h0 hlt).mp hx
  · -- a text that fills the buffer runs on behind it
    constructor
    · intro h
      obtain ⟨x, hx⟩ := esiste_stringa ((Buffer.zero n).overlay r)
      have hlen := length_of_stringa h0 heq hx
      rw [h x hx] at hlen
      omega
    · rintro rfl
      omega

/-- A NUL in front is the empty text. -/
theorem legge_vuota {n : Nat} {r t : Bytes} (hr : (0 :: r).length ≤ n) :
    Legge n (0 :: r) t ↔ t = [] := by
  constructor
  · exact fun h => (h [] ((stringa_vuota hr).mpr rfl)).symm
  · rintro rfl x hx
    exact (stringa_vuota hr).mp hx

/-- The code as it is sent: only its first byte is not zero. -/
theorem codice_bytes : (Buffer.ofInt 1).bytes = [1, 0, 0, 0] := by decide

/-- The code of an added appello is read when the bytes it does not bring are zero already: a read of
    the first byte alone will do after another such request. -/
theorem codice_letto {precedente : Buffer 4} {r : Bytes} (hr : r.length ≤ 4)
    (hpre : r <+: [1, 0, 0, 0]) : (precedente.overlay r).toInt = 1 ↔
      precedente.bytes.drop r.length = ([1, 0, 0, 0] : Bytes).drop r.length := by
  have hint : (precedente.overlay r).toInt = 1 ↔ (precedente.overlay r).bytes = [1, 0, 0, 0] := by
    constructor
    · intro h
      rw [← Buffer.ofInt_toInt (precedente.overlay r), h, codice_bytes]
    · intro h
      have heq : precedente.overlay r = Buffer.ofInt 1 := Buffer.ext (h.trans codice_bytes.symm)
      rw [heq, Buffer.toInt_ofInt (by decide) (by decide)]
  obtain ⟨ys, hys⟩ := hpre
  rw [hint, Buffer.overlay_bytes_of_le hr, ← hys, List.drop_left]
  exact ⟨List.append_cancel_left, fun h => by rw [h]⟩

section Casi

variable {precedente : Buffer 4} {name date r₁ r₂ r₃ : Bytes}

/-- The first read takes the whole code: the other two must take one text each. The name has no NUL, so
    it ends where its read ends, and a byte of the date that came with it would belong to it. -/
theorem letture_intere (hfl : r₂ ++ r₃ = name ++ date) (hn : (0 : Byte) ∉ name) (hd : (0 : Byte) ∉ date)
    (hname : name.length ≤ 253) (hdate : date.length ≤ 10) (h2 : r₂.length ≤ 255)
    (h3 : r₃.length ≤ 12) :
    (Legge 255 r₂ name ∧ Legge 12 r₃ date) ↔ r₂.length = name.length ∧ r₃.length = date.length := by
  have h0 : (0 : Byte) ∉ r₂ ++ r₃ := by
    rw [hfl, List.mem_append]
    exact fun h => h.elim hn hd
  rw [List.mem_append, not_or] at h0
  rw [legge_iff h0.1 h2 (by omega), legge_iff h0.2 h3 (by omega)]
  constructor
  · rintro ⟨rfl, rfl⟩
    exact ⟨rfl, rfl⟩
  · rintro ⟨hlen, -⟩
    exact List.append_inj hfl hlen

/-- Part of the code is left for the second read: it starts with a zero, which is an empty name, and the
    rest must then be the date alone. -/
theorem letture_spezzate {k : Nat} (hk : 0 < k)
    (hfl : r₂ ++ r₃ = List.replicate k 0 ++ (name ++ date)) (hp2 : r₂ ≠ []) (hp3 : r₃ ≠ [])
    (hd : (0 : Byte) ∉ date) (hdate : date.length ≤ 10) (h2 : r₂.length ≤ 255) (h3 : r₃.length ≤ 12) :
    (Legge 255 r₂ name ∧ Legge 12 r₃ date) ↔ name = [] ∧
      (r₂.length = k ∧ r₃.length = date.length ∨ date = [] ∧ r₂.length + r₃.length = k) := by
  obtain ⟨b, r, rfl⟩ := List.exists_cons_of_ne_nil hp2
  obtain ⟨j, rfl⟩ := Nat.exists_eq_succ_of_ne_zero (Nat.pos_iff_ne_zero.mp hk)
  obtain rfl : b = 0 := by
    rw [Nat.succ_eq_add_one, List.replicate_succ] at hfl
    exact (List.cons.inj hfl).1
  rw [legge_vuota h2]
  refine and_congr_right fun hname => ?_
  subst hname
  rw [List.nil_append] at hfl
  -- what the second read leaves: the zeros it did not reach, then the rest of the date
  have hr3 : r₃ = List.replicate (j + 1 - (0 :: r).length) 0 ++
      date.drop ((0 :: r).length - (j + 1)) := by
    have h := congrArg (List.drop (0 :: r).length) hfl
    rwa [List.drop_left, List.drop_append, List.drop_replicate, List.length_replicate] at h
  have hsum := congrArg List.length hfl
  simp only [List.length_append, List.length_replicate] at hsum
  rcases Nat.lt_or_ge (0 :: r).length (j + 1) with hlt | hge
  · -- the third read starts with a zero as well: an empty date
    obtain ⟨i, hi⟩ : ∃ i, j + 1 - (0 :: r).length = i + 1 := ⟨j + 1 - (0 :: r).length - 1, by omega⟩
    have hzero : ∃ ys, r₃ = 0 :: ys := ⟨_, by rw [hr3, hi, List.replicate_succ, List.cons_append]⟩
    obtain ⟨ys, rfl⟩ := hzero
    rw [legge_vuota h3]
    constructor
    · rintro rfl
      exact Or.inr ⟨rfl, by simpa using hsum⟩
    · rintro (⟨h, -⟩ | ⟨h, -⟩)
      · omega
      · exact h
  · -- all zeros are in the second read, and the third is an end of the date: it is the date when the whole of it
    have hr3' : r₃ = date.drop ((0 :: r).length - (j + 1)) := by
      rw [hr3, Nat.sub_eq_zero_of_le hge, List.replicate_zero, List.nil_append]
    have h0 : (0 : Byte) ∉ r₃ := fun h => hd (List.mem_of_mem_drop (hr3' ▸ h))
    rw [legge_iff h0 h3 (by omega)]
    have hpos : 0 < r₃.length := List.length_pos_iff.mpr hp3
    constructor
    · rintro rfl
      exact Or.inl ⟨by omega, rfl⟩
    · rintro (⟨h, -⟩ | ⟨-, h⟩)
      · rw [hr3', h, Nat.sub_self, List.drop_zero]
      · omega

end Casi

/-- The three reads of a request are understood as `name` and `date`, over the code of the request
    before: a condition on bytes, in which no program occurs any more. -/
def Intese (precedente : Buffer 4) (letture : List Bytes) (name date : Bytes) : Prop :=
  ∃ r₁ r₂ r₃, letture = [r₁, r₂, r₃] ∧ r₁.length ≤ 4 ∧ r₂.length ≤ 255 ∧ r₃.length ≤ 12 ∧
    (precedente.overlay r₁).toInt = 1 ∧ Legge 255 r₂ name ∧ Legge 12 r₃ date

/-- With these three reads, and these strings in the buffers, the server gets to the end, against a
    database in which every statement goes through. -/
theorem esiste_richiesta {s : Server} {r₁ r₂ r₃ nome data : Bytes} (hp1 : r₁ ≠ [])
    (h1 : r₁.length ≤ 4) (h2 : r₂.length ≤ 255) (h3 : r₃.length ≤ 12)
    (hreq : (s.request.overlay r₁).toInt = 1) (hnome : Stringa ((Buffer.zero 255).overlay r₂) nome)
    (hdata : Stringa ((Buffer.zero 12).overlay r₃) data) : ∃ s' w' id,
      Prog.Runs (chiama fun (_ : Unit) _ => some ((), [])) s.richiesta (arrivano [r₁, r₂, r₃]) s' w' ∧
      w'.istruzioni = [.idEsame nome, .inserisciAppello id data] := by
  obtain ⟨w', id, -, hq, hrun⟩ := esiste_aggiungiAppello s.connfd
    (w := { arrivano [r₁, r₂, r₃] with ingresso := [r₂, r₃] }) rfl h2 h3 hnome hdata
  refine ⟨{ s with request := s.request.overlay r₁ }, w', id, ?_, hq⟩
  rw [run_richiesta rfl hp1, Server.smista, if_pos hreq]
  exact ⟨h1, rfl, hrun⟩

/-- The server decodes the request exactly when its three reads are understood. From here on the claim
    is about lists of bytes. -/
theorem decodificata_iff_intese {s : Server} {letture : List Bytes} {name date : Bytes}
    (hpieno : ∀ r ∈ letture, r ≠ []) :
    Decodificata s letture name date ↔ Intese s.request letture name date := by
  constructor
  · intro h
    obtain ⟨s', w', hrun⟩ := h.termina
    obtain ⟨hreq, hfine, -⟩ := h.giusta _ _ _ hrun
    cases letture with
    | nil =>
      simp only [Server.richiesta, Prog.op_eq, Prog.call_bind, Prog.ret_bind, run_read] at hrun
      obtain ⟨r, rest, hr, -⟩ := hrun
      exact absurd hr.symm (List.cons_ne_nil _ _)
    | cons r₁ letture =>
      have hp1 : r₁ ≠ [] := hpieno r₁ List.mem_cons_self
      obtain ⟨h1, rfl, hdisp⟩ := (run_richiesta rfl hp1).mp hrun
      rw [Server.smista, if_pos hreq] at hdisp
      obtain ⟨r₂, r₃, nome, data, -, hin, h2, h3, hnome, hdata, -⟩ := run_aggiungiAppello hdisp
      rw [hfine] at hin
      obtain rfl : letture = [r₂, r₃] := hin
      -- any other strings the buffers could show would be understood in another run
      have hgiusta : ∀ x y, Stringa ((Buffer.zero 255).overlay r₂) x →
          Stringa ((Buffer.zero 12).overlay r₃) y → x = name ∧ y = date := by
        intro x y hx hy
        obtain ⟨s', w', id, hrun, hq⟩ := esiste_richiesta hp1 h1 h2 h3 hreq hx hy
        obtain ⟨-, -, id', hq'⟩ := h.giusta _ _ _ hrun
        have heq : x = name ∧ id = id' ∧ y = date := by simpa [hq] using hq'
        exact ⟨heq.1, heq.2.2⟩
      exact ⟨r₁, r₂, r₃, rfl, h1, h2, h3, hreq, fun x hx => (hgiusta x data hx hdata).1,
        fun y hy => (hgiusta nome y hnome hy).2⟩
  · rintro ⟨r₁, r₂, r₃, rfl, h1, h2, h3, hreq, hname, hdate⟩
    have hp1 : r₁ ≠ [] := hpieno r₁ List.mem_cons_self
    obtain ⟨nome, hnome⟩ := esiste_stringa ((Buffer.zero 255).overlay r₂)
    obtain ⟨data, hdata⟩ := esiste_stringa ((Buffer.zero 12).overlay r₃)
    obtain ⟨s', w', -, hrun, -⟩ := esiste_richiesta hp1 h1 h2 h3 hreq hnome hdata
    refine ⟨⟨s', w', hrun⟩, fun m s' w' hrun => ?_⟩
    obtain ⟨-, rfl, hdisp⟩ := (run_richiesta rfl hp1).mp hrun
    rw [Server.smista, if_pos hreq] at hdisp
    obtain ⟨q₂, q₃, nome, data, id, hin, -, -, hnome, hdata, hq⟩ := run_aggiungiAppello hdisp
    obtain ⟨rfl, rfl, hfine⟩ : r₂ = q₂ ∧ r₃ = q₃ ∧ w'.ingresso = [] := by simpa using hin
    refine ⟨hreq, hfine, id, ?_⟩
    rw [hq, hname nome hnome, hdate data hdata]
    rfl

/-- **A new appello is decoded as it was typed exactly when the reads fall right**: each takes one write,
    or the name is empty and the rest of the code passes for it.  The two typed lines fit with their newlines: `fgets`
    returned each of them whole. -/
theorem decodifica_iff {D : Type} {m : Motore D} {sec sec' : Segreteria} {u u' : Mondo D} {s : Server}
    {name date : Bytes} {rest letture : List Bytes}
    (hsec : Prog.Runs (chiama m) sec.nuovoAppello u sec' u') (hu : u.uscita = [])
    (hrighe : u.righe = (name ++ [10]) :: (date ++ [10]) :: rest) (hn : (0 : Byte) ∉ name)
    (hd : (0 : Byte) ∉ date) (hlett : letture.flatten = (u'.uscita.map Prod.snd).flatten)
    (hpieno : ∀ r ∈ letture, r ≠ []) :
    Decodificata s letture name date ↔ TempiGiusti s.request letture name date := by
  obtain ⟨hname, hdate, huscita⟩ := run_nuovoAppello hsec hrighe hn hd
  rw [huscita, hu, codice_bytes] at hlett
  simp only [List.nil_append, List.map_cons, List.map_nil, List.flatten_cons, List.flatten_nil,
    List.append_nil] at hlett
  rw [decodificata_iff_intese hpieno, Intese, TempiGiusti]
  refine exists_congr fun r₁ => exists_congr fun r₂ => exists_congr fun r₃ => ?_
  refine and_congr_right fun hl => ?_
  subst hl
  have hp1 : 0 < r₁.length := List.length_pos_iff.mpr (hpieno r₁ (by simp))
  have hp2 : r₂ ≠ [] := hpieno r₂ (by simp)
  have hp3 : r₃ ≠ [] := hpieno r₃ (by simp)
  simp only [List.flatten_cons, List.flatten_nil, List.append_nil] at hlett
  have hsum := congrArg List.length hlett
  simp only [List.length_append, List.length_cons, List.length_nil] at hsum
  have hlett' : r₁ ++ (r₂ ++ r₃) = [1, 0, 0, 0] ++ (name ++ date) := by simpa using hlett
  -- the first read cannot ask for more than the code; it may get less
  by_cases h1 : r₁.length ≤ 4
  · have hpre : r₁ <+: [1, 0, 0, 0] := List.prefix_of_prefix_length_le ⟨_, hlett'⟩
      (List.prefix_append _ _) h1
    obtain ⟨ys, hys⟩ := hpre
    have hdrop : ([1, 0, 0, 0] : Bytes).drop r₁.length = List.replicate (4 - r₁.length) 0 := by
      generalize r₁.length = k at hp1 h1
      interval_cases k <;> rfl
    have hys' : ys = List.replicate (4 - r₁.length) 0 := by rw [← hdrop, ← hys, List.drop_left]
    have hfl : r₂ ++ r₃ = List.replicate (4 - r₁.length) 0 ++ (name ++ date) := by
      rw [← hys, hys', List.append_assoc] at hlett'
      exact List.append_cancel_left hlett'
    rw [codice_letto h1 ⟨ys, hys⟩, hdrop]
    -- the whole code: the other two reads share name and date
    by_cases h4 : r₁.length = 4
    · rw [h4, Nat.sub_self, List.replicate_zero, List.nil_append] at hfl
      -- from a request that was decoded to its reads; and back, in each of the two ways
      constructor
      · rintro ⟨-, h2, h3, -, hL⟩
        exact Or.inl ⟨h4, (letture_intere hfl hn hd hname hdate h2 h3).mp hL⟩
      · rintro (⟨-, ha, hb⟩ | ⟨hlt, -⟩)
        · have h2 : r₂.length ≤ 255 := by omega
          have h3 : r₃.length ≤ 12 := by omega
          refine ⟨h1, h2, h3, ?_, (letture_intere hfl hn hd hname hdate h2 h3).mpr ⟨ha, hb⟩⟩
          rw [h4, List.drop_of_length_le (Nat.le_of_eq s.request.size_eq)]
          rfl
        · omega
    -- a part of it: the rest, all zero, is read as the name
    · have hk : 0 < 4 - r₁.length := by omega
      constructor
      · rintro ⟨-, h2, h3, hreq, hL⟩
        obtain ⟨hvuoto, hc⟩ := (letture_spezzate hk hfl hp2 hp3 hd hdate h2 h3).mp hL
        exact Or.inr ⟨by omega, hvuoto, hreq, hc.imp (fun h => ⟨by omega, h.2⟩)
          fun h => ⟨h.1, by omega⟩⟩
      · rintro (⟨h, -⟩ | ⟨-, hvuoto, hreq, hc⟩)
        · omega
        · have h2 : r₂.length ≤ 255 := by rcases hc with hc | hc <;> omega
          have h3 : r₃.length ≤ 12 := by rcases hc with hc | hc <;> omega
          refine ⟨h1, h2, h3, hreq, (letture_spezzate hk hfl hp2 hp3 hd hdate h2 h3).mpr
            ⟨hvuoto, hc.imp (fun h => ⟨by omega, h.2⟩) fun h => ⟨h.1, by omega⟩⟩⟩
  · constructor
    · exact fun h => absurd h.1 h1
    · rintro (⟨h, -⟩ | ⟨h, -⟩) <;> omega

section Example

/-- An operator about to type `prog1` and a date, and a server that waits. -/
def scrivania : Mondo Unit :=
  ⟨(), [ascii "ok"], [ascii "prog1\n", ascii "2024-09-09\n"], [], [], none⟩

/-- A server at the head of its loop, with a connection. -/
def serverInAttesa : Server := ⟨3, 4, Buffer.zero 4, 4⟩

/-- The reads fall right when each waits for its write: `prog1` and a date, one write each. -/
theorem decodifica_prog1 : Decodificata serverInAttesa
    [(Buffer.ofInt 1).bytes, ascii "prog1", ascii "2024-09-09"] (ascii "prog1") (ascii "2024-09-09") := by
  obtain ⟨sec', u', hsec⟩ := esiste_nuovoAppello (m := fun (_ : Unit) _ => none)
    (s := .iniziale 3 4 (Buffer.zero 4) 0 fun _ => ⟨0, Buffer.zero 4⟩) (w := scrivania)
    (show scrivania.righe = (ascii "prog1" ++ [10]) :: (ascii "2024-09-09" ++ [10]) :: [] from rfl) rfl
    (by decide) (by decide) (by decide) (by decide) (by decide)
  obtain ⟨-, -, huscita⟩ := run_nuovoAppello hsec
    (show scrivania.righe = (ascii "prog1" ++ [10]) :: (ascii "2024-09-09" ++ [10]) :: [] from rfl)
    (by decide) (by decide)
  refine (decodifica_iff hsec rfl rfl (by decide) (by decide) (by rw [huscita]; rfl) ?_).mpr
    ⟨_, _, _, rfl, Or.inl ⟨by decide, rfl, rfl⟩⟩
  decide

/-- Both texts arrive before the server's second read: it takes them for the name and waits for a date
    that was already sent. -/
theorem decodifica_mancata :
    [(Buffer.ofInt 1).bytes, ascii "prog1" ++ ascii "2024-09-09"].flatten =
      (Buffer.ofInt 1).bytes ++ ascii "prog1" ++ ascii "2024-09-09" ∧
    ¬ Decodificata serverInAttesa [(Buffer.ofInt 1).bytes, ascii "prog1" ++ ascii "2024-09-09"]
      (ascii "prog1") (ascii "2024-09-09") := by
  refine ⟨by decide, fun h => ?_⟩
  rw [decodificata_iff_intese (by decide)] at h
  obtain ⟨r₁, r₂, r₃, hl, -⟩ := h
  simp at hl

end Example

end Universita

/-
  WHAT THE STUDENT SAYS — the student's program against the grammar of the conversation.

  The student knows what it sent and what it was answered, and its program is verified on that alone.
  That what it sends is in the grammar needs no assumption on the replies; that it prints the records
  it receives does (`M`): only then it receives records.

  So the same proof is used twice.  With `M` false it says what the student sends; with `M` true, once the replies
  are known to be the ones it is owed, it says that it reads only where something is owed, and what it shows.
  Nothing is proved twice for that: `M` stands in front of two fields of `Detto`.

  A typed line is the delicate point.  `fgets` and the cut behind it leave a string one byte shorter than the
  line, without its newline or without its last byte; of the name of an exam the grammar only wants that it is not
  empty, since a write of no bytes would not be there.

  Contents:
  1. `Riga` — a typed line, its last character cut off.
  2. `ode` — one answer to the student.
  3. `Detto` — the phase of what it sent, what it is still owed, the rows it has still to print.
  4. `Regge` — what holds at each call: at a read something is owed.
  5. `Detto.scrive`, `Detto.legge_altro`, `Detto.legge_data`, `Detto.stampa` — what one call does to it.
  6. **`ProgStudente.safe_giro`** — a turn of the student.
-/
import Universita.Colloquio

set_option linter.unusedVariables false

namespace Universita

open Lib

/-! ## The lines the student types -/

theorem cstr_set {bs : Bytes} {k : Nat} (hk : k < (cstr bs).length) :
    cstr (bs.set k 0) = (cstr bs).take k := by
  obtain ⟨resto, hresto⟩ : cstr bs <+: bs := List.takeWhile_prefix _
  have hlen : k < bs.length := Nat.lt_of_lt_of_le hk (List.IsPrefix.length_le ⟨resto, hresto⟩)
  have htake : bs.take k = (cstr bs).take k := by
    conv_lhs => rw [← hresto]
    exact List.take_append_of_le_length (Nat.le_of_lt hk)
  have h0 : (0 : Byte) ∉ (cstr bs).take k := fun h => zero_notMem_cstr bs (List.mem_of_mem_take h)
  rw [List.set_eq_take_append_cons_drop, if_pos hlen, htake, cstr_append_of_notMem h0, cstr_cons_zero,
    List.append_nil]

/-- The buffer `b` holds a typed line of `len` characters, its last one cut off: for an empty line there
    would be nothing to cut, and C defines nothing. -/
structure Riga {n : Nat} (len : Nat) (b : Buffer n) : Prop where
  /-- The string is one byte shorter than the line ... -/
  lunga : (cstr b.bytes).length + 1 = len
  /-- ... ends inside the buffer ... -/
  chiusa : 0 ∈ b.bytes
  /-- ... and the line fitted. -/
  corta : len ≤ n

/-- The cut makes a typed line of a string that is not empty: the last byte becomes the NUL, whether it
    was the newline or not. -/
theorem riga_poke {n : Nat} (b : Buffer n) (h : (cstr b.bytes).length ≠ 0) :
    Riga (cstr b.bytes).length (b.poke ((cstr b.bytes).length - 1) 0) := by
  have hle : (cstr b.bytes).length ≤ n := by
    exact (List.takeWhile_prefix _).length_le.trans (Nat.le_of_eq b.size_eq)
  have hk : (cstr b.bytes).length - 1 < (cstr b.bytes).length := by omega
  constructor
  · rw [Buffer.poke, cstr_set hk, List.length_take]
    omega
  · have hlen : (cstr b.bytes).length - 1 < b.bytes.length := by
      have := b.size_eq
      omega
    exact List.mem_set hlen 0
  · exact hle

/-! ## The student's side -/

/-- What the student is in the middle of, and what it was seen to do. -/
abbrev VistaStud := PuntoStud × LatoStudente

/-- One answer to the student. `M` says that the replies are known to be the ones it is owed; the
    property without that is needed too, to know that they are. -/
def ode (M : Prop) (v : VistaStud) : (o : Sys) → o.Ans → VistaStud → Prop
  | .read _ n, r, v' => v' = (v.1, { v.2 with ricevuti := v.2.ricevuti ++ [r], ultima := n }) ∧
      (M → (resto (dovute v.2.inviati) (v.2.ricevuti ++ [r])).isSome)
  | .write _ bs, _, v' => v' = (v.1, { v.2 with inviati := v.2.inviati ++ pezzo bs, ultima := 0 })
  | .printf testo, _, v' => v' = (v.1, if v.2.ultima = 12 then
      { v.2 with mostrate := v.2.mostrate ++ [testo] } else v.2)
  | .fgets _, riga, v' => v' = v ∧ (v.2.fase = some .esame → ∀ riga', riga = some riga' →
      (cstr ((Buffer.zero 255).overlay (riga' ++ [0])).bytes).length ≠ 1)
  | .scanf, r, v' => v' = v ∧ (v.2.fase = some .scelta → ∀ s, v.1 = .menu s → Colloquio.sceltaDi s r ∈ [1, 2])
  | _, _, v' => v' = v

/-- The student is in phase `f`; when its replies are regular, it is owed `ds`, and of the records it
    received it has still to print `manca`. -/
structure Detto (M : Prop) (f : Fase) (ds : List Atteso) (manca : List RigaLista) (l : LatoStudente) : Prop where
  /-- What it sent is in the grammar, and this comes next. -/
  fase : l.fase = some f
  /-- This is what it is still owed. -/
  debiti : M → resto (dovute l.inviati) l.ricevuti = some ds
  /-- The lines printed are the records received, but for those it has still to print. -/
  mostrate : M → ∃ ls, record l.ricevuti = ls ++ manca ∧ List.Forall₂ RigaLista.Mostra ls l.mostrate

/-- At each call the student has said something sensible, and a read is one it is owed: it never waits
    for a reply that nobody is to write. -/
def Regge (M : Prop) (v : VistaStud) (o : Sys) : Prop :=
  ∃ f ds manca, Detto M f ds manca v.2 ∧ (o.Legge → ds ≠ [])

section Studente

variable {M : Prop} {f f' : Fase} {ds : List Atteso} {manca : List RigaLista} {l : LatoStudente} {v v' : VistaStud}

theorem Fase.ne_nil_of_passo {bs : Bytes} (h : f.passo bs = some f') : bs ≠ [] := by
  rintro rfl
  cases f <;> simp [passo] at h

theorem Detto.regge {o : Sys} (h : Detto M f ds manca v.2) (ho : ¬ o.Legge) : Regge M v o :=
  ⟨f, ds, manca, h, fun hl => absurd hl ho⟩

/-- A read, when something is owed. -/
theorem Detto.regge_read {o : Sys} {a : Atteso} (h : Detto M f (a :: ds) manca v.2) : Regge M v o :=
  ⟨f, _, manca, h, fun _ => List.cons_ne_nil _ _⟩

/-- A message: the phase moves on, and what it asks for is owed. -/
theorem Detto.scrive {fd : Int} {bs : Bytes} {u : Unit} (h : Detto M f ds manca v.2)
    (hf : f.passo bs = some f')
    (hv : ode M v (.write fd bs) u v') : v'.1 = v.1 ∧ Detto M f' (ds ++ f.dovute bs) manca v'.2 := by
  obtain rfl : v' = _ := hv
  refine ⟨rfl, ?_, fun hM => ?_, h.mostrate⟩
  · show Mealy.run _ _ (v.2.inviati ++ pezzo bs) = _
    rw [pezzo_of_ne (Fase.ne_nil_of_passo hf), Mealy.run_concat h.fase, hf]
  · show resto (dovute (v.2.inviati ++ pezzo bs)) v.2.ricevuti = _
    rw [pezzo_of_ne (Fase.ne_nil_of_passo hf), dovute, Mealy.outs_concat h.fase]
    exact resto_append _ _ (h.debiti hM)

theorem Detto.legge {a : Atteso} {fd : Int} {n : Nat} {r : Bytes} (h : Detto M f (a :: ds) manca v.2)
    (hv : ode M v (.read fd n) r v') :
    v' = (v.1, { v.2 with ricevuti := v.2.ricevuti ++ [r], ultima := n }) ∧
    (M → a.Misura r ∧ resto (dovute v.2.inviati) (v.2.ricevuti ++ [r]) = some (a.apre r ++ ds)) := by
  obtain ⟨rfl, hv⟩ := hv
  refine ⟨rfl, fun hM => ?_⟩
  obtain ⟨ds', hds'⟩ := Option.isSome_iff_exists.mp (hv hM)
  obtain ⟨hr, rfl⟩ := avanza_cons.mp ((Mealy.run_concat (h.debiti hM) r).symm.trans hds')
  exact ⟨hr, hds'⟩

/-- Only a date leaves the student with a row to print. -/
theorem Detto.legge_altro {a : Atteso} {fd : Int} {n : Nat} {r : Bytes}
    (h : Detto M f (a :: ds) manca v.2)
    (ha : a.Misura r → r.length ≠ 12) (hv : ode M v (.read fd n) r v') :
    (M → a.Misura r) ∧ Detto M f (a.apre r ++ ds) manca v'.2 := by
  obtain ⟨rfl, hr⟩ := h.legge hv
  refine ⟨fun hM => (hr hM).1, h.fase, fun hM => (hr hM).2, fun hM => ?_⟩
  show ∃ ls, record (v.2.ricevuti ++ [r]) = _ ∧ _
  rw [record_concat _ (ha (hr hM).1)]
  exact h.mostrate hM

/-- A date closes a record: the student has it to print, and until he has printed it he reads nothing more. -/
theorem Detto.legge_data {fd : Int} {n : Nat} {id nome r : Bytes} {rs : List Bytes}
    (h : Detto M f (.data :: ds) [] v.2) (hid : M → id.length = 4) (hnome : M → nome.length = 255)
    (hrs : v.2.ricevuti = rs ++ [id] ++ [nome]) (hv : ode M v (.read fd n) r v') :
    (M → r.length = 12) ∧ Detto M f ds [.daScritture id nome r] v'.2 := by
  obtain ⟨rfl, hr⟩ := h.legge hv
  refine ⟨fun hM => (hr hM).1, h.fase, fun hM => (hr hM).2, fun hM => ?_⟩
  obtain ⟨ls, hls, hm⟩ := h.mostrate hM
  refine ⟨ls, ?_, hm⟩
  have hrec : record rs = ls := by
    rw [hrs, record_concat _ (by rw [hnome hM]; decide), record_concat _ (by rw [hid hM]; decide),
      List.append_nil] at hls
    exact hls
  calc record (v.2.ricevuti ++ [r]) = record (rs ++ [id, nome, r]) := by rw [hrs]; simp
    _ = record rs ++ [.daScritture id nome r] := record_tre rs (hid hM) (hnome hM) (hr hM).1
    _ = ls ++ [.daScritture id nome r] := by rw [hrec]

theorem Detto.stampa {riga : RigaLista} {testo : Bytes} {u : Unit} (h : Detto M f ds [riga] v.2)
    (hu : v.2.ultima = 12) (ht : M → riga.Mostra testo) (hv : ode M v (.printf testo) u v') :
    v'.1 = v.1 ∧ Detto M f ds [] v'.2 := by
  obtain rfl : v' = _ := hv
  rw [if_pos hu]
  refine ⟨rfl, h.fase, h.debiti, fun hM => ?_⟩
  obtain ⟨ls, hls, hm⟩ := h.mostrate hM
  exact ⟨ls ++ [riga], hls.trans (List.append_nil _).symm, List.rel_append hm (.cons (ht hM) .nil)⟩

theorem ode_printf {testo : Bytes} {u : Unit} (hu : v.2.ultima ≠ 12) (hv : ode M v (.printf testo) u v') :
    v' = v := by
  obtain rfl : v' = _ := hv
  rw [if_neg hu]

/-! ## The student's program -/

variable {α β : Type} {Q : α → VistaStud → Prop}

theorem safe_muta {o : Sys} {k : o.Ans → Programma α} (h : Detto M f ds manca v.2) (ho : ¬ o.Legge)
    (hv : ∀ r v', ode M v o r v' → v' = v) (hk : ∀ r, (k r).Safe (ode M) (Regge M) Q v) :
    (Prog.call o k).Safe (ode M) (Regge M) Q v :=
  ⟨h.regge ho, fun r v' hr => hv r v' hr ▸ hk r⟩

/-- A string is taken from a buffer: nothing is shown, nothing read. -/
theorem safe_stringaDi {n : Nat} {b : Buffer n} {k : Bytes → Programma α} (h : Detto M f ds manca v.2)
    (hk : ∀ t, Stringa b t → (k t).Safe (ode M) (Regge M) Q v) :
    (cString b >>= k).Safe (ode M) (Regge M) Q v := by
  rw [cString]
  split
  · rename_i h0
    exact hk _ (Or.inl ⟨h0, rfl⟩)
  · rename_i h0
    exact safe_muta h id (fun _ _ hr => hr) fun dietro => hk _ (Or.inr ⟨h0, dietro, rfl⟩)

/-- A number is typed, or the variable keeps its value. -/
theorem safe_numero {x : Int} {k : Int → Programma α} (h : Detto M f ds manca v.2)
    (hk : ∀ r : Option Int, (v.2.fase = some .scelta → ∀ s, v.1 = .menu s → Colloquio.sceltaDi s r ∈ [1, 2]) →
      (k (r.elim x fun n => (Buffer.ofInt n).toInt)).Safe (ode M) (Regge M) Q v) :
    (scanInt x >>= k).Safe (ode M) (Regge M) Q v := by
  refine ⟨h.regge id, fun r v' hv => ?_⟩
  obtain ⟨rfl, hr⟩ := hv
  cases r with
  | none => exact hk none hr
  | some n => exact hk (some n) hr

/-- A line is typed; in the phase of the exam it is not empty. What it leaves in the buffer is a line
    without its last character. -/
theorem safe_rigaDi {k : Buffer 255 → Programma α} (h : Detto M f ds manca v.2)
    (hk : ∀ (len : Nat) (b : Buffer 255), Riga len b → (f = .esame → len ≠ 1) →
      (k b).Safe (ode M) (Regge M) Q v) :
    (leggiRiga (Buffer.zero 255) >>= k).Safe (ode M) (Regge M) Q v := by
  refine ⟨h.regge id, fun riga v' hv => ?_⟩
  obtain ⟨rfl, hr⟩ := hv
  -- a closed input, or an empty string: nothing is defined from there on, and nothing is claimed
  have hindef : ((indefinito : Programma (Buffer 255)) >>= k).Safe (ode M) (Regge M) Q v' :=
    ⟨h.regge id, fun r => Empty.elim r⟩
  cases riga with
  | none => exact hindef
  | some riga =>
    have hone : f = .esame → (cstr ((Buffer.zero 255).overlay (riga ++ [0])).bytes).length ≠ 1 :=
      fun hf => hr (hf ▸ h.fase) riga rfl
    show (tagliaFine ((Buffer.zero 255).overlay (riga ++ [0])) >>= k).Safe (ode M) (Regge M) Q v'
    generalize (Buffer.zero 255).overlay (riga ++ [0]) = b at hone ⊢
    refine (Prog.safe_bind _ k Q v').mpr (safe_stringaDi h fun testo htesto => ?_)
    by_cases hlen : testo.length = 0 ∨ 255 < testo.length
    · rw [if_pos hlen]
      exact ⟨h.regge id, fun r => Empty.elim r⟩
    · rw [if_neg hlen]
      obtain ⟨hne, hle⟩ := not_or.mp hlen
      obtain rfl := stringa_dentro htesto (Nat.not_lt.mp hle)
      exact hk _ _ (riga_poke b hne) hone

/-- The rows of a list: each is read and printed. By induction on the count, with the fields that are
    still owed for it. -/
theorem ProgStudente.safe_righe (sockfd : Int) (n : Nat) : ∀ (id : Buffer 4) (name : Buffer 255)
    (date : Buffer 12)
    {v : VistaStud}, Detto M f (campi n ++ ds) [] v.2 →
    (righe sockfd id name date n).Safe (ode M) (Regge M)
    (fun _ v' => v'.1 = v.1 ∧ Detto M f ds [] v'.2) v := by
  induction n with
  | zero => exact fun _ _ _ _ h => ⟨rfl, h⟩
  | succ n ih =>
    intro ident name date v h
    refine ⟨h.regge_read, fun r v₁ h₁ => ?_⟩
    obtain ⟨hid, hd₁⟩ := h.legge_altro (fun hr => by rw [hr]; decide) h₁
    obtain rfl := (h.legge h₁).1
    refine ⟨hd₁.regge_read, fun r' v₂ h₂ => ?_⟩
    obtain ⟨hnome, hd₂⟩ := hd₁.legge_altro (fun hr => by rw [hr]; decide) h₂
    obtain rfl := (hd₁.legge h₂).1
    refine ⟨hd₂.regge_read, fun r'' v₃ h₃ => ?_⟩
    obtain ⟨hdata, hd₃⟩ := hd₂.legge_data hid hnome rfl h₃
    obtain rfl := (hd₂.legge h₃).1
    refine safe_stringaDi hd₃ fun nome hsn => safe_stringaDi hd₃ fun data hsd => ?_
    refine ⟨hd₃.regge id, fun u v₄ h₄ => ?_⟩
    -- what is printed is read off the buffers, and each field has just overwritten its own from end to end
    have hshow : M → (RigaLista.daScritture r r' r'').Mostra
        (dec (ident.overlay r).toInt ++ [9] ++ nome ++ [9] ++ data ++ [10]) := by
      intro hM
      have e1 : (ident.overlay r).toInt = intero r := overlay_toInt ident (hid hM)
      have e2 : name.overlay r' = (Buffer.zero 255).overlay r' :=
        (Buffer.overlay_full name ⟨r', hnome hM⟩).trans (Buffer.overlay_full _ ⟨r', hnome hM⟩).symm
      have e3 : date.overlay r'' = (Buffer.zero 12).overlay r'' :=
        (Buffer.overlay_full date ⟨r'', hdata hM⟩).trans (Buffer.overlay_full _ ⟨r'', hdata hM⟩).symm
      refine ⟨nome, data, ?_, ?_, by rw [e1]; rfl⟩
      · rw [e2] at hsn
        exact hsn
      · rw [e3] at hsd
        exact hsd
    obtain ⟨h1, hd₄⟩ := hd₃.stampa rfl hshow h₄
    exact (ih _ _ _ hd₄).mono fun _ v' h' => ⟨h'.1.trans h1, h'.2⟩

/-- A line that is not empty is a name. -/
theorem Riga.passo_esame {len : Nat} {b : Buffer 255} (h : Riga len b) (hlen : len ≠ 1) :
    Fase.esame.passo (cstr b.bytes) = some .codice := by
  have h1 := h.lunga
  have h2 := h.corta
  exact if_pos ⟨by omega, by omega, zero_notMem_cstr _⟩

/-- The end of `visualizza`: the count, then the rows. -/
def ProgStudente.riceviElenco (sockfd : Int) (s : ProgStudente) : Programma ProgStudente := do
  let numRows ← sys (.indeterminato 4)
  let r ← sys (.read sockfd 4)
  if (numRows.overlay r).toInt = 0 then
    sys (.printf (ascii "\nNon esistono appelli disponibili!\n"))
  else
    let id ← sys (.indeterminato 4)
    righe sockfd id (Buffer.zero 255) (Buffer.zero 12) (numRows.overlay r).toInt.toNat
  pure s

/-- The count that is owed, then the rows that it announces: for as many records as the int says, and
    none for 0 or less. -/
theorem ProgStudente.safe_riceviElenco (sockfd : Int) (s : ProgStudente)
    (h : Detto M .codice [.conta] [] v.2) :
    (riceviElenco sockfd s).Safe (ode M) (Regge M)
    (fun s' v' => s' = s ∧ Detto M .codice [] [] v'.2) v := by
  rw [riceviElenco]
  simp only [Prog.op_eq, Prog.call_bind, Prog.ret_bind]
  refine safe_muta h id (fun _ _ hv => hv) fun numRows => ?_
  refine ⟨h.regge_read, fun r v₁ h₁ => ?_⟩
  obtain ⟨hr, hd⟩ := h.legge_altro (fun hr => by rw [hr]; decide) h₁
  obtain rfl := (h.legge h₁).1
  have hn : M → (Buffer.overlay numRows r).toInt = intero r := fun hM => overlay_toInt numRows (hr hM)
  -- the count turns into as many records as are owed
  have hd' : Detto M .codice (campi (Buffer.overlay numRows r).toInt.toNat) []
      { v.2 with ricevuti := v.2.ricevuti ++ [r], ultima := 4 } := by
    refine ⟨hd.fase, fun hM => ?_, hd.mostrate⟩
    rw [hn hM, hd.debiti hM]
    exact congrArg some (List.append_nil _)
  show Prog.Safe _ _ (if _ then _ else _) _ _
  split
  · rename_i h0
    rw [h0] at hd'
    exact safe_muta hd' id (fun _ _ hv => ode_printf (show (4 : Nat) ≠ 12 by decide) hv) fun _ => ⟨rfl, hd'⟩
  · refine safe_muta hd' id (fun _ _ hv => hv) fun id => ?_
    rw [Prog.safe_bind]
    rw [← List.append_nil (campi _)] at hd'
    exact (safe_righe sockfd _ id _ _ hd').mono fun _ v' h' => ⟨rfl, h'.2⟩

/-- A list: the choice, perhaps the name of an exam, then the rows. The choice decides which phase the
    grammar is in, as it decides which branch the program takes. -/
theorem ProgStudente.safe_visualizza {s s₀ : ProgStudente} (hs : v.1 = .menu s₀) (hreq : s.req = s₀.req)
    (h : Detto M .scelta [] [] v.2) :
    s.visualizza.Safe (ode M) (Regge M)
      (fun s' v' => s'.request = s.request ∧ Detto M .codice [] [] v'.2) v := by
  rw [visualizza]
  refine safe_numero h fun r hr => ?_
  -- the condition on what is typed: the choice is one of the two lists
  have hscelta : (r.elim s.req fun n => (Buffer.ofInt n).toInt) ∈ [1, 2] := hreq ▸ hr h.fase _ hs
  generalize (r.elim s.req fun n => (Buffer.ofInt n).toInt) = c at hscelta ⊢
  simp only [Prog.op_eq, Prog.call_bind, Prog.ret_bind]
  refine ⟨h.regge id, fun u v₁ h₁ => ?_⟩
  rcases List.mem_cons.mp hscelta with rfl | h2
  · obtain ⟨-, hd⟩ := h.scrive (show Fase.scelta.passo (Buffer.ofInt 1).bytes = some .codice by decide) h₁
    refine safe_muta hd id (fun _ _ hv => hv) fun _ => ?_
    rw [if_neg (by decide)]
    exact (safe_riceviElenco s.sockfd _ hd).mono fun s' v' h' => ⟨by rw [h'.1], h'.2⟩
  · obtain rfl := List.mem_singleton.mp h2
    obtain ⟨-, hd⟩ := h.scrive (show Fase.scelta.passo (Buffer.ofInt 2).bytes = some .esame by decide) h₁
    refine safe_muta hd id (fun _ _ hv => hv) fun _ => ?_
    rw [if_pos rfl]
    refine safe_rigaDi hd fun len b hb hlen => ?_
    refine ⟨hd.regge id, fun u' v₂ h₂ => ?_⟩
    obtain ⟨-, hd₂⟩ := hd.scrive (hb.passo_esame (hlen rfl)) h₂
    exact (safe_riceviElenco s.sockfd _ hd₂).mono fun s' v' h' => ⟨by rw [h'.1], h'.2⟩

/-- A booking: the appello, the matricola, then one reply, which is printed before it is read and
    afterwards. -/
theorem ProgStudente.safe_prenotaAppello (s : ProgStudente) (h : Detto M .cod [] [] v.2) :
    s.prenotaAppello.Safe (ode M) (Regge M) (fun _ v' => Detto M .codice [] [] v'.2) v := by
  rw [prenotaAppello]
  simp only [Prog.op_eq, Prog.call_bind, Prog.ret_bind]
  refine safe_muta h id (fun _ _ hv => hv) fun cod => safe_numero h fun r _ => ?_
  generalize (r.elim cod.toInt fun n => (Buffer.ofInt n).toInt) = c
  refine safe_muta h id (fun _ _ hv => hv) fun _ => ⟨h.regge id, fun u v₁ h₁ => ?_⟩
  obtain ⟨-, hd₁⟩ := h.scrive (if_pos (Buffer.ofInt c).size_eq) h₁
  refine ⟨hd₁.regge id, fun u v₂ h₂ => ?_⟩
  obtain ⟨-, hd₂⟩ := hd₁.scrive (if_pos s.mat.size_eq) h₂
  obtain rfl : v₂ = _ := h₂
  refine safe_muta hd₂ id (fun _ _ hv => hv) fun res => safe_stringaDi hd₂ fun prima _ => ?_
  refine safe_muta hd₂ id (fun _ _ hv => ode_printf (show (0 : Nat) ≠ 12 by decide) hv) fun _ => ?_
  refine ⟨hd₂.regge_read, fun r' v₃ h₃ => ?_⟩
  obtain ⟨-, hd₃⟩ := hd₂.legge_altro id h₃
  obtain rfl := (hd₂.legge h₃).1
  refine safe_stringaDi hd₃ fun esito _ => ?_
  exact safe_muta hd₃ id (fun _ _ hv => ode_printf (show (255 : Nat) ≠ 12 by decide) hv) fun _ => hd₃

/-- The login: the two credentials, then one reply; a refusal ends the program, and then nothing more is
    said. -/
theorem ProgStudente.safe_accesso (s : ProgStudente) (h : Detto M .matricola [] [] v.2) :
    s.accesso.Safe (ode M) (Regge M)
      (fun s' v' => s'.request = s.request ∧ Detto M .codice [] [] v'.2) v := by
  rw [accesso]
  refine safe_numero h fun r _ => ?_
  generalize (r.elim s.mat.toInt fun n => (Buffer.ofInt n).toInt) = mat
  simp only [Prog.op_eq, Prog.call_bind, Prog.ret_bind]
  refine safe_muta h id (fun _ _ hv => hv) fun _ => safe_rigaDi h fun len pass hpass _ => ?_
  refine ⟨h.regge id, fun u v₁ h₁ => ?_⟩
  obtain ⟨-, hd₁⟩ := h.scrive (if_pos (Buffer.ofInt mat).size_eq) h₁
  refine ⟨hd₁.regge id, fun u v₂ h₂ => ?_⟩
  obtain ⟨-, hd₂⟩ := hd₁.scrive (if_pos ⟨pass.size_eq, hpass.chiusa⟩) h₂
  refine ⟨hd₂.regge_read, fun r v₃ h₃ => ?_⟩
  obtain ⟨-, hd₃⟩ := hd₂.legge_altro id h₃
  obtain rfl := (hd₂.legge h₃).1
  refine safe_stringaDi hd₃ fun state _ => ?_
  refine safe_muta hd₃ id (fun _ _ hv => ode_printf (show (255 : Nat) ≠ 12 by decide) hv) fun _ => ?_
  show Prog.Safe _ _ (if _ then _ else _) _ _
  split
  · exact safe_muta hd₃ id (fun _ _ hv => hv) fun r => Empty.elim r
  · exact ⟨rfl, hd₃⟩

/-- A variable of four bytes. -/
def Intero (n : Int) : Prop := ∃ b : Buffer 4, n = b.toInt

/-- What a variable of four bytes holds is what is sent of it. -/
theorem intero_ofInt {n : Int} (hn : Intero n) : intero (Buffer.ofInt n).bytes = n := by
  obtain ⟨b, rfl⟩ := hn
  rw [intero_bytes, Buffer.ofInt_toInt]

theorem ProgStudente.safe_passo (s : ProgStudente) (hv : v.1 = .menu s) (hs : Intero s.request)
    (h : Detto M .codice [] [] v.2) : s.passo.Safe (ode M) (Regge M)
      (fun s' v' => Intero s'.request ∧ Detto M .codice [] [] v'.2) v := by
  rw [passo]
  refine safe_numero h fun r _ => ?_
  -- where no number is typed the last one stands, and that was an int as well
  obtain ⟨request, hreq, hint⟩ : ∃ request, request = (r.elim s.request fun n => (Buffer.ofInt n).toInt) ∧
      Intero request := by
    cases r with
    | none => exact ⟨_, rfl, hs⟩
    | some n => exact ⟨_, rfl, _, rfl⟩
  rw [← hreq]
  simp only [Prog.op_eq, Prog.call_bind, Prog.ret_bind]
  refine safe_muta h id (fun _ _ hv => hv) fun _ => ⟨h.regge id, fun u v₁ h₁ => ?_⟩
  obtain ⟨hv₁, hd⟩ := h.scrive (if_pos (Buffer.ofInt request).size_eq) h₁
  rw [intero_ofInt hint] at hd
  show Prog.Safe _ _ (if _ then _ else _) _ _
  split
  · rename_i h1
    subst h1
    have hvis := safe_visualizza (s := { s with request := 1 }) (hv₁.trans hv) rfl hd
    exact hvis.mono fun s' v' h' => ⟨h'.1 ▸ hint, h'.2⟩
  · rename_i h1
    split
    · rename_i h2
      subst h2
      rw [Prog.safe_bind]
      exact (safe_prenotaAppello _ hd).mono fun _ v' h' => ⟨hint, h'⟩
    · rename_i h2
      split
      · -- the logout: the program ends
        exact safe_muta hd id (fun _ _ hv => hv) fun _ =>
          safe_muta hd id (fun _ _ hv => hv) fun r => Empty.elim r
      · rename_i h3
        rw [Fase.dopoCodice, if_neg h1, if_neg h2, if_neg h3] at hd
        exact ⟨hint, hd⟩

/-- The head of the login, and of the menu. -/
def PuntoStud.Capo (M : Prop) : PuntoStud → LatoStudente → Prop
  | .accesso s, l => Intero s.request ∧ Detto M .matricola [] [] l
  | .menu s, l => Intero s.request ∧ Detto M .codice [] [] l

/-- **A turn of the student.** -/
theorem ProgStudente.safe_giro {p : PuntoStud} (hv : v.1 = p) (h : p.Capo M v.2) :
    (giro p).Safe (ode M) (Regge M) (fun p' v' => p'.Capo M v'.2) v := by
  cases p with
  | accesso s =>
    rw [giro, Prog.safe_bind]
    exact (safe_accesso s h.2).mono fun s' v' h' => ⟨h'.1 ▸ h.1, h'.2⟩
  | menu s =>
    rw [giro, Prog.safe_bind]
    exact (safe_passo s hv h.1 h.2).mono fun s' v' h' => h'

end Studente

end Universita

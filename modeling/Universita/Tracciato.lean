/-
  THE RECORDS OF A LIST — what a student reads off them, against the rows they were made from.

  A record holds a name in 255 bytes and a date in 12.  `sscanf("%[^\n]")` copies the first line of a name,
  without a bound, and nothing at all when that line is empty: then the buffer still holds the name of an
  earlier row, or whatever was in memory.  On the other side the student's loop reads into two buffers of its own, again
  the same for all records, and prints up to the NUL.

  The property has two halves, since an overrun has no meaning in C: a list request with these rows stores only inside
  its buffers, and what it sends is read off as the rows (`ListaFedele`).  It is asked of every engine, every
  student and every content of uninitialised memory.

  The condition is on the names alone (`NomeIntero`), and each part of it is needed.  The crux of the way back is a
  buffer that already holds a name: from there an empty first line shows that name again, which is the only reason why
  an empty name is not merely shown as nothing.

  Contents:
  1. `Schermo` — the student's program in front of a sender that sends these texts, and what it prints.
  2. `mostrata` — the line a row has to become.
  3. `Letti` — the student, given each write whole, shows the rows; `ListaFedele`: a list request with these rows
     stores inside its buffers and its records are read so.
  4. **`fedele_iff`** — exactly when each name is there, is not empty, is one line of text without NUL, and
     leaves room for a NUL; `nome_vuoto` — an exam without a name, shown under another's.
-/
import Universita.Colloquio
import Universita.Disponibili

set_option linter.unusedVariables false

namespace Universita

open Lib Mondo

/-! ## The student's screen -/

/-- The student's world while it reads a list. -/
structure Schermo where
  /-- What the coming reads deliver. -/
  ingresso : List Bytes
  /-- What was printed. -/
  mostrate : List Bytes

/-- In `e` the call `o` may answer `r` and lead to `e'`: a read takes the next text whole, a line that
    is printed is recorded, and no other call is of interest. -/
def Schermo.chiama (e : Schermo) : (o : Sys) → o.Ans → Schermo → Prop
  | .read _ n, r, e' => ∃ rest, e.ingresso = r :: rest ∧ r.length ≤ n ∧ e' = { e with ingresso := rest }
  | .printf testo, _, e' => e' = { e with mostrate := e.mostrate ++ [testo] }
  | _, _, e' => e' = e

/-- `p` is answered to its end, which is in `Q`. -/
abbrev Arriva {α : Type} (p : Programma α) (Q : α → Schermo → Prop) (e : Schermo) : Prop :=
  p.Safe Schermo.chiama (Prog.Answers Schermo.chiama) Q e

section Schermo

variable {α : Type} {Q : α → Schermo → Prop} {e : Schermo} {r : Bytes} {rest : List Bytes}

/-- A read is answered by the next write. -/
theorem arriva_read {fd : Int} {n : Nat} {k : Bytes → Programma α} (hin : e.ingresso = r :: rest)
    (hr : r.length ≤ n) : Arriva (.call (.read fd n) k) Q e ↔
    Arriva (k r) Q { e with ingresso := rest } := by
  constructor
  · exact fun h => h.2 r _ ⟨rest, hin, hr, rfl⟩
  · intro h
    refine ⟨⟨r, _, rest, hin, hr, rfl⟩, ?_⟩
    rintro r' e' ⟨rest', hin', -, rfl⟩
    obtain ⟨rfl, rfl⟩ := List.cons.inj (hin.symm.trans hin')
    exact h

theorem arriva_printf {testo : Bytes} {k : Unit → Programma α} : Arriva (.call (.printf testo) k) Q e ↔
    Arriva (k ()) Q { e with mostrate := e.mostrate ++ [testo] } := by
  constructor
  · exact fun h => h.2 () _ rfl
  · intro h
    refine ⟨⟨(), _, rfl⟩, ?_⟩
    rintro _ e' rfl
    exact h

/-- The string in a buffer is any that can be found there, and what is said of the program has to hold
    for each. -/
theorem arriva_cString {n : Nat} {b : Buffer n} {k : Bytes → Programma α} :
    Arriva (cString b >>= k) Q e ↔ ∀ t, Stringa b t → Arriva (k t) Q e := by
  by_cases h : (0 : Byte) ∈ b.bytes
  · rw [cString_of_mem h]
    constructor
    · rintro hk t (⟨-, rfl⟩ | ⟨h', -⟩)
      · exact hk
      · exact absurd h h'
    · exact fun hk => hk _ (Or.inl ⟨h, rfl⟩)
  · rw [cString, if_neg h]
    constructor
    · rintro hk t (⟨h', -⟩ | ⟨-, dietro, rfl⟩)
      · exact absurd h' h
      · exact hk.2 dietro e rfl
    · intro hk
      refine ⟨⟨[], e, rfl⟩, ?_⟩
      rintro dietro e' rfl
      exact hk _ (Or.inr ⟨h, dietro, rfl⟩)

/-- **The loop over the records** prints one line for each, made of the strings found in its buffers. By
    induction on the records; a buffer without a NUL has no string that is known, and so any may be
    printed. -/
theorem arriva_righe {sockfd : Int} {Q : Unit → Schermo → Prop} {ls : List RigaLista} :
    ∀ {id : Buffer 4} {name : Buffer 255} {date : Buffer 12} {mostrate : List Bytes},
      Arriva (ProgStudente.righe sockfd id name date ls.length) Q ⟨ls.flatMap RigaLista.scritture, mostrate⟩ ↔
        ∀ testi, List.Forall₂ RigaLista.Mostra ls testi → Q () ⟨[], mostrate ++ testi⟩ := by
  induction ls with
  | nil =>
    intro id name date mostrate
    constructor
    · rintro h _ ⟨⟩
      rw [List.append_nil]
      exact h
    · intro h
      have h := h [] .nil
      rwa [List.append_nil] at h
  | cons l ls ih =>
    intro id name date mostrate
    refine (arriva_read rfl (Nat.le_of_eq l.id.size_eq)).trans ?_
    refine (arriva_read rfl (Nat.le_of_eq l.nome.size_eq)).trans ?_
    refine (arriva_read rfl (Nat.le_of_eq l.data.size_eq)).trans ?_
    -- each of the three writes overwrites its buffer from end to end
    show Arriva (cString (name.overlay l.nome.bytes) >>= fun nome =>
      cString (date.overlay l.data.bytes) >>= fun data =>
        .call (.printf (dec (id.overlay l.id.bytes).toInt ++ [9] ++ nome ++ [9] ++ data ++ [10])) fun _ =>
          ProgStudente.righe sockfd (id.overlay l.id.bytes) (name.overlay l.nome.bytes)
            (date.overlay l.data.bytes) ls.length) Q ⟨ls.flatMap RigaLista.scritture, mostrate⟩ ↔ _
    rw [Buffer.overlay_full, Buffer.overlay_full, Buffer.overlay_full]
    refine arriva_cString.trans ?_
    constructor
    · rintro h _ (_ | ⟨⟨nome, data, hnome, hdata, rfl⟩, hls⟩)
      have h := ih.mp (arriva_printf.mp (arriva_cString.mp (h nome hnome) data hdata)) _ hls
      rwa [List.append_assoc] at h
    · refine fun h nome hnome => arriva_cString.mpr fun data hdata => arriva_printf.mpr ?_
      refine ih.mpr fun testi hls => ?_
      have h := h _ (.cons ⟨nome, data, hnome, hdata, rfl⟩ hls)
      rwa [List.append_assoc]

end Schermo

/-! ## What is asked -/

/-- The line the student has to see for a row; none does for a NULL name. -/
def mostrata (r : Int × Option Bytes × Data) : Option Bytes :=
  r.2.1.map fun nome => dec r.1 ++ [9] ++ nome ++ [9] ++ dateFormat r.2.2 ++ [10]

/-- `Letti ls rs` — the student reads the records `ls`, each write whole, and shows the rows `rs`: as
    many lines as rows, each of them the line its row has to become. -/
def Letti (ls : List RigaLista) (rs : List (Int × Option Bytes × Data)) : Prop :=
  ∀ sockfd id, Arriva (ProgStudente.righe sockfd id (Buffer.zero 255) (Buffer.zero 12) ls.length)
    (fun _ e => e.ingresso = [] ∧ e.mostrate.map some = rs.map mostrata) ⟨ls.flatMap RigaLista.scritture, []⟩

/-- The list statement of the request has these rows, whichever text the student has sent for an exam. -/
def Restituisce {D : Type} (m : Motore D) (db : D) (c : ClientStud) (scelta : Option (Letto 255))
    (rows : List Row) : Prop :=
  ∀ q, Interroga c.matricola.toInt scelta q → ∃ db', m db q = some (db', rows)

/-- `ListaFedele scelta rs` — a list request with the rows `rs` gets to its end, storing only inside its
    buffers, and the student reads them off whatever it sends. -/
structure ListaFedele (scelta : Option (Letto 255)) (rs : List (Int × Option Bytes × Data)) : Prop where
  /-- The request gets to its end without an overrun ... -/
  dentro : ∀ {D : Type} (m : Motore D) (db : D) (c : ClientStud),
    Restituisce m db c scelta (rs.map appelloRow) →
    Compie m (fun _ _ => True) .sempre .fine (Segreteria.visualizzaAppelli c) (fun _ _ => True)
      ((domandaElenco c scelta).mondo db)
  /-- ... and whatever records it sends, they are read as the rows. -/
  letta : ∀ {D : Type} (m : Motore D) (db : D) (c : ClientStud),
    Restituisce m db c scelta (rs.map appelloRow) →
    ∀ ls, Elenca m db c scelta ls → Letti ls rs

/-- The name is one line of text that fits its buffer. -/
def NomeIntero (nome : Option Bytes) : Prop :=
  ∃ x ∈ nome, x ≠ [] ∧ x.length ≤ 254 ∧ (10 : Byte) ∉ x ∧ (0 : Byte) ∉ x

/-! ## One row -/

section Riga

variable {rs : List (Int × Option Bytes × Data)} {nome : Buffer 255} {data : Buffer 12} {ls : List RigaLista}

/-- The first line of a text is the text when it has no newline and no NUL; otherwise something behind
    it is lost. -/
theorem primaRiga_eq_self_iff {x : Bytes} : primaRiga x = x ↔ (10 : Byte) ∉ x ∧ (0 : Byte) ∉ x := by
  have hpre : primaRiga x <+: cstr x := List.takeWhile_prefix _
  have hpre' : cstr x <+: x := List.takeWhile_prefix _
  constructor
  · intro h
    have hle := hpre.length_le
    rw [h] at hle
    have hc : cstr x = x := hpre'.eq_of_length_le hle
    refine ⟨fun h10 => ?_, fun h0 => zero_notMem_cstr x (by rwa [hc])⟩
    rw [← h] at h10
    simpa using List.mem_takeWhile_imp h10
  · rintro ⟨h10, h0⟩
    rw [primaRiga, cstr_of_notMem h0, List.takeWhile_eq_self_iff]
    intro b hb
    rw [decide_eq_true_eq]
    rintro rfl
    exact h10 hb

theorem zero_notMem_primaRiga (x : Bytes) : (0 : Byte) ∉ primaRiga x := fun h =>
  zero_notMem_cstr x ((List.takeWhile_prefix _).subset h)

/-- A text that was scanned ends inside its buffer. -/
theorem zero_mem_scansione {n : Nat} {testo : Bytes} {b b' : Buffer n} (h : scansione testo b = some b')
    (hb : testo = [] → (0 : Byte) ∈ b.bytes) : (0 : Byte) ∈ b'.bytes := by
  by_cases hnil : testo = []
  · rw [scansione, if_pos hnil] at h
    exact Option.some.inj h ▸ hb hnil
  · rw [bytes_scansione hnil h]
    exact List.mem_append_right _ List.mem_cons_self

/-- The date of a record is the date of its row. -/
theorem data_letta {d : Data} {data data' : Buffer 12}
    (h : scansione (primaParola (dateFormat d)) data = some data')
    {t : Bytes} : Stringa data' t ↔ t = dateFormat d := by
  rw [primaParola_dateFormat] at h
  rw [stringa_of_mem (zero_mem_scansione h fun hnil => absurd hnil (dateFormat_ne_nil d)),
    cstr_scansione (zero_notMem_dateFormat d) (dateFormat_ne_nil d) h]

/-- Every list of records shows something. -/
theorem esiste_mostra (ls : List RigaLista) : ∃ testi, List.Forall₂ RigaLista.Mostra ls testi := by
  induction ls with
  | nil => exact ⟨[], .nil⟩
  | cons l ls ih =>
    obtain ⟨testi, htesti⟩ := ih
    obtain ⟨a, ha⟩ := esiste_stringa l.nome
    obtain ⟨b, hb⟩ := esiste_stringa l.data
    exact ⟨_, .cons ⟨a, b, ha, hb, rfl⟩ htesti⟩

/-- Two lines with the same id and date are equal when their names are. -/
theorem linea_inj {i : Int} {x y : Bytes} {d : Data}
    (h : dec i ++ [9] ++ x ++ [9] ++ dateFormat d ++ [10] = dec i ++ [9] ++ y ++ [9] ++ dateFormat d ++ [10]) :
    x = y := by
  simp only [List.append_assoc] at h
  have h' := List.append_cancel_left (List.append_cancel_left h)
  simp only [← List.append_assoc] at h'
  exact List.append_cancel_right (List.append_cancel_right (List.append_cancel_right h'))

/-- **Rows with good names are read**: whatever the buffers held, each record holds the texts of its
    row, since each text comes with its NUL and nobody looks behind it. -/
theorem mostra_interi : ∀ {rs : List (Int × Option Bytes × Data)} {nome : Buffer 255} {data : Buffer 12}
    {ls : List RigaLista} {testi : List Bytes}, (∀ r ∈ rs, -2 ^ 31 ≤ r.1 ∧ r.1 < 2 ^ 31) →
    (∀ r ∈ rs, NomeIntero r.2.1) →
    righeLista nome data (rs.map appelloRow) = some ls → List.Forall₂ RigaLista.Mostra ls testi →
      testi.map some = rs.map mostrata := by
  intro rs
  induction rs with
  | nil =>
    rintro nome data _ _ - - ⟨⟩ ⟨⟩
    rfl
  | cons r rs ih =>
    obtain ⟨i, o, d⟩ := r
    intro nome data ls testi hid hint hls htesti
    rw [List.forall_mem_cons] at hid hint
    obtain ⟨x, rfl, hne, hlen, h10, h0⟩ := hint.1
    obtain ⟨nome', data', ls', hnome, hdata, hls', rfl⟩ := righeLista_cons hls
    obtain ⟨testo, altri, ⟨a, b, ha, hb, rfl⟩, haltri, rfl⟩ := List.forall₂_cons_left_iff.mp htesti
    -- a name of one line is its own first line, and what `sscanf` stores of it ends with a NUL
    have hx : primaRiga x = x := primaRiga_eq_self_iff.mpr ⟨h10, h0⟩
    rw [hx] at hnome
    have hmem := zero_mem_scansione hnome fun hnil => absurd hnil hne
    obtain rfl : a = x := by
      rw [(stringa_of_mem hmem).mp ha, cstr_scansione h0 hne hnome]
    obtain rfl : b = dateFormat d := (data_letta hdata).mp hb
    rw [List.map_cons, List.map_cons, ih hid.2 hint.2 hls' haltri, strtol_dec,
      Buffer.toInt_ofInt hid.1.1 hid.1.2]
    rfl

/-- **... and rows that are read have good names**: from a buffer with a name in it, an empty first line
    shows that name again, and a longer text loses what is behind its first line. -/
theorem interi_of_mostra : ∀ {rs : List (Int × Option Bytes × Data)} {nome : Buffer 255}
    {data : Buffer 12}
    {ls : List RigaLista}, (∀ r ∈ rs, -2 ^ 31 ≤ r.1 ∧ r.1 < 2 ^ 31) → (0 : Byte) ∈ nome.bytes →
    primaRiga (cstr nome.bytes) ≠ [] → righeLista nome data (rs.map appelloRow) = some ls →
    (∀ testi, List.Forall₂ RigaLista.Mostra ls testi → testi.map some = rs.map mostrata) →
      ∀ r ∈ rs, NomeIntero r.2.1 := by
  intro rs
  induction rs with
  | nil => exact fun _ _ _ _ _ r hr => absurd hr List.not_mem_nil
  | cons r rs ih =>
    obtain ⟨i, o, d⟩ := r
    intro nome data ls hid hmem hprima hls hmostra
    rw [List.forall_mem_cons] at hid ⊢
    cases o with
    | none => cases hls
    | some x =>
      obtain ⟨nome', data', ls', hnome, hdata, hls', rfl⟩ := righeLista_cons hls
      have hmem' : (0 : Byte) ∈ nome'.bytes := zero_mem_scansione hnome fun _ => hmem
      have hdata' : Stringa data' (dateFormat d) := (data_letta hdata).mpr rfl
      -- whatever the other rows show, this one shows what its buffer holds
      have hdopo : ∀ testi, List.Forall₂ RigaLista.Mostra ls' testi →
          cstr nome'.bytes = x ∧ testi.map some = rs.map mostrata := by
        intro testi htesti
        have h := hmostra _ (.cons ⟨_, _, Or.inl ⟨hmem', rfl⟩, hdata', rfl⟩ htesti)
        rw [strtol_dec, Buffer.toInt_ofInt hid.1.1 hid.1.2, List.map_cons, List.map_cons] at h
        obtain ⟨hriga, hresto⟩ := List.cons.inj h
        exact ⟨linea_inj (Option.some.inj hriga), hresto⟩
      obtain ⟨testi, htesti⟩ := esiste_mostra ls'
      have hx : cstr nome'.bytes = x := (hdopo testi htesti).1
      by_cases hnil : primaRiga x = []
      · -- nothing is copied: the buffer shows its old name, which is not this one
        rw [scansione, if_pos hnil] at hnome
        obtain rfl := Option.some.inj hnome
        rw [hx] at hprima
        exact absurd hnil hprima
      · have hlen : (primaRiga x).length < 255 := by
          rw [← isSome_scansione (by decide), hnome]
          rfl
        have hriga : primaRiga x = x :=
          (cstr_scansione (zero_notMem_primaRiga x) hnil hnome).symm.trans hx
        obtain ⟨h10, h0⟩ := primaRiga_eq_self_iff.mp hriga
        rw [hriga] at hlen hnil
        refine ⟨⟨x, rfl, hnil, Nat.le_of_lt_succ hlen, h10, h0⟩, ?_⟩
        refine ih hid.2 hmem' ?_ hls' fun testi htesti => (hdopo testi htesti).2
        rwa [hx, hriga]

end Riga

/-! ## The request -/

section ListaFedele

variable {D : Type} {m : Motore D} {db : D} {c : ClientStud} {scelta : Option (Letto 255)} {rows : List Row}
  {rs : List (Int × Option Bytes × Data)}

/-- A list request gets to its end, wherever the rows it has can be sent, and only there: an overrun is
    a call that has no answer. -/
theorem compie_lista_iff (hm : Restituisce m db c scelta rows) :
    Compie m (fun _ _ => True) .sempre .fine (Segreteria.visualizzaAppelli c) (fun _ _ => True)
      ((domandaElenco c scelta).mondo db) ↔ ∀ row ∈ rows, Inviabile row := by
  have hrighe : (∀ row ∈ rows, Inviabile row) ↔ ∀ (nome : Buffer 255) (data : Buffer 12),
      (righeLista nome data rows).elim (Esige.fine = .nulla) fun _ => True := by
    have helim : ∀ (nome : Buffer 255) (data : Buffer 12), ((righeLista nome data rows).elim
        (Esige.fine = .nulla) fun _ => True) ↔ ∀ row ∈ rows, Inviabile row := by
      intro nome data
      have hsome : (righeLista nome data rows).isSome ↔ ∀ row ∈ rows, Inviabile row := isSome_righeLista
      rw [← hsome]
      cases righeLista nome data rows with
      | none => exact iff_of_false nofun Bool.false_ne_true
      | some ls => exact iff_of_true trivial rfl
    constructor
    · exact fun h nome data => (helim nome data).mpr h
    · exact fun h => (helim (Buffer.zero 255) (Buffer.zero 12)).mp (h _ _)
  rw [hrighe]
  cases scelta with
  | none =>
    obtain ⟨db', hq⟩ := hm _ rfl
    rw [safe_elencoCompleto rfl, show esito m .sempre ((domandaElenco c none).mondo db).db
      (.appelli c.matricola.toInt) = some (db', rows) from hq]
    refine forall₂_congr fun nome data => ?_
    cases righeLista nome data rows with
    | none => exact Iff.rfl
    | some ls => exact and_iff_right nofun
  | some exam =>
    rw [safe_elencoEsame rfl exam.2]
    -- whatever string is in the buffer, the statement has these rows
    have hogni : ∀ e, Stringa ((Buffer.zero 255).overlay exam) e →
        ∃ db', esito m .sempre ((domandaElenco c (some exam)).mondo db).db
          (.appelliEsame c.matricola.toInt e) = some (db', rows) :=
      fun e he => hm _ ⟨e, he, rfl⟩
    constructor
    · intro h
      obtain ⟨e, he⟩ := esiste_stringa ((Buffer.zero 255).overlay exam)
      obtain ⟨db', hq⟩ := hogni e he
      have h := h e he
      rw [hq] at h
      exact h
    · intro h e he
      obtain ⟨db', hq⟩ := hogni e he
      rw [hq]
      exact h

/-- The records of such a request are those of its rows, in some buffers: which ones it was is memory's
    business. -/
theorem elenca_restituisce (hm : Restituisce m db c scelta rows) {ls : List RigaLista} :
    Elenca m db c scelta ls ↔ ∃ nome data, righeLista nome data rows = some ls := by
  rw [elenca_iff]
  constructor
  · rintro ⟨q, hq, p, hp, h⟩
    obtain ⟨db', hdb'⟩ := hm q hq
    obtain rfl := Option.some.inj (hp.symm.trans hdb')
    exact h
  · intro h
    obtain ⟨q, hq⟩ : ∃ q, Interroga c.matricola.toInt scelta q := by
      cases scelta with
      | none => exact ⟨_, rfl⟩
      | some exam =>
        obtain ⟨e, he⟩ := esiste_stringa ((Buffer.zero 255).overlay exam)
        exact ⟨_, e, he, rfl⟩
    obtain ⟨db', hdb'⟩ := hm q hq
    exact ⟨q, hq, _, hdb', h⟩

/-- In terms of the strings found in the records: they are the lines to be seen. -/
theorem letti_iff {ls : List RigaLista} : Letti ls rs ↔
    ∀ testi, List.Forall₂ RigaLista.Mostra ls testi → testi.map some = rs.map mostrata := by
  constructor
  · intro h testi htesti
    exact (arriva_righe.mp (h 0 (Buffer.zero 4)) testi htesti).2
  · exact fun h sockfd id => arriva_righe.mpr fun testi htesti => ⟨rfl, h testi htesti⟩

/-- **The rows survive both copies of the loop exactly when their names are good**: none is NULL, empty,
    longer than its buffer allows, of several lines or with a NUL in it. It is so for the full list and
    for the list of one exam, whatever the uninitialised buffers held on the secretary's side. -/
theorem fedele_iff (scelta : Option (Letto 255)) (hid : ∀ r ∈ rs, -2 ^ 31 ≤ r.1 ∧ r.1 < 2 ^ 31) :
    ListaFedele scelta rs ↔ ∀ r ∈ rs, NomeIntero r.2.1 := by
  constructor
  · intro h
    have hm : Restituisce (fun (_ : Unit) _ => some ((), rs.map appelloRow)) () ⟨4, Buffer.zero 4⟩ scelta
        (rs.map appelloRow) := fun _ _ => ⟨(), rfl⟩
    have hinv := (compie_lista_iff hm).mp (h.dentro _ () _ hm)
    -- before the first row there happens to be an `A` in the buffer
    have hsome : (righeLista ((Buffer.zero 255).overlay [65]) (Buffer.zero 12) (rs.map appelloRow)).isSome :=
      isSome_righeLista.mpr hinv
    obtain ⟨ls, hls⟩ := Option.isSome_iff_exists.mp hsome
    have hletti := h.letta _ () _ hm ls ((elenca_restituisce hm).mpr ⟨_, _, hls⟩)
    exact interi_of_mostra hid (by decide +kernel) (by decide +kernel) hls (letti_iff.mp hletti)
  · intro h
    have hinv : ∀ row ∈ rs.map appelloRow, Inviabile row := by
      intro row hrow
      obtain ⟨⟨i, o, d⟩, hr, rfl⟩ := List.mem_map.mp hrow
      obtain ⟨x, rfl, -, hlen, h10, h0⟩ := h _ hr
      refine ⟨_, _, _, rfl, ?_, ?_⟩
      · rw [primaRiga_eq_self_iff.mpr ⟨h10, h0⟩]
        exact Nat.lt_succ_of_le hlen
      · rw [primaParola_dateFormat, length_dateFormat]
        decide
    refine ⟨fun m db c hm => (compie_lista_iff hm).mpr hinv, fun m db c hm ls hls => ?_⟩
    obtain ⟨nome, data, hrighe⟩ := (elenca_restituisce hm).mp hls
    exact letti_iff.mpr fun testi htesti => mostra_interi hid h hrighe htesti

/-- Two appelli of one exam survive: same name twice, two dates. -/
theorem fedele_due :
    ListaFedele none [(12411, some (ascii "ASD"), 20240909), (12411, some (ascii "ASD"), 20240924)] := by
  refine (fedele_iff none (by decide)).mpr fun r hr => ?_
  rcases List.mem_pair.mp hr with rfl | rfl
  · exact ⟨ascii "ASD", rfl, by decide, by decide, by decide, by decide⟩
  · exact ⟨ascii "ASD", rfl, by decide, by decide, by decide, by decide⟩

/-- Two rows, the second of an exam without a name. -/
def senzaNome : List (Int × Option Bytes × Data) :=
  [(1, some (ascii "ASD"), ⟨20240909, by decide⟩), (2, some [], ⟨20240924, by decide⟩)]

/-- The exam without a name is shown under the name of the first: its empty line leaves the buffer as it
    was. -/
theorem nome_vuoto : ¬ ∀ {rs : List (Int × Option Bytes × Data)} (scelta : Option (Letto 255)),
    (∀ r ∈ rs, -2 ^ 31 ≤ r.1 ∧ r.1 < 2 ^ 31) → ListaFedele scelta rs := by
  intro h
  have hid : ∀ r ∈ senzaNome, -2 ^ 31 ≤ r.1 ∧ r.1 < 2 ^ 31 := by decide
  have hm : Restituisce (fun (_ : Unit) _ => some ((), senzaNome.map appelloRow)) () ⟨4,
    Buffer.zero 4⟩ none
      (senzaNome.map appelloRow) := fun _ _ => ⟨(), rfl⟩
  have hne : righeLista ((Buffer.zero 255).overlay [65]) (Buffer.zero 12) (senzaNome.map appelloRow) ≠ none := by
    decide +kernel
  obtain ⟨ls, hls⟩ := Option.ne_none_iff_exists'.mp hne
  have hletti := (h none hid).letta _ () _ hm ls ((elenca_restituisce hm).mpr ⟨_, _, hls⟩)
  have hintero := interi_of_mostra hid (by decide +kernel) (by decide +kernel) hls (letti_iff.mp hletti)
    (2, some [], 20240924) (List.mem_cons_of_mem _ List.mem_cons_self)
  obtain ⟨x, hx, hnil, -⟩ := hintero
  exact hnil (Option.some.inj hx).symm

end ListaFedele

end Universita

/-
  LISTED AND BOOKABLE — the secretary's list of appelli against the server's booking of one of them.

  The list asks whether the exam's own year is not above the student's.  The booking asks whether some
  exam's is, whether a date is to come, and about `supera`: two questions the list does not ask.

  The comment in the source calls the listed appelli available.  What a student can rely on is said from the
  student's side (`Prenotabili`): for each record that is sent, a booking of its exam on the same day, sent with his
  own matricola, is accepted, and the date in the answer is one that the list shows for this exam.

  The list is taken as it is SENT: records of fixed size, from buffers that are reused, and only when every row can
  be scanned.  The crux of the first half is `elenca_iff`, which says that the records sent are the rows of one
  statement, whatever the buffers held; ids and dates survive the wire because a date is one word of ten characters and
  an id fits four bytes.

  The crux of the second is that one of the booking's questions is answered by being listed
  (`candidabile_of_mem`): a row in the list shows a student, and an exam of his year.  What is left are the two
  the list does not ask (`Disponibile`).

  Contents:
  1. `Elenca` — the records a student is sent, on a request for the full list or for one exam.
  2. `elenca_iff` — they are the rows of one statement.
  3. `Prenotabili` — each of them can be booked, on a date of the same list.
  4. **`prenotabili_iff`** — exactly when every row answers the two questions.
-/
import Universita.Risposte
import Universita.Accettata

set_option linter.unusedVariables false

namespace Universita

open Lib Mondo Server Segreteria

/-! ## The list as it is sent -/

section Elenca

/-- The request for the list: all of it, or the appelli of the exam whose name was read. -/
def domandaElenco (c : ClientStud) : Option (Letto 255) → Domanda
  | none => .elenco c
  | some exam => .elencoEsame c exam

/-- The statement made for it: the text is one that can be found in the buffer the name was read into. -/
def Interroga (mat : Int) : Option (Letto 255) → Query → Prop
  | none, q => q = .appelli mat
  | some exam, q => ∃ e, Stringa ((Buffer.zero 255).overlay exam) e ∧ q = .appelliEsame mat e

variable {D : Type} {m : Motore D} {db : D} {c : ClientStud} {scelta : Option (Letto 255)}
  {ls ls' : List RigaLista}

/-- `Elenca m db c scelta ls` — a complete run of the secretary's routine, no call failing, sends the
    records `ls` and nothing else. -/
def Elenca (m : Motore D) (db : D) (c : ClientStud) (scelta : Option (Letto 255)) (ls : List RigaLista) :
    Prop :=
  ∃ w', Prog.Runs (risponde m (fun _ _ => True) .sempre) (visualizzaAppelli c)
    ((domandaElenco c scelta).mondo db) () w' ∧ w'.uscita = (scrittureElenco ls).map (c.connfd, ·)

/-- A record can be read off the writes that begin with it. -/
theorem RigaLista.scritture_append_inj {l l' : RigaLista} {bss bss' : List Bytes}
    (h : l.scritture ++ bss = l'.scritture ++ bss') : l = l' ∧ bss = bss' := by
  obtain ⟨hs, hrest⟩ := List.append_inj h rfl
  simp only [scritture, List.cons.injEq, and_true] at hs
  obtain ⟨hid, hnome, hdata⟩ := hs
  cases l; cases l'
  rw [RigaLista.mk.injEq]
  exact ⟨⟨Buffer.ext hid, Buffer.ext hnome, Buffer.ext hdata⟩, hrest⟩

theorem flatMap_scritture_injective {ls : List RigaLista} : ∀ {ls' : List RigaLista},
    ls.flatMap RigaLista.scritture = ls'.flatMap RigaLista.scritture → ls = ls' := by
  induction ls with
  | nil =>
    intro ls' h
    cases ls' with
    | nil => rfl
    | cons l' ls' => cases h
  | cons l ls ih =>
    intro ls' h
    cases ls' with
    | nil => cases h
    | cons l' ls' =>
      rw [List.flatMap_cons, List.flatMap_cons] at h
      obtain ⟨hl, hls⟩ := RigaLista.scritture_append_inj h
      rw [hl, ih hls]

/-- The writes of a list tell which list it is. -/
theorem scrittureElenco_map_inj {fd : Int} :
    (scrittureElenco ls).map (fd, ·) = (scrittureElenco ls').map (fd, ·) ↔ ls = ls' := by
  constructor
  · intro h
    have h := List.map_injective_iff.mpr (Prod.mk_right_injective fd) h
    exact flatMap_scritture_injective (List.cons.inj h).2
  · rintro rfl
    rfl

/-- `Compie` is about every run: some run writes the records `ls` unless all write something else. -/
theorem elenca_iff_not_compie : Elenca m db c scelta ls ↔
    ¬ Compie m (fun _ _ => True) .sempre .nulla (visualizzaAppelli c)
      (fun _ w' => w'.uscita ≠ (scrittureElenco ls).map (c.connfd, ·))
        ((domandaElenco c scelta).mondo db) := by
  rw [compie_nulla_iff, Elenca]
  push Not
  exact ⟨fun ⟨w', h⟩ => ⟨(), w', h⟩, fun ⟨_, w', h⟩ => ⟨w', h⟩⟩

/-- The records sent are not always others exactly when the rows can be sent as `ls`. -/
theorem righeLista_eq_some_iff (fd : Int) {rows : List Row} :
    (¬ ∀ (nome : Buffer 255) (data : Buffer 12), (righeLista nome data rows).elim (Esige.nulla = .nulla) fun ls' =>
      (scrittureElenco ls').map (fd, ·) ≠ (scrittureElenco ls).map (fd, ·)) ↔
    ∃ nome data, righeLista nome data rows = some ls := by
  push Not
  refine exists₂_congr fun nome data => ?_
  cases righeLista nome data rows with
  | none => simp
  | some ls' => rw [Option.elim_some, ne_eq, not_not, scrittureElenco_map_inj, Option.some.injEq]

/-- Nothing written is no list: even the empty one sends its length. -/
theorem scrittureElenco_map_ne_nil {fd : Int} : [] ≠ (scrittureElenco ls).map (fd, ·) := nofun

/-- Which string is in the buffer decides which statement is made. -/
theorem interroga_esame {mat : Int} {exam : Letto 255} {P : Query → Prop} :
    (∃ q, Interroga mat (some exam) q ∧ P q) ↔
      ∃ e, Stringa ((Buffer.zero 255).overlay exam) e ∧ P (.appelliEsame mat e) := by
  constructor
  · rintro ⟨_, ⟨e, he, rfl⟩, h⟩
    exact ⟨e, he, h⟩
  · rintro ⟨e, he, h⟩
    exact ⟨_, ⟨e, he, rfl⟩, h⟩

/-- **The records sent are the rows of the statement**, from whatever the two buffers held before. Each
    list of records that can be sent is one of some memory. -/
theorem elenca_iff : Elenca m db c scelta ls ↔ ∃ q, Interroga c.matricola.toInt scelta q ∧
    ∃ p, m db q = some p ∧ ∃ nome data, righeLista nome data p.2 = some ls := by
  rw [elenca_iff_not_compie]
  cases scelta with
  -- the full list: one statement, whatever the student sends
  | none =>
    rw [safe_elencoCompleto rfl]
    simp only [Interroga, exists_eq_left]
    rw [show esito m .sempre ((domandaElenco c none).mondo db).db (.appelli c.matricola.toInt) =
      m db (.appelli c.matricola.toInt) from rfl]
    cases hm : m db (.appelli c.matricola.toInt) with
    | none => exact iff_of_false (not_not.mpr ⟨nofun, scrittureElenco_map_ne_nil⟩) nofun
    | some p =>
      simp only [Option.some.injEq, exists_eq_left']
      refine Iff.trans (not_congr ?_) (righeLista_eq_some_iff c.connfd)
      refine forall₂_congr fun nome data => ?_
      cases righeLista nome data p.2 with
      | none => simp only [Option.elim_none]
      | some ls' => exact and_iff_right nofun
  -- the list of one exam: the statement of some string that the received bytes spell
  | some exam =>
    rw [safe_elencoEsame rfl exam.2, not_forall, interroga_esame]
    refine exists_congr fun e => ?_
    rw [Classical.not_imp]
    refine and_congr_right fun _ => ?_
    rw [show esito m .sempre ((domandaElenco c (some exam)).mondo db).db (.appelliEsame c.matricola.toInt e) =
      m db (.appelliEsame c.matricola.toInt e) from rfl]
    cases hm : m db (.appelliEsame c.matricola.toInt e) with
    | none => exact iff_of_false (not_not.mpr ⟨nofun, scrittureElenco_map_ne_nil⟩) nofun
    | some p =>
      simp only [Option.some.injEq, exists_eq_left']
      refine Iff.trans (not_congr ?_) (righeLista_eq_some_iff c.connfd)
      refine forall₂_congr fun nome data => ?_
      cases righeLista nome data p.2 with
      | none => simp only [Option.elim_none]
      | some ls' => exact Iff.rfl

end Elenca

/-! ## The rows -/

section Rows

/-- The bytes of a date are digits and hyphens, so a date is one word, without blank, newline or NUL:
    the wire keeps it. -/
theorem mem_dateFormat {d : Data} {b : Byte} (h : b ∈ dateFormat d) : isDigit b = true ∨ b = 45 := by
  have hpadded : ∀ k n, b ∈ padded k n → isDigit b = true := by
    intro k n hb
    rcases List.mem_append.mp hb with hb | hb
    · rw [List.eq_of_mem_replicate hb]; decide
    · exact isDigit_of_mem_decNat hb
  simp only [dateFormat, List.mem_append, List.mem_singleton] at h
  rcases h with (((h | h) | h) | h) | h
  · exact Or.inl (hpadded _ _ h)
  · exact Or.inr h
  · exact Or.inl (hpadded _ _ h)
  · exact Or.inr h
  · exact Or.inl (hpadded _ _ h)

theorem zero_notMem_dateFormat (d : Data) : (0 : Byte) ∉ dateFormat d := by
  intro h
  rcases mem_dateFormat h with h | h
  · exact absurd h (by decide)
  · exact absurd h (by decide)

theorem primaParola_dateFormat (d : Data) : primaParola (dateFormat d) = dateFormat d := by
  have hblank : ∀ b ∈ dateFormat d, isBlank b = false := by
    intro b hb
    rcases mem_dateFormat hb with h | rfl
    · exact (digit_cases h).2.2
    · decide
  have hdrop : (dateFormat d).dropWhile isBlank = dateFormat d := by
    rw [List.dropWhile_eq_self_iff]
    intro hlen
    rw [hblank _ (List.getElem_mem hlen)]
    exact Bool.false_ne_true
  rw [primaParola, cstr_of_notMem (zero_notMem_dateFormat d), hdrop, List.takeWhile_eq_self_iff]
  intro b hb
  rw [hblank b hb]
  rfl

/-- The buffer a date is scanned into holds it as a string. -/
theorem cstr_scansione {n : Nat} {testo : Bytes} {buf buf' : Buffer n} (h0 : (0 : Byte) ∉ testo)
    (hne : testo ≠ []) (h : scansione testo buf = some buf') : cstr buf'.bytes = testo := by
  rw [bytes_scansione hne h, cstr_append_of_notMem h0, cstr_cons_zero, List.append_nil]

/-- What the student reads off the records of an appello list: its ids and dates. The names may be
    anything, since only the text of a name depends on the memory. -/
theorem righeLista_appelloRow {rs : List (Int × Option Bytes × Data)} :
    ∀ {nome : Buffer 255} {data : Buffer 12} {ls : List RigaLista},
      righeLista nome data (rs.map appelloRow) = some ls →
      ls.map (fun l => (l.id, cstr l.data.bytes)) = rs.map fun r => (Buffer.ofInt r.1, dateFormat r.2.2) := by
  induction rs with
  | nil => rintro _ _ _ ⟨⟩; rfl
  | cons r rs ih =>
    obtain ⟨id, nomeEsame, d⟩ := r
    intro nome data ls h
    cases nomeEsame with
    | none => cases h
    | some testo =>
      obtain ⟨nome', -, h₁⟩ := Option.bind_eq_some_iff.mp h
      obtain ⟨data', hdata, h₂⟩ := Option.bind_eq_some_iff.mp h₁
      obtain ⟨ls', hls, rfl⟩ := Option.map_eq_some_iff.mp h₂
      rw [primaParola_dateFormat] at hdata
      rw [List.map_cons, List.map_cons, ih hls, strtol_dec,
        cstr_scansione (zero_notMem_dateFormat d) (dateFormat_ne_nil d) hdata]

end Rows

/-! ## The two queries -/

section Disponibile

variable (M : Mysql) (oggi : Data) (t : Tabelle)

/-- The exams a list statement shows the appelli of. -/
def mostrato : Query → Esame → Bool
  | .appelli mat, e => (le? e.annoCorsoEsame (annoDi M t mat)).holds
  | .appelliEsame mat exam, e => (le? e.annoCorsoEsame (annoDi M t mat)).holds &&
      (M.collazione.eq? e.nomeEsame exam).holds
  | _, _ => false

/-- The rows of a list statement. -/
def righeElenco (q : Query) : List (Int × Option Bytes × Data) :=
  ((appelloJoinEsame t).filter fun r => mostrato M t q r.2).map
    fun r => (r.1.idEsame, r.2.nomeEsame, r.1.dataAppello)

/-- What the booking asks and the list does not: a date to come, and no row in `supera` for the exchanged
    arguments. -/
def Disponibile (mat id : Int) : Prop := (dateFuture oggi t id).Nonempty ∧ ¬ Superato M t id mat

variable {M oggi t} {q : Query} {mat : Int} {scelta : Option (Letto 255)}

/-- A row of a list is an appello with its exam, one that the statement shows. What is shown of the exam
    depends on its year and perhaps its name, not on the date. -/
theorem mem_righeElenco {r : Int × Option Bytes × Data} : r ∈ righeElenco M t q ↔
    ∃ a ∈ t.appello, ∃ e ∈ t.esame, a.idEsame = e.idEsame ∧ mostrato M t q e = true ∧
      (a.idEsame, e.nomeEsame, a.dataAppello) = r := by
  rw [righeElenco, List.mem_map]
  constructor
  · rintro ⟨⟨a, e⟩, h, rfl⟩
    obtain ⟨hjoin, hm⟩ := List.mem_filter.mp h
    obtain ⟨hae, hid⟩ := List.mem_filter.mp hjoin
    obtain ⟨ha, he⟩ := List.mem_product.mp hae
    exact ⟨a, ha, e, he, of_decide_eq_true hid, hm, rfl⟩
  · rintro ⟨a, ha, e, he, hid, hm, rfl⟩
    exact ⟨(a, e), List.mem_filter.mpr ⟨List.mem_filter.mpr ⟨List.mem_product.mpr ⟨ha, he⟩,
      decide_eq_true hid⟩, hm⟩, rfl⟩

/-- The statement as it is executed: those rows as text, and the tables as they were. -/
theorem esegui_elenco (oggi : Data) (db : BaseDati M.collazione) (h : Interroga mat scelta q) :
    q.esegui M oggi db = some (db, (righeElenco M db.toTabelle q).map appelloRow) := by
  cases scelta with
  | none =>
    obtain rfl : q = .appelli mat := h
    rfl
  | some exam =>
    obtain ⟨e, -, rfl⟩ := h
    rfl

/-- An exam is shown only if its year is not above the student's. -/
theorem anno_mostrato {e : Esame} (h : Interroga mat scelta q) (hm : mostrato M t q e = true) :
    (le? e.annoCorsoEsame (annoDi M t mat)).holds = true := by
  cases scelta with
  | none =>
    obtain rfl : q = .appelli mat := h
    exact hm
  | some exam =>
    obtain ⟨x, -, rfl⟩ := h
    exact (Bool.and_eq_true_iff.mp hm).1

/-- Who is shown a row may book something: the list's question is one of the booking's. -/
theorem candidabile_of_mem {db : BaseDati M.collazione} {r : Int × Option Bytes × Data}
    (h : Interroga mat scelta q) (hr : r ∈ righeElenco M db.toTabelle q) :
    Candidabile M db.toTabelle mat := by
  obtain ⟨a, -, e, he, -, hm, -⟩ := mem_righeElenco.mp hr
  have hanno := anno_mostrato h hm
  obtain ⟨x, y, hx, hy, hxy⟩ := holds_le?.mp hanno
  have hne : studentiChiave M db.toTabelle (dec mat) ≠ [] := fun hnil => by
    rw [annoDi, hnil] at hy; cases hy
  obtain ⟨s, hs⟩ := List.exists_mem_of_ne_nil _ hne
  obtain ⟨hs, hkey⟩ := List.mem_filter.mp hs
  rw [annoDi_eq db hs hkey] at hanno
  exact ⟨s, hs, hkey, e, he, hanno⟩

/-- All dates of an exam that is shown are. -/
theorem date_of_mem {db : BaseDati M.collazione} {r : Int × Option Bytes × Data} {d : Data}
    (hr : r ∈ righeElenco M db.toTabelle q) (hd : d ∈ dateFuture oggi db.toTabelle r.1) :
    (r.1, r.2.1, d) ∈ righeElenco M db.toTabelle q := by
  obtain ⟨a, -, e, he, hid, hm, rfl⟩ := mem_righeElenco.mp hr
  obtain ⟨a', ha', hid', -, rfl⟩ := hd
  refine mem_righeElenco.mpr ⟨a', ha', e, he, hid'.trans hid, hm, ?_⟩
  rw [hid']

/-- The id of a listed exam fits four bytes. -/
theorem interi_of_mem (hint : Interi t) {r : Int × Option Bytes × Data} (hr : r ∈ righeElenco M t q) :
    (Buffer.ofInt r.1).toInt = r.1 := by
  obtain ⟨a, -, e, he, hid, -, rfl⟩ := mem_righeElenco.mp hr
  rw [hid]
  exact Buffer.toInt_ofInt (hint e he).1 (hint e he).2

end Disponibile

/-! ## Booking what is listed -/

section Prenotabili

variable {M : Mysql} {oggi : Data}

/-- Each exam of the list is accepted when it is booked, with a date the list has for it. Booked means:
    a complete run of the server's routine, no call failing. -/
def Prenotabili (altro : Motore (BaseDati M.collazione)) (fd : Int) (oggi : Data)
    (db : BaseDati M.collazione)
    (mat : Buffer 4) (ls : List RigaLista) : Prop :=
  ∀ l ∈ ls, ∀ testo db', Servita altro fd oggi db (l.id, mat) testo db' →
    ∃ l' ∈ ls, l'.id = l.id ∧ testo = prenotazioneInserita (cstr l'.data.bytes)

variable {altro : Motore (BaseDati M.collazione)} {fd : Int} {db : BaseDati M.collazione} {mat : Buffer 4}
  {scelta : Option (Letto 255)} {q : Query} {ls : List RigaLista} {nome : Buffer 255} {data : Buffer 12}

/-- The list of a safe statement can be booked if each of its exams is available: the year condition of
    the list is that of the booking for the same exam. -/
theorem prenotabili_of_disponibile (hint : Interi db.toTabelle) (hq : Interroga mat.toInt scelta q)
    (hls : righeLista nome data ((righeElenco M db.toTabelle q).map appelloRow) = some ls)
    (h : ∀ r ∈ righeElenco M db.toTabelle q, Disponibile M oggi db.toTabelle mat.toInt r.1) :
    Prenotabili altro fd oggi db mat ls := by
  intro l hl testo db' hserv
  have hmap := righeLista_appelloRow hls
  have hl' : (l.id, cstr l.data.bytes) ∈ ls.map fun l => (l.id, cstr l.data.bytes) :=
    List.mem_map.mpr ⟨l, hl, rfl⟩
  rw [hmap] at hl'
  obtain ⟨r, hr, hrl⟩ := List.mem_map.mp hl'
  have hid : l.id.toInt = r.1 := by
    rw [← (Prod.mk.inj hrl).1, interi_of_mem hint hr]
  obtain ⟨hdate, hsup⟩ := h r hr
  obtain ⟨d, hd⟩ := exists_primaData_iff.mpr ⟨candidabile_of_mem hq hr, hsup, hdate⟩
  have hd' := (primaData_eq_some_iff.mp hd).2.2.1
  -- the date reported is one of the exam's, and the list has them all
  have hriga := date_of_mem hr hd'
  have hmem : (Buffer.ofInt r.1, dateFormat d) ∈ ls.map fun l => (l.id, cstr l.data.bytes) := by
    rw [hmap]
    exact List.mem_map.mpr ⟨_, hriga, rfl⟩
  obtain ⟨l', hl'', heq⟩ := List.mem_map.mp hmem
  obtain ⟨hid', hdata⟩ := Prod.mk.inj heq
  refine ⟨l', hl'', hid'.trans (Prod.mk.inj hrl).1, ?_⟩
  rw [hdata]
  exact (hserv.accettata (by rw [hid]; exact hd)).1

theorem disponibile_of_prenotabili (hint : Interi db.toTabelle)
    (hls : righeLista nome data ((righeElenco M db.toTabelle q).map appelloRow) = some ls)
    (h : Prenotabili altro fd oggi db mat ls) {r : Int × Option Bytes × Data}
    (hr : r ∈ righeElenco M db.toTabelle q) : Disponibile M oggi db.toTabelle mat.toInt r.1 := by
  have hmap := righeLista_appelloRow hls
  have hmem : (Buffer.ofInt r.1, dateFormat r.2.2) ∈ ls.map fun l => (l.id, cstr l.data.bytes) := by
    rw [hmap]
    exact List.mem_map.mpr ⟨r, hr, rfl⟩
  obtain ⟨l, hl, heq⟩ := List.mem_map.mp hmem
  obtain ⟨testo, db', hserv⟩ := exists_servita altro fd oggi db (l.id, mat)
  obtain ⟨l', -, -, htesto⟩ := h l hl testo db' hserv
  have hacc := hserv.accetta_iff.mp ⟨_, htesto⟩
  obtain ⟨-, hsup, hdate⟩ := exists_primaData_iff.mp hacc
  have hid : l.id.toInt = r.1 := by
    rw [(Prod.mk.inj heq).1, interi_of_mem hint hr]
  rw [hid] at hsup hdate
  exact ⟨hdate, hsup⟩

/-- A date that is none is never the one reported: such a record, which an overlong text of a date would
    leave, can book nothing. -/
theorem not_prenotabili_of_data {l : RigaLista} (hl : cstr l.data.bytes = [120]) :
    ¬ Prenotabili altro fd oggi db mat [l] := by
  intro h
  obtain ⟨testo, db', hserv⟩ := exists_servita altro fd oggi db (l.id, mat)
  obtain ⟨l', hl', -, htesto⟩ := h l (List.mem_singleton.mpr rfl) testo db' hserv
  obtain rfl := List.mem_singleton.mp hl'
  obtain ⟨d, hd⟩ := hserv.accetta_iff.mp ⟨_, htesto⟩
  rw [(hserv.accettata hd).1, hl] at htesto
  have hlen := congrArg List.length htesto
  rw [length_prenotazioneInserita (by rw [length_dateFormat]; decide),
    length_prenotazioneInserita (by decide), length_dateFormat] at hlen
  exact absurd hlen (by decide)

/-- **What is listed can be booked exactly when the text asked for is data, and each exam listed has a
    date to come and passes the question about `supera`.**  A list that cannot be sent lists nothing. -/
theorem prenotabili_iff {M : Mysql} {oggi : Data} (fd : Int) {db : BaseDati M.collazione}
    (hint : Interi db.toTabelle) (c : ClientStud) (scelta : Option (Letto 255)) :
    (∀ altro ls, Elenca (motore M oggi altro) db c scelta ls →
      Prenotabili altro fd oggi db c.matricola ls) ↔
    ∀ q, Interroga c.matricola.toInt scelta q → q.sicura = true ∧
      ((∀ r ∈ righeElenco M db.toTabelle q, Inviabile (appelloRow r)) →
        ∀ r ∈ righeElenco M db.toTabelle q,
          Disponibile M oggi db.toTabelle c.matricola.toInt r.1) := by
  constructor
  · intro h q hq
    have hsicura : q.sicura = true := by
      by_contra hno
      -- an engine that takes the statement for another one, and answers with a row of its own
      have hmot : motore M oggi (fun db _ => some (db, [[some [], some [], some [120]]])) db q =
          some (db, [[some [], some [], some [120]]]) := by rw [motore, if_neg hno]
      have hls : righeLista (Buffer.zero 255) (Buffer.zero 12) [[some [], some [], some [120]]] =
          some [⟨Buffer.ofInt (strtol []), Buffer.zero 255, (Buffer.zero 12).overlay [120, 0]⟩] := rfl
      exact not_prenotabili_of_data (by decide) (h _ _ (elenca_iff.mpr ⟨q, hq, _, hmot, _, _, hls⟩))
    refine ⟨hsicura, fun hinv r hr => ?_⟩
    have hmot : motore M oggi (fun _ _ => none) db q =
        some (db, (righeElenco M db.toTabelle q).map appelloRow) := by
      rw [motore, if_pos hsicura]
      exact esegui_elenco oggi db hq
    have hsome : (righeLista (Buffer.zero 255) (Buffer.zero 12)
        ((righeElenco M db.toTabelle q).map appelloRow)).isSome := by
      rw [isSome_righeLista]
      intro row hrow
      obtain ⟨r, hr, rfl⟩ := List.mem_map.mp hrow
      exact hinv r hr
    obtain ⟨ls, hls⟩ := Option.isSome_iff_exists.mp hsome
    exact disponibile_of_prenotabili hint hls (h _ ls (elenca_iff.mpr ⟨q, hq, _, hmot, _, _, hls⟩)) hr
  · intro h altro ls hel
    obtain ⟨q, hq, p, hp, nome, data, hls⟩ := elenca_iff.mp hel
    obtain ⟨hsicura, hdisp⟩ := h q hq
    rw [motore, if_pos hsicura, esegui_elenco oggi db hq] at hp
    obtain rfl := Option.some.inj hp
    refine prenotabili_of_disponibile hint hq hls (hdisp fun r hr => ?_)
    exact isSome_righeLista.mp (by rw [hls]; rfl) _ (List.mem_map.mpr ⟨r, hr, rfl⟩)

/-- Giulia Verdi of the third year asks for the whole list on the first of March: every exam on it has a day to come. -/
theorem prenotabili_marzo : Interi universita.toTabelle ∧
    ∀ altro ls, Elenca (motore mysql 20240301 altro) universita ⟨6, Buffer.ofInt 20230003⟩ none ls →
      Prenotabili altro 5 20240301 universita (Buffer.ofInt 20230003) ls := by
  have hint : Interi universita.toTabelle := by unfold Interi; decide +kernel
  refine ⟨hint, (prenotabili_iff (M := mysql) 5 hint ⟨6, Buffer.ofInt 20230003⟩ none).mpr ?_⟩
  rintro q rfl
  refine ⟨rfl, fun _ r hr => ?_⟩
  have hrighe : ∀ r ∈ righeElenco mysql tabelle (.appelli (Buffer.ofInt 20230003).toInt),
      ∃ a ∈ tabelle.appello, a.idEsame = r.1 ∧ (20240301 : Data) < a.dataAppello := by decide +kernel
  have hsupera : ∀ p ∈ tabelle.supera, p.idEsame ≠ some (Buffer.ofInt 20230003).toInt := by decide +kernel
  obtain ⟨a, ha, hid, hdata⟩ := hrighe r hr
  refine ⟨⟨a.dataAppello, a, ha, hid, hdata, rfl⟩, ?_⟩
  rintro ⟨p, hp, -, hesame⟩
  exact hsupera p hp hesame

/-- In October `prog1` is listed, and all its dates are past: the list has no condition on the date, the
    booking has one. -/
theorem elencato_non_prenotabile :
    ¬ ∀ altro ls, Elenca (motore mysql 20241001 altro) universita ⟨6, Buffer.ofInt 20230003⟩ none ls →
      Prenotabili altro 5 20241001 universita (Buffer.ofInt 20230003) ls := by
  intro h
  have hmat : (Buffer.ofInt 20230003).toInt = 20230003 := by decide +kernel
  have hsome : (righeLista (Buffer.zero 255) (Buffer.zero 12)
      ((righeElenco mysql universita.toTabelle (.appelli 20230003)).map appelloRow)).isSome = true := by
    decide +kernel
  obtain ⟨ls, hls⟩ := Option.isSome_iff_exists.mp hsome
  have hel : Elenca (motore mysql 20241001 fun _ _ => none) universita
      ⟨6, Buffer.ofInt 20230003⟩ none ls :=
    elenca_iff.mpr ⟨.appelli 20230003, congrArg Query.appelli hmat.symm, _, rfl, _, _, hls⟩
  have hr : (12410, some (ascii "prog1"), 20240221) ∈
      righeElenco mysql universita.toTabelle (.appelli 20230003) := by decide +kernel
  have hint : Interi universita.toTabelle := by unfold Interi; decide +kernel
  obtain ⟨⟨d, a, ha, hid, hlt, -⟩, -⟩ := disponibile_of_prenotabili hint hls (h _ ls hel) hr
  have hpast : ∀ a ∈ universita.appello, a.idEsame = 12410 → ¬ (20241001 : Data) < a.dataAppello := by
    decide +kernel
  exact hpast a ha hid hlt

end Prenotabili

end Universita

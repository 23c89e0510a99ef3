/-
  WHAT A LIST REVEALS — the bytes of the secretary's memory that go out with the rows.

  A name is sent as all 255 bytes of its buffer and a date as all 12 of its own.  Both buffers are local
  variables without initializer, and `sscanf` writes only a text and its NUL: behind them goes out what
  was in memory before, the password of the last login for instance.

  That a list reveals nothing is a statement about TWO runs: with the same rows, two processes whose memories differ
  write the same.  `Memoria` is therefore no part of the world but an argument of the program (`conMemoria`), and the
  requests it is compared on may differ in everything else, the student, the engine, the rest of the tables.

  The property does not hold, and the condition says how much of the memory goes out: all of it that the FIRST row
  leaves alone.  The crux is that one row is enough: what it writes into the two buffers makes them equal exactly
  when they agreed behind it, and from there on both loops do the same with equal buffers.

  Contents:
  1. `Memoria`, `conMemoria` — a program in a process whose uninitialised variables hold given bytes.
  2. `Invia` — with that memory, a list request that had these rows wrote these texts to its student.
  3. `Coincidono` — the memories agree where the first row leaves them alone.
  4. **`riservato_iff`** — two requests with the same rows write the same exactly then;
     `memoria_rivelata` — the same row from two memories.
-/
import Universita.Disponibili

set_option linter.unusedVariables false

namespace Universita

open Lib Mondo Segreteria

/-! ## Memory -/

/-- What an uninitialised variable holds, by its size: the code has one of each. -/
abbrev Memoria := (n : Nat) → Buffer n

/-- The calls `mem` answers: those for uninitialised memory, by the size of the variable. All others
    stay open. -/
def Memoria.sa (mem : Memoria) : (o : Sys) → Option o.Ans
  | .indeterminato n => some (mem n)
  | _ => none

/-- The program in a process with that memory. -/
def conMemoria {α : Type} (mem : Memoria) (p : Programma α) : Programma α := p.resolve mem.sa

section Memoria

variable {α β : Type} {mem : Memoria}

theorem conMemoria_bind (p : Programma α) (f : α → Programma β) :
    conMemoria mem (p >>= f) = conMemoria mem p >>= fun a => conMemoria mem (f a) :=
  Prog.resolve_bind p f

/-- Where C defines nothing, memory does not matter. -/
theorem conMemoria_indefinito : conMemoria mem (indefinito : Programma α) = indefinito :=
  congrArg (Prog.call Sys.indefinito) (funext fun r => r.elim)

theorem conMemoria_elim {n : Nat} (b : Option (Buffer n)) :
    conMemoria mem (b.elim indefinito pure) = b.elim indefinito pure := by
  cases b with
  | none => exact conMemoria_indefinito
  | some b => rfl

theorem conMemoria_cString {n : Nat} (b : Buffer n) : conMemoria mem (cString b) = cString b := by
  unfold cString
  split
  · rfl
  · rfl

/-- The rows are sent from the two buffers that are there: behind them the loop asks memory for nothing. -/
theorem conMemoria_inviaRighe {fd : Int} {rows : List Row} : ∀ {nome : Buffer 255} {data : Buffer 12},
    conMemoria mem (inviaRighe fd nome data rows) = inviaRighe fd nome data rows := by
  induction rows with
  | nil => exact rfl
  | cons row rows ih =>
    intro nome data
    rcases row with _ | ⟨_ | i, _ | ⟨_ | n, _ | ⟨_ | d, _ | _⟩⟩⟩
    case cons.some.cons.some.cons.some.nil =>
      simp only [inviaRighe, sscanfRiga_eq, sscanfParola_eq, conMemoria_bind, conMemoria_elim]
      refine congrArg _ (funext fun nome' => congrArg _ (funext fun data' => ?_))
      refine congrArg (Prog.call _) (funext fun _ => congrArg (Prog.call _) (funext fun _ =>
        congrArg (Prog.call _) (funext fun _ => ?_)))
      exact ih
    all_goals exact conMemoria_indefinito

/-- The count, then the rows from the two buffers. -/
theorem conMemoria_inviaRisultato {fd : Int} {rows : List Row} :
    conMemoria mem (inviaRisultato fd (some rows)) = .call (.write fd (conteggio rows.length)) fun _ =>
      inviaRighe fd (mem 255) (mem 12) rows := by
  refine congrArg (Prog.call _) (funext fun _ => ?_)
  exact conMemoria_inviaRighe

end Memoria

/-! ## A list request -/

section Lista

variable {D : Type} {m : Motore D} {mem : Memoria} {c : ClientStud} {rows : List Row} {bss : List Bytes}

/-- `Invia mem m c rows bss` — with `mem` in memory, a list request of `c` had the rows `rows`, and
    `bss` was written to its student. No call of MySQL has failed. -/
def Invia (mem : Memoria) (m : Motore D) (c : ClientStud) (rows : List Row) (bss : List Bytes) : Prop :=
  ∃ w w' q db, Prog.Runs (risponde m (fun _ _ => True) .sempre) (conMemoria mem (visualizzaAppelli c)) w () w' ∧
    w'.istruzioni = w.istruzioni ++ [q] ∧ m w.db q = some (db, rows) ∧
    w'.uscita = w.uscita ++ bss.map (c.connfd, ·)

/-- It is one of the requests that the memory does not restrict. -/
theorem Invia.run (h : Invia mem m c rows bss) : ∃ w w',
    Prog.Runs (risponde m (fun _ _ => True) .sempre) (visualizzaAppelli c) w () w' ∧
      w'.uscita = w.uscita ++ bss.map (c.connfd, ·) := by
  obtain ⟨w, w', q, db, hrun, -, -, hu⟩ := h
  refine ⟨w, w', Prog.Runs.of_resolve (fun o r ho w => ?_) hrun, hu⟩
  cases o with
  | indeterminato n => exact rfl
  | _ => cases ho

variable {Q : Unit → Mondo D → Prop} {w : Mondo D}

/-- Nothing is asked of a read but that what follows is right. -/
theorem compie_read {fd : Int} {n : Nat} {k : Bytes → Programma Unit}
    (h : ∀ r rest, Compie m (fun _ _ => True) .sempre .nulla (k r) Q { w with ingresso := rest }) :
    Compie m (fun _ _ => True) .sempre .nulla (.call (.read fd n) k) Q w := by
  refine ⟨⟨fun h => absurd rfl h, (fun h => by cases h)⟩, ?_⟩
  rintro r w' ⟨rest, -, -, rfl⟩
  exact h r rest

/-- The rows of a result, from the buffers in memory: the memory comes in here and nowhere else. -/
theorem compie_inviaRisultato {fd : Int} :
    Compie m (fun _ _ => True) .sempre .nulla (conMemoria mem (inviaRisultato fd (some rows))) Q w ↔
      ∀ ls, righeLista (mem 255) (mem 12) rows = some ls → Q () (w.scritti fd (scrittureElenco ls)) := by
  rw [conMemoria_inviaRisultato, safe_write, safe_inviaRighe]
  cases h : righeLista (mem 255) (mem 12) rows with
  | none => exact iff_of_true rfl nofun
  | some ls =>
    rw [Option.elim_some, scritti_scritto, ← length_righeLista h]
    constructor
    · rintro hq _ ⟨⟩
      exact hq
    · exact fun hq => hq ls rfl

/-- The end of a list request: the rows of the result set that is there, if there is one. -/
theorem compie_coda {fd : Int}
    (hsome : ∀ rows, w.risultato = some rows → ∀ ls, righeLista (mem 255) (mem 12) rows = some ls →
      Q () (({ w with risultato := none } : Mondo D).scritti fd (scrittureElenco ls)))
    (hnone : w.risultato = none → Q () { w with risultato := none }) :
    Compie m (fun _ _ => True) .sempre .nulla (conMemoria mem (do
      let res2 ← sys .mysqlStoreResult
      inviaRisultato fd res2)) Q w := by
  refine safe_mysqlStoreResult.mpr ⟨(fun h => by cases h), ?_⟩
  show Compie _ _ _ _ (conMemoria mem (inviaRisultato fd w.risultato)) _ _
  cases hris : w.risultato with
  | some rows => exact compie_inviaRisultato.mpr (hsome rows hris)
  | none => exact hnone hris

/-- **What a list request writes** are the records of its rows, from the two buffers in memory: the
    count, and three writes a row. -/
theorem Invia.scritture (h : Invia mem m c rows bss) :
    ∃ ls, righeLista (mem 255) (mem 12) rows = some ls ∧ bss = scrittureElenco ls := by
  obtain ⟨w, w', q, db, hrun, hq, hrows, hu⟩ := h
  let Q : Unit → Mondo D → Prop := fun _ w' => w'.istruzioni = w.istruzioni ++ [q] →
    w'.uscita = w.uscita ++ bss.map (c.connfd, ·) →
      ∃ ls, righeLista (mem 255) (mem 12) rows = some ls ∧ bss = scrittureElenco ls
  -- the statement that was issued is `q`
  have hlista : ∀ (w₁ : Mondo D) q' p ls, m w.db q' = some p → w₁.istruzioni = w.istruzioni ++ [q'] →
      righeLista (mem 255) (mem 12) p.2 = some ls →
      w₁.uscita = w.uscita ++ (scrittureElenco ls).map (c.connfd, ·) → Q () w₁ := by
    intro w₁ q' p ls hp hq₁ hls hw₁ hq' hu'
    obtain rfl : q' = q := (List.cons.inj (List.append_cancel_left (hq₁.symm.trans hq'))).1
    obtain rfl := Option.some.inj (hp.symm.trans hrows)
    have hmap := List.append_cancel_left (hu'.symm.trans hw₁)
    exact ⟨ls, hls, List.map_injective_iff.mpr (Prod.mk_right_injective c.connfd) hmap⟩
  have hniente : ∀ (w₁ : Mondo D) q', m w.db q' = none → w₁.istruzioni = w.istruzioni ++ [q'] →
      Q () w₁ := by
    intro w₁ q' hn hq₁ hq' _
    obtain rfl : q' = q := (List.cons.inj (List.append_cancel_left (hq₁.symm.trans hq'))).1
    exact absurd (hn.symm.trans hrows) (Option.some_ne_none _).symm
  have hzitta : ∀ w₁ : Mondo D, w₁.istruzioni = w.istruzioni → Q () w₁ := by
    intro w₁ hq₁ hq' _
    rw [hq₁] at hq'
    exact absurd (congrArg List.length hq') (by simp)
  have hsafe : Compie m (fun _ _ => True) .sempre .nulla (conMemoria mem (visualizzaAppelli c)) Q w := by
    refine compie_read fun r rest => ?_
    show Compie _ _ _ _ (conMemoria mem (if ((mem 4).overlay r).toInt = 1 then _ else
      if ((mem 4).overlay r).toInt = 2 then _ else _)) _ _
    by_cases h1 : ((mem 4).overlay r).toInt = 1
    · rw [if_pos h1]
      refine safe_mysqlQuery.mpr ?_
      show Compie _ _ _ _ (conMemoria mem (if (m w.db (.appelli c.matricola.toInt)).isSome then _ else _)) Q
        (dopo _ _ (m w.db (.appelli c.matricola.toInt)))
      cases hm : m w.db (.appelli c.matricola.toInt) with
      | none => exact compie_coda nofun fun _ => hniente _ _ hm rfl
      | some p =>
        refine safe_mysqlStoreResult.mpr ⟨(fun h => by cases h), ?_⟩
        show Compie _ _ _ _ (conMemoria mem (inviaRisultato c.connfd (some p.2) >>= _)) _ _
        rw [conMemoria_bind, safe_poi]
        refine compie_inviaRisultato.mpr fun ls hls => ?_
        exact compie_coda nofun fun _ => hlista _ _ p ls hm rfl hls rfl
    · rw [if_neg h1]
      by_cases h2 : ((mem 4).overlay r).toInt = 2
      · rw [if_pos h2]
        refine compie_read fun r' rest' => ?_
        show Compie _ _ _ _ (conMemoria mem (cString _ >>= _)) _ _
        rw [conMemoria_bind, conMemoria_cString, safe_poi, safe_cString]
        intro exam _
        refine safe_mysqlQuery.mpr ?_
        show Compie _ _ _ _ _ Q (dopo _ _ (m w.db (.appelliEsame c.matricola.toInt exam)))
        cases hm : m w.db (.appelliEsame c.matricola.toInt exam) with
        | none => exact compie_coda nofun fun _ => hniente _ _ hm rfl
        | some p =>
          refine compie_coda (fun rows' hris ls hls => ?_) nofun
          obtain rfl := Option.some.inj hris
          exact hlista _ _ p ls hm rfl hls rfl
      · rw [if_neg h2]
        exact compie_coda (fun rows' _ ls _ => hzitta _ rfl) fun _ => hzitta _ rfl
  exact hsafe.runs hrun hq hu

/-- Whatever the memory, a request for the full list whose rows can be sent gets to its end: so the
    comparison of two memories always has two runs to compare. -/
theorem esiste_invia (mem : Memoria) {db db' : D}
    (hm : m db (.appelli c.matricola.toInt) = some (db', rows))
    (hrows : ∀ row ∈ rows, Inviabile row) : ∃ ls, righeLista (mem 255) (mem 12) rows = some ls ∧
      Invia mem m c rows (scrittureElenco ls) := by
  obtain ⟨ls, hls⟩ := Option.isSome_iff_exists.mp (isSome_righeLista.mpr hrows :)
  refine ⟨ls, hls, ?_⟩
  let w : Mondo D := ⟨db, [(Buffer.ofInt 1).bytes], [], [], [], none⟩
  -- the routine does it on every engine that has these rows; the run is then one of those it has
  have hsafe : Compie m (fun _ _ => True) .sempre .fine (conMemoria mem (visualizzaAppelli c)) (fun _ w' =>
      w'.istruzioni = [.appelli c.matricola.toInt] ∧
        w'.uscita = (scrittureElenco ls).map (c.connfd, ·)) w := by
    have hreq : ((mem 4).overlay (Buffer.ofInt 1).bytes).toInt = 1 := by
      rw [Buffer.overlay_full]; decide
    refine (safe_read rfl (by decide)).mpr ?_
    show Compie _ _ _ _ (conMemoria mem (if ((mem 4).overlay (Buffer.ofInt 1).bytes).toInt = 1 then _
      else _)) _ _
    rw [if_pos hreq]
    refine safe_mysqlQuery.mpr ?_
    show Compie _ _ _ _ (conMemoria mem (if (m db (.appelli c.matricola.toInt)).isSome then _ else _)) _
      (dopo _ _ (m db (.appelli c.matricola.toInt)))
    rw [hm]
    refine safe_mysqlStoreResult.mpr ⟨(fun h => by cases h), ?_⟩
    show Compie _ _ _ _ (conMemoria mem (inviaRisultato c.connfd (some rows) >>= _)) _ _
    rw [conMemoria_bind, safe_poi, conMemoria_inviaRisultato, safe_write, safe_inviaRighe, hls,
      Option.elim_some, scritti_scritto]
    refine safe_mysqlStoreResult.mpr ⟨(fun h => by cases h), rfl, ?_⟩
    rw [scrittureElenco, length_righeLista hls]
    rfl
  obtain ⟨_, w', hrun, hq, hu⟩ := hsafe.esiste (by decide)
  exact ⟨w, w', _, db', hrun, hq, hm, hu⟩

end Lista

/-! ## Two memories -/

/-- How many bytes of its buffer a text that is scanned takes up. -/
def occupati (testo : Bytes) : Nat := if testo = [] then 0 else testo.length + 1

/-- The memories agree where the first of the rows leaves the two buffers alone: in the one of the name
    behind the first line of the name and its NUL, in the one of the date in the last byte. -/
def Coincidono (mem mem' : Memoria) (rs : List (Int × Option Bytes × Data)) : Prop :=
  ∀ r ∈ rs.head?, ∀ nome ∈ r.2.1,
    (mem 255).bytes.drop (occupati (primaRiga nome)) = (mem' 255).bytes.drop (occupati (primaRiga nome)) ∧
    (mem 12).bytes.drop 11 = (mem' 12).bytes.drop 11

/-- A text scanned into two buffers makes them equal when they agree behind it: the text covers the
    front of both, with its NUL. -/
theorem scansione_eq_iff {n : Nat} {testo : Bytes} {b b' : Buffer n} (h : testo.length < n) :
    scansione testo b = scansione testo b' ↔
      b.bytes.drop (occupati testo) = b'.bytes.drop (occupati testo) := by
  by_cases hnil : testo = []
  · rw [scansione, scansione, occupati, if_pos hnil, if_pos hnil, if_pos hnil, Option.some.injEq, List.drop_zero,
      List.drop_zero]
    exact ⟨congrArg Buffer.bytes, Buffer.ext⟩
  · have hs : ∀ b : Buffer n, scansione testo b = some (b.overlay (testo ++ [0])) := fun b => by
      rw [scansione, if_neg hnil, if_pos h]
    rw [hs, hs, Option.some.injEq, occupati, if_neg hnil]
    constructor
    · intro heq
      have hbytes := congrArg Buffer.bytes heq
      rw [bytes_scansione hnil (hs b), bytes_scansione hnil (hs b')] at hbytes
      exact (List.cons.inj (List.append_cancel_left hbytes)).2
    · intro heq
      apply Buffer.ext
      rw [bytes_scansione hnil (hs b), bytes_scansione hnil (hs b'), heq]

/-- **What the first row leaves in the buffers decides the whole list**: from there on both copies of
    the loop do the same. -/
theorem righeLista_eq_iff {nome nome' : Buffer 255} {data data' : Buffer 12} {i n d : Bytes}
    {rows : List Row} {ls ls' : List RigaLista}
    (h : righeLista nome data ([some i, some n, some d] :: rows) = some ls)
    (h' : righeLista nome' data' ([some i, some n, some d] :: rows) = some ls') :
    ls = ls' ↔ scansione (primaRiga n) nome = scansione (primaRiga n) nome' ∧
      scansione (primaParola d) data = scansione (primaParola d) data' := by
  obtain ⟨nome₁, data₁, ls₁, hn, hd, hls, rfl⟩ := righeLista_cons h
  obtain ⟨nome₁', data₁', ls₁', hn', hd', hls', rfl⟩ := righeLista_cons h'
  rw [hn, hn', hd, hd', Option.some.injEq, Option.some.injEq]
  constructor
  · intro heq
    have hriga := (List.cons.inj heq).1
    exact ⟨congrArg RigaLista.nome hriga, congrArg RigaLista.data hriga⟩
  · rintro ⟨rfl, rfl⟩
    rw [Option.some.inj (hls.symm.trans hls')]

section Riservato

variable {D D' : Type} {m : Motore D} {m' : Motore D'} {mem mem' : Memoria} {c c' : ClientStud}
  {rs : List (Int × Option Bytes × Data)} {bss bss' : List Bytes}

/-- **Two list requests with the same rows write the same texts exactly when the memories agree** where
    the first row leaves its buffers alone: behind its name and the NUL, and in the last byte of the
    date. An empty list reveals nothing. The two requests may be from different students and to
    different databases. -/
theorem riservato_iff (hrs : ∀ r ∈ rs, ∃ nome ∈ r.2.1, nome ≠ [] ∧ nome.length < 255)
    (h : Invia mem m c (rs.map appelloRow) bss) (h' : Invia mem' m' c' (rs.map appelloRow) bss') :
    bss = bss' ↔ Coincidono mem mem' rs := by
  obtain ⟨ls, hls, rfl⟩ := h.scritture
  obtain ⟨ls', hls', rfl⟩ := h'.scritture
  have hinj : scrittureElenco ls = scrittureElenco ls' ↔ ls = ls' :=
    ⟨fun heq => flatMap_scritture_injective (List.cons.inj heq).2, fun heq => by rw [heq]⟩
  rw [hinj]
  cases rs with
  | nil =>
    obtain rfl : ls = [] := (Option.some.inj hls).symm
    obtain rfl : ls' = [] := (Option.some.inj hls').symm
    exact iff_of_true rfl fun r hr => by cases hr
  | cons r rs =>
    obtain ⟨i, nome, d⟩ := r
    obtain ⟨nome, rfl, -, hlen⟩ := hrs _ List.mem_cons_self
    -- the first row decides: it leaves the same part of each buffer alone in both runs
    have hriga : (primaRiga nome).length < 255 := by
      have hle : (primaRiga nome).length ≤ nome.length :=
        ((List.takeWhile_prefix _).trans (List.takeWhile_prefix _)).length_le
      omega
    have hdata : (dateFormat d).length < 12 := by rw [length_dateFormat]; decide
    have hoccupati : occupati (dateFormat d) = 11 := by
      rw [occupati, if_neg (dateFormat_ne_nil d), length_dateFormat]
    refine (righeLista_eq_iff hls hls').trans ?_
    rw [primaParola_dateFormat, scansione_eq_iff hriga, scansione_eq_iff hdata, hoccupati]
    constructor
    · rintro hmem _ ⟨⟩ _ ⟨⟩
      exact hmem
    · intro hmem
      exact hmem _ rfl _ rfl

end Riservato

section Example

/-- A result with one row. -/
def unAppello : List (Int × Option Bytes × Data) := [(12411, some (ascii "ASD"), ⟨20240911, by decide⟩)]

/-- An engine that answers with it. -/
def soloUnAppello : Motore Unit := fun _ _ => some ((), unAppello.map appelloRow)

theorem unAppello_inviabile : ∀ row ∈ unAppello.map appelloRow, Inviabile row := by
  intro row hrow
  obtain rfl := List.mem_singleton.mp hrow
  exact ⟨_, _, _, rfl, by decide, by decide +kernel⟩

theorem soloUnAppello_eq (q : Query) : soloUnAppello () q = some ((), unAppello.map appelloRow) := rfl

/-- A list sent from zeroed buffers, twice: the same bytes go out. -/
theorem riservato_zero : ∃ bss bss',
    Invia (fun n => Buffer.zero n) soloUnAppello ⟨5, Buffer.ofInt 20230003⟩
      (unAppello.map appelloRow) bss ∧
    Invia (fun n => Buffer.zero n) soloUnAppello ⟨6,
      Buffer.ofInt 20230004⟩ (unAppello.map appelloRow) bss' ∧
    bss = bss' := by
  obtain ⟨ls, -, h⟩ := esiste_invia (m := soloUnAppello) (c := ⟨5, Buffer.ofInt 20230003⟩)
    (fun n => Buffer.zero n) (soloUnAppello_eq _) unAppello_inviabile
  obtain ⟨ls', -, h'⟩ := esiste_invia (m := soloUnAppello) (c := ⟨6, Buffer.ofInt 20230004⟩)
    (fun n => Buffer.zero n) (soloUnAppello_eq _) unAppello_inviabile
  refine ⟨_, _, h, h', (riservato_iff (fun r hr => ?_) h h').mpr fun _ _ _ _ => ⟨rfl, rfl⟩⟩
  obtain rfl := List.mem_singleton.mp hr
  exact ⟨ascii "ASD", rfl, by decide, by decide⟩

/-- A buffer full of letters, as an earlier text may have left it. -/
def pieno (n : Nat) : Buffer n := ⟨List.replicate n 65, List.length_replicate⟩

/-- The same row, from zeroed buffers and from others: the last bytes of the name tell them apart, and
    they are memory. -/
theorem memoria_rivelata : ¬ ∀ {D D' : Type} {m : Motore D} {m' : Motore D'} {mem mem' : Memoria}
    {c c' : ClientStud} {rs : List (Int × Option Bytes × Data)} {bss bss' : List Bytes},
    (∀ r ∈ rs, ∃ nome ∈ r.2.1, nome ≠ [] ∧ nome.length < 255) →
    Invia mem m c (rs.map appelloRow) bss → Invia mem' m' c' (rs.map appelloRow) bss' → bss = bss' := by
  intro hclaim
  obtain ⟨ls, hls, h⟩ := esiste_invia (m := soloUnAppello) (c := ⟨5, Buffer.ofInt 20230003⟩)
    (fun n => Buffer.zero n) (soloUnAppello_eq _) unAppello_inviabile
  obtain ⟨ls', hls', h'⟩ := esiste_invia (m := soloUnAppello) (c := ⟨5, Buffer.ofInt 20230003⟩)
    pieno (soloUnAppello_eq _) unAppello_inviabile
  have heq := hclaim (fun r hr => ?_) h h'
  · have hlist := flatMap_scritture_injective (List.cons.inj heq).2
    obtain ⟨hnome, -⟩ := (righeLista_eq_iff hls hls').mp hlist
    rw [scansione_eq_iff (by decide)] at hnome
    exact absurd hnome (by decide +kernel)
  · obtain rfl := List.mem_singleton.mp hr
    exact ⟨ascii "ASD", rfl, by decide, by decide⟩

end Example

end Universita

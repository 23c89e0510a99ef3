/-
  THE EXAM OF A NEW APPELLO — is it the one that was named?

  The secretary sends a name; `aggiungiAppello` looks it up, and the id it inserts is that of the last row fetched.
  Without a row it is what the local variable, which has no initializer, happens to hold, and nothing in the code
  tells the two cases apart: the foreign key is all that then stands in the way, and any id that some exam has gets
  past it.

  The variable is therefore part of the input: the property and its condition are about a given content `i` of
  it, any at all, besides the two texts and the database.  For texts that are not data (`Dato`) the statement is not
  the template's any more, and what the engine does with it is a parameter; the property asks for every such
  engine.

  The crux is the way back, that nothing but the condition saves the code.  A text that is not data is refuted
  by an engine of our own (`guasto`), which adds more rows than any booking could; a name without an exam by the row
  that goes in under the left-over id, or by the date that MySQL checks before the foreign key and that makes
  the reply speak of something else.

  Contents:
  1. `Testo` — a text as the secretary sends it.
  2. `rispondeCon` — the answers, where an uninitialised variable holds a given value.
  3. `ErroreMysql` — when `mysql_error` speaks of a foreign key.
  4. `Nominato` — a row is added for an exam of that name, or none is and the reply says so.
  5. **`solo_nominato_iff`** — which names, dates and left-over values that is true for;
     `appello_di_un_altro` — a name nobody has.
-/
import Universita.Guasti
import Universita.Anno

set_option linter.unusedVariables false

namespace Universita

open Lib Mondo Server

/-! ## What is received, and what was there -/

/-- A text that a string buffer of `n` bytes holds: no NUL in it, and room for one behind it. -/
abbrev Testo (n : Nat) := { t : Bytes // (0 : Byte) ∉ t ∧ t.length < n }

/-- Uninitialised memory holds `b`: what the model's call for it answers. The routine has one such
    variable of four bytes. -/
def Resto (b : Buffer 4) : (o : Sys) → o.Ans → Prop
  | .indeterminato _, r => r.bytes = b.bytes
  | _, _ => True

section Resto

variable {D : Type} {m : Motore D} {err : Mondo D → Bytes → Prop} {f : Funziona} {i : Buffer 4}

/-- The answers of `risponde`, with `i` in uninitialised memory. -/
def rispondeCon (m : Motore D) (err : Mondo D → Bytes → Prop) (f : Funziona) (i : Buffer 4) (w : Mondo D)
    (o : Sys) (r : o.Ans) (w' : Mondo D) : Prop := risponde m err f w o r w' ∧ Resto i o r

/-- The calls that do not look at uninitialised memory. -/
abbrev Inizializzato {α : Type} (i : Buffer 4) (p : Programma α) : Prop :=
  Prog.Only (fun _ _ => True) (fun o => ∀ r, Resto i o r) p fun _ => True

theorem inizializzato_bind {α β : Type} {p : Programma α} {k : α → Programma β}
    (hp : Inizializzato i p) (hk : ∀ a, Inizializzato i (k a)) : Inizializzato i (p >>= k) := by
  rw [Inizializzato, Prog.only_bind]
  exact hp.mono fun a _ => hk a

theorem inizializzato_sys {o : Sys} (h : ∀ r, Resto i o r) : Inizializzato i (sys o) :=
  Prog.only_call.mpr ⟨h, fun _ _ => trivial⟩

theorem inizializzato_indefinito {α : Type} : Inizializzato i (indefinito : Programma α) :=
  Prog.only_call.mpr ⟨fun _ => trivial, nofun⟩

theorem inizializzato_cString {n : Nat} {b : Buffer n} : Inizializzato i (cString b) := by
  unfold cString
  split
  · exact trivial
  · exact inizializzato_bind (inizializzato_sys fun _ => trivial) fun _ => trivial

theorem inizializzato_query {conn : Conn} {q : Query} : Inizializzato i (query conn q) := by
  cases conn with
  | aperta => exact inizializzato_sys fun _ => trivial
  | chiusa => exact inizializzato_indefinito

theorem inizializzato_connection : Inizializzato i connection := by
  refine inizializzato_bind (inizializzato_sys fun _ => trivial) fun ok => ?_
  split
  · exact inizializzato_indefinito
  · refine inizializzato_bind (inizializzato_sys fun _ => trivial) fun ok => ?_
    split
    · exact trivial
    · exact inizializzato_bind (inizializzato_sys fun _ => trivial) fun _ => trivial

/-- The id of the last row, once its variable is given. -/
theorem inizializzato_ultimoId {rows : List Row} : ∀ {n : Int}, Inizializzato i (ultimoId n rows) := by
  induction rows with
  | nil => exact fun {_} => trivial
  | cons row rows ih =>
    intro n
    match row with
    | some _ :: _ => exact ih
    | none :: _ => exact inizializzato_indefinito
    | [] => exact inizializzato_indefinito

theorem inizializzato_esitoAppello {fd : Int} {ok : Bool} : Inizializzato i (esitoAppello fd ok) := by
  unfold esitoAppello
  split
  · exact inizializzato_sys fun _ => trivial
  · refine inizializzato_bind (inizializzato_sys fun _ => trivial) fun e => ?_
    split
    · exact inizializzato_sys fun _ => trivial
    · exact inizializzato_bind (inizializzato_sys fun _ => trivial) fun _ =>
        inizializzato_sys fun _ => trivial

theorem inizializzato_corpoAppello {fd : Int} {conn : Conn} {b : Buffer 255} {b' : Buffer 12} :
    Inizializzato i (corpoAppello fd conn b b' i) := by
  refine inizializzato_bind inizializzato_cString fun nome => ?_
  refine inizializzato_bind inizializzato_query fun _ => ?_
  refine inizializzato_bind (inizializzato_sys fun _ => trivial) fun res => ?_
  match res with
  | none => exact inizializzato_indefinito
  | some rows =>
    refine inizializzato_bind inizializzato_ultimoId fun id => ?_
    refine inizializzato_bind inizializzato_cString fun data => ?_
    refine inizializzato_bind inizializzato_query fun ok => ?_
    exact inizializzato_bind inizializzato_esitoAppello fun _ => inizializzato_sys fun _ => trivial

/-- **What happens behind the reads**, when no call fails: a run of the routine on two reads is a run of
    its body on the two buffers they fill, and the memory shows only through `i`. -/
theorem run_con_iff {db : D} {r r' : Bytes} (hr : r.length ≤ 255) (hr' : r'.length ≤ 12) {fd : Int}
    {w' : Mondo D} :
    Prog.Runs (rispondeCon m err .sempre i) (aggiungiAppello fd) ⟨db, [r, r'], [], [], [], none⟩ () w' ↔
      Prog.Runs (risponde m err .sempre) (corpoAppello fd .aperta ((Buffer.zero 255).overlay r)
        ((Buffer.zero 12).overlay r') i) ⟨db, [], [], [], [], none⟩ () w' := by
  have hcorpo : ∀ {w : Mondo D}, Prog.Runs (rispondeCon m err .sempre i) (corpoAppello fd .aperta
      ((Buffer.zero 255).overlay r) ((Buffer.zero 12).overlay r') i) w () w' ↔ _ :=
    Prog.runs_restrict inizializzato_corpoAppello
  rw [aggiungiAppello_eq, Prog.runs_bind, ← hcorpo]
  constructor
  · rintro ⟨conn, w₁, hconn, h⟩
    obtain ⟨_, _, ⟨rfl, rfl⟩, hconn⟩ := (Prog.runs_restrict inizializzato_connection).mp hconn
    obtain ⟨_, _, ⟨rfl, rfl⟩, rfl, rfl⟩ := hconn
    obtain ⟨r₁, _, ⟨⟨rest, hin, -, rfl⟩, -⟩, h⟩ := h
    obtain ⟨rfl, rfl⟩ := List.cons.inj hin
    obtain ⟨r₂, _, ⟨⟨rest, hin, -, rfl⟩, -⟩, h⟩ := h
    obtain ⟨rfl, rfl⟩ := List.cons.inj hin
    obtain ⟨j, _, ⟨rfl, hj⟩, h⟩ := h
    -- the uninitialised variable holds the four bytes that were given
    obtain rfl : j = i := Buffer.ext hj
    exact h
  · intro h
    refine ⟨.aperta, ⟨db, [r, r'], [], [], [], none⟩, (Prog.runs_restrict inizializzato_connection).mpr
      ⟨true, _, ⟨rfl, rfl⟩, true, _, ⟨rfl, rfl⟩, rfl, rfl⟩, ?_⟩
    exact ⟨r, _, ⟨⟨[r'], rfl, hr, rfl⟩, trivial⟩, r', _, ⟨⟨[], rfl, hr', rfl⟩, trivial⟩,
      i, _, ⟨rfl, rfl⟩, h⟩

end Resto

/-! ## The named exam -/

section Nominato

variable (M : Mysql)

/-- `e` has the name. -/
def Chiamato (nome : Bytes) (e : Esame) : Prop := (M.collazione.eq? e.nomeEsame nome).holds = true

/-- After a refused insert `mysql_error` speaks of a foreign key exactly when the date was one: MySQL
    checks the columns first, and the reply of the server depends on the words it finds in that message. -/
def ErroreMysql (w : Mondo (BaseDati M.collazione)) (e : Bytes) : Prop :=
  ∀ id data, w.istruzioni.getLast? = some (.inserisciAppello id data) →
    (strstr e (ascii "foreign key constraint fails") = true ↔ M.strToDate data ≠ none)

/-- `Nominato M fd nome db w'` — a row is added for an exam of that name only; and if no exam has it,
    none is and the reply says so. A row that is refused for another reason is no failure of the code. -/
def Nominato (fd : Int) (nome : Bytes) (db : BaseDati M.collazione) (w' : Mondo (BaseDati M.collazione)) :
    Prop :=
  (w'.db.appello = db.appello ∨ ∃ a, w'.db.appello = db.appello ++ [a] ∧
    ∃ e ∈ db.esame, Chiamato M nome e ∧ a.idEsame = e.idEsame) ∧
  ((∀ e ∈ db.esame, ¬ Chiamato M nome e) → w'.db.appello = db.appello ∧
    w'.uscita = [(fd, ascii "non esiste un esame con questo nome!")])

/-- Whatever the engine does with a text that is not data, `aggiungiAppello` gets to its end, and keeps
    to the named exam; `i` is what its variable held. -/
def SoloNominato (oggi : Data) (fd : Int) (db : BaseDati M.collazione) (nome : Testo 255)
    (data : Testo 12)
    (i : Buffer 4) : Prop :=
  ∀ altro : Motore (BaseDati M.collazione),
    (∃ w', Prog.Runs (rispondeCon (motore M oggi altro) (ErroreMysql M) .sempre i) (aggiungiAppello fd)
      ⟨db, [nome, data], [], [], [], none⟩ () w') ∧
    ∀ w', Prog.Runs (rispondeCon (motore M oggi altro) (ErroreMysql M) .sempre i) (aggiungiAppello fd)
      ⟨db, [nome, data], [], [], [], none⟩ () w' → Nominato M fd nome db w'

variable {M} {oggi : Data} {fd : Int} {db : BaseDati M.collazione} {nome : Testo 255} {data : Testo 12}
  {i : Buffer 4}

/-- There is always such a message, so a run that writes one exists and nothing is proved of runs that
    do not. -/
theorem erroreMysql_nonempty (w : Mondo (BaseDati M.collazione)) : ∃ e, ErroreMysql M w e := by
  have hvuoto : strstr [] (ascii "foreign key constraint fails") = false := by decide +kernel
  have hchiave : strstr (ascii "foreign key constraint fails") (ascii "foreign key constraint fails") = true := by
    decide +kernel
  cases hq : w.istruzioni.getLast? with
  | none => exact ⟨[], fun id data h => by rw [hq] at h; cases h⟩
  | some q =>
    by_cases hd : ∃ id data, q = .inserisciAppello id data ∧ M.strToDate data ≠ none
    · obtain ⟨id, data, rfl, hd⟩ := hd
      refine ⟨ascii "foreign key constraint fails", fun id' data' h => ?_⟩
      rw [hq] at h
      cases h
      exact iff_of_true hchiave hd
    · refine ⟨[], fun id' data' h => ?_⟩
      rw [hq] at h
      cases h
      exact iff_of_false (by rw [hvuoto]; exact Bool.false_ne_true) fun h' => hd ⟨id', data', rfl, h'⟩

/-- Enough for it: the body gets to its end from the texts received. -/
theorem solo_nominato_of_compie (h : ∀ altro, Compie (motore M oggi altro) (ErroreMysql M) .sempre .fine
      (corpoAppello fd .aperta ((Buffer.zero 255).overlay nome) ((Buffer.zero 12).overlay data) i)
      (fun _ => Nominato M fd nome db) ⟨db, [], [], [], [], none⟩) :
    SoloNominato M oggi fd db nome data i := by
  intro altro
  constructor
  · obtain ⟨u, w', hrun, -⟩ := (h altro).esiste nofun
    exact ⟨w', (run_con_iff (Nat.le_of_lt nome.2.2) (Nat.le_of_lt data.2.2)).mpr hrun⟩
  · intro w' hrun
    exact (h altro).runs ((run_con_iff (Nat.le_of_lt nome.2.2) (Nat.le_of_lt data.2.2)).mp hrun)

theorem SoloNominato.compie (h : SoloNominato M oggi fd db nome data i)
    (altro : Motore (BaseDati M.collazione)) : Compie (motore M oggi altro) (ErroreMysql M) .sempre .nulla
      (corpoAppello fd .aperta ((Buffer.zero 255).overlay nome) ((Buffer.zero 12).overlay data) i)
      (fun _ => Nominato M fd nome db) ⟨db, [], [], [], [], none⟩ :=
  compie_nulla_iff.mpr fun _ w' hrun => (h altro).2 w'
    ((run_con_iff (Nat.le_of_lt nome.2.2) (Nat.le_of_lt data.2.2)).mpr hrun)

/-- The two statements are about the texts received: neither has a NUL of its own, and the zeroed
    buffers end both. -/
theorem compie_corpoAppello {x : Esige} {altro : Motore (BaseDati M.collazione)}
    {Q : Mondo (BaseDati M.collazione) → Prop} : Compie (motore M oggi altro) (ErroreMysql M) .sempre x
      (corpoAppello fd .aperta ((Buffer.zero 255).overlay nome) ((Buffer.zero 12).overlay data) i)
      (fun _ => Q) ⟨db, [], [], [], [], none⟩ ↔
    match motore M oggi altro db (.idEsame nome) with
    | some p => (ultimo i.toInt p.2).elim (x = .nulla) fun id =>
      Compie (motore M oggi altro) (ErroreMysql M) .sempre x
        (esitoAppello fd (motore M oggi altro p.1 (.inserisciAppello id data)).isSome) (fun _ => Q)
        (Mondo.dopo ⟨p.1, [], [], [], [.idEsame nome], none⟩ (.inserisciAppello id data)
          (motore M oggi altro p.1 (.inserisciAppello id data)))
    | none => x = .nulla := by
  rw [safe_corpoAppello]
  simp only [stringa_corta nome.2.1 nome.2.2, stringa_corta data.2.1 data.2.2, forall_eq, esito_sempre]
  cases motore M oggi altro db (.idEsame nome) with
  | none => exact Iff.rfl
  | some p => exact Iff.rfl

/-! ## The ids found -/

/-- The id kept is that of the last exam, or what was there: each row overwrites the variable, and
    `strtol` reads back what the database has printed. -/
theorem ultimo_dec {ids : List Int} (hint : ∀ id ∈ ids, -2 ^ 31 ≤ id ∧ id < 2 ^ 31) : ∀ {n : Int},
    ultimo n (ids.map fun id => [some (dec id)]) = some (ids.getLast?.getD n) := by
  induction ids with
  | nil => exact fun {n} => rfl
  | cons id ids ih =>
    intro n
    rw [List.forall_mem_cons] at hint
    show ultimo (Buffer.ofInt (strtol (dec id))).toInt (ids.map fun id => [some (dec id)]) = _
    rw [strtol_dec, Buffer.toInt_ofInt hint.1.1 hint.1.2, ih hint.2, List.getLast?_cons]
    rfl

/-- The look-up finds the ids of the exams with the name. -/
theorem mem_idEsame {t : Tabelle} {nome : Bytes} {id : Int} : id ∈ idEsame M t nome ↔
    ∃ e ∈ t.esame, Chiamato M nome e ∧ e.idEsame = id := by
  simp [idEsame, Chiamato, and_assoc]

/-- What the loop over its rows leaves in the variable. -/
theorem ultimo_idEsame (hint : Interi db.toTabelle) (nome : Bytes) (n : Int) :
    ultimo n ((idEsame M db.toTabelle nome).map fun id => [some (dec id)]) =
      some ((idEsame M db.toTabelle nome).getLast?.getD n) :=
  ultimo_dec fun id hid => by
    obtain ⟨e, he, -, rfl⟩ := mem_idEsame.mp hid
    exact hint e he

/-! ## The insert -/

/-- The reply, whichever it is, leaves the database alone, and there is one: at the end stands a world
    with one more write. -/
theorem esiste_esito {ok : Bool} {altro : Motore (BaseDati M.collazione)}
    {Q : Mondo (BaseDati M.collazione) → Prop} {w : Mondo (BaseDati M.collazione)}
    (h : Compie (motore M oggi altro) (ErroreMysql M) .sempre .nulla (esitoAppello fd ok) (fun _ => Q) w) :
    ∃ t, Q (w.scritto fd t) := by
  rw [safe_esitoAppello erroreMysql_nonempty] at h
  split at h
  · exact ⟨_, h⟩
  · obtain ⟨e, he⟩ := erroreMysql_nonempty w
    have h := h e he
    split at h
    · exact ⟨_, h⟩
    · exact ⟨_, h e he⟩

/-- A database with as many appelli as one likes. -/
def spuria (M : Mysql) (oggi : Data) (n : Nat) : BaseDati M.collazione where
  toTabelle := ⟨List.replicate n ⟨oggi, 0⟩, [⟨0, none, none⟩], [], [], []⟩
  vincoli :=
    { studente_key := .nil
      esame_key := List.pairwise_singleton _ _
      appello_esame := fun a ha => by
        obtain rfl := List.eq_of_mem_replicate ha
        exact ⟨_, List.mem_singleton.mpr rfl, rfl⟩
      prenota_esame := nofun
      prenota_studente := nofun
      supera_esame := nofun
      supera_studente := nofun
      check_anno_corso := nofun
      check_anno_corso_esame := fun e he y hy => by
        obtain rfl := List.mem_singleton.mp he
        cases hy }

theorem Nominato.length_le {w' : Mondo (BaseDati M.collazione)} {n : Bytes} (h : Nominato M fd n db w') :
    w'.db.appello.length ≤ db.appello.length + 1 := by
  rcases h.1 with h | ⟨a, h, -⟩
  · rw [h]; exact Nat.le_succ _
  · rw [h, List.length_append, List.length_singleton]

/-- The engine that turns every statement that is not data into another database: nothing is known of
    such a statement, so an engine may do anything, and a property that asks for every engine must fail
    there. -/
def guasto (M : Mysql) (oggi : Data) (n : Nat) : Motore (BaseDati M.collazione) :=
  fun _ _ => some (spuria M oggi n, [])

/-- Once the engine of ours has met a text that is no data there are `n` appelli at least, more than the
    property allows. -/
theorem length_guasto (oggi : Data) {n : Nat} (id : Int) (testo : Bytes)
    {w : Mondo (BaseDati M.collazione)}
    (h : w.db = spuria M oggi n ∨ plain 39 testo = false) :
    n ≤ (w.dopo (.inserisciAppello id testo)
      (motore M oggi (guasto M oggi n) w.db (.inserisciAppello id testo))).db.appello.length := by
  have hlen : (spuria M oggi n).appello.length = n := List.length_replicate
  by_cases hs : (Query.inserisciAppello id testo).sicura = true
  · have hdb : w.db = spuria M oggi n := h.resolve_right fun hno => Bool.false_ne_true (hno.symm.trans hs)
    rw [motore, if_pos hs, Query.esegui]
    split
    · show n ≤ w.db.appello.length
      rw [hdb, hlen]
    · split
      · show n ≤ (w.db.appello ++ [_]).length
        rw [hdb, List.length_append, hlen]
        exact Nat.le_add_right _ _
      · show n ≤ w.db.appello.length
        rw [hdb, hlen]
  · rw [motore, if_neg hs]
    exact Nat.le_of_eq hlen.symm

/-- A text that is not data leaves the named exam to chance: the engine `guasto` adds two rows and more
    at once, which no run of the property may. -/
theorem SoloNominato.sicura (h : SoloNominato M oggi fd db nome data i) (hint : Interi db.toTabelle) :
    plain 39 nome.1 = true ∧ plain 39 data.1 = true := by
  have h := h.compie (guasto M oggi (db.appello.length + 2))
  rw [compie_corpoAppello] at h
  by_cases hnome : (Query.idEsame nome).sicura = true
  · refine ⟨hnome, ?_⟩
    by_contra hdata
    rw [Bool.not_eq_true] at hdata
    rw [motore, if_pos hnome] at h
    replace h : (ultimo i.toInt ((idEsame M db.toTabelle nome).map fun id => [some (dec id)])).elim _ _ := h
    rw [ultimo_idEsame hint] at h
    obtain ⟨t, ht⟩ := esiste_esito h
    have hle := ht.length_le
    -- the engine adds more rows than a run may: the text that is no data is refuted
    have hge := length_guasto oggi (n := db.appello.length + 2) (w := ⟨db, [], [], [], [.idEsame nome], none⟩)
      ((idEsame M db.toTabelle nome.1).getLast?.getD i.toInt) data (Or.inr hdata)
    exact absurd (hge.trans hle) (by omega)
  · rw [motore, if_neg hnome] at h
    obtain ⟨t, ht⟩ := esiste_esito h
    have hle := ht.length_le
    have hge := length_guasto oggi (n := db.appello.length + 2)
      (w := ⟨spuria M oggi (db.appello.length + 2), [], [], [], [.idEsame nome], none⟩) i.toInt data (Or.inl rfl)
    exact absurd (hge.trans hle) (by omega)

/-! ## Texts that are data -/

/-- The id the insert is made with: that of the last exam with the name, or what the variable held. -/
def idScelto (M : Mysql) (t : Tabelle) (nome : Bytes) (i : Buffer 4) : Int :=
  (idEsame M t nome).getLast?.getD i.toInt

/-- Some exam has the name: the id is that of one of these. -/
theorem idScelto_of_esiste {t : Tabelle} {n : Bytes} (h : ∃ e ∈ t.esame, Chiamato M n e) :
    ∃ e ∈ t.esame, Chiamato M n e ∧ idScelto M t n i = e.idEsame := by
  obtain ⟨e, he, hn⟩ := h
  have hne : idEsame M t n ≠ [] := List.ne_nil_of_mem (mem_idEsame.mpr ⟨e, he, hn, rfl⟩)
  obtain ⟨e', he', hn', hid⟩ := mem_idEsame.mp (List.getLast_mem hne)
  refine ⟨e', he', hn', ?_⟩
  rw [idScelto, List.getLast?_eq_some_getLast hne, hid]
  rfl

theorem idScelto_of_nessuno {t : Tabelle} {n : Bytes} (h : ∀ e ∈ t.esame, ¬ Chiamato M n e) :
    idScelto M t n i = i.toInt := by
  have hnil : idEsame M t n = [] := by
    rw [List.eq_nil_iff_forall_not_mem]
    intro id hid
    obtain ⟨e, he, hn, -⟩ := mem_idEsame.mp hid
    exact h e he hn
  rw [idScelto, hnil]
  rfl

/-- With two texts that are data, what the insert does decides: the search has the rows of the template,
    and the id is that of the last one, or what the variable held. -/
theorem compie_sicuro {x : Esige} {altro : Motore (BaseDati M.collazione)}
    {Q : Mondo (BaseDati M.collazione) → Prop} (hint : Interi db.toTabelle)
    (hn : plain 39 nome.1 = true) (hd : plain 39 data.1 = true) :
    Compie (motore M oggi altro) (ErroreMysql M) .sempre x
      (corpoAppello fd .aperta ((Buffer.zero 255).overlay nome) ((Buffer.zero 12).overlay data) i)
      (fun _ => Q) ⟨db, [], [], [], [], none⟩ ↔
    Compie (motore M oggi altro) (ErroreMysql M) .sempre x
      (esitoAppello fd ((Query.inserisciAppello (idScelto M db.toTabelle nome i) data).esegui M oggi db).isSome)
      (fun _ => Q) (Mondo.dopo ⟨db, [], [], [], [.idEsame nome], none⟩
        (.inserisciAppello (idScelto M db.toTabelle nome i) data)
        ((Query.inserisciAppello (idScelto M db.toTabelle nome i) data).esegui M oggi db)) := by
  rw [compie_corpoAppello]
  have hnome : motore M oggi altro db (.idEsame nome) =
      some (db, (idEsame M db.toTabelle nome).map fun id => [some (dec id)]) := if_pos hn
  have hdata : ∀ id, motore M oggi altro db (.inserisciAppello id data) =
      (Query.inserisciAppello id data).esegui M oggi db := fun id => if_pos hd
  rw [hnome]
  show (ultimo i.toInt ((idEsame M db.toTabelle nome).map fun id => [some (dec id)])).elim _ _ ↔ _
  rw [ultimo_idEsame hint, Option.elim_some, hdata]
  rfl

/-- The insert goes in, for a date and the id of an exam, or leaves the tables alone: then the text is
    no date, or no exam has that id, and the reply can say which. -/
theorem esegui_inserisciAppello_cases (oggi : Data) (db : BaseDati M.collazione) (id : Int)
    (testo : Bytes) :
    (∃ d rows, (Query.inserisciAppello id testo).esegui M oggi db = some (d, rows) ∧
      M.strToDate testo ≠ none ∧ (∃ e ∈ db.esame, e.idEsame = id) ∧
      ∃ a, d.appello = db.appello ++ [a] ∧ a.idEsame = id) ∨
    (Query.inserisciAppello id testo).esegui M oggi db = none ∧
      (M.strToDate testo = none ∨ ∀ e ∈ db.esame, e.idEsame ≠ id) := by
  rw [Query.esegui]
  cases M.strToDate testo with
  | none => exact Or.inr ⟨rfl, Or.inl rfl⟩
  | some d =>
    by_cases he : ∃ e ∈ db.esame, e.idEsame = id
    · exact Or.inl ⟨_, _, dif_pos he, Option.some_ne_none d, he, ⟨d, id⟩, rfl, rfl⟩
    · refine Or.inr ⟨dif_neg he, Or.inr fun e h h' => he ⟨e, h, h'⟩⟩

/-- For a name that no exam has, the foreign key must be what refuses the row. If the left-over id is an
    exam's, the row goes in; if the date is none, MySQL speaks of it and not of the exam, and the reply
    is its message. -/
theorem SoloNominato.nessuno (h : SoloNominato M oggi fd db nome data i) (hint : Interi db.toTabelle)
    (hno : ∀ e ∈ db.esame, ¬ Chiamato M nome e) :
    (∀ e ∈ db.esame, e.idEsame ≠ i.toInt) ∧ M.strToDate data ≠ none := by
  obtain ⟨hn, hd⟩ := h.sicura hint
  have h := (compie_sicuro hint hn hd).mp (h.compie fun _ _ => none)
  rw [idScelto_of_nessuno hno] at h
  rcases esegui_inserisciAppello_cases oggi db i.toInt data with
    ⟨d, rows, hins, -, -, a, happ, -⟩ | ⟨hins, hwhy⟩
  · -- the row of another exam is added
    rw [hins] at h
    obtain ⟨t, ht⟩ := esiste_esito h
    have hsame : d.appello = db.appello := (ht.2 hno).1
    rw [happ] at hsame
    exact absurd hsame (by simp)
  · have hdata : M.strToDate data ≠ none := by
      intro hnone
      -- the date is refused, and nothing is said about the exam
      rw [hins, safe_esitoAppello erroreMysql_nonempty, Option.isSome_none,
        if_neg Bool.false_ne_true] at h
      have herr : ErroreMysql M (Mondo.dopo ⟨db, [], [], [], [.idEsame nome], none⟩
          (.inserisciAppello i.toInt data) none) [] := by
        intro id testo hq
        cases hq
        exact iff_of_false (by decide +kernel) (not_not.mpr hnone)
      have h := h [] herr
      rw [if_neg (by decide +kernel)] at h
      have htesto : [] = ascii "non esiste un esame con questo nome!" :=
        congrArg Prod.snd (List.cons.inj ((h [] herr).2 hno).2).1
      exact absurd htesto (by decide +kernel)
    exact ⟨hwhy.resolve_left hdata, hdata⟩

/-- **`aggiungiAppello` keeps to the named exam exactly when the two texts are data, and either some
    exam has the name, or the variable held no exam's id and the date is one.** In the last case the
    foreign key refuses the row and MySQL's message says so; with a date that is none it would speak of
    the date. -/
theorem solo_nominato_iff {M : Mysql} {db : BaseDati M.collazione} (hint : Interi db.toTabelle)
    (oggi : Data)
    (fd : Int) (nome : Testo 255) (data : Testo 12) (i : Buffer 4) :
    SoloNominato M oggi fd db nome data i ↔ plain 39 nome.1 = true ∧ plain 39 data.1 = true ∧
      ((∃ e ∈ db.esame, Chiamato M nome e) ∨
        (∀ e ∈ db.esame, e.idEsame ≠ i.toInt) ∧ M.strToDate data ≠ none) := by
  constructor
  · intro h
    obtain ⟨hn, hd⟩ := h.sicura hint
    refine ⟨hn, hd, ?_⟩
    by_cases hc : ∃ e ∈ db.esame, Chiamato M nome e
    · exact Or.inl hc
    · exact Or.inr (h.nessuno hint fun e he hn => hc ⟨e, he, hn⟩)
  · rintro ⟨hn, hd, hc⟩
    refine solo_nominato_of_compie fun altro => (compie_sicuro hint hn hd).mpr ?_
    rw [safe_esitoAppello erroreMysql_nonempty]
    by_cases hex : ∃ e ∈ db.esame, Chiamato M nome e
    · obtain ⟨e, he, hen, hid⟩ := idScelto_of_esiste (i := i) hex
      rcases esegui_inserisciAppello_cases oggi db (idScelto M db.toTabelle nome i) data with
        ⟨d, rows, hins, -, -, a, happ, hid'⟩ | ⟨hins, -⟩
      · rw [hins, Option.isSome_some, if_pos rfl]
        exact ⟨Or.inr ⟨a, happ, e, he, hen, hid'.trans hid⟩, fun hno => absurd hen (hno e he)⟩
      · have hinv : ∀ t, Nominato M fd nome db (Mondo.scritto (Mondo.dopo ⟨db, [], [], [], [.idEsame nome], none⟩
            (.inserisciAppello (idScelto M db.toTabelle nome i) data) none) fd t) :=
          fun t => ⟨Or.inl rfl, fun hno => absurd hen (hno e he)⟩
        rw [hins, Option.isSome_none, if_neg Bool.false_ne_true]
        intro er _
        split
        · exact hinv _
        · exact fun er' _ => hinv er'
    -- no such exam: the insert is made with what the variable held, and is refused
    · have hno : ∀ e ∈ db.esame, ¬ Chiamato M nome e := fun e he hn => hex ⟨e, he, hn⟩
      obtain ⟨hi, hdata⟩ := hc.resolve_left hex
      rw [idScelto_of_nessuno hno]
      rcases esegui_inserisciAppello_cases oggi db i.toInt data with
        ⟨-, -, -, -, ⟨e, he, hid⟩, -⟩ | ⟨hins, -⟩
      · exact absurd hid (hi e he)
      · rw [hins, Option.isSome_none, if_neg Bool.false_ne_true]
        intro er her
        rw [if_pos ((her i.toInt data rfl).mpr hdata)]
        exact ⟨Or.inl rfl, fun _ => ⟨rfl, rfl⟩⟩

/-- A new appello of `prog1`, whatever id was left over in the variable: the row that is added is of an
    exam called so. -/
theorem solo_nominato_prog1 : Interi universita.toTabelle ∧
    SoloNominato mysqlLuglio 20240301 5 universita ⟨ascii "prog1", by decide +kernel⟩
      ⟨ascii "2024-07-01", by decide +kernel⟩ (Buffer.ofInt 12411) := by
  have hint : Interi universita.toTabelle := by unfold Interi; decide +kernel
  have hesame : ∃ e ∈ universita.esame, Chiamato mysqlLuglio (ascii "prog1") e := by
    unfold Chiamato; decide +kernel
  refine ⟨hint, (solo_nominato_iff (M := mysqlLuglio) hint 20240301 5 _ _ _).mpr ⟨?_, ?_, Or.inl hesame⟩⟩
  · decide +kernel
  · decide +kernel

/-- No exam is called `analisi`; the id of `prog1` was left over, and an appello of `prog1` is added. -/
theorem appello_di_un_altro : ¬ SoloNominato mysqlLuglio 20240301 5 universita
    ⟨ascii "analisi", by decide +kernel⟩ ⟨ascii "2024-07-01", by decide +kernel⟩ (Buffer.ofInt 12410) := by
  intro h
  have hint : Interi universita.toTabelle := by unfold Interi; decide +kernel
  have hno : ∀ e ∈ universita.esame, ¬ Chiamato mysqlLuglio (ascii "analisi") e := by
    unfold Chiamato; decide +kernel
  have hid : (Buffer.ofInt 12410).toInt = 12410 := by decide +kernel
  have hi := (SoloNominato.nessuno (M := mysqlLuglio) h hint hno).1
    ⟨12410, some 1, some (ascii "prog1")⟩ (by decide +kernel)
  exact hi hid.symm

end Nominato

end Universita

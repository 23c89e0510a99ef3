/-
  STATEMENTS AS TEXT — what MySQL is really given.

  The programs send MySQL a text that `snprintf` has made from a template, in a buffer of 255 to 5000 bytes; the model hands it a
  `Query`, which says what the template means.  That is no difference where the text says which `Query` it was
  made from: no statement is cut by its buffer, and no two statements have the same text.

  The condition is on the arguments alone and is met by what the programs' variables can hold (`Entra`): an `int` where a
  number is printed, a text that fits its variable.  That the text stays between its quotes is a second condition
  (`Dato`), needed where the engine's meaning is at stake and not here.

  The crux is to read a text back from the front (`campo`): a printed number ends at the first byte that is no
  digit, and a text in front of the rest of its template ends where lengths leave no choice.  Which of the seven
  templates it is, is decided by its first nineteen bytes, also when it is cut.

  Contents:
  1. `Query.Dato` — the arguments fit their C variables, and a text stays between its quotes.
  2. `testo_intero` — then `snprintf` cuts nothing off: the text is the whole template, `Query.pezzi`.
  3. **`testo_fedele`** — so the text of a statement tells the statement and its arguments.
  4. `Interprete` — an engine on texts that means what the templates mean; `esiste_interprete`: there is
     one, whatever it does with other texts.
-/
import Mathlib.Data.Set.Function
import Universita.Interroga

set_option linter.unusedVariables false

namespace Universita

open Lib

/-! ## Arguments -/

/-- The values of an `int`: what four bytes can hold, and `%d` can print in eleven characters. -/
def DiInt (i : Int) : Prop := -2 ^ 31 ≤ i ∧ i < 2 ^ 31

namespace Query

/-- The arguments fit the variables they come from: a text with its NUL, a number in an `int`. The
    programs can make no other statements, whatever arrives. -/
def Entra : Query → Prop
  | .login mat t | .appelliEsame mat t => DiInt mat ∧ t.length ≤ 254
  | .appelli mat => DiInt mat
  | .idEsame t => t.length ≤ 254
  | .inserisciAppello id t => DiInt id ∧ t.length ≤ 11
  | .verificaPrenotazione id mat => DiInt id ∧ DiInt mat
  | .inserimento mat id => DiInt mat ∧ DiInt id

/-- The statement is what its template says: the arguments fit, and a text in it is `plain`. -/
def Dato (q : Query) : Prop := q.sicura = true ∧ q.Entra

/-- The templates, number by number and text by text, as the format strings of the two programs have them. -/
def pezzi : Query → Bytes
  | .login mat t => ascii "SELECT * FROM studente WHERE mat_studente = " ++ dec mat ++
      ascii " AND password_studente = SHA2('" ++ t ++ ascii "',256)"
  | .appelli mat =>
      ascii "SELECT a.id_esame , e.nome_esame , " ++
      ascii "DATE_FORMAT(a.data_appello, '%Y-%m-%d') FROM appello a " ++
      ascii "join esame e ON a.id_esame = e.id_esame  WHERE anno_corso_esame <= " ++
      ascii "(SELECT anno_corso_studente FROM studente WHERE mat_studente = '" ++ dec mat ++ ascii "')"
  | .appelliEsame mat t =>
      ascii "SELECT a.id_esame AS \"identidficativo\", e.nome_esame AS \"nome esame\", " ++
      ascii "DATE_FORMAT(a.data_appello, '%Y-%m-%d') AS \"data esame\" FROM appello a\n" ++
      ascii "join esame e ON a.id_esame = e.id_esame  WHERE anno_corso_esame <= " ++
      ascii "(SELECT anno_corso_studente FROM studente WHERE mat_studente = '" ++ dec mat ++
      ascii "') AND nome_esame = '" ++ t ++ ascii "'"
  | .idEsame t => ascii "select esame.id_esame from esame where esame.nome_esame = '" ++ t ++ ascii "'"
  | .inserisciAppello id t => ascii "insert into appello (id_esame, data_appello) VALUES ('" ++ dec id ++
      ascii "',STR_TO_DATE('" ++ t ++ ascii "', '%Y-%m-%d'));"
  | .verificaPrenotazione id mat =>
      ascii "select a.id_esame, MIN(data_appello) from appello a join esame e join studente s " ++
      ascii "where a.id_esame = " ++ dec id ++ ascii " and data_appello > sysdate() " ++
      ascii "and anno_corso_studente >= e.anno_corso_esame and s.mat_studente = '" ++ dec mat ++
      ascii "' and (select count(*) from supera s where s.mat_studente = '" ++ dec id ++
      ascii "' and s.id_esame = " ++ dec mat ++ ascii ") = 0 group by a.id_esame;"
  | .inserimento mat id =>
      ascii "insert into prenota (mat_studente, id_esame, data_prenotazone) VALUES ('" ++ dec mat ++
      ascii "', " ++ dec id ++ ascii ", sysdate());"

end Query

section Testo

variable {q q' : Query}

theorem diInt_toInt (b : Buffer 4) : DiInt b.toInt := b.toInt_bounds

theorem length_dec_le {i : Int} (h : DiInt i) : (dec i).length ≤ 11 := by
  rw [← Buffer.toInt_ofInt h.1 h.2]
  exact length_dec_toInt_le _

/-- **No statement is cut**: the longest text each variable can hold, with the longest numbers, is
    shorter than the buffer the statement is made in. -/
theorem testo_intero (h : q.Entra) : q.testo = q.pezzi := by
  cases q with
  | login mat t => exact snprintf_number_text (length_dec_le h.1) h.2 (by decide +kernel)
  | appelli mat => exact snprintf_text (length_dec_le h) (by decide +kernel)
  | appelliEsame mat t => exact snprintf_number_text (length_dec_le h.1) h.2 (by decide +kernel)
  | idEsame t =>
    have ht : t.length ≤ 254 := h
    exact snprintf_text ht (by decide +kernel)
  | inserisciAppello id t => exact snprintf_number_text (length_dec_le h.1) h.2 (by decide +kernel)
  | verificaPrenotazione id mat =>
    obtain ⟨hid, hmat⟩ := h
    have hid := length_dec_le hid
    have hmat := length_dec_le hmat
    -- the longest template: its words and two numbers of eleven digits fit the 500 bytes
    have hcornice : (ascii "select a.id_esame, MIN(data_appello) from appello a join esame e join studente s ").length +
        (ascii "where a.id_esame = ").length + (ascii " and data_appello > sysdate() ").length +
        (ascii "and anno_corso_studente >= e.anno_corso_esame and s.mat_studente = '").length +
        (ascii "' and (select count(*) from supera s where s.mat_studente = '").length +
        (ascii "' and s.id_esame = ").length + (ascii ") = 0 group by a.id_esame;").length + 44 < 500 := by
      decide +kernel
    refine List.take_of_length_le ?_
    simp only [List.length_append]
    omega
  | inserimento mat id => exact snprintf_number_text (length_dec_le h.1) (length_dec_le h.2) (by decide +kernel)

/-! ## Reading a text -/

/-- A field ends where the template goes on with a byte that is not in it: two texts with such fields in
    front are equal only if the fields are. -/
theorem campo {t t' p u u' : Bytes} {b : Byte} (hp : p.head? = some b) (ht : b ∉ t) (ht' : b ∉ t')
    (h : t ++ (p ++ u) = t' ++ (p ++ u')) : t = t' ∧ u = u' := by
  obtain ⟨ps, rfl⟩ := List.head?_eq_some_iff.mp hp
  have hfine : ∀ {t u : Bytes}, b ∉ t → (t ++ (b :: ps ++ u)).takeWhile (· ≠ b) = t := by
    intro t u ht
    have hall : ∀ c ∈ t, decide (c ≠ b) = true := fun c hc => decide_eq_true fun heq => ht (heq ▸ hc)
    rw [List.takeWhile_append_of_pos hall, List.cons_append, List.takeWhile_cons_of_neg (by simp),
      List.append_nil]
  have heq : t = t' := by rw [← hfine (u := u) ht, h, hfine ht']
  subst heq
  exact ⟨rfl, List.append_cancel_left (List.append_cancel_left h)⟩

/-- A number is made of digits, with a `-` at most, so a template that goes on with a blank or a quote
    shows where it ends. -/
theorem notMem_dec {b : Byte} (i : Int) (h : b ≠ 45) (hb : isDigit b = false) : b ∉ dec i := by
  have hdigit : b ∉ decNat i.natAbs := fun hmem => by
    rw [isDigit_of_mem_decNat hmem] at hb
    cases hb
  intro hmem
  rcases dec_cases i with heq | heq
  · rw [heq] at hmem
    rcases List.mem_cons.mp hmem with hb' | hmem
    · exact h hb'
    · exact hdigit hmem
  · exact hdigit (heq ▸ hmem)

/-- The first bytes of the seven templates, by number. -/
def testa : Nat → Bytes
  | 0 => ascii "SELECT * FROM stude"
  | 1 => ascii "SELECT a.id_esame ,"
  | 2 => ascii "SELECT a.id_esame A"
  | 3 => ascii "select esame.id_esa"
  | 4 => ascii "insert into appello"
  | 5 => ascii "select a.id_esame, "
  | _ => ascii "insert into prenota"

/-- The number of a statement's template. -/
def Query.forma : Query → Nat
  | .login _ _ => 0
  | .appelli _ => 1
  | .appelliEsame _ _ => 2
  | .idEsame _ => 3
  | .inserisciAppello _ _ => 4
  | .verificaPrenotazione _ _ => 5
  | .inserimento _ _ => 6

/-- A text that begins with some of its fixed bytes. -/
theorem take_ascii {s : String} {n : Nat} {u : Bytes} (h : n ≤ (ascii s).length) :
    (ascii s ++ u).take n = (ascii s).take n := List.take_append_of_le_length h

/-- Each template begins with its own nineteen bytes. -/
theorem take_pezzi (q : Query) : q.pezzi.take 19 = testa q.forma := by
  cases q <;>
    simp only [Query.pezzi, List.append_assoc, Query.forma, testa] <;>
    exact (take_ascii (by decide +kernel)).trans (by decide +kernel)

theorem forma_of_pezzi (h : q.pezzi = q'.pezzi) : q.forma = q'.forma := by
  have hteste : ∀ i < 7, ∀ j < 7, testa i = testa j → i = j := by decide +kernel
  have hlt : ∀ q : Query, q.forma < 7 := fun q => by cases q <;> exact of_decide_eq_true rfl
  exact hteste _ (hlt q) _ (hlt q') (by rw [← take_pezzi, ← take_pezzi, h])

/-- The text of a statement tells the statement and its arguments: first the template, by its beginning,
    then field after field; the last text is what is left in front of the template's end. -/
theorem testo_injective (hq : q.Entra) (hq' : q'.Entra) (h : q.testo = q'.testo) : q = q' := by
  rw [testo_intero hq, testo_intero hq'] at h
  have hf := forma_of_pezzi h
  -- a number ends where its template goes on with a blank or a quote
  have hspazio : ∀ i, (32 : Byte) ∉ dec i := fun i => notMem_dec i (by decide) (by decide)
  have hapice : ∀ i, (39 : Byte) ∉ dec i := fun i => notMem_dec i (by decide) (by decide)
  -- two statements of one text have one template, by its first bytes; the arguments are read off from there
  cases q with
  | login mat t => cases q' with
    | login mat' t' =>
      simp only [Query.pezzi, List.append_assoc, List.append_cancel_left_eq] at h
      obtain ⟨hmat, ht⟩ := campo rfl (hspazio mat) (hspazio mat') h
      rw [dec_injective hmat, List.append_cancel_right ht]
    | _ => cases hf
  | appelli mat => cases q' with
    | appelli mat' =>
      simp only [Query.pezzi, List.append_assoc, List.append_cancel_left_eq] at h
      rw [dec_injective (List.append_cancel_right h)]
    | _ => cases hf
  | appelliEsame mat t => cases q' with
    | appelliEsame mat' t' =>
      simp only [Query.pezzi, List.append_assoc, List.append_cancel_left_eq] at h
      obtain ⟨hmat, ht⟩ := campo rfl (hapice mat) (hapice mat') h
      rw [dec_injective hmat, List.append_cancel_right ht]
    | _ => cases hf
  | idEsame t => cases q' with
    | idEsame t' =>
      simp only [Query.pezzi, List.append_assoc, List.append_cancel_left_eq] at h
      rw [List.append_cancel_right h]
    | _ => cases hf
  | inserisciAppello id t => cases q' with
    | inserisciAppello id' t' =>
      simp only [Query.pezzi, List.append_assoc, List.append_cancel_left_eq] at h
      obtain ⟨hid, ht⟩ := campo rfl (hapice id) (hapice id') h
      rw [dec_injective hid, List.append_cancel_right ht]
    | _ => cases hf
  | verificaPrenotazione id mat => cases q' with
    | verificaPrenotazione id' mat' =>
      simp only [Query.pezzi, List.append_assoc, List.append_cancel_left_eq] at h
      obtain ⟨hid, h⟩ := campo rfl (hspazio id) (hspazio id') h
      rw [List.append_cancel_left_eq] at h
      obtain ⟨hmat, -⟩ := campo rfl (hapice mat) (hapice mat') h
      rw [dec_injective hid, dec_injective hmat]
    | _ => cases hf
  | inserimento mat id => cases q' with
    | inserimento mat' id' =>
      simp only [Query.pezzi, List.append_assoc, List.append_cancel_left_eq] at h
      obtain ⟨hmat, h⟩ := campo rfl (hapice mat) (hapice mat') h
      rw [dec_injective hmat, dec_injective (List.append_cancel_right h)]
    | _ => cases hf

/-- **No statement is cut, and no two have the same text**, whatever their arguments: on the statements
    that fit the programs' variables `Query.testo` is the whole template and is injective. Quotes in a
    text do no harm to this. -/
theorem testo_fedele : Set.EqOn Query.testo Query.pezzi { q | q.Entra } ∧ Set.InjOn Query.testo { q | q.Entra } :=
  ⟨fun _ hq => testo_intero hq, fun _ hq _ hq' h => testo_injective hq hq' h⟩

end Testo

/-! ## Engines on texts -/

/-- The text is that of a SELECT: its first word, which MySQL reads in capitals and in small letters alike. -/
def Selezione (testo : Bytes) : Prop := testo.take 6 = ascii "SELECT" ∨ testo.take 6 = ascii "select"

/-- The statement is one of the SELECTs. -/
def Query.Legge : Query → Prop
  | .login _ _ | .appelli _ | .appelliEsame _ _ | .idEsame _ | .verificaPrenotazione _ _ => True
  | .inserisciAppello _ _ | .inserimento _ _ => False

/-- A cut text still begins with its template. -/
theorem take_testo (q : Query) : q.testo.take 19 = testa q.forma := by
  rw [← take_pezzi]
  cases q <;> exact (List.take_take).trans (congrArg (fun n => List.take n _) (by decide))

/-- Exactly the statements that begin with the word are SELECTs, in either spelling: the source writes
    it in capitals and in small letters. -/
theorem selezione_testo (q : Query) : Selezione q.testo ↔ q.Legge := by
  have h6 : q.testo.take 6 = (testa q.forma).take 6 := by rw [← take_testo, List.take_take]; rfl
  rw [Selezione, h6]
  cases q with
  | login mat t => exact iff_of_true (.inl (of_decide_eq_true rfl)) trivial
  | appelli mat => exact iff_of_true (.inl (of_decide_eq_true rfl)) trivial
  | appelliEsame mat t => exact iff_of_true (.inl (of_decide_eq_true rfl)) trivial
  | idEsame t => exact iff_of_true (.inr (of_decide_eq_true rfl)) trivial
  | verificaPrenotazione id mat => exact iff_of_true (.inr (of_decide_eq_true rfl)) trivial
  | inserisciAppello id t => exact iff_of_false (of_decide_eq_true rfl) not_false
  | inserimento mat id => exact iff_of_false (of_decide_eq_true rfl) not_false

/-- A SELECT leaves the tables alone. -/
theorem esegui_legge {M : Mysql} {oggi : Data} {db : BaseDati M.collazione} {q : Query}
    {p : BaseDati M.collazione × List Row} (hq : q.Legge) (h : q.esegui M oggi db = some p) : p.1 = db := by
  cases q with
  | inserisciAppello id t => exact hq.elim
  | inserimento mat id => exact hq.elim
  | _ => obtain rfl := Option.some.inj h; rfl

/-- An engine is given texts: that of a template with data in it means what the template means, and a
    SELECT changes no table. What it does with any other text is left open. -/
structure Interprete (M : Mysql) where
  /-- What it does with a text, on a day, to a database: nothing, or a new database and some rows. -/
  esegui : Data → BaseDati M.collazione → Bytes → Option (BaseDati M.collazione × List Row)
  /-- On a statement with data in it this is what the statement means. -/
  dato : ∀ {q : Query}, q.Dato → ∀ oggi db, esegui oggi db q.testo = q.esegui M oggi db
  /-- A SELECT only reads. -/
  selezione : ∀ {testo : Bytes}, Selezione testo → ∀ {oggi db p}, esegui oggi db testo = some p → p.1 = db

open Classical in
/-- The engine that does `altro` with a text no template has. -/
noncomputable def interprete (M : Mysql)
    (altro : Data → BaseDati M.collazione → Bytes → Option (BaseDati M.collazione × List Row))
    (haltro : ∀ {testo : Bytes}, Selezione testo → ∀ {oggi db p}, altro oggi db testo = some p → p.1 = db) :
    Interprete M where
  esegui oggi db testo :=
    if h : ∃ q : Query, q.Dato ∧ q.testo = testo then h.choose.esegui M oggi db else altro oggi db testo
  dato {q} hq oggi db := by
    have h : ∃ q' : Query, q'.Dato ∧ q'.testo = q.testo := ⟨q, hq, rfl⟩
    rw [dif_pos h, testo_injective h.choose_spec.1.2 hq.2 h.choose_spec.2]
  selezione {testo} hs oggi db p h := by
    split at h
    · rename_i hq
      exact esegui_legge ((selezione_testo _).mp (by rw [hq.choose_spec.2]; exact hs)) h
    · exact haltro hs h

/-- **The templates do not contradict each other**: whatever an engine does with other texts, there is
    one that does it and means what they mean. -/
theorem esiste_interprete (M : Mysql)
    (altro : Data → BaseDati M.collazione → Bytes → Option (BaseDati M.collazione × List Row))
    (haltro : ∀ {testo : Bytes}, Selezione testo → ∀ {oggi db p}, altro oggi db testo = some p → p.1 = db) :
    ∃ I : Interprete M, ∀ oggi db testo, (∀ q : Query, q.Dato → q.testo ≠ testo) →
      I.esegui oggi db testo = altro oggi db testo := by
  refine ⟨interprete M altro haltro, fun oggi db testo h => ?_⟩
  exact dif_neg fun ⟨q, hq, heq⟩ => h q hq heq

end Universita

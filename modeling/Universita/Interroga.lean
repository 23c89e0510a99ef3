/-
  WHAT THE STATEMENTS MEAN — the seven statements as functions on the tables.

  This is the meaning of each template when its arguments stay what the template takes them for: its
  string arguments one literal each (`Query.testo` and the token lemmas say when that is so).

  What the engine brings along is a parameter `Mysql`: the collation that compares strings, the hash
  `SHA2(_, 256)` and the parser of `STR_TO_DATE`.  The moment a statement runs at is `oggi`: a date is
  after `sysdate()` exactly when it is after today.

  The definitions follow the text of the templates, not what the programs want from them.  Two things in
  these texts are easily read over:
    * the matricola stands with quotes around it in some templates and without in the login, and MySQL
      compares a string column with a string as strings and with a number as numbers — `'0124'` is a
      student for the one and another for the other;
    * the eligibility query joins `esame e` and `studente s` without any ON, so the exam's year that is
      compared with the student's is the year of ANY exam, and its subquery names its own `s`.

  Contents:
  1. `login` — `mat_studente = 124` compares a string column with a NUMBER: the column is converted.
  2. `annoDi`, `appelli`, `appelliEsame` — `mat_studente = '124'` compares STRINGS.
  3. `candidati`, `verificaPrenotazione` — a join without ON is a cross join: the three tables are
     tied together only by what WHERE says.
  4. `esegui` — one statement on a database: its rows and the new database, `none` when it fails.  An
     insert checks its foreign keys, so the result is again a database.
  5. `motore` — the engine: the meaning above for statements whose text is safe, and for the others
     (a quote in an argument makes it another statement) anything.
-/
import Mathlib.Order.Fin.Basic
import Universita.Lib.Lexer
import Universita.Schema
import Universita.Query

set_option linter.unusedVariables false

namespace Universita

open Lib

/-- A row of a result: one nullable text a column. -/
abbrev Row := List (Option Bytes)

/-- What the statements need of the engine: three functions of it, of which nothing is assumed but what
    a collation is. -/
structure Mysql where
  /-- How strings are compared. -/
  collazione : Collation
  /-- `SHA2(_, 256)`, as text. -/
  sha2 : Bytes → Bytes
  /-- `STR_TO_DATE(_, '%Y-%m-%d')`, `none` where it is NULL. -/
  strToDate : Bytes → Option Data

/-! ## Dates as text -/

/-- `n` in at least `k` digits. -/
def padded (k n : Nat) : Bytes := List.replicate (k - (decNat n).length) 48 ++ decNat n

/-- `DATE_FORMAT(d, '%Y-%m-%d')`, which is also how a date column is printed: always ten characters for
    a date in range. -/
def dateFormat (d : Data) : Bytes :=
  padded 4 (d / 10000 : Nat) ++ [45] ++ padded 2 (d / 100 % 100 : Nat) ++ [45] ++
    padded 2 (d % 100 : Nat)

/-- A number with at most `k` digits fills `k` places. -/
theorem length_padded {k n : Nat} (hk : 0 < k) (hn : n < 10 ^ k) : (padded k n).length = k := by
  have hlen := length_decNat_le hk hn
  rw [padded, List.length_append, List.length_replicate]
  omega

/-- A date has ten characters, `yyyy-mm-dd`: with its NUL it fits the 12 bytes it is copied into. -/
theorem length_dateFormat (d : Data) : (dateFormat d).length = 10 := by
  have hd := d.isLt
  have h4 : (d / 10000 : Nat) < 10 ^ 4 := by omega
  have h2 : ∀ n : Nat, (padded 2 (n % 100)).length = 2 := fun n =>
    length_padded (by decide) (Nat.mod_lt n (by decide))
  simp only [dateFormat, List.length_append, length_padded (by decide) h4, h2, List.length_singleton]

theorem dateFormat_ne_nil (d : Data) : dateFormat d ≠ [] := by
  intro hnil
  have hlen := length_dateFormat d
  rw [hnil] at hlen
  cases hlen

/-! ## The SELECT statements -/

section Select

variable (M : Mysql) (t : Tabelle)

/-- The students whose key is the STRING `m`. -/
def studentiChiave (m : Bytes) : List Studente :=
  t.studente.filter fun s => M.collazione.equal s.matStudente m

/-- `WHERE mat_studente = mat AND password_studente = SHA2(password)`: the key as a NUMBER, as the
    statement has it without quotes, and the password under the collation. -/
def login (mat : Int) (password : Bytes) : List Studente :=
  t.studente.filter fun s =>
    number s.matStudente == (mat : ℚ) && M.collazione.equal s.passwordStudente (M.sha2 password)

/-- `(SELECT anno_corso_studente FROM studente WHERE mat_studente = 'mat')`: NULL for a matricola that
    is no key. -/
def annoDi (mat : Int) : Option Int :=
  scalar ((studentiChiave M t (dec mat)).map (·.annoCorsoStudente))

/-- `appello a join esame e ON a.id_esame = e.id_esame`. -/
def appelloJoinEsame : List (Appello × Esame) :=
  (t.appello ×ˢ t.esame).filter fun r => r.1.idEsame = r.2.idEsame

/-- The rows `(id_esame, nome_esame, data_appello)` listed for a student. No condition on the date: what
    is past is listed too. -/
def appelli (mat : Int) : List (Int × Option Bytes × Data) :=
  ((appelloJoinEsame t).filter fun r => (le? r.2.annoCorsoEsame (annoDi M t mat)).holds).map
    fun r => (r.1.idEsame, r.2.nomeEsame, r.1.dataAppello)

/-- ... and those of one exam. -/
def appelliEsame (mat : Int) (exam : Bytes) : List (Int × Option Bytes × Data) :=
  ((appelloJoinEsame t).filter fun r => (le? r.2.annoCorsoEsame (annoDi M t mat)).holds &&
    (M.collazione.eq? r.2.nomeEsame exam).holds).map
    fun r => (r.1.idEsame, r.2.nomeEsame, r.1.dataAppello)

/-- `select esame.id_esame from esame where esame.nome_esame = 'nomeEsame'`. -/
def idEsame (nomeEsame : Bytes) : List Int :=
  (t.esame.filter fun e => (M.collazione.eq? e.nomeEsame nomeEsame).holds).map (·.idEsame)

/-- `(select count(*) from supera s where s.mat_studente = 'mat' and s.id_esame = id)`. -/
def esamiSuperati (mat id : Int) : Nat :=
  (t.supera.filter fun p => (M.collazione.eq? p.matStudente (dec mat)).holds &&
    p.idEsame == some id).length

/-- What `appello a join esame e join studente s where ...` leaves of the cross join.  The source passes
    `id, mat, id, mat`, so the subquery gets the exam as the student and the student as the exam. -/
def candidati (oggi : Data) (id mat : Int) : List (Appello × Esame × Studente) :=
  (t.appello ×ˢ (t.esame ×ˢ t.studente)).filter fun r =>
    r.1.idEsame == id && decide (oggi < r.1.dataAppello) &&
    (le? r.2.1.annoCorsoEsame (some r.2.2.annoCorsoStudente)).holds &&
    M.collazione.equal r.2.2.matStudente (dec mat) && esamiSuperati M t id mat == 0

/-- `select a.id_esame, MIN(data_appello) ... group by a.id_esame`: at most one row, since all
    candidates are of one exam. -/
def verificaPrenotazione (oggi : Data) (id mat : Int) : List (Int × Data) :=
  groupMin ((candidati M t oggi id mat).map fun r => (r.1.idEsame, r.1.dataAppello))

end Select

/-! ## The INSERT statements -/

section Insert

variable {M : Mysql}

/-- Adding a row to `appello` whose exam exists. -/
def BaseDati.aggiungiAppello (d : BaseDati M.collazione) (a : Appello)
    (h : ∃ e ∈ d.esame, e.idEsame = a.idEsame) : BaseDati M.collazione where
  toTabelle := { d.toTabelle with appello := d.appello ++ [a] }
  vincoli := { d.vincoli with
    appello_esame := fun b hb => by
      rcases List.mem_append.mp hb with hb | hb
      · exact d.vincoli.appello_esame b hb
      · rw [List.mem_singleton.mp hb]; exact h }

/-- Adding a row to `prenota` whose student and exam exist. -/
def BaseDati.aggiungiPrenota (d : BaseDati M.collazione) (p : Prenota)
    (hs : ∃ s ∈ d.studente, M.collazione.equal s.matStudente p.matStudente = true)
    (he : ∀ i ∈ p.idEsame, ∃ e ∈ d.esame, e.idEsame = i) : BaseDati M.collazione where
  toTabelle := { d.toTabelle with prenota := d.prenota ++ [p] }
  vincoli := { d.vincoli with
    prenota_esame := fun q hq => by
      rcases List.mem_append.mp hq with hq | hq
      · exact d.vincoli.prenota_esame q hq
      · rw [List.mem_singleton.mp hq]; exact he
    prenota_studente := fun q hq => by
      rcases List.mem_append.mp hq with hq | hq
      · exact d.vincoli.prenota_studente q hq
      · rw [List.mem_singleton.mp hq]; exact hs }

end Insert

/-! ## One statement -/

/-- The columns of an appello as a row of text. -/
def appelloRow (r : Int × Option Bytes × Data) : Row := [some (dec r.1), r.2.1, some (dateFormat r.2.2)]

/-- The statement `q` on the database `d`: the new database and the rows, `none` when it fails. An
    insert fails when a foreign key is not met, or a date is none; a SELECT never does. -/
def Query.esegui (M : Mysql) (oggi : Data) (d : BaseDati M.collazione) :
    Query → Option (BaseDati M.collazione × List Row)
  | .login mat password => some (d, (Universita.login M d.toTabelle mat password).map fun s =>
      [some s.matStudente, some s.passwordStudente, some (dec s.annoCorsoStudente)])
  | .appelli mat => some (d, (Universita.appelli M d.toTabelle mat).map appelloRow)
  | .appelliEsame mat exam => some (d, (Universita.appelliEsame M d.toTabelle mat exam).map appelloRow)
  | .idEsame nomeEsame => some (d, (Universita.idEsame M d.toTabelle nomeEsame).map fun i => [some (dec i)])
  | .inserisciAppello id date => match M.strToDate date with
    | none => none                     -- `data_appello` is NOT NULL
    | some data =>
      if h : ∃ e ∈ d.esame, e.idEsame = id then some (d.aggiungiAppello ⟨data, id⟩ h, []) else none
  | .verificaPrenotazione id mat =>
      some (d, (Universita.verificaPrenotazione M d.toTabelle oggi id mat).map fun r =>
        [some (dec r.1), some (dateFormat r.2)])
  | .inserimento mat id =>
      if hs : ∃ s ∈ d.studente, M.collazione.equal s.matStudente (dec mat) = true then
        if he : ∃ e ∈ d.esame, e.idEsame = id then
          some (d.aggiungiPrenota ⟨dec mat, some id, some oggi⟩ hs
            (fun i hi => by rw [← Option.mem_some_iff.mp hi]; exact he), [])
        else none
      else none

/-- A statement's text argument stays one literal, and a statement without one has nothing to fear. -/
def Query.sicura : Query → Bool
  | .login _ t | .appelliEsame _ t | .idEsame t | .inserisciAppello _ t => plain 39 t
  | .appelli _ | .verificaPrenotazione _ _ | .inserimento _ _ => true

/-- The engine; `altro` says what it does with statements that are not what their template says, and may
    be anything. -/
def motore (M : Mysql) (oggi : Data)
    (altro : BaseDati M.collazione → Query → Option (BaseDati M.collazione × List Row))
    (d : BaseDati M.collazione) (q : Query) : Option (BaseDati M.collazione × List Row) :=
  if q.sicura then q.esegui M oggi d else altro d q

end Universita

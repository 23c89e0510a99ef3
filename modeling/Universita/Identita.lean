/-
  ONE STUDENT, TWO SPELLINGS — the number of the login and the text of the other statements.

  `mat_studente` is a string column.  The login compares it with a NUMBER, so the engine converts the column:
  the keys `124`, `0124` and ` 124x` all log in with 124.  Every other statement of both programs compares the column
  with the decimal TEXT of that number, which only the key `124` equals.  What a granted login has established is
  therefore about a row the following statements need not mean.

  The statements meet the row that logged in in three places, and the property asks for all of them: the year
  the lists are made for, the student of an eligible booking, and the foreign key of the row that is added.

  The condition is on the row that logs in: the engine finds its key equal to the text of the number typed.  The
  crux is `stessoStudente_of_equal`: the column is a primary key, so one such row settles all three places at
  once.  A row with another key already fails at the first, since the look-up of the year does not find it.

  Contents:
  1. `Consente` — the login is granted: `mysql_num_rows` is 1.
  2. `StessoStudente` — a row is the one all the statements by text mean.
  3. `studentiChiave_eq`, `stessoStudente_of_equal` — the row with the key is the only one, and is the student
     of every statement by text.
  4. **`unica_identita_iff`** — the statements mean the row that logged in exactly when its key is the
     text of the number; `identita_persa` — the shipped student 0124000001.
-/
import Universita.Dump

set_option linter.unusedVariables false

namespace Universita

open Lib

section Identita

variable (M : Mysql) (oggi : Data) (d : BaseDati M.collazione)

/-- The login query grants access: `num_rows`, an `unsigned int`, is 1. Which rows they are does not
    matter to the code. -/
def Consente (mat : Int) (password : Bytes) : Prop :=
  (login M d.toTabelle mat password).length % 2 ^ 32 = 1

/-- `StessoStudente M oggi d mat r` — `r` is the student the statements by text refer to: it is the one
    row with that key, its year is the year the lists are made for, it is the student of every eligible
    booking, and a booking in its name passes the foreign key. -/
structure StessoStudente (mat : Int) (r : Studente) : Prop where
  /-- The row with that text for its key. -/
  riga : studentiChiave M d.toTabelle (dec mat) = [r]
  /-- Its year of study selects the lists ... -/
  elenco : annoDi M d.toTabelle mat = some r.annoCorsoStudente
  /-- ... it is the student in every row of the eligibility query ... -/
  verifica : ∀ id, ∀ c ∈ candidati M d.toTabelle oggi id mat, c.2.2 = r
  /-- ... and its key is what a booking refers to. -/
  inserimento : ∀ id, (∃ e ∈ d.esame, e.idEsame = id) → ∃ p : BaseDati M.collazione × List Row,
    (Query.inserimento mat id).esegui M oggi d = some p ∧
      p.1.prenota = d.prenota ++ [⟨dec mat, some id, some oggi⟩]

/-- Every row a granted login selects is the student of the other statements. There may be several rows
    for one number, one for each spelling; then all of them would have to be it. -/
def UnicaIdentita (mat : Int) (password : Bytes) : Prop :=
  Consente M d mat password → ∀ r ∈ login M d.toTabelle mat password, StessoStudente M oggi d mat r

end Identita

variable {M : Mysql} {oggi : Data}

/-- A row with the key is the only one: the column is a primary key, and texts the collation does not
    tell apart are one key. -/
theorem studentiChiave_eq (d : BaseDati M.collazione) {m : Bytes} {r : Studente} (hr : r ∈ d.studente)
    (hm : M.collazione.equal r.matStudente m = true) : studentiChiave M d.toTabelle m = [r] := by
  have hmem : r ∈ studentiChiave M d.toTabelle m := List.mem_filter.mpr ⟨hr, hm⟩
  have hall : ∀ s ∈ studentiChiave M d.toTabelle m, s = r := by
    intro s hs
    obtain ⟨hs, hsm⟩ := List.mem_filter.mp hs
    exact d.vincoli.unico_studente hs hr hsm hm
  have hpair : (studentiChiave M d.toTabelle m).Pairwise fun a b =>
      M.collazione.equal a.matStudente b.matStudente = false := d.vincoli.studente_key.filter _
  cases hl : studentiChiave M d.toTabelle m with
  | nil => rw [hl] at hmem; exact absurd hmem List.not_mem_nil
  | cons a l =>
    rw [hl] at hall hpair
    obtain rfl := hall a List.mem_cons_self
    cases l with
    | nil => rfl
    | cons b l =>
      -- a second row with the key would have the same key as the first
      have hb : b = a := hall b (List.mem_cons_of_mem _ List.mem_cons_self)
      have hne := (List.pairwise_cons.mp hpair).1 b List.mem_cons_self
      rw [hb, M.collazione.refl] at hne
      exact absurd hne.symm Bool.false_ne_true

/-- The row with the key is the student of every statement by text: one look-up gives the year, one
    condition of the join gives the student, and the foreign key is met. -/
theorem stessoStudente_of_equal (d : BaseDati M.collazione) {mat : Int} {r : Studente}
    (hr : r ∈ d.studente) (hm : M.collazione.equal r.matStudente (dec mat) = true) :
    StessoStudente M oggi d mat r where
  riga := studentiChiave_eq d hr hm
  elenco := by rw [annoDi, studentiChiave_eq d hr hm]; rfl
  verifica id c hc := by
    simp only [candidati, List.mem_filter, Bool.and_eq_true] at hc
    obtain ⟨hmem, ⟨-, hcm⟩, -⟩ := hc
    have hcs : c.2.2 ∈ d.studente := by
      obtain ⟨a, e, s⟩ := c
      rw [List.mem_product, List.mem_product] at hmem
      exact hmem.2.2
    exact d.vincoli.unico_studente hcs hr hcm hm
  inserimento id he := by
    have hs : ∃ s ∈ d.studente, M.collazione.equal s.matStudente (dec mat) = true := ⟨r, hr, hm⟩
    exact ⟨_, by rw [Query.esegui, dif_pos hs, dif_pos he], rfl⟩

/-- **The row that logs in is the row of all the other statements exactly when its key is the decimal
    text of the number typed.** The condition is on every row the login selects; where the login is not
    granted there is nothing to say, and both sides hold. -/
theorem unica_identita_iff (M : Mysql) (oggi : Data) (d : BaseDati M.collazione) (mat : Int)
    (password : Bytes) :
    UnicaIdentita M oggi d mat password ↔
      (Consente M d mat password → ∀ r ∈ login M d.toTabelle mat password,
        M.collazione.equal r.matStudente (dec mat) = true) := by
  constructor
  · intro h hc r hr
    have hmem : r ∈ studentiChiave M d.toTabelle (dec mat) := by
      rw [(h hc r hr).riga]; exact List.mem_singleton.mpr rfl
    exact (List.mem_filter.mp hmem).2
  · intro h hc r hr
    exact stessoStudente_of_equal d (List.mem_filter.mp hr).1 (h hc r hr)

/-- The shipped data: the student `0124000001` logs in with 124000001, a text nobody has for a key. No
    list is made for him and no booking goes through. -/
theorem identita_persa : ¬ UnicaIdentita mysql 20240301 universita 124000001 (ascii "password123") := by
  intro h
  have hlogin : login mysql universita.toTabelle 124000001 (ascii "password123") =
      [⟨ascii "0124000001",
        ascii "ef92b778bafe771e89245b89ecbc08a44a4e166c06659911881f383d4473e94f", 3⟩] := by
    decide +kernel
  have hriga := (h (by rw [Consente, hlogin]; rfl) _ (by rw [hlogin]; exact List.mem_cons_self)).riga
  have hnone : studentiChiave mysql universita.toTabelle (dec 124000001) = [] := by decide +kernel
  rw [hnone] at hriga
  exact List.cons_ne_nil _ _ hriga.symm

end Universita

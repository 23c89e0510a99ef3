/-
  THE STATEMENTS — the seven SQL statements of the two programs, as values and as text.

  A `Query` is a statement with its arguments; `Query.testo` is the text `snprintf` builds from it,
  template by template as in the source (in a C format `%%` prints one `%`), cut to the size of the
  buffer it is built in.

  What an engine answers depends on the TEXT.  The value is what the program had in mind; that the two
  agree — the text is not cut, and the engine reads in it the words of the template around the given text —
  is a theorem with conditions and not part of the model.  The templates are long, so most of the proofs
  about them are about where the buffer ends.

  Contents:
  1. `snprintf`, `Query`, `Query.testo`.
  2. `snprintf_text`, `snprintf_number_text` — when a template is not cut: two general lemmas with the
     lengths as numbers, so that a template costs one line.
-/
import Universita.Lib.Decimal

set_option linter.unusedVariables false

namespace Universita

open Lib

/-- `snprintf` into a buffer of `n` bytes: the text, cut so that its NUL fits. Its return value is read
    nowhere in the source. -/
def snprintf (n : Nat) (bs : Bytes) : Bytes := bs.take (n - 1)

/-- The statements, each with what the source pastes into it: `%d` is an `Int`, `%s` is a text. -/
inductive Query where
  /-- segreteria.c, the credentials of a new connection. -/
  | login (mat : Int) (password : Bytes)
  /-- segreteria.c, all appelli up to the student's year. -/
  | appelli (mat : Int)
  /-- segreteria.c, the same for one exam. -/
  | appelliEsame (mat : Int) (exam : Bytes)
  /-- server.c, `aggiungiAppello`: the id of an exam. -/
  | idEsame (nomeEsame : Bytes)
  /-- server.c, `aggiungiAppello`: the new appello. -/
  | inserisciAppello (id : Int) (date : Bytes)
  /-- server.c, `aggiungiPrenotazione`: may this student book this exam? -/
  | verificaPrenotazione (id mat : Int)
  /-- server.c, `aggiungiPrenotazione`: the booking. -/
  | inserimento (mat id : Int)
deriving DecidableEq

/-- The text of a statement, as its template prints it into its buffer. -/
def Query.testo : Query → Bytes
  | .login mat password => snprintf 500 (
      ascii "SELECT * FROM studente WHERE mat_studente = " ++ dec mat ++
      ascii " AND password_studente = SHA2('" ++ password ++ ascii "',256)")
  | .appelli mat => snprintf 5000 (
      ascii "SELECT a.id_esame , e.nome_esame , " ++
      ascii "DATE_FORMAT(a.data_appello, '%Y-%m-%d') FROM appello a " ++
      ascii "join esame e ON a.id_esame = e.id_esame  WHERE anno_corso_esame <= " ++
      ascii "(SELECT anno_corso_studente FROM studente WHERE mat_studente = '" ++ dec mat ++ ascii "')")
  | .appelliEsame mat exam => snprintf 5000 (
      ascii "SELECT a.id_esame AS \"identidficativo\", e.nome_esame AS \"nome esame\", " ++
      ascii "DATE_FORMAT(a.data_appello, '%Y-%m-%d') AS \"data esame\" FROM appello a\n" ++
      ascii "join esame e ON a.id_esame = e.id_esame  WHERE anno_corso_esame <= " ++
      ascii "(SELECT anno_corso_studente FROM studente WHERE mat_studente = '" ++ dec mat ++
      ascii "') AND nome_esame = '" ++ exam ++ ascii "'")
  | .idEsame nomeEsame => snprintf 500 (
      ascii "select esame.id_esame from esame where esame.nome_esame = '" ++ nomeEsame ++ ascii "'")
  | .inserisciAppello id date => snprintf 500 (
      ascii "insert into appello (id_esame, data_appello) VALUES ('" ++ dec id ++
      ascii "',STR_TO_DATE('" ++ date ++ ascii "', '%Y-%m-%d'));")
  | .verificaPrenotazione id mat => snprintf 500 (
      ascii "select a.id_esame, MIN(data_appello) from appello a join esame e join studente s " ++
      ascii "where a.id_esame = " ++ dec id ++ ascii " and data_appello > sysdate() " ++
      ascii "and anno_corso_studente >= e.anno_corso_esame and s.mat_studente = '" ++ dec mat ++
      ascii "' and (select count(*) from supera s where s.mat_studente = '" ++ dec id ++
      ascii "' and s.id_esame = " ++ dec mat ++ ascii ") = 0 group by a.id_esame;")
  | .inserimento mat id => snprintf 255 (
      ascii "insert into prenota (mat_studente, id_esame, data_prenotazone) VALUES ('" ++ dec mat ++
      ascii "', " ++ dec id ++ ascii ", sysdate());")

/-! ## No statement is cut -/

/-- A template with a text in it, built in a buffer with room for the longest one. `k` bounds the text,
    and `a`, `c` are the template's own words. -/
theorem snprintf_text {n k : Nat} {a t c : Bytes} (ht : t.length ≤ k)
    (h : a.length + k + c.length < n) : snprintf n (a ++ t ++ c) = a ++ t ++ c := by
  apply List.take_of_length_le
  simp only [List.length_append]
  omega

/-- ... with a number and a text: `j` bounds the digits. -/
theorem snprintf_number_text {n j k : Nat} {a d b t c : Bytes} (hd : d.length ≤ j)
    (ht : t.length ≤ k) (h : a.length + j + b.length + k + c.length < n) :
    snprintf n (a ++ d ++ b ++ t ++ c) = a ++ d ++ b ++ t ++ c := by
  apply List.take_of_length_le
  simp only [List.length_append]
  omega

end Universita

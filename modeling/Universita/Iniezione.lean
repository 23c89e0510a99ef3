/-
  TEXT IN A STATEMENT — when does what a user typed stay data?

  Four statements carry a text between single quotes: the password of the login, the exam name of the
  search and of a new appello, the date of a new appello.  `snprintf` copies it in as it came; nobody
  escapes it, neither where it is typed nor where it arrives.

  The property is about the lexer of MySQL, not about the bytes: the statement, read as tokens, is the template's
  tokens with one string literal in the place of the text, and the value of that literal is the text.  A quote
  ends the literal early; a backslash changes the byte behind it, and at the very end it takes the closing
  quote with it.  The exception is a backslash before `%` or `_`, which MySQL keeps.

  The condition is `plain` of the text, and it is exact.  The crux is that the lexer is a state machine that
  forgets: `prima_mode` says that the template leads it into the literal whatever number stands in it, so that all
  that follows is about the text and the rest of the template, which `lex_literal_iff` of the library settles.

  Contents:
  1. `Sito` — the four places: the template before and after the text, and the room for it.
  2. `testo_eq` — a text that fits its buffer is never cut: the statement is the whole template.
  3. `scan_dec`, `prima_mode` — the template leads the lexer into the literal, whatever number is in it.
  4. **`resta_dato_iff`** — the text is read back as one literal with its own value, in front of the
     rest of the template, exactly when it is `plain`; `password_evasa` — a password that logs in.
-/
import Universita.Lib.Lexer
import Universita.Query

set_option linter.unusedVariables false

namespace Universita

open Lib

/-! ## The four places -/

/-- A place for a text, with the number that stands in the same statement. -/
inductive Sito where
  /-- The login of the secretary. -/
  | password (mat : Buffer 4)
  /-- The search of a student, by the name of the exam. -/
  | ricerca (mat : Buffer 4)
  /-- The new appello: the look-up of its exam ... -/
  | nomeAppello
  /-- ... and the date that is inserted. -/
  | dataAppello (id : Buffer 4)

namespace Sito

/-- The statement with `t` in its place; the other arguments of a place are part of it. -/
def query : Sito → Bytes → Query
  | password mat, t => .login mat.toInt t
  | ricerca mat, t => .appelliEsame mat.toInt t
  | nomeAppello, t => .idEsame t
  | dataAppello id, t => .inserisciAppello id.toInt t

/-- The longest text the C variable behind the place can hold. -/
def capienza : Sito → Nat
  | password _ | ricerca _ | nomeAppello => 254
  | dataAppello _ => 11

/-- The template up to the opening quote, and with it. -/
def prima : Sito → Bytes
  | password mat => ascii "SELECT * FROM studente WHERE mat_studente = " ++ dec mat.toInt ++
      ascii " AND password_studente = SHA2('"
  | ricerca mat =>
      ascii "SELECT a.id_esame AS \"identidficativo\", e.nome_esame AS \"nome esame\", " ++
      ascii "DATE_FORMAT(a.data_appello, '%Y-%m-%d') AS \"data esame\" FROM appello a\n" ++
      ascii "join esame e ON a.id_esame = e.id_esame  WHERE anno_corso_esame <= " ++
      ascii "(SELECT anno_corso_studente FROM studente WHERE mat_studente = '" ++ dec mat.toInt ++
      ascii "') AND nome_esame = '"
  | nomeAppello => ascii "select esame.id_esame from esame where esame.nome_esame = '"
  | dataAppello id => ascii "insert into appello (id_esame, data_appello) VALUES ('" ++ dec id.toInt ++
      ascii "',STR_TO_DATE('"

/-- The template from the closing quote on. -/
def dopo : Sito → Bytes
  | password _ => ascii "',256)"
  | ricerca _ | nomeAppello => ascii "'"
  | dataAppello _ => ascii "', '%Y-%m-%d'));"

/-- `s.RestaDato t` — the interpolated position yields exactly one literal, whose value is `t`, between
    the tokens of the two halves of the template. It asks for the tokens in front of the text as well:
    what is typed must not reach back. -/
def RestaDato (s : Sito) (t : Bytes) : Prop :=
  ∃ tq, lex (s.dopo.drop 1) = some tq ∧
    lex (s.query t).testo = some ((scan .base s.prima).2 ++ .str t :: tq)

/-! ## Nothing is cut -/

/-- The statement is the template with the text between its quotes: no place is so narrow that
    `snprintf` cuts a text its variable can hold. -/
theorem testo_eq (s : Sito) {t : Bytes} (ht : t.length ≤ s.capienza) :
    (s.query t).testo = s.prima ++ t ++ s.dopo := by
  cases s with
  | password mat =>
    have ht : t.length ≤ 254 := ht
    rw [query, Query.testo, prima, dopo,
      snprintf_number_text (length_dec_toInt_le mat) ht (by decide +kernel)]
  | ricerca mat =>
    have ht : t.length ≤ 254 := ht
    rw [query, Query.testo, prima, dopo,
      snprintf_number_text (length_dec_toInt_le mat) ht (by decide +kernel)]
  | nomeAppello =>
    have ht : t.length ≤ 254 := ht
    rw [query, Query.testo, prima, dopo, snprintf_text ht (by decide +kernel)]
  | dataAppello id =>
    have ht : t.length ≤ 11 := ht
    rw [query, Query.testo, prima, dopo,
      snprintf_number_text (length_dec_toInt_le id) ht (by decide +kernel)]

/-- It starts with the quote that closes the literal. -/
theorem dopo_eq (s : Sito) : s.dopo = 39 :: s.dopo.drop 1 := by
  cases s <;> rfl

/-! ## The template around the text -/

/-- Bytes that are neither the quote nor a backslash only lengthen a literal, and end it nowhere. -/
theorem scan_str {q : Byte} {bs : Bytes} (h : ∀ b ∈ bs, b ≠ 92 ∧ b ≠ q) : ∀ acc,
    scan (.str q acc) bs = (.str q (acc ++ bs), []) := by
  induction bs with
  | nil => intro acc; rw [scan, List.append_nil]
  | cons b bs ih =>
    intro acc
    obtain ⟨h1, h2⟩ := h b List.mem_cons_self
    rw [scan, step, if_neg h1, if_neg h2, ih fun c hc => h c (List.mem_cons_of_mem _ hc)]
    simp

theorem scan_word {bs : Bytes} (h : ∀ b ∈ bs, isDigit b = true) : ∀ acc,
    scan (.word acc) bs = (.word (acc ++ bs), []) := by
  induction bs with
  | nil => intro acc; rw [scan, List.append_nil]
  | cons b bs ih =>
    intro acc
    have hw : isWord b = true := by
      have hb := h b List.mem_cons_self
      rw [isDigit] at hb
      simp [isWord, hb]
    rw [scan, step, if_pos hw, ih fun c hc => h c (List.mem_cons_of_mem _ hc)]
    simp

/-- A number has neither quote nor backslash, so printed into a literal or outside one it leaves the
    lexer where it was. -/
theorem dec_plain (i : Int) : ∀ b ∈ dec i, b ≠ 92 ∧ b ≠ 39 := by
  have hdigit : ∀ b ∈ decNat i.natAbs, b ≠ 92 ∧ b ≠ 39 := by
    intro b hb
    have hd := isDigit_of_mem_decNat hb
    constructor <;> rintro rfl <;> exact absurd hd (by decide)
  intro b hb
  rcases dec_cases i with h | h
  · rw [h] at hb
    rcases List.mem_cons.mp hb with rfl | hb
    · decide
    · exact hdigit b hb
  · rw [h] at hb
    exact hdigit b hb

/-- Between tokens a digit starts a word. -/
theorem start_digit {b : Byte} (h : isDigit b = true) : start b = (.word [b], []) := by
  have hall : ∀ n < 58, 48 ≤ n → start (UInt8.ofNat n) = (.word [UInt8.ofNat n], []) := by decide
  simp only [isDigit, Bool.and_eq_true, decide_eq_true_eq] at h
  have hb := hall b.toNat (by omega) h.1
  rwa [UInt8.ofNat_toNat] at hb

/-- Between tokens a number is read as a word, behind a sign when it is negative. The word may go on, so
    that only the mode in which the lexer is left is known. -/
theorem scan_dec (i : Int) : ∃ acc, (scan .base (dec i)).1 = .word acc := by
  obtain ⟨b, bs, hb⟩ := List.exists_cons_of_ne_nil (decNat_ne_nil i.natAbs)
  have hdigits : ∀ c ∈ b :: bs, isDigit c = true := fun c hc =>
    isDigit_of_mem_decNat (n := i.natAbs) (by rw [hb]; exact hc)
  have hstart := start_digit (hdigits b List.mem_cons_self)
  have hrest := scan_word (fun c hc => hdigits c (List.mem_cons_of_mem _ hc)) [b]
  rcases dec_cases i with h | h
  · have hdash : b ≠ 45 := by
      rintro rfl
      exact absurd (hdigits 45 List.mem_cons_self) (by decide)
    have h45 : step .base 45 = (.dash, []) := by decide
    refine ⟨[b] ++ bs, ?_⟩
    rw [h, hb, scan, h45, scan, step, if_neg hdash, hstart, hrest]
  · refine ⟨[b] ++ bs, ?_⟩
    rw [h, hb, scan, step, hstart, hrest]

/-- **The template leads into the literal**, whatever number stands in it. The rest of the module has no
    use for the tokens in front; they are whatever they are. -/
theorem prima_mode (s : Sito) : (scan .base s.prima).1 = .str 39 [] := by
  cases s with
  | password mat =>
    -- the matricola stands outside quotes: behind it the lexer is in a word
    obtain ⟨acc, hacc⟩ := scan_dec mat.toInt
    have h1 : (scan .base (ascii "SELECT * FROM studente WHERE mat_studente = ")).1 = .base := by
      decide +kernel
    rw [prima, scan_append, scan_append, h1, hacc]
    rfl
  | ricerca mat =>
    have h1 : (scan .base (
        ascii "SELECT a.id_esame AS \"identidficativo\", e.nome_esame AS \"nome esame\", " ++
        ascii "DATE_FORMAT(a.data_appello, '%Y-%m-%d') AS \"data esame\" FROM appello a\n" ++
        ascii "join esame e ON a.id_esame = e.id_esame  WHERE anno_corso_esame <= " ++
        ascii "(SELECT anno_corso_studente FROM studente WHERE mat_studente = '")).1 =
        .str 39 [] := by
      decide +kernel
    rw [prima, scan_append, scan_append, h1, scan_str (dec_plain mat.toInt)]
    rfl
  | nomeAppello => decide +kernel
  | dataAppello id =>
    have h1 : (scan .base
        (ascii "insert into appello (id_esame, data_appello) VALUES ('")).1 = .str 39 [] := by
      decide +kernel
    rw [prima, scan_append, scan_append, h1, scan_str (dec_plain id.toInt)]
    rfl

/-- The tokens of the template behind the closing quote. -/
def tokenDopo : Sito → List Token
  | password _ => [.sym 44, .word (ascii "256"), .sym 41]
  | ricerca _ | nomeAppello => []
  | dataAppello _ => [.sym 44, .str (ascii "%Y-%m-%d"), .sym 41, .sym 41, .sym 59]

/-- They are what the lexer makes of it. -/
theorem lex_dopo (s : Sito) : lex (s.dopo.drop 1) = some s.tokenDopo := by
  cases s with
  | password mat => rw [dopo, tokenDopo]; decide +kernel
  | ricerca mat => rw [dopo, tokenDopo]; decide +kernel
  | nomeAppello => rw [dopo, tokenDopo]; decide +kernel
  | dataAppello id => rw [dopo, tokenDopo]; decide +kernel

/-- No second quote: the two would be one byte of the literal. -/
theorem dopo_head (s : Sito) : (s.dopo.drop 1).head? ≠ some 39 := by
  cases s with
  | password mat => rw [dopo]; decide +kernel
  | ricerca mat => rw [dopo]; decide +kernel
  | nomeAppello => rw [dopo]; decide +kernel
  | dataAppello id => rw [dopo]; decide +kernel

/-- A literal that runs over the closing quote may end at a later quote of the template; but behind each
    of these the tokens are others than behind the first. -/
theorem dopo_over (s : Sito) : ∀ i < (s.dopo.drop 1).length, (s.dopo.drop 1)[i]? = some 39 →
    lex ((s.dopo.drop 1).drop (i + 1)) ≠ some s.tokenDopo := by
  cases s with
  | password mat => rw [dopo, tokenDopo]; decide +kernel
  | ricerca mat => rw [dopo, tokenDopo]; decide +kernel
  | nomeAppello => rw [dopo, tokenDopo]; decide +kernel
  | dataAppello id => rw [dopo, tokenDopo]; decide +kernel

end Sito

/-- **The text a user typed stays one literal with its own value exactly when it is plain**: no quote in
    it, and behind each backslash a `%` or a `_`. It is so in each of the four places, and for every
    text that fits the variable behind it. -/
theorem resta_dato_iff (s : Sito) (t : Bytes) (ht : t.length ≤ s.capienza) :
    s.RestaDato t ↔ plain 39 t = true := by
  have hpre : scan .base s.prima = (.str 39 [], (scan .base s.prima).2) := by
    rw [← s.prima_mode]
  have key := lex_literal_iff (t := t) (by decide) hpre s.lex_dopo s.dopo_head fun p rest hp => by
    have hdrop : (s.dopo.drop 1).drop (p.length + 1) = rest := by
      rw [hp, List.drop_append, List.drop_of_length_le (by omega), Nat.add_sub_cancel_left]
      rfl
    have hget : (s.dopo.drop 1)[p.length]? = some 39 := by
      rw [hp, List.getElem?_append_right (Nat.le_refl _), Nat.sub_self]
      rfl
    have hlt : p.length < (s.dopo.drop 1).length := by
      rw [hp, List.length_append, List.length_cons]; omega
    -- no quote further on in the template ends a literal whose rest reads as the template's rest does
    rw [← hdrop]
    exact s.dopo_over p.length hlt hget
  have htesto : (s.query t).testo = s.prima ++ t ++ 39 :: s.dopo.drop 1 := by
    rw [s.testo_eq ht, ← s.dopo_eq]
  rw [Sito.RestaDato, htesto, ← key]
  constructor
  · rintro ⟨tq', htq', h⟩
    rw [s.lex_dopo] at htq'
    obtain rfl := Option.some.inj htq'
    exact h
  · exact fun h => ⟨_, s.lex_dopo, h⟩

/-- The name of a shipped exam is plain: the statement has one literal with that name. -/
theorem resta_dato_prog1 : Sito.nomeAppello.RestaDato (ascii "prog1") :=
  (resta_dato_iff .nomeAppello (ascii "prog1") (by decide)).mpr (by decide)

/-- A password that closes the literal and the call of `SHA2`, adds an alternative of its own and
    comments the rest of the statement out: the login then asks for the row of the matricola, whatever
    its password is. It is text typed at the prompt of the student's program, or sent without it. -/
theorem password_evasa : ¬ (Sito.password (Buffer.ofInt 20230001)).RestaDato
    (ascii "',256) OR mat_studente='20230001' -- ") := by
  rintro ⟨tq, htq, h⟩
  have htq' : lex ((Sito.password (Buffer.ofInt 20230001)).dopo.drop 1) =
      some [.sym 44, .word (ascii "256"), .sym 41] := by decide +kernel
  rw [htq'] at htq
  obtain rfl := Option.some.inj htq
  revert h
  decide +kernel

end Universita

/-
  SQL TOKENS — how a SQL engine splits a statement, and when a quoted text stays one literal.

  A program that pastes what it was given between two quotes hopes that the engine reads the statement
  it had in mind: its own words around ONE string literal whose value is the text.  This file says, for
  every text, when that is so.

  The lexer is a machine over bytes (`step`): words, single symbols, string literals in either kind of
  quote, comments of three kinds.  Inside a literal a doubled quote stands for one quote, and a backslash
  starts an escape; `\%` and `\_` are the two escapes that keep their backslash.  Numbers are words: no
  statement built here puts an outside text next to one.

  The same rules are read a second time as a function, `literal q`: the value of the literal whose inside
  starts here, and what follows its closing quote.  `lexFrom_str` says that the machine computes it, and
  from there on nothing looks at modes again.

  The crux is a count (`literal_length`): a literal never has more bytes in its value than on the page,
  and has as many only when nothing in it was rewritten.  So if the value is `t` and something was
  rewritten, the literal ran past its own closing quote into the rest of the statement — which is what
  the hypothesis `hover` of the main theorem, about the template alone, excludes.

  Contents:
  1. `Mode`, `step`, `lexFrom`, `lex` — the machine; `scan` runs it over a piece of the text.
  2. `literal q` — the same rules read as a function; `lexFrom_str` — the machine computes it.
  3. `plain q t` — `t` has no quote, and each backslash in it is directly followed by `%` or `_`.
  4. **`lex_literal_iff`** — text `t` put between two quotes is read back as ONE literal with value `t`,
     followed by the tokens of the rest of the statement, exactly when it is `plain`.
-/
import Universita.Lib.Buffer

set_option linter.unusedVariables false

namespace Universita.Lib

/-- A token; a string literal carries its value. -/
inductive Token where
  /-- Letters, digits and their like in a row: keywords, names and numbers alike. -/
  | word (s : Bytes)
  /-- A string literal, already unquoted. -/
  | str (v : Bytes)
  /-- Any other byte on its own. -/
  | sym (b : Byte)
deriving DecidableEq

/-- What has been read of the token or comment in progress. -/
inductive Mode where
  /-- Between tokens. -/
  | base
  /-- In a word, of which `acc` was read. -/
  | word (acc : Bytes)
  /-- In a literal that began with `q`, of which `acc` was read. -/
  | str (q : Byte) (acc : Bytes)
  /-- After a backslash inside a literal. -/
  | esc (q : Byte) (acc : Bytes)
  /-- After a quote inside a literal: doubled, or its end. -/
  | quote (q : Byte) (acc : Bytes)
  /-- After one `-` ... -/
  | dash
  /-- ... or two. -/
  | dashDash
  /-- After a `/`. -/
  | slash
  /-- In a comment up to the end of its line. -/
  | lineComment
  /-- In a comment up to `*/`. -/
  | blockComment
  /-- After a `*` inside a block comment. -/
  | star
deriving DecidableEq

/-- What separates tokens and is not one. -/
def isSpace (b : Byte) : Bool := b = 32 || (9 ≤ b.toNat && b.toNat ≤ 13)

/-- Letters, digits, `_`, `$` and every byte outside ASCII. -/
def isWord (b : Byte) : Bool :=
  (48 ≤ b.toNat && b.toNat ≤ 57) || (65 ≤ b.toNat && b.toNat ≤ 90) ||
  (97 ≤ b.toNat && b.toNat ≤ 122) || b = 95 || b = 36 || 128 ≤ b.toNat

/-- The value of a backslash followed by `b`: a control character for a few letters, itself for the
    others, and for `%` and `_` still with its backslash. -/
def escaped (b : Byte) : Bytes :=
  if b = 48 then [0] else if b = 98 then [8] else if b = 110 then [10] else if b = 114 then [13]
  else if b = 116 then [9] else if b = 90 then [26]
  else if b = 37 ∨ b = 95 then [92, b] else [b]

/-- A byte read between tokens. -/
def start (b : Byte) : Mode × List Token :=
  if isSpace b then (.base, [])
  else if b = 39 ∨ b = 34 then (.str b [], [])
  else if b = 35 then (.lineComment, [])
  else if b = 45 then (.dash, [])
  else if b = 47 then (.slash, [])
  else if isWord b then (.word [b], [])
  else (.base, [.sym b])

/-- One byte: the new mode, and the tokens it completes. -/
def step : Mode → Byte → Mode × List Token
  | .base, b => start b
  | .word acc, b =>
      if isWord b then (.word (acc ++ [b]), []) else ((start b).1, .word acc :: (start b).2)
  | .str q acc, b =>
      if b = 92 then (.esc q acc, []) else if b = q then (.quote q acc, [])
      else (.str q (acc ++ [b]), [])
  | .esc q acc, b => (.str q (acc ++ escaped b), [])
  | .quote q acc, b =>
      if b = q then (.str q (acc ++ [q]), []) else ((start b).1, .str acc :: (start b).2)
  | .dash, b =>
      if b = 45 then (.dashDash, []) else ((start b).1, .sym 45 :: (start b).2)
  | .dashDash, b =>
      if b = 10 then (.base, []) else if isSpace b then (.lineComment, [])
      else ((start b).1, .sym 45 :: .sym 45 :: (start b).2)
  | .slash, b =>
      if b = 42 then (.blockComment, []) else ((start b).1, .sym 47 :: (start b).2)
  | .lineComment, b => if b = 10 then (.base, []) else (.lineComment, [])
  | .blockComment, b => if b = 42 then (.star, []) else (.blockComment, [])
  | .star, b => if b = 47 then (.base, []) else if b = 42 then (.star, []) else (.blockComment, [])

/-- The end of the text: the tokens it completes, `none` inside an open literal or comment. -/
def finish : Mode → Option (List Token)
  | .base | .lineComment | .dashDash => some []
  | .word acc => some [.word acc]
  | .quote q acc => some [.str acc]
  | .dash => some [.sym 45]
  | .slash => some [.sym 47]
  | .str _ _ | .esc _ _ | .blockComment | .star => none

/-- The tokens of a text read from a given mode on. -/
def lexFrom : Mode → Bytes → Option (List Token)
  | m, [] => finish m
  | m, b :: bs => (lexFrom (step m b).1 bs).map ((step m b).2 ++ ·)

/-- The tokens of a statement. -/
def lex (bs : Bytes) : Option (List Token) := lexFrom .base bs

/-- The mode a piece of text leads to, and the tokens completed on the way. -/
def scan : Mode → Bytes → Mode × List Token
  | m, [] => (m, [])
  | m, b :: bs => ((scan (step m b).1 bs).1, (step m b).2 ++ (scan (step m b).1 bs).2)

/-- A text in two parts: the second is read in the mode the first leads to. -/
theorem lexFrom_append (xs ys : Bytes) : ∀ m,
    lexFrom m (xs ++ ys) = (lexFrom (scan m xs).1 ys).map ((scan m xs).2 ++ ·) := by
  induction xs with
  | nil => intro m; simp [scan]
  | cons b xs ih =>
    intro m
    rw [List.cons_append, lexFrom, ih, scan, Option.map_map]
    simp only [Function.comp_def, List.append_assoc]

theorem scan_append (xs ys : Bytes) : ∀ m,
    scan m (xs ++ ys) = ((scan (scan m xs).1 ys).1, (scan m xs).2 ++ (scan (scan m xs).1 ys).2) := by
  induction xs with
  | nil => intro m; simp [scan]
  | cons b xs ih =>
    intro m
    rw [List.cons_append, scan, ih, scan]
    simp only [List.append_assoc]

/-! ## Literals as a function -/

/-- The value of the literal whose inside starts here, and the text after its closing quote. -/
def literal (q : Byte) : Bytes → Option (Bytes × Bytes)
  | [] => none
  | b :: xs =>
      if b = 92 then
        match xs with
        | [] => none
        | c :: ys => (literal q ys).map fun p => (escaped c ++ p.1, p.2)
      else if b = q then
        match xs with
        | [] => some ([], [])
        | c :: ys =>
            if c = q then (literal q ys).map fun p => (q :: p.1, p.2) else some ([], c :: ys)
      else (literal q xs).map fun p => (b :: p.1, p.2)

/-- A backslash and the byte behind it are worth what `escaped` says. -/
theorem literal_escape (q c : Byte) (ys : Bytes) :
    literal q (92 :: c :: ys) = (literal q ys).map fun p => (escaped c ++ p.1, p.2) := by
  rw [literal, if_pos rfl]

/-- Two quotes are worth one, and the literal goes on. -/
theorem literal_doubled {q : Byte} (hq : q ≠ 92) (ys : Bytes) :
    literal q (q :: q :: ys) = (literal q ys).map fun p => (q :: p.1, p.2) := by
  rw [literal, if_neg hq, if_pos rfl, if_pos rfl]

/-- Any other byte is worth itself. -/
theorem literal_other {q b : Byte} (h92 : b ≠ 92) (hb : b ≠ q) (xs : Bytes) :
    literal q (b :: xs) = (literal q xs).map fun p => (b :: p.1, p.2) := by
  rw [literal.eq_def]
  simp only [if_neg h92, if_neg hb]

/-- A quote that is not doubled closes the literal. `post` is what the engine reads on with. -/
theorem literal_close {q : Byte} (hq : q ≠ 92) {post : Bytes} (hpost : post.head? ≠ some q) :
    literal q (q :: post) = some ([], post) := by
  cases post with
  | nil => rw [literal, if_neg hq, if_pos rfl]
  | cons c cs =>
    have hc : c ≠ q := fun h => hpost (by rw [h]; rfl)
    rw [literal, if_neg hq, if_pos rfl, if_neg hc]

/-- Past a quote that is not doubled the machine is back between tokens. -/
theorem lexFrom_quote {q : Byte} (acc : Bytes) {xs : Bytes} (h : xs.head? ≠ some q) :
    lexFrom (.quote q acc) xs = (lexFrom .base xs).map (.str acc :: ·) := by
  cases xs with
  | nil => rfl
  | cons c xs =>
    have hc : c ≠ q := fun h' => h (by rw [h']; rfl)
    have hstep : step (.quote q acc) c = ((start c).1, .str acc :: (start c).2) := if_neg hc
    rw [lexFrom, lexFrom, hstep, step, Option.map_map]
    rfl

/-- **The machine inside a literal computes `literal`**, by the cases of the function: an escape, a
    doubled quote, the quote that closes, any other byte. -/
theorem lexFrom_str (q : Byte) (xs : Bytes) : ∀ acc, lexFrom (.str q acc) xs =
    (literal q xs).bind fun p => (lexFrom .base p.2).map (.str (acc ++ p.1) :: ·) := by
  induction xs using literal.induct q with
  | case1 => intro acc; rfl
  | case2 => intro acc; rfl
  -- a backslash: the byte behind it is taken, whatever it is
  | case3 c ys ih =>
    intro acc
    have hesc : step (.str q acc) 92 = (.esc q acc, []) := by simp [step]
    rw [literal_escape, lexFrom, hesc, lexFrom, step, ih]
    cases literal q ys <;> simp [Function.comp_def]
  | case4 hq =>
    intro acc
    rw [literal_close hq (by simp), lexFrom, step, if_neg hq, if_pos rfl, lexFrom]
    simp [finish, lexFrom]
  -- a doubled quote stands for one
  | case5 ys hq ih =>
    intro acc
    have hdbl : step (.quote q acc) q = (.str q (acc ++ [q]), []) := if_pos rfl
    rw [literal_doubled hq, lexFrom, step, if_neg hq, if_pos rfl, lexFrom, hdbl, ih]
    cases literal q ys <;> simp [Function.comp_def]
  | case6 c ys hc hq =>
    intro acc
    have hhead : (c :: ys).head? ≠ some q := by simpa using hc
    rw [literal_close hq hhead, lexFrom, step, if_neg hq, if_pos rfl, lexFrom_quote acc hhead]
    simp [Function.comp_def]
  | case7 b xs h92 hb ih =>
    intro acc
    rw [literal_other h92 hb, lexFrom, step, if_neg h92, if_neg hb, ih]
    cases literal q xs <;> simp [Function.comp_def]

/-! ## Texts that stay what they are -/

/-- No quote, and each backslash directly followed by `%` or `_`: the texts a literal does not rewrite. -/
def plain (q : Byte) : Bytes → Bool
  | [] => true
  | b :: xs =>
      if b = 92 then
        match xs with
        | [] => false
        | c :: ys => (c = 37 || c = 95) && plain q ys
      else b ≠ q && plain q xs

/-- But for a backslash, which looks one byte ahead, `plain` is byte by byte. -/
theorem plain_cons {q b : Byte} (h92 : b ≠ 92) (xs : Bytes) :
    plain q (b :: xs) = (b ≠ q && plain q xs) := by
  rw [plain.eq_def]
  simp only [if_neg h92]

/-- Only `\%` and `\_` are worth two bytes. -/
theorem length_escaped (c : Byte) : (escaped c).length = if c = 37 ∨ c = 95 then 2 else 1 := by
  by_cases hc : c = 37 ∨ c = 95
  · rw [if_pos hc]
    rcases hc with rfl | rfl <;> rfl
  · rw [if_neg hc, escaped, if_neg hc]
    repeat' (first | split | rfl)

/-- ... and those two bytes are the ones on the page. -/
theorem escaped_keep {c : Byte} (hc : c = 37 ∨ c = 95) : escaped c = [92, c] := by
  rcases hc with rfl | rfl <;> rfl

/-- A value byte costs at least one byte of text, and exactly one only where text and value agree. `raw`
    is the inside of the literal as it stands on the page, up to the quote that closes it. -/
theorem literal_length (q : Byte) (xs : Bytes) :
    ∀ v rest, literal q xs = some (v, rest) → ∃ raw, xs = raw ++ q :: rest ∧
      v.length ≤ raw.length ∧ (v.length = raw.length → raw = v ∧ plain q v = true) := by
  induction xs using literal.induct q with
  | case1 => intro v rest h; cases h
  | case2 => intro v rest h; cases h
  | case3 c ys ih =>
    intro v rest h
    -- an escape: two bytes of text for one of value, but for the two that are kept
    rw [literal_escape, Option.map_eq_some_iff] at h
    obtain ⟨⟨v', rest'⟩, hl, heq⟩ := h
    obtain ⟨rfl, rfl⟩ : escaped c ++ v' = v ∧ rest' = rest := by simpa using heq
    obtain ⟨raw, rfl, hle, heqv⟩ := ih v' rest' hl
    have hlen := length_escaped c
    refine ⟨92 :: c :: raw, rfl, ?_, fun h => ?_⟩
    · rw [List.length_append, List.length_cons, List.length_cons]
      split at hlen <;> omega
    · rw [List.length_append, List.length_cons, List.length_cons] at h
      by_cases hc : c = 37 ∨ c = 95
      · rw [if_pos hc] at hlen
        obtain ⟨rfl, hpl⟩ := heqv (by omega)
        rw [escaped_keep hc]
        refine ⟨rfl, ?_⟩
        show ((c = 37 || c = 95) && plain q raw) = true
        simpa [hpl] using hc
      · rw [if_neg hc] at hlen
        omega
  | case4 hq =>
    intro v rest h
    rw [literal_close hq (by simp)] at h
    obtain ⟨rfl, rfl⟩ : [] = v ∧ [] = rest := by simpa using h
    exact ⟨[], rfl, Nat.le_refl _, fun _ => ⟨rfl, rfl⟩⟩
  | case5 ys hq ih =>
    intro v rest h
    -- a doubled quote is longer than what it stands for
    rw [literal_doubled hq, Option.map_eq_some_iff] at h
    obtain ⟨⟨v', rest'⟩, hl, heq⟩ := h
    obtain ⟨rfl, rfl⟩ : q :: v' = v ∧ rest' = rest := by simpa using heq
    obtain ⟨raw, rfl, hle, -⟩ := ih v' rest' hl
    refine ⟨q :: q :: raw, rfl, ?_, fun h => ?_⟩
    · rw [List.length_cons, List.length_cons, List.length_cons]; omega
    · rw [List.length_cons, List.length_cons, List.length_cons] at h; omega
  | case6 c ys hc hq =>
    intro v rest h
    rw [literal_close hq (by simpa using hc)] at h
    obtain ⟨rfl, rfl⟩ : [] = v ∧ c :: ys = rest := by simpa using h
    exact ⟨[], rfl, Nat.le_refl _, fun _ => ⟨rfl, rfl⟩⟩
  | case7 b xs h92 hb ih =>
    intro v rest h
    rw [literal_other h92 hb, Option.map_eq_some_iff] at h
    obtain ⟨⟨v', rest'⟩, hl, heq⟩ := h
    obtain ⟨rfl, rfl⟩ : b :: v' = v ∧ rest' = rest := by simpa using heq
    obtain ⟨raw, rfl, hle, heqv⟩ := ih v' rest' hl
    refine ⟨b :: raw, rfl, by simpa using hle, fun h => ?_⟩
    obtain ⟨rfl, hpl⟩ := heqv (by simpa using h)
    refine ⟨rfl, ?_⟩
    rw [plain_cons h92, hpl]
    simpa using hb

/-- A plain text between two quotes is read as itself, and the literal ends where it was meant to. -/
theorem literal_plain {q : Byte} (hq : q ≠ 92) {post : Bytes} (hpost : post.head? ≠ some q)
    (t : Bytes) : plain q t = true → literal q (t ++ q :: post) = some (t, post) := by
  induction t using plain.induct with
  | case1 => intro _; exact literal_close hq hpost
  | case2 => intro h; cases h
  | case3 c ys ih =>
    intro h
    have h' : ((c = 37 || c = 95) && plain q ys) = true := h
    rw [Bool.and_eq_true, Bool.or_eq_true, decide_eq_true_eq, decide_eq_true_eq] at h'
    rw [List.cons_append, List.cons_append, literal_escape, ih h'.2, escaped_keep h'.1]
    rfl
  | case4 b xs h92 ih =>
    intro h
    rw [plain_cons h92, Bool.and_eq_true, decide_eq_true_eq] at h
    rw [List.cons_append, literal_other h92 h.1, ih h.2]
    rfl

/-! ## A text in its place in a statement -/

/-- **Quoted text is one literal with that value exactly when it is plain.**  `pre` is the statement up
    to the opening quote and with it, `post` what follows the closing one; `hover` says that a literal running
    over the closing quote cannot end, further on, in front of the same tokens. -/
theorem lex_literal_iff {q : Byte} (hq : q ≠ 92) {pre t post : Bytes} {tp tq : List Token}
    (hpre : scan .base pre = (.str q [], tp))
    (hpost : lex post = some tq) (hhead : post.head? ≠ some q)
    (hover : ∀ p rest, post = p ++ q :: rest → lex rest ≠ some tq) :
    lex (pre ++ t ++ q :: post) = some (tp ++ .str t :: tq) ↔ plain q t = true := by
  have hlex : lex (pre ++ t ++ q :: post) =
      ((literal q (t ++ q :: post)).bind fun p => (lexFrom .base p.2).map (.str p.1 :: ·)).map
        (tp ++ ·) := by
    rw [lex, List.append_assoc pre, lexFrom_append, hpre, lexFrom_str]
    rfl
  rw [hlex]
  constructor
  · intro h
    -- the value is `t` by assumption; what has to be shown is that nothing in it was rewritten
    cases hl : literal q (t ++ q :: post) with
    | none => rw [hl] at h; cases h
    | some p =>
      obtain ⟨v, rest⟩ := p
      rw [hl, Option.bind_some, Option.map_map, Option.map_eq_some_iff] at h
      obtain ⟨ts, hts, heq⟩ := h
      have heq' := List.append_cancel_left heq
      obtain ⟨hv, rfl⟩ := List.cons.inj heq'
      obtain rfl : v = t := Token.str.inj hv
      obtain ⟨raw, hraw, hle, hplain⟩ := literal_length q _ v rest hl
      rcases Nat.eq_or_lt_of_le hle with hlen | hlen
      · exact (hplain hlen).2
      · -- the literal ran over its closing quote: `raw` is `v`, that quote, and a piece of `post`
        exfalso
        have hpre' : v <+: raw := by
          refine List.prefix_of_prefix_length_le (List.prefix_append v (q :: post)) ?_
            (Nat.le_of_lt hlen)
          rw [hraw]; exact List.prefix_append _ _
        obtain ⟨more, rfl⟩ := hpre'
        rw [List.append_assoc] at hraw
        have hmore := List.append_cancel_left hraw
        cases more with
        | nil => simp at hlen
        | cons b p =>
          rw [List.cons_append] at hmore
          exact hover p rest (List.cons.inj hmore).2 hts
  · intro h
    rw [literal_plain hq hhead t h, Option.bind_some]
    show ((lex post).map _).map _ = _
    rw [hpost]; rfl

end Universita.Lib

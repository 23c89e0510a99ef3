/-
  THE ECHO — `Read` of `libreria/wrapper.c`.

  `Read` copies what arrives on a socket to standard output, a buffer at a time: it stores a NUL behind
  the bytes it has read and prints the string.  A read may fill the buffer; then the NUL falls behind it.

  Two things are wanted (`Eco`): every place that is written lies in the buffer, whatever came and wherever the
  function ended, and the stream appears on standard output whole and once.  A piece with a NUL in it would print
  short; the pieces of the statement have none, so that the two demands are about lengths only.

  The count that `read` returns is kept in an `int` (`quantiInt`).  A piece of 2^31 bytes would be taken for an error
  or for the end; with a buffer of that size it would be a short piece all the same, which is why the condition has a
  second half.

  The crux is that nothing makes up for a bad piece (`pezzo_corto`): no turn prints more than it read, so if the
  whole stream is printed each piece was printed whole, and a piece is printed whole only when its terminator
  has a place.

  Contents:
  1. `Wrapper.read`, its buffer and its output, as a loop over the results of `read` and `fputs`.
  2. `Eco` — no store outside the buffer, and the stream on standard output.
  3. `read_dati`, `read_inl`, `read_ritorno` — what one turn does.
  4. **`eco_iff`** — so it is when every read is shorter than the buffer (and its length an `int`).
-/
import Mathlib.Data.List.Flatten
import Universita.Lib.Buffer
import Universita.Lib.Loop

set_option linter.unusedVariables false

namespace Universita

open Lib

/-! ## The function -/

/-- What a turn meets: the bytes that `read` stores (at the end of the stream, none) and whether `fputs`
    succeeds; or a `read` that fails. -/
inductive Lettura where
  /-- What `read` stored, and whether `fputs` worked. -/
  | dati (bs : Bytes) (fputs : Bool)
  /-- `read` failed. -/
  | errore
deriving DecidableEq

/-- The buffer, and what was printed. -/
structure VarEco (bufferSize : Nat) where
  /-- The buffer. -/
  buffer : Buffer bufferSize
  /-- What was printed so far. -/
  stdout : Bytes

/-- How `Read` ends: it returns, or the program exits, or a byte was stored outside the buffer. -/
inductive FineEco where
  /-- It returned, with this on standard output. -/
  | ritorno (stdout : Bytes)
  /-- An error, and `exit(1)`. -/
  | exit
  /-- A store outside the buffer. -/
  | indefinito
deriving DecidableEq

/-- `n = read(..)`: the number of bytes as an `int`. -/
def quantiInt (bs : Bytes) : Int := (bs.length : Int).bmod (2 ^ 32)

/-- `Read(fd, buffer, bufferSize)`: read, terminate, print, until the end of the stream. -/
def Wrapper.read (bufferSize : Nat) : Loop (VarEco bufferSize) Lettura FineEco where
  exit _ := none
  turn
    | s, .dati bs fputs =>
      let n := quantiInt bs
      let buffer := s.buffer.overlay bs
      if 0 < n then
        if n < bufferSize then
          let buffer := buffer.poke n.toNat 0
          if fputs then .inl ⟨buffer, s.stdout ++ cstr buffer.bytes⟩ else .inr .exit
        else .inr .indefinito
      else if n < 0 then .inr .exit else .inr (.ritorno s.stdout)
    | _, .errore => .inr .exit

/-- The places at which a call and the terminator behind it are stored. -/
def indici {bufferSize : Nat} : VarEco bufferSize × Lettura → List Nat
  | (_, .dati bs _) => List.range bs.length ++ (if 0 < quantiInt bs then [(quantiInt bs).toNat] else [])
  | (_, .errore) => []

/-- A stream that arrives in pieces and then ends, while the output takes what is printed. -/
def arriva (pezzi : List Bytes) : List Lettura := pezzi.map (.dati · true) ++ [.dati [] true]

/-- The calls of a `Read` of a stream, and how it ended. -/
structure Eco (bufferSize : Nat) (pezzi : List Bytes) (cs : List (VarEco bufferSize × Lettura))
    (fine : Option FineEco) : Prop where
  /-- Every store is in the buffer. -/
  dentro : ∀ c ∈ cs, ∀ i ∈ indici c, i < bufferSize
  /-- It returned, and the stream is on standard output. -/
  fedele : fine = some (.ritorno pezzi.flatten)

/-! ## Turns -/

section Eco

variable {bufferSize : Nat} {s : VarEco bufferSize} {bs : Bytes}

/-- The `int` is at most the count. -/
theorem quantiInt_le (bs : Bytes) : quantiInt bs ≤ bs.length := by
  have h := Int.bmod_def (bs.length : Int) (2 ^ 32)
  unfold quantiInt
  split at h <;> omega

theorem quantiInt_lt (bs : Bytes) : quantiInt bs < 2 ^ 31 := Int.bmod_lt (by decide)

theorem quantiInt_eq (h : bs.length < 2 ^ 31) : quantiInt bs = bs.length :=
  Int.bmod_eq_of_le (by omega) (by omega)

/-- The string in front of a NUL that is stored at `k` is not longer than `k`, whatever else is in the
    buffer. -/
theorem length_cstr_poke (b : Buffer bufferSize) {k : Nat} (hk : k < bufferSize) :
    (cstr (b.poke k 0).bytes).length ≤ k := by
  have hlen : k < b.bytes.length := by rwa [b.size_eq]
  have hset : (b.poke k 0).bytes = b.bytes.take k ++ 0 :: b.bytes.drop (k + 1) :=
    List.set_eq_take_append_cons_drop.trans (if_pos hlen)
  rw [hset]
  by_cases h0 : (0 : Byte) ∈ b.bytes.take k
  · rw [cstr_append_of_mem h0]
    exact (List.takeWhile_prefix _).length_le.trans (List.length_take_le _ _)
  · rw [cstr_append_of_notMem h0, cstr_cons_zero, List.append_nil]
    exact List.length_take_le _ _

/-- The bytes read and a NUL behind them. -/
theorem cstr_terminata (b : Buffer bufferSize) (h0 : (0 : Byte) ∉ bs) (hlt : bs.length < bufferSize) :
    cstr ((b.overlay bs).poke bs.length 0).bytes = bs := by
  have hlen : bs.length < (b.overlay bs).bytes.length := by rwa [(b.overlay bs).size_eq]
  have hset : ((b.overlay bs).poke bs.length 0).bytes = bs ++ 0 :: (b.overlay bs).bytes.drop (bs.length + 1) := by
    refine List.set_eq_take_append_cons_drop.trans ((if_pos hlen).trans ?_)
    rw [Buffer.overlay_bytes_of_le (Nat.le_of_lt hlt), List.take_left]
  rw [hset, cstr_append_of_notMem h0, cstr_cons_zero, List.append_nil]

/-- A piece that leaves room for the terminator is printed. -/
theorem read_dati (h0 : (0 : Byte) ∉ bs) (hne : bs ≠ []) (hlt : bs.length < bufferSize)
    (hint : bs.length < 2 ^ 31) : (Wrapper.read bufferSize).turn s (.dati bs true) =
      .inl ⟨(s.buffer.overlay bs).poke bs.length 0, s.stdout ++ bs⟩ := by
  have hpos : (0 : Int) < bs.length := by exact_mod_cast List.length_pos_iff.mpr hne
  have hltInt : (bs.length : Int) < bufferSize := by exact_mod_cast hlt
  simp only [Wrapper.read, quantiInt_eq hint, if_pos hpos, if_pos hltInt, Int.toNat_natCast,
    cstr_terminata s.buffer h0 hlt, if_true]

/-- A turn from which the loop goes on: the terminator is in the buffer, and no more is printed than was
    read. -/
theorem read_inl {s' : VarEco bufferSize} (h : (Wrapper.read bufferSize).turn s (.dati bs true) = .inl s') :
    (quantiInt bs).toNat < bufferSize ∧ 0 < quantiInt bs ∧
      ∃ xs, s'.stdout = s.stdout ++ xs ∧ xs.length ≤ (quantiInt bs).toNat := by
  simp only [Wrapper.read] at h
  split at h
  · rename_i hpos
    split at h
    · rename_i hlt
      have hlt : (quantiInt bs).toNat < bufferSize := by omega
      obtain rfl := Sum.inl.inj h
      exact ⟨hlt, hpos, _, rfl, length_cstr_poke _ hlt⟩
    · cases h
  · split at h <;> cases h

theorem read_ritorno {out : Bytes} (h : (Wrapper.read bufferSize).turn s (.dati bs true) = .inr (.ritorno out)) :
    quantiInt bs = 0 ∧ out = s.stdout := by
  simp only [Wrapper.read] at h
  split at h
  · split at h <;> cases h
  · split at h
    · cases h
    · obtain ⟨⟩ := h
      exact ⟨by omega, rfl⟩

/-- The head of the loop is only a way in. -/
theorem run_cons {a : Lettura} {as : List Lettura} : (Wrapper.read bufferSize).run s (a :: as) =
    ((Wrapper.read bufferSize).turn s a).elim (fun s => (Wrapper.read bufferSize).run s as) some := by
  cases ht : (Wrapper.read bufferSize).turn s a with
  | inl s' => exact Loop.run_next rfl ht as
  | inr r => exact Loop.run_leave rfl ht as

/-- Not more is printed than arrives, whatever the buffer held: a piece that fills the buffer may be
    printed short, never long. -/
theorem stampato_le {pezzi : List Bytes} {out : Bytes}
    (h : (Wrapper.read bufferSize).run s (arriva pezzi) = some (.ritorno out)) :
    ∃ xs, out = s.stdout ++ xs ∧ xs.length ≤ pezzi.flatten.length := by
  induction pezzi generalizing s with
  | nil =>
    obtain rfl : s.stdout = out := FineEco.ritorno.inj (Option.some.inj h)
    exact ⟨[], (List.append_nil _).symm, Nat.zero_le _⟩
  | cons bs pezzi ih =>
    change (Wrapper.read bufferSize).run s (.dati bs true :: arriva pezzi) = _ at h
    rw [run_cons] at h
    cases ht : (Wrapper.read bufferSize).turn s (.dati bs true) with
    | inr r =>
      rw [ht] at h
      obtain rfl := Option.some.inj h
      exact ⟨[], by rw [(read_ritorno ht).2, List.append_nil], Nat.zero_le _⟩
    | inl s' =>
      rw [ht] at h
      obtain ⟨-, -, xs, hxs, hlen⟩ := read_inl ht
      obtain ⟨ys, rfl, hys⟩ := ih h
      -- each turn prints at most what it read, so all of them do
      refine ⟨xs ++ ys, by rw [hxs, List.append_assoc], ?_⟩
      have hle := quantiInt_le bs
      rw [List.length_append, List.flatten_cons, List.length_append]
      omega

/-- A piece whose bytes are all printed was short: the pieces behind it cannot make up for it. -/
theorem pezzo_corto {pezzi : List Bytes} (hne : bs ≠ []) (h : (Wrapper.read bufferSize).run s
      (.dati bs true :: arriva pezzi) = some (.ritorno (s.stdout ++ bs ++ pezzi.flatten))) :
    bs.length < bufferSize ∧ bs.length < 2 ^ 31 := by
  rw [run_cons] at h
  cases ht : (Wrapper.read bufferSize).turn s (.dati bs true) with
  | inr r =>
    rw [ht] at h
    obtain rfl := Option.some.inj h
    have hlen := congrArg List.length (read_ritorno ht).2
    have hpos := List.length_pos_iff.mpr hne
    simp only [List.length_append] at hlen
    omega
  | inl s' =>
    rw [ht] at h
    obtain ⟨hlt, hpos, xs, hxs, hlen⟩ := read_inl ht
    obtain ⟨ys, hys, hle⟩ := stampato_le h
    -- the rest prints at most itself, so this turn has to print its whole piece
    have htutto := congrArg List.length hys
    rw [hxs] at htutto
    simp only [List.length_append] at htutto
    have hquanti := quantiInt_le bs
    have hint := quantiInt_lt bs
    omega

/-- From any point: what is left to be read is printed. What was printed before stays in front, and what
    the buffer holds does not matter any more. -/
theorem resto_iff {pezzi : List Bytes}
    (hpezzi : ∀ bs ∈ pezzi, bs ≠ [] ∧ bs.length ≤ bufferSize ∧ (0 : Byte) ∉ bs) :
    (Wrapper.read bufferSize).run s (arriva pezzi) = some (.ritorno (s.stdout ++ pezzi.flatten)) ↔
      ∀ bs ∈ pezzi, bs.length < bufferSize ∧ bs.length < 2 ^ 31 := by
  induction pezzi generalizing s with
  | nil =>
    refine iff_of_true ?_ fun _ h => absurd h List.not_mem_nil
    rw [List.flatten_nil, List.append_nil]
    rfl
  | cons bs pezzi ih =>
    obtain ⟨hne, hle, h0⟩ := hpezzi bs List.mem_cons_self
    have ih {s : VarEco bufferSize} := ih (s := s) fun bs h => hpezzi bs (List.mem_cons_of_mem _ h)
    rw [List.forall_mem_cons, List.flatten_cons, ← List.append_assoc]
    change (Wrapper.read bufferSize).run s (.dati bs true :: arriva pezzi) = _ ↔ _
    constructor
    · intro h
      have hcorto := pezzo_corto hne h
      rw [run_cons, read_dati h0 hne hcorto.1 hcorto.2] at h
      exact ⟨hcorto, ih.mp h⟩
    · rintro ⟨⟨hlt, hint⟩, h⟩
      rw [run_cons, read_dati h0 hne hlt hint]
      exact ih.mpr h

/-- Short pieces and their terminators stay in the buffer: the last place written is that of the NUL,
    one behind the piece. -/
theorem indici_lt {pezzi : List Bytes} (hpezzi : ∀ bs ∈ pezzi, bs.length < bufferSize ∧ bs.length < 2 ^ 31) :
    ∀ c ∈ (Wrapper.read bufferSize).calls s (arriva pezzi), ∀ i ∈ indici c, i < bufferSize := by
  rintro ⟨s', a⟩ hc i hi
  have ha : a ∈ arriva pezzi := Loop.mem_calls hc
  rcases List.mem_append.mp ha with ha | ha
  · obtain ⟨bs, hbs, rfl⟩ := List.mem_map.mp ha
    obtain ⟨hlt, hint⟩ := hpezzi bs hbs
    rw [indici, quantiInt_eq hint, List.mem_append] at hi
    rcases hi with hi | hi
    · exact (List.mem_range.mp hi).trans hlt
    · split at hi
      · rwa [List.mem_singleton.mp hi, Int.toNat_natCast]
      · exact absurd hi List.not_mem_nil
  · rw [List.mem_singleton.mp ha] at hi
    exact absurd hi List.not_mem_nil

/-- **`Read` echoes a stream inside its buffer when each piece of it is shorter than the buffer**, so that
    the terminator has a place (and its length is an `int`). -/
theorem eco_iff (buffer : Buffer bufferSize) (pezzi : List Bytes)
    (hpezzi : ∀ bs ∈ pezzi, bs ≠ [] ∧ bs.length ≤ bufferSize ∧ (0 : Byte) ∉ bs) :
    Eco bufferSize pezzi ((Wrapper.read bufferSize).calls ⟨buffer, []⟩ (arriva pezzi))
        ((Wrapper.read bufferSize).run ⟨buffer, []⟩ (arriva pezzi)) ↔
      ∀ bs ∈ pezzi, bs.length < bufferSize ∧ bs.length < 2 ^ 31 := by
  have hresto := resto_iff (s := ⟨buffer, []⟩) hpezzi
  constructor
  · intro h
    exact hresto.mp h.fedele
  · intro h
    exact ⟨indici_lt h, hresto.mpr h⟩

/-- Two pieces in a buffer of four bytes, three bytes and one: the stream is printed as it came, and every
    store falls in the buffer. -/
theorem eco_due : Eco 4 [ascii "abc", ascii "d"]
    ((Wrapper.read 4).calls ⟨Buffer.zero 4, []⟩ (arriva [ascii "abc", ascii "d"]))
    ((Wrapper.read 4).run ⟨Buffer.zero 4, []⟩ (arriva [ascii "abc", ascii "d"])) :=
  (eco_iff (Buffer.zero 4) [ascii "abc", ascii "d"] (by decide)).mpr (by decide)

/-- A piece of four bytes fills the buffer of four: the terminator falls on the byte behind it. -/
theorem terminatore_fuori : ¬ ∀ (bufferSize : Nat) (buffer : Buffer bufferSize) (pezzi : List Bytes),
    0 < bufferSize → (∀ bs ∈ pezzi, bs ≠ [] ∧ bs.length ≤ bufferSize ∧ (0 : Byte) ∉ bs) →
    Eco bufferSize pezzi ((Wrapper.read bufferSize).calls ⟨buffer, []⟩ (arriva pezzi))
      ((Wrapper.read bufferSize).run ⟨buffer, []⟩ (arriva pezzi)) := by
  intro h
  have := (h 4 (Buffer.zero 4) [ascii "abcd"] (by decide) (by decide)).fedele
  revert this
  decide

end Eco

end Universita

/-
  BYTE STREAMS — one direction of a TCP connection, as the queue of the bytes in flight.

  TCP keeps the bytes and their order and forgets where one write ended and the next began: a write
  appends to the queue, a read returns any non-empty prefix of it that fits.  So a read's result is not
  a function of the queue; `recv n q bs` is given the bytes that are to be returned and says what is left
  when they can be.

  A reader who wants messages has to know where they end.  The crux of this file is the converse of
  that: when the reads so far have consumed exactly the bytes of the first few writes, and no write was
  empty, then these writes are determined — from equal byte strings back to equal lists of messages
  (`prefix_eq_of_flatten`).  Without it, an invariant over bytes could never say WHICH reply was read.

  Contents:
  1. `recv` — a read from a peer who is still there: it blocks (`none`) on an empty stream.
     `recvEnd` — the same from a peer who leaves after the last byte: at the end it returns 0 bytes.
  2. `recv_eq_some`, `recvEnd_eq_some` — nothing is lost, duplicated or reordered.
  3. `prefix_eq_of_flatten`, `concat_eq_of_flatten` — where a stream of non-empty pieces stands tells which
     were read.
  4. `inCoda` — a list of replies of which the last is still being written.
-/
import Universita.Lib.Buffer

set_option linter.unusedVariables false

namespace Universita.Lib

namespace Stream

/-! ## Reading -/

/-- A read of at most `n` bytes returns `bs`: the stream left, `none` when it cannot return that. -/
def recv (n : Nat) (q bs : Bytes) : Option Bytes :=
  if bs ≠ [] ∧ bs.length ≤ n ∧ bs <+: q then some (q.drop bs.length) else none

/-- A read from a peer who writes nothing after `q`: at the end of the stream it returns 0 bytes. -/
def recvEnd (n : Nat) (q bs : Bytes) : Option Bytes :=
  if bs = [] ∧ q = [] then some [] else recv n q bs

/-- **TCP delivers the bytes in order and without loss.** A read returns a beginning of what is in
    flight, not empty and not longer than asked for, and the rest stays. -/
theorem recv_eq_some {n : Nat} {q q' bs : Bytes} :
    recv n q bs = some q' ↔ bs ≠ [] ∧ bs.length ≤ n ∧ q = bs ++ q' := by
  unfold recv
  constructor
  · intro h
    split at h
    · rename_i hc
      obtain ⟨hne, hn, ys, rfl⟩ := hc
      rw [List.drop_left] at h
      exact ⟨hne, hn, by rw [Option.some.inj h]⟩
    · cases h
  · rintro ⟨hne, hn, rfl⟩
    rw [if_pos ⟨hne, hn, List.prefix_append _ _⟩, List.drop_left]

/-- From a peer who leaves, nothing read means that nothing is left to read; otherwise it is a read like
    any other. -/
theorem recvEnd_eq_some {n : Nat} {q q' bs : Bytes} :
    recvEnd n q bs = some q' ↔ bs.length ≤ n ∧ q = bs ++ q' ∧ (bs = [] → q = []) := by
  unfold recvEnd
  split
  · rename_i hc
    obtain ⟨rfl, rfl⟩ := hc
    constructor
    · rintro h
      obtain rfl := Option.some.inj h
      exact ⟨Nat.zero_le n, rfl, fun _ => rfl⟩
    · rintro ⟨-, h, -⟩
      rw [List.nil_append] at h
      rw [h]
  · rename_i hc
    rw [recv_eq_some]
    constructor
    · rintro ⟨hne, hn, hq⟩; exact ⟨hn, hq, fun h => absurd h hne⟩
    · rintro ⟨hn, hq, hend⟩; exact ⟨fun h => hc ⟨h, hend h⟩, hn, hq⟩

/-! ## Pieces -/

/-- Of pieces that are not empty, the first few are told by their bytes: two beginnings of one list with
    the same bytes are the same beginning. -/
theorem prefix_eq_of_flatten {ws us vs : List Bytes} (hne : ∀ w ∈ ws, w ≠ []) (hu : us <+: ws)
    (hv : vs <+: ws) (h : us.flatten = vs.flatten) : us = vs := by
  have aux : ∀ {us vs : List Bytes}, vs <+: ws → us <+: vs → us.flatten = vs.flatten → us = vs := by
    rintro us _ hv ⟨ts, rfl⟩ h
    rw [List.flatten_append] at h
    have hts : ts.flatten = [] := List.self_eq_append_right.mp h
    cases ts with
    | nil => exact (List.append_nil us).symm
    | cons t ts =>
      have ht : t ∈ us ++ t :: ts := List.mem_append_right _ List.mem_cons_self
      exact absurd (List.append_eq_nil_iff.mp hts).1 (hne t (hv.subset ht))
  rcases List.prefix_or_prefix_of_prefix hu hv with huv | hvu
  · exact aux hv huv h
  · exact (aux hu hvu h.symm).symm

/-- What is left of the bytes is the one piece that is left: where all pieces but one were read, and the
    bytes behind them are `g`, the last piece is `g`. -/
theorem concat_eq_of_flatten {us vs : List Bytes} {g : Bytes} (h : us <+: vs) (hlen : vs.length ≤ us.length + 1)
    (hne : g ≠ []) (hg : vs.flatten = us.flatten ++ g) : us ++ [g] = vs := by
  obtain ⟨ts, rfl⟩ := h
  rw [List.flatten_append, List.append_cancel_left_eq] at hg
  rw [List.length_append] at hlen
  match ts with
  | [] => exact absurd hg.symm hne
  | [t] =>
    rw [List.flatten_singleton] at hg
    rw [hg]
  | t :: t' :: ts =>
    rw [List.length_cons, List.length_cons] at hlen
    omega

/-! ## A reply that grows -/

/-- `bs` written at the end of the last reply. -/
def inCoda (bs : Bytes) : List Bytes → List Bytes
  | [] => [bs]
  | [w] => [w ++ bs]
  | w :: ws => w :: inCoda bs ws

theorem flatten_inCoda (bs : Bytes) : ∀ ws : List Bytes, (inCoda bs ws).flatten = ws.flatten ++ bs
  | [] => by rw [inCoda, List.flatten_cons, List.flatten_nil, List.append_nil]; rfl
  | [w] => by
    rw [inCoda, List.flatten_cons, List.flatten_cons, List.flatten_nil, List.append_nil,
      List.append_nil]
  | w :: v :: ws => by
    rw [inCoda, List.flatten_cons, List.flatten_cons, flatten_inCoda bs (v :: ws), List.append_assoc]
    exact nofun

/-- No reply more, when there is one already. -/
theorem length_inCoda (bs : Bytes) : ∀ {ws : List Bytes}, ws ≠ [] → (inCoda bs ws).length = ws.length
  | [], h => absurd rfl h
  | [_], _ => rfl
  | w :: v :: ws, _ => by
    rw [inCoda, List.length_cons, length_inCoda bs (List.cons_ne_nil v ws)]
    · rfl
    · exact fun h => List.cons_ne_nil v ws h

/-- The last reply grows, and the others stay as they are. -/
theorem inCoda_concat (bs w : Bytes) : ∀ ws : List Bytes, inCoda bs (ws ++ [w]) = ws ++ [w ++ bs]
  | [] => rfl
  | [v] => rfl
  | v :: u :: ws => by
    have ih := inCoda_concat bs w (u :: ws)
    rw [List.cons_append, List.cons_append, inCoda]
    · rw [← List.cons_append, ih]
      rfl
    · exact nofun

/-- The replies before the last are not touched: what a reader has read stays a beginning of the list. -/
theorem prefix_inCoda (bs : Bytes) : ∀ {ws vs : List Bytes}, ws <+: vs → ws.length < vs.length →
    ws <+: inCoda bs vs
  | [], vs, _, _ => List.nil_prefix
  | w :: ws, [v], _, hlt => by simp at hlt
  | w :: ws, v :: u :: vs, h, hlt => by
    obtain ⟨rfl, htail⟩ := List.cons_prefix_cons.mp h
    rw [inCoda]
    · exact List.cons_prefix_cons.mpr ⟨rfl, prefix_inCoda bs htail (Nat.lt_of_succ_lt_succ hlt)⟩
    · exact fun h => List.cons_ne_nil u vs h

end Stream

end Universita.Lib

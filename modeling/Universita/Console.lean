/-
  THE OUTCOME ON THE SCREEN — what an operator and a student are shown as the reply to a request.

  Replies are bytes without a NUL.  The operator's are read one over the other into one buffer: a longer
  one that came earlier still shows behind a shorter one.  The student's are read into a new buffer each
  time, but it has no initializer, and is printed once before the read.

  So both conditions are about BUFFERS that nobody looks at.  For the operator, whose buffer starts zeroed and is
  written by replies only, the condition becomes one about replies: their lengths do not go down
  (`Crescenti`).  For the student it stays one about memory: a NUL at its first byte, so that the early print shows
  nothing, and a NUL behind the reply (`Pulito`).

  The crux on the operator's side is to know the buffer after any number of replies without replaying them
  (`Risultato`): it holds a text without NUL, then zeros, and the text is as long as the longest reply so far.  One
  more reply is then shown as it is exactly when it is at least that long.

  Contents:
  1. `postazione` — the student's program at its keyboard.
  2. `stampe` — what was printed in a piece of a run; `lette`, `mostrate`: the replies the operator's requests
     have read and the outcomes they have shown.
  3. `Risultato` — the buffer behind a sequence of replies: as long as the longest.
  4. `Operato`, `Prenotato` — what a turn of the operator's menu, and a booking, read and show.
  5. **`esiti_iff`** — the operator is shown the replies exactly when no reply is shorter than one before it; a
     student is exactly when a NUL happens to stand at two places of the buffer.
  6. `esiti_uno`, `esito_sporco` — a reply of each kind shown as it is, and one that is not.
-/
import Universita.Dialogo
import Universita.Sessioni
import Universita.Tastiera

set_option linter.unusedVariables false

namespace Universita

open Lib

/-! ## The student's program -/

/-- What is left of the student's standard input once `o` was answered `r`. -/
def daPostazione (s : Bytes) : (o : Sys) → o.Ans → Option Bytes
  | .read _ n, r => if r.length ≤ n then some s else none
  | o, r => daTastiera s o r

/-- The student's program, with the keyboard as its world; whatever else it asks for is answered anything. -/
def postazione : Solo Sys Sys.Ans PuntoStud Bytes where
  body := ProgStudente.giro
  ans s o r := daPostazione s o r

/-- The start: nothing of the input is read. -/
def seduta (st : ProgStudente) (ingresso : Bytes) : Solo.State Sys Sys.Ans PuntoStud Bytes :=
  postazione.start (.accesso st) ingresso

/-- A state of its run. -/
abbrev StatoPostazione := Solo.State Sys Sys.Ans PuntoStud Bytes

/-! ## What is read and printed -/

/-- What was printed in a piece of a run. -/
def stampe (tr : List Evento) : List Bytes :=
  tr.filterMap fun
    | ⟨.printf testo, _⟩ => some testo
    | _ => none

theorem stampe_append (tr : List Evento) (ev : Evento) : stampe (tr ++ [ev]) = stampe tr ++ stampe [ev] :=
  List.filterMap_append

/-- The line an operator has to be shown for a reply. -/
def esitoDi (r : Bytes) : Bytes := ascii "\nEsito: " ++ r ++ ascii "\n\n"

/-- The replies the operator's requests have read. -/
def lette (ts : Passato) : List Bytes :=
  ts.flatMap fun t => if t.1.1 = .operatore then letture t.2 else []

/-- The outcomes they have shown. -/
def mostrate (ts : Passato) : List Bytes :=
  ts.flatMap fun t => if t.1.1 = .operatore then stampe t.2 else []

/-- No reply is shorter than one before it: the order in which a buffer that is never cleared shows each
    of them whole. -/
def Crescenti (rs : List Bytes) : Prop := rs.Pairwise fun a b => a.length ≤ b.length

/-! ## The buffer of the replies -/

section Risultato

variable {rs : List Bytes} {b : Buffer 255} {r : Bytes}

/-- Once `rs` were read into it, the buffer holds a text as long as the longest of them, and zeros
    behind it. -/
def Risultato (rs : List Bytes) (b : Buffer 255) : Prop :=
  ∃ w, b.bytes = w ++ List.replicate (255 - w.length) 0 ∧ (0 : Byte) ∉ w ∧ w.length ≤ 254 ∧
    ∀ n, w.length ≤ n ↔ ∀ a ∈ rs, a.length ≤ n

/-- The buffer starts zeroed: no reply, and the empty text. -/
theorem risultato_iniziale : Risultato [] (Buffer.zero 255) :=
  ⟨[], rfl, List.not_mem_nil, Nat.zero_le _, fun n => iff_of_true (Nat.zero_le n) fun a ha =>
    absurd ha List.not_mem_nil⟩

/-- **One more reply**: the string in the buffer is the reply exactly when no longer one was there
    before. Otherwise the end of that one shows behind it. -/
theorem Risultato.dopo (h : Risultato rs b) (hr : r.length ≤ 254) (h0 : (0 : Byte) ∉ r) :
    Risultato (rs ++ [r]) (b.overlay r) ∧
      ∀ t, Stringa (b.overlay r) t → (t = r ↔ ∀ a ∈ rs, a.length ≤ r.length) := by
  obtain ⟨w, hb, hw0, hw, hlen⟩ := h
  have hbytes : (b.overlay r).bytes =
      (r ++ w.drop r.length) ++ List.replicate (255 - (r ++ w.drop r.length).length) 0 := by
    rw [Buffer.overlay_bytes_of_le (by omega), hb, List.drop_append, List.drop_replicate,
      List.append_assoc]
    refine congrArg (fun z => r ++ (w.drop r.length ++ z)) (congrArg (List.replicate · 0) ?_)
    rw [List.length_append, List.length_drop]
    omega
  have hnuovo0 : (0 : Byte) ∉ r ++ w.drop r.length := by
    rw [List.mem_append]
    exact fun hm => hm.elim h0 fun hd => hw0 (List.mem_of_mem_drop hd)
  have hnuovo : (r ++ w.drop r.length).length ≤ 254 := by
    rw [List.length_append, List.length_drop]; omega
  refine ⟨⟨_, hbytes, hnuovo0, hnuovo, fun n => ?_⟩, fun t ht => ?_⟩
  · rw [List.forall_mem_append, List.forall_mem_singleton, ← hlen, List.length_append, List.length_drop]
    omega
  -- the string is the reply with the end of the longest earlier one, if that is longer
  · have hmem : (0 : Byte) ∈ (b.overlay r).bytes := by
      rw [hbytes, List.mem_append]
      exact Or.inr (List.mem_replicate.mpr ⟨by omega, rfl⟩)
    have htesto : t = r ++ w.drop r.length := by
      rcases ht with ⟨-, rfl⟩ | ⟨hn, -⟩
      · rw [hbytes, cstr_append_of_notMem hnuovo0, cstr_replicate_zero, List.append_nil]
      · exact absurd hmem hn
    rw [htesto, ← hlen, List.append_right_eq_self, List.drop_eq_nil_iff]

end Risultato

/-! ## Reads, prints and uninitialised buffers -/

/-- The buffers of 255 bytes that were found uninitialised in a piece of a run, with what they held:
    `res`, in a booking. -/
def memorie (tr : List Evento) : List (Buffer 255) :=
  tr.filterMap fun
    | ⟨.indeterminato 255, b⟩ => some b
    | _ => none

theorem memorie_append (tr : List Evento) (ev : Evento) :
    memorie (tr ++ [ev]) = memorie tr ++ memorie [ev] := List.filterMap_append

/-- The call reads nothing, prints nothing and finds no such buffer. -/
def Sys.Muta : Sys → Prop
  | .read _ _ | .printf _ | .indeterminato _ => False
  | _ => True

/-- What was read, printed and found in `tr`. -/
structure Visto (rs ts : List Bytes) (bs : List (Buffer 255)) (tr : List Evento) : Prop where
  /-- What was read ... -/
  letture : letture tr = rs
  /-- ... printed ... -/
  stampe : stampe tr = ts
  /-- ... and found uninitialised. -/
  memorie : memorie tr = bs

section Visto

variable {rs ts : List Bytes} {bs : List (Buffer 255)} {tr : List Evento} {σ E α β : Type}
  {S : Solo Sys Sys.Ans σ E}

theorem visto_nil : Visto [] [] [] [] := ⟨rfl, rfl, rfl⟩

/-- One more call: what it reads, prints and finds is added. -/
theorem Visto.dopo (h : Visto rs ts bs tr) (ev : Evento) :
    Visto (rs ++ Universita.letture [ev]) (ts ++ Universita.stampe [ev]) (bs ++ Universita.memorie [ev])
      (tr ++ [ev]) := by
  refine ⟨?_, ?_, ?_⟩
  · rw [letture_append, h.letture]
  · rw [stampe_append, h.stampe]
  · rw [memorie_append, h.memorie]

theorem Visto.muta (h : Visto rs ts bs tr) {o : Sys} {r : o.Ans} (ho : o.Muta) :
    Visto rs ts bs (tr ++ [⟨o, r⟩]) := by
  have hn : Universita.letture [⟨o, r⟩] = [] ∧ Universita.stampe [⟨o, r⟩] = [] ∧
      Universita.memorie [⟨o, r⟩] = [] := by
    cases o with
    | read fd n => exact absurd ho id
    | printf testo => exact absurd ho id
    | indeterminato n => exact absurd ho id
    | _ => exact ⟨rfl, rfl, rfl⟩
  have h' := h.dopo ⟨o, r⟩
  rwa [hn.1, hn.2.1, hn.2.2, List.append_nil, List.append_nil, List.append_nil] at h'

theorem Visto.read (h : Visto rs ts bs tr) {fd : Int} {n : Nat} {r : Bytes} :
    Visto (rs ++ [r]) ts bs (tr ++ [⟨.read fd n, r⟩]) := by
  have h' := h.dopo ⟨.read fd n, r⟩
  exact ⟨h'.letture, h'.stampe.trans (List.append_nil _), h'.memorie.trans (List.append_nil _)⟩

theorem Visto.printf (h : Visto rs ts bs tr) {testo : Bytes} {u : Unit} :
    Visto rs (ts ++ [testo]) bs (tr ++ [⟨.printf testo, u⟩]) := by
  have h' := h.dopo ⟨.printf testo, u⟩
  exact ⟨h'.letture.trans (List.append_nil _), h'.stampe, h'.memorie.trans (List.append_nil _)⟩

/-- An uninitialised `int` is no buffer of a reply. -/
theorem Visto.indeterminato4 (h : Visto rs ts bs tr) {b : Buffer 4} :
    Visto rs ts bs (tr ++ [⟨.indeterminato 4, b⟩]) := by
  have h' := h.dopo ⟨.indeterminato 4, b⟩
  exact ⟨h'.letture.trans (List.append_nil _), h'.stampe.trans (List.append_nil _),
    h'.memorie.trans (List.append_nil _)⟩

/-- An uninitialised buffer joins those found. -/
theorem Visto.indeterminato (h : Visto rs ts bs tr) {b : Buffer 255} :
    Visto rs ts (bs ++ [b]) (tr ++ [⟨.indeterminato 255, b⟩]) := by
  have h' := h.dopo ⟨.indeterminato 255, b⟩
  exact ⟨h'.letture.trans (List.append_nil _), h'.stampe.trans (List.append_nil _), h'.memorie⟩

/-- Such calls only, and an end in `P`. -/
abbrev Muto (p : Programma α) (P : α → Prop) : Prop := p.Only (fun _ _ => True) Sys.Muta P

/-- A silent part in front: what was seen before it is what was seen behind it. So a proof about a turn
    has a case for the calls that read or print something, and skips the others. -/
theorem Muto.poi {p : Programma α} {B : α → Prop} (hp : Muto p B) {f : α → Programma β}
    {A : Solo.View Sys Sys.Ans E → (o : Sys) → o.Ans → Prop} {P : Solo.View Sys Sys.Ans E → Sys → Prop}
    {Q : β → Solo.View Sys Sys.Ans E → Prop} {v : Solo.View Sys Sys.Ans E} (hv : Visto rs ts bs v.1)
    (hP : ∀ v o, Visto rs ts bs v.1 → P v o)
    (hf : ∀ a v', B a → Visto rs ts bs v'.1 → (f a).Safe (S.answers A) P Q v') :
    (p >>= f).Safe (S.answers A) P Q v := by
  refine (Prog.safe_bind p f Q v).mpr ?_
  refine (Prog.Only.safe (K := fun v => Visto rs ts bs v.1) hp (fun u o hu _ => hP u o hu) ?_ hv).mono
    fun a v' hv' => hf a v' hv'.1 hv'.2
  rintro u o r u' hu ho ⟨-, htr, -⟩
  refine ⟨trivial, ?_⟩
  rw [htr]
  exact hu.muta ho

/-- Looking for a string is silent, and finds one of the buffer. -/
theorem muto_cString {n : Nat} (b : Buffer n) : Muto (cString b) (Stringa b) := by
  by_cases h : (0 : Byte) ∈ b.bytes
  · rw [cString_of_mem h]
    exact Or.inl ⟨h, rfl⟩
  · rw [cString, if_neg h]
    exact Prog.only_call.mpr ⟨trivial, fun dietro _ => Or.inr ⟨h, dietro, rfl⟩⟩

theorem muto_scanInt (v : Int) : Muto (scanInt v) fun _ => True :=
  Prog.only_call.mpr ⟨trivial, fun _ _ => trivial⟩

theorem muto_tagliaFine {n : Nat} (b : Buffer n) : Muto (tagliaFine b) fun _ => True := by
  refine (Prog.only_bind ..).mpr ((muto_cString _).mono fun testo _ => ?_)
  split
  · exact Prog.only_call.mpr ⟨trivial, nofun⟩
  · trivial

theorem muto_leggiRiga {n : Nat} (b : Buffer n) : Muto (leggiRiga b) fun _ => True :=
  Prog.only_call.mpr ⟨trivial, fun _ _ => muto_tagliaFine _⟩

end Visto

/-! ## The operator's menu -/

/-- What a turn of the menu reads and shows: nothing, or one reply, which is read over `result` and
    shown from there. -/
def Operato (s : Segreteria) (tr : List Evento) (s' : Segreteria) : Prop :=
  (letture tr = [] ∧ stampe tr = [] ∧ s'.result = s.result) ∨
  ∃ r t, letture tr = [r] ∧ stampe tr = [esitoDi t] ∧ s'.result = s.result.overlay r ∧ Stringa s'.result t

/-- **A turn of the menu**: nothing, or one reply read over the buffer and shown from there. -/
theorem safe_operato {σ E : Type} {S : Solo Sys Sys.Ans σ E} (s : Segreteria) (e : E) :
    s.operatore.Safe (S.answers fun _ _ _ => True) (fun _ _ => True) (fun s' v => Operato s v.1 s') ([], e) := by
  have hP : ∀ {rs ts bs} (v : Solo.View Sys Sys.Ans E) (o : Sys), Visto rs ts bs v.1 → True :=
    fun _ _ _ => trivial
  show Prog.Safe _ _ (if s.sockfd ∈ s.writeSet then _ else _) _ _
  split
  · refine (muto_scanInt _).poi visto_nil hP fun logical v₁ _ h₁ => ?_
    refine ⟨trivial, fun _ v₂ hv₂ => ?_⟩
    have h₂ : Visto [] [] [] v₂.1 := hv₂.2.1 ▸ h₁.muta trivial
    show Prog.Safe _ _ (if logical = 2 then _ else _) _ _
    split
    · refine ⟨trivial, fun _ v₃ hv₃ => ?_⟩
      have h₃ : Visto [] [] [] v₃.1 := hv₃.2.1 ▸ h₂.muta trivial
      -- a new appello: nothing is read from the server or printed as an outcome before its three writes are done
      refine (muto_leggiRiga _).poi h₃ hP fun name v₄ _ h₄ => ?_
      refine ⟨trivial, fun _ v₅ hv₅ => ?_⟩
      have h₅ : Visto [] [] [] v₅.1 := hv₅.2.1 ▸ h₄.muta trivial
      refine (muto_leggiRiga _).poi h₅ hP fun date v₆ _ h₆ => ?_
      refine ⟨trivial, fun _ v₇ hv₇ => ⟨trivial, fun r v₈ hv₈ => ?_⟩⟩
      have h₇ : Visto [] [] [] v₇.1 := hv₇.2.1 ▸ h₆.muta trivial
      have h₈ : Visto [r] [] [] v₈.1 := hv₈.2.1 ▸ h₇.read
      refine (muto_cString _).poi h₈ hP fun t v₉ ht h₉ => ?_
      refine ⟨trivial, fun _ v' hv' => ?_⟩
      have h' : Visto [r] [esitoDi t] [] v'.1 := hv'.2.1 ▸ h₉.printf
      exact Or.inr ⟨r, t, h'.letture, h'.stampe, rfl, ht⟩
    · exact Or.inl ⟨h₂.letture, h₂.stampe, rfl⟩
  · exact Or.inl ⟨rfl, rfl, rfl⟩

/-- The other turns leave the buffer alone. -/
theorem Giro.result_eq {sockfd : Int} {l l' : LatoSegreteria} {p p' : Punto} {s s' : Segreteria}
    {tr : List Evento} (hg : Giro sockfd l (p, s) tr (p', s') l') (hp : p ≠ .operatore) :
    s'.result = s.result := by
  cases hg with
  | operatore => exact absurd rfl hp
  | _ => rfl

/-- What was read was read by a read. -/
theorem mem_letture {tr : List Evento} {r : Bytes} (h : r ∈ letture tr) :
    ∃ fd n, ⟨.read fd n, r⟩ ∈ tr := by
  obtain ⟨ev, hev, hr⟩ := List.mem_filterMap.mp h
  split at hr
  · rename_i fd n r'
    obtain rfl := Option.some.inj hr
    exact ⟨fd, n, hev⟩
  · cases hr

section Operatore

variable {sockfd listenfd logical : Int} {behaviour : Buffer 4} {slots : Nat → ClientStud}
  {clienti : Nat → Bytes} {past : Passato} {s s' : Segreteria}

/-- The replies to the operator's requests are texts of at most 254 bytes. Longer ones, or such with a
    NUL, are no texts of this server. -/
def RisposteBrevi (d : StatoSegreteria) (m : MossaSegreteria) : Prop :=
  ∀ fd n r, m = .act (.read fd n) r → d.turn.1 = .operatore → r.length ≤ 254 ∧ (0 : Byte) ∉ r

/-- What the turns `past` have left behind. -/
structure Aggiornata (past : Passato) (s : Segreteria) : Prop where
  /-- The buffer is that of the replies. -/
  risultato : Risultato (lette past) s.result
  /-- One outcome was shown for each. -/
  quante : (mostrate past).length = (lette past).length
  /-- They are the replies exactly when these did not get shorter. -/
  giuste : mostrate past = (lette past).map esitoDi ↔ Crescenti (lette past)

/-- One turn more: its reads count if it was the operator's. -/
theorem lette_snoc (past : Passato) (t : (Punto × Segreteria) × List Evento) :
    lette (past ++ [t]) = lette past ++ if t.1.1 = .operatore then letture t.2 else [] := by
  simp [lette]

theorem mostrate_snoc (past : Passato) (t : (Punto × Segreteria) × List Evento) :
    mostrate (past ++ [t]) = mostrate past ++ if t.1.1 = .operatore then stampe t.2 else [] := by
  simp [mostrate]

/-- The line on the screen tells the reply. -/
theorem esitoDi_injective {r t : Bytes} (h : esitoDi t = esitoDi r) : t = r :=
  List.append_cancel_left (List.append_cancel_right h)

/-- A turn that reads and shows nothing leaves the buffer, the replies and the outcomes as they are, and
    the comparison with them. -/
theorem Aggiornata.resta (h : Aggiornata past s) {t : (Punto × Segreteria) × List Evento}
    (ht : t.1.1 = .operatore → letture t.2 = [] ∧ stampe t.2 = []) (hs : s'.result = s.result) :
    Aggiornata (past ++ [t]) s' := by
  -- a turn of the students adds neither a reply nor an outcome of the operator's
  have hl : lette (past ++ [t]) = lette past := by
    rw [lette_snoc]
    split
    · rename_i hp
      rw [(ht hp).1, List.append_nil]
    · exact List.append_nil _
  have hm : mostrate (past ++ [t]) = mostrate past := by
    rw [mostrate_snoc]
    split
    · rename_i hp
      rw [(ht hp).2, List.append_nil]
    · exact List.append_nil _
  refine ⟨?_, ?_, ?_⟩
  · rw [hl, hs]
    exact h.risultato
  · rw [hl, hm]
    exact h.quante
  · rw [hl, hm]
    exact h.giuste

/-- **One more reply** is shown as it is exactly when none before it was longer; the buffer then is that
    of the replies with one more. -/
theorem Aggiornata.operato (h : Aggiornata past s) {tr : List Evento} (ho : Operato s tr s')
    (hbrevi : ∀ r ∈ letture tr, r.length ≤ 254 ∧ (0 : Byte) ∉ r) :
    Aggiornata (past ++ [((.operatore, s), tr)]) s' := by
  rcases ho with ⟨hl, hm, hs⟩ | ⟨r, t, hl, hm, hs, ht⟩
  · exact h.resta (fun _ => ⟨hl, hm⟩) hs
  · obtain ⟨hr, h0⟩ := hbrevi r (hl ▸ List.mem_singleton_self r)
    obtain ⟨hris, hgiusta⟩ := h.risultato.dopo hr h0
    have hl' : lette (past ++ [((.operatore, s), tr)]) = lette past ++ [r] := by
      rw [lette_snoc, if_pos rfl, hl]
    have hm' : mostrate (past ++ [((.operatore, s), tr)]) = mostrate past ++ [esitoDi t] := by
      rw [mostrate_snoc, if_pos rfl, hm]
    refine ⟨?_, ?_, ?_⟩
    · rw [hl', hs]
      exact hris
    · rw [hl', hm', List.length_append, List.length_append, h.quante]
      rfl
    · rw [hl', hm', List.map_append, List.map_singleton, Crescenti, List.pairwise_append]
      -- the new outcome is right exactly when no earlier reply was longer: `Risultato` says what the buffer
      -- holds
      have hcoda : (∀ a ∈ lette past, ∀ b ∈ [r], a.length ≤ b.length) ↔ t = r := by
        rw [hgiusta t (hs ▸ ht)]
        exact forall₂_congr fun a _ => List.forall_mem_singleton
      rw [hcoda]
      constructor
      · intro heq
        obtain ⟨hprima, hultima⟩ := List.append_inj heq (by rw [h.quante, List.length_map])
        exact ⟨h.giuste.mp hprima, List.pairwise_singleton _ _,
          esitoDi_injective (List.cons.inj hultima).1⟩
      · rintro ⟨hprima, -, rfl⟩
        rw [h.giuste.mpr hprima]

/-- **The operator**: in every run, whenever the loop is at its head. -/
theorem aggiornata_run {d : StatoSegreteria} (hd : Solo.Reach (sportello sockfd) RisposteBrevi
      (apertura sockfd listenfd behaviour logical slots clienti) d)
    {q : Punto × Segreteria} (hq : d.prog = .ret q) : Aggiornata (d.past ++ [(d.turn, d.trace)]) q.2 := by
  -- what the operator's turns read is short and has no NUL
  let A : Passato → Punto × Segreteria → Vista₁ → (o : Sys) → o.Ans → Prop := fun _ q _ o r =>
    ∀ fd n (r' : Bytes), (⟨o, r⟩ : Evento) = ⟨.read fd n, r'⟩ → q.1 = .operatore →
      r'.length ≤ 254 ∧ (0 : Byte) ∉ r'
  refine Solo.Reach.head (A := A) (B := fun _ _ _ => True) (I := fun past q _ => Aggiornata past q.2)
    (W := fun q l tr q' l' => Giro sockfd l q tr q' l' ∧ (q.1 = .operatore → Operato q.2 tr q'.2))
    ?_ ?_ (fun _ _ _ _ => trivial) ?_ trivial ?_ hd hq
  · rintro ⟨p, s⟩ l
    refine ((safe_giro (p, s) l).and (W := fun _ _ => True)
      (K := fun q' v => p = .operatore → Operato s v.1 q'.2) ?_).weaken fun _ _ _ => trivial
    by_cases hp : p = .operatore
    · subst hp
      exact (Prog.safe_bind ..).mpr ((safe_operato s l).mono fun s' v h _ => h)
    · refine ((safe_giro (p, s) l).mono fun q' v _ h => absurd h hp)
  · rintro d o r hm fd n r' heq
    cases heq
    exact hm fd n _ rfl
  · exact ⟨risultato_iniziale, rfl, iff_of_true rfl .nil⟩
  · rintro past ⟨p, s⟩ l tr ⟨p', s'⟩ l' h - ⟨hg, ho⟩ hA
    by_cases hp : p = .operatore
    · subst hp
      refine h.operato (ho rfl) fun r hr => ?_
      obtain ⟨fd, n, hmem⟩ := mem_letture hr
      obtain ⟨v, hv⟩ := hA.of_mem hmem
      exact hv fd n r rfl rfl
    · exact h.resta (fun h => absurd h hp) (hg.result_eq hp)

end Operatore

/-! ## The student's booking -/

section Studente

variable {σ E α β : Type} {S : Solo Sys Sys.Ans σ E} {tr : List Evento}

/-- What the student's program puts in front of the outcome of a booking. -/
def primaEsito (t : Bytes) : Bytes := ascii "\nEsito operazione: " ++ t ++ [10]

/-- What a booking has found and shown before its last print: the buffer, and what it happened to hold,
    printed before the reply is read. -/
def Avviata (tr : List Evento) : Prop :=
  memorie tr = [] ∨ ∃ b, memorie tr = [b] ∧
    (stampe tr = [] ∨ ∃ t, Stringa b t ∧ stampe tr = [primaEsito t])

/-- What a turn of the student's program finds, reads and shows when it is a booking. -/
def Prenotato (tr : List Evento) : Prop :=
  memorie tr = [] ∨ ∃ b r t₁ t₂, memorie tr = [b] ∧ letture tr = [r] ∧
    stampe tr = [primaEsito t₁, t₂ ++ [10]] ∧ Stringa b t₁ ∧ Stringa (b.overlay r) t₂

/-- A program that has no uninitialised buffer of 255 bytes. -/
abbrev Senza (p : Programma α) : Prop :=
  p.Only (fun _ _ => True) (· ≠ .indeterminato 255) fun _ => True

/-- A silent program finds no buffer. -/
theorem Muto.senza {p : Programma α} {P : α → Prop} (hp : Muto p P) : Senza p := by
  refine (hp.mono fun _ _ => trivial).weaken (fun _ _ h => h) ?_
  rintro o ho rfl
  exact ho

theorem Senza.bind {p : Programma α} {f : α → Programma β} (hp : Senza p) (hf : ∀ a, Senza (f a)) :
    Senza (p >>= f) :=
  (Prog.only_bind p f _).mpr (hp.mono fun a _ => hf a)

theorem senza_call {o : Sys} {k : o.Ans → Programma α} (ho : o ≠ .indeterminato 255)
    (hk : ∀ r, Senza (k r)) : Senza (.call o k) :=
  Prog.only_call.mpr ⟨ho, fun r _ => hk r⟩

/-- One call of that kind adds no buffer. -/
theorem memorie_snoc {o : Sys} {r : o.Ans} (ho : o ≠ .indeterminato 255) :
    memorie (tr ++ [⟨o, r⟩]) = memorie tr := by
  have hn : memorie [⟨o, r⟩] = [] := by
    cases o with
    | indeterminato n =>
      have hne : n ≠ 255 := fun h => ho (h ▸ rfl)
      simp [memorie, hne]
    | _ => rfl
  rw [memorie_append, hn, List.append_nil]

/-- A turn of such a program is no booking. -/
theorem Senza.prenotato {p : Programma α} (hp : Senza p) {v : Solo.View Sys Sys.Ans E}
    (hv : memorie v.1 = []) :
    p.Safe (S.answers fun _ _ _ => True) (fun v _ => Avviata v.1) (fun _ v' => Prenotato v'.1) v := by
  refine (Prog.Only.safe (K := fun u : Solo.View Sys Sys.Ans E => memorie u.1 = []) hp
    (fun _ _ hu _ => Or.inl hu) ?_ hv).mono fun a v' hv' => Or.inl hv'.2
  rintro u o r u' hu ho ⟨-, htr, -⟩
  refine ⟨trivial, ?_⟩
  rw [htr, memorie_snoc ho, hu]

namespace ProgStudente

/-- The login has a zeroed buffer for its answer. -/
theorem senza_accesso (s : ProgStudente) : Senza s.accesso := by
  refine (muto_scanInt _).senza.bind fun mat => senza_call nofun fun _ => ?_
  refine (muto_leggiRiga _).senza.bind fun pass => senza_call nofun fun _ => senza_call nofun fun _ => ?_
  refine senza_call nofun fun r => (muto_cString _).senza.bind fun state => senza_call nofun fun _ => ?_
  show Senza (if state = negato then _ else _)
  split
  · exact senza_call nofun nofun
  · trivial

/-- A list is read into its own three variables: by the number of rows. -/
theorem senza_righe (sockfd : Int) : ∀ (n : Nat) (id : Buffer 4) (name : Buffer 255) (date : Buffer 12),
    Senza (righe sockfd id name date n)
  | 0, _, _, _ => trivial
  | n + 1, id, name, date => by
    refine senza_call nofun fun _ => senza_call nofun fun _ => senza_call nofun fun _ => ?_
    refine (muto_cString _).senza.bind fun nome => (muto_cString _).senza.bind fun data => ?_
    exact senza_call nofun fun _ => senza_righe sockfd n _ _ _

theorem senza_riceviElenco (sockfd : Int) (s : ProgStudente) : Senza (riceviElenco sockfd s) := by
  refine senza_call (by decide) fun b => senza_call nofun fun r => ?_
  show Senza (if (b.overlay r).toInt = 0 then _ else _)
  split
  · exact senza_call nofun fun _ => trivial
  · exact senza_call (by decide) fun id => (senza_righe _ _ _ _ _).bind fun _ => trivial

theorem senza_visualizza (s : ProgStudente) : Senza s.visualizza := by
  refine (muto_scanInt _).senza.bind fun req => senza_call nofun fun _ => senza_call nofun fun _ => ?_
  show Senza (if req = 2 then _ else _)
  split
  · exact (muto_leggiRiga _).senza.bind fun exam => senza_call nofun fun _ => senza_riceviElenco _ _
  · exact senza_riceviElenco _ _

end ProgStudente

/-- **A booking**: the buffer is found as memory left it, printed, read into, and printed again. What is
    shown is decided by these four things. -/
theorem safe_prenotaAppello (s : ProgStudente) {v : Solo.View Sys Sys.Ans E} (hv : Visto [] [] [] v.1) :
    s.prenotaAppello.Safe (S.answers fun _ _ _ => True) (fun v _ => Avviata v.1)
      (fun _ v' => Prenotato v'.1) v := by
  have hP₀ : ∀ {rs ts} tr, Visto rs ts [] tr → Avviata tr := fun _ h => Or.inl h.memorie
  refine ⟨hP₀ _ hv, fun c v₁ hv₁ => ?_⟩
  have h₁ : Visto [] [] [] v₁.1 := hv₁.2.1 ▸ hv.indeterminato4
  refine (muto_scanInt _).poi h₁ (fun v _ => hP₀ v.1) fun cod v₂ _ h₂ => ⟨hP₀ _ h₂, fun _ v₃ hv₃ => ?_⟩
  have h₃ : Visto [] [] [] v₃.1 := hv₃.2.1 ▸ h₂.muta trivial
  refine ⟨hP₀ _ h₃, fun _ v₄ hv₄ => ?_⟩
  have h₄ : Visto [] [] [] v₄.1 := hv₄.2.1 ▸ h₃.muta trivial
  refine ⟨hP₀ _ h₄, fun _ v₅ hv₅ => ?_⟩
  have h₅ : Visto [] [] [] v₅.1 := hv₅.2.1 ▸ h₄.muta trivial
  refine ⟨hP₀ _ h₅, fun b v₆ hv₆ => ?_⟩
  -- from here on the buffer is there: first as it was found, then with the reply in it
  have h₆ : Visto [] [] [b] v₆.1 := hv₆.2.1 ▸ h₅.indeterminato
  have hP₁ : ∀ {rs} tr, Visto rs [] [b] tr → Avviata tr :=
    fun _ h => Or.inr ⟨b, h.memorie, Or.inl h.stampe⟩
  refine (muto_cString b).poi h₆ (fun v _ => hP₁ v.1) fun t₁ v₇ ht₁ h₇ => ⟨hP₁ _ h₇, fun _ v₈ hv₈ => ?_⟩
  have h₈ : Visto [] [primaEsito t₁] [b] v₈.1 := hv₈.2.1 ▸ h₇.printf
  have hP₂ : ∀ {rs} tr, Visto rs [primaEsito t₁] [b] tr → Avviata tr :=
    fun _ h => Or.inr ⟨b, h.memorie, Or.inr ⟨t₁, ht₁, h.stampe⟩⟩
  refine ⟨hP₂ _ h₈, fun r v₉ hv₉ => ?_⟩
  have h₉ : Visto [r] [primaEsito t₁] [b] v₉.1 := hv₉.2.1 ▸ h₈.read
  refine (muto_cString _).poi h₉ (fun v _ => hP₂ v.1) fun t₂ v' ht₂ h' => ⟨hP₂ _ h', fun _ v'' hv'' => ?_⟩
  have h'' : Visto [r] [primaEsito t₁, t₂ ++ [10]] [b] v''.1 := hv''.2.1 ▸ h'.printf
  exact Or.inr ⟨b, r, t₁, t₂, h''.memorie, h''.letture, h''.stampe, ht₁, ht₂⟩

/-- A turn of the student's program, which is a booking or has no such buffer: in all others nothing of
    this kind is printed. -/
theorem safe_prenotato (p : PuntoStud) (e : E) : (ProgStudente.giro p).Safe (S.answers fun _ _ _ => True)
    (fun v _ => Avviata v.1) (fun _ v => Prenotato v.1) ([], e) := by
  cases p with
  | accesso s =>
    refine Senza.prenotato ?_ rfl
    exact (ProgStudente.senza_accesso s).bind fun _ => trivial
  | menu s =>
    -- before a booking begins, nothing of it was seen
    have hP₀ : ∀ {rs ts} tr, Visto rs ts [] tr → Avviata tr := fun _ h => Or.inl h.memorie
    refine (Prog.safe_bind ..).mpr ?_
    refine (muto_scanInt _).poi visto_nil (fun v _ => hP₀ v.1) fun request v₁ _ h₁ => ⟨hP₀ _ h₁, fun _ v₂ hv₂ => ?_⟩
    have h₂ : Visto [] [] [] v₂.1 := hv₂.2.1 ▸ h₁.muta trivial
    refine ⟨hP₀ _ h₂, fun _ v₃ hv₃ => ?_⟩
    have h₃ : Visto [] [] [] v₃.1 := hv₃.2.1 ▸ h₂.muta trivial
    show Prog.Safe _ _ (if request = 1 then _ else if request = 2 then _ else if request = 3 then _ else _) _ _
    split
    · exact (ProgStudente.senza_visualizza _).prenotato h₃.memorie
    · split
      · exact (Prog.safe_bind ..).mpr ((safe_prenotaAppello _ h₃).mono fun _ v h => h)
      · split
        · refine ⟨hP₀ _ h₃, fun _ v₄ hv₄ => ?_⟩
          have h₄ : Visto [] [] [] v₄.1 := hv₄.2.1 ▸ h₃.muta trivial
          exact ⟨hP₀ _ h₄, nofun⟩
        · exact Or.inl h₃.memorie

/-- A booking has shown nothing but what it received: an empty outcome in front, then the reply up to
    its NUL. -/
def Mostrato (tr : List Evento) : Prop :=
  stampe tr <+: primaEsito [] :: (letture tr).map fun r => cstr r ++ [10]

/-- Its buffer happened to start with a NUL, and to have one behind the reply, if that brought none.
    Nothing in the code sees to either. -/
def Pulito (tr : List Evento) : Prop :=
  ∀ b ∈ memorie tr, b.bytes.head? = some 0 ∧ ∀ r ∈ letture tr, (0 : Byte) ∈ r ∨
    b.bytes[r.length]? = some 0

/-- The reply is a text of at most 254 bytes, or brings its NUL. -/
def Breve (r : Bytes) : Prop := r.length ≤ 254 ∨ r.length ≤ 255 ∧ (0 : Byte) ∈ r

/-- What a buffer holds is empty exactly when it starts with a NUL, so the early print shows nothing
    just then. -/
theorem stringa_nil_iff {b : Buffer 255} {t : Bytes} (ht : Stringa b t) :
    t = [] ↔ b.bytes.head? = some 0 := by
  obtain ⟨c, cs, hb⟩ : ∃ c cs, b.bytes = c :: cs := by
    cases hb : b.bytes with
    | nil =>
      have hlen := b.size_eq
      rw [hb] at hlen
      cases hlen
    | cons c cs => exact ⟨c, cs, rfl⟩
  rw [hb, List.head?_cons, Option.some.injEq]
  by_cases hc : c = 0
  · subst hc
    refine iff_of_true ?_ rfl
    rw [(stringa_of_mem (hb ▸ List.mem_cons_self)).mp ht, hb, cstr_cons_zero]
  · refine iff_of_false ?_ hc
    rintro rfl
    rcases ht with ⟨-, h⟩ | ⟨-, dietro, h⟩
    · rw [hb, cstr_cons cs hc] at h
      cases h
    · rw [hb] at h
      cases h

/-- What was received is the string in the buffer when a NUL follows it: one that came with it, or one
    that memory has at the next place. -/
theorem stringa_ricevuta {b : Buffer 255} {r t : Bytes} (hr : Breve r) (ht : Stringa (b.overlay r) t) :
    t = cstr r ↔ (0 : Byte) ∈ r ∨ b.bytes[r.length]? = some 0 := by
  have hn : r.length ≤ 255 := hr.elim (fun h => h.trans (by decide)) And.left
  have hbytes := Buffer.overlay_bytes_of_le (b := b) hn
  -- either the reply ends itself, or the byte behind it decides
  by_cases h0 : (0 : Byte) ∈ r
  · refine iff_of_true ?_ (Or.inl h0)
    have hmem : (0 : Byte) ∈ (b.overlay r).bytes := hbytes ▸ List.mem_append_left _ h0
    rw [(stringa_of_mem hmem).mp ht, hbytes, cstr_append_of_mem h0]
  · have hlt : r.length < b.bytes.length := by
      rw [b.size_eq]
      exact Nat.lt_succ_of_le (hr.resolve_right fun h => h0 h.2)
    have hdrop : b.bytes.drop r.length = b.bytes[r.length] :: b.bytes.drop (r.length + 1) :=
      List.drop_eq_getElem_cons hlt
    rw [or_iff_right h0, List.getElem?_eq_getElem hlt, Option.some.injEq, cstr_of_notMem h0]
    rw [hdrop] at hbytes
    by_cases hz : b.bytes[r.length] = 0
    · refine iff_of_true ?_ hz
      rw [hz] at hbytes
      have hmem : (0 : Byte) ∈ (b.overlay r).bytes := by
        rw [hbytes]
        exact List.mem_append_right _ List.mem_cons_self
      rw [(stringa_of_mem hmem).mp ht, hbytes, cstr_append_of_notMem h0, cstr_cons_zero, List.append_nil]
    · refine iff_of_false ?_ hz
      rintro rfl
      -- the string then has one byte more than the reply at least
      rcases ht with ⟨-, h⟩ | ⟨-, dietro, h⟩
      · rw [hbytes, cstr_append_of_notMem h0, cstr_cons _ hz] at h
        exact absurd (congrArg List.length h) (by simp)
      · rw [hbytes] at h
        have hlen := congrArg List.length h
        rw [List.length_append, List.length_append, List.length_cons] at hlen
        omega

/-- **A booking** has shown what it received exactly when its buffer was clean: empty before the read,
    and ended behind it. -/
theorem Prenotato.mostrato_iff (h : Prenotato tr) (hm : memorie tr ≠ [])
    (hr : ∀ r ∈ letture tr, Breve r) :
    Mostrato tr ↔ Pulito tr := by
  obtain ⟨b, r, t₁, t₂, hb, hl, hs, ht₁, ht₂⟩ := h.resolve_left hm
  have hr := hr r (hl ▸ List.mem_singleton_self r)
  have hpulito : Pulito tr ↔ t₁ = [] ∧ t₂ = cstr r := by
    rw [Pulito, hb, hl, List.forall_mem_singleton, List.forall_mem_singleton, stringa_nil_iff ht₁,
      stringa_ricevuta hr ht₂]
  rw [hpulito, Mostrato, hl, hs]
  constructor
  · intro hpre
    have heq := hpre.eq_of_length rfl
    obtain ⟨hprima, hdopo⟩ := List.cons.inj heq
    exact ⟨List.append_cancel_left (List.append_cancel_right hprima),
      List.append_cancel_right (List.cons.inj hdopo).1⟩
  · rintro ⟨rfl, rfl⟩
    exact List.prefix_rfl

theorem Avviata.mostrato (h : Avviata tr) (hm : memorie tr ≠ []) (hp : Pulito tr) : Mostrato tr := by
  obtain ⟨b, hb, hs⟩ := h.resolve_left hm
  rcases hs with hs | ⟨t, ht, hs⟩
  · rw [Mostrato, hs]
    exact List.nil_prefix
  · obtain rfl := (stringa_nil_iff ht).mpr (hp b (hb ▸ List.mem_singleton_self b)).1
    rw [Mostrato, hs]
    exact List.cons_prefix_cons.mpr ⟨rfl, List.nil_prefix⟩

end Studente

/-! ## Every run -/

/-- Every turn of the student's program that is over has printed what a booking prints, and the one at work
    will have. -/
theorem prenotati_run {st : ProgStudente} {ingresso : Bytes} {d : StatoPostazione}
    (hd : Solo.Reach postazione (fun _ _ => True) (seduta st ingresso) d) : (∀ t ∈ d.past, Prenotato t.2) ∧
    d.prog.Safe (postazione.answers fun _ _ _ => True) (fun v _ => Avviata v.1)
      (fun _ v => ∀ t ∈ d.past ++ [(d.turn, v.1)], Prenotato t.2) (d.trace, d.env) := by
  have h0 : ∀ t ∈ ([] : Solo.Past Sys Sys.Ans PuntoStud), Prenotato t.2 := fun t ht => absurd ht List.not_mem_nil
  have hturn : ∀ (past : Solo.Past Sys Sys.Ans PuntoStud) (p : PuntoStud) (e : Bytes),
      (∀ t ∈ past, Prenotato t.2) → True →
      (ProgStudente.giro p).Safe (postazione.answers fun _ _ _ => True) (fun v _ => Avviata v.1)
        (fun _ v => ∀ t ∈ past ++ [(p, v.1)], Prenotato t.2) ([], e) := by
    intro past p e h _
    refine (safe_prenotato p e).mono fun p' v hv t ht => ?_
    rcases List.mem_append.mp ht with ht | ht
    · exact h t ht
    · rw [List.mem_singleton.mp ht]
      exact hv
  obtain ⟨_, hpast, -⟩ := Solo.Reach.began (A := fun _ _ _ _ _ => True) (B := fun _ _ _ => True)
    (P := fun _ v _ => Avviata v.1) (I := fun past _ _ => ∀ t ∈ past, Prenotato t.2) (fun _ _ _ _ => trivial)
    (fun _ _ _ _ => trivial) h0 trivial hturn hd
  exact ⟨hpast, Solo.Reach.local (A := fun _ _ _ _ _ => True) (B := fun _ _ _ => True)
    (P := fun _ v _ => Avviata v.1) (I := fun past _ _ => ∀ t ∈ past, Prenotato t.2) (fun _ _ _ _ => trivial)
    (fun _ _ _ _ => trivial) h0 trivial hturn hd⟩

/-- **What is shown is what was received.**  The operator is shown the replies, in their order, exactly when
    none is shorter than one before it.  A student is shown nothing but the reply when the buffer was
    clean, and, once the booking is done, only then. -/
theorem esiti_iff (sockfd listenfd logical : Int) (behaviour : Buffer 4) (slots : Nat → ClientStud)
    (clienti : Nat → Bytes) (st : ProgStudente) (ingresso : Bytes) :
    (∀ d q, Solo.Reach (sportello sockfd) RisposteBrevi
        (apertura sockfd listenfd behaviour logical slots clienti) d → d.prog = .ret q →
      (mostrate (d.past ++ [(d.turn, d.trace)]) = (lette (d.past ++ [(d.turn, d.trace)])).map esitoDi ↔
        Crescenti (lette (d.past ++ [(d.turn, d.trace)])))) ∧
    ∀ d, Solo.Reach postazione (fun _ _ => True) (seduta st ingresso) d →
      ∀ t ∈ d.past ++ [(d.turn, d.trace)], memorie t.2 ≠ [] → (∀ r ∈ letture t.2, Breve r) →
        (Pulito t.2 → Mostrato t.2) ∧ (t ∈ d.past → Mostrato t.2 → Pulito t.2) := by
  refine ⟨fun d q hd hq => (aggiornata_run hd hq).giuste, fun d hd t ht hm hbrevi => ?_⟩
  obtain ⟨hpast, hsafe⟩ := prenotati_run hd
  rcases List.mem_append.mp ht with ht | ht
  · have hiff := (hpast t ht).mostrato_iff hm hbrevi
    exact ⟨hiff.mpr, fun _ => hiff.mp⟩
  · obtain rfl := List.mem_singleton.mp ht
    refine ⟨fun hp => ?_, fun ht => ?_⟩
    · exact hsafe.now (fun _ h => h.mostrato hm hp) fun _ h =>
        ((h _ (List.mem_append_right _ (List.mem_singleton_self _))).mostrato_iff hm hbrevi).mpr hp
    · exact ((hpast _ ht).mostrato_iff hm hbrevi).mp

/-- The operator adds an appello, is answered `risposta`, and is shown `mostrata`. -/
def richiestaOperatore (risposta mostrata : Bytes) : List MossaSegreteria := [
  .turn, .act (.select 5 [4, 3] [4, 3]) (some ([], [3])), .turn, .turn, .act .scanf (some 2),
  .act .pulisciInput (), .act (.write 3 (Buffer.ofInt 1).bytes) (),
  .act (.fgets 255) (some (ascii "prog1\n")), .act (.write 3 (ascii "prog1")) (),
  .act (.fgets 12) (some (ascii "2024-09-09\n")), .act (.write 3 (ascii "2024-09-09")) (),
  .act (.read 3 255) risposta, .act (.printf (esitoDi mostrata)) ()]

/-- A student logs in and books. -/
def prenotazioneBattuta : List (Solo.Move Sys Sys.Ans) := [
  .act .scanf (some 7), .act .pulisciInput (), .act (.fgets 255) (some (ascii "pw\n")),
  .act (.write 3 (Buffer.ofInt 7).bytes) (),
    .act (.write 3 ((Buffer.zero 255).overlay (ascii "pw")).bytes) (),
  .act (.read 3 255) (ascii "ok"), .act (.printf (ascii "\nEsito login: ok")) (), .turn,
  .act .scanf (some 2), .act .pulisciInput (), .act (.write 3 (Buffer.ofInt 2).bytes) (),
  .act (.indeterminato 4) (Buffer.zero 4), .act .scanf (some 12), .act .pulisciInput (),
  .act (.write 3 (Buffer.ofInt 12).bytes) (), .act (.write 3 (Buffer.ofInt 7).bytes) (),
  .act (.indeterminato 255) (Buffer.zero 255), .act (.printf (primaEsito [])) (),
  .act (.read 3 255) (ascii "prenotata"), .act (.printf (ascii "prenotata\n")) (), .turn]

/-- The secretary at its start, with nobody connecting. -/
def aperturaVuota : StatoSegreteria :=
  apertura 3 4 (Buffer.zero 4) 0 (fun _ => ⟨0, Buffer.zero 4⟩) fun _ => []

/-- `RisposteBrevi`, as a test. -/
def risposteBrevi (d : StatoSegreteria) : MossaSegreteria → Bool
  | .act (.read _ _) r => r.length ≤ 254 && !r.contains 0
  | _ => true

theorem risposteBrevi_ok (d : StatoSegreteria) (m : MossaSegreteria) (h : risposteBrevi d m = true) :
    RisposteBrevi d m := by
  rintro fd n r rfl -
  simpa [risposteBrevi] using h

/-- Where `d` is at the head of a loop, the replies read and the outcomes shown. -/
def esitiDi (d : StatoSegreteria) : Option (List Bytes × List Bytes) :=
  match d.prog with
  | .ret _ => some (lette (d.past ++ [(d.turn, d.trace)]), mostrate (d.past ++ [(d.turn, d.trace)]))
  | .call _ _ => none

/-- What was evaluated at the head of a loop is what the theorem speaks of. -/
theorem esitiDi_eq_some {d : StatoSegreteria} {rs ts : List Bytes} (h : esitiDi d = some (rs, ts)) :
    ∃ q, d.prog = .ret q ∧ lette (d.past ++ [(d.turn, d.trace)]) = rs ∧
      mostrate (d.past ++ [(d.turn, d.trace)]) = ts := by
  unfold esitiDi at h
  split at h
  · rename_i q hq
    obtain ⟨hl, hm⟩ := Prod.mk.inj (Option.some.inj h)
    exact ⟨q, hq, hl, hm⟩
  · cases h

/-- A reply of each kind is shown as it is, to the operator and to a student whose buffer was clean. -/
theorem esiti_uno : (∃ d : StatoSegreteria, lette (d.past ++ [(d.turn, d.trace)]) = [ascii "fatto"] ∧
      mostrate (d.past ++ [(d.turn, d.trace)]) = [esitoDi (ascii "fatto")]) ∧
    ∃ d : StatoPostazione, ∃ t ∈ d.past, letture t.2 = [ascii "prenotata"] ∧ Mostrato t.2 := by
  obtain ⟨hoperatore, hstudente⟩ := esiti_iff 3 4 0 (Buffer.zero 4) (fun _ => ⟨0, Buffer.zero 4⟩) (fun _ => [])
    ⟨3, 0, 0, Buffer.zero 4⟩ (ascii "7\npw\n2\n12\n")
  constructor
  · have hrun : ((sportello 3).run risposteBrevi aperturaVuota
        (richiestaOperatore (ascii "fatto") (ascii "fatto"))).bind esitiDi =
        some ([ascii "fatto"], [esitoDi (ascii "fatto")]) := by decide +kernel
    obtain ⟨d, hd, heq⟩ := Option.bind_eq_some_iff.mp hrun
    obtain ⟨q, hq, hl, -⟩ := esitiDi_eq_some heq
    refine ⟨d, hl, ?_⟩
    rw [(hoperatore d q (Solo.reach_run risposteBrevi_ok _ .init hd) hq).mpr (by rw [hl]; exact .cons nofun .nil), hl]
    rfl
  · -- the student's buffer happens to be zeroed, and its one reply is short
    have hrun : (postazione.run (fun _ _ => true) (seduta ⟨3, 0, 0, Buffer.zero 4⟩
        (ascii "7\npw\n2\n12\n")) prenotazioneBattuta).map (fun d => d.past.map fun t => (letture t.2, memorie t.2)) =
        some [([ascii "ok"], []), ([ascii "prenotata"], [Buffer.zero 255])] := by decide +kernel
    obtain ⟨d, hd, heq⟩ := Option.map_eq_some_iff.mp hrun
    have hreach := Solo.reach_run (C := fun _ _ => True) (fun _ _ _ => trivial) _ .init hd
    obtain ⟨t, ht, hts⟩ : ∃ t ∈ d.past,
      (letture t.2, memorie t.2) = ([ascii "prenotata"], [Buffer.zero 255]) := by
      have hmem : ([ascii "prenotata"], [Buffer.zero 255]) ∈
          d.past.map fun t => (letture t.2, memorie t.2) := by
        rw [heq]
        exact List.mem_cons_of_mem _ List.mem_cons_self
      exact List.mem_map.mp hmem
    obtain ⟨hl, hm⟩ := Prod.mk.inj hts
    refine ⟨d, t, ht, hl, ?_⟩
    refine ((hstudente d hreach t (List.mem_append_left _ ht) (by rw [hm]; exact List.cons_ne_nil _ _) ?_).1 ?_)
    · intro r hr
      rw [hl, List.mem_singleton] at hr
      rw [hr]
      exact Or.inl (by decide)
    · intro b hb
      rw [hm, List.mem_singleton] at hb
      rw [hb, hl, List.forall_mem_singleton]
      exact ⟨rfl, Or.inr rfl⟩

/-- The end of a longer reply shows behind a shorter one: `result` is never cleared, and a reply brings
    no NUL. -/
theorem esito_sporco : ¬ ∀ (sockfd listenfd logical : Int) (behaviour : Buffer 4) (slots : Nat → ClientStud)
      (clienti : Nat → Bytes) (st : ProgStudente) (ingresso : Bytes),
    (∀ d q, Solo.Reach (sportello sockfd) RisposteBrevi
        (apertura sockfd listenfd behaviour logical slots clienti) d → d.prog = .ret q →
      mostrate (d.past ++ [(d.turn, d.trace)]) = (lette (d.past ++ [(d.turn, d.trace)])).map esitoDi) ∧
    ∀ d, Solo.Reach postazione (fun _ _ => True) (seduta st ingresso) d →
      ∀ t ∈ d.past ++ [(d.turn, d.trace)], memorie t.2 ≠ [] → (∀ r ∈ letture t.2, Breve r) →
        Mostrato t.2 := by
  intro h
  have hoperatore := (h 3 4 0 (Buffer.zero 4) (fun _ => ⟨0, Buffer.zero 4⟩) (fun _ => [])
    ⟨3, 0, 0, Buffer.zero 4⟩ []).1
  have hrun : ((sportello 3).run risposteBrevi aperturaVuota
      (richiestaOperatore (ascii "completato") (ascii "completato") ++
        .turn :: richiestaOperatore (ascii "errore") (ascii "erroretato"))).bind esitiDi =
      some ([ascii "completato", ascii "errore"],
        [esitoDi (ascii "completato"), esitoDi (ascii "erroretato")]) := by decide +kernel
  obtain ⟨d, hd, heq⟩ := Option.bind_eq_some_iff.mp hrun
  obtain ⟨q, hq, hl, hm⟩ := esitiDi_eq_some heq
  have hclaim := hoperatore d q (Solo.reach_run risposteBrevi_ok _ .init hd) hq
  rw [hl, hm] at hclaim
  exact absurd hclaim (by decide +kernel)

end Universita

/-
  THE NUMBERS TYPED — what the menus of the two consoles act on.

  A menu reads a number with `scanf("%d")` and then drains the line.  Where no number is typed the variable
  keeps its value, and the menu acts on that one; and a text line that does not fit its buffer leaves its
  end to the next menu.

  The property compares two lists for each console.  Of the student's program: the numbers it SENT are the numbers
  it converted, in their order, each from the beginning of a typed line.  Of the secretary's: an insertion was STARTED
  in exactly the turns in which a 2 was converted.  Nothing is said of what the user meant; what was typed is what is
  on the input stream, line by line (`LineStart`).

  The condition is on what is on the input when a program turns to it: a numeral of an `int` where it wants a number
  (`Numerata`), a line that fits where it wants a text.  The secretary may also find no number as long as its last
  choice was not the insertion, since repeating it then starts nothing.

  The proof carries one description of a turn through every call (`Battuto`): what was converted, what was written, that
  the rest of the input is an end of it, and whether that rest starts a line.  A conversion loses the last part, and the
  loop that drains the line wins it back; so at every `scanf` of a menu it is there.

  Contents:
  1. `numeri`, `testiScritti` — the integers converted and the texts written in a piece of a run.
  2. `banco` — the secretary's program at its keyboard.
  3. `Battuto` — what was converted and written so far, and where the keyboard is.
  4. `ProgStudente.Obbediente`, `Segreteria.Obbediente` — the numbers sent, and the insertions started, are
     those converted, each from the beginning of a typed line.
  5. **`solo_digitati`** — in every run in which each menu finds a number and each text line fits.
-/
import Universita.Console

set_option linter.unusedVariables false

namespace Universita

open Lib

/-- The integers `scanf` has converted in a piece of a run. -/
def numeri (tr : List Evento) : List Int :=
  tr.filterMap fun
    | ⟨.scanf, n⟩ => n
    | _ => none

/-- What was written in a piece of a run. -/
def testiScritti (tr : List Evento) : List Bytes :=
  tr.filterMap fun
    | ⟨.write _ bs, _⟩ => some bs
    | _ => none

/-- The `int` that a receiver finds in four bytes. -/
def interoDi (bs : Bytes) : Int := ((Buffer.zero 4).overlay bs).toInt

/-- `s` begins, after blanks, with a numeral of an `int`. A numeral out of that range would be converted
    to something C does not define. -/
def Numerata (s : Bytes) : Prop := ∃ n, Numeral n s ∧ -2 ^ 31 ≤ n ∧ n < 2 ^ 31

theorem interoDi_ofInt {n : Int} (h : -2 ^ 31 ≤ n ∧ n < 2 ^ 31) :
    interoDi (Buffer.ofInt n).bytes = n := by
  rw [interoDi, Buffer.overlay_full, Buffer.toInt_ofInt h.1 h.2]

/-! ## The two consoles -/

/-- A program at its keyboard: the input is a stream that `scanf`, `fgets` and the clearing of a line
    take from; what comes from the sockets is arbitrary. -/
abbrev console {σ : Type} (body : σ → Programma σ) : Solo Sys Sys.Ans σ Bytes where
  body := body
  ans s o r := daPostazione s o r

/-- The secretary's program at its keyboard: what comes from the sockets is arbitrary. -/
def banco : Solo Sys Sys.Ans (Punto × Segreteria) Bytes := console Segreteria.passo

/-- A state of the secretary's run at its keyboard. -/
abbrev StatoBanco := Solo.State Sys Sys.Ans (Punto × Segreteria) Bytes

/-- The start: nothing of the input is read. -/
def bancoAperto (sockfd listenfd logical : Int) (behaviour : Buffer 4) (slots : Nat → ClientStud)
    (ingresso : Bytes) : StatoBanco :=
  banco.start (.esterno, Segreteria.iniziale sockfd listenfd behaviour logical slots) ingresso

/-! ## What was typed -/

/-- The call neither reads the keyboard nor writes. -/
def Sys.Calma : Sys → Prop
  | .scanf | .pulisciInput | .fgets _ | .write _ _ => False
  | _ => True

/-- `ns` were converted and `ws` written; the rest of the input, where `capo` says so, starts a line.
    The invariant inside a turn, kept call by call. -/
structure Battuto (ingresso : Bytes) (capo : Prop) (ns : List Int) (ws : List Bytes)
    (v : Solo.View Sys Sys.Ans Bytes) : Prop where
  /-- The conversions so far ... -/
  numeri : numeri v.1 = ns
  /-- ... the writes so far ... -/
  scritte : testiScritti v.1 = ws
  /-- ... the rest of the input ... -/
  resto : v.2 <:+ ingresso
  /-- ... and, where that is known, that it starts a line. -/
  inizio : capo → LineStart ingresso v.2

section Battuto

variable {ingresso : Bytes} {capo : Prop} {ns : List Int} {ws : List Bytes} {σ α β : Type}
  {body : σ → Programma σ} {A : Solo.View Sys Sys.Ans Bytes → (o : Sys) → o.Ans → Prop}
  {v v' : Solo.View Sys Sys.Ans Bytes}

theorem numeri_append (tr : List Evento) (ev : Evento) : numeri (tr ++ [ev]) = numeri tr ++ numeri [ev] :=
  List.filterMap_append

theorem testiScritti_append (tr : List Evento) (ev : Evento) :
    testiScritti (tr ++ [ev]) = testiScritti tr ++ testiScritti [ev] := List.filterMap_append

/-- One more call: what it converts and writes is added. -/
theorem Battuto.dopo (h : Battuto ingresso capo ns ws v) {o : Sys} {r : o.Ans} {capo' : Prop}
    (htr : v'.1 = v.1 ++ [⟨o, r⟩]) (hresto : v'.2 <:+ ingresso) (hinizio : capo' → LineStart ingresso v'.2) :
    Battuto ingresso capo' (ns ++ Universita.numeri [⟨o, r⟩]) (ws ++ testiScritti [⟨o, r⟩]) v' := by
  refine ⟨?_, ?_, hresto, hinizio⟩
  · rw [htr, numeri_append, h.numeri]
  · rw [htr, testiScritti_append, h.scritte]

/-- ... so a call that converts and writes nothing leaves them. -/
theorem Battuto.muta (h : Battuto ingresso capo ns ws v) {o : Sys} {r : o.Ans} {capo' : Prop}
    (htr : v'.1 = v.1 ++ [⟨o, r⟩]) (hn : Universita.numeri [⟨o, r⟩] = []) (hw : testiScritti [⟨o, r⟩] = [])
    (hresto : v'.2 <:+ ingresso) (hinizio : capo' → LineStart ingresso v'.2) :
    Battuto ingresso capo' ns ws v' := by
  have h' := h.dopo htr hresto hinizio
  rwa [hn, hw, List.append_nil, List.append_nil] at h'

/-- A conversion: a number more if there is one; whether the rest starts a line is not known any more. -/
theorem Battuto.scanf (h : Battuto ingresso capo ns ws v) {r : Option Int}
    (hr : (console body).answers A v .scanf r v') :
    r = (scanD v.2).1 ∧ Battuto ingresso False (ns ++ r.toList) ws v' := by
  obtain ⟨hans, htr, -⟩ := hr
  change (if r = (scanD v.2).1 then some (scanD v.2).2 else none) = some v'.2 at hans
  split at hans
  · rename_i hrs
    have hnumeri : Universita.numeri [⟨.scanf, r⟩] = r.toList := by cases r <;> rfl
    have hresto : v'.2 <:+ ingresso := Option.some.inj hans ▸ (scanD_suffix _).trans h.resto
    have h' := h.dopo htr hresto (False.elim : False → LineStart ingresso v'.2)
    rw [hnumeri] at h'
    exact ⟨hrs, h'.numeri, h'.scritte.trans (List.append_nil _), h'.resto, h'.inizio⟩
  · cases hans

/-- Where a numeral is next, that is what is converted. -/
theorem Battuto.numero (h : Battuto ingresso capo ns ws v) {r : Option Int} {n : Int}
    (hr : (console body).answers A v .scanf r v') (hn : Numeral n v.2) :
    r = some n ∧ Battuto ingresso False (ns ++ [n]) ws v' := by
  obtain ⟨hrs, hb⟩ := h.scanf hr
  rw [scanD_eq_some.mpr hn] at hrs
  subst hrs
  exact ⟨rfl, hb⟩

/-- The line is drained: a line starts. -/
theorem Battuto.pulisci (h : Battuto ingresso capo ns ws v) {u : Unit}
    (hr : (console body).answers A v .pulisciInput u v') : Battuto ingresso True ns ws v' := by
  obtain ⟨hans, htr, -⟩ := hr
  have hs : skipLine v.2 = v'.2 := Option.some.inj hans
  refine h.muta htr rfl rfl ?_ fun _ => ?_
  · rw [← hs]
    exact (skipLine_suffix _).trans h.resto
  · rw [← hs]
    exact lineStart_skipLine h.resto

theorem Battuto.write (h : Battuto ingresso capo ns ws v) {fd : Int} {bs : Bytes} {u : Unit}
    (hr : (console body).answers A v (.write fd bs) u v') : Battuto ingresso capo ns (ws ++ [bs]) v' := by
  obtain ⟨hans, htr, -⟩ := hr
  have hs : v.2 = v'.2 := Option.some.inj hans
  have h' := h.dopo htr (hs ▸ h.resto) fun hc => hs ▸ h.inizio hc
  exact ⟨h'.numeri.trans (List.append_nil _), h'.scritte, h'.resto, h'.inizio⟩

/-- A line that fits is taken whole: a line starts behind it. One that does not fit would leave its end,
    and the next menu would take a number from there. -/
theorem Battuto.fgets (h : Battuto ingresso capo ns ws v) {n : Nat} {r : Option Bytes}
    (hr : (console body).answers A v (.fgets n) r v') (hfit : LineFits (n - 1) v.2) :
    Battuto ingresso True ns ws v' := by
  obtain ⟨hans, htr, -⟩ := hr
  change (if r = (Lib.fgets n v.2).1 then some (Lib.fgets n v.2).2 else none) = some v'.2 at hans
  split at hans
  · have hs := Option.some.inj hans
    refine h.muta htr rfl rfl ?_ fun _ => ?_
    · rw [← hs]
      exact (fgets_suffix n _).trans h.resto
    · rw [← hs]
      exact lineStart_fgets h.resto hfit
  · cases hans

/-- The other calls change nothing of this: they take nothing from the keyboard and send no number. -/
theorem Battuto.calma (h : Battuto ingresso capo ns ws v) {o : Sys} {r : o.Ans} (ho : o.Calma)
    (hr : (console body).answers A v o r v') : Battuto ingresso capo ns ws v' := by
  obtain ⟨hans, htr, -⟩ := hr
  have hev : Universita.numeri [⟨o, r⟩] = [] ∧ testiScritti [⟨o, r⟩] = [] ∧ v.2 = v'.2 := by
    cases o with
    | scanf => exact absurd ho id
    | pulisciInput => exact absurd ho id
    | fgets n => exact absurd ho id
    | write fd bs => exact absurd ho id
    | read fd n =>
      change (if r.length ≤ n then some v.2 else none) = some v'.2 at hans
      split at hans
      · exact ⟨rfl, rfl, Option.some.inj hans⟩
      · cases hans
    | _ => exact ⟨rfl, rfl, Option.some.inj hans⟩
  obtain ⟨hn, hw, hs⟩ := hev
  exact h.muta htr hn hw (hs ▸ h.resto) fun hc => hs ▸ h.inizio hc

/-- Such calls only. -/
abbrev Calmo (p : Programma α) : Prop := p.Only (fun _ _ => True) Sys.Calma fun _ => True

/-- A part that neither reads the keyboard nor writes leaves all of it as it is. -/
theorem Calmo.safe {p : Programma α} (hp : Calmo p) {P : Solo.View Sys Sys.Ans Bytes → Sys → Prop}
    (hv : Battuto ingresso capo ns ws v) (hP : ∀ v o, Battuto ingresso capo ns ws v → P v o) :
    p.Safe ((console body).answers A) P (fun _ v' => Battuto ingresso capo ns ws v') v :=
  (Prog.Only.safe (K := fun v => Battuto ingresso capo ns ws v) hp (fun u o hu _ => hP u o hu)
    (fun u o r u' hu ho hr => ⟨trivial, hu.calma ho hr⟩) hv).mono fun _ _ h => h.2

theorem Calmo.bind {p : Programma α} {f : α → Programma β} (hp : Calmo p) (hf : ∀ a, Calmo (f a)) :
    Calmo (p >>= f) :=
  (Prog.only_bind p f _).mpr (hp.mono fun a _ => hf a)

theorem calmo_call {o : Sys} {k : o.Ans → Programma α} (ho : o.Calma) (hk : ∀ r, Calmo (k r)) :
    Calmo (.call o k) :=
  Prog.only_call.mpr ⟨ho, fun r _ => hk r⟩

theorem calmo_cString {n : Nat} (b : Buffer n) : Calmo (cString b) := by
  rw [cString]
  split
  · trivial
  · exact calmo_call trivial fun _ => trivial

theorem calmo_tagliaFine {n : Nat} (b : Buffer n) : Calmo (tagliaFine b) := by
  refine (calmo_cString b).bind fun testo => ?_
  split
  · exact calmo_call trivial nofun
  · trivial

/-- A line prompt whose line fits leaves the keyboard at the start of the next line; a longer one would
    leave its end to the next prompt. -/
theorem Battuto.leggiRiga (h : Battuto ingresso capo ns ws v) {n : Nat} {b : Buffer n}
    {f : Buffer n → Programma β} {P : Solo.View Sys Sys.Ans Bytes → Sys → Prop}
    {Q : β → Solo.View Sys Sys.Ans Bytes → Prop} (hP₀ : P v (.fgets n))
    (hP : ∀ v o, Battuto ingresso True ns ws v → P v o)
    (hfit : ∀ r v', (console body).answers A v (.fgets n) r v' →
      LineFits (n - 1) v.2)
    (hf : ∀ a v', Battuto ingresso True ns ws v' → (f a).Safe ((console body).answers A) P Q v') :
    (Universita.leggiRiga b >>= f).Safe ((console body).answers A) P Q v :=
  ⟨hP₀, fun r v' hr => (Prog.safe_bind (tagliaFine _) _ _ _).mpr
    (((calmo_tagliaFine _).safe (h.fgets hr (hfit r v' hr)) hP).mono hf)⟩

end Battuto

/-! ## The student's program -/

namespace ProgStudente

/-- The numbers a turn of the menu has sent: the command, and the choice or the code behind it. -/
def inviatiDi : PuntoStud × List Evento → List Int
  | (.accesso _, _) => []
  | (.menu _, tr) => ((testiScritti tr).take 2).map interoDi

/-- ... and those it has converted. -/
def convertitiDi : PuntoStud × List Evento → List Int
  | (.accesso _, _) => []
  | (.menu _, tr) => numeri tr

/-- The calls between a conversion and the write of the number. -/
def Invia : Sys → Prop
  | .pulisciInput | .write _ _ => True
  | _ => False

/-- The numbers sent are those converted, in their order, up to the one that is being sent; and a menu asks
    for its number where a line starts. -/
structure Obbediente (ingresso : Bytes) (d : StatoPostazione) : Prop where
  inviati : (d.past ++ [(d.turn, d.trace)]).flatMap inviatiDi <+:
    (d.past ++ [(d.turn, d.trace)]).flatMap convertitiDi
  tutti : (∀ o k, d.prog = .call o k → ¬ Invia o) →
    (d.past ++ [(d.turn, d.trace)]).flatMap inviatiDi = (d.past ++ [(d.turn, d.trace)]).flatMap convertitiDi
  inizio : ∀ k st, d.prog = .call .scanf k → d.turn = .menu st → LineStart ingresso d.env

/-- A menu finds a number, and what is typed as a text fits: the condition on what is typed, at the
    moment it is asked for. -/
def Digitata (d : StatoPostazione) (m : Solo.Move Sys Sys.Ans) : Prop :=
  (∀ r st, m = .act .scanf r → d.turn = .menu st → Numerata d.env) ∧
  ∀ n r, m = .act (.fgets n) r → LineFits (n - 1) d.env

/-- The same, of the answers of a turn. -/
def digitate (p : PuntoStud) (v : Solo.View Sys Sys.Ans Bytes) (o : Sys) : Prop :=
  (∀ st, o = .scanf → p = .menu st → Numerata v.2) ∧ ∀ n, o = .fgets n → LineFits (n - 1) v.2

/-- `Obbediente`, of the current turn. -/
structure Pari (ingresso : Bytes) (v : Solo.View Sys Sys.Ans Bytes) (o : Sys) : Prop where
  /-- The numbers sent are the first of those converted ... -/
  inviati : ((testiScritti v.1).take 2).map interoDi <+: numeri v.1
  /-- ... and all, but between a conversion and its write. -/
  tutti : ¬ Invia o → ((testiScritti v.1).take 2).map interoDi = numeri v.1
  /-- A conversion starts at a line. -/
  inizio : o = .scanf → LineStart ingresso v.2

/-- The end of a turn. -/
structure Compiuta (ingresso : Bytes) (v : Solo.View Sys Sys.Ans Bytes) : Prop where
  /-- All numbers were sent. -/
  tutti : ((testiScritti v.1).take 2).map interoDi = numeri v.1
  /-- The rest is an end of the input ... -/
  resto : v.2 <:+ ingresso
  /-- ... and starts a line. -/
  inizio : LineStart ingresso v.2

section Turno

variable {ingresso : Bytes} {ns : List Int} {ws : List Bytes} {v : Solo.View Sys Sys.Ans Bytes}
  {s s₀ : ProgStudente} {n : Int}

theorem pari_of (hw : (ws.take 2).map interoDi = ns) (v : Solo.View Sys Sys.Ans Bytes) (o : Sys)
    (h : Battuto ingresso True ns ws v) : Pari ingresso v o := by
  have heq : ((testiScritti v.1).take 2).map interoDi = Universita.numeri v.1 := by
    rw [h.scritte, h.numeri, hw]
  exact ⟨heq ▸ List.prefix_rfl, fun _ => heq, fun _ => h.inizio trivial⟩

/-- The last number converted is still to be sent. -/
theorem pari_manca {capo : Prop} (hw : (ws.take 2).map interoDi = ns) {o : Sys} (ho : Invia o)
    (h : Battuto ingresso capo (ns ++ [n]) ws v) : Pari ingresso v o := by
  refine ⟨?_, fun hno => absurd ho hno, ?_⟩
  · rw [h.scritte, h.numeri, hw]
    exact List.prefix_append _ _
  · rintro rfl
    exact absurd ho id

/-- Drained and sent: a turn can end here. -/
theorem compiuta_of (hw : (ws.take 2).map interoDi = ns) (h : Battuto ingresso True ns ws v) :
    Compiuta ingresso v :=
  ⟨by rw [h.scritte, h.numeri, hw], h.resto, h.inizio trivial⟩

/-- The number that is sent is the one that was converted. -/
theorem interoDi_scanInt (h : -2 ^ 31 ≤ n ∧ n < 2 ^ 31) :
    interoDi (Buffer.ofInt (Buffer.ofInt n).toInt).bytes = n := by
  rw [Buffer.ofInt_toInt, interoDi_ofInt h]

/-- The command, and the number behind it, are the first two texts that are written. -/
theorem interi_due {b : Bytes} {m : Int} (hb : interoDi b = n) (hm : -2 ^ 31 ≤ m ∧ m < 2 ^ 31) (ws : List Bytes) :
    (([b] ++ [(Buffer.ofInt (Buffer.ofInt m).toInt).bytes] ++ ws).take 2).map interoDi = [n] ++ [m] := by
  show [interoDi b, interoDi _] = _
  rw [hb, interoDi_scanInt hm]
  rfl

/-- The rows of a list are read and printed: by their number. -/
theorem calmo_righe (sockfd : Int) : ∀ (n : Nat) (id : Buffer 4) (name : Buffer 255) (date : Buffer 12),
    Calmo (righe sockfd id name date n)
  | 0, _, _, _ => trivial
  | n + 1, id, name, date => by
    refine calmo_call trivial fun _ => calmo_call trivial fun _ => calmo_call trivial fun _ => ?_
    refine (calmo_cString _).bind fun nome => (calmo_cString _).bind fun data => ?_
    exact calmo_call trivial fun _ => calmo_righe sockfd n _ _ _

theorem calmo_riceviElenco (sockfd : Int) (s : ProgStudente) : Calmo (riceviElenco sockfd s) := by
  refine calmo_call trivial fun b => calmo_call trivial fun r => ?_
  show Calmo (if (b.overlay r).toInt = 0 then _ else _)
  split
  · exact calmo_call trivial fun _ => trivial
  · exact calmo_call trivial fun id => (calmo_righe _ _ _ _ _).bind fun _ => trivial

/-- The choice of a list, and the name of an exam: one number is typed and sent, and a line only for the
    second choice. -/
theorem digita_visualizza {b : Bytes} (hb : interoDi b = n) (h : Battuto ingresso True [n] [b] v) :
    s.visualizza.Safe (postazione.answers fun v o _ => digitate (.menu s₀) v o) (Pari ingresso)
      (fun _ v' => Compiuta ingresso v') v := by
  have hn : ([b].take 2).map interoDi = [n] := by
    rw [← hb]
    rfl
  refine ⟨pari_of hn _ _ h, fun r v₁ hr => ?_⟩
  obtain ⟨m, hm, hrange⟩ := hr.2.2.1 s₀ rfl rfl
  obtain ⟨rfl, h₁⟩ := h.numero hr hm
  have hnm := interi_due hb hrange
  refine ⟨pari_manca hn trivial h₁, fun _ v₂ hv₂ => ⟨?_, fun _ v₃ hv₃ => ?_⟩⟩
  · -- the number is sent before the line is drained
    have h₂ := h₁.write hv₂
    refine ⟨?_, fun hno => absurd trivial hno, nofun⟩
    rw [h₂.scritte, h₂.numeri, ← List.append_nil (_ ++ _), hnm]
  · have h₃ := (h₁.write hv₂).pulisci hv₃
    show Prog.Safe _ _ (if (Buffer.ofInt m).toInt = 2 then _ else _) _ _
    split
    · refine h₃.leggiRiga (pari_of (hnm []) _ _ h₃) (pari_of (hnm [])) (fun r v' hr => hr.2.2.2 _ rfl)
        fun exam v₄ h₄ => ⟨pari_of (hnm []) _ _ h₄, fun _ v₅ hv₅ => ?_⟩
      exact ((calmo_riceviElenco _ _).safe (h₄.write hv₅) (pari_of (hnm _))).mono fun _ _ => compiuta_of (hnm _)
    · exact ((calmo_riceviElenco _ _).safe h₃ (pari_of (hnm []))).mono fun _ _ => compiuta_of (hnm [])

theorem digita_prenotaAppello {b : Bytes} (hb : interoDi b = n) (h : Battuto ingresso True [n] [b] v) :
    s.prenotaAppello.Safe (postazione.answers fun v o _ => digitate (.menu s₀) v o) (Pari ingresso)
      (fun _ v' => Compiuta ingresso v') v := by
  have hn : ([b].take 2).map interoDi = [n] := by
    rw [← hb]
    rfl
  refine ⟨pari_of hn _ _ h, fun cod v₁ hv₁ => ?_⟩
  have h₁ := h.calma (by trivial) hv₁
  refine ⟨pari_of hn _ _ h₁, fun r v₂ hr => ?_⟩
  obtain ⟨c, hc, hrange⟩ := hr.2.2.1 s₀ rfl rfl
  obtain ⟨rfl, h₂⟩ := h₁.numero hr hc
  have hnc := interi_due hb hrange
  refine ⟨pari_manca hn trivial h₂, fun _ v₃ hv₃ => ?_⟩
  have h₃ := h₂.pulisci hv₃
  refine ⟨pari_manca hn trivial h₃,
    fun _ v₄ hv₄ => ⟨pari_of (hnc []) _ _ (h₃.write hv₄), fun _ v₅ hv₅ => ?_⟩⟩
  -- behind the second number nothing is typed or sent any more: the reply is read and printed
  have hcalmo : Calmo (do
      let res ← sys (.indeterminato 255)
      let prima ← cString res
      sys (.printf (ascii "\nEsito operazione: " ++ prima ++ [10]))
      let r ← sys (.read s.sockfd 255)
      let res ← cString (res.overlay r)
      sys (.printf (res ++ [10]))) := by
    refine calmo_call trivial fun res => (calmo_cString _).bind fun prima => ?_
    refine calmo_call trivial fun _ => calmo_call trivial fun r => (calmo_cString _).bind fun res => ?_
    exact calmo_call trivial fun _ => trivial
  exact (hcalmo.safe ((h₃.write hv₄).write hv₅) (pari_of (hnc _))).mono fun _ _ => compiuta_of (hnc _)

/-- **A turn of the menu** sends the numbers it converts, each of them as the int that was converted and
    in the order in which it was typed. -/
theorem safe_menu {e : Bytes} (hresto : e <:+ ingresso) (hinizio : LineStart ingresso e) :
    (giro (.menu s)).Safe (postazione.answers fun v o _ => digitate (.menu s) v o) (Pari ingresso)
      (fun p v' => Compiuta ingresso v' ∧ ∃ s', p = .menu s') ([], e) := by
  have h : Battuto ingresso True [] [] ([], e) := ⟨rfl, rfl, hresto, fun _ => hinizio⟩
  have hnil : (([] : List Bytes).take 2).map interoDi = [] := rfl
  refine (Prog.safe_bind s.passo _ _ _).mpr ?_
  refine ⟨pari_of hnil _ _ h, fun r v₁ hr => ?_⟩
  obtain ⟨n, hn, hrange⟩ := hr.2.2.1 s rfl rfl
  obtain ⟨rfl, h₁⟩ := h.numero hr hn
  -- the line is drained, then the number is sent
  refine ⟨pari_manca hnil trivial h₁, fun _ v₂ hv₂ => ?_⟩
  have h₂ := h₁.pulisci hv₂
  refine ⟨pari_manca hnil trivial h₂, fun _ v₃ hv₃ => ?_⟩
  have h₃ : Battuto ingresso True [n] [(Buffer.ofInt (Buffer.ofInt n).toInt).bytes] v₃ := h₂.write hv₃
  have hb := interoDi_scanInt hrange
  have hn : ([(Buffer.ofInt (Buffer.ofInt n).toInt).bytes].take 2).map interoDi = [n] := by
    show [interoDi _] = _
    rw [hb]
  show Prog.Safe _ _ (if (Buffer.ofInt n).toInt = 1 then _ else if (Buffer.ofInt n).toInt = 2 then _ else
    if (Buffer.ofInt n).toInt = 3 then _ else _) _ _
  split
  · exact (digita_visualizza hb h₃).mono fun s' v' hv' => ⟨hv', s', rfl⟩
  · split
    · exact (Prog.safe_bind (prenotaAppello _) _ _ _).mpr
        ((digita_prenotaAppello hb h₃).mono fun _ v' hv' => ⟨hv', _, rfl⟩)
    · split
      · refine ⟨pari_of hn _ _ h₃, fun _ v₄ hv₄ => ⟨pari_of hn _ _ (h₃.calma (by trivial) hv₄), nofun⟩⟩
      · exact ⟨compiuta_of hn h₃, _, rfl⟩

/-- The login leaves the keyboard at the start of a line. Its matricola is a number as well, but it is
    sent before the first menu. -/
theorem digita_accesso {e : Bytes} (hresto : e <:+ ingresso) (hinizio : LineStart ingresso e) :
    (giro (.accesso s)).Safe (postazione.answers fun v o _ => digitate (.accesso s) v o) (fun _ _ => True)
      (fun p v' => (v'.2 <:+ ingresso ∧ LineStart ingresso v'.2) ∧ ∃ s', p = .menu s') ([], e) := by
  have h : Battuto ingresso True [] [] ([], e) := ⟨rfl, rfl, hresto, fun _ => hinizio⟩
  refine (Prog.safe_bind s.accesso _ _ _).mpr ?_
  refine ⟨trivial, fun r v₁ hr => ⟨trivial, fun _ v₂ hv₂ => ?_⟩⟩
  have h₂ := (h.scanf hr).2.pulisci hv₂
  refine h₂.leggiRiga trivial (fun _ _ _ => trivial) (fun r v' hr => hr.2.2.2 _ rfl) fun pass v₃ h₃ => ?_
  refine ⟨trivial, fun _ v₄ hv₄ => ⟨trivial, fun _ v₅ hv₅ => ⟨trivial, fun r v₆ hv₆ => ?_⟩⟩⟩
  have h₆ := ((h₃.write hv₄).write hv₅).calma (by trivial) hv₆
  refine (Prog.safe_bind (cString _) _ _ _).mpr (((calmo_cString _).safe h₆ fun _ _ _ => trivial).mono
    fun state v₇ h₇ => ⟨trivial, fun _ v₈ hv₈ => ?_⟩)
  have h₈ := h₇.calma (by trivial) hv₈
  show Prog.Safe _ _ (if state = negato then _ else _) _ _
  split
  · exact ⟨trivial, nofun⟩
  · exact ⟨⟨h₈.resto, h₈.inizio trivial⟩, _, rfl⟩

/-- At the head of the loop the turns have sent what they converted, and a line starts. The latter is
    what makes the next turn begin with what is typed next. -/
structure InPari (ingresso : Bytes) (past : Solo.Past Sys Sys.Ans PuntoStud) (e : Bytes) : Prop where
  /-- In each turn done the two lists agree. -/
  numeri : ∀ t ∈ past, inviatiDi t = convertitiDi t
  /-- The rest is an end of the input ... -/
  resto : e <:+ ingresso
  /-- ... and starts a line. -/
  inizio : LineStart ingresso e

/-- What is asked of a call in a turn from `p`. -/
def PariDa (ingresso : Bytes) (p : PuntoStud) (v : Solo.View Sys Sys.Ans Bytes) (o : Sys) : Prop :=
  ∀ st, p = .menu st → Pari ingresso v o

/-- A turn of the student's program: the login, which sends no number of a menu, or a menu, which sends
    those it converted. -/
theorem InPari.giro {ingresso : Bytes} {past : Solo.Past Sys Sys.Ans PuntoStud} {e : Bytes}
    (h : InPari ingresso past e) (p : PuntoStud) :
    (giro p).Safe (postazione.answers fun v o _ => digitate p v o) (PariDa ingresso p)
      (fun _ v => InPari ingresso (past ++ [(p, v.1)]) v.2) ([], e) := by
  have hsnoc : ∀ {t}, inviatiDi t = convertitiDi t → ∀ t' ∈ past ++ [t],
    inviatiDi t' = convertitiDi t' := by
    intro t ht t' ht'
    rcases List.mem_append.mp ht' with ht' | ht'
    · exact h.numeri t' ht'
    · rw [List.mem_singleton.mp ht']
      exact ht
  cases p with
  | accesso s =>
    refine ((digita_accesso h.resto h.inizio).weaken fun _ _ _ st heq => by cases heq).mono ?_
    rintro p' v ⟨hv, -⟩
    exact ⟨hsnoc rfl, hv.1, hv.2⟩
  | menu s =>
    refine ((safe_menu h.resto h.inizio).weaken fun _ _ hp _ _ => hp).mono ?_
    rintro p' v ⟨hv, -⟩
    exact ⟨hsnoc hv.tutti, hv.resto, hv.inizio⟩

/-- **The student's numbers**, in every run: from the turns it is made of, the current one included. -/
theorem obbediente_run {st : ProgStudente} {ingresso : Bytes} {d : StatoPostazione}
    (hd : Solo.Reach postazione Digitata (seduta st ingresso) d) : Obbediente ingresso d := by
  have hA : ∀ (d : StatoPostazione) o r, Digitata d (.act o r) → digitate d.turn (d.trace, d.env) o :=
    fun d o r h => ⟨fun st ho hp => by subst ho; exact h.1 r st rfl hp,
      fun n ho => by subst ho; exact h.2 n r rfl⟩
  have h0 : InPari ingresso [] ingresso :=
    ⟨fun t ht => absurd ht List.not_mem_nil, List.suffix_rfl, lineStart_self _⟩
  obtain ⟨_, hpast, -⟩ := Solo.Reach.began (I := fun past _ e => InPari ingresso past e) (P := PariDa ingresso)
    (B := fun _ _ _ => True) hA (fun _ _ _ _ => trivial) h0 trivial (fun _ p _ h _ => h.giro p) hd
  have hsafe := Solo.Reach.local (I := fun past _ e => InPari ingresso past e) (P := PariDa ingresso)
    (B := fun _ _ _ => True) hA (fun _ _ _ _ => trivial) h0 trivial (fun _ p _ h _ => h.giro p) hd
  have hprima : d.past.flatMap inviatiDi = d.past.flatMap convertitiDi := List.flatMap_congr hpast.numeri
  -- the current turn is as its next call finds it
  have hora : inviatiDi (d.turn, d.trace) <+: convertitiDi (d.turn, d.trace) ∧
      ((∀ o k, d.prog = .call o k → ¬ Invia o) → inviatiDi (d.turn, d.trace) = convertitiDi (d.turn, d.trace)) := by
    cases hp : d.prog with
    | ret p' =>
      rw [hp] at hsafe
      have heq := hsafe.numeri _ (List.mem_append_right _ (List.mem_singleton_self _))
      exact ⟨heq ▸ List.prefix_rfl, fun _ => heq⟩
    | call o k =>
      rw [hp] at hsafe
      cases ht : d.turn with
      | accesso s => exact ⟨List.prefix_rfl, fun _ => rfl⟩
      | menu s =>
        have hpari := hsafe.1 s ht
        exact ⟨hpari.inviati, fun h => hpari.tutti (h o k rfl)⟩
  refine ⟨?_, fun h => ?_, fun k st hk ht => ?_⟩
  · rw [List.flatMap_append, List.flatMap_append, hprima, List.flatMap_singleton, List.flatMap_singleton]
    exact (List.prefix_append_right_inj _).mpr hora.1
  · rw [List.flatMap_append, List.flatMap_append, hprima, List.flatMap_singleton, List.flatMap_singleton,
      hora.2 h]
  · rw [hk] at hsafe
    exact (hsafe.1 st ht).inizio rfl

end Turno

end ProgStudente

/-! ## The secretary's program -/

/-- The call reads the keyboard. -/
def Sys.DaTastiera : Sys → Prop
  | .scanf | .pulisciInput | .fgets _ => True
  | _ => False

/-- No call of `p` does. -/
abbrev Altrove {α : Type} (p : Programma α) : Prop :=
  p.Only (fun _ _ => True) (fun o => ¬ o.DaTastiera) fun _ => True

section Altrove

variable {α β : Type}

/-- A part that uses these descriptors only reads no keyboard. -/
theorem Piano.altrove {fds : List Int} {p : Programma α} (h : Piano fds p) : Altrove p :=
  h.weaken (fun _ _ _ => trivial) fun o ho hk => by
    cases o with
    | scanf => exact ho.2
    | pulisciInput => exact ho.2
    | fgets n => exact ho.2
    | _ => exact hk

theorem Altrove.bind {p : Programma α} {f : α → Programma β} (hp : Altrove p) (hf : ∀ a, Altrove (f a)) :
    Altrove (p >>= f) :=
  (Prog.only_bind p f _).mpr (hp.mono fun a _ => hf a)

theorem altrove_call {o : Sys} {k : o.Ans → Programma α} (ho : ¬ o.DaTastiera) (hk : ∀ r, Altrove (k r)) :
    Altrove (.call o k) :=
  Prog.only_call.mpr ⟨ho, fun r _ => hk r⟩

theorem altrove_cString {n : Nat} (b : Buffer n) : Altrove (cString b) := by
  rw [cString]
  split
  · trivial
  · exact altrove_call id fun _ => trivial

end Altrove

namespace Segreteria

/-- The login of a student: the operator is not asked. -/
theorem altrove_accesso (s : Segreteria) : Altrove s.accesso := by
  refine altrove_call id fun _ => altrove_call id fun _ => altrove_call id fun _ => ?_
  refine (altrove_cString _).bind fun pw => altrove_call id fun _ => altrove_call id fun res => ?_
  cases res with
  | none => exact altrove_call id nofun
  | some rows =>
    show Altrove (if _ then _ else _)
    split
    · exact altrove_call id fun _ => trivial
    · exact altrove_call id fun _ => trivial

theorem altrove_accetta (s : Segreteria) : Altrove s.accetta := by
  refine altrove_call id fun pronti => ?_
  show Altrove (if _ then _ else _)
  split
  · split
    · refine altrove_call id fun fd => ?_
      show Altrove (if _ then _ else _)
      split
      · trivial
      · exact (altrove_accesso _).bind fun _ => trivial
    · exact altrove_call id nofun
  · trivial

theorem altrove_visualizzaAppelli (c : ClientStud) : Altrove (visualizzaAppelli c) := by
  have hinvia : ∀ res, Altrove (inviaRisultato c.connfd res) := fun res =>
    (piano_inviaRisultato (List.mem_singleton_self _) res).altrove
  have hcoda : Altrove (sys .mysqlStoreResult >>= fun res2 => inviaRisultato c.connfd res2) :=
    altrove_call id hinvia
  refine altrove_call id fun req => altrove_call id fun r => ?_
  show Altrove (if _ then _ else _)
  split
  · refine altrove_call id fun ok => ?_
    cases ok with
    | false => exact hcoda
    | true => exact altrove_call id fun res => (hinvia res).bind fun _ => hcoda
  · split
    · exact altrove_call id fun r => (altrove_cString _).bind fun exam => altrove_call id fun _ => hcoda
    · exact hcoda

theorem altrove_servi (s : Segreteria) (i : Nat) : Altrove (s.servi i) := by
  show Altrove (if _ then _ else _)
  split
  · refine altrove_call id fun r => ?_
    show Altrove (if _ then _ else _)
    split
    · exact (altrove_visualizzaAppelli _).bind fun _ => trivial
    · split
      · refine altrove_call id fun _ => altrove_call id fun _ => altrove_call id fun _ => ?_
        refine altrove_call id fun _ => altrove_call id fun _ => altrove_call id fun _ => ?_
        exact altrove_call id fun _ => altrove_call id fun _ => altrove_call id fun _ => trivial
      · split
        · exact altrove_call id fun _ => trivial
        · trivial
  · trivial

/-- An insertion is started in the turns in which a 2 was converted, and the operator's menu asks for its
    number where a line starts. -/
structure Obbediente (ingresso : Bytes) (d : StatoBanco) : Prop where
  avviate : ∀ t ∈ d.past, t.1.1 = .operatore → (testiScritti t.2 ≠ [] ↔ numeri t.2 = [2])
  avviata : d.turn.1 = .operatore → testiScritti d.trace ≠ [] → numeri d.trace = [2]
  inizio : ∀ k, d.prog = .call .scanf k → LineStart ingresso d.env

/-- The menu finds a number, or none while the last choice was not the insertion, and what is typed as a
    text fits. -/
def digitate (q : Punto × Segreteria) (s : Bytes) (o : Sys) : Prop :=
  (o = .scanf → Numerata s ∨ (scanD s).1 = none ∧ q.2.logical ≠ 2) ∧ ∀ n, o = .fgets n →
    LineFits (n - 1) s

/-- The same of a move. -/
def Digitata (d : StatoBanco) (m : Solo.Move Sys Sys.Ans) : Prop :=
  ∀ o r, m = .act o r → digitate d.turn d.env o

/-- `Obbediente`, of the current turn. -/
structure Pari (ingresso : Bytes) (q : Punto × Segreteria) (v : Solo.View Sys Sys.Ans Bytes) (o : Sys) :
    Prop where
  avviata : q.1 = .operatore → testiScritti v.1 ≠ [] → numeri v.1 = [2]
  inizio : o = .scanf → LineStart ingresso v.2

/-- At the head of the loop. -/
structure InPari (ingresso : Bytes) (past : Passato) (e : Bytes) : Prop where
  avviate : ∀ t ∈ past, t.1.1 = .operatore → (testiScritti t.2 ≠ [] ↔ numeri t.2 = [2])
  resto : e <:+ ingresso
  inizio : LineStart ingresso e

section Turno

variable {ingresso : Bytes} {ns : List Int} {ws : List Bytes} {v : Solo.View Sys Sys.Ans Bytes}
  {q : Punto × Segreteria} {s : Segreteria} {past : Passato} {e : Bytes}

/-- A started insertion is one that was chosen. -/
theorem pari_of (v : Solo.View Sys Sys.Ans Bytes) (o : Sys) (h : Battuto ingresso True ns ws v)
    (hns : ws ≠ [] → ns = [2]) : Pari ingresso q v o := by
  refine ⟨fun _ hws => ?_, fun _ => h.inizio trivial⟩
  rw [h.numeri]
  exact hns (h.scritte ▸ hws)

/-- The insertion, once it was chosen: it writes to the server at once, which is what counts as having
    started it. -/
theorem safe_nuovoAppello (h : Battuto ingresso True [2] [] v) :
    s.nuovoAppello.Safe (banco.answers fun v o _ => digitate q v.2 o) (Pari ingresso q)
      (fun _ v' => ∃ ws, ws ≠ [] ∧ Battuto ingresso True [2] ws v') v := by
  have hP : ∀ {ws : List Bytes} (v : Solo.View Sys Sys.Ans Bytes) (o : Sys),
    Battuto ingresso True [2] ws v →
      Pari ingresso q v o := fun v o h => pari_of v o h fun _ => rfl
  refine ⟨hP _ _ h, fun _ v₁ hv₁ => ?_⟩
  have h₁ := h.write hv₁
  refine h₁.leggiRiga (hP _ _ h₁) hP (fun r v' hr => hr.2.2.2 _ rfl) fun name v₂ h₂ =>
    ⟨hP _ _ h₂, fun _ v₃ hv₃ => ?_⟩
  have h₃ := h₂.write hv₃
  refine h₃.leggiRiga (hP _ _ h₃) hP (fun r v' hr => hr.2.2.2 _ rfl) fun date v₄ h₄ =>
    ⟨hP _ _ h₄, fun _ v₅ hv₅ => ?_⟩
  have h₅ := h₄.write hv₅
  refine ⟨hP _ _ h₅, fun r v₆ hv₆ => ?_⟩
  have h₆ := h₅.calma (by trivial) hv₆
  refine (Prog.safe_bind (cString _) _ _ _).mpr (((calmo_cString _).safe h₆ hP).mono fun esito v₇ h₇ => ?_)
  exact ⟨hP _ _ h₇, fun _ v₈ hv₈ => ⟨_, by simp, h₇.calma (by trivial) hv₈⟩⟩

theorem safe_operatore (hresto : e <:+ ingresso) (hinizio : LineStart ingresso e) :
    s.operatore.Safe (banco.answers fun v o _ => digitate (.operatore, s) v.2 o) (Pari ingresso (.operatore, s))
      (fun _ v' => ∃ ns ws, (ws ≠ [] ↔ ns = [2]) ∧ Battuto ingresso True ns ws v') ([], e) := by
  have h : Battuto ingresso True [] [] ([], e) := ⟨rfl, rfl, hresto, fun _ => hinizio⟩
  show Prog.Safe _ _ (if s.sockfd ∈ s.writeSet then _ else _) _ _
  split
  · refine ⟨pari_of _ _ h fun hne => absurd rfl hne, fun r v₁ hr => ?_⟩
    obtain ⟨hrs, h₁⟩ := h.scanf hr
    have hP : Pari ingresso (.operatore, s) v₁ .pulisciInput :=
      ⟨fun _ hws => absurd h₁.scritte hws, nofun⟩
    refine ⟨hP, fun _ v₂ hv₂ => ?_⟩
    have h₂ := h₁.pulisci hv₂
    -- a number was typed, or none was and the last choice was not the insertion
    rcases hr.2.2.1 rfl with ⟨n, hn, hrange⟩ | ⟨hnone, hlog⟩
    · obtain rfl : r = some n := hrs.trans (scanD_eq_some.mpr hn)
      have hlogical : (Buffer.ofInt n).toInt = n := Buffer.toInt_ofInt hrange.1 hrange.2
      show Prog.Safe _ _ (if (Buffer.ofInt n).toInt = 2 then _ else _) _ _
      rw [hlogical]
      split
      · rename_i h2
        subst h2
        exact (safe_nuovoAppello h₂).mono fun s' v' ⟨ws, hws, hv'⟩ => ⟨_, ws, iff_of_true hws rfl, hv'⟩
      · rename_i h2
        exact ⟨_, _, iff_of_false (fun h => h rfl) fun heq => h2 (List.cons.inj heq).1, h₂⟩
    · rw [hnone] at hrs
      subst hrs
      show Prog.Safe _ _ (if s.logical = 2 then _ else _) _ _
      rw [if_neg hlog]
      exact ⟨_, _, iff_of_false (fun h => h rfl) (by simp), h₂⟩
  · exact ⟨_, _, iff_of_false (fun h => h rfl) (by simp), h⟩

/-- A turn away from the keyboard leaves the input as it is, whatever it does to the students. -/
theorem safe_altrove {α : Type} {p : Programma α} (hp : Altrove p) (hq : q.1 ≠ .operatore)
    {tr : List Evento} : p.Safe (banco.answers fun v o _ => digitate q v.2 o) (Pari ingresso q)
      (fun _ v' => v'.2 = e) (tr, e) := by
  refine (Prog.Only.safe (K := fun v : Solo.View Sys Sys.Ans Bytes => v.2 = e) hp
    ?_ ?_ rfl).mono fun _ _ h => h.2
  · rintro v o - ho
    refine ⟨fun h => absurd h hq, ?_⟩
    rintro rfl
    exact absurd trivial ho
  · rintro v o r v' hv ho ⟨hans, -, -⟩
    refine ⟨trivial, ?_⟩
    change daPostazione v.2 o r = some v'.2 at hans
    -- away from the keyboard: none of the three calls that take something from it
    cases o with
    | scanf => exact absurd trivial ho
    | pulisciInput => exact absurd trivial ho
    | fgets n => exact absurd trivial ho
    | read fd n =>
      rw [daPostazione] at hans
      split at hans
      · exact (Option.some.inj hans).symm.trans hv
      · cases hans
    | _ => exact (Option.some.inj hans).symm.trans hv

/-- A turn that is not the operator's. -/
theorem InPari.altrove (h : InPari ingresso past e) (hq : q.1 ≠ .operatore) {tr : List Evento}
    {e' : Bytes}
    (he : e' = e) : InPari ingresso (past ++ [(q, tr)]) e' := by
  subst he
  refine ⟨fun t ht hop => ?_, h.resto, h.inizio⟩
  rcases List.mem_append.mp ht with ht | ht
  · exact h.avviate t ht hop
  · rw [List.mem_singleton.mp ht] at hop
    exact absurd hop hq

/-- A turn of the secretary: the operator's menu, or one away from the keyboard. -/
theorem InPari.passo (h : InPari ingresso past e) (q : Punto × Segreteria) :
    (passo q).Safe (banco.answers fun v o _ => digitate q v.2 o) (Pari ingresso q)
      (fun _ v => InPari ingresso (past ++ [(q, v.1)]) v.2) ([], e) := by
  obtain ⟨p, s⟩ := q
  cases p with
  | esterno => exact h.altrove (q := (.esterno, s)) nofun rfl
  | accetta =>
    exact (safe_altrove (q := (.accetta, s)) (altrove_accetta s) nofun).mono fun _ v hv =>
      h.altrove (q := (.accetta, s)) nofun hv
  | servi i =>
    show Prog.Safe _ _ (if i < s.dim then _ else _) _ _
    split
    · exact (Prog.safe_bind (s.servi i) _ _ _).mpr
        ((safe_altrove (q := (.servi i, s)) (altrove_servi s i) nofun).mono fun _ v hv =>
          h.altrove (q := (.servi i, s)) nofun hv)
    · exact h.altrove (q := (.servi i, s)) nofun rfl
  | operatore =>
    refine (Prog.safe_bind s.operatore _ _ _).mpr ((safe_operatore h.resto h.inizio).mono ?_)
    -- the turn of the operator is added to those that were in step
    rintro s' v ⟨ns, ws, hiff, hv⟩
    refine ⟨fun t ht hop => ?_, hv.resto, hv.inizio trivial⟩
    rcases List.mem_append.mp ht with ht | ht
    · exact h.avviate t ht hop
    · rw [List.mem_singleton.mp ht]
      show testiScritti v.1 ≠ [] ↔ numeri v.1 = [2]
      rw [hv.scritte, hv.numeri]
      exact hiff

end Turno

/-- **The operator's choices**, in every run: an insertion is begun in the turns in which a 2 was
    converted, and in no others. -/
theorem obbediente_run {sockfd listenfd logical : Int} {behaviour : Buffer 4} {slots : Nat → ClientStud}
    {ingresso : Bytes} {d : StatoBanco}
    (hd : Solo.Reach banco Digitata (bancoAperto sockfd listenfd logical behaviour slots ingresso) d) :
    Obbediente ingresso d := by
  have hA : ∀ (d : StatoBanco) o r, Digitata d (.act o r) → digitate d.turn d.env o :=
    fun d o r h => h o r rfl
  have h0 : InPari ingresso [] ingresso :=
    ⟨fun t ht => absurd ht List.not_mem_nil, List.suffix_rfl, lineStart_self _⟩
  obtain ⟨_, hpast, -⟩ := Solo.Reach.began (I := fun past _ e => InPari ingresso past e) (P := Pari ingresso)
    (B := fun _ _ _ => True) hA (fun _ _ _ _ => trivial) h0 trivial (fun _ q _ h _ => h.passo q) hd
  have hsafe := Solo.Reach.local (I := fun past _ e => InPari ingresso past e) (P := Pari ingresso)
    (B := fun _ _ _ => True) hA (fun _ _ _ _ => trivial) h0 trivial (fun _ q _ h _ => h.passo q) hd
  refine ⟨hpast.avviate, fun hop hws => ?_, fun k hk => ?_⟩
  · refine hsafe.now (fun o ho => ho.avviata hop hws) fun q' h => ?_
    exact (h.avviate _ (List.mem_append_right _ (List.mem_singleton_self _)) hop).mp hws
  · rw [hk] at hsafe
    exact hsafe.1.inizio rfl

end Segreteria

/-! ## Every run -/

/-- **The menus act on what was typed.**  In every run in which they find a number whenever they ask for one,
    and what is typed as a text fits: the student's program sends the numbers converted, in their order, and
    the secretary's starts an insertion exactly in the turns in which a 2 was converted. -/
theorem solo_digitati (st : ProgStudente) (sockfd listenfd logical : Int) (behaviour : Buffer 4)
    (slots : Nat → ClientStud) (ingresso : Bytes) :
    (∀ d, Solo.Reach postazione ProgStudente.Digitata (seduta st ingresso) d →
      ProgStudente.Obbediente ingresso d) ∧
    ∀ d, Solo.Reach banco Segreteria.Digitata (bancoAperto sockfd listenfd logical behaviour slots ingresso) d →
      Segreteria.Obbediente ingresso d :=
  ⟨fun _ => ProgStudente.obbediente_run, fun _ => Segreteria.obbediente_run⟩

/-- `Numerata`, as a test. -/
def numerata (s : Bytes) : Bool :=
  match (scanD s).1 with
  | some n => decide (-2 ^ 31 ≤ n ∧ n < 2 ^ 31)
  | none => false

theorem numerata_ok {s : Bytes} (h : numerata s = true) : Numerata s := by
  rw [numerata] at h
  split at h
  · rename_i n hn
    exact ⟨n, scanD_eq_some.mp hn, of_decide_eq_true h⟩
  · cases h

/-- Both conditions, as a test. -/
def digitata (s : Bytes) : Solo.Move Sys Sys.Ans → Bool
  | .act .scanf _ => numerata s
  | .act (.fgets n) _ => decide (LineFits (n - 1) s)
  | _ => true

/-- The numbers that were sent and converted up to `d`. -/
def scambiati (d : StatoPostazione) : List Int × List Int :=
  ((d.past ++ [(d.turn, d.trace)]).flatMap ProgStudente.inviatiDi,
    (d.past ++ [(d.turn, d.trace)]).flatMap ProgStudente.convertitiDi)

/-- A booking is typed into the student's program, and a new appello into the secretary's: each is acted
    on once. -/
theorem solo_digitati_due : (∃ d : StatoPostazione, scambiati d = ([2, 12], [2, 12]) ∧
      ProgStudente.Obbediente (ascii "7\npw\n2\n12\n") d) ∧
    ∃ d : StatoBanco, numeri d.trace = [2] ∧
      Segreteria.Obbediente (ascii "2\nprog1\n2024-09-09\n") d := by
  constructor
  · have hrun : (postazione.run (fun d m => digitata d.env m) (seduta ⟨3, 0, 0, Buffer.zero 4⟩
        (ascii "7\npw\n2\n12\n")) (prenotazioneBattuta.dropLast)).map scambiati = some ([2, 12], [2, 12]) := by
      decide +kernel
    obtain ⟨d, hd, heq⟩ := Option.map_eq_some_iff.mp hrun
    refine ⟨d, heq, (solo_digitati ⟨3, 0, 0, Buffer.zero 4⟩ 3 4 0 (Buffer.zero 4)
      (fun _ => ⟨0, Buffer.zero 4⟩) _).1 d (Solo.reach_run (fun d m hm => ⟨?_, ?_⟩) _ .init hd)⟩
    · rintro r st rfl -
      exact numerata_ok hm
    · rintro n r rfl
      exact of_decide_eq_true hm
  · have hrun : (banco.run (fun d m => digitata d.env m) (bancoAperto 3 4 0 (Buffer.zero 4)
          (fun _ => ⟨0, Buffer.zero 4⟩) (ascii "2\nprog1\n2024-09-09\n"))
        (richiestaOperatore (ascii "fatto") (ascii "fatto"))).map (fun d => numeri d.trace) = some [2] := by
      decide +kernel
    obtain ⟨d, hd, heq⟩ := Option.map_eq_some_iff.mp hrun
    refine ⟨d, heq, (solo_digitati ⟨3, 0, 0, Buffer.zero 4⟩ 3 4 0 (Buffer.zero 4)
      (fun _ => ⟨0, Buffer.zero 4⟩) _).2 d (Solo.reach_run (fun d m hm => ?_) _ .init hd)⟩
    rintro o r rfl
    refine ⟨?_, ?_⟩
    · rintro rfl
      exact Or.inl (numerata_ok hm)
    · rintro n rfl
      exact of_decide_eq_true hm

/-- A line without a number sends the last command again: `scanf` converts nothing, and the variable
    keeps its 5. -/
theorem comando_ripetuto : ¬ ∀ (st : ProgStudente) (sockfd listenfd logical : Int) (behaviour : Buffer 4)
      (slots : Nat → ClientStud) (ingresso : Bytes),
    (∀ d, Solo.Reach postazione (fun _ _ => True) (seduta st ingresso) d →
      ProgStudente.Obbediente ingresso d) ∧
    ∀ d, Solo.Reach banco (fun _ _ => True) (bancoAperto sockfd listenfd logical behaviour slots ingresso) d →
      Segreteria.Obbediente ingresso d := by
  intro h
  have hstudente := (h ⟨3, 0, 0, Buffer.zero 4⟩ 3 4 0 (Buffer.zero 4) (fun _ => ⟨0, Buffer.zero 4⟩)
    (ascii "7\npw\n5\nabc\n")).1
  have hrun : (postazione.run (fun _ _ => true) (seduta ⟨3, 0, 0, Buffer.zero 4⟩ (ascii "7\npw\n5\nabc\n"))
      (prenotazioneBattuta.take 8 ++ [.act .scanf (some 5), .act .pulisciInput (),
        .act (.write 3 (Buffer.ofInt 5).bytes) (), .turn, .act .scanf none, .act .pulisciInput (),
        .act (.write 3 (Buffer.ofInt 5).bytes) ()])).map scambiati = some ([5, 5], [5]) := by
          decide +kernel
  obtain ⟨d, hd, heq⟩ := Option.map_eq_some_iff.mp hrun
  obtain ⟨hinviati, hconvertiti⟩ := Prod.mk.inj heq
  have hclaim := (hstudente d (Solo.reach_run (fun _ _ _ => trivial) _ .init hd)).inviati
  rw [hinviati, hconvertiti] at hclaim
  exact absurd hclaim.length_le (by decide)

end Universita

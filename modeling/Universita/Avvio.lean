/-
  THE PORTS — what the server binds to and the secretary connects to.

  The number in `porta/porta.txt` is an `int`; the port field of an address has 16 bits.  `htons` narrows
  the number to them, and nothing between the file and `bind` looks at its size.

  Every start of the server adds one to the number and nothing ever takes one away, so the question is not
  whether the number stops being a port but when.  From the file as it is shipped, which says 1030, the first
  start binds 1031 and the 64505th binds 65535; the next one asks for 65536, of which 16 bits are 0, and the kernel
  gives it any free port.  A thousand starts later it is 1025, the port the secretary wants for itself.

  The crux is that "good" (a port, the one in the file, not the secretary's own) is a condition on the number
  alone (`buona_iff`), so a sequence of starts is good exactly when its last number is: an induction over the
  starts, with the file's numeral as what is carried along.

  Contents:
  1. `htons`, `SockaddrIn`, and the addresses of the two programs.
  2. `avvia` — servers and secretaries started in any order.
  3. `Buona`, `Usabile` — what is wanted of the ports.
  4. **`usabile_iff`** — for how many starts of the server the port in use is the one in the file, a valid
     one, and not the secretary's own.
-/
import Universita.Porta

set_option linter.unusedVariables false

namespace Universita

open Lib

/-! ## Addresses -/

/-- The two bytes of a port, the high one first; the argument is narrowed to 16 bits. -/
def htons (hostshort : Int) : Buffer 2 :=
  ⟨(toLE 2 (hostshort % 2 ^ 16).toNat).reverse, by rw [List.length_reverse, length_toLE]⟩

/-- `struct sockaddr_in`, the fields the programs fill. -/
structure SockaddrIn where
  /-- `sin_family`. -/
  sinFamily : Nat
  /-- `sin_port`, in network order. -/
  sinPort : Buffer 2
  /-- `sin_addr`, in network order. -/
  sinAddr : Buffer 4

/-- The constant of `sys/socket.h` on Linux. -/
def AF_INET : Nat := 2

/-- Any address of the host; `htonl` leaves it as it is. -/
def INADDR_ANY : Buffer 4 := Buffer.zero 4

/-- The port that the network takes the address for. -/
def SockaddrIn.porta (a : SockaddrIn) : Nat := leNat a.sinPort.bytes.reverse

/-- The address the server passes to `bind`, and the file it leaves. -/
def Server.servaddr (porta : Buffer 4) (file : Option Bytes) : Option (SockaddrIn × Option Bytes) := do
  let (porta, file) ← setPorta porta file
  pure (⟨AF_INET, htons porta, INADDR_ANY⟩, file)

/-- The address the secretary passes to `connect`; `indirizzo` is what `inet_pton` made of its argument. -/
def Segreteria.servaddr (porta indirizzo : Buffer 4) (file : Option Bytes) : Option SockaddrIn := do
  let porta ← getPorta porta file
  pure ⟨AF_INET, htons porta, indirizzo⟩

/-- `PORT_SERVER` of the header. -/
def Segreteria.PORT_SERVER : Int := 1025

/-- The address the secretary listens on. -/
def Segreteria.secaddr : SockaddrIn := ⟨AF_INET, htons PORT_SERVER, INADDR_ANY⟩

/-- The network reads back the number modulo 2^16. -/
theorem porta_htons (famiglia : Nat) (p : Int) (indirizzo : Buffer 4) :
    (SockaddrIn.mk famiglia (htons p) indirizzo).porta = (p % 2 ^ 16).toNat := by
  have hlt : (p % 2 ^ 16).toNat < 256 ^ 2 := by omega
  rw [SockaddrIn.porta, htons, List.reverse_reverse, leNat_toLE 2 _ hlt]

/-- The secretary's own port is 1025. -/
theorem porta_secaddr : Segreteria.secaddr.porta = 1025 := porta_htons _ _ _

/-! ## Starts -/

/-- A program is started; `porta` is what its uninitialised variable holds. -/
inductive Avvio where
  /-- The server. -/
  | server (porta : Buffer 4)
  /-- The secretary, with the address it was given. -/
  | segreteria (porta indirizzo : Buffer 4)

/-- Whether the start is one of the server: only these move the number. -/
def Avvio.isServer : Avvio → Bool
  | .server _ => true
  | .segreteria _ _ => false

/-- The address a start passes on, and the file behind it. -/
def Avvio.usa : Avvio → Option Bytes → Option (SockaddrIn × Option Bytes)
  | .server porta, file => Server.servaddr porta file
  | .segreteria porta indirizzo, file =>
    (Segreteria.servaddr porta indirizzo file).map fun servaddr => (servaddr, file)

/-- The same for several starts, one after the other. -/
def avvia : List Avvio → Option Bytes → Option (List (SockaddrIn × Option Bytes))
  | [], _ => some []
  | a :: as, file => do
    let (servaddr, file) ← a.usa file
    let usi ← avvia as file
    pure ((servaddr, file) :: usi)

/-- The address is that of the number in the file, a port, and not the one the secretary listens on:
    what a start must make of the file to be of use. -/
def Buona (uso : SockaddrIn × Option Bytes) : Prop :=
  ∃ p file, uso.2 = some file ∧ Numeral p file ∧ (uso.1.porta : Int) = p ∧
    1 ≤ uso.1.porta ∧ uso.1.porta ≤ 65535 ∧ uso.1.porta ≠ Segreteria.secaddr.porta

/-- `Usabile file as` — started from `file`, all the programs use a good port, one after the other. -/
def Usabile (file : Bytes) (as : List Avvio) : Prop :=
  ∃ usi, avvia as (some file) = some usi ∧ ∀ uso ∈ usi, Buona uso

/-- `porta/porta.txt` as it is shipped. -/
def portaTxt : Bytes := ascii "1030\n"

/-! ## How long it lasts -/

section Durata

variable {p : Int} {file : Bytes}

/-- A port is good as long as it fits in 16 bits: above 1025 it is neither 0 nor the secretary's own,
    and `htons` keeps it. -/
theorem buona_iff (hp : Numeral p file) (hlo : 1026 ≤ p) (indirizzo : Buffer 4) :
    Buona (⟨AF_INET, htons p, indirizzo⟩, some file) ↔ p ≤ 65535 := by
  unfold Buona
  rw [porta_secaddr]
  simp only [porta_htons]
  constructor
  · rintro ⟨q, file', hfile, hq, heq, -, hle, -⟩
    obtain rfl := Option.some.inj hfile
    have hpq : q = p := Option.some.inj ((scanD_eq_some.mpr hq).symm.trans (scanD_eq_some.mpr hp))
    omega
  · intro hle
    exact ⟨p, file, rfl, hp, by omega, by omega, by omega, by omega⟩

theorem usabile_cons {a : Avvio} {as : List Avvio} {servaddr : SockaddrIn} {file' : Bytes}
    (ha : a.usa (some file) = some (servaddr, some file')) :
    Usabile file (a :: as) ↔ Buona (servaddr, some file') ∧ Usabile file' as := by
  unfold Usabile
  rw [avvia, ha]
  simp only [Option.bind_eq_bind, Option.bind_some]
  constructor
  · rintro ⟨usi, h, hb⟩
    obtain ⟨usi', h', heq⟩ := Option.bind_eq_some_iff.mp h
    obtain rfl := Option.some.inj heq
    exact ⟨hb _ List.mem_cons_self, usi', h', fun uso hu => hb uso (List.mem_cons_of_mem _ hu)⟩
  · rintro ⟨hbuona, usi, h, hb⟩
    refine ⟨(servaddr, some file') :: usi, by rw [h]; rfl, fun uso hu => ?_⟩
    rcases List.mem_cons.mp hu with rfl | hu
    · exact hbuona
    · exact hb uso hu

/-- From a good port on, each start of the server takes the next one, and all are good until they leave
    the range. By induction on the starts. -/
theorem usabile_numeral (as : List Avvio) (hp : Numeral p file) (hlo : 1026 ≤ p) (hhi : p ≤ 65535) :
    Usabile file as ↔ p + as.countP Avvio.isServer ≤ 65535 := by
  induction as generalizing p file with
  | nil =>
    simp only [List.countP_nil]
    exact ⟨fun _ => by omega, fun _ => ⟨[], rfl, fun _ h => absurd h List.not_mem_nil⟩⟩
  | cons a as ih =>
    cases a with
    -- a server moves the number on by one, so one start fewer is left
    | server porta =>
      obtain ⟨file', hset, hp'⟩ := setPorta_numeral hp (by omega) (by omega) porta
      have husa : (Avvio.server porta).usa (some file) =
          some (⟨AF_INET, htons (p + 1), INADDR_ANY⟩, some file') := by
        rw [Avvio.usa, Server.servaddr, hset]
        rfl
      rw [usabile_cons husa, buona_iff hp' (by omega), List.countP_cons_of_pos rfl]
      constructor
      · rintro ⟨hle, h⟩
        have := (ih hp' (by omega) hle).mp h
        omega
      · intro h
        exact ⟨by omega, (ih hp' (by omega) (by omega)).mpr (by omega)⟩
    -- a secretary only reads the file
    | segreteria porta indirizzo =>
      have husa : (Avvio.segreteria porta indirizzo).usa (some file) =
          some (⟨AF_INET, htons p, indirizzo⟩, some file) := by
        rw [Avvio.usa, Segreteria.servaddr, getPorta, leggiPorta_numeral hp (by omega) (by omega)]
        rfl
      rw [usabile_cons husa, buona_iff hp hlo, List.countP_cons_of_neg Bool.false_ne_true, ih hp hlo hhi]
      exact and_iff_right hhi

theorem numeral_portaTxt : Numeral 1030 portaTxt := scanD_eq_some.mp (by decide +kernel)

/-- **The port is usable for 64505 starts of the server**, and for no more: the shipped file holds 1030,
    each start asks for the next number, and 65535 is the last one that fits the sixteen bits of the
    field. Starts of the secretary, which only read the file, may come in between. -/
theorem usabile_iff (as : List Avvio) :
    Usabile portaTxt as ↔ as.countP Avvio.isServer ≤ 64505 := by
  rw [usabile_numeral as numeral_portaTxt (by decide) (by decide)]
  omega

/-- The next start, number 64506, asks for port 65536, and the field says 0: the kernel would then
    choose a port itself. -/
theorem porta_zero : ¬ ∀ as : List Avvio, Usabile portaTxt as := by
  intro h
  have hle := (usabile_numeral _ numeral_portaTxt (by decide) (by decide)).mp
    (h (List.replicate 64506 (.server (Buffer.zero 4))))
  have hserver : (Avvio.server (Buffer.zero 4)).isServer = true := rfl
  rw [List.countP_replicate, if_pos hserver] at hle
  omega

end Durata

example : (SockaddrIn.mk AF_INET (htons 66561) INADDR_ANY).porta = Segreteria.secaddr.porta := by decide

end Universita

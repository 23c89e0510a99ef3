/-
  BEFORE THE LOOPS — what the three programs do between the head of `main` and `while (1)`.

  Everything here can fail, and almost every failure is the end of the program.  What it prints then is kept, with the
  text.  `fscanf` delivers the text of the file; `fclose` writes what was printed into it, and may fail to.

  The calls have their own type `Op`, apart from those of the main loops: here the numbers matter that the loops never
  look at — families, addresses, port numbers, the backlog of `listen` — and there a descriptor is all that is left.

  What the translation keeps, because it decides who meets whom:
    * the port is read from a file and, by the server, written back with one added; the two functions of the file begin
      alike, and `fscanf` on a stream that is NULL is not defined;
    * the secretary's check of its argument is `inet_pton(..) < 0`, which no text that is no address meets: it goes on,
      with the address that was in memory; the student's is `<= 0`;
    * the wrappers of `wrapper.c` end the program when they fail, each with a message of its own;
    * the secretary connects to the server before it listens, and listens before it connects to MySQL.

  Contents:
  1. `Op`, `Op.Ans`, `Avviamento` — the calls of this phase; `Capo` — who is at the other end of a connection.
  2. `inetPton` — the text of an address.
  3. `getSocket`, `bindListener`, `setPorta`, .. — the wrappers that the programs use; `setPorta_runs`, `getPorta_runs`:
     on a file that no one else touches they do what `Porta` says.
  4. `Server.prepara`, `Segreteria.prepara`, `ProgStudente.prepara`, and `Processo`.
-/
import Universita.Avvio
import Universita.Colloquio

set_option linter.unusedVariables false

namespace Universita

open Lib

deriving instance DecidableEq for SockaddrIn

/-! ## Calls -/

/-- The calls, each with what the source gives it. -/
inductive Op where
  /-- `socket(famiglia, tipo, protocollo)`. -/
  | socket (famiglia tipo protocollo : Nat)
  /-- `bind(fd, &servaddr, sizeof(servaddr))`. -/
  | bind (fd : Int) (servaddr : SockaddrIn)
  /-- `listen(fd, backlog)`. -/
  | listen (fd : Int) (backlog : Nat)
  /-- `connect(fd, &servaddr, sizeof(servaddr))`. -/
  | connect (fd : Int) (servaddr : SockaddrIn)
  /-- `fopen(nome, modo)` on the port file. -/
  | fopen (nome modo : Bytes)
  /-- `fscanf(file, "%d", &porta)`: it delivers the file's text. -/
  | fscanf
  /-- `fclose(file)`, with what was printed into it since `rewind`. -/
  | fclose (scritto : Bytes)
  /-- A message for the terminal. -/
  | printf (testo : Bytes)
  /-- To `stderr`. -/
  | fprintf (testo : Bytes)
  | perror (testo : Bytes)
  /-- The connection to MySQL, with the arguments as they stand in the source. -/
  | mysqlInit
  | mysqlRealConnect (host user passwd db : Bytes) (port : Nat)
  | mysqlError
  | mysqlClose
  /-- A variable without initialiser. -/
  | indeterminato (n : Nat)
  /-- `exit(status)`. -/
  | exit (status : Int)
  /-- Where C defines nothing. -/
  | indefinito
deriving DecidableEq

/-- The other end of a connection. -/
inductive Capo where
  /-- A listening socket of one of the three programs on this host. -/
  | qui (processo : Nat) (fd : Int)
  /-- Another program of this host that listens, such as MySQL's server. -/
  | estraneo
  /-- A socket that connects as well: TCP joins one to itself when it got the very port it asks for, and two that ask
      for each other's. -/
  | connettente
  /-- Another host. -/
  | altrove
deriving DecidableEq

/-- What a call answers. -/
@[reducible] def Op.Ans : Op → Type
  | .socket _ _ _ => Int
  | .bind _ _ => Option Nat            -- the port the socket has now, `none` on failure
  | .listen _ _ => Bool
  | .connect _ _ => Option Capo        -- `none` on failure
  | .fopen _ _ => Bool
  | .fscanf => Bytes
  | .fclose _ => Bool
  | .mysqlInit => Bool
  | .mysqlRealConnect _ _ _ _ _ => Bool
  | .mysqlError => Bytes
  | .indeterminato n => Buffer n
  | .exit _ | .indefinito => Empty
  | .printf _ | .fprintf _ | .perror _ | .mysqlClose => Unit

/-- The programs of this phase. -/
abbrev Avviamento := Prog Op Op.Ans

/-- Issue a call. -/
abbrev Op.esegui (o : Op) : Avviamento o.Ans := Prog.op o

/-- The constant of `sys/socket.h` on Linux. -/
def SOCK_STREAM : Nat := 1

/-! ## Addresses as text -/

/-- One of the four numbers: up to three digits, without a zero in front, at most 255. -/
def ottetto (ds : Bytes) : Option Byte :=
  if ds ≠ [] ∧ ds.length ≤ 3 ∧ ds.all isDigit ∧ (ds.head? = some 48 → ds = [48]) ∧ natOf ds ≤ 255 then
    some (natOf ds).toUInt8
  else none

/-- The address a text stands for. -/
def indirizzoIPv4 (testo : Bytes) : Option (Buffer 4) :=
  match testo.splitOn 46 with
  | [a, b, c, d] => do
    let a ← ottetto a
    let b ← ottetto b
    let c ← ottetto c
    let d ← ottetto d
    pure ⟨[a, b, c, d], rfl⟩
  | _ => none

/-- `inet_pton(AF_INET, testo, &sin_addr)`: 1, or 0 when the text is no address and `sin_addr` stays as it was. -/
def inetPton (testo : Bytes) (sinAddr : Buffer 4) : Int × Buffer 4 :=
  match indirizzoIPv4 testo with
  | some a => (1, a)
  | none => (0, sinAddr)

theorem inetPton_some {testo : Bytes} {a : Buffer 4} (h : indirizzoIPv4 testo = some a) (sinAddr : Buffer 4) :
    inetPton testo sinAddr = (1, a) := by
  rw [inetPton, h]

/-- `inet_pton` returns 0 for a text that is no address, and leaves what there was. -/
theorem inetPton_none {testo : Bytes} (h : indirizzoIPv4 testo = none) (sinAddr : Buffer 4) :
    inetPton testo sinAddr = (0, sinAddr) := by
  rw [inetPton, h]

/-! ## Wrappers -/

namespace Avviamento

/-- `exit(1)`. -/
def esci {α : Type} : Avviamento α := .call (.exit 1) nofun

/-- Where C defines nothing. -/
def ignoto {α : Type} : Avviamento α := .call .indefinito nofun

/-- `fprintf(stderr, testo); exit(1);` -/
def errore {α : Type} (testo : Bytes) : Avviamento α := do
  Op.esegui (.fprintf testo)
  esci

/-- `perror(testo); exit(1);` -/
def erroreDi {α : Type} (testo : Bytes) : Avviamento α := do
  Op.esegui (.perror testo)
  esci

/-- `getSocket(famiglia, tipo, protocollo)` of `wrapper.c`. -/
def getSocket (famiglia tipo protocollo : Nat) : Avviamento Int := do
  let sockfd ← Op.esegui (.socket famiglia tipo protocollo)
  if sockfd < 0 then errore (ascii "socket error" ++ [10]) else pure sockfd

/-- `getListenSocket(famiglia, tipo, protocollo)`: the same with another message. -/
def getListenSocket (famiglia tipo protocollo : Nat) : Avviamento Int := do
  let listenfd ← Op.esegui (.socket famiglia tipo protocollo)
  if listenfd < 0 then erroreDi (ascii "listen socket") else pure listenfd

/-- `bindListener(listenfd, servaddr, len)`. -/
def bindListener (listenfd : Int) (servaddr : SockaddrIn) : Avviamento Unit := do
  let porta ← Op.esegui (.bind listenfd servaddr)
  if porta = none then erroreDi (ascii "bind") else pure ()

/-- Both functions of the port file begin like this: `fscanf(NULL, ..)` is not defined. -/
def apriPorta : Avviamento Int := do
  let porta ← Op.esegui (.indeterminato 4)
  let fp ← Op.esegui (.fopen (ascii "porta/porta.txt") (ascii "r+"))
  if !fp then ignoto
  else do
    let file ← Op.esegui .fscanf
    pure (leggiPorta porta file)

/-- `setPorta()`: the number in the file, one added, written back and returned. One more than the
    largest `int` is not defined. -/
def setPorta : Avviamento Int := do
  let porta ← apriPorta
  if porta = 2 ^ 31 - 1 then ignoto
  else do
    let porta := porta + 1
    Op.esegui (.printf (ascii "porta: " ++ dec porta ++ [10]))
    let _ ← Op.esegui (.fclose (dec porta ++ [10]))
    pure porta

/-- `getPorta()`: the number in the file; nothing is printed into it. -/
def getPorta : Avviamento Int := do
  let porta ← apriPorta
  Op.esegui (.printf (ascii "porta: " ++ dec porta ++ [10]))
  let _ ← Op.esegui (.fclose [])
  pure porta

end Avviamento

/-- A world in which no one else touches the port file, and it is written when it is closed. -/
def suFile (file : Option Bytes) : (o : Op) → o.Ans → Option Bytes → Prop
  | .fopen _ _, fp, file' => fp = file.isSome ∧ file' = file
  | .fscanf, bs, file' => file = some bs ∧ file' = file
  | .fclose bs, ok, file' => ok = true ∧ file' = file.map fun old => overwrite old bs
  | _, _, file' => file' = file

section SuFile

variable {file file' : Option Bytes} {porta : Int}

/-- What both begin with: the number read from a file that is there, over what the variable held. -/
theorem apriPorta_runs : Prog.Runs suFile Avviamento.apriPorta file porta file' ↔
    file' = file ∧ ∃ memoria bs, file = some bs ∧ porta = leggiPorta memoria bs := by
  constructor
  · rintro ⟨memoria, file₁, hmem, fp, file₂, ⟨hfp, hfile₂⟩, h⟩
    obtain rfl : file₁ = file := hmem
    obtain rfl : file₂ = file₁ := hfile₂
    cases file₂ with
    | none =>
      obtain rfl : fp = false := hfp
      obtain ⟨r, -⟩ := h
      exact r.elim
    | some bs =>
      obtain rfl : fp = true := hfp
      obtain ⟨bs', file₃, ⟨hbs, hfile₃⟩, hporta, hfile'⟩ := h
      obtain rfl : bs = bs' := Option.some.inj hbs
      exact ⟨hfile'.trans hfile₃, memoria, bs, rfl, hporta⟩
  · rintro ⟨rfl, memoria, bs, rfl, rfl⟩
    exact ⟨memoria, some bs, rfl, true, some bs, ⟨rfl, rfl⟩, bs, some bs, ⟨rfl, rfl⟩, rfl, rfl⟩

/-- **`setPorta` alone on the file** is the function of `Porta`: calls on a file that nobody else
    touches are a function of its text, and of what the variable held. -/
theorem setPorta_runs : Prog.Runs suFile Avviamento.setPorta file porta file' ↔
    ∃ memoria, setPorta memoria file = some (porta, file') := by
  rw [Avviamento.setPorta, Prog.runs_bind]
  constructor
  · -- both functions open and read the file alike (`apriPorta_runs`); what differs is the number that is printed
    rintro ⟨n, file₁, hapri, h⟩
    obtain ⟨rfl, memoria, bs, rfl, rfl⟩ := apriPorta_runs.mp hapri
    refine ⟨memoria, ?_⟩
    split at h
    · -- the largest int has no successor: the addition is undefined
      obtain ⟨r, -⟩ := h
      exact r.elim
    · rename_i hmax
      obtain ⟨_, file₂, hfile₂, ok, file₃, ⟨-, hfile₃⟩, hporta, hfile'⟩ := h
      obtain rfl : file₂ = some bs := hfile₂
      rw [hporta, hfile', hfile₃, setPorta]
      exact if_neg hmax
  · rintro ⟨memoria, h⟩
    cases file with
    | none => cases h
    | some bs =>
      simp only [setPorta] at h
      split at h
      · cases h
      · rename_i hmax
        obtain ⟨rfl, rfl⟩ := Prod.mk.inj (Option.some.inj h)
        refine ⟨_, some bs, apriPorta_runs.mpr ⟨rfl, memoria, bs, rfl, rfl⟩, ?_⟩
        rw [if_neg hmax]
        exact ⟨(), some bs, rfl, true, _, ⟨rfl, rfl⟩, rfl, rfl⟩

theorem getPorta_runs : Prog.Runs suFile Avviamento.getPorta file porta file' ↔
    file' = file ∧ ∃ memoria, getPorta memoria file = some porta := by
  rw [Avviamento.getPorta, Prog.runs_bind]
  constructor
  · rintro ⟨n, file₁, hapri, _, file₂, hfile₂, ok, file₃, ⟨-, hfile₃⟩, hporta, hfile'⟩
    obtain ⟨rfl, memoria, bs, rfl, rfl⟩ := apriPorta_runs.mp hapri
    obtain rfl : file₂ = some bs := hfile₂
    exact ⟨by rw [hfile', hfile₃]; rfl, memoria, by rw [hporta, getPorta]⟩
  · rintro ⟨rfl, memoria, h⟩
    cases file' with
    | none => cases h
    | some bs =>
      obtain rfl := Option.some.inj h
      exact ⟨_, some bs, apriPorta_runs.mpr ⟨rfl, memoria, bs, rfl, rfl⟩, (), some bs, rfl, true, _,
        ⟨rfl, rfl⟩, rfl, rfl⟩

end SuFile

/-! ## The programs -/

open Avviamento (esci errore erroreDi getSocket getListenSocket bindListener)

/-- The server listens on the number it has left in the file. -/
def Server.prepara : Avviamento Int := do
  let listenfd ← Op.esegui (.socket AF_INET SOCK_STREAM 0)
  if listenfd < 0 then erroreDi (ascii "Errore nella creazione della socket!")
  else do
    let porta ← Avviamento.setPorta
    let esito ← Op.esegui (.bind listenfd ⟨AF_INET, htons porta, INADDR_ANY⟩)
    if esito = none then erroreDi (ascii "Errore nell'operazione di bind!")
    else do
      let esito ← Op.esegui (.listen listenfd 1024)
      if !esito then erroreDi (ascii "Errore nell'operazione di listen!")
      else do
        Op.esegui (.printf (ascii "Server in esecuzione..." ++ [10]))
        pure listenfd

/-- `fprintf(stderr, "Utilizzo: %s <indirizzoIP>\n", argv[0]); exit(1);` -/
def utilizzo {α : Type} (argv : List Bytes) : Avviamento α :=
  errore (ascii "Utilizzo: " ++ argv.headD (ascii "(null)") ++ ascii " <indirizzoIP>" ++ [10])

/-- The connection to MySQL. -/
def Segreteria.connetti : Avviamento Unit := do
  let conn ← Op.esegui .mysqlInit
  if !conn then errore (ascii "mysql_init() fallita" ++ [10])
  else do
    let esito ← Op.esegui (.mysqlRealConnect (ascii "localhost") (ascii "nonnt66") (ascii "password")
      (ascii "universita") 3306)
    if !esito then do
      let err ← Op.esegui .mysqlError
      Op.esegui (.fprintf (ascii "mysql_real_connect() fallita: " ++ err ++ [10]))
      Op.esegui .mysqlClose
      esci
    else Op.esegui (.printf (ascii "Connessione al database avvenuta con successo" ++ [10]))

/-- The secretary connects to the server, and then listens: `sockfd` and `listenfd`. -/
def Segreteria.prepara (argv : List Bytes) : Avviamento (Int × Int) :=
  match argv with
  | [_, indirizzo] => do
    let sockfd ← getSocket AF_INET SOCK_STREAM 0
    let porta ← Avviamento.getPorta
    let sinAddr ← Op.esegui (.indeterminato 4)
    let (esito, sinAddr) := inetPton indirizzo sinAddr
    if esito < 0 then errore (ascii "inet_pton error for " ++ indirizzo ++ [10])
    else do
      let esito ← Op.esegui (.connect sockfd ⟨AF_INET, htons porta, sinAddr⟩)
      if esito = none then errore (ascii "connect error" ++ [10])
      else do
        let listenfd ← getListenSocket AF_INET SOCK_STREAM 0
        bindListener listenfd secaddr
        let esito ← Op.esegui (.listen listenfd 5)
        if !esito then erroreDi (ascii "Errore nell'operazione di listen!")
        else do
          connetti
          pure (sockfd, listenfd)
  | _ => utilizzo argv

/-- `PORT_CLIENT` of the header: the secretary's port. -/
def ProgStudente.PORT_CLIENT : Int := 1025

/-- The student connects to the secretary.  The check of the arguments is made twice. -/
def ProgStudente.prepara (argv : List Bytes) : Avviamento Int :=
  if argv.length ≠ 2 then utilizzo argv
  else match argv with
  | [_, indirizzo] => do
    let sockfd ← Op.esegui (.socket AF_INET SOCK_STREAM 0)
    if sockfd < 0 then erroreDi (ascii "Errore nella creazione della socket!")
    else do
      let sinAddr ← Op.esegui (.indeterminato 4)
      let (esito, sinAddr) := inetPton indirizzo sinAddr
      if esito ≤ 0 then errore (ascii "Errore inet_pton per " ++ indirizzo ++ [10])
      else do
        let esito ← Op.esegui (.connect sockfd ⟨AF_INET, htons PORT_CLIENT, sinAddr⟩)
        if esito = none then do
          Op.esegui (.perror (ascii "Errore nella connect: "))
          Op.esegui (.printf [10])
          esci
        else pure sockfd
  | _ => utilizzo argv

/-- A program that is started, with its arguments. -/
inductive Processo where
  /-- `./server`. -/
  | server
  /-- `./segreteria`, with `argv`. -/
  | segreteria (argv : List Bytes)
  /-- `./studente`, with `argv`. -/
  | studente (argv : List Bytes)

/-- The descriptors with which a main loop begins. -/
inductive Pronto where
  | server (listenfd : Int)
  | segreteria (sockfd listenfd : Int)
  | studente (sockfd : Int)
deriving DecidableEq

/-- What a program does up to the head of its loop. -/
def Processo.prepara : Processo → Avviamento Pronto
  | .server => do
    let listenfd ← Server.prepara
    pure (.server listenfd)
  | .segreteria argv => do
    let (sockfd, listenfd) ← Segreteria.prepara argv
    pure (.segreteria sockfd listenfd)
  | .studente argv => do
    let sockfd ← ProgStudente.prepara argv
    pure (.studente sockfd)

end Universita

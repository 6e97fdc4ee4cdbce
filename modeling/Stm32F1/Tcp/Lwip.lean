import Stm32F1.Lib.Loop
import Stm32F1.Lib.Overlay

/-!
# lwIP as a TCP client sees it

The connection blocks, the packet buffers and the heap of lwIP 1.4.1, as far as
`tcp_client.c` and `main.c` of the TCP client project use them.  A pointer is the
number of the allocation that made it, so an address that is allocated again is
another number, and memory that was freed keeps its contents.

Every call that the client makes is entered in a log, newest first, and so is
what lwIP does on its own: freeing a connection, and handing over a received
packet.
-/

namespace Stm32F1.Tcp

open Prog

/-! ## `err.h` -/

abbrev ErrT := Int8

def ERR_OK : ErrT := 0
def ERR_MEM : ErrT := -1
def ERR_ABRT : ErrT := -10
def ERR_RST : ErrT := -11

/-! ## Data -/

/-- The states of a connection that a client goes through which never calls `tcp_close`. -/
inductive TcpState
  | CLOSED
  | SYN_SENT
  | ESTABLISHED
deriving DecidableEq, Repr

/-- `struct tcp_pcb`: the state, and the callbacks the client has registered. -/
structure Pcb where
  /-- Not freed. -/
  live : Bool
  state : TcpState
  callbackArg : Option Nat
  connected : Bool
  recv : Bool
  sent : Bool
  errf : Bool
  poll : Bool
deriving Repr

/-- `struct pbuf`; `len` is the length of the payload. -/
structure Pbuf where
  next : Option Nat
  payload : List UInt8
  totLen : Nat
  ref : UInt16
deriving Repr

def Pbuf.len (b : Pbuf) : Nat := b.payload.length

/-- `enum tcp_client_states` -/
inductive TcpClientStates
  | ES_TCPCLIENT_NONE
  | ES_TCPCLIENT_CONNECTED
  | ES_TCPCLIENT_CLOSING
deriving DecidableEq, Repr

structure TcpClientStruct where
  state : TcpClientStates
  pcb : Nat
  p : Option Nat
deriving Repr

def TCP_CLIENT_RX_BUFSIZE : Nat := 1500
def TCP_CLIENT_TX_BUFSIZE : Nat := 200

/-- A text that fits into `tcp_client_sendbuf` with its NUL. -/
structure Message where
  bytes : List UInt8
  short : bytes.length < TCP_CLIENT_TX_BUFSIZE
  text : 0 ∉ bytes

/-- Entries of the log. -/
inductive Act
  | tcpNew (pcb : Nat)
  | tcpConnect (pcb : Nat)
  | tcpAbort (pcb : Nat)
  | tcpArg (pcb : Nat)
  | tcpRecv (pcb : Nat)
  | tcpSent (pcb : Nat)
  | tcpErr (pcb : Nat)
  | tcpPoll (pcb : Nat)
  | tcpRecved (pcb len : Nat)
  | tcpWrite (pcb : Nat) (bytes : List UInt8) (result : ErrT)
  | tcpOutput (pcb : Nat)
  | memMalloc (es : Nat)
  | memFree (es : Nat)
  | pbufAlloc (p : Nat)
  | pbufRef (p : Nat)
  | pbufFree (p : Nat)
  /-- lwIP frees the connection by itself. -/
  | freed (pcb : Nat)
  /-- lwIP hands a received packet over. -/
  | handed (p : Nat)
  /-- The connected callback of this connection sets `LWIP_CONNECTED`. -/
  | flagged (pcb : Nat)
  /-- The main loop asks for a message to be sent. -/
  | request (m : List UInt8)
deriving DecidableEq, Repr

/-- The memory of lwIP and of the client. -/
structure World where
  pcbs : Nat → Pcb
  nextPcb : Nat
  pbufs : Nat → Pbuf
  nextPbuf : Nat
  es : Nat → TcpClientStruct
  nextEs : Nat
  tcpClientFlag : UInt8
  tcpClientSendbuf : List UInt8
  tcpClientRecvbuf : Nat → UInt8
  /-- The variable `tcppcb` of `main`. -/
  tcppcb : Nat
  log : List Act

/-- Before `main`. -/
def World.boot : World where
  pcbs := fun _ ↦ ⟨false, .CLOSED, none, false, false, false, false, false⟩
  nextPcb := 0
  pbufs := fun _ ↦ ⟨none, [], 0, 0⟩
  nextPbuf := 0
  es := fun _ ↦ ⟨.ES_TCPCLIENT_NONE, 0, none⟩
  nextEs := 0
  tcpClientFlag := 0
  tcpClientSendbuf := List.replicate TCP_CLIENT_TX_BUFSIZE 0
  tcpClientRecvbuf := fun _ ↦ 0
  tcppcb := 0
  log := []

/-! ## Memory -/

def note (a : Act) : Prog World Unit := Prog.modify fun s ↦ { s with log := a :: s.log }

def pcbAt (pcb : Nat) : Prog World Pcb := Prog.read fun s ↦ s.pcbs pcb

def setPcb (pcb : Nat) (f : Pcb → Pcb) : Prog World Unit :=
  Prog.modify fun s ↦ { s with pcbs := Function.update s.pcbs pcb (f (s.pcbs pcb)) }

def pbufAt (p : Nat) : Prog World Pbuf := Prog.read fun s ↦ s.pbufs p

def setPbuf (p : Nat) (f : Pbuf → Pbuf) : Prog World Unit :=
  Prog.modify fun s ↦ { s with pbufs := Function.update s.pbufs p (f (s.pbufs p)) }

def esAt (es : Nat) : Prog World TcpClientStruct := Prog.read fun s ↦ s.es es

def setEs (es : Nat) (f : TcpClientStruct → TcpClientStruct) : Prog World Unit :=
  Prog.modify fun s ↦ { s with es := Function.update s.es es (f (s.es es)) }

def getFlag : Prog World UInt8 := Prog.read World.tcpClientFlag

def setFlag (f : UInt8 → UInt8) : Prog World Unit :=
  Prog.modify fun s ↦ { s with tcpClientFlag := f s.tcpClientFlag }

/-- `if (p) f (p);` -/
def ifPtr (p : Option Nat) (f : Nat → Prog World Unit) : Prog World Unit :=
  match p with
  | some p => f p
  | none => pure ()

@[simp] theorem ifPtr_some (p : Nat) (f : Nat → Prog World Unit) : ifPtr (some p) f = f p := rfl

/-- An entry is added to the log. -/
@[simp] theorem note_apply (a : Act) (s : World) :
    note a s = some ((), { s with log := a :: s.log }) := rfl

/-- Reading a control block changes nothing. -/
@[simp] theorem pcbAt_apply (pcb : Nat) (s : World) : pcbAt pcb s = some (s.pcbs pcb, s) := rfl

/-- One control block changes. -/
@[simp] theorem setPcb_apply (pcb : Nat) (f : Pcb → Pcb) (s : World) : setPcb pcb f s =
    some ((), { s with pcbs := Function.update s.pcbs pcb (f (s.pcbs pcb)) }) := rfl

/-- Reading a buffer changes nothing. -/
@[simp] theorem pbufAt_apply (p : Nat) (s : World) : pbufAt p s = some (s.pbufs p, s) := rfl

/-- One buffer changes. -/
@[simp] theorem setPbuf_apply (p : Nat) (f : Pbuf → Pbuf) (s : World) : setPbuf p f s =
    some ((), { s with pbufs := Function.update s.pbufs p (f (s.pbufs p)) }) := rfl

/-- Reading a structure changes nothing. -/
@[simp] theorem esAt_apply (es : Nat) (s : World) : esAt es s = some (s.es es, s) := rfl

/-- One structure changes. -/
@[simp] theorem setEs_apply (es : Nat) (f : TcpClientStruct → TcpClientStruct) (s : World) :
    setEs es f s = some ((), { s with es := Function.update s.es es (f (s.es es)) }) := rfl

/-- Reading `tcp_client_flag` changes nothing. -/
@[simp] theorem getFlag_apply (s : World) : getFlag s = some (s.tcpClientFlag, s) := rfl
/-- `mem_malloc`, which may fail. -/
def memMalloc (mem : Bool) : Prog World (Option Nat) :=
  if mem then do
    let es ← Prog.read World.nextEs
    Prog.modify fun s ↦ { s with nextEs := s.nextEs + 1 }
    note (.memMalloc es)
    pure (some es)
  else pure none

def memFree (es : Nat) : Prog World Unit := note (.memFree es)

/-! ## Connections -/

/-- `tcp_new`; lwIP makes room for a connection if it has to. -/
def tcpNew : Prog World Nat := do
  let pcb ← Prog.read World.nextPcb
  Prog.modify fun s ↦ { s with nextPcb := s.nextPcb + 1 }
  setPcb pcb fun _ ↦ ⟨true, .CLOSED, none, false, false, false, false, false⟩
  note (.tcpNew pcb)
  pure pcb

/-- `tcp_connect`, the connected callback being registered. -/
def tcpConnect (pcb : Nat) : Prog World Unit := do
  note (.tcpConnect pcb)
  setPcb pcb fun c ↦ { c with connected := true, state := .SYN_SENT }

def tcpArg (pcb : Nat) (arg : Option Nat) : Prog World Unit := do
  note (.tcpArg pcb)
  setPcb pcb fun c ↦ { c with callbackArg := arg }

def tcpRecv (pcb : Nat) (recv : Bool) : Prog World Unit := do
  note (.tcpRecv pcb)
  setPcb pcb fun c ↦ { c with recv := recv }

def tcpSent (pcb : Nat) (sent : Bool) : Prog World Unit := do
  note (.tcpSent pcb)
  setPcb pcb fun c ↦ { c with sent := sent }

def tcpErr (pcb : Nat) (errf : Bool) : Prog World Unit := do
  note (.tcpErr pcb)
  setPcb pcb fun c ↦ { c with errf := errf }

def tcpPoll (pcb : Nat) (poll : Bool) : Prog World Unit := do
  note (.tcpPoll pcb)
  setPcb pcb fun c ↦ { c with poll := poll }

def tcpRecved (pcb len : Nat) : Prog World Unit := note (.tcpRecved pcb len)

def tcpOutput (pcb : Nat) : Prog World Unit := note (.tcpOutput pcb)

/-- `tcp_write`, whose result is lwIP's. -/
def tcpWrite (pcb : Nat) (bytes : List UInt8) (result : ErrT) : Prog World ErrT := do
  note (.tcpWrite pcb bytes result)
  pure result

/-! ## Packet buffers -/

/-- The `i`-th buffer of a new chain. -/
def freshPbuf (base : Nat) (segs : List (List UInt8)) (i : Nat) : Pbuf where
  next := if i + 1 < segs.length then some (base + i + 1) else none
  payload := segs.getD i []
  totLen := (segs.drop i).flatten.length
  ref := 1

/-- A new chain with these payloads, each buffer referenced once. -/
def newChain (segs : List (List UInt8)) : Prog World (Option Nat) :=
  if segs = [] then pure none
  else do
    let p ← Prog.read World.nextPbuf
    Prog.modify fun s ↦ { s with
      nextPbuf := p + segs.length
      pbufs := overlay s.pbufs p segs.length (freshPbuf p segs) }
    pure (some p)

/-- `pbuf_alloc` from the pool: a chain, with whatever its buffers contained, or `NULL`. -/
def pbufAlloc (alloc : Option (List (List UInt8))) : Prog World (Option Nat) := do
  let p ← newChain (alloc.getD [])
  match p with
  | some p =>
      note (.pbufAlloc p)
      pure (some p)
  | none => pure none

def pbufRef (p : Nat) : Prog World Unit := do
  note (.pbufRef p)
  setPbuf p fun b ↦ { b with ref := b.ref + 1 }

/-- The loop of `pbuf_free`. -/
def pbufFreeLoop (p : Option Nat) : Prog World Unit :=
  repeatM (fun p ↦
    match p with
    | some p => do
        setPbuf p fun b ↦ { b with ref := b.ref - 1 }
        let b ← pbufAt p
        if b.ref = 0 then pure (.inl b.next) else pure (.inl none)
    | none => pure (.inr ())) p

def pbufFree (p : Nat) : Prog World Unit := do
  note (.pbufFree p)
  pbufFreeLoop (some p)

/-- The loop of `pbuf_take`. -/
def pbufTakeLoop (p : Option Nat) (data : List UInt8) : Prog World Unit :=
  repeatM (fun (p, data) ↦
    if data = [] then pure (.inr ())
    else match p with
      | some p => do
          let b ← pbufAt p
          let bufCopyLen := min data.length b.len
          setPbuf p fun b ↦ { b with
            payload := data.take bufCopyLen ++ b.payload.drop bufCopyLen }
          pure (.inl (b.next, data.drop bufCopyLen))
      | none => pure (.inr ())) (p, data)

/-- `pbuf_take` of the bytes `data`. -/
def pbufTake (buf : Option Nat) (data : List UInt8) : Prog World Unit :=
  match buf with
  | some p => do
      let b ← pbufAt p
      if b.totLen < data.length then pure () else pbufTakeLoop (some p) data
  | none => pure ()

end Stm32F1.Tcp

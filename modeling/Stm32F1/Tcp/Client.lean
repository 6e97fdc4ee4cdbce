import Stm32F1.Tcp.Lwip
import Stm32F1.Lib.History

/-!
# The TCP client

`tcp_client.c` function by function, the actions of the main loop that concern
the connection, and the steps of the whole: lwIP calls a callback that is
registered on a connection that was not freed, or the main loop acts.  Callbacks
run inside the main loop, so no step interrupts another.

What lwIP decides is part of the event: the result of `mem_malloc`, the chain
that `pbuf_alloc` returns, and, for each round of the send loop, the send buffer
and the result of `tcp_write`.
-/

namespace Stm32F1.Tcp

open Prog

def LWIP_CONNECTED : UInt8 := 0x20
def LWIP_NEW_DATA : UInt8 := 0x40
def LWIP_SEND_DATA : UInt8 := 0x80

/-- What lwIP answers in the rounds of the send loop. -/
structure Answers where
  /-- `tcp_sndbuf` -/
  sndbuf : Nat → UInt16
  /-- The result of `tcp_write`. -/
  write : Nat → ErrT

/-! ## `tcp_client.c` -/

def tcpClientError (_arg : Option Nat) (_err : ErrT) : Prog World Unit := pure ()

/-- `tcp_abort`: the connection is freed, then the err callback is told. -/
def tcpAbort (pcb : Nat) : Prog World Unit := do
  note (.tcpAbort pcb)
  let c ← pcbAt pcb
  setPcb pcb fun c ↦ { c with live := false }
  when c.errf (tcpClientError c.callbackArg ERR_ABRT)

def tcpClientConnectionClose (tpcb : Nat) (es : Option Nat) : Prog World Unit := do
  tcpAbort tpcb
  tcpArg tpcb none
  tcpRecv tpcb false
  tcpSent tpcb false
  tcpErr tpcb false
  tcpPoll tpcb false
  ifPtr es memFree
  setFlag fun flag ↦ flag &&& ~~~LWIP_CONNECTED

def tcpClientConnected (tpcb : Nat) (err : ErrT) (mem : Bool) : Prog World ErrT :=
  if err = ERR_OK then do
    let es ← memMalloc mem
    match es with
    | some es => do
        setEs es fun _ ↦ ⟨.ES_TCPCLIENT_CONNECTED, tpcb, none⟩
        tcpArg tpcb (some es)
        tcpRecv tpcb true
        tcpErr tpcb true
        tcpSent tpcb true
        tcpPoll tpcb true
        setFlag fun flag ↦ flag ||| LWIP_CONNECTED
        note (.flagged tpcb)
        pure ERR_OK
    | none => do
        tcpClientConnectionClose tpcb none
        pure ERR_MEM
  else do
    tcpClientConnectionClose tpcb none
    pure err

/-- How many bytes of a segment are copied to the offset `data_len`.  `data_len` is unsigned, so
what is left of the buffer is the difference of unsigned numbers. -/
def copyLen (len dataLen : UInt32) : UInt32 :=
  if len > .ofNat TCP_CLIENT_RX_BUFSIZE - dataLen then .ofNat TCP_CLIENT_RX_BUFSIZE - dataLen
  else len

/-- The loop that copies a received chain, from the offset `data_len` on. -/
def copyLoop (q : Option Nat) (dataLen : UInt32) : Prog World Unit :=
  repeatM (fun (q, dataLen) ↦
    match q with
    | some q => do
        let b ← pbufAt q
        let len := UInt32.ofNat b.len
        Prog.modify fun s ↦ { s with
          tcpClientRecvbuf := overlay s.tcpClientRecvbuf dataLen.toNat (copyLen len dataLen).toNat
            fun i ↦ b.payload.getD i 0 }
        if dataLen + len > .ofNat TCP_CLIENT_RX_BUFSIZE then pure (.inr ())
        else pure (.inl (b.next, dataLen + len))
    | none => pure (.inr ())) (q, dataLen)

def tcpClientRecv (es tpcb : Nat) (p : Option Nat) (err : ErrT) : Prog World ErrT :=
  match p with
  | none => do
      setEs es fun e ↦ { e with state := .ES_TCPCLIENT_CLOSING }
      setEs es fun e ↦ { e with p := none }
      pure ERR_OK
  | some p =>
      if err ≠ ERR_OK then do
        pbufFree p
        pure err
      else do
        let e ← esAt es
        if e.state = .ES_TCPCLIENT_CONNECTED then do
          Prog.modify fun s ↦ { s with
            tcpClientRecvbuf := overlay s.tcpClientRecvbuf 0 TCP_CLIENT_RX_BUFSIZE fun _ ↦ 0 }
          copyLoop (some p) 0
          setFlag fun flag ↦ flag ||| LWIP_NEW_DATA
          let b ← pbufAt p
          tcpRecved tpcb b.totLen
          pbufFree p
          pure ERR_OK
        else do
          let b ← pbufAt p
          tcpRecved tpcb b.totLen
          setEs es fun e ↦ { e with p := none }
          pbufFree p
          pure ERR_OK

/-- What `tcp_client_senddata` does about the result of a write. -/
def afterWrite (es ptr : Nat) (next : Option Nat) (wrErr : ErrT) : Prog World Unit :=
  if wrErr = ERR_OK then do
    setEs es fun e ↦ { e with p := next }
    ifPtr next pbufRef
    pbufFree ptr
  else if wrErr = ERR_MEM then
    setEs es fun e ↦ { e with p := some ptr }
  else pure ()

/-- One round of the loop of `tcp_client_senddata`, which goes on while the last write went well and
a buffer is left that fits. -/
def senddataRound (tpcb es : Nat) (answers : Answers) (wrErr : ErrT) (i : Nat) :
    Prog World ((ErrT × Nat) ⊕ Unit) := do
  let e ← esAt es
  match e.p with
  | some ptr => do
      let b ← pbufAt ptr
      if wrErr = ERR_OK ∧ b.len ≤ (answers.sndbuf i).toNat then do
        let wrErr ← tcpWrite tpcb b.payload (answers.write i)
        afterWrite es ptr b.next wrErr
        tcpOutput tpcb
        pure (.inl (wrErr, i + 1))
      else pure (.inr ())
  | none => pure (.inr ())

def senddataLoop (tpcb es : Nat) (answers : Answers) (wrErr : ErrT) (i : Nat) : Prog World Unit :=
  repeatM (fun (wrErr, i) ↦ senddataRound tpcb es answers wrErr i) (wrErr, i)

def tcpClientSenddata (tpcb es : Nat) (answers : Answers) : Prog World Unit :=
  senddataLoop tpcb es answers ERR_OK 0

/-- `strlen` of a text in `tcp_client_sendbuf`. -/
def strlen (buf : List UInt8) : Nat := (buf.takeWhile (· ≠ 0)).length

/-- The branch of `tcp_client_poll` for a message that is to be sent. -/
def pollSend (es tpcb : Nat) (alloc : Option (List (List UInt8))) (answers : Answers) :
    Prog World Unit := do
  let p ← pbufAlloc alloc
  setEs es fun e ↦ { e with p := p }
  let buf ← Prog.read World.tcpClientSendbuf
  pbufTake p (buf.take (strlen buf))
  tcpClientSenddata tpcb es answers
  setFlag fun flag ↦ flag &&& ~~~LWIP_SEND_DATA
  let e ← esAt es
  ifPtr e.p pbufFree

/-- The other branch. -/
def pollClose (es tpcb : Nat) : Prog World Unit := do
  let e ← esAt es
  if e.state = .ES_TCPCLIENT_CLOSING then tcpClientConnectionClose tpcb (some es)
  else pure ()

def tcpClientPoll (arg : Option Nat) (tpcb : Nat) (alloc : Option (List (List UInt8)))
    (answers : Answers) : Prog World ErrT :=
  match arg with
  | some es => do
      let flag ← getFlag
      let _ ← if flag &&& LWIP_SEND_DATA ≠ 0 then pollSend es tpcb alloc answers
        else pollClose es tpcb
      pure ERR_OK
  | none => do
      tcpAbort tpcb
      pure ERR_ABRT

def tcpClientSent (es tpcb : Nat) (_len : UInt16) (answers : Answers) : Prog World ErrT := do
  let e ← esAt es
  ifPtr e.p fun _ ↦ tcpClientSenddata tpcb es answers
  pure ERR_OK

/-! ## `main.c` -/

/-- `tcppcb = tcp_new (); tcp_connect (tcppcb, …);` -/
def openConnection : Prog World Unit := do
  let pcb ← tcpNew
  Prog.modify fun s ↦ { s with tcppcb := pcb }
  tcpConnect pcb

/-- `if (tcp_client_flag & LWIP_NEW_DATA)` -/
def onNewData : Prog World Unit := do
  let flag ← getFlag
  if flag &&& LWIP_NEW_DATA ≠ 0 then setFlag fun flag ↦ flag &&& ~~~LWIP_NEW_DATA
  else pure ()

/-- `sprintf` of a text into a buffer. -/
def sprintf (buf : List UInt8) (m : Message) : List UInt8 :=
  m.bytes ++ 0 :: buf.drop (m.bytes.length + 1)

/-- `if (key == KEY0_PRES)`; the text of the source is `clientText`. -/
def onKey0 (m : Message) : Prog World Unit := do
  Prog.modify fun s ↦ { s with tcpClientSendbuf := sprintf s.tcpClientSendbuf m }
  setFlag fun flag ↦ flag ||| LWIP_SEND_DATA
  note (.request m.bytes)

/-- `"This is a TCP Client\r\n"` -/
def clientText : Message where
  bytes := [0x54, 0x68, 0x69, 0x73, 0x20, 0x69, 0x73, 0x20, 0x61, 0x20, 0x54, 0x43, 0x50, 0x20,
    0x43, 0x6C, 0x69, 0x65, 0x6E, 0x74, 0x0D, 0x0A]
  short := by decide
  text := by decide

/-- `if (key == KEY1_PRES)` -/
def onKey1 : Prog World Unit := do
  let tcppcb ← Prog.read World.tcppcb
  tcpClientConnectionClose tcppcb none

/-- `if (i++ > 200)` -/
def onStatus : Prog World Unit := do
  let flag ← getFlag
  if flag &&& LWIP_CONNECTED ≠ 0 then pure ()
  else do
    let tcppcb ← Prog.read World.tcppcb
    tcpClientConnectionClose tcppcb none
    openConnection

/-! ## Steps -/

inductive Event
  /-- The connection is made, or fails with `err`. -/
  | connected (pcb : Nat) (err : ErrT) (mem : Bool)
  /-- A packet with these payloads, or, if there is none, the end of what the peer sends. -/
  | recv (pcb : Nat) (p : Option (List (List UInt8))) (err : ErrT)
  | sent (pcb : Nat) (len : UInt16) (answers : Answers)
  | poll (pcb : Nat) (alloc : Option (List (List UInt8))) (answers : Answers)
  /-- lwIP frees the connection: the peer has reset it, or lwIP gives it up. -/
  | err (pcb : Nat) (err : ErrT)
  | newData
  | key0 (m : Message)
  | key1
  | status

/-- When lwIP may call a callback. -/
def Event.Enabled (s : World) : Event → Prop
  | .connected pcb _ _ =>
      (s.pcbs pcb).live ∧ (s.pcbs pcb).state = .SYN_SENT ∧ (s.pcbs pcb).connected
  | .recv pcb p _ => (s.pcbs pcb).live ∧ (s.pcbs pcb).recv ∧ p ≠ some []
  | .sent pcb _ _ => (s.pcbs pcb).live ∧ (s.pcbs pcb).sent
  | .poll pcb alloc _ => (s.pcbs pcb).live ∧ (s.pcbs pcb).poll ∧
      ∀ segs, alloc = some segs → segs ≠ [] ∧ segs.flatten.length = strlen s.tcpClientSendbuf
  | .err pcb _ => (s.pcbs pcb).live
  | _ => True

/-- lwIP makes a received packet and calls the recv callback. -/
def deliver (segs : List (List UInt8)) : Prog World (Option Nat) := do
  let p ← newChain segs
  match p with
  | some p =>
      note (.handed p)
      pure (some p)
  | none => pure none

/-- What happens at an event.  The recv and the sent callback take their argument for a
structure; they are registered only together with one. -/
def Event.body : Event → Prog World Unit
  | .connected pcb e mem => do
      setPcb pcb fun c ↦ { c with state := .ESTABLISHED }
      let _ ← tcpClientConnected pcb e mem
  | .recv pcb segs e => do
      let c ← pcbAt pcb
      let p ← deliver (segs.getD [])
      match c.callbackArg with
      | some es => do
          let _ ← tcpClientRecv es pcb p e
      | none => pure ()
  | .sent pcb len answers => do
      let c ← pcbAt pcb
      match c.callbackArg with
      | some es => do
          let _ ← tcpClientSent es pcb len answers
      | none => pure ()
  | .poll pcb alloc answers => do
      let c ← pcbAt pcb
      let _ ← tcpClientPoll c.callbackArg pcb alloc answers
  | .err pcb e => do
      note (.freed pcb)
      let c ← pcbAt pcb
      when c.errf (tcpClientError c.callbackArg e)
      setPcb pcb fun c ↦ { c with live := false }
  | .newData => onNewData
  | .key0 m => onKey0 m
  | .key1 => onKey1
  | .status => onStatus

def Start (s : World) : Prop := openConnection World.boot = some ((), s)

def Step (s : World) (e : Event) (s' : World) : Prop :=
  e.Enabled s ∧ e.body s = some ((), s')

end Stm32F1.Tcp

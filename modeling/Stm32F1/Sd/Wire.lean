import Stm32F1.Sd.Driver
import Stm32F1.Lib.Overlay

/-!
# An arbitrary card, and what the bus has seen

`Wire` answers the `n`-th exchange with the `n`-th byte of a stream, whatever it
is sent.  Beside the stream it carries a *monitor*, which follows the protocol on
the two data lines and records what happened there: every reply to a command,
every block clocked out with the response to it, and every block that followed a
start token.  The monitor reads only what is on the bus, so it says what was sent
and answered independently of what the driver believes.
-/

namespace Stm32F1.Sd

open Prog

/-! ## The monitor -/

/-- What is recorded of the bus. -/
inductive Record
  /-- A command frame, with the first byte after it whose top bit is clear, if that is one of
  the 32 that may be the reply. -/
  | reply (frame : List UInt8) (r1 : UInt8)
  /-- 512 bytes sent after a start token, and the data response. -/
  | block (data : List UInt8) (response : UInt8)
  /-- The 512 bytes received after a start token. -/
  | data (bytes : List UInt8)
deriving DecidableEq, Repr

/-- A block with a data response that accepts it. -/
def Record.accepted : Record → Bool
  | .block _ response => response &&& 0x1F == 0x05
  | _ => false

/-- Where in the protocol the bus is. -/
inductive Phase
  | idle
  /-- Some bytes of a command frame were sent. -/
  | frame (bs : List UInt8)
  /-- The byte after `CMD12` does not count. -/
  | stuff (frame : List UInt8)
  /-- The reply to the frame is awaited, for so many bytes after the next one. -/
  | answer (frame : List UInt8) (left : Nat)
  /-- A write command was accepted; this start token opens a block. -/
  | token (tok : UInt8)
  /-- Some bytes of a block were sent. -/
  | out (tok : UInt8) (bs : List UInt8)
  /-- A read command was accepted; start tokens are awaited, more than one or not. -/
  | await (multi : Bool)
  /-- Some bytes of a block were received. -/
  | inn (multi : Bool) (bs : List UInt8)
deriving DecidableEq, Repr

/-- The phase that a reply to a command opens. -/
def Phase.opened (frame : List UInt8) (r1 : UInt8) : Phase :=
  if r1 ≠ 0 then .idle
  else match frame.head? with
    | some 0x51 => .await false
    | some 0x52 => .await true
    | some 0x58 => .token 0xFE
    | some 0x59 => .token 0xFC
    | _ => .idle

structure Monitor where
  selected : Bool
  phase : Phase
  recs : List Record
deriving DecidableEq, Repr

namespace Monitor

/-- The phase after a byte that may open a command frame. -/
def listen (otherwise : Phase) (mosi : UInt8) : Phase :=
  if mosi &&& 0xC0 = 0x40 then .frame [mosi] else otherwise

/-- One exchange with the card selected: the next phase, and what is recorded. -/
def step (mosi miso : UInt8) : Phase → Phase × List Record
  | .idle => (listen .idle mosi, [])
  | .frame bs =>
      if bs.length < 5 then (.frame (bs ++ [mosi]), [])
      else if bs.head? = some 0x4C then (.stuff (bs ++ [mosi]), [])
      else (.answer (bs ++ [mosi]) 31, [])
  | .stuff frame => (.answer frame 31, [])
  | .answer frame left =>
      if miso &&& 0x80 = 0 then (.opened frame miso, [.reply frame miso])
      else if left = 0 then (.idle, [])
      else (.answer frame (left - 1), [])
  | .token tok =>
      if mosi = tok then (.out tok [], [])
      else if mosi = 0xFD then (.idle, [])
      else (listen (.token tok) mosi, [])
  | .out tok bs =>
      if bs.length < 514 then (.out tok (bs ++ [mosi]), [])
      else (if tok = 0xFC then .token tok else .idle, [.block (bs.take 512) miso])
  | .await multi =>
      if miso = 0xFE then (.inn multi [], []) else (listen (.await multi) mosi, [])
  | .inn multi bs =>
      if bs.length < 513 then (.inn multi (bs ++ [miso]), [])
      else (if multi then .await true else .idle, [.data (bs.take 512)])

variable (w : Monitor)

/-- The chip-select line ends whatever was going on. -/
def cs (level : Bool) : Monitor := { w with selected := !level, phase := .idle }

def exchange (mosi miso : UInt8) : Monitor :=
  if w.selected then
    { w with
      phase := (step mosi miso w.phase).1
      recs := w.recs ++ (step mosi miso w.phase).2 }
  else w

end Monitor

/-! ## The wire -/

/-- A bus on which the `n`-th byte received is `miso n`. -/
structure Wire where
  miso : Nat → UInt8
  pos : Nat
  monitor : Monitor

instance Wire.instSpiDevice : SpiDevice Wire where
  cs level w := { w with monitor := w.monitor.cs level }
  exchange b w :=
    (w.miso w.pos, { w with pos := w.pos + 1, monitor := w.monitor.exchange b (w.miso w.pos) })

@[simp] theorem Wire.cs_eq (level : Bool) (w : Wire) :
    SpiDevice.cs level w = { w with monitor := w.monitor.cs level } := rfl

@[simp] theorem Wire.exchange_eq (b : UInt8) (w : Wire) :
    SpiDevice.exchange b w = (w.miso w.pos,
      { w with pos := w.pos + 1, monitor := w.monitor.exchange b (w.miso w.pos) }) := rfl

/-! ## Reading the stream

What the driver is told by the stream `s` from position `p` on, for each thing it can wait for. -/

section Stream

variable (s : Nat → UInt8) (p : Nat)

/-- The position of the last byte read by a loop that makes at most `k + 1` rounds and stops at a
byte that is `good`. -/
def hit (good : UInt8 → Bool) (k : Nat) : Nat := p + scan (fun i ↦ good (s (p + i))) 0 k

theorem hit_of_good {s : Nat → UInt8} {p : Nat} {good : UInt8 → Bool} (h : good (s p) = true)
    (k : Nat) : hit s p good k = p := by
  cases k with
  | zero => rfl
  | succ k =>
      have h₀ : good (s (p + 0)) = true := h
      rw [hit, scan, if_pos h₀, Nat.add_zero]

/-- The last byte of the wait for a ready card. -/
def readyHit : Nat := hit s p (fun b ↦ b == 0xFF) 0xFFFFFE

/-- The card is ready within the limit of `SD_WaitReady`. -/
def ready : Bool := s (readyHit s p) == 0xFF

/-- The last byte of the wait for a reply to the command `cmd`, the card being ready. -/
def replyHit (cmd : UInt8) : Nat :=
  hit s (readyHit s (p + 1) + 7 + if cmd = CMD12 then 1 else 0) (fun b ↦ b &&& 0x80 == 0) 0x1F

/-- What `SD_SendCmd` is answered. -/
def reply (cmd : UInt8) : UInt8 := if ready s (p + 1) then s (replyHit s p cmd) else 0xFF

/-- Where the stream stands after `SD_SendCmd`. -/
def afterCmd (cmd : UInt8) : Nat :=
  if ready s (p + 1) then replyHit s p cmd + 1 else readyHit s (p + 1) + 2

/-- A block sent now is waited for and accepted. -/
def blockOk : Bool := ready s p && s (readyHit s p + 516) &&& 0x1F == 0x05

/-- Where the stream stands after a block. -/
def afterBlock : Nat := if ready s p then readyHit s p + 517 else readyHit s p + 1

/-- The last byte of the wait for a start token. -/
def tokenHit : Nat := hit s p (fun b ↦ b == 0xFE) 0xFFFF

/-- The start token comes within the limit of `SD_GetResponse`. -/
def tokenFound : Bool := tokenHit s p < p + 0xFFFF

/-- Where the stream stands after a block was asked for. -/
def afterData : Nat := if tokenFound s p then tokenHit s p + 515 else tokenHit s p + 1

end Stream

end Stm32F1.Sd

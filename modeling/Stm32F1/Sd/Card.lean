import Stm32F1.Sd.Driver
import Stm32F1.Lib.Overlay

/-!
# A conforming card

An SD or MMC card in SPI mode, byte by byte.  What the card has to say is a queue
of bytes; a card with nothing to say answers 0xFF.  The bytes it receives are
collected into command frames, or, after a write command, into data blocks.

What the standard leaves open is the *timing*: how many bytes pass before a
reply, before a block and while the card is busy, and how often a card that was
reset is asked to begin before it does.  It is chosen by the card, anew each time,
within the bounds the driver waits for.
-/

namespace Stm32F1.Sd

/-! ## What a card chooses -/

/-- The choices of a card, by the number of choices made before. -/
structure Timing where
  /-- The bytes before a reply, which comes within 8 bytes. -/
  ncr : Nat → Fin 8
  /-- The bytes before the first block of a read. -/
  lead : Nat → Fin 65535
  /-- The bytes between two blocks of a read, less one. -/
  gap : Nat → Fin 65534
  /-- The bytes during which the card is busy. -/
  busy : Nat → Fin 0xFFFFFF
  /-- The byte after `CMD12`. -/
  stuff : Nat → UInt8
  /-- The checksum of a block, which the driver does not look at. -/
  crc : Nat → UInt8 × UInt8
  /-- The requests to begin that a card which was reset turns down. -/
  wake : Nat → Fin 0xFFFE

/-- The kinds of card. -/
inductive CardKind
  | mmc
  | v1
  | v2
  | v2hc
deriving DecidableEq, Repr

/-- The value of `SD_Type` for a kind of card. -/
def CardKind.sdType : CardKind → UInt8
  | .mmc => SD_TYPE_MMC
  | .v1 => SD_TYPE_V1
  | .v2 => SD_TYPE_V2
  | .v2hc => SD_TYPE_V2HC

/-- What a card is doing between commands. -/
inductive Mode
  | idle
  /-- A multiple read goes on; this sector is sent next. -/
  | reading (next : Nat)
  /-- A write command, multiple or not, was accepted; this sector is written next. -/
  | writing (multi : Bool) (next : Nat)
deriving DecidableEq, Repr

@[ext]
structure Card where
  kind : CardKind
  /-- The number of sectors, which are addressed by 32 bits. -/
  sectors : Nat
  sectors_le : sectors ≤ 2 ^ 32
  /-- The bytes stored, sector by sector. -/
  cell : Nat → UInt8
  timing : Timing
  /-- The choices made so far. -/
  tick : Nat
  selected : Bool
  mode : Mode
  /-- The last command was `CMD55`. -/
  app : Bool
  /-- The card was reset and has not begun to work: it turns down so many more requests. -/
  waking : Option Nat
  /-- The bytes of a command or of a block received so far. -/
  rx : List UInt8
  /-- The bytes to be sent. -/
  out : List UInt8

/-- A start token. -/
def startToken (multi : Bool) : UInt8 := if multi then 0xFC else 0xFE

/-- What a card makes of a command. -/
structure Reaction where
  r1 : UInt8
  /-- What follows the reply. -/
  body : List UInt8
  mode : Mode
  app : Bool
  waking : Option Nat

namespace Card

variable (c : Card)

/-! ## Commands -/

/-- The sector that the argument of a command addresses, if there is one. -/
def addressed (arg : Nat) : Option Nat :=
  match c.kind with
  | .v2hc => if arg < c.sectors then some arg else none
  | _ => if arg % 512 = 0 ∧ arg / 512 < c.sectors then some (arg / 512) else none

/-- A block as it is sent, after `g` idle bytes. -/
def blockBytes (g a : Nat) : List UInt8 :=
  List.replicate g 0xFF ++ 0xFE ::
    (slice c.cell (512 * a) 512 ++ [(c.timing.crc c.tick).1, (c.timing.crc c.tick).2])

/-- The card is busy for a while. -/
def busyBytes : List UInt8 := List.replicate (c.timing.busy c.tick) 0x00

/-- `CMD0` resets the card. -/
def reset : Reaction := ⟨0x01, [], .idle, false, some (c.timing.wake c.tick)⟩

/-- A request to begin: `ACMD41` to an SD card, `CMD1` to an MMC. -/
def Begins (cmd : UInt8) : Prop := (cmd = CMD41 ∧ c.app) ∨ (cmd = CMD1 ∧ c.kind = .mmc)

instance (cmd : UInt8) : Decidable (c.Begins cmd) := inferInstanceAs (Decidable (_ ∨ _))

/-- The last two bytes of the argument of `CMD8` are sent back. -/
def echo (arg : Nat) : List UInt8 := [0, 0, UInt8.ofNat (arg / 256 % 16), UInt8.ofNat arg]

/-- The operating conditions; bit 30 tells a card that is addressed by sectors. -/
def ocr : List UInt8 := [if c.kind = .v2hc then 0xC0 else 0x80, 0xFF, 0x80, 0x00]

/-- What a card that was reset makes of a command, having `n` more requests to turn down. -/
def rouse (n : Nat) (cmd : UInt8) (arg : Nat) : Reaction :=
  if cmd = CMD0 then c.reset
  else if cmd = CMD8 ∧ (c.kind = .v2 ∨ c.kind = .v2hc) then
    ⟨0x01, echo arg, .idle, false, some n⟩
  else if cmd = CMD55 ∧ c.kind ≠ .mmc then ⟨0x01, [], .idle, true, some n⟩
  else if c.Begins cmd then
    if n = 0 then ⟨0x00, [], .idle, false, none⟩ else ⟨0x01, [], .idle, false, some (n - 1)⟩
  else ⟨0x05, [], .idle, false, some n⟩

/-- What a card at work makes of a command. -/
def work (cmd : UInt8) (arg : Nat) : Reaction :=
  if cmd = CMD12 then ⟨0, c.busyBytes, .idle, false, none⟩
  else if cmd = CMD55 ∧ c.kind ≠ .mmc then ⟨0, [], .idle, true, none⟩
  else if cmd = CMD23 ∧ c.app then ⟨0, [], .idle, false, none⟩
  else if cmd = CMD17 ∨ cmd = CMD18 ∨ cmd = CMD24 ∨ cmd = CMD25 then
    match c.addressed arg with
    | none => ⟨0x20, [], .idle, false, none⟩
    | some a =>
        if cmd = CMD17 then ⟨0, c.blockBytes (c.timing.lead c.tick) a, .idle, false, none⟩
        else if cmd = CMD18 then
          ⟨0, c.blockBytes (c.timing.lead c.tick) a, .reading (a + 1), false, none⟩
        else ⟨0, [], .writing (cmd == CMD25) a, false, none⟩
  else if cmd = CMD0 then c.reset
  else if c.Begins cmd then ⟨0, [], .idle, false, none⟩
  else if cmd = CMD16 then ⟨if arg = 512 then 0 else 0x40, [], .idle, false, none⟩
  else if cmd = CMD58 then ⟨0, c.ocr, .idle, false, none⟩
  else ⟨0x04, [], .idle, false, none⟩

/-- What the card makes of a command: its number, and its argument. -/
def react (cmd : UInt8) (arg : Nat) : Reaction :=
  match c.waking with
  | some n => c.rouse n cmd arg
  | none => c.work cmd arg

/-- The argument in a command frame. -/
def frameArg (frame : List UInt8) : Nat :=
  (frame.getD 1 0).toNat * 2 ^ 24 + (frame.getD 2 0).toNat * 2 ^ 16 +
    (frame.getD 3 0).toNat * 2 ^ 8 + (frame.getD 4 0).toNat

/-- A command frame is complete. -/
def execute (frame : List UInt8) : Card :=
  let cmd := frame.headD 0 &&& 0x3F
  let r := c.react cmd (frameArg frame)
  { c with
    rx := []
    mode := r.mode
    app := r.app
    waking := r.waking
    tick := c.tick + 1
    out := (if cmd = CMD12 then [c.timing.stuff c.tick] else []) ++
      (List.replicate (c.timing.ncr c.tick) 0xFF ++ r.r1 :: r.body) }

/-! ## Bytes -/

/-- A multiple read goes on to the next block, unless the card ends there. -/
def refill : Card :=
  match c.mode with
  | .reading a =>
      if a < c.sectors then
        { c with
          out := c.blockBytes (c.timing.gap c.tick + 1) a
          mode := .reading (a + 1)
          tick := c.tick + 1 }
      else c
  | _ => c

/-- What is left to be sent. -/
def queue (bs : List UInt8) : Card :=
  if bs = [] then { c with out := [] }.refill else { c with out := bs }

/-- The card sends a byte. -/
def shiftOut : UInt8 × Card :=
  match c.out with
  | [] => (0xFF, c)
  | b :: bs => (b, c.queue bs)

/-- A block has been received: it is stored if its sector exists, and answered. -/
def storeBlock (multi : Bool) (a : Nat) (block : List UInt8) : Card :=
  if a < c.sectors then
    { c with
      cell := overlay c.cell (512 * a) 512 fun i ↦ block.getD i 0
      rx := []
      mode := if multi then .writing true (a + 1) else .idle
      tick := c.tick + 1
      out := 0x05 :: c.busyBytes }
  else { c with rx := [], mode := if multi then .writing true (a + 1) else .idle, out := [0x0D] }

/-- The card receives a byte. -/
def receive (b : UInt8) : Card :=
  match c.mode, c.rx with
  | .writing multi _, [] =>
      if b = startToken multi then { c with rx := [b] }
      else if b = 0xFD ∧ multi then
        { c with mode := .idle, tick := c.tick + 1, out := c.busyBytes }
      else c
  | .writing multi a, rx =>
      if rx.length < 514 then { c with rx := rx ++ [b] } else c.storeBlock multi a rx.tail
  | _, [] => if b &&& 0xC0 = 0x40 then { c with rx := [b] } else c
  | _, rx => if rx.length < 5 then { c with rx := rx ++ [b] } else c.execute (rx ++ [b])

end Card

/-- A card that is not selected takes no notice of the bus. -/
instance Card.instSpiDevice : SpiDevice Card where
  cs level c := { c with selected := !level, rx := [] }
  exchange b c := if c.selected then (c.shiftOut.1, c.shiftOut.2.receive b) else (0xFF, c)

@[simp] theorem Card.cs_eq (level : Bool) (c : Card) :
    SpiDevice.cs level c = { c with selected := !level, rx := [] } := rfl

theorem Card.exchange_of_selected {c : Card} (h : c.selected = true) (b : UInt8) :
    SpiDevice.exchange b c = (c.shiftOut.1, c.shiftOut.2.receive b) := if_pos h

theorem Card.exchange_of_not_selected {c : Card} (h : c.selected = false) (b : UInt8) :
    SpiDevice.exchange b c = (0xFF, c) := if_neg (by simp [h])

end Stm32F1.Sd

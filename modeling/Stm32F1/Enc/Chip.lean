import Stm32F1.Lib.Framed
import Stm32F1.Lib.Ring

/-!
# The ENC28J60

The Ethernet controller as the driver meets it on the bus: its control registers
in four banks, its 8192 bytes of buffer memory, the receive ring in them, the
transmitter and the registers of the PHY behind the MII.

The network and the chip go on by themselves while bytes are exchanged on the
bus; the *course* of events that the driver has no say in is a parameter of the
chip.
-/

namespace Stm32F1.Enc

/-! ## `enc28j60.h` -/

def ADDR_MASK : UInt8 := 0x1F
def BANK_MASK : UInt8 := 0x60

def EIE : UInt8 := 0x1B
def EIR : UInt8 := 0x1C
def ESTAT : UInt8 := 0x1D
def ECON2 : UInt8 := 0x1E
def ECON1 : UInt8 := 0x1F

def ERDPTL : UInt8 := 0x00
def ERDPTH : UInt8 := 0x01
def EWRPTL : UInt8 := 0x02
def EWRPTH : UInt8 := 0x03
def ETXSTL : UInt8 := 0x04
def ETXSTH : UInt8 := 0x05
def ETXNDL : UInt8 := 0x06
def ETXNDH : UInt8 := 0x07
def ERXSTL : UInt8 := 0x08
def ERXSTH : UInt8 := 0x09
def ERXNDL : UInt8 := 0x0A
def ERXNDH : UInt8 := 0x0B
def ERXRDPTL : UInt8 := 0x0C
def ERXRDPTH : UInt8 := 0x0D
def ERXWRPTL : UInt8 := 0x0E
def ERXWRPTH : UInt8 := 0x0F

def EPMM0 : UInt8 := 0x28
def EPMM1 : UInt8 := 0x29
def EPMCSL : UInt8 := 0x30
def EPMCSH : UInt8 := 0x31
def ERXFCON : UInt8 := 0x38
def EPKTCNT : UInt8 := 0x39

def MACON1 : UInt8 := 0xC0
def MACON2 : UInt8 := 0xC1
def MACON3 : UInt8 := 0xC2
def MABBIPG : UInt8 := 0xC4
def MAIPGL : UInt8 := 0xC6
def MAIPGH : UInt8 := 0xC7
def MACLCON1 : UInt8 := 0xC8
def MACLCON2 : UInt8 := 0xC9
def MAMXFLL : UInt8 := 0xCA
def MAMXFLH : UInt8 := 0xCB
def MICMD : UInt8 := 0xD2
def MIREGADR : UInt8 := 0xD4
def MIWRL : UInt8 := 0xD6
def MIWRH : UInt8 := 0xD7
def MIRDL : UInt8 := 0xD8
def MIRDH : UInt8 := 0xD9

def MAADR1 : UInt8 := 0xE0
def MAADR0 : UInt8 := 0xE1
def MAADR3 : UInt8 := 0xE2
def MAADR2 : UInt8 := 0xE3
def MAADR5 : UInt8 := 0xE4
def MAADR4 : UInt8 := 0xE5
def MISTAT : UInt8 := 0xEA
def EREVID : UInt8 := 0x72
def ECOCON : UInt8 := 0x75
def EPAUSH : UInt8 := 0x79

def PHCON1 : UInt8 := 0x00
def PHCON2 : UInt8 := 0x10

def EIE_INTIE : UInt8 := 0x80
def EIE_PKTIE : UInt8 := 0x40
def EIE_TXIE : UInt8 := 0x08
def EIE_TXERIE : UInt8 := 0x02
def EIE_RXERIE : UInt8 := 0x01
def EIR_TXERIF : UInt8 := 0x02
def ESTAT_CLKRDY : UInt8 := 0x01
def ECON2_AUTOINC : UInt8 := 0x80
def ECON2_PKTDEC : UInt8 := 0x40
def ECON1_TXRTS : UInt8 := 0x08
def ECON1_RXEN : UInt8 := 0x04
def ECON1_BSEL1 : UInt8 := 0x02
def ECON1_BSEL0 : UInt8 := 0x01
def MACON1_TXPAUS : UInt8 := 0x08
def MACON1_RXPAUS : UInt8 := 0x04
def MACON1_MARXEN : UInt8 := 0x01
def MACON3_PADCFG0 : UInt8 := 0x20
def MACON3_TXCRCEN : UInt8 := 0x10
def MACON3_HFRMEN : UInt8 := 0x04
def MACON3_FRMLNEN : UInt8 := 0x02
def MACON3_FULDPX : UInt8 := 0x01
def MICMD_MIIRD : UInt8 := 0x01
def MISTAT_BUSY : UInt8 := 0x01
def PHCON1_PDPXMD : UInt16 := 0x0100
def PHCON2_HDLDIS : UInt16 := 0x0100
def PKTCTRL_PHUGEEN : UInt8 := 0x08
def PKTCTRL_POVERRIDE : UInt8 := 0x01

def ENC28J60_READ_CTRL_REG : UInt8 := 0x00
def ENC28J60_READ_BUF_MEM : UInt8 := 0x3A
def ENC28J60_WRITE_CTRL_REG : UInt8 := 0x40
def ENC28J60_WRITE_BUF_MEM : UInt8 := 0x7A
def ENC28J60_BIT_FIELD_SET : UInt8 := 0x80
def ENC28J60_BIT_FIELD_CLR : UInt8 := 0xA0
def ENC28J60_SOFT_RESET : UInt8 := 0xFF

def RXSTART_INIT : UInt32 := 0x0
def RXSTOP_INIT : UInt32 := 0x1FFF - 1518 - 1
def TXSTART_INIT : UInt32 := 0x1FFF - 1518
def TXSTOP_INIT : UInt32 := 0x1FFF
def MAX_FRAMELEN : UInt32 := 1518

/-! ## What the driver has no say in -/

/-- A frame as it is received, the four bytes of its checksum included. -/
structure Frame where
  data : List UInt8
  status : UInt16
  four_le : 4 ≤ data.length
  short : data.length < 2 ^ 16

structure Course where
  /-- The frames whose reception ends before the `t`-th byte on the bus. -/
  arrivals : Nat → List Frame
  /-- What `ESTAT` shows at the `n`-th look at the status registers. -/
  estat : Nat → UInt8
  /-- What `EIR` shows. -/
  eir : Nat → UInt8
  /-- The receiver is not busy for ever. -/
  rests : ∀ n, ∃ m, n ≤ m ∧ estat m &&& 0x04 = 0
  /-- How many bytes on the bus a transmission lasts that begins at the `t`-th. -/
  txTime : Nat → Nat
  /-- The transmit status vector that is written at the `t`-th byte. -/
  txStatus : Nat → Vector UInt8 7
  /-- How long an access to the PHY takes. -/
  miiTime : Nat → Nat
  /-- What is shifted out while there is nothing to say. -/
  dummy : Nat → UInt8
  revision : UInt8

/-- The state of the chip.  Registers go by their addresses in `enc28j60.h`. -/
structure Enc28j60 where
  course : Course
  /-- The bytes exchanged so far. -/
  time : Nat
  /-- The looks at a status register so far. -/
  looks : Nat
  regs : UInt8 → UInt8
  mem : Nat → UInt8
  phy : UInt8 → UInt16
  /-- `MIRDH:MIRDL` -/
  mird : UInt16
  /-- The bounds of the free part of the ring, which the receiver goes by. -/
  erxrdpt : Nat
  erxwrpt : Nat
  epktcnt : Nat
  /-- The bytes until the end of the transmission that goes on. -/
  tx : Option Nat
  /-- The access to the PHY that goes on: whether it reads, and the bytes until its end. -/
  mii : Option (Bool × Nat)
  /-- The frames stored since the last reset. -/
  stored : List Frame
  /-- The addresses written since then on behalf of transmissions, newest first. -/
  written : List Nat

/-! ## Pointers -/

/-- A pointer register of 13 bits. -/
def pointer (regs : UInt8 → UInt8) (lo : UInt8) : Nat :=
  ((regs lo).toNat + 256 * (regs (lo + 1)).toNat) % 8192

def setPointer (regs : UInt8 → UInt8) (lo : UInt8) (a : Nat) : UInt8 → UInt8 :=
  Function.update (Function.update regs lo (UInt8.ofNat a)) (lo + 1) (UInt8.ofNat (a / 256))

/-- The register at an address of a bank: the last five are the same in all banks, and those of the
MAC and the MII are marked. -/
def regAt (bsel a : UInt8) : UInt8 :=
  let r := bsel <<< 5 ||| a
  if 0x1B ≤ a then a
  else if 0x40 ≤ r ∧ r ≤ 0x65 ∨ r = 0x6A then r ||| 0x80
  else r

/-- The values of the registers after a reset. -/
def resetRegs (r : UInt8) : UInt8 :=
  if r = ERDPTL ∨ r = ERXSTL ∨ r = ERXRDPTL then 0xFA
  else if r = ERDPTH ∨ r = ERXSTH ∨ r = ERXRDPTH then 0x05
  else if r = ERXNDL then 0xFF
  else if r = ERXNDH then 0x1F
  else if r = ECON2 then 0x80
  else if r = ERXFCON then 0xA1
  else if r = MACON2 then 0x80
  else if r = MACLCON1 then 0x0F
  else if r = MACLCON2 then 0x37
  else if r = MAMXFLH then 0x06
  else if r = ECOCON then 0x04
  else if r = EPAUSH then 0x10
  else 0

namespace Enc28j60

variable (c : Enc28j60)

def reset : Enc28j60 :=
  { c with
    regs := resetRegs
    erxrdpt := 0x05FA
    erxwrpt := 0
    epktcnt := 0
    tx := none
    mii := none
    stored := []
    written := [] }

/-- The address after `a` in a buffer with a ring in it. -/
def after (a : Nat) : Nat :=
  if a = pointer c.regs ERXNDL then pointer c.regs ERXSTL else (a + 1) % 8192

/-! ## Receiving -/

/-- The cells between the write pointer and `ERXRDPT`. -/
def free : Nat :=
  if c.erxrdpt < c.erxwrpt then
    pointer c.regs ERXNDL - pointer c.regs ERXSTL - (c.erxwrpt - c.erxrdpt)
  else if c.erxwrpt = c.erxrdpt then pointer c.regs ERXNDL - pointer c.regs ERXSTL
  else c.erxrdpt - c.erxwrpt - 1

/-- The cells that a frame takes up: the next one begins at an even address. -/
def extent (a : Nat) (f : Frame) : Nat :=
  6 + f.data.length + c.after^[6 + f.data.length] a % 2

/-- Two bytes, the low one first. -/
def word (n : Nat) : List UInt8 := [UInt8.ofNat n, UInt8.ofNat (n / 256)]

/-- A frame with its header: the address of the next one, the length, and the status. -/
def image (next : Nat) (f : Frame) : List UInt8 :=
  word next ++ word f.data.length ++ word f.status.toNat ++ f.data

/-- A frame is stored if the receiver is on and there is room for it. -/
def receive (f : Frame) : Enc28j60 :=
  if c.regs ECON1 &&& ECON1_RXEN ≠ 0 ∧ c.epktcnt < 255 ∧ c.extent c.erxwrpt f ≤ c.free then
    { c with
      mem := storeAlong c.after c.erxwrpt (image (c.after^[c.extent c.erxwrpt f] c.erxwrpt) f) c.mem
      erxwrpt := c.after^[c.extent c.erxwrpt f] c.erxwrpt
      epktcnt := c.epktcnt + 1
      stored := c.stored ++ [f] }
  else c

/-! ## Time -/

/-- Where the `k`-th byte of the transmit status vector goes. -/
def vectorAddr (k : Nat) : Nat := (pointer c.regs ETXNDL + 1 + k) % 8192

/-- A transmission goes on, and ends with its status vector. -/
def transmit : Enc28j60 :=
  match c.tx with
  | some 0 =>
      { c with
        mem := storeAlong (fun a ↦ (a + 1) % 8192) (c.vectorAddr 0)
          (c.course.txStatus c.time).toList c.mem
        written := (List.range 7).map c.vectorAddr ++ c.written
        tx := none }
  | some (k + 1) => { c with tx := some k }
  | none => c

/-- An access to the PHY goes on. -/
def access : Enc28j60 :=
  match c.mii with
  | some (true, 0) => { c with mird := c.phy (c.regs MIREGADR), mii := none }
  | some (false, 0) =>
      { c with
        phy := Function.update c.phy (c.regs MIREGADR)
          ((c.regs MIWRL).toUInt16 ||| (c.regs MIWRH).toUInt16 <<< 8)
        mii := none }
  | some (read, k + 1) => { c with mii := some (read, k) }
  | none => c

/-- The time of one byte on the bus. -/
def pass : Enc28j60 :=
  let c' := ((c.course.arrivals c.time).foldl receive c).transmit.access
  { c' with time := c.time + 1 }

/-! ## Registers -/

/-- The register that the last five bits of a command address. -/
def named (op : UInt8) : UInt8 := regAt (c.regs ECON1 &&& 0x03) (op &&& ADDR_MASK)

/-- The value of a register. -/
def peek (r : UInt8) : UInt8 :=
  if r = ERXWRPTL then UInt8.ofNat c.erxwrpt
  else if r = ERXWRPTH then UInt8.ofNat (c.erxwrpt / 256)
  else if r = EPKTCNT then UInt8.ofNat c.epktcnt
  else if r = ESTAT then c.course.estat c.looks
  else if r = EIR then c.course.eir c.looks
  else if r = ECON1 then
    c.regs ECON1 &&& ~~~ECON1_TXRTS ||| if c.tx.isSome then ECON1_TXRTS else 0
  else if r = MISTAT then if c.mii.isSome then MISTAT_BUSY else 0
  else if r = MIRDL then c.mird.toUInt8
  else if r = MIRDH then (c.mird >>> 8).toUInt8
  else if r = EREVID then c.course.revision
  else c.regs r

/-- The chip after a register was read. -/
def looked (r : UInt8) : Enc28j60 :=
  if r = ESTAT ∨ r = EIR then { c with looks := c.looks + 1 } else c

def ReadOnly (r : UInt8) : Prop :=
  r = ERXWRPTL ∨ r = ERXWRPTH ∨ r = EPKTCNT ∨ r = ESTAT ∨ r = MISTAT ∨ r = MIRDL ∨ r = MIRDH ∨
    r = EREVID

instance (r : UInt8) : Decidable (ReadOnly r) := inferInstanceAs (Decidable (_ ∨ _))

/-- A register is written.  The high half of `ERXRDPT` takes the low one with it; `ERXST` is where
the receiver starts. -/
def poke (r v : UInt8) : Enc28j60 :=
  let regs := Function.update c.regs r v
  if ReadOnly r then c
  else if r = ERXRDPTH then { c with regs := regs, erxrdpt := pointer regs ERXRDPTL }
  else if r = ERXSTL ∨ r = ERXSTH then { c with regs := regs, erxwrpt := pointer regs ERXSTL }
  else if r = ECON1 then
    { c with
      regs := Function.update c.regs ECON1 (v &&& ~~~ECON1_TXRTS)
      tx := if v &&& ECON1_TXRTS = 0 then none else some (c.tx.getD (c.course.txTime c.time)) }
  else if r = ECON2 then
    { c with
      regs := Function.update c.regs ECON2 (v &&& ~~~ECON2_PKTDEC)
      epktcnt := if v &&& ECON2_PKTDEC = 0 then c.epktcnt else c.epktcnt - 1 }
  else if r = MIWRH then { c with regs := regs, mii := some (false, c.course.miiTime c.time) }
  else if r = MICMD ∧ v &&& MICMD_MIIRD ≠ 0 then
    { c with regs := regs, mii := some (true, c.course.miiTime c.time) }
  else { c with regs := regs }

/-! ## Commands -/

/-- A pointer moves on to `a`, if it does so by itself. -/
def advance (lo : UInt8) (a : Nat) : Enc28j60 :=
  if c.regs ECON2 &&& ECON2_AUTOINC ≠ 0 then { c with regs := setPointer c.regs lo a } else c

/-- A byte of the buffer memory is read. -/
def readMem : UInt8 × Enc28j60 :=
  let a := pointer c.regs ERDPTL
  (c.mem a, c.advance ERDPTL (c.after a))

/-- A byte of the buffer memory is written. -/
def writeMem (b : UInt8) : Enc28j60 :=
  let a := pointer c.regs EWRPTL
  { c with mem := Function.update c.mem a b, written := a :: c.written }.advance EWRPTL
    ((a + 1) % 8192)

/-- The first data byte of a command that changes a register; the registers of the MAC and the MII
have no bit fields. -/
def change (op b : UInt8) : Enc28j60 :=
  let r := c.named op
  if op &&& 0xE0 = ENC28J60_WRITE_CTRL_REG then c.poke r b
  else if op &&& 0xE0 = ENC28J60_BIT_FIELD_SET ∧ r &&& 0x80 = 0 then c.poke r (c.peek r ||| b)
  else if op &&& 0xE0 = ENC28J60_BIT_FIELD_CLR ∧ r &&& 0x80 = 0 then c.poke r (c.peek r &&& ~~~b)
  else c

/-- The byte `b` is exchanged, after the bytes of the command so far. -/
def exchange (bs : List UInt8) (b : UInt8) : UInt8 × Enc28j60 :=
  match bs with
  | [] => (c.course.dummy c.time, if b = ENC28J60_SOFT_RESET then c.reset else c)
  | op :: args =>
      if op = ENC28J60_READ_BUF_MEM then c.readMem
      else if op = ENC28J60_WRITE_BUF_MEM then (c.course.dummy c.time, c.writeMem b)
      else if op &&& 0xE0 = ENC28J60_READ_CTRL_REG then
        if c.named op &&& 0x80 ≠ 0 ∧ args = [] then (c.course.dummy c.time, c)
        else (c.peek (c.named op), c.looked (c.named op))
      else (c.course.dummy c.time, if args = [] then c.change op b else c)

end Enc28j60

instance Enc28j60.instFramedChip : FramedChip Enc28j60 where
  shift bs b c := c.pass.exchange bs b
  finish _ c := c

/-- A chip with a reset line. -/
class ResetPin (δ : Type) where
  rst : Bool → δ → δ

/-- The chip is reset while the line is low. -/
instance Enc28j60.instResetPin : ResetPin (Framed Enc28j60) where
  rst level d := if level then d else ⟨d.chip.reset, none⟩

end Stm32F1.Enc

import Stm32F1.Lib.Loop
import Stm32F1.Enc.Chip

/-!
# The ENC28J60 driver

`enc28j60.c`, function by function, over any chip on the bus that has a reset
line.  Pointers are addresses of the memory of the microcontroller.
-/

namespace Stm32F1.Enc

open Prog Mcu

/-- `dev_strucrt` -/
structure DevStruct where
  enc28j60bank : UInt8
  nextPacketPtr : UInt32
  macaddr : Vector UInt8 6

/-- An access to a register: the command, the bank that `enc28j60_dev` tells, the value that was
read or written, and the device before and after. -/
structure Access (δ : Type) where
  op : UInt8
  addr : UInt8
  enc28j60bank : UInt8
  value : UInt8
  before : δ
  after : δ

/-- `enc28j60_dev`, and a history of the accesses, newest first, that no code looks at. -/
structure Globals (δ : Type) extends DevStruct where
  accesses : List (Access δ)

variable {δ : Type} [SpiDevice δ]

/-! ## Commands -/

/-- `ENC28J60_Read_Op`: the registers of the MAC and the MII send a dummy byte first. -/
def enc28j60ReadOp (op addr : UInt8) : Prog (Mcu δ (Globals δ)) UInt8 := do
  chipSelect false
  let _ ← readWriteByte (op ||| (addr &&& ADDR_MASK))
  let dat ← readWriteByte 0xFF
  let dat ← if addr &&& 0x80 ≠ 0 then readWriteByte 0xFF else pure dat
  chipSelect true
  pure dat

/-- `ENC28J60_Write_Op`. -/
def enc28j60WriteOp (op addr data : UInt8) : Prog (Mcu δ (Globals δ)) Unit := do
  chipSelect false
  let _ ← readWriteByte (op ||| (addr &&& ADDR_MASK))
  let _ ← readWriteByte data
  chipSelect true

/-- `ENC28J60_Read_Buf`: the bytes are followed by a NUL. -/
def enc28j60ReadBuf (len : UInt32) (data : Nat) : Prog (Mcu δ (Globals δ)) Unit := do
  chipSelect false
  let _ ← readWriteByte ENC28J60_READ_BUF_MEM
  forRange len.toNat fun i ↦ do
    let b ← readWriteByte 0
    store (data + i) b
  store (data + len.toNat) 0
  chipSelect true

/-- `ENC28J60_Write_Buf`. -/
def enc28j60WriteBuf (len : UInt32) (data : Nat) : Prog (Mcu δ (Globals δ)) Unit := do
  chipSelect false
  let _ ← readWriteByte ENC28J60_WRITE_BUF_MEM
  forRange len.toNat fun i ↦ do
    let b ← load (data + i)
    let _ ← readWriteByte b
    pure ()
  chipSelect true

/-! ## Registers -/

/-- `ENC28J60_Set_Bank`: the bank is only selected if it is not the current one. -/
def enc28j60SetBank (bank : UInt8) : Prog (Mcu δ (Globals δ)) Unit := do
  let cur ← get fun v ↦ v.enc28j60bank
  if bank &&& BANK_MASK ≠ cur then do
    enc28j60WriteOp ENC28J60_BIT_FIELD_CLR ECON1 (ECON1_BSEL1 ||| ECON1_BSEL0)
    enc28j60WriteOp ENC28J60_BIT_FIELD_SET ECON1 ((bank &&& BANK_MASK) >>> 5)
    assign fun v ↦ { v with enc28j60bank := bank &&& BANK_MASK }
  else pure ()

/-- The access enters the history. -/
def noted (op addr : UInt8) (access : Prog (Mcu δ (Globals δ)) UInt8) :
    Prog (Mcu δ (Globals δ)) UInt8 := do
  let s ← Prog.read fun s ↦ s
  let value ← access
  Prog.modify fun s' ↦ { s' with glob := { s'.glob with
    accesses := ⟨op, addr, s.glob.enc28j60bank, value, s.dev, s'.dev⟩ :: s'.glob.accesses } }
  pure value

/-- `ENC28J60_Read`. -/
def enc28j60Read (addr : UInt8) : Prog (Mcu δ (Globals δ)) UInt8 := do
  enc28j60SetBank addr
  noted ENC28J60_READ_CTRL_REG addr (enc28j60ReadOp ENC28J60_READ_CTRL_REG addr)

/-- `ENC28J60_Write`. -/
def enc28j60Write (addr data : UInt8) : Prog (Mcu δ (Globals δ)) Unit := do
  enc28j60SetBank addr
  let _ ← noted ENC28J60_WRITE_CTRL_REG addr do
    enc28j60WriteOp ENC28J60_WRITE_CTRL_REG addr data
    pure data

/-- A series of calls of `ENC28J60_Write`. -/
def writeAll : List (UInt8 × UInt8) → Prog (Mcu δ (Globals δ)) Unit
  | [] => pure ()
  | (addr, data) :: rest => do
      enc28j60Write addr data
      writeAll rest

/-- `while (ENC28J60_Read (MISTAT) & MISTAT_BUSY && retry < 0xFFFF) retry++;` -/
def waitMii : Prog (Mcu δ (Globals δ)) Unit := do
  let _ ← poll (enc28j60Read MISTAT) (fun b ↦ b &&& MISTAT_BUSY == 0) 0xFFFF
  pure ()

/-- `ENC28J60_PHY_Write`. -/
def enc28j60PhyWrite (addr : UInt8) (data : UInt16) : Prog (Mcu δ (Globals δ)) Unit := do
  enc28j60Write MIREGADR addr
  enc28j60Write MIWRL data.toUInt8
  enc28j60Write MIWRH (data >>> 8).toUInt8
  waitMii

/-- `ENC28J60_PHY_Read`. -/
def enc28j60PhyRead (addr : UInt8) : Prog (Mcu δ (Globals δ)) UInt16 := do
  let temp ← enc28j60Read MICMD
  enc28j60Write MIREGADR addr
  enc28j60Write MICMD (temp ||| MICMD_MIIRD)
  waitMii
  enc28j60Write MICMD (temp &&& ~~~MICMD_MIIRD)
  let lo ← enc28j60Read MIRDL
  let hi ← enc28j60Read MIRDH
  pure (lo.toUInt16 ||| hi.toUInt16 <<< 8)

/-- `ENC28J60_Get_EREVID`. -/
def enc28j60GetErevid : Prog (Mcu δ (Globals δ)) UInt8 := do
  let b ← enc28j60Read EREVID
  pure (b &&& 0x1F)

/-- `ENC28J60_Get_Duplex`. -/
def enc28j60GetDuplex : Prog (Mcu δ (Globals δ)) UInt16 := do
  let temp ← enc28j60PhyRead PHCON1
  pure ((temp &&& 0x0100) >>> 8)

/-! ## Initialisation -/

/-- The low and the high byte of an address. -/
def lowByte (a : UInt32) : UInt8 := (a &&& 0xFF).toUInt8

def highByte (a : UInt32) : UInt8 := (a >>> 8).toUInt8

/-- The registers of the receive and the transmit buffer, as `ENC28J60_Init` sets them. -/
def bufferRegs : List (UInt8 × UInt8) :=
  [(ERXSTL, lowByte RXSTART_INIT), (ERXSTH, highByte RXSTART_INIT),
    (ERXNDL, lowByte RXSTOP_INIT), (ERXNDH, highByte RXSTOP_INIT),
    (ETXSTL, lowByte TXSTART_INIT), (ETXSTH, highByte TXSTART_INIT),
    (ETXNDL, lowByte TXSTOP_INIT), (ETXNDH, highByte TXSTOP_INIT),
    (ERXRDPTL, lowByte RXSTART_INIT), (ERXRDPTH, highByte RXSTART_INIT)]

/-- The registers of the filters and the MAC. -/
def macRegs (macaddr : Vector UInt8 6) : List (UInt8 × UInt8) :=
  [(ERXFCON, 0), (EPMM0, 0x3F), (EPMM1, 0x30), (EPMCSL, 0xF9), (EPMCSH, 0xF7),
    (MACON1, MACON1_MARXEN ||| MACON1_TXPAUS ||| MACON1_RXPAUS), (MACON2, 0x00),
    (MACON3, MACON3_PADCFG0 ||| MACON3_TXCRCEN ||| MACON3_FRMLNEN ||| MACON3_FULDPX),
    (MAMXFLL, lowByte MAX_FRAMELEN), (MAMXFLH, highByte MAX_FRAMELEN),
    (MABBIPG, 0x15), (MAIPGL, 0x12), (MAIPGH, 0x0C),
    (MAADR5, macaddr[0]), (MAADR4, macaddr[1]), (MAADR3, macaddr[2]), (MAADR2, macaddr[3]),
    (MAADR1, macaddr[4]), (MAADR0, macaddr[5])]

/-- The address of the unique identifier of the microcontroller. -/
def UNIQUE_ID : Nat := 0x1FFFF7E8

/-- `* (vu32*)` of an address. -/
def load32 (a : Nat) : Prog (Mcu δ (Globals δ)) UInt32 := do
  let b₀ ← load a
  let b₁ ← load (a + 1)
  let b₂ ← load (a + 2)
  let b₃ ← load (a + 3)
  pure (b₀.toUInt32 ||| b₁.toUInt32 <<< 8 ||| b₂.toUInt32 <<< 16 ||| b₃.toUInt32 <<< 24)

/-- What `ENC28J60_Init` does once the clock of the chip is ready. -/
def initChip : Prog (Mcu δ (Globals δ)) Unit := do
  let _ ← enc28j60GetErevid
  assign fun v ↦ { v with nextPacketPtr := RXSTART_INIT }
  writeAll bufferRegs
  let macaddr ← get fun v ↦ v.macaddr
  writeAll (macRegs macaddr)
  enc28j60PhyWrite PHCON1 PHCON1_PDPXMD
  enc28j60PhyWrite PHCON2 PHCON2_HDLDIS
  enc28j60SetBank ECON1
  enc28j60WriteOp ENC28J60_BIT_FIELD_SET EIE
    (EIE_INTIE ||| EIE_PKTIE ||| EIE_TXIE ||| EIE_TXERIE ||| EIE_RXERIE)
  enc28j60WriteOp ENC28J60_BIT_FIELD_SET ECON1 ECON1_RXEN
  let _ ← enc28j60GetDuplex

/-- `ENC28J60_RST` -/
def setRst [ResetPin δ] (level : Bool) : Prog (Mcu δ (Globals δ)) Unit :=
  Prog.modify fun s ↦ { s with dev := ResetPin.rst level s.dev }

/-- `ENC28J60_Init`, without the pins and the clock of the microcontroller. -/
def enc28j60Init [ResetPin δ] : Prog (Mcu δ (Globals δ)) UInt8 := do
  let temp ← load32 UNIQUE_ID
  assign fun v ↦ { v with
    macaddr := #v[2, 0, 0, (temp >>> 16).toUInt8, (temp >>> 8).toUInt8, temp.toUInt8] }
  setRst false
  setRst true
  enc28j60WriteOp ENC28J60_SOFT_RESET 0 ENC28J60_SOFT_RESET
  let r ← poll (enc28j60Read ESTAT) (fun b ↦ b &&& ESTAT_CLKRDY != 0) 250
  -- what is left of the counter is `250 - retry`
  if r.2 = 0 then pure 1
  else do
    initChip
    pure 0

/-! ## Packets -/

/-- The control byte of a packet. -/
def controlByte (len : UInt32) : Prog (Mcu δ (Globals δ)) Unit :=
  if len > MAX_FRAMELEN then do
    enc28j60Write MACON3 MACON3_HFRMEN
    enc28j60WriteOp ENC28J60_WRITE_BUF_MEM 0 (PKTCTRL_POVERRIDE ||| PKTCTRL_PHUGEEN)
  else enc28j60WriteOp ENC28J60_WRITE_BUF_MEM 0 0x00

/-- The bytes of `ENC28J60_Packet_Send` go to the transmit buffer. -/
def sendBuffer (len : UInt32) (packet : Nat) : Prog (Mcu δ (Globals δ)) Unit := do
  enc28j60Write EWRPTL (lowByte TXSTART_INIT)
  enc28j60Write EWRPTH (highByte TXSTART_INIT)
  enc28j60Write ETXNDL (lowByte (TXSTART_INIT + len))
  enc28j60Write ETXNDH (highByte (TXSTART_INIT + len))
  controlByte len
  enc28j60WriteBuf len packet

/-- `ENC28J60_Packet_Send`. -/
def enc28j60PacketSend (len : UInt32) (packet : Nat) : Prog (Mcu δ (Globals δ)) Unit := do
  whileM do
    let b ← enc28j60Read ECON1
    pure (b &&& 0x08 != 0)
  sendBuffer len packet
  enc28j60WriteOp ENC28J60_BIT_FIELD_SET ECON1 ECON1_TXRTS
  let b ← enc28j60Read EIR
  if b &&& EIR_TXERIF ≠ 0 then enc28j60WriteOp ENC28J60_BIT_FIELD_CLR ECON1 ECON1_TXRTS
  else pure ()

/-- Two bytes of the buffer memory, the low one first. -/
def readWord : Prog (Mcu δ (Globals δ)) UInt32 := do
  let lo ← enc28j60ReadOp ENC28J60_READ_BUF_MEM 0
  let hi ← enc28j60ReadOp ENC28J60_READ_BUF_MEM 0
  pure (lo.toUInt32 ||| hi.toUInt32 <<< 8)

/-- Set a pointer register to `NextPacketPtr`. -/
def writeNextPacketPtr (lo hi : UInt8) : Prog (Mcu δ (Globals δ)) Unit := do
  let next ← get fun v ↦ v.nextPacketPtr
  enc28j60Write lo next.toUInt8
  let next ← get fun v ↦ v.nextPacketPtr
  enc28j60Write hi (next >>> 8).toUInt8

/-- The length that is returned: the checksum is left out, and a NUL must fit in. -/
def clipped (len maxlen : UInt32) : UInt32 := if len - 4 > maxlen - 1 then maxlen - 1 else len - 4

/-- A frame that was received well is copied, and its length returned. -/
def copyPacket (rxstat len maxlen : UInt32) (packet : Nat) : Prog (Mcu δ (Globals δ)) UInt32 :=
  if rxstat &&& 0x80 = 0 then pure 0
  else do
    enc28j60ReadBuf (clipped len maxlen) packet
    pure (clipped len maxlen)

/-- What `ENC28J60_Packet_Receive` does once a frame is there. -/
def receivePacket (maxlen : UInt32) (packet : Nat) : Prog (Mcu δ (Globals δ)) UInt32 := do
  whileM do
    let b ← enc28j60Read ESTAT
    pure (b &&& 0x04 != 0)
  writeNextPacketPtr ERDPTL ERDPTH
  let next ← readWord
  assign fun v ↦ { v with nextPacketPtr := next }
  let len ← readWord
  let rxstat ← readWord
  let len ← copyPacket rxstat len maxlen packet
  writeNextPacketPtr ERXRDPTL ERXRDPTH
  enc28j60WriteOp ENC28J60_BIT_FIELD_SET ECON2 ECON2_PKTDEC
  pure len

/-- `ENC28J60_Packet_Receive`. -/
def enc28j60PacketReceive (maxlen : UInt32) (packet : Nat) : Prog (Mcu δ (Globals δ)) UInt32 := do
  let count ← enc28j60Read EPKTCNT
  if count = 0 then pure 0 else receivePacket maxlen packet

end Stm32F1.Enc

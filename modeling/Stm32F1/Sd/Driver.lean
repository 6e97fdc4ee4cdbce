import Stm32F1.Lib.Bus
import Stm32F1.Lib.Loop

/-!
# The SD card driver and the disk layer

`mmc_sd.c` and the transfer functions of `diskio.c`, function by function, over
any card on the bus.  A pointer is an address of the memory of the
microcontroller; `SD_CS` is the chip-select line.
-/

namespace Stm32F1.Sd

open Prog Mcu

/-! ## Constants -/

def SD_TYPE_ERR : UInt8 := 0x00
def SD_TYPE_MMC : UInt8 := 0x01
def SD_TYPE_V1 : UInt8 := 0x02
def SD_TYPE_V2 : UInt8 := 0x04
def SD_TYPE_V2HC : UInt8 := 0x06

def CMD0 : UInt8 := 0
def CMD1 : UInt8 := 1
def CMD8 : UInt8 := 8
def CMD9 : UInt8 := 9
def CMD12 : UInt8 := 12
def CMD16 : UInt8 := 16
def CMD17 : UInt8 := 17
def CMD18 : UInt8 := 18
def CMD23 : UInt8 := 23
def CMD24 : UInt8 := 24
def CMD25 : UInt8 := 25
def CMD41 : UInt8 := 41
def CMD55 : UInt8 := 55
def CMD58 : UInt8 := 58

def MSD_RESPONSE_NO_ERROR : UInt8 := 0x00
def MSD_RESPONSE_FAILURE : UInt8 := 0xFF

def SPI_BaudRatePrescaler_2 : UInt16 := 0x0000
def SPI_BaudRatePrescaler_256 : UInt16 := 0x0038

/-- The variables of the driver: `SD_Type` and the clock prescaler of the bus. -/
structure SdVars where
  sdType : UInt8
  prescaler : UInt16
deriving DecidableEq, Repr

variable {δ : Type} [SpiDevice δ]

/-! ## `mmc_sd.c` -/

/-- `SD_SPI_SpeedLow`. -/
def sdSpiSpeedLow : Prog (Mcu δ SdVars) Unit :=
  assign fun v ↦ { v with prescaler := SPI_BaudRatePrescaler_256 }

/-- `SD_SPI_SpeedHigh`. -/
def sdSpiSpeedHigh : Prog (Mcu δ SdVars) Unit :=
  assign fun v ↦ { v with prescaler := SPI_BaudRatePrescaler_2 }

/-- `SD_DisSelect`. -/
def sdDisSelect : Prog (Mcu δ SdVars) Unit := do
  chipSelect true
  let _ ← readWriteByte 0xFF

/-- `SD_WaitReady`: the loop makes at most `0xFFFFFF` rounds. -/
def sdWaitReady : Prog (Mcu δ SdVars) UInt8 := do
  let r ← poll (readWriteByte 0xFF) (fun b ↦ b == 0xFF) 0xFFFFFE
  pure (if r.1 = 0xFF then 0 else 1)

/-- `SD_Select`. -/
def sdSelect : Prog (Mcu δ SdVars) UInt8 := do
  chipSelect false
  let r ← sdWaitReady
  if r = 0 then pure 0
  else do
    sdDisSelect
    pure 1

/-- `SD_GetResponse`: the result tells whether `Count` has run out. -/
def sdGetResponse (response : UInt8) : Prog (Mcu δ SdVars) UInt8 := do
  let r ← poll (readWriteByte 0xFF) (fun b ↦ b == response) 0xFFFF
  pure (if r.2 = 0 then MSD_RESPONSE_FAILURE else MSD_RESPONSE_NO_ERROR)

/-- `SD_RecvData`. -/
def sdRecvData (buf : Nat) (len : UInt16) : Prog (Mcu δ SdVars) UInt8 := do
  let r ← sdGetResponse 0xFE
  if r ≠ 0 then pure 1
  else do
    forRange len.toNat fun i ↦ do
      let b ← readWriteByte 0xFF
      store (buf + i) b
    let _ ← readWriteByte 0xFF
    let _ ← readWriteByte 0xFF
    pure 0

/-- The 512 data bytes of `SD_SendBlock`. -/
def sendBytes (buf : Nat) : Prog (Mcu δ SdVars) Unit :=
  forRange 512 fun t ↦ do
    let b ← load (buf + t)
    let _ ← readWriteByte b
    pure ()

/-- `SD_SendBlock`. -/
def sdSendBlock (buf : Nat) (cmd : UInt8) : Prog (Mcu δ SdVars) UInt8 := do
  let r ← sdWaitReady
  if r ≠ 0 then pure 1
  else do
    let _ ← readWriteByte cmd
    if cmd ≠ 0xFD then do
      sendBytes buf
      let _ ← readWriteByte 0xFF
      let _ ← readWriteByte 0xFF
      let t ← readWriteByte 0xFF
      pure (if t &&& 0x1F ≠ 0x05 then 2 else 0)
    else pure 0

/-- The six bytes of a command. -/
def cmdFrame (cmd : UInt8) (arg : UInt32) (crc : UInt8) : List UInt8 :=
  [cmd ||| 0x40, (arg >>> 24).toUInt8, (arg >>> 16).toUInt8, (arg >>> 8).toUInt8, arg.toUInt8, crc]

/-- Send bytes one after the other. -/
def sendAll : List UInt8 → Prog (Mcu δ SdVars) Unit
  | [] => pure ()
  | b :: bs => do
      let _ ← readWriteByte b
      sendAll bs

/-- `SD_SendCmd`.  `Retry` allows the reply at most 32 bytes. -/
def sdSendCmd (cmd : UInt8) (arg : UInt32) (crc : UInt8) : Prog (Mcu δ SdVars) UInt8 := do
  sdDisSelect
  let r ← sdSelect
  if r ≠ 0 then pure 0xFF
  else do
    sendAll (cmdFrame cmd arg crc)
    when (cmd == CMD12) do
      let _ ← readWriteByte 0xFF
    let r1 ← poll (readWriteByte 0xFF) (fun b ↦ b &&& 0x80 == 0) 0x1F
    pure r1.1

/-- `SD_GetCSD`. -/
def sdGetCSD (csdData : Nat) : Prog (Mcu δ SdVars) UInt8 := do
  let r1 ← sdSendCmd CMD9 0 0x01
  let r1 ← (if r1 = 0 then sdRecvData csdData 16 else pure r1)
  sdDisSelect
  pure (if r1 ≠ 0 then 1 else 0)

/-- What `SD_GetSectorCount` makes of the register: `n` is a byte and `csize` has 16 bits.  (Where
`n` is less than 9, C says nothing about the shift.) -/
def capacity (csd : Nat → UInt8) : UInt32 :=
  if csd 0 &&& 0xC0 = 0x40 then
    let csize : UInt16 := (csd 9).toUInt16 + ((csd 8).toUInt16 <<< 8) + 1
    csize.toUInt32 <<< 10
  else
    let blockLen : UInt8 := csd 5 &&& 15
    let mult₀ : UInt8 := (csd 10 &&& 128) >>> 7
    let mult₁ : UInt8 := (csd 9 &&& 3) <<< 1
    let n : UInt8 := blockLen + mult₀ + mult₁ + 2
    let csize : UInt16 := (csd 8 >>> 6).toUInt16 + ((csd 7).toUInt16 <<< 2) +
      ((csd 6 &&& 3).toUInt16 <<< 10) + 1
    csize.toUInt32 <<< (n.toUInt32 - 9)

/-- `SD_GetSectorCount`; `csd` is its array. -/
def sdGetSectorCount (csd : Nat) : Prog (Mcu δ SdVars) UInt32 := do
  let r ← sdGetCSD csd
  if r ≠ 0 then pure 0
  else Prog.read fun s ↦ capacity fun i ↦ s.mem (csd + i)

/-- `SD_SPI_Init`.  Setting up the pins takes `SD_CS` high, before `SPI1_Init` sends its byte. -/
def sdSpiInit : Prog (Mcu δ SdVars) Unit := do
  chipSelect true
  sdSpiSpeedLow
  let _ ← readWriteByte 0xFF
  chipSelect true

/-- `do … while (!stop && retry--);`: the last reply, and `retry`, which wraps when it is used
up. -/
def retrying (p : Prog (Mcu δ SdVars) UInt8) (stop : UInt8) (retry : UInt16) :
    Prog (Mcu δ SdVars) (UInt8 × UInt16) := do
  let r ← poll p (fun r1 ↦ r1 == stop) retry.toNat
  pure (r.1, if r.1 = stop then UInt16.ofNat r.2 else 0xFFFF)

/-- The four bytes after the reply to `CMD8` or to `CMD58`. -/
def readFour : Prog (Mcu δ SdVars) (UInt8 × UInt8 × UInt8 × UInt8) := do
  let b₀ ← readWriteByte 0xFF
  let b₁ ← readWriteByte 0xFF
  let b₂ ← readWriteByte 0xFF
  let b₃ ← readWriteByte 0xFF
  pure (b₀, b₁, b₂, b₃)

/-- Assign to `SD_Type`. -/
def setSdType (sdType : UInt8) : Prog (Mcu δ SdVars) Unit :=
  assign fun v ↦ { v with sdType := sdType }

/-! `SD_Initialize` and its parts are written over what they call to send a command, which is
`SD_SendCmd`; a proof may put an observer in its place. -/

section Initialize

variable (sendCmd : UInt8 → UInt32 → UInt8 → Prog (Mcu δ SdVars) UInt8)

/-- `CMD55`, whose reply is not looked at, and `CMD41`. -/
def sendAcmd41By (arg : UInt32) : Prog (Mcu δ SdVars) UInt8 := do
  let _ ← sendCmd CMD55 0 0x01
  sendCmd CMD41 arg 0x01

/-- The branch of `SD_Initialize` for a card that knows `CMD8`: the last `r1`. -/
def initV2By : Prog (Mcu δ SdVars) UInt8 := do
  let buf ← readFour
  if buf.2.2.1 = 0x01 ∧ buf.2.2.2 = 0xAA then do
    let r ← retrying (sendAcmd41By sendCmd 0x40000000) 0 0xFFFE
    if r.2 = 0 then pure r.1
    else do
      let r58 ← sendCmd CMD58 0 0x01
      if r58 = 0 then do
        let buf ← readFour
        setSdType (if buf.1 &&& 0x40 ≠ 0 then SD_TYPE_V2HC else SD_TYPE_V2)
        pure r.1
      else pure r.1
  else pure 0x01

/-- The branch of `SD_Initialize` for a card that does not: the last `r1`. -/
def initV1By : Prog (Mcu δ SdVars) UInt8 := do
  let r1 ← sendAcmd41By sendCmd 0
  let r ← (if r1 ≤ 1 then do
      setSdType SD_TYPE_V1
      retrying (sendAcmd41By sendCmd 0) 0 0xFFFE
    else do
      setSdType SD_TYPE_MMC
      retrying (sendCmd CMD1 0 0x01) 0 0xFFFE)
  if r.2 = 0 then do
    setSdType SD_TYPE_ERR
    pure r.1
  else do
    let r16 ← sendCmd CMD16 512 0x01
    when (r16 != 0) (setSdType SD_TYPE_ERR)
    pure r.1

/-- `SD_Initialize`. -/
def initializeBy : Prog (Mcu δ SdVars) UInt8 := do
  sdSpiInit
  sdSpiSpeedLow
  forRange 10 fun _ ↦ do
    let _ ← readWriteByte 0xFF
  let r ← retrying (sendCmd CMD0 0 0x95) 0x01 20
  setSdType 0
  let r1 ← (if r.1 = 0x01 then do
      let r8 ← sendCmd CMD8 0x1AA 0x87
      if r8 = 1 then initV2By sendCmd else initV1By sendCmd
    else pure r.1)
  sdDisSelect
  sdSpiSpeedHigh
  let sdType ← get SdVars.sdType
  pure (if sdType ≠ 0 then 0 else if r1 ≠ 0 then r1 else 0xAA)

end Initialize

/-- `CMD55` and `CMD41`, as `SD_Initialize` sends them. -/
def sdSendAcmd41 (arg : UInt32) : Prog (Mcu δ SdVars) UInt8 := sendAcmd41By sdSendCmd arg

/-- The branch for a card that knows `CMD8`. -/
def sdInitV2 : Prog (Mcu δ SdVars) UInt8 := initV2By sdSendCmd

/-- The branch for a card that does not. -/
def sdInitV1 : Prog (Mcu δ SdVars) UInt8 := initV1By sdSendCmd

/-- `SD_Initialize`. -/
def sdInitialize : Prog (Mcu δ SdVars) UInt8 := initializeBy sdSendCmd

/-- `SD_ReadDisk`.  The counter `cnt` is a byte, so a count of 0 makes 256 rounds. -/
def sdReadDisk (buf : Nat) (sector : UInt32) (cnt : UInt8) : Prog (Mcu δ SdVars) UInt8 := do
  let sdType ← get SdVars.sdType
  let sector := if sdType ≠ SD_TYPE_V2HC then sector <<< 9 else sector
  if cnt = 1 then do
    let r1 ← sdSendCmd CMD17 sector 0x01
    let r1 ← (if r1 = 0 then sdRecvData buf 512 else pure r1)
    sdDisSelect
    pure r1
  else do
    -- The reply to `CMD18` is not looked at.
    let _ ← sdSendCmd CMD18 sector 0x01
    let r1 ← doWhileOk (fun buf ↦ sdRecvData buf 512) (fun buf ↦ buf + 512) buf (cnt - 1).toNat
    let _ ← sdSendCmd CMD12 0 0x01
    sdDisSelect
    pure r1

/-- The commands that announce the number of blocks, which an MMC does not know. -/
def sdPreErase (cnt : UInt8) : Prog (Mcu δ SdVars) Unit := do
  let sdType ← get SdVars.sdType
  if sdType ≠ SD_TYPE_MMC then do
    let _ ← sdSendCmd CMD55 0 0x01
    let _ ← sdSendCmd CMD23 cnt.toUInt32 0x01
    pure ()
  else pure ()

/-- `SD_WriteDisk`. -/
def sdWriteDisk (buf : Nat) (sector : UInt32) (cnt : UInt8) : Prog (Mcu δ SdVars) UInt8 := do
  let sdType ← get SdVars.sdType
  let sector := if sdType ≠ SD_TYPE_V2HC then sector * 512 else sector
  if cnt = 1 then do
    let r1 ← sdSendCmd CMD24 sector 0x01
    let r1 ← (if r1 = 0 then sdSendBlock buf 0xFE else pure r1)
    sdDisSelect
    pure r1
  else do
    sdPreErase cnt
    let r1 ← sdSendCmd CMD25 sector 0x01
    let r1 ← (if r1 = 0 then do
        let _ ← doWhileOk (fun buf ↦ sdSendBlock buf 0xFC) (fun buf ↦ buf + 512) buf
          (cnt - 1).toNat
        -- The result of the blocks is overwritten by that of the stop token.
        sdSendBlock 0 0xFD
      else pure r1)
    sdDisSelect
    pure r1

/-! ## `diskio.c` -/

inductive DResult
  | RES_OK
  | RES_ERROR
  | RES_WRPRT
  | RES_NOTRDY
  | RES_PARERR
deriving DecidableEq, Repr

/-- The drive numbers of `diskio.c`. -/
def SD_CARD : UInt8 := 0
def EX_FLASH : UInt8 := 1

/-- A bit of `DSTATUS`. -/
def STA_NOINIT : UInt8 := 0x01

/-- `disk_initialize`. -/
def diskInitialize (pdrv : UInt8) : Prog (Mcu δ SdVars) UInt8 := do
  let res ← (if pdrv = SD_CARD then do
      let res ← sdInitialize
      when (res != 0) do
        sdSpiSpeedLow
        let _ ← readWriteByte 0xFF
        sdSpiSpeedHigh
      pure res
    else pure (if pdrv = EX_FLASH then 0 else 1))
  pure (if res ≠ 0 then STA_NOINIT else 0)

/-- `disk_read`. -/
def diskRead (pdrv : UInt8) (buff : Nat) (sector count : UInt32) :
    Prog (Mcu δ SdVars) DResult :=
  if count = 0 then pure .RES_PARERR
  else do
    let res ← (if pdrv = SD_CARD then do
        let res ← sdReadDisk buff sector count.toUInt8
        when (res != 0) do
          sdSpiSpeedLow
          let _ ← readWriteByte 0xFF
          sdSpiSpeedHigh
        pure res
      else pure (if pdrv = EX_FLASH then 0 else 1))
    pure (if res = 0 then .RES_OK else .RES_ERROR)

/-- `disk_write`. -/
def diskWrite (pdrv : UInt8) (buff : Nat) (sector count : UInt32) :
    Prog (Mcu δ SdVars) DResult :=
  if count = 0 then pure .RES_PARERR
  else do
    let res ← (if pdrv = SD_CARD then sdWriteDisk buff sector count.toUInt8
      else pure (if pdrv = EX_FLASH then 0 else 1))
    pure (if res = 0 then .RES_OK else .RES_ERROR)

def CTRL_SYNC : UInt8 := 0
def GET_SECTOR_COUNT : UInt8 := 1
def GET_SECTOR_SIZE : UInt8 := 2
def GET_BLOCK_SIZE : UInt8 := 3

def FLASH_SECTOR_SIZE : UInt16 := 512
def FLASH_SECTOR_COUNT : UInt16 := 9832
def FLASH_BLOCK_SIZE : UInt16 := 8

/-- `* ( WORD* ) buff = w`. -/
def storeWord (buff : Nat) (w : UInt16) : Prog (Mcu δ SdVars) Unit := do
  store buff w.toUInt8
  store (buff + 1) (w >>> 8).toUInt8

/-- `* ( DWORD* ) buff = w`. -/
def storeDword (buff : Nat) (w : UInt32) : Prog (Mcu δ SdVars) Unit := do
  store buff w.toUInt8
  store (buff + 1) (w >>> 8).toUInt8
  store (buff + 2) (w >>> 16).toUInt8
  store (buff + 3) (w >>> 24).toUInt8

/-- The commands that ask for a size. -/
def ioctlSize (cmd : UInt8) (buff : Nat) (sectorSize blockSize : UInt16)
    (sectorCount : Prog (Mcu δ SdVars) UInt32) : Prog (Mcu δ SdVars) DResult :=
  if cmd = GET_SECTOR_SIZE then do
    storeWord buff sectorSize
    pure .RES_OK
  else if cmd = GET_BLOCK_SIZE then do
    storeWord buff blockSize
    pure .RES_OK
  else if cmd = GET_SECTOR_COUNT then do
    let n ← sectorCount
    storeDword buff n
    pure .RES_OK
  else pure .RES_PARERR

/-- `disk_ioctl`. -/
def diskIoctl (csd : Nat) (pdrv cmd : UInt8) (buff : Nat) : Prog (Mcu δ SdVars) DResult :=
  if pdrv = SD_CARD then
    if cmd = CTRL_SYNC then do
      chipSelect false
      let r ← sdWaitReady
      chipSelect true
      pure (if r = 0 then .RES_OK else .RES_ERROR)
    else ioctlSize cmd buff 512 8 (sdGetSectorCount csd)
  else if pdrv = EX_FLASH then
    if cmd = CTRL_SYNC then pure .RES_OK
    else ioctlSize cmd buff FLASH_SECTOR_SIZE FLASH_BLOCK_SIZE (pure FLASH_SECTOR_COUNT.toUInt32)
  else pure .RES_ERROR

/-! ## Addresses and counts -/

/-- The address that a command for a sector carries. -/
def sectorAddr (sdType : UInt8) (sector : UInt32) : UInt32 :=
  if sdType ≠ SD_TYPE_V2HC then sector * 512 else sector

theorem shiftLeft_nine (sector : UInt32) : sector <<< 9 = sector * 512 := by
  apply UInt32.toNat_inj.1
  rw [UInt32.toNat_shiftLeft, UInt32.toNat_mul, Nat.shiftLeft_eq]
  rfl

/-- The rounds of a loop over `cnt` blocks. -/
theorem toNat_pred {cnt : UInt8} (h : cnt ≠ 0) : (cnt - 1).toNat + 1 = cnt.toNat := by
  have hpos : 1 ≤ cnt.toNat := Nat.one_le_iff_ne_zero.2 fun h' ↦ h (UInt8.toNat_inj.1 h')
  have hle : (1 : UInt8) ≤ cnt := UInt8.le_iff_toNat_le.2 hpos
  rw [UInt8.toNat_sub_of_le _ _ hle]
  exact Nat.sub_add_cancel hpos

/-- A count that `diskio.c` is documented to pass survives being made a byte. -/
theorem toUInt8_count {count : UInt32} (h1 : 1 ≤ count.toNat) (h128 : count.toNat ≤ 128) :
    count.toUInt8.toNat = count.toNat ∧ count.toUInt8 ≠ 0 ∧ count ≠ 0 := by
  have hcnt : count.toUInt8.toNat = count.toNat := by
    rw [UInt32.toNat_toUInt8]
    exact Nat.mod_eq_of_lt (by omega)
  refine ⟨hcnt, ?_, ?_⟩
  · intro h
    rw [h, UInt8.toNat_zero] at hcnt
    omega
  · rintro rfl
    exact absurd h1 (by decide)

end Stm32F1.Sd

import Stm32F1.Lib.Bus
import Stm32F1.Lib.Loop
import Stm32F1.Flash.Chip

/-!
# The flash driver

`flash.c` of the W25X16 project, function by function, over any chip on the
bus.  Pointers are addresses of the memory of the microcontroller; the sector
buffer `SPI_FLASH_BUF` is a static array at the address `spiFlashBuf`.
-/

namespace Stm32F1.Flash

open Prog Mcu

variable {δ γ : Type} [SpiDevice δ]

/-- `SPI_Flash_ReadSR`. -/
def spiFlashReadSR : Prog (Mcu δ γ) UInt8 := do
  chipSelect false
  let _ ← readWriteByte W25X_ReadStatusReg
  let byte ← readWriteByte 0xFF
  chipSelect true
  pure byte

/-- `SPI_FLASH_Write_SR`. -/
def spiFlashWriteSR (sr : UInt8) : Prog (Mcu δ γ) Unit := do
  chipSelect false
  let _ ← readWriteByte W25X_WriteStatusReg
  let _ ← readWriteByte sr
  chipSelect true

/-- `SPI_FLASH_Write_Enable`. -/
def spiFlashWriteEnable : Prog (Mcu δ γ) Unit := do
  chipSelect false
  let _ ← readWriteByte W25X_WriteEnable
  chipSelect true

/-- `SPI_FLASH_Write_Disable`. -/
def spiFlashWriteDisable : Prog (Mcu δ γ) Unit := do
  chipSelect false
  let _ ← readWriteByte W25X_WriteDisable
  chipSelect true

/-- `SPI_Flash_ReadID`. -/
def spiFlashReadID : Prog (Mcu δ γ) UInt16 := do
  chipSelect false
  let _ ← readWriteByte 0x90
  let _ ← readWriteByte 0x00
  let _ ← readWriteByte 0x00
  let _ ← readWriteByte 0x00
  let hi ← readWriteByte 0xFF
  let lo ← readWriteByte 0xFF
  chipSelect true
  pure (hi.toUInt16 <<< 8 ||| lo.toUInt16)

/-- The command byte and the 24-bit address that open a command. -/
def sendAddress (cmd : UInt8) (addr : UInt32) : Prog (Mcu δ γ) Unit := do
  let _ ← readWriteByte cmd
  let _ ← readWriteByte (addr >>> 16).toUInt8
  let _ ← readWriteByte (addr >>> 8).toUInt8
  let _ ← readWriteByte addr.toUInt8

/-- `SPI_Flash_Read`. -/
def spiFlashRead (pBuffer : Nat) (readAddr : UInt32) (numByteToRead : UInt16) :
    Prog (Mcu δ γ) Unit := do
  chipSelect false
  sendAddress W25X_ReadData readAddr
  forRange numByteToRead.toNat fun i ↦ do
    let b ← readWriteByte 0xFF
    store (pBuffer + i) b
  chipSelect true

/-- `SPI_Flash_Wait_Busy`. -/
def spiFlashWaitBusy : Prog (Mcu δ γ) Unit :=
  whileM do
    let sr ← spiFlashReadSR
    pure (sr &&& 0x01 == 0x01)

/-- `SPI_Flash_Write_Page`. -/
def spiFlashWritePage (pBuffer : Nat) (writeAddr : UInt32) (numByteToWrite : UInt16) :
    Prog (Mcu δ γ) Unit := do
  spiFlashWriteEnable
  chipSelect false
  sendAddress W25X_PageProgram writeAddr
  forRange numByteToWrite.toNat fun i ↦ do
    let b ← load (pBuffer + i)
    let _ ← readWriteByte b
    pure ()
  chipSelect true
  spiFlashWaitBusy

/-- The variables that change in the loop of `SPI_Flash_Write_NoCheck`. -/
structure NoCheckVars where
  pBuffer : Nat
  writeAddr : UInt32
  numByteToWrite : UInt16
  pageremain : UInt16

/-- `SPI_Flash_Write_NoCheck`. -/
def spiFlashWriteNoCheck (pBuffer : Nat) (writeAddr : UInt32) (numByteToWrite : UInt16) :
    Prog (Mcu δ γ) Unit :=
  let room := (256 - writeAddr % 256).toUInt16
  let pageremain := if numByteToWrite ≤ room then numByteToWrite else room
  repeatM (fun v : NoCheckVars ↦ do
    spiFlashWritePage v.pBuffer v.writeAddr v.pageremain
    if v.numByteToWrite = v.pageremain then pure (.inr ())
    else
      let n := v.numByteToWrite - v.pageremain
      pure (.inl {
        pBuffer := v.pBuffer + v.pageremain.toNat
        writeAddr := v.writeAddr + v.pageremain.toUInt32
        numByteToWrite := n
        pageremain := if n > 256 then 256 else n }))
    ⟨pBuffer, writeAddr, numByteToWrite, pageremain⟩

/-- `SPI_Flash_Erase_Sector`. -/
def spiFlashEraseSector (dstAddr : UInt32) : Prog (Mcu δ γ) Unit := do
  let dstAddr := dstAddr * 4096
  spiFlashWriteEnable
  spiFlashWaitBusy
  chipSelect false
  sendAddress W25X_SectorErase dstAddr
  chipSelect true
  spiFlashWaitBusy

/-- `SPI_Flash_Erase_Chip`. -/
def spiFlashEraseChip : Prog (Mcu δ γ) Unit := do
  spiFlashWriteEnable
  spiFlashWaitBusy
  chipSelect false
  let _ ← readWriteByte W25X_ChipErase
  chipSelect true
  spiFlashWaitBusy

/-- The variables that change in the loop of `SPI_Flash_Write`. -/
structure WriteVars where
  secpos : UInt32
  secoff : UInt16
  secremain : UInt16
  pBuffer : Nat
  writeAddr : UInt32
  numByteToWrite : UInt16

/-- One sector of `SPI_Flash_Write`: read it back, and write the part of it that
is asked for, erasing it first if a byte there is not blank. -/
def writeSector (spiFlashBuf : Nat) (v : WriteVars) : Prog (Mcu δ γ) Unit := do
  spiFlashRead spiFlashBuf (v.secpos * 4096) 4096
  let i ← Prog.read fun s : Mcu δ γ ↦
    scan (fun i ↦ s.mem (spiFlashBuf + (v.secoff.toNat + i)) != 0xFF) 0 v.secremain.toNat
  if i < v.secremain.toNat then do
    spiFlashEraseSector v.secpos
    forRange v.secremain.toNat fun i ↦ do
      let b ← load (v.pBuffer + i)
      store (spiFlashBuf + (i + v.secoff.toNat)) b
    spiFlashWriteNoCheck spiFlashBuf (v.secpos * 4096) 4096
  else
    spiFlashWriteNoCheck v.pBuffer v.writeAddr v.secremain

/-- `SPI_Flash_Write`. -/
def spiFlashWrite (spiFlashBuf pBuffer : Nat) (writeAddr : UInt32) (numByteToWrite : UInt16) :
    Prog (Mcu δ γ) Unit :=
  let secoff := (writeAddr % 4096).toUInt16
  let room := 4096 - secoff
  let secremain := if numByteToWrite ≤ room then numByteToWrite else room
  repeatM (fun v : WriteVars ↦ do
    writeSector spiFlashBuf v
    if v.numByteToWrite = v.secremain then pure (.inr ())
    else
      let n := v.numByteToWrite - v.secremain
      pure (.inl {
        secpos := v.secpos + 1
        secoff := 0
        secremain := if n > 4096 then 4096 else n
        pBuffer := v.pBuffer + v.secremain.toNat
        writeAddr := v.writeAddr + v.secremain.toUInt32
        numByteToWrite := n }))
    ⟨writeAddr / 4096, secoff, secremain, pBuffer, writeAddr, numByteToWrite⟩

end Stm32F1.Flash

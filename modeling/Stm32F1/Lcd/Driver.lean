import Stm32F1.Lib.Loop
import Stm32F1.Lcd.Panel

/-!
# The LCD driver

The orientation, the cursor and the fills of `lcd.c`, function by function.  A
write cycle of the bus is one word for the panel.  `LCD_Init` has read `lcddev.id`
from the controller, so it also says which controller the panel has.
-/

namespace Stm32F1.Lcd

open Prog

/-! ## State -/

/-- `_lcd_dev`. -/
structure LcdDev where
  width : UInt16
  height : UInt16
  id : UInt16
  dir : UInt8
  wramcmd : UInt16
  setxcmd : UInt16
  setycmd : UInt16
deriving DecidableEq, Repr

/-- The variables of the driver, and the panel. -/
structure Screen where
  lcddev : LcdDev
  pointColor : UInt16
  backColor : UInt16
  panel : Panel

/-- Read `lcddev`. -/
def getDev : Prog Screen LcdDev := Prog.read Screen.lcddev

/-- Assign to `lcddev`. -/
def setDev (g : LcdDev → LcdDev) : Prog Screen Unit :=
  Prog.modify fun s ↦ { s with lcddev := g s.lcddev }

/-! ## The bus -/

/-- `LCD_WR_REG`. -/
def lcdWrReg (data : UInt16) : Prog Screen Unit :=
  Prog.modify fun s ↦ { s with panel := s.panel.writeReg (family s.lcddev.id) data }

/-- `LCD_WR_DATA`. -/
def lcdWrData (data : UInt16) : Prog Screen Unit :=
  Prog.modify fun s ↦ { s with panel := s.panel.writeData (family s.lcddev.id) data }

/-- `LCD_WriteReg`. -/
def lcdWriteReg (lcdReg lcdRegValue : UInt16) : Prog Screen Unit := do
  lcdWrReg lcdReg
  lcdWrData lcdRegValue

/-- `LCD_WriteRAM_Prepare`. -/
def lcdWriteRamPrepare : Prog Screen Unit := do
  let lcddev ← getDev
  lcdWrReg lcddev.wramcmd

/-! ## The cursor -/

/-- The columns of `0X1963`: portrait counts them from the right, in the second half of the
parameters. -/
def ssdColumns (lcddev : LcdDev) (xpos : UInt16) : Prog Screen Unit :=
  if lcddev.dir = 0 then do
    let xpos := lcddev.width - 1 - xpos
    lcdWrReg lcddev.setxcmd
    lcdWrData 0
    lcdWrData 0
    lcdWrData (xpos >>> 8)
    lcdWrData (xpos &&& 0xFF)
  else do
    lcdWrReg lcddev.setxcmd
    lcdWrData (xpos >>> 8)
    lcdWrData (xpos &&& 0xFF)
    lcdWrData ((lcddev.width - 1) >>> 8)
    lcdWrData ((lcddev.width - 1) &&& 0xFF)

/-- `LCD_SetCursor`. -/
def lcdSetCursor (xpos ypos : UInt16) : Prog Screen Unit := do
  let lcddev ← getDev
  if lcddev.id = 0x9341 ∨ lcddev.id = 0x5310 then do
    lcdWrReg lcddev.setxcmd
    lcdWrData (xpos >>> 8)
    lcdWrData (xpos &&& 0xFF)
    lcdWrReg lcddev.setycmd
    lcdWrData (ypos >>> 8)
    lcdWrData (ypos &&& 0xFF)
  else if lcddev.id = 0x6804 then do
    let xpos := if lcddev.dir = 1 then lcddev.width - 1 - xpos else xpos
    lcdWrReg lcddev.setxcmd
    lcdWrData (xpos >>> 8)
    lcdWrData (xpos &&& 0xFF)
    lcdWrReg lcddev.setycmd
    lcdWrData (ypos >>> 8)
    lcdWrData (ypos &&& 0xFF)
  else if lcddev.id = 0x1963 then do
    ssdColumns lcddev xpos
    lcdWrReg lcddev.setycmd
    lcdWrData (ypos >>> 8)
    lcdWrData (ypos &&& 0xFF)
    lcdWrData ((lcddev.height - 1) >>> 8)
    lcdWrData ((lcddev.height - 1) &&& 0xFF)
  else if lcddev.id = 0x5510 then do
    lcdWrReg lcddev.setxcmd
    lcdWrData (xpos >>> 8)
    lcdWrReg (lcddev.setxcmd + 1)
    lcdWrData (xpos &&& 0xFF)
    lcdWrReg lcddev.setycmd
    lcdWrData (ypos >>> 8)
    lcdWrReg (lcddev.setycmd + 1)
    lcdWrData (ypos &&& 0xFF)
  else do
    let xpos := if lcddev.dir = 1 then lcddev.width - 1 - xpos else xpos
    lcdWriteReg lcddev.setxcmd xpos
    lcdWriteReg lcddev.setycmd ypos

/-! ## The orientation -/

/-- `DFT_SCAN_DIR` is `L2R_U2D`. -/
def DFT_SCAN_DIR : UInt8 := 0

/-- The scan direction that `LCD_Scan_Dir` takes instead of the one asked for, in landscape. -/
def turnedDir (dir : UInt8) : UInt8 :=
  match dir.toNat with
  | 0 => 6
  | 1 => 7
  | 2 => 4
  | 3 => 5
  | 4 => 1
  | 5 => 0
  | 6 => 3
  | 7 => 2
  | _ => dir

/-- Three bits, from bit `n` downwards. -/
def bits (n a b c : UInt16) : UInt16 := (a <<< n) ||| (b <<< (n - 1)) ||| (c <<< (n - 2))

/-- Bits 7 to 5 of register 0x36 for a scan direction: rows upwards, columns leftwards,
exchanged. -/
def scanBits (dir : UInt8) : UInt16 :=
  match dir.toNat with
  | 0 => bits 7 0 0 0
  | 1 => bits 7 1 0 0
  | 2 => bits 7 0 1 0
  | 3 => bits 7 1 1 0
  | 4 => bits 7 0 0 1
  | 5 => bits 7 0 1 1
  | 6 => bits 7 1 0 1
  | 7 => bits 7 1 1 1
  | _ => 0

/-- Bits 5 to 3 of register 0x03 for a scan direction, of the other controllers. -/
def entryBits (dir : UInt8) : UInt16 :=
  match dir.toNat with
  | 0 => bits 5 1 1 0
  | 1 => bits 5 0 1 0
  | 2 => bits 5 1 0 0
  | 3 => bits 5 0 0 0
  | 4 => bits 5 1 1 1
  | 5 => bits 5 1 0 1
  | 6 => bits 5 0 1 1
  | 7 => bits 5 0 0 1
  | _ => 0

/-- The value of register 0x36: the scan direction, the order of the colours, and for `0X6804` one
bit more. -/
def scanReg (id : UInt16) (dir : UInt8) : UInt16 :=
  scanBits dir ||| (if id ≠ 0x5310 ∧ id ≠ 0x5510 ∧ id ≠ 0x1963 then 0x08 else 0) |||
    (if id = 0x6804 then 0x02 else 0)

/-- The size as the exchange bit has it: the longer side is the width exactly when it is set. -/
def resized (regval : UInt16) (lcddev : LcdDev) : LcdDev :=
  if lcddev.id ≠ 0x1963 then
    if regval &&& 0x20 ≠ 0 then
      if lcddev.width < lcddev.height then
        { lcddev with width := lcddev.height, height := lcddev.width }
      else lcddev
    else if lcddev.width > lcddev.height then
      { lcddev with width := lcddev.height, height := lcddev.width }
    else lcddev
  else lcddev

/-- The window that `LCD_Scan_Dir` sets: all of the screen. -/
def wholeWindow : Prog Screen Unit := do
  let lcddev ← getDev
  if lcddev.id = 0x5510 then do
    lcdWrReg lcddev.setxcmd
    lcdWrData 0
    lcdWrReg (lcddev.setxcmd + 1)
    lcdWrData 0
    lcdWrReg (lcddev.setxcmd + 2)
    lcdWrData ((lcddev.width - 1) >>> 8)
    lcdWrReg (lcddev.setxcmd + 3)
    lcdWrData ((lcddev.width - 1) &&& 0xFF)
    lcdWrReg lcddev.setycmd
    lcdWrData 0
    lcdWrReg (lcddev.setycmd + 1)
    lcdWrData 0
    lcdWrReg (lcddev.setycmd + 2)
    lcdWrData ((lcddev.height - 1) >>> 8)
    lcdWrReg (lcddev.setycmd + 3)
    lcdWrData ((lcddev.height - 1) &&& 0xFF)
  else do
    lcdWrReg lcddev.setxcmd
    lcdWrData 0
    lcdWrData 0
    lcdWrData ((lcddev.width - 1) >>> 8)
    lcdWrData ((lcddev.width - 1) &&& 0xFF)
    lcdWrReg lcddev.setycmd
    lcdWrData 0
    lcdWrData 0
    lcdWrData ((lcddev.height - 1) >>> 8)
    lcdWrData ((lcddev.height - 1) &&& 0xFF)

/-- The scan direction that is set. -/
def scanDir (lcddev : LcdDev) (dir : UInt8) : UInt8 :=
  if (lcddev.dir = 1 ∧ lcddev.id ≠ 0x6804 ∧ lcddev.id ≠ 0x1963) ∨
      (lcddev.dir = 0 ∧ lcddev.id = 0x1963) then turnedDir dir else dir

/-- `LCD_Scan_Dir`. -/
def lcdScanDir (dir : UInt8) : Prog Screen Unit := do
  let lcddev ← getDev
  let dir := scanDir lcddev dir
  if lcddev.id = 0x9341 ∨ lcddev.id = 0x6804 ∨ lcddev.id = 0x5310 ∨ lcddev.id = 0x5510 ∨
      lcddev.id = 0x1963 then do
    lcdWriteReg (if lcddev.id = 0x5510 then 0x3600 else 0x36) (scanReg lcddev.id dir)
    setDev (resized (scanReg lcddev.id dir))
    wholeWindow
  else lcdWriteReg 0x03 (entryBits dir ||| ((1 : UInt16) <<< 12))

/-- The first half of `LCD_Display_Dir`, for `dir` 0. -/
def portrait (lcddev : LcdDev) : LcdDev :=
  let lcddev := { lcddev with dir := 0, width := 240, height := 320 }
  if lcddev.id = 0x9341 ∨ lcddev.id = 0x6804 ∨ lcddev.id = 0x5310 then
    let lcddev := { lcddev with wramcmd := 0x2C, setxcmd := 0x2A, setycmd := 0x2B }
    if lcddev.id = 0x6804 ∨ lcddev.id = 0x5310 then { lcddev with width := 320, height := 480 }
    else lcddev
  else if lcddev.id = 0x5510 then
    { lcddev with
      wramcmd := 0x2C00, setxcmd := 0x2A00, setycmd := 0x2B00, width := 480, height := 800 }
  else if lcddev.id = 0x1963 then
    { lcddev with wramcmd := 0x2C, setxcmd := 0x2B, setycmd := 0x2A, width := 480, height := 800 }
  else { lcddev with wramcmd := 0x22, setxcmd := 0x20, setycmd := 0x21 }

/-- The other half. -/
def landscape (lcddev : LcdDev) : LcdDev :=
  let lcddev := { lcddev with dir := 1, width := 320, height := 240 }
  let lcddev :=
    if lcddev.id = 0x9341 ∨ lcddev.id = 0x5310 then
      { lcddev with wramcmd := 0x2C, setxcmd := 0x2A, setycmd := 0x2B }
    else if lcddev.id = 0x6804 then
      { lcddev with wramcmd := 0x2C, setxcmd := 0x2B, setycmd := 0x2A }
    else if lcddev.id = 0x5510 then
      { lcddev with
        wramcmd := 0x2C00, setxcmd := 0x2A00, setycmd := 0x2B00, width := 800, height := 480 }
    else if lcddev.id = 0x1963 then
      { lcddev with wramcmd := 0x2C, setxcmd := 0x2A, setycmd := 0x2B, width := 800, height := 480 }
    else { lcddev with wramcmd := 0x22, setxcmd := 0x21, setycmd := 0x20 }
  if lcddev.id = 0x6804 ∨ lcddev.id = 0x5310 then { lcddev with width := 480, height := 320 }
  else lcddev

/-- `LCD_Display_Dir`. -/
def lcdDisplayDir (dir : UInt8) : Prog Screen Unit := do
  setDev (if dir = 0 then portrait else landscape)
  lcdScanDir DFT_SCAN_DIR

/-! ## Points -/

/-- `LCD_DrawPoint`. -/
def lcdDrawPoint (x y : UInt16) : Prog Screen Unit := do
  lcdSetCursor x y
  lcdWriteRamPrepare
  let color ← Prog.read Screen.pointColor
  lcdWrData color

/-- The address that `LCD_Fast_DrawPoint` sends. -/
def fastAddress (x y : UInt16) : Prog Screen Unit := do
  let lcddev ← getDev
  if lcddev.id = 0x9341 ∨ lcddev.id = 0x5310 then do
    lcdWrReg lcddev.setxcmd
    lcdWrData (x >>> 8)
    lcdWrData (x &&& 0xFF)
    lcdWrReg lcddev.setycmd
    lcdWrData (y >>> 8)
    lcdWrData (y &&& 0xFF)
  else if lcddev.id = 0x5510 then do
    lcdWrReg lcddev.setxcmd
    lcdWrData (x >>> 8)
    lcdWrReg (lcddev.setxcmd + 1)
    lcdWrData (x &&& 0xFF)
    lcdWrReg lcddev.setycmd
    lcdWrData (y >>> 8)
    lcdWrReg (lcddev.setycmd + 1)
    lcdWrData (y &&& 0xFF)
  else if lcddev.id = 0x1963 then do
    let x := if lcddev.dir = 0 then lcddev.width - 1 - x else x
    lcdWrReg lcddev.setxcmd
    lcdWrData (x >>> 8)
    lcdWrData (x &&& 0xFF)
    lcdWrData (x >>> 8)
    lcdWrData (x &&& 0xFF)
    lcdWrReg lcddev.setycmd
    lcdWrData (y >>> 8)
    lcdWrData (y &&& 0xFF)
    lcdWrData (y >>> 8)
    lcdWrData (y &&& 0xFF)
  else if lcddev.id = 0x6804 then do
    let x := if lcddev.dir = 1 then lcddev.width - 1 - x else x
    lcdWrReg lcddev.setxcmd
    lcdWrData (x >>> 8)
    lcdWrData (x &&& 0xFF)
    lcdWrReg lcddev.setycmd
    lcdWrData (y >>> 8)
    lcdWrData (y &&& 0xFF)
  else do
    let x := if lcddev.dir = 1 then lcddev.width - 1 - x else x
    lcdWriteReg lcddev.setxcmd x
    lcdWriteReg lcddev.setycmd y

/-- `LCD_Fast_DrawPoint`. -/
def lcdFastDrawPoint (x y color : UInt16) : Prog Screen Unit := do
  fastAddress x y
  lcdWriteRamPrepare
  lcdWrData color

/-! ## Fills -/

/-- `n` words of data. -/
def wrColors (n : Nat) (color : Nat → UInt16) : Prog Screen Unit :=
  forRange n fun j ↦ lcdWrData (color j)

/-- The rows of `LCD_Fill`: `for (i = sy; i <= ey; i++)`, which does not end when `ey` is 65535. -/
def fillRows (sx sy ey xlen color : UInt16) : Prog Screen Unit :=
  repeatM (fun i ↦ if i ≤ ey then do
      lcdSetCursor sx i
      lcdWriteRamPrepare
      wrColors xlen.toNat fun _ ↦ color
      pure (.inl (i + 1))
    else pure (.inr ())) sy

/-- `LCD_Fill`.  In the landscape of `0X6804` it calls itself for the rectangle turned round, with
`dir` 0, so that the call in turn fills the rows. -/
def lcdFill (sx sy ex ey color : UInt16) : Prog Screen Unit := do
  let lcddev ← getDev
  if lcddev.id = 0x6804 ∧ lcddev.dir = 1 then do
    let temp := sx
    let sx := sy
    let sy := lcddev.width - ex - 1
    let ex := ey
    let ey := lcddev.width - temp - 1
    setDev fun d ↦ { d with dir := 0, setxcmd := 0x2A, setycmd := 0x2B }
    fillRows sx sy ey (ex - sx + 1) color
    setDev fun d ↦ { d with dir := 1, setxcmd := 0x2B, setycmd := 0x2A }
  else fillRows sx sy ey (ex - sx + 1) color

/-- `LCD_Color_Fill`; `color` is what the pointer points to. -/
def lcdColorFill (sx sy ex ey : UInt16) (color : Nat → UInt16) : Prog Screen Unit :=
  let width := ex - sx + 1
  let height := ey - sy + 1
  forRange height.toNat fun i ↦ do
    lcdSetCursor sx (sy + UInt16.ofNat i)
    lcdWriteRamPrepare
    wrColors width.toNat fun j ↦ color (i * width.toNat + j)

end Stm32F1.Lcd

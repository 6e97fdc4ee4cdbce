import Stm32F1.Lib.Framed
import Stm32F1.Lib.Overlay

/-!
# The W25X16 serial flash

The chip as the driver meets it on the bus.  A command is the list of bytes
received while the chip is selected; reading commands answer while they are
being received, the others take effect when the chip is deselected.

Programming and erasing keep the chip busy for a number of status reads that
the chip chooses (`dur`), and clear the write-enable latch when they end.  A
busy chip ignores every command but a status read.
-/

namespace Stm32F1.Flash

/-! ## Commands -/

def W25X_WriteEnable : UInt8 := 0x06
def W25X_WriteDisable : UInt8 := 0x04
def W25X_ReadStatusReg : UInt8 := 0x05
def W25X_WriteStatusReg : UInt8 := 0x01
def W25X_ReadData : UInt8 := 0x03
def W25X_PageProgram : UInt8 := 0x02
def W25X_SectorErase : UInt8 := 0x20
def W25X_ChipErase : UInt8 := 0xC7
def W25X_ManufactDeviceID : UInt8 := 0x90

/-- One command as the chip received it, with BUSY and the write-enable latch at
the moment it was complete. -/
structure Frame where
  bytes : List UInt8
  busy : Bool
  wel : Bool
deriving DecidableEq, Repr

/-- The state of the chip. -/
structure W25x16 where
  /-- The number of cells. -/
  size : Nat
  /-- The cells; only addresses below `size` exist. -/
  cell : Nat → UInt8
  /-- The write-enable latch. -/
  wel : Bool
  /-- The status reads that still see BUSY. -/
  busy : Nat
  /-- How many status reads the `k`-th internal operation lasts. -/
  dur : Nat → Nat
  /-- The internal operations started so far. -/
  started : Nat
  /-- Every command but the status reads, in the order received. -/
  log : List Frame

/-- The 24-bit address sent most significant byte first. -/
def addr24 (a₂ a₁ a₀ : UInt8) : Nat := a₂.toNat * 65536 + a₁.toNat * 256 + a₀.toNat

/-- The cell that the `k`-th byte of a page program at `a` goes to: the low
eight bits of the address wrap within the page. -/
def pageAddr (a k : Nat) : Nat := a / 256 * 256 + (a + k) % 256

/-- Programming can only clear bits: the `k`-th byte of `ds` is ANDed into its
cell. -/
def programFrom (a : Nat) : Nat → List UInt8 → (Nat → UInt8) → Nat → UInt8
  | _, [], cell => cell
  | k, d :: ds, cell =>
      programFrom a (k + 1) ds
        (Function.update cell (pageAddr a k) (cell (pageAddr a k) &&& d))

namespace W25x16

variable (c : W25x16)

/-- The status register: BUSY is bit 0, the write-enable latch bit 1. -/
def status : UInt8 := (if c.busy = 0 then 0 else 1) ||| (if c.wel then 2 else 0)

/-- A status read goes by: BUSY runs down, and the write-enable latch is cleared
with it. -/
def pass : W25x16 :=
  { c with busy := c.busy - 1, wel := if c.busy = 1 then false else c.wel }

/-- An internal operation begins. -/
def start : W25x16 :=
  { c with
    busy := c.dur c.started
    started := c.started + 1
    wel := if c.dur c.started = 0 then false else c.wel }

/-- The chip once it is ready again. -/
def settle : W25x16 := { c with busy := 0, wel := if c.busy = 0 then c.wel else false }

/-- The effect of a complete command on an idle chip. -/
def execute : List UInt8 → W25x16
  | [op] =>
      if op = W25X_WriteEnable then { c with wel := true }
      else if op = W25X_WriteDisable then { c with wel := false }
      else if op = W25X_ChipErase ∧ c.wel then { c with cell := fun _ ↦ 0xFF }.start
      else c
  | [op, _] => if op = W25X_WriteStatusReg ∧ c.wel then c.start else c
  | [op, a₂, a₁, a₀] =>
      if op = W25X_SectorErase ∧ c.wel then
        { c with
          cell := overlay c.cell (addr24 a₂ a₁ a₀ / 4096 * 4096) 4096 fun _ ↦ 0xFF }.start
      else c
  | op :: a₂ :: a₁ :: a₀ :: d :: ds =>
      if op = W25X_PageProgram ∧ c.wel then
        { c with cell := programFrom (addr24 a₂ a₁ a₀) 0 (d :: ds) c.cell }.start
      else c
  | _ => c

/-- The byte the chip shifts out after having received these. -/
def reply : List UInt8 → UInt8
  | op :: args =>
      if op = W25X_ReadStatusReg then c.status
      else if c.busy ≠ 0 then 0xFF
      else match args with
        | a₂ :: a₁ :: a₀ :: ds =>
            if op = W25X_ReadData then c.cell ((addr24 a₂ a₁ a₀ + ds.length) % c.size)
            else if op = W25X_ManufactDeviceID then
              if ds.length % 2 = 0 then 0xEF else 0x14
            else 0xFF
        | _ => 0xFF
  | [] => 0xFF

/-- The chip after it has shifted out that byte: only a status read changes it. -/
def shifted : List UInt8 → W25x16
  | op :: _ => if op = W25X_ReadStatusReg then c.pass else c
  | [] => c

/-- The chip is deselected, and acts on the command it has received. -/
def finish (bs : List UInt8) : W25x16 :=
  if bs.head? = some W25X_ReadStatusReg then c
  else
    let c' := { c with log := c.log ++ [⟨bs, decide (c.busy ≠ 0), c.wel⟩] }
    if c.busy = 0 then c'.execute bs else c'

end W25x16

instance instFramedChip : FramedChip W25x16 where
  shift bs _ c := (c.reply bs, c.shifted bs)
  finish bs c := c.finish bs

end Stm32F1.Flash

import Stm32F1.Lib.Prog

/-!
# A microcontroller with one chip on its serial bus

The drivers of this development only touch three things: the byte-addressed
memory of the microcontroller, their own file-level variables, and one chip
behind a full-duplex serial bus with a chip-select line.  `Mcu δ γ` is that
state, and the actions below are all a driver can do with it.

A driver is written once, over any `SpiDevice`; what it is connected to (a
model of the chip, an arbitrary stream of replies) is chosen by the theorem.
-/

namespace Stm32F1

/-- A chip on the serial bus. -/
class SpiDevice (δ : Type) where
  /-- The chip-select line is driven to this level (the chip is selected when it is low). -/
  cs : Bool → δ → δ
  /-- One byte is shifted out to the chip while one is shifted in. -/
  exchange : UInt8 → δ → UInt8 × δ

/-- The state a driver works on: memory, the chip, and the driver's own variables. -/
@[ext]
structure Mcu (δ γ : Type) where
  mem : Nat → UInt8
  dev : δ
  glob : γ

namespace Mcu

variable {δ γ : Type} [SpiDevice δ]

/-- Drive the chip-select pin. -/
def chipSelect (level : Bool) : Prog (Mcu δ γ) Unit :=
  Prog.modify fun s ↦ { s with dev := SpiDevice.cs level s.dev }

/-- Exchange one byte on the bus. -/
def readWriteByte (b : UInt8) : Prog (Mcu δ γ) UInt8 :=
  Prog.act fun s ↦
    ((SpiDevice.exchange b s.dev).1, { s with dev := (SpiDevice.exchange b s.dev).2 })

omit [SpiDevice δ]

/-- Read the byte at an address. -/
def load (a : Nat) : Prog (Mcu δ γ) UInt8 := Prog.read fun s ↦ s.mem a

/-- Write the byte at an address. -/
def store (a : Nat) (b : UInt8) : Prog (Mcu δ γ) Unit :=
  Prog.modify fun s ↦ { s with mem := Function.update s.mem a b }

/-- Read a variable of the driver. -/
def get {α : Type} (f : γ → α) : Prog (Mcu δ γ) α := Prog.read fun s ↦ f s.glob

/-- Assign to the variables of the driver. -/
def assign (f : γ → γ) : Prog (Mcu δ γ) Unit := Prog.modify fun s ↦ { s with glob := f s.glob }

@[simp] theorem load_apply (a : Nat) (s : Mcu δ γ) : load a s = some (s.mem a, s) := rfl

@[simp] theorem store_apply (a : Nat) (b : UInt8) (s : Mcu δ γ) :
    store a b s = some ((), { s with mem := Function.update s.mem a b }) := rfl

@[simp] theorem get_apply {α : Type} (f : γ → α) (s : Mcu δ γ) :
    get f s = some (f s.glob, s) := rfl

@[simp] theorem assign_apply (f : γ → γ) (s : Mcu δ γ) :
    assign f s = some ((), { s with glob := f s.glob }) := rfl

variable [SpiDevice δ]

@[simp] theorem chipSelect_apply (level : Bool) (s : Mcu δ γ) :
    chipSelect level s = some ((), { s with dev := SpiDevice.cs level s.dev }) := rfl

@[simp] theorem readWriteByte_apply (b : UInt8) (s : Mcu δ γ) :
    readWriteByte b s = some ((SpiDevice.exchange b s.dev).1,
      { s with dev := (SpiDevice.exchange b s.dev).2 }) := rfl

end Mcu

end Stm32F1

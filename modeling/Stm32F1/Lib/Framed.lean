import Stm32F1.Lib.Bus

/-!
# Chips whose commands are framed by chip select

Many serial chips take one command per selection: the first byte after the
falling edge of chip select is an opcode, the bytes that follow are arguments
or data, and the rising edge ends the command.  `Framed κ` puts such a chip on
the bus: it remembers the bytes received since the chip was selected, and hands
them to the chip with every further byte and at the end.
-/

namespace Stm32F1

/-- A chip with framed commands, described by what it does with a byte and with
the end of a frame. -/
class FramedChip (κ : Type) where
  /-- The frame so far is `bs`, and `b` is shifted in: the byte shifted out meanwhile, and
  the chip afterwards. -/
  shift : List UInt8 → UInt8 → κ → UInt8 × κ
  /-- The frame `bs` is over. -/
  finish : List UInt8 → κ → κ

/-- A chip with framed commands, on the bus. -/
@[ext]
structure Framed (κ : Type) where
  chip : κ
  /-- The frame so far, while the chip is selected. -/
  rx : Option (List UInt8)

namespace Framed

variable {κ : Type} [FramedChip κ] {c : κ} {bs : List UInt8} {b : UInt8}

instance instSpiDevice : SpiDevice (Framed κ) where
  cs level d :=
    match level, d.rx with
    | false, _ => ⟨d.chip, some []⟩
    | true, some bs => ⟨FramedChip.finish bs d.chip, none⟩
    | true, none => d
  exchange b d :=
    match d.rx with
    | some bs => ((FramedChip.shift bs b d.chip).1,
        ⟨(FramedChip.shift bs b d.chip).2, some (bs ++ [b])⟩)
    | none => (0xFF, d)

@[simp] theorem cs_low (d : Framed κ) : SpiDevice.cs false d = ⟨d.chip, some []⟩ := rfl

@[simp] theorem cs_high :
    SpiDevice.cs true (⟨c, some bs⟩ : Framed κ) = ⟨FramedChip.finish bs c, none⟩ := rfl

@[simp] theorem exchange_selected : SpiDevice.exchange b (⟨c, some bs⟩ : Framed κ) =
    ((FramedChip.shift bs b c).1, ⟨(FramedChip.shift bs b c).2, some (bs ++ [b])⟩) := rfl

end Framed

end Stm32F1

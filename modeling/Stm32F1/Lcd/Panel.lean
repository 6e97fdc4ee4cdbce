import Mathlib

/-!
# The panel

What a display controller makes of the words on its bus.  A word is a command (or
the number of a register) or data.  Data after the command that opens the memory
are colours for successive columns of the addressed row; other data are the
parameters of the command.

Three families of controller differ in how they are told an address: as two
parameters of a command, as two registers of a byte each, or as one register.
-/

namespace Stm32F1.Lcd

/-- How a controller takes addresses. -/
inductive Family
  /-- A command with a parameter for every byte. -/
  | bytes
  /-- A register for every byte. -/
  | split
  /-- A register of 16 bits. -/
  | word
deriving DecidableEq, Repr

/-- The family of a controller, by its id. -/
def family (id : UInt16) : Family :=
  if id = 0x9341 ∨ id = 0x5310 ∨ id = 0x6804 ∨ id = 0x1963 then .bytes
  else if id = 0x5510 then .split
  else .word

namespace Family

/-- The command that opens the memory. -/
def memoryWrite : Family → UInt16
  | .bytes => 0x2C
  | .split => 0x2C00
  | .word => 0x22

/-- The command for the column address. -/
def column : Family → UInt16
  | .bytes => 0x2A
  | .split => 0x2A00
  | .word => 0x20

/-- The command for the row address. -/
def row : Family → UInt16
  | .bytes => 0x2B
  | .split => 0x2B00
  | .word => 0x21

end Family

structure Panel where
  /-- The last command. -/
  index : UInt16
  /-- How many data words have followed it. -/
  count : Nat
  /-- The parameters of the commands. -/
  param : UInt16 → Nat → UInt16
  /-- The colours, by column and row. -/
  ram : Nat × Nat → UInt16
  /-- Where the next colour goes. -/
  pos : Nat × Nat

/-- Two parameters that are the bytes of an address. -/
def word (hi lo : UInt16) : Nat := (hi &&& 0xFF).toNat * 256 + (lo &&& 0xFF).toNat

namespace Panel

variable (f : Family) (p : Panel)

/-- The address given with a command. -/
def address (cmd : UInt16) : Nat :=
  match f with
  | .bytes => Lcd.word (p.param cmd 0) (p.param cmd 1)
  | .split => Lcd.word (p.param cmd 0) (p.param (cmd + 1) 0)
  | .word => (p.param cmd 0).toNat

/-- The column and the row addressed. -/
def place : Nat × Nat := (p.address f f.column, p.address f f.row)

/-- The exchange bit is set, so columns are counted along the longer side. -/
def exchanged : Bool :=
  match f with
  | .bytes => p.param 0x36 0 &&& 0x20 != 0
  | .split => p.param 0x3600 0 &&& 0x20 != 0
  | .word => false

/-- A command. -/
def writeReg (cmd : UInt16) : Panel :=
  { p with index := cmd, count := 0, pos := if cmd = f.memoryWrite then p.place f else p.pos }

/-- A data word. -/
def writeData (d : UInt16) : Panel :=
  if p.index = f.memoryWrite then
    { p with ram := Function.update p.ram p.pos d, pos := (p.pos.1 + 1, p.pos.2) }
  else
    { p with
      param := fun cmd k ↦ if cmd = p.index ∧ k = p.count then d else p.param cmd k
      count := p.count + 1 }

end Panel

/-! ## Addresses as they are sent -/

variable {f : Family} {p : Panel} {cmd cmd' : UInt16}

/-- The bytes of an address, put together again. -/
theorem word_bytes (x : UInt16) : word (x >>> 8) (x &&& 0xFF) = x.toNat := by
  have hx : x.toNat < 65536 := x.toNat_lt
  have hmask (n : Nat) : n &&& 255 = n % 256 := Nat.and_two_pow_sub_one_eq_mod n 8
  have hhi : (x >>> 8).toNat = x.toNat / 256 := by
    rw [UInt16.toNat_shiftRight]
    exact Nat.shiftRight_eq_div_pow _ _
  have hff : (0xFF : UInt16).toNat = 255 := rfl
  rw [word, UInt16.toNat_and, UInt16.toNat_and, UInt16.toNat_and, hhi, hff, hmask, hmask, hmask]
  omega

/-- The panel has been told an address: the other one and the colours are as before. -/
structure Told (f : Family) (cmd : UInt16) (x : Nat) (p q : Panel) : Prop where
  address : q.address f cmd = x
  other : ∀ cmd', cmd' = f.column ∨ cmd' = f.row → cmd' ≠ cmd → q.address f cmd' = p.address f cmd'
  ram : q.ram = p.ram

/-- The commands that carry an address. -/
def Family.Carries (f : Family) (cmd : UInt16) : Prop := cmd = f.column ∨ cmd = f.row

theorem Family.Carries.ne_memoryWrite (h : f.Carries cmd) : cmd ≠ f.memoryWrite := by
  rcases h with rfl | rfl
  · cases f <;> decide
  · cases f <;> decide

/-- One parameter after a command that does not open the memory. -/
theorem writeData_of_ne (h : p.index ≠ f.memoryWrite) (d : UInt16) : p.writeData f d =
    { p with
      param := fun cmd k ↦ if cmd = p.index ∧ k = p.count then d else p.param cmd k
      count := p.count + 1 } := if_neg h

@[simp] theorem index_writeReg (f : Family) (p : Panel) (cmd : UInt16) :
    (p.writeReg f cmd).index = cmd := by
  rw [Panel.writeReg]

@[simp] theorem param_writeReg (f : Family) (p : Panel) (cmd : UInt16) :
    (p.writeReg f cmd).param = p.param := rfl

/-- The parameters of another command are left alone. -/
theorem param_writeData (h : cmd ≠ p.index) (d : UInt16) :
    (p.writeData f d).param cmd = p.param cmd := by
  rw [Panel.writeData]
  split
  · rfl
  · funext k
    exact if_neg fun hk ↦ h hk.1

@[simp] theorem index_writeData (f : Family) (p : Panel) (d : UInt16) :
    (p.writeData f d).index = p.index := by
  rw [Panel.writeData]
  split <;> rfl

theorem told_bytes (h : Family.bytes.Carries cmd) (hi lo : UInt16) :
    Told .bytes cmd (word hi lo) p
      (((p.writeReg .bytes cmd).writeData .bytes hi).writeData .bytes lo) := by
  have hfirst : (p.writeReg .bytes cmd).index ≠ Family.bytes.memoryWrite := h.ne_memoryWrite
  have hsecond :
      ((p.writeReg .bytes cmd).writeData .bytes hi).index ≠ Family.bytes.memoryWrite := by
    rwa [index_writeData]
  rw [writeData_of_ne hsecond, writeData_of_ne hfirst]
  constructor
  · simp [Panel.address, Panel.writeReg]
  · intro cmd' _ hcmd
    simp [Panel.address, Panel.writeReg, hcmd]
  · rfl

theorem told_split (h : Family.split.Carries cmd) (hi lo : UInt16) :
    Told .split cmd (word hi lo) p
      ((((p.writeReg .split cmd).writeData .split hi).writeReg .split (cmd + 1)).writeData
        .split lo) := by
  have hne : (p.writeReg .split cmd).index ≠ Family.split.memoryWrite := h.ne_memoryWrite
  have hne' (q : Panel) : (q.writeReg .split (cmd + 1)).index ≠ Family.split.memoryWrite := by
    rcases h with rfl | rfl
    · exact (by decide : Family.split.column + 1 ≠ Family.split.memoryWrite)
    · exact (by decide : Family.split.row + 1 ≠ Family.split.memoryWrite)
  have hself : cmd ≠ cmd + 1 := by
    rcases h with rfl | rfl <;> decide
  rw [writeData_of_ne hne, writeData_of_ne (hne' _)]
  constructor
  · simp [Panel.address, Panel.writeReg, hself]
  · intro cmd' hcarries hcmd
    have h₁ : cmd' ≠ cmd + 1 ∧ cmd' + 1 ≠ cmd ∧ cmd' + 1 ≠ cmd + 1 := by
      rcases h with rfl | rfl <;> rcases hcarries with rfl | rfl <;> revert hcmd <;> decide
    simp [Panel.address, Panel.writeReg, hcmd, h₁]
  · rfl

theorem told_word (h : Family.word.Carries cmd) (x : UInt16) :
    Told .word cmd x.toNat p ((p.writeReg .word cmd).writeData .word x) := by
  have hne : (p.writeReg .word cmd).index ≠ Family.word.memoryWrite := h.ne_memoryWrite
  rw [writeData_of_ne hne]
  constructor
  · simp [Panel.address, Panel.writeReg]
  · intro cmd' _ hcmd
    simp [Panel.address, Panel.writeReg, hcmd]
  · rfl

variable {q r : Panel} {x y : Nat}

theorem Family.column_ne_row (f : Family) : f.column ≠ f.row := by
  cases f <;> decide

/-- Both addresses have been told, the columns first or the rows first. -/
theorem Told.both (h : Told f cmd x p q) (h' : Told f cmd' y q r)
    (hcmd : (cmd = f.column ∧ cmd' = f.row) ∨ (cmd = f.row ∧ cmd' = f.column)) :
    r.ram = p.ram ∧ r.place f = if cmd = f.row then (y, x) else (x, y) := by
  refine ⟨h'.ram.trans h.ram, ?_⟩
  rcases hcmd with ⟨rfl, rfl⟩ | ⟨rfl, rfl⟩
  · have hcolumn := h'.other _ (.inl rfl) f.column_ne_row
    rw [if_neg f.column_ne_row, Panel.place, hcolumn, h.address, h'.address]
  · have hrow := h'.other _ (.inr rfl) f.column_ne_row.symm
    rw [if_pos rfl, Panel.place, hrow, h.address, h'.address]

/-! ## Colours -/

/-- The memory is opened at the place that the panel was told. -/
theorem pos_writeReg (f : Family) (p : Panel) : (p.writeReg f f.memoryWrite).pos = p.place f :=
  if_pos rfl

/-- A colour goes where the panel is, and the panel goes on to the next column. -/
theorem writeData_of_eq (h : p.index = f.memoryWrite) (d : UInt16) : p.writeData f d =
    { p with ram := Function.update p.ram p.pos d, pos := (p.pos.1 + 1, p.pos.2) } := if_pos h

end Stm32F1.Lcd

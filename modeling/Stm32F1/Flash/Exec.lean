import Stm32F1.Flash.Driver

/-!
# The flash driver, command by command

What each command of the driver does to the chip, as an equation.  The chip is
*idle* when it is deselected and not busy; every driver operation starts from
an idle chip and, because it waits at its end, leaves one behind.
-/

namespace Stm32F1.Flash

open Prog Mcu

namespace W25x16

variable {c : W25x16}

/-- A chip that is not busy has settled. -/
theorem settle_of_busy_eq_zero (h : c.busy = 0) : c.settle = c := by
  simp [settle, h]
  rw [← h]

/-- Time brings a busy chip nearer to that, and changes nothing else. -/
theorem settle_pass (h : c.busy ≠ 0) : c.pass.settle = c.settle := by
  by_cases h1 : c.busy = 1
  · simp [settle, pass, h1]
  · simp [settle, pass, h, show c.busy - 1 ≠ 0 by omega]

@[simp] theorem settle_cell : c.settle.cell = c.cell := rfl
@[simp] theorem settle_size : c.settle.size = c.size := rfl
@[simp] theorem settle_log : c.settle.log = c.log := rfl
@[simp] theorem settle_busy : c.settle.busy = 0 := rfl

/-- The lowest bit of the status register tells whether the chip is busy. -/
theorem status_busy : (c.status &&& 0x01 == 0x01) = decide (c.busy ≠ 0) := by
  by_cases hb : c.busy = 0 <;> by_cases hw : c.wel <;> simp [status, hb, hw] <;> decide

end W25x16

variable {γ : Type} {m : Nat → UInt8} {c : W25x16} {g : γ} {bs : List UInt8} {b : UInt8}

@[simp] theorem shift_eq : FramedChip.shift bs b c = (c.reply bs, c.shifted bs) := rfl

@[simp] theorem finish_eq : FramedChip.finish bs c = c.finish bs := rfl

@[simp] theorem W25x16.shifted_nil : c.shifted [] = c := rfl

/-- Only `W25X_ReadStatusReg` does something before the frame ends. -/
theorem W25x16.shifted_cons {op : UInt8} (h : op ≠ W25X_ReadStatusReg) :
    c.shifted (op :: bs) = c := if_neg h

theorem W25x16.start_fixed (cell : Nat → UInt8) :
    ({ c with cell := cell }.start).size = c.size ∧ ({ c with cell := cell }.start).log = c.log :=
  ⟨rfl, rfl⟩

/-- A command writes cells, the latch and the time that the chip is busy, and nothing else. -/
theorem W25x16.execute_fixed :
    ∀ bs, (c.execute bs).size = c.size ∧ (c.execute bs).log = c.log
  | [] => ⟨rfl, rfl⟩
  | [op] => by
      rw [execute]
      split
      · exact ⟨rfl, rfl⟩
      · split
        · exact ⟨rfl, rfl⟩
        · split
          · exact start_fixed _
          · exact ⟨rfl, rfl⟩
  | [op, _] => by
      rw [execute]
      split
      · exact start_fixed c.cell
      · exact ⟨rfl, rfl⟩
  | [op, _, _] => by simp [execute]
  | [op, a₂, a₁, a₀] => by
      rw [execute]
      split
      · exact start_fixed _
      · exact ⟨rfl, rfl⟩
  | op :: a₂ :: a₁ :: a₀ :: d :: ds => by
      rw [execute]
      split
      · exact start_fixed _
      · exact ⟨rfl, rfl⟩

@[simp] theorem W25x16.execute_size : (c.execute bs).size = c.size := (execute_fixed bs).1

@[simp] theorem W25x16.execute_log : (c.execute bs).log = c.log := (execute_fixed bs).2

@[simp] theorem W25x16.finish_size : (c.finish bs).size = c.size := by
  unfold W25x16.finish
  split
  · rfl
  · split
    · exact execute_size
    · rfl

/-- Every frame is on record, but for those that read the status. -/
theorem finish_log (h : bs.head? ≠ some W25X_ReadStatusReg) :
    (c.finish bs).log = c.log ++ [⟨bs, decide (c.busy ≠ 0), c.wel⟩] := by
  rw [W25x16.finish, if_neg h]
  dsimp only
  split
  · exact W25x16.execute_log
  · rfl

/-- `SPI_Flash_ReadSR` reads the status while time goes on. -/
theorem spiFlashReadSR_eq :
    spiFlashReadSR (⟨m, ⟨c, none⟩, g⟩ : Mcu (Framed W25x16) γ) =
      some (c.status, ⟨m, ⟨c.pass, none⟩, g⟩) := by
  simp [spiFlashReadSR, bind_apply, W25x16.shifted, W25x16.reply, W25x16.finish]

/-- Waiting ends, however long the chip stays busy, and leaves the settled chip. -/
theorem spiFlashWaitBusy_eq :
    spiFlashWaitBusy (⟨m, ⟨c, none⟩, g⟩ : Mcu (Framed W25x16) γ) =
      some ((), ⟨m, ⟨c.settle, none⟩, g⟩) := by
  induction hn : c.busy generalizing c with
  | zero =>
      rw [spiFlashWaitBusy, whileM_unfold, bind_assoc', bind_of_eq spiFlashReadSR_eq]
      have hp : c.pass = c.settle := by simp [W25x16.pass, W25x16.settle, hn]
      simp [W25x16.status_busy, hn, hp]
  | succ n ih =>
      have hb : c.busy ≠ 0 := by omega
      rw [spiFlashWaitBusy, whileM_unfold, bind_assoc', bind_of_eq spiFlashReadSR_eq,
        W25x16.status_busy, decide_eq_true hb, pure_bind', when_true, ← spiFlashWaitBusy,
        ih (by simp [W25x16.pass, hn]), W25x16.settle_pass hb]

/-- `SPI_FLASH_Write_Enable` is one frame, obeyed or not. -/
theorem writeEnable_any : spiFlashWriteEnable (⟨m, ⟨c, none⟩, g⟩ : Mcu (Framed W25x16) γ) =
    some ((), ⟨m, ⟨c.finish [W25X_WriteEnable], none⟩, g⟩) := by
  have hop : W25X_WriteEnable ≠ W25X_ReadStatusReg := by decide
  simp [spiFlashWriteEnable, bind_apply]

/-- The chip after a write-enable command. -/
def W25x16.enabled (c : W25x16) : W25x16 :=
  { c with wel := true, log := c.log ++ [⟨[W25X_WriteEnable], false, c.wel⟩] }

/-- A chip that is not busy obeys. -/
theorem finish_writeEnable (h : c.busy = 0) : c.finish [W25X_WriteEnable] = c.enabled := by
  have hop : W25X_WriteEnable ≠ W25X_ReadStatusReg := by decide
  simp [W25x16.finish, W25x16.execute, W25x16.enabled, h, hop]

/-! ## Addresses and data -/

/-- The opcode and address bytes of a command. -/
def header (cmd : UInt8) (addr : UInt32) : List UInt8 :=
  [cmd, (addr >>> 16).toUInt8, (addr >>> 8).toUInt8, addr.toUInt8]

/-- The chip puts the address together again. -/
theorem addr24_header (addr : UInt32) :
    addr24 (addr >>> 16).toUInt8 (addr >>> 8).toUInt8 addr.toUInt8 = addr.toNat % 2 ^ 24 := by
  simp only [addr24, UInt32.toNat_toUInt8, UInt32.toNat_shiftRight, Nat.shiftRight_eq_div_pow]
  have h : addr.toNat < 2 ^ 32 := addr.toNat_lt
  simp
  omega

/-- A command with its address begins a frame. -/
theorem sendAddress_eq {cmd : UInt8} (h : cmd ≠ W25X_ReadStatusReg) (addr : UInt32) :
    sendAddress cmd addr (⟨m, ⟨c, some []⟩, g⟩ : Mcu (Framed W25x16) γ) =
      some ((), ⟨m, ⟨c, some (header cmd addr)⟩, g⟩) := by
  simp [sendAddress, bind_apply, W25x16.shifted_cons h, header]

/-- Sending `n` bytes from memory appends them to the frame. -/
theorem sendData_eq {op : UInt8} (h : op ≠ W25X_ReadStatusReg) (p i n : Nat) :
    forFrom (fun i ↦ do
        let b ← load (p + i)
        let _ ← readWriteByte b
        pure ()) i n (⟨m, ⟨c, some (op :: bs)⟩, g⟩ : Mcu (Framed W25x16) γ) =
      some ((), ⟨m, ⟨c, some (op :: (bs ++ slice m (p + i) n))⟩, g⟩) := by
  induction n generalizing i bs with
  | zero => simp [forFrom]
  | succ n ih =>
      have hstep : (do
          let b ← load (p + i)
          let _ ← readWriteByte b
          pure ()) (⟨m, ⟨c, some (op :: bs)⟩, g⟩ : Mcu (Framed W25x16) γ) =
          some ((), ⟨m, ⟨c, some (op :: (bs ++ [m (p + i)]))⟩, g⟩) := by
        simp [bind_apply, W25x16.shifted_cons h]
      rw [forFrom, slice_succ', bind_of_eq hstep, ih, List.append_assoc, Nat.add_assoc]
      rfl

/-! ## Reading -/

/-- The chip after a reading command, or any other that only leaves a trace. -/
def W25x16.logged (c : W25x16) (bs : List UInt8) : W25x16 :=
  { c with log := c.log ++ [⟨bs, false, c.wel⟩] }

/-- A frame that reads changes nothing. -/
theorem finish_read (h : c.busy = 0) (a : UInt32) (bs : List UInt8) :
    c.finish (header W25X_ReadData a ++ bs) = c.logged (header W25X_ReadData a ++ bs) := by
  cases bs <;>
    simp [W25x16.finish, W25x16.execute, header, W25x16.logged, h, W25X_ReadData,
      W25X_ReadStatusReg, W25X_SectorErase, W25X_PageProgram]

/-- `SPI_Flash_Read` -/
theorem spiFlashRead_eq (h : c.busy = 0) (p : Nat) (a : UInt32) (n : UInt16) :
    spiFlashRead p a n (⟨m, ⟨c, none⟩, g⟩ : Mcu (Framed W25x16) γ) =
      some ((), ⟨overlay m p n.toNat fun i ↦ c.cell ((a.toNat % 2 ^ 24 + i) % c.size),
        ⟨c.logged (header W25X_ReadData a ++ List.replicate n.toNat 0xFF), none⟩, g⟩) := by
  have hloop : forRange n.toNat (fun i ↦ do
        let b ← readWriteByte 0xFF
        store (p + i) b) (⟨m, ⟨c, some (header W25X_ReadData a)⟩, g⟩ : Mcu (Framed W25x16) γ) =
      some ((), ⟨overlay m p n.toNat fun i ↦ c.cell ((a.toNat % 2 ^ 24 + i) % c.size),
        ⟨c, some (header W25X_ReadData a ++ List.replicate n.toNat 0xFF)⟩, g⟩) := by
    refine (run_forRange (fun k (t : Mcu (Framed W25x16) γ) ↦ t =
      ⟨overlay m p k fun i ↦ c.cell ((a.toNat % 2 ^ 24 + i) % c.size),
        ⟨c, some (header W25X_ReadData a ++ List.replicate k 0xFF)⟩, g⟩) ?_ (by simp)).eq
    rintro k _ - rfl
    refine .of_eq (a := ()) ?_ rfl
    simp only [bind_apply, readWriteByte_apply, Framed.exchange_selected, Option.bind_some,
      store_apply, shift_eq, Option.some.injEq, Prod.mk.injEq, true_and, Mcu.mk.injEq, and_true]
    refine ⟨?_, ?_⟩
    · rw [overlay_succ, ← addr24_header]
      simp [W25x16.reply, header, h, W25X_ReadData, W25X_ReadStatusReg]
    · rw [List.replicate_succ', List.append_assoc]
      rfl
  simp only [spiFlashRead, bind_apply, chipSelect_apply, Option.bind_some, Framed.cs_low,
    sendAddress_eq (show W25X_ReadData ≠ W25X_ReadStatusReg by decide), hloop, Framed.cs_high,
    finish_eq, finish_read h]

/-! ## Programming a page -/

/-- A page program that does not run over the end of its page ANDs the data into
consecutive cells. -/
theorem programFrom_slice (a p : Nat) {n k : Nat} (cell : Nat → UInt8) (h : a % 256 + k + n ≤ 256) :
    programFrom a k (slice m (p + k) n) cell =
      overlay cell (a + k) n fun i ↦ cell (a + k + i) &&& m (p + k + i) := by
  induction n generalizing k cell with
  | zero => simp [programFrom]
  | succ n ih =>
      have hpage : pageAddr a k = a + k := by
        rw [pageAddr]
        omega
      rw [slice_succ', programFrom, hpage, Nat.add_assoc p, ih _ (by omega)]
      funext x
      by_cases h₁ : a + (k + 1) ≤ x ∧ x < a + (k + 1) + n
      · rw [overlay_of_mem h₁.1 h₁.2, overlay_of_mem (by omega) (by omega),
          Function.update_of_ne (by omega)]
        congr 2 <;> omega
      · rw [overlay_of_notMem (by omega)]
        by_cases h₂ : x = a + k
        · subst h₂
          rw [Function.update_self, overlay_of_mem (by omega) (by omega), Nat.sub_self]
          rfl
        · rw [Function.update_of_ne h₂, overlay_of_notMem (by omega)]

/-- The chip after `SPI_Flash_Write_Page` has sent it `ds`. -/
def W25x16.pageProgrammed (c : W25x16) (a : UInt32) (ds : List UInt8) : W25x16 :=
  (c.enabled.finish (header W25X_PageProgram a ++ ds)).settle

/-- A page is sent to whatever chip. -/
theorem writePage_any (p : Nat) (a : UInt32) (n : UInt16) :
    spiFlashWritePage p a n (⟨m, ⟨c, none⟩, g⟩ : Mcu (Framed W25x16) γ) =
      some ((), ⟨m, ⟨((c.finish [W25X_WriteEnable]).finish
        (header W25X_PageProgram a ++ slice m p n.toNat)).settle, none⟩, g⟩) := by
  have hop : W25X_PageProgram ≠ W25X_ReadStatusReg := by decide
  rw [spiFlashWritePage, bind_of_eq writeEnable_any, bind_of_eq (chipSelect_apply _ _),
    Framed.cs_low, bind_of_eq (sendAddress_eq hop a), header, forRange,
    bind_of_eq (sendData_eq hop ..), bind_of_eq (chipSelect_apply _ _), Framed.cs_high,
    spiFlashWaitBusy_eq, Nat.add_zero]
  rfl

/-- `SPI_Flash_Write_Page` -/
theorem spiFlashWritePage_eq (h : c.busy = 0) (p : Nat) (a : UInt32) (n : UInt16) :
    spiFlashWritePage p a n (⟨m, ⟨c, none⟩, g⟩ : Mcu (Framed W25x16) γ) =
      some ((), ⟨m, ⟨c.pageProgrammed a (slice m p n.toNat), none⟩, g⟩) := by
  rw [writePage_any, finish_writeEnable h, W25x16.pageProgrammed]

section PageProgrammed

variable (h : c.busy = 0) (a : UInt32) (ds : List UInt8)

@[simp] theorem pageProgrammed_busy : (c.pageProgrammed a ds).busy = 0 := rfl

include h in

/-- The bytes that were programmed, within the page. -/
theorem pageProgrammed_cell :
    (c.pageProgrammed a ds).cell = programFrom (a.toNat % 2 ^ 24) 0 ds c.cell := by
  rw [← addr24_header]
  cases ds <;>
    simp [W25x16.pageProgrammed, W25x16.finish, W25x16.execute, header, W25x16.enabled, h,
      W25x16.start, programFrom, W25X_ReadStatusReg, W25X_SectorErase, W25X_PageProgram]

@[simp] theorem pageProgrammed_size : (c.pageProgrammed a ds).size = c.size := by
  simp [W25x16.pageProgrammed, W25x16.enabled]

end PageProgrammed

/-! ## Erasing a sector -/

/-- The chip after `SPI_Flash_Erase_Sector` of the sector number `sec`. -/
def W25x16.sectorErased (c : W25x16) (sec : UInt32) : W25x16 :=
  (c.enabled.finish (header W25X_SectorErase (sec * 4096))).settle

/-- A sector is erased on whatever chip. -/
theorem eraseSector_any (sec : UInt32) :
    spiFlashEraseSector sec (⟨m, ⟨c, none⟩, g⟩ : Mcu (Framed W25x16) γ) =
      some ((), ⟨m, ⟨((c.finish [W25X_WriteEnable]).settle.finish
        (header W25X_SectorErase (sec * 4096))).settle, none⟩, g⟩) := by
  have hop : W25X_SectorErase ≠ W25X_ReadStatusReg := by decide
  rw [spiFlashEraseSector, bind_of_eq writeEnable_any, bind_of_eq spiFlashWaitBusy_eq,
    bind_of_eq (chipSelect_apply _ _), Framed.cs_low, bind_of_eq (sendAddress_eq hop _),
    bind_of_eq (chipSelect_apply _ _), Framed.cs_high, spiFlashWaitBusy_eq]
  rfl

/-- `SPI_Flash_Erase_Sector` -/
theorem spiFlashEraseSector_eq (h : c.busy = 0) (sec : UInt32) :
    spiFlashEraseSector sec (⟨m, ⟨c, none⟩, g⟩ : Mcu (Framed W25x16) γ) =
      some ((), ⟨m, ⟨c.sectorErased sec, none⟩, g⟩) := by
  have hen : c.enabled.settle = c.enabled := W25x16.settle_of_busy_eq_zero h
  rw [eraseSector_any, finish_writeEnable h, hen, W25x16.sectorErased]

@[simp] theorem sectorErased_busy (sec : UInt32) : (c.sectorErased sec).busy = 0 := rfl

@[simp] theorem sectorErased_size (sec : UInt32) : (c.sectorErased sec).size = c.size := by
  simp [W25x16.sectorErased, W25x16.enabled]

/-- The sector is erased. -/
theorem sectorErased_cell (h : c.busy = 0) {sec : UInt32} (hsec : sec.toNat * 4096 < 2 ^ 24) :
    (c.sectorErased sec).cell = overlay c.cell (sec.toNat * 4096) 4096 fun _ ↦ 0xFF := by
  have haddr : addr24 ((sec * 4096) >>> 16).toUInt8 ((sec * 4096) >>> 8).toUInt8
      (sec * 4096).toUInt8 / 4096 * 4096 = sec.toNat * 4096 := by
    rw [addr24_header, UInt32.toNat_mul]
    simp
    omega
  have hcell : (c.sectorErased sec).cell = overlay c.cell (addr24 ((sec * 4096) >>> 16).toUInt8
      ((sec * 4096) >>> 8).toUInt8 (sec * 4096).toUInt8 / 4096 * 4096) 4096 fun _ ↦ 0xFF := by
    simp [W25x16.sectorErased, W25x16.finish, W25x16.execute, header, W25x16.enabled, h,
      W25x16.start, W25X_ReadStatusReg, W25X_SectorErase]
  rw [hcell, haddr]

end Stm32F1.Flash

import Stm32F1.Flash.Program
import Stm32F1.Lib.Calls

/-!
# The command discipline

A busy chip ignores what it is told, and a chip that is not write-enabled does
not erase or program.  Here the driver is followed whatever the chip is doing:
each of its operations is a series of commands, and what the commands lead to
is given by two predicates on the chip, one before and one after them.
-/

namespace Stm32F1.Flash

open Prog Mcu

variable {γ : Type} {m : Nat → UInt8} {c : W25x16} {g : γ} {s : Mcu (Framed W25x16) γ}
  {P Q : W25x16 → Prop}

/-! ## Commands to any chip -/

theorem writeSR_any (sr : UInt8) :
    spiFlashWriteSR sr (⟨m, ⟨c, none⟩, g⟩ : Mcu (Framed W25x16) γ) =
      some ((), ⟨m, ⟨c.finish [W25X_WriteStatusReg, sr], none⟩, g⟩) := by
  have hop : W25X_WriteStatusReg ≠ W25X_ReadStatusReg := by decide
  simp [spiFlashWriteSR, bind_apply, W25x16.shifted_cons hop]

theorem readID_any : ∃ id, spiFlashReadID (⟨m, ⟨c, none⟩, g⟩ : Mcu (Framed W25x16) γ) =
    some (id, ⟨m, ⟨c.finish [W25X_ManufactDeviceID, 0, 0, 0, 0xFF, 0xFF], none⟩, g⟩) := ⟨_, rfl⟩

/-- The bytes that are read do not matter here. -/
theorem read_any (p : Nat) (a : UInt32) (n : UInt16) :
    Run (spiFlashRead p a n) (⟨m, ⟨c, none⟩, g⟩ : Mcu (Framed W25x16) γ) fun _ t ↦
      ∃ m' bs, t = ⟨m', ⟨c.finish (header W25X_ReadData a ++ bs), none⟩, g⟩ := by
  have hop : W25X_ReadData ≠ W25X_ReadStatusReg := by decide
  have hloop : Run (forRange n.toNat fun i ↦ do
        let b ← readWriteByte 0xFF
        store (p + i) b) (⟨m, ⟨c, some (header W25X_ReadData a)⟩, g⟩ : Mcu (Framed W25x16) γ)
      fun _ t ↦ ∃ m' bs, t = ⟨m', ⟨c, some (header W25X_ReadData a ++ bs)⟩, g⟩ := by
    apply run_forRange fun _ (t : Mcu (Framed W25x16) γ) ↦
      ∃ m' bs, t = ⟨m', ⟨c, some (header W25X_ReadData a ++ bs)⟩, g⟩
    · rintro k _ - ⟨m', bs, rfl⟩
      refine ⟨(), _, rfl, Function.update m' (p + k)
        (c.reply (header W25X_ReadData a ++ bs)), bs ++ [0xFF], ?_⟩
      rw [← List.append_assoc]
      rfl
    · exact ⟨m, [], by rw [List.append_nil]⟩
  rw [spiFlashRead, run_bind]
  refine (run_of_eq (chipSelect_apply _ _)).2 (run_bind.2 ?_)
  refine (run_of_eq (sendAddress_eq hop a)).2 (hloop.bind ?_)
  rintro _ _ ⟨m', bs, rfl⟩
  exact run_modify.2 ⟨m', bs, rfl⟩

theorem eraseChip_any : spiFlashEraseChip (⟨m, ⟨c, none⟩, g⟩ : Mcu (Framed W25x16) γ) =
    some ((), ⟨m, ⟨((c.finish [W25X_WriteEnable]).settle.finish [W25X_ChipErase]).settle, none⟩,
      g⟩) := by
  rw [spiFlashEraseChip, bind_of_eq writeEnable_any, bind_of_eq spiFlashWaitBusy_eq,
    bind_of_eq (chipSelect_apply _ _), Framed.cs_low, bind_of_eq (readWriteByte_apply _ _),
    Framed.exchange_selected, bind_of_eq (chipSelect_apply _ _)]
  exact spiFlashWaitBusy_eq

/-! ## Operations -/

/-- The chip is deselected. -/
def At (P : W25x16 → Prop) (s : Mcu (Framed W25x16) γ) : Prop := s.dev.rx = none ∧ P s.dev.chip

/-- Every command of the driver leads from `P` to `Q`, and `Q` is a case of `P`. -/
structure Leads (P Q : W25x16 → Prop) : Prop where
  weaken : ∀ c, Q c → P c
  read : ∀ c a bs, P c → Q (c.finish (header W25X_ReadData a ++ bs))
  page : ∀ c a ds, P c →
    Q ((c.finish [W25X_WriteEnable]).finish (header W25X_PageProgram a ++ ds)).settle
  sector : ∀ c a, P c →
    Q ((c.finish [W25X_WriteEnable]).settle.finish (header W25X_SectorErase a)).settle
  chip : ∀ c, P c → Q ((c.finish [W25X_WriteEnable]).settle.finish [W25X_ChipErase]).settle

theorem At.mono (h : At P s) (hPQ : ∀ c, P c → Q c) : At Q s := ⟨h.1, hPQ _ h.2⟩

theorem At.read (h : At P s) (hPQ : Leads P Q) (p : Nat) (a : UInt32) (n : UInt16) :
    Run (spiFlashRead p a n) s fun _ t ↦ At Q t := by
  obtain ⟨m, ⟨c, rx⟩, g⟩ := s
  obtain ⟨rfl, hc⟩ := h
  refine (read_any p a n).mono ?_
  rintro _ _ ⟨m', bs, rfl⟩
  exact ⟨rfl, hPQ.read c a bs hc⟩

theorem At.page (h : At P s) (hPQ : Leads P Q) (p : Nat) (a : UInt32) (n : UInt16) :
    Run (spiFlashWritePage p a n) s fun _ t ↦ At Q t := by
  obtain ⟨m, ⟨c, rx⟩, g⟩ := s
  obtain ⟨rfl, hc⟩ := h
  exact .of_eq (writePage_any p a n) ⟨rfl, hPQ.page c a _ hc⟩

theorem At.sector (h : At P s) (hPQ : Leads P Q) (sec : UInt32) :
    Run (spiFlashEraseSector sec) s fun _ t ↦ At Q t := by
  obtain ⟨m, ⟨c, rx⟩, g⟩ := s
  obtain ⟨rfl, hc⟩ := h
  exact .of_eq (eraseSector_any sec) ⟨rfl, hPQ.sector c _ hc⟩

theorem At.chip (h : At P s) (hPQ : Leads P Q) : Run spiFlashEraseChip s fun _ t ↦ At Q t := by
  obtain ⟨m, ⟨c, rx⟩, g⟩ := s
  obtain ⟨rfl, hc⟩ := h
  exact .of_eq eraseChip_any ⟨rfl, hPQ.chip c hc⟩

/-- The page loop ends for every range, also one that runs over the end of the chip. -/
theorem At.noCheck (h : At P s) (hPQ : Leads P Q) (p : Nat) (a : UInt32) (n : UInt16) :
    Run (spiFlashWriteNoCheck p a n) s fun _ t ↦ At Q t := by
  refine run_repeatM (fun (v : NoCheckVars) t ↦ At P t ∧ Parted v.numByteToWrite v.pageremain)
    (fun v _ ↦ v.numByteToWrite.toNat) ?_ ⟨h, parted_first ?_ n⟩
  · rintro v t ⟨ht, hpart⟩
    refine (ht.page hPQ _ _ _).bind ?_
    intro _ t' ht'
    by_cases hlast : v.numByteToWrite = v.pageremain
    · rw [if_pos hlast]
      exact run_pure.2 ht'
    · obtain ⟨hnext, hless⟩ := hpart.next hlast 256 (by decide)
      rw [if_neg hlast]
      exact run_pure.2 ⟨⟨ht'.mono hPQ.weaken, hnext⟩, hless⟩
  · have hroom := toNat_room a
    omega

/-- One sector, whether or not it is erased first. -/
theorem At.writeSector (h : At P s) (hPQ : Leads P Q) (buf : Nat) (v : WriteVars) :
    Run (writeSector buf v) s fun _ t ↦ At Q t := by
  refine (h.read hPQ _ _ _).bind ?_
  intro _ t ht
  refine run_bind.2 (run_read.2 ?_)
  rw [run_ite]
  split
  · refine ((ht.mono hPQ.weaken).sector hPQ _).bind ?_
    intro _ t' ht'
    have hcopy := run_forRange (f := fun i ↦ do
        let b ← load (v.pBuffer + i)
        store (buf + (i + v.secoff.toNat)) b) (fun _ (u : Mcu (Framed W25x16) γ) ↦ At Q u)
      (n := v.secremain.toNat) (fun j u _ hu ↦ run_bind.2 (run_read.2 (run_modify.2 hu))) ht'
    refine hcopy.bind ?_
    intro _ u hu
    exact (hu.mono hPQ.weaken).noCheck hPQ _ _ _
  · exact (ht.mono hPQ.weaken).noCheck hPQ _ _ _

/-- So does the sector loop. -/
theorem At.write (h : At P s) (hPQ : Leads P Q) (buf p : Nat) (a : UInt32) (n : UInt16) :
    Run (spiFlashWrite buf p a n) s fun _ t ↦ At Q t := by
  refine run_repeatM (fun (v : WriteVars) t ↦ At P t ∧ Parted v.numByteToWrite v.secremain)
    (fun v _ ↦ v.numByteToWrite.toNat) ?_ ⟨h, parted_first ?_ n⟩
  · rintro v t ⟨ht, hpart⟩
    refine (ht.writeSector hPQ _ _).bind ?_
    intro _ t' ht'
    by_cases hlast : v.numByteToWrite = v.secremain
    · rw [if_pos hlast]
      exact run_pure.2 ht'
    · obtain ⟨hnext, hless⟩ := hpart.next hlast 4096 (by decide)
      rw [if_neg hlast]
      exact run_pure.2 ⟨⟨ht'.mono hPQ.weaken, hnext⟩, hless⟩
  · have hroom := toNat_sectorRoom a
    omega

/-! ## The discipline -/

/-- Write-enable, read, program and erase commands find the chip not busy, and program and erase
commands find it write-enabled. -/
structure Frame.Obeyed (f : Frame) : Prop where
  idle : f.bytes.head? ∈ [some W25X_WriteEnable, some W25X_ReadData, some W25X_PageProgram,
    some W25X_SectorErase, some W25X_ChipErase] → f.busy = false
  enabled : f.bytes.head? ∈ [some W25X_PageProgram, some W25X_SectorErase, some W25X_ChipErase] →
    f.wel = true

/-- So far every command was obeyed. -/
def Tidy (c : W25x16) : Prop := ∀ f ∈ c.log, f.Obeyed

/-- Moreover the chip is not busy. -/
def Clean (c : W25x16) : Prop := c.busy = 0 ∧ Tidy c

variable {bs : List UInt8}

theorem finish_writeEnable_busy : (c.finish [W25X_WriteEnable]).busy = c.busy := by
  by_cases h : c.busy = 0
  · simp [W25x16.finish, W25x16.execute, h, W25X_WriteEnable, W25X_ReadStatusReg]
  · simp [W25x16.finish, h, W25X_WriteEnable, W25X_ReadStatusReg]

theorem finish_writeEnable_wel (h : c.busy = 0) : (c.finish [W25X_WriteEnable]).wel = true := by
  simp [W25x16.finish, W25x16.execute, h, W25X_WriteEnable, W25X_ReadStatusReg]

/-- A further command is obeyed. -/
theorem Tidy.finish (h : Tidy c) (hop : bs.head? ≠ some W25X_ReadStatusReg)
    (hbs : Frame.Obeyed ⟨bs, decide (c.busy ≠ 0), c.wel⟩) : Tidy (c.finish bs) := by
  intro f hf
  rw [finish_log hop] at hf
  rcases List.mem_append.1 hf with hf | hf
  · exact h f hf
  · rw [List.mem_singleton.1 hf]
    exact hbs

/-- A command that was not obeyed stays in the log. -/
theorem not_tidy_finish (h : ¬ Tidy c) : ¬ Tidy (c.finish bs) := by
  intro h'
  by_cases hop : bs.head? = some W25X_ReadStatusReg
  · rw [W25x16.finish, if_pos hop] at h'
    exact h h'
  · refine h fun f hf ↦ h' f ?_
    rw [finish_log hop]
    exact List.mem_append_left _ hf

/-- A command to a busy chip is not obeyed. -/
theorem not_tidy_busy (hbusy : c.busy ≠ 0) (hop : bs.head? ∈ [some W25X_WriteEnable,
    some W25X_ReadData, some W25X_PageProgram, some W25X_SectorErase, some W25X_ChipErase]) :
    ¬ Tidy (c.finish bs) := by
  intro h
  have hne : bs.head? ≠ some W25X_ReadStatusReg := by
    intro heq
    rw [heq] at hop
    revert hop
    decide
  have hf := (h ⟨bs, decide (c.busy ≠ 0), c.wel⟩ (by rw [finish_log hne]; simp)).idle hop
  exact absurd (decide_eq_false_iff_not.1 hf) (not_not.2 hbusy)

theorem Clean.writeEnable (h : Clean c) : Clean (c.finish [W25X_WriteEnable]) := by
  constructor
  · rw [finish_writeEnable_busy, h.1]
  · apply h.2.finish
    · decide
    · constructor
      · intro _
        exact decide_eq_false (not_not.2 h.1)
      · intro hmem
        simp [W25X_WriteEnable, W25X_PageProgram, W25X_SectorErase, W25X_ChipErase] at hmem

/-- A command that follows a write-enable command. -/
theorem Clean.command (h : Clean c) (hwel : c.wel = true)
    (hop : bs.head? ≠ some W25X_ReadStatusReg) : Clean (c.finish bs).settle := by
  constructor
  · rfl
  · refine h.2.finish hop ⟨fun _ ↦ ?_, fun _ ↦ hwel⟩
    exact decide_eq_false (not_not.2 h.1)

theorem leads_clean : Leads Clean Clean where
  weaken _ h := h
  read c a bs h := by
    rw [finish_read h.1]
    refine ⟨h.1, fun f hf ↦ ?_⟩
    rcases List.mem_append.1 hf with hf | hf
    · exact h.2 f hf
    · rw [List.mem_singleton.1 hf]
      refine ⟨fun _ ↦ rfl, fun hmem ↦ ?_⟩
      revert hmem
      simp [header, W25X_ReadData, W25X_PageProgram, W25X_SectorErase, W25X_ChipErase]
  page c a ds h := by
    apply h.writeEnable.command (finish_writeEnable_wel h.1)
    simp [header, W25X_PageProgram, W25X_ReadStatusReg]
  sector c a h := by
    rw [W25x16.settle_of_busy_eq_zero (finish_writeEnable_busy.trans h.1)]
    apply h.writeEnable.command (finish_writeEnable_wel h.1)
    simp [header, W25X_SectorErase, W25X_ReadStatusReg]
  chip c h := by
    rw [W25x16.settle_of_busy_eq_zero (finish_writeEnable_busy.trans h.1)]
    apply h.writeEnable.command (finish_writeEnable_wel h.1)
    decide

/-- What a busy chip was told is never made good. -/
theorem leads_untidy : Leads (fun c ↦ c.busy ≠ 0 ∨ ¬ Tidy c) fun c ↦ ¬ Tidy c := by
  have henable (c : W25x16) (h : c.busy ≠ 0 ∨ ¬ Tidy c) : ¬ Tidy (c.finish [W25X_WriteEnable]) := by
    rcases h with h | h
    · exact not_tidy_busy h (by decide)
    · exact not_tidy_finish h
  constructor
  · exact fun c h ↦ .inr h
  · rintro c a bs (h | h)
    · apply not_tidy_busy h
      simp [header]
    · exact not_tidy_finish h
  · intro c a ds h
    exact not_tidy_finish (henable c h)
  · intro c a h
    exact not_tidy_finish (c := (c.finish [W25X_WriteEnable]).settle) (henable c h)
  · intro c h
    exact not_tidy_finish (c := (c.finish [W25X_WriteEnable]).settle) (henable c h)

/-! ## Runs -/

inductive Operation
  | read (pBuffer : Nat) (readAddr : UInt32) (numByteToRead : UInt16)
  | write (pBuffer : Nat) (writeAddr : UInt32) (numByteToWrite : UInt16)
  | writeNoCheck (pBuffer : Nat) (writeAddr : UInt32) (numByteToWrite : UInt16)
  | eraseSector (dstAddr : UInt32)
  | eraseChip
  | /-- `SPI_FLASH_Write_Enable` and then `SPI_FLASH_Write_SR` -/
    writeSR (sr : UInt8)
  | readID
  deriving DecidableEq

def operate {δ : Type} [SpiDevice δ] (buf : Nat) : Operation → Prog (Mcu δ γ) Unit
  | .read p a n => spiFlashRead p a n
  | .write p a n => spiFlashWrite buf p a n
  | .writeNoCheck p a n => spiFlashWriteNoCheck p a n
  | .eraseSector sec => spiFlashEraseSector sec
  | .eraseChip => spiFlashEraseChip
  | .writeSR sr => do
      spiFlashWriteEnable
      spiFlashWriteSR sr
  | .readID => do
      let _ ← spiFlashReadID
      pure ()

/-- Every operation but `SPI_Flash_ReadID` finds the chip not busy. -/
def Unhurried (buf : Nat) : List Operation → Mcu (Framed W25x16) γ → Prop
  | [], _ => True
  | op :: ops, s => (op ≠ .readID → s.dev.chip.busy = 0) ∧
      ∀ t, operate buf op s = some ((), t) → Unhurried buf ops t

/-- The status register is written, and nobody waits for the end of it. -/
theorem At.writeSR (h : At P s) (buf : Nat) (sr : UInt8)
    (hQ : ∀ c, P c → Q ((c.finish [W25X_WriteEnable]).finish [W25X_WriteStatusReg, sr])) :
    Run (operate buf (.writeSR sr)) s fun _ t ↦ At Q t := by
  obtain ⟨m, ⟨c, rx⟩, g⟩ := s
  obtain ⟨rfl, hc⟩ := h
  refine run_bind.2 ((run_of_eq writeEnable_any).2 ?_)
  exact .of_eq (writeSR_any sr) ⟨rfl, hQ c hc⟩

theorem At.readID (h : At P s) (buf : Nat)
    (hQ : ∀ c, P c → Q (c.finish [W25X_ManufactDeviceID, 0, 0, 0, 0xFF, 0xFF])) :
    Run (operate buf .readID) s fun _ t ↦ At Q t := by
  obtain ⟨m, ⟨c, rx⟩, g⟩ := s
  obtain ⟨rfl, hc⟩ := h
  obtain ⟨id, hid⟩ := readID_any (m := m) (c := c) (g := g)
  exact run_bind.2 ((run_of_eq hid).2 (run_pure.2 ⟨rfl, hQ c hc⟩))

/-- Other commands are not asked for anything. -/
theorem tidy_other (h : Tidy c) (hop : bs.head? ≠ some W25X_ReadStatusReg)
    (hother : bs.head? ∉ [some W25X_WriteEnable, some W25X_ReadData, some W25X_PageProgram,
      some W25X_SectorErase, some W25X_ChipErase]) : Tidy (c.finish bs) := by
  apply h.finish hop
  constructor
  · exact fun hmem ↦ absurd hmem hother
  · intro hmem
    exact absurd (List.mem_cons_of_mem _ (List.mem_cons_of_mem _ hmem)) hother

theorem At.readID_tidy (h : At Tidy s) (buf : Nat) :
    Run (operate buf .readID) s fun _ t ↦ At Tidy t :=
  h.readID buf fun _ hc ↦ tidy_other hc (by decide) (by decide)

/-- An operation to a chip that is not busy. -/
theorem At.operate_clean (h : At Clean s) (buf : Nat) (op : Operation) :
    Run (operate buf op) s fun _ t ↦ At Tidy t := by
  have htidy {t : Mcu (Framed W25x16) γ} (ht : At Clean t) : At Tidy t := ht.mono fun _ hc ↦ hc.2
  cases op with
  | read p a n => exact (h.read leads_clean p a n).mono fun _ _ ↦ htidy
  | write p a n => exact (h.write leads_clean buf p a n).mono fun _ _ ↦ htidy
  | writeNoCheck p a n => exact (h.noCheck leads_clean p a n).mono fun _ _ ↦ htidy
  | eraseSector sec => exact (h.sector leads_clean sec).mono fun _ _ ↦ htidy
  | eraseChip => exact (h.chip leads_clean).mono fun _ _ ↦ htidy
  | writeSR sr =>
      apply h.writeSR buf sr
      intro c hc
      apply tidy_other hc.writeEnable.2
      · simp [W25X_WriteStatusReg, W25X_ReadStatusReg]
      · simp [W25X_WriteStatusReg, W25X_WriteEnable, W25X_ReadData, W25X_PageProgram,
          W25X_SectorErase, W25X_ChipErase]
  | readID => exact (htidy h).readID_tidy buf

/-- An operation to a busy chip, or after a command that was not obeyed. -/
theorem At.operate_untidy (h : At (fun c ↦ c.busy ≠ 0 ∨ ¬ Tidy c) s) (buf : Nat) {op : Operation}
    (hop : op = .readID → ¬ Tidy s.dev.chip) :
    Run (operate buf op) s fun _ t ↦ At (¬ Tidy ·) t := by
  cases op with
  | read p a n => exact h.read leads_untidy p a n
  | write p a n => exact h.write leads_untidy buf p a n
  | writeNoCheck p a n => exact h.noCheck leads_untidy p a n
  | eraseSector sec => exact h.sector leads_untidy sec
  | eraseChip => exact h.chip leads_untidy
  | writeSR sr =>
      apply h.writeSR buf sr
      rintro c (hc | hc)
      · exact not_tidy_finish (not_tidy_busy hc (by decide))
      · exact not_tidy_finish (not_tidy_finish hc)
  | readID =>
      have huntidy : At (¬ Tidy ·) s := ⟨h.1, hop rfl⟩
      exact huntidy.readID buf fun _ hc ↦ not_tidy_finish hc

theorem At.runCalls_untidy (h : At (¬ Tidy ·) s) (buf : Nat) (ops : List Operation) :
    Run (runCalls (operate buf) ops) s fun _ t ↦ At (¬ Tidy ·) t := by
  induction ops generalizing s with
  | nil => exact run_pure.2 h
  | cons op ops ih =>
      have hstep : Run (operate buf op) s fun _ t ↦ At (¬ Tidy ·) t :=
        (h.mono fun _ hc ↦ .inr hc).operate_untidy buf fun _ ↦ h.2
      refine hstep.bind ?_
      intro _ t ht
      refine (ih ht).bind ?_
      intro _ u hu
      exact run_pure.2 hu

/-- The rule for runs: all is well until an operation finds the chip busy. -/
theorem At.runCalls_tidy (h : At Tidy s) (buf : Nat) (ops : List Operation) :
    Run (runCalls (operate buf) ops) s fun _ t ↦ (Tidy t.dev.chip ↔ Unhurried buf ops s) := by
  induction ops generalizing s with
  | nil => exact run_pure.2 ⟨fun _ ↦ trivial, fun _ ↦ h.2⟩
  | cons op ops ih =>
      by_cases hready : op ≠ .readID → s.dev.chip.busy = 0
      · have hstep : Run (operate buf op) s fun _ t ↦ At Tidy t := by
          by_cases hop : op = .readID
          · subst hop
            exact h.readID_tidy buf
          · have hclean : At Clean s := ⟨h.1, hready hop, h.2⟩
            exact hclean.operate_clean buf op
        obtain ⟨_, t, ht, htidy⟩ := hstep
        refine run_bind.2 ((run_of_eq ht).2 ((ih htidy).bind ?_))
        intro _ u hu
        refine run_pure.2 (hu.trans ⟨fun hops ↦ ⟨hready, fun t' ht' ↦ ?_⟩, fun hall ↦ hall.2 t ht⟩)
        obtain ⟨-, rfl⟩ := Prod.mk.inj (Option.some.inj (ht.symm.trans ht'))
        exact hops
      · obtain ⟨hop, hbusy⟩ := Classical.not_imp.1 hready
        have hany : At (fun c ↦ c.busy ≠ 0 ∨ ¬ Tidy c) s := ⟨h.1, .inl hbusy⟩
        refine (hany.operate_untidy buf fun hid ↦ absurd hid hop).bind ?_
        intro _ t ht
        refine (ht.runCalls_untidy buf ops).bind ?_
        intro _ u hu
        exact run_pure.2 ⟨fun htidy ↦ absurd htidy hu.2, fun hall ↦ absurd hall.1 hready⟩

/-- **Every command is obeyed exactly when no operation but `SPI_Flash_ReadID` finds the chip
busy**, which it is after `SPI_FLASH_Write_SR`. -/
theorem flash_discipline_iff (buf : Nat) (ops : List Operation) (hrx : s.dev.rx = none)
    (hlog : s.dev.chip.log = []) :
    Run (runCalls (operate buf) ops) s fun _ t ↦
      ((∀ f ∈ t.dev.chip.log, f.Obeyed) ↔ Unhurried buf ops s) := by
  have htidy : Tidy s.dev.chip := by
    intro f hf
    rw [hlog] at hf
    exact absurd hf List.not_mem_nil
  exact At.runCalls_tidy ⟨hrx, htidy⟩ buf ops

/-- A chip of 2 MB, each of whose operations lasts for one status read. -/
def slowChip : W25x16 := ⟨2097152, fun _ ↦ 0xFF, false, 0, fun _ ↦ 1, 0, []⟩

theorem flash_discipline_iff_slow :
    Run (runCalls (operate 0) [.eraseChip, .writeSR 0, .readID])
      (⟨fun _ ↦ 0, ⟨slowChip, none⟩, ()⟩ : Mcu (Framed W25x16) Unit) fun _ t ↦
        ((∀ f ∈ t.dev.chip.log, f.Obeyed) ↔
          Unhurried 0 [.eraseChip, .writeSR 0, .readID] ⟨fun _ ↦ 0, ⟨slowChip, none⟩, ()⟩) :=
  flash_discipline_iff 0 _ rfl rfl

/-- After `SPI_FLASH_Write_SR` the next read is ignored. -/
theorem read_ignored_when_busy : ¬ ∀ (buf : Nat) (ops : List Operation)
    (s : Mcu (Framed W25x16) Unit), s.dev.rx = none → s.dev.chip.busy = 0 → s.dev.chip.log = [] →
      Run (runCalls (operate buf) ops) s fun _ t ↦ ∀ f ∈ t.dev.chip.log, f.Obeyed := by
  intro h
  have hall := h 0 [.writeSR 0, .read 0 0 0] ⟨fun _ ↦ 0, ⟨slowChip, none⟩, ()⟩ rfl rfl rfl
  obtain ⟨os, t, ht, htidy⟩ := hall
  have hiff := At.runCalls_tidy (s := ⟨fun _ ↦ 0, ⟨slowChip, none⟩, ()⟩) ⟨rfl, nofun⟩ 0
    [.writeSR 0, .read 0 0 0]
  have hunhurried := ((run_of_eq ht).1 hiff).1 htidy
  have hstep :
    operate 0 (.writeSR 0) (⟨fun _ ↦ 0, ⟨slowChip, none⟩, ()⟩ : Mcu (Framed W25x16) Unit) =
      some ((), ⟨fun _ ↦ 0, ⟨(slowChip.finish [W25X_WriteEnable]).finish [W25X_WriteStatusReg, 0],
        none⟩, ()⟩) := (bind_of_eq writeEnable_any).trans (writeSR_any 0)
  have hidle := (hunhurried.2 _ hstep).1 (by decide)
  revert hidle
  decide

end Stm32F1.Flash

import Stm32F1.Flash.Program

/-!
# The pages of a write

`SPI_Flash_Write_NoCheck` sends the chip one page program after the other.  The
log of the chip tells which: they are read off it here, and shown to cover the
range in order, each inside one page of 256 bytes.
-/

namespace Stm32F1.Flash

open Prog Mcu

variable {γ : Type} {m : Nat → UInt8} {c : W25x16} {g : γ}

/-! ## Page programs -/

/-- A page program: the address of its first byte, and its bytes. -/
structure PageWrite where
  addr : Nat
  data : List UInt8
deriving DecidableEq, Repr

/-- The address behind its last byte. -/
def PageWrite.stop (w : PageWrite) : Nat := w.addr + w.data.length

/-- The page program that the command is, if it is one. -/
def Frame.pageWrite (f : Frame) : Option PageWrite :=
  match f.bytes with
  | op :: a₂ :: a₁ :: a₀ :: ds => if op = W25X_PageProgram then some ⟨addr24 a₂ a₁ a₀, ds⟩ else none
  | _ => none

/-- The chip was ready for the command, which is to enable writing, or is a page program with
writing enabled. -/
def Frame.Programming (f : Frame) : Prop :=
  f.busy = false ∧ (f.bytes = [W25X_WriteEnable] ∨ f.pageWrite ≠ none ∧ f.wel = true)

/-- The page programs `ws` cover the `n` cells from `a`, in increasing order, without gap or
overlap, none across a page boundary; their data is that in memory from `p` on. -/
structure PageSplit (m : Nat → UInt8) (p a n : Nat) (ws : List PageWrite) : Prop where
  increasing : ws.Pairwise fun w w' ↦ w.stop ≤ w'.addr
  covers : ∀ x, (∃ w ∈ ws, w.addr ≤ x ∧ x < w.stop) ↔ a ≤ x ∧ x < a + n
  page : ∀ w ∈ ws, w.addr % 256 + w.data.length ≤ 256
  data : ∀ w ∈ ws, w.data = slice m (p + (w.addr - a)) w.data.length

namespace PageSplit

variable {p a k r : Nat} {ws : List PageWrite}

theorem nil (m : Nat → UInt8) (p a : Nat) : PageSplit m p a 0 [] := by
  constructor
  · exact List.Pairwise.nil
  · intro x
    simp
  · simp
  · simp

/-- The range so far bounds the pages so far. -/
theorem stop_le (h : PageSplit m p a k ws) {w : PageWrite} (hw : w ∈ ws) :
    w.stop ≤ a + k ∨ w.data = [] := by
  by_cases hempty : w.data = []
  · exact .inr hempty
  · refine .inl ?_
    have hpos : 0 < w.data.length := List.length_pos_iff.2 hempty
    have hlast := (h.covers (w.stop - 1)).1 ⟨w, hw, by unfold PageWrite.stop; omega,
      by unfold PageWrite.stop; omega⟩
    unfold PageWrite.stop at hlast ⊢
    omega

/-- One more page. -/
theorem snoc (h : PageSplit m p a k ws) (hempty : ∀ w ∈ ws, w.data ≠ [])
    (hpage : (a + k) % 256 + r ≤ 256) :
    PageSplit m p a (k + r) (ws ++ [⟨a + k, slice m (p + k) r⟩]) := by
  constructor
  · rw [List.pairwise_append]
    refine ⟨h.increasing, List.pairwise_singleton _ _, ?_⟩
    intro w hw w' hw'
    obtain rfl := List.mem_singleton.1 hw'
    exact (h.stop_le hw).resolve_right (hempty w hw)
  · intro x
    have hnew : (∃ w ∈ ws ++ [⟨a + k, slice m (p + k) r⟩], w.addr ≤ x ∧ x < w.stop) ↔
        (∃ w ∈ ws, w.addr ≤ x ∧ x < w.stop) ∨ (a + k ≤ x ∧ x < a + k + r) := by
      simp [or_and_right, exists_or, PageWrite.stop]
    rw [hnew, h.covers x]
    omega
  · intro w hw
    rcases List.mem_append.1 hw with hw | hw
    · exact h.page w hw
    · obtain rfl := List.mem_singleton.1 hw
      rwa [length_slice]
  · intro w hw
    rcases List.mem_append.1 hw with hw | hw
    · exact h.data w hw
    · obtain rfl := List.mem_singleton.1 hw
      rw [length_slice, Nat.add_sub_cancel_left]

/-- The one page of an empty range. -/
theorem empty (m : Nat → UInt8) (p a addr : Nat) : PageSplit m p a 0 [⟨addr, []⟩] := by
  have hmod : addr % 256 < 256 := Nat.mod_lt _ (by decide)
  constructor
  · exact List.pairwise_singleton _ _
  · intro x
    simp only [PageWrite.stop, List.mem_singleton, exists_eq_left, List.length_nil]
    omega
  · simpa using hmod.le
  · simp

end PageSplit

/-! ## The log -/

theorem pageWrite_writeEnable (busy wel : Bool) :
    Frame.pageWrite ⟨[W25X_WriteEnable], busy, wel⟩ = none := rfl

theorem pageWrite_header (a : UInt32) (ds : List UInt8) (busy wel : Bool) :
    Frame.pageWrite ⟨header W25X_PageProgram a ++ ds, busy, wel⟩ = some ⟨a.toNat % 2 ^ 24, ds⟩ := by
  rw [← addr24_header]
  rfl

/-- What `SPI_Flash_Write_Page` tells an idle chip. -/
theorem pageProgrammed_log (h : c.busy = 0) (a : UInt32) (ds : List UInt8) :
    (c.pageProgrammed a ds).log = c.log ++ [⟨[W25X_WriteEnable], false, c.wel⟩,
      ⟨header W25X_PageProgram a ++ ds, false, true⟩] := by
  have hop : (header W25X_PageProgram a ++ ds).head? ≠ some W25X_ReadStatusReg := by
    simp [header, W25X_PageProgram, W25X_ReadStatusReg]
  rw [W25x16.pageProgrammed, W25x16.settle_log, finish_log hop]
  simp [W25x16.enabled, h]

/-- The commands `new` program the first `k` cells of the `n` from `a`, and do nothing else; a page
program is empty only if there is nothing to program. -/
structure Programmed (m : Nat → UInt8) (p a n k : Nat) (new : List Frame) : Prop where
  commands : ∀ f ∈ new, f.Programming
  split : PageSplit m p a k (new.filterMap Frame.pageWrite)
  nonempty : ∀ w ∈ new.filterMap Frame.pageWrite, w.data = [] → n = 0

namespace Programmed

variable {p n k r : Nat} {new : List Frame}

theorem nil (m : Nat → UInt8) (p a n : Nat) : Programmed m p a n 0 [] := by
  constructor
  · simp
  · exact PageSplit.nil m p a
  · simp

/-- The two commands of one more page. -/
theorem page {a : Nat} {addr : UInt32} (h : Programmed m p a n k new) (wel : Bool)
    (hn : k = 0 ∧ new = [] ∨ k < n) (haddr : addr.toNat % 2 ^ 24 = a + k ∨ n = 0)
    (hpage : (a + k) % 256 + r ≤ 256) (hr : r = 0 ↔ n = 0) :
    Programmed m p a n (k + r) (new ++ [⟨[W25X_WriteEnable], false, wel⟩,
      ⟨header W25X_PageProgram addr ++ slice m (p + k) r, false, true⟩]) := by
  have hnew : List.filterMap Frame.pageWrite (new ++ [⟨[W25X_WriteEnable], false, wel⟩,
      ⟨header W25X_PageProgram addr ++ slice m (p + k) r, false, true⟩]) =
        new.filterMap Frame.pageWrite ++ [⟨addr.toNat % 2 ^ 24, slice m (p + k) r⟩] := by
    rw [List.filterMap_append, List.filterMap_cons_none (pageWrite_writeEnable _ _),
      List.filterMap_cons_some (pageWrite_header _ _ _ _), List.filterMap_nil]
  constructor
  · intro f hf
    rcases List.mem_append.1 hf with hf | hf
    · exact h.commands f hf
    · rcases List.mem_cons.1 hf with rfl | hf
      · exact ⟨rfl, .inl rfl⟩
      · obtain rfl := List.mem_singleton.1 hf
        refine ⟨rfl, .inr ⟨?_, rfl⟩⟩
        rw [pageWrite_header]
        exact Option.some_ne_none _
  · rw [hnew]
    by_cases hzero : n = 0
    · -- nothing is to be programmed: the only page is empty, and its address does not matter
      obtain ⟨rfl, rfl⟩ := hn.resolve_right (by omega)
      rw [hr.2 hzero]
      exact PageSplit.empty m p a _
    · rw [haddr.resolve_right hzero]
      exact h.split.snoc (fun w hw hempty ↦ hzero (h.nonempty w hw hempty)) hpage
  · rw [hnew]
    intro w hw hempty
    rcases List.mem_append.1 hw with hw | hw
    · exact h.nonempty w hw hempty
    · obtain rfl := List.mem_singleton.1 hw
      apply hr.1
      rw [← List.length_eq_zero_iff, length_slice] at hempty
      exact hempty

end Programmed

/-! ## The loop -/

/-- The chip is at rest, and was told to program the first `k` of the `n` cells since it was `c`. -/
def Sent (m : Nat → UInt8) (c : W25x16) (p a n k : Nat) (t : Mcu (Framed W25x16) γ) : Prop :=
  ∃ new, t.dev.chip.log = c.log ++ new ∧ Programmed m p a n k new ∧ (k = 0 ∧ new = [] ∨ k < n)

/-- A round of the loop sends one page. -/
theorem sent_step (p : Nat) {a : UInt32} {n : UInt16} (hfit : a.toNat + n.toNat ≤ 2 ^ 24) {k : Nat}
    {v : NoCheckVars} {t t' : Mcu (Framed W25x16) γ}
    (hk : NoCheckInv m c g p a.toNat n.toNat k v t) (hsent : Sent m c p a.toNat n.toNat k t)
    (ht : spiFlashWritePage v.pBuffer v.writeAddr v.pageremain t = some ((), t')) :
    ∃ new, t'.dev.chip.log = c.log ++ new ∧
      Programmed m p a.toNat n.toNat (k + v.pageremain.toNat) new := by
  obtain ⟨c', rfl, hbusy, -, -⟩ := hk.rest
  obtain ⟨new, hlog, hprog, hn⟩ := hsent
  rw [spiFlashWritePage_eq hbusy] at ht
  obtain rfl := (Prod.mk.inj (Option.some.inj ht)).2
  have hle := hk.le
  have haddr := hk.writeAddr
  have hrem := hk.pageremain
  have hleft : k < n.toNat ∨ k = 0 ∧ n.toNat = 0 := by
    rcases hn with ⟨rfl, -⟩ | hlt
    · omega
    · exact .inl hlt
  have hpage : v.writeAddr.toNat % 2 ^ 24 = a.toNat + k ∨ n.toNat = 0 := by
    rw [haddr]
    omega
  refine ⟨_, ?_, hprog.page c'.wel hn hpage (r := v.pageremain.toNat) ?_ ?_⟩
  · rw [← List.append_assoc, ← hlog, ← hk.pBuffer]
    exact pageProgrammed_log hbusy _ _
  · omega
  · omega

/-- **`SPI_Flash_Write_NoCheck`**, on an idle chip that the range lies in: it returns, the page
programs it sent cover the range in order, none across a page boundary, and every cell of the range
holds its old value AND its byte, the others what they held. -/
theorem noCheck_splits (m : Nat → UInt8) (c : W25x16) (g : γ) (hbusy : c.busy = 0)
    (hsize : c.size ≤ 2 ^ 24) (p : Nat) (a : UInt32) (n : UInt16)
    (hfit : a.toNat + n.toNat ≤ c.size) :
    Run (spiFlashWriteNoCheck p a n) (⟨m, ⟨c, none⟩, g⟩ : Mcu (Framed W25x16) γ) fun _ t ↦
      (∃ new, t.dev.chip.log = c.log ++ new ∧ Programmed m p a.toNat n.toNat n.toNat new) ∧
      (∀ i < n.toNat, t.dev.chip.cell (a.toNat + i) = c.cell (a.toNat + i) &&& m (p + i)) ∧
      ∀ x, x < a.toNat ∨ a.toNat + n.toNat ≤ x → t.dev.chip.cell x = c.cell x := by
  have hfit' : a.toNat + n.toNat ≤ 2 ^ 24 := hfit.trans hsize
  refine run_repeatM (fun v t ↦ ∃ k, NoCheckInv m c g p a.toNat n.toNat k v t ∧
    Sent m c p a.toNat n.toNat k t) (fun v _ ↦ v.numByteToWrite.toNat) ?_ ⟨0, ?_, ?_⟩
  · rintro v t ⟨k, hk, hsent⟩
    obtain ⟨t', ht, hrest⟩ := noCheck_step p hfit' hk
    obtain ⟨new, hlog, hprog⟩ := sent_step p hfit' hk hsent ht
    rw [run_bind, run_of_eq ht]
    by_cases hlast : v.numByteToWrite = v.pageremain
    · rw [if_pos hlast, run_pure]
      rw [hk.last hlast] at hrest hprog
      obtain ⟨c', rfl, -, -, hcell⟩ := hrest
      refine ⟨⟨new, hlog, hprog⟩, ?_, ?_⟩
      · intro i hi
        rw [hcell, overlay_add hi]
      · intro x hx
        rw [hcell, overlay_of_notMem hx]
    · obtain ⟨hpage, hless⟩ := hk.next hfit' hlast
      rw [if_neg hlast, run_pure]
      refine ⟨⟨_, ⟨hpage, hrest⟩, new, hlog, hprog, .inr ?_⟩, hless⟩
      have hnumber := hk.number
      have hpart := hk.pageremain
      have hne : v.numByteToWrite.toNat ≠ v.pageremain.toNat := fun h ↦ hlast (UInt16.toNat_inj.1 h)
      omega
  · exact ⟨PageAt.first p a n, c, by simp, hbusy, rfl, by simp⟩
  · exact ⟨[], (List.append_nil _).symm, Programmed.nil m p a.toNat n.toNat, .inl ⟨rfl, rfl⟩⟩

/-- A blank chip of two megabytes. -/
def erasedChip : W25x16 := ⟨2 ^ 21, fun _ ↦ 0xFF, false, 0, fun _ ↦ 3, 0, []⟩

/-- 300 bytes from the middle of a page on. -/
theorem noCheck_splits_middle :
    Run (spiFlashWriteNoCheck 0 200 300)
      (⟨fun i ↦ i.toUInt8, ⟨erasedChip, none⟩, ()⟩ : Mcu (Framed W25x16) Unit) fun _ t ↦
      (∃ new, t.dev.chip.log = erasedChip.log ++ new ∧
        Programmed (fun i ↦ i.toUInt8) 0 200 300 300 new) ∧
      (∀ i < 300, t.dev.chip.cell (200 + i) = erasedChip.cell (200 + i) &&& (0 + i).toUInt8) ∧
      ∀ x, x < 200 ∨ 200 + 300 ≤ x → t.dev.chip.cell x = erasedChip.cell x :=
  noCheck_splits _ erasedChip () rfl (by decide) 0 200 300 (by decide)

end Stm32F1.Flash

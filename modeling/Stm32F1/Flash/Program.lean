import Stm32F1.Flash.Exec

/-!
# Programming without erasing

`SPI_Flash_Write_NoCheck` splits a range into pages.  Whatever the range holds,
it ends with every cell of the range ANDed with its byte and the rest of the
chip as it was.
-/

namespace Stm32F1.Flash

open Prog Mcu

variable {γ : Type} {m : Nat → UInt8} {c : W25x16} {g : γ}

/-- The driver is at rest with its memory and variables `m`, `g`, and an idle chip of the size
of `c` holds `cell`. -/
def Rest (m : Nat → UInt8) (c : W25x16) (g : γ) (cell : Nat → UInt8)
    (t : Mcu (Framed W25x16) γ) : Prop :=
  ∃ c' : W25x16, t = ⟨m, ⟨c', none⟩, g⟩ ∧ c'.busy = 0 ∧ c'.size = c.size ∧ c'.cell = cell

/-- How the driver clips a count to what is left of it. -/
theorem toNat_ite_le (n r : UInt16) : (if n ≤ r then n else r).toNat = min n.toNat r.toNat := by
  split
  · rename_i h
    exact (Nat.min_eq_left (UInt16.le_iff_toNat_le.1 h)).symm
  · rename_i h
    exact (Nat.min_eq_right (Nat.le_of_not_le fun h' ↦ h (UInt16.le_iff_toNat_le.2 h'))).symm

theorem toNat_ite_gt (n r : UInt16) : (if n > r then r else n).toNat = min n.toNat r.toNat := by
  split
  · rename_i h
    exact (Nat.min_eq_right (UInt16.lt_iff_toNat_lt.1 h).le).symm
  · rename_i h
    exact (Nat.min_eq_left (Nat.le_of_not_lt fun h' ↦ h (UInt16.lt_iff_toNat_lt.2 h'))).symm

/-- The room left in the page of `a`. -/
theorem toNat_room (a : UInt32) :
    (256 - a % 256 : UInt32).toUInt16.toNat = 256 - a.toNat % 256 := by
  have h : (a % 256).toNat = a.toNat % 256 := by simp
  have hle : a % 256 ≤ 256 := by
    rw [UInt32.le_iff_toNat_le, h]
    exact (Nat.mod_lt _ (by decide)).le
  rw [UInt32.toNat_toUInt16, UInt32.toNat_sub_of_le _ _ hle, h]
  exact Nat.mod_eq_of_lt (by simp; omega)

theorem toNat_sectorOffset (a : UInt32) : (a % 4096).toUInt16.toNat = a.toNat % 4096 := by
  rw [UInt32.toNat_toUInt16, UInt32.toNat_mod, show (4096 : UInt32).toNat = 4096 from rfl]
  omega

/-- The room left in the sector of `a`. -/
theorem toNat_sectorRoom (a : UInt32) :
    (4096 - (a % 4096).toUInt16).toNat = 4096 - a.toNat % 4096 := by
  have hoff := toNat_sectorOffset a
  rw [UInt16.toNat_sub_of_le _ _ (UInt16.le_iff_toNat_le.2 (by rw [hoff]; simp; omega)), hoff]
  rfl

/-- What is left when a part that is not the last one is done. -/
theorem toNat_left {n r : UInt16} (hle : r.toNat ≤ n.toNat) (hlast : n ≠ r) :
    n.toNat ≠ r.toNat ∧ (n - r).toNat = n.toNat - r.toNat :=
  ⟨fun h ↦ hlast (UInt16.toNat_inj.1 h), UInt16.toNat_sub_of_le _ _ (UInt16.le_iff_toNat_le.2 hle)⟩

/-- A part of what is left: not more than all of it, and less only if it is something. -/
structure Parted (left part : UInt16) : Prop where
  le : part.toNat ≤ left.toNat
  pos : part.toNat = left.toNat ∨ 0 < part.toNat

/-- The first part, for which there is some room. -/
theorem parted_first {room : UInt16} (h : 0 < room.toNat) (n : UInt16) :
    Parted n (if n ≤ room then n else room) := by
  constructor
  · rw [toNat_ite_le]
    exact Nat.min_le_left _ _
  · rw [toNat_ite_le]
    omega

/-- The next part, and there is less left. -/
theorem Parted.next {n part : UInt16} (h : Parted n part) (hlast : n ≠ part) (size : UInt16)
    (hsize : 0 < size.toNat) :
    Parted (n - part) (if n - part > size then size else n - part) ∧
    (n - part).toNat < n.toNat := by
  obtain ⟨hne, hsub⟩ := toNat_left h.le hlast
  have hle := h.le
  have hpos := h.pos
  refine ⟨⟨?_, ?_⟩, ?_⟩
  · rw [toNat_ite_gt]
    exact Nat.min_le_left _ _
  · rw [toNat_ite_gt]
    omega
  · rw [hsub]
    omega

/-- The variables of the page loop after `k` of the `n` bytes. -/
structure PageAt (p a n k : Nat) (v : NoCheckVars) : Prop where
  le : k ≤ n
  pBuffer : v.pBuffer = p + k
  writeAddr : v.writeAddr.toNat = a + k
  number : v.numByteToWrite.toNat = n - k
  pageremain : v.pageremain.toNat = min (n - k) (256 - (a + k) % 256)

namespace PageAt

variable {p n k : Nat} {v : NoCheckVars}

theorem first (p : Nat) (a : UInt32) (n : UInt16) : PageAt p a.toNat n.toNat 0
    ⟨p, a, n, if n ≤ (256 - a % 256).toUInt16 then n else (256 - a % 256).toUInt16⟩ := by
  refine ⟨Nat.zero_le _, rfl, rfl, rfl, ?_⟩
  rw [toNat_ite_le, toNat_room]
  rfl

theorem last {a : Nat} (h : PageAt p a n k v) (hlast : v.numByteToWrite = v.pageremain) :
    k + v.pageremain.toNat = n := by
  have hle := h.le
  have hnum := h.number
  rw [← hlast]
  omega

theorem next {a : Nat} (h : PageAt p a n k v) (hfit : a + n ≤ 2 ^ 24)
    (hlast : v.numByteToWrite ≠ v.pageremain) :
    PageAt p a n (k + v.pageremain.toNat) ⟨v.pBuffer + v.pageremain.toNat,
      v.writeAddr + v.pageremain.toUInt32, v.numByteToWrite - v.pageremain,
      if v.numByteToWrite - v.pageremain > 256 then 256 else v.numByteToWrite - v.pageremain⟩ ∧
    (v.numByteToWrite - v.pageremain).toNat < v.numByteToWrite.toNat := by
  obtain ⟨hle, hp, haddr, hnum, hrem⟩ := h
  obtain ⟨hne, hsub⟩ := toNat_left (by omega) hlast
  refine ⟨⟨?_, ?_, ?_, ?_, ?_⟩, ?_⟩
  · omega
  · simp only [hp, Nat.add_assoc]
  · have hadd : (v.writeAddr + v.pageremain.toUInt32).toNat =
        v.writeAddr.toNat + v.pageremain.toNat := by
      rw [UInt32.toNat_add, UInt16.toNat_toUInt32, haddr]
      exact Nat.mod_eq_of_lt (by omega)
    simp only [hadd, haddr, Nat.add_assoc]
  · simp only [hsub]
    omega
  · have hround : (a + (k + v.pageremain.toNat)) % 256 = 0 := by omega
    rw [hround, toNat_ite_gt, hsub, show (256 : UInt16).toNat = 256 from rfl]
    omega
  · rw [hsub]
    omega

end PageAt

/-- One page at a time: the invariant of the loop after `k` of the `n` bytes. -/
structure NoCheckInv (m : Nat → UInt8) (c : W25x16) (g : γ) (p a n k : Nat) (v : NoCheckVars)
    (t : Mcu (Framed W25x16) γ) : Prop extends PageAt p a n k v where
  rest : Rest m c g (overlay c.cell a k fun i ↦ c.cell (a + i) &&& m (p + i)) t

/-- One page program, on memory: the data is ANDed into consecutive cells. -/
theorem pageProgrammed_slice (h : c.busy = 0) (p : Nat) {a : UInt32} {n : Nat}
    (hpage : a.toNat % 256 + n ≤ 256) (hfit : n = 0 ∨ a.toNat < 2 ^ 24) :
    (c.pageProgrammed a (slice m p n)).cell =
      overlay c.cell a.toNat n fun i ↦ c.cell (a.toNat + i) &&& m (p + i) := by
  rw [pageProgrammed_cell h]
  rcases hfit with rfl | hlt
  · simp [programFrom]
  · rw [Nat.mod_eq_of_lt hlt]
    exact programFrom_slice (k := 0) a.toNat p c.cell (by omega)

/-- Two adjacent ranges programmed one after the other are one range programmed. -/
theorem overlay_program (cell : Nat → UInt8) (a p k r : Nat) :
    overlay (overlay cell a k fun i ↦ cell (a + i) &&& m (p + i)) (a + k) r
      (fun i ↦ overlay cell a k (fun i ↦ cell (a + i) &&& m (p + i)) (a + k + i) &&&
        m (p + k + i)) =
    overlay cell a (k + r) fun i ↦ cell (a + i) &&& m (p + i) := by
  rw [← overlay_overlay_adjacent]
  refine overlay_congr fun i _ ↦ ?_
  rw [overlay_of_notMem (by omega), Nat.add_assoc, Nat.add_assoc]

/-- A round of the loop: the page is written, and if that was the last one the whole range is. -/
theorem noCheck_step (p : Nat) {a : UInt32} {n : UInt16} (hfit : a.toNat + n.toNat ≤ 2 ^ 24)
    {k : Nat} {v : NoCheckVars} {t : Mcu (Framed W25x16) γ}
    (hk : NoCheckInv m c g p a.toNat n.toNat k v t) :
    ∃ t', spiFlashWritePage v.pBuffer v.writeAddr v.pageremain t = some ((), t') ∧
      Rest m c g (overlay c.cell a.toNat (k + v.pageremain.toNat) fun i ↦
        c.cell (a.toNat + i) &&& m (p + i)) t' := by
  obtain ⟨c', rfl, hbusy, hsize, hcell⟩ := hk.rest
  have haddr := hk.writeAddr
  have hrem := hk.pageremain
  have hle := hk.le
  refine ⟨_, spiFlashWritePage_eq hbusy _ _ _, _, rfl, rfl, ?_, ?_⟩
  · rw [pageProgrammed_size, hsize]
  · rw [pageProgrammed_slice hbusy _ (by omega) (by omega), hcell, haddr, hk.pBuffer]
    exact overlay_program c.cell a.toNat p k _

theorem run_noCheck (h : c.busy = 0) (p : Nat) {a : UInt32} {n : UInt16}
    (hfit : a.toNat + n.toNat ≤ 2 ^ 24) :
    Run (spiFlashWriteNoCheck p a n) (⟨m, ⟨c, none⟩, g⟩ : Mcu (Framed W25x16) γ) fun _ t ↦
      Rest m c g (overlay c.cell a.toNat n.toNat fun i ↦ c.cell (a.toNat + i) &&& m (p + i)) t := by
  refine run_repeatM (fun v t ↦ ∃ k, NoCheckInv m c g p a.toNat n.toNat k v t)
    (fun v _ ↦ v.numByteToWrite.toNat) ?_ ⟨0, ?_⟩
  · rintro v t ⟨k, hk⟩
    obtain ⟨t', ht, hrest⟩ := noCheck_step p hfit hk
    rw [run_bind, run_of_eq ht]
    by_cases hlast : v.numByteToWrite = v.pageremain
    · rw [if_pos hlast, run_pure]
      rwa [hk.last hlast] at hrest
    · obtain ⟨hpage, hless⟩ := hk.next hfit hlast
      rw [if_neg hlast, run_pure]
      exact ⟨⟨_, hpage, hrest⟩, hless⟩
  · exact ⟨PageAt.first p a n, c, by simp, h, rfl, by simp⟩

end Stm32F1.Flash

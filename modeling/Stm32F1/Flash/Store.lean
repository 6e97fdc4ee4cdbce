import Stm32F1.Flash.Program
import Stm32F1.Lib.Calls

/-!
# The flash driver is a flat byte array

`SPI_Flash_Write` goes through the sector buffer: it reads a sector back, erases
it if the range holds a byte that is not blank, and writes the sector or only
the range.  This file proves that none of that is visible: between calls the
chip holds exactly the bytes of a flat array.

The caller's buffer must not overlap the sector buffer.  Nothing is asked of
what the memory holds, nor of what the chip held before.
-/

namespace Stm32F1.Flash

open Prog Mcu

variable {γ : Type} {m : Nat → UInt8} {c : W25x16} {g : γ} {buf : Nat}

/-! ## One sector -/

/-- The driver is at rest and an idle chip of the size of `c` holds `cell`; of the memory, only
the sector buffer may differ from `m`. -/
def Stored (buf : Nat) (m : Nat → UInt8) (c : W25x16) (g : γ) (cell : Nat → UInt8)
    (t : Mcu (Framed W25x16) γ) : Prop :=
  ∃ m' : Nat → UInt8, (∀ x, x < buf ∨ buf + 4096 ≤ x → m' x = m x) ∧ Rest m' c g cell t

theorem Stored.congr {c' : W25x16} (h : c.size = c'.size) {cell : Nat → UInt8}
    {t : Mcu (Framed W25x16) γ} : Stored buf m c g cell t ↔ Stored buf m c' g cell t := by
  rw [Stored, Stored]
  simp only [Rest, h]

/-- Copying the caller's bytes into the sector buffer. -/
theorem run_copy {p off n : Nat} (hapart : p + n ≤ buf ∨ buf + 4096 ≤ p) (hoff : off + n ≤ 4096)
    (d : Framed W25x16) :
    forRange n (fun i ↦ do
        let b ← load (p + i)
        store (buf + (i + off)) b) (⟨m, d, g⟩ : Mcu (Framed W25x16) γ) =
      some ((), ⟨overlay m (buf + off) n fun i ↦ m (p + i), d, g⟩) := by
  refine (run_forRange (fun k (t : Mcu (Framed W25x16) γ) ↦ t =
    ⟨overlay m (buf + off) k fun i ↦ m (p + i), d, g⟩) ?_ (by simp)).eq
  rintro k _ hk rfl
  refine .of_eq (a := ()) ?_ rfl
  simp only [bind_apply, load_apply, Option.bind_some, store_apply, overlay_succ]
  rw [overlay_of_notMem (by omega), Nat.add_comm k off, Nat.add_assoc]

theorem ff_and (b : UInt8) : 0xFF &&& b = b := UInt8.neg_one_and

/-- What a round of the loop of `SPI_Flash_Write` needs of its variables: the part that starts at
`secoff` lies in one sector, the sector lies in the chip, and the data is apart from the buffer. -/
structure SectorPre (c : W25x16) (buf : Nat) (v : WriteVars) : Prop where
  busy : c.busy = 0
  size : c.size ≤ 2 ^ 24
  fits : v.secoff.toNat + v.secremain.toNat ≤ 4096
  addr : v.writeAddr.toNat = v.secpos.toNat * 4096 + v.secoff.toNat
  top : v.writeAddr.toNat + v.secremain.toNat ≤ 2 ^ 24
  inside : v.secremain.toNat = 0 ∨ v.secpos.toNat * 4096 + 4096 ≤ c.size
  apart : v.pBuffer + v.secremain.toNat ≤ buf ∨ buf + 4096 ≤ v.pBuffer

theorem SectorPre.toNat_sector {v : WriteVars} (hv : SectorPre c buf v) :
    (v.secpos * 4096).toNat = v.secpos.toNat * 4096 := by
  have haddr := hv.addr
  have htop := hv.top
  rw [UInt32.toNat_mul, show (4096 : UInt32).toNat = 4096 from rfl]
  exact Nat.mod_eq_of_lt (by omega)

/-- The sector read back into the buffer.  Past the end of the chip nothing is read that matters:
there the range is empty. -/
theorem run_readBack {v : WriteVars} (hv : SectorPre c buf v) :
    Run (spiFlashRead buf (v.secpos * 4096) 4096) (⟨m, ⟨c, none⟩, g⟩ : Mcu (Framed W25x16) γ)
      fun _ t ↦ ∃ old : Nat → UInt8, Rest (overlay m buf 4096 old) c g c.cell t ∧
        (v.secremain.toNat ≠ 0 → ∀ i < 4096, old i = c.cell (v.secpos.toNat * 4096 + i)) := by
  refine .of_eq (spiFlashRead_eq hv.busy _ _ _) ⟨_, ⟨_, rfl, hv.busy, rfl, rfl⟩, fun hrem i hi ↦ ?_⟩
  have hin := hv.inside
  have hsize := hv.size
  rw [hv.toNat_sector, Nat.mod_eq_of_lt (by omega : v.secpos.toNat * 4096 < 2 ^ 24),
    Nat.mod_eq_of_lt (by omega)]

/-- Where the range holds only blank bytes, programming it writes it. -/
theorem overlay_and_blank {cell : Nat → UInt8} {a p n : Nat}
    (hblank : ∀ i < n, cell (a + i) = 0xFF) :
    overlay cell a n (fun i ↦ cell (a + i) &&& m (p + i)) =
      overlay cell a n fun i ↦ m (p + i) :=
  overlay_congr fun i hi ↦ by rw [hblank i hi, ff_and]

/-- Programming an erased sector from the buffer that holds the old sector with the new bytes laid
over it changes only the new bytes. -/
theorem overlay_erased {cell f : Nat → UInt8} {a off n : Nat} (h : off + n ≤ 4096) :
    overlay (overlay cell a 4096 fun _ ↦ 0xFF) a 4096 (fun i ↦
      overlay cell a 4096 (fun _ ↦ 0xFF) (a + i) &&&
        overlay (overlay m buf 4096 fun i ↦ cell (a + i)) (buf + off) n f (buf + i)) =
      overlay cell (a + off) n f := by
  funext x
  by_cases hx : a ≤ x ∧ x < a + 4096
  · rw [overlay_of_mem hx.1 hx.2, overlay_of_mem (by omega) (by omega), ff_and]
    by_cases hn : a + off ≤ x ∧ x < a + off + n
    · rw [overlay_of_mem (by omega) (by omega), overlay_of_mem hn.1 hn.2]
      congr 1
      omega
    · rw [overlay_of_notMem (by omega), overlay_of_mem (by omega) (by omega),
        overlay_of_notMem (by omega)]
      congr 1
      omega
  · rw [overlay_of_notMem (by omega), overlay_of_notMem (by omega), overlay_of_notMem (by omega)]

/-- The range is written through the buffer, the sector having been erased. -/
theorem run_dirty {v : WriteVars} (hv : SectorPre c buf v) (hrem : v.secremain.toNat ≠ 0)
    {old : Nat → UInt8} (hold : ∀ i < 4096, old i = c.cell (v.secpos.toNat * 4096 + i)) :
    Run (do
        spiFlashEraseSector v.secpos
        forRange v.secremain.toNat fun i ↦ do
          let b ← load (v.pBuffer + i)
          store (buf + (i + v.secoff.toNat)) b
        spiFlashWriteNoCheck buf (v.secpos * 4096) 4096)
      (⟨overlay m buf 4096 old, ⟨c, none⟩, g⟩ : Mcu (Framed W25x16) γ) fun _ t ↦
        Stored buf m c g
          (overlay c.cell v.writeAddr.toNat v.secremain.toNat fun i ↦ m (v.pBuffer + i)) t := by
  have ⟨hbusy, hsize, hfits, haddr, htop, hin, hapart⟩ := hv
  rw [run_bind, run_of_eq (spiFlashEraseSector_eq hbusy _), run_bind,
    run_of_eq (run_copy hapart hfits _)]
  refine (run_noCheck rfl buf (a := v.secpos * 4096) (n := 4096)
    (by rw [hv.toNat_sector]; simp; omega)).mono ?_
  rintro - t ⟨c', rfl, hb', hs', hc'⟩
  refine ⟨_, fun x hx ↦ ?_, c', rfl, hb', by rw [hs', sectorErased_size], ?_⟩
  · rw [overlay_of_notMem (by omega), overlay_of_notMem (by omega)]
  · rw [hc', hv.toNat_sector, sectorErased_cell hbusy (by omega), haddr,
      overlay_congr hold]
    refine (overlay_erased hfits).trans (overlay_congr fun i hi ↦ ?_)
    rw [overlay_of_notMem (by omega)]

/-- The range is written as it is: its cells are blank. -/
theorem run_clean {v : WriteVars} (hv : SectorPre c buf v) {old : Nat → UInt8}
    (hblank : ∀ i < v.secremain.toNat, c.cell (v.writeAddr.toNat + i) = 0xFF) :
    Run (spiFlashWriteNoCheck v.pBuffer v.writeAddr v.secremain)
      (⟨overlay m buf 4096 old, ⟨c, none⟩, g⟩ : Mcu (Framed W25x16) γ) fun _ t ↦
        Stored buf m c g
          (overlay c.cell v.writeAddr.toNat v.secremain.toNat fun i ↦ m (v.pBuffer + i)) t := by
  have ⟨hbusy, hsize, hfits, haddr, htop, hin, hapart⟩ := hv
  refine (run_noCheck hbusy v.pBuffer (by omega)).mono ?_
  rintro - t ⟨c', rfl, hb', hs', hc'⟩
  refine ⟨_, fun x hx ↦ overlay_of_notMem hx, c', rfl, hb', hs', ?_⟩
  rw [hc', overlay_and_blank hblank]
  refine overlay_congr fun i hi ↦ ?_
  rw [overlay_of_notMem (by omega)]

/-- **One sector of a write**: the range of the sector holds the caller's bytes and every other
cell of the chip is as it was, whether or not the sector had to be erased. -/
theorem run_writeSector {v : WriteVars} (hv : SectorPre c buf v) :
    Run (writeSector buf v) (⟨m, ⟨c, none⟩, g⟩ : Mcu (Framed W25x16) γ) fun _ t ↦
      Stored buf m c g
        (overlay c.cell v.writeAddr.toNat v.secremain.toNat fun i ↦ m (v.pBuffer + i)) t := by
  rw [writeSector]
  refine (run_readBack hv).bind ?_
  rintro - t ⟨old, ⟨c₁, rfl, hbusy, hsize, hcell⟩, hold⟩
  have hv₁ : SectorPre c₁ buf v :=
    ⟨hbusy, hsize ▸ hv.size, hv.fits, hv.addr, hv.top, hsize ▸ hv.inside, hv.apart⟩
  rw [run_bind, run_read, run_ite, ← hcell]
  simp only [Stored.congr hsize.symm]
  split
  · rename_i hdirty
    have hrem : v.secremain.toNat ≠ 0 := by omega
    exact run_dirty hv₁ hrem (hcell ▸ hold hrem)
  · rename_i hclean
    refine run_clean hv₁ fun i hi ↦ ?_
    by_contra hne
    have hfits := hv.fits
    refine hclean (scan_lt_iff.2 ⟨i, hi, ?_⟩)
    rw [overlay_add (by omega), hold (by omega) _ (by omega), ← hcell, ← Nat.add_assoc, ← hv.addr]
    exact bne_iff_ne.2 hne

/-! ## The whole write -/

/-- The variables of the loop of `SPI_Flash_Write` after `k` of the `n` bytes. -/
structure SectorAt (p a n k : Nat) (v : WriteVars) : Prop where
  le : k ≤ n
  pBuffer : v.pBuffer = p + k
  writeAddr : v.writeAddr.toNat = a + k
  secpos : v.secpos.toNat * 4096 + v.secoff.toNat = a + k
  secoff : v.secoff.toNat < 4096
  number : v.numByteToWrite.toNat = n - k
  secremain : v.secremain.toNat = min (n - k) (4096 - v.secoff.toNat)

namespace SectorAt

variable {p n k : Nat} {v : WriteVars}

theorem first (p : Nat) (a : UInt32) (n : UInt16) : SectorAt p a.toNat n.toNat 0
    ⟨a / 4096, (a % 4096).toUInt16,
      if n ≤ 4096 - (a % 4096).toUInt16 then n else 4096 - (a % 4096).toUInt16, p, a, n⟩ := by
  have hoff := toNat_sectorOffset a
  have hpos : (a / 4096).toNat = a.toNat / 4096 := by simp
  refine ⟨Nat.zero_le _, rfl, rfl, ?_, ?_, rfl, ?_⟩
  · simp only [hpos, hoff]
    omega
  · rw [hoff]
    omega
  · rw [toNat_ite_le, toNat_sectorRoom, hoff]
    rfl

theorem last {a : Nat} (h : SectorAt p a n k v) (hlast : v.numByteToWrite = v.secremain) :
    k + v.secremain.toNat = n := by
  have hle := h.le
  have hnum := h.number
  rw [← hlast]
  omega

theorem next {a : Nat} (h : SectorAt p a n k v) (hfit : a + n ≤ 2 ^ 24)
    (hlast : v.numByteToWrite ≠ v.secremain) :
    SectorAt p a n (k + v.secremain.toNat) ⟨v.secpos + 1, 0,
      if v.numByteToWrite - v.secremain > 4096 then 4096 else v.numByteToWrite - v.secremain,
      v.pBuffer + v.secremain.toNat, v.writeAddr + v.secremain.toUInt32,
      v.numByteToWrite - v.secremain⟩ ∧
    (v.numByteToWrite - v.secremain).toNat < v.numByteToWrite.toNat := by
  obtain ⟨hle, hp, haddr, hsec, hoff, hnum, hrem⟩ := h
  obtain ⟨hne, hsub⟩ := toNat_left (by omega) hlast
  have hadd : (v.writeAddr + v.secremain.toUInt32).toNat =
      v.writeAddr.toNat + v.secremain.toNat := by
    rw [UInt32.toNat_add, UInt16.toNat_toUInt32]
    exact Nat.mod_eq_of_lt (by omega)
  have hinc : (v.secpos + 1).toNat = v.secpos.toNat + 1 := by
    rw [UInt32.toNat_add]
    exact Nat.mod_eq_of_lt (by simp; omega)
  refine ⟨⟨?_, ?_, ?_, ?_, ?_, ?_, ?_⟩, ?_⟩
  · omega
  · simp only [hp, Nat.add_assoc]
  · simp only [hadd, haddr, Nat.add_assoc]
  · have hround : v.secoff.toNat + v.secremain.toNat = 4096 := by omega
    simp only [hinc, UInt16.toNat_zero, Nat.add_zero]
    calc (v.secpos.toNat + 1) * 4096
        = v.secpos.toNat * 4096 + (v.secoff.toNat + v.secremain.toNat) := by
          rw [hround, Nat.succ_mul]
      _ = a + (k + v.secremain.toNat) := by rw [← Nat.add_assoc, hsec, Nat.add_assoc]
  · simp
  · simp only [hsub]
    omega
  · rw [toNat_ite_gt, hsub, show (4096 : UInt16).toNat = 4096 from rfl, UInt16.toNat_zero]
    omega
  · rw [hsub]
    omega

end SectorAt

/-- The invariant of the loop of `SPI_Flash_Write` after `k` of the `n` bytes. -/
structure WriteInv (buf : Nat) (m : Nat → UInt8) (c : W25x16) (g : γ) (p a n k : Nat)
    (v : WriteVars) (t : Mcu (Framed W25x16) γ) : Prop extends SectorAt p a n k v where
  stored : Stored buf m c g (overlay c.cell a k fun i ↦ m (p + i)) t

variable {p : Nat} {a : UInt32} {n : UInt16}

/-- A round of the loop writes the part of the range that lies in its sector. -/
theorem write_step (hsize : c.size ≤ 2 ^ 24) (hmult : c.size % 4096 = 0)
    (hfit : a.toNat + n.toNat ≤ c.size) (hapart : p + n.toNat ≤ buf ∨ buf + 4096 ≤ p)
    {k : Nat} {v : WriteVars} {t : Mcu (Framed W25x16) γ}
    (hk : WriteInv buf m c g p a.toNat n.toNat k v t) :
    Run (writeSector buf v) t fun _ t' ↦
      Stored buf m c g (overlay c.cell a.toNat (k + v.secremain.toNat) fun i ↦ m (p + i)) t' := by
  obtain ⟨⟨hle, hp, haddr, hsec, hoff, hnum, hrem⟩, m', hm', c', rfl, hb, hs, hc⟩ := hk
  have hv : SectorPre c' buf v :=
    ⟨hb, by omega, by omega, by omega, by omega, by omega, by omega⟩
  refine (run_writeSector hv).mono ?_
  rintro - t ⟨m'', hm'', c'', rfl, hb', hs', hc'⟩
  refine ⟨m'', fun x hx ↦ (hm'' x hx).trans (hm' x hx), c'', rfl, hb', hs'.trans hs, ?_⟩
  rw [hc', hc, ← overlay_overlay_adjacent, haddr]
  refine overlay_congr fun i hi ↦ ?_
  rw [hm' _ (by omega), hp, Nat.add_assoc]

/-- **`SPI_Flash_Write`** writes exactly the range it is given. -/
theorem run_write (hbusy : c.busy = 0) (hsize : c.size ≤ 2 ^ 24) (hmult : c.size % 4096 = 0)
    (hfit : a.toNat + n.toNat ≤ c.size) (hapart : p + n.toNat ≤ buf ∨ buf + 4096 ≤ p) :
    Run (spiFlashWrite buf p a n) (⟨m, ⟨c, none⟩, g⟩ : Mcu (Framed W25x16) γ) fun _ t ↦
      Stored buf m c g (overlay c.cell a.toNat n.toNat fun i ↦ m (p + i)) t := by
  refine run_repeatM (fun v t ↦ ∃ k, WriteInv buf m c g p a.toNat n.toNat k v t)
    (fun v _ ↦ v.numByteToWrite.toNat) ?_ ⟨0, ?_⟩
  · rintro v t ⟨k, hk⟩
    refine (write_step hsize hmult hfit hapart hk).bind fun _ t' hstored ↦ ?_
    by_cases hlast : v.numByteToWrite = v.secremain
    · rw [if_pos hlast, run_pure]
      rwa [hk.last hlast] at hstored
    · obtain ⟨hsector, hless⟩ := hk.next (hfit.trans hsize) hlast
      rw [if_neg hlast, run_pure]
      exact ⟨⟨_, hsector, hstored⟩, hless⟩
  · exact ⟨SectorAt.first p a n, m, fun _ _ ↦ rfl, c, rfl, hbusy, rfl, by simp⟩

/-! ## Sequences of calls -/

/-- One call of the flash store: the memory as the caller leaves it, then the arguments. -/
inductive FlashCall
  | write (m : Nat → UInt8) (pBuffer : Nat) (writeAddr : UInt32) (numByteToWrite : UInt16)
  | read (m : Nat → UInt8) (pBuffer : Nat) (readAddr : UInt32) (numByteToRead : UInt16)

namespace FlashCall

/-- What may be passed: a range inside the chip, and for a write a buffer apart from
`SPI_FLASH_BUF`. -/
def Valid (size buf : Nat) : FlashCall → Prop
  | write _ p a n => a.toNat + n.toNat ≤ size ∧ (p + n.toNat ≤ buf ∨ buf + 4096 ≤ p)
  | read _ _ a n => a.toNat + n.toNat ≤ size

/-- The call made to the driver.  A read answers with what its buffer then holds. -/
def perform {δ : Type} [SpiDevice δ] (buf : Nat) : FlashCall → Prog (Mcu δ γ) (List UInt8)
  | write m p a n => do
      Prog.modify fun s ↦ { s with mem := m }
      spiFlashWrite buf p a n
      pure []
  | read m p a n => do
      Prog.modify fun s ↦ { s with mem := m }
      spiFlashRead p a n
      Prog.read fun s ↦ slice s.mem p n.toNat

/-- The call made to a flat byte array. -/
def flat : FlashCall → (Nat → UInt8) → List UInt8 × (Nat → UInt8)
  | write m p a n, cell => ([], overlay cell a.toNat n.toNat fun i ↦ m (p + i))
  | read _ _ a n, cell => (slice cell a.toNat n.toNat, cell)

end FlashCall

/-- The driver at rest before an idle chip of size `size` that holds `cell`. -/
def Idle (size : Nat) (cell : Nat → UInt8) (t : Mcu (Framed W25x16) γ) : Prop :=
  ∃ c : W25x16, t.dev = ⟨c, none⟩ ∧ c.busy = 0 ∧ c.size = size ∧ c.cell = cell

theorem Stored.idle {cell : Nat → UInt8} {t : Mcu (Framed W25x16) γ}
    (h : Stored buf m c g cell t) : Idle c.size cell t := by
  obtain ⟨_, -, c', rfl, hb, hs, hc⟩ := h
  exact ⟨c', rfl, hb, hs, hc⟩

/-- Each call keeps the correspondence and answers as the flat array does. -/
theorem run_perform {size : Nat} (hsize : size ≤ 2 ^ 24) (hmult : size % 4096 = 0)
    (call : FlashCall) (cell : Nat → UInt8) (t : Mcu (Framed W25x16) γ)
    (hv : call.Valid size buf) (ht : Idle size cell t) :
    Run (call.perform buf) t fun o t' ↦ o = (call.flat cell).1 ∧
    Idle size (call.flat cell).2 t' := by
  obtain ⟨m₀, _, g⟩ := t
  obtain ⟨c, rfl, hbusy, rfl, rfl⟩ := ht
  cases call with
  | write m p a n =>
      obtain ⟨hfit, hapart⟩ := hv
      refine run_bind.2 (run_modify.2 ((run_write hbusy hsize hmult hfit hapart).bind ?_))
      exact fun _ t' ht' ↦ run_pure.2 ⟨rfl, ht'.idle⟩
  | read m p a n =>
      have hfit : a.toNat + n.toNat ≤ c.size := hv
      refine run_bind.2 (run_modify.2 (run_bind.2 (.of_eq (spiFlashRead_eq hbusy p a n) ?_)))
      refine run_read.2 ⟨?_, _, rfl, hbusy, rfl, rfl⟩
      rw [slice_overlay]
      refine List.map_congr_left fun i hi ↦ ?_
      have hi : i < n.toNat := List.mem_range.1 hi
      rw [Nat.mod_eq_of_lt (by omega : a.toNat < 2 ^ 24), Nat.mod_eq_of_lt (by omega)]

/-- **The flash store is a flat byte array.**  Every finite sequence of calls returns, every read
answers with the bytes the array holds, and the chip ends with the cells of the array. -/
theorem flash_refines_flat_array (hbusy : c.busy = 0) (hsize : c.size ≤ 2 ^ 24)
    (hmult : c.size % 4096 = 0) {calls : List FlashCall}
    (hcalls : ∀ call ∈ calls, call.Valid c.size buf) :
    Run (runCalls (FlashCall.perform buf) calls) (⟨m, ⟨c, none⟩, g⟩ : Mcu (Framed W25x16) γ)
      fun answers t ↦ answers = (absCalls FlashCall.flat calls c.cell).1 ∧
        Idle c.size (absCalls FlashCall.flat calls c.cell).2 t :=
  run_runCalls (FlashCall.Valid c.size buf) (Idle c.size)
    (fun call cell t ↦ run_perform hsize hmult call cell t) hcalls ⟨c, rfl, hbusy, rfl, rfl⟩

/-- A write across the edge of a sector of a chip full of zeros, read back with a neighbour on
either side. -/
theorem flash_refines_flat_array_zeros :
    Run (runCalls (FlashCall.perform 0x2000) [.write (fun x ↦ x.toUInt8) 7 4094 4,
        .read (fun _ ↦ 0) 100 4093 6])
      (⟨fun _ ↦ 0, ⟨⟨8192, fun _ ↦ 0, false, 0, fun k ↦ k, 0, []⟩, none⟩, ()⟩ :
        Mcu (Framed W25x16) Unit)
      fun answers _ ↦ answers = [[], [0, 7, 8, 9, 10, 0]] := by
  refine (flash_refines_flat_array rfl (by decide) (by decide) ?_).mono fun _ _ h ↦ h.1
  simp [FlashCall.Valid]

end Stm32F1.Flash

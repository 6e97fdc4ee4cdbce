import Stm32F1.Flash.Store

/-!
# What a write wears out

Erasing wears a sector out, and a sector that is being rewritten is lost when
the power fails.  This file reads off the log of the chip which cells a command
gives out, erases and programs, and proves which of this `SPI_Flash_Write`
does: it erases a sector only when the part of the range in it is not blank.

Nothing is asked of where the caller's data lies: it may even overlap the
sector buffer, which is scanned before anything is copied to it.
-/

namespace Stm32F1.Flash

open Prog Mcu

variable {γ : Type} {m : Nat → UInt8} {c c' c'' : W25x16} {g : γ} {buf : Nat}

/-! ## The cells of a command -/

namespace Frame

/-- The chip obeyed the command by erasing the sector number `sec`. -/
def erases (f : Frame) (sec : Nat) : Bool :=
  !f.busy && f.wel &&
    match f.bytes with
    | [op] => op == W25X_ChipErase
    | [op, a₂, a₁, a₀] => op == W25X_SectorErase && addr24 a₂ a₁ a₀ / 4096 == sec
    | _ => false

/-- The chip obeyed the command by programming the cell `x`. -/
def programs (f : Frame) (x : Nat) : Bool :=
  !f.busy && f.wel &&
    match f.bytes with
    | op :: a₂ :: a₁ :: a₀ :: ds => op == W25X_PageProgram &&
        (List.range ds.length).any fun k ↦ pageAddr (addr24 a₂ a₁ a₀) k == x
    | _ => false

/-- A chip of `size` cells obeyed the command by giving out the cell `x`. -/
def reads (size : Nat) (f : Frame) (x : Nat) : Bool :=
  !f.busy &&
    match f.bytes with
    | op :: a₂ :: a₁ :: a₀ :: ds => op == W25X_ReadData &&
        (List.range ds.length).any fun k ↦ (addr24 a₂ a₁ a₀ + k) % size == x
    | _ => false

/-- The command changes the cell `x`. -/
def Changes (f : Frame) (x : Nat) : Prop := f.erases (x / 4096) ∨ f.programs x

end Frame

theorem programFrom_of_ne {a k x : Nat} {ds : List UInt8} {cell : Nat → UInt8}
    (h : ∀ i < ds.length, pageAddr a (k + i) ≠ x) : programFrom a k ds cell x = cell x := by
  induction ds generalizing k cell with
  | nil => rfl
  | cons d ds ih =>
      rw [programFrom, ih]
      · exact Function.update_of_ne (h 0 (by simp)).symm _ _
      · intro i hi
        have hne := h (i + 1) (by simpa using hi)
        rwa [← Nat.add_assoc, Nat.add_right_comm] at hne

theorem execute_cell {bs : List UInt8} {x : Nat} (h : ¬ Frame.Changes ⟨bs, false, c.wel⟩ x) :
    (c.execute bs).cell x = c.cell x := by
  rw [Frame.Changes, not_or] at h
  obtain ⟨herase, hprogram⟩ := h
  match bs with
  | [] | [op, _, _] => rfl
  | [op] =>
      rw [W25x16.execute]
      split_ifs with h₁ h₂ h₃
      · rfl
      · rfl
      · simp [Frame.erases, h₃] at herase
      · rfl
  | [op, _] =>
      rw [W25x16.execute]
      split_ifs <;> rfl
  | [op, a₂, a₁, a₀] =>
      rw [W25x16.execute]
      split_ifs with hop
      · have hne : addr24 a₂ a₁ a₀ / 4096 ≠ x / 4096 := by
          simpa [Frame.erases, hop] using herase
        show overlay c.cell (addr24 a₂ a₁ a₀ / 4096 * 4096) 4096 (fun _ ↦ 0xFF) x = c.cell x
        exact overlay_of_notMem (by omega)
      · rfl
  | op :: a₂ :: a₁ :: a₀ :: d :: ds =>
      rw [W25x16.execute]
      split_ifs with hop
      · apply programFrom_of_ne
        intro i hi heq
        rw [Nat.zero_add] at heq
        refine hprogram ?_
        simp only [Frame.programs, hop.1, hop.2, Bool.not_false, Bool.true_and, beq_self_eq_true,
          List.any_eq_true]
        exact ⟨i, List.mem_range.2 hi, by simpa using heq⟩
      · rfl

/-- Only a command that erases or programs a cell changes it. -/
theorem finish_cell {bs : List UInt8} {x : Nat}
    (h : ¬ Frame.Changes ⟨bs, decide (c.busy ≠ 0), c.wel⟩ x) : (c.finish bs).cell x = c.cell x := by
  unfold W25x16.finish
  split
  · rfl
  · by_cases hbusy : c.busy = 0
    · rw [hbusy] at h
      simp only [if_pos hbusy]
      exact execute_cell (c := { c with log := _ }) h
    · simp only [if_neg hbusy]

/-- What the chip shifts out depends only on the cells that the command reads. -/
theorem reply_congr {bs : List UInt8} {b : UInt8} {cell : Nat → UInt8}
    (h : ∀ x, Frame.reads c.size ⟨bs ++ [b], decide (c.busy ≠ 0), c.wel⟩ x → cell x = c.cell x) :
    W25x16.reply { c with cell := cell } bs = c.reply bs := by
  match bs with
  | [] | [op] | [op, _] | [op, _, _] => rfl
  | op :: a₂ :: a₁ :: a₀ :: ds =>
      have hread (hbusy : c.busy = 0) (hop : op = W25X_ReadData) :
          cell ((addr24 a₂ a₁ a₀ + ds.length) % c.size) =
            c.cell ((addr24 a₂ a₁ a₀ + ds.length) % c.size) := by
        apply h
        simp only [Frame.reads, hbusy, hop, List.cons_append, ne_eq, not_true_eq_false,
          decide_false,
          Bool.not_false, Bool.true_and, beq_self_eq_true, List.any_eq_true, List.mem_range]
        exact ⟨ds.length, by simp, beq_self_eq_true _⟩
      simp only [W25x16.reply]
      split_ifs with h₁ h₂ h₃ h₄
      · rfl
      · rfl
      · exact hread (not_not.1 h₂) h₃
      · rfl
      · rfl
      · rfl

/-! ## A series of commands -/

/-- The chip `c'` is what `c` became by the commands `new`. -/
structure Did (c : W25x16) (new : List Frame) (c' : W25x16) : Prop where
  log : c'.log = c.log ++ new
  size : c'.size = c.size
  cell : ∀ x, (∀ f ∈ new, ¬ f.Changes x) → c'.cell x = c.cell x

namespace Did

variable {new new' : List Frame}

theorem refl (c : W25x16) : Did c [] c := ⟨by simp, rfl, fun _ _ ↦ rfl⟩

theorem trans (h : Did c new c') (h' : Did c' new' c'') : Did c (new ++ new') c'' := by
  constructor
  · rw [h'.log, h.log, List.append_assoc]
  · rw [h'.size, h.size]
  · intro x hx
    rw [h'.cell x fun f hf ↦ hx f (List.mem_append_right _ hf),
      h.cell x fun f hf ↦ hx f (List.mem_append_left _ hf)]

theorem settle (h : Did c new c') : Did c new c'.settle := ⟨h.log, h.size, h.cell⟩

theorem finish {bs : List UInt8} (h : Did c new c') (hop : bs.head? ≠ some W25X_ReadStatusReg) :
    Did c (new ++ [⟨bs, decide (c'.busy ≠ 0), c'.wel⟩]) (c'.finish bs) := by
  refine h.trans ⟨finish_log hop, W25x16.finish_size, fun x hx ↦ finish_cell ?_⟩
  exact hx _ (List.mem_singleton_self _)

end Did

/-- The chip is at rest, and what it has been told since it was `c` satisfies `S`. -/
def Since (c : W25x16) (S : List Frame → Prop) (t : Mcu (Framed W25x16) γ) : Prop :=
  t.dev.rx = none ∧ t.dev.chip.busy = 0 ∧ ∃ new, Did c new t.dev.chip ∧ S new

/-- Enabling an idle chip. -/
theorem Did.enabled {new : List Frame} (h : Did c new c') :
    Did c (new ++ [⟨[W25X_WriteEnable], false, c'.wel⟩]) c'.enabled :=
  h.trans ⟨rfl, rfl, fun _ _ ↦ rfl⟩

/-- A command that only programs cells of the `n` from `a`. -/
structure Frame.Fills (size a n : Nat) (f : Frame) : Prop where
  erases : ∀ sec, f.erases sec = false
  reads : ∀ x, f.reads size x = false
  programs : ∀ x, f.programs x → a ≤ x ∧ x < a + n

theorem fills_writeEnable (size a n : Nat) (w : Bool) :
    Frame.Fills size a n ⟨[W25X_WriteEnable], false, w⟩ := by
  constructor
  · intro sec
    simp [Frame.erases, W25X_WriteEnable, W25X_ChipErase]
  · intro x
    rfl
  · intro x hx
    simp [Frame.programs] at hx

/-- A page that does not run over its end. -/
theorem fills_page (size : Nat) {a : UInt32} (ds : List UInt8) (w : Bool)
    (hpage : a.toNat % 256 + ds.length ≤ 256) (hfit : a.toNat + ds.length ≤ 2 ^ 24) :
    Frame.Fills size a.toNat ds.length ⟨header W25X_PageProgram a ++ ds, false, w⟩ := by
  constructor
  · intro sec
    cases ds <;> simp [Frame.erases, header, W25X_PageProgram, W25X_SectorErase]
  · intro x
    simp [Frame.reads, header, W25X_PageProgram, W25X_ReadData]
  · intro x hx
    have hx : ∃ k < ds.length, pageAddr (a.toNat % 2 ^ 24) k = x := by
      rw [← addr24_header]
      simp only [Frame.programs, header, List.cons_append, List.nil_append, Bool.and_eq_true,
        List.any_eq_true, List.mem_range, beq_iff_eq] at hx
      exact hx.2.2
    obtain ⟨k, hk, rfl⟩ := hx
    rw [Nat.mod_eq_of_lt (by omega), pageAddr]
    omega

theorem Frame.Fills.mono {size a n a' n' : Nat} {f : Frame} (h : f.Fills size a n) (ha : a' ≤ a)
    (hn : a + n ≤ a' + n') : f.Fills size a' n' := by
  refine ⟨h.erases, h.reads, fun x hx ↦ ?_⟩
  have := h.programs x hx
  omega

variable {S : List Frame → Prop} {s : Mcu (Framed W25x16) γ}

/-- Memory may be copied meanwhile. -/
theorem Since.copy (h : Since c S s) (p q n : Nat) :
    Run (forRange n fun i ↦ do
      let b ← load (p + i)
      store (buf + (i + q)) b) s fun _ t ↦ Since c S t :=
  run_forRange (fun _ t ↦ Since c S t) (fun _ _ _ ht ↦ run_bind.2 (run_read.2 (run_modify.2 ht))) h

/-- A sector is erased. -/
theorem Since.erase {S' : List Frame → Prop} (h : Since c S s) {sec : UInt32}
    (hS : ∀ new w, S new → S' (new ++ [⟨[W25X_WriteEnable], false, w⟩] ++
      [⟨header W25X_SectorErase (sec * 4096), false, true⟩])) :
    Run (spiFlashEraseSector sec) s fun _ t ↦ Since c S' t := by
  obtain ⟨m, ⟨c', rx⟩, g⟩ := s
  obtain ⟨rfl, hbusy, new, hdid, hnew⟩ := h
  have hop : (header W25X_SectorErase (sec * 4096)).head? ≠ some W25X_ReadStatusReg := by
    simp [header, W25X_SectorErase, W25X_ReadStatusReg]
  have herased := hdid.enabled.finish hop
  have hframe : decide (c'.enabled.busy ≠ 0) = false := decide_eq_false (not_not.2 hbusy)
  rw [hframe] at herased
  exact .of_eq (spiFlashEraseSector_eq hbusy sec) ⟨rfl, rfl, _, herased.settle, hS new c'.wel hnew⟩

/-- Programming without erasing is nothing but programming of the range. -/
theorem Since.noCheck (h : Since c S s) {a : UInt32} {n : UInt16} (p : Nat)
    (hfit : a.toNat + n.toNat ≤ 2 ^ 24)
    (hS : ∀ new fs, S new → (∀ f ∈ fs, f.Fills c.size a.toNat n.toNat) → S (new ++ fs)) :
    Run (spiFlashWriteNoCheck p a n) s fun _ t ↦ Since c S t := by
  refine run_repeatM (fun v t ↦ Since c S t ∧ ∃ k, PageAt p a.toNat n.toNat k v)
    (fun v _ ↦ v.numByteToWrite.toNat) ?_ ⟨h, 0, PageAt.first p a n⟩
  rintro v ⟨m, ⟨c', rx⟩, g⟩ ⟨⟨rfl, hbusy, new, hdid, hnew⟩, k, hk⟩
  have hend : Run (spiFlashWritePage v.pBuffer v.writeAddr v.pageremain) ⟨m, ⟨c', none⟩, g⟩
      fun _ t ↦ Since c S t := by
    refine .of_eq (writePage_any ..) ⟨rfl, rfl, _, ((hdid.finish ?_).finish ?_).settle, ?_⟩
    · decide
    · simp [header, W25X_PageProgram, W25X_ReadStatusReg]
    · rw [List.append_assoc]
      apply hS _ _ hnew
      have hready : (c'.finish [W25X_WriteEnable]).busy = 0 := by
        rw [finish_writeEnable hbusy]
        exact hbusy
      have haddr := hk.writeAddr
      have hrem := hk.pageremain
      have hle := hk.le
      intro f hf
      rcases List.mem_cons.1 hf with rfl | hf
      · rw [hbusy]
        exact fills_writeEnable _ _ _ _
      · rw [List.mem_singleton.1 hf, hready]
        have hpage := fills_page c.size (a := v.writeAddr) (slice m v.pBuffer v.pageremain.toNat)
          (c'.finish [W25X_WriteEnable]).wel (by rw [length_slice]; omega)
          (by rw [length_slice]; omega)
        exact hpage.mono (by omega) (by rw [length_slice]; omega)
  refine hend.bind fun _ t ht ↦ ?_
  by_cases hlast : v.numByteToWrite = v.pageremain
  · rw [if_pos hlast]
    exact run_pure.2 ht
  · obtain ⟨hnext, hless⟩ := hk.next hfit hlast
    rw [if_neg hlast]
    exact run_pure.2 ⟨⟨ht, _, hnext⟩, hless⟩

/-! ## One sector -/

/-- The command gives out, erases or programs the cell `x` of a chip of `size` cells. -/
def Frame.Touches (size : Nat) (f : Frame) (x : Nat) : Prop := f.reads size x ∨ f.Changes x

/-- The commands stay in the sector number `sec`, and erase it `count` times. -/
structure Round (size sec count : Nat) (fs : List Frame) : Prop where
  within : ∀ f ∈ fs, ∀ x, f.Touches size x → x / 4096 = sec
  erased : fs.countP (·.erases sec) = count

namespace Round

variable {size sec count count' : Nat} {fs fs' : List Frame}

theorem append (h : Round size sec count fs) (h' : Round size sec count' fs') :
    Round size sec (count + count') (fs ++ fs') := by
  constructor
  · intro f hf x hx
    rcases List.mem_append.1 hf with hf | hf
    · exact h.within f hf x hx
    · exact h'.within f hf x hx
  · rw [List.countP_append, h.erased, h'.erased]

/-- A sector that is not erased is not erased at all. -/
theorem other {sec' : Nat} (h : Round size sec count fs) (hne : sec' ≠ sec) :
    fs.countP (·.erases sec') = 0 := by
  rw [List.countP_eq_zero]
  intro f hf herase
  refine hne ?_
  rw [← h.within f hf (sec' * 4096) (.inr (.inl (by rwa [Nat.mul_div_cancel _ (by decide)])))]
  exact (Nat.mul_div_cancel _ (by decide)).symm

theorem fills {a n : Nat} (hfs : ∀ f ∈ fs, f.Fills size a n) (ha : sec * 4096 ≤ a)
    (hn : a + n ≤ sec * 4096 + 4096) : Round size sec 0 fs := by
  constructor
  · rintro f hf x (hx | hx | hx)
    · rw [(hfs f hf).reads] at hx
      exact absurd hx Bool.false_ne_true
    · rw [(hfs f hf).erases] at hx
      exact absurd hx Bool.false_ne_true
    · have := (hfs f hf).programs x hx
      omega
  · rw [List.countP_eq_zero]
    intro f hf
    rw [(hfs f hf).erases]
    exact Bool.false_ne_true

end Round

section Read

variable (a : UInt32) (ds : List UInt8) (w : Bool)

theorem read_erases (sec : Nat) :
    Frame.erases ⟨header W25X_ReadData a ++ ds, false, w⟩ sec = false := by
  cases ds <;> simp [Frame.erases, header, W25X_ReadData, W25X_SectorErase]

theorem read_programs (x : Nat) :
    Frame.programs ⟨header W25X_ReadData a ++ ds, false, w⟩ x = false := by
  simp [Frame.programs, header, W25X_ReadData, W25X_PageProgram]

theorem read_reads (size x : Nat) : Frame.reads size ⟨header W25X_ReadData a ++ ds, false, w⟩ x ↔
    ∃ k < ds.length, (a.toNat % 2 ^ 24 + k) % size = x := by
  rw [← addr24_header]
  simp [Frame.reads, header]

end Read

/-- The sector is read back. -/
theorem round_read {sec : Nat} {a : UInt32} {ds : List UInt8} (w : Bool) (hlen : ds.length = 4096)
    (ha : a.toNat = sec * 4096) (hin : sec * 4096 + 4096 ≤ c.size) (hsize : c.size ≤ 2 ^ 24) :
    Round c.size sec 0 [⟨header W25X_ReadData a ++ ds, false, w⟩] := by
  constructor
  · intro f hf x hx
    rw [List.mem_singleton.1 hf] at hx
    rcases hx with hx | hx | hx
    · obtain ⟨k, hk, rfl⟩ := (read_reads a ds w c.size x).1 hx
      rw [ha, Nat.mod_eq_of_lt (by omega : sec * 4096 < 2 ^ 24), Nat.mod_eq_of_lt (by omega)]
      omega
    · rw [read_erases] at hx
      exact absurd hx Bool.false_ne_true
    · rw [read_programs] at hx
      exact absurd hx Bool.false_ne_true
  · rw [List.countP_eq_zero]
    intro f hf
    rw [List.mem_singleton.1 hf, read_erases]
    exact Bool.false_ne_true

/-- The sector is erased. -/
theorem round_erase {size : Nat} {sec : UInt32} (hsec : sec.toNat * 4096 < 2 ^ 24) :
    Round size sec.toNat 1 [⟨header W25X_SectorErase (sec * 4096), false, true⟩] := by
  have haddr : addr24 ((sec * 4096) >>> 16).toUInt8 ((sec * 4096) >>> 8).toUInt8
      (sec * 4096).toUInt8 / 4096 = sec.toNat := by
    rw [addr24_header, UInt32.toNat_mul]
    simp
    omega
  constructor
  · intro f hf x hx
    rw [List.mem_singleton.1 hf] at hx
    rcases hx with hx | hx | hx
    · simp [Frame.reads, header, W25X_ReadData, W25X_SectorErase] at hx
    · simp only [Frame.erases, header, haddr, Bool.not_false, Bool.true_and, Bool.and_eq_true,
        beq_iff_eq, true_and] at hx
      exact hx.symm
    · simp [Frame.programs, header] at hx
  · simp only [Frame.erases, header, haddr, List.countP_singleton]
    simp

/-- What a write may erase: the sectors in which the range of `n` cells from `a` is not blank. -/
def W25x16.Dirty (c : W25x16) (a n sec : Nat) : Prop :=
  ∃ x, a ≤ x ∧ x < a + n ∧ x / 4096 = sec ∧ c.cell x ≠ 0xFF

/-- The range of `n` cells from `a` overlaps the sector. -/
def Overlaps (a n sec : Nat) : Prop := ∃ x, a ≤ x ∧ x < a + n ∧ x / 4096 = sec

/-- What the round reads is what the sector holds. -/
theorem run_readRound {sec : UInt32} (hbusy : c.busy = 0) (hsize : c.size ≤ 2 ^ 24)
    (hin : sec.toNat * 4096 + 4096 ≤ c.size) :
    Run (spiFlashRead buf (sec * 4096) 4096) (⟨m, ⟨c, none⟩, g⟩ : Mcu (Framed W25x16) γ)
      fun _ t ↦ Since c (Round c.size sec.toNat 0) t ∧
        ∀ i < 4096, t.mem (buf + i) = c.cell (sec.toNat * 4096 + i) := by
  have hsec : (sec * 4096).toNat = sec.toNat * 4096 := by
    rw [UInt32.toNat_mul, show (4096 : UInt32).toNat = 4096 from rfl]
    exact Nat.mod_eq_of_lt (by omega)
  have hread (bs : List UInt8) : Did c [⟨bs, false, c.wel⟩] (c.logged bs) :=
    ⟨rfl, rfl, fun _ _ ↦ rfl⟩
  refine .of_eq (spiFlashRead_eq hbusy buf (sec * 4096) 4096)
    ⟨⟨rfl, hbusy, _, hread _, round_read c.wel List.length_replicate hsec hin hsize⟩, ?_⟩
  intro i hi
  have hcell : overlay m buf (4096 : UInt16).toNat (fun i ↦
      c.cell (((sec * 4096).toNat % 2 ^ 24 + i) % c.size)) (buf + i) =
        c.cell (((sec * 4096).toNat % 2 ^ 24 + i) % c.size) := overlay_add hi
  refine hcell.trans ?_
  rw [hsec, Nat.mod_eq_of_lt (by omega : sec.toNat * 4096 < 2 ^ 24),
    Nat.mod_eq_of_lt (by omega)]

/-- **One sector of a write** is erased if the part to be written is not blank, once, and nothing
else is touched. -/
theorem run_round {v : WriteVars} (hbusy : c.busy = 0) (hsize : c.size ≤ 2 ^ 24)
    (hin : v.secpos.toNat * 4096 + 4096 ≤ c.size)
    (haddr : v.writeAddr.toNat = v.secpos.toNat * 4096 + v.secoff.toNat)
    (hfits : v.secoff.toNat + v.secremain.toNat ≤ 4096) :
    Run (writeSector buf v) (⟨m, ⟨c, none⟩, g⟩ : Mcu (Framed W25x16) γ) fun _ t ↦
      (c.Dirty v.writeAddr.toNat v.secremain.toNat v.secpos.toNat →
        Since c (Round c.size v.secpos.toNat 1) t) ∧
      (¬ c.Dirty v.writeAddr.toNat v.secremain.toNat v.secpos.toNat →
        Since c (Round c.size v.secpos.toNat 0) t) := by
  rw [writeSector]
  refine (run_readRound hbusy hsize hin).bind ?_
  rintro _ t ⟨hsince, hold⟩
  have hscan : (∃ i < v.secremain.toNat, (t.mem (buf + (v.secoff.toNat + i)) != 0xFF) = true) ↔
      c.Dirty v.writeAddr.toNat v.secremain.toNat v.secpos.toNat := by
    constructor
    · rintro ⟨i, hi, hne⟩
      rw [hold _ (by omega), ← Nat.add_assoc, ← haddr] at hne
      exact ⟨v.writeAddr.toNat + i, by omega, by omega, by omega, bne_iff_ne.1 hne⟩
    · rintro ⟨x, hx, hx', -, hne⟩
      refine ⟨x - v.writeAddr.toNat, by omega, ?_⟩
      rw [hold _ (by omega), ← Nat.add_assoc, ← haddr, Nat.add_sub_cancel' hx]
      exact bne_iff_ne.2 hne
  rw [run_bind, run_read, run_ite]
  split
  · rename_i hdirty
    have hdirty := hscan.1 (scan_lt_iff.1 hdirty)
    refine Run.mono ?_ fun _ t ht ↦ ⟨fun _ ↦ ht, fun h ↦ absurd hdirty h⟩
    have hsec : (v.secpos * 4096).toNat = v.secpos.toNat * 4096 := by
      rw [UInt32.toNat_mul, show (4096 : UInt32).toNat = 4096 from rfl]
      exact Nat.mod_eq_of_lt (by omega)
    have herase : Run (spiFlashEraseSector v.secpos) t fun _ t ↦
        Since c (Round c.size v.secpos.toNat 1) t := by
      apply hsince.erase
      intro new w hnew
      have henable : Round c.size v.secpos.toNat 0 [⟨[W25X_WriteEnable], false, w⟩] :=
        Round.fills (a := v.secpos.toNat * 4096) (n := 4096)
          (fun f hf ↦ List.mem_singleton.1 hf ▸ fills_writeEnable ..) le_rfl le_rfl
      exact (hnew.append henable).append (round_erase (by omega))
    refine herase.bind fun _ t ht ↦ (ht.copy _ _ _).bind fun _ t ht ↦ ?_
    apply ht.noCheck
    · rw [hsec, show (4096 : UInt16).toNat = 4096 from rfl]
      omega
    · intro new fs hnew hfs
      rw [hsec, show (4096 : UInt16).toNat = 4096 from rfl] at hfs
      exact hnew.append (Round.fills hfs (Nat.le_refl _) (Nat.le_refl _))
  · rename_i hclean
    have hclean : ¬ c.Dirty v.writeAddr.toNat v.secremain.toNat v.secpos.toNat :=
      fun h ↦ hclean (scan_lt_iff.2 (hscan.2 h))
    refine Run.mono ?_ fun _ t ht ↦ ⟨fun h ↦ absurd h hclean, fun _ ↦ ht⟩
    apply hsince.noCheck
    · omega
    · intro new fs hnew hfs
      rw [haddr] at hfs
      refine hnew.append (Round.fills hfs (Nat.le_add_right _ _) ?_)
      rw [Nat.add_assoc]
      exact Nat.add_le_add_left hfits _

/-! ## The whole write -/

/-- What a write of `k` bytes from `a` has told the chip, which was `c` before. -/
structure Tally (c : W25x16) (a k : Nat) (new : List Frame) : Prop where
  dirty : ∀ sec, c.Dirty a k sec → new.countP (·.erases sec) = 1
  clean : ∀ sec, ¬ c.Dirty a k sec → new.countP (·.erases sec) = 0
  within : ∀ f ∈ new, ∀ x, f.Touches c.size x → Overlaps a k (x / 4096)

namespace Tally

variable {a k r sec : Nat} {new fs : List Frame}

theorem zero (c : W25x16) (a : Nat) : Tally c a 0 [] :=
  ⟨fun _ ⟨_, h, h', _⟩ ↦ absurd h' (by omega), fun _ _ ↦ rfl, nofun⟩

/-- The next round, in a sector that the rounds so far have not met. -/
theorem next (h : Tally c a k new) (hnot : ¬ Overlaps a k sec)
    (hsec : ∀ x, a + k ≤ x → x < a + k + r → x / 4096 = sec) (hr : r ≠ 0)
    (hdirty : c.Dirty (a + k) r sec → Round c.size sec 1 fs)
    (hclean : ¬ c.Dirty (a + k) r sec → Round c.size sec 0 fs) : Tally c a (k + r) (new ++ fs) := by
  have hcount : ∃ count, Round c.size sec count fs := by
    by_cases hd : c.Dirty (a + k) r sec
    · exact ⟨1, hdirty hd⟩
    · exact ⟨0, hclean hd⟩
  have hbefore : ¬ c.Dirty a k sec := by
    rintro ⟨x, hx, hx', heq, -⟩
    exact hnot ⟨x, hx, hx', heq⟩
  have hhere : c.Dirty a (k + r) sec ↔ c.Dirty (a + k) r sec := by
    constructor
    · rintro ⟨x, hx, hx', heq, hne⟩
      refine ⟨x, ?_, by omega, heq, hne⟩
      by_contra hlt
      exact hbefore ⟨x, hx, by omega, heq, hne⟩
    · rintro ⟨x, hx, hx', heq, hne⟩
      exact ⟨x, by omega, by omega, heq, hne⟩
  have helse {sec' : Nat} (hne : sec' ≠ sec) : c.Dirty a (k + r) sec' ↔ c.Dirty a k sec' := by
    constructor
    · rintro ⟨x, hx, hx', rfl, hff⟩
      refine ⟨x, hx, ?_, rfl, hff⟩
      by_contra hge
      exact hne (hsec x (by omega) (by omega))
    · rintro ⟨x, hx, hx', heq, hff⟩
      exact ⟨x, hx, by omega, heq, hff⟩
  obtain ⟨count, hround⟩ := hcount
  constructor
  · intro sec' hd
    rw [List.countP_append]
    by_cases hs : sec' = sec
    · subst hs
      rw [h.clean _ hbefore, (hdirty (hhere.1 hd)).erased]
    · rw [h.dirty _ ((helse hs).1 hd), hround.other hs]
  · intro sec' hd
    rw [List.countP_append]
    by_cases hs : sec' = sec
    · subst hs
      rw [h.clean _ hbefore, (hclean fun h' ↦ hd (hhere.2 h')).erased]
    · rw [h.clean _ fun h' ↦ hd ((helse hs).2 h'), hround.other hs]
  · intro f hf x hx
    rcases List.mem_append.1 hf with hf | hf
    · obtain ⟨y, hy, hy', heq⟩ := h.within f hf x hx
      exact ⟨y, hy, by omega, heq⟩
    · rw [hround.within f hf x hx]
      exact ⟨a + k, by omega, by omega, hsec _ le_rfl (by omega)⟩

end Tally

/-- Cells that no command has touched are as dirty as they were. -/
theorem Did.dirty_iff {new : List Frame} {a n sec : Nat} (h : Did c new c')
    (hnot : ∀ f ∈ new, ∀ x, f.Touches c.size x → x / 4096 ≠ sec) :
    c'.Dirty a n sec ↔ c.Dirty a n sec := by
  have hcell {x : Nat} (hx : x / 4096 = sec) : c'.cell x = c.cell x :=
    h.cell x fun f hf hchange ↦ hnot f hf x (.inr hchange) hx
  constructor
  · rintro ⟨x, hx, hx', heq, hne⟩
    exact ⟨x, hx, hx', heq, hcell heq ▸ hne⟩
  · rintro ⟨x, hx, hx', heq, hne⟩
    exact ⟨x, hx, hx', heq, (hcell heq).symm ▸ hne⟩

variable {p : Nat} {a : UInt32} {n : UInt16}

/-- One round of the loop of `SPI_Flash_Write`. -/
theorem Since.round {v : WriteVars} {k : Nat} (h : Since c (Tally c a.toNat k) s)
    (hsize : c.size ≤ 2 ^ 24) (hmult : c.size % 4096 = 0) (hfit : a.toNat + n.toNat ≤ c.size)
    (hv : SectorAt p a.toNat n.toNat k v) (hleft : k < n.toNat)
    (hstart : k = 0 ∨ v.secoff.toNat = 0) :
    Run (writeSector buf v) s fun _ t ↦ Since c (Tally c a.toNat (k + v.secremain.toNat)) t := by
  obtain ⟨m, ⟨c', rx⟩, g⟩ := s
  obtain ⟨rfl, hbusy, new, hdid, htally⟩ := h
  obtain ⟨hle, hp, haddr, hsec, hoff, hnum, hrem⟩ := hv
  have hnot : ¬ Overlaps a.toNat k v.secpos.toNat := by
    rintro ⟨x, hx, hx', heq⟩
    omega
  have hdirty : c'.Dirty v.writeAddr.toNat v.secremain.toNat v.secpos.toNat ↔
      c.Dirty (a.toNat + k) v.secremain.toNat v.secpos.toNat := by
    rw [← haddr]
    refine hdid.dirty_iff fun f hf x hx heq ↦ hnot ?_
    rw [← heq]
    exact htally.within f hf x hx
  have hinside : v.secpos.toNat * 4096 + 4096 ≤ c'.size := by
    rw [hdid.size]
    omega
  refine (run_round hbusy (hdid.size.trans_le hsize) hinside (by omega) (by omega)).mono ?_
  rintro _ ⟨m', ⟨c'', rx'⟩, g'⟩ ⟨hyes, hno⟩
  rw [hdid.size] at hyes hno
  have hin (x : Nat) (hx : a.toNat + k ≤ x) (hx' : x < a.toNat + k + v.secremain.toNat) :
      x / 4096 = v.secpos.toNat := by
    omega
  by_cases hd : c.Dirty (a.toNat + k) v.secremain.toNat v.secpos.toNat
  · obtain ⟨rfl, hbusy', fs, hdid', hfs⟩ := hyes (hdirty.2 hd)
    exact ⟨rfl, hbusy', _, hdid.trans hdid',
      htally.next hnot hin (by omega) (fun _ ↦ hfs) fun h ↦ absurd hd h⟩
  · obtain ⟨rfl, hbusy', fs, hdid', hfs⟩ := hno fun h ↦ hd (hdirty.1 h)
    exact ⟨rfl, hbusy', _, hdid.trans hdid',
      htally.next hnot hin (by omega) (fun h ↦ absurd h hd) fun _ ↦ hfs⟩

theorem run_write_tally (hbusy : c.busy = 0) (hsize : c.size ≤ 2 ^ 24) (hmult : c.size % 4096 = 0)
    (hfit : a.toNat + n.toNat ≤ c.size) (hn : n.toNat ≠ 0) :
    Run (spiFlashWrite buf p a n) (⟨m, ⟨c, none⟩, g⟩ : Mcu (Framed W25x16) γ) fun _ t ↦
      Since c (Tally c a.toNat n.toNat) t := by
  refine run_repeatM (fun (v : WriteVars) t ↦ ∃ k, Since c (Tally c a.toNat k) t ∧
      SectorAt p a.toNat n.toNat k v ∧ k < n.toNat ∧ (k = 0 ∨ v.secoff.toNat = 0))
    (fun v _ ↦ v.numByteToWrite.toNat) ?_
    ⟨0, ⟨rfl, hbusy, [], Did.refl c, Tally.zero c _⟩, SectorAt.first p a n, by omega, .inl rfl⟩
  rintro v t ⟨k, ht, hv, hleft, hstart⟩
  refine (ht.round hsize hmult hfit hv hleft hstart).bind fun _ t' ht' ↦ ?_
  by_cases hlast : v.numByteToWrite = v.secremain
  · rw [if_pos hlast, run_pure]
    rwa [hv.last hlast] at ht'
  · obtain ⟨hnext, hless⟩ := hv.next (hfit.trans hsize) hlast
    obtain ⟨hne, -⟩ := toNat_left (hv.secremain ▸ hv.number ▸ Nat.min_le_left _ _) hlast
    rw [if_neg hlast, run_pure]
    refine ⟨⟨_, ht', hnext, ?_, .inr rfl⟩, hless⟩
    have hnum := hv.number
    have hrem := hv.secremain
    omega

/-- The command that reads a sector back. -/
def readBack (c : W25x16) (sec : UInt32) : Frame :=
  ⟨header W25X_ReadData (sec * 4096) ++ List.replicate 4096 0xFF, false, c.wel⟩

/-- Reading a sector back, and nothing but programs of no bytes. -/
def Idled (c : W25x16) (sec : UInt32) (a : Nat) (new : List Frame) : Prop :=
  ∃ fs, new = readBack c sec :: fs ∧ ∀ f ∈ fs, f.Fills c.size a 0

/-- A round of a write of nothing reads the sector back, and then finds nothing to do. -/
theorem run_round_nothing {v : WriteVars} (hbusy : c.busy = 0) (hv : v.secremain = 0)
    (ha : v.writeAddr.toNat ≤ 2 ^ 24) :
    Run (writeSector buf v) (⟨m, ⟨c, none⟩, g⟩ : Mcu (Framed W25x16) γ) fun _ t ↦
      Since c (Idled c v.secpos v.writeAddr.toNat) t := by
  have hread : Did c [readBack c v.secpos] (c.logged (readBack c v.secpos).bytes) :=
    ⟨rfl, rfl, fun _ _ ↦ rfl⟩
  rw [writeSector, run_bind, hv]
  refine .of_eq (spiFlashRead_eq hbusy ..) (run_bind.2 (run_read.2 ?_))
  rw [UInt16.toNat_zero, if_neg (Nat.not_lt_zero _)]
  apply Since.noCheck
  · exact ⟨rfl, hbusy, _, hread, [], rfl, fun _ hf ↦ absurd hf List.not_mem_nil⟩
  · exact ha
  · rintro _ fs ⟨fs', rfl, hfs'⟩ hfs
    refine ⟨fs' ++ fs, rfl, fun f hf ↦ ?_⟩
    rcases List.mem_append.1 hf with hf | hf
    · exact hfs' f hf
    · exact hfs f hf

theorem run_write_nothing (hbusy : c.busy = 0) (ha : a.toNat ≤ 2 ^ 24) :
    Run (spiFlashWrite buf p a 0) (⟨m, ⟨c, none⟩, g⟩ : Mcu (Framed W25x16) γ) fun _ t ↦
      Since c (Idled c (a / 4096) a.toNat) t := by
  have hzero : (if (0 : UInt16) ≤ 4096 - (a % 4096).toUInt16 then 0
      else 4096 - (a % 4096).toUInt16) = 0 := if_pos UInt16.zero_le
  rw [spiFlashWrite, repeatM_unfold, bind_assoc']
  dsimp only
  rw [hzero]
  refine (run_round_nothing hbusy rfl ha).bind fun _ t ht ↦ ?_
  rw [if_pos rfl]
  exact run_pure.2 ht

/-- Reading changes nothing. -/
theorem readBack_changes (c : W25x16) (sec : UInt32) (x : Nat) : ¬ (readBack c sec).Changes x := by
  rintro (hx | hx)
  · rw [readBack, read_erases] at hx
    exact absurd hx Bool.false_ne_true
  · rw [readBack, read_programs] at hx
    exact absurd hx Bool.false_ne_true

/-- Where the sector begins; the end of the chip wraps to its first sector. -/
theorem readBack_start (hsize : c.size ≤ 2 ^ 24) (hmult : c.size % 4096 = 0) (ha : a.toNat ≤ c.size)
    (k : Nat) : ((a / 4096 * 4096).toNat % 2 ^ 24 + k) % c.size =
      (a.toNat % c.size / 4096 * 4096 + k) % c.size := by
  have hsec : (a / 4096 * 4096).toNat = a.toNat / 4096 * 4096 := by
    rw [UInt32.toNat_mul, UInt32.toNat_div, show (4096 : UInt32).toNat = 4096 from rfl]
    exact Nat.mod_eq_of_lt (by omega)
  rw [hsec]
  rcases Nat.lt_or_eq_of_le ha with hlt | heq
  · rw [Nat.mod_eq_of_lt hlt, Nat.mod_eq_of_lt (by omega : a.toNat / 4096 * 4096 < 2 ^ 24)]
  · have hround : a.toNat / 4096 * 4096 = c.size := by omega
    rw [hround, heq, Nat.mod_self, Nat.zero_div, Nat.zero_mul, Nat.zero_add]
    rcases Nat.lt_or_eq_of_le hsize with hlt | htop
    · rw [Nat.mod_eq_of_lt hlt, Nat.add_mod_left]
    · rw [htop, Nat.mod_self, Nat.zero_add]

theorem readBack_reads (hsize : c.size ≤ 2 ^ 24) (hmult : c.size % 4096 = 0)
    (ha : a.toNat ≤ c.size) {x : Nat} : (readBack c (a / 4096)).reads c.size x ↔
      ∃ k < 4096, (a.toNat % c.size / 4096 * 4096 + k) % c.size = x := by
  rw [readBack, read_reads, List.length_replicate]
  simp only [readBack_start hsize hmult ha]

/-- The cells that are read back are in the sector of the address. -/
theorem sector_of_reads (hsize : c.size ≤ 2 ^ 24) (hmult : c.size % 4096 = 0)
    (ha : a.toNat ≤ c.size) {x : Nat} (hx : (readBack c (a / 4096)).reads c.size x) :
    x / 4096 = a.toNat % c.size / 4096 := by
  obtain ⟨k, hk, rfl⟩ := (readBack_reads hsize hmult ha).1 hx
  rcases Nat.eq_zero_or_pos c.size with hzero | hpos
  · rw [hzero, Nat.mod_zero, Nat.mod_zero]
    omega
  · have hlt : a.toNat % c.size < c.size := Nat.mod_lt _ hpos
    rw [Nat.mod_eq_of_lt (by omega : a.toNat % c.size / 4096 * 4096 + k < c.size)]
    omega

/-- All cells of that sector are read back. -/
theorem reads_of_sector (hsize : c.size ≤ 2 ^ 24) (hmult : c.size % 4096 = 0)
    (ha : a.toNat ≤ c.size) {x : Nat} (hx : x < c.size)
    (hsec : x / 4096 = a.toNat % c.size / 4096) : (readBack c (a / 4096)).reads c.size x := by
  refine (readBack_reads hsize hmult ha).2 ⟨x % 4096, Nat.mod_lt _ (by decide), ?_⟩
  rw [← hsec, Nat.div_add_mod', Nat.mod_eq_of_lt hx]

/-- **A write erases just the sectors in which the range is not blank**, each of them once, and it
touches no sector that the range does not overlap: except that a write of nothing reads the sector
in which it is, all of it. -/
theorem write_wears_dirty_sectors (hbusy : c.busy = 0) (hsize : c.size ≤ 2 ^ 24)
    (hmult : c.size % 4096 = 0) (hfit : a.toNat + n.toNat ≤ c.size) :
    Run (spiFlashWrite buf p a n) (⟨m, ⟨c, none⟩, g⟩ : Mcu (Framed W25x16) γ) fun _ t ↦
      ∃ new, t.dev.chip.log = c.log ++ new ∧
        (∀ sec, c.Dirty a.toNat n.toNat sec → new.countP (·.erases sec) = 1) ∧
        (∀ sec, ¬ c.Dirty a.toNat n.toNat sec → new.countP (·.erases sec) = 0) ∧
        (∀ f ∈ new, ∀ x, f.Changes x → Overlaps a.toNat n.toNat (x / 4096)) ∧
        (∀ f ∈ new, ∀ x, f.reads c.size x → Overlaps a.toNat n.toNat (x / 4096) ∨
          n = 0 ∧ x / 4096 = a.toNat % c.size / 4096) ∧
        (n = 0 → ∃ f ∈ new, ∀ x < c.size, x / 4096 = a.toNat % c.size / 4096 →
            f.reads c.size x) := by
  by_cases hn : n = 0
  · subst hn
    refine (run_write_nothing hbusy (by omega)).mono ?_
    rintro _ t ⟨-, -, _, hdid, fs, rfl, hfs⟩
    have hchanges : ∀ f ∈ readBack c (a / 4096) :: fs, ∀ x, ¬ f.Changes x := by
      intro f hf x hx
      rcases List.mem_cons.1 hf with rfl | hf
      · exact readBack_changes c _ x hx
      · rcases hx with hx | hx
        · rw [(hfs f hf).erases] at hx
          exact absurd hx Bool.false_ne_true
        · have := (hfs f hf).programs x hx
          omega
    refine ⟨_, hdid.log, ?_, ?_, ?_, ?_, fun _ ↦ ⟨_, List.mem_cons_self, ?_⟩⟩
    · rintro sec ⟨x, hx, hx', -⟩
      rw [show (0 : UInt16).toNat = 0 from rfl] at hx'
      omega
    · intro sec _
      rw [List.countP_eq_zero]
      intro f hf herase
      refine hchanges f hf (sec * 4096) (.inl ?_)
      rwa [Nat.mul_div_cancel _ (by decide)]
    · intro f hf x hx
      exact absurd hx (hchanges f hf x)
    · intro f hf x hx
      rcases List.mem_cons.1 hf with rfl | hf
      · exact .inr ⟨rfl, sector_of_reads hsize hmult (by omega) hx⟩
      · rw [(hfs f hf).reads] at hx
        exact absurd hx Bool.false_ne_true
    · exact fun x hx hsec ↦ reads_of_sector hsize hmult (by omega) hx hsec
  · have hpos : n.toNat ≠ 0 := fun h ↦ hn (UInt16.toNat_inj.1 h)
    refine (run_write_tally hbusy hsize hmult hfit hpos).mono ?_
    rintro _ t ⟨-, -, new, hdid, hnew⟩
    exact ⟨new, hdid.log, hnew.dirty, hnew.clean, fun f hf x hx ↦ hnew.within f hf x (.inr hx),
      fun f hf x hx ↦ .inl (hnew.within f hf x (.inl hx)), fun h ↦ absurd h hn⟩

/-- A blank chip of two sectors. -/
def blankChip : W25x16 := ⟨8192, fun _ ↦ 0xFF, false, 0, fun _ ↦ 1, 0, []⟩

theorem write_wears_dirty_sectors_blank :
    Run (spiFlashWrite 0x2000 0 4090 8) (⟨fun _ ↦ 0, ⟨blankChip, none⟩, ()⟩ :
      Mcu (Framed W25x16) Unit) fun _ t ↦
      ∃ new, t.dev.chip.log = blankChip.log ++ new ∧
        (∀ sec, blankChip.Dirty 4090 8 sec → new.countP (·.erases sec) = 1) ∧
        (∀ sec, ¬ blankChip.Dirty 4090 8 sec → new.countP (·.erases sec) = 0) ∧
        (∀ f ∈ new, ∀ x, f.Changes x → Overlaps 4090 8 (x / 4096)) ∧
        (∀ f ∈ new, ∀ x, f.reads 8192 x → Overlaps 4090 8 (x / 4096) ∨
          (8 : UInt16) = 0 ∧ x / 4096 = 4090 % 8192 / 4096) ∧
        ((8 : UInt16) = 0 → ∃ f ∈ new, ∀ x < 8192, x / 4096 = 4090 % 8192 / 4096 →
          f.reads 8192 x) :=
  write_wears_dirty_sectors rfl (by decide) (by decide) (by decide)

/-- A write of nothing reads cells although its range overlaps no sector. -/
theorem write_nothing_reads : ¬ ∀ (m : Nat → UInt8) (c : W25x16) (buf p : Nat) (a : UInt32)
    (n : UInt16), c.busy = 0 → c.size ≤ 2 ^ 24 → c.size % 4096 = 0 → a.toNat + n.toNat ≤ c.size →
    Run (spiFlashWrite buf p a n) (⟨m, ⟨c, none⟩, ()⟩ : Mcu (Framed W25x16) Unit) fun _ t ↦
      ∃ new, t.dev.chip.log = c.log ++ new ∧
        (∀ sec, c.Dirty a.toNat n.toNat sec → new.countP (·.erases sec) = 1) ∧
        (∀ sec, ¬ c.Dirty a.toNat n.toNat sec → new.countP (·.erases sec) = 0) ∧
        ∀ f ∈ new, ∀ x, f.Touches c.size x → Overlaps a.toNat n.toNat (x / 4096) := by
  intro h
  obtain ⟨_, t, ht, new, hlog, -, -, hwithin⟩ :=
    h (fun _ ↦ 0) blankChip 0x2000 0 0 0 rfl (by decide) (by decide) (by decide)
  have hrun : Run (spiFlashWrite 0x2000 0 0 0)
      (⟨fun _ ↦ 0, ⟨blankChip, none⟩, ()⟩ : Mcu (Framed W25x16) Unit) fun _ t ↦
        Since blankChip (Idled blankChip (0 / 4096) 0) t := run_write_nothing rfl (by decide)
  obtain ⟨-, -, _, hdid, fs, rfl, -⟩ := hrun.elim ht
  rw [hdid.log] at hlog
  have hfirst : readBack blankChip 0 ∈ new := by
    rw [← List.append_cancel_left hlog]
    exact List.mem_cons_self
  have hread : (readBack blankChip 0).reads 8192 0 :=
    (read_reads _ _ _ _ _).2 ⟨0, by rw [List.length_replicate]; decide, rfl⟩
  obtain ⟨x, -, hx, -⟩ := hwithin _ hfirst 0 (.inl hread)
  exact absurd hx (by simp)

end Stm32F1.Flash

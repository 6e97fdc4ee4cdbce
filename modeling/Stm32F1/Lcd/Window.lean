import Stm32F1.Lcd.Address

/-!
# The window

`LCD_Set_Window` programs a range of columns and a range of rows, and `LCD_SetCursor` a column and a
row; each of them mirrors and exchanges the axes by itself.  They agree on every controller but for
the landscape of `0X6804`, where only the cursor is mirrored, and the portrait of `0X1963`, where
the cursor is the end of a range that starts at 0.
-/

namespace Stm32F1.Lcd

open Prog

variable {s t : Screen} {d : LcdDev} {dir : UInt8} {x y : UInt16} {f : Family} {p q r : Panel}
  {cmd cmd' : UInt16}

/-! ## `lcd.c` -/

/-- The range of a command with four parameters. -/
def rangeBytes (cmd first last : UInt16) : Prog Screen Unit := do
  lcdWrReg cmd
  lcdWrData (first >>> 8)
  lcdWrData (first &&& 0xFF)
  lcdWrData (last >>> 8)
  lcdWrData (last &&& 0xFF)

/-- The range in four registers. -/
def rangeSplit (cmd first last : UInt16) : Prog Screen Unit := do
  lcdWrReg cmd
  lcdWrData (first >>> 8)
  lcdWrReg (cmd + 1)
  lcdWrData (first &&& 0xFF)
  lcdWrReg (cmd + 2)
  lcdWrData (last >>> 8)
  lcdWrReg (cmd + 3)
  lcdWrData (last &&& 0xFF)

/-- `LCD_Set_Window`. -/
def lcdSetWindow (sx sy width height : UInt16) : Prog Screen Unit := do
  let lcddev ← getDev
  let twidth := sx + width - 1
  let theight := sy + height - 1
  if lcddev.id = 0x9341 ∨ lcddev.id = 0x5310 ∨ lcddev.id = 0x6804 ∨
      (lcddev.dir = 1 ∧ lcddev.id = 0x1963) then do
    rangeBytes lcddev.setxcmd sx twidth
    rangeBytes lcddev.setycmd sy theight
  else if lcddev.id = 0x1963 then do
    let sx := lcddev.width - width - sx
    let height := sy + height - 1
    rangeBytes lcddev.setxcmd sx (sx + width - 1)
    rangeBytes lcddev.setycmd sy height
  else if lcddev.id = 0x5510 then do
    rangeSplit lcddev.setxcmd sx twidth
    rangeSplit lcddev.setycmd sy theight
  else do
    let (hsaval, heaval, vsaval, veaval) :=
      if lcddev.dir = 1 then (sy, theight, lcddev.width - twidth - 1, lcddev.width - sx - 1)
      else (sx, twidth, sy, theight)
    lcdWriteReg 0x50 hsaval
    lcdWriteReg 0x51 heaval
    lcdWriteReg 0x52 vsaval
    lcdWriteReg 0x53 veaval
    lcdSetCursor sx sy

/-! ## The window of the panel -/

namespace Panel

/-- The first address of the window, for the columns or the rows. -/
def first (f : Family) (p : Panel) (cmd : UInt16) : Nat :=
  match f with
  | .bytes => Lcd.word (p.param cmd 0) (p.param cmd 1)
  | .split => Lcd.word (p.param cmd 0) (p.param (cmd + 1) 0)
  | .word => (p.param (if cmd = Family.word.column then 0x50 else 0x52) 0).toNat

/-- The last one. -/
def last (f : Family) (p : Panel) (cmd : UInt16) : Nat :=
  match f with
  | .bytes => Lcd.word (p.param cmd 2) (p.param cmd 3)
  | .split => Lcd.word (p.param (cmd + 2) 0) (p.param (cmd + 3) 0)
  | .word => (p.param (if cmd = Family.word.column then 0x51 else 0x53) 0).toNat

end Panel

/-- The column and the row that `c` was told are in the window that `w` was told. -/
def Inside (f : Family) (c w : Panel) : Prop :=
  ∀ cmd, f.Carries cmd → w.first f cmd ≤ c.address f cmd ∧ c.address f cmd ≤ w.last f cmd

/-- The panel has been told a range: the other one is as before. -/
structure Ranged (f : Family) (cmd : UInt16) (a b : Nat) (p q : Panel) : Prop where
  first : q.first f cmd = a
  last : q.last f cmd = b
  other : ∀ cmd', f.Carries cmd' → cmd' ≠ cmd →
    q.first f cmd' = p.first f cmd' ∧ q.last f cmd' = p.last f cmd'

theorem run_rangeBytes (hf : family s.lcddev.id = .bytes) (h : Family.bytes.Carries cmd)
    (first last : UInt16) :
    Run (rangeBytes cmd first last) s fun _ t ↦ t.lcddev = s.lcddev ∧
      Ranged .bytes cmd first.toNat last.toNat s.panel t.panel := by
  have hne : cmd ≠ Family.bytes.memoryWrite := h.ne_memoryWrite
  simp only [rangeBytes, lcdWrReg, lcdWrData, run_bind, run_modify, hf, true_and]
  constructor
  · simp [Panel.first, Panel.writeData, Panel.writeReg, hne, word_bytes]
  · simp [Panel.last, Panel.writeData, Panel.writeReg, hne, word_bytes]
  · intro cmd' _ hcmd
    simp [Panel.first, Panel.last, Panel.writeData, Panel.writeReg, hne, hcmd]

theorem run_rangeSplit (hf : family s.lcddev.id = .split) (h : Family.split.Carries cmd)
    (first last : UInt16) :
    Run (rangeSplit cmd first last) s fun _ t ↦ t.lcddev = s.lcddev ∧
      Ranged .split cmd first.toNat last.toNat s.panel t.panel := by
  have hne : cmd ≠ Family.split.memoryWrite ∧ cmd + 1 ≠ Family.split.memoryWrite ∧
      cmd + 2 ≠ Family.split.memoryWrite ∧ cmd + 3 ≠ Family.split.memoryWrite := by
    rcases h with rfl | rfl <;> decide
  simp only [rangeSplit, lcdWrReg, lcdWrData, run_bind, run_modify, hf, true_and]
  constructor
  · simp [Panel.first, Panel.writeData, Panel.writeReg, hne, word_bytes]
  · simp [Panel.last, Panel.writeData, Panel.writeReg, hne, word_bytes]
  · intro cmd' hcarries hcmd
    have hzero : cmd' ≠ cmd + 1 ∧ cmd' ≠ cmd + 2 ∧ cmd' ≠ cmd + 3 := by
      rcases h with rfl | rfl <;> rcases hcarries with rfl | rfl <;> revert hcmd <;> decide
    have hone : cmd' + 1 ≠ cmd ∧ cmd' + 1 ≠ cmd + 1 ∧ cmd' + 1 ≠ cmd + 2 ∧ cmd' + 1 ≠ cmd + 3 := by
      rcases h with rfl | rfl <;> rcases hcarries with rfl | rfl <;> revert hcmd <;> decide
    have htwo : cmd' + 2 ≠ cmd ∧ cmd' + 2 ≠ cmd + 1 ∧ cmd' + 2 ≠ cmd + 2 ∧ cmd' + 2 ≠ cmd + 3 := by
      rcases h with rfl | rfl <;> rcases hcarries with rfl | rfl <;> revert hcmd <;> decide
    have hthree : cmd' + 3 ≠ cmd ∧ cmd' + 3 ≠ cmd + 1 ∧ cmd' + 3 ≠ cmd + 2 ∧
        cmd' + 3 ≠ cmd + 3 := by
      rcases h with rfl | rfl <;> rcases hcarries with rfl | rfl <;> revert hcmd <;> decide
    simp [Panel.first, Panel.last, Panel.writeData, Panel.writeReg, hne, hcmd, hzero, hone, htwo,
      hthree]

/-! ## What the two functions program -/

theorem family_ssd {id : UInt16} (h : id = 0x1963) : family id = .bytes := by
  rw [h]
  decide

/-- The range that `LCD_Set_Window` programs for the columns of the driver. -/
def windowX (d : LcdDev) (sx width : UInt16) : UInt16 × UInt16 :=
  if d.id = 0x1963 ∧ d.dir ≠ 1 then
    (d.width - width - sx, d.width - width - sx + width - 1)
  else if family d.id = .word ∧ d.dir = 1 then
    (d.width - (sx + width - 1) - 1, d.width - sx - 1)
  else (sx, sx + width - 1)

/-- The address that `LCD_SetCursor` programs for a column of the driver. -/
def cursorX (d : LcdDev) (x : UInt16) : UInt16 :=
  if d.id = 0x1963 then if d.dir = 0 then 0 else x
  else if d.dir = 1 ∧ (d.id = 0x6804 ∨ family d.id = .word) then d.width - 1 - x else x

/-- The driver is in a state that `LCD_Display_Dir` leaves, on any controller. -/
structure Directed (d : LcdDev) : Prop where
  dir : d.dir = 0 ∨ d.dir = 1
  paired : Paired (family d.id) d.setxcmd d.setycmd
  mirrors : d.id = 0x6804 ∨ family d.id = .word → (d.dir = 1 ↔ d.setxcmd = (family d.id).row)
  laidOut : d.id ≠ 0x1963 → ∃ dir, d = Lcd.laidOut dir d

/-- The panel has been told both ranges. -/
structure Ranges (f : Family) (cx cy : UInt16) (xs ys : UInt16 × UInt16) (w : Panel) : Prop where
  firstX : w.first f cx = xs.1.toNat
  lastX : w.last f cx = xs.2.toNat
  firstY : w.first f cy = ys.1.toNat
  lastY : w.last f cy = ys.2.toNat

theorem Paired.ne (h : Paired f cmd cmd') : cmd ≠ cmd' := by
  rcases h with ⟨rfl, rfl⟩ | ⟨rfl, rfl⟩
  · exact f.column_ne_row
  · exact f.column_ne_row.symm

/-- Columns first, or rows first. -/
theorem Paired.of_row (h : Paired f cmd cmd') (hrow : cmd = f.row) : cmd' = f.column := by
  rcases h with h | h
  · exact absurd (h.1.symm.trans hrow) f.column_ne_row
  · exact h.2

theorem Paired.of_ne_row (h : Paired f cmd cmd') (hrow : cmd ≠ f.row) :
    cmd = f.column ∧ cmd' = f.row := by
  rcases h with h | h
  · exact h
  · exact absurd h.1 hrow

/-- Both ranges, one after the other. -/
theorem Ranged.both {xs ys : UInt16 × UInt16} (h : Ranged f cmd xs.1.toNat xs.2.toNat p q)
    (h' : Ranged f cmd' ys.1.toNat ys.2.toNat q r) (hpaired : Paired f cmd cmd') :
    Ranges f cmd cmd' xs ys r := by
  obtain ⟨hfirst, hlast⟩ := h'.other cmd hpaired.carries.1 hpaired.ne
  exact ⟨hfirst.trans h.first, hlast.trans h.last, h'.first, h'.last⟩

section Ranges

variable {range : UInt16 → UInt16 → UInt16 → Prog Screen Unit}

/-- Two ranges, told in whatever way the family has. -/
theorem run_ranges (hrange : ∀ {s : Screen} {cmd : UInt16}, family s.lcddev.id = f → f.Carries cmd →
      ∀ first last, Run (range cmd first last) s fun _ t ↦ t.lcddev = s.lcddev ∧
        Ranged f cmd first.toNat last.toNat s.panel t.panel)
    (hf : family s.lcddev.id = f) (hpaired : Paired f cmd cmd') (xs ys : UInt16 × UInt16) :
    Run (do
        range cmd xs.1 xs.2
        range cmd' ys.1 ys.2) s fun _ t ↦ t.lcddev = s.lcddev ∧
            Ranges f cmd cmd' xs ys t.panel := by
  refine (hrange hf hpaired.carries.1 _ _).bind ?_
  rintro _ t ⟨hdev, hx⟩
  refine (hrange (hdev ▸ hf) hpaired.carries.2 _ _).mono ?_
  rintro _ u ⟨hdev', hy⟩
  exact ⟨hdev'.trans hdev, hx.both hy hpaired⟩

end Ranges

/-- The cursor of the other controllers is in registers of its own. -/
theorem run_lcdSetCursor_word (h : Directed s.lcddev) (hf : family s.lcddev.id = .word)
    (x y : UInt16) : Run (lcdSetCursor x y) s fun _ t ↦ t.lcddev = s.lcddev ∧
      ∀ cmd, 0x50 ≤ cmd → t.panel.param cmd = s.panel.param cmd := by
  have hid : s.lcddev.id ≠ 0x9341 ∧ s.lcddev.id ≠ 0x5310 ∧ s.lcddev.id ≠ 0x6804 ∧
      s.lcddev.id ≠ 0x1963 ∧ s.lcddev.id ≠ 0x5510 := by
    refine ⟨?_, ?_, ?_, ?_, ?_⟩ <;> intro h <;> rw [h] at hf <;> revert hf <;> decide
  have hfar : ∀ cmd : UInt16, 0x50 ≤ cmd → cmd ≠ s.lcddev.setxcmd ∧ cmd ≠ s.lcddev.setycmd := by
    intro cmd hcmd
    have hpaired := h.paired
    rw [hf] at hpaired
    constructor
    · rintro rfl
      rcases hpaired.carries.1 with hx | hx <;> rw [hx] at hcmd <;> revert hcmd <;> decide
    · rintro rfl
      rcases hpaired.carries.2 with hy | hy <;> rw [hy] at hcmd <;> revert hcmd <;> decide
  simp only [lcdSetCursor, getDev, run_bind, run_read, hid, or_self, if_false, lcdWriteReg,
    lcdWrReg, lcdWrData, run_modify, true_and]
  intro cmd hcmd
  obtain ⟨hx, hy⟩ := hfar cmd hcmd
  simp [param_writeData, hx, hy]

/-- The four registers of the window, and the cursor. -/
theorem run_rangesWord (h : Directed s.lcddev) (hf : family s.lcddev.id = .word)
    (a b c e x y : UInt16) :
    Run (do
        lcdWriteReg 0x50 a
        lcdWriteReg 0x51 b
        lcdWriteReg 0x52 c
        lcdWriteReg 0x53 e
        lcdSetCursor x y) s fun _ t ↦ t.lcddev = s.lcddev ∧
      (t.panel.first .word Family.word.column = a.toNat ∧
        t.panel.last .word Family.word.column = b.toNat) ∧
      t.panel.first .word Family.word.row = c.toNat ∧
      t.panel.last .word Family.word.row = e.toNat := by
  have hrow : Family.word.row ≠ Family.word.column := by decide
  have h50 : (0x50 : UInt16) ≤ 0x50 ∧ (0x50 : UInt16) ≤ 0x51 ∧ (0x50 : UInt16) ≤ 0x52 ∧
      (0x50 : UInt16) ≤ 0x53 := by decide
  have hcursor (u : Screen) (hu : u.lcddev = s.lcddev) :
      Run (lcdSetCursor x y) u fun _ t ↦ t.lcddev = u.lcddev ∧
        ∀ cmd, 0x50 ≤ cmd → t.panel.param cmd = u.panel.param cmd :=
    run_lcdSetCursor_word (hu ▸ h) (hu ▸ hf) x y
  simp only [lcdWriteReg, lcdWrReg, lcdWrData, run_bind, run_modify]
  refine Run.mono (hcursor _ (by rfl)) ?_
  rintro _ t ⟨hdev, hparam⟩
  refine ⟨hdev, ?_⟩
  simp only [Panel.first, Panel.last, if_pos, if_neg hrow, hparam _ h50.1, hparam _ h50.2.1,
    hparam _ h50.2.2.1, hparam _ h50.2.2.2]
  simp [hf, Panel.writeData, Panel.writeReg, Family.memoryWrite]

theorem run_lcdSetWindow (h : Directed s.lcddev) (sx sy width height : UInt16) :
    Run (lcdSetWindow sx sy width height) s fun _ t ↦ t.lcddev = s.lcddev ∧
      Ranges (family s.lcddev.id) s.lcddev.setxcmd s.lcddev.setycmd (windowX s.lcddev sx width)
        (sy, sy + height - 1) t.panel := by
  have hpaired := h.paired
  rw [lcdSetWindow, run_bind, getDev, run_read]
  dsimp only
  by_cases h₁ : s.lcddev.id = 0x9341 ∨ s.lcddev.id = 0x5310 ∨ s.lcddev.id = 0x6804 ∨
      (s.lcddev.dir = 1 ∧ s.lcddev.id = 0x1963)
  · have hf : family s.lcddev.id = .bytes := by
      rcases h₁ with h | h | h | ⟨-, h⟩ <;> rw [h] <;> decide
    have hnot : ¬ (s.lcddev.id = 0x1963 ∧ s.lcddev.dir ≠ 1) := by
      rcases h₁ with h | h | h | ⟨h, -⟩ <;> simp [h]
    rw [hf] at hpaired
    rw [if_pos h₁, windowX, if_neg hnot, hf, if_neg fun h ↦ absurd h.1 (by decide)]
    exact run_ranges run_rangeBytes hf hpaired (sx, sx + width - 1) (sy, sy + height - 1)
  rw [if_neg h₁]
  by_cases h₂ : s.lcddev.id = 0x1963
  · have hf := family_ssd h₂
    have hdir : s.lcddev.dir ≠ 1 := fun hdir ↦ h₁ (.inr (.inr (.inr ⟨hdir, h₂⟩)))
    rw [hf] at hpaired
    rw [if_pos h₂, windowX, if_pos ⟨h₂, hdir⟩, hf]
    exact run_ranges run_rangeBytes hf hpaired (_, _) (sy, sy + height - 1)
  have hnot : ¬ (s.lcddev.id = 0x1963 ∧ s.lcddev.dir ≠ 1) := fun h ↦ h₂ h.1
  rw [if_neg h₂, windowX, if_neg hnot]
  by_cases h₃ : s.lcddev.id = 0x5510
  · have hf : family s.lcddev.id = .split := by
      rw [h₃]
      decide
    have hword : ¬ (Family.split = .word ∧ s.lcddev.dir = 1) := fun h ↦ absurd h.1 (by decide)
    rw [hf] at hpaired
    rw [if_pos h₃, hf, if_neg hword]
    exact run_ranges run_rangeSplit hf hpaired (sx, sx + width - 1) (sy, sy + height - 1)
  · have hf : family s.lcddev.id = .word := by
      rw [not_or, not_or, not_or] at h₁
      exact family_other ⟨h₁.1, h₁.2.2.1, h₁.2.1, h₃, h₂⟩
    rw [if_neg h₃, hf]
    rw [hf] at hpaired
    have hmirrors := h.mirrors (.inr hf)
    rw [hf] at hmirrors
    refine (run_rangesWord h hf _ _ _ _ sx sy).mono ?_
    rintro _ t ⟨hdev, ⟨hcolumn₁, hcolumn₂⟩, hrow₁, hrow₂⟩
    by_cases hdir : s.lcddev.dir = 1
    · have hx : s.lcddev.setxcmd = Family.word.row := hmirrors.1 hdir
      have hy : s.lcddev.setycmd = Family.word.column := hpaired.of_row hx
      rw [if_pos hdir] at hcolumn₁ hcolumn₂ hrow₁ hrow₂
      rw [if_pos ⟨rfl, hdir⟩, hx, hy]
      exact ⟨hdev, hrow₁, hrow₂, hcolumn₁, hcolumn₂⟩
    · have hx : s.lcddev.setxcmd ≠ Family.word.row := fun hx ↦ hdir (hmirrors.2 hx)
      have hpair := hpaired.of_ne_row hx
      rw [if_neg hdir] at hcolumn₁ hcolumn₂ hrow₁ hrow₂
      rw [if_neg fun h ↦ hdir h.2, hpair.1, hpair.2]
      exact ⟨hdev, hcolumn₁, hcolumn₂, hrow₁, hrow₂⟩

/-- The cursor of `0X1963` comes with a range. -/
theorem run_lcdSetCursor_ssd (h : Directed s.lcddev) (hid : s.lcddev.id = 0x1963) (x y : UInt16) :
    Run (lcdSetCursor x y) s fun _ t ↦ t.lcddev = s.lcddev ∧
      Ranges .bytes s.lcddev.setxcmd s.lcddev.setycmd
        (if s.lcddev.dir = 0 then (0, s.lcddev.width - 1 - x) else (x, s.lcddev.width - 1))
        (y, s.lcddev.height - 1) t.panel := by
  have hf := family_ssd hid
  have hpaired := h.paired
  rw [hf] at hpaired
  have hnot : ¬ (s.lcddev.id = 0x9341 ∨ s.lcddev.id = 0x5310) ∧ s.lcddev.id ≠ 0x6804 := by
    rw [hid]
    decide
  have hcolumns : ssdColumns s.lcddev x =
      if s.lcddev.dir = 0 then rangeBytes s.lcddev.setxcmd 0 (s.lcddev.width - 1 - x)
      else rangeBytes s.lcddev.setxcmd x (s.lcddev.width - 1) := by
    have hhigh : (0 : UInt16) >>> 8 = 0 := by decide
    have hlow : (0 : UInt16) &&& 0xFF = 0 := by decide
    unfold ssdColumns rangeBytes
    rw [hhigh, hlow]
  rw [lcdSetCursor, run_bind, getDev, run_read, if_neg hnot.1, if_neg hnot.2, if_pos hid, hcolumns]
  split
  · exact run_ranges run_rangeBytes hf hpaired (0, s.lcddev.width - 1 - x) (y, s.lcddev.height - 1)
  · exact run_ranges run_rangeBytes hf hpaired (x, s.lcddev.width - 1) (y, s.lcddev.height - 1)

/-- **`LCD_SetCursor`**, by the commands of the driver. -/
theorem run_lcdSetCursor_address (h : Directed s.lcddev) (x y : UInt16) :
    Run (lcdSetCursor x y) s fun _ t ↦
      t.panel.address (family s.lcddev.id) s.lcddev.setxcmd = (cursorX s.lcddev x).toNat ∧
      t.panel.address (family s.lcddev.id) s.lcddev.setycmd = y.toNat := by
  by_cases hid : s.lcddev.id = 0x1963
  · have hf := family_ssd hid
    refine (run_lcdSetCursor_ssd h hid x y).mono ?_
    rintro _ t ⟨-, hranges⟩
    rw [hf, cursorX, if_pos hid]
    refine ⟨hranges.firstX.trans ?_, hranges.firstY⟩
    split <;> rfl
  · have horiented : Oriented s := ⟨hid, h.laidOut hid⟩
    have hmirrored : s.lcddev.dir = 1 ∧ (s.lcddev.id = 0x6804 ∨ family s.lcddev.id = .word) ↔
        s.lcddev.setxcmd = (family s.lcddev.id).row := by
      by_cases hdriver : s.lcddev.id = 0x6804 ∨ family s.lcddev.id = .word
      · rw [and_iff_left hdriver]
        exact horiented.mirrors hdriver
      · refine iff_of_false (fun h ↦ hdriver h.2) ?_
        rw [not_or] at hdriver
        exact horiented.straight hdriver.1 hdriver.2
    refine (run_lcdSetCursor horiented x y).mono ?_
    intro _ t ht
    have hplace := ht.place
    rw [cell] at hplace
    rw [cursorX, if_neg hid]
    by_cases hx : s.lcddev.setxcmd = (family s.lcddev.id).row
    · rw [if_pos hx] at hplace
      rw [if_pos (hmirrored.2 hx), hx, h.paired.of_row hx]
      exact ⟨congrArg Prod.snd hplace, congrArg Prod.fst hplace⟩
    · have hpair := h.paired.of_ne_row hx
      rw [if_neg hx] at hplace
      rw [if_neg (fun h ↦ hx (hmirrored.1 h)), hpair.1, hpair.2]
      exact ⟨congrArg Prod.fst hplace, congrArg Prod.snd hplace⟩

/-! ## The law of the window -/

/-- A window that is not empty and on the screen. -/
structure Window (d : LcdDev) (sx sy width height : UInt16) : Prop where
  width_pos : 1 ≤ width.toNat
  height_pos : 1 ≤ height.toNat
  right : sx.toNat + width.toNat ≤ d.width.toNat
  bottom : sy.toNat + height.toNat ≤ d.height.toNat

/-- The point is in the window. -/
def InWindow (sx sy width height x y : UInt16) : Prop :=
  (sx.toNat ≤ x.toNat ∧ x.toNat < sx.toNat + width.toNat) ∧
    sy.toNat ≤ y.toNat ∧ y.toNat < sy.toNat + height.toNat

/-- The points of the window are those whose cursor is in the ranges of the window. -/
def Agrees (s : Screen) (sx sy width height : UInt16) : Prop :=
  Run (lcdSetWindow sx sy width height) s fun _ w ↦ ∀ x y, OnScreen s.lcddev x y →
    Run (lcdSetCursor x y) w fun _ c ↦
      (InWindow sx sy width height x y ↔ Inside (family s.lcddev.id) c.panel w.panel)

/-- In the landscape of `0X6804` the window lies in the middle; in the portrait of `0X1963` it has
all the columns. -/
structure Straight (d : LcdDev) (sx width : UInt16) : Prop where
  rm68042 : d.id = 0x6804 → d.dir = 1 → 2 * sx.toNat + width.toNat = d.width.toNat
  ssd1963 : d.id = 0x1963 → d.dir = 0 → sx.toNat = 0 ∧ width.toNat = d.width.toNat

variable {sx sy width height : UInt16}

/-- The last address of a range. -/
theorem toNat_last {a n : UInt16} (hpos : 1 ≤ n.toNat) (hle : a.toNat + n.toNat < 2 ^ 16) :
    (a + n - 1).toNat = a.toNat + n.toNat - 1 := by
  have hadd : (a + n).toNat = a.toNat + n.toNat := by
    rw [UInt16.toNat_add]
    exact Nat.mod_eq_of_lt hle
  have hone : (1 : UInt16).toNat = 1 := rfl
  have hle : (1 : UInt16) ≤ a + n := by
    rw [UInt16.le_iff_toNat_le, hadd, hone]
    omega
  rw [UInt16.toNat_sub_of_le _ _ hle, hadd, hone]

theorem toNat_sub {a b : UInt16} (h : b.toNat ≤ a.toNat) : (a - b).toNat = a.toNat - b.toNat :=
  UInt16.toNat_sub_of_le _ _ (UInt16.le_iff_toNat_le.2 h)

/-- What the law says of the columns alone. -/
def ColumnsAgree (d : LcdDev) (sx width : UInt16) : Prop :=
  ∀ x : UInt16, x < d.width → (sx.toNat ≤ x.toNat ∧ x.toNat < sx.toNat + width.toNat ↔
    (windowX d sx width).1.toNat ≤ (cursorX d x).toNat ∧
      (cursorX d x).toNat ≤ (windowX d sx width).2.toNat)

/-- Neither function mirrors. -/
theorem columnsAgree_straight (hw : Window d sx sy width height)
    (hwindow : windowX d sx width = (sx, sx + width - 1)) (hcursor : ∀ x, cursorX d x = x) :
    ColumnsAgree d sx width := by
  intro x _
  have hlast := toNat_last hw.width_pos (hw.right.trans_lt d.width.toNat_lt)
  have hpos := hw.width_pos
  rw [hwindow, hcursor]
  dsimp only
  omega

/-- Both functions do. -/
theorem columnsAgree_mirrored (hw : Window d sx sy width height)
    (hwindow : windowX d sx width = (d.width - (sx + width - 1) - 1, d.width - sx - 1))
    (hcursor : ∀ x, cursorX d x = d.width - 1 - x) : ColumnsAgree d sx width := by
  intro x hx
  have hlt : x.toNat < d.width.toNat := UInt16.lt_iff_toNat_lt.1 hx
  have hlast := toNat_last hw.width_pos (hw.right.trans_lt d.width.toNat_lt)
  have hpos := hw.width_pos
  have hright := hw.right
  have hone : (1 : UInt16).toNat = 1 := rfl
  have hfirst : (d.width - (sx + width - 1)).toNat = d.width.toNat - (sx + width - 1).toNat :=
    toNat_sub (by omega)
  have hfirst' : (d.width - (sx + width - 1) - 1).toNat =
      (d.width - (sx + width - 1)).toNat - (1 : UInt16).toNat := toNat_sub (by omega)
  have hend : (d.width - sx).toNat = d.width.toNat - sx.toNat := toNat_sub (by omega)
  have hend' : (d.width - sx - 1).toNat = (d.width - sx).toNat - (1 : UInt16).toNat :=
    toNat_sub (by omega)
  rw [hwindow, hcursor, toNat_mirror hx]
  dsimp only
  omega

/-- Only the cursor does: the window has to be its own mirror image. -/
theorem columnsAgree_symmetric (hw : Window d sx sy width height)
    (hwindow : windowX d sx width = (sx, sx + width - 1))
    (hcursor : ∀ x, cursorX d x = d.width - 1 - x) :
    ColumnsAgree d sx width ↔ 2 * sx.toNat + width.toNat = d.width.toNat := by
  have hlast := toNat_last hw.width_pos (hw.right.trans_lt d.width.toNat_lt)
  have hpos := hw.width_pos
  have hright := hw.right
  constructor
  · intro h
    have hleft : sx < d.width := UInt16.lt_iff_toNat_lt.2 (by omega)
    have hend : sx + width - 1 < d.width := UInt16.lt_iff_toNat_lt.2 (by omega)
    have h₁ := h sx hleft
    have h₂ := h (sx + width - 1) hend
    rw [hwindow, hcursor, toNat_mirror hleft] at h₁
    rw [hwindow, hcursor, toNat_mirror hend] at h₂
    dsimp only at h₁ h₂
    omega
  · intro h x hx
    have hlt : x.toNat < d.width.toNat := UInt16.lt_iff_toNat_lt.1 hx
    rw [hwindow, hcursor, toNat_mirror hx]
    dsimp only
    omega

/-- The cursor's range starts at 0 wherever the point is. -/
theorem columnsAgree_whole (hw : Window d sx sy width height)
    (hwindow : (windowX d sx width).1 = d.width - width - sx) (hcursor : ∀ x, cursorX d x = 0) :
    ColumnsAgree d sx width ↔ sx.toNat = 0 ∧ width.toNat = d.width.toNat := by
  have hpos := hw.width_pos
  have hright := hw.right
  have hzero : (0 : UInt16).toNat = 0 := rfl
  have hsub : (d.width - width).toNat = d.width.toNat - width.toNat := toNat_sub (by omega)
  have hfirst : (d.width - width - sx).toNat = (d.width - width).toNat - sx.toNat :=
    toNat_sub (by omega)
  constructor
  · intro h
    have h₁ := h sx (UInt16.lt_iff_toNat_lt.2 (by omega))
    have h₂ := h 0 (UInt16.lt_iff_toNat_lt.2 (by omega))
    rw [hwindow, hcursor, hfirst, hzero] at h₁ h₂
    omega
  · intro h x hx
    have hlt : x.toNat < d.width.toNat := UInt16.lt_iff_toNat_lt.1 hx
    rw [hwindow, hcursor, hfirst, hzero]
    omega

/-- In the portrait of `0X1963` it is the end of the cursor's range that lies among the columns of
the window, exactly for the points of the window. -/
theorem ssd_end_iff (hid : d.id = 0x1963) (hdir : d.dir = 0) (hw : Window d sx sy width height)
    (hx : x < d.width) : sx.toNat ≤ x.toNat ∧ x.toNat < sx.toNat + width.toNat ↔
      (windowX d sx width).1.toNat ≤ (d.width - 1 - x).toNat ∧
        (d.width - 1 - x).toNat ≤ (windowX d sx width).2.toNat := by
  have hne : d.dir ≠ 1 := by
    rw [hdir]
    decide
  have hlt : x.toNat < d.width.toNat := UInt16.lt_iff_toNat_lt.1 hx
  have hpos := hw.width_pos
  have hright := hw.right
  have hsub : (d.width - width).toNat = d.width.toNat - width.toNat := toNat_sub (by omega)
  have hfirst : (d.width - width - sx).toNat = (d.width - width).toNat - sx.toNat :=
    toNat_sub (by omega)
  have hlast := toNat_last (a := d.width - width - sx) hpos (by have := d.width.toNat_lt; omega)
  rw [windowX, if_pos ⟨hid, hne⟩, toNat_mirror hx]
  dsimp only
  omega

/-- The column of a point against the range of the columns, by the controller and the direction. -/
theorem columnsAgree_iff (hdir : d.dir = 0 ∨ d.dir = 1) (hw : Window d sx sy width height) :
    ColumnsAgree d sx width ↔ Straight d sx width := by
  have h01 : (0 : UInt8) ≠ 1 := by decide
  by_cases hid : d.id = 0x1963
  · have hf : family d.id ≠ .word := by
      rw [family_ssd hid]
      decide
    have h6804 : d.id ≠ 0x6804 := by
      rw [hid]
      decide
    rcases hdir with hdir | hdir
    · have hne : d.dir ≠ 1 := hdir ▸ h01
      have hwindow : (windowX d sx width).1 = d.width - width - sx := by
        rw [windowX, if_pos ⟨hid, hne⟩]
      have hcursor : ∀ x, cursorX d x = 0 := fun x ↦ by rw [cursorX, if_pos hid, if_pos hdir]
      rw [columnsAgree_whole hw hwindow hcursor]
      exact ⟨fun h ↦ ⟨fun h' ↦ absurd h' h6804, fun _ _ ↦ h⟩, fun h ↦ h.ssd1963 hid hdir⟩
    · have hne : d.dir ≠ 0 := hdir ▸ h01.symm
      have hwindow : windowX d sx width = (sx, sx + width - 1) := by
        rw [windowX, if_neg fun h ↦ h.2 hdir, if_neg fun h ↦ hf h.1]
      have hcursor : ∀ x, cursorX d x = x := fun x ↦ by rw [cursorX, if_pos hid, if_neg hne]
      refine iff_of_true (columnsAgree_straight hw hwindow hcursor) ⟨?_, ?_⟩
      · exact fun h ↦ absurd h h6804
      · exact fun _ h ↦ absurd h hne
  · by_cases hmirror : d.dir = 1 ∧ (d.id = 0x6804 ∨ family d.id = .word)
    · have hcursor : ∀ x, cursorX d x = d.width - 1 - x := fun x ↦ by
        rw [cursorX, if_neg hid, if_pos hmirror]
      by_cases hf : family d.id = .word
      · have hwindow : windowX d sx width =
            (d.width - (sx + width - 1) - 1, d.width - sx - 1) := by
          rw [windowX, if_neg fun h ↦ hid h.1, if_pos ⟨hf, hmirror.1⟩]
        refine iff_of_true (columnsAgree_mirrored hw hwindow hcursor) ⟨?_, ?_⟩
        · intro h
          rw [h] at hf
          exact absurd hf (by decide)
        · exact fun h ↦ absurd h hid
      · have h6804 : d.id = 0x6804 := hmirror.2.resolve_right hf
        have hwindow : windowX d sx width = (sx, sx + width - 1) := by
          rw [windowX, if_neg fun h ↦ hid h.1, if_neg fun h ↦ hf h.1]
        rw [columnsAgree_symmetric hw hwindow hcursor]
        exact ⟨fun h ↦ ⟨fun _ _ ↦ h, fun h' ↦ absurd h' hid⟩, fun h ↦ h.rm68042 h6804 hmirror.1⟩
    · have hcursor : ∀ x, cursorX d x = x := fun x ↦ by
        rw [cursorX, if_neg hid, if_neg hmirror]
      have hwindow : windowX d sx width = (sx, sx + width - 1) := by
        rw [windowX, if_neg fun h ↦ hid h.1, if_neg fun h ↦ hmirror ⟨h.2, .inr h.1⟩]
      refine iff_of_true (columnsAgree_straight hw hwindow hcursor) ⟨?_, ?_⟩
      · exact fun h h' ↦ absurd ⟨h', .inl h⟩ hmirror
      · exact fun h ↦ absurd h hid

/-- The commands for columns and rows are those of the driver. -/
theorem inside_iff {c w : Panel} (h : Paired f cmd cmd') : Inside f c w ↔
    (w.first f cmd ≤ c.address f cmd ∧ c.address f cmd ≤ w.last f cmd) ∧
      w.first f cmd' ≤ c.address f cmd' ∧ c.address f cmd' ≤ w.last f cmd' := by
  constructor
  · intro hin
    exact ⟨hin cmd h.carries.1, hin cmd' h.carries.2⟩
  · rintro ⟨hx, hy⟩ cmd'' hcarries
    have hone : cmd'' = cmd ∨ cmd'' = cmd' := by
      rcases h with ⟨rfl, rfl⟩ | ⟨rfl, rfl⟩
      · exact hcarries
      · exact hcarries.symm
    rcases hone with rfl | rfl
    · exact hx
    · exact hy

/-- The rows always agree. -/
theorem rows_iff (hw : Window d sx sy width height) (y : UInt16) :
    sy.toNat ≤ y.toNat ∧ y.toNat < sy.toNat + height.toNat ↔
      sy.toNat ≤ y.toNat ∧ y.toNat ≤ (sy + height - 1).toNat := by
  have hlast := toNat_last hw.height_pos (hw.bottom.trans_lt d.height.toNat_lt)
  have hpos := hw.height_pos
  omega

/-- What a cursor programs, against the ranges of the window. -/
theorem run_lcdSetCursor_inside (h : Directed s.lcddev) (hw : Window s.lcddev sx sy width height)
    {w : Screen} (hdev : w.lcddev = s.lcddev)
    (hranges : Ranges (family s.lcddev.id) s.lcddev.setxcmd s.lcddev.setycmd
      (windowX s.lcddev sx width) (sy, sy + height - 1) w.panel) (x y : UInt16) :
    Run (lcdSetCursor x y) w fun _ c ↦ (Inside (family s.lcddev.id) c.panel w.panel ↔
      ((windowX s.lcddev sx width).1.toNat ≤ (cursorX s.lcddev x).toNat ∧
        (cursorX s.lcddev x).toNat ≤ (windowX s.lcddev sx width).2.toNat) ∧
      sy.toNat ≤ y.toNat ∧ y.toNat < sy.toNat + height.toNat) := by
  refine (run_lcdSetCursor_address (hdev ▸ h) x y).mono ?_
  rintro _ c ⟨hx, hy⟩
  rw [hdev] at hx hy
  rw [inside_iff h.paired, hx, hy, hranges.firstX, hranges.lastX, hranges.firstY, hranges.lastY,
    rows_iff hw]

theorem agrees_iff (h : Directed s.lcddev) (hw : Window s.lcddev sx sy width height) :
    Agrees s sx sy width height ↔ Straight s.lcddev sx width := by
  rw [← columnsAgree_iff h.dir hw]
  obtain ⟨_, w, hrun, hdev, hranges⟩ := run_lcdSetWindow h sx sy width height
  have hcursor := run_lcdSetCursor_inside h hw hdev hranges
  rw [Agrees, run_of_eq hrun]
  constructor
  · intro hagrees x hx
    have hpos := hw.height_pos
    have hbottom := hw.bottom
    have hy : sy < s.lcddev.height := UInt16.lt_iff_toNat_lt.2 (by omega)
    have hrow : sy.toNat ≤ sy.toNat ∧ sy.toNat < sy.toNat + height.toNat := by omega
    obtain ⟨_, c, hc, hinside⟩ := hcursor x sy
    have hiff := (hagrees x sy ⟨hx, hy⟩).elim hc
    rw [hinside, InWindow, and_iff_left hrow, and_iff_left hrow] at hiff
    exact hiff
  · intro hcolumns x y hxy
    refine (hcursor x y).mono ?_
    intro _ c hinside
    rw [hinside, InWindow, hcolumns x hxy.1]

/-! ## After `LCD_Display_Dir` -/

theorem directed_laidOut (hid : d.id ≠ 0x1963) (dir : UInt8) : Directed (laidOut dir d) := by
  have hlaid : laidOut dir d = laidOut dir (laidOut dir d) := rfl
  have horiented : Oriented ⟨laidOut dir d, 0, 0, ⟨0, 0, fun _ _ ↦ 0, fun _ ↦ 0, (0, 0)⟩⟩ :=
    ⟨hid, dir, hlaid⟩
  refine ⟨?_, horiented.paired, horiented.mirrors, fun _ ↦ ⟨dir, hlaid⟩⟩
  by_cases hdir : dir = 0
  · exact .inl (if_pos hdir)
  · exact .inr (if_neg hdir)

/-- `0X1963` has the columns and rows of the memory exchanged in portrait. -/
theorem directed_ssd (hid : d.id = 0x1963) (dir : UInt8) :
    Directed ((if dir = 0 then portrait else landscape) d) := by
  have hblank : (if dir = 0 then portrait else landscape) d =
      if dir = 0 then portrait (blank 0x1963) else landscape (blank 0x1963) := by
    rw [ite_blank, hid]
    split <;> rfl
  rw [hblank]
  split
  · refine ⟨.inl (by decide), .inr ⟨by decide, by decide⟩, ?_, fun h ↦ absurd ?_ h⟩
    · rintro (h | h) <;> revert h <;> decide
    · decide
  · refine ⟨.inr (by decide), .inl ⟨by decide, by decide⟩, ?_, fun h ↦ absurd ?_ h⟩
    · rintro (h | h) <;> revert h <;> decide
    · decide

theorem run_wholeWindow_lcddev : Run wholeWindow s fun _ t ↦ t.lcddev = s.lcddev := by
  simp only [wholeWindow, getDev, run_bind, run_read]
  split <;> simp [lcdWrReg, lcdWrData]

theorem run_lcdDisplayDir_directed (s : Screen) (dir : UInt8) :
    Run (lcdDisplayDir dir) s fun _ t ↦ Directed t.lcddev := by
  by_cases hid : s.lcddev.id = 0x1963
  · have hid' := (id_ite dir s.lcddev).trans hid
    have hresized : ∀ regval, resized regval ((if dir = 0 then portrait else landscape) s.lcddev) =
        (if dir = 0 then portrait else landscape) s.lcddev := fun regval ↦ by
      rw [resized, if_neg fun h ↦ h hid']
    rw [lcdDisplayDir, run_bind, setDev, run_modify, lcdScanDir, run_bind, getDev, run_read]
    dsimp only
    rw [if_pos (.inr (.inr (.inr (.inr hid')))), run_bind, lcdWriteReg]
    simp only [lcdWrReg, lcdWrData, setDev, run_bind, run_modify, hresized]
    refine run_wholeWindow_lcddev.mono ?_
    intro _ t ht
    rw [ht]
    exact directed_ssd hid dir
  · refine (run_lcdDisplayDir hid dir).mono ?_
    rintro _ t ⟨hlaid, -⟩
    rw [hlaid]
    exact directed_laidOut hid dir

/-- **Window and cursor agree** on every controller and in both directions, but for the landscape of
`0X6804` and the portrait of `0X1963`; there the window has to lie in the middle, or to have all the
columns. -/
theorem window_agrees_iff (s : Screen) (dir : UInt8) :
    Run (lcdDisplayDir dir) s fun _ t ↦ ∀ sx sy width height,
      Window t.lcddev sx sy width height →
        (Agrees t sx sy width height ↔ Straight t.lcddev sx width) :=
  (run_lcdDisplayDir_directed s dir).mono fun _ _ h _ _ _ _ hw ↦ agrees_iff h hw

/-- The leftmost column in the landscape of `0X6804`: its cursor is in the last row of the memory,
its window in the first. -/
theorem window_not_mirrored : ¬ ∀ (s : Screen) (dir : UInt8),
    Run (lcdDisplayDir dir) s fun _ t ↦ ∀ sx sy width height,
      Window t.lcddev sx sy width height → Agrees t sx sy width height := by
  intro h
  let s : Screen := ⟨blank 0x6804, 0, 0, ⟨0, 0, fun _ _ ↦ 0, fun _ ↦ 0, (0, 0)⟩⟩
  obtain ⟨_, t, hrun, hagrees⟩ := h s 1
  have hdirected := (run_lcdDisplayDir_directed s 1).elim hrun
  have hlaid : t.lcddev = laidOut 1 (blank 0x6804) :=
    ((run_lcdDisplayDir (by decide : s.lcddev.id ≠ 0x1963) 1).elim hrun).1
  have hw : Window t.lcddev 0 0 1 1 := by
    rw [hlaid]
    constructor <;> decide
  have hmiddle := ((agrees_iff hdirected hw).1 (hagrees 0 0 1 1 hw)).rm68042
  rw [hlaid] at hmiddle
  exact absurd (hmiddle (by decide) (by decide)) (by decide)

end Stm32F1.Lcd

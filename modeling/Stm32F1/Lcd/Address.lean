import Stm32F1.Lcd.Driver

/-!
# Where a point is

`LCD_Display_Dir` leaves the driver in one of few states, and in these
`LCD_SetCursor` and `LCD_Fast_DrawPoint` tell the panel the same place for a
point.  The map from points to places is one-to-one and stays on the panel, the
width being the longer side in landscape, except on `0X6804` in landscape: there
the size that was set for landscape is turned back, since the exchange bit is not
set on this controller.
-/

namespace Stm32F1.Lcd

open Prog

variable {s t : Screen} {d : LcdDev} {dir : UInt8} {x y : UInt16}

/-! ## What `LCD_Display_Dir` leaves behind -/

/-- The columns and rows of a panel, by the id of its controller. -/
def native (id : UInt16) : UInt16 × UInt16 :=
  if id = 0x5510 then (480, 800) else if id = 0x5310 ∨ id = 0x6804 then (320, 480) else (240, 320)

/-- In landscape the controllers that do not exchange columns and rows have it done by the
driver. -/
def Turned (dir : UInt8) (id : UInt16) : Prop := dir ≠ 0 ∧ (id = 0x6804 ∨ family id = .word)

instance (dir : UInt8) (id : UInt16) : Decidable (Turned dir id) :=
  inferInstanceAs (Decidable (_ ∧ _))

/-- `lcddev` after `LCD_Display_Dir`. -/
def laidOut (dir : UInt8) (d : LcdDev) : LcdDev :=
  { id := d.id
    dir := if dir = 0 then 0 else 1
    width := if dir = 0 ∨ d.id = 0x6804 then (native d.id).1 else (native d.id).2
    height := if dir = 0 ∨ d.id = 0x6804 then (native d.id).2 else (native d.id).1
    wramcmd := (family d.id).memoryWrite
    setxcmd := if Turned dir d.id then (family d.id).row else (family d.id).column
    setycmd := if Turned dir d.id then (family d.id).column else (family d.id).row }

/-- The controllers that the map is about. -/
inductive Known : UInt16 → Prop
  | ili9341 : Known 0x9341
  | rm68042 : Known 0x6804
  | nt35310 : Known 0x5310
  | nt35510 : Known 0x5510
  | other {id : UInt16} (h : id ≠ 0x9341 ∧ id ≠ 0x6804 ∧ id ≠ 0x5310 ∧ id ≠ 0x5510 ∧ id ≠ 0x1963) :
      Known id

theorem known_of_ne {id : UInt16} (h : id ≠ 0x1963) : Known id := by
  by_cases h₁ : id = 0x9341
  · exact h₁ ▸ .ili9341
  by_cases h₂ : id = 0x6804
  · exact h₂ ▸ .rm68042
  by_cases h₃ : id = 0x5310
  · exact h₃ ▸ .nt35310
  by_cases h₄ : id = 0x5510
  · exact h₄ ▸ .nt35510
  exact .other ⟨h₁, h₂, h₃, h₄, h⟩

theorem family_other {id : UInt16}
    (h : id ≠ 0x9341 ∧ id ≠ 0x6804 ∧ id ≠ 0x5310 ∧ id ≠ 0x5510 ∧ id ≠ 0x1963) :
    family id = .word := by
  simp [family, h]

/-- What holds of the four ids whose scan direction is in register 0x36 holds of every known one
that is in their families. -/
@[elab_as_elim]
theorem Known.scanning {P : UInt16 → Prop} {id : UInt16} (h : Known id)
    (hfamily : family id ≠ .word)
    (h₁ : P 0x9341) (h₂ : P 0x6804) (h₃ : P 0x5310) (h₄ : P 0x5510) : P id := by
  cases h with
  | ili9341 => exact h₁
  | rm68042 => exact h₂
  | nt35310 => exact h₃
  | nt35510 => exact h₄
  | other h => exact absurd (family_other h) hfamily

/-- What register 0x36 is given. -/
def scanned (dir : UInt8) (d : LcdDev) : UInt16 := scanReg d.id (scanDir d dir)

theorem laidOut_of_ne {dir : UInt8} (h : dir ≠ 0) : laidOut dir d = laidOut 1 d := by
  have h1 : (1 : UInt8) ≠ 0 := by decide
  simp only [laidOut, Turned, h, h1, ne_eq, not_false_eq_true, true_and, false_or, if_false]

/-- `LCD_Display_Dir` looks at nothing but the id. -/
def blank (id : UInt16) : LcdDev := ⟨0, 0, id, 0, 0, 0, 0⟩

theorem portrait_blank (d : LcdDev) : portrait d = portrait (blank d.id) := rfl

theorem landscape_blank (d : LcdDev) : landscape d = landscape (blank d.id) := rfl

theorem laidOut_blank (dir : UInt8) (d : LcdDev) : laidOut dir d = laidOut dir (blank d.id) := rfl

theorem ite_blank (dir : UInt8) (d : LcdDev) : (if dir = 0 then portrait else landscape) d =
    (if dir = 0 then portrait else landscape) (blank d.id) := by
  split
  · exact portrait_blank d
  · exact landscape_blank d

/-- The variables: the sizes that `LCD_Display_Dir` sets, then the exchange in `LCD_Scan_Dir`. -/
theorem resized_eq (h : Known d.id) (dir : UInt8) (hfamily : family d.id ≠ .word) :
    resized (scanned DFT_SCAN_DIR ((if dir = 0 then portrait else landscape) d))
      ((if dir = 0 then portrait else landscape) d) = laidOut dir d := by
  rw [ite_blank, laidOut_blank]
  generalize d.id = id at h hfamily
  by_cases hdir : dir = 0
  · subst hdir
    refine h.scanning hfamily ?_ ?_ ?_ ?_ <;> decide
  · rw [if_neg hdir, laidOut_of_ne hdir]
    refine h.scanning hfamily ?_ ?_ ?_ ?_ <;> decide

/-- The other controllers have no exchange bit. -/
theorem other_eq (hfamily : family d.id = .word) (dir : UInt8) :
    (if dir = 0 then portrait else landscape) d = laidOut dir d := by
  have hid : d.id ≠ 0x9341 ∧ d.id ≠ 0x6804 ∧ d.id ≠ 0x5310 ∧ d.id ≠ 0x5510 ∧ d.id ≠ 0x1963 := by
    refine ⟨?_, ?_, ?_, ?_, ?_⟩ <;> intro h <;> rw [h] at hfamily <;> revert hfamily <;> decide
  by_cases hdir : dir = 0
  · simp [hdir, portrait, laidOut, Turned, native, hid, hfamily, Family.memoryWrite, Family.row,
      Family.column]
  · simp [hdir, landscape, laidOut, Turned, native, hid, hfamily, Family.memoryWrite, Family.row,
      Family.column]

/-- The register with the exchange bit. -/
def scanCommand (id : UInt16) : UInt16 := if id = 0x5510 then 0x3600 else 0x36

/-- The window does not concern the scan direction. -/
theorem run_wholeWindow (h : Known s.lcddev.id) (hfamily : family s.lcddev.id ≠ .word)
    (hlaid : s.lcddev = laidOut dir d) :
    Run wholeWindow s fun _ t ↦ t.lcddev = s.lcddev ∧
      t.panel.param (scanCommand s.lcddev.id) = s.panel.param (scanCommand s.lcddev.id) := by
  have hid : s.lcddev.id = d.id := by
    rw [hlaid]
    rfl
  have hx : s.lcddev.setxcmd = (family d.id).row ∨ s.lcddev.setxcmd = (family d.id).column := by
    rw [hlaid]
    by_cases hturned : Turned dir d.id
    · exact .inl (if_pos hturned)
    · exact .inr (if_neg hturned)
  have hy : s.lcddev.setycmd = (family d.id).column ∨ s.lcddev.setycmd = (family d.id).row := by
    rw [hlaid]
    by_cases hturned : Turned dir d.id
    · exact .inl (if_pos hturned)
    · exact .inr (if_neg hturned)
  have hfar : ∀ cmd, (cmd = (family d.id).row ∨ cmd = (family d.id).column) →
      scanCommand d.id ≠ cmd ∧ scanCommand d.id ≠ cmd + 1 ∧ scanCommand d.id ≠ cmd + 2 ∧
        scanCommand d.id ≠ cmd + 3 := by
    rw [hid] at h hfamily
    generalize d.id = id at h hfamily
    refine h.scanning hfamily ?_ ?_ ?_ ?_ <;> rintro cmd (rfl | rfl) <;> decide
  obtain ⟨hx₀, hx₁, hx₂, hx₃⟩ := hfar _ hx
  obtain ⟨hy₀, hy₁, hy₂, hy₃⟩ := hfar _ hy.symm
  simp only [wholeWindow, getDev, run_bind, run_read, hid]
  split
  · simp [lcdWrReg, lcdWrData, param_writeData, hx₀, hx₁, hx₂, hx₃, hy₀, hy₁, hy₂, hy₃]
  · simp [lcdWrReg, lcdWrData, param_writeData, hx₀, hy₀]

/-- Columns and rows are exchanged in landscape, but not on `0X6804`. -/
theorem scanned_exchange (h : Known d.id) (dir : UInt8) (hfamily : family d.id ≠ .word) :
    (scanned DFT_SCAN_DIR ((if dir = 0 then portrait else landscape) d) &&& 0x20 != 0) =
      decide (dir ≠ 0 ∧ d.id ≠ 0x6804) := by
  rw [ite_blank]
  generalize d.id = id at h hfamily
  by_cases hdir : dir = 0
  · subst hdir
    refine h.scanning hfamily ?_ ?_ ?_ ?_ <;> decide
  · rw [if_neg hdir]
    simp only [hdir, ne_eq, not_false_eq_true, true_and]
    refine h.scanning hfamily ?_ ?_ ?_ ?_ <;> decide

/-- The controllers whose scan direction is in register 0x36. -/
theorem scans_iff (id : UInt16) : (id = 0x9341 ∨ id = 0x6804 ∨ id = 0x5310 ∨ id = 0x5510 ∨
    id = 0x1963) ↔ family id ≠ .word := by
  constructor
  · rintro (rfl | rfl | rfl | rfl | rfl) <;> decide
  · intro h
    by_contra hid
    rw [not_or, not_or, not_or, not_or] at hid
    exact h (family_other ⟨hid.1, hid.2.1, hid.2.2.1, hid.2.2.2.1, hid.2.2.2.2⟩)

theorem id_ite (dir : UInt8) (d : LcdDev) :
    ((if dir = 0 then portrait else landscape) d).id = d.id := by
  split
  · rw [portrait]
    dsimp only
    split_ifs <;> rfl
  · rw [landscape]
    dsimp only
    split_ifs <;> rfl

theorem exchanged_eq (h : Known s.lcddev.id) (hfamily : family s.lcddev.id ≠ .word) (p : Panel) :
    p.exchanged (family s.lcddev.id) =
      (p.param (scanCommand s.lcddev.id) 0 &&& 0x20 != 0) := by
  generalize s.lcddev.id = id at h hfamily ⊢
  exact h.scanning hfamily rfl rfl rfl rfl

/-- `LCD_Scan_Dir` on a controller with register 0x36. -/
theorem run_lcdScanDir (h : Known s.lcddev.id) (hfamily : family s.lcddev.id ≠ .word) (scan : UInt8)
    (hlaid : resized (scanned scan s.lcddev) s.lcddev = laidOut dir d)
    (hid : d.id = s.lcddev.id) :
    Run (lcdScanDir scan) s fun _ t ↦ t.lcddev = laidOut dir d ∧
      t.panel.param (scanCommand s.lcddev.id) 0 = scanned scan s.lcddev := by
  have hcommand : scanCommand s.lcddev.id ≠ (family s.lcddev.id).memoryWrite := by
    generalize s.lcddev.id = id at h hfamily ⊢
    refine h.scanning hfamily ?_ ?_ ?_ ?_ <;> decide
  rw [lcdScanDir, run_bind, getDev, run_read, if_pos ((scans_iff _).2 hfamily), run_bind,
    lcdWriteReg]
  simp only [lcdWrReg, lcdWrData, setDev, run_bind, run_modify]
  have hwindow := run_wholeWindow (s := { s with
      lcddev := laidOut dir d
      panel := (s.panel.writeReg (family s.lcddev.id) (scanCommand s.lcddev.id)).writeData
        (family s.lcddev.id) (scanned scan s.lcddev) }) (hid ▸ h) (hid ▸ hfamily) rfl
  rw [← hlaid] at hwindow
  refine hwindow.mono ?_
  rintro _ t ⟨hdev, hparam⟩
  refine ⟨hdev.trans hlaid, ?_⟩
  rw [hlaid] at hparam
  have hsame : (laidOut dir d).id = s.lcddev.id := hid
  dsimp only at hparam
  rw [hsame] at hparam
  rw [hparam, writeData_of_ne (by rw [index_writeReg]; exact hcommand)]
  simp [Panel.writeReg]

/-- **`LCD_Display_Dir`**: the variables, and the exchange bit. -/
theorem run_lcdDisplayDir (h : s.lcddev.id ≠ 0x1963) (dir : UInt8) :
    Run (lcdDisplayDir dir) s fun _ t ↦ t.lcddev = laidOut dir s.lcddev ∧
      t.panel.exchanged (family s.lcddev.id) =
        decide (dir ≠ 0 ∧ s.lcddev.id ≠ 0x6804 ∧ family s.lcddev.id ≠ .word) := by
  have hknown := known_of_ne h
  have hid := id_ite dir s.lcddev
  rw [lcdDisplayDir, run_bind, setDev, run_modify]
  by_cases hfamily : family s.lcddev.id = .word
  · rw [lcdScanDir, run_bind, getDev, run_read]
    dsimp only
    rw [if_neg fun hs ↦ (scans_iff _).1 hs (hid.symm ▸ hfamily), lcdWriteReg]
    simp only [lcdWrReg, lcdWrData, run_bind, run_modify]
    refine ⟨other_eq hfamily dir, ?_⟩
    rw [hfamily]
    simp [Panel.exchanged]
  · refine (run_lcdScanDir (s := { s with
      lcddev := (if dir = 0 then portrait else landscape) s.lcddev }) (hid.symm ▸ hknown)
      (hid.symm ▸ hfamily) DFT_SCAN_DIR (resized_eq hknown dir hfamily) hid.symm).mono ?_
    rintro _ t ⟨hdev, hparam⟩
    refine ⟨hdev, ?_⟩
    dsimp only at hparam
    rw [hid] at hparam
    rw [exchanged_eq hknown hfamily, hparam, scanned_exchange hknown dir hfamily]
    simp [hfamily]

/-! ## The place of a point -/

/-- The place that the panel is told for a point. -/
def cell (d : LcdDev) (x y : UInt16) : Nat × Nat :=
  if d.setxcmd = (family d.id).row then (y.toNat, (d.width - 1 - x).toNat) else (x.toNat, y.toNat)

/-- The panel has been told a place, and nothing else has happened. -/
structure Aimed (place : Nat × Nat) (s t : Screen) : Prop where
  lcddev : t.lcddev = s.lcddev
  ram : t.panel.ram = s.panel.ram
  place : t.panel.place (family s.lcddev.id) = place

/-- The commands of the driver are those for columns and rows, in one order or the other. -/
def Paired (f : Family) (cx cy : UInt16) : Prop :=
  (cx = f.column ∧ cy = f.row) ∨ (cx = f.row ∧ cy = f.column)

theorem Paired.carries {f : Family} {cx cy : UInt16} (h : Paired f cx cy) :
    f.Carries cx ∧ f.Carries cy := by
  rcases h with ⟨rfl, rfl⟩ | ⟨rfl, rfl⟩
  · exact ⟨.inl rfl, .inr rfl⟩
  · exact ⟨.inr rfl, .inl rfl⟩

variable {cx cy : UInt16}

theorem run_tellBytes (hf : family s.lcddev.id = .bytes) (h : Paired .bytes cx cy) (x y : UInt16) :
    Run (do
        lcdWrReg cx
        lcdWrData (x >>> 8)
        lcdWrData (x &&& 0xFF)
        lcdWrReg cy
        lcdWrData (y >>> 8)
        lcdWrData (y &&& 0xFF)) s fun _ t ↦
      Aimed (if cx = Family.row .bytes then (y.toNat, x.toNat) else (x.toNat, y.toNat)) s t := by
  have hx := told_bytes (p := s.panel) h.carries.1 (x >>> 8) (x &&& 0xFF)
  have hboth := hx.both (told_bytes h.carries.2 (y >>> 8) (y &&& 0xFF)) h
  rw [word_bytes, word_bytes] at hboth
  simp only [lcdWrReg, lcdWrData, run_bind, run_modify, hf]
  exact ⟨rfl, hboth.1, hf ▸ hboth.2⟩

theorem run_tellSplit (hf : family s.lcddev.id = .split) (h : Paired .split cx cy) (x y : UInt16) :
    Run (do
        lcdWrReg cx
        lcdWrData (x >>> 8)
        lcdWrReg (cx + 1)
        lcdWrData (x &&& 0xFF)
        lcdWrReg cy
        lcdWrData (y >>> 8)
        lcdWrReg (cy + 1)
        lcdWrData (y &&& 0xFF)) s fun _ t ↦
      Aimed (if cx = Family.row .split then (y.toNat, x.toNat) else (x.toNat, y.toNat)) s t := by
  have hx := told_split (p := s.panel) h.carries.1 (x >>> 8) (x &&& 0xFF)
  have hboth := hx.both (told_split h.carries.2 (y >>> 8) (y &&& 0xFF)) h
  rw [word_bytes, word_bytes] at hboth
  simp only [lcdWrReg, lcdWrData, run_bind, run_modify, hf]
  exact ⟨rfl, hboth.1, hf ▸ hboth.2⟩

theorem run_tellWord (hf : family s.lcddev.id = .word) (h : Paired .word cx cy) (x y : UInt16) :
    Run (do
        lcdWriteReg cx x
        lcdWriteReg cy y) s fun _ t ↦
      Aimed (if cx = Family.row .word then (y.toNat, x.toNat) else (x.toNat, y.toNat)) s t := by
  have hx := told_word (p := s.panel) h.carries.1 x
  have hboth := hx.both (told_word h.carries.2 y) h
  simp only [lcdWriteReg, lcdWrReg, lcdWrData, run_bind, run_modify, hf]
  exact ⟨rfl, hboth.1, hf ▸ hboth.2⟩

/-- The driver is in a state that `LCD_Display_Dir` leaves. -/
structure Oriented (s : Screen) : Prop where
  id : s.lcddev.id ≠ 0x1963
  laidOut : ∃ dir, s.lcddev = Lcd.laidOut dir s.lcddev

theorem Oriented.paired (h : Oriented s) :
    Paired (family s.lcddev.id) s.lcddev.setxcmd s.lcddev.setycmd := by
  obtain ⟨dir, hlaid⟩ := h.laidOut
  rw [hlaid]
  by_cases hturned : Turned dir s.lcddev.id
  · exact .inr ⟨if_pos hturned, if_pos hturned⟩
  · exact .inl ⟨if_neg hturned, if_neg hturned⟩

/-- The driver counts the columns from the right exactly when it tells them as rows. -/
theorem Oriented.mirrors (h : Oriented s)
    (hid : s.lcddev.id = 0x6804 ∨ family s.lcddev.id = .word) :
    s.lcddev.dir = 1 ↔ s.lcddev.setxcmd = (family s.lcddev.id).row := by
  obtain ⟨dir, hlaid⟩ := h.laidOut
  rw [hlaid]
  by_cases hdir : dir = 0
  · have hturned : ¬ Turned dir s.lcddev.id := fun ht ↦ ht.1 hdir
    have hzero : (Lcd.laidOut dir s.lcddev).dir = 0 := if_pos hdir
    have hcolumn : (Lcd.laidOut dir s.lcddev).setxcmd = (family s.lcddev.id).column :=
      if_neg hturned
    rw [hzero, hcolumn]
    exact iff_of_false (by decide) (family s.lcddev.id).column_ne_row
  · have hturned : Turned dir s.lcddev.id := ⟨hdir, hid⟩
    have hone : (Lcd.laidOut dir s.lcddev).dir = 1 := if_neg hdir
    have hrow : (Lcd.laidOut dir s.lcddev).setxcmd = (family s.lcddev.id).row := if_pos hturned
    exact iff_of_true hone hrow

/-- On the other controllers it never tells them as rows. -/
theorem Oriented.straight (h : Oriented s) (hid : s.lcddev.id ≠ 0x6804)
    (hfamily : family s.lcddev.id ≠ .word) : s.lcddev.setxcmd ≠ (family s.lcddev.id).row := by
  obtain ⟨dir, hlaid⟩ := h.laidOut
  have hturned : ¬ Turned dir s.lcddev.id := fun ht ↦ ht.2.elim hid hfamily
  have hcolumn : (Lcd.laidOut dir s.lcddev).setxcmd = (family s.lcddev.id).column := if_neg hturned
  rw [hlaid]
  intro hrow
  exact (family s.lcddev.id).column_ne_row (hcolumn.symm.trans hrow)

theorem cell_straight (h : d.setxcmd ≠ (family d.id).row) (x y : UInt16) :
    cell d x y =
      if d.setxcmd = (family d.id).row then (y.toNat, x.toNat) else (x.toNat, y.toNat) := by
  rw [cell, if_neg h, if_neg h]

/-- Where the driver counts from the right it does so in both functions. -/
theorem cell_mirrored (h : d.dir = 1 ↔ d.setxcmd = (family d.id).row) (x y : UInt16) :
    cell d x y = if d.setxcmd = (family d.id).row then
      (y.toNat, (if d.dir = 1 then d.width - 1 - x else x).toNat)
    else ((if d.dir = 1 then d.width - 1 - x else x).toNat, y.toNat) := by
  by_cases hrow : d.setxcmd = (family d.id).row
  · rw [cell, if_pos hrow, if_pos hrow, if_pos (h.2 hrow)]
  · rw [cell, if_neg hrow, if_neg hrow, if_neg fun hdir ↦ hrow (h.1 hdir)]

/-- **`LCD_SetCursor`** tells the panel the place of the point. -/
theorem run_lcdSetCursor (h : Oriented s) (x y : UInt16) :
    Run (lcdSetCursor x y) s fun _ t ↦ Aimed (cell s.lcddev x y) s t := by
  have hpaired := h.paired
  rw [lcdSetCursor, run_bind, getDev, run_read]
  by_cases h₁ : s.lcddev.id = 0x9341 ∨ s.lcddev.id = 0x5310
  · have hf : family s.lcddev.id = .bytes := by
      rcases h₁ with h | h <;> rw [h] <;> decide
    have hstraight := h.straight (by rcases h₁ with h | h <;> rw [h] <;> decide)
      (by rw [hf]; decide)
    rw [hf] at hpaired
    rw [if_pos h₁, cell_straight hstraight, hf]
    exact run_tellBytes hf hpaired x y
  rw [if_neg h₁]
  by_cases h₂ : s.lcddev.id = 0x6804
  · have hf : family s.lcddev.id = .bytes := by
      rw [h₂]
      decide
    rw [hf] at hpaired
    rw [if_pos h₂, cell_mirrored (h.mirrors (.inl h₂)), hf]
    exact run_tellBytes hf hpaired _ y
  rw [if_neg h₂, if_neg h.id]
  by_cases h₃ : s.lcddev.id = 0x5510
  · have hf : family s.lcddev.id = .split := by
      rw [h₃]
      decide
    have hstraight := h.straight h₂ (by rw [hf]; decide)
    rw [hf] at hpaired
    rw [if_pos h₃, cell_straight hstraight, hf]
    exact run_tellSplit hf hpaired x y
  · have hf : family s.lcddev.id = .word := by
      rw [not_or] at h₁
      exact family_other ⟨h₁.1, h₂, h₁.2, h₃, h.id⟩
    rw [hf] at hpaired
    rw [if_neg h₃, cell_mirrored (h.mirrors (.inr hf)), hf]
    exact run_tellWord hf hpaired _ y

/-- `LCD_Fast_DrawPoint` tells the panel what `LCD_SetCursor` tells it. -/
theorem fastAddress_eq (h : s.lcddev.id ≠ 0x1963) (x y : UInt16) :
    fastAddress x y s = lcdSetCursor x y s := by
  have hread : getDev s = some (s.lcddev, s) := rfl
  rw [fastAddress, lcdSetCursor, bind_of_eq hread, bind_of_eq hread]
  by_cases h₁ : s.lcddev.id = 0x9341 ∨ s.lcddev.id = 0x5310
  · rw [if_pos h₁, if_pos h₁]
  by_cases h₂ : s.lcddev.id = 0x6804
  · have h₃ : s.lcddev.id ≠ 0x5510 := by
      rw [h₂]
      decide
    simp only [if_neg h₁, if_pos h₂, if_neg h₃, if_neg h]
  by_cases h₃ : s.lcddev.id = 0x5510
  · simp only [if_neg h₁, if_neg h₂, if_pos h₃, if_neg h]
  · simp only [if_neg h₁, if_neg h₂, if_neg h₃, if_neg h]

theorem Oriented.congr (h : Oriented s) (ht : t.lcddev = s.lcddev) : Oriented t :=
  ⟨ht ▸ h.id, ht ▸ h.laidOut⟩

theorem Oriented.wramcmd (h : Oriented s) :
    s.lcddev.wramcmd = (family s.lcddev.id).memoryWrite := by
  obtain ⟨dir, hlaid⟩ := h.laidOut
  rw [hlaid]
  rfl

/-- The memory is open, and the next colour goes to `pos`. -/
structure Open (pos : Nat × Nat) (s t : Screen) : Prop where
  lcddev : t.lcddev = s.lcddev
  ram : t.panel.ram = s.panel.ram
  place : t.panel.place (family s.lcddev.id) = s.panel.place (family s.lcddev.id)
  index : t.panel.index = (family s.lcddev.id).memoryWrite
  pos : t.panel.pos = pos

theorem run_lcdWriteRamPrepare (h : Oriented s) :
    Run lcdWriteRamPrepare s fun _ t ↦ Open (s.panel.place (family s.lcddev.id)) s t := by
  rw [lcdWriteRamPrepare, run_bind, getDev, run_read, h.wramcmd, lcdWrReg, run_modify]
  exact ⟨rfl, rfl, rfl, rfl, pos_writeReg _ _⟩

theorem run_lcdWrData_color {pos : Nat × Nat} (h : Open pos s t) (color : UInt16) :
    Run (lcdWrData color) t fun _ u ↦ u.lcddev = s.lcddev ∧
      u.panel.ram = Function.update t.panel.ram pos color ∧
      u.panel.place (family s.lcddev.id) = s.panel.place (family s.lcddev.id) ∧
      u.panel.index = (family s.lcddev.id).memoryWrite ∧ u.panel.pos = (pos.1 + 1, pos.2) := by
  rw [lcdWrData, run_modify, h.lcddev, writeData_of_eq h.index, ← h.pos]
  exact ⟨rfl, rfl, h.place, h.index, rfl⟩

/-- **`LCD_Fast_DrawPoint`** colours the place of the point. -/
theorem run_lcdFastDrawPoint (h : Oriented s) (x y color : UInt16) :
    Run (lcdFastDrawPoint x y color) s fun _ t ↦ t.lcddev = s.lcddev ∧
      t.panel.place (family s.lcddev.id) = cell s.lcddev x y ∧
      t.panel.ram = Function.update s.panel.ram (cell s.lcddev x y) color := by
  have haddress : Run (fastAddress x y) s fun _ t ↦ Aimed (cell s.lcddev x y) s t := by
    rw [Run, fastAddress_eq h.id]
    exact run_lcdSetCursor h x y
  refine haddress.bind ?_
  rintro _ t ht
  have hplace := ht.place
  rw [← ht.lcddev] at hplace
  refine (run_lcdWriteRamPrepare (h.congr ht.lcddev)).bind ?_
  rintro _ u hu
  rw [hplace] at hu
  refine (run_lcdWrData_color hu color).mono ?_
  rintro _ w ⟨hdev, hram, hw, -, -⟩
  rw [ht.lcddev] at hw hplace
  refine ⟨hdev.trans ht.lcddev, hw.trans hplace, ?_⟩
  rw [hram, hu.ram, ht.ram, ht.lcddev]

/-! ## The map -/

/-- The columns and rows that can be addressed. -/
def counts (s : Screen) : UInt16 × UInt16 :=
  if s.panel.exchanged (family s.lcddev.id) then (native s.lcddev.id).swap else native s.lcddev.id

/-- The point is on the screen. -/
def OnScreen (d : LcdDev) (x y : UInt16) : Prop := x < d.width ∧ y < d.height

/-- What holds after `LCD_Display_Dir (dir)`. -/
structure CoordinateMap (dir : UInt8) (s : Screen) : Prop where
  landscape : s.lcddev.height < s.lcddev.width ↔ dir ≠ 0
  /-- Both functions program one address for a point, on the panel, and no other point has it. -/
  address : ∃ addr : UInt16 → UInt16 → Nat × Nat,
    (∀ x y, OnScreen s.lcddev x y →
      Run (lcdSetCursor x y) s (fun _ t ↦ t.panel.place (family s.lcddev.id) = addr x y) ∧
      (∀ color, Run (lcdFastDrawPoint x y color) s
        fun _ t ↦ t.panel.place (family s.lcddev.id) = addr x y) ∧
      (addr x y).1 < (counts s).1.toNat ∧ (addr x y).2 < (counts s).2.toNat) ∧
    ∀ x y x' y', OnScreen s.lcddev x y → OnScreen s.lcddev x' y' → addr x y = addr x' y' →
      x = x' ∧ y = y'

/-- The law for a controller and a direction. -/
def CoordinateLaw (id : UInt16) (dir : UInt8) : Prop :=
  ∀ s : Screen, s.lcddev.id = id → Run (lcdDisplayDir dir) s fun _ t ↦ CoordinateMap dir t

theorem oriented_of_eq (h : s.lcddev.id ≠ 0x1963) (ht : t.lcddev = laidOut dir s.lcddev) :
    Oriented t := by
  refine ⟨?_, dir, ?_⟩
  · rw [ht]
    exact h
  · rw [ht]
    rfl

/-- Counting from the other side. -/
theorem toNat_mirror {w x : UInt16} (h : x < w) : (w - 1 - x).toNat = w.toNat - 1 - x.toNat := by
  have hx : x.toNat < w.toNat := UInt16.lt_iff_toNat_lt.1 h
  have hone : (1 : UInt16) ≤ w := UInt16.le_iff_toNat_le.2 (by
    have : (1 : UInt16).toNat = 1 := rfl
    omega)
  have hw : (w - 1).toNat = w.toNat - 1 := UInt16.toNat_sub_of_le _ _ hone
  have hle : x ≤ w - 1 := UInt16.le_iff_toNat_le.2 (by omega)
  rw [UInt16.toNat_sub_of_le _ _ hle, hw]

/-- Different points have different places. -/
theorem cell_injective {x' y' : UInt16} (h : OnScreen d x y) (h' : OnScreen d x' y')
    (heq : cell d x y = cell d x' y') : x = x' ∧ y = y' := by
  have hx : x.toNat < d.width.toNat := UInt16.lt_iff_toNat_lt.1 h.1
  have hx' : x'.toNat < d.width.toNat := UInt16.lt_iff_toNat_lt.1 h'.1
  rw [cell, cell] at heq
  split at heq
  · obtain ⟨hy, hrow⟩ := Prod.mk.inj heq
    rw [toNat_mirror h.1, toNat_mirror h'.1] at hrow
    exact ⟨UInt16.toNat_inj.1 (by omega), UInt16.toNat_inj.1 hy⟩
  · obtain ⟨hcolumn, hy⟩ := Prod.mk.inj heq
    exact ⟨UInt16.toNat_inj.1 hcolumn, UInt16.toNat_inj.1 hy⟩

theorem landscape_iff (hexcept : ¬ (d.id = 0x6804 ∧ dir ≠ 0)) :
    (laidOut dir d).height < (laidOut dir d).width ↔ dir ≠ 0 := by
  have hsides : (native d.id).1 < (native d.id).2 := by
    rw [native]
    split_ifs <;> decide
  by_cases hdir : dir = 0
  · have hwidth : (laidOut dir d).width = (native d.id).1 := if_pos (.inl hdir)
    have hheight : (laidOut dir d).height = (native d.id).2 := if_pos (.inl hdir)
    rw [hwidth, hheight]
    exact iff_of_false (UInt16.lt_asymm hsides) (not_not.2 hdir)
  · have hnot : ¬ (dir = 0 ∨ d.id = 0x6804) := by
      rintro (h0 | hid)
      · exact hdir h0
      · exact hexcept ⟨hid, hdir⟩
    have hwidth : (laidOut dir d).width = (native d.id).2 := if_neg hnot
    have hheight : (laidOut dir d).height = (native d.id).1 := if_neg hnot
    rw [hwidth, hheight]
    exact iff_of_true hsides hdir

/-- The place of a point is on the panel. -/
theorem cell_inside (hlaid : t.lcddev = laidOut dir s.lcddev)
    (hexchange : t.panel.exchanged (family s.lcddev.id) =
      decide (dir ≠ 0 ∧ s.lcddev.id ≠ 0x6804 ∧ family s.lcddev.id ≠ .word))
    (hexcept : ¬ (s.lcddev.id = 0x6804 ∧ dir ≠ 0)) (hxy : OnScreen t.lcddev x y) :
    (cell t.lcddev x y).1 < (counts t).1.toNat ∧ (cell t.lcddev x y).2 < (counts t).2.toNat := by
  have hid : t.lcddev.id = s.lcddev.id := by
    rw [hlaid]
    rfl
  have hx : x.toNat < t.lcddev.width.toNat := UInt16.lt_iff_toNat_lt.1 hxy.1
  have hy : y.toNat < t.lcddev.height.toNat := UInt16.lt_iff_toNat_lt.1 hxy.2
  rw [counts, hid, hexchange]
  by_cases hdir : dir = 0
  · have hturned : ¬ Turned dir s.lcddev.id := fun ht ↦ ht.1 hdir
    have hsetx : t.lcddev.setxcmd ≠ (family t.lcddev.id).row := by
      rw [hid, hlaid]
      exact fun h ↦ (family s.lcddev.id).column_ne_row ((if_neg hturned).symm.trans h)
    have hwidth : t.lcddev.width = (native s.lcddev.id).1 := by
      rw [hlaid]
      exact if_pos (.inl hdir)
    have hheight : t.lcddev.height = (native s.lcddev.id).2 := by
      rw [hlaid]
      exact if_pos (.inl hdir)
    rw [cell, if_neg hsetx, decide_eq_false fun h ↦ h.1 hdir]
    rw [hwidth] at hx
    rw [hheight] at hy
    exact ⟨hx, hy⟩
  have h6804 : s.lcddev.id ≠ 0x6804 := fun h ↦ hexcept ⟨h, hdir⟩
  have hnot : ¬ (dir = 0 ∨ s.lcddev.id = 0x6804) := not_or.2 ⟨hdir, h6804⟩
  have hwidth : t.lcddev.width = (native s.lcddev.id).2 := by
    rw [hlaid]
    exact if_neg hnot
  have hheight : t.lcddev.height = (native s.lcddev.id).1 := by
    rw [hlaid]
    exact if_neg hnot
  by_cases hfamily : family s.lcddev.id = .word
  · -- The driver turns the point.
    have hsetx : t.lcddev.setxcmd = (family t.lcddev.id).row := by
      rw [hid, hlaid]
      exact if_pos ⟨hdir, .inr hfamily⟩
    have hrow : (t.lcddev.width - 1 - x).toNat < t.lcddev.width.toNat := by
      rw [toNat_mirror hxy.1]
      omega
    rw [cell, if_pos hsetx, decide_eq_false fun h ↦ h.2.2 hfamily]
    rw [hheight] at hy
    rw [hwidth] at hrow ⊢
    exact ⟨hy, hrow⟩
  · -- The panel does.
    have hturned : ¬ Turned dir s.lcddev.id := fun ht ↦ ht.2.elim h6804 hfamily
    have hsetx : t.lcddev.setxcmd ≠ (family t.lcddev.id).row := by
      rw [hid, hlaid]
      exact fun h ↦ (family s.lcddev.id).column_ne_row ((if_neg hturned).symm.trans h)
    rw [cell, if_neg hsetx, decide_eq_true ⟨hdir, h6804, hfamily⟩]
    rw [hwidth] at hx
    rw [hheight] at hy
    exact ⟨hx, hy⟩

/-- On `0X6804` the sides are exchanged for landscape and exchanged again. -/
theorem not_landscape (hdir : dir ≠ 0) : ¬ CoordinateLaw 0x6804 dir := by
  intro hlaw
  let s : Screen := ⟨⟨0, 0, 0x6804, 0, 0, 0, 0⟩, 0, 0, ⟨0, 0, fun _ _ ↦ 0, fun _ ↦ 0, (0, 0)⟩⟩
  have hid : s.lcddev.id ≠ 0x1963 := by decide
  obtain ⟨_, t, hrun, hmap⟩ := hlaw s rfl
  have hlaid := ((run_lcdDisplayDir hid dir).elim hrun).1
  have hwidth : t.lcddev.width = 320 := by
    rw [hlaid]
    exact if_pos (.inr rfl)
  have hheight : t.lcddev.height = 480 := by
    rw [hlaid]
    exact if_pos (.inr rfl)
  have hlt := hmap.landscape.2 hdir
  rw [hwidth, hheight] at hlt
  exact absurd hlt (by decide)

/-- **The coordinate map** is right on every controller and in both directions, but for the
landscape of `0X6804`. -/
theorem coordinate_map_iff {id : UInt16} (h : id ≠ 0x1963) (dir : UInt8) :
    CoordinateLaw id dir ↔ ¬ (id = 0x6804 ∧ dir ≠ 0) := by
  constructor
  · rintro hlaw ⟨rfl, hdir⟩
    exact not_landscape hdir hlaw
  · rintro hexcept s rfl
    refine (run_lcdDisplayDir h dir).mono ?_
    rintro _ t ⟨hlaid, hexchange⟩
    have horiented := oriented_of_eq h hlaid
    constructor
    · rw [hlaid]
      exact landscape_iff hexcept
    · refine ⟨cell t.lcddev, ?_, ?_⟩
      · intro x y hxy
        refine ⟨?_, ?_, cell_inside hlaid hexchange hexcept hxy⟩
        · exact (run_lcdSetCursor horiented x y).mono fun _ _ hu ↦ hu.place
        · intro color
          exact (run_lcdFastDrawPoint horiented x y color).mono fun _ _ hu ↦ hu.2.1
      · intro x y x' y' hxy hxy' heq
        exact cell_injective hxy hxy' heq

/-- A panel in landscape that exchanges columns and rows itself. -/
theorem coordinate_map_iff_ili9341 : (0x9341 : UInt16) ≠ 0x1963 ∧ CoordinateLaw 0x9341 1 := by
  have hid : (0x9341 : UInt16) ≠ 0x1963 := by decide
  exact ⟨hid, (coordinate_map_iff hid 1).2 fun h ↦ absurd h.1 (by decide)⟩

/-- After `LCD_Display_Dir (1)` a `0X6804` is 320 wide and 480 high. -/
theorem landscape_turned_back : ¬ CoordinateLaw 0x6804 1 ∧
    (laidOut 1 (blank 0x6804)).width = 320 ∧ (laidOut 1 (blank 0x6804)).height = 480 :=
  ⟨not_landscape (by decide), by decide, by decide⟩

end Stm32F1.Lcd

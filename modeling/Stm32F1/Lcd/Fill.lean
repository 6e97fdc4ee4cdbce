import Stm32F1.Lcd.Address

/-!
# Rectangles

`LCD_Fill` and `LCD_Color_Fill` set the cursor once for a row and let the panel
count.  They colour the cells that `LCD_Fast_DrawPoint` would, point by point:
`LCD_Fill` always, also in the landscape of `0X6804`, where it turns the rectangle
round; `LCD_Color_Fill` does not turn it, and there only columns come out right.
-/

namespace Stm32F1.Lcd

open Prog

variable {s t : Screen} {d : LcdDev} {x y : UInt16}

/-! ## Rows -/

/-- A 16-bit counter that is not at its largest value counts on. -/
theorem toNat_add_one {i : UInt16} (h : i.toNat < 65535) : (i + 1).toNat = i.toNat + 1 := by
  rw [UInt16.toNat_add, UInt16.toNat_one]
  exact Nat.mod_eq_of_lt (Nat.succ_lt_succ h)

/-- The `n` cells from `p` on, in its row, have the colours `f`. -/
def paintRow (m : Nat × Nat → UInt16) (p : Nat × Nat) (n : Nat) (f : Nat → UInt16) :
    Nat × Nat → UInt16 :=
  fun q ↦ if q.2 = p.2 ∧ p.1 ≤ q.1 ∧ q.1 < p.1 + n then f (q.1 - p.1) else m q

variable {m : Nat × Nat → UInt16} {p q : Nat × Nat} {n : Nat} {f : Nat → UInt16}

theorem paintRow_zero : paintRow m p 0 f = m := by
  funext q
  exact if_neg fun h ↦ absurd h.2.2 (by omega)

theorem paintRow_succ : paintRow m p (n + 1) f =
    Function.update (paintRow m p n f) (p.1 + n, p.2) (f n) := by
  funext q
  by_cases hq : q = (p.1 + n, p.2)
  · subst hq
    have hin : p.2 = p.2 ∧ p.1 ≤ p.1 + n ∧ p.1 + n < p.1 + (n + 1) := ⟨rfl, by omega, by omega⟩
    rw [Function.update_self, paintRow, if_pos hin, Nat.add_sub_cancel_left]
  · rw [Function.update_of_ne hq]
    have hne : q.2 = p.2 → q.1 ≠ p.1 + n := fun h₂ h₁ ↦ hq (Prod.ext h₁ h₂)
    have hiff : (q.2 = p.2 ∧ p.1 ≤ q.1 ∧ q.1 < p.1 + (n + 1)) ↔
        q.2 = p.2 ∧ p.1 ≤ q.1 ∧ q.1 < p.1 + n := by
      constructor
      · rintro ⟨h₂, hle, hlt⟩
        have := hne h₂
        exact ⟨h₂, hle, by omega⟩
      · rintro ⟨h₂, hle, hlt⟩
        exact ⟨h₂, hle, by omega⟩
    simp only [paintRow, hiff]

/-- Data words go to successive columns. -/
theorem run_wrColors (h : Open p s t) (n : Nat) (f : Nat → UInt16) :
    Run (wrColors n f) t fun _ u ↦ u.lcddev = s.lcddev ∧
      u.panel.ram = paintRow t.panel.ram p n f := by
  refine (run_forRange (fun k u ↦ Open (p.1 + k, p.2) { s with panel := u.panel } u ∧
    u.lcddev = s.lcddev ∧ u.panel.ram = paintRow t.panel.ram p k f) ?_ ?_).mono ?_
  · rintro k u - ⟨hopen, hdev, hram⟩
    refine (run_lcdWrData_color hopen (f k)).mono ?_
    rintro _ w ⟨hdev', hram', -, hindex, hpos⟩
    refine ⟨⟨hdev', rfl, rfl, hindex, hpos⟩, hdev', ?_⟩
    rw [hram', hram, paintRow_succ]
  · exact ⟨⟨h.lcddev, rfl, rfl, h.index, h.pos⟩, h.lcddev, paintRow_zero.symm⟩
  · rintro _ u ⟨-, hdev, hram⟩
    exact ⟨hdev, hram⟩

/-- A row: the cursor, the command, and the colours. -/
theorem run_row (h : Oriented s) (x y : UInt16) (n : Nat) (f : Nat → UInt16) :
    Run (do
        lcdSetCursor x y
        lcdWriteRamPrepare
        wrColors n f) s fun _ t ↦ t.lcddev = s.lcddev ∧
      t.panel.ram = paintRow s.panel.ram (cell s.lcddev x y) n f := by
  refine (run_lcdSetCursor h x y).bind ?_
  rintro _ t ht
  refine (run_lcdWriteRamPrepare (h.congr ht.lcddev)).bind ?_
  rintro _ u hu
  rw [ht.lcddev, ht.place] at hu
  refine (run_wrColors hu n f).mono ?_
  rintro _ w ⟨hdev, hram⟩
  exact ⟨hdev.trans ht.lcddev, by rw [hram, hu.ram, ht.ram]⟩

/-! ## Blocks -/

/-- A block of `w` columns from `c` on and `h` rows from `r` on has the colours `g`. -/
def paintBlock (m : Nat × Nat → UInt16) (c r w h : Nat) (g : Nat → Nat → UInt16) :
    Nat × Nat → UInt16 :=
  fun q ↦ if (c ≤ q.1 ∧ q.1 < c + w) ∧ r ≤ q.2 ∧ q.2 < r + h then g (q.1 - c) (q.2 - r) else m q

variable {c r w h : Nat} {g : Nat → Nat → UInt16}

theorem paintBlock_zero : paintBlock m c r w 0 g = m := by
  funext q
  exact if_neg fun hq ↦ absurd hq.2.2 (by omega)

/-- One more row. -/
theorem paintBlock_succ : paintBlock m c r w (h + 1) g =
    paintRow (paintBlock m c r w h g) (c, r + h) w fun j ↦ g j h := by
  funext q
  simp only [paintRow, paintBlock]
  by_cases hrow : q.2 = r + h
  · have hout : ¬ ((c ≤ q.1 ∧ q.1 < c + w) ∧ r ≤ q.2 ∧ q.2 < r + h) := by omega
    have hsub : q.2 - r = h := by omega
    by_cases hcolumn : c ≤ q.1 ∧ q.1 < c + w
    · rw [if_pos ⟨hcolumn, by omega⟩, if_pos ⟨hrow, hcolumn⟩, hsub]
    · rw [if_neg fun hq ↦ hcolumn hq.1, if_neg fun hq ↦ hcolumn hq.2, if_neg hout]
  · have hiff : (r ≤ q.2 ∧ q.2 < r + (h + 1)) ↔ r ≤ q.2 ∧ q.2 < r + h := by omega
    rw [if_neg (c := q.2 = r + h ∧ _) fun hq ↦ hrow hq.1]
    simp only [hiff]

/-- The rows of `LCD_Fill`, where the driver does not turn the points. -/
theorem run_fillRows (ho : Oriented s) (hstraight : s.lcddev.setxcmd ≠ (family s.lcddev.id).row)
    {sx sy ey xlen color : UInt16} (hle : sy ≤ ey) (hey : ey.toNat < 65535) :
    Run (fillRows sx sy ey xlen color) s fun _ t ↦ t.lcddev = s.lcddev ∧ t.panel.ram =
      paintBlock s.panel.ram sx.toNat sy.toNat xlen.toNat (ey.toNat + 1 - sy.toNat)
        fun _ _ ↦ color := by
  have hle' : sy.toNat ≤ ey.toNat := UInt16.le_iff_toNat_le.1 hle
  refine run_repeatM (fun i t ↦ (sy.toNat ≤ i.toNat ∧ i.toNat ≤ ey.toNat + 1) ∧
      t.lcddev = s.lcddev ∧ t.panel.ram = paintBlock s.panel.ram sx.toNat sy.toNat xlen.toNat
        (i.toNat - sy.toNat) fun _ _ ↦ color)
    (fun i _ ↦ ey.toNat + 1 - i.toNat) ?_ ?_
  · rintro i t ⟨⟨hlo, hhi⟩, hdev, hram⟩
    by_cases hi : i ≤ ey
    · have hi' : i.toNat ≤ ey.toNat := UInt16.le_iff_toNat_le.1 hi
      have hnext : (i + 1).toNat = i.toNat + 1 := toNat_add_one (hi'.trans_lt hey)
      have ho' := ho.congr hdev
      have hcell : cell t.lcddev sx i = (sx.toNat, i.toNat) := by
        rw [hdev]
        exact if_neg hstraight
      have hrow := run_row ho' sx i xlen.toNat fun _ ↦ color
      rw [run_bind] at hrow
      rw [if_pos hi, run_bind]
      refine hrow.mono ?_
      intro _ u hu
      rw [run_bind] at hu ⊢
      refine hu.mono ?_
      intro _ v hv
      refine hv.bind ?_
      rintro _ w ⟨hdev', hram'⟩
      refine run_pure.2 ⟨⟨?_, hdev'.trans hdev, ?_⟩, ?_⟩
      · rw [hnext]
        omega
      · have hstep : (i + 1).toNat - sy.toNat = i.toNat - sy.toNat + 1 := by omega
        have hat : sy.toNat + (i.toNat - sy.toNat) = i.toNat := by omega
        rw [hram', hram, hcell, hstep, paintBlock_succ, hat]
      · rw [hnext]
        omega
    · have hi' : ¬ i.toNat ≤ ey.toNat := fun h ↦ hi (UInt16.le_iff_toNat_le.2 h)
      rw [if_neg hi]
      refine run_pure.2 ⟨hdev, ?_⟩
      have hend : i.toNat - sy.toNat = ey.toNat + 1 - sy.toNat := by omega
      rw [hram, hend]
  · refine ⟨⟨le_rfl, by omega⟩, rfl, ?_⟩
    rw [Nat.sub_self, paintBlock_zero]

/-- The rows of `LCD_Color_Fill`, wherever its rows begin. -/
theorem run_lcdColorFill (ho : Oriented s) {sx sy ex ey : UInt16} {a : Nat → UInt16}
    (I : Nat → (Nat × Nat → UInt16) → Prop) (h0 : I 0 s.panel.ram)
    (hstep : ∀ i m, i < (ey - sy + 1).toNat → I i m →
      I (i + 1) (paintRow m (cell s.lcddev sx (sy + UInt16.ofNat i)) (ex - sx + 1).toNat
        fun j ↦ a (i * (ex - sx + 1).toNat + j))) :
    Run (lcdColorFill sx sy ex ey a) s fun _ t ↦
      t.lcddev = s.lcddev ∧ I (ey - sy + 1).toNat t.panel.ram := by
  refine run_forRange (fun i (t : Screen) ↦ t.lcddev = s.lcddev ∧ I i t.panel.ram) ?_ ⟨rfl, h0⟩
  rintro i t hi ⟨hdev, hI⟩
  refine (run_row (ho.congr hdev) sx (sy + UInt16.ofNat i) (ex - sx + 1).toNat _).mono ?_
  rintro _ u ⟨hdev', hram⟩
  refine ⟨hdev'.trans hdev, ?_⟩
  rw [hram, hdev]
  exact hstep i _ hi hI

/-! ## Rectangles -/

/-- `LCD_Fast_DrawPoint` colours this cell for the point. -/
def DrawsAt (s : Screen) (x y : UInt16) (p : Nat × Nat) : Prop :=
  ∀ color, Run (lcdFastDrawPoint x y color) s fun _ t ↦
    t.panel.ram = Function.update s.panel.ram p color

/-- It colours one cell, the place of the point. -/
theorem drawsAt_iff (ho : Oriented s) : DrawsAt s x y p ↔ p = cell s.lcddev x y := by
  constructor
  · intro h
    by_contra hne
    -- A colour that the cell does not have.
    let color : UInt16 := s.panel.ram p + 1
    obtain ⟨_, t, hrun, hram⟩ := h color
    have hdraw := ((run_lcdFastDrawPoint ho x y color).elim hrun).2.2
    have hp := congrFun (hram.symm.trans hdraw) p
    rw [Function.update_self, Function.update_of_ne hne] at hp
    exact absurd hp (by simp [color])
  · rintro rfl color
    exact (run_lcdFastDrawPoint ho x y color).mono fun _ _ h ↦ h.2.2

/-- The points of a rectangle. -/
structure Rectangle where
  sx : UInt16
  sy : UInt16
  ex : UInt16
  ey : UInt16

/-- A point of the rectangle. -/
structure Rectangle.Has (r : Rectangle) (x y : UInt16) : Prop where
  left : r.sx ≤ x
  right : x ≤ r.ex
  top : r.sy ≤ y
  bottom : y ≤ r.ey

/-- The rectangle is on the screen. -/
structure Rectangle.Fits (r : Rectangle) (d : LcdDev) : Prop where
  columns : r.sx ≤ r.ex
  right : r.ex < d.width
  rows : r.sy ≤ r.ey
  bottom : r.ey < d.height

/-- The program colours exactly the cells of the points of the rectangle, as `color` says, and
leaves `lcddev` as it was. -/
def Paints (p : Prog Screen Unit) (r : Rectangle) (color : UInt16 → UInt16 → UInt16)
    (s : Screen) : Prop :=
  Run p s fun _ t ↦ t.lcddev = s.lcddev ∧
    (∀ x y q, r.Has x y → DrawsAt s x y q → t.panel.ram q = color x y) ∧
    ∀ q, (∀ x y, r.Has x y → ¬ DrawsAt s x y q) → t.panel.ram q = s.panel.ram q

variable {r : Rectangle} {color : UInt16 → UInt16 → UInt16}

/-- A block paints a rectangle when its cells are those of the points. -/
theorem paints_of_block {prog : Prog Screen Unit} (ho : Oriented s) {c b w h : Nat}
    {g : Nat → Nat → UInt16}
    (hrun : Run prog s fun _ t ↦ t.lcddev = s.lcddev ∧
    t.panel.ram = paintBlock s.panel.ram c b w h g)
    (hcover : ∀ x y, r.Has x y → ((c ≤ (cell s.lcddev x y).1 ∧ (cell s.lcddev x y).1 < c + w) ∧
      b ≤ (cell s.lcddev x y).2 ∧ (cell s.lcddev x y).2 < b + h) ∧
      g ((cell s.lcddev x y).1 - c) ((cell s.lcddev x y).2 - b) = color x y)
    (honly : ∀ q : Nat × Nat, (c ≤ q.1 ∧ q.1 < c + w) ∧ b ≤ q.2 ∧ q.2 < b + h →
      ∃ x y, r.Has x y ∧ q = cell s.lcddev x y) :
    Paints prog r color s := by
  refine hrun.mono ?_
  rintro _ t ⟨hdev, hram⟩
  refine ⟨hdev, ?_, ?_⟩
  · intro x y q hxy hdraws
    obtain rfl := (drawsAt_iff ho).1 hdraws
    obtain ⟨hin, hcolor⟩ := hcover x y hxy
    rw [hram, paintBlock, if_pos hin, hcolor]
  · intro q hq
    rw [hram, paintBlock, if_neg]
    intro hin
    obtain ⟨x, y, hxy, hcell⟩ := honly q hin
    exact hq x y hxy ((drawsAt_iff ho).2 hcell)

/-- The length of an interval of words. -/
theorem toNat_length {a b : UInt16} (h : a ≤ b) (hb : b.toNat < 65535) :
    (b - a + 1).toNat = b.toNat - a.toNat + 1 := by
  have hle : a.toNat ≤ b.toNat := UInt16.le_iff_toNat_le.1 h
  have hone : (1 : UInt16).toNat = 1 := rfl
  rw [UInt16.toNat_add, UInt16.toNat_sub_of_le _ _ h, hone]
  exact Nat.mod_eq_of_lt (by omega)

/-- Where the driver does not turn the points, the rectangle is the block of its coordinates. -/
theorem paints_straight {prog : Prog Screen Unit} (ho : Oriented s)
    (hstraight : s.lcddev.setxcmd ≠ (family s.lcddev.id).row) (hfits : r.Fits s.lcddev)
    {g : Nat → Nat → UInt16}
    (hrun : Run prog s fun _ t ↦ t.lcddev = s.lcddev ∧ t.panel.ram = paintBlock s.panel.ram
      r.sx.toNat r.sy.toNat (r.ex.toNat - r.sx.toNat + 1) (r.ey.toNat - r.sy.toNat + 1) g)
    (hcolor : ∀ x y, r.Has x y → g (x.toNat - r.sx.toNat) (y.toNat - r.sy.toNat) = color x y) :
    Paints prog r color s := by
  have hcell (x y : UInt16) : cell s.lcddev x y = (x.toNat, y.toNat) := if_neg hstraight
  have hx : r.sx.toNat ≤ r.ex.toNat := UInt16.le_iff_toNat_le.1 hfits.columns
  have hy : r.sy.toNat ≤ r.ey.toNat := UInt16.le_iff_toNat_le.1 hfits.rows
  refine paints_of_block ho hrun ?_ ?_
  · intro x y hxy
    have hleft : r.sx.toNat ≤ x.toNat := UInt16.le_iff_toNat_le.1 hxy.left
    have hright : x.toNat ≤ r.ex.toNat := UInt16.le_iff_toNat_le.1 hxy.right
    have htop : r.sy.toNat ≤ y.toNat := UInt16.le_iff_toNat_le.1 hxy.top
    have hbottom : y.toNat ≤ r.ey.toNat := UInt16.le_iff_toNat_le.1 hxy.bottom
    rw [hcell]
    exact ⟨⟨⟨hleft, by omega⟩, htop, by omega⟩, hcolor x y hxy⟩
  · rintro ⟨q₁, q₂⟩ ⟨⟨hleft, hright⟩, htop, hbottom⟩
    dsimp only at hleft hright htop hbottom
    have hsize : UInt16.size = 65536 := rfl
    have hex := r.ex.toNat_lt
    have hey := r.ey.toNat_lt
    have h₁ : (UInt16.ofNat q₁).toNat = q₁ := UInt16.toNat_ofNat_of_lt' (by omega)
    have h₂ : (UInt16.ofNat q₂).toNat = q₂ := UInt16.toNat_ofNat_of_lt' (by omega)
    refine ⟨UInt16.ofNat q₁, UInt16.ofNat q₂, ?_, ?_⟩
    · constructor <;> rw [UInt16.le_iff_toNat_le] <;> omega
    · rw [hcell, h₁, h₂]

/-! ## `LCD_Fill` -/

theorem Rectangle.Fits.toNat_ey (h : r.Fits d) : r.ey.toNat < 65535 := by
  have hlt : r.ey.toNat < d.height.toNat := UInt16.lt_iff_toNat_lt.1 h.bottom
  have hheight := d.height.toNat_lt
  omega

theorem Rectangle.Fits.toNat_ex (h : r.Fits d) : r.ex.toNat < 65535 := by
  have hlt : r.ex.toNat < d.width.toNat := UInt16.lt_iff_toNat_lt.1 h.right
  have hwidth := d.width.toNat_lt
  omega

/-- `LCD_Fill` as the source has it, calling itself. -/
theorem lcdFill_recursive (sx sy ex ey color : UInt16) : lcdFill sx sy ex ey color = (do
    let lcddev ← getDev
    if lcddev.id = 0x6804 ∧ lcddev.dir = 1 then do
      setDev fun d ↦ { d with dir := 0, setxcmd := 0x2A, setycmd := 0x2B }
      lcdFill sy (lcddev.width - ex - 1) ey (lcddev.width - sx - 1) color
      setDev fun d ↦ { d with dir := 1, setxcmd := 0x2B, setycmd := 0x2A }
    else fillRows sx sy ey (ex - sx + 1) color) := by
  funext s
  have hread (s : Screen) : getDev s = some (s.lcddev, s) := rfl
  rw [lcdFill, bind_of_eq (hread s), bind_of_eq (hread s)]
  by_cases h : s.lcddev.id = 0x6804 ∧ s.lcddev.dir = 1
  · have hzero : ¬ (0 : UInt8) = 1 := by decide
    rw [if_pos h, if_pos h, setDev, bind_of_eq (modify_apply _ _), bind_of_eq (modify_apply _ _),
      bind_apply, bind_apply, lcdFill, bind_of_eq (hread _), if_neg fun h' ↦ hzero h'.2]
  · rw [if_neg h, if_neg h]

/-- `LCD_Fill` where it does not turn the rectangle. -/
theorem lcdFill_straight (ho : Oriented s)
    (hstraight : s.lcddev.setxcmd ≠ (family s.lcddev.id).row) (hfits : r.Fits s.lcddev)
    (c : UInt16) : Paints (lcdFill r.sx r.sy r.ex r.ey c) r (fun _ _ ↦ c) s := by
  have hnot : ¬ (s.lcddev.id = 0x6804 ∧ s.lcddev.dir = 1) := by
    rintro ⟨hid, hdir⟩
    exact hstraight ((ho.mirrors (.inl hid)).1 hdir)
  have hy : r.sy.toNat ≤ r.ey.toNat := UInt16.le_iff_toNat_le.1 hfits.rows
  have hrows : r.ey.toNat - r.sy.toNat + 1 = r.ey.toNat + 1 - r.sy.toNat := by omega
  refine paints_straight ho hstraight hfits (g := fun _ _ ↦ c) ?_ fun _ _ _ ↦ rfl
  rw [lcdFill, run_bind, getDev, run_read, if_neg hnot, hrows,
    ← toNat_length hfits.columns hfits.toNat_ex]
  exact run_fillRows ho hstraight hfits.rows hfits.toNat_ey

/-- The landscape of `0X6804`. -/
structure Landscape (s : Screen) : Prop where
  oriented : Oriented s
  id : s.lcddev.id = 0x6804
  dir : s.lcddev.dir = 1

theorem Landscape.lcddev (h : Landscape s) : s.lcddev = laidOut 1 (blank 0x6804) := by
  obtain ⟨dir, hlaid⟩ := h.oriented.laidOut
  have hdir : dir ≠ 0 := by
    rintro rfl
    have hzero : s.lcddev.dir = 0 := by
      rw [hlaid]
      rfl
    rw [h.dir] at hzero
    exact absurd hzero (by decide)
  rw [hlaid, laidOut_of_ne hdir, laidOut_blank, h.id]

theorem Landscape.cell (h : Landscape s) (x y : UInt16) :
    cell s.lcddev x y = (y.toNat, (s.lcddev.width - 1 - x).toNat) :=
  if_pos ((h.oriented.mirrors (.inl h.id)).1 h.dir)

/-- There the rectangle is a block with its columns for rows, counted from the other end. -/
theorem Landscape.paints {prog : Prog Screen Unit} (h : Landscape s) (hfits : r.Fits s.lcddev)
    {g : Nat → Nat → UInt16}
    (hrun : Run prog s fun _ t ↦ t.lcddev = s.lcddev ∧ t.panel.ram = paintBlock s.panel.ram
      r.sy.toNat (s.lcddev.width.toNat - 1 - r.ex.toNat) (r.ey.toNat - r.sy.toNat + 1)
      (r.ex.toNat - r.sx.toNat + 1) g)
    (hcolor : ∀ x y, r.Has x y → g (y.toNat - r.sy.toNat) (r.ex.toNat - x.toNat) = color x y) :
    Paints prog r color s := by
  have hcolumns : r.sx.toNat ≤ r.ex.toNat := UInt16.le_iff_toNat_le.1 hfits.columns
  have hright : r.ex.toNat < s.lcddev.width.toNat := UInt16.lt_iff_toNat_lt.1 hfits.right
  have hrows : r.sy.toNat ≤ r.ey.toNat := UInt16.le_iff_toNat_le.1 hfits.rows
  refine paints_of_block h.oriented hrun ?_ ?_
  · intro x y hxy
    have hxl : r.sx.toNat ≤ x.toNat := UInt16.le_iff_toNat_le.1 hxy.left
    have hxr : x.toNat ≤ r.ex.toNat := UInt16.le_iff_toNat_le.1 hxy.right
    have hyt : r.sy.toNat ≤ y.toNat := UInt16.le_iff_toNat_le.1 hxy.top
    have hyb : y.toNat ≤ r.ey.toNat := UInt16.le_iff_toNat_le.1 hxy.bottom
    have hx : x < s.lcddev.width := UInt16.lt_iff_toNat_lt.2 (by omega)
    have hrow : s.lcddev.width.toNat - 1 - x.toNat - (s.lcddev.width.toNat - 1 - r.ex.toNat) =
        r.ex.toNat - x.toNat := by omega
    rw [h.cell, toNat_mirror hx]
    dsimp only
    rw [hrow]
    exact ⟨⟨⟨hyt, by omega⟩, by omega, by omega⟩, hcolor x y hxy⟩
  · rintro ⟨q₁, q₂⟩ ⟨⟨hq, hq'⟩, hlo, hhi⟩
    dsimp only at hq hq' hlo hhi
    have hsize : UInt16.size = 65536 := rfl
    have hwidth := s.lcddev.width.toNat_lt
    have hey := hfits.toNat_ey
    have h₁ : (UInt16.ofNat q₁).toNat = q₁ := UInt16.toNat_ofNat_of_lt' (by omega)
    have h₂ : (UInt16.ofNat (s.lcddev.width.toNat - 1 - q₂)).toNat =
        s.lcddev.width.toNat - 1 - q₂ :=
      UInt16.toNat_ofNat_of_lt' (by omega)
    have hx : UInt16.ofNat (s.lcddev.width.toNat - 1 - q₂) < s.lcddev.width :=
      UInt16.lt_iff_toNat_lt.2 (by omega)
    refine ⟨UInt16.ofNat (s.lcddev.width.toNat - 1 - q₂), UInt16.ofNat q₁, ?_, ?_⟩
    · constructor <;> rw [UInt16.le_iff_toNat_le] <;> omega
    · rw [h.cell, toNat_mirror hx, h₁, h₂]
      exact Prod.ext rfl (by dsimp only; omega)

/-- `LCD_Fill` in the landscape of `0X6804` turns the rectangle round, and fills it in portrait. -/
theorem run_lcdFill_turned (h : Landscape s) (hfits : r.Fits s.lcddev) (c : UInt16) :
    Run (lcdFill r.sx r.sy r.ex r.ey c) s fun _ t ↦ t.lcddev = s.lcddev ∧
      t.panel.ram = paintBlock s.panel.ram r.sy.toNat (s.lcddev.width.toNat - 1 - r.ex.toNat)
        (r.ey.toNat - r.sy.toNat + 1) (r.ex.toNat - r.sx.toNat + 1) fun _ _ ↦ c := by
  have hdev := h.lcddev
  let u : Screen :=
    { s with lcddev := { s.lcddev with dir := 0, setxcmd := 0x2A, setycmd := 0x2B } }
  have hu : u.lcddev = laidOut 0 (blank 0x6804) := by
    have : u.lcddev =
        { laidOut 1 (blank 0x6804) with dir := 0, setxcmd := 0x2A, setycmd := 0x2B } := by
      rw [← hdev]
    rw [this]
    decide
  have hou : Oriented u := by
    refine ⟨?_, 0, ?_⟩
    · rw [hu]
      decide
    · rw [hu]
      decide
  have hstraight : u.lcddev.setxcmd ≠ (family u.lcddev.id).row := by
    rw [hu]
    decide
  have hcolumns : r.sx.toNat ≤ r.ex.toNat := UInt16.le_iff_toNat_le.1 hfits.columns
  have hright : r.ex.toNat < s.lcddev.width.toNat := UInt16.lt_iff_toNat_lt.1 hfits.right
  have hsx : r.sx < s.lcddev.width := UInt16.lt_iff_toNat_lt.2 (by omega)
  -- The rows that are filled are those of the columns asked for.
  have hfirst : (s.lcddev.width - r.ex - 1).toNat = s.lcddev.width.toNat - 1 - r.ex.toNat := by
    rw [sub_right_comm, toNat_mirror hfits.right]
  have hlast : (s.lcddev.width - r.sx - 1).toNat = s.lcddev.width.toNat - 1 - r.sx.toNat := by
    rw [sub_right_comm, toNat_mirror hsx]
  have hwidth := s.lcddev.width.toNat_lt
  have hle : s.lcddev.width - r.ex - 1 ≤ s.lcddev.width - r.sx - 1 := by
    rw [UInt16.le_iff_toNat_le, hfirst, hlast]
    omega
  rw [lcdFill, run_bind, getDev, run_read, if_pos ⟨h.id, h.dir⟩, run_bind, setDev, run_modify]
  refine (run_fillRows hou hstraight hle (by omega)).bind ?_
  rintro _ t ⟨hdev', hram⟩
  rw [setDev, run_modify]
  refine ⟨?_, ?_⟩
  · have hback : { laidOut 0 (blank 0x6804) with dir := 1, setxcmd := 0x2B, setycmd := 0x2A } =
        laidOut 1 (blank 0x6804) := by decide
    rw [hdev', hdev, hu]
    exact hback
  · have hcount : s.lcddev.width.toNat - 1 - r.sx.toNat + 1 -
        (s.lcddev.width.toNat - 1 - r.ex.toNat) = r.ex.toNat - r.sx.toNat + 1 := by omega
    rw [hlast, hfirst, hcount, toNat_length hfits.rows hfits.toNat_ey] at hram
    exact hram

theorem lcdFill_turned (h : Landscape s) (hfits : r.Fits s.lcddev) (c : UInt16) :
    Paints (lcdFill r.sx r.sy r.ex r.ey c) r (fun _ _ ↦ c) s :=
  h.paints hfits (run_lcdFill_turned h hfits c) fun _ _ _ ↦ rfl

/-! ## `LCD_Color_Fill` -/

/-- What `LCD_Color_Fill` shall put where. -/
def picture (r : Rectangle) (a : Nat → UInt16) (x y : UInt16) : UInt16 :=
  a ((y.toNat - r.sy.toNat) * (r.ex.toNat - r.sx.toNat + 1) + (x.toNat - r.sx.toNat))

/-- The `i`-th row of a rectangle. -/
theorem toNat_row (hfits : r.Fits d) {i : Nat} (hi : i < (r.ey - r.sy + 1).toNat) :
    (r.sy + UInt16.ofNat i).toNat = r.sy.toNat + i := by
  have hsize : UInt16.size = 65536 := rfl
  have hey := hfits.toNat_ey
  have hrows : r.sy.toNat ≤ r.ey.toNat := UInt16.le_iff_toNat_le.1 hfits.rows
  rw [toNat_length hfits.rows hey] at hi
  rw [UInt16.toNat_add, UInt16.toNat_ofNat_of_lt' (by omega)]
  exact Nat.mod_eq_of_lt (by omega)

/-- `LCD_Color_Fill` where the driver does not turn the points. -/
theorem lcdColorFill_straight (ho : Oriented s)
    (hstraight : s.lcddev.setxcmd ≠ (family s.lcddev.id).row) (hfits : r.Fits s.lcddev)
    (a : Nat → UInt16) : Paints (lcdColorFill r.sx r.sy r.ex r.ey a) r (picture r a) s := by
  refine paints_straight ho hstraight hfits
    (g := fun j i ↦ a (i * (r.ex.toNat - r.sx.toNat + 1) + j)) ?_ fun _ _ _ ↦ rfl
  rw [← toNat_length hfits.rows hfits.toNat_ey, ← toNat_length hfits.columns hfits.toNat_ex]
  refine run_lcdColorFill ho (fun i m ↦ m = paintBlock s.panel.ram r.sx.toNat r.sy.toNat
    (r.ex - r.sx + 1).toNat i _) paintBlock_zero.symm ?_
  rintro i m hi rfl
  have hcell : cell s.lcddev r.sx (r.sy + UInt16.ofNat i) = (r.sx.toNat, r.sy.toNat + i) := by
    rw [← toNat_row hfits hi]
    exact if_neg hstraight
  rw [hcell, paintBlock_succ]

/-- One more column. -/
theorem paintBlock_column {m : Nat × Nat → UInt16} {c b w : Nat} {g : Nat → Nat → UInt16} :
    paintRow (paintBlock m c b w 1 g) (c + w, b) 1 (fun j ↦ g (w + j) 0) =
      paintBlock m c b (w + 1) 1 g := by
  funext q
  simp only [paintRow, paintBlock]
  by_cases hrow : b ≤ q.2 ∧ q.2 < b + 1
  · have heq : q.2 = b := by omega
    have hsub : q.2 - b = 0 := by omega
    by_cases hlast : q.1 = c + w
    · have hnew : q.1 - c = w + (q.1 - (c + w)) := by omega
      rw [if_pos ⟨heq, by omega⟩, if_pos ⟨by omega, hrow⟩, hsub, hnew]
    · have hout : ¬ (q.2 = b ∧ c + w ≤ q.1 ∧ q.1 < c + w + 1) := by omega
      have hiff : (c ≤ q.1 ∧ q.1 < c + (w + 1)) ↔ c ≤ q.1 ∧ q.1 < c + w := by omega
      rw [if_neg hout]
      simp only [hiff]
  · have hout : ¬ (q.2 = b ∧ c + w ≤ q.1 ∧ q.1 < c + w + 1) := by omega
    rw [if_neg hout, if_neg fun hq ↦ hrow hq.2, if_neg fun hq ↦ hrow hq.2]

theorem Landscape.cell_row (h : Landscape s) (hfits : r.Fits s.lcddev) {i : Nat}
    (hi : i < (r.ey - r.sy + 1).toNat) : Lcd.cell s.lcddev r.sx (r.sy + UInt16.ofNat i) =
      (r.sy.toNat + i, (s.lcddev.width - 1 - r.sx).toNat) := by
  rw [h.cell, toNat_row hfits hi]

/-- `LCD_Color_Fill` of one column in the landscape of `0X6804`. -/
theorem lcdColorFill_column (h : Landscape s) (hfits : r.Fits s.lcddev) (hone : r.sx = r.ex)
    (a : Nat → UInt16) : Paints (lcdColorFill r.sx r.sy r.ex r.ey a) r (picture r a) s := by
  have hwidth : (r.ex - r.sx + 1).toNat = 1 := by
    rw [toNat_length hfits.columns hfits.toNat_ex, hone, Nat.sub_self]
  have hsx : r.sx < s.lcddev.width := hone ▸ hfits.right
  refine h.paints hfits (g := fun j _ ↦ a j) ?_ ?_
  · rw [← toNat_length hfits.rows hfits.toNat_ey,
      ← toNat_length hfits.columns hfits.toNat_ex, hwidth, ← hone, ← toNat_mirror hsx]
    rw [← hone] at hwidth
    refine run_lcdColorFill h.oriented (fun i m ↦ m = paintBlock s.panel.ram r.sy.toNat
      (s.lcddev.width - 1 - r.sx).toNat i 1 fun j _ ↦ a j) ?_ ?_
    · funext q
      exact (if_neg fun hq ↦ absurd hq.1.2 (by omega)).symm
    · rintro i m hi rfl
      rw [h.cell_row hfits hi, hwidth, ← paintBlock_column]
      simp only [Nat.mul_one]
  · intro x y hxy
    have hx : x.toNat = r.sx.toNat := by
      have hle : x ≤ r.sx := hone ▸ hxy.right
      rw [UInt16.le_antisymm hle hxy.left]
    rw [picture, hx, hone, Nat.sub_self, Nat.zero_add, Nat.mul_one, Nat.add_zero]

/-- Of more columns the first one only is coloured at all. -/
theorem not_lcdColorFill (h : Landscape s) (hfits : r.Fits s.lcddev) (hmore : r.sx < r.ex)
    (hblack : ∀ q, s.panel.ram q = 0) :
    ¬ Paints (lcdColorFill r.sx r.sy r.ex r.ey fun _ ↦ 1) r (picture r fun _ ↦ 1) s := by
  intro hpaints
  have hsx : r.sx < s.lcddev.width := UInt16.lt_trans hmore hfits.right
  obtain ⟨_, t, hrun, -, hpicture, -⟩ := hpaints
  have hrows : Run (lcdColorFill r.sx r.sy r.ex r.ey fun _ ↦ 1) s fun _ t ↦ t.lcddev = s.lcddev ∧
      ∀ q : Nat × Nat, q.2 ≠ (s.lcddev.width - 1 - r.sx).toNat → t.panel.ram q = 0 := by
    refine run_lcdColorFill h.oriented
      (fun _ m ↦ ∀ q : Nat × Nat, q.2 ≠ (s.lcddev.width - 1 - r.sx).toNat → m q = 0)
      (fun q _ ↦ hblack q) ?_
    intro i m hi hm q hq
    rw [h.cell_row hfits hi, paintRow, if_neg fun hin ↦ hq hin.1]
    exact hm q hq
  have hother := hrows.elim hrun
  -- The top right corner is in another row of the panel.
  have hcorner := hpicture r.ex r.sy _ ⟨hfits.columns, UInt16.le_refl _, UInt16.le_refl _,
    hfits.rows⟩ ((drawsAt_iff h.oriented).2 rfl)
  have hlt : r.sx.toNat < r.ex.toNat := UInt16.lt_iff_toNat_lt.1 hmore
  have hright : r.ex.toNat < s.lcddev.width.toNat := UInt16.lt_iff_toNat_lt.1 hfits.right
  have hzero := hother.2 (cell s.lcddev r.ex r.sy) (by
    rw [h.cell, toNat_mirror hfits.right, toNat_mirror hsx]
    dsimp only
    omega)
  rw [hzero] at hcorner
  have hblank : (0 : UInt16) = 1 := hcorner
  exact absurd hblank (by decide)

/-! ## Both fills -/

/-- The controllers that the fills are about. -/
def Listed (id : UInt16) : Prop := id = 0x9341 ∨ id = 0x5310 ∨ id = 0x5510 ∨ id = 0x6804

/-- After `LCD_Display_Dir (dir)` and whatever was shown since, both fills of the rectangle do what
drawing its points does, when it is on the screen. -/
def FillLaw (id : UInt16) (dir : UInt8) (r : Rectangle) : Prop :=
  ∀ s : Screen, s.lcddev.id = id → Run (lcdDisplayDir dir) s fun _ t ↦
    r.Fits t.lcddev → ∀ panel c a,
      Paints (lcdFill r.sx r.sy r.ex r.ey c) r (fun _ _ ↦ c) { t with panel := panel } ∧
      Paints (lcdColorFill r.sx r.sy r.ex r.ey a) r (picture r a) { t with panel := panel }

theorem Listed.ne {id : UInt16} (h : Listed id) : id ≠ 0x1963 ∧ family id ≠ .word := by
  rcases h with rfl | rfl | rfl | rfl <;> exact ⟨by decide, by decide⟩

theorem landscape_of_eq (hid : s.lcddev.id = 0x6804) {dir : UInt8} (hdir : dir ≠ 0)
    (hlaid : t.lcddev = laidOut dir s.lcddev) : Landscape t := by
  have hne : s.lcddev.id ≠ 0x1963 := by
    rw [hid]
    decide
  refine ⟨oriented_of_eq hne hlaid, ?_, ?_⟩
  · rw [hlaid]
    exact hid
  · rw [hlaid]
    exact if_neg hdir

/-- In the landscape of `0X6804`, `LCD_Color_Fill` fails on a rectangle of more than one column. -/
theorem not_fillLaw {dir : UInt8} (hdir : dir ≠ 0) (hmore : r.sx < r.ex)
    (hfits : r.Fits (laidOut dir (blank 0x6804))) : ¬ FillLaw 0x6804 dir r := by
  intro hlaw
  let s : Screen := ⟨blank 0x6804, 0, 0, ⟨0, 0, fun _ _ ↦ 0, fun _ ↦ 0, (0, 0)⟩⟩
  have hne : s.lcddev.id ≠ 0x1963 := by decide
  obtain ⟨_, t, hrun, hfill⟩ := hlaw s rfl
  have hlaid := ((run_lcdDisplayDir hne dir).elim hrun).1
  have hfits' : r.Fits t.lcddev := by
    rw [hlaid]
    exact hfits
  have hland : Landscape { t with panel := s.panel } := landscape_of_eq rfl hdir hlaid
  exact not_lcdColorFill hland hfits' hmore (fun _ ↦ rfl) (hfill hfits' s.panel 0 fun _ ↦ 1).2

/-- **The fills agree with drawing points**, but for `LCD_Color_Fill` of more than one column in the
landscape of `0X6804`. -/
theorem fills_agree_iff {id : UInt16} (hid : Listed id) (dir : UInt8) (r : Rectangle) :
    FillLaw id dir r ↔
    ¬ (id = 0x6804 ∧ dir ≠ 0 ∧ r.sx < r.ex ∧ r.Fits (laidOut dir (blank id))) := by
  obtain ⟨hne, hfamily⟩ := hid.ne
  constructor
  · rintro hlaw ⟨rfl, hdir, hmore, hfits⟩
    exact not_fillLaw hdir hmore hfits hlaw
  · rintro hexcept s rfl
    refine (run_lcdDisplayDir hne dir).mono ?_
    rintro _ t ⟨hlaid, -⟩ hfits panel c a
    have ho : Oriented { t with panel := panel } := oriented_of_eq hne hlaid
    by_cases hland : s.lcddev.id = 0x6804 ∧ dir ≠ 0
    · have hl : Landscape { t with panel := panel } := landscape_of_eq hland.1 hland.2 hlaid
      have hone : r.sx = r.ex := by
        by_contra h
        have hmore : r.sx < r.ex := UInt16.lt_of_le_of_ne hfits.columns h
        rw [hlaid] at hfits
        exact hexcept ⟨hland.1, hland.2, hmore, hfits⟩
      exact ⟨lcdFill_turned hl hfits c, lcdColorFill_column hl hfits hone a⟩
    · have hturned : ¬ Turned dir s.lcddev.id := by
        rintro ⟨hdir, h | h⟩
        · exact hland ⟨h, hdir⟩
        · exact hfamily h
      have hstraight : t.lcddev.setxcmd ≠ (family t.lcddev.id).row := by
        rw [hlaid]
        exact fun h ↦ (family s.lcddev.id).column_ne_row ((if_neg hturned).symm.trans h)
      exact ⟨lcdFill_straight ho hstraight hfits c, lcdColorFill_straight ho hstraight hfits a⟩

/-- The whole landscape screen of `0X9341`. -/
theorem fills_agree_iff_ili9341 :
    Listed 0x9341 ∧ (FillLaw 0x9341 1 ⟨0, 0, 319, 239⟩ ↔
      ¬ ((0x9341 : UInt16) = 0x6804 ∧ (1 : UInt8) ≠ 0 ∧ (0 : UInt16) < 319 ∧
        Rectangle.Fits ⟨0, 0, 319, 239⟩ (laidOut 1 (blank 0x9341)))) :=
  ⟨.inl rfl, fills_agree_iff (.inl rfl) 1 ⟨0, 0, 319, 239⟩⟩

/-- Two points side by side in the landscape of `0X6804`. -/
theorem color_fill_not_turned : ¬ FillLaw 0x6804 1 ⟨0, 0, 1, 0⟩ := by
  refine not_fillLaw (by decide) (by decide) ?_
  constructor
  · decide
  · decide
  · decide
  · decide

end Stm32F1.Lcd

import Stm32F1.Lib.Script
import Stm32F1.Lcd.Driver

/-!
# Characters on the LCD

`LCD_ShowChar` draws a character column by column, from the bits of a font table.  Two tests on the
way return when the next dot is off the screen; the one for the rows comes before the step to the
next column.
-/

namespace Stm32F1.Lcd

open Prog

variable {σ : Type}

/-! ## `lcd.c` -/

/-- The arguments of `LCD_Fast_DrawPoint`. -/
structure Dot where
  x : UInt16
  y : UInt16
  color : UInt16
deriving DecidableEq

/-- The font tables, by character and byte. -/
structure Fonts where
  asc2_1206 : UInt8 → Nat → UInt8
  asc2_1608 : UInt8 → Nat → UInt8
  asc2_2412 : UInt8 → Nat → UInt8

/-- What `LCD_ShowChar` reads: `lcddev`, the colours and the tables. -/
structure Pen where
  lcddev : LcdDev
  pointColor : UInt16
  backColor : UInt16
  fonts : Fonts

/-- Byte `t` of a character, of the sizes that there is a table for. -/
def fontByte (fonts : Fonts) (size num : UInt8) (t : Nat) : Option UInt8 :=
  if size = 12 then some (fonts.asc2_1206 num t)
  else if size = 16 then some (fonts.asc2_1608 num t)
  else if size = 24 then some (fonts.asc2_2412 num t)
  else none

/-- The dot of the highest bit; a bit that is not set is left out unless the mode is 0. -/
def showBit (pen : Pen) (lcdFastDrawPoint : Dot → Prog σ Unit) (mode temp : UInt8) (x y : UInt16) :
    Prog σ Unit :=
  if temp &&& 0x80 ≠ 0 then lcdFastDrawPoint ⟨x, y, pen.pointColor⟩
  else if mode = 0 then lcdFastDrawPoint ⟨x, y, pen.backColor⟩
  else pure ()

/-- The inner loop, with `n` bits to go: where the next byte starts, unless the function returns. -/
def showBits (pen : Pen) (lcdFastDrawPoint : Dot → Prog σ Unit) (y0 : UInt16) (size mode : UInt8) :
    (n : Nat) → (temp : UInt8) → (x y : UInt16) → Prog σ (Option (UInt16 × UInt16))
  | 0, _, x, y => pure (some (x, y))
  | n + 1, temp, x, y => do
      showBit pen lcdFastDrawPoint mode temp x y
      let temp := temp <<< 1
      let y := y + 1
      if pen.lcddev.height ≤ y then pure none
      else if (y.toNat : Int) - y0.toNat = size.toNat then
        let x := x + 1
        if pen.lcddev.width ≤ x then pure none else pure (some (x, y0))
      else showBits pen lcdFastDrawPoint y0 size mode n temp x y

/-- The outer loop, with `n` bytes to go. -/
def showBytes (pen : Pen) (lcdFastDrawPoint : Dot → Prog σ Unit) (y0 : UInt16)
    (num size mode : UInt8) : (n t : Nat) → (x y : UInt16) → Prog σ Unit
  | 0, _, _, _ => pure ()
  | n + 1, t, x, y =>
      match fontByte pen.fonts size num t with
      | none => pure ()
      | some temp => do
          match ← showBits pen lcdFastDrawPoint y0 size mode 8 temp x y with
          | none => pure ()
          | some (x, y) => showBytes pen lcdFastDrawPoint y0 num size mode n (t + 1) x y

/-- The bytes of a character. -/
def csize (size : UInt8) : UInt8 :=
  (size / 8 + if size % 8 ≠ 0 then 1 else 0) * (size / 2)

/-- `LCD_ShowChar`. -/
def lcdShowChar (pen : Pen) (lcdFastDrawPoint : Dot → Prog σ Unit) (x y : UInt16)
    (num size mode : UInt8) : Prog σ Unit :=
  showBytes pen lcdFastDrawPoint y (num - 32) size mode (csize size).toNat 0 x y

/-! ## The box of a character -/

/-- The bytes of a column. -/
def columnBytes (size : Nat) : Nat := (size + 7) / 8

/-- Bit `r` of column `c` in the table of the size. -/
def fontBit (fonts : Fonts) (size num : UInt8) (c r : Nat) : Bool :=
  ((fontByte fonts size num (c * columnBytes size.toNat + r / 8)).getD 0).toNat.testBit (7 - r % 8)

/-- The dot of row `r` in column `c`. -/
def cellDot (pen : Pen) (x y : UInt16) (num size : UInt8) (c r : Nat) : Dot :=
  ⟨x + UInt16.ofNat c, y + UInt16.ofNat r,
    if fontBit pen.fonts size (num - 32) c r then pen.pointColor else pen.backColor⟩

/-- Every cell of the box is painted once, in the colour of its bit, and no other cell. -/
structure Whole (pen : Pen) (x y : UInt16) (num size : UInt8) (dots : List Dot) : Prop where
  once : (dots.map fun d ↦ (d.x, d.y)).Nodup
  cells : ∀ d, d ∈ dots ↔ ∃ c < size.toNat / 2, ∃ r < size.toNat, d = cellDot pen x y num size c r

/-! ## Bits -/

theorem testBit_toNat (b : UInt8) (i : Nat) : b.toNat.testBit i = b.toBitVec.getLsbD i :=
  BitVec.testBit_toNat b.toBitVec

/-- The highest bit. -/
theorem and_0x80_iff (b : UInt8) : b &&& 0x80 ≠ 0 ↔ b.toNat.testBit 7 = true := by
  have hpow : (0x80 : UInt8).toBitVec = BitVec.twoPow 8 7 := by decide
  rw [testBit_toNat, ne_eq, ← UInt8.toBitVec_inj, UInt8.toBitVec_and, hpow, BitVec.and_twoPow]
  split
  · rename_i h
    rw [h]
    exact iff_of_true (by decide) rfl
  · rename_i h
    exact iff_of_false (not_not.2 rfl) h

theorem testBit_shiftLeft_one (b : UInt8) {i : Nat} (h : i < 7) :
    (b <<< 1).toNat.testBit (7 - i) = b.toNat.testBit (7 - (i + 1)) := by
  have hshift : b.toBitVec <<< ((1 : UInt8).toBitVec % 8) = b.toBitVec <<< 1 := rfl
  have hlt : 7 - i < 8 := by omega
  have hge : ¬ 7 - i < 1 := by omega
  rw [testBit_toNat, testBit_toNat, UInt8.toBitVec_shiftLeft, hshift, BitVec.getLsbD_shiftLeft,
    decide_eq_true hlt, decide_eq_false hge, Bool.not_false, Bool.true_and, Bool.true_and,
    Nat.sub_sub]

/-! ## One byte -/

variable {pen : Pen} {draw : Dot → Prog σ Unit} {size mode : UInt8} {x y : UInt16}

/-- After the last row: the next column, unless one of the tests returns. -/
def nextColumn (pen : Pen) (size : UInt8) (x y : UInt16) : Option (UInt16 × UInt16) :=
  if pen.lcddev.height.toNat ≤ y.toNat + size.toNat then none
  else if pen.lcddev.width ≤ x + 1 then none else some (x + 1, y)

/-- A dot of mode 0. -/
def bitDot (pen : Pen) (x y : UInt16) (temp : UInt8) (i : Nat) : Dot :=
  ⟨x, y, if temp.toNat.testBit (7 - i) then pen.pointColor else pen.backColor⟩

theorem showBit_eq (temp : UInt8) : showBit pen draw 0 temp x y = draw (bitDot pen x y temp 0) := by
  unfold showBit bitDot
  by_cases h : temp &&& 0x80 ≠ 0
  · rw [if_pos h, if_pos ((and_0x80_iff temp).1 h)]
  · rw [if_neg h, if_pos rfl, if_neg fun h' ↦ h ((and_0x80_iff temp).2 h')]

theorem bitDot_shift (temp : UInt8) {i : Nat} (h : i < 7) :
    bitDot pen x y (temp <<< 1) i = bitDot pen x y temp (i + 1) := by
  unfold bitDot
  rw [testBit_shiftLeft_one temp h]

/-- The row below. -/
theorem add_ofNat_succ (y : UInt16) (r : Nat) :
    y + UInt16.ofNat r + 1 = y + UInt16.ofNat (r + 1) := by
  rw [UInt16.ofNat_add, UInt16.add_assoc]
  rfl

theorem toNat_add_ofNat {y : UInt16} {r : Nat} (h : y.toNat + r < 2 ^ 16) :
    (y + UInt16.ofNat r).toNat = y.toNat + r := by
  have hr : (UInt16.ofNat r).toNat = r := UInt16.toNat_ofNat_of_lt' (by show r < 65536; omega)
  rw [UInt16.toNat_add, hr]
  exact Nat.mod_eq_of_lt h

/-- The bits of a byte from row `r` on, as far as the column goes. -/
theorem showBits_eq (hy : y.toNat + size.toNat ≤ pen.lcddev.height.toNat) (cell : Nat → Dot)
    {n r : Nat} {temp : UInt8} (hn : n ≤ 8) (hr : r < size.toNat)
    (hcell : ∀ i < n, r + i < size.toNat →
      cell (r + i) = bitDot pen x (y + UInt16.ofNat (r + i)) temp i) :
    showBits pen draw y size 0 n temp x (y + UInt16.ofNat r) =
      play draw ((List.range' r (min n (size.toNat - r))).map cell) >>= fun _ ↦
        pure (if r + n < size.toNat then some (x, y + UInt16.ofNat (r + n))
          else nextColumn pen size x y) := by
  induction n generalizing r temp with
  | zero =>
      rw [Nat.zero_min, Nat.add_zero, if_pos hr]
      rfl
  | succ n ih =>
      have hheight := pen.lcddev.height.toNat_lt
      have hfirst : bitDot pen x (y + UInt16.ofNat r) temp 0 = cell r :=
        (hcell 0 (Nat.succ_pos n) hr).symm
      have hrow : (y + UInt16.ofNat (r + 1)).toNat = y.toNat + (r + 1) :=
        toNat_add_ofNat (by omega)
      have hlow : pen.lcddev.height ≤ y + UInt16.ofNat (r + 1) ↔
          pen.lcddev.height.toNat ≤ y.toNat + (r + 1) := by
        rw [UInt16.le_iff_toNat_le, hrow]
      have hend : ((y + UInt16.ofNat (r + 1)).toNat : Int) - y.toNat = size.toNat ↔
          r + 1 = size.toNat := by
        rw [hrow]
        omega
      unfold showBits
      simp only [showBit_eq, add_ofNat_succ, hfirst, hlow, hend]
      by_cases hlast : r + 1 = size.toNat
      · have hmin : min (n + 1) (size.toNat - r) = 1 := by omega
        have hmore : ¬ r + (n + 1) < size.toNat := by omega
        rw [hmin, if_pos hlast, if_neg hmore, nextColumn, ← hlast, List.range'_one,
          List.map_singleton, play_cons, play_nil, bind_assoc']
        congr 1
        funext _
        rw [pure_bind']
        split
        · rfl
        · split <;> rfl
      · have hmin : min (n + 1) (size.toNat - r) = min n (size.toNat - (r + 1)) + 1 := by omega
        have hnext : ∀ i < n, r + 1 + i < size.toNat →
            cell (r + 1 + i) = bitDot pen x (y + UInt16.ofNat (r + 1 + i)) (temp <<< 1) i := by
          intro i hi hri
          rw [bitDot_shift temp (by omega), Nat.add_assoc, Nat.add_comm 1 i]
          exact hcell (i + 1) (by omega) (by omega)
        have hinside : ¬ pen.lcddev.height.toNat ≤ y.toNat + (r + 1) := by omega
        rw [hmin, if_neg hlast, if_neg hinside, ih (by omega) (by omega) hnext,
          List.range'_succ, List.map_cons, play_cons, bind_assoc', Nat.add_right_comm r 1 n,
          Nat.add_assoc r n 1]

/-! ## One column -/

variable {num : UInt8} {byte : Nat → UInt8} {b : Nat}

/-- The dot of row `r` in the column whose bytes start with number `t`. -/
def tableDot (pen : Pen) (byte : Nat → UInt8) (x y : UInt16) (t r : Nat) : Dot :=
  bitDot pen x (y + UInt16.ofNat r) (byte (t + r / 8)) (r % 8)

theorem showByte_eq (hbyte : ∀ t, fontByte pen.fonts size num t = some (byte t))
    (hy : y.toNat + size.toNat ≤ pen.lcddev.height.toNat) {t j n : Nat}
    (hj : 8 * j < size.toNat) :
    showBytes pen draw y num size 0 (n + 1) (t + j) x (y + UInt16.ofNat (8 * j)) =
      play draw
          ((List.range' (8 * j) (min 8 (size.toNat - 8 * j))).map (tableDot pen byte x y t)) >>=
        fun _ ↦ match (if 8 * j + 8 < size.toNat then some (x, y + UInt16.ofNat (8 * j + 8))
          else nextColumn pen size x y) with
        | none => pure ()
        | some (x, y') => showBytes pen draw y num size 0 n (t + j + 1) x y' := by
  have hcell : ∀ i < 8, 8 * j + i < size.toNat → tableDot pen byte x y t (8 * j + i) =
      bitDot pen x (y + UInt16.ofNat (8 * j + i)) (byte (t + j)) i := by
    intro i hi _
    unfold tableDot
    rw [show (8 * j + i) / 8 = j by omega, show (8 * j + i) % 8 = i by omega]
  rw [showBytes, hbyte]
  dsimp only
  rw [showBits_eq hy (tableDot pen byte x y t) le_rfl hj hcell, bind_assoc']
  rfl

variable (draw x) in
/-- The bytes of a column from number `j` on, `k` of them. -/
theorem showColumn_eq (hbyte : ∀ t, fontByte pen.fonts size num t = some (byte t))
    (hy : y.toNat + size.toNat ≤ pen.lcddev.height.toNat) {t j k n : Nat}
    (hlow : 8 * (j + k) < size.toNat) (hhigh : size.toNat ≤ 8 * (j + k + 1)) :
    showBytes pen draw y num size 0 (n + (k + 1)) (t + j) x (y + UInt16.ofNat (8 * j)) =
      play draw ((List.range' (8 * j) (size.toNat - 8 * j)).map (tableDot pen byte x y t)) >>=
        fun _ ↦ match nextColumn pen size x y with
        | none => pure ()
        | some (x, y') => showBytes pen draw y num size 0 n (t + (j + k + 1)) x y' := by
  induction k generalizing j with
  | zero =>
      have hmin : min 8 (size.toNat - 8 * j) = size.toNat - 8 * j := by omega
      rw [showByte_eq hbyte hy (by omega), hmin, if_neg (by omega)]
      rfl
  | succ k ih =>
      have hmin : min 8 (size.toNat - 8 * j) = 8 := by omega
      have hrest : size.toNat - 8 * j = 8 + (size.toNat - 8 * (j + 1)) := by omega
      have hstep : n + (k + 1 + 1) = n + (k + 1) + 1 := rfl
      rw [hstep, showByte_eq hbyte hy (by omega), hmin, if_pos (by omega), hrest,
        ← List.range'_append_1, List.map_append, play_append, bind_assoc']
      congr 1
      funext _
      have hnext := ih (j := j + 1) (by omega) (by omega)
      rw [Nat.add_right_comm j 1 k, Nat.mul_succ] at hnext
      rw [Nat.mul_succ]
      exact hnext

/-! ## The box -/

/-- The dots of a column, from the top. -/
def columnDots (pen : Pen) (byte : Nat → UInt8) (size b : Nat) (x y : UInt16) (c : Nat) :
    List Dot :=
  (List.range size).map (tableDot pen byte (x + UInt16.ofNat c) y (c * b))

variable (draw x) in
/-- A column from its first byte on. -/
theorem showWholeColumn_eq (hbyte : ∀ t, fontByte pen.fonts size num t = some (byte t))
    (hy : y.toNat + size.toNat ≤ pen.lcddev.height.toNat) (hlow : 8 * b < size.toNat)
    (hhigh : size.toNat ≤ 8 * (b + 1)) (n c : Nat) :
    showBytes pen draw y num size 0 (n + (b + 1)) (c * (b + 1)) (x + UInt16.ofNat c) y =
      play draw (columnDots pen byte size.toNat (b + 1) x y c) >>=
        fun _ ↦ match nextColumn pen size (x + UInt16.ofNat c) y with
        | none => pure ()
        | some (x, y') => showBytes pen draw y num size 0 n ((c + 1) * (b + 1)) x y' := by
  have hcolumn := showColumn_eq draw (x + UInt16.ofNat c) hbyte hy (t := c * (b + 1))
    (j := 0) (k := b) (n := n) (by omega) (by omega)
  have hzero : y + UInt16.ofNat (8 * 0) = y := UInt16.add_zero y
  rw [hzero, Nat.zero_add, Nat.add_zero, ← Nat.succ_mul] at hcolumn
  rw [columnDots, List.range_eq_range']
  exact hcolumn

variable (draw x) in
/-- The columns from number `c` on, `k` of them, when no test returns before the last one. -/
theorem showColumns_eq (hbyte : ∀ t, fontByte pen.fonts size num t = some (byte t))
    (hy : y.toNat + size.toNat < pen.lcddev.height.toNat) (hlow : 8 * b < size.toNat)
    (hhigh : size.toNat ≤ 8 * (b + 1)) {k c : Nat}
    (hx : x.toNat + (c + k) ≤ pen.lcddev.width.toNat) :
    showBytes pen draw y num size 0 (k * (b + 1)) (c * (b + 1)) (x + UInt16.ofNat c) y =
      play draw ((List.range' c k).flatMap (columnDots pen byte size.toNat (b + 1) x y)) := by
  induction k generalizing c with
  | zero =>
      rw [Nat.zero_mul]
      rfl
  | succ k ih =>
      have hwidth := pen.lcddev.width.toNat_lt
      have hnext : (x + UInt16.ofNat (c + 1)).toNat = x.toNat + (c + 1) :=
        toNat_add_ofNat (by omega)
      rw [Nat.succ_mul, showWholeColumn_eq draw _ hbyte hy.le hlow hhigh, List.range'_succ,
        List.flatMap_cons, play_append]
      congr 1
      funext _
      rw [nextColumn, if_neg (by omega), add_ofNat_succ]
      by_cases hlast : pen.lcddev.width ≤ x + UInt16.ofNat (c + 1)
      · have hk : k = 0 := by
          rw [UInt16.le_iff_toNat_le, hnext] at hlast
          omega
        subst hk
        rw [if_pos hlast]
        rfl
      · rw [if_neg hlast]
        exact ih (by omega)

/-- The sizes that there is a table for. -/
def Supported (size : UInt8) : Prop := size = 12 ∨ size = 16 ∨ size = 24

/-- A character of such a size has bytes, `columnBytes` for every column. -/
theorem Supported.table (h : Supported size) (fonts : Fonts) (num : UInt8) :
    ∃ byte : Nat → UInt8, (∀ t, fontByte fonts size num t = some (byte t)) ∧
      ∃ b, columnBytes size.toNat = b + 1 ∧ 8 * b < size.toNat ∧ size.toNat ≤ 8 * (b + 1) ∧
        (csize size).toNat = size.toNat / 2 * (b + 1) := by
  rcases h with rfl | rfl | rfl
  · exact ⟨fonts.asc2_1206 num, fun _ ↦ rfl, 1, rfl, by decide, by decide, rfl⟩
  · exact ⟨fonts.asc2_1608 num, fun _ ↦ rfl, 1, rfl, by decide, by decide, rfl⟩
  · exact ⟨fonts.asc2_2412 num, fun _ ↦ rfl, 2, rfl, by decide, by decide, rfl⟩

/-- The dots of the box, column by column. -/
def boxDots (pen : Pen) (x y : UInt16) (num size : UInt8) (columns : Nat) : List Dot :=
  (List.range columns).flatMap fun c ↦
    (List.range size.toNat).map (cellDot pen x y num size c)

theorem columnDots_eq (hbyte : ∀ t, fontByte pen.fonts size (num - 32) t = some (byte t))
    (hb : columnBytes size.toNat = b) (c : Nat) : columnDots pen byte size.toNat b x y c =
      (List.range size.toNat).map (cellDot pen x y num size c) := by
  refine List.map_congr_left ?_
  intro r _
  unfold tableDot bitDot cellDot fontBit
  rw [hb, hbyte]
  rfl

/-- **A character above the last row** is drawn column by column, all of it. -/
theorem lcdShowChar_plays (hsize : Supported size)
    (hx : x.toNat + size.toNat / 2 ≤ pen.lcddev.width.toNat)
    (hy : y.toNat + size.toNat < pen.lcddev.height.toNat) :
    Plays (fun _ draw ↦ lcdShowChar pen draw x y num size 0)
      (boxDots pen x y num size (size.toNat / 2)) := by
  intro σ draw
  obtain ⟨byte, hbyte, b, hb, hlow, hhigh, hcsize⟩ := hsize.table pen.fonts (num - 32)
  have hcolumns := showColumns_eq draw x hbyte hy hlow hhigh (k := size.toNat / 2)
    (c := 0) (by omega)
  have hzero : x + UInt16.ofNat 0 = x := UInt16.add_zero x
  rw [hzero, Nat.zero_mul] at hcolumns
  have hdots : columnDots pen byte size.toNat (b + 1) x y =
      fun c ↦ (List.range size.toNat).map (cellDot pen x y num size c) :=
    funext (columnDots_eq hbyte hb)
  dsimp only
  rw [lcdShowChar, hcsize, hcolumns, hdots, ← List.range_eq_range']
  rfl

/-- A character that touches the last row ends after its first column. -/
theorem lcdShowChar_plays_first (pen : Pen) (num : UInt8) (x : UInt16) (hsize : Supported size)
    (hy : y.toNat + size.toNat = pen.lcddev.height.toNat) :
    Plays (fun _ draw ↦ lcdShowChar pen draw x y num size 0) (boxDots pen x y num size 1) := by
  intro σ draw
  obtain ⟨byte, hbyte, b, hb, hlow, hhigh, hcsize⟩ := hsize.table pen.fonts (num - 32)
  have hhalf : size.toNat / 2 = size.toNat / 2 - 1 + 1 := by
    rcases hsize with rfl | rfl | rfl <;> rfl
  have hcolumn := showWholeColumn_eq draw x hbyte hy.le hlow hhigh
    ((size.toNat / 2 - 1) * (b + 1)) 0
  have hzero : x + UInt16.ofNat 0 = x := UInt16.add_zero x
  rw [← Nat.succ_mul, Nat.succ_eq_add_one, ← hhalf, hzero, Nat.zero_mul, nextColumn, if_pos hy.ge,
    columnDots_eq hbyte hb] at hcolumn
  dsimp only at hcolumn ⊢
  rw [lcdShowChar, hcsize, hcolumn, bind_pure_unit, boxDots, List.range_one,
    List.flatMap_singleton]

theorem boxDots_cells (columns : Nat) (d : Dot) : d ∈ boxDots pen x y num size columns ↔
    ∃ c < columns, ∃ r < size.toNat, d = cellDot pen x y num size c r := by
  simp only [boxDots, List.mem_flatMap, List.mem_map, List.mem_range, eq_comm]

theorem add_ofNat_inj {z : UInt16} {m n : Nat} (hm : z.toNat + m < 2 ^ 16)
    (hn : z.toNat + n < 2 ^ 16) (h : z + UInt16.ofNat m = z + UInt16.ofNat n) : m = n := by
  have htoNat := congrArg UInt16.toNat h
  rw [toNat_add_ofNat hm, toNat_add_ofNat hn] at htoNat
  omega

theorem boxDots_once {columns : Nat} (hx : x.toNat + columns < 2 ^ 16)
    (hy : y.toNat + size.toNat < 2 ^ 16) :
    ((boxDots pen x y num size columns).map fun d ↦ (d.x, d.y)).Nodup := by
  rw [boxDots, List.map_flatMap, List.nodup_flatMap]
  constructor
  · intro c _
    rw [List.map_map]
    refine List.nodup_range.map_on ?_
    intro r hr r' hr' h
    have hr := List.mem_range.1 hr
    have hr' := List.mem_range.1 hr'
    exact add_ofNat_inj (by omega) (by omega) (congrArg Prod.snd h)
  · refine List.nodup_range.imp_of_mem ?_
    intro c c' hc hc' hne d hd hd'
    have hc := List.mem_range.1 hc
    have hc' := List.mem_range.1 hc'
    dsimp only at hd hd'
    rw [List.map_map] at hd hd'
    obtain ⟨r, -, rfl⟩ := List.mem_map.1 hd
    obtain ⟨r', -, h⟩ := List.mem_map.1 hd'
    exact hne (add_ofNat_inj (by omega) (by omega) (congrArg Prod.fst h).symm)

/-- All the columns are the whole box. -/
theorem boxDots_whole (hx : x.toNat + size.toNat / 2 < 2 ^ 16)
    (hy : y.toNat + size.toNat < 2 ^ 16) :
    Whole pen x y num size (boxDots pen x y num size (size.toNat / 2)) :=
  ⟨boxDots_once hx hy, boxDots_cells _⟩

/-- The first column is not. -/
theorem boxDots_first (hsize : Supported size) (hx : x.toNat + size.toNat / 2 < 2 ^ 16) :
    ¬ Whole pen x y num size (boxDots pen x y num size 1) := by
  intro h
  have hpos : 1 < size.toNat / 2 ∧ 0 < size.toNat := by
    rcases hsize with rfl | rfl | rfl <;> decide
  have hcell := (h.cells _).2 ⟨1, hpos.1, 0, hpos.2, rfl⟩
  obtain ⟨c, hc, r, hr, heq⟩ := (boxDots_cells 1 _).1 hcell
  have hone := add_ofNat_inj (by omega) (by omega) (congrArg Dot.x heq)
  omega

/-- **Characters inside the screen are drawn whole** exactly when they do not touch the last row. -/
theorem lcdShowChar_iff (pen : Pen) {x y : UInt16} (num : UInt8) {size : UInt8}
    (hsize : Supported size) (hx : x.toNat + size.toNat / 2 ≤ pen.lcddev.width.toNat)
    (hy : y.toNat + size.toNat ≤ pen.lcddev.height.toNat) :
    (∃ dots, Plays (fun _ draw ↦ lcdShowChar pen draw x y num size 0) dots ∧
      Whole pen x y num size dots) ↔ y.toNat + size.toNat < pen.lcddev.height.toNat := by
  have hwidth := hx.trans_lt pen.lcddev.width.toNat_lt
  have hheight := hy.trans_lt pen.lcddev.height.toNat_lt
  constructor
  · rintro ⟨dots, hplays, hwhole⟩
    rcases Nat.lt_or_eq_of_le hy with hlt | heq
    · exact hlt
    · rw [hplays.unique (lcdShowChar_plays_first pen num x hsize heq)] at hwhole
      exact absurd hwhole (boxDots_first hsize hwidth)
  · intro hlt
    exact ⟨_, lcdShowChar_plays hsize hx hlt, boxDots_whole hwidth hheight⟩

/-- A screen of 240 by 320, and empty tables. -/
def smallPen : Pen where
  lcddev := ⟨240, 320, 0x9341, 0, 0x2C, 0x2A, 0x2B⟩
  pointColor := 0
  backColor := 0xFFFF
  fonts := ⟨fun _ _ ↦ 0, fun _ _ ↦ 0, fun _ _ ↦ 0⟩

theorem lcdShowChar_corner :
    (∃ dots, Plays (fun _ draw ↦ lcdShowChar smallPen draw 232 303 65 16 0) dots ∧
      Whole smallPen 232 303 65 16 dots) ↔ 303 + 16 < 320 :=
  lcdShowChar_iff smallPen 65 (.inr (.inl rfl)) (by decide) (by decide)

/-- One row further down only the first column is drawn. -/
theorem lcdShowChar_last_row :
    ¬ ∃ dots, Plays (fun _ draw ↦ lcdShowChar smallPen draw 0 304 65 16 0) dots ∧
      Whole smallPen 0 304 65 16 dots := by
  rintro ⟨dots, hplays, hwhole⟩
  have hsize : Supported 16 := .inr (.inl rfl)
  have hfirst := lcdShowChar_plays_first smallPen 65 0 (y := 304) hsize (by decide)
  rw [hplays.unique hfirst] at hwhole
  exact boxDots_first hsize (by decide) hwhole

end Stm32F1.Lcd

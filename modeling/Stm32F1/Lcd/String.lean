import Stm32F1.Lcd.Num

/-!
# Strings on the LCD

`LCD_ShowString` begins a new row where the next character would start beyond the
box.  The column it goes back to is kept in 8 bits.
-/

namespace Stm32F1.Lcd

open Prog

variable {σ : Type}

/-! ## `lcd.c` -/

/-- The variables of the loop of `LCD_ShowString`. -/
structure StringVars where
  x : UInt16
  y : UInt16
  p : Nat

/-- `if ( x >= width ) …` -/
def wrapped (x0 : UInt8) (width : UInt16) (size : UInt8) (v : StringVars) : StringVars :=
  if v.x ≥ width then { v with x := x0.toUInt16, y := v.y + size.toUInt16 } else v

/-- `x += size / 2; p++;` -/
def advanced (size : UInt8) (v : StringVars) : StringVars :=
  ⟨v.x + (size / 2).toUInt16, v.y, v.p + 1⟩

/-- A character that `LCD_ShowString` shows. -/
def Printable (c : UInt8) : Prop := c ≤ 126 ∧ c ≥ 32

instance (c : UInt8) : Decidable (Printable c) := inferInstanceAs (Decidable (_ ∧ _))

/-- The loop of `LCD_ShowString`. -/
def showText (lcdShowChar : Shown → Prog σ Unit) (mem : Nat → UInt8) (x0 : UInt8)
    (width height : UInt16) (size : UInt8) (v : StringVars) : Prog σ (StringVars ⊕ Unit) :=
  if Printable (mem v.p) then
    let v := wrapped x0 width size v
    if v.y ≥ height then pure (.inr ())
    else do
      lcdShowChar ⟨v.x, v.y, mem v.p, size, 0⟩
      pure (.inl (advanced size v))
  else pure (.inr ())

/-- `LCD_ShowString`; `mem` is what the pointer points into. -/
def lcdShowString (lcdShowChar : Shown → Prog σ Unit) (mem : Nat → UInt8)
    (x y width height : UInt16) (size : UInt8) (p : Nat) : Prog σ Unit :=
  let x0 := x.toUInt8
  let width := width + x
  let height := height + y
  repeatM (showText lcdShowChar mem x0 width height size) ⟨x, y, p⟩

/-! ## The law of a string -/

/-- A string of printable characters in memory, up to the first other one. -/
structure Text where
  mem : Nat → UInt8
  p : Nat
  len : Nat
  printable : ∀ i < len, Printable (mem (p + i))
  stop : ¬ Printable (mem (p + len))

/-- The arguments of `LCD_ShowString`, for which no coordinate overflows. -/
structure TextBox where
  x : UInt16
  y : UInt16
  width : UInt16
  height : UInt16
  size : UInt8
  font : size = 12 ∨ size = 16 ∨ size = 24
  width_pos : 1 ≤ width.toNat
  right : x.toNat + width.toNat + size.toNat / 2 < 65536
  bottom : y.toNat + height.toNat + size.toNat < 65536

namespace TextBox

variable (b : TextBox)

/-- The width of a character. -/
def half : Nat := b.size.toNat / 2

/-- The number of characters in a row: the quotient of the widths, rounded up. -/
def columns : Nat := (b.width.toNat + b.half - 1) / b.half

/-- The row of the character `k` starts above the bottom of the box. -/
def Above (k : Nat) : Prop :=
  b.y.toNat + k / b.columns * b.size.toNat < b.y.toNat + b.height.toNat

instance (k : Nat) : Decidable (b.Above k) := inferInstanceAs (Decidable (_ < _))

/-- Where the character `k` of the string belongs. -/
def charAt (t : Text) (k : Nat) : Shown :=
  ⟨UInt16.ofNat (b.x.toNat + k % b.columns * b.half),
    UInt16.ofNat (b.y.toNat + k / b.columns * b.size.toNat), t.mem (t.p + k), b.size, 0⟩

/-- The characters of the string whose row starts above the bottom, in order. -/
def layout (t : Text) : List Shown := ((List.range t.len).filter (b.Above ·)).map (b.charAt t)

/-! ## The geometry of the box -/

theorem half_pos : 0 < b.half := by
  rcases b.font with h | h | h <;> rw [half, h] <;> decide

/-- A column is one of the row exactly when it starts in the box. -/
theorem lt_columns_iff {k : Nat} : k < b.columns ↔ k * b.half < b.width.toNat := by
  have hpos := b.half_pos
  rw [columns, ← Nat.succ_le_iff, Nat.le_div_iff_mul_le hpos, Nat.succ_mul]
  omega

theorem columns_pos : 0 < b.columns := by
  rw [lt_columns_iff, Nat.zero_mul]
  exact b.width_pos

/-- The column behind the last one starts beyond the box. -/
theorem width_le : b.width.toNat ≤ b.columns * b.half :=
  not_lt.1 fun h ↦ lt_irrefl _ (b.lt_columns_iff.2 h)

end TextBox

/-! ## The walk of the cursor -/

section Walk

variable (b : TextBox) (t : Text)

/-- The variables of the loop after `k` characters. -/
def walk : Nat → StringVars
  | 0 => ⟨b.x, b.y, t.p⟩
  | k + 1 => advanced b.size (wrapped b.x.toUInt8 (b.width + b.x) b.size (walk k))

/-- The variables where the character `k` is shown. -/
def place (k : Nat) : StringVars := wrapped b.x.toUInt8 (b.width + b.x) b.size (walk b t k)

theorem walk_succ (k : Nat) : walk b t (k + 1) = advanced b.size (place b t k) := rfl

theorem place_p (k : Nat) : (place b t k).p = (walk b t k).p := by
  rw [place, wrapped]
  split <;> rfl

theorem walk_p (k : Nat) : (walk b t k).p = t.p + k := by
  induction k with
  | zero => rfl
  | succ k ih =>
      rw [walk_succ]
      show (place b t k).p + 1 = t.p + (k + 1)
      rw [place_p, ih, Nat.add_assoc]

/-- The cursor is at these coordinates. -/
structure At (v : StringVars) (x y : Nat) : Prop where
  x : v.x.toNat = x
  y : v.y.toNat = y

variable {b t} {v : StringVars} {x y k : Nat}

theorem toNat_right (b : TextBox) : (b.width + b.x).toNat = b.x.toNat + b.width.toNat := by
  have hfit := b.right
  rw [UInt16.toNat_add, Nat.add_comm]
  exact Nat.mod_eq_of_lt (by omega)

theorem toNat_bottom (b : TextBox) : (b.height + b.y).toNat = b.y.toNat + b.height.toNat := by
  have hfit := b.bottom
  rw [UInt16.toNat_add, Nat.add_comm]
  exact Nat.mod_eq_of_lt (by omega)

theorem toNat_half (b : TextBox) : (b.size / 2).toUInt16.toNat = b.half := by
  rw [UInt8.toNat_toUInt16, UInt8.toNat_div]
  rfl

/-- The next character in the row. -/
theorem At.advanced (h : At v x y) (hx : x < b.x.toNat + b.width.toNat) :
    At (Lcd.advanced b.size v) (x + b.half) y := by
  have hfit := b.right
  refine ⟨?_, h.y⟩
  show (v.x + (b.size / 2).toUInt16).toNat = x + b.half
  rw [UInt16.toNat_add, toNat_half, h.x]
  exact Nat.mod_eq_of_lt (by unfold TextBox.half; omega)

/-- A cursor in the box stays where it is. -/
theorem At.stay (h : At v x y) (hx : x < b.x.toNat + b.width.toNat) :
    At (wrapped b.x.toUInt8 (b.width + b.x) b.size v) x y := by
  have hin : ¬ v.x ≥ b.width + b.x := by
    rw [ge_iff_le, UInt16.le_iff_toNat_le, toNat_right, h.x]
    omega
  rwa [wrapped, if_neg hin]

/-- A cursor beyond the box goes to the next row, to what is left of the first column. -/
theorem At.wrap (h : At v x y) (hx : b.x.toNat + b.width.toNat ≤ x)
    (hy : y + b.size.toNat < 65536) :
    At (wrapped b.x.toUInt8 (b.width + b.x) b.size v) (b.x.toNat % 256) (y + b.size.toNat) := by
  have hout : v.x ≥ b.width + b.x := by
    rw [ge_iff_le, UInt16.le_iff_toNat_le, toNat_right, h.x]
    exact hx
  rw [wrapped, if_pos hout]
  constructor
  · show b.x.toUInt8.toUInt16.toNat = b.x.toNat % 256
    rw [UInt8.toNat_toUInt16, UInt16.toNat_toUInt8]
  · show (v.y + b.size.toUInt16).toNat = y + b.size.toNat
    rw [UInt16.toNat_add, UInt8.toNat_toUInt16, h.y]
    exact Nat.mod_eq_of_lt hy

/-- The next character, in the same row. -/
theorem At.next (h : At (place b t k) x y) (hx : x + b.half < b.x.toNat + b.width.toNat) :
    At (place b t (k + 1)) (x + b.half) y := by
  rw [place, walk_succ]
  exact (h.advanced (by omega)).stay hx

/-- The next character, in the next row. -/
theorem At.nextRow (h : At (place b t k) x y) (hx : x < b.x.toNat + b.width.toNat)
    (hlast : b.x.toNat + b.width.toNat ≤ x + b.half) (hy : y + b.size.toNat < 65536) :
    At (place b t (k + 1)) (b.x.toNat % 256) (y + b.size.toNat) := by
  rw [place, walk_succ]
  exact (h.advanced hx).wrap hlast hy

theorem place_zero : At (place b t 0) b.x.toNat b.y.toNat := by
  have hwidth := b.width_pos
  exact At.stay (v := walk b t 0) ⟨rfl, rfl⟩ (by omega)

/-- The row and the column after the next character. -/
theorem div_mod_succ {c : Nat} (hc : 0 < c) (k : Nat) :
    ((k + 1) % c = k % c + 1 ∧ (k + 1) / c = k / c) ∨
      (k % c + 1 = c ∧ (k + 1) % c = 0 ∧ (k + 1) / c = k / c + 1) := by
  have hlt := Nat.mod_lt k hc
  have hk := Nat.div_add_mod k c
  have hsucc : k + 1 = c * (k / c) + (k % c + 1) := by omega
  rcases Nat.lt_or_eq_of_le (Nat.succ_le_of_lt hlt) with hin | hout
  · refine .inl ⟨?_, ?_⟩
    · rw [hsucc, Nat.mul_add_mod, Nat.mod_eq_of_lt hin]
    · rw [hsucc, Nat.mul_add_div hc, Nat.div_eq_of_lt hin, Nat.add_zero]
  · have hout : k % c + 1 = c := hout
    refine .inr ⟨hout, ?_, ?_⟩
    · rw [hsucc, Nat.mul_add_mod, hout, Nat.mod_self]
    · rw [hsucc, Nat.mul_add_div hc, hout, Nat.div_self hc]

theorem mod_mul_half_lt (b : TextBox) (k : Nat) :
    k % b.columns * b.half < b.width.toNat :=
  b.lt_columns_iff.1 (Nat.mod_lt k b.columns_pos)

/-- **The walk of the cursor**: as long as the rows fit, the character `k` is in its column and row,
if the first column fits in 8 bits or the character is in the first row. -/
theorem place_at (hx : b.x.toNat < 256 ∨ k < b.columns)
    (hfit : b.y.toNat + k / b.columns * b.size.toNat < 65536) :
    At (place b t k) (b.x.toNat + k % b.columns * b.half)
      (b.y.toNat + k / b.columns * b.size.toNat) := by
  induction k with
  | zero =>
      rw [Nat.zero_mod, Nat.zero_div, Nat.zero_mul, Nat.zero_mul]
      exact place_zero
  | succ k ih =>
      have hlt := mod_mul_half_lt b k
      rcases div_mod_succ b.columns_pos k with ⟨hmod, hdiv⟩ | ⟨hlast, hmod, hdiv⟩
      · have hin := mod_mul_half_lt b (k + 1)
        rw [hmod, Nat.succ_mul] at hin ⊢
        rw [hdiv] at hfit ⊢
        rw [← Nat.add_assoc]
        exact (ih (hx.imp_right Nat.lt_of_succ_lt) hfit).next (by omega)
      · have hsmall : b.x.toNat < 256 := by
          refine hx.resolve_right ?_
          intro hk
          rw [Nat.mod_eq_of_lt hk] at hmod
          exact Nat.succ_ne_zero k hmod
        rw [hmod, hdiv, Nat.zero_mul, Nat.add_zero, Nat.succ_mul, ← Nat.add_assoc]
        rw [hdiv, Nat.succ_mul, ← Nat.add_assoc] at hfit
        have hend := b.width_le
        rw [← hlast, Nat.succ_mul] at hend
        have hrow := (ih (.inl hsmall) (by omega)).nextRow (by omega) (by omega) hfit
        rwa [Nat.mod_eq_of_lt hsmall] at hrow

/-- Where the second row begins. -/
theorem place_columns (b : TextBox) (t : Text) :
    At (place b t b.columns) (b.x.toNat % 256) (b.y.toNat + b.size.toNat) := by
  have hbottom := b.bottom
  obtain ⟨c, hc⟩ := Nat.exists_eq_succ_of_ne_zero b.columns_pos.ne'
  have hlt : c < b.columns := by omega
  have hin := b.lt_columns_iff.1 hlt
  have hend := b.width_le
  rw [hc, Nat.succ_mul] at hend
  have hfirst := place_at (b := b) (t := t) (.inr hlt) (by
    rw [Nat.div_eq_of_lt hlt, Nat.zero_mul]
    omega)
  rw [Nat.mod_eq_of_lt hlt, Nat.div_eq_of_lt hlt, Nat.zero_mul, Nat.add_zero] at hfirst
  rw [hc]
  exact hfirst.nextRow (by omega) (by omega) (by omega)

end Walk

/-! ## The characters that are shown -/

section Shows

variable (b : TextBox) (t : Text)

/-- The row of the character `k` is not above the bottom, where the cursor is. -/
def below (k : Nat) : Bool := (place b t k).y ≥ b.height + b.y

/-- The character `k`, where the cursor is. -/
def shownAt (k : Nat) : Shown :=
  ⟨(place b t k).x, (place b t k).y, t.mem (t.p + k), b.size, 0⟩

/-- The characters that are shown. -/
def shownText : List Shown := (List.range (scan (below b t) 0 t.len)).map (shownAt b t)

/-- **`LCD_ShowString`** shows the characters where the cursor is, up to the first one below. -/
theorem lcdShowString_plays :
    Plays (fun _ draw ↦ lcdShowString draw t.mem b.x b.y b.width b.height b.size t.p)
      (shownText b t) := by
  intro σ draw
  obtain ⟨hle, hbefore, hstop⟩ := scan_spec (below b t) 0 t.len
  rw [Nat.zero_add] at hle hstop
  apply repeatM_play (walk b t) (shownAt b t)
  · intro k hk
    have hprintable := t.printable k (by omega)
    have habove : ¬ (place b t k).y ≥ b.height + b.y := of_decide_eq_false (hbefore k k.zero_le hk)
    rw [← walk_p b t k] at hprintable
    rw [showText, if_pos hprintable]
    show (if (place b t k).y ≥ b.height + b.y then _ else _) = _
    rw [if_neg habove, walk_succ, shownAt, ← walk_p b t k, ← place_p b t k]
    rfl
  · rcases Nat.lt_or_eq_of_le hle with hlt | hend
    · have hbelow : (place b t (scan (below b t) 0 t.len)).y ≥ b.height + b.y :=
        of_decide_eq_true (hstop hlt)
      rw [showText]
      split
      · exact if_pos hbelow
      · rfl
    · have hdone := t.stop
      rw [showText, walk_p, hend, if_neg hdone]

/-- The rows go down. -/
theorem above_mono {b : TextBox} {j k : Nat} (h : j ≤ k) (hk : b.Above k) : b.Above j := by
  have hrow : j / b.columns * b.size.toNat ≤ k / b.columns * b.size.toNat :=
    Nat.mul_le_mul_right _ (Nat.div_le_div_right h)
  unfold TextBox.Above at hk ⊢
  omega

/-- The characters of the law, counted. -/
theorem layout_eq :
    b.layout t = (List.range (scan (fun k ↦ !decide (b.Above k)) 0 t.len)).map (b.charAt t) := by
  rw [← filter_range_eq_scan]
  · simp only [Bool.not_not]
    rfl
  · intro j k hjk hj
    simp only [Bool.not_eq_true', decide_eq_false_iff_not] at hj ⊢
    exact fun hk ↦ hj (above_mono hjk hk)

variable {b t} {k : Nat}

/-- A character right below a row above the bottom fits in 16 bits. -/
theorem fits_of_above (h : ∀ j < k, b.Above j) :
    b.y.toNat + k / b.columns * b.size.toNat < 65536 := by
  have hbottom := b.bottom
  cases k with
  | zero =>
      rw [Nat.zero_div]
      omega
  | succ k =>
      have habove := h k (Nat.lt_succ_self k)
      unfold TextBox.Above at habove
      rcases div_mod_succ b.columns_pos k with ⟨-, hdiv⟩ | ⟨-, -, hdiv⟩
      · rw [hdiv]
        omega
      · rw [hdiv, Nat.succ_mul]
        omega

/-- Where the cursor is in its place, the bottom is compared with the row of the law. -/
theorem below_eq {x y : Nat} (h : At (place b t k) x y) :
    below b t k = decide (b.y.toNat + b.height.toNat ≤ y) := by
  apply decide_eq_decide.2
  rw [ge_iff_le, UInt16.le_iff_toNat_le, toNat_bottom, h.y]

theorem not_above_eq : (!decide (b.Above k)) =
    decide (b.y.toNat + b.height.toNat ≤ b.y.toNat + k / b.columns * b.size.toNat) := by
  rw [← decide_not]
  apply decide_eq_decide.2
  rw [TextBox.Above, not_lt]

theorem above_columns : b.Above b.columns ↔ b.size.toNat < b.height.toNat := by
  rw [TextBox.Above, Nat.div_self b.columns_pos, Nat.one_mul]
  omega

/-- What makes the strings come out right: the first column fits in 8 bits, or there is one row
only. -/
def Regular (b : TextBox) (t : Text) : Prop :=
  b.x.toNat < 256 ∨ t.len ≤ b.columns ∨ b.height.toNat ≤ b.size.toNat

/-- Where the rows before are above the bottom, a character is in its place, or begins a second row
below the bottom. -/
theorem place_cases (h : Regular b t) (hk : k < t.len) (habove : ∀ j < k, b.Above j) :
    (b.x.toNat < 256 ∨ k < b.columns) ∨ k = b.columns ∧ b.height.toNat ≤ b.size.toNat := by
  rcases h with hx | hlen | hheight
  · exact .inl (.inl hx)
  · exact .inl (.inr (by omega))
  · rcases Nat.lt_trichotomy k b.columns with hlt | heq | hgt
    · exact .inl (.inr hlt)
    · exact .inr ⟨heq, hheight⟩
    · exact absurd (above_columns.1 (habove b.columns hgt)) (not_lt.2 hheight)

/-- The code stops where the law does. -/
theorem below_eq_not_above (h : Regular b t) (hk : k < t.len) (habove : ∀ j < k, b.Above j) :
    below b t k = !decide (b.Above k) := by
  rw [not_above_eq]
  rcases place_cases h hk habove with hx | ⟨rfl, hheight⟩
  · exact below_eq (place_at hx (fits_of_above habove))
  · rw [below_eq (place_columns b t), Nat.div_self b.columns_pos, Nat.one_mul]

/-- The characters are those of the law. -/
theorem shownText_eq_layout (h : Regular b t) : shownText b t = b.layout t := by
  have hscan : scan (fun k ↦ !decide (b.Above k)) 0 t.len = scan (below b t) 0 t.len := by
    apply scan_congr
    intro k _ hk hbefore
    refine (below_eq_not_above h (by omega) ?_).symm
    intro j hj
    simpa using hbefore j j.zero_le hj
  rw [layout_eq, hscan, shownText]
  apply List.map_congr_left
  intro k hk
  rw [List.mem_range, ← hscan] at hk
  obtain ⟨hle, hbefore, -⟩ := scan_spec (fun k ↦ !decide (b.Above k)) 0 t.len
  have habove : ∀ j ≤ k, b.Above j := by
    intro j hj
    simpa using hbefore j j.zero_le (by omega)
  have hlaw := place_cases h (t := t) (k := k) (by omega) fun j hj ↦ habove j hj.le
  have hx : b.x.toNat < 256 ∨ k < b.columns := by
    refine hlaw.resolve_right ?_
    rintro ⟨rfl, hheight⟩
    exact absurd (above_columns.1 (habove _ le_rfl)) (not_lt.2 hheight)
  have hplace := place_at (b := b) (t := t) hx (fits_of_above fun j hj ↦ habove j hj.le)
  rw [shownAt, TextBox.charAt, ← hplace.x, ← hplace.y, UInt16.ofNat_toNat, UInt16.ofNat_toNat]

/-- Where there is a second row and the first column does not fit in 8 bits, the first character of
the second row is misplaced. -/
theorem shownText_ne_layout (h : ¬ Regular b t) : shownText b t ≠ b.layout t := by
  simp only [Regular, not_or, not_lt, not_le] at h
  obtain ⟨hx, hlen, hheight⟩ := h
  have hrow : ∀ j ≤ b.columns, below b t j = false := by
    intro j hj
    rcases Nat.lt_or_eq_of_le hj with hlt | rfl
    · have hbottom := b.bottom
      have hzero : b.y.toNat + j / b.columns * b.size.toNat = b.y.toNat := by
        rw [Nat.div_eq_of_lt hlt, Nat.zero_mul, Nat.add_zero]
      rw [below_eq (place_at (.inr hlt) (by omega)), hzero]
      exact decide_eq_false (by omega)
    · rw [below_eq (place_columns b t)]
      exact decide_eq_false (by omega)
  have hcount : b.columns < scan (below b t) 0 t.len := by
    by_contra hge
    obtain ⟨-, -, hstop⟩ := scan_spec (below b t) 0 t.len
    have hle := not_lt.1 hge
    rw [hrow _ hle] at hstop
    exact Bool.false_ne_true (hstop (by omega))
  intro heq
  rw [layout_eq, shownText] at heq
  have hlength := congrArg List.length heq
  rw [List.length_map, List.length_map, List.length_range, List.length_range] at hlength
  rw [← hlength, List.map_inj_left] at heq
  have hchar := congrArg (fun s ↦ s.x.toNat) (heq b.columns (List.mem_range.2 hcount))
  have hmisplaced : (shownAt b t b.columns).x.toNat = b.x.toNat % 256 := (place_columns b t).x
  have hlaw : (b.charAt t b.columns).x.toNat = b.x.toNat := by
    rw [TextBox.charAt, Nat.mod_self, Nat.zero_mul, Nat.add_zero, UInt16.ofNat_toNat]
  omega

end Shows

/-- **The layout of a string**: for every string, box and font, `LCD_ShowString` shows the
characters where they belong exactly when the first column is below 256, or the string or the box
has one row only. -/
theorem lcdShowString_layout_iff (b : TextBox) (t : Text) :
    Plays (fun _ draw ↦ lcdShowString draw t.mem b.x b.y b.width b.height b.size t.p) (b.layout t) ↔
      b.x.toNat < 256 ∨ t.len ≤ b.columns ∨ b.height.toNat ≤ b.size.toNat := by
  rw [(lcdShowString_plays b t).iff_eq]
  constructor
  · intro heq
    by_contra hnot
    exact shownText_ne_layout hnot heq
  · exact shownText_eq_layout

/-- The string "AB". -/
def textAB : Text where
  mem := fun i ↦ [65, 66].getD i 0
  p := 0
  len := 2
  printable := by decide
  stop := by decide

/-- One column, at 256. -/
def narrowBox : TextBox where
  x := 256
  y := 0
  width := 8
  height := 32
  size := 16
  font := .inr (.inl rfl)
  width_pos := by decide
  right := by decide
  bottom := by decide

/-- The second character is shown in column 0. -/
theorem narrowBox_misplaced : ¬ Plays (fun _ draw ↦ lcdShowString draw textAB.mem narrowBox.x
    narrowBox.y narrowBox.width narrowBox.height narrowBox.size textAB.p)
      (narrowBox.layout textAB) := by
  rw [(lcdShowString_plays narrowBox textAB).iff_eq]
  decide

end Stm32F1.Lcd

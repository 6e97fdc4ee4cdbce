import Stm32F1.Lib.Leaves
import Stm32F1.Lib.Rounds
import Stm32F1.Lcd.Fill
import Stm32F1.Lcd.Line

/-!
# Which drawing loops end

`LCD_DrawLine` and `LCD_Fill` compare a 16-bit counter by `<=` with a bound that it
may never exceed.  Here their loops, and the call of `LCD_Fill` by itself, are
given up after so many rounds; the functions return within some number of rounds
except where the bound is the largest value of the counter.
-/

namespace Stm32F1.Lcd

open Prog

variable {s : Screen}

/-! ## The calls in the loops return -/

theorem leaves_getDev : Leaves Screen.lcddev getDev := Leaves.read _

theorem leaves_lcdWrReg (data : UInt16) : Leaves Screen.lcddev (lcdWrReg data) :=
  Leaves.modify fun _ ↦ rfl

theorem leaves_lcdWrData (data : UInt16) : Leaves Screen.lcddev (lcdWrData data) :=
  Leaves.modify fun _ ↦ rfl

theorem leaves_lcdWriteReg (lcdReg lcdRegValue : UInt16) :
    Leaves Screen.lcddev (lcdWriteReg lcdReg lcdRegValue) :=
  (leaves_lcdWrReg lcdReg).bind fun _ ↦ leaves_lcdWrData lcdRegValue

theorem leaves_lcdWriteRamPrepare : Leaves Screen.lcddev lcdWriteRamPrepare :=
  leaves_getDev.bind fun _ ↦ leaves_lcdWrReg _

theorem leaves_twoBytes (hi lo : UInt16) : Leaves Screen.lcddev (do
    lcdWrData hi
    lcdWrData lo) :=
  (leaves_lcdWrData hi).bind fun _ ↦ leaves_lcdWrData lo

/-- A register, and then the two bytes of a word. -/
theorem leaves_word {p : Prog Screen Unit} (h : Leaves Screen.lcddev p) (reg hi lo : UInt16) :
    Leaves Screen.lcddev (do
      lcdWrReg reg
      lcdWrData hi
      lcdWrData lo
      p) :=
  (leaves_lcdWrReg reg).bind fun _ ↦ (leaves_lcdWrData hi).bind fun _ ↦
    (leaves_lcdWrData lo).bind fun _ ↦ h

theorem leaves_ssdColumns (lcddev : LcdDev) (xpos : UInt16) :
    Leaves Screen.lcddev (ssdColumns lcddev xpos) := by
  apply Leaves.ite
  · exact leaves_word (leaves_twoBytes _ _) _ _ _
  · exact leaves_word (leaves_twoBytes _ _) _ _ _

theorem leaves_lcdSetCursor (xpos ypos : UInt16) :
    Leaves Screen.lcddev (lcdSetCursor xpos ypos) := by
  have hlast (reg hi lo : UInt16) : Leaves Screen.lcddev (do
      lcdWrReg reg
      lcdWrData hi
      lcdWrData lo) := (leaves_lcdWrReg reg).bind fun _ ↦ leaves_twoBytes hi lo
  have hbyte {p : Prog Screen Unit} (h : Leaves Screen.lcddev p) (reg data : UInt16) :
      Leaves Screen.lcddev (do
        lcdWrReg reg
        lcdWrData data
        p) :=
    (leaves_lcdWrReg reg).bind fun _ ↦ (leaves_lcdWrData data).bind fun _ ↦ h
  refine leaves_getDev.bind fun lcddev ↦
    Leaves.ite ?_ (Leaves.ite ?_ (Leaves.ite ?_ (Leaves.ite ?_ ?_)))
  · exact leaves_word (hlast _ _ _) _ _ _
  · exact leaves_word (hlast _ _ _) _ _ _
  · exact (leaves_ssdColumns lcddev xpos).bind fun _ ↦ leaves_word (leaves_twoBytes _ _) _ _ _
  · exact hbyte (hbyte (hbyte (leaves_lcdWriteReg _ _) _ _) _ _) _ _
  · exact (leaves_lcdWriteReg _ _).bind fun _ ↦ leaves_lcdWriteReg _ _

theorem leaves_lcdDrawPoint (x y : UInt16) : Leaves Screen.lcddev (lcdDrawPoint x y) :=
  (leaves_lcdSetCursor x y).bind fun _ ↦ leaves_lcdWriteRamPrepare.bind fun _ ↦
    (Leaves.read _).bind fun _ ↦ leaves_lcdWrData _

/-! ## `lcd.c`, with the loops given up -/

/-- `LCD_DrawLine`, its loop run by `loop`. -/
def lcdDrawLineBy {σ : Type} (loop : (UInt16 × Axis × Axis → Prog σ (UInt16 × Axis × Axis ⊕ Unit)) →
    UInt16 × Axis × Axis → Prog σ Unit) (lcdDrawPoint : Point → Prog σ Unit)
    (x1 y1 x2 y2 : UInt16) : Prog σ Unit :=
  let deltaX : Int := x2.toNat - x1.toNat
  let deltaY : Int := y2.toNat - y1.toNat
  let incx := increment deltaX
  let incy := increment deltaY
  let deltaX := if deltaX < 0 then -deltaX else deltaX
  let deltaY := if deltaY < 0 then -deltaY else deltaY
  let distance := if deltaX > deltaY then deltaX else deltaY
  loop (drawPoints lcdDrawPoint distance deltaX deltaY incx incy)
    (0, ⟨0, x1.toNat⟩, ⟨0, y1.toNat⟩)

/-- `LCD_DrawLine`, given up after so many rounds. -/
def lcdDrawLineFor (rounds : Nat) (x1 y1 x2 y2 : UInt16) : Prog Screen Unit :=
  lcdDrawLineBy (fun f ↦ repeatFor f rounds) (fun p ↦ lcdDrawPoint p.x p.y) x1 y1 x2 y2

/-- `for (j = 0; j < xlen; j++)` in `LCD_Fill`, given up after so many rounds. -/
def wrColorsFor (rounds : Nat) (xlen color : UInt16) : Prog Screen Unit :=
  repeatFor (fun j : UInt16 ↦ if j < xlen then do
      lcdWrData color
      pure (.inl (j + 1))
    else pure (.inr ())) rounds 0

/-- `for (i = sy; i <= ey; i++)` in `LCD_Fill`, both loops given up after so many rounds. -/
def fillRowsFor (rounds : Nat) (sx sy ey xlen color : UInt16) : Prog Screen Unit :=
  repeatFor (fun i ↦ if i ≤ ey then do
      lcdSetCursor sx i
      lcdWriteRamPrepare
      wrColorsFor rounds xlen color
      pure (.inl (i + 1))
    else pure (.inr ())) rounds sy

/-- `LCD_Fill`, its loops given up after so many rounds, and its calls of itself at some depth. -/
def lcdFillFor (rounds : Nat) : Nat → (sx sy ex ey color : UInt16) → Prog Screen Unit
  | 0, _, _, _, _, _ => giveUp
  | depth + 1, sx, sy, ex, ey, color => do
      let lcddev ← getDev
      if lcddev.id = 0x6804 ∧ lcddev.dir = 1 then do
        let temp := sx
        let sx := sy
        let sy := lcddev.width - ex - 1
        let ex := ey
        let ey := lcddev.width - temp - 1
        setDev fun d ↦ { d with dir := 0, setxcmd := 0x2A, setycmd := 0x2B }
        lcdFillFor rounds depth sx sy ex ey color
        setDev fun d ↦ { d with dir := 1, setxcmd := 0x2B, setycmd := 0x2A }
      else fillRowsFor rounds sx sy ey (ex - sx + 1) color

/-- `LCD_DrawLine` ends after finitely many rounds. -/
def DrawLineEnds (s : Screen) (x1 y1 x2 y2 : UInt16) : Prop :=
  ∃ rounds, (lcdDrawLineFor rounds x1 y1 x2 y2 s).isSome

/-- `LCD_Fill` ends after finitely many rounds of its loops and calls of itself. -/
def FillEnds (s : Screen) (sx sy ex ey color : UInt16) : Prop :=
  ∃ rounds depth, (lcdFillFor rounds depth sx sy ex ey color s).isSome

/-! ## What was not given up is the function -/

theorem lcdDrawLine_by {σ : Type} (draw : Point → Prog σ Unit) (x1 y1 x2 y2 : UInt16) :
    lcdDrawLine draw x1 y1 x2 y2 = lcdDrawLineBy repeatM draw x1 y1 x2 y2 := rfl

theorem lcdDrawLine_of_for {rounds : Nat} {x1 y1 x2 y2 : UInt16} {r : Unit × Screen}
    (h : lcdDrawLineFor rounds x1 y1 x2 y2 s = some r) :
    lcdDrawLine (fun p ↦ lcdDrawPoint p.x p.y) x1 y1 x2 y2 s = some r :=
  repeatM_of_repeatFor h

variable {sx sy ex ey xlen color : UInt16} {rounds : Nat}

/-- The loop over a row, counted by a 16-bit variable, is the counted one. -/
theorem wrColorsFor_eq (hrounds : xlen.toNat < rounds) :
    wrColorsFor rounds xlen color = wrColors xlen.toNat fun _ ↦ color := by
  suffices hgen : ∀ k n (j : UInt16), j.toNat + k = xlen.toNat → k < n →
      repeatFor (fun j : UInt16 ↦ if j < xlen then do
          lcdWrData color
          pure (.inl (j + 1))
        else pure (.inr ())) n j = forFrom (fun _ ↦ lcdWrData color) j.toNat k from
    hgen xlen.toNat rounds 0 (Nat.zero_add _) hrounds
  intro k
  induction k with
  | zero =>
      intro n j hj hn
      obtain ⟨n, rfl⟩ := Nat.exists_eq_succ_of_ne_zero hn.ne'
      have hdone : ¬ j < xlen := by
        rw [UInt16.lt_iff_toNat_lt]
        omega
      rw [repeatFor_succ, if_neg hdone]
      rfl
  | succ k ih =>
      intro n j hj hn
      obtain ⟨n, rfl⟩ := Nat.exists_eq_succ_of_ne_zero (Nat.ne_of_gt (Nat.zero_lt_of_lt hn))
      have hlt : j.toNat < xlen.toNat := by omega
      have hmore : j < xlen := UInt16.lt_iff_toNat_lt.2 hlt
      have hnext : (j + 1).toNat = j.toNat + 1 :=
        toNat_add_one (hlt.trans_le (Nat.le_of_lt_succ xlen.toNat_lt))
      have hrest := ih n (j + 1) (by omega) (by omega)
      rw [hnext] at hrest
      rw [repeatFor_succ, if_pos hmore, bind_assoc', forFrom, ← hrest]
      rfl

theorem wrColors_of_for {r : Unit × Screen} (h : wrColorsFor rounds xlen color s = some r) :
    wrColors xlen.toNat (fun _ ↦ color) s = some r := by
  rw [← wrColorsFor_eq (Nat.lt_add_left rounds (Nat.lt_succ_self xlen.toNat))]
  exact repeatFor_add h _

theorem fillRows_of_for {r : Unit × Screen}
    (h : fillRowsFor rounds sx sy ey xlen color s = some r) :
    fillRows sx sy ey xlen color s = some r := by
  refine repeatM_of_repeatFor (repeatFor_mono ?_ h)
  intro i s x hx
  by_cases hi : i ≤ ey
  · rw [if_pos hi] at hx ⊢
    rw [bind_eq_some] at hx ⊢
    obtain ⟨_, t, hcursor, hx⟩ := hx
    refine ⟨_, t, hcursor, ?_⟩
    rw [bind_eq_some] at hx ⊢
    obtain ⟨_, u, hprepare, hx⟩ := hx
    refine ⟨_, u, hprepare, ?_⟩
    rw [bind_eq_some] at hx ⊢
    obtain ⟨_, v, hrow, hx⟩ := hx
    exact ⟨_, v, wrColors_of_for hrow, hx⟩
  · rw [if_neg hi] at hx ⊢
    exact hx

theorem lcdFill_of_for {depth : Nat} {r : Unit × Screen}
    (h : lcdFillFor rounds depth sx sy ex ey color s = some r) :
    lcdFill sx sy ex ey color s = some r := by
  induction depth generalizing sx sy ex ey s r with
  | zero => exact absurd h (by simp [lcdFillFor])
  | succ depth ih =>
      have hread : getDev s = some (s.lcddev, s) := rfl
      rw [lcdFillFor, bind_of_eq hread] at h
      rw [lcdFill_recursive, bind_of_eq hread]
      by_cases hturn : s.lcddev.id = 0x6804 ∧ s.lcddev.dir = 1
      · rw [if_pos hturn, bind_eq_some] at h ⊢
        obtain ⟨_, t, hset, h⟩ := h
        refine ⟨_, t, hset, ?_⟩
        rw [bind_eq_some] at h ⊢
        obtain ⟨_, u, hfill, h⟩ := h
        exact ⟨_, u, ih hfill, h⟩
      · rw [if_neg hturn] at h ⊢
        exact fillRows_of_for h

/-! ## Lines -/

/-- The loop of `LCD_DrawLine` on the distances and increments that the source computes. -/
theorem lcdDrawLineFor_eq (rounds : Nat) (p q : Point) :
    lcdDrawLineFor rounds p.x p.y q.x q.y = repeatFor (drawPoints (fun p ↦ lcdDrawPoint p.x p.y)
      (distanceOf p q) (span p.x q.x) (span p.y q.y) (increment (q.x.toNat - p.x.toNat))
      (increment (q.y.toNat - p.y.toNat))) rounds (lineVars p q 0) := by
  unfold lcdDrawLineFor lcdDrawLineBy lineVars
  simp only [natAbs_eq_ite, max_eq_ite, axisAfter_zero]
  rfl

/-- The counter never exceeds a bound that is its largest value. -/
theorem line_endless {p q : Point} (h : 65534 ≤ distanceOf p q) (rounds : Nat) (s : Screen) :
    lcdDrawLineFor rounds p.x p.y q.x q.y s = none := by
  rw [lcdDrawLineFor_eq]
  refine repeatFor_eq_none (fun _ _ ↦ True) ?_ trivial rounds
  intro a s r s' _ hr
  have hmore : (a.1.toNat : Int) ≤ (distanceOf p q : Int) + 1 := by
    have hlt := a.1.toNat_lt
    omega
  rw [drawPoints, if_pos hmore, bind_eq_some] at hr
  obtain ⟨_, t, -, hr⟩ := hr
  obtain ⟨rfl, -⟩ := Prod.mk.inj (Option.some.inj hr)
  exact ⟨_, rfl, trivial⟩

/-- Otherwise it does. -/
theorem line_ends {p q : Point} (h : distanceOf p q < 65534) (s : Screen) :
    Run (lcdDrawLineFor (distanceOf p q + 3) p.x p.y q.x q.y) s fun _ _ ↦ True := by
  rw [lcdDrawLineFor_eq]
  refine run_repeatFor (fun _ _ ↦ True) (fun a _ ↦ distanceOf p q + 2 - a.1.toNat) ?_ trivial ?_
  · intro a s _
    rw [drawPoints]
    by_cases hmore : (a.1.toNat : Int) ≤ (distanceOf p q : Int) + 1
    · rw [if_pos hmore]
      refine (leaves_lcdDrawPoint _ _).run_bind ?_
      intro _ t _
      have hnext : (a.1 + 1).toNat = a.1.toNat + 1 := toNat_add_one (by omega)
      refine run_pure.2 ⟨trivial, ?_⟩
      show distanceOf p q + 2 - (a.1 + 1).toNat < distanceOf p q + 2 - a.1.toNat
      omega
    · rw [if_neg hmore]
      exact run_pure.2 trivial
  · show distanceOf p q + 2 - (0 : UInt16).toNat < distanceOf p q + 3
    omega

theorem drawLineEnds_iff (s : Screen) (p q : Point) :
    DrawLineEnds s p.x p.y q.x q.y ↔ distanceOf p q < 65534 := by
  constructor
  · rintro ⟨rounds, hsome⟩
    by_contra hlarge
    rw [line_endless (not_lt.1 hlarge)] at hsome
    exact absurd hsome (by simp)
  · intro h
    obtain ⟨_, t, hrun, -⟩ := line_ends h s
    exact ⟨_, by rw [hrun]; rfl⟩

/-! ## Rectangles -/

/-- The row number never exceeds a bound that is its largest value. -/
theorem rows_endless (rounds : Nat) (s : Screen) :
    fillRowsFor rounds sx sy 0xFFFF xlen color s = none := by
  refine repeatFor_eq_none (fun _ _ ↦ True) ?_ trivial rounds
  intro i s r s' _ hr
  have hmore : i ≤ 0xFFFF := UInt16.le_iff_toNat_le.2 (Nat.le_of_lt_succ i.toNat_lt)
  rw [if_pos hmore, bind_eq_some] at hr
  obtain ⟨_, t, -, hr⟩ := hr
  rw [bind_eq_some] at hr
  obtain ⟨_, u, -, hr⟩ := hr
  rw [bind_eq_some] at hr
  obtain ⟨_, v, -, hr⟩ := hr
  obtain ⟨rfl, -⟩ := Prod.mk.inj (Option.some.inj hr)
  exact ⟨i + 1, rfl, trivial⟩

theorem leaves_wrColors (n : Nat) (f : Nat → UInt16) : Leaves Screen.lcddev (wrColors n f) :=
  Leaves.forRange (fun j ↦ leaves_lcdWrData (f j)) n

/-- Otherwise it does. -/
theorem rows_end (sx sy xlen color : UInt16) (h : ey ≠ 0xFFFF) (s : Screen) :
    Run (fillRowsFor 0x10001 sx sy ey xlen color) s fun _ _ ↦ True := by
  have hey : ey.toNat < 0xFFFF :=
    lt_of_le_of_ne (Nat.le_of_lt_succ ey.toNat_lt) fun heq ↦ h (UInt16.toNat_inj.1 heq)
  have hrow : wrColorsFor 0x10001 xlen color = wrColors xlen.toNat fun _ ↦ color := by
    apply wrColorsFor_eq
    have hlt := xlen.toNat_lt
    omega
  refine run_repeatFor (fun _ _ ↦ True) (fun i _ ↦ ey.toNat + 1 - i.toNat) ?_ trivial ?_
  · intro i s _
    by_cases hi : i ≤ ey
    · have hle : i.toNat ≤ ey.toNat := UInt16.le_iff_toNat_le.1 hi
      have hnext : (i + 1).toNat = i.toNat + 1 := toNat_add_one (hle.trans_lt hey)
      rw [if_pos hi, hrow]
      refine (leaves_lcdSetCursor sx i).run_bind fun _ t _ ↦ ?_
      refine leaves_lcdWriteRamPrepare.run_bind fun _ u _ ↦ ?_
      refine (leaves_wrColors _ _).run_bind fun _ v _ ↦ ?_
      refine run_pure.2 ⟨trivial, ?_⟩
      show ey.toNat + 1 - (i + 1).toNat < ey.toNat + 1 - i.toNat
      omega
    · rw [if_neg hi]
      exact run_pure.2 trivial
  · show ey.toNat + 1 - sy.toNat < 0x10001
    omega

/-- `LCD_Fill` where it does not call itself. -/
theorem fillEnds_straight (h : ¬ (s.lcddev.id = 0x6804 ∧ s.lcddev.dir = 1)) :
    FillEnds s sx sy ex ey color ↔ ey ≠ 0xFFFF := by
  have hfor (rounds depth : Nat) : lcdFillFor rounds (depth + 1) sx sy ex ey color s =
      fillRowsFor rounds sx sy ey (ex - sx + 1) color s := by
    have hread : getDev s = some (s.lcddev, s) := rfl
    rw [lcdFillFor, bind_of_eq hread, if_neg h]
  constructor
  · rintro ⟨rounds, depth, hsome⟩ rfl
    cases depth with
    | zero => exact absurd hsome (by simp [lcdFillFor])
    | succ depth =>
        rw [hfor, rows_endless] at hsome
        exact absurd hsome (by simp)
  · intro hey
    obtain ⟨_, t, hrun, -⟩ := rows_end sx sy (ex - sx + 1) color hey s
    exact ⟨0x10001, 1, by rw [hfor, hrun]; rfl⟩

/-- `LCD_Fill` where it calls itself. -/
theorem fillEnds_turned (h : s.lcddev.id = 0x6804 ∧ s.lcddev.dir = 1) :
    FillEnds s sx sy ex ey color ↔
      FillEnds { s with lcddev := { s.lcddev with dir := 0, setxcmd := 0x2A, setycmd := 0x2B } }
        sy (s.lcddev.width - ex - 1) ey (s.lcddev.width - sx - 1) color := by
  have hread : getDev s = some (s.lcddev, s) := rfl
  constructor
  · rintro ⟨rounds, depth, hsome⟩
    obtain ⟨r, hr⟩ := Option.isSome_iff_exists.1 hsome
    cases depth with
    | zero => exact absurd hr (by simp [lcdFillFor])
    | succ depth =>
        rw [lcdFillFor, bind_of_eq hread, if_pos h, setDev, bind_of_eq (modify_apply _ _),
          bind_eq_some] at hr
        obtain ⟨_, t, hfill, -⟩ := hr
        exact ⟨rounds, depth, Option.isSome_iff_exists.2 ⟨_, hfill⟩⟩
  · rintro ⟨rounds, depth, hsome⟩
    obtain ⟨r, hr⟩ := Option.isSome_iff_exists.1 hsome
    refine ⟨rounds, depth + 1, ?_⟩
    rw [lcdFillFor, bind_of_eq hread, if_pos h, setDev, bind_of_eq (modify_apply _ _),
      bind_of_eq hr]
    rfl

/-- The turned rectangle ends in the largest row number exactly when it was to begin behind the last
column. -/
theorem turned_row_iff (width sx : UInt16) : width - sx - 1 ≠ 0xFFFF ↔ sx ≠ width := by
  have hlast : (0xFFFF : UInt16) = width - width - 1 := by
    rw [UInt16.sub_self]
    rfl
  rw [hlast, Ne, UInt16.sub_left_inj, UInt16.sub_right_inj]

/-- **The drawing loops end**, in every state of the driver and for all arguments, exactly where the
bound of the counter is not its largest value: `LCD_DrawLine` if the end points are less than 65534
pixels apart on both axes, `LCD_Fill` if the last row is not 65535, or, where it turns the
rectangle, if its first column is not the width of the display. -/
theorem drawing_ends_iff (s : Screen) :
    (∀ x1 y1 x2 y2, DrawLineEnds s x1 y1 x2 y2 ↔ span x1 x2 < 65534 ∧ span y1 y2 < 65534) ∧
      ∀ sx sy ex ey color, FillEnds s sx sy ex ey color ↔
        if s.lcddev.id = 0x6804 ∧ s.lcddev.dir = 1 then sx ≠ s.lcddev.width else ey ≠ 0xFFFF := by
  constructor
  · intro x1 y1 x2 y2
    rw [← max_lt_iff]
    exact drawLineEnds_iff s ⟨x1, y1⟩ ⟨x2, y2⟩
  · intro sx sy ex ey color
    by_cases hturn : s.lcddev.id = 0x6804 ∧ s.lcddev.dir = 1
    · have hzero : ¬ (0 : UInt8) = 1 := by decide
      rw [if_pos hturn, fillEnds_turned hturn, fillEnds_straight fun h ↦ hzero h.2, turned_row_iff]
    · rw [if_neg hturn, fillEnds_straight hturn]

/-- A display of 240 by 320 pixels in portrait, and one of 480 by 320 in the landscape of
`0X6804`. -/
def endlessScreen (turned : Bool) : Screen :=
  ⟨if turned then ⟨480, 320, 0x6804, 1, 0x2C, 0x2B, 0x2A⟩
    else ⟨240, 320, 0x9341, 0, 0x2C, 0x2A, 0x2B⟩,
    0, 0xFFFF, ⟨0, 0, fun _ _ ↦ 0, fun _ ↦ 0, (0, 0)⟩⟩

/-- A line over the whole range of a coordinate, a rectangle down to row 65535, and, turned, one of
no column behind the last: none of them ends. -/
theorem drawing_endless : ¬ DrawLineEnds (endlessScreen false) 0 0 0xFFFF 0 ∧
    ¬ FillEnds (endlessScreen false) 0 0 239 0xFFFF 0 ∧
    ¬ FillEnds (endlessScreen true) 480 0 480 10 0 := by
  refine ⟨?_, ?_, ?_⟩
  · rintro ⟨rounds, hsome⟩
    have hnone := line_endless (p := ⟨0, 0⟩) (q := ⟨0xFFFF, 0⟩) (by decide) rounds
      (endlessScreen false)
    rw [hnone] at hsome
    exact absurd hsome (by simp)
  · rw [fillEnds_straight (by decide)]
    exact fun h ↦ h rfl
  · rw [fillEnds_turned (by decide), fillEnds_straight (by decide)]
    exact fun h ↦ h (by decide)

end Stm32F1.Lcd

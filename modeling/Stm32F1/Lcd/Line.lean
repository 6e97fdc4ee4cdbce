import Stm32F1.Lib.Script

/-!
# Lines on the LCD

`LCD_DrawLine` runs two error accumulators against the longer distance.  After `t` rounds an axis
has moved `⌈t·δ / distance⌉ - 1` pixels, so that both axes reach the end point in the last round.
-/

namespace Stm32F1.Lcd

open Prog

variable {σ : Type}

/-! ## `lcd.c` -/

/-- The arguments of `LCD_DrawPoint`. -/
structure Point where
  x : UInt16
  y : UInt16
deriving DecidableEq

/-- The variables of the loop that belong to one axis: `xerr` and `uRow`, or `yerr` and `uCol`. -/
structure Axis where
  err : Int
  pos : Int

/-- `incx` or `incy`. -/
def increment (delta : Int) : Int := if delta > 0 then 1 else if delta = 0 then 0 else -1

/-- `xerr += delta_x; if ( xerr > distance ) …` -/
def Axis.step (distance delta inc : Int) (a : Axis) : Axis :=
  if a.err + delta > distance then ⟨a.err + delta - distance, a.pos + inc⟩
  else ⟨a.err + delta, a.pos⟩

/-- The loop of `LCD_DrawLine`. -/
def drawPoints (lcdDrawPoint : Point → Prog σ Unit) (distance deltaX deltaY incx incy : Int)
    (a : UInt16 × Axis × Axis) : Prog σ (UInt16 × Axis × Axis ⊕ Unit) :=
  if (a.1.toNat : Int) ≤ distance + 1 then do
    lcdDrawPoint ⟨UInt16.ofInt a.2.1.pos, UInt16.ofInt a.2.2.pos⟩
    pure (.inl (a.1 + 1, a.2.1.step distance deltaX incx, a.2.2.step distance deltaY incy))
  else pure (.inr ())

/-- `LCD_DrawLine`. -/
def lcdDrawLine (lcdDrawPoint : Point → Prog σ Unit) (x1 y1 x2 y2 : UInt16) : Prog σ Unit :=
  let deltaX : Int := x2.toNat - x1.toNat
  let deltaY : Int := y2.toNat - y1.toNat
  let incx := increment deltaX
  let incy := increment deltaY
  let deltaX := if deltaX < 0 then -deltaX else deltaX
  let deltaY := if deltaY < 0 then -deltaY else deltaY
  let distance := if deltaX > deltaY then deltaX else deltaY
  repeatM (drawPoints lcdDrawPoint distance deltaX deltaY incx incy)
    (0, ⟨0, x1.toNat⟩, ⟨0, y1.toNat⟩)

/-! ## One axis -/

/-- How far an axis has moved after `t` rounds. -/
def moved (distance delta t : Nat) : Nat := (t * delta - 1) / distance

variable {distance delta : Nat}

theorem moved_zero : moved distance delta 0 = 0 := by
  rw [moved, Nat.zero_mul]
  exact Nat.zero_div distance

/-- The quotient between its multiples. -/
theorem moved_mul_le (distance delta t : Nat) : moved distance delta t * distance ≤ t * delta - 1 :=
  Nat.div_mul_le_self _ _

theorem le_moved_mul (h0 : 0 < distance) (delta t : Nat) :
    t * delta ≤ moved distance delta t * distance + distance := by
  have h := Nat.lt_div_mul_add (a := t * delta - 1) h0
  change _ < moved distance delta t * distance + distance at h
  omega

/-- An axis moves in a round exactly when its accumulator overflows. -/
theorem moved_succ (hdelta : delta ≤ distance) (t : Nat) :
    moved distance delta (t + 1) =
      if t * delta - moved distance delta t * distance + delta > distance
      then moved distance delta t + 1 else moved distance delta t := by
  rcases Nat.eq_zero_or_pos distance with h0 | h0
  · obtain rfl : delta = 0 := by omega
    subst h0
    rfl
  · have hle := moved_mul_le distance delta t
    have hlt := le_moved_mul h0 delta t
    have hsucc : (t + 1) * delta = t * delta + delta := Nat.succ_mul t delta
    split
    · rename_i hover
      apply Nat.div_eq_of_lt_le
      · rw [hsucc, Nat.succ_mul]
        omega
      · rw [hsucc, Nat.succ_mul, Nat.succ_mul]
        omega
    · rename_i hover
      apply Nat.div_eq_of_lt_le
      · rw [hsucc]
        omega
      · rw [hsucc, Nat.succ_mul]
        omega

theorem moved_succ_bounds (hdelta : delta ≤ distance) (t : Nat) :
    moved distance delta t ≤ moved distance delta (t + 1) ∧
      moved distance delta (t + 1) ≤ moved distance delta t + 1 := by
  rw [moved_succ hdelta]
  split <;> omega

/-- The last round brings an axis to the end. -/
theorem moved_last (hdelta : delta ≤ distance) : moved distance delta (distance + 1) = delta := by
  rcases Nat.eq_zero_or_pos delta with rfl | h0
  · rw [moved, Nat.mul_zero]
    exact Nat.zero_div distance
  · have hsucc : (distance + 1) * delta = delta * distance + delta := by
      rw [Nat.succ_mul, Nat.mul_comm]
    apply Nat.div_eq_of_lt_le
    · rw [hsucc]
      omega
    · rw [hsucc, Nat.succ_mul]
      omega

theorem moved_mono (distance delta : Nat) : Monotone (moved distance delta) := by
  intro t u h
  apply Nat.div_le_div_right
  exact Nat.sub_le_sub_right (Nat.mul_le_mul_right delta h) 1

theorem moved_le (hdelta : delta ≤ distance) {t : Nat} (ht : t ≤ distance + 1) :
    moved distance delta t ≤ delta :=
  (moved_mono distance delta ht).trans_eq (moved_last hdelta)

/-- The longer axis moves in every round but the first. -/
theorem moved_self {t : Nat} (ht : t ≤ distance + 1) : moved distance distance t = t - 1 := by
  rcases Nat.eq_zero_or_pos distance with rfl | h0
  · rw [moved, Nat.div_zero]
    omega
  · cases t with
    | zero => exact moved_zero
    | succ t =>
        apply Nat.div_eq_of_lt_le
        · rw [Nat.add_sub_cancel, Nat.succ_mul]
          omega
        · rw [Nat.add_sub_cancel, Nat.succ_mul]
          omega

/-- The variables of an axis after `t` rounds. -/
def axisAfter (distance delta : Nat) (inc start : Int) (t : Nat) : Axis :=
  ⟨t * delta - moved distance delta t * distance, start + inc * moved distance delta t⟩

theorem axisAfter_zero (inc start : Int) : axisAfter distance delta inc start 0 = ⟨0, start⟩ := by
  unfold axisAfter
  rw [moved_zero]
  simp

theorem axisAfter_step (hdelta : delta ≤ distance) (inc start : Int) (t : Nat) :
    (axisAfter distance delta inc start t).step distance delta inc =
      axisAfter distance delta inc start (t + 1) := by
  have hle := moved_mul_le distance delta t
  have hcast : ((t * delta : Nat) : Int) = t * delta := by push_cast; rfl
  have hcast' : ((moved distance delta t * distance : Nat) : Int) =
      moved distance delta t * distance := by push_cast; rfl
  unfold Axis.step axisAfter
  rw [moved_succ hdelta]
  simp only
  by_cases hover : t * delta - moved distance delta t * distance + delta > distance
  · rw [if_pos hover, if_pos (by omega)]
    push_cast
    congr 1 <;> ring
  · rw [if_neg hover, if_neg (by omega)]
    push_cast
    congr 1
    ring

/-! ## One coordinate -/

/-- The number of pixels between two coordinates. -/
def span (s e : UInt16) : Nat := ((e.toNat : Int) - s.toNat).natAbs

/-- The coordinate of the point of round `t`. -/
def coord (distance : Nat) (s e : UInt16) (t : Nat) : UInt16 :=
  UInt16.ofInt (s.toNat + increment (e.toNat - s.toNat) * moved distance (span s e) t)

/-- A coordinate in the bounding box. -/
def Between (s e v : UInt16) : Prop := min s.toNat e.toNat ≤ v.toNat ∧ v.toNat ≤ max s.toNat e.toNat

/-- A coordinate of two points in a row: it changes by one at most, and never away from the end. -/
structure Toward (e v w : UInt16) : Prop where
  step : span v w ≤ 1
  nearer : span w e ≤ span v e

variable {s e : UInt16} {t : Nat}

theorem toNat_ofInt (z : Int) : ((UInt16.ofInt z).toNat : Int) = z % 2 ^ 16 := by
  have hnonneg : 0 ≤ z % 2 ^ 16 := Int.emod_nonneg z (by decide)
  have hlt : z % 2 ^ 16 < 2 ^ 16 := Int.emod_lt_of_pos z (by decide)
  have hofNat : (UInt16.ofNat (z % 2 ^ 16).toNat).toNat = (z % 2 ^ 16).toNat :=
    UInt16.toNat_ofNat_of_lt' (by show (z % 2 ^ 16).toNat < 65536; omega)
  rw [UInt16.ofInt, hofNat]
  exact Int.toNat_of_nonneg hnonneg

/-- The coordinate without the wrap, which does not happen. -/
theorem toNat_coord (hspan : span s e ≤ distance) (ht : t ≤ distance + 1) :
    ((coord distance s e t).toNat : Int) =
      s.toNat + increment (e.toNat - s.toNat) * moved distance (span s e) t ∧
    Between s e (coord distance s e t) := by
  have hmoved := moved_le hspan ht
  have hs := s.toNat_lt
  have he := e.toNat_lt
  have hval : ((coord distance s e t).toNat : Int) =
      (s.toNat + increment (e.toNat - s.toNat) * moved distance (span s e) t) % 2 ^ 16 :=
    toNat_ofInt _
  unfold Between
  unfold increment span at *
  split_ifs at * <;> omega

theorem coord_zero (s e : UInt16) : coord distance s e 0 = s := by
  have hs := s.toNat_lt
  have hval := toNat_ofInt (s.toNat + increment (e.toNat - s.toNat) * (0 : Nat))
  unfold coord
  rw [moved_zero]
  apply UInt16.toNat_inj.1
  omega

/-- Both axes reach the end point in the last round. -/
theorem coord_last (hspan : span s e ≤ distance) : coord distance s e (distance + 1) = e := by
  have hval := (toNat_coord hspan le_rfl).1
  rw [moved_last hspan] at hval
  apply UInt16.toNat_inj.1
  unfold increment span at hval
  split_ifs at hval <;> omega

theorem coord_toward (hspan : span s e ≤ distance) (ht : t < distance + 1) :
    Toward e (coord distance s e t) (coord distance s e (t + 1)) := by
  have hv := (toNat_coord hspan ht.le).1
  have hw := (toNat_coord (t := t + 1) hspan ht).1
  have hle := moved_le (t := t + 1) hspan ht
  obtain ⟨hmono, hstep⟩ := moved_succ_bounds hspan t
  constructor
  · unfold increment at hv hw
    rw [span]
    split_ifs at hv hw <;> omega
  · have hse : span s e = ((e.toNat : Int) - s.toNat).natAbs := rfl
    unfold increment at hv hw
    rw [span, span]
    split_ifs at hv hw <;> omega

/-- The longer axis passes every coordinate. -/
theorem exists_coord_eq {v : UInt16} (hv : Between s e v) :
    ∃ t < span s e + 2, coord (span s e) s e t = v := by
  refine ⟨((v.toNat : Int) - s.toNat).natAbs + 1, ?_, ?_⟩
  · unfold Between at hv
    unfold span
    omega
  · have ht : ((v.toNat : Int) - s.toNat).natAbs + 1 ≤ span s e + 1 := by
      unfold Between at hv
      unfold span
      omega
    have hval := (toNat_coord le_rfl ht).1
    rw [moved_self ht] at hval
    apply UInt16.toNat_inj.1
    unfold Between at hv
    unfold increment at hval
    split_ifs at hval <;> omega

/-! ## The points -/

/-- The number of rounds but two. -/
def distanceOf (p q : Point) : Nat := max (span p.x q.x) (span p.y q.y)

theorem span_x_le (p q : Point) : span p.x q.x ≤ distanceOf p q := le_max_left _ _

theorem span_y_le (p q : Point) : span p.y q.y ≤ distanceOf p q := le_max_right _ _

/-- The point of round `t`. -/
def pointAt (p q : Point) (t : Nat) : Point :=
  ⟨coord (distanceOf p q) p.x q.x t, coord (distanceOf p q) p.y q.y t⟩

/-- The points of a line from `p` to `q`. -/
def linePoints (p q : Point) : List Point := (List.range (distanceOf p q + 2)).map (pointAt p q)

/-- The variables of the loop after `t` rounds. -/
def lineVars (p q : Point) (t : Nat) : UInt16 × Axis × Axis :=
  (UInt16.ofNat t,
    axisAfter (distanceOf p q) (span p.x q.x) (increment (q.x.toNat - p.x.toNat)) p.x.toNat t,
    axisAfter (distanceOf p q) (span p.y q.y) (increment (q.y.toNat - p.y.toNat)) p.y.toNat t)

theorem natAbs_eq_ite (d : Int) : (if d < 0 then -d else d) = (d.natAbs : Int) := by
  split <;> omega

theorem max_eq_ite (m n : Nat) : (if (m : Int) > n then (m : Int) else n) = (max m n : Nat) := by
  split <;> omega

/-- The increments and the distance that the source computes. -/
theorem lcdDrawLine_eq (draw : Point → Prog σ Unit) (p q : Point) :
    lcdDrawLine draw p.x p.y q.x q.y = repeatM (drawPoints draw (distanceOf p q) (span p.x q.x)
      (span p.y q.y) (increment (q.x.toNat - p.x.toNat)) (increment (q.y.toNat - p.y.toNat)))
      (lineVars p q 0) := by
  unfold lcdDrawLine lineVars
  simp only [natAbs_eq_ite, max_eq_ite, axisAfter_zero]
  rfl

theorem drawPoints_round (draw : Point → Prog σ Unit) (p q : Point)
    (hdistance : distanceOf p q + 2 < 2 ^ 16) (ht : t < distanceOf p q + 2) :
    drawPoints draw (distanceOf p q) (span p.x q.x) (span p.y q.y)
      (increment (q.x.toNat - p.x.toNat)) (increment (q.y.toNat - p.y.toNat)) (lineVars p q t) =
    draw (pointAt p q t) >>= fun _ ↦ pure (.inl (lineVars p q (t + 1))) := by
  have htoNat : (UInt16.ofNat t).toNat = t :=
    UInt16.toNat_ofNat_of_lt' (by show t < 65536; omega)
  have hle : ((lineVars p q t).1.toNat : Int) ≤ (distanceOf p q : Int) + 1 := by
    show ((UInt16.ofNat t).toNat : Int) ≤ (distanceOf p q : Int) + 1
    omega
  unfold drawPoints
  rw [if_pos hle]
  have hvars : ((lineVars p q t).1 + 1,
      (lineVars p q t).2.1.step (distanceOf p q) (span p.x q.x)
        (increment (q.x.toNat - p.x.toNat)),
      (lineVars p q t).2.2.step (distanceOf p q) (span p.y q.y)
        (increment (q.y.toNat - p.y.toNat))) = lineVars p q (t + 1) := by
    refine Prod.ext (UInt16.ofNat_add t 1).symm (Prod.ext ?_ ?_)
    · exact axisAfter_step (span_x_le p q) _ _ t
    · exact axisAfter_step (span_y_le p q) _ _ t
  rw [hvars]
  rfl

/-- `LCD_DrawLine` plots these points. -/
theorem lcdDrawLine_plays (p q : Point) (hdistance : distanceOf p q + 2 < 2 ^ 16) :
    Plays (fun _ draw ↦ lcdDrawLine draw p.x p.y q.x q.y) (linePoints p q) := by
  intro σ draw
  show lcdDrawLine draw p.x p.y q.x q.y = play draw (linePoints p q)
  rw [lcdDrawLine_eq]
  apply repeatM_play (lineVars p q) (pointAt p q)
  · intro t ht
    exact drawPoints_round draw p q hdistance ht
  · have htoNat : (UInt16.ofNat (distanceOf p q + 2)).toNat = distanceOf p q + 2 :=
      UInt16.toNat_ofNat_of_lt' hdistance
    apply if_neg
    show ¬ ((UInt16.ofNat (distanceOf p q + 2)).toNat : Int) ≤ (distanceOf p q : Int) + 1
    omega

/-! ## The law of a line -/

/-- Along the axis `long` every coordinate is met, and along the other one every point is less than
a pixel away from the segment. -/
structure Along (long short : Point → UInt16) (p q : Point) (points : List Point) : Prop where
  covered : ∀ v, Between (long p) (long q) v → ∃ r ∈ points, long r = v
  near : ∀ r ∈ points, |((short r).toNat : ℚ) - ((short p).toNat +
    ((long r).toNat - (long p).toNat) *
      (((short q).toNat - (short p).toNat) / ((long q).toNat - (long p).toNat)))| < 1

/-- The points rasterise the segment from `p` to `q`. -/
structure Rasterises (p q : Point) (points : List Point) : Prop where
  length : points.length = max (span p.x q.x) (span p.y q.y) + 2
  first : points.head? = some p
  last : points.getLast? = some q
  steps : points.IsChain fun r r' ↦ Toward q.x r.x r'.x ∧ Toward q.y r.y r'.y
  box : ∀ r ∈ points, Between p.x q.x r.x ∧ Between p.y q.y r.y
  alongX : span p.y q.y ≤ span p.x q.x → Along Point.x Point.y p q points
  alongY : span p.x q.x ≤ span p.y q.y → Along Point.y Point.x p q points

/-- In the round where the longer axis has moved `t - 1` pixels, the shorter one is less than a
pixel away from its share of them. -/
theorem moved_near (hdelta : delta ≤ distance) (h0 : 0 < distance) (t : Nat) :
    moved distance delta t * distance < (t - 1) * delta + distance ∧
      (t - 1) * delta < moved distance delta t * distance + distance := by
  have hle := moved_mul_le distance delta t
  have hge := le_moved_mul h0 delta t
  cases t with
  | zero =>
      rw [moved_zero]
      omega
  | succ t =>
      have hsucc : (t + 1) * delta = t * delta + delta := Nat.succ_mul t delta
      rw [Nat.add_sub_cancel]
      rcases Nat.eq_zero_or_pos delta with rfl | hpos
      · rw [Nat.mul_zero] at hle ⊢
        omega
      · omega

theorem sub_eq_increment_mul_span (s e : UInt16) :
    (e.toNat : Int) - s.toNat = increment (e.toNat - s.toNat) * span s e := by
  unfold increment span
  split_ifs <;> omega

theorem increment_cases (d : Int) : increment d = 0 ∧ d = 0 ∨ increment d = 1 ∨
    increment d = -1 := by
  unfold increment
  split_ifs with hpos hzero
  · exact .inr (.inl rfl)
  · exact .inl ⟨rfl, hzero⟩
  · exact .inr (.inr rfl)

/-- The share of the shorter axis, over the rationals. -/
theorem abs_sub_share_lt {m n : Nat} {i j : ℚ} (hi : i = 1 ∨ i = -1) (hj : j = 0 ∨ j = 1 ∨ j = -1)
    (h0 : 0 < distance) (hlt : n * distance < m * delta + distance)
    (hgt : m * delta < n * distance + distance) :
    |j * n - i * m * ((j * delta) / (i * distance))| < 1 := by
  have hpos : (0 : ℚ) < distance := Nat.cast_pos.2 h0
  have hlt : (n : ℚ) * distance < m * delta + distance := by exact_mod_cast hlt
  have hgt : (m : ℚ) * delta < n * distance + distance := by exact_mod_cast hgt
  have hshare : i * m * ((j * delta) / (i * distance)) = j * (m * delta / distance) := by
    rcases hi with rfl | rfl <;> field_simp
  have hnear : |(n : ℚ) - m * delta / distance| < 1 := by
    rw [abs_lt, lt_sub_iff_add_lt, sub_lt_iff_lt_add, ← sub_lt_iff_lt_add', lt_div_iff₀ hpos,
      ← lt_sub_iff_add_lt', div_lt_iff₀ hpos]
    constructor <;> linarith
  rw [hshare, ← mul_sub, abs_mul]
  rcases hj with rfl | rfl | rfl
  · simp
  · simpa using hnear
  · simpa using hnear

/-- The short axis against the long one, in a round of the loop. -/
theorem coord_near {s₁ e₁ s₂ e₂ : UInt16} (hspan : span s₂ e₂ ≤ span s₁ e₁)
    (ht : t ≤ span s₁ e₁ + 1) :
    |((coord (span s₁ e₁) s₂ e₂ t).toNat : ℚ) - (s₂.toNat +
      ((coord (span s₁ e₁) s₁ e₁ t).toNat - s₁.toNat) *
        ((e₂.toNat - s₂.toNat) / (e₁.toNat - s₁.toNat)))| < 1 := by
  have hlong := (toNat_coord le_rfl ht).1
  have hshort := (toNat_coord hspan ht).1
  rw [moved_self ht] at hlong
  have hlong : ((coord (span s₁ e₁) s₁ e₁ t).toNat : ℚ) =
      s₁.toNat + (increment (e₁.toNat - s₁.toNat) : ℤ) * (t - 1 : Nat) := by exact_mod_cast hlong
  have hshort : ((coord (span s₁ e₁) s₂ e₂ t).toNat : ℚ) =
      s₂.toNat + (increment (e₂.toNat - s₂.toNat) : ℤ) * moved (span s₁ e₁) (span s₂ e₂) t := by
    exact_mod_cast hshort
  have hd₁ : (e₁.toNat : ℚ) - s₁.toNat = (increment (e₁.toNat - s₁.toNat) : ℤ) * span s₁ e₁ := by
    exact_mod_cast sub_eq_increment_mul_span s₁ e₁
  have hd₂ : (e₂.toNat : ℚ) - s₂.toNat = (increment (e₂.toNat - s₂.toNat) : ℤ) * span s₂ e₂ := by
    exact_mod_cast sub_eq_increment_mul_span s₂ e₂
  rw [hlong, hshort, hd₁, hd₂, add_sub_cancel_left, add_sub_add_left_eq_sub]
  rcases Nat.eq_zero_or_pos (span s₁ e₁) with h0 | h0
  · have hzero : moved (span s₁ e₁) (span s₂ e₂) t = 0 := by
      have := moved_le hspan ht
      omega
    rw [hzero, h0]
    simp
  · obtain ⟨hlt, hgt⟩ := moved_near hspan h0 t
    refine abs_sub_share_lt ?_ ?_ h0 hlt hgt
    · rcases increment_cases (e₁.toNat - s₁.toNat) with ⟨-, heq⟩ | h | h
      · unfold span at h0
        omega
      · left
        exact_mod_cast h
      · right
        exact_mod_cast h
    · rcases increment_cases (e₂.toNat - s₂.toNat) with ⟨h, -⟩ | h | h
      · left
        exact_mod_cast h
      · right
        left
        exact_mod_cast h
      · right
        right
        exact_mod_cast h

variable {p q : Point}

theorem mem_linePoints {r : Point} (h : r ∈ linePoints p q) :
    ∃ t ≤ distanceOf p q + 1, r = pointAt p q t := by
  obtain ⟨t, ht, rfl⟩ := List.mem_map.1 h
  exact ⟨t, Nat.lt_succ_iff.1 (List.mem_range.1 ht), rfl⟩

theorem linePoints_steps (p q : Point) :
    (linePoints p q).IsChain fun r r' ↦ Toward q.x r.x r'.x ∧ Toward q.y r.y r'.y := by
  refine List.isChain_iff_getElem.2 ?_
  intro t ht
  rw [linePoints, List.length_map, List.length_range] at ht
  have ht : t < distanceOf p q + 1 := by omega
  simp only [linePoints, List.getElem_map, List.getElem_range]
  exact ⟨coord_toward (span_x_le p q) ht, coord_toward (span_y_le p q) ht⟩

/-- The longer axis takes part in every round, the shorter one in its share of them. -/
theorem linePoints_along {long short : Point → UInt16}
    (hdistance : distanceOf p q = span (long p) (long q))
    (hspan : span (short p) (short q) ≤ span (long p) (long q))
    (hlong : ∀ t, long (pointAt p q t) = coord (distanceOf p q) (long p) (long q) t)
    (hshort : ∀ t, short (pointAt p q t) = coord (distanceOf p q) (short p) (short q) t) :
    Along long short p q (linePoints p q) := by
  constructor
  · intro v hv
    obtain ⟨t, ht, heq⟩ := exists_coord_eq hv
    refine ⟨pointAt p q t, List.mem_map_of_mem (List.mem_range.2 ?_), ?_⟩
    · rw [hdistance]
      exact ht
    · rw [hlong, hdistance]
      exact heq
  · intro r hr
    obtain ⟨t, ht, rfl⟩ := mem_linePoints hr
    rw [hlong, hshort, hdistance]
    exact coord_near hspan (hdistance ▸ ht)

theorem linePoints_rasterises (p q : Point) : Rasterises p q (linePoints p q) where
  length := by
    rw [linePoints, List.length_map, List.length_range]
    rfl
  first := by
    rw [linePoints, List.range_succ_eq_map, List.map_cons, List.head?_cons]
    exact congrArg some (congrArg₂ Point.mk (coord_zero p.x q.x) (coord_zero p.y q.y))
  last := by
    rw [linePoints, List.range_succ, List.map_append, List.map_singleton, List.getLast?_concat]
    exact congrArg some
      (congrArg₂ Point.mk (coord_last (span_x_le p q)) (coord_last (span_y_le p q)))
  steps := linePoints_steps p q
  box r hr := by
    obtain ⟨t, ht, rfl⟩ := mem_linePoints hr
    exact ⟨(toNat_coord (span_x_le p q) ht).2, (toNat_coord (span_y_le p q) ht).2⟩
  alongX h := linePoints_along (max_eq_left h) h (fun _ ↦ rfl) fun _ ↦ rfl
  alongY h := linePoints_along (max_eq_right h) h (fun _ ↦ rfl) fun _ ↦ rfl

/-- **`LCD_DrawLine` rasterises the segment** between its end points. -/
theorem lcdDrawLine_rasterises {x1 y1 x2 y2 : UInt16} (hx1 : x1.toNat < 32768)
    (hy1 : y1.toNat < 32768) (hx2 : x2.toNat < 32768) (hy2 : y2.toNat < 32768) :
    ∃ points, Plays (fun _ draw ↦ lcdDrawLine draw x1 y1 x2 y2) points ∧
      Rasterises ⟨x1, y1⟩ ⟨x2, y2⟩ points := by
  refine ⟨_, lcdDrawLine_plays ⟨x1, y1⟩ ⟨x2, y2⟩ ?_, linePoints_rasterises _ _⟩
  show max (span x1 x2) (span y1 y2) + 2 < 2 ^ 16
  unfold span
  omega

/-- A steep line upwards. -/
theorem lcdDrawLine_steep :
    ∃ points, Plays (fun _ draw ↦ lcdDrawLine draw 3 9 5 2) points ∧
    Rasterises ⟨3, 9⟩ ⟨5, 2⟩ points :=
  lcdDrawLine_rasterises (by decide) (by decide) (by decide) (by decide)

example : linePoints ⟨3, 9⟩ ⟨5, 2⟩ =
    [⟨3, 9⟩, ⟨3, 9⟩, ⟨3, 8⟩, ⟨3, 7⟩, ⟨4, 6⟩, ⟨4, 5⟩, ⟨4, 4⟩, ⟨4, 3⟩, ⟨5, 2⟩] := by decide

end Stm32F1.Lcd

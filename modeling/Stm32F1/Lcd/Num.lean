import Stm32F1.Lib.Script

/-!
# Numbers on the LCD

`LCD_ShowNum` and `LCD_ShowxNum` divide by a power of ten for every digit.  The powers are 32 bits
wide: from 10¹⁰ on they are wrapped, and from 10³² on they are zero.
-/

namespace Stm32F1.Lcd

open Prog

variable {σ : Type}

/-! ## `lcd.c` -/

/-- A call of `LCD_ShowChar`. -/
structure Shown where
  x : UInt16
  y : UInt16
  num : UInt8
  size : UInt8
  mode : UInt8
deriving DecidableEq

/-- `LCD_Pow`. -/
def lcdPow (m n : UInt8) : UInt32 := (fun result ↦ result * m.toUInt32)^[n.toNat] 1

/-- A division, which does not return when the divisor is zero. -/
def divide (a b : UInt32) : Prog σ UInt32 := if b = 0 then fun _ ↦ none else pure (a / b)

/-- The digits from `t` on, `n` of them, of `LCD_ShowNum` and `LCD_ShowxNum`; a leading zero is
shown as `blank`. -/
def showDigits (lcdShowChar : Shown → Prog σ Unit) (x y : UInt16) (num : UInt32)
    (len size blank mode : UInt8) : (t n : Nat) → (enshow : Bool) → Prog σ Unit
  | _, 0, _ => pure ()
  | t, n + 1, enshow => do
      let quotient ← divide num (lcdPow 10 (len - UInt8.ofNat t - 1))
      let temp := (quotient % 10).toUInt8
      let xt := x + UInt16.ofNat (size.toNat / 2 * t)
      if enshow = false ∧ t < len.toNat - 1 then
        if temp = 0 then do
          lcdShowChar ⟨xt, y, blank, size, mode⟩
          showDigits lcdShowChar x y num len size blank mode (t + 1) n enshow
        else do
          lcdShowChar ⟨xt, y, temp + 48, size, mode⟩
          showDigits lcdShowChar x y num len size blank mode (t + 1) n true
      else do
        lcdShowChar ⟨xt, y, temp + 48, size, mode⟩
        showDigits lcdShowChar x y num len size blank mode (t + 1) n enshow

/-- `LCD_ShowNum`: leading zeros are blanks. -/
def lcdShowNum (lcdShowChar : Shown → Prog σ Unit) (x y : UInt16) (num : UInt32)
    (len size : UInt8) : Prog σ Unit :=
  showDigits lcdShowChar x y num len size 32 0 0 len.toNat false

/-- What `LCD_ShowxNum` shows for a leading zero. -/
def leading (mode : UInt8) : UInt8 := if mode &&& 0x80 ≠ 0 then 48 else 32

/-- `LCD_ShowxNum`. -/
def lcdShowxNum (lcdShowChar : Shown → Prog σ Unit) (x y : UInt16) (num : UInt32)
    (len size mode : UInt8) : Prog σ Unit :=
  showDigits lcdShowChar x y num len size (leading mode) (mode &&& 0x01) 0 len.toNat false

/-! ## The rendering of a number -/

/-- The character of a digit. -/
def digitChar (d : Nat) : UInt8 := UInt8.ofNat (48 + d)

/-- The decimal digits of `num` modulo 10ˡᵉⁿ, `len` of them, the highest first. -/
def rendering (num len : Nat) : List Nat := (Nat.digitsAppend 10 len (num % 10 ^ len)).reverse

/-- The characters of the digits, every leading zero replaced, except in the last position. -/
def blanked (blank : UInt8) : List Nat → List UInt8
  | [] => []
  | [d] => [digitChar d]
  | d :: e :: ds =>
      if d = 0 then blank :: blanked blank (e :: ds) else (d :: e :: ds).map digitChar

theorem blanked_cons {blank : UInt8} {d : Nat} {ds : List Nat} (h : ds ≠ []) :
    blanked blank (d :: ds) =
      if d = 0 then blank :: blanked blank ds else (d :: ds).map digitChar := by
  cases ds with
  | nil => exact absurd rfl h
  | cons e ds => rfl

/-- The characters side by side, from the place `t` on. -/
def placed (x y : UInt16) (size mode : UInt8) : Nat → List UInt8 → List Shown
  | _, [] => []
  | t, c :: cs =>
      ⟨x + UInt16.ofNat (size.toNat / 2 * t), y, c, size, mode⟩ :: placed x y size mode (t + 1) cs

theorem length_rendering (num len : Nat) : (rendering num len).length = len := by
  rw [rendering, List.length_reverse, Nat.length_digitsAppend (by decide)]
  exact Nat.mod_lt _ (Nat.pow_pos (by decide))

/-- The digits of a number below 10ˡᵉⁿ are those of the number. -/
theorem mod_pow_div_mod (num : Nat) {i len : Nat} (h : i < len) :
    num % 10 ^ len / 10 ^ i % 10 = num / 10 ^ i % 10 := by
  obtain ⟨k, rfl⟩ := Nat.exists_eq_add_of_lt h
  rw [Nat.add_assoc, Nat.pow_add, Nat.mod_mul_right_div_self]
  exact Nat.mod_mod_of_dvd _ (Dvd.intro_left (10 ^ k) rfl)

/-- The zeros that are appended are the digits beyond the highest one. -/
theorem getD_digitsAppend (b l n i : Nat) :
    (Nat.digitsAppend b l n).getD i 0 = (Nat.digits b n).getD i 0 := by
  unfold Nat.digitsAppend
  rcases Nat.lt_or_ge i (Nat.digits b n).length with hi | hi
  · rw [List.getD_append _ _ _ _ hi]
  · rw [List.getD_append_right _ _ _ _ hi, List.getD_eq_default _ _ hi, List.getD_eq_getElem?_getD,
      List.getElem?_replicate]
    split <;> rfl

theorem rendering_eq (num len : Nat) :
    rendering num len = (List.range len).map fun t ↦ num / 10 ^ (len - 1 - t) % 10 := by
  have hlen : (Nat.digitsAppend 10 len (num % 10 ^ len)).length = len := by
    rw [← List.length_reverse]
    exact length_rendering num len
  refine List.ext_getElem ?_ ?_
  · rw [length_rendering, List.length_map, List.length_range]
  · intro t ht ht'
    rw [length_rendering] at ht
    have hi : len - 1 - t < len := by omega
    rw [List.getElem_map, List.getElem_range, ← mod_pow_div_mod num hi,
      ← Nat.getD_digits _ _ (by decide), ← getD_digitsAppend 10 len,
      List.getD_eq_getElem _ _ (hlen.symm ▸ hi)]
    simp only [rendering, List.getElem_reverse, hlen]

/-! ## The characters that are shown -/

theorem toNat_lcdPow (m n : UInt8) : (lcdPow m n).toNat = m.toNat ^ n.toNat % 2 ^ 32 := by
  unfold lcdPow
  generalize n.toNat = k
  induction k with
  | zero => rfl
  | succ k ih =>
      rw [Function.iterate_succ_apply', UInt32.toNat_mul, ih, UInt8.toNat_toUInt32, Nat.mod_mul_mod,
        ← Nat.pow_succ]

/-- The digit that is divided out for the place `t`. -/
def digitAt (num len t : Nat) : Nat := num / (10 ^ (len - 1 - t) % 2 ^ 32) % 10

/-- The digits that are divided out, from the place `t` on. -/
def digitsFrom (num len : Nat) : (t n : Nat) → List Nat
  | _, 0 => []
  | t, n + 1 => digitAt num len t :: digitsFrom num len (t + 1) n

theorem digitsFrom_eq (num len t n : Nat) :
    digitsFrom num len t n = (List.range' t n).map (digitAt num len) := by
  induction n generalizing t with
  | zero => rfl
  | succ n ih => rw [digitsFrom, ih, List.range'_succ, List.map_cons]

variable {num : UInt32} {len : UInt8} {t n : Nat}

theorem toNat_power (h : t < len.toNat) :
    (lcdPow 10 (len - UInt8.ofNat t - 1)).toNat = 10 ^ (len.toNat - 1 - t) % 2 ^ 32 := by
  have hlen := len.toNat_lt
  have hof : (UInt8.ofNat t).toNat = t := UInt8.toNat_ofNat_of_lt' (h.trans hlen)
  have hle : UInt8.ofNat t ≤ len := by
    rw [UInt8.le_iff_toNat_le, hof]
    exact h.le
  have hone : 1 ≤ len - UInt8.ofNat t := by
    rw [UInt8.le_iff_toNat_le, UInt8.toNat_sub_of_le _ _ hle, hof, UInt8.toNat_one]
    omega
  have hexp : (len - UInt8.ofNat t - 1).toNat = len.toNat - 1 - t := by
    rw [UInt8.toNat_sub_of_le _ _ hone, UInt8.toNat_sub_of_le _ _ hle, hof, UInt8.toNat_one]
    omega
  rw [toNat_lcdPow, hexp]
  rfl

variable (σ num) in
/-- A division whose power is not zero gives the digit. -/
theorem divide_power (h : t < len.toNat) (hpos : 10 ^ (len.toNat - 1 - t) % 2 ^ 32 ≠ 0) :
    ∃ q : UInt32, (divide num (lcdPow 10 (len - UInt8.ofNat t - 1)) : Prog σ UInt32) = pure q ∧
      (q % 10).toUInt8 = UInt8.ofNat (digitAt num.toNat len.toNat t) := by
  have hne : lcdPow 10 (len - UInt8.ofNat t - 1) ≠ 0 := by
    intro h0
    rw [← toNat_power h, h0] at hpos
    exact hpos rfl
  refine ⟨_, if_neg hne, ?_⟩
  apply UInt8.toNat_inj.1
  rw [UInt32.toNat_toUInt8, UInt32.toNat_mod, UInt32.toNat_div, toNat_power h]
  rfl

theorem digitAt_lt (num len t : Nat) : digitAt num len t < 10 := Nat.mod_lt _ (by decide)

theorem digitChar_eq (d : Nat) : UInt8.ofNat d + 48 = digitChar d := by
  unfold digitChar
  rw [Nat.add_comm, UInt8.ofNat_add]
  rfl

/-- The loop shows the digits that are divided out, the leading zeros replaced until the first digit
that is not zero. -/
theorem showDigits_eq (f : Shown → Prog σ Unit) (x y : UInt16) (size blank mode : UInt8)
    (hpos : ∀ t < len.toNat, 10 ^ (len.toNat - 1 - t) % 2 ^ 32 ≠ 0) (htn : t + n = len.toNat) :
    showDigits f x y num len size blank mode t n false = play f (placed x y size mode t
      (blanked blank (digitsFrom num.toNat len.toNat t n))) ∧
    showDigits f x y num len size blank mode t n true = play f (placed x y size mode t
      ((digitsFrom num.toNat len.toNat t n).map digitChar)) := by
  induction n generalizing t with
  | zero => exact ⟨rfl, rfl⟩
  | succ n ih =>
      have ht : t < len.toNat := by omega
      obtain ⟨q, hq, htemp⟩ := divide_power σ num ht (hpos t ht)
      obtain ⟨hfalse, htrue⟩ := ih (t := t + 1) (by omega)
      have hzero : UInt8.ofNat (digitAt num.toNat len.toNat t) = 0 ↔
          digitAt num.toNat len.toNat t = 0 := by
        rw [← UInt8.toNat_inj, UInt8.toNat_ofNat_of_lt' (lt_trans (digitAt_lt _ _ t) (by decide))]
        rfl
      constructor
      · unfold showDigits
        rw [hq, pure_bind', htemp, hfalse, htrue]
        simp only [digitChar_eq, hzero, true_and]
        cases n with
        | zero =>
            rw [if_neg (by omega)]
            rfl
        | succ n =>
            have hcons : digitsFrom num.toNat len.toNat t (n + 1 + 1) =
                digitAt num.toNat len.toNat t ::
                  digitsFrom num.toNat len.toNat (t + 1) (n + 1) := rfl
            have hne : digitsFrom num.toNat len.toNat (t + 1) (n + 1) ≠ [] := List.cons_ne_nil _ _
            rw [if_pos (by omega), hcons, blanked_cons hne]
            by_cases hd : digitAt num.toNat len.toNat t = 0
            · rw [if_pos hd, if_pos hd]
              rfl
            · rw [if_neg hd, if_neg hd]
              rfl
      · unfold showDigits
        rw [hq, pure_bind', htemp, htrue]
        simp only [digitChar_eq, Bool.true_eq_false, false_and, if_false]
        rfl

/-! ## Which numbers are shown right -/

/-- A leading zero is shown as a blank or as a zero. -/
def Leading (blank : UInt8) : Prop := blank = 32 ∨ blank = 48

theorem leading_mode (mode : UInt8) : Leading (leading mode) := by
  unfold leading
  split
  · exact .inr rfl
  · exact .inl rfl

/-- The digit that a character shows. -/
def shownDigit (c : UInt8) : Nat := if c = 32 then 0 else c.toNat - 48

theorem shownDigit_digitChar {d : Nat} (h : d < 10) : shownDigit (digitChar d) = d := by
  unfold shownDigit digitChar
  have hnat : (UInt8.ofNat (48 + d)).toNat = 48 + d :=
    UInt8.toNat_ofNat_of_lt' (by show 48 + d < 256; omega)
  rw [if_neg ?_, hnat, Nat.add_sub_cancel_left]
  intro h32
  rw [h32] at hnat
  have hval : (32 : UInt8).toNat = 32 := rfl
  omega

/-- The digits can be read off the characters. -/
theorem map_shownDigit {ds : List Nat} (h : ∀ d ∈ ds, d < 10) :
    (ds.map digitChar).map shownDigit = ds := by
  rw [List.map_map]
  refine (List.map_congr_left ?_).trans (List.map_id ds)
  intro d hd
  exact shownDigit_digitChar (h d hd)

/-- Nothing is lost by replacing the leading zeros. -/
theorem map_shownDigit_blanked {blank : UInt8} (hblank : Leading blank) {ds : List Nat}
    (h : ∀ d ∈ ds, d < 10) : (blanked blank ds).map shownDigit = ds := by
  induction ds with
  | nil => rfl
  | cons d ds ih =>
      cases ds with
      | nil => exact map_shownDigit h
      | cons e ds =>
          rw [blanked_cons (List.cons_ne_nil e ds)]
          split
          · rename_i hd
            have hzero : shownDigit blank = 0 := by
              rcases hblank with rfl | rfl <;> rfl
            rw [List.map_cons, ih fun d' hd' ↦ h d' (List.mem_cons_of_mem d hd'), hzero, hd]
          · exact map_shownDigit h

/-- The numbers that are shown right in `len` digits are those below this limit. -/
def limit (len : Nat) : Nat :=
  if len ≤ 10 then 2 ^ 32
  else if len ≤ 11 then 1410065408
  else if len ≤ 14 then 1215752192
  else if len ≤ 28 then 276447232
  else if len ≤ 32 then 268435456
  else 0

theorem limit_antitone {m n : Nat} (h : m ≤ n) : limit n ≤ limit m := by
  unfold limit
  split_ifs <;> omega

/-- The limit is at most every wrapped power that is divided by. -/
theorem limit_le_power {e : Nat} (h : 10 ≤ e) : limit (e + 1) ≤ 10 ^ e % 2 ^ 32 := by
  rcases Nat.lt_or_ge e 32 with hlt | hge
  · have hall : ∀ e < 32, 10 ≤ e → limit (e + 1) ≤ 10 ^ e % 2 ^ 32 := by decide
    exact hall e hlt h
  · have hzero : limit (e + 1) = 0 := by
      unfold limit
      split_ifs <;> omega
    rw [hzero]
    exact Nat.zero_le _

/-- A number of 32 bits has at most ten digits. -/
theorem lt_ten_pow {n e : Nat} (hn : n < 2 ^ 32) (he : 10 ≤ e) : n < 10 ^ e :=
  (hn.trans (by decide)).trans_le (Nat.pow_le_pow_right (by decide) he)

/-- The first digit of a number is not zero. -/
theorem lt_of_digit_eq_zero {n p : Nat} (hsmall : n < 10 * p) (h : n / p % 10 = 0) : n < p := by
  have hlt : n / p < 10 := Nat.div_lt_of_lt_mul (Nat.mul_comm 10 p ▸ hsmall)
  rw [Nat.mod_eq_of_lt hlt] at h
  rcases Nat.div_eq_zero_iff.1 h with rfl | hp
  · exact absurd hsmall (Nat.not_lt_zero n)
  · exact hp

/-- Below the tenth power nothing wraps; above it the true digits are zero, and the wrapped powers
give zeros exactly for the numbers below the limit. -/
theorem digits_iff {n len : Nat} (hn : n < 2 ^ 32) (hlen : len ≤ 32) :
    (∀ e < len, n / (10 ^ e % 2 ^ 32) % 10 = n / 10 ^ e % 10) ↔ n < limit len := by
  constructor
  · intro h
    have hzero : ∀ e < len, 10 ≤ e → n / (10 ^ e % 2 ^ 32) % 10 = 0 := by
      intro e he hge
      rw [h e he, Nat.div_eq_of_lt (lt_ten_pow hn hge)]
    have hbelow (e p : Nat) (hp : 10 ^ e % 2 ^ 32 = p) (hge : 10 ≤ e) (he : e < len)
        (hsmall : n < 10 * p) : n < p := by
      have hdigit := hzero e he hge
      rw [hp] at hdigit
      exact lt_of_digit_eq_zero hsmall hdigit
    have h10 : 10 < len → n < 1410065408 := fun he ↦
      hbelow 10 _ (by decide) (by decide) he (hn.trans (by decide))
    have h11 : 11 < len → n < 1215752192 := fun he ↦
      hbelow 11 _ (by decide) (by decide) he (hn.trans (by decide))
    have h14 : 14 < len → n < 276447232 := fun he ↦
      hbelow 14 _ (by decide) (by decide) he ((h11 (by omega)).trans (by decide))
    have h28 : 28 < len → n < 268435456 := fun he ↦
      hbelow 28 _ (by decide) (by decide) he ((h14 (by omega)).trans (by decide))
    unfold limit
    split_ifs
    · exact hn
    · exact h10 (by omega)
    · exact h11 (by omega)
    · exact h14 (by omega)
    · exact h28 (by omega)
  · intro h e he
    rcases Nat.lt_or_ge e 10 with hlt | hge
    · have hpow : 10 ^ e ≤ 10 ^ 9 := Nat.pow_le_pow_right (by decide) (Nat.le_of_lt_succ hlt)
      rw [Nat.mod_eq_of_lt (hpow.trans_lt (by decide))]
    · have hwrap : n < 10 ^ e % 2 ^ 32 :=
        lt_of_lt_of_le (lt_of_lt_of_le h (limit_antitone he)) (limit_le_power hge)
      rw [Nat.div_eq_of_lt (lt_ten_pow hn hge), Nat.div_eq_of_lt hwrap]

/-- The list of digits that are divided out is the rendering. -/
theorem digitsFrom_eq_rendering_iff {n len : Nat} (hn : n < 2 ^ 32) (hlen : len ≤ 32) :
    digitsFrom n len 0 len = rendering n len ↔ n < limit len := by
  rw [← digits_iff hn hlen, digitsFrom_eq, rendering_eq, ← List.range_eq_range',
    List.map_inj_left]
  constructor
  · intro h e he
    have hdigit := h (len - 1 - e) (List.mem_range.2 (by omega))
    rwa [digitAt, show len - 1 - (len - 1 - e) = e by omega] at hdigit
  · intro h t ht
    have ht := List.mem_range.1 ht
    exact h (len - 1 - t) (by omega)

theorem wrapped_power_ne_zero {e : Nat} (h : e < 32) : 10 ^ e % 2 ^ 32 ≠ 0 := by
  have hall : ∀ e < 32, 10 ^ e % 2 ^ 32 ≠ 0 := by decide
  exact hall e h

/-- What is shown determines the characters. -/
theorem placed_inj {x y : UInt16} {size mode : UInt8} {t : Nat} {cs ds : List UInt8}
    (h : placed x y size mode t cs = placed x y size mode t ds) : cs = ds := by
  induction cs generalizing t ds with
  | nil =>
      cases ds with
      | nil => rfl
      | cons d ds => cases h
  | cons c cs ih =>
      cases ds with
      | nil => cases h
      | cons d ds =>
          obtain ⟨hhead, htail⟩ := List.cons.inj h
          have hnum : c = d := congrArg Shown.num hhead
          rw [ih htail, hnum]

theorem blanked_inj {blank : UInt8} (hblank : Leading blank) {ds es : List Nat}
    (hds : ∀ d ∈ ds, d < 10) (hes : ∀ d ∈ es, d < 10) (h : blanked blank ds = blanked blank es) :
    ds = es := by
  rw [← map_shownDigit_blanked hblank hds, h, map_shownDigit_blanked hblank hes]

/-- A power that has become zero is divided by at once. -/
theorem showDigits_none (f : Shown → Prog σ Unit) (x y : UInt16) (size blank mode : UInt8)
    (hlen : 32 < len.toNat) (s : σ) :
    showDigits f x y num len size blank mode 0 len.toNat false s = none := by
  obtain ⟨n, hn⟩ := Nat.exists_eq_succ_of_ne_zero (Nat.ne_of_gt (Nat.zero_lt_of_lt hlen))
  have hpow : lcdPow 10 (len - UInt8.ofNat 0 - 1) = 0 := by
    apply UInt32.toNat_inj.1
    rw [toNat_power (by omega)]
    obtain ⟨k, hk⟩ := Nat.exists_eq_add_of_le (show 32 ≤ len.toNat - 1 - 0 by omega)
    rw [hk, Nat.pow_add, show 10 ^ 32 = 2 ^ 32 * 5 ^ 32 by decide, Nat.mul_assoc,
      Nat.mul_mod_right]
    rfl
  have hdiv : (divide num (lcdPow 10 (len - UInt8.ofNat 0 - 1)) : Prog σ UInt32) = fun _ ↦ none :=
    if_pos hpow
  rw [hn]
  unfold showDigits
  rw [hdiv]
  rfl

/-- The loop shows the rendering of the number exactly when it is below the limit. -/
theorem showDigits_iff (x y : UInt16) (num : UInt32) (len size blank mode : UInt8)
    (hblank : Leading blank) :
    Plays (fun _ f ↦ showDigits f x y num len size blank mode 0 len.toNat false)
      (placed x y size mode 0 (blanked blank (rendering num.toNat len.toNat))) ↔
    num.toNat < limit len.toNat := by
  rcases Nat.lt_or_ge 32 len.toNat with hlen | hlen
  · have hlimit : limit len.toNat = 0 := by
      unfold limit
      split_ifs <;> omega
    rw [hlimit]
    constructor
    · intro h
      exact absurd h (not_plays (showDigits_none note x y size blank mode hlen []))
    · intro h
      exact absurd h (Nat.not_lt_zero _)
  · have hplays : Plays (fun _ f ↦ showDigits f x y num len size blank mode 0 len.toNat false)
        (placed x y size mode 0 (blanked blank (digitsFrom num.toNat len.toNat 0 len.toNat))) := by
      intro σ f
      have hpos : ∀ t < len.toNat, 10 ^ (len.toNat - 1 - t) % 2 ^ 32 ≠ 0 :=
        fun t ht ↦ wrapped_power_ne_zero (by omega)
      exact (showDigits_eq f x y size blank mode hpos (Nat.zero_add _)).1
    have hds : ∀ d ∈ digitsFrom num.toNat len.toNat 0 len.toNat, d < 10 := by
      intro d hd
      rw [digitsFrom_eq] at hd
      obtain ⟨t, -, rfl⟩ := List.mem_map.1 hd
      exact digitAt_lt _ _ t
    have hes : ∀ d ∈ rendering num.toNat len.toNat, d < 10 := by
      intro d hd
      rw [rendering_eq] at hd
      obtain ⟨t, -, rfl⟩ := List.mem_map.1 hd
      exact Nat.mod_lt _ (by decide)
    rw [hplays.iff_eq, ← digitsFrom_eq_rendering_iff num.toNat_lt hlen]
    constructor
    · intro h
      exact blanked_inj hblank hds hes (placed_inj h)
    · intro h
      rw [h]

/-- **`LCD_ShowNum` and `LCD_ShowxNum` show the number exactly when it is below the limit** of the
length: for up to ten digits always, for more than 32 never. -/
theorem lcdShowNum_iff (x y : UInt16) (num : UInt32) (len size : UInt8) :
    (Plays (fun _ f ↦ lcdShowNum f x y num len size)
      (placed x y size 0 0 (blanked 32 (rendering num.toNat len.toNat))) ↔
        num.toNat < limit len.toNat) ∧
    ∀ mode, (Plays (fun _ f ↦ lcdShowxNum f x y num len size mode)
      (placed x y size (mode &&& 0x01) 0
        (blanked (leading mode) (rendering num.toNat len.toNat))) ↔
      num.toNat < limit len.toNat) := by
  constructor
  · exact showDigits_iff x y num len size 32 0 (.inl rfl)
  · intro mode
    exact showDigits_iff x y num len size _ _ (leading_mode mode)

/-- 5 in 33 digits: the first division is by zero. -/
theorem lcdShowNum_five : ¬ Plays (fun _ f ↦ lcdShowNum f 0 0 5 33 16)
    (placed 0 0 16 0 0 (blanked 32 (rendering 5 33))) :=
  not_plays (showDigits_none note 0 0 16 32 0 (by decide) [])

end Stm32F1.Lcd

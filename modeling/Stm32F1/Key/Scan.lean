import Mathlib

/-!
# Scanning the keys

`KEY_Scan` reports a press once: `key_up` is cleared when a key is pressed, and set
again by a call that sees all keys released.  It is cleared before the sample that
decides whether anything is reported, so a bounce uses the press up.
-/

namespace Stm32F1.Key

/-! ## `key.c` -/

/-- The levels of the inputs. -/
structure Pins where
  key0 : Bool
  key1 : Bool
  wkUp : Bool
deriving DecidableEq, Repr

def KEY0_PRES : UInt8 := 1
def KEY1_PRES : UInt8 := 2
def WKUP_PRES : UInt8 := 3

/-- `KEY0 == 0 || KEY1 == 0 || WK_UP == 1` -/
def Pins.Pressed (p : Pins) : Prop := p.key0 = false ∨ p.key1 = false ∨ p.wkUp = true

instance (p : Pins) : Decidable p.Pressed := inferInstanceAs (Decidable (_ ∨ _ ∨ _))

/-- `KEY0 == 1 && KEY1 == 1 && WK_UP == 0` -/
def Pins.Released (p : Pins) : Prop := p.key0 = true ∧ p.key1 = true ∧ p.wkUp = false

instance (p : Pins) : Decidable p.Released := inferInstanceAs (Decidable (_ ∧ _ ∧ _))

/-- The inputs during a call: when it begins, and 10 ms later. -/
structure Samples where
  before : Pins
  after : Pins
deriving DecidableEq, Repr

/-- `KEY_Scan`: what it returns, and `key_up` after it. -/
def keyScan (mode : UInt8) (s : Samples) (keyUp : UInt8) : UInt8 × UInt8 :=
  let keyUp := if mode ≠ 0 then 1 else keyUp
  if keyUp ≠ 0 ∧ s.before.Pressed then
    -- the delay, with `key_up` cleared whatever the inputs are after it
    let keyUp := 0
    if s.after.key0 = false then (KEY0_PRES, keyUp)
    else if s.after.key1 = false then (KEY1_PRES, keyUp)
    else if s.after.wkUp = true then (WKUP_PRES, keyUp)
    else (0, keyUp)
  else if s.before.Released then (0, 1)
  else (0, keyUp)

/-- The samples that a call with this `key_up` takes: the second one only if it waits. -/
def taken (s : Samples) (keyUp : UInt8) : List Pins :=
  if keyUp ≠ 0 ∧ s.before.Pressed then [s.before, s.after] else [s.before]

/-! ## Histories of calls -/

variable (c : Nat → Samples)

/-- `key_up` before the call `i` of `KEY_Scan(0)`. -/
def keyUpAt : Nat → UInt8
  | 0 => 1
  | i + 1 => (keyScan 0 (c i) (keyUpAt i)).2

/-- The call `i` returns a key. -/
def Returns (i : Nat) : Prop := (keyScan 0 (c i) (keyUpAt c i)).1 ≠ 0

/-- The call `i` saw all keys released. -/
def SawReleased (i : Nat) : Prop := ∃ p ∈ taken (c i) (keyUpAt c i), p.Released

/-- Both samples of the call `i` show a key pressed. -/
def BothPressed (i : Nat) : Prop := (c i).before.Pressed ∧ (c i).after.Pressed

/-- What is asked of the first `n` calls: no press is reported twice, and none is lost. -/
structure OncePerPress (n : Nat) : Prop where
  noRepeat : ∀ i j, i < j → j < n → Returns c i → Returns c j →
    ∃ k, i < k ∧ k < j ∧ SawReleased c k
  noLoss : ∀ j < n, BothPressed c j → Returns c j ∨
    ∃ i < j, Returns c i ∧ ∀ k, i < k → k < j → ¬ SawReleased c k

/-! ## One call -/

theorem pressed_iff (p : Pins) : p.Pressed ↔ ¬ p.Released := by
  unfold Pins.Pressed Pins.Released
  rcases p with ⟨_ | _, _ | _, _ | _⟩ <;> decide

variable (s : Samples) {keyUp : UInt8}

/-- A call that waits reports the key that is still pressed, and clears `key_up` in any case. -/
theorem keyScan_waits (hup : keyUp ≠ 0) (hpressed : s.before.Pressed) :
    ((keyScan 0 s keyUp).1 ≠ 0 ↔ s.after.Pressed) ∧ (keyScan 0 s keyUp).2 = 0 := by
  rw [keyScan]
  simp only [ne_eq, not_true_eq_false, if_false, hup, not_false_eq_true, hpressed, and_self,
    if_true]
  unfold Pins.Pressed
  split_ifs with h₀ h₁ h₂
  · simp [h₀, KEY0_PRES]
  · simp [h₁, KEY1_PRES]
  · simp [h₂, WKUP_PRES]
  · simp [h₀, h₁, h₂]

/-- A call that sees all keys released sets `key_up`. -/
theorem keyScan_released (h : s.before.Released) : keyScan 0 s keyUp = (0, 1) := by
  have hnot : ¬ s.before.Pressed := fun hp ↦ (pressed_iff _).1 hp h
  rw [keyScan]
  simp [hnot, h]

/-- A call that finds a key pressed with `key_up` cleared does nothing. -/
theorem keyScan_held (h : s.before.Pressed) : keyScan 0 s 0 = (0, 0) := by
  have hnot : ¬ s.before.Released := (pressed_iff _).1 h
  rw [keyScan]
  simp [hnot]

/-! ## All calls -/

/-- The call `i` is the first one, or the first sample of the call before it showed all keys
released. -/
def Fresh : Nat → Prop
  | 0 => True
  | i + 1 => (c i).before.Released

/-- A bounce: the press that the call `i` was to report is over after the delay. -/
def Bounce (i : Nat) : Prop := Fresh c i ∧ (c i).before.Pressed ∧ (c i).after.Released

variable {c} {i j : Nat}

/-- `key_up` remembers one call only. -/
theorem keyUpAt_ne_zero_iff : keyUpAt c i ≠ 0 ↔ Fresh c i := by
  cases i with
  | zero => exact iff_of_true (by decide : (1 : UInt8) ≠ 0) trivial
  | succ i =>
      show (keyScan 0 (c i) (keyUpAt c i)).2 ≠ 0 ↔ (c i).before.Released
      by_cases hreleased : (c i).before.Released
      · rw [keyScan_released _ hreleased]
        exact iff_of_true (by decide : (1 : UInt8) ≠ 0) hreleased
      · have hpressed := (pressed_iff _).2 hreleased
        refine iff_of_false (not_not.2 ?_) hreleased
        by_cases hup : keyUpAt c i = 0
        · rw [hup, keyScan_held _ hpressed]
        · exact (keyScan_waits _ hup hpressed).2

theorem keyUpAt_eq_zero (h : ¬ Fresh c i) : keyUpAt c i = 0 :=
  not_not.1 fun hup ↦ h (keyUpAt_ne_zero_iff.1 hup)

theorem returns_iff : Returns c i ↔ Fresh c i ∧ BothPressed c i := by
  by_cases hreleased : (c i).before.Released
  · have hnot : ¬ BothPressed c i := fun h ↦ (pressed_iff _).1 h.1 hreleased
    rw [Returns, keyScan_released _ hreleased]
    exact iff_of_false (fun h ↦ h rfl) fun h ↦ hnot h.2
  · have hpressed := (pressed_iff _).2 hreleased
    by_cases hfresh : Fresh c i
    · rw [Returns, (keyScan_waits _ (keyUpAt_ne_zero_iff.2 hfresh) hpressed).1]
      exact ⟨fun h ↦ ⟨hfresh, hpressed, h⟩, fun h ↦ h.2.2⟩
    · rw [Returns, keyUpAt_eq_zero hfresh, keyScan_held _ hpressed]
      exact iff_of_false (fun h ↦ h rfl) fun h ↦ hfresh h.1

theorem sawReleased_of_before (h : (c i).before.Released) : SawReleased c i := by
  refine ⟨(c i).before, ?_, h⟩
  rw [taken]
  split <;> exact List.mem_cons_self

theorem sawReleased_of_bounce (h : Bounce c i) : SawReleased c i := by
  refine ⟨(c i).after, ?_, h.2.2⟩
  rw [taken, if_pos ⟨keyUpAt_ne_zero_iff.2 h.1, h.2.1⟩]
  exact List.mem_cons_of_mem _ List.mem_cons_self

/-- A call that begins with a key pressed, when the one before did, sees no release. -/
theorem not_sawReleased (hfresh : ¬ Fresh c i) (h : (c i).before.Pressed) : ¬ SawReleased c i := by
  rintro ⟨p, hp, hreleased⟩
  rw [taken, keyUpAt_eq_zero hfresh, if_neg fun hup ↦ hup.1 rfl, List.mem_singleton] at hp
  rw [hp] at hreleased
  exact (pressed_iff _).1 h hreleased

/-- Where `key_up` is cleared, it was cleared by a call since when a key was always pressed. -/
theorem exists_fresh (h : ¬ Fresh c j) :
    ∃ i < j, Fresh c i ∧ ∀ k, i ≤ k → k < j → (c k).before.Pressed := by
  induction j with
  | zero => exact absurd trivial h
  | succ j ih =>
      have hpressed : (c j).before.Pressed := (pressed_iff _).2 h
      by_cases hfresh : Fresh c j
      · refine ⟨j, Nat.lt_succ_self j, hfresh, ?_⟩
        intro k hk hk'
        obtain rfl : k = j := Nat.le_antisymm (Nat.le_of_lt_succ hk') hk
        exact hpressed
      · obtain ⟨i, hi, hfreshi, hblock⟩ := ih hfresh
        refine ⟨i, Nat.lt_succ_of_lt hi, hfreshi, ?_⟩
        intro k hk hk'
        rcases Nat.lt_succ_iff_lt_or_eq.1 hk' with hlt | rfl
        · exact hblock k hk hlt
        · exact hpressed

/-- Within a stretch of calls that begin with a key pressed none is fresh but the first. -/
theorem not_fresh_of_block (hblock : ∀ k, i ≤ k → k < j → (c k).before.Pressed) {k : Nat}
    (hk : i < k) (hk' : k ≤ j) : ¬ Fresh c k := by
  obtain ⟨k, rfl⟩ := Nat.exists_eq_succ_of_ne_zero (Nat.ne_of_gt (Nat.zero_lt_of_lt hk))
  exact (pressed_iff _).1 (hblock k (Nat.le_of_lt_succ hk) hk')

/-- No press is reported twice. -/
theorem noRepeat (hlt : i < j) (hi : Returns c i) (hj : Returns c j) :
    ∃ k, i < k ∧ k < j ∧ SawReleased c k := by
  rw [returns_iff] at hi hj
  obtain ⟨j, rfl⟩ := Nat.exists_eq_succ_of_ne_zero (Nat.ne_of_gt (Nat.zero_lt_of_lt hlt))
  have hreleased : (c j).before.Released := hj.1
  refine ⟨j, ?_, Nat.lt_succ_self j, sawReleased_of_before hreleased⟩
  refine lt_of_le_of_ne (Nat.le_of_lt_succ hlt) ?_
  rintro rfl
  exact (pressed_iff _).1 hi.2.1 hreleased

/-- A bounce, then only calls that begin with a key pressed, and then one with both samples
pressed. -/
def Loses (c : Nat → Samples) (i j : Nat) : Prop :=
  i < j ∧ Bounce c i ∧ (∀ k, i < k → k < j → (c k).before.Pressed) ∧ BothPressed c j

/-- A press is lost only to a bounce. -/
theorem noLoss (hlost : ∀ i, ¬ Loses c i j) (hj : BothPressed c j) : Returns c j ∨
    ∃ i < j, Returns c i ∧ ∀ k, i < k → k < j → ¬ SawReleased c k := by
  by_cases hfresh : Fresh c j
  · exact .inl (returns_iff.2 ⟨hfresh, hj⟩)
  · obtain ⟨i, hi, hfreshi, hblock⟩ := exists_fresh hfresh
    have hbefore := hblock i le_rfl hi
    refine .inr ⟨i, hi, returns_iff.2 ⟨hfreshi, hbefore, ?_⟩, ?_⟩
    · rw [pressed_iff]
      intro hafter
      exact hlost i ⟨hi, ⟨hfreshi, hbefore, hafter⟩, fun k hk ↦ hblock k hk.le, hj⟩
    · intro k hk hk'
      exact not_sawReleased (not_fresh_of_block hblock hk hk'.le) (hblock k hk.le hk')

/-- A bounce loses the press. -/
theorem loses (h : Loses c i j) : ¬ Returns c j ∧
    ∀ i' < j, Returns c i' → ∃ k, i' < k ∧ k < j ∧ SawReleased c k := by
  obtain ⟨hlt, hbounce, hpressed, -⟩ := h
  have hblock : ∀ k, i ≤ k → k < j → (c k).before.Pressed := by
    intro k hk hk'
    rcases Nat.eq_or_lt_of_le hk with rfl | hik
    · exact hbounce.2.1
    · exact hpressed k hik hk'
  refine ⟨?_, ?_⟩
  · rw [returns_iff]
    exact fun hj ↦ not_fresh_of_block hblock hlt le_rfl hj.1
  · intro i' hi' hreturns
    rw [returns_iff] at hreturns
    rcases Nat.lt_trichotomy i' i with hbefore | rfl | hafter
    · exact ⟨i, hbefore, hlt, sawReleased_of_bounce hbounce⟩
    · exact absurd hbounce.2.2 ((pressed_iff _).1 hreturns.2.2)
    · exact absurd hreturns.1 (not_fresh_of_block hblock hafter hi'.le)

/-- **Key scanning**: in every sequence of calls no press is reported twice; and no press is lost,
exactly where no bounce is followed, with a key pressed at the beginning of every call in between,
by a call with both samples pressed. -/
theorem oncePerPress_iff (c : Nat → Samples) (n : Nat) :
    OncePerPress c n ↔ ∀ i j, j < n → ¬ Loses c i j := by
  constructor
  · intro h i j hj hlost
    obtain ⟨hnot, hsaw⟩ := loses hlost
    rcases h.noLoss j hj hlost.2.2.2 with hreturns | ⟨i', hi', hreturns, hunseen⟩
    · exact hnot hreturns
    · obtain ⟨k, hk, hk', hseen⟩ := hsaw i' hi' hreturns
      exact hunseen k hk hk' hseen
  · intro h
    constructor
    · intro i j hlt _ hi hj
      exact noRepeat hlt hi hj
    · intro j hj hboth
      exact noLoss (fun i ↦ h i j hj) hboth

/-- KEY0 pressed, or nothing. -/
def key0Pins (pressed : Bool) : Pins := ⟨!pressed, true, false⟩

/-- A bounce, and KEY0 held from then on. -/
def bouncing : Nat → Samples
  | 0 => ⟨key0Pins true, key0Pins false⟩
  | _ + 1 => ⟨key0Pins true, key0Pins true⟩

/-- The press is never reported. -/
theorem bouncing_lost : ¬ OncePerPress bouncing 2 := by
  intro h
  rcases h.noLoss 1 (by decide) ⟨by decide, by decide⟩ with hreturns | ⟨i, hi, hreturns, -⟩
  · exact hreturns (by decide)
  · obtain rfl : i = 0 := Nat.lt_one_iff.1 hi
    exact hreturns (by decide)

end Stm32F1.Key

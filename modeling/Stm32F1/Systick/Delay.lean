import Mathlib

/-!
# Delays by SysTick

`delay_us` adds up the distances between the values that it samples of a counter running down.  It
may be preempted for any time between two samples, and so miss whole periods of the counter.
-/

namespace Stm32F1.Systick

/-! ## The counter -/

/-- `SysTick->VAL` after another cycle. -/
def tick (reload val : UInt32) : UInt32 := if val = 0 then reload else val - 1

/-- `SysTick->VAL` after `t` cycles. -/
def valAfter (reload val : UInt32) (t : Nat) : UInt32 := (tick reload)^[t] val

variable {reload val v w : UInt32}

@[simp] theorem valAfter_zero : valAfter reload val 0 = val := rfl

theorem valAfter_succ (t : Nat) :
    valAfter reload val (t + 1) = tick reload (valAfter reload val t) :=
  Function.iterate_succ_apply' _ _ _

theorem valAfter_add (t d : Nat) :
    valAfter reload val (t + d) = valAfter reload (valAfter reload val t) d := by
  unfold valAfter
  rw [Nat.add_comm, Function.iterate_add_apply]

/-! ## `delay.c` -/

/-- What `delay_init` sets up: `fac_us`, `fac_ms` and `SysTick->LOAD`. -/
structure Setup where
  facUs : UInt8
  facMs : UInt16
  load : UInt32

/-- `delay_init` -/
def delayInit (systemCoreClock configTICK_RATE_HZ : UInt32) : Setup where
  facUs := (systemCoreClock / 1000000).toUInt8
  facMs := (1000 / configTICK_RATE_HZ).toUInt16
  load := systemCoreClock / 1000000 * (1000000 / configTICK_RATE_HZ)

/-- What one sample adds to `tcnt`. -/
def counted (reload told tnow : UInt32) : UInt32 :=
  if tnow < told then told - tnow else reload - tnow + told

/-- The loop of `delay_us`, from the sample `n` on: the sample that ends it, if it is among the next
`fuel` ones. -/
def wait (reload ticks : UInt32) (sample : Nat → UInt32) :
    (fuel n : Nat) → (told tcnt : UInt32) → Option Nat
  | 0, _, _, _ => none
  | fuel + 1, n, told, tcnt =>
      let tnow := sample n
      if tnow ≠ told then
        let tcnt := tcnt + counted reload told tnow
        if ticks ≤ tcnt then some n else wait reload ticks sample fuel (n + 1) tnow tcnt
      else wait reload ticks sample fuel (n + 1) told tcnt

/-- `delay_us` -/
def delayUs (facUs : UInt8) (reload nus : UInt32) (sample : Nat → UInt32) (fuel : Nat) :
    Option Nat :=
  wait reload (nus * facUs.toUInt32) sample fuel 1 (sample 0) 0

/-! ## What is counted is at most what has passed -/

theorem toNat_tick : (tick reload v).toNat = if v.toNat = 0 then reload.toNat else v.toNat - 1 := by
  unfold tick
  split
  · rename_i hv
    rw [hv, if_pos UInt32.toNat_zero]
  · rename_i hv
    have hpos : v.toNat ≠ 0 := fun h ↦ hv (UInt32.toNat_inj.1 h)
    have hone : (1 : UInt32) ≤ v := by
      rw [UInt32.le_iff_toNat_le, UInt32.toNat_one]
      exact Nat.one_le_iff_ne_zero.2 hpos
    rw [if_neg hpos, UInt32.toNat_sub_of_le _ _ hone, UInt32.toNat_one]

/-- A sum may wrap, which makes it smaller only. -/
theorem toNat_add_le : (v + w).toNat ≤ v.toNat + w.toNat := by
  rw [UInt32.toNat_add]
  exact Nat.mod_le _ _

/-- A value that is reached comes from the first one or from the reload value by counting down. -/
theorem valAfter_le (reload v : UInt32) (d : Nat) :
    (valAfter reload v d).toNat ≤ v.toNat ∨ (valAfter reload v d).toNat ≤ reload.toNat := by
  induction d with
  | zero => exact .inl le_rfl
  | succ d ih =>
      rw [valAfter_succ, toNat_tick]
      split
      · exact .inr le_rfl
      · have hle := Nat.sub_le (valAfter reload v d).toNat 1
        exact ih.imp hle.trans hle.trans

/-- What `delay_us` makes of two values, without wraps: nothing of two equal ones, and one cycle too
few across the end of a period. -/
def distance (reload told tnow : Nat) : Nat :=
  if tnow = told then 0 else if tnow < told then told - tnow else reload - tnow + told

/-- The values `d` cycles apart are at most `d` apart by this measure. -/
theorem distance_le (reload v : UInt32) (d : Nat) :
    distance reload.toNat v.toNat (valAfter reload v d).toNat ≤ d := by
  induction d with
  | zero =>
      rw [valAfter_zero, distance, if_pos rfl]
  | succ d ih =>
      have hle := valAfter_le reload v d
      rw [valAfter_succ, toNat_tick]
      unfold distance at ih ⊢
      split_ifs at ih ⊢ <;> omega

/-- Two different values sampled `d` cycles apart. -/
theorem counted_le {d : Nat} (h : valAfter reload v d ≠ v) :
    (counted reload v (valAfter reload v d)).toNat ≤ d := by
  apply le_trans _ (distance_le reload v d)
  have hne : (valAfter reload v d).toNat ≠ v.toNat := fun he ↦ h (UInt32.toNat_inj.1 he)
  unfold counted distance
  rw [if_neg hne]
  split
  · rename_i hlt
    rw [if_pos (UInt32.lt_iff_toNat_lt.1 hlt), UInt32.toNat_sub_of_le _ _ (UInt32.le_of_lt hlt)]
  · rename_i hlt
    have hge : ¬ (valAfter reload v d).toNat < v.toNat := fun he ↦ hlt (UInt32.lt_iff_toNat_lt.2 he)
    have hreload : valAfter reload v d ≤ reload := by
      rw [UInt32.le_iff_toNat_le]
      rcases valAfter_le reload v d with hle | hle
      · omega
      · exact hle
    rw [if_neg hge]
    refine toNat_add_le.trans ?_
    rw [UInt32.toNat_sub_of_le _ _ hreload]

/-! ## The loop -/

variable {ticks told tcnt : UInt32} {moment : Nat → Nat} {fuel n m start : Nat}

/-- The sum so far is at most the time between the first sample and the last one that was different
from the one before it, whose value is `told`. -/
theorem wait_le (hmoment : Monotone moment) (hlast : moment m ≤ moment n)
    (htold : told = valAfter reload val (moment m)) (hstart : start + tcnt.toNat ≤ moment m)
    {n' : Nat}
    (h : wait reload ticks (fun k ↦ valAfter reload val (moment k)) fuel n told tcnt = some n') :
    start + ticks.toNat ≤ moment n' := by
  induction fuel generalizing n m told tcnt with
  | zero => exact absurd h (Option.some_ne_none n').symm
  | succ fuel ih =>
      have hnext : moment n ≤ moment (n + 1) := hmoment (Nat.le_succ n)
      obtain ⟨d, hd⟩ := Nat.exists_eq_add_of_le hlast
      have hval : valAfter reload val (moment n) = valAfter reload told d := by
        rw [hd, valAfter_add, ← htold]
      unfold wait at h
      simp only at h
      split at h
      · rename_i hne
        have hsum : start + (tcnt + counted reload told (valAfter reload val (moment n))).toNat ≤
            moment n := by
          rw [hval] at hne ⊢
          have hadd := toNat_add_le (v := tcnt) (w := counted reload told (valAfter reload told d))
          have hcounted := counted_le hne
          omega
        split at h
        · rename_i hticks
          obtain rfl := Option.some.inj h
          rw [UInt32.le_iff_toNat_le] at hticks
          omega
        · exact ih hnext rfl hsum h
      · exact ih (hlast.trans hnext) htold hstart h

/-- **`delay_us` never returns early**: whenever it samples the counter, and whatever it misses. -/
theorem delayUs_not_early {facUs : UInt8} {nus : UInt32} (hmoment : Monotone moment)
    (hticks : nus.toNat * facUs.toNat < 2 ^ 32)
    (h : delayUs facUs reload nus (fun k ↦ valAfter reload val (moment k)) fuel = some n) :
    moment 0 + nus.toNat * facUs.toNat ≤ moment n := by
  have hmul : (nus * facUs.toUInt32).toNat = nus.toNat * facUs.toNat := by
    rw [UInt32.toNat_mul, UInt8.toNat_toUInt32]
    exact Nat.mod_eq_of_lt hticks
  rw [← hmul]
  exact wait_le (m := 0) hmoment (hmoment (Nat.zero_le 1)) rfl le_rfl h

/-- A microsecond at 72 MHz, the end of a period in between. -/
theorem delayUs_not_early_72MHz :
    delayUs (delayInit 72000000 1000).facUs (delayInit 72000000 1000).load 1
      (fun k ↦ valAfter (delayInit 72000000 1000).load 30 (20 * k)) 10 = some 4 ∧
    20 * 0 + 72 ≤ 20 * 4 := by
  have hreturns : delayUs (delayInit 72000000 1000).facUs (delayInit 72000000 1000).load 1
      (fun k ↦ valAfter (delayInit 72000000 1000).load 30 (20 * k)) 10 = some 4 := by decide +kernel
  exact ⟨hreturns, delayUs_not_early (fun _ _ h ↦ Nat.mul_le_mul_left 20 h) (by decide) hreturns⟩

end Stm32F1.Systick

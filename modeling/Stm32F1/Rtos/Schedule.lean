import Stm32F1.Rtos.Kernel

/-!
# What the scheduler is for

A task is ready, or it is delayed until a tick, or it is suspended; it may wait for an
event as well.  Ticks are counted without end here, and what is to be done later is done
for all tasks at once.
-/

namespace Stm32F1.Rtos

/-- Where a task is. -/
inductive Place
  | absent
  | ready (p : Priority)
  | delayed (wake : Nat)
  | suspended
deriving DecidableEq

/-- What a task waits for. -/
inductive Waiting (ε : Type)
  | nowhere
  | event (e : ε)
  | pending
deriving DecidableEq

/-- Where every task is and what it waits for, and what there is to be done later: ticks that were
only noted, a switch that was only noted, and one that was requested. -/
structure Schedule (τ ε : Type) where
  place : τ → Place
  waiting : τ → Waiting ε
  priority : τ → Priority
  base : τ → Priority
  current : Option τ
  now : Nat
  suspended : Nat
  pended : Nat
  yieldPending : Bool
  switchPending : Bool
  running : Bool

variable {τ ε : Type} [DecidableEq τ]

namespace Schedule

/-- No task has been created. -/
def initial (priority : τ → Priority) : Schedule τ ε where
  place _ := .absent
  waiting _ := .nowhere
  priority := priority
  base := priority
  current := none
  now := 0
  suspended := 0
  pended := 0
  yieldPending := false
  switchPending := false
  running := false

/-- The priority of the current task. -/
def level (s : Schedule τ ε) : Priority := (s.current.map s.priority).getD tskIDLE_PRIORITY

/-- A task is moved. -/
def put (s : Schedule τ ε) (t : τ) (place : Place) : Schedule τ ε :=
  { s with place := Function.update s.place t place }

/-- What a task waits for changes. -/
def wait (s : Schedule τ ε) (t : τ) (waiting : Waiting ε) : Schedule τ ε :=
  { s with waiting := Function.update s.waiting t waiting }

/-- A task becomes ready. -/
def toReady (s : Schedule τ ε) (t : τ) : Schedule τ ε :=
  (s.put t (.ready (s.priority t))).wait t .nowhere

/-- `n` ticks from now, or for good. -/
def block (s : Schedule τ ε) (t : τ) (n : TickType) (indefinitely : Bool) : Schedule τ ε :=
  s.put t (if n = portMAX_DELAY ∧ indefinitely = true then .suspended
    else .delayed (s.now + n.toNat))

/-! ## Ticks -/

/-- Time goes on. -/
def forward (s : Schedule τ ε) : Schedule τ ε := { s with now := s.now + 1 }

/-- The tasks that are delayed until now become ready. -/
def expire (s : Schedule τ ε) : Schedule τ ε := { s with
  place := fun t ↦ if s.place t = .delayed s.now then .ready (s.priority t) else s.place t
  waiting := fun t ↦ if s.place t = .delayed s.now then .nowhere else s.waiting t }

/-- A tick that is counted at once. -/
def count (s : Schedule τ ε) : Schedule τ ε := s.forward.expire

/-- A task that is due has at least the priority of the current one. -/
def Woken (s : Schedule τ ε) : Prop := ∃ t, s.place t = .delayed s.now ∧ s.level ≤ s.priority t

/-- Several tasks have the priority of the current one. -/
def Shared (s : Schedule τ ε) : Prop :=
  ∃ t u, t ≠ u ∧ s.place t = .ready s.level ∧ s.place u = .ready s.level

instance [Fintype τ] (s : Schedule τ ε) : Decidable s.Woken := by unfold Woken; infer_instance

instance [Fintype τ] (s : Schedule τ ε) : Decidable s.Shared := by unfold Shared; infer_instance

section Ticks

variable [Fintype τ]

/-- What `xTaskIncrementTick` returns. -/
def switchRequired (s : Schedule τ ε) : Bool := s.forward.Woken ∨ s.count.Shared ∨ s.yieldPending

/-- A tick, which is only noted while the scheduler is suspended. -/
def tick (s : Schedule τ ε) : Schedule τ ε :=
  if s.suspended = 0 then { s.count with switchPending := s.switchPending || s.switchRequired }
  else { s with pended := s.pended + 1 }

/-- A tick that is made up for. -/
def counted (s : Schedule τ ε) : Schedule τ ε := { s.count with yieldPending := s.switchRequired }

variable [DecidableEq ε]

/-- The tasks that interrupts have readied. -/
def collect (s : Schedule τ ε) : Schedule τ ε := { s with
  place := fun t ↦ if s.waiting t = .pending then .ready (s.priority t) else s.place t
  waiting := fun t ↦ if s.waiting t = .pending then .nowhere else s.waiting t
  yieldPending := s.yieldPending || decide (∃ t, s.waiting t = .pending ∧ s.level ≤ s.priority t) }

/-- The scheduler is no longer suspended. -/
def release (s : Schedule τ ε) : Schedule τ ε :=
  let s' := counted^[s.pended] s.collect
  { s' with pended := 0, switchPending := s'.switchPending || s'.yieldPending }

/-- One suspension of the scheduler ends. -/
def resumeAll (s : Schedule τ ε) : Schedule τ ε :=
  if s.suspended - 1 = 0 then release { s with suspended := s.suspended - 1 }
  else { s with suspended := s.suspended - 1 }

end Ticks

/-! ## Calls -/

/-- A task asks for a switch. -/
def yield (s : Schedule τ ε) : Schedule τ ε := { s with switchPending := true }

/-- The scheduler is suspended once more. -/
def suspendAll (s : Schedule τ ε) : Schedule τ ε := { s with suspended := s.suspended + 1 }

/-- Until `previous + increment`. -/
def delayUntil (s : Schedule τ ε) (t : τ) (previous increment : TickType) : Schedule τ ε :=
  if shouldDelay (UInt32.ofNat s.now) previous (previous + increment) then
    s.block t (previous + increment - UInt32.ofNat s.now) false
  else s

/-- A task no longer waits for its event. -/
def signal (s : Schedule τ ε) (t : τ) : Schedule τ ε :=
  { if s.suspended = 0 then s.toReady t else s.wait t .pending with
    yieldPending := s.yieldPending || decide (s.level < s.priority t) }

/-- A task stays away until it is resumed. -/
def suspend (s : Schedule τ ε) (t : τ) : Schedule τ ε := (s.put t .suspended).wait t .nowhere

/-- It was suspended as such, and does not wait for an event without a time-out. -/
def Resumable (s : Schedule τ ε) (t : τ) : Prop := s.place t = .suspended ∧ s.waiting t = .nowhere

instance [DecidableEq ε] (s : Schedule τ ε) (t : τ) : Decidable (s.Resumable t) := by
  unfold Resumable; infer_instance

/-- A task that was suspended becomes ready. -/
def resume [DecidableEq ε] (s : Schedule τ ε) (t : τ) : Schedule τ ε :=
  if s.current ≠ some t ∧ s.Resumable t then
    { s.toReady t with switchPending := s.switchPending || decide (s.level ≤ s.priority t) }
  else s

/-- An interrupt resumes a task, which stays pending while the scheduler is suspended. -/
def resumeFromISR [DecidableEq ε] (s : Schedule τ ε) (t : τ) : Schedule τ ε :=
  if s.Resumable t then
    if s.suspended = 0 then
      { s.toReady t with yieldPending := s.yieldPending || decide (s.level ≤ s.priority t) }
    else s.wait t .pending
  else s

/-- A task that is ready stays so, with its new priority. -/
def prioritySet (s : Schedule τ ε) (t : τ) (p : Priority) : Schedule τ ε :=
  if s.base t = p then s
  else
    let q := if s.base t = s.priority t then p else s.priority t
    { s with
      priority := Function.update s.priority t q
      base := Function.update s.base t p
      place :=
        if s.place t = .ready (s.priority t) then Function.update s.place t (.ready q) else s.place
      switchPending := s.switchPending || yieldRequired (s.current = some t) p (s.base t) s.level }

/-- A task that did not exist is ready, and the current one if that is due to it before the
scheduler runs. -/
def create (s : Schedule τ ε) (t : τ) (p : Priority) : Schedule τ ε := { s with
  priority := Function.update s.priority t p
  base := Function.update s.base t p
  place := Function.update s.place t (.ready p)
  current := if s.running = true ∨ (s.current ≠ none ∧ p < s.level) then s.current else some t
  switchPending := s.switchPending || (s.running && decide (s.level < p)) }

/-- The scheduler creates two tasks of its own and runs. -/
def start (s : Schedule τ ε) (idle timer : τ) : Schedule τ ε :=
  { (s.create idle tskIDLE_PRIORITY).create timer configTIMER_TASK_PRIORITY with running := true }

/-- The task `t` becomes the current one. -/
def dispatch (s : Schedule τ ε) (t : τ) : Schedule τ ε :=
  if s.suspended = 0 then
    { s with switchPending := false, yieldPending := false, current := some t }
  else { s with switchPending := false, yieldPending := true }

variable {s : Schedule τ ε} {t u c : τ} {a b : Place} {v w : Waiting ε}

omit [DecidableEq τ] in
/-- The level is the priority of the task that is the current one. -/
theorem level_of_current (h : s.current = some c) : s.level = s.priority c := by
  rw [level, h]
  rfl

@[simp] theorem put_place_self : (s.put t a).place t = a := Function.update_self ..

/-- Moving a task leaves every other one where it is. -/
theorem put_place_of_ne (h : u ≠ t) : (s.put t a).place u = s.place u := Function.update_of_ne h ..

/-- Only the last of two moves counts. -/
@[simp] theorem put_put : (s.put t a).put t b = s.put t b := by simp [put]

@[simp] theorem put_waiting : (s.put t a).waiting = s.waiting := rfl

@[simp] theorem put_priority : (s.put t a).priority = s.priority := rfl

@[simp] theorem put_now : (s.put t a).now = s.now := rfl

@[simp] theorem put_current : (s.put t a).current = s.current := rfl

@[simp] theorem put_level : (s.put t a).level = s.level := rfl

@[simp] theorem wait_waiting_self : (s.wait t v).waiting t = v := Function.update_self ..

@[simp] theorem wait_wait : (s.wait t v).wait t w = s.wait t w := by simp [wait]

@[simp] theorem wait_place : (s.wait t v).place = s.place := rfl

@[simp] theorem wait_priority : (s.wait t v).priority = s.priority := rfl

@[simp] theorem wait_now : (s.wait t v).now = s.now := rfl

@[simp] theorem wait_current : (s.wait t v).current = s.current := rfl

@[simp] theorem wait_level : (s.wait t v).level = s.level := rfl

/-- Moving a task and changing what one waits for do not depend on their order. -/
theorem wait_put : (s.wait t v).put u a = (s.put u a).wait t v := rfl

/-- Nothing changes if the task waits for that already. -/
theorem wait_of_eq (h : s.waiting t = v) : s.wait t v = s := by
  subst h
  simp [wait]

/-! ## Ticks -/

/-- Delayed tasks are to be woken, and within one turn of the tick count. -/
def Punctual (s : Schedule τ ε) : Prop :=
  ∀ t wake, s.place t = .delayed wake → s.now < wake ∧ wake < s.now + 2 ^ 32

omit [DecidableEq τ] in
/-- Nothing expires while no task is delayed until now. -/
theorem expire_of_none (h : ∀ t, s.place t ≠ .delayed s.now) : s.expire = s := by
  simp [expire, h]

/-- It makes no difference whether a task that is due was woken before all others are. -/
theorem expire_toReady (h : s.place t = .delayed s.now) : (s.toReady t).expire = s.expire := by
  have hplace (u : τ) : (s.toReady t).expire.place u = s.expire.place u := by
    by_cases hu : u = t
    · subst hu
      simp [expire, toReady, put, wait, h]
    · simp [expire, toReady, put, wait, hu]
  have hwaiting (u : τ) : (s.toReady t).expire.waiting u = s.expire.waiting u := by
    by_cases hu : u = t
    · subst hu
      simp [expire, toReady, put, wait, h]
    · simp [expire, toReady, put, wait, hu]
  show ({ s.expire with
    place := (s.toReady t).expire.place
    waiting := (s.toReady t).expire.waiting } : Schedule τ ε) = s.expire
  rw [funext hplace, funext hwaiting]

/-- Whether a task of the current priority is woken can be asked of one task that is due and then of
the rest. -/
theorem woken_toReady (h : s.place t = .delayed s.now) :
    s.level ≤ s.priority t ∨ (s.toReady t).Woken ↔ s.Woken := by
  constructor
  · rintro (hle | ⟨u, hu, hle⟩)
    · exact ⟨t, h, hle⟩
    · by_cases hut : u = t
      · subst hut
        exact ⟨u, h, hle⟩
      · rw [toReady, wait_place, put_place_of_ne hut] at hu
        exact ⟨u, hu, hle⟩
  · rintro ⟨u, hu, hle⟩
    by_cases hut : u = t
    · subst hut
      exact .inl hle
    · exact .inr ⟨u, (put_place_of_ne hut).trans hu, hle⟩

omit [DecidableEq τ] in
/-- A tick leaves no task behind whose time has come. -/
theorem Punctual.count (h : s.Punctual) : s.count.Punctual := by
  intro t wake ht
  have hplace : s.count.place t =
      if s.place t = .delayed (s.now + 1) then .ready (s.priority t) else s.place t := rfl
  rw [hplace] at ht
  split at ht
  · exact absurd ht (by simp)
  · next hne =>
      obtain ⟨hlt, hbound⟩ := h t wake ht
      have hwake : wake ≠ s.now + 1 := by
        rintro rfl
        exact hne ht
      show s.now + 1 < wake ∧ wake < s.now + 1 + 2 ^ 32
      omega

/-- `yieldPending` is kept if it was set, for then a switch is required as well. -/
theorem counted_eq [Fintype τ] :
    { s.count with yieldPending := s.count.yieldPending || s.switchRequired } = s.counted := by
  have hincluded : (s.yieldPending || s.switchRequired) = s.switchRequired := by
    cases hyield : s.yieldPending with
    | false => rfl
    | true => simp [switchRequired, hyield]
  show { s.count with yieldPending := s.yieldPending || s.switchRequired } = s.counted
  rw [hincluded]
  rfl

/-! ## Tasks that interrupts have readied -/

variable [Fintype τ] [DecidableEq ε]

omit [DecidableEq τ] in
/-- Readying tasks delays none. -/
theorem Punctual.collect (h : s.Punctual) : s.collect.Punctual := by
  intro t wake ht
  have hplace : s.collect.place t =
      if s.waiting t = .pending then .ready (s.priority t) else s.place t := rfl
  rw [hplace] at ht
  split at ht
  · exact absurd ht (by simp)
  · exact h t wake ht

omit [DecidableEq τ] in
/-- There is nothing to collect while no task is pending. -/
theorem collect_of_none (h : ∀ t, s.waiting t ≠ .pending) : s.collect = s := by
  simp [Schedule.collect, h]

/-- It makes no difference whether one pending task was readied before all others are. -/
theorem collect_toReady (h : s.waiting t = .pending) :
    collect { s.toReady t with yieldPending := s.yieldPending || decide (s.level ≤ s.priority t) } =
      s.collect := by
  generalize hs : ({ s.toReady t with
    yieldPending := s.yieldPending || decide (s.level ≤ s.priority t) } : Schedule τ ε) = s'
  have hplace (u : τ) : s'.collect.place u = s.collect.place u := by
    subst hs
    by_cases hu : u = t
    · subst hu
      simp [collect, toReady, put, wait, h]
    · simp [collect, toReady, put, wait, hu]
  have hwaiting (u : τ) : s'.collect.waiting u = s.collect.waiting u := by
    subst hs
    by_cases hu : u = t
    · subst hu
      simp [collect, toReady, put, wait, h]
    · simp [collect, toReady, put, wait, hu]
  have hyield : s'.collect.yieldPending = s.collect.yieldPending := by
    have hex : (s.level ≤ s.priority t ∨ ∃ u, s'.waiting u = .pending ∧ s.level ≤ s.priority u) ↔
        ∃ u, s.waiting u = .pending ∧ s.level ≤ s.priority u := by
      subst hs
      constructor
      · rintro (hle | ⟨u, hu, hle⟩)
        · exact ⟨t, h, hle⟩
        · by_cases hut : u = t
          · subst hut
            exact ⟨u, h, hle⟩
          · exact ⟨u, (Function.update_of_ne hut ..).symm.trans hu, hle⟩
      · rintro ⟨u, hu, hle⟩
        by_cases hut : u = t
        · subst hut
          exact .inl hle
        · exact .inr ⟨u, (Function.update_of_ne hut ..).trans hu, hle⟩
    have hfirst : s'.collect.yieldPending = ((s.yieldPending || decide (s.level ≤ s.priority t)) ||
        decide (∃ u, s'.waiting u = .pending ∧ s.level ≤ s.priority u)) := by
      subst hs
      rfl
    rw [hfirst, Bool.or_assoc, ← Bool.decide_or, decide_eq_decide.2 hex]
    rfl
  have hother : s'.collect = { s.collect with
      place := s'.collect.place
      waiting := s'.collect.waiting
      yieldPending := s'.collect.yieldPending } := by
    subst hs
    rfl
  rw [hother, funext hplace, funext hwaiting, hyield]

end Schedule

end Stm32F1.Rtos

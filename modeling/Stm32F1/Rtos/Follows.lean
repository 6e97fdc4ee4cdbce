import Stm32F1.Rtos.KernelLists
import Stm32F1.Rtos.Schedule

/-!
# Lists for the places

The state item of a task is in the list for its place, and its event item in the list of
what it waits for; a bit is set for each ready list that is not empty.  A delayed task is
in the list for the current turn of the tick count, or in that for the next one.
-/

namespace Stm32F1.Rtos

open Prog

variable {τ ε : Type}

/-- The list for what a task waits for. -/
def Waiting.list : Waiting ε → Option (KernelList ε)
  | nowhere => none
  | event e => some (.pxEventList e)
  | pending => some .xPendingReadyList

namespace Kernel

def stateList (k : Kernel τ ε) (t : τ) : Option (KernelList ε) :=
  k.lists.pxContainer (.xStateListItem t)

def eventList (k : Kernel τ ε) (t : τ) : Option (KernelList ε) :=
  k.lists.pxContainer (.xEventListItem t)

/-- When a delayed task is to be woken, by the tick count. -/
def wakeValue (k : Kernel τ ε) (t : τ) : TickType := k.lists.xItemValue (.item (.xStateListItem t))

/-- The list for a place, after `now` ticks. -/
def listFor (k : Kernel τ ε) (now : Nat) : Place → Option (KernelList ε)
  | .absent => none
  | .ready p => some (.pxReadyTasksLists p)
  | .delayed wake =>
      some (if wake / 2 ^ 32 = now / 2 ^ 32 then k.pxDelayedTaskList
        else k.pxOverflowDelayedTaskList)
  | .suspended => some .xSuspendedTaskList

/-- The variables that are not about lists. -/
structure Agrees (k : Kernel τ ε) (s : Schedule τ ε) : Prop where
  uxPriority : k.uxPriority = s.priority
  uxBasePriority : k.uxBasePriority = s.base
  pxCurrentTCB : k.pxCurrentTCB = s.current
  xTickCount : k.xTickCount = UInt32.ofNat s.now
  uxSchedulerSuspended : k.uxSchedulerSuspended.toNat = s.suspended
  xPendedTicks : k.xPendedTicks.toNat = s.pended
  xYieldPending : k.xYieldPending = s.yieldPending
  pendSV : k.pendSV = s.switchPending
  xSchedulerRunning : k.xSchedulerRunning = s.running
  xNumOfOverflows : k.xNumOfOverflows = UInt32.ofNat (s.now / 2 ^ 32)

structure Follows (k : Kernel τ ε) (s : Schedule τ ε) : Prop where
  rings : k.Rings
  agrees : k.Agrees s
  exchanged :
    k.pxDelayedTaskList = .xDelayedTaskList1 ∧ k.pxOverflowDelayedTaskList = .xDelayedTaskList2 ∨
    k.pxDelayedTaskList = .xDelayedTaskList2 ∧ k.pxOverflowDelayedTaskList = .xDelayedTaskList1
  states : ∀ t, k.stateList t = k.listFor s.now (s.place t)
  events : ∀ t, k.eventList t = (s.waiting t).list
  bits : ∀ p, Marked k.uxTopReadyPriority p ↔ ∃ t, s.place t = .ready p
  wakes : ∀ t wake, s.place t = .delayed wake → (k.wakeValue t).toNat = wake % 2 ^ 32 ∧
    (wake / 2 ^ 32 = s.now / 2 ^ 32 ∨ wake / 2 ^ 32 = s.now / 2 ^ 32 + 1)
  next : ∀ t wake, s.place t = .delayed wake → wake / 2 ^ 32 = s.now / 2 ^ 32 →
    k.xNextTaskUnblockTime ≤ k.wakeValue t

end Kernel

variable {k k' : Kernel τ ε} {s s' : Schedule τ ε} {t u : τ} {l : KernelList ε} {p : Priority}
  {place : Place} {m : Lists (Item τ) (KernelList ε)} {x : UInt32}

namespace Kernel.Follows

/-! ## Lists that differ -/

theorem delayed_ne_ready (h : k.Follows s) (p : Priority) :
    k.pxDelayedTaskList ≠ .pxReadyTasksLists p ∧
    k.pxOverflowDelayedTaskList ≠ .pxReadyTasksLists p := by
  rcases h.exchanged with ⟨h1, h2⟩ | ⟨h1, h2⟩ <;> simp [h1, h2]

theorem delayed_ne_suspended (h : k.Follows s) :
    k.pxDelayedTaskList ≠ .xSuspendedTaskList ∧
    k.pxOverflowDelayedTaskList ≠ .xSuspendedTaskList := by
  rcases h.exchanged with ⟨h1, h2⟩ | ⟨h1, h2⟩ <;> simp [h1, h2]

theorem delayed_ne_pending (h : k.Follows s) :
    k.pxDelayedTaskList ≠ .xPendingReadyList ∧
    k.pxOverflowDelayedTaskList ≠ .xPendingReadyList := by
  rcases h.exchanged with ⟨h1, h2⟩ | ⟨h1, h2⟩ <;> simp [h1, h2]

theorem delayed_ne_event (h : k.Follows s) (e : ε) :
    k.pxDelayedTaskList ≠ .pxEventList e ∧ k.pxOverflowDelayedTaskList ≠ .pxEventList e := by
  rcases h.exchanged with ⟨h1, h2⟩ | ⟨h1, h2⟩ <;> simp [h1, h2]

theorem delayed_ne_overflow (h : k.Follows s) :
    k.pxDelayedTaskList ≠ k.pxOverflowDelayedTaskList := by
  rcases h.exchanged with ⟨h1, h2⟩ | ⟨h1, h2⟩ <;> simp [h1, h2]

/-! ## Where an item is -/

theorem stateList_ready (h : k.Follows s) :
    k.stateList t = some (.pxReadyTasksLists p) ↔ s.place t = .ready p := by
  rw [h.states]
  cases hplace : s.place t with
  | absent => simp [listFor]
  | ready q => simp [listFor]
  | delayed wake =>
      have hne := h.delayed_ne_ready p
      simp only [listFor, Option.some.injEq, reduceCtorEq, iff_false]
      split
      · exact hne.1
      · exact hne.2
  | suspended => simp [listFor]

theorem stateList_suspended (h : k.Follows s) :
    k.stateList t = some .xSuspendedTaskList ↔ s.place t = .suspended := by
  rw [h.states]
  cases hplace : s.place t with
  | absent => simp [listFor]
  | ready q => simp [listFor]
  | delayed wake =>
      have hne := h.delayed_ne_suspended
      simp only [listFor, Option.some.injEq, reduceCtorEq, iff_false]
      split
      · exact hne.1
      · exact hne.2
  | suspended => simp [listFor]

theorem stateList_none (h : k.Follows s) : k.stateList t = none ↔ s.place t = .absent := by
  rw [h.states]
  cases hplace : s.place t <;> simp [listFor]

theorem stateList_delayed (h : k.Follows s) : k.stateList t = some k.pxDelayedTaskList ↔
    ∃ wake, s.place t = .delayed wake ∧ wake / 2 ^ 32 = s.now / 2 ^ 32 := by
  rw [h.states]
  cases hplace : s.place t with
  | absent => simp [listFor]
  | ready q => simpa [listFor] using (h.delayed_ne_ready q).1.symm
  | delayed wake =>
      have hne := h.delayed_ne_overflow
      simp only [listFor, Option.some.injEq, Place.delayed.injEq, exists_eq_left']
      split
      · next heq => exact iff_of_true rfl heq
      · next hother => exact iff_of_false hne.symm hother
  | suspended => simpa [listFor] using h.delayed_ne_suspended.1.symm

/-- State items are in no list of what tasks wait for. -/
theorem stateList_ne (h : k.Follows s) (t : τ) :
    k.stateList t ≠ some .xPendingReadyList ∧ ∀ e, k.stateList t ≠ some (.pxEventList e) := by
  have hpending := h.delayed_ne_pending
  have hevent := h.delayed_ne_event
  rw [h.states]
  cases s.place t with
  | absent => simp [listFor]
  | ready q => simp [listFor]
  | delayed wake =>
      simp only [listFor, ne_eq, Option.some.injEq]
      split
      · exact ⟨hpending.1, fun e ↦ (hevent e).1⟩
      · exact ⟨hpending.2, fun e ↦ (hevent e).2⟩
  | suspended => simp [listFor]

/-- Event items are in no list of tasks that are delayed or ready. -/
theorem eventList_ne (h : k.Follows s) (t : τ) : k.eventList t ≠ some k.pxDelayedTaskList ∧
    k.eventList t ≠ some k.pxOverflowDelayedTaskList ∧
    ∀ p, k.eventList t ≠ some (.pxReadyTasksLists p) := by
  rw [h.events]
  cases s.waiting t with
  | nowhere => simp [Waiting.list]
  | event e =>
      have hne := h.delayed_ne_event e
      simp [Waiting.list, hne.1.symm, hne.2.symm]
  | pending =>
      have hne := h.delayed_ne_pending
      simp [Waiting.list, hne.1.symm, hne.2.symm]

theorem eventList_none (h : k.Follows s) : k.eventList t = none ↔ s.waiting t = .nowhere := by
  rw [h.events]
  cases s.waiting t <;> simp [Waiting.list]

theorem eventList_pending (h : k.Follows s) :
    k.eventList t = some .xPendingReadyList ↔ s.waiting t = .pending := by
  rw [h.events]
  cases s.waiting t <;> simp [Waiting.list]

theorem eventList_event (h : k.Follows s) {e : ε} :
    k.eventList t = some (.pxEventList e) ↔ s.waiting t = .event e := by
  rw [h.events]
  cases s.waiting t <;> simp [Waiting.list]

/-- Only state items are in lists of tasks that are ready. -/
theorem container_ready (h : k.Follows s) {i : Item τ}
    (hi : k.lists.pxContainer i = some (.pxReadyTasksLists p)) :
    ∃ t, i = .xStateListItem t ∧ s.place t = .ready p := by
  cases i with
  | xStateListItem t => exact ⟨t, rfl, h.stateList_ready.1 hi⟩
  | xEventListItem t => exact absurd hi ((h.eventList_ne t).2.2 p)

/-- Only state items are in the list of tasks to be woken in this turn. -/
theorem container_delayed (h : k.Follows s) {i : Item τ}
    (hi : k.lists.pxContainer i = some k.pxDelayedTaskList) : ∃ t wake, i = .xStateListItem t ∧
      s.place t = .delayed wake ∧ wake / 2 ^ 32 = s.now / 2 ^ 32 := by
  cases i with
  | xStateListItem t =>
      obtain ⟨wake, hplace, hturn⟩ := h.stateList_delayed.1 hi
      exact ⟨t, wake, rfl, hplace, hturn⟩
  | xEventListItem t => exact absurd hi (h.eventList_ne t).1

/-- Only event items are in the list of tasks that interrupts have readied. -/
theorem container_pending (h : k.Follows s) {i : Item τ}
    (hi : k.lists.pxContainer i = some .xPendingReadyList) :
    ∃ t, i = .xEventListItem t ∧ s.waiting t = .pending := by
  cases i with
  | xEventListItem t => exact ⟨t, rfl, h.eventList_pending.1 hi⟩
  | xStateListItem t => exact absurd hi (h.stateList_ne t).1

/-- Only event items are in the list of an event. -/
theorem container_event (h : k.Follows s) {i : Item τ} {e : ε}
    (hi : k.lists.pxContainer i = some (.pxEventList e)) :
    ∃ t, i = .xEventListItem t ∧ s.waiting t = .event e := by
  cases i with
  | xEventListItem t => exact ⟨t, rfl, h.eventList_event.1 hi⟩
  | xStateListItem t => exact absurd hi ((h.stateList_ne t).2 e)

/-! ## What changes -/

/-- Only variables that are not about lists have changed. -/
theorem vary (h : k.Follows s) (hagrees : k'.Agrees s') (hlists : k'.lists = k.lists)
    (hdelayed : k'.pxDelayedTaskList = k.pxDelayedTaskList)
    (hoverflow : k'.pxOverflowDelayedTaskList = k.pxOverflowDelayedTaskList)
    (htop : k'.uxTopReadyPriority = k.uxTopReadyPriority)
    (hnext : k'.xNextTaskUnblockTime = k.xNextTaskUnblockTime) (hplace : s'.place = s.place)
    (hwaiting : s'.waiting = s.waiting) (hnow : s'.now = s.now) : k'.Follows s' := by
  obtain ⟨rings, agrees, exchanged, states, events, bits, wakes, next⟩ := h
  refine ⟨?_, hagrees, ?_, ?_, ?_, ?_, ?_, ?_⟩
  · unfold Rings
    rw [hlists, hdelayed, hoverflow]
    exact rings
  · rw [hdelayed, hoverflow]
    exact exchanged
  · intro t
    have hlist : k'.listFor s'.now (s'.place t) = k.listFor s.now (s.place t) := by
      rw [hnow, hplace]
      unfold listFor
      rw [hdelayed, hoverflow]
    rw [hlist, ← states, stateList, hlists]
    rfl
  · intro t
    rw [hwaiting, ← events, eventList, hlists]
    rfl
  · rw [htop, hplace]
    exact bits
  · rw [hplace, hnow]
    unfold wakeValue
    rw [hlists]
    exact wakes
  · rw [hplace, hnow, hnext]
    unfold wakeValue
    rw [hlists]
    exact next

variable [DecidableEq τ]

/-- **The state item of a task has been moved**, to a place where it is not delayed. -/
theorem moved (h : k.Follows s) (hrings : Rings { k with lists := m, uxTopReadyPriority := x })
    (hcontainer : m.pxContainer =
      Function.update k.lists.pxContainer (.xStateListItem t) (k.listFor s.now place))
    (hvalue : m.xItemValue = k.lists.xItemValue) (hplace : ∀ wake, place ≠ .delayed wake)
    (hbits : ∀ p, Marked x p ↔ ∃ u, (s.put t place).place u = .ready p) :
    Follows { k with lists := m, uxTopReadyPriority := x } (s.put t place) := by
  have hother {u : τ} {wake : Nat} (hu : (s.put t place).place u = .delayed wake) :
      s.place u = .delayed wake := by
    by_cases hut : u = t
    · subst hut
      exact absurd ((Function.update_self ..).symm.trans hu) (hplace wake)
    · exact (Function.update_of_ne hut ..).symm.trans hu
  have hwake (u : τ) : m.xItemValue (.item (.xStateListItem u)) = k.wakeValue u := by
    rw [hvalue]; rfl
  refine ⟨hrings, { h.agrees with }, h.exchanged, ?_, ?_, hbits, ?_, ?_⟩
  · intro u
    show m.pxContainer (.xStateListItem u) = k.listFor s.now (Function.update s.place t place u)
    rw [hcontainer]
    by_cases hut : u = t
    · subst hut
      rw [Function.update_self, Function.update_self]
    · have hne : Item.xStateListItem u ≠ .xStateListItem t := fun heq ↦
        hut (Item.xStateListItem.inj heq)
      rw [Function.update_of_ne hne, Function.update_of_ne hut]
      exact h.states u
  · intro u
    show m.pxContainer (.xEventListItem u) = (s.waiting u).list
    rw [hcontainer, Function.update_of_ne (by simp)]
    exact h.events u
  · intro u wake hu
    rw [wakeValue, hwake]
    exact h.wakes u wake (hother hu)
  · intro u wake hu hturn
    rw [wakeValue, hwake]
    exact h.next u wake (hother hu) hturn

/-- The ready lists are as before. -/
theorem bits_put (h : k.Follows s) (hfrom : ∀ p, s.place t ≠ .ready p) (hto : ∀ p, place ≠ .ready p)
    (p : Priority) : Marked k.uxTopReadyPriority p ↔ ∃ u, (s.put t place).place u = .ready p := by
  rw [h.bits]
  refine exists_congr fun u ↦ ?_
  by_cases hut : u = t
  · subst hut
    have hself : (s.put u place).place u = place := Function.update_self ..
    rw [hself]
    exact iff_of_false (hfrom p) (hto p)
  · have hsame : (s.put t place).place u = s.place u := Function.update_of_ne hut ..
    rw [hsame]

/-- **The event item of a task has been moved.** -/
theorem waited (h : k.Follows s) {waiting : Waiting ε} (hrings : Rings { k with lists := m })
    (hcontainer : m.pxContainer =
      Function.update k.lists.pxContainer (.xEventListItem t) waiting.list)
    (hvalue : m.xItemValue = k.lists.xItemValue) :
    Follows { k with lists := m } (s.wait t waiting) := by
  have hwake (u : τ) : m.xItemValue (.item (.xStateListItem u)) = k.wakeValue u := by
    rw [hvalue]; rfl
  refine ⟨hrings, { h.agrees with }, h.exchanged, ?_, ?_, h.bits, ?_, ?_⟩
  · intro u
    show m.pxContainer (.xStateListItem u) = k.listFor s.now (s.place u)
    rw [hcontainer, Function.update_of_ne (by simp)]
    exact h.states u
  · intro u
    show m.pxContainer (.xEventListItem u) = (Function.update s.waiting t waiting u).list
    rw [hcontainer]
    by_cases hut : u = t
    · subst hut
      rw [Function.update_self, Function.update_self]
    · have hne : Item.xEventListItem u ≠ .xEventListItem t := fun heq ↦
        hut (Item.xEventListItem.inj heq)
      rw [Function.update_of_ne hne, Function.update_of_ne hut]
      exact h.events u
  · intro u wake hu
    rw [wakeValue, hwake]
    exact h.wakes u wake hu
  · intro u wake hu hturn
    rw [wakeValue, hwake]
    exact h.next u wake hu hturn

end Kernel.Follows

end Stm32F1.Rtos

import Stm32F1.Rtos.Ticks

/-!
# Blocking

The current task is delayed, or waits for an event, or both.  The scheduler is suspended
meanwhile; when it no longer is, the tasks that interrupts have readied become ready, and
the ticks that have come are counted.
-/

namespace Stm32F1.Rtos

open Prog

variable {τ ε : Type} {k k' : Kernel τ ε} {s : Schedule τ ε} {t u c : τ} {n : TickType}
  {m : Lists (Item τ) (KernelList ε)} [DecidableEq τ] [DecidableEq ε]

namespace Kernel.Follows

/-! ## Delayed tasks -/

/-- **The state item of a task has been put into a list of delayed tasks.** -/
theorem settled (h : k.Follows s) (ht : s.place t = .absent) (wake : Nat) {v y : TickType}
    (hrings : Rings { k with lists := m, xNextTaskUnblockTime := y })
    (hcontainer : m.pxContainer =
      Function.update k.lists.pxContainer (.xStateListItem t) (k.listFor s.now (.delayed wake)))
    (hvalue : m.xItemValue = Function.update k.lists.xItemValue (.item (.xStateListItem t)) v)
    (hv : v.toNat = wake % 2 ^ 32)
    (hturn : wake / 2 ^ 32 = s.now / 2 ^ 32 ∨ wake / 2 ^ 32 = s.now / 2 ^ 32 + 1)
    (hy : y ≤ k.xNextTaskUnblockTime) (hyv : wake / 2 ^ 32 = s.now / 2 ^ 32 → y ≤ v) :
    Follows { k with lists := m, xNextTaskUnblockTime := y } (s.put t (.delayed wake)) := by
  have hself : m.xItemValue (.item (.xStateListItem t)) = v := by rw [hvalue, Function.update_self]
  have hother {u : τ} (hu : u ≠ t) : m.xItemValue (.item (.xStateListItem u)) = k.wakeValue u := by
    rw [hvalue, Function.update_of_ne (by simpa using hu)]
    rfl
  refine ⟨hrings, { h.agrees with }, h.exchanged, ?_, ?_, ?_, ?_, ?_⟩
  · intro u
    show m.pxContainer (.xStateListItem u) = k.listFor s.now ((s.put t (.delayed wake)).place u)
    rw [hcontainer]
    by_cases hut : u = t
    · subst hut
      rw [Function.update_self, Schedule.put_place_self]
    · rw [Function.update_of_ne (by simpa using hut), Schedule.put_place_of_ne hut]
      exact h.states u
  · intro u
    show m.pxContainer (.xEventListItem u) = (s.waiting u).list
    rw [hcontainer, Function.update_of_ne (by simp)]
    exact h.events u
  · exact h.bits_put (by simp [ht]) (by simp)
  · intro u w hu
    show (m.xItemValue (.item (.xStateListItem u))).toNat = _ ∧ _
    by_cases hut : u = t
    · subst hut
      obtain rfl : wake = w := by simpa using hu
      rw [hself]
      exact ⟨hv, hturn⟩
    · rw [hother hut]
      exact h.wakes u w ((Schedule.put_place_of_ne hut).symm.trans hu)
  · intro u w hu hw
    show y ≤ m.xItemValue (.item (.xStateListItem u))
    by_cases hut : u = t
    · subst hut
      obtain rfl : wake = w := by simpa using hu
      rw [hself]
      exact hyv hw
    · rw [hother hut]
      exact UInt32.le_trans hy (h.next u w ((Schedule.put_place_of_ne hut).symm.trans hu) hw)

variable [Fintype τ] (hfew : Fintype.card (Item τ) < 2 ^ 32)

include hfew

/-- **`prvAddCurrentTaskToDelayedList`** -/
theorem run_prvAddCurrentTaskToDelayedList (h : k.Follows s) (hcurrent : s.current = some c)
    (hready : s.place c = .ready (s.priority c)) (indefinitely : Bool) :
    Run (prvAddCurrentTaskToDelayedList n indefinitely) k fun _ k' ↦
      k'.Follows (s.block c n indefinitely) := by
  have hcount : k.xTickCount = UInt32.ofNat s.now := h.agrees.xTickCount
  have hpriority : k.uxPriority c = s.priority c := congrFun h.agrees.uxPriority c
  rw [prvAddCurrentTaskToDelayedList, run_bind, run_of_eq (read_apply _ _), run_bind,
    run_currentTCB (h.agrees.pxCurrentTCB.trans hcurrent), run_bind, run_of_eq (read_apply _ _),
    hpriority]
  refine (h.run_removeFromReady hfew hready).bind fun _ k₁ h1 ↦ ?_
  have habsent : (s.put c .absent).place c = .absent := Schedule.put_place_self
  rw [Schedule.block]
  by_cases hlong : n = portMAX_DELAY ∧ indefinitely = true
  · rw [if_pos hlong, if_pos hlong]
    refine (h1.run_insertSuspended habsent).mono fun _ k₂ h2 ↦ ?_
    simpa using h2
  · rw [if_neg hlong, if_neg hlong]
    have hlist := h1.stateList_none.2 habsent
    have hnone : k₁.lists.pxContainer (.xStateListItem c) = none := hlist
    rw [run_bind]
    refine (h1.rings.run_listSET_LIST_ITEM_VALUE (by simp [hnone])).mono fun _ k₂ hbecomes ↦ ?_
    obtain ⟨m, rfl, hrings, hcontainer, hvalue⟩ := hbecomes.exists_lists
    have hnow : k₁.xTickCount.toNat = s.now % 2 ^ 32 := h1.toNat_xTickCount
    have hcount₁ : k.xTickCount = k₁.xTickCount := hcount.trans h1.agrees.xTickCount.symm
    rw [hcount₁] at hvalue ⊢
    have hwake : (k₁.xTickCount + n).toNat = (s.now + n.toNat) % 2 ^ 32 := by
      rw [UInt32.toNat_add, hnow]
      omega
    have hnlt : n.toNat < 2 ^ 32 := n.toNat_lt
    have hnone' : m.pxContainer (.xStateListItem c) = none := by rw [hcontainer, hnone]
    -- the tick count of the moment overflows just when the turn is over
    have hover : k₁.xTickCount + n < k₁.xTickCount ↔
        (s.now + n.toNat) / 2 ^ 32 ≠ s.now / 2 ^ 32 := by
      rw [UInt32.lt_iff_toNat_lt, hwake, hnow]
      omega
    have hturn : (s.now + n.toNat) / 2 ^ 32 = s.now / 2 ^ 32 ∨
        (s.now + n.toNat) / 2 ^ 32 = s.now / 2 ^ 32 + 1 := by omega
    by_cases hlater : k₁.xTickCount + n < k₁.xTickCount
    · rw [if_pos hlater, run_bind, run_of_eq (read_apply _ _)]
      refine (hrings.run_listInsert hnone').mono fun _ k₃ hbecomes ↦ ?_
      obtain ⟨m', rfl, hrings', hcontainer', hvalue'⟩ := hbecomes.exists_lists
      have hfor :
          k₁.listFor s.now (.delayed (s.now + n.toNat)) = some k₁.pxOverflowDelayedTaskList := by
        simp only [listFor, if_neg (hover.1 hlater)]
      have h2 := h1.settled habsent (s.now + n.toNat) (m := m') (y := k₁.xNextTaskUnblockTime)
        hrings' ?_ (hvalue'.trans hvalue) hwake hturn (UInt32.le_refl _)
        (fun hsame ↦ absurd hsame (hover.1 hlater))
      · simpa using h2
      · show m'.pxContainer = Function.update k₁.lists.pxContainer (.xStateListItem c)
          (k₁.listFor s.now (.delayed (s.now + n.toNat)))
        rw [hcontainer', hfor, hcontainer]
    · rw [if_neg hlater, run_bind, run_of_eq (read_apply _ _), run_bind]
      refine (hrings.run_listInsert hnone').mono fun _ k₃ hbecomes ↦ ?_
      obtain ⟨m', rfl, hrings', hcontainer', hvalue'⟩ := hbecomes.exists_lists
      have hsame := not_not.1 (hover.not.1 hlater)
      have hfor : k₁.listFor s.now (.delayed (s.now + n.toNat)) = some k₁.pxDelayedTaskList := by
        simp only [listFor, if_pos hsame]
      have hsettled {y : TickType} (hy : y ≤ k₁.xNextTaskUnblockTime)
        (hyv : y ≤ k₁.xTickCount + n) :
          Follows { k₁ with lists := m', xNextTaskUnblockTime := y }
            (s.put c (.delayed (s.now + n.toNat))) := by
        have h2 := h1.settled habsent (s.now + n.toNat) (m := m') (y := y)
          hrings' ?_ (hvalue'.trans hvalue) hwake hturn hy fun _ ↦ hyv
        · simpa using h2
        · show m'.pxContainer = Function.update k₁.lists.pxContainer (.xStateListItem c)
            (k₁.listFor s.now (.delayed (s.now + n.toNat)))
          rw [hcontainer', hfor, hcontainer]
      rw [run_of_eq (modify_apply _ _)]
      split
      · next hless => exact hsettled (UInt32.le_of_lt hless) (UInt32.le_refl _)
      · next hnot => exact hsettled (UInt32.le_refl _) (UInt32.not_lt.1 hnot)

/-! ## Calls that block -/

omit hfew [Fintype τ] [DecidableEq τ] [DecidableEq ε] in
theorem suspendAll (h : k.Follows s) (hnested : s.suspended + 1 < 2 ^ 32) :
    Follows { k with uxSchedulerSuspended := k.uxSchedulerSuspended + 1 } s.suspendAll := by
  refine h.vary { h.agrees with uxSchedulerSuspended := ?_ } rfl rfl rfl rfl rfl rfl rfl rfl
  show (k.uxSchedulerSuspended + 1).toNat = s.suspended + 1
  rw [UInt32.toNat_add, h.agrees.uxSchedulerSuspended]
  exact Nat.mod_eq_of_lt hnested

theorem run_vTaskDelay (h : k.Follows s) (hcurrent : s.current = some c)
    (hready : s.place c = .ready (s.priority c)) (hnested : s.suspended + 1 < 2 ^ 32) :
    Run (vTaskDelay n) k fun _ k' ↦ k'.Follows (s.suspendAll.block c n false) := by
  rw [vTaskDelay, vTaskSuspendAll, run_bind, run_of_eq (modify_apply _ _)]
  exact (h.suspendAll hnested).run_prvAddCurrentTaskToDelayedList hfew hcurrent hready false

theorem run_xTaskDelayUntil (h : k.Follows s) (hcurrent : s.current = some c)
    (hready : s.place c = .ready (s.priority c)) (hnested : s.suspended + 1 < 2 ^ 32)
    {previous increment : TickType} : Run (xTaskDelayUntil previous increment) k fun r k' ↦
      k'.Follows (s.suspendAll.delayUntil c previous increment) ∧
        r = (previous + increment,
          shouldDelay (UInt32.ofNat s.now) previous (previous + increment)) := by
  have h1 := h.suspendAll hnested
  have hwhen : Run (when (shouldDelay k.xTickCount previous (previous + increment))
      (prvAddCurrentTaskToDelayedList (previous + increment - k.xTickCount) false))
      { k with uxSchedulerSuspended := k.uxSchedulerSuspended + 1 } fun _ k' ↦
        k'.Follows (s.suspendAll.delayUntil c previous increment) := by
    have hcount : UInt32.ofNat s.suspendAll.now = k.xTickCount := h.agrees.xTickCount.symm
    rw [Schedule.delayUntil, hcount]
    cases shouldDelay k.xTickCount previous (previous + increment) with
    | true => exact h1.run_prvAddCurrentTaskToDelayedList hfew hcurrent hready false
    | false => exact run_pure.2 h1
  rw [xTaskDelayUntil, vTaskSuspendAll, run_bind, run_of_eq (modify_apply _ _), run_bind,
    run_of_eq (read_apply _ _), run_bind]
  exact hwhen.mono fun _ _ h2 ↦ run_pure.2 ⟨h2, by rw [← h.agrees.xTickCount]⟩

theorem run_vTaskPlaceOnEventList (h : k.Follows s) (hcurrent : s.current = some c)
    (hready : s.place c = .ready (s.priority c)) (hwaiting : s.waiting c = .nowhere) (e : ε) :
    Run (vTaskPlaceOnEventList e n) k fun _ k' ↦
    k'.Follows ((s.wait c (.event e)).block c n true) := by
  rw [vTaskPlaceOnEventList, run_bind, run_currentTCB (h.agrees.pxCurrentTCB.trans hcurrent)]
  refine (h.run_insertEvent hwaiting e).bind fun _ k₁ h1 ↦ ?_
  exact h1.run_prvAddCurrentTaskToDelayedList hfew hcurrent hready true

/-! ## `xTaskResumeAll` -/

/-- A task that an interrupt has readied becomes ready. -/
theorem run_move (h : k.Follows s) (ht : s.waiting t = .pending) (hplace : s.place t ≠ .absent)
    (hready : ∀ p, s.place t ≠ .ready p) : Run (do
      let _ ← listRemove (.xEventListItem t)
      let _ ← listRemove (.xStateListItem t)
      prvAddTaskToReadyList t) k fun _ k' ↦ k'.Follows (s.toReady t) := by
  refine (h.run_listRemove_event hfew (by simp [ht])).bind fun _ k₁ h1 ↦ ?_
  refine (h1.run_listRemove_state hfew hplace hready).bind fun _ k₂ h2 ↦ ?_
  refine (h2.run_prvAddTaskToReadyList Schedule.put_place_self).mono fun _ k₃ h3 ↦ ?_
  simpa [Schedule.toReady, Schedule.wait_put] using h3

omit [DecidableEq τ] [DecidableEq ε] in
/-- A list is empty, or it has a first item. -/
theorem run_first {l : KernelList ε} {α : Type} {f : Bool → Prog (Kernel τ ε) α}
    {Q : α → Kernel τ ε → Prop} (h : k.Follows s)
    (hempty : (∀ i, k.lists.pxContainer i ≠ some l) → Run (f true) k Q)
    (hsome : ∀ i, k.lists.pxContainer i = some l → Run (f false) k Q) :
    Run (listLIST_IS_EMPTY l >>= f) k Q := by
  rw [run_bind]
  refine (h.rings.run_listLIST_IS_EMPTY hfew).mono ?_
  rintro isEmpty k ⟨rfl, hiff⟩
  cases isEmpty with
  | true => exact hempty (hiff.1 rfl)
  | false =>
      by_contra hnot
      refine absurd (hiff.2 fun i hi ↦ ?_) Bool.false_ne_true
      exact hnot (hsome i hi)

end Kernel.Follows

/-- How many tasks interrupts have readied. -/
def Kernel.toMove [Fintype τ] (k : Kernel τ ε) : Nat :=
  (Finset.univ.filter fun t ↦ k.eventList t = some .xPendingReadyList).card

/-- What the first loop of `xTaskResumeAll` keeps. -/
structure Moving [Fintype τ] (s : Schedule τ ε) (c : τ) (k : Kernel τ ε) (s' : Schedule τ ε) :
    Prop where
  follows : k.Follows s'
  collect : s'.collect = s.collect
  current : s'.current = some c
  held : ∀ t, s'.waiting t = .pending → s'.place t ≠ .absent ∧ ∀ p, s'.place t ≠ .ready p

namespace Kernel.Follows

variable [Fintype τ] (hfew : Fintype.card (Item τ) < 2 ^ 32)

theorem toMove_lt {s' : Schedule τ ε} (h : k.Follows s) (h' : k'.Follows s')
    (hwaiting : s'.waiting = (s.toReady t).waiting) (ht : s.waiting t = .pending) :
    k'.toMove < k.toMove := by
  refine Finset.card_lt_card ⟨?_, ?_⟩
  · intro u hu
    rw [Finset.mem_filter] at hu ⊢
    have hpending := h'.eventList_pending.1 hu.2
    have hut : u ≠ t := by
      rintro rfl
      rw [hwaiting, Schedule.toReady, Schedule.wait_waiting_self] at hpending
      exact absurd hpending (by simp)
    rw [hwaiting] at hpending
    exact ⟨Finset.mem_univ u,
      h.eventList_pending.2 ((Function.update_of_ne hut ..).symm.trans hpending)⟩
  · intro hsubset
    have hmem := hsubset (Finset.mem_filter.2 ⟨Finset.mem_univ t, h.eventList_pending.2 ht⟩)
    have hpending := h'.eventList_pending.1 (Finset.mem_filter.1 hmem).2
    rw [hwaiting, Schedule.toReady, Schedule.wait_waiting_self] at hpending
    exact absurd hpending (by simp)

include hfew

/-- **The first loop of `xTaskResumeAll`** -/
theorem run_movePending (h : k.Follows s) (hcurrent : s.current = some c)
    (hheld : ∀ t, s.waiting t = .pending → s.place t ≠ .absent ∧ ∀ p, s.place t ≠ .ready p) :
    Run (movePending false) k fun _ k' ↦ k'.Follows s.collect := by
  refine run_repeatM (fun _ k ↦ ∃ s', Moving s c k s') (fun _ k ↦ k.toMove) ?_
    ⟨s, h, rfl, hcurrent, hheld⟩
  rintro moved k ⟨s', h', hcollect, hcurrent', hheld'⟩
  refine h'.run_first hfew ?_ ?_
  · intro hnone
    refine run_pure.2 ?_
    have hnobody : ∀ t, s'.waiting t ≠ .pending := fun t ht ↦
      hnone (.xEventListItem t) (h'.eventList_pending.2 ht)
    rw [← hcollect, Schedule.collect_of_none hnobody]
    exact h'
  · intro i hi
    simp only [Bool.false_eq_true, if_false]
    rw [run_bind]
    refine (h'.rings.run_listGET_OWNER_OF_HEAD_ENTRY hi).mono ?_
    rintro _ k₁ ⟨hsame, j, rfl, hj, -⟩
    obtain ⟨t, rfl, ht⟩ := h'.container_pending hj
    have hmove := h'.run_move hfew ht (hheld' t ht).1 (hheld' t ht).2
    rw [hsame]
    simp only [run_bind] at hmove ⊢
    refine hmove.mono fun _ _ h1 ↦ h1.mono fun _ _ h2 ↦ h2.mono fun _ k₂ h3 ↦ ?_
    have hcurrent₂ : (s'.toReady t).current = some c := hcurrent'
    have hlevel : s'.level = (s'.toReady t).priority c := by
      rw [Schedule.level, hcurrent']
      rfl
    rw [run_currentTCB (h3.agrees.pxCurrentTCB.trans hcurrent₂), run_read, h3.agrees.uxPriority]
    refine (h3.run_when_setYieldPending _).mono fun _ k₃ h4 ↦
      run_pure.2 ⟨⟨_, h4, ?_, hcurrent₂, ?_⟩, ?_⟩
    · rw [← hcollect, ← Schedule.collect_toReady ht, hlevel]
      rfl
    · intro u hu
      have hut : u ≠ t := by
        rintro rfl
        have hself : (s'.toReady u).waiting u = .nowhere := Schedule.wait_waiting_self
        exact absurd (hself.symm.trans hu) (by simp)
      have hplace : (s'.toReady t).place u = s'.place u := Function.update_of_ne hut ..
      show (s'.toReady t).place u ≠ _ ∧ ∀ p, (s'.toReady t).place u ≠ _
      rw [hplace]
      exact hheld' u ((Function.update_of_ne hut ..).symm.trans hu)
    · exact h'.toMove_lt h4 rfl ht

/-- **The second loop of `xTaskResumeAll`**: the ticks that have come are counted. -/
theorem run_countPended (h : k.Follows s) (hpunctual : s.Punctual) (hcurrent : s.current = some c)
    (hsuspended : s.suspended = 0) (hn : 0 < n) :
    Run (countPended n) k fun _ k' ↦ k'.Follows (Schedule.counted^[n.toNat] s) := by
  refine run_repeatM (fun m k ↦ ∃ s', k.Follows s' ∧ s'.Punctual ∧ s'.current = some c ∧
    s'.suspended = 0 ∧ 0 < m ∧ Schedule.counted^[m.toNat] s' = Schedule.counted^[n.toNat] s)
    (fun m _ ↦ m.toNat) ?_ ⟨s, h, hpunctual, hcurrent, hsuspended, hn, rfl⟩
  rintro m k ⟨s', h', hpunctual', hcurrent', hsuspended', hm, hrest⟩
  have hzero : k.uxSchedulerSuspended = 0 := by
    rw [← UInt32.toNat_inj, h'.agrees.uxSchedulerSuspended]
    exact hsuspended'
  have hpos : 0 < m.toNat := UInt32.lt_iff_toNat_lt.1 hm
  have hle : (1 : UInt32) ≤ m := UInt32.le_iff_toNat_le.2 hpos
  have hless : (m - 1).toNat + 1 = m.toNat := by
    rw [UInt32.toNat_sub_of_le _ _ hle]
    exact Nat.sub_add_cancel hpos
  rw [run_bind, xTaskIncrementTick, run_bind, run_of_eq (read_apply _ _), hzero, if_pos rfl]
  refine (h'.run_countTick hfew hpunctual' hcurrent').mono fun r k₁ hcounted ↦ ?_
  obtain ⟨h1, hr⟩ := hcounted
  refine (h1.run_when_setYieldPending r).bind fun _ k₂ h2 ↦ ?_
  rw [hr, Schedule.counted_eq] at h2
  rw [← hless, Function.iterate_succ_apply] at hrest
  by_cases hmore : m - 1 > 0
  · rw [if_pos hmore]
    refine run_pure.2 ⟨⟨s'.counted, h2, hpunctual'.count, hcurrent', hsuspended', hmore, hrest⟩, ?_⟩
    omega
  · rw [if_neg hmore]
    have hlast : (m - 1).toNat = 0 := by
      have hnot := mt UInt32.lt_iff_toNat_lt.2 hmore
      exact Nat.eq_zero_of_not_pos hnot
    rw [hlast] at hrest
    refine run_pure.2 ?_
    rw [← hrest]
    exact h2

omit [DecidableEq ε] hfew in
theorem counted_kept (i : Nat) : (Schedule.counted^[i] s).current = s.current ∧
    (Schedule.counted^[i] s).suspended = s.suspended ∧
    (Schedule.counted^[i] s).pended = s.pended := by
  induction i with
  | zero => exact ⟨rfl, rfl, rfl⟩
  | succ i ih =>
      rw [Function.iterate_succ_apply']
      exact ih

/-- **`xTaskResumeAll`** -/
theorem run_xTaskResumeAll (h : k.Follows s) (hpunctual : s.Punctual)
    (hcurrent : s.current = some c)
    (hheld : ∀ t, s.waiting t = .pending → s.place t ≠ .absent ∧ ∀ p, s.place t ≠ .ready p)
    (hpos : 0 < s.suspended) : Run xTaskResumeAll k fun r k' ↦
      k'.Follows s.resumeAll ∧ (r = true → s.resumeAll.switchPending = true) := by
  have hle : (1 : UInt32) ≤ k.uxSchedulerSuspended := by
    rw [UInt32.le_iff_toNat_le, h.agrees.uxSchedulerSuspended]
    exact hpos
  have hless : (k.uxSchedulerSuspended - 1).toNat = s.suspended - 1 := by
    rw [UInt32.toNat_sub_of_le _ _ hle, h.agrees.uxSchedulerSuspended]
    rfl
  have h1 : Follows { k with uxSchedulerSuspended := k.uxSchedulerSuspended - 1 }
      { s with suspended := s.suspended - 1 } :=
    h.vary { h.agrees with uxSchedulerSuspended := hless } rfl rfl rfl rfl rfl rfl rfl rfl
  have hzero : k.uxSchedulerSuspended - 1 = 0 ↔ s.suspended - 1 = 0 := by
    rw [← UInt32.toNat_inj, hless]
    rfl
  rw [xTaskResumeAll, run_bind, run_of_eq (modify_apply _ _), run_bind, run_of_eq (read_apply _ _),
    Schedule.resumeAll]
  by_cases h0 : s.suspended - 1 = 0
  · rw [if_pos (hzero.2 h0), if_pos h0, run_bind]
    refine (h1.run_movePending hfew hcurrent hheld).mono fun moved k₂ h2 ↦ ?_
    have hreset : Run (when moved prvResetNextTaskUnblockTime) k₂ fun _ k' ↦
        k'.Follows (Schedule.collect { s with suspended := s.suspended - 1 }) := by
      cases moved with
      | true => exact h2.run_prvResetNextTaskUnblockTime hfew
      | false => exact run_pure.2 h2
    refine hreset.bind fun _ k₃ h3 ↦ ?_
    have hpunctual₁ : Schedule.Punctual { s with suspended := s.suspended - 1 } := hpunctual
    have hpended : k₃.xPendedTicks.toNat = s.pended := h3.agrees.xPendedTicks
    rw [run_bind, run_of_eq (read_apply _ _), run_bind]
    generalize hs' : Schedule.counted^[s.pended] (Schedule.collect
      { s with suspended := s.suspended - 1 }) = s'
    have hticks : Run (when (k₃.xPendedTicks > 0) do
        countPended k₃.xPendedTicks
        modify fun k ↦ { k with xPendedTicks := 0 }) k₃ fun _ k' ↦
          k'.Follows { s' with pended := 0 } := by
      apply run_when
      · intro hsome
        refine (h3.run_countPended hfew hpunctual₁.collect hcurrent h0 hsome).bind fun _ k₄ h4 ↦ ?_
        rw [hpended, hs'] at h4
        exact run_modify.2
          (h4.vary { h4.agrees with xPendedTicks := rfl } rfl rfl rfl rfl rfl rfl rfl rfl)
      · intro hnone
        have hnot := mt UInt32.lt_iff_toNat_lt.2 hnone
        have hp0 : s.pended = 0 := by
          rw [← hpended]
          exact Nat.eq_zero_of_not_pos hnot
        have hkept : s'.pended = 0 := by
          rw [← hs', (counted_kept s.pended).2.2]
          exact hp0
        have hsame : ({ s' with pended := 0 } : Schedule τ ε) = s' := by rw [← hkept]
        have hnever (x : Schedule τ ε) : Schedule.counted^[s.pended] x = x := by
          rw [hp0]
          rfl
        rw [hsame, ← hs', hnever]
        exact h3
    refine hticks.mono fun _ k₅ h5 ↦ ?_
    rw [run_bind, run_of_eq (read_apply _ _), h5.agrees.xYieldPending]
    refine (h5.run_when_portYIELD _).bind fun _ k₆ h6 ↦ run_pure.2 ?_
    have hrelease : Schedule.release { s with suspended := s.suspended - 1 } =
        { s' with pended := 0, switchPending := s'.switchPending || s'.yieldPending } := by
      rw [← hs']
      rfl
    rw [hrelease]
    refine ⟨h6, fun hr ↦ ?_⟩
    show (s'.switchPending || s'.yieldPending) = true
    rw [show s'.yieldPending = true from hr, Bool.or_true]
  · rw [if_neg fun heq ↦ h0 (hzero.1 heq), if_neg h0]
    exact run_pure.2 ⟨h1, by simp⟩

/-- **The end of a call that blocks**: a context switch has been requested. -/
theorem run_resumeAndYield (h : k.Follows s) (hpunctual : s.Punctual)
    (hcurrent : s.current = some c)
    (hheld : ∀ t, s.waiting t = .pending → s.place t ≠ .absent ∧ ∀ p, s.place t ≠ .ready p)
    (hpos : 0 < s.suspended) : Run resumeAndYield k fun _ k' ↦ k'.Follows s.resumeAll.yield := by
  rw [resumeAndYield, run_bind]
  refine (h.run_xTaskResumeAll hfew hpunctual hcurrent hheld hpos).mono fun r k₁ ⟨h1, hr⟩ ↦ ?_
  cases r with
  | true =>
      have hyield : s.resumeAll.yield = s.resumeAll := by
        rw [Schedule.yield, ← hr rfl]
      rw [hyield]
      exact run_pure.2 h1
  | false => exact h1.run_portYIELD

end Kernel.Follows

end Stm32F1.Rtos

import Stm32F1.Lib.Loop
import Stm32F1.Rtos.Moves

/-!
# Ticks

A tick makes ready exactly the tasks that are delayed until it.  The lists of delayed
tasks are exchanged when the tick count overflows; nobody is left in the list of the
turn that is over.
-/

namespace Stm32F1.Rtos

open Prog

variable {τ ε : Type} {k k' : Kernel τ ε} {s : Schedule τ ε} {t u c : τ} {n : TickType}

theorem run_currentTCB {Q : τ → Kernel τ ε → Prop} (h : k.pxCurrentTCB = some c) :
    Run currentTCB k Q ↔ Q c k :=
  run_of_eq (by rw [currentTCB, h]; rfl)

/-! ## The time of the next task -/

section Next

variable [Fintype τ] (hfew : Fintype.card (Item τ) < 2 ^ 32)

include hfew

theorem Kernel.Rings.run_prvResetNextTaskUnblockTime (h : k.Rings) :
    Run prvResetNextTaskUnblockTime k fun _ k' ↦ ∃ v, k' = { k with xNextTaskUnblockTime := v } ∧
      ∀ i, k.lists.pxContainer i = some k.pxDelayedTaskList → v ≤ k.lists.xItemValue (.item i) := by
  rw [prvResetNextTaskUnblockTime, run_bind, run_of_eq (read_apply _ _), run_bind]
  refine (h.run_listLIST_IS_EMPTY hfew).mono ?_
  rintro isEmpty k ⟨rfl, hempty⟩
  cases isEmpty with
  | true =>
      refine run_modify.2 ⟨_, rfl, ?_⟩
      intro i hi
      exact absurd hi (hempty.1 rfl i)
  | false =>
      have hsome : ∃ i, k.lists.pxContainer i = some k.pxDelayedTaskList := by
        by_contra hnone
        exact absurd (hempty.2 (not_exists.1 hnone)) (by simp)
      obtain ⟨i, hi⟩ := hsome
      obtain ⟨j, hnext, -, hleast⟩ := h.head hi
      simp only [Bool.false_eq_true, if_false]
      rw [run_bind, listGET_ITEM_VALUE_OF_HEAD_ENTRY, run_of_eq (read_apply _ _)]
      refine run_modify.2 ⟨_, rfl, ?_⟩
      rw [hnext]
      exact hleast rfl

namespace Kernel.Follows

omit [Fintype τ] hfew in
theorem setNext {v : TickType} (h : k.Follows s)
    (hv : ∀ i, k.lists.pxContainer i = some k.pxDelayedTaskList →
    v ≤ k.lists.xItemValue (.item i)) : Follows { k with xNextTaskUnblockTime := v } s := by
  refine ⟨h.rings, { h.agrees with }, h.exchanged, h.states, h.events, h.bits, h.wakes, ?_⟩
  intro t wake ht hturn
  exact hv (.xStateListItem t) (h.stateList_delayed.2 ⟨wake, ht, hturn⟩)

theorem run_prvResetNextTaskUnblockTime (h : k.Follows s) :
    Run prvResetNextTaskUnblockTime k fun _ k' ↦ k'.Follows s := by
  refine (h.rings.run_prvResetNextTaskUnblockTime hfew).mono ?_
  rintro _ _ ⟨v, rfl, hv⟩
  exact h.setNext hv

/-! ## The tick count -/

omit hfew [Fintype τ] in
theorem toNat_xTickCount (h : k.Follows s) : k.xTickCount.toNat = s.now % 2 ^ 32 := by
  rw [h.agrees.xTickCount, UInt32.toNat_ofNat']

/-- **The tick count goes on**, and the lists are exchanged when it overflows. -/
theorem run_forward (h : k.Follows s) (hpunctual : s.Punctual) :
    Run (do
      modify fun k ↦ { k with xTickCount := k.xTickCount + 1 }
      let xConstTickCount ← read Kernel.xTickCount
      when (xConstTickCount = 0) taskSWITCH_DELAYED_LISTS) k fun _ k' ↦ k'.Follows s.forward := by
  have hcount : k.xTickCount + 1 = UInt32.ofNat (s.now + 1) := by
    rw [h.agrees.xTickCount, UInt32.ofNat_add]
    rfl
  have hzero : UInt32.ofNat (s.now + 1) = 0 ↔ (s.now + 1) % 2 ^ 32 = 0 := by
    rw [← UInt32.toNat_inj, UInt32.toNat_ofNat']
    rfl
  rw [run_bind, run_of_eq (modify_apply _ _), run_bind, run_of_eq (read_apply _ _), hcount]
  apply run_when
  · intro h0
    have hover := hzero.1 h0
    have hturn : (s.now + 1) / 2 ^ 32 = s.now / 2 ^ 32 + 1 := by omega
    have hnever {t : τ} {wake : Nat} (ht : s.place t = .delayed wake) :
        wake / 2 ^ 32 = s.now / 2 ^ 32 + 1 := by
      obtain ⟨hlt, -⟩ := hpunctual t wake ht
      have hor := (h.wakes t wake ht).2
      omega
    obtain ⟨r, hholds, hdelayed, hoverflow⟩ := h.rings
    have hrings : Rings { k with
        xTickCount := UInt32.ofNat (s.now + 1)
        pxDelayedTaskList := k.pxOverflowDelayedTaskList
        pxOverflowDelayedTaskList := k.pxDelayedTaskList
        xNumOfOverflows := k.xNumOfOverflows + 1 } := ⟨r, hholds, hoverflow, hdelayed⟩
    rw [taskSWITCH_DELAYED_LISTS, run_bind, run_of_eq (modify_apply _ _)]
    refine (hrings.run_prvResetNextTaskUnblockTime hfew).mono ?_
    rintro _ _ ⟨v, rfl, hv⟩
    have hoverflows : k.xNumOfOverflows + 1 = UInt32.ofNat ((s.now + 1) / 2 ^ 32) := by
      rw [h.agrees.xNumOfOverflows, hturn, UInt32.ofNat_add]
      rfl
    refine ⟨hrings, { h.agrees with xTickCount := rfl, xNumOfOverflows := hoverflows }, ?_, ?_,
      h.events, h.bits, ?_, ?_⟩
    · rcases h.exchanged with ⟨h1, h2⟩ | ⟨h1, h2⟩
      · exact .inr ⟨h2, h1⟩
      · exact .inl ⟨h2, h1⟩
    · intro t
      have hlist := h.states t
      show k.stateList t = _
      rw [hlist]
      show k.listFor s.now (s.place t) = listFor _ (s.now + 1) (s.place t)
      cases hplace : s.place t with
      | absent => rfl
      | ready p => rfl
      | suspended => rfl
      | delayed wake =>
          have hw := hnever hplace
          have hthen : wake / 2 ^ 32 = (s.now + 1) / 2 ^ 32 := hw.trans hturn.symm
          have hnow : wake / 2 ^ 32 ≠ s.now / 2 ^ 32 := by omega
          simp only [listFor, if_pos hthen, if_neg hnow]
    · intro t wake ht
      exact ⟨(h.wakes t wake ht).1, .inl ((hnever ht).trans hturn.symm)⟩
    · intro t wake ht _
      refine hv (.xStateListItem t) ?_
      have hlist := h.states t
      have hplace : s.place t = .delayed wake := ht
      have hnow : wake / 2 ^ 32 ≠ s.now / 2 ^ 32 := by
        have := hnever ht
        omega
      rw [hplace] at hlist
      simp only [listFor, if_neg hnow] at hlist
      exact hlist
  · intro h0
    have hover : (s.now + 1) % 2 ^ 32 ≠ 0 := fun heq ↦ h0 (hzero.2 heq)
    have hturn : (s.now + 1) / 2 ^ 32 = s.now / 2 ^ 32 := by omega
    have hoverflows : k.xNumOfOverflows = UInt32.ofNat ((s.now + 1) / 2 ^ 32) := by
      rw [h.agrees.xNumOfOverflows, hturn]
    refine ⟨h.rings, { h.agrees with xTickCount := rfl, xNumOfOverflows := hoverflows },
      h.exchanged, ?_, h.events, h.bits, ?_, ?_⟩
    · intro t
      refine (h.states t).trans ?_
      show k.listFor s.now (s.place t) = listFor _ (s.now + 1) (s.place t)
      cases s.place t with
      | absent => rfl
      | ready p => rfl
      | suspended => rfl
      | delayed wake => simp only [listFor, hturn]
    · intro t wake ht
      obtain ⟨hvalue, hor⟩ := h.wakes t wake ht
      refine ⟨hvalue, ?_⟩
      show wake / 2 ^ 32 = (s.now + 1) / 2 ^ 32 ∨ wake / 2 ^ 32 = (s.now + 1) / 2 ^ 32 + 1
      rw [hturn]
      exact hor
    · intro t wake ht hw
      exact h.next t wake ht (hw.trans hturn)

end Kernel.Follows

/-! ## Tasks that are due -/

variable [DecidableEq τ] [DecidableEq ε]

/-- How many tasks are in the list for this turn. -/
def Kernel.toWake (k : Kernel τ ε) : Nat :=
  (Finset.univ.filter fun t ↦ k.stateList t = some k.pxDelayedTaskList).card

/-- What the loop of `xTaskIncrementTick` keeps: the tasks that it has not come to yet are left. -/
structure Unblocking (s : Schedule τ ε) (c : τ) (b : Bool) (k : Kernel τ ε) (s' : Schedule τ ε) :
    Prop where
  follows : k.Follows s'
  expire : s'.expire = s.expire
  now : s'.now = s.now
  current : s'.current = some c
  due : ∀ t wake, s'.place t = .delayed wake → s.now ≤ wake
  woken : b = true ∨ s'.Woken ↔ s.Woken

namespace Kernel.Follows

omit hfew [Fintype τ] [DecidableEq τ] [DecidableEq ε] in
/-- In this turn, the tick count tells whether a task is due. -/
theorem lt_wakeValue (h : k.Follows s) {wake : Nat} (ht : s.place t = .delayed wake)
    (hturn : wake / 2 ^ 32 = s.now / 2 ^ 32) : k.xTickCount < k.wakeValue t ↔ s.now < wake := by
  rw [UInt32.lt_iff_toNat_lt, h.toNat_xTickCount, (h.wakes t wake ht).1]
  omega

omit hfew [Fintype τ] [DecidableEq τ] [DecidableEq ε] in
/-- Before the time of the next task nobody is due. -/
theorem not_due (h : k.Follows s) (hnext : ¬ k.xNextTaskUnblockTime ≤ k.xTickCount) (t : τ) :
    s.place t ≠ .delayed s.now := by
  intro ht
  have hle := h.next t s.now ht rfl
  have hnot := (h.lt_wakeValue ht rfl).not.2 (lt_irrefl _)
  exact hnext (UInt32.le_trans hle (UInt32.not_lt.1 hnot))

/-- **A task that is due becomes ready**, and it waits for nothing any more. -/
theorem run_toReady (h : k.Follows s) (ht : s.place t ≠ .absent)
    (hready : ∀ p, s.place t ≠ .ready p) : Run (do
      let _ ← listRemove (.xStateListItem t)
      removeFromEvent t
      prvAddTaskToReadyList t) k fun _ k' ↦ k'.Follows (s.toReady t) := by
  refine (h.run_listRemove_state hfew ht hready).bind fun _ k₁ h1 ↦ ?_
  refine (h1.run_removeFromEvent hfew).bind fun _ k₂ h2 ↦ ?_
  refine (h2.run_prvAddTaskToReadyList (by simp)).mono fun _ k₃ h3 ↦ ?_
  simpa [Schedule.toReady, Schedule.wait_put] using h3

omit hfew in
theorem toWake_toReady (h : k.Follows s) (h' : k'.Follows (s.toReady t))
    (ht : s.place t = .delayed s.now) : k'.toWake < k.toWake := by
  refine Finset.card_lt_card ⟨?_, ?_⟩
  · intro u hu
    rw [Finset.mem_filter] at hu ⊢
    obtain ⟨wake, hplace, hturn⟩ := h'.stateList_delayed.1 hu.2
    have hut : u ≠ t := by
      rintro rfl
      rw [Schedule.toReady, Schedule.wait_place, Schedule.put_place_self] at hplace
      exact absurd hplace (by simp)
    rw [Schedule.toReady, Schedule.wait_place, Schedule.put_place_of_ne hut] at hplace
    exact ⟨Finset.mem_univ u, h.stateList_delayed.2 ⟨wake, hplace, hturn⟩⟩
  · intro hsubset
    have hmem :=
      hsubset (Finset.mem_filter.2 ⟨Finset.mem_univ t, h.stateList_delayed.2 ⟨_, ht, rfl⟩⟩)
    obtain ⟨wake, hplace, -⟩ := h'.stateList_delayed.1 (Finset.mem_filter.1 hmem).2
    rw [Schedule.toReady, Schedule.wait_place, Schedule.put_place_self] at hplace
    exact absurd hplace (by simp)

/-- **The loop of `xTaskIncrementTick`** -/
theorem run_unblockTasks (h : k.Follows s) (hcurrent : s.current = some c)
    (hdue : ∀ t wake, s.place t = .delayed wake → s.now ≤ wake) :
    Run (unblockTasks k.xTickCount false) k fun b k' ↦
      k'.Follows s.expire ∧ (b = true ↔ s.Woken) := by
  have hcount : k.xTickCount = UInt32.ofNat s.now := h.agrees.xTickCount
  rw [hcount]
  refine run_repeatM (fun b k ↦ ∃ s', Unblocking s c b k s') (fun _ k ↦ k.toWake) ?_
    ⟨s, h, rfl, rfl, hcurrent, hdue, by simp⟩
  rintro b k ⟨s', h', hexpire, hnow, hcurrent', hdue', hwoken⟩
  have hcount' : UInt32.ofNat s.now = k.xTickCount := by rw [h'.agrees.xTickCount, hnow]
  -- nobody is due any more
  have hdone (hnone : ∀ t, s'.place t ≠ .delayed s'.now) {v : TickType}
      (hv : ∀ i, k.lists.pxContainer i = some k.pxDelayedTaskList →
      v ≤ k.lists.xItemValue (.item i)) :
      Follows { k with xNextTaskUnblockTime := v } s.expire ∧ (b = true ↔ s.Woken) := by
    rw [← hexpire, Schedule.expire_of_none hnone, ← hwoken]
    refine ⟨h'.setNext hv, ?_⟩
    have hnot : ¬ s'.Woken := fun ⟨t, ht, _⟩ ↦ hnone t ht
    simp [hnot]
  rw [run_bind, run_of_eq (read_apply _ _), run_bind]
  refine (h'.rings.run_listLIST_IS_EMPTY hfew).mono ?_
  rintro isEmpty k₁ ⟨hsame, hempty⟩
  rw [hsame]
  cases isEmpty with
  | true =>
      have hnone := hempty.1 rfl
      simp only [if_true]
      rw [run_bind, run_of_eq (modify_apply _ _), run_pure]
      refine hdone (fun t ht ↦ ?_) (fun i hi ↦ absurd hi (hnone i))
      exact hnone (.xStateListItem t) (h'.stateList_delayed.2 ⟨_, ht, rfl⟩)
  | false =>
      have hsome : ∃ i, k.lists.pxContainer i = some k.pxDelayedTaskList := by
        by_contra hnone
        exact absurd (hempty.2 (not_exists.1 hnone)) (by simp)
      obtain ⟨i, hi⟩ := hsome
      simp only [Bool.false_eq_true, if_false]
      rw [run_bind]
      refine (h'.rings.run_listGET_OWNER_OF_HEAD_ENTRY hi).mono ?_
      rintro _ k₂ ⟨hsame, j, rfl, hj, hleast⟩
      obtain ⟨t, wake, rfl, ht, hturn⟩ := h'.container_delayed hj
      rw [hsame]
      show Run (do
        let xItemValue ← listGET_LIST_ITEM_VALUE (.xStateListItem t)
        _) k _
      rw [run_bind, listGET_LIST_ITEM_VALUE, run_of_eq (read_apply _ _)]
      have hlt := h'.lt_wakeValue ht hturn
      rw [← hcount'] at hlt
      show Run (if UInt32.ofNat s.now < k.wakeValue t then _ else _) k _
      by_cases hlater : UInt32.ofNat s.now < k.wakeValue t
      · rw [if_pos hlater, run_bind, run_of_eq (modify_apply _ _), run_pure]
        refine hdone (fun u hu ↦ ?_) (hleast rfl)
        -- the first one is not due, so no other one is
        have hle : k.wakeValue t ≤ k.wakeValue u :=
          hleast rfl (.xStateListItem u) (h'.stateList_delayed.2 ⟨_, hu, rfl⟩)
        have hnot := (h'.lt_wakeValue hu rfl).not.2 (lt_irrefl _)
        rw [← hcount'] at hnot
        exact hnot (UInt32.lt_of_lt_of_le hlater hle)
      · rw [if_neg hlater]
        have hwake : wake = s'.now := by
          have hle := hdue' t wake ht
          have hnot := hlt.not.1 hlater
          omega
        subst hwake
        have htoReady := h'.run_toReady hfew (t := t) (by simp [ht]) (by simp [ht])
        simp only [run_bind] at htoReady ⊢
        refine htoReady.mono fun _ _ h1 ↦ h1.mono fun _ _ h2 ↦ h2.mono fun _ k₃ h3 ↦ ?_
        have hcurrent₃ : (s'.toReady t).current = some c := hcurrent'
        rw [run_currentTCB (h3.agrees.pxCurrentTCB.trans hcurrent₃), run_read, run_pure]
        refine ⟨⟨s'.toReady t, h3, ?_, hnow, hcurrent₃, ?_, ?_⟩, h'.toWake_toReady h3 ht⟩
        · rw [Schedule.expire_toReady ht]
          exact hexpire
        · intro u wake hu
          have hut : u ≠ t := by
            rintro rfl
            rw [Schedule.toReady, Schedule.wait_place, Schedule.put_place_self] at hu
            exact absurd hu (by simp)
          rw [Schedule.toReady, Schedule.wait_place, Schedule.put_place_of_ne hut] at hu
          exact hdue' u wake hu
        · have hlevel : s'.level = s'.priority c := by simp [Schedule.level, hcurrent']
          rw [h3.agrees.uxPriority, ← hwoken, ← Schedule.woken_toReady ht, hlevel, Bool.or_eq_true,
            decide_eq_true_iff, or_assoc]
          rfl

/-! ## `xTaskIncrementTick` -/

omit [DecidableEq ε] in
/-- There is more than one item in the ready list of a priority. -/
theorem number_gt_one_iff (h : k.Follows s) (p : Priority) :
    k.lists.uxNumberOfItems (.pxReadyTasksLists p) > 1 ↔
      ∃ t u, t ≠ u ∧ s.place t = .ready p ∧ s.place u = .ready p := by
  obtain ⟨r, hholds, -⟩ := h.rings
  have hring := hholds (.pxReadyTasksLists p)
  have hlt : (r (.pxReadyTasksLists p)).items.length < 2 ^ 32 :=
    hring.nodup.length_le_card.trans_lt hfew
  have hmem (t : τ) : .xStateListItem t ∈ (r (.pxReadyTasksLists p)).items ↔ s.place t = .ready p :=
    (hring.contained _).symm.trans h.stateList_ready
  rw [gt_iff_lt, UInt32.lt_iff_toNat_lt, hring.number, UInt32.toNat_ofNat_of_lt' hlt]
  show 1 < (r (.pxReadyTasksLists p)).items.length ↔ _
  rw [← List.toFinset_card_of_nodup hring.nodup, Finset.one_lt_card]
  simp only [List.mem_toFinset]
  constructor
  · rintro ⟨i, hi, j, hj, hne⟩
    obtain ⟨t, rfl, ht⟩ := h.container_ready ((hring.contained i).2 hi)
    obtain ⟨u, rfl, hu⟩ := h.container_ready ((hring.contained j).2 hj)
    exact ⟨t, u, fun heq ↦ hne (by rw [heq]), ht, hu⟩
  · rintro ⟨t, u, hne, ht, hu⟩
    exact ⟨_, (hmem t).2 ht, _, (hmem u).2 hu, fun heq ↦ hne (Item.xStateListItem.inj heq)⟩

/-- **One tick that is counted.** -/
theorem run_countTick (h : k.Follows s) (hpunctual : s.Punctual) (hcurrent : s.current = some c) :
    Run countTick k fun r k' ↦ k'.Follows s.count ∧ r = s.switchRequired := by
  have hcount : k.xTickCount + 1 = UInt32.ofNat (s.now + 1) := by
    rw [h.agrees.xTickCount, UInt32.ofNat_add]
    rfl
  have hforward := h.run_forward hfew hpunctual
  rw [run_bind, run_of_eq (modify_apply _ _), run_bind, run_of_eq (read_apply _ _)] at hforward
  rw [countTick, run_bind, run_of_eq (modify_apply _ _), run_bind, run_of_eq (read_apply _ _)]
  refine hforward.bind fun _ k₁ h1 ↦ ?_
  have hcurrent₁ : s.forward.current = some c := hcurrent
  have hcount₁ : k.xTickCount + 1 = k₁.xTickCount := by
    rw [hcount, h1.agrees.xTickCount]
    rfl
  rw [run_bind, run_of_eq (read_apply _ _), run_bind]
  simp only [hcount₁]
  have hwoken :
    Run (if k₁.xNextTaskUnblockTime ≤ k₁.xTickCount then unblockTasks k₁.xTickCount false
      else pure false) k₁ fun b k' ↦ k'.Follows s.count ∧ (b = true ↔ s.forward.Woken) := by
    split
    · refine h1.run_unblockTasks hfew hcurrent₁ fun t wake ht ↦ ?_
      exact (hpunctual t wake ht).1
    · next hnext =>
        have hnone := h1.not_due hnext
        have hnot : ¬ s.forward.Woken := fun ⟨t, ht, _⟩ ↦ hnone t ht
        refine run_pure.2 ⟨?_, by simp [hnot]⟩
        rw [Schedule.count, Schedule.expire_of_none hnone]
        exact h1
  refine hwoken.mono fun b k₂ ⟨h2, hb⟩ ↦ ?_
  have hcurrent₂ : s.count.current = some c := hcurrent
  have hlevel : s.count.level = k₂.uxPriority c := by
    rw [h2.agrees.uxPriority, Schedule.level, hcurrent₂]
    rfl
  have hshared := h2.number_gt_one_iff hfew (k₂.uxPriority c)
  rw [run_bind, run_currentTCB (h2.agrees.pxCurrentTCB.trans hcurrent₂), run_bind, run_read,
    run_bind, listCURRENT_LIST_LENGTH, run_read, run_bind, run_read, run_pure]
  refine ⟨h2, ?_⟩
  rw [Bool.eq_iff_iff, h2.agrees.xYieldPending]
  simp only [Bool.or_eq_true, decide_eq_true_iff, hb, hshared, Schedule.switchRequired,
    Schedule.Shared, hlevel]
  exact or_assoc

/-- **A tick**, counted or not. -/
theorem run_xPortSysTickHandler (h : k.Follows s) (hpunctual : s.Punctual)
    (hcurrent : s.current = some c) (hpended : s.pended + 1 < 2 ^ 32) :
    Run xPortSysTickHandler k fun _ k' ↦ k'.Follows s.tick := by
  have hsuspended : k.uxSchedulerSuspended = 0 ↔ s.suspended = 0 := by
    rw [← h.agrees.uxSchedulerSuspended, ← UInt32.toNat_inj]
    rfl
  rw [xPortSysTickHandler, xTaskIncrementTick, run_bind, run_bind, run_of_eq (read_apply _ _)]
  by_cases h0 : s.suspended = 0
  · rw [if_pos (hsuspended.2 h0)]
    refine (h.run_countTick hfew hpunctual hcurrent).mono fun r k₁ ⟨h1, hr⟩ ↦ ?_
    rw [Schedule.tick, if_pos h0, ← hr]
    exact h1.run_when_portYIELD r
  · rw [if_neg fun heq ↦ h0 (hsuspended.1 heq), run_bind, run_of_eq (modify_apply _ _), run_pure]
    refine run_pure.2 ?_
    rw [Schedule.tick, if_neg h0]
    refine h.vary { h.agrees with xPendedTicks := ?_ } rfl rfl rfl rfl rfl rfl rfl rfl
    show (k.xPendedTicks + 1).toNat = s.pended + 1
    rw [UInt32.toNat_add, h.agrees.xPendedTicks]
    exact Nat.mod_eq_of_lt hpended

end Kernel.Follows

end Next

end Stm32F1.Rtos

import Stm32F1.Rtos.Blocking

/-!
# The other calls

Tasks are created, suspended and resumed, their events come, their priorities change; and
the context is switched to a task of the highest priority that is ready.
-/

namespace Stm32F1.Rtos

open Prog

variable {τ ε : Type} {k k' : Kernel τ ε} {s : Schedule τ ε} {t u c : τ} {p : Priority}
  {m : Lists (Item τ) (KernelList ε)}

namespace Kernel.Follows

theorem suspended_zero (h : k.Follows s) : k.uxSchedulerSuspended = 0 ↔ s.suspended = 0 := by
  rw [← UInt32.toNat_inj, h.agrees.uxSchedulerSuspended]
  rfl

/-- The order of a list has changed, or the value of an event item. -/
theorem turned (h : k.Follows s) (hrings : Rings { k with lists := m })
    (hcontainer : m.pxContainer = k.lists.pxContainer)
    (hvalue : ∀ t, m.xItemValue (.item (.xStateListItem t)) = k.wakeValue t) :
    Follows { k with lists := m } s := by
  refine ⟨hrings, { h.agrees with }, h.exchanged, ?_, ?_, h.bits, ?_, ?_⟩
  · intro u
    show m.pxContainer (.xStateListItem u) = _
    rw [hcontainer]
    exact h.states u
  · intro u
    show m.pxContainer (.xEventListItem u) = _
    rw [hcontainer]
    exact h.events u
  · intro u wake hu
    rw [wakeValue, hvalue]
    exact h.wakes u wake hu
  · intro u wake hu hturn
    rw [wakeValue, hvalue]
    exact h.next u wake hu hturn

variable [DecidableEq τ] [DecidableEq ε]

/-! ## Context switches -/

/-- **A task of the highest priority** is selected. -/
theorem run_taskSELECT_HIGHEST_PRIORITY_TASK (h : k.Follows s) (hready : s.place u = .ready p) :
    Run taskSELECT_HIGHEST_PRIORITY_TASK k fun _ k' ↦ ∃ t q, s.place t = .ready q ∧
      (∀ u p, s.place u = .ready p → p ≤ q) ∧ k'.Follows { s with current := some t } := by
  obtain ⟨hlt, hmarked, hhighest⟩ := highest ((h.bits p).2 ⟨u, hready⟩)
  obtain ⟨v, hv⟩ := (h.bits _).1 hmarked
  have hlist : readyTasksList (portGET_HIGHEST_PRIORITY k.uxTopReadyPriority) k =
      some (.pxReadyTasksLists ⟨(portGET_HIGHEST_PRIORITY k.uxTopReadyPriority).toNat, hlt⟩,
      k) := by
    rw [readyTasksList, dif_pos hlt]
  rw [taskSELECT_HIGHEST_PRIORITY_TASK, run_bind, run_of_eq (read_apply _ _), run_bind,
    run_of_eq hlist, run_bind]
  refine (h.rings.run_listGET_OWNER_OF_NEXT_ENTRY (h.stateList_ready.2 hv)).mono ?_
  rintro i k₁ ⟨hbecomes, hi⟩
  obtain ⟨m, rfl, hrings, hcontainer, hvalue⟩ := hbecomes.exists_lists
  obtain ⟨t, rfl, ht⟩ := h.container_ready hi
  have h1 := h.turned hrings hcontainer (fun u ↦ by rw [hvalue]; rfl)
  refine run_modify.2 ⟨t, _, ht, ?_, ?_⟩
  · intro u p hu
    exact hhighest p ((h.bits p).2 ⟨u, hu⟩)
  · exact h1.vary { h1.agrees with pxCurrentTCB := rfl } rfl rfl rfl rfl rfl rfl rfl rfl

/-- **`vTaskSwitchContext`**, after its request has been taken. -/
theorem run_vTaskSwitchContext (h : k.Follows s) (c : τ) (hready : s.place u = .ready p) :
    Run vTaskSwitchContext { k with pendSV := false } fun _ k' ↦ ∃ t, k'.Follows (s.dispatch t) ∧
      (s.suspended ≠ 0 → t = c) ∧
      (s.suspended = 0 → ∃ q, s.place t = .ready q ∧ ∀ u p, s.place u = .ready p → p ≤ q) := by
  have h1 : Follows { k with pendSV := false } { s with switchPending := false } :=
    h.vary { h.agrees with pendSV := rfl } rfl rfl rfl rfl rfl rfl rfl rfl
  rw [vTaskSwitchContext, run_bind, run_of_eq (read_apply _ _)]
  by_cases h0 : s.suspended = 0
  · rw [if_neg (not_not.2 (h.suspended_zero.2 h0))]
    refine (h1.run_setYieldPending false).bind fun _ k₁ h2 ↦ ?_
    refine (h2.run_taskSELECT_HIGHEST_PRIORITY_TASK hready).mono ?_
    rintro _ k₂ ⟨t, q, ht, hhighest, h3⟩
    refine ⟨t, ?_, fun hne ↦ absurd h0 hne, fun _ ↦ ⟨q, ht, hhighest⟩⟩
    rw [Schedule.dispatch, if_pos h0]
    exact h3
  · rw [if_pos fun heq ↦ h0 (h.suspended_zero.1 heq)]
    refine (h1.run_setYieldPending true).mono fun _ k₁ h2 ↦ ?_
    refine ⟨c, ?_, fun _ ↦ rfl, fun heq ↦ absurd heq h0⟩
    rw [Schedule.dispatch, if_neg h0]
    exact h2

/-! ## Events -/

omit [DecidableEq τ] [DecidableEq ε] in
/-- A task that waits for an event is the first one in its list. -/
theorem exists_first (h : k.Follows s) {e : ε} (hsome : ∃ t, s.waiting t = .event e) :
    ∃ t, s.waiting t = .event e ∧ listGET_OWNER_OF_HEAD_ENTRY (.pxEventList e) k = some (t, k) := by
  obtain ⟨u, hu⟩ := hsome
  obtain ⟨j, hnext, hj, -⟩ := h.rings.head (h.eventList_event.2 hu)
  obtain ⟨t, rfl, ht⟩ := h.container_event hj
  refine ⟨t, ht, ?_⟩
  rw [listGET_OWNER_OF_HEAD_ENTRY, hnext]
  rfl

variable [Fintype τ] (hfew : Fintype.card (Item τ) < 2 ^ 32)

include hfew

/-- **`xTaskRemoveFromEventList`** -/
theorem run_xTaskRemoveFromEventList (h : k.Follows s) (hcurrent : s.current = some c) {e : ε}
    (hfirst : listGET_OWNER_OF_HEAD_ENTRY (.pxEventList e) k = some (t, k))
    (ht : s.waiting t = .event e) (hplace : s.place t ≠ .absent)
    (hready : ∀ p, s.place t ≠ .ready p) :
    Run (xTaskRemoveFromEventList e) k fun _ k' ↦ k'.Follows (s.signal t) := by
  rw [xTaskRemoveFromEventList, run_bind, run_of_eq hfirst]
  refine (h.run_listRemove_event hfew (by simp [ht])).bind fun _ k₁ h1 ↦ ?_
  have hmoved : Run (addToReadyOrPending t) k₁ fun _ k' ↦
      k'.Follows (if s.suspended = 0 then s.toReady t else s.wait t .pending) := by
    rw [addToReadyOrPending, run_bind, run_of_eq (read_apply _ _)]
    by_cases h0 : s.suspended = 0
    · rw [if_pos (h1.suspended_zero.2 h0), if_pos h0]
      refine (h1.run_listRemove_state hfew hplace hready).bind fun _ k₂ h2 ↦ ?_
      refine (h2.run_prvAddTaskToReadyList Schedule.put_place_self).mono fun _ k₃ h3 ↦ ?_
      simpa [Schedule.toReady, Schedule.wait_put] using h3
    · rw [if_neg fun heq ↦ h0 (h1.suspended_zero.1 heq), if_neg h0]
      refine (h1.run_insertPending Schedule.wait_waiting_self).mono fun _ k₂ h2 ↦ ?_
      simpa using h2
  refine hmoved.bind fun _ k₂ h2 ↦ ?_
  generalize hs' : (if s.suspended = 0 then s.toReady t else s.wait t .pending) = s' at h2
  have hcurrent' : s'.current = some c := by
    rw [← hs']
    split <;> exact hcurrent
  have hpriority : s'.priority = s.priority := by
    rw [← hs']
    split <;> rfl
  have hyield : s'.yieldPending = s.yieldPending := by
    rw [← hs']
    split <;> rfl
  have hsignal : s.signal t = { s' with
      yieldPending := s'.yieldPending || decide (s.priority c < s.priority t) } := by
    rw [Schedule.signal, hs', hyield, Schedule.level_of_current hcurrent]
  rw [run_bind, run_currentTCB (h2.agrees.pxCurrentTCB.trans hcurrent'), run_bind,
    run_of_eq (read_apply _ _), h2.agrees.uxPriority, hpriority, hsignal]
  by_cases hhigher : s.priority t > s.priority c
  · rw [if_pos hhigher, decide_eq_true hhigher, Bool.or_true]
    exact (h2.run_setYieldPending true).bind fun _ k₃ h3 ↦ run_pure.2 h3
  · rw [if_neg hhigher, decide_eq_false hhigher, Bool.or_false]
    exact run_pure.2 h2

/-! ## Suspended tasks -/

/-- **`vTaskSuspend`**, up to the end of its first critical section. -/
theorem run_vTaskSuspend (h : k.Follows s) (ht : s.place t ≠ .absent)
    (hready : ∀ p, s.place t = .ready p → p = s.priority t) :
    Run (vTaskSuspend t) k fun _ k' ↦ k'.Follows (s.suspend t) := by
  have hout := h.run_takeOut hfew ht hready
  rw [vTaskSuspend]
  simp only [run_bind] at hout ⊢
  refine hout.mono fun n _ h1 ↦ h1.mono fun p _ h2 ↦ h2.mono fun _ k₁ h3 ↦ ?_
  refine (h3.run_removeFromEvent hfew).mono fun _ k₂ h4 ↦ ?_
  refine (h4.run_insertSuspended Schedule.put_place_self).mono fun _ k₃ h5 ↦ ?_
  simpa [Schedule.suspend, Schedule.wait_put] using h5

omit [DecidableEq ε] in
theorem run_vTaskSuspendEnd (h : k.Follows s) (hcurrent : s.current = some c) :
    Run (vTaskSuspendEnd t) k fun _ k' ↦
      k'.Follows { s with switchPending := s.switchPending || decide (t = c) } := by
  rw [vTaskSuspendEnd]
  refine (h.run_prvResetNextTaskUnblockTime hfew).bind fun _ k₁ h1 ↦ ?_
  rw [run_bind, run_currentTCB (h1.agrees.pxCurrentTCB.trans hcurrent)]
  exact h1.run_when_portYIELD _

omit hfew [Fintype τ] [DecidableEq τ] in
theorem run_prvTaskIsTaskSuspended (h : k.Follows s) :
    Run (prvTaskIsTaskSuspended t) k fun b k' ↦ k' = k ∧ (b = true ↔ s.Resumable t) := by
  have hstate : k.lists.pxContainer (.xStateListItem t) = some .xSuspendedTaskList ↔
    s.place t = .suspended := h.stateList_suspended
  have hevent : k.lists.pxContainer (.xEventListItem t) = none ↔ s.waiting t = .nowhere :=
    h.eventList_none
  rw [prvTaskIsTaskSuspended, run_bind, listLIST_ITEM_CONTAINER, run_of_eq (read_apply _ _),
    run_bind,
    listLIST_ITEM_CONTAINER, run_of_eq (read_apply _ _), run_pure, decide_eq_true_iff,
    hstate, hevent]
  refine ⟨rfl, ?_⟩
  constructor
  · rintro ⟨h1, -, h2⟩
    exact ⟨h1, h2⟩
  · rintro ⟨h1, h2⟩
    refine ⟨h1, ?_, h2⟩
    rw [hevent.2 h2]
    simp

/-- A task that has been suspended becomes ready. -/
theorem run_readied (h : k.Follows s) (ht : s.Resumable t) :
    Run (do
      let _ ← listRemove (.xStateListItem t)
      prvAddTaskToReadyList t) k fun _ k' ↦ k'.Follows (s.toReady t) := by
  refine (h.run_listRemove_state hfew (by simp [ht.1]) (by simp [ht.1])).bind fun _ k₁ h1 ↦ ?_
  refine (h1.run_prvAddTaskToReadyList Schedule.put_place_self).mono fun _ k₂ h2 ↦ ?_
  have hwaiting : (s.put t (.ready (s.priority t))).waiting t = .nowhere := ht.2
  rw [Schedule.toReady, Schedule.wait_of_eq hwaiting]
  simpa using h2

/-- **`vTaskResume`** -/
theorem run_vTaskResume (h : k.Follows s) (hcurrent : s.current = some c) :
    Run (vTaskResume t) k fun _ k' ↦ k'.Follows (s.resume t) := by
  rw [vTaskResume, run_bind, run_currentTCB (h.agrees.pxCurrentTCB.trans hcurrent)]
  apply run_when
  · intro hne
    refine h.run_prvTaskIsTaskSuspended.bind ?_
    rintro b k₁ ⟨hsame, hb⟩
    rw [hsame]
    cases b with
    | true =>
        have hresumable := hb.1 rfl
        have hthen : s.current ≠ some t ∧ s.Resumable t := by
          refine ⟨?_, hresumable⟩
          rw [hcurrent]
          exact fun heq ↦ hne (Option.some.inj heq).symm
        have htoReady := h.run_readied hfew hresumable
        rw [when_true, Schedule.resume, if_pos hthen]
        simp only [run_bind] at htoReady ⊢
        refine htoReady.mono fun _ _ h1 ↦ h1.mono fun _ k₂ h2 ↦ ?_
        rw [run_of_eq (read_apply _ _), h2.agrees.uxPriority, Schedule.level_of_current hcurrent]
        exact h2.run_when_portYIELD _
    | false =>
        have hnot : ¬ s.Resumable t := fun hyes ↦ absurd (hb.2 hyes) (by simp)
        rw [when_false, Schedule.resume, if_neg fun hboth ↦ hnot hboth.2]
        exact run_pure.2 h
  · intro heq
    obtain rfl := not_not.1 heq
    rw [Schedule.resume, if_neg fun hboth ↦ hboth.1 hcurrent]
    exact h

/-- **`xTaskResumeFromISR`** -/
theorem run_xTaskResumeFromISR (h : k.Follows s) (hcurrent : s.current = some c) :
    Run (xTaskResumeFromISR t) k fun _ k' ↦ k'.Follows (s.resumeFromISR t) := by
  rw [xTaskResumeFromISR, run_bind]
  refine h.run_prvTaskIsTaskSuspended.mono ?_
  rintro b k₁ ⟨hsame, hb⟩
  rw [hsame]
  cases b with
  | true =>
      have hresumable := hb.1 rfl
      rw [if_pos rfl, run_bind, run_of_eq (read_apply _ _), Schedule.resumeFromISR,
        if_pos hresumable]
      by_cases h0 : s.suspended = 0
      · rw [if_pos (h.suspended_zero.2 h0), if_pos h0, run_bind,
          run_currentTCB (h.agrees.pxCurrentTCB.trans hcurrent), run_bind,
          run_of_eq (read_apply _ _), h.agrees.uxPriority, Schedule.level_of_current hcurrent]
        refine (h.run_when_setYieldPending _).bind fun _ k₂ h1 ↦ ?_
        have htoReady := h1.run_readied hfew (t := t) hresumable
        simp only [run_bind] at htoReady ⊢
        exact htoReady.mono fun _ _ h2 ↦ h2.mono fun _ k₃ h3 ↦ run_pure.2 h3
      · rw [if_neg fun heq ↦ h0 (h.suspended_zero.1 heq), if_neg h0]
        exact (h.run_insertPending hresumable.2).bind fun _ k₂ h1 ↦ run_pure.2 h1
  | false =>
      have hnot : ¬ s.Resumable t := fun hyes ↦ absurd (hb.2 hyes) (by simp)
      rw [Schedule.resumeFromISR, if_neg hnot]
      exact run_pure.2 h

/-! ## Priorities -/

omit hfew [Fintype τ] in
theorem run_setEventValue (h : k.Follows s) (v : TickType) :
    Run (listSET_LIST_ITEM_VALUE (.xEventListItem t) v) k fun _ k' ↦ k'.Follows s := by
  have hne := h.eventList_ne t
  refine (h.rings.run_listSET_LIST_ITEM_VALUE ⟨hne.1, hne.2.1⟩).mono fun _ k₁ hbecomes ↦ ?_
  obtain ⟨m, rfl, hrings, hcontainer, hvalue⟩ := hbecomes.exists_lists
  refine h.turned hrings hcontainer fun u ↦ ?_
  rw [hvalue, Function.update_of_ne (by simp)]
  rfl

/-- A task that is ready goes to the list of its new priority. -/
theorem run_requeue {q : Priority} (h : k.Follows s) (hq : q = s.priority t) :
    Run (do
      let l ← listLIST_ITEM_CONTAINER (.xStateListItem t)
      when (l = some (.pxReadyTasksLists p)) do
        removeFromReady t p
        prvAddTaskToReadyList t) k fun _ k' ↦ k'.Follows { s with
          place :=
            if s.place t = .ready p then Function.update s.place t (.ready q) else s.place } := by
  have hready : k.lists.pxContainer (.xStateListItem t) = some (.pxReadyTasksLists p) ↔
    s.place t = .ready p := h.stateList_ready
  subst hq
  rw [run_bind, listLIST_ITEM_CONTAINER, run_of_eq (read_apply _ _)]
  apply run_when
  · intro hlist
    have hp := hready.1 hlist
    rw [if_pos hp]
    refine (h.run_removeFromReady hfew hp).bind fun _ k₁ h1 ↦ ?_
    refine (h1.run_prvAddTaskToReadyList Schedule.put_place_self).mono fun _ k₂ h2 ↦ ?_
    rw [Schedule.put_put] at h2
    exact h2
  · intro hlist
    rw [if_neg fun hp ↦ hlist (hready.2 hp)]
    exact h

/-- **`vTaskPrioritySet`** -/
theorem run_vTaskPrioritySet (h : k.Follows s) (hcurrent : s.current = some c) (n : UInt32) :
    Run (vTaskPrioritySet t n) k fun _ k' ↦ k'.Follows (s.prioritySet t (clampPriority n)) := by
  generalize hp : clampPriority n = p
  have hpriority : k.uxPriority = s.priority := h.agrees.uxPriority
  have hbase : k.uxBasePriority = s.base := h.agrees.uxBasePriority
  have hlevel : s.level = s.priority c := Schedule.level_of_current hcurrent
  rw [vTaskPrioritySet, hp, run_bind, run_of_eq (read_apply _ _), hbase, Schedule.prioritySet]
  apply run_when
  · intro hne
    rw [if_neg hne, run_bind, run_currentTCB (h.agrees.pxCurrentTCB.trans hcurrent), run_bind,
      run_of_eq (read_apply _ _), hpriority, run_bind]
    generalize hq : (if s.base t = s.priority t then p else s.priority t) = q
    have hset : Run (when (s.base t = s.priority t)
        (modify fun k ↦ { k with uxPriority := Function.update k.uxPriority t p })) k fun _ k' ↦
          k'.Follows { s with priority := Function.update s.priority t q } := by
      apply run_when
      · intro hsame
        rw [if_pos hsame] at hq
        subst hq
        refine run_modify.2
          (h.vary { h.agrees with uxPriority := ?_ } rfl rfl rfl rfl rfl rfl rfl rfl)
        rw [hpriority]
      · intro hother
        rw [if_neg hother] at hq
        subst hq
        rw [Function.update_eq_self]
        exact h
    refine hset.mono fun _ k₁ h1 ↦ ?_
    rw [run_bind, run_of_eq (modify_apply _ _)]
    have h2 : Follows { k₁ with uxBasePriority := Function.update k₁.uxBasePriority t p }
        { s with
          priority := Function.update s.priority t q
          base := Function.update s.base t p } := by
      refine h1.vary { h1.agrees with uxBasePriority := ?_ } rfl rfl rfl rfl rfl rfl rfl rfl
      rw [h1.agrees.uxBasePriority]
    rw [run_bind, listGET_LIST_ITEM_VALUE, run_of_eq (read_apply _ _), run_bind]
    refine Run.mono (R := fun _ k' ↦ _) (Q := fun _ k' ↦ k'.Follows { s with
      priority := Function.update s.priority t q
      base := Function.update s.base t p }) ?_ fun _ k₂ h3 ↦ ?_
    · apply run_when
      · exact fun _ ↦ h2.run_setEventValue _
      · exact fun _ ↦ h2
    · have hrequeue := h3.run_requeue hfew (t := t) (p := s.priority t) (q := q) (by simp)
      simp only [run_bind] at hrequeue ⊢
      refine hrequeue.mono fun _ _ h4 ↦ h4.mono fun _ k₄ h5 ↦ ?_
      have hyield : yieldRequired (decide (t = c)) p (s.base t) (s.priority c) =
          yieldRequired (decide (s.current = some t)) p (s.base t) s.level := by
        have hiff : t = c ↔ s.current = some t := by
          rw [hcurrent, Option.some.injEq]
          exact eq_comm
        rw [hlevel, decide_eq_decide.2 hiff]
      rw [hyield]
      exact h5.run_when_portYIELD _
  · intro heq
    rw [if_pos (not_not.1 heq)]
    exact h

/-! ## New tasks -/

omit hfew [Fintype τ] [DecidableEq ε] in
/-- An item that is in no list is initialised. -/
theorem run_initialiseItem (h : k.Follows s) {i : Item τ} (hi : k.lists.pxContainer i = none) :
    Run (onLists (modify (vListInitialiseItem i))) k fun _ k' ↦ k'.Follows s := by
  have hsame : vListInitialiseItem i k.lists = k.lists := by
    rw [vListInitialiseItem, Lists.setContainer, ← hi, Function.update_eq_self]
  rw [run_onLists, run_of_eq (modify_apply _ _), hsame]
  exact h

omit hfew [Fintype τ] in
theorem run_prvInitialiseNewTask (h : k.Follows s) (ht : s.place t = .absent)
    (hwaiting : s.waiting t = .nowhere) (n : UInt32) :
    Run (prvInitialiseNewTask t n) k fun _ k' ↦ k'.Follows { s with
      priority := Function.update s.priority t (clampPriority n)
      base := Function.update s.base t (clampPriority n) } := by
  rw [prvInitialiseNewTask, run_bind, run_of_eq (modify_apply _ _)]
  have h1 : Follows { k with
      uxPriority := Function.update k.uxPriority t (clampPriority n)
      uxBasePriority := Function.update k.uxBasePriority t (clampPriority n) }
      { s with
        priority := Function.update s.priority t (clampPriority n)
        base := Function.update s.base t (clampPriority n) } := by
    refine h.vary { h.agrees with uxPriority := ?_, uxBasePriority := ?_ } rfl rfl rfl rfl rfl
      rfl rfl rfl
    · rw [h.agrees.uxPriority]
    · rw [h.agrees.uxBasePriority]
  refine (h1.run_initialiseItem (h1.stateList_none.2 ht)).bind fun _ k₁ h2 ↦ ?_
  refine (h2.run_initialiseItem (h2.eventList_none.2 hwaiting)).bind fun _ k₂ h3 ↦ ?_
  exact h3.run_setEventValue _

omit hfew [Fintype τ] [DecidableEq τ] [DecidableEq ε] in
theorem run_chooseFirst (h : k.Follows s) (hrunning : s.running = true → s.current ≠ none) :
    Run (chooseFirst t) k fun _ k' ↦ k'.Follows { s with
      current := if s.running = true ∨ (s.current ≠ none ∧ s.priority t < s.level) then s.current
        else some t } := by
  have hset : Follows { k with pxCurrentTCB := some t } { s with current := some t } :=
    h.vary { h.agrees with pxCurrentTCB := rfl } rfl rfl rfl rfl rfl rfl rfl rfl
  rw [chooseFirst, run_bind, run_of_eq (read_apply _ _), run_bind, run_of_eq (read_apply _ _),
    run_bind,
    run_of_eq (read_apply _ _), h.agrees.pxCurrentTCB, h.agrees.uxPriority,
    h.agrees.xSchedulerRunning]
  cases hcurrent : s.current with
  | none =>
      have hnot : ¬ (s.running = true ∨ ((none : Option τ) ≠ none ∧ s.priority t < s.level)) := by
        rintro (hyes | ⟨hne, -⟩)
        · exact hrunning hyes hcurrent
        · exact hne rfl
      rw [if_neg hnot]
      exact run_modify.2 hset
  | some c =>
      have hlevel : s.level = s.priority c := Schedule.level_of_current hcurrent
      have hkeep : ({ s with current := some c } : Schedule τ ε) = s := by rw [← hcurrent]
      apply run_when
      · rintro ⟨hstopped, hle⟩
        have hnot : ¬ (s.running = true ∨ (some c ≠ none ∧ s.priority t < s.level)) := by
          rintro (hyes | ⟨-, hless⟩)
          · exact Bool.false_ne_true (hstopped.symm.trans hyes)
          · rw [hlevel] at hless
            exact absurd hle (not_le.2 hless)
        rw [if_neg hnot]
        exact run_modify.2 hset
      · intro hnot
        have hyes : s.running = true ∨ (some c ≠ none ∧ s.priority t < s.level) := by
          by_cases hrun : s.running = true
          · exact .inl hrun
          · refine .inr ⟨by simp, ?_⟩
            rw [hlevel]
            exact not_le.1 fun hle ↦ hnot ⟨Bool.eq_false_iff.2 hrun, hle⟩
        rw [if_pos hyes, hkeep]
        exact h

omit hfew [Fintype τ] in
/-- **`xTaskCreate`** -/
theorem run_xTaskCreate (h : k.Follows s) (ht : s.place t = .absent)
    (hwaiting : s.waiting t = .nowhere)
    (hnew : s.current ≠ some t) (hrunning : s.running = true → s.current ≠ none) (n : UInt32) :
    Run (xTaskCreate t n) k fun _ k' ↦ k'.Follows (s.create t (clampPriority n)) := by
  rw [xTaskCreate]
  refine (h.run_prvInitialiseNewTask ht hwaiting n).bind fun _ k₁ h1 ↦ ?_
  generalize clampPriority n = p at h1 ⊢
  rw [prvAddNewTaskToReadyList]
  refine (h1.run_chooseFirst (t := t) hrunning).bind fun _ k₂ h2 ↦ ?_
  refine (h2.run_prvAddTaskToReadyList ht).bind fun _ k₃ h3 ↦ ?_
  have hlevel : Schedule.level { s with
      priority := Function.update s.priority t p
      base := Function.update s.base t p } = s.level := by
    cases hcurrent : s.current with
    | none => simp [Schedule.level, hcurrent]
    | some c =>
        have hne : c ≠ t := fun heq ↦ hnew (by rw [hcurrent, heq])
        simp [Schedule.level, hcurrent, hne]
  have h4 : k₃.Follows { s.create t p with switchPending := s.switchPending } := by
    simpa [Schedule.create, Schedule.put, hlevel] using h3
  rw [run_bind, run_of_eq (read_apply _ _), h4.agrees.xSchedulerRunning]
  cases hrun : s.running with
  | false =>
      have hstop : (s.create t p).running = false := hrun
      have hswitch : s.create t p = { s.create t p with switchPending := s.switchPending } := by
        simp [Schedule.create, hrun]
      show Run (when (s.create t p).running _) k₃ _
      rw [hstop, hswitch]
      exact run_pure.2 h4
  | true =>
      obtain ⟨c, hcurrent⟩ := Option.ne_none_iff_exists'.1 (hrunning hrun)
      have hne : c ≠ t := fun heq ↦ hnew (by rw [hcurrent, heq])
      have hcurrent' : (s.create t p).current = some c := by simp [Schedule.create, hrun, hcurrent]
      have hgo : (s.create t p).running = true := hrun
      show Run (when (s.create t p).running _) k₃ _
      rw [hgo, when_true, run_bind, run_currentTCB (h4.agrees.pxCurrentTCB.trans hcurrent'),
        run_bind, run_of_eq (read_apply _ _), h4.agrees.uxPriority]
      have hpriority : decide ((s.create t p).priority c < (s.create t p).priority t) =
          decide (s.level < p) := by
        simp [Schedule.create, hne, Schedule.level_of_current hcurrent]
      have hswitch : s.create t p = { s.create t p with
          switchPending := s.switchPending || decide (s.level < p) } := by
        simp [Schedule.create, hrun]
      rw [hswitch]
      show Run
        (when (decide ((s.create t p).priority c < (s.create t p).priority t)) portYIELD) k₃ _
      rw [hpriority]
      exact h4.run_when_portYIELD _

omit hfew [Fintype τ] in
/-- **`vTaskStartScheduler`** -/
theorem run_vTaskStartScheduler {idle timer : τ} (h : k.Follows s) (hne : timer ≠ idle)
    (hplace : s.place idle = .absent ∧ s.place timer = .absent)
    (hwaiting : s.waiting idle = .nowhere ∧ s.waiting timer = .nowhere)
    (hnew : s.current ≠ some idle ∧ s.current ≠ some timer) (hstopped : s.running = false)
    (hnow : s.now = 0) (hnone : ∀ t wake, s.place t ≠ .delayed wake) :
    Run (vTaskStartScheduler idle timer) k fun _ k' ↦ k'.Follows (s.start idle timer) := by
  have hstop : ¬ s.running = true := by simp [hstopped]
  rw [vTaskStartScheduler]
  refine (h.run_xTaskCreate hplace.1 hwaiting.1 hnew.1 (fun hrun ↦ absurd hrun hstop) _).bind
    fun _ k₁ h1 ↦ ?_
  have hzero : clampPriority (UInt32.ofNat tskIDLE_PRIORITY) = tskIDLE_PRIORITY := by decide
  have hhighest : clampPriority (UInt32.ofNat configTIMER_TASK_PRIORITY) =
      configTIMER_TASK_PRIORITY := by
    decide
  rw [hzero] at h1
  have hplace₁ : (s.create idle tskIDLE_PRIORITY).place timer = .absent :=
    (Function.update_of_ne hne ..).trans hplace.2
  have hnew₁ : (s.create idle tskIDLE_PRIORITY).current ≠ some timer := by
    show (if _ then s.current else some idle) ≠ some timer
    split
    · exact hnew.2
    · exact fun heq ↦ hne (Option.some.inj heq).symm
  refine (h1.run_xTaskCreate hplace₁ hwaiting.2 hnew₁ (fun hrun ↦ absurd hrun hstop) _).bind
    fun _ k₂ h2 ↦ run_modify.2 ?_
  rw [hhighest] at h2
  have hnone₂ (t : τ) (wake : Nat) : ((s.create idle tskIDLE_PRIORITY).create timer
      configTIMER_TASK_PRIORITY).place t ≠ .delayed wake := by
    show Function.update (Function.update s.place idle (.ready tskIDLE_PRIORITY)) timer
      (.ready configTIMER_TASK_PRIORITY) t ≠ _
    by_cases ht : t = timer
    · subst ht
      simp
    · rw [Function.update_of_ne ht]
      by_cases hi : t = idle
      · subst hi
        simp
      · rw [Function.update_of_ne hi]
        exact hnone t wake
  refine ⟨h2.rings, { h2.agrees with xTickCount := ?_, xSchedulerRunning := rfl }, h2.exchanged,
    h2.states, h2.events, h2.bits, h2.wakes, ?_⟩
  · show 0 = UInt32.ofNat s.now
    rw [hnow]
    rfl
  · intro t wake ht
    exact absurd ht (hnone₂ t wake)

end Kernel.Follows

end Stm32F1.Rtos

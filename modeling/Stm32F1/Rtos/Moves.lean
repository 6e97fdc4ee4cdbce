import Stm32F1.Rtos.Follows

/-!
# Moving tasks

Each piece of code that takes an item out of a list or puts it into one, as what it does
to the schedule.
-/

namespace Stm32F1.Rtos

open Prog

variable {τ ε : Type} {k k' : Kernel τ ε} {s : Schedule τ ε} {t u : τ} {p q : Priority}

/-- The lists after a call that changes only them. -/
theorem Becomes.exists_lists {container : Item τ → Option (KernelList ε)}
    {value : Node (Item τ) (KernelList ε) → TickType} (h : Becomes k k' container value) :
    ∃ m, k' = { k with lists := m } ∧ Kernel.Rings { k with lists := m } ∧
    m.pxContainer = container ∧
      m.xItemValue = value := by
  obtain ⟨hsame, hrings, hcontainer, hvalue⟩ := h
  refine ⟨k'.lists, hsame, ?_, hcontainer, hvalue⟩
  rw [← hsame]
  exact hrings

namespace Kernel.Follows

variable [DecidableEq τ] [DecidableEq ε]

/-! ## Requests for a context switch -/

omit [DecidableEq τ] [DecidableEq ε] in
theorem run_setYieldPending (h : k.Follows s) (b : Bool) :
    Run (setYieldPending b) k fun _ k' ↦ k'.Follows { s with yieldPending := b } :=
  run_modify.2 (h.vary { h.agrees with xYieldPending := rfl } rfl rfl rfl rfl rfl rfl rfl rfl)

omit [DecidableEq τ] [DecidableEq ε] in
theorem run_portYIELD (h : k.Follows s) : Run portYIELD k fun _ k' ↦ k'.Follows s.yield :=
  run_modify.2 (h.vary { h.agrees with pendSV := rfl } rfl rfl rfl rfl rfl rfl rfl rfl)

omit [DecidableEq τ] [DecidableEq ε] in
theorem run_when_setYieldPending (h : k.Follows s) (b : Bool) :
    Run (when b (setYieldPending true)) k
    fun _ k' ↦ k'.Follows { s with yieldPending := s.yieldPending || b } := by
  cases b with
  | true =>
      rw [Bool.or_true]
      exact h.run_setYieldPending true
  | false =>
      rw [Bool.or_false]
      exact run_pure.2 h

omit [DecidableEq τ] [DecidableEq ε] in
theorem run_when_portYIELD (h : k.Follows s) (b : Bool) : Run (when b portYIELD) k
    fun _ k' ↦ k'.Follows { s with switchPending := s.switchPending || b } := by
  cases b with
  | true =>
      rw [Bool.or_true]
      exact h.run_portYIELD
  | false =>
      rw [Bool.or_false]
      exact run_pure.2 h

/-! ## Into a list -/

/-- **`prvAddTaskToReadyList`** -/
theorem run_prvAddTaskToReadyList (h : k.Follows s) (ht : s.place t = .absent) :
    Run (prvAddTaskToReadyList t) k fun _ k' ↦ k'.Follows (s.put t (.ready (s.priority t))) := by
  have hlists := h.delayed_ne_ready (s.priority t)
  have hrings : Rings { k with uxTopReadyPriority :=
      k.uxTopReadyPriority ||| priorityBit (s.priority t) } := h.rings
  rw [prvAddTaskToReadyList, run_bind, run_of_eq (read_apply _ _), h.agrees.uxPriority, run_bind,
    portRECORD_READY_PRIORITY, run_of_eq (modify_apply _ _)]
  refine (hrings.run_listInsertEnd (h.stateList_none.2 ht) ⟨hlists.1.symm, hlists.2.symm⟩).mono ?_
  intro _ k' hbecomes
  obtain ⟨m, rfl, hrings', hcontainer, hvalue⟩ := hbecomes.exists_lists
  refine h.moved hrings' hcontainer hvalue (by simp) ?_
  intro p
  rw [marked_record, h.bits]
  constructor
  · rintro (⟨u, hu⟩ | rfl)
    · have hne : u ≠ t := by
        rintro rfl
        rw [ht] at hu
        exact absurd hu (by simp)
      exact ⟨u, (Schedule.put_place_of_ne hne).trans hu⟩
    · exact ⟨t, Schedule.put_place_self⟩
  · rintro ⟨u, hu⟩
    by_cases hut : u = t
    · subst hut
      rw [Schedule.put_place_self] at hu
      exact .inr (Place.ready.inj hu).symm
    · rw [Schedule.put_place_of_ne hut] at hu
      exact .inl ⟨u, hu⟩

theorem run_insertSuspended (h : k.Follows s) (ht : s.place t = .absent) :
    Run (listInsertEnd .xSuspendedTaskList (.xStateListItem t)) k fun _ k' ↦
      k'.Follows (s.put t .suspended) := by
  have hlists := h.delayed_ne_suspended
  refine (h.rings.run_listInsertEnd (h.stateList_none.2 ht) ⟨hlists.1.symm, hlists.2.symm⟩).mono ?_
  intro _ k' hbecomes
  obtain ⟨m, rfl, hrings, hcontainer, hvalue⟩ := hbecomes.exists_lists
  exact h.moved hrings hcontainer hvalue (by simp) (h.bits_put (by simp [ht]) (by simp))

theorem run_insertPending (h : k.Follows s) (ht : s.waiting t = .nowhere) :
    Run (listInsertEnd .xPendingReadyList (.xEventListItem t)) k fun _ k' ↦
      k'.Follows (s.wait t .pending) := by
  have hlists := h.delayed_ne_pending
  refine (h.rings.run_listInsertEnd (h.eventList_none.2 ht) ⟨hlists.1.symm, hlists.2.symm⟩).mono ?_
  intro _ k' hbecomes
  obtain ⟨m, rfl, hrings, hcontainer, hvalue⟩ := hbecomes.exists_lists
  exact h.waited hrings hcontainer hvalue

theorem run_insertEvent (h : k.Follows s) (ht : s.waiting t = .nowhere) (e : ε) :
    Run (listInsert (.pxEventList e) (.xEventListItem t)) k fun _ k' ↦
      k'.Follows (s.wait t (.event e)) := by
  refine (h.rings.run_listInsert (h.eventList_none.2 ht)).mono ?_
  intro _ k' hbecomes
  obtain ⟨m, rfl, hrings, hcontainer, hvalue⟩ := hbecomes.exists_lists
  exact h.waited hrings hcontainer hvalue

/-! ## Out of a list -/

variable [Fintype τ] (hfew : Fintype.card (Item τ) < 2 ^ 32)

include hfew

/-- The event item of a task that waits. -/
theorem run_listRemove_event (h : k.Follows s) (ht : s.waiting t ≠ .nowhere) :
    Run (listRemove (.xEventListItem t)) k fun _ k' ↦ k'.Follows (s.wait t .nowhere) := by
  obtain ⟨l, hl⟩ := Option.ne_none_iff_exists'.1 fun hnone ↦ ht (h.eventList_none.1 hnone)
  refine (h.rings.run_listRemove hfew hl).mono ?_
  rintro _ k' ⟨hbecomes, -⟩
  obtain ⟨m, rfl, hrings, hcontainer, hvalue⟩ := hbecomes.exists_lists
  exact h.waited hrings hcontainer hvalue

theorem run_removeFromEvent (h : k.Follows s) :
    Run (removeFromEvent t) k fun _ k' ↦ k'.Follows (s.wait t .nowhere) := by
  rw [removeFromEvent, run_bind, listLIST_ITEM_CONTAINER, run_of_eq (read_apply _ _)]
  apply run_when
  · intro hne
    have hwaiting : s.waiting t ≠ .nowhere := fun hnowhere ↦ hne (h.eventList_none.2 hnowhere)
    exact (h.run_listRemove_event hfew hwaiting).bind fun _ _ h' ↦ run_pure.2 h'
  · intro heq
    have hnowhere := h.eventList_none.1 (not_not.1 heq)
    rw [Schedule.wait_of_eq hnowhere]
    exact h

/-- The state item of a task that is not ready. -/
theorem run_listRemove_state (h : k.Follows s) (ht : s.place t ≠ .absent)
    (hready : ∀ p, s.place t ≠ .ready p) :
    Run (listRemove (.xStateListItem t)) k fun _ k' ↦ k'.Follows (s.put t .absent) := by
  obtain ⟨l, hl⟩ := Option.ne_none_iff_exists'.1 fun hnone ↦ ht (h.stateList_none.1 hnone)
  refine (h.rings.run_listRemove hfew hl).mono ?_
  rintro _ k' ⟨hbecomes, -⟩
  obtain ⟨m, rfl, hrings, hcontainer, hvalue⟩ := hbecomes.exists_lists
  exact h.moved hrings hcontainer hvalue (by simp) (h.bits_put hready (by simp))

omit hfew [DecidableEq ε] [Fintype τ] in
/-- The ready lists after one task has left that of its priority, and whether there are others in
it. -/
theorem bits_left (h : k.Follows s) (ht : s.place t = .ready p) {n : UInt32}
    (hn : n = 0 ↔ ∀ u, (s.put t .absent).place u ≠ .ready p) (q : Priority) :
    Marked (if n = 0 then k.uxTopReadyPriority &&& ~~~priorityBit p else k.uxTopReadyPriority) q ↔
      ∃ u, (s.put t .absent).place u = .ready q := by
  -- a list of another priority, or one that is not empty, is as marked as before
  have hkept (hq : q ≠ p ∨ n ≠ 0) : Marked k.uxTopReadyPriority q ↔
      ∃ u, (s.put t .absent).place u = .ready q := by
    rw [h.bits]
    constructor
    · rintro ⟨u, hu⟩
      by_cases hut : u = t
      · subst hut
        obtain rfl : p = q := Place.ready.inj (ht.symm.trans hu)
        have hne := hq.resolve_left fun hne ↦ hne rfl
        by_contra hnone
        exact hne (hn.2 (not_exists.1 hnone))
      · exact ⟨u, (Schedule.put_place_of_ne hut).trans hu⟩
    · rintro ⟨u, hu⟩
      by_cases hut : u = t
      · subst hut
        rw [Schedule.put_place_self] at hu
        exact absurd hu (by simp)
      · exact ⟨u, (Schedule.put_place_of_ne hut).symm.trans hu⟩
  split
  · next h0 =>
      rw [marked_reset]
      constructor
      · rintro ⟨hmarked, hne⟩
        exact (hkept (.inl hne)).1 hmarked
      · rintro ⟨u, hu⟩
        have hne : q ≠ p := by
          rintro rfl
          exact hn.1 h0 u hu
        exact ⟨(hkept (.inl hne)).2 ⟨u, hu⟩, hne⟩
  · next h0 => exact hkept (.inr h0)

omit hfew [DecidableEq ε] [Fintype τ] in
/-- A ready list is empty after a task has left it. -/
theorem left_empty_iff (h : k.Follows s) {m : Lists (Item τ) (KernelList ε)}
    (hcontainer : m.pxContainer = Function.update k.lists.pxContainer (.xStateListItem t) none) :
    (∀ i, m.pxContainer i ≠ some (.pxReadyTasksLists q)) ↔
      ∀ u, (s.put t .absent).place u ≠ .ready q := by
  constructor
  · intro hnone u hu
    by_cases hut : u = t
    · subst hut
      rw [Schedule.put_place_self] at hu
      exact absurd hu (by simp)
    · rw [Schedule.put_place_of_ne hut] at hu
      refine hnone (.xStateListItem u) ?_
      have hne : Item.xStateListItem u ≠ .xStateListItem t := fun heq ↦
        hut (Item.xStateListItem.inj heq)
      rw [hcontainer, Function.update_of_ne hne]
      exact h.stateList_ready.2 hu
  · intro hnone i hi
    by_cases hit : i = .xStateListItem t
    · subst hit
      rw [hcontainer, Function.update_self] at hi
      exact absurd hi (by simp)
    · rw [hcontainer, Function.update_of_ne hit] at hi
      obtain ⟨u, rfl, hu⟩ := h.container_ready hi
      refine hnone u ?_
      rw [Schedule.put_place_of_ne fun heq ↦ hit (by rw [heq])]
      exact hu

/-- **A task leaves its ready list.** -/
theorem run_removeFromReady (h : k.Follows s) (ht : s.place t = .ready p) :
    Run (removeFromReady t p) k fun _ k' ↦ k'.Follows (s.put t .absent) := by
  rw [removeFromReady, run_bind]
  refine (h.rings.run_listRemove hfew (h.stateList_ready.2 ht)).mono ?_
  rintro n k' ⟨hbecomes, hn⟩
  obtain ⟨m, rfl, hrings, hcontainer, hvalue⟩ := hbecomes.exists_lists
  have hbits := h.bits_left ht (hn.trans (h.left_empty_iff hcontainer))
  apply run_when
  · intro h0
    rw [portRESET_READY_PRIORITY, run_of_eq (modify_apply _ _)]
    simp only [if_pos h0] at hbits
    exact h.moved hrings hcontainer hvalue (by simp) hbits
  · intro h0
    simp only [if_neg h0] at hbits
    exact h.moved hrings hcontainer hvalue (by simp) hbits

/-- The code of `vTaskSuspend` that takes a task out of the list it is in. -/
theorem run_takeOut (h : k.Follows s) (ht : s.place t ≠ .absent)
    (hready : ∀ p, s.place t = .ready p → p = s.priority t) :
    Run (do
      let n ← listRemove (.xStateListItem t)
      let p ← read fun k ↦ k.uxPriority t
      when (n = 0) (taskRESET_READY_PRIORITY p)) k fun _ k' ↦ k'.Follows (s.put t .absent) := by
  obtain ⟨l, hl⟩ := Option.ne_none_iff_exists'.1 fun hnone ↦ ht (h.stateList_none.1 hnone)
  rw [run_bind]
  refine (h.rings.run_listRemove hfew hl).mono ?_
  rintro n k' ⟨hbecomes, hn⟩
  obtain ⟨m, rfl, hrings, hcontainer, hvalue⟩ := hbecomes.exists_lists
  rw [run_bind, run_of_eq (read_apply _ _)]
  have hpriority : ({ k with lists := m } : Kernel τ ε).uxPriority t = s.priority t :=
    congrFun h.agrees.uxPriority t
  rw [hpriority]
  have hcount : m.uxNumberOfItems (.pxReadyTasksLists (s.priority t)) = 0 ↔
      ∀ u, (s.put t .absent).place u ≠ .ready (s.priority t) := by
    obtain ⟨r, hholds, -⟩ := hrings
    exact (number_eq_zero_iff hfew (hholds _)).trans (h.left_empty_iff hcontainer)
  have hreset : Run (taskRESET_READY_PRIORITY (s.priority t)) { k with lists := m } fun _ k' ↦
      k' = { k with
        lists := m
        uxTopReadyPriority :=
          if m.uxNumberOfItems (.pxReadyTasksLists (s.priority t)) = 0 then
            k.uxTopReadyPriority &&& ~~~priorityBit (s.priority t) else k.uxTopReadyPriority } := by
    rw [taskRESET_READY_PRIORITY, run_bind, listCURRENT_LIST_LENGTH, run_of_eq (read_apply _ _)]
    apply run_when
    · intro h0
      rw [portRESET_READY_PRIORITY, run_of_eq (modify_apply _ _), if_pos h0]
    · intro h0
      rw [if_neg h0]
  by_cases hp : s.place t = .ready (s.priority t)
  · have hbits := h.bits_left hp hcount
    apply run_when
    · intro _
      refine hreset.mono ?_
      rintro _ _ rfl
      exact h.moved hrings hcontainer hvalue (by simp) hbits
    · intro h0
      -- the list that the task was in is that of its priority
      obtain rfl : l = .pxReadyTasksLists (s.priority t) :=
        Option.some.inj (hl.symm.trans (h.stateList_ready.2 hp))
      have hsome := fun hnone ↦ h0 (hn.2 ((h.left_empty_iff hcontainer).2 (hcount.1 hnone)))
      simp only [if_neg hsome] at hbits
      exact h.moved hrings hcontainer hvalue (by simp) hbits
  · have hnot : ∀ p, s.place t ≠ .ready p := by
      intro p heq
      obtain rfl := hready p heq
      exact hp heq
    have hbits := h.bits_put (t := t) hnot fun p ↦ (by simp : Place.absent ≠ .ready p)
    apply run_when
    · intro _
      refine hreset.mono ?_
      rintro _ _ rfl
      refine h.moved hrings hcontainer hvalue (by simp) ?_
      intro q
      split
      · next h0 =>
          rw [marked_reset, hbits]
          constructor
          · exact fun hmarked ↦ hmarked.1
          · rintro ⟨u, hu⟩
            refine ⟨⟨u, hu⟩, ?_⟩
            rintro rfl
            exact hcount.1 h0 u hu
      · exact hbits q
    · intro _
      exact h.moved hrings hcontainer hvalue (by simp) hbits

end Kernel.Follows

end Stm32F1.Rtos

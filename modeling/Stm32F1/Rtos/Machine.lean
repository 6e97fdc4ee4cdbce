import Stm32F1.Rtos.ListRuns
import Stm32F1.Rtos.Regular
import Stm32F1.Rtos.Switching

/-!
# Runs of the scheduler

Tasks and interrupts call the scheduler in any order that its documentation allows, with
context switches and ticks between any two calls.  Every call returns, and the kernel is
then where the schedule is: no task is lost, the bits of the ready lists are right, and
the current task has the highest priority of all that are ready, unless a context switch
has been requested.
-/

namespace Stm32F1.Rtos

open Prog

/-- How far a task is in a call of several critical sections. -/
inductive Phase (τ : Type)
  | running
  | blocking
  | suspending (t : τ)

/-- What tasks (`c` is the one that calls) and interrupts do. -/
inductive Call (τ ε : Type)
  | create (t : τ) (uxPriority : UInt32)
  | start
  | tick
  | dispatch
  | suspendAll
  | resumeAll
  | delay (c : τ) (xTicksToDelay : TickType)
  | delayUntil (c : τ) (previous increment : TickType)
  | wait (c : τ) (e : ε) (xTicksToWait : TickType)
  | resumeAndYield (c : τ)
  | suspend (c t : τ)
  | suspendEnd (c t : τ)
  | resume (t : τ)
  | resumeFromISR (t : τ)
  | prioritySet (t : τ) (uxNewPriority : UInt32)
  | signal (e : ε)
  | yield
  | missedYield

/-- The kernel, and how far every task is in its call. -/
structure Machine (τ ε : Type) where
  kernel : Kernel τ ε
  phase : τ → Phase τ

variable {τ ε : Type}

/-- A task is executing, and no context switch is to come first. -/
structure Machine.Runs (m : Machine τ ε) (c : τ) (phase : Phase τ) : Prop where
  xSchedulerRunning : m.kernel.xSchedulerRunning = true
  pxCurrentTCB : m.kernel.pxCurrentTCB = some c
  pendSV : m.kernel.pendSV = false
  phase : m.phase c = phase

/-- What the callers see to: the idle task never blocks, nobody blocks while the scheduler is
suspended, `vTaskDelay` and `vTaskPlaceOnEventList` are for one tick or more, and
`xTaskRemoveFromEventList` for a list that is not empty.  Once the scheduler runs, `xTaskCreate` is
called in a critical section, as every `start_task` does, since it compares the priorities behind
its own.  The scheduler is not suspended for `2 ^ 32` ticks, nor `2 ^ 32` times over. -/
def Machine.Allowed (idle timer : τ) (m : Machine τ ε) : Call τ ε → Prop
  | .create t _ => t ≠ idle ∧ t ≠ timer ∧ m.kernel.stateList t = none ∧
      m.kernel.eventList t = none ∧ m.kernel.pxCurrentTCB ≠ some t ∧
      (m.kernel.xSchedulerRunning = false ∨ ∃ c, m.Runs c .running)
  | .start => m.kernel.xSchedulerRunning = false
  | .tick => m.kernel.xSchedulerRunning = true ∧ m.kernel.xPendedTicks.toNat + 1 < 2 ^ 32
  | .dispatch => m.kernel.xSchedulerRunning = true ∧ m.kernel.pendSV = true
  | .suspendAll => (∃ c, m.Runs c .running) ∧ m.kernel.uxSchedulerSuspended.toNat + 1 < 2 ^ 32
  | .resumeAll => (∃ c, m.Runs c .running) ∧ m.kernel.uxSchedulerSuspended ≠ 0
  | .delay c n => m.Runs c .running ∧ c ≠ idle ∧ m.kernel.uxSchedulerSuspended = 0 ∧ 0 < n
  | .delayUntil c _ _ => m.Runs c .running ∧ c ≠ idle ∧ m.kernel.uxSchedulerSuspended = 0
  | .wait c _ n => m.Runs c .running ∧ c ≠ idle ∧ m.kernel.uxSchedulerSuspended = 1 ∧ 0 < n
  | .resumeAndYield c => m.Runs c .blocking
  | .suspend c t => m.Runs c .running ∧ t ≠ idle ∧ m.kernel.stateList t ≠ none ∧
      (t = c → m.kernel.uxSchedulerSuspended = 0)
  | .suspendEnd c t => m.Runs c (.suspending t)
  | .resume _ => ∃ c, m.Runs c .running
  | .prioritySet _ _ => ∃ c, m.Runs c .running
  | .signal e => m.kernel.xSchedulerRunning = true ∧
      m.kernel.lists.uxNumberOfItems (.pxEventList e) ≠ 0
  | .resumeFromISR _ | .yield | .missedYield => m.kernel.xSchedulerRunning = true

variable [DecidableEq τ] [DecidableEq ε]

/-- The call; the result is the task that a context switch leads to, or whose event has come. -/
def perform (idle timer : τ) : Call τ ε → Prog (Kernel τ ε) (Option τ)
  | .create t n => do xTaskCreate t n; pure none
  | .start => do vTaskStartScheduler idle timer; pure none
  | .tick => do xPortSysTickHandler; pure none
  | .dispatch => do
      modify fun k ↦ { k with pendSV := false }
      vTaskSwitchContext
      read Kernel.pxCurrentTCB
  | .suspendAll => do vTaskSuspendAll; pure none
  | .resumeAll => do let _ ← xTaskResumeAll; pure none
  | .delay _ n => do vTaskDelay n; pure none
  | .delayUntil _ previous increment => do let _ ← xTaskDelayUntil previous increment; pure none
  | .wait _ e n => do vTaskPlaceOnEventList e n; pure none
  | .resumeAndYield _ => do Rtos.resumeAndYield; pure none
  | .suspend _ t => do vTaskSuspend t; pure none
  | .suspendEnd _ t => do vTaskSuspendEnd t; pure none
  | .resume t => do vTaskResume t; pure none
  | .resumeFromISR t => do let _ ← xTaskResumeFromISR t; pure none
  | .prioritySet t n => do vTaskPrioritySet t n; pure none
  | .signal e => do
      let t ← listGET_OWNER_OF_HEAD_ENTRY (.pxEventList e)
      let _ ← xTaskRemoveFromEventList e
      pure (some t)
  | .yield => do portYIELD; pure none
  | .missedYield => do setYieldPending true; pure none

omit [DecidableEq ε] in
/-- How far the tasks are then. -/
def Call.phaseAfter (phase : τ → Phase τ) : Call τ ε → τ → Phase τ
  | .delay c _ | .delayUntil c _ _ | .wait c _ _ => Function.update phase c .blocking
  | .suspend c t => Function.update phase c (.suspending t)
  | .resumeAndYield c | .suspendEnd c _ => Function.update phase c .running
  | _ => phase

/-- A call and its result. -/
abbrev KernelEvent (τ ε : Type) := Call τ ε × Option τ

/-- A call that is allowed, its result, and what it leaves behind. -/
structure Machine.Step (idle timer : τ) (m : Machine τ ε) (e : KernelEvent τ ε) (m' : Machine τ ε) :
    Prop where
  allowed : m.Allowed idle timer e.1
  kernel : perform idle timer e.1 m.kernel = some (e.2, m'.kernel)
  phase : m'.phase = e.1.phaseAfter m.phase

/-- No task has been created. -/
structure Machine.Starts (priority : τ → Priority) (m : Machine τ ε) : Prop where
  lists : ∃ value, Lists.Starts value m.kernel.lists
  uxPriority : m.kernel.uxPriority = priority
  uxBasePriority : m.kernel.uxBasePriority = priority
  pxCurrentTCB : m.kernel.pxCurrentTCB = none
  pxDelayedTaskList : m.kernel.pxDelayedTaskList = .xDelayedTaskList1
  pxOverflowDelayedTaskList : m.kernel.pxOverflowDelayedTaskList = .xDelayedTaskList2
  xTickCount : m.kernel.xTickCount = 0
  uxTopReadyPriority : m.kernel.uxTopReadyPriority = 0
  xSchedulerRunning : m.kernel.xSchedulerRunning = false
  xPendedTicks : m.kernel.xPendedTicks = 0
  xYieldPending : m.kernel.xYieldPending = false
  xNumOfOverflows : m.kernel.xNumOfOverflows = 0
  uxSchedulerSuspended : m.kernel.uxSchedulerSuspended = 0
  pendSV : m.kernel.pendSV = false
  phase : ∀ t, m.phase t = .running

/-! ## The schedule -/

variable [Fintype τ]

/-- What a call means for the schedule. -/
def Schedule.next (idle timer : τ) (s : Schedule τ ε) : KernelEvent τ ε → Schedule τ ε
  | (.create t n, _) => s.create t (clampPriority n)
  | (.start, _) => s.start idle timer
  | (.tick, _) => s.tick
  | (.dispatch, t) => t.elim s s.dispatch
  | (.suspendAll, _) => s.suspendAll
  | (.resumeAll, _) => s.resumeAll
  | (.delay c n, _) => s.suspendAll.block c n false
  | (.delayUntil c previous increment, _) => s.suspendAll.delayUntil c previous increment
  | (.wait c e n, _) => (s.wait c (.event e)).block c n true
  | (.resumeAndYield _, _) => s.resumeAll.yield
  | (.suspend _ t, _) => s.suspend t
  | (.suspendEnd c t, _) => { s with switchPending := s.switchPending || decide (t = c) }
  | (.resume t, _) => s.resume t
  | (.resumeFromISR t, _) => s.resumeFromISR t
  | (.prioritySet t n, _) => s.prioritySet t (clampPriority n)
  | (.signal _, t) => t.elim s s.signal
  | (.yield, _) => s.yield
  | (.missedYield, _) => { s with yieldPending := true }

/-- What the calls so far say. -/
def scheduled (idle timer : τ) (priority : τ → Priority) (history : List (KernelEvent τ ε)) :
    Schedule τ ε :=
  after (Schedule.next idle timer) (.initial priority) history

/-- The kernel is where the schedule is, and every task is in a call that it can be in. -/
structure Machine.Good (idle timer : τ) (m : Machine τ ε) (s : Schedule τ ε) : Prop where
  follows : m.kernel.Follows s
  regular : s.Regular idle timer
  blocking : ∀ t, m.phase t = .blocking → s.current = some t ∧ s.suspended = 1
  /-- The current task is ready, unless it blocks or a context switch is to come. -/
  current : ∀ c, s.current = some c → (∃ p, s.place c = .ready p) ∨ m.phase c = .blocking ∨
    s.suspended = 0 ∧ (m.phase c = .suspending c ∨ s.switchPending = true)
  stopped : s.running = false → ∀ t, m.phase t = .running

variable {m m' : Machine τ ε} {s s' : Schedule τ ε} {idle timer t c : τ} {k : Kernel τ ε}
  {phase : Phase τ} {r : Option τ} {call : Call τ ε}

namespace Machine.Good

/-! ## Who is executing -/

omit [Fintype τ] [DecidableEq τ] [DecidableEq ε] in
/-- A task executes only while the scheduler runs, and it is the current one with no switch to
come. -/
theorem runs (h : m.Good idle timer s) (hruns : m.Runs c phase) : s.running = true ∧
    s.current = some c ∧ s.switchPending = false := by
  refine ⟨?_, ?_, ?_⟩
  · rw [← h.follows.agrees.xSchedulerRunning]
    exact hruns.xSchedulerRunning
  · rw [← h.follows.agrees.pxCurrentTCB]
    exact hruns.pxCurrentTCB
  · rw [← h.follows.agrees.pendSV]
    exact hruns.pendSV

omit [Fintype τ] [DecidableEq τ] [DecidableEq ε] in
/-- A task that executes its own code is ready. -/
theorem ready (h : m.Good idle timer s) (hruns : m.Runs c .running) :
    s.place c = .ready (s.priority c) := by
  obtain ⟨-, hcurrent, hswitch⟩ := h.runs hruns
  rcases h.current c hcurrent with ⟨p, hp⟩ | hblocking | ⟨-, hsuspending | hpending⟩
  · rw [hp, h.regular.steady.ready c p hp]
  · exact absurd (hruns.phase.symm.trans hblocking) (by simp)
  · exact absurd (hruns.phase.symm.trans hsuspending) (by simp)
  · exact absurd (hswitch.symm.trans hpending) (by simp)

omit [Fintype τ] [DecidableEq τ] [DecidableEq ε] in
/-- Unless the task that executes is blocking, no task is. -/
theorem nobody_blocking (h : m.Good idle timer s) (hruns : m.Runs c phase)
    (hphase : phase ≠ .blocking) (t : τ) : m.phase t ≠ .blocking := by
  intro ht
  have hcurrent := (h.blocking t ht).1
  obtain rfl : c = t := Option.some.inj ((h.runs hruns).2.1.symm.trans hcurrent)
  exact hphase (hruns.phase.symm.trans ht)

/-! ## What a call leaves -/

omit [Fintype τ] [DecidableEq τ] [DecidableEq ε] in
/-- A call that takes nobody's turn. -/
theorem kept (h : m.Good idle timer s) (hfollows : k.Follows s') (hregular : s'.Regular idle timer)
    (hcurrent : s'.current = s.current) (hsuspended : s'.suspended = s.suspended)
    (hrunning : s'.running = s.running)
    (hready : ∀ t p, s.place t = .ready p → ∃ q, s'.place t = .ready q)
    (hswitch : s.switchPending = true → s'.switchPending = true) :
    Good idle timer ⟨k, m.phase⟩ s' := by
  refine ⟨hfollows, hregular, ?_, ?_, ?_⟩
  · rw [hcurrent, hsuspended]
    exact h.blocking
  · intro c hc
    rw [hcurrent] at hc
    rw [hsuspended]
    rcases h.current c hc with ⟨p, hp⟩ | hblocking | ⟨h0, hor⟩
    · exact .inl (hready c p hp)
    · exact .inr (.inl hblocking)
    · exact .inr (.inr ⟨h0, hor.imp_right hswitch⟩)
  · rw [hrunning]
    exact h.stopped

omit [Fintype τ] [DecidableEq ε] in
/-- A task that becomes ready takes no other's place in the ready lists. -/
theorem toReady_ready {p : Priority} (u : τ) (ht : s.place t = .ready p) :
    ∃ q, (s.toReady u).place t = .ready q := by
  by_cases htu : t = u
  · subst htu
    exact ⟨_, Schedule.put_place_self⟩
  · exact ⟨p, (Schedule.put_place_of_ne htu).trans ht⟩

omit [Fintype τ] [DecidableEq τ] [DecidableEq ε] in
/-- A tick that is counted leaves ready what is ready. -/
theorem count_ready {p : Priority} (ht : s.place t = .ready p) :
    ∃ q, s.count.place t = .ready q := by
  refine ⟨p, ?_⟩
  show (if s.place t = .delayed (s.now + 1) then .ready (s.priority t) else s.place t) = _
  rw [if_neg (by simp [ht])]
  exact ht

omit [DecidableEq ε] in
/-- So does any tick. -/
theorem tick_ready {p : Priority} (ht : s.place t = .ready p) : ∃ q, s.tick.place t = .ready q := by
  unfold Schedule.tick
  split
  · exact count_ready ht
  · exact ⟨p, ht⟩

/-- And so do the ticks that are made up for when the scheduler is no longer suspended. -/
theorem catchUp_ready {p : Priority} (hsteady : s.Steady idle) (ht : s.place t = .ready p)
    (i : Nat) : ∃ q, (Schedule.counted^[i] s.collect).place t = .ready q := by
  induction i with
  | zero =>
      refine ⟨p, ?_⟩
      show (if s.waiting t = .pending then .ready (s.priority t) else s.place t) = _
      rw [if_neg (by simp [hsteady.waiting_of_ready ht])]
      exact ht
  | succ i ih =>
      obtain ⟨q, hq⟩ := ih
      rw [Function.iterate_succ_apply']
      exact count_ready hq

/-- So ready tasks stay ready when a suspension of the scheduler ends. -/
theorem resumeAll_ready {p : Priority} (hsteady : s.Steady idle) (ht : s.place t = .ready p) :
    ∃ q, s.resumeAll.place t = .ready q := by
  unfold Schedule.resumeAll
  split
  · have hsteady' : Schedule.Steady idle { s with suspended := s.suspended - 1 } :=
      hsteady.congr rfl rfl rfl rfl rfl rfl
    exact catchUp_ready hsteady' ht s.pended
  · exact ⟨p, ht⟩

/-! ## Interrupts -/

variable (hfew : Fintype.card (Item τ) < 2 ^ 32)

/-- **A call goes well**: it returns, and the kernel is where the schedule is then. -/
def Does (idle timer : τ) (m : Machine τ ε) (s : Schedule τ ε) (call : Call τ ε) : Prop :=
  Run (perform idle timer call) m.kernel fun r k' ↦
    Good idle timer ⟨k', call.phaseAfter m.phase⟩ (s.next idle timer (call, r))

include hfew

/-- `xPortSysTickHandler` requests a switch where one is due. -/
theorem tick (h : m.Good idle timer s) (hallowed : m.Allowed idle timer .tick) :
    Does idle timer m s .tick := by
  obtain ⟨hrun, hpended⟩ := hallowed
  rw [h.follows.agrees.xSchedulerRunning] at hrun
  rw [h.follows.agrees.xPendedTicks] at hpended
  obtain ⟨c, hcurrent⟩ := Option.ne_none_iff_exists'.1 (h.regular.steady.idle hrun).1
  refine (h.follows.run_xPortSysTickHandler hfew h.regular.steady.punctual hcurrent hpended).bind
    fun _ k' h1 ↦ run_pure.2 ?_
  have hkept : s.tick.current = s.current ∧ s.tick.suspended = s.suspended ∧
      s.tick.running = s.running ∧ (s.switchPending = true → s.tick.switchPending = true) := by
    unfold Schedule.tick
    split
    · exact ⟨rfl, rfl, rfl, fun hswitch ↦ Bool.or_eq_true_iff.2 (.inl hswitch)⟩
    · exact ⟨rfl, rfl, rfl, id⟩
  obtain ⟨h2, h3, h4, h5⟩ := hkept
  exact h.kept h1 (h.regular.tick hrun) h2 h3 h4 (fun _ _ ↦ tick_ready) h5

/-- The first task in the event list is readied, or it stays pending while the scheduler is
suspended. -/
theorem signal (h : m.Good idle timer s) {e : ε} (hallowed : m.Allowed idle timer (.signal e)) :
    Does idle timer m s (.signal e) := by
  obtain ⟨hrun, hsome⟩ := hallowed
  rw [h.follows.agrees.xSchedulerRunning] at hrun
  obtain ⟨c, hcurrent⟩ := Option.ne_none_iff_exists'.1 (h.regular.steady.idle hrun).1
  have hwaits : ∃ t, s.waiting t = .event e := by
    obtain ⟨r, hholds, -⟩ := h.follows.rings
    by_contra hnone
    refine hsome ((number_eq_zero_iff hfew (hholds _)).2 fun i hi ↦ ?_)
    obtain ⟨t, -, ht⟩ := h.follows.container_event hi
    exact hnone ⟨t, ht⟩
  obtain ⟨t, ht, hfirst⟩ := h.follows.exists_first hwaits
  have hwaiting : s.waiting t ≠ .nowhere := by simp [ht]
  obtain ⟨hplace, hready⟩ := h.regular.steady.waiting t hwaiting
  show Run (listGET_OWNER_OF_HEAD_ENTRY (.pxEventList e) >>= _) m.kernel _
  rw [run_bind, run_of_eq hfirst]
  refine (h.follows.run_xTaskRemoveFromEventList hfew hcurrent hfirst ht hplace hready).bind
    fun _ k' h1 ↦ run_pure.2 ?_
  have hkept : (s.signal t).current = s.current ∧ (s.signal t).suspended = s.suspended ∧
      (s.signal t).running = s.running ∧
      (∀ u p, s.place u = .ready p → ∃ q, (s.signal t).place u = .ready q) ∧
      (s.switchPending = true → (s.signal t).switchPending = true) := by
    unfold Schedule.signal
    split
    · exact ⟨rfl, rfl, rfl, fun u p hu ↦ toReady_ready t hu, id⟩
    · exact ⟨rfl, rfl, rfl, fun u p hu ↦ ⟨p, hu⟩, id⟩
  obtain ⟨h2, h3, h4, h5, h6⟩ := hkept
  exact h.kept h1 (h.regular.signal hrun hwaiting) h2 h3 h4 h5 h6

/-- An interrupt may resume a task at any time. -/
theorem resumeFromISR (h : m.Good idle timer s)
    (hallowed : m.Allowed idle timer (.resumeFromISR t)) :
    Does idle timer m s (.resumeFromISR t) := by
  have hrun : s.running = true := h.follows.agrees.xSchedulerRunning.symm.trans hallowed
  obtain ⟨c, hcurrent⟩ := Option.ne_none_iff_exists'.1 (h.regular.steady.idle hrun).1
  refine (h.follows.run_xTaskResumeFromISR hfew hcurrent).bind fun _ k' h1 ↦ run_pure.2 ?_
  have hkept : (s.resumeFromISR t).current = s.current ∧
      (s.resumeFromISR t).suspended = s.suspended ∧ (s.resumeFromISR t).running = s.running ∧
      (∀ u p, s.place u = .ready p → ∃ q, (s.resumeFromISR t).place u = .ready q) ∧
      (s.switchPending = true → (s.resumeFromISR t).switchPending = true) := by
    unfold Schedule.resumeFromISR
    split
    · split
      · exact ⟨rfl, rfl, rfl, fun u p hu ↦ toReady_ready t hu, id⟩
      · exact ⟨rfl, rfl, rfl, fun u p hu ↦ ⟨p, hu⟩, id⟩
    · exact ⟨rfl, rfl, rfl, fun u p hu ↦ ⟨p, hu⟩, id⟩
  obtain ⟨h2, h3, h4, h5, h6⟩ := hkept
  exact h.kept h1 (h.regular.resumeFromISR hrun) h2 h3 h4 h5 h6

omit hfew in
/-- `portYIELD` requests a switch. -/
theorem yield (h : m.Good idle timer s) (hallowed : m.Allowed idle timer .yield) :
    Does idle timer m s .yield := by
  have hrun : s.running = true := h.follows.agrees.xSchedulerRunning.symm.trans hallowed
  refine h.follows.run_portYIELD.bind fun _ k' h1 ↦ run_pure.2 ?_
  have hregular := h.regular.request hrun true false
  rw [Bool.or_true, Bool.or_false] at hregular
  exact h.kept h1 hregular rfl rfl rfl (fun _ p hu ↦ ⟨p, hu⟩) fun _ ↦ rfl

omit hfew in
/-- A switch is noted for the next tick. -/
theorem missedYield (h : m.Good idle timer s) (hallowed : m.Allowed idle timer .missedYield) :
    Does idle timer m s .missedYield := by
  have hrun : s.running = true := h.follows.agrees.xSchedulerRunning.symm.trans hallowed
  refine (h.follows.run_setYieldPending true).bind fun _ k' h1 ↦ run_pure.2 ?_
  have hregular := h.regular.request hrun false true
  rw [Bool.or_true, Bool.or_false] at hregular
  exact h.kept h1 hregular rfl rfl rfl (fun _ p hu ↦ ⟨p, hu⟩) id

omit hfew in
/-- A context switch, which is put off while the scheduler is suspended. -/
theorem dispatch (h : m.Good idle timer s) (hallowed : m.Allowed idle timer .dispatch) :
    Does idle timer m s .dispatch := by
  have hrun : s.running = true := h.follows.agrees.xSchedulerRunning.symm.trans hallowed.1
  obtain ⟨hne, p, hidle⟩ := h.regular.steady.idle hrun
  obtain ⟨c, hcurrent⟩ := Option.ne_none_iff_exists'.1 hne
  show Run (modify _ >>= _) m.kernel _
  rw [run_bind, run_of_eq (modify_apply _ _), run_bind]
  refine (h.follows.run_vTaskSwitchContext c hidle).mono fun _ k' ⟨t, h1, hsame, hnew⟩ ↦ ?_
  have hcurrent' : (s.dispatch t).current = some t := by
    unfold Schedule.dispatch
    split
    · rfl
    · next h0 =>
        rw [hsame h0]
        exact hcurrent
  rw [run_of_eq (read_apply _ _), h1.agrees.pxCurrentTCB, hcurrent']
  have hregular := h.regular.dispatch hrun hnew
  refine ⟨h1, hregular, ?_, ?_, fun hstop ↦ ?_⟩
  · intro u hu
    obtain ⟨hu', hone⟩ := h.blocking u hu
    have h0 : s.suspended ≠ 0 := by omega
    obtain rfl := hsame h0
    have heq : s.dispatch t = { s with switchPending := false, yieldPending := true } := if_neg h0
    show (s.dispatch t).current = some u ∧ (s.dispatch t).suspended = 1
    rw [heq]
    exact ⟨hu', hone⟩
  · intro c' hc'
    obtain rfl : t = c' := Option.some.inj (hcurrent'.symm.trans hc')
    by_cases h0 : s.suspended = 0
    · obtain ⟨q, hq, -⟩ := hnew h0
      refine .inl ⟨q, ?_⟩
      have hplace : (s.dispatch t).place = s.place := by
        unfold Schedule.dispatch
        rw [if_pos h0]
      show (s.dispatch t).place t = _
      rw [hplace]
      exact hq
    · obtain rfl := hsame h0
      have hplace : (s.dispatch t).place = s.place := by
        unfold Schedule.dispatch
        rw [if_neg h0]
      rcases h.current t hcurrent with ⟨q, hq⟩ | hblocking | ⟨hzero, -⟩
      · refine .inl ⟨q, ?_⟩
        show (s.dispatch t).place t = _
        rw [hplace]
        exact hq
      · exact .inr (.inl hblocking)
      · exact absurd hzero h0
  · have hrunning : (s.dispatch t).running = s.running := by
      unfold Schedule.dispatch
      split <;> rfl
    have hstop' : (s.dispatch t).running = false := hstop
    rw [hrunning, hrun] at hstop'
    exact absurd hstop' (by simp)

/-! ## Tasks -/

omit hfew [Fintype τ] [DecidableEq τ] [DecidableEq ε] in
/-- The current task goes on, and it is ready. -/
theorem goesOn (h : m.Good idle timer s) (hruns : m.Runs c .running) (hfollows : k.Follows s')
    (hregular : s'.Regular idle timer) (hcurrent : s'.current = s.current)
    (hrunning : s'.running = s.running)
    (hready : ∀ t p, s.place t = .ready p → ∃ q, s'.place t = .ready q) :
    Good idle timer ⟨k, m.phase⟩ s' := by
  obtain ⟨hrun, hc, -⟩ := h.runs hruns
  refine ⟨hfollows, hregular, ?_, ?_, ?_⟩
  · intro t ht
    exact absurd ht (h.nobody_blocking hruns (by simp) t)
  · intro c' hc'
    obtain rfl : c = c' := Option.some.inj (hc.symm.trans (hcurrent.symm.trans hc'))
    exact .inl (hready c _ (h.ready hruns))
  · rw [hrunning, hrun]
    exact fun hstop ↦ absurd hstop (by simp)

omit hfew [Fintype τ] [DecidableEq ε] in
/-- The current task blocks. -/
theorem blocks (h : m.Good idle timer s) (hruns : m.Runs c .running) (hfollows : k.Follows s')
    (hregular : s'.Regular idle timer) (hcurrent : s'.current = s.current)
    (hsuspended : s'.suspended = 1) (hrunning : s'.running = s.running) :
    Good idle timer ⟨k, Function.update m.phase c .blocking⟩ s' := by
  obtain ⟨hrun, hc, -⟩ := h.runs hruns
  refine ⟨hfollows, hregular, ?_, ?_, ?_⟩
  · intro t ht
    by_cases htc : t = c
    · rw [htc]
      exact ⟨hcurrent.trans hc, hsuspended⟩
    · exact absurd ((Function.update_of_ne htc ..).symm.trans ht)
        (h.nobody_blocking hruns (by simp) t)
  · intro c' hc'
    obtain rfl : c = c' := Option.some.inj (hc.symm.trans (hcurrent.symm.trans hc'))
    exact .inr (.inl (Function.update_self ..))
  · rw [hrunning, hrun]
    exact fun hstop ↦ absurd hstop (by simp)

omit hfew in
/-- `vTaskSuspendAll` only counts. -/
theorem suspendAll (h : m.Good idle timer s) (hallowed : m.Allowed idle timer .suspendAll) :
    Does idle timer m s .suspendAll := by
  obtain ⟨⟨c, hruns⟩, hnested⟩ := hallowed
  rw [h.follows.agrees.uxSchedulerSuspended] at hnested
  obtain ⟨hrun, -, -⟩ := h.runs hruns
  refine Run.bind (R := fun _ k' ↦ k'.Follows s.suspendAll)
    (run_modify.2 (h.follows.suspendAll hnested)) fun _ k' h1 ↦ run_pure.2 ?_
  exact h.goesOn hruns h1 (h.regular.suspendAll hrun) rfl rfl fun _ p hu ↦ ⟨p, hu⟩

/-- `xTaskResumeAll` makes up for the ticks that were pended, and readies the tasks that are
pending. -/
theorem resumeAll (h : m.Good idle timer s) (hallowed : m.Allowed idle timer .resumeAll) :
    Does idle timer m s .resumeAll := by
  obtain ⟨⟨c, hruns⟩, hne⟩ := hallowed
  obtain ⟨hrun, hcurrent, -⟩ := h.runs hruns
  have hpos : 0 < s.suspended := Nat.pos_of_ne_zero fun h0 ↦ hne (h.follows.suspended_zero.2 h0)
  refine (h.follows.run_xTaskResumeAll hfew h.regular.steady.punctual hcurrent h.regular.steady.held
    hpos).bind fun _ k' ⟨h1, _⟩ ↦ run_pure.2 ?_
  have hkept : s.resumeAll.current = s.current ∧ s.resumeAll.running = s.running := by
    unfold Schedule.resumeAll
    split
    · exact ⟨(Kernel.Follows.counted_kept _).1, Schedule.running_counted _⟩
    · exact ⟨rfl, rfl⟩
  exact h.goesOn hruns h1 (h.regular.resumeAll hrun) hkept.1 hkept.2
    fun _ _ ↦ resumeAll_ready h.regular.steady

/-- `vTaskDelay` up to `xTaskResumeAll`: the task is no longer ready, with the scheduler
suspended. -/
theorem delay (h : m.Good idle timer s) {n : TickType}
    (hallowed : m.Allowed idle timer (.delay c n)) : Does idle timer m s (.delay c n) := by
  obtain ⟨hruns, hc, hzero, hn⟩ := hallowed
  obtain ⟨hrun, hcurrent, -⟩ := h.runs hruns
  have h0 := h.follows.suspended_zero.1 hzero
  refine (h.follows.run_vTaskDelay hfew hcurrent (h.ready hruns) (by omega)).bind
    fun _ k' h1 ↦ run_pure.2 ?_
  have hone : s.suspendAll.suspended = 1 := congrArg Nat.succ h0
  have hkeep : s.suspendAll.wait c (s.waiting c) = s.suspendAll := Schedule.wait_of_eq rfl
  have hregular := (h.regular.suspendAll hrun).block hrun hc hn (Nat.succ_ne_zero _) false
    (s.waiting c)
  rw [hkeep] at hregular
  exact h.blocks hruns h1 hregular rfl hone rfl

/-- `xTaskDelayUntil` up to `xTaskResumeAll`, whether it blocks or not. -/
theorem delayUntil (h : m.Good idle timer s) {previous increment : TickType}
    (hallowed : m.Allowed idle timer (.delayUntil c previous increment)) :
    Does idle timer m s (.delayUntil c previous increment) := by
  obtain ⟨hruns, hc, hzero⟩ := hallowed
  obtain ⟨hrun, hcurrent, -⟩ := h.runs hruns
  have h0 := h.follows.suspended_zero.1 hzero
  refine (h.follows.run_xTaskDelayUntil hfew hcurrent (h.ready hruns) (by omega)).bind
    fun _ k' ⟨h1, _⟩ ↦ run_pure.2 ?_
  have hone : s.suspendAll.suspended = 1 := congrArg Nat.succ h0
  have hkept : (s.suspendAll.delayUntil c previous increment).current = s.current ∧
      (s.suspendAll.delayUntil c previous increment).suspended = 1 ∧
      (s.suspendAll.delayUntil c previous increment).running = s.running := by
    unfold Schedule.delayUntil
    split <;> exact ⟨rfl, hone, rfl⟩
  exact h.blocks hruns h1 (h.regular.delayUntil hrun hc) hkept.1 hkept.2.1 hkept.2.2

/-- `vTaskPlaceOnEventList`, whose caller has suspended the scheduler. -/
theorem wait (h : m.Good idle timer s) {e : ε} {n : TickType}
    (hallowed : m.Allowed idle timer (.wait c e n)) : Does idle timer m s (.wait c e n) := by
  obtain ⟨hruns, hc, hsuspended, hn⟩ := hallowed
  obtain ⟨hrun, hcurrent, -⟩ := h.runs hruns
  have hready := h.ready hruns
  have hone : s.suspended = 1 := by
    rw [← h.follows.agrees.uxSchedulerSuspended, hsuspended]
    rfl
  refine (h.follows.run_vTaskPlaceOnEventList hfew hcurrent hready
    (h.regular.steady.waiting_of_ready hready) e).bind fun _ k' h1 ↦ run_pure.2 ?_
  exact h.blocks hruns h1 (h.regular.block hrun hc hn (by omega) true (.event e)) rfl hone rfl

/-- The end of a call that blocks: the scheduler goes on, and a switch is requested. -/
theorem resumeAndYield (h : m.Good idle timer s)
    (hallowed : m.Allowed idle timer (.resumeAndYield c)) :
    Does idle timer m s (.resumeAndYield c) := by
  have hruns : m.Runs c .blocking := hallowed
  obtain ⟨hrun, hcurrent, -⟩ := h.runs hruns
  have hone := (h.blocking c hruns.phase).2
  refine (h.follows.run_resumeAndYield hfew h.regular.steady.punctual hcurrent h.regular.steady.held
    (by omega)).bind fun _ k' h1 ↦ run_pure.2 ?_
  have hless : s.suspended - 1 = 0 := by omega
  have hkept : s.resumeAll.current = s.current ∧ s.resumeAll.running = s.running ∧
      s.resumeAll.suspended = 0 := by
    unfold Schedule.resumeAll
    rw [if_pos hless]
    exact ⟨(Kernel.Follows.counted_kept _).1, Schedule.running_counted _,
      (Kernel.Follows.counted_kept _).2.1.trans hless⟩
  have hregular := (h.regular.resumeAll hrun).request (hkept.2.1.trans hrun) true false
  rw [Bool.or_true, Bool.or_false] at hregular
  refine ⟨h1, hregular, ?_, ?_, ?_⟩
  · intro t ht
    have hother : ∀ u, u ≠ c → m.phase u ≠ .blocking := fun u hu hblocking ↦
      hu (Option.some.inj ((h.blocking u hblocking).1.symm.trans hcurrent))
    by_cases htc : t = c
    · subst htc
      exact absurd ((Function.update_self ..).symm.trans ht) (by simp)
    · exact absurd ((Function.update_of_ne htc ..).symm.trans ht) (hother t htc)
  · exact fun _ _ ↦ .inr (.inr ⟨hkept.2.2, .inr rfl⟩)
  · intro hstop
    have hstop' : s.resumeAll.running = false := hstop
    rw [hkept.2.1, hrun] at hstop'
    exact absurd hstop' (by simp)

/-- The first critical section of `vTaskSuspend`. -/
theorem suspend (h : m.Good idle timer s) (hallowed : m.Allowed idle timer (.suspend c t)) :
    Does idle timer m s (.suspend c t) := by
  obtain ⟨hruns, ht, hcreated, hself⟩ := hallowed
  obtain ⟨hrun, hcurrent, -⟩ := h.runs hruns
  have hplace : s.place t ≠ .absent := fun habsent ↦ hcreated (h.follows.stateList_none.2 habsent)
  refine (h.follows.run_vTaskSuspend hfew hplace (h.regular.steady.ready t)).bind
    fun _ k' h1 ↦ run_pure.2 ?_
  refine ⟨h1, h.regular.suspend hrun ht, ?_, ?_, fun hstop ↦ absurd (hrun.symm.trans hstop)
    (by simp)⟩
  · intro u hu
    by_cases huc : u = c
    · subst huc
      exact absurd ((Function.update_self ..).symm.trans hu) (by simp)
    · exact absurd ((Function.update_of_ne huc ..).symm.trans hu)
        (h.nobody_blocking hruns (by simp) u)
  · intro c' hc'
    obtain rfl : c = c' := Option.some.inj (hcurrent.symm.trans hc')
    by_cases htc : t = c
    · refine .inr (.inr ⟨h.follows.suspended_zero.1 (hself htc), .inl ?_⟩)
      show Function.update m.phase c (.suspending t) c = .suspending c
      rw [Function.update_self, htc]
    · exact .inl ⟨_, (Schedule.put_place_of_ne (Ne.symm htc)).trans (h.ready hruns)⟩

/-- The rest of it, where a task that has suspended itself requests a switch. -/
theorem suspendEnd (h : m.Good idle timer s) (hallowed : m.Allowed idle timer (.suspendEnd c t)) :
    Does idle timer m s (.suspendEnd c t) := by
  have hruns : m.Runs c (.suspending t) := hallowed
  obtain ⟨hrun, hcurrent, hswitch⟩ := h.runs hruns
  refine (h.follows.run_vTaskSuspendEnd hfew hcurrent).bind fun _ k' h1 ↦ run_pure.2 ?_
  have hregular := h.regular.request hrun (decide (t = c)) false
  rw [Bool.or_false] at hregular
  refine ⟨h1, hregular, ?_, ?_, fun hstop ↦ absurd (hrun.symm.trans hstop) (by simp)⟩
  · intro u hu
    by_cases huc : u = c
    · subst huc
      exact absurd ((Function.update_self ..).symm.trans hu) (by simp)
    · exact absurd ((Function.update_of_ne huc ..).symm.trans hu)
        (h.nobody_blocking hruns (by simp) u)
  · intro c' hc'
    obtain rfl : c = c' := Option.some.inj (hcurrent.symm.trans hc')
    rcases h.current c hcurrent with ⟨p, hp⟩ | hblocking | ⟨h0, hsuspending | hpending⟩
    · exact .inl ⟨p, hp⟩
    · exact absurd (hruns.phase.symm.trans hblocking) (by simp)
    · -- the task has suspended itself, and gives up the processor now
      obtain rfl : t = c := Phase.suspending.inj (hruns.phase.symm.trans hsuspending)
      refine .inr (.inr ⟨h0, .inr ?_⟩)
      show (s.switchPending || decide (t = t)) = true
      simp
    · exact absurd (hswitch.symm.trans hpending) (by simp)

/-- `vTaskResume`, which does nothing to a task that was not suspended as such. -/
theorem resume (h : m.Good idle timer s) (hallowed : m.Allowed idle timer (.resume t)) :
    Does idle timer m s (.resume t) := by
  obtain ⟨c, hruns⟩ := hallowed
  obtain ⟨hrun, hcurrent, -⟩ := h.runs hruns
  refine (h.follows.run_vTaskResume hfew hcurrent).bind fun _ k' h1 ↦ run_pure.2 ?_
  have hkept : (s.resume t).current = s.current ∧ (s.resume t).running = s.running ∧
      ∀ u p, s.place u = .ready p → ∃ q, (s.resume t).place u = .ready q := by
    unfold Schedule.resume
    split
    · exact ⟨rfl, rfl, fun u p hu ↦ toReady_ready t hu⟩
    · exact ⟨rfl, rfl, fun u p hu ↦ ⟨p, hu⟩⟩
  exact h.goesOn hruns h1 (h.regular.resume hrun) hkept.1 hkept.2.1 hkept.2.2

/-- `vTaskPrioritySet` moves a task that is ready to the list of its new priority. -/
theorem prioritySet (h : m.Good idle timer s) {n : UInt32}
    (hallowed : m.Allowed idle timer (.prioritySet t n)) :
    Does idle timer m s (.prioritySet t n) := by
  obtain ⟨c, hruns⟩ := hallowed
  obtain ⟨hrun, hcurrent, -⟩ := h.runs hruns
  refine (h.follows.run_vTaskPrioritySet hfew hcurrent n).bind fun _ k' h1 ↦ run_pure.2 ?_
  show Good idle timer ⟨k', m.phase⟩ (s.prioritySet t (clampPriority n))
  generalize clampPriority n = p at h1 ⊢
  have hkept : (s.prioritySet t p).current = s.current ∧ (s.prioritySet t p).running = s.running ∧
      ∀ u r, s.place u = .ready r → ∃ q, (s.prioritySet t p).place u = .ready q := by
    by_cases hp : s.base t = p
    · unfold Schedule.prioritySet
      rw [if_pos hp]
      exact ⟨rfl, rfl, fun u r hu ↦ ⟨r, hu⟩⟩
    · obtain ⟨hother, hself⟩ := Schedule.place_prioritySet h.regular.steady hp
      refine ⟨?_, ?_, fun u r hu ↦ ?_⟩
      · unfold Schedule.prioritySet
        rw [if_neg hp]
      · unfold Schedule.prioritySet
        rw [if_neg hp]
      · by_cases hut : u = t
        · subst hut
          rcases hself with ⟨-, heq⟩ | ⟨hnot, -⟩
          · exact ⟨_, heq⟩
          · exact absurd hu (hnot r)
        · exact ⟨r, (hother u hut).trans hu⟩
  exact h.goesOn hruns h1 (h.regular.prioritySet hrun) hkept.1 hkept.2.1 hkept.2.2

/-! ## New tasks -/

omit hfew in
/-- `xTaskCreate`, before the scheduler runs or after. -/
theorem create (h : m.Good idle timer s) {n : UInt32}
    (hallowed : m.Allowed idle timer (.create t n)) : Does idle timer m s (.create t n) := by
  obtain ⟨hidle, htimer, hstate, hevent, hcurrent, -⟩ := hallowed
  have hnew : s.New t := by
    refine ⟨h.follows.stateList_none.1 hstate, h.follows.eventList_none.1 hevent, ?_⟩
    rw [← h.follows.agrees.pxCurrentTCB]
    exact hcurrent
  refine (h.follows.run_xTaskCreate hnew.place hnew.waiting hnew.current
    (fun hrun ↦ (h.regular.steady.idle hrun).1) n).bind fun _ k' h1 ↦ run_pure.2 ?_
  show Good idle timer ⟨k', m.phase⟩ (s.create t (clampPriority n))
  generalize clampPriority n = p at h1 ⊢
  have hregular := h.regular.create (p := p) hnew ⟨hidle, htimer⟩
  have hkept : ∀ u r, s.place u = .ready r → ∃ q, (s.create t p).place u = .ready q := by
    intro u r hu
    by_cases hut : u = t
    · subst hut
      exact ⟨p, Function.update_self ..⟩
    · exact ⟨r, (Function.update_of_ne hut ..).trans hu⟩
  by_cases hrun : s.running = true
  · exact h.kept h1 hregular (if_pos (.inl hrun)) rfl rfl hkept
      fun hswitch ↦ Bool.or_eq_true_iff.2 (.inl hswitch)
  · have hstop := Bool.eq_false_iff.2 hrun
    have hphase := h.stopped hstop
    refine ⟨h1, hregular, ?_, ?_, fun _ ↦ hphase⟩
    · intro u hu
      exact absurd ((hphase u).symm.trans hu) (by simp)
    · intro c hc
      exact .inl ((hregular.stopped hstop).current c hc)

omit hfew in
/-- `vTaskStartScheduler` creates the idle task and the timer task. -/
theorem start (h : m.Good idle timer s) (hne : timer ≠ idle)
    (hallowed : m.Allowed idle timer .start) : Does idle timer m s .start := by
  have hstop : s.running = false := h.follows.agrees.xSchedulerRunning.symm.trans hallowed
  have hstopped := h.regular.stopped hstop
  have hphase := h.stopped hstop
  have hidle := hstopped.new hstopped.absent.1
  have htimer := hstopped.new hstopped.absent.2
  have hnone (t : τ) (wake : Nat) : s.place t ≠ .delayed wake := by
    rcases hstopped.place t with ht | ⟨p, ht⟩ <;> simp [ht]
  refine (h.follows.run_vTaskStartScheduler hne hstopped.absent ⟨hidle.waiting, htimer.waiting⟩
    ⟨hidle.current, htimer.current⟩ hstop hstopped.now hnone).bind fun _ k' h1 ↦ run_pure.2 ?_
  have hregular := h.regular.start hstop hne
  refine ⟨h1, hregular, ?_, ?_, fun _ ↦ hphase⟩
  · intro u hu
    exact absurd ((hphase u).symm.trans hu) (by simp)
  · intro c hc
    -- only the task of the timers can be the current one
    refine .inl ?_
    have hfirst : (s.start idle timer).current = some timer := Schedule.current_start hstop
    obtain rfl : timer = c := Option.some.inj (hfirst.symm.trans hc)
    exact ⟨_, Function.update_self ..⟩

/-- **Every call goes well.** -/
theorem does (h : m.Good idle timer s) (hne : timer ≠ idle) (hallowed : m.Allowed idle timer call) :
    Does idle timer m s call := by
  cases call with
  | create t n => exact h.create hallowed
  | start => exact h.start hne hallowed
  | tick => exact h.tick hfew hallowed
  | dispatch => exact h.dispatch hallowed
  | suspendAll => exact h.suspendAll hallowed
  | resumeAll => exact h.resumeAll hfew hallowed
  | delay c n => exact h.delay hfew hallowed
  | delayUntil c previous increment => exact h.delayUntil hfew hallowed
  | wait c e n => exact h.wait hfew hallowed
  | resumeAndYield c => exact h.resumeAndYield hfew hallowed
  | suspend c t => exact h.suspend hfew hallowed
  | suspendEnd c t => exact h.suspendEnd hfew hallowed
  | resume t => exact h.resume hfew hallowed
  | resumeFromISR t => exact h.resumeFromISR hfew hallowed
  | prioritySet t n => exact h.prioritySet hfew hallowed
  | signal e => exact h.signal hfew hallowed
  | yield => exact h.yield hallowed
  | missedYield => exact h.missedYield hallowed

/-- **One call**, whichever it is, leaves the kernel where the schedule is. -/
theorem step (h : m.Good idle timer s) (hne : timer ≠ idle) {e : KernelEvent τ ε}
    (hstep : m.Step idle timer e m') : m'.Good idle timer (s.next idle timer e) := by
  obtain ⟨call, r⟩ := e
  obtain ⟨hallowed, hkernel, hphase⟩ := hstep
  have hgood := (h.does hfew hne hallowed).elim hkernel
  obtain ⟨kernel, phase⟩ := m'
  obtain rfl : phase = _ := hphase
  exact hgood

end Machine.Good

end Stm32F1.Rtos

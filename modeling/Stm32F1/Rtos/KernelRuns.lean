import Stm32F1.Rtos.Machine

/-!
# Every run of the scheduler

Whatever tasks and interrupts do, and in whatever order: the lists of the kernel are those
of the schedule, the current task has the highest priority, and every tick is counted.
-/

namespace Stm32F1.Rtos

open Prog

variable {τ ε : Type} [DecidableEq τ] [DecidableEq ε] [Fintype τ] {m m' : Machine τ ε}
  {s : Schedule τ ε} {idle timer t c : τ} {priority : τ → Priority}
  {history : List (KernelEvent τ ε)} {e : KernelEvent τ ε}

omit [Fintype τ] in
/-- A kernel without a task is where the schedule without one is. -/
theorem Machine.Starts.good (h : m.Starts priority) : m.Good idle timer (.initial priority) := by
  obtain ⟨value, hlists⟩ := h.lists
  have hholds := hlists.refines.holds
  have hnone (i : Item τ) : m.kernel.lists.pxContainer i = none := by
    rw [← hlists.2.1 i]
    exact Function.update_self ..
  have hempty (l : KernelList ε) : Sorted m.kernel.lists
      ((Orders.initial value : Orders (Item τ) (KernelList ε)).ring l).items := List.Pairwise.nil
  refine ⟨⟨⟨_, hholds, hempty _, hempty _⟩, ?_,
    .inl ⟨h.pxDelayedTaskList, h.pxOverflowDelayedTaskList⟩,
    fun t ↦ hnone _, fun t ↦ hnone _, ?_, by simp [Schedule.initial], by simp [Schedule.initial]⟩,
    Schedule.regular_initial, ?_, by simp [Schedule.initial], fun _ ↦ h.phase⟩
  · refine ⟨h.uxPriority, h.uxBasePriority, h.pxCurrentTCB, h.xTickCount, ?_, ?_, h.xYieldPending,
      h.pendSV, h.xSchedulerRunning, by simp [h.xNumOfOverflows, Schedule.initial]⟩
    · rw [h.uxSchedulerSuspended]
      rfl
    · rw [h.xPendedTicks]
      rfl
  · intro p
    rw [h.uxTopReadyPriority]
    refine iff_of_false (by simp [Marked]) ?_
    rintro ⟨t, ht⟩
    exact absurd ht (by simp [Schedule.initial])
  · intro t ht
    exact absurd ((h.phase t).symm.trans ht) (by simp)

/-- Nothing has been called. -/
def Machine.initial (τ ε : Type) : Machine τ ε where
  kernel := {
    lists := .initial (Item τ) (KernelList ε)
    uxPriority _ := tskIDLE_PRIORITY
    uxBasePriority _ := tskIDLE_PRIORITY
    pxCurrentTCB := none
    pxDelayedTaskList := .xDelayedTaskList1
    pxOverflowDelayedTaskList := .xDelayedTaskList2
    xTickCount := 0
    uxTopReadyPriority := 0
    xSchedulerRunning := false
    xPendedTicks := 0
    xYieldPending := false
    xNumOfOverflows := 0
    xNextTaskUnblockTime := 0
    uxSchedulerSuspended := 0
    pendSV := false }
  phase _ := .running

omit [Fintype τ] in
/-- There is such a kernel. -/
theorem Machine.starts_initial :
    (Machine.initial τ ε).Starts fun _ ↦ 0 where
  lists := ⟨_, Lists.starts_initial⟩
  uxPriority := rfl
  uxBasePriority := rfl
  pxCurrentTCB := rfl
  pxDelayedTaskList := rfl
  pxOverflowDelayedTaskList := rfl
  xTickCount := rfl
  uxTopReadyPriority := rfl
  xSchedulerRunning := rfl
  xPendedTicks := rfl
  xYieldPending := rfl
  xNumOfOverflows := rfl
  uxSchedulerSuspended := rfl
  pendSV := rfl
  phase _ := rfl

section Runs

variable (hfew : Fintype.card (Item τ) < 2 ^ 32) (hne : timer ≠ idle)

include hfew hne

/-- **Every run** leaves the kernel where the schedule is. -/
theorem good_scheduled (h : Reaches (Machine.Starts priority) (Machine.Step idle timer) history m) :
    m.Good idle timer (scheduled idle timer priority history) := by
  induction h with
  | start hs => exact hs.good
  | step _ hstep ih => exact ih.step hfew hne hstep

/-- **In every run** the kernel is where the schedule is, and every call returns. -/
theorem kernel_follows (h : Reaches (Machine.Starts priority) (Machine.Step idle timer) history m) :
    m.kernel.Follows (scheduled idle timer priority history) ∧
      ∀ call, m.Allowed idle timer call → ∃ r m', m.Step idle timer (call, r) m' := by
  have hgood := good_scheduled hfew hne h
  refine ⟨hgood.follows, fun call hallowed ↦ ?_⟩
  obtain ⟨r, k', heq, -⟩ := hgood.does hfew hne hallowed
  exact ⟨r, ⟨k', call.phaseAfter m.phase⟩, hallowed, heq, rfl⟩

omit hfew hne [DecidableEq τ] [DecidableEq ε] [Fintype τ] in
/-- Who executes is told by the schedule. -/
theorem Machine.Good.runs_of {phase : Phase τ} (h : m.Good idle timer s) (hrun : s.running = true)
    (hcurrent : s.current = some c) (hswitch : s.switchPending = false)
    (hphase : m.phase c = phase) : m.Runs c phase :=
  ⟨h.follows.agrees.xSchedulerRunning.trans hrun, h.follows.agrees.pxCurrentTCB.trans hcurrent,
    h.follows.agrees.pendSV.trans hswitch, hphase⟩

/-- Every call that is allowed returns. -/
theorem Machine.goes_on (h : Reaches (Machine.Starts priority) (Machine.Step idle timer) history m)
    {call : Call τ ε} (hallowed : m.Allowed idle timer call) :
    ∃ r m', m.Step idle timer (call, r) m' := by
  obtain ⟨r, k', heq, -⟩ := (good_scheduled hfew hne h).does hfew hne hallowed
  exact ⟨r, ⟨k', call.phaseAfter m.phase⟩, hallowed, heq, rfl⟩

omit hfew hne in
/-- Two tasks have few enough items. -/
theorem card_bool : Fintype.card (Item Bool) < 2 ^ 32 := by decide

omit hfew hne in
/-- The task of the timers is the first to run. -/
theorem reaches_started : ∃ r m, Reaches (Machine.Starts fun _ ↦ 0) (Machine.Step false true)
    [((.start : Call Bool Unit), r)] m ∧ m.Runs true .running := by
  have h0 : Reaches (Machine.Starts fun _ ↦ 0) (Machine.Step false true) []
      (Machine.initial Bool Unit) :=
    .start Machine.starts_initial
  have hallowed : (Machine.initial Bool Unit).Allowed false true .start := rfl
  obtain ⟨r, m, hstep⟩ := Machine.goes_on card_bool (by simp) h0 hallowed
  refine ⟨r, m, h0.step hstep, ?_⟩
  refine (good_scheduled card_bool (by simp) (h0.step hstep)).runs_of rfl rfl rfl ?_
  rw [hstep.phase]
  rfl

/-- The scheduler is suspended when a tick comes. -/
def suspendedTick (r₁ r₂ r₃ : Option Bool) : List (KernelEvent Bool Unit) :=
  [(.tick, r₃), (.suspendAll, r₂), (.start, r₁)]

omit hfew hne in
/-- In that run a tick is pended, and made up for when the suspension ends. -/
theorem reaches_suspendedTick : ∃ r₁ r₂ r₃ m₃, Reaches (Machine.Starts fun _ ↦ 0)
    (Machine.Step false true) (suspendedTick r₁ r₂ r₃) m₃ ∧ m₃.kernel.xPendedTicks = 1 ∧
      ∃ r₄ m₄, m₃.Step false true (.resumeAll, r₄) m₄ ∧ m₄.kernel.uxSchedulerSuspended = 0 := by
  obtain ⟨r₁, m₁, h1, hruns₁⟩ := reaches_started
  have hzero : m₁.kernel.uxSchedulerSuspended = 0 :=
    (good_scheduled card_bool (by simp) h1).follows.suspended_zero.2 rfl
  have hsuspend : m₁.Allowed false true .suspendAll := ⟨⟨true, hruns₁⟩, by rw [hzero]; decide⟩
  obtain ⟨r₂, m₂, hstep₂⟩ := Machine.goes_on card_bool (by simp) h1 hsuspend
  have h2 := h1.step hstep₂
  have hgood₂ := good_scheduled card_bool (by simp) h2
  have hnone : m₂.kernel.xPendedTicks = 0 :=
    UInt32.toNat.inj (hgood₂.follows.agrees.xPendedTicks.trans rfl)
  have htick : m₂.Allowed false true .tick :=
    ⟨hgood₂.follows.agrees.xSchedulerRunning, by rw [hnone]; decide⟩
  obtain ⟨r₃, m₃, hstep₃⟩ := Machine.goes_on card_bool (by simp) h2 htick
  have h3 := h2.step hstep₃
  have hgood₃ := good_scheduled card_bool (by simp) h3
  have hruns₃ : m₃.Runs true .running := by
    refine hgood₃.runs_of rfl rfl rfl ?_
    rw [hstep₃.phase, hstep₂.phase]
    exact hruns₁.phase
  have hresume : m₃.Allowed false true .resumeAll := by
    refine ⟨⟨true, hruns₃⟩, fun h ↦ ?_⟩
    exact absurd (hgood₃.follows.suspended_zero.1 h) Nat.one_ne_zero
  obtain ⟨r₄, m₄, hstep₄⟩ := Machine.goes_on card_bool (by simp) h3 hresume
  refine ⟨r₁, r₂, r₃, m₃, h3, ?_, r₄, m₄, hstep₄, ?_⟩
  · exact UInt32.toNat.inj (hgood₃.follows.agrees.xPendedTicks.trans rfl)
  · exact (good_scheduled card_bool (by simp) (h3.step hstep₄)).follows.suspended_zero.2 rfl

omit hfew hne in
/-- The tick is made up for. -/
theorem kernel_follows_resumed : ∃ r₁ r₂ r₃ r₄ m, Reaches (Machine.Starts fun _ ↦ 0)
    (Machine.Step false true) ((.resumeAll, r₄) :: suspendedTick r₁ r₂ r₃) m ∧
    m.kernel.Follows
    (scheduled false true (fun _ ↦ 0) ((.resumeAll, r₄) :: suspendedTick r₁ r₂ r₃)) ∧
    (∀ call, m.Allowed false true call → ∃ r m', m.Step false true (call, r) m') := by
  obtain ⟨r₁, r₂, r₃, m₃, h3, -, r₄, m, hstep, -⟩ := reaches_suspendedTick
  have h4 := h3.step hstep
  exact ⟨r₁, r₂, r₃, r₄, m, h4, kernel_follows card_bool (by simp) h4⟩

/-! ## The highest priority -/

/-- A task is in the ready list of its priority. -/
def Kernel.Ready (k : Kernel τ ε) (t : τ) : Prop :=
  k.stateList t = some (.pxReadyTasksLists (k.uxPriority t))

/-- No task that is ready has a higher priority than the current one. -/
def Kernel.Foremost (k : Kernel τ ε) : Prop :=
  ∀ c, k.pxCurrentTCB = some c → ∀ t, k.Ready t → k.uxPriority t ≤ k.uxPriority c

/-- What is to be expected of the scheduler, after the last event. -/
structure Machine.Preempts (m : Machine τ ε) (last : Option (Call τ ε)) : Prop where
  /-- A task that executes its own code is ready. -/
  ready : ∀ c, m.Runs c .running → m.kernel.Ready c
  /-- It has the highest priority, or a context switch has been requested. -/
  foremost : m.kernel.pendSV = true ∨ m.kernel.xYieldPending = true ∨ m.kernel.Foremost
  /-- By the next tick at the latest, the request has been passed on. -/
  tick : last = some .tick → m.kernel.uxSchedulerSuspended = 0 → m.kernel.pendSV = true ∨
    m.kernel.Foremost
  /-- A context switch leads to a task of the highest priority. -/
  dispatch : last = some .dispatch → m.kernel.uxSchedulerSuspended = 0 → m.kernel.Foremost ∧
    ∀ c, m.kernel.pxCurrentTCB = some c → m.kernel.Ready c

omit hfew hne [DecidableEq τ] [DecidableEq ε] [Fintype τ] in
/-- The ready lists hold the tasks that are ready. -/
theorem Machine.Good.ready_iff (h : m.Good idle timer s) :
    m.kernel.Ready t ↔ ∃ p, s.place t = .ready p := by
  rw [Kernel.Ready, h.follows.stateList_ready, h.follows.agrees.uxPriority]
  constructor
  · exact fun ht ↦ ⟨_, ht⟩
  · rintro ⟨p, hp⟩
    rw [hp, h.regular.steady.ready t p hp]

omit hfew hne [DecidableEq τ] [DecidableEq ε] [Fintype τ] in
/-- No task in a ready list has a higher priority than the current one if none in the schedule
has. -/
theorem Machine.Good.foremost (h : m.Good idle timer s)
    (hall : ∀ t p, s.place t = .ready p → p ≤ s.level) : m.kernel.Foremost := by
  intro c hc t ht
  rw [h.follows.agrees.pxCurrentTCB] at hc
  obtain ⟨p, hp⟩ := h.ready_iff.1 ht
  have hle := hall t p hp
  rw [h.regular.steady.ready t p hp, Schedule.level_of_current hc] at hle
  rw [h.follows.agrees.uxPriority]
  exact hle

omit hfew hne [Fintype τ] in
/-- A context switch leads to a task that is ready. -/
theorem Machine.Good.dispatch_ready (h : m.Good idle timer s) {r : Option τ}
    (hstep : m.Step idle timer (.dispatch, r) m') (h0 : s.suspended = 0) :
    ∃ t q, r = some t ∧ s.place t = .ready q := by
  have hrun : s.running = true := h.follows.agrees.xSchedulerRunning.symm.trans hstep.allowed.1
  obtain ⟨hne, p, hidle⟩ := h.regular.steady.idle hrun
  obtain ⟨c, hcurrent⟩ := Option.ne_none_iff_exists'.1 hne
  have hdoes : Run (perform idle timer .dispatch) m.kernel fun r _ ↦ ∃ t q, r = some t ∧
      s.place t = .ready q := by
    show Run (modify _ >>= _) m.kernel _
    rw [run_bind, run_of_eq (modify_apply _ _), run_bind]
    refine (h.follows.run_vTaskSwitchContext c hidle).mono fun _ k' ⟨t, h1, _, hnew⟩ ↦ ?_
    obtain ⟨q, hq, -⟩ := hnew h0
    refine run_read.2 ⟨t, q, ?_, hq⟩
    rw [h1.agrees.pxCurrentTCB, Schedule.dispatch, if_pos h0]
  exact hdoes.elim hstep.kernel

/-- **Priorities are kept to, in every run.** -/
theorem kernel_preempts (h : Reaches (Machine.Starts priority) (Machine.Step idle timer) history m)
    (hrun : m.kernel.xSchedulerRunning = true) : m.Preempts (history.head?.map Prod.fst) := by
  have hgood := good_scheduled hfew hne h
  have hrunning := hgood.follows.agrees.xSchedulerRunning.symm.trans hrun
  have hhighest := hgood.regular.highest hrunning
  refine ⟨?_, ?_, ?_, ?_⟩
  · exact fun c hruns ↦ hgood.ready_iff.2 ⟨_, hgood.ready hruns⟩
  · rw [hgood.follows.agrees.pendSV, hgood.follows.agrees.xYieldPending]
    exact hhighest.imp_right (Or.imp_right hgood.foremost)
  · intro hlast hzero
    cases h with
    | start hs => exact absurd hlast (by simp)
    | @step past m₀ _ e hpast hstep =>
        obtain ⟨call, r⟩ := e
        obtain rfl : call = .tick := Option.some.inj hlast
        have h0 := hgood.follows.suspended_zero.1 hzero
        rw [hgood.follows.agrees.pendSV]
        have hnext : scheduled idle timer priority ((.tick, r) :: past) =
          (scheduled idle timer priority past).tick := rfl
        rw [hnext] at hgood hhighest h0 ⊢
        generalize scheduled idle timer priority past = s at hgood hhighest h0 ⊢
        have hcounted :
            s.tick = { s.count with switchPending := s.switchPending || s.switchRequired } := by
          unfold Schedule.tick at h0 ⊢
          split at h0
          · next hz => rw [if_pos hz]
          · next hz => exact absurd h0 hz
        rcases hhighest with hs | hy | hall
        · exact .inl hs
        · refine .inl ?_
          rw [hcounted] at hy ⊢
          have hyield : s.yieldPending = true := hy
          show (s.switchPending || s.switchRequired) = true
          simp [Schedule.switchRequired, hyield]
        · exact .inr (hgood.foremost hall)
  · intro hlast hzero
    cases h with
    | start hs => exact absurd hlast (by simp)
    | @step past m₀ _ e hpast hstep =>
        obtain ⟨call, r⟩ := e
        obtain rfl : call = .dispatch := Option.some.inj hlast
        have hbefore := good_scheduled hfew hne hpast
        have h0 := hgood.follows.suspended_zero.1 hzero
        have hnext : scheduled idle timer priority ((.dispatch, r) :: past) =
          r.elim (scheduled idle timer priority past)
          (scheduled idle timer priority past).dispatch := rfl
        rw [hnext] at hgood hhighest h0
        generalize scheduled idle timer priority past = s at hgood hhighest h0 hbefore
        have hzero' : s.suspended = 0 := by
          cases r with
          | none => exact h0
          | some t =>
              have hsame : (s.dispatch t).suspended = s.suspended := by
                unfold Schedule.dispatch
                split <;> rfl
              exact hsame.symm.trans h0
        obtain ⟨t, q, rfl, hq⟩ := hbefore.dispatch_ready hstep hzero'
        have hdispatch : s.dispatch t =
            { s with switchPending := false, yieldPending := false, current := some t } :=
          if_pos hzero'
        replace hgood : m.Good idle timer (s.dispatch t) := hgood
        replace hhighest : (s.dispatch t).Highest := hhighest
        rw [hdispatch] at hgood hhighest
        refine ⟨?_, fun c hc ↦ ?_⟩
        · rcases hhighest with hs | hy | hall
          · exact absurd hs (by simp)
          · exact absurd hy (by simp)
          · exact hgood.foremost hall
        · rw [hgood.follows.agrees.pxCurrentTCB] at hc
          obtain rfl := Option.some.inj hc
          exact hgood.ready_iff.2 ⟨q, hq⟩

omit hfew hne in
theorem kernel_preempts_delayed : ∃ r₁ r₂ r₃ r₄ m, Reaches (Machine.Starts fun _ ↦ 0)
      (Machine.Step false true) [(.dispatch, r₄), ((.resumeAndYield true : Call Bool Unit), r₃),
        (.delay true 1, r₂), (.start, r₁)] m ∧
    m.Preempts (some .dispatch) ∧ m.kernel.Foremost := by
  obtain ⟨r₁, m₁, h1, hruns⟩ := reaches_started
  have hdelay : m₁.Allowed false true (.delay true 1) :=
    ⟨hruns, by simp, (good_scheduled card_bool (by simp) h1).follows.suspended_zero.2 rfl,
      by decide⟩
  obtain ⟨r₂, m₂, hstep₂⟩ := Machine.goes_on card_bool (by simp) h1 hdelay
  have h2 := h1.step hstep₂
  have hend : m₂.Allowed false true (.resumeAndYield true) := by
    refine (good_scheduled card_bool (by simp) h2).runs_of rfl rfl rfl ?_
    rw [hstep₂.phase]
    rfl
  obtain ⟨r₃, m₃, hstep₃⟩ := Machine.goes_on card_bool (by simp) h2 hend
  have h3 := h2.step hstep₃
  have hgood := good_scheduled card_bool (by simp) h3
  have hdispatch : m₃.Allowed false true .dispatch :=
    ⟨hgood.follows.agrees.xSchedulerRunning, hgood.follows.agrees.pendSV⟩
  obtain ⟨r₄, m₄, hstep₄⟩ := Machine.goes_on card_bool (by simp) h3 hdispatch
  have h4 := h3.step hstep₄
  have hfollows := (good_scheduled card_bool (by simp) h4).follows
  have hrun : m₄.kernel.xSchedulerRunning = true := by
    rw [hfollows.agrees.xSchedulerRunning]
    cases r₄ <;> rfl
  have hzero : m₄.kernel.uxSchedulerSuspended = 0 := by
    refine hfollows.suspended_zero.2 ?_
    cases r₄ <;> rfl
  have hpreempts := kernel_preempts card_bool (by simp) h4 hrun
  exact ⟨r₁, r₂, r₃, r₄, m₄, h4, hpreempts, (hpreempts.dispatch rfl hzero).1⟩

end Runs

/-! ## Ticks are not lost -/

/-- How many ticks there have been. -/
def ticks (history : List (KernelEvent τ ε)) : Nat :=
  history.countP fun e ↦ match e.1 with
    | .tick => true
    | _ => false

omit [DecidableEq τ] [DecidableEq ε] [Fintype τ] in
/-- One more event. -/
theorem ticks_cons (e : KernelEvent τ ε) (past : List (KernelEvent τ ε)) :
    ticks (e :: past) = ticks past + ticks [e] := by
  simp [ticks, List.countP_cons, Nat.add_comm]

omit [DecidableEq τ] [DecidableEq ε] [Fintype τ] in
/-- The ticks of two stretches of a run. -/
theorem ticks_append (recent past : List (KernelEvent τ ε)) :
    ticks (recent ++ past) = ticks recent + ticks past := List.countP_append ..

namespace Schedule

omit [DecidableEq ε] in
/-- Each tick that is made up for is counted. -/
theorem counted_now (i : Nat) : (counted^[i] s).now = s.now + i := by
  induction i with
  | zero => rfl
  | succ i ih =>
      rw [Function.iterate_succ_apply']
      show (counted^[i] s).now + 1 = _
      rw [ih]
      rfl

/-- When the last suspension ends, all of them are. -/
theorem resumeAll_now (h : s.suspended - 1 = 0) : s.resumeAll.now = s.now + s.pended ∧
    s.resumeAll.pended = 0 := by
  unfold resumeAll
  rw [if_pos h]
  exact ⟨counted_now _, rfl⟩

/-- When another one ends, none is. -/
theorem resumeAll_nested (h : s.suspended - 1 ≠ 0) :
    s.resumeAll = { s with suspended := s.suspended - 1 } := by
  unfold resumeAll
  rw [if_neg h]

/-- Only ticks and `xTaskResumeAll` count. -/
theorem next_clock (idle timer : τ) (s : Schedule τ ε) (e : KernelEvent τ ε) :
    (e.1 = .tick ∧ s.next idle timer e = s.tick) ∨
    ticks [e] = 0 ∧ (((s.next idle timer e).now = s.resumeAll.now ∧
        (s.next idle timer e).pended = s.resumeAll.pended) ∨
      ((s.next idle timer e).now = s.now ∧ (s.next idle timer e).pended = s.pended)) := by
  obtain ⟨call, r⟩ := e
  cases call with
  | tick => exact .inl ⟨rfl, rfl⟩
  | resumeAll => exact .inr ⟨rfl, .inl ⟨rfl, rfl⟩⟩
  | resumeAndYield c => exact .inr ⟨rfl, .inl ⟨rfl, rfl⟩⟩
  | dispatch =>
      refine .inr ⟨rfl, .inr ?_⟩
      cases r with
      | none => exact ⟨rfl, rfl⟩
      | some t =>
          show (s.dispatch t).now = _ ∧ (s.dispatch t).pended = _
          unfold Schedule.dispatch
          split <;> exact ⟨rfl, rfl⟩
  | signal e =>
      refine .inr ⟨rfl, .inr ?_⟩
      cases r with
      | none => exact ⟨rfl, rfl⟩
      | some t =>
          show (s.signal t).now = _ ∧ (s.signal t).pended = _
          unfold Schedule.signal
          split <;> exact ⟨rfl, rfl⟩
  | delayUntil c previous increment =>
      refine .inr ⟨rfl, .inr ?_⟩
      show (s.suspendAll.delayUntil c previous increment).now = _ ∧
        (s.suspendAll.delayUntil c previous increment).pended = _
      unfold Schedule.delayUntil
      split <;> exact ⟨rfl, rfl⟩
  | resume t =>
      refine .inr ⟨rfl, .inr ?_⟩
      show (s.resume t).now = _ ∧ (s.resume t).pended = _
      unfold Schedule.resume
      split <;> exact ⟨rfl, rfl⟩
  | resumeFromISR t =>
      refine .inr ⟨rfl, .inr ?_⟩
      show (s.resumeFromISR t).now = _ ∧ (s.resumeFromISR t).pended = _
      unfold Schedule.resumeFromISR
      split
      · split <;> exact ⟨rfl, rfl⟩
      · exact ⟨rfl, rfl⟩
  | prioritySet t n =>
      refine .inr ⟨rfl, .inr ?_⟩
      show (s.prioritySet t (clampPriority n)).now = _ ∧
        (s.prioritySet t (clampPriority n)).pended = _
      unfold Schedule.prioritySet
      split <;> exact ⟨rfl, rfl⟩
  | _ => exact .inr ⟨rfl, .inr ⟨rfl, rfl⟩⟩

/-- No tick is lost by that. -/
theorem resumeAll_clock : s.resumeAll.now + s.resumeAll.pended = s.now + s.pended ∧
    s.now ≤ s.resumeAll.now := by
  by_cases h0 : s.suspended - 1 = 0
  · obtain ⟨h1, h2⟩ := resumeAll_now h0
    exact ⟨by omega, by omega⟩
  · rw [resumeAll_nested h0]
    exact ⟨rfl, le_rfl⟩

omit [DecidableEq ε] in
/-- A tick is counted or pended. -/
theorem tick_clock : s.tick.now + s.tick.pended = s.now + s.pended + 1 ∧ s.now ≤ s.tick.now := by
  unfold Schedule.tick
  split
  · exact ⟨Nat.add_right_comm s.now 1 s.pended, Nat.le_succ s.now⟩
  · exact ⟨rfl, le_rfl⟩

/-- The ticks that have been counted, and those that have not yet. -/
theorem next_ticks (idle timer : τ) (s : Schedule τ ε) (e : KernelEvent τ ε) :
    (s.next idle timer e).now + (s.next idle timer e).pended = s.now + s.pended + ticks [e] ∧
      s.now ≤ (s.next idle timer e).now := by
  rcases next_clock idle timer s e with ⟨htick, hnext⟩ | ⟨h0, ⟨h1, h2⟩ | ⟨h1, h2⟩⟩
  · obtain ⟨call, r⟩ := e
    obtain rfl : call = .tick := htick
    rw [hnext]
    exact tick_clock
  · rw [h0, h1, h2]
    exact resumeAll_clock
  · rw [h0, h1, h2]
    exact ⟨rfl, le_rfl⟩

end Schedule

/-- The ticks of a run are those that were counted and those that are pended. -/
theorem scheduled_ticks : (scheduled idle timer priority history).now +
    (scheduled idle timer priority history).pended = ticks history := by
  induction history with
  | nil => rfl
  | cons e past ih =>
      have hnext := (Schedule.next_ticks idle timer (scheduled idle timer priority past) e).1
      rw [ih, ← ticks_cons] at hnext
      exact hnext

section Runs

variable (hfew : Fintype.card (Item τ) < 2 ^ 32) (hne : timer ≠ idle)

include hfew hne

/-- The same of the kernel, which has nothing pended while the scheduler is not suspended. -/
theorem Machine.ticks_eq
    (h : Reaches (Machine.Starts priority) (Machine.Step idle timer) history m) :
    ticks history = (scheduled idle timer priority history).now + m.kernel.xPendedTicks.toNat ∧
      (m.kernel.uxSchedulerSuspended = 0 → m.kernel.xPendedTicks = 0) := by
  have hgood := good_scheduled hfew hne h
  rw [hgood.follows.agrees.xPendedTicks]
  refine ⟨scheduled_ticks.symm, fun hzero ↦ ?_⟩
  have h0 := hgood.follows.suspended_zero.1 hzero
  exact UInt32.toNat.inj (hgood.follows.agrees.xPendedTicks.trans (hgood.regular.caught h0).1)

omit hfew hne [DecidableEq τ] [DecidableEq ε] [Fintype τ] in
/-- The ticks that `xTickCount` and `xNumOfOverflows` have counted. -/
def counted (history : List (KernelEvent τ ε)) (m : Machine τ ε) : Nat :=
  ticks history - m.kernel.xPendedTicks.toNat

/-- The ticks that were counted are the time of the schedule. -/
theorem counted_eq (h : Reaches (Machine.Starts priority) (Machine.Step idle timer) history m) :
    counted history m = (scheduled idle timer priority history).now := by
  have hticks := (Machine.ticks_eq hfew hne h).1
  unfold counted
  omega

/-- **No tick is lost**: those that come while the scheduler is suspended are counted later, and
an overflow of the tick count is counted too. -/
theorem kernel_ticks (h : Reaches (Machine.Starts priority) (Machine.Step idle timer) history m) :
    m.kernel.xTickCount = UInt32.ofNat (counted history m) ∧
      m.kernel.xNumOfOverflows = UInt32.ofNat (counted history m / 2 ^ 32) ∧
      counted history m + m.kernel.xPendedTicks.toNat = ticks history ∧
      (m.kernel.uxSchedulerSuspended = 0 → counted history m = ticks history) := by
  have hgood := good_scheduled hfew hne h
  obtain ⟨hticks, hzero⟩ := Machine.ticks_eq hfew hne h
  rw [counted_eq hfew hne h]
  refine ⟨hgood.follows.agrees.xTickCount, hgood.follows.agrees.xNumOfOverflows,
    hticks.symm, fun h0 ↦ ?_⟩
  rw [hzero h0] at hticks
  exact hticks.symm

omit hfew hne in
theorem kernel_ticks_resumed : ∃ r₁ r₂ r₃ m₃, Reaches (Machine.Starts fun _ ↦ 0)
    (Machine.Step false true) (suspendedTick r₁ r₂ r₃) m₃ ∧ m₃.kernel.xTickCount = 0 ∧
      ∃ r₄ m₄, m₃.Step false true (.resumeAll, r₄) m₄ ∧ m₄.kernel.xTickCount = 1 := by
  obtain ⟨r₁, r₂, r₃, m₃, h3, hpended, r₄, m₄, hstep, hzero⟩ := reaches_suspendedTick
  refine ⟨r₁, r₂, r₃, m₃, h3, ?_, r₄, m₄, hstep, ?_⟩
  · obtain ⟨hcount, -, hsum, -⟩ := kernel_ticks card_bool (by simp) h3
    have hone : counted (suspendedTick r₁ r₂ r₃) m₃ + 1 = 1 := by
      rw [hpended] at hsum
      exact hsum
    rw [hcount, Nat.succ.inj hone]
    rfl
  · obtain ⟨hcount, -, -, hall⟩ := kernel_ticks card_bool (by simp) (h3.step hstep)
    rw [hcount, hall hzero]
    rfl

end Runs

end Stm32F1.Rtos

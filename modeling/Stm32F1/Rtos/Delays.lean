import Stm32F1.Rtos.KernelRuns

/-!
# Delays

A task that is delayed is woken at its tick, neither earlier nor later, whatever happens
meanwhile and even if the tick count overflows; only an event it waits for or
`vTaskSuspend` comes before that.
-/

namespace Stm32F1.Rtos

open Prog

variable {τ ε : Type} [DecidableEq τ] [DecidableEq ε] [Fintype τ] {m m' : Machine τ ε}
  {s s' : Schedule τ ε} {idle timer c : τ} {priority : τ → Priority} {wake : Nat}
  {recent past : List (KernelEvent τ ε)} {e : KernelEvent τ ε}

/-- Delayed, and not on its way to the ready list. -/
structure Schedule.Asleep (s : Schedule τ ε) (c : τ) (wake : Nat) : Prop where
  place : s.place c = .delayed wake
  waiting : s.waiting c ≠ .pending

/-- The task is ready if and only if its time has come. -/
def Schedule.Wakes (s : Schedule τ ε) (c : τ) (wake : Nat) : Prop :=
  s.Asleep c wake ∧ s.now < wake ∨ (∃ p, s.place c = .ready p) ∧ wake ≤ s.now

/-- The task is suspended, its event comes, or it blocks again. -/
def KernelEvent.Moves (c : τ) : KernelEvent τ ε → Prop
  | (.suspend _ t, _) => t = c
  | (.signal _, r) => r = some c
  | (.delay t _, _) | (.delayUntil t _ _, _) | (.wait t _ _, _) => t = c
  | _ => False

namespace Schedule

/-! ## Ticks -/

omit [DecidableEq τ] [DecidableEq ε] [Fintype τ] in
theorem Wakes.congr (h : s.Wakes c wake) (hplace : s'.place c = s.place c)
    (hwaiting : s'.waiting c = s.waiting c) (hnow : s'.now = s.now) : s'.Wakes c wake := by
  unfold Wakes
  rw [hplace, hnow]
  refine h.imp_left fun ⟨hasleep, hlt⟩ ↦ ⟨⟨hplace.trans hasleep.place, ?_⟩, hlt⟩
  rw [hwaiting]
  exact hasleep.waiting

omit [DecidableEq τ] [DecidableEq ε] [Fintype τ] in
theorem Asleep.count (h : s.Asleep c wake) (hpunctual : s.Punctual) : s.count.Wakes c wake := by
  have hplace : s.count.place c =
      if s.place c = .delayed (s.now + 1) then .ready (s.priority c) else s.place c := rfl
  have hwaiting : s.count.waiting c =
      if s.place c = .delayed (s.now + 1) then .nowhere else s.waiting c := rfl
  obtain ⟨hlt, -⟩ := hpunctual c wake h.place
  by_cases hdue : wake = s.now + 1
  · subst hdue
    rw [if_pos h.place] at hplace
    exact .inr ⟨⟨_, hplace⟩, le_rfl⟩
  · have hnot : s.place c ≠ .delayed (s.now + 1) := by
      rw [h.place]
      exact fun heq ↦ hdue (Place.delayed.inj heq)
    rw [if_neg hnot] at hplace hwaiting
    refine .inl ⟨⟨hplace.trans h.place, ?_⟩, ?_⟩
    · rw [hwaiting]
      exact h.waiting
    · show s.now + 1 < wake
      omega

omit [DecidableEq τ] [DecidableEq ε] [Fintype τ] in
theorem Wakes.count (h : s.Wakes c wake) (hpunctual : s.Punctual) : s.count.Wakes c wake := by
  rcases h with ⟨hasleep, -⟩ | ⟨⟨p, hp⟩, hle⟩
  · exact hasleep.count hpunctual
  · exact .inr ⟨Machine.Good.count_ready hp, Nat.le_succ_of_le hle⟩

omit [DecidableEq ε] in
/-- The same for ticks that are made up for. -/
theorem Wakes.counted (h : s.Wakes c wake) (hpunctual : s.Punctual) (i : Nat) :
    (counted^[i] s).Wakes c wake ∧ (counted^[i] s).Punctual := by
  induction i with
  | zero => exact ⟨h, hpunctual⟩
  | succ i ih =>
      rw [Function.iterate_succ_apply']
      exact ⟨(ih.1.count ih.2).congr rfl rfl rfl, ih.2.count⟩

omit [DecidableEq ε] in
theorem Wakes.tick (h : s.Wakes c wake) (hpunctual : s.Punctual) : s.tick.Wakes c wake := by
  unfold Schedule.tick
  split
  · exact (h.count hpunctual).congr rfl rfl rfl
  · exact h.congr rfl rfl rfl

omit [DecidableEq τ] in
theorem Wakes.collect (h : s.Wakes c wake) (hnot : (∃ p, s.place c = .ready p) →
    s.waiting c ≠ .pending) : s.collect.Wakes c wake := by
  have hwaiting : s.waiting c ≠ .pending := by
    rcases h with ⟨hasleep, -⟩ | ⟨hready, -⟩
    · exact hasleep.waiting
    · exact hnot hready
  have hplace : s.collect.place c = s.place c := if_neg hwaiting
  have hsame : s.collect.waiting c = s.waiting c := if_neg hwaiting
  rcases h with ⟨hasleep, hlt⟩ | ⟨hready, hle⟩
  · refine .inl ⟨⟨hplace.trans hasleep.place, ?_⟩, hlt⟩
    rw [hsame]
    exact hwaiting
  · rw [← hplace] at hready
    exact .inr ⟨hready, hle⟩

theorem Wakes.resumeAll (h : s.Wakes c wake) (hsteady : s.Steady idle) :
    s.resumeAll.Wakes c wake := by
  unfold Schedule.resumeAll
  split
  · have hless : Wakes { s with suspended := s.suspended - 1 } c wake := h.congr rfl rfl rfl
    have hcollect : (Schedule.collect { s with suspended := s.suspended - 1 }).Wakes c wake := by
      refine hless.collect ?_
      rintro ⟨p, hp⟩
      have hnowhere : s.waiting c = .nowhere := hsteady.waiting_of_ready hp
      show s.waiting c ≠ .pending
      simp [hnowhere]
    have hpunctual : Punctual { s with suspended := s.suspended - 1 } := hsteady.punctual
    exact (hcollect.counted hpunctual.collect s.pended).1.congr rfl rfl rfl
  · exact h.congr rfl rfl rfl

omit [DecidableEq τ] [DecidableEq ε] [Fintype τ] in
theorem Wakes.created (h : s.Wakes c wake) : s.place c ≠ .absent ∧ s.place c ≠ .suspended := by
  rcases h with ⟨hasleep, -⟩ | ⟨⟨p, hp⟩, -⟩
  · simp [hasleep.place]
  · simp [hp]

end Schedule

/-! ## One event -/

/-- The same task is seen in both. -/
structure Schedule.Same (s s' : Schedule τ ε) (c : τ) : Prop where
  place : s'.place c = s.place c
  waiting : s'.waiting c = s.waiting c
  now : s'.now = s.now

/-- What an event that does not move a task does with it. -/
inductive Schedule.Passes (s s' : Schedule τ ε) (c : τ) : Prop
  | same : s.Same s' c → Passes s s' c
  | ready (p : Priority) : s.place c = .ready p → (∃ q, s'.place c = .ready q) → s'.now = s.now →
      Passes s s' c
  | tick : s.tick.Same s' c → Passes s s' c
  | resumeAll : s.resumeAll.Same s' c → Passes s s' c
  | resumable : s.Resumable c → Passes s s' c
  | absent : s.place c = .absent → Passes s s' c

theorem Machine.Good.passes (h : m.Good idle timer s) (hstep : m.Step idle timer e m')
    (hundisturbed : ¬ e.Moves c) : s.Passes (s.next idle timer e) c := by
  have hput {t : τ} (hne : c ≠ t) (a : Place) : (s.put t a).place c = s.place c :=
    Schedule.put_place_of_ne hne
  have hwait {t : τ} (hne : c ≠ t) (w : Waiting ε) : (s.wait t w).waiting c = s.waiting c :=
    Function.update_of_ne hne ..
  obtain ⟨call, r⟩ := e
  cases call with
  | create t n =>
      by_cases hct : c = t
      · obtain ⟨-, -, hstate, -⟩ := hstep.allowed
        subst hct
        exact .absent (h.follows.stateList_none.1 hstate)
      · exact .same ⟨Function.update_of_ne hct .., rfl, rfl⟩
  | start =>
      have hstop : s.running = false := h.follows.agrees.xSchedulerRunning.symm.trans hstep.allowed
      obtain ⟨hidle, htimer⟩ := (h.regular.stopped hstop).absent
      by_cases hc : s.place c = .absent
      · exact .absent hc
      · have hcidle : c ≠ idle := fun heq ↦ hc (heq ▸ hidle)
        have hctimer : c ≠ timer := fun heq ↦ hc (heq ▸ htimer)
        refine .same ⟨?_, rfl, rfl⟩
        exact (Function.update_of_ne hctimer ..).trans (Function.update_of_ne hcidle ..)
  | tick => exact .tick ⟨rfl, rfl, rfl⟩
  | resumeAll => exact .resumeAll ⟨rfl, rfl, rfl⟩
  | resumeAndYield c' => exact .resumeAll ⟨rfl, rfl, rfl⟩
  | dispatch =>
      refine .same ?_
      cases r with
      | none => exact ⟨rfl, rfl, rfl⟩
      | some t =>
          show s.Same (s.dispatch t) c
          unfold Schedule.dispatch
          split <;> exact ⟨rfl, rfl, rfl⟩
  | signal e =>
      cases r with
      | none => exact .same ⟨rfl, rfl, rfl⟩
      | some t =>
          have hne : c ≠ t := fun heq ↦ hundisturbed (congrArg some heq.symm)
          refine .same ?_
          show s.Same (s.signal t) c
          unfold Schedule.signal
          split
          · exact ⟨hput hne _, hwait hne _, rfl⟩
          · exact ⟨rfl, hwait hne _, rfl⟩
  | delay t n =>
      have hne : c ≠ t := fun heq ↦ hundisturbed heq.symm
      exact .same ⟨hput hne _, rfl, rfl⟩
  | delayUntil t previous increment =>
      have hne : c ≠ t := fun heq ↦ hundisturbed heq.symm
      refine .same ?_
      show s.Same (s.suspendAll.delayUntil t previous increment) c
      unfold Schedule.delayUntil
      split
      · exact ⟨hput hne _, rfl, rfl⟩
      · exact ⟨rfl, rfl, rfl⟩
  | wait t e n =>
      have hne : c ≠ t := fun heq ↦ hundisturbed heq.symm
      exact .same ⟨hput hne _, hwait hne _, rfl⟩
  | suspend c' t =>
      have hne : c ≠ t := fun heq ↦ hundisturbed heq.symm
      exact .same ⟨hput hne _, hwait hne _, rfl⟩
  | resume t =>
      show s.Passes (s.resume t) c
      by_cases hboth : s.current ≠ some t ∧ s.Resumable t
      · by_cases hct : c = t
        · subst hct
          exact .resumable hboth.2
        · unfold Schedule.resume
          rw [if_pos hboth]
          exact .same ⟨hput hct _, hwait hct _, rfl⟩
      · unfold Schedule.resume
        rw [if_neg hboth]
        exact .same ⟨rfl, rfl, rfl⟩
  | resumeFromISR t =>
      show s.Passes (s.resumeFromISR t) c
      by_cases hresumable : s.Resumable t
      · by_cases hct : c = t
        · subst hct
          exact .resumable hresumable
        · unfold Schedule.resumeFromISR
          rw [if_pos hresumable]
          split
          · exact .same ⟨hput hct _, hwait hct _, rfl⟩
          · exact .same ⟨rfl, hwait hct _, rfl⟩
      · unfold Schedule.resumeFromISR
        rw [if_neg hresumable]
        exact .same ⟨rfl, rfl, rfl⟩
  | prioritySet t n =>
      show s.Passes (s.prioritySet t (clampPriority n)) c
      generalize clampPriority n = p
      by_cases hp : s.base t = p
      · unfold Schedule.prioritySet
        rw [if_pos hp]
        exact .same ⟨rfl, rfl, rfl⟩
      · obtain ⟨hother, hself⟩ := Schedule.place_prioritySet h.regular.steady hp
        have hkept : (s.prioritySet t p).waiting = s.waiting ∧ (s.prioritySet t p).now = s.now := by
          unfold Schedule.prioritySet
          rw [if_neg hp]
          exact ⟨rfl, rfl⟩
        have hwaiting := congrFun hkept.1 c
        by_cases hct : c = t
        · subst hct
          rcases hself with ⟨hready, heq⟩ | ⟨-, heq⟩
          · exact .ready _ hready ⟨_, heq⟩ hkept.2
          · exact .same ⟨heq, hwaiting, hkept.2⟩
        · exact .same ⟨hother c hct, hwaiting, hkept.2⟩
  | suspendAll | suspendEnd c' t | yield | missedYield => exact .same ⟨rfl, rfl, rfl⟩

/-- **One event** that does not move a task lets it sleep on, or its time has come and it is
ready. -/
theorem Schedule.Wakes.pass (h : s.Wakes c wake) (hsteady : s.Steady idle) (hpass : s.Passes s' c) :
    s'.Wakes c wake := by
  cases hpass with
  | same hsame => exact h.congr hsame.place hsame.waiting hsame.now
  | ready p hp hready hnow =>
      rcases h with ⟨hasleep, -⟩ | ⟨-, hle⟩
      · exact absurd (hasleep.place.symm.trans hp) (by simp)
      · refine .inr ⟨hready, ?_⟩
        rw [hnow]
        exact hle
  | tick hsame => exact (h.tick hsteady.punctual).congr hsame.place hsame.waiting hsame.now
  | resumeAll hsame => exact (h.resumeAll hsteady).congr hsame.place hsame.waiting hsame.now
  | resumable hresumable => exact absurd hresumable.1 h.created.2
  | absent habsent => exact absurd habsent h.created.1

/-! ## Waiting for good -/

/-- For an event, without a time-out. -/
def Schedule.Held (s : Schedule τ ε) (c : τ) : Prop := s.place c = .suspended ∧
    ∃ e, s.waiting c = .event e

namespace Schedule

omit [DecidableEq τ] [DecidableEq ε] [Fintype τ] in
theorem Held.congr (h : s.Held c) (hplace : s'.place c = s.place c)
    (hwaiting : s'.waiting c = s.waiting c) : s'.Held c := by
  unfold Held
  rw [hplace, hwaiting]
  exact h

omit [DecidableEq τ] [DecidableEq ε] [Fintype τ] in
theorem Held.count (h : s.Held c) : s.count.Held c := by
  have hnot : s.place c ≠ .delayed (s.now + 1) := by simp [h.1]
  exact h.congr (if_neg hnot) (if_neg hnot)

omit [DecidableEq ε] in
theorem Held.counted (h : s.Held c) (i : Nat) : (counted^[i] s).Held c := by
  induction i with
  | zero => exact h
  | succ i ih =>
      rw [Function.iterate_succ_apply']
      exact ih.count.congr rfl rfl

theorem Held.resumeAll (h : s.Held c) : s.resumeAll.Held c := by
  unfold Schedule.resumeAll
  split
  · have hnot : s.waiting c ≠ .pending := by
      obtain ⟨-, e, he⟩ := h
      simp [he]
    have hcollect : (Schedule.collect { s with suspended := s.suspended - 1 }).Held c :=
      h.congr (if_neg hnot) (if_neg hnot)
    exact (hcollect.counted s.pended).congr rfl rfl
  · exact h.congr rfl rfl

theorem Held.pass (h : s.Held c) (hpass : s.Passes s' c) : s'.Held c := by
  cases hpass with
  | same hsame => exact h.congr hsame.place hsame.waiting
  | ready p hp => exact absurd (h.1.symm.trans hp) (by simp)
  | tick hsame =>
      have htick : s.tick.Held c := by
        unfold Schedule.tick
        split
        · exact h.count.congr rfl rfl
        · exact h.congr rfl rfl
      exact htick.congr hsame.place hsame.waiting
  | resumeAll hsame => exact h.resumeAll.congr hsame.place hsame.waiting
  | resumable hresumable =>
      obtain ⟨-, e, he⟩ := h
      exact absurd (he.symm.trans hresumable.2) (by simp)
  | absent habsent => exact absurd (h.1.symm.trans habsent) (by simp)

end Schedule

/-! ## Times are modulo `2 ^ 32` -/

/-- Time is compared modulo `2 ^ 32`. -/
theorem shouldDelay_iff {previous now : Nat} {increment : TickType} (hprevious : previous ≤ now)
    (hsoon : now < previous + 2 ^ 32) :
    shouldDelay (UInt32.ofNat now) (UInt32.ofNat previous)
    (UInt32.ofNat previous + increment) = true ↔
      now < previous + increment.toNat := by
  have hlt := increment.toNat_lt
  have hwake : (UInt32.ofNat previous + increment).toNat = (previous % 2 ^ 32 + increment.toNat) % 2
      ^ 32 := by
    rw [UInt32.toNat_add, UInt32.toNat_ofNat']
  unfold shouldDelay
  simp only [UInt32.lt_iff_toNat_lt, gt_iff_lt, hwake, UInt32.toNat_ofNat']
  split <;> rw [decide_eq_true_iff] <;> omega

theorem toNat_delay {previous now : Nat} {increment : TickType} (hprevious : previous ≤ now)
    (hlater : now < previous + increment.toNat) :
    (UInt32.ofNat previous + increment - UInt32.ofNat now).toNat =
    previous + increment.toNat - now := by
  have hlt := increment.toNat_lt
  rw [UInt32.toNat_sub, UInt32.toNat_add, UInt32.toNat_ofNat', UInt32.toNat_ofNat']
  omega

/-! ## Runs -/

variable {m₀ m₁ : Machine τ ε} {r : Option τ}

section Runs

variable (hfew : Fintype.card (Item τ) < 2 ^ 32) (hne : timer ≠ idle)

include hfew hne

/-- What every event keeps that does not move a task. -/
theorem undisturbed {I : Schedule τ ε → Prop}
    (hkeeps : ∀ s s', s.Steady idle → s.Passes s' c → I s → I s')
    (hpast : Reaches (Machine.Starts priority) (Machine.Step idle timer) past m₀)
    (hrecent : Reaches (fun m ↦ m = m₀) (Machine.Step idle timer) recent m)
    (hundisturbed : ∀ e ∈ recent, ¬ e.Moves c) (h : I (scheduled idle timer priority past)) :
    I (scheduled idle timer priority (recent ++ past)) := by
  induction hrecent with
  | start _ => exact h
  | @step before m₁ m₂ e hbefore hstep ih =>
      obtain ⟨he, hrest⟩ := List.forall_mem_cons.1 hundisturbed
      have hgood := good_scheduled hfew hne (hpast.append hbefore)
      exact hkeeps _ _ hgood.regular.steady (hgood.passes hstep he) (ih hrest)

/-- A task that is to wake at some tick is ready exactly when the ticks have been counted. -/
theorem ready_iff_counted {wake : Nat}
    (hpast : Reaches (Machine.Starts priority) (Machine.Step idle timer) past m₀)
    (hrecent : Reaches (fun m ↦ m = m₀) (Machine.Step idle timer) recent m)
    (hundisturbed : ∀ e ∈ recent, ¬ e.Moves c)
    (h : (scheduled idle timer priority past).Wakes c wake) :
    m.kernel.Ready c ↔ wake + m.kernel.xPendedTicks.toNat ≤ ticks recent + ticks past := by
  have hrun := hpast.append hrecent
  have hgood := good_scheduled hfew hne hrun
  have hwakes :=
    undisturbed hfew hne (fun _ _ hsteady hpass hw ↦ Schedule.Wakes.pass hw hsteady hpass)
    hpast hrecent hundisturbed h
  have hticks := (Machine.ticks_eq hfew hne hrun).1
  rw [ticks_append] at hticks
  rw [hgood.ready_iff]
  rcases hwakes with ⟨hasleep, hlt⟩ | ⟨hready, hle⟩
  · refine iff_of_false ?_ (by omega)
    rintro ⟨p, hp⟩
    exact absurd (hasleep.place.symm.trans hp) (by simp)
  · exact iff_of_true hready (by omega)

omit hfew hne in
/-- A task has blocked; a tick comes, and the call ends. -/
theorem reaches_tick {past : List (KernelEvent Bool Unit)} {m₀ m₁ : Machine Bool Unit}
    {call : Call Bool Unit} {r : Option Bool}
    (h : Reaches (Machine.Starts fun _ ↦ 0) (Machine.Step false true) past m₀)
    (hcall : m₀.Step false true (call, r) m₁)
    (hstays : (scheduled false true (fun _ ↦ 0) ((call, r) :: past)).running = true ∧
      (scheduled false true (fun _ ↦ 0) ((call, r) :: past)).current = some true ∧
      (scheduled false true (fun _ ↦ 0) ((call, r) :: past)).switchPending = false ∧
      (scheduled false true (fun _ ↦ 0) ((call, r) :: past)).pended = 0)
    (hphase : call.phaseAfter m₀.phase true = .blocking) : ∃ r r' m,
      Reaches (fun m ↦ m = m₁) (Machine.Step false true) [(.resumeAndYield true, r'),
      (.tick, r)] m ∧
        m.kernel.xPendedTicks = 0 := by
  have hpast := h.step hcall
  have hgood := good_scheduled card_bool (by simp) hpast
  obtain ⟨hrun, hcurrent, hswitch, hpended⟩ := hstays
  have hruns : m₁.Runs true .blocking := by
    refine hgood.runs_of hrun hcurrent hswitch ?_
    rw [hcall.phase]
    exact hphase
  have hnone : m₁.kernel.xPendedTicks = 0 :=
    UInt32.toNat.inj (hgood.follows.agrees.xPendedTicks.trans hpended)
  generalize ((call, r) :: past : List (KernelEvent Bool Unit)) = past at *
  have hsuspended := (hgood.blocking true hruns.phase).2
  have hallowed : m₁.Allowed false true .tick := by
    refine ⟨hruns.xSchedulerRunning, ?_⟩
    rw [hnone]
    decide
  obtain ⟨r, m₂, hstep⟩ := Machine.goes_on card_bool (by simp) hpast hallowed
  have hgood₂ := good_scheduled card_bool (by simp) (hpast.step hstep)
  have hticked : (scheduled false true (fun _ ↦ 0) past).tick =
      { scheduled false true (fun _ ↦ 0) past with
        pended := (scheduled false true (fun _ ↦ 0) past).pended + 1 } := if_neg (by omega)
  have hruns₂ : m₂.Runs true .blocking := by
    have hfields : (scheduled false true (fun _ ↦ 0) past).tick.running = true ∧
        (scheduled false true (fun _ ↦ 0) past).tick.current = some true ∧
        (scheduled false true (fun _ ↦ 0) past).tick.switchPending = false := by
      rw [hticked]
      exact ⟨hrun, hcurrent, hswitch⟩
    refine hgood₂.runs_of hfields.1 hfields.2.1 hfields.2.2 ?_
    rw [hstep.phase]
    exact hruns.phase
  have hallowed' : m₂.Allowed false true (.resumeAndYield true) := hruns₂
  obtain ⟨r', m₃, hstep'⟩ := Machine.goes_on card_bool (by simp) (hpast.step hstep) hallowed'
  have hrecent : Reaches (fun m ↦ m = m₁) (Machine.Step false true) [] m₁ := .start rfl
  have hrun := (hpast.step hstep).step hstep'
  refine ⟨r, r', m₃, (hrecent.step hstep).step hstep',
    (Machine.ticks_eq card_bool (by simp) hrun).2 ?_⟩
  refine (good_scheduled card_bool (by simp) hrun).follows.suspended_zero.2 ?_
  have hone : (scheduled false true (fun _ ↦ 0) ((.tick, r) :: past)).suspended - 1 = 0 := by
    rw [(hgood₂.blocking true hruns₂.phase).2]
  show (scheduled false true (fun _ ↦ 0) ((.tick, r) :: past)).resumeAll.suspended = 0
  unfold Schedule.resumeAll
  rw [if_pos hone]
  exact (Kernel.Follows.counted_kept _).2.1.trans hone

/-- **`vTaskDelay` delays by as many ticks as it says**, whatever happens meanwhile. -/
theorem vTaskDelay_wakes {n : TickType}
    (hpast : Reaches (Machine.Starts priority) (Machine.Step idle timer) past m₀)
    (hcall : m₀.Step idle timer (.delay c n, r) m₁)
    (hrecent : Reaches (fun m ↦ m = m₁) (Machine.Step idle timer) recent m)
    (hundisturbed : ∀ e ∈ recent, ¬ e.Moves c) :
    m.kernel.Ready c ↔ n.toNat + m.kernel.xPendedTicks.toNat ≤ ticks recent := by
  have hgood := good_scheduled hfew hne hpast
  obtain ⟨hruns, -, hzero, hn⟩ := hcall.allowed
  obtain ⟨hticks, hnone⟩ := Machine.ticks_eq hfew hne hpast
  rw [hnone hzero] at hticks
  have hready := hgood.ready hruns
  have hwaiting := hgood.regular.steady.waiting_of_ready hready
  have hlong : 0 < n.toNat := hn
  have hwakes : (scheduled idle timer priority ((.delay c n, r) :: past)).Wakes c
      ((scheduled idle timer priority past).now + n.toNat) := by
    refine .inl ⟨⟨?_, ?_⟩, Nat.lt_add_of_pos_right hlong⟩
    · exact Schedule.put_place_self.trans (if_neg (by simp))
    · show (scheduled idle timer priority past).waiting c ≠ .pending
      simp [hwaiting]
  rw [ready_iff_counted hfew hne (hpast.step hcall) hrecent hundisturbed hwakes]
  have hcons : ticks ((.delay c n, r) :: past) = ticks past := ticks_cons ..
  rw [hcons, hticks]
  have hnil : (0 : TickType).toNat = 0 := rfl
  omega

omit hfew hne in
theorem vTaskDelay_wakes_tick : ∃ r₁ r₂ r₃ r₄ m, Reaches (Machine.Starts fun _ ↦ 0)
      (Machine.Step false true) [((.resumeAndYield true : Call Bool Unit), r₄), (.tick, r₃),
        (.delay true 1, r₂), (.start, r₁)] m ∧ m.kernel.Ready true := by
  obtain ⟨r₁, m₁, h1, hruns⟩ := reaches_started
  have hfollows := (good_scheduled card_bool (by simp) h1).follows
  have hallowed : m₁.Allowed false true (.delay true 1) :=
    ⟨hruns, by simp, hfollows.suspended_zero.2 rfl, by decide⟩
  obtain ⟨r₂, m₂, hcall⟩ := Machine.goes_on card_bool (by simp) h1 hallowed
  obtain ⟨r₃, r₄, m, hrecent, hpended⟩ := reaches_tick h1 hcall ⟨rfl, rfl, rfl, rfl⟩ rfl
  have hwakes := vTaskDelay_wakes card_bool (by simp) h1 hcall hrecent (by simp [KernelEvent.Moves])
  rw [hpended] at hwakes
  exact ⟨r₁, r₂, r₃, r₄, m, (h1.step hcall).append hrecent, hwakes.2 (by simp [ticks])⟩

/-- **`xTaskDelayUntil` delays until the previous wake time and the increment**, also if the tick
count overflows in between, and not at all if that time is over. -/
theorem xTaskDelayUntil_wakes {previous : Nat} {increment : TickType}
    (hpast : Reaches (Machine.Starts priority) (Machine.Step idle timer) past m₀)
    (hcall : m₀.Step idle timer (.delayUntil c (UInt32.ofNat previous) increment, r) m₁)
    (hprevious : previous ≤ ticks past) (hsoon : ticks past < previous + 2 ^ 32)
    (hrecent : Reaches (fun m ↦ m = m₁) (Machine.Step idle timer) recent m)
    (hundisturbed : ∀ e ∈ recent, ¬ e.Moves c) :
    m.kernel.Ready c ↔
      previous + increment.toNat + m.kernel.xPendedTicks.toNat ≤ ticks past + ticks recent := by
  have hgood := good_scheduled hfew hne hpast
  obtain ⟨hruns, -, hzero⟩ := hcall.allowed
  obtain ⟨hticks, hnone⟩ := Machine.ticks_eq hfew hne hpast
  rw [hnone hzero] at hticks
  have hready := hgood.ready hruns
  have hwaiting := hgood.regular.steady.waiting_of_ready hready
  have hnow : ticks past = (scheduled idle timer priority past).now := hticks
  have hwakes : (scheduled idle timer priority
      ((.delayUntil c (UInt32.ofNat previous) increment, r) :: past)).Wakes c
        (previous + increment.toNat) := by
    show ((scheduled idle timer priority past).suspendAll.delayUntil c _ increment).Wakes c _
    have hnow' : (scheduled idle timer priority past).suspendAll.now = ticks past := hnow.symm
    unfold Schedule.delayUntil
    rw [hnow']
    split
    · next hshould =>
        have hlater := (shouldDelay_iff hprevious hsoon).1 hshould
        have hwake :
          ticks past + (UInt32.ofNat previous + increment - UInt32.ofNat (ticks past)).toNat =
            previous + increment.toNat := by
          rw [toNat_delay hprevious hlater]
          omega
        refine .inl ⟨⟨?_, ?_⟩, ?_⟩
        · rw [← hwake, ← hnow']
          exact Schedule.put_place_self.trans (if_neg (by simp))
        · show (scheduled idle timer priority past).waiting c ≠ .pending
          simp [hwaiting]
        · show (scheduled idle timer priority past).now < _
          rw [← hnow]
          exact hlater
    · next hshould =>
        have hover := (shouldDelay_iff hprevious hsoon).not.1 hshould
        refine .inr ⟨⟨_, hready⟩, ?_⟩
        show _ ≤ (scheduled idle timer priority past).now
        omega
  rw [ready_iff_counted hfew hne (hpast.step hcall) hrecent hundisturbed hwakes]
  have hcons : ticks ((.delayUntil c (UInt32.ofNat previous) increment, r) :: past) = ticks past :=
    ticks_cons ..
  rw [hcons]
  omega

omit hfew hne in
theorem xTaskDelayUntil_wakes_tick : ∃ r₁ r₂ r₃ r₄ m, Reaches (Machine.Starts fun _ ↦ 0)
      (Machine.Step false true) [((.resumeAndYield true : Call Bool Unit), r₄), (.tick, r₃),
        (.delayUntil true 0 1, r₂), (.start, r₁)] m ∧ m.kernel.Ready true := by
  obtain ⟨r₁, m₁, h1, hruns⟩ := reaches_started
  have hfollows := (good_scheduled card_bool (by simp) h1).follows
  have hallowed : m₁.Allowed false true (.delayUntil true (UInt32.ofNat 0) 1) :=
    ⟨hruns, by simp, hfollows.suspended_zero.2 rfl⟩
  obtain ⟨r₂, m₂, hcall⟩ := Machine.goes_on card_bool (by simp) h1 hallowed
  obtain ⟨r₃, r₄, m, hrecent, hpended⟩ := reaches_tick h1 hcall ⟨rfl, rfl, rfl, rfl⟩ rfl
  have hwakes := xTaskDelayUntil_wakes card_bool (by simp) h1 hcall (Nat.zero_le _)
    (by simp [ticks]) hrecent (by simp [KernelEvent.Moves])
  rw [hpended] at hwakes
  exact ⟨r₁, r₂, r₃, r₄, m, (h1.step hcall).append hrecent, hwakes.2 (by simp [ticks])⟩

/-- **`vTaskPlaceOnEventList`**: until its event comes, the task is ready exactly when the time-out
is over; without a time-out it is not even readied by `vTaskResume`. -/
theorem vTaskPlaceOnEventList_wakes {n : TickType} {e : ε}
    (hpast : Reaches (Machine.Starts priority) (Machine.Step idle timer) past m₀)
    (hcall : m₀.Step idle timer (.wait c e n, r) m₁)
    (hrecent : Reaches (fun m ↦ m = m₁) (Machine.Step idle timer) recent m)
    (hundisturbed : ∀ e ∈ recent, ¬ e.Moves c) :
    m.kernel.Ready c ↔ n ≠ portMAX_DELAY ∧
      n.toNat + m.kernel.xPendedTicks.toNat ≤ ticks recent + m₀.kernel.xPendedTicks.toNat := by
  have hgood := good_scheduled hfew hne hpast
  obtain ⟨hruns, -, -, hn⟩ := hcall.allowed
  obtain ⟨hticks, -⟩ := Machine.ticks_eq hfew hne hpast
  have hlong : 0 < n.toNat := hn
  have hwaiting : (scheduled idle timer priority ((.wait c e n, r) :: past)).waiting c = .event e :=
    Schedule.wait_waiting_self
  have hplace : (scheduled idle timer priority ((.wait c e n, r) :: past)).place c =
      if n = portMAX_DELAY ∧ true = true then .suspended
      else .delayed ((scheduled idle timer priority past).now + n.toNat) := Schedule.put_place_self
  by_cases hmax : n = portMAX_DELAY
  · rw [if_pos ⟨hmax, rfl⟩] at hplace
    have hheld := undisturbed hfew hne (fun _ _ _ hpass hheld ↦ Schedule.Held.pass hheld hpass)
      (hpast.step hcall) hrecent hundisturbed ⟨hplace, e, hwaiting⟩
    have hgood' := good_scheduled hfew hne ((hpast.step hcall).append hrecent)
    refine iff_of_false ?_ fun h ↦ h.1 hmax
    rw [hgood'.ready_iff]
    rintro ⟨p, hp⟩
    exact absurd (hheld.1.symm.trans hp) (by simp)
  · rw [if_neg fun h ↦ hmax h.1] at hplace
    have hwakes : (scheduled idle timer priority ((.wait c e n, r) :: past)).Wakes c
        ((scheduled idle timer priority past).now + n.toNat) :=
      .inl ⟨⟨hplace, by simp [hwaiting]⟩, Nat.lt_add_of_pos_right hlong⟩
    rw [ready_iff_counted hfew hne (hpast.step hcall) hrecent hundisturbed hwakes]
    have hcons : ticks ((.wait c e n, r) :: past) = ticks past := ticks_cons ..
    rw [hcons, hticks, and_iff_right hmax]
    omega

omit hfew hne in
theorem vTaskPlaceOnEventList_wakes_tick : ∃ r₁ r₂ r₃ r₄ r₅ m, Reaches (Machine.Starts fun _ ↦ 0)
      (Machine.Step false true) [((.resumeAndYield true : Call Bool Unit), r₅), (.tick, r₄),
        (.wait true () 1, r₃), (.suspendAll, r₂), (.start, r₁)] m ∧ m.kernel.Ready true := by
  obtain ⟨r₁, m₁, h1, hruns⟩ := reaches_started
  have hfollows := (good_scheduled card_bool (by simp) h1).follows
  have hsuspend : m₁.Allowed false true .suspendAll := by
    refine ⟨⟨true, hruns⟩, ?_⟩
    rw [hfollows.suspended_zero.2 rfl]
    decide
  obtain ⟨r₂, m₂, hstep⟩ := Machine.goes_on card_bool (by simp) h1 hsuspend
  have h2 := h1.step hstep
  have hgood := good_scheduled card_bool (by simp) h2
  have hruns₂ : m₂.Runs true .running := by
    refine hgood.runs_of rfl rfl rfl ?_
    rw [hstep.phase]
    exact hruns.phase
  have hone : m₂.kernel.uxSchedulerSuspended = 1 :=
    UInt32.toNat.inj hgood.follows.agrees.uxSchedulerSuspended
  have hallowed : m₂.Allowed false true (.wait true () 1) := ⟨hruns₂, by simp, hone, by decide⟩
  obtain ⟨r₃, m₃, hcall⟩ := Machine.goes_on card_bool (by simp) h2 hallowed
  obtain ⟨r₄, r₅, m, hrecent, hpended⟩ := reaches_tick h2 hcall ⟨rfl, rfl, rfl, rfl⟩ rfl
  have hwakes := vTaskPlaceOnEventList_wakes card_bool (by simp) h2 hcall hrecent
    (by simp [KernelEvent.Moves])
  rw [hpended] at hwakes
  refine ⟨r₁, r₂, r₃, r₄, r₅, m, (h2.step hcall).append hrecent, hwakes.2 ⟨by decide, ?_⟩⟩
  exact (by simp [ticks] : (1 : TickType).toNat + (0 : TickType).toNat ≤ _).trans
    (Nat.le_add_right _ _)

/-! ## Time-outs -/

/-- The time-out has been set at tick `T`. -/
def TimeOut_t.SetAt (pxTimeOut : TimeOut_t) (T : Nat) : Prop :=
  pxTimeOut = ⟨UInt32.ofNat (T / 2 ^ 32), UInt32.ofNat T⟩

omit [Fintype τ] [DecidableEq τ] [DecidableEq ε] hfew hne in
theorem xTaskCheckForTimeOut_eq (pxTimeOut : TimeOut_t) (pxTicksToWait : TickType)
    (k : Kernel τ ε) :
    xTaskCheckForTimeOut pxTimeOut pxTicksToWait k = some
      (if pxTicksToWait = portMAX_DELAY then (false, pxTimeOut, pxTicksToWait)
      else if k.xNumOfOverflows ≠ pxTimeOut.xOverflowCount ∧
          k.xTickCount ≥ pxTimeOut.xTimeOnEntering then (true, pxTimeOut, 0)
      else if k.xTickCount - pxTimeOut.xTimeOnEntering < pxTicksToWait then
        (false, ⟨k.xNumOfOverflows, k.xTickCount⟩,
          pxTicksToWait - (k.xTickCount - pxTimeOut.xTimeOnEntering))
      else (true, pxTimeOut, 0), k) := by
  unfold xTaskCheckForTimeOut
  simp only [bind_apply, read_apply, Option.bind_some]
  split
  · rfl
  · split
    · rfl
    · split <;> rfl

omit [Fintype τ] [DecidableEq τ] [DecidableEq ε] hfew hne in
/-- Within `2 ^ 32` ticks the check is exact, and the deadline stays the same. -/
theorem TimeOut_t.SetAt.check {k : Kernel τ ε} {pxTimeOut : TimeOut_t} {T N : Nat}
    {pxTicksToWait : TickType} (h : pxTimeOut.SetAt T) (hcount : k.xTickCount = UInt32.ofNat N)
    (hoverflows : k.xNumOfOverflows = UInt32.ofNat (N / 2 ^ 32)) (hle : T ≤ N)
    (hsoon : N < T + 2 ^ 32) (hwait : pxTicksToWait ≠ portMAX_DELAY) : ∃ x W,
      xTaskCheckForTimeOut pxTimeOut pxTicksToWait k =
          some ((decide (T + pxTicksToWait.toNat ≤ N), x, W), k) ∧
        (N < T + pxTicksToWait.toNat → x.SetAt N ∧ N + W.toNat = T + pxTicksToWait.toNat) := by
  have hbound := pxTicksToWait.toNat_lt
  have helapsed : (UInt32.ofNat N - UInt32.ofNat T).toNat = N - T := by
    rw [UInt32.toNat_sub, UInt32.toNat_ofNat', UInt32.toNat_ofNat']
    omega
  have hnot : ¬ (UInt32.ofNat (N / 2 ^ 32) ≠ UInt32.ofNat (T / 2 ^ 32) ∧
      UInt32.ofNat N ≥ UInt32.ofNat T) := by
    rintro ⟨hne, hge⟩
    rw [ge_iff_le, UInt32.le_iff_toNat_le, UInt32.toNat_ofNat', UInt32.toNat_ofNat'] at hge
    have hsame : N / 2 ^ 32 = T / 2 ^ 32 := by omega
    exact hne (congrArg UInt32.ofNat hsame)
  unfold TimeOut_t.SetAt at h
  subst h
  rw [xTaskCheckForTimeOut_eq, if_neg hwait, hcount, hoverflows, if_neg hnot]
  by_cases hearly : N < T + pxTicksToWait.toNat
  · have hless : UInt32.ofNat N - UInt32.ofNat T < pxTicksToWait := by
      rw [UInt32.lt_iff_toNat_lt, helapsed]
      omega
    have hfalse : decide (T + pxTicksToWait.toNat ≤ N) = false := decide_eq_false (by omega)
    rw [if_pos hless, hfalse]
    refine ⟨_, _, rfl, fun _ ↦ ⟨rfl, ?_⟩⟩
    rw [UInt32.toNat_sub_of_le _ _ (UInt32.le_of_lt hless), helapsed]
    omega
  · have hless : ¬ UInt32.ofNat N - UInt32.ofNat T < pxTicksToWait := by
      rw [UInt32.lt_iff_toNat_lt, helapsed]
      omega
    have htrue : decide (T + pxTicksToWait.toNat ≤ N) = true := decide_eq_true (by omega)
    rw [if_neg hless, htrue]
    exact ⟨_, _, rfl, fun h ↦ absurd h hearly⟩

/-- A task waits until a deadline, as the queues do: it sets the time-out, and whenever it is awake
again, it checks and goes on with what is left, each time within `2 ^ 32` ticks. -/
inductive Waits (idle timer : τ) (priority : τ → Priority) (deadline : Nat) :
    List (KernelEvent τ ε) → Machine τ ε → TimeOut_t → TickType → Prop
  | set {history : List (KernelEvent τ ε)} {m : Machine τ ε} {x : TimeOut_t} {W : TickType} :
      Reaches (Machine.Starts priority) (Machine.Step idle timer) history m →
      vTaskSetTimeOutState m.kernel = some (x, m.kernel) → W ≠ portMAX_DELAY →
      counted history m + W.toNat = deadline → Waits idle timer priority deadline history m x W
  | check {past recent : List (KernelEvent τ ε)} {m₀ m : Machine τ ε} {x x' : TimeOut_t}
      {W W' : TickType} :
      Waits idle timer priority deadline past m₀ x W →
      Reaches (fun m ↦ m = m₀) (Machine.Step idle timer) recent m →
      counted (recent ++ past) m < counted past m₀ + 2 ^ 32 →
      xTaskCheckForTimeOut x W m.kernel = some ((false, x', W'), m.kernel) →
      Waits idle timer priority deadline (recent ++ past) m x' W'

theorem counted_le {past recent : List (KernelEvent τ ε)}
    (hpast : Reaches (Machine.Starts priority) (Machine.Step idle timer) past m₀)
    (hrecent : Reaches (fun m ↦ m = m₀) (Machine.Step idle timer) recent m) :
    counted past m₀ ≤ counted (recent ++ past) m := by
  rw [counted_eq hfew hne hpast, counted_eq hfew hne (hpast.append hrecent)]
  clear hrecent
  induction recent with
  | nil => exact le_rfl
  | cons e recent ih => exact ih.trans (Schedule.next_ticks idle timer _ e).2

theorem Waits.setAt {deadline : Nat} {x : TimeOut_t} {W : TickType}
    (h : Waits idle timer priority deadline past m x W) :
    Reaches (Machine.Starts priority) (Machine.Step idle timer) past m ∧
      x.SetAt (counted past m) ∧ counted past m + W.toNat = deadline ∧ W ≠ portMAX_DELAY := by
  induction h with
  | @set history m x W hrun hset hW hdeadline =>
      obtain ⟨hcount, hoverflows, -⟩ := kernel_ticks hfew hne hrun
      refine ⟨hrun, ?_, hdeadline, hW⟩
      obtain rfl : ⟨m.kernel.xNumOfOverflows, m.kernel.xTickCount⟩ = x :=
        congrArg Prod.fst (Option.some.inj hset)
      rw [hcount, hoverflows]
      rfl
  | @check past recent m₀ m x x' W W' _ hrecent hsoon hcheck ih =>
      obtain ⟨hpast, hsetAt, hdeadline, hW⟩ := ih
      have hrun := hpast.append hrecent
      obtain ⟨hcount, hoverflows, -⟩ := kernel_ticks hfew hne hrun
      have hle := counted_le hfew hne hpast hrecent
      obtain ⟨y, V, heq, hnext⟩ := hsetAt.check hcount hoverflows hle hsoon hW
      obtain ⟨hearly, rfl, rfl⟩ : counted (recent ++ past) m < counted past m₀ + W.toNat ∧
          x' = y ∧ W' = V := by
        simpa using hcheck.symm.trans heq
      obtain ⟨hsetAt', hsum⟩ := hnext hearly
      refine ⟨hrun, hsetAt', hsum.trans hdeadline, ?_⟩
      rintro rfl
      -- what is left is at most what there was
      have hless : portMAX_DELAY.toNat ≤ W.toNat := by omega
      exact hW (UInt32.toNat.inj (le_antisymm (Nat.le_of_lt_succ W.toNat_lt) hless))

/-- **A deadline is kept to**, however often the task wakes up in between: the time is over exactly
when the deadline has come, and until then what is left is what there is to the deadline. -/
theorem xTaskCheckForTimeOut_exact {deadline : Nat} {x : TimeOut_t} {W : TickType}
    (h : Waits idle timer priority deadline past m₀ x W)
    (hrecent : Reaches (fun m ↦ m = m₀) (Machine.Step idle timer) recent m)
    (hsoon : counted (recent ++ past) m < counted past m₀ + 2 ^ 32) : ∃ x' W',
      xTaskCheckForTimeOut x W m.kernel =
          some ((decide (deadline ≤ counted (recent ++ past) m), x', W'), m.kernel) ∧
        (counted (recent ++ past) m < deadline →
          counted (recent ++ past) m + W'.toNat = deadline) := by
  obtain ⟨hpast, hsetAt, rfl, hW⟩ := h.setAt hfew hne
  obtain ⟨hcount, hoverflows, -⟩ := kernel_ticks hfew hne (hpast.append hrecent)
  have hle := counted_le hfew hne hpast hrecent
  obtain ⟨x', W', heq, hnext⟩ := hsetAt.check hcount hoverflows hle hsoon hW
  exact ⟨x', W', heq, fun hearly ↦ (hnext hearly).2⟩

omit hfew hne in
/-- One of two ticks is over. -/
theorem xTaskCheckForTimeOut_exact_tick :
    ∃ (m : Machine Bool Unit) (x x' : TimeOut_t) (W' : TickType),
    xTaskCheckForTimeOut x 2 m.kernel = some ((false, x', W'), m.kernel) ∧ W'.toNat = 1 := by
  obtain ⟨r₁, m₁, h1, hruns⟩ := reaches_started
  have hfollows := (good_scheduled card_bool (by simp) h1).follows
  have hnone : m₁.kernel.xPendedTicks = 0 := UInt32.toNat.inj hfollows.agrees.xPendedTicks
  have hallowed : m₁.Allowed false true .tick := by
    refine ⟨hruns.xSchedulerRunning, ?_⟩
    rw [hnone]
    decide
  obtain ⟨r₂, m₂, hstep⟩ := Machine.goes_on card_bool (by simp) h1 hallowed
  have hrecent : Reaches (fun m ↦ m = m₁) (Machine.Step false true) [(.tick, r₂)] m₂ :=
    (Reaches.start rfl : Reaches (fun m ↦ m = m₁) _ [] m₁).step hstep
  have hzero : counted [((.start : Call Bool Unit), r₁)] m₁ = 0 := Nat.zero_sub _
  have hone : counted ([(.tick, r₂)] ++ [((.start : Call Bool Unit), r₁)]) m₂ = 1 := by
    rw [counted_eq card_bool (by simp) (h1.append hrecent)]
    rfl
  have hset : Waits false true (fun _ ↦ 0) 2 [(.start, r₁)] m₁
      ⟨m₁.kernel.xNumOfOverflows, m₁.kernel.xTickCount⟩ 2 :=
    .set h1 rfl (by decide) (by rw [hzero]; rfl)
  obtain ⟨x', W', heq, hleft⟩ := xTaskCheckForTimeOut_exact card_bool (by simp) hset hrecent
    (by rw [hzero, hone]; decide)
  rw [hone] at heq hleft
  refine ⟨m₂, _, x', W', heq, ?_⟩
  have := hleft (by decide)
  omega

end Runs

end Stm32F1.Rtos

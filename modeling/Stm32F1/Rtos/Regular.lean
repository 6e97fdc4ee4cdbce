import Stm32F1.Rtos.Schedule

/-!
# What the scheduler can rely on

A task that is ready is so with its own priority and waits for nothing; the idle task is
always ready; when the scheduler is not suspended, nothing is left to be made up for.
Whenever a task of a higher priority than the current one is ready, a context switch has
been requested.
-/

namespace Stm32F1.Rtos

namespace Schedule

variable {τ ε : Type}

/-- Priorities, times and events fit where the tasks are; the idle task is always ready. -/
structure Steady (idle : τ) (s : Schedule τ ε) : Prop where
  ready : ∀ t p, s.place t = .ready p → p = s.priority t
  punctual : s.Punctual
  waiting : ∀ t, s.waiting t ≠ .nowhere → s.place t ≠ .absent ∧ ∀ p, s.place t ≠ .ready p
  created : ∀ c, s.current = some c → s.place c ≠ .absent
  idle : s.running = true → s.current ≠ none ∧ ∃ p, s.place idle = .ready p

/-- A context switch has been requested if it is due. -/
def Highest (s : Schedule τ ε) : Prop := s.switchPending = true ∨ s.yieldPending = true ∨
  ∀ t p, s.place t = .ready p → p ≤ s.level

/-- Before the scheduler runs, there are only tasks that are ready. -/
structure Stopped (idle timer : τ) (s : Schedule τ ε) : Prop where
  now : s.now = 0
  suspended : s.suspended = 0
  waiting : ∀ t, s.waiting t = .nowhere
  place : ∀ t, s.place t = .absent ∨ ∃ p, s.place t = .ready p
  absent : s.place idle = .absent ∧ s.place timer = .absent
  switchPending : s.switchPending = false
  current : ∀ c, s.current = some c → ∃ p, s.place c = .ready p

/-- Nothing is left to be made up for. -/
def Caught (s : Schedule τ ε) : Prop := s.suspended = 0 → s.pended = 0 ∧ ∀ t, s.waiting t ≠ .pending

/-- What holds of a schedule before the scheduler runs, and what holds then. -/
structure Regular (idle timer : τ) (s : Schedule τ ε) : Prop where
  steady : s.Steady idle
  caught : s.Caught
  stopped : s.running = false → s.Stopped idle timer
  highest : s.running = true → s.Highest

variable {s s' : Schedule τ ε} {idle timer t u c : τ} {p q : Priority} {a : Place} {w : Waiting ε}
  {n : TickType}

/-- A task that is pending is not ready yet. -/
theorem Steady.held (h : s.Steady idle) (t : τ) (ht : s.waiting t = .pending) :
    s.place t ≠ .absent ∧ ∀ p, s.place t ≠ .ready p :=
  h.waiting t (by simp [ht])

/-- A task that is ready waits for nothing. -/
theorem Steady.waiting_of_ready (h : s.Steady idle) (ht : s.place t = .ready p) :
    s.waiting t = .nowhere := by
  by_contra hne
  exact (h.waiting t hne).2 p ht

/-- Only some fields matter. -/
theorem Steady.congr (h : s.Steady idle) (hplace : s'.place = s.place)
    (hwaiting : s'.waiting = s.waiting)
    (hpriority : s'.priority = s.priority) (hnow : s'.now = s.now)
    (hcurrent : s'.current = s.current) (hrunning : s'.running = s.running) : s'.Steady idle := by
  obtain ⟨ready, punctual, waiting, created, hidle⟩ := h
  refine ⟨?_, ?_, ?_, ?_, ?_⟩
  · rw [hplace, hpriority]
    exact ready
  · unfold Punctual
    rw [hplace, hnow]
    exact punctual
  · rw [hplace, hwaiting]
    exact waiting
  · rw [hplace, hcurrent]
    exact created
  · rw [hplace, hcurrent, hrunning]
    exact hidle

/-- Fewer tasks are ready, and what was requested still is. -/
theorem Highest.congr (h : s.Highest) (hplace : ∀ t p, s'.place t = .ready p → s.place t = .ready p)
    (hlevel : s'.level = s.level) (hswitch : s.switchPending = true → s'.switchPending = true)
    (hyield : s.yieldPending = true → s'.yieldPending = true) : s'.Highest := by
  rcases h with hs | hy | hall
  · exact .inl (hswitch hs)
  · exact .inr (.inl (hyield hy))
  · refine .inr (.inr fun t p ht ↦ ?_)
    rw [hlevel]
    exact hall t p (hplace t p ht)

/-- Some tasks become ready; if one has a higher priority than the current one, that is noted. -/
theorem Highest.wake (h : s.Highest) (hlevel : s'.level = s.level)
    (hplace : ∀ t p, s'.place t = .ready p → s.place t = .ready p ∨
      (s.level < p → s'.switchPending = true ∨ s'.yieldPending = true))
    (hswitch : s.switchPending = true → s'.switchPending = true)
    (hyield : s.yieldPending = true → s'.yieldPending = true) : s'.Highest := by
  by_cases hflag : s'.switchPending = true ∨ s'.yieldPending = true
  · rcases hflag with hs | hy
    · exact .inl hs
    · exact .inr (.inl hy)
  · refine .inr (.inr fun t p ht ↦ ?_)
    rw [hlevel]
    rcases hplace t p ht with hold | hnew
    · rcases h with hs | hy | hall
      · exact absurd (.inl (hswitch hs)) hflag
      · exact absurd (.inr (hyield hy)) hflag
      · exact hall t p hold
    · exact not_lt.1 fun hlt ↦ hflag (hnew hlt)

variable [DecidableEq τ]

/-! ## One task -/

/-- A task that exists becomes ready. -/
theorem Steady.toReady (h : s.Steady idle) (ht : s.place t ≠ .absent) :
    (s.toReady t).Steady idle := by
  have hself : (s.toReady t).place t = .ready (s.priority t) := put_place_self
  have hother {u : τ} (hu : u ≠ t) : (s.toReady t).place u = s.place u := put_place_of_ne hu
  refine ⟨?_, ?_, ?_, ?_, ?_⟩
  · intro u p hu
    by_cases hut : u = t
    · subst hut
      rw [hself] at hu
      exact (Place.ready.inj hu).symm
    · rw [hother hut] at hu
      exact h.ready u p hu
  · intro u wake hu
    by_cases hut : u = t
    · subst hut
      rw [hself] at hu
      exact absurd hu (by simp)
    · rw [hother hut] at hu
      exact h.punctual u wake hu
  · intro u hu
    by_cases hut : u = t
    · subst hut
      exact absurd wait_waiting_self hu
    · rw [hother hut]
      refine h.waiting u ?_
      have hsame : (s.toReady t).waiting u = s.waiting u := Function.update_of_ne hut ..
      rwa [hsame] at hu
  · intro c hc
    by_cases hct : c = t
    · subst hct
      rw [hself]
      simp
    · rw [hother hct]
      exact h.created c hc
  · intro hrun
    obtain ⟨hcurrent, p, hp⟩ := h.idle hrun
    refine ⟨hcurrent, ?_⟩
    by_cases hit : idle = t
    · rw [hit]
      exact ⟨_, hself⟩
    · rw [hother hit]
      exact ⟨p, hp⟩

/-- A task other than the idle one goes where it is not ready. -/
theorem Steady.leave (h : s.Steady idle) (ht : t ≠ idle) (ha : a ≠ .absent ∧ ∀ p, a ≠ .ready p)
    (hwake : ∀ wake, a = .delayed wake → s.now < wake ∧ wake < s.now + 2 ^ 32) (w : Waiting ε) :
    ((s.wait t w).put t a).Steady idle := by
  have hself : ((s.wait t w).put t a).place t = a := put_place_self
  have hother {u : τ} (hu : u ≠ t) : ((s.wait t w).put t a).place u = s.place u :=
    put_place_of_ne hu
  refine ⟨?_, ?_, ?_, ?_, ?_⟩
  · intro u p hu
    by_cases hut : u = t
    · subst hut
      rw [hself] at hu
      exact absurd hu (ha.2 p)
    · rw [hother hut] at hu
      exact h.ready u p hu
  · intro u wake hu
    by_cases hut : u = t
    · subst hut
      rw [hself] at hu
      exact hwake wake hu
    · rw [hother hut] at hu
      exact h.punctual u wake hu
  · intro u hu
    by_cases hut : u = t
    · subst hut
      rw [hself]
      exact ha
    · rw [hother hut]
      refine h.waiting u ?_
      have hsame : ((s.wait t w).put t a).waiting u = s.waiting u := Function.update_of_ne hut ..
      rwa [hsame] at hu
  · intro c hc
    by_cases hct : c = t
    · subst hct
      rw [hself]
      exact ha.1
    · rw [hother hct]
      exact h.created c hc
  · intro hrun
    obtain ⟨hcurrent, p, hp⟩ := h.idle hrun
    refine ⟨hcurrent, p, ?_⟩
    rw [hother ht.symm]
    exact hp

/-- A task that is not ready may wait for something else. -/
theorem Steady.hold (h : s.Steady idle) (ht : s.place t ≠ .absent ∧ ∀ p, s.place t ≠ .ready p)
    (w : Waiting ε) : (s.wait t w).Steady idle := by
  refine ⟨h.ready, h.punctual, ?_, h.created, h.idle⟩
  intro u hu
  by_cases hut : u = t
  · subst hut
    exact ht
  · refine h.waiting u ?_
    have hsame : (s.wait t w).waiting u = s.waiting u := Function.update_of_ne hut ..
    rwa [hsame] at hu

/-! ## Many tasks -/

omit [DecidableEq τ] in
/-- A tick is counted. -/
theorem Steady.count (h : s.Steady idle) : s.count.Steady idle := by
  have hplace (t : τ) : s.count.place t =
      if s.place t = .delayed (s.now + 1) then .ready (s.priority t) else s.place t := rfl
  refine ⟨?_, h.punctual.count, ?_, ?_, ?_⟩
  · intro t p ht
    rw [hplace] at ht
    split at ht
    · exact (Place.ready.inj ht).symm
    · exact h.ready t p ht
  · intro t ht
    have hwaiting : s.count.waiting t =
        if s.place t = .delayed (s.now + 1) then .nowhere else s.waiting t := rfl
    rw [hwaiting] at ht
    rw [hplace]
    split
    · next hdue => exact absurd (if_pos hdue) ht
    · next hdue =>
        rw [if_neg hdue] at ht
        exact h.waiting t ht
  · intro c hc
    rw [hplace]
    split
    · simp
    · exact h.created c hc
  · intro hrun
    obtain ⟨hcurrent, p, hp⟩ := h.idle hrun
    refine ⟨hcurrent, p, ?_⟩
    rw [hplace, if_neg (by simp [hp])]
    exact hp

omit [DecidableEq τ] in
/-- The tasks that a tick wakes have no higher priority, or a switch is noted. -/
theorem Highest.counted (h : s.Highest) (hyield : s.yieldPending = true → s'.yieldPending = true)
    (hswitch : s.switchPending = true → s'.switchPending = true) (hplace : s'.place = s.count.place)
    (hlevel : s'.level = s.level)
    (hrequired : s.forward.Woken → s'.switchPending = true ∨ s'.yieldPending = true) :
    s'.Highest := by
  refine h.wake hlevel ?_ hswitch hyield
  intro t p ht
  rw [hplace] at ht
  have hcount : s.count.place t =
      if s.place t = .delayed (s.now + 1) then .ready (s.priority t) else s.place t := rfl
  rw [hcount] at ht
  split at ht
  · next hdue =>
      obtain rfl := Place.ready.inj ht
      exact .inr fun hlt ↦ hrequired ⟨t, hdue, le_of_lt hlt⟩
  · exact .inl ht

variable [Fintype τ]

/-- A tick that is made up for. -/
theorem Highest.makeUp (h : s.Highest) : s.counted.Highest := by
  refine h.counted ?_ id rfl rfl ?_
  · intro hyield
    show s.switchRequired = true
    simp [switchRequired, hyield]
  · intro hwoken
    refine .inr ?_
    show s.switchRequired = true
    simp [switchRequired, hwoken]

variable [DecidableEq ε]

omit [DecidableEq τ] in
/-- The pending tasks become ready. -/
theorem Steady.collect (h : s.Steady idle) : s.collect.Steady idle := by
  have hplace (t : τ) : s.collect.place t =
      if s.waiting t = .pending then .ready (s.priority t) else s.place t := rfl
  refine ⟨?_, h.punctual.collect, ?_, ?_, ?_⟩
  · intro t p ht
    rw [hplace] at ht
    split at ht
    · exact (Place.ready.inj ht).symm
    · exact h.ready t p ht
  · intro t ht
    have hwaiting : s.collect.waiting t =
        if s.waiting t = .pending then .nowhere else s.waiting t := rfl
    rw [hwaiting] at ht
    rw [hplace]
    split
    · next hpending => exact absurd (if_pos hpending) ht
    · next hpending =>
        rw [if_neg hpending] at ht
        exact h.waiting t ht
  · intro c hc
    rw [hplace]
    split
    · simp
    · exact h.created c hc
  · intro hrun
    obtain ⟨hcurrent, p, hp⟩ := h.idle hrun
    refine ⟨hcurrent, p, ?_⟩
    have hnot : s.waiting idle ≠ .pending := by simp [h.waiting_of_ready hp]
    rw [hplace, if_neg hnot]
    exact hp

omit [DecidableEq τ] in
/-- One of them with a higher priority makes a switch noted. -/
theorem Highest.collect (h : s.Highest) : s.collect.Highest := by
  refine h.wake rfl ?_ id ?_
  · intro t p ht
    have hplace : s.collect.place t =
        if s.waiting t = .pending then .ready (s.priority t) else s.place t := rfl
    rw [hplace] at ht
    split at ht
    · next hpending =>
        obtain rfl := Place.ready.inj ht
        refine .inr fun hlt ↦ .inr ?_
        have hex : ∃ t, s.waiting t = .pending ∧ s.level ≤ s.priority t :=
          ⟨t, hpending, le_of_lt hlt⟩
        show (s.yieldPending || decide _) = true
        rw [decide_eq_true hex, Bool.or_true]
    · exact .inl ht
  · intro hyield
    show (s.yieldPending || decide _) = true
    rw [hyield, Bool.true_or]

/-! ## Every call -/

omit [DecidableEq τ] [Fintype τ] [DecidableEq ε] in
/-- What is to be shown once the scheduler runs. -/
theorem Regular.of_running (hrun : s.running = true) (steady : s.Steady idle) (caught : s.Caught)
    (highest : s.Highest) : s.Regular idle timer :=
  ⟨steady, caught, fun hstop ↦ absurd (hrun.symm.trans hstop) (by simp), fun _ ↦ highest⟩

omit [DecidableEq ε] in
/-- A tick, counted or pended. -/
theorem Regular.tick (h : s.Regular idle timer) (hrun : s.running = true) :
    s.tick.Regular idle timer := by
  have hhighest := h.highest hrun
  unfold Schedule.tick
  split
  · next h0 =>
      obtain ⟨hpended, hnone⟩ := h.caught h0
      refine .of_running hrun (h.steady.count.congr rfl rfl rfl rfl rfl rfl) ?_ ?_
      · refine fun _ ↦ ⟨hpended, fun t ht ↦ ?_⟩
        have hwaiting : (if s.place t = .delayed (s.now + 1) then .nowhere else s.waiting t) =
          Waiting.pending := ht
        split at hwaiting
        · exact absurd hwaiting (by simp)
        · exact hnone t hwaiting
      · refine hhighest.counted id ?_ rfl rfl ?_
        · intro hswitch
          show (s.switchPending || s.switchRequired) = true
          rw [hswitch, Bool.true_or]
        · intro hwoken
          refine .inl ?_
          show (s.switchPending || s.switchRequired) = true
          simp [switchRequired, hwoken]
  · next h0 =>
      refine .of_running hrun (h.steady.congr rfl rfl rfl rfl rfl rfl) (fun heq ↦ absurd heq h0) ?_
      exact hhighest.congr (fun _ _ ht ↦ ht) rfl id id

/-- The ticks that are made up for. -/
theorem Steady.catchUp (h : s.Steady idle) (hhighest : s.Highest) (i : Nat) :
    (counted^[i] s.collect).Steady idle ∧ (counted^[i] s.collect).Highest ∧
      ∀ t, (counted^[i] s.collect).waiting t ≠ .pending := by
  induction i with
  | zero =>
      refine ⟨h.collect, hhighest.collect, fun t ht ↦ ?_⟩
      have hwaiting : (if s.waiting t = .pending then .nowhere else s.waiting t) =
          Waiting.pending := ht
      split at hwaiting
      · exact absurd hwaiting (by simp)
      · next hnot => exact hnot hwaiting
  | succ i ih =>
      obtain ⟨hsteady, hhigh, hnone⟩ := ih
      rw [Function.iterate_succ_apply']
      refine ⟨hsteady.count.congr rfl rfl rfl rfl rfl rfl, hhigh.makeUp, fun t ht ↦ ?_⟩
      generalize counted^[i] s.collect = s' at ht hnone
      have hwaiting : (if s'.place t = .delayed (s'.now + 1) then .nowhere else s'.waiting t) =
        Waiting.pending := ht
      split at hwaiting
      · exact absurd hwaiting (by simp)
      · exact hnone t hwaiting

omit [DecidableEq ε] in
/-- Ticks do not stop the scheduler. -/
theorem running_counted (i : Nat) : (counted^[i] s).running = s.running := by
  induction i with
  | zero => rfl
  | succ i ih =>
      rw [Function.iterate_succ_apply']
      exact ih

/-- The end of a suspension, nested or not. -/
theorem Regular.resumeAll (h : s.Regular idle timer) (hrun : s.running = true) :
    s.resumeAll.Regular idle timer := by
  have hhighest := h.highest hrun
  have hsteady' : Steady idle { s with suspended := s.suspended - 1 } :=
    h.steady.congr rfl rfl rfl rfl rfl rfl
  have hhighest' : Highest { s with suspended := s.suspended - 1 } :=
    hhighest.congr (fun _ _ ht ↦ ht) rfl id id
  unfold Schedule.resumeAll
  split
  · obtain ⟨hsteady, hhigh, hnone⟩ := hsteady'.catchUp hhighest' s.pended
    have hrun' :=
      (running_counted (s := collect { s with suspended := s.suspended - 1 }) s.pended).trans hrun
    unfold release
    refine .of_running hrun' (hsteady.congr rfl rfl rfl rfl rfl rfl) (fun _ ↦ ⟨rfl, hnone⟩) ?_
    refine hhigh.congr (fun _ _ ht ↦ ht) rfl (fun hswitch ↦ ?_) id
    exact Bool.or_eq_true_iff.2 (.inl hswitch)
  · next h0 => exact .of_running hrun hsteady' (fun heq ↦ absurd heq h0) hhighest'

omit [Fintype τ] [DecidableEq ε] in
/-- A task other than the idle task blocks for a tick or more. -/
theorem Steady.block (h : s.Steady idle) (hc : c ≠ idle) (hn : 0 < n) (b : Bool) (w : Waiting ε) :
    ((s.wait c w).block c n b).Steady idle := by
  refine h.leave hc ?_ ?_ w
  · split <;> simp
  · intro wake hwake
    split at hwake
    · exact absurd hwake (by simp)
    · obtain rfl := Place.delayed.inj hwake
      have hpos : 0 < n.toNat := UInt32.lt_iff_toNat_lt.1 hn
      have hlt := n.toNat_lt
      show s.now < s.now + n.toNat ∧ s.now + n.toNat < s.now + 2 ^ 32
      omega

omit [Fintype τ] [DecidableEq ε] in
/-- Nobody becomes ready by that. -/
theorem Highest.block (h : s.Highest) (b : Bool) (w : Waiting ε) :
    ((s.wait c w).block c n b).Highest := by
  refine h.congr ?_ rfl id id
  intro t p ht
  by_cases htc : t = c
  · subst htc
    have hself : (if n = portMAX_DELAY ∧ b = true then Place.suspended
      else .delayed (s.now + n.toNat)) = .ready p := put_place_self.symm.trans ht
    split at hself <;> exact absurd hself (by simp)
  · exact (put_place_of_ne htc).symm.trans ht

omit [Fintype τ] [DecidableEq ε] in
/-- The current task waits for an event, or for nothing (then it is only delayed). -/
theorem Regular.block (h : s.Regular idle timer) (hrun : s.running = true) (hc : c ≠ idle)
    (hn : 0 < n) (hsuspended : s.suspended ≠ 0) (b : Bool) (w : Waiting ε) :
    ((s.wait c w).block c n b).Regular idle timer :=
  .of_running hrun (h.steady.block hc hn b w) (fun heq ↦ absurd heq hsuspended)
    ((h.highest hrun).block b w)

omit [DecidableEq τ] [Fintype τ] [DecidableEq ε] in
/-- A suspension. -/
theorem Regular.suspendAll (h : s.Regular idle timer) (hrun : s.running = true) :
    s.suspendAll.Regular idle timer :=
  .of_running hrun (h.steady.congr rfl rfl rfl rfl rfl rfl)
    (fun heq ↦ absurd heq (Nat.succ_ne_zero _)) ((h.highest hrun).congr (fun _ _ ht ↦ ht) rfl id id)

omit [DecidableEq τ] [Fintype τ] [DecidableEq ε] in
/-- Requests for a context switch. -/
theorem Regular.request (h : s.Regular idle timer) (hrun : s.running = true) (b b' : Bool) :
    Regular idle timer { s with
      switchPending := s.switchPending || b
      yieldPending := s.yieldPending || b' } :=
  .of_running hrun (h.steady.congr rfl rfl rfl rfl rfl rfl) h.caught
    ((h.highest hrun).congr (fun _ _ ht ↦ ht) rfl (fun hs ↦ Bool.or_eq_true_iff.2 (.inl hs))
      fun hy ↦ Bool.or_eq_true_iff.2 (.inl hy))

/-- When the delay is over that `xTaskDelayUntil` asks for. -/
theorem shouldDelay_ne {x y z : TickType} (h : shouldDelay x y z = true) : 0 < z - x := by
  have hne : z ≠ x := by
    rintro rfl
    rw [shouldDelay] at h
    split at h
    · simp at h
    · next hnot =>
        simp only [decide_eq_true_iff, gt_iff_lt] at h
        rcases h with h | h
        · exact hnot h
        · exact absurd h (UInt32.lt_irrefl _)
  refine UInt32.lt_iff_toNat_lt.2 (Nat.pos_of_ne_zero fun h0 ↦ hne ?_)
  exact (UInt32.sub_eq_iff_eq_add.1 (UInt32.toNat_inj.1 h0)).trans (UInt32.zero_add x)

omit [Fintype τ] [DecidableEq ε] in
/-- The delay of `xTaskDelayUntil`, if it is one. -/
theorem Regular.delayUntil (h : s.Regular idle timer) (hrun : s.running = true) (hc : c ≠ idle)
    {previous increment : TickType} :
    (s.suspendAll.delayUntil c previous increment).Regular idle timer := by
  have h1 := h.suspendAll hrun
  unfold Schedule.delayUntil
  split
  · next hshould =>
      have hkeep : s.suspendAll.wait c (s.waiting c) = s.suspendAll := wait_of_eq rfl
      have h2 := h1.block hrun hc (shouldDelay_ne hshould) (Nat.succ_ne_zero _) false (s.waiting c)
      rw [hkeep] at h2
      exact h2
  · exact h1

omit [Fintype τ] [DecidableEq ε] in
/-- A task becomes ready, and a switch is noted if it has a higher priority. -/
theorem Highest.toReady (h : s.Highest) {s' : Schedule τ ε}
    (hplace : s'.place = (s.toReady t).place) (hlevel : s'.level = s.level)
    (hflag : s.level < s.priority t → s'.switchPending = true ∨ s'.yieldPending = true)
    (hswitch : s.switchPending = true → s'.switchPending = true)
    (hyield : s.yieldPending = true → s'.yieldPending = true) : s'.Highest := by
  refine h.wake hlevel ?_ hswitch hyield
  intro u p hu
  rw [hplace] at hu
  by_cases hut : u = t
  · subst hut
    obtain rfl := Place.ready.inj (put_place_self.symm.trans hu)
    exact .inr hflag
  · exact .inl ((put_place_of_ne hut).symm.trans hu)

omit [Fintype τ] [DecidableEq ε] in
/-- Nothing more is to be made up for. -/
theorem Caught.toReady (h : s.Caught) (t : τ) : (s.toReady t).Caught := by
  intro h0
  obtain ⟨hpended, hnone⟩ := h h0
  refine ⟨hpended, fun u hu ↦ ?_⟩
  by_cases hut : u = t
  · subst hut
    exact absurd (wait_waiting_self.symm.trans hu) (by simp)
  · exact hnone u ((Function.update_of_ne hut ..).symm.trans hu)

omit [Fintype τ] [DecidableEq ε] in
/-- The event of a task comes, while the scheduler is suspended or not. -/
theorem Regular.signal (h : s.Regular idle timer) (hrun : s.running = true)
    (ht : s.waiting t ≠ .nowhere) : (s.signal t).Regular idle timer := by
  have hheld := h.steady.waiting t ht
  have hhighest := h.highest hrun
  unfold Schedule.signal
  split
  · refine .of_running hrun ((h.steady.toReady hheld.1).congr rfl rfl rfl rfl rfl rfl)
      (h.caught.toReady t) ?_
    refine hhighest.toReady rfl rfl (fun hlt ↦ .inr ?_) id fun hyield ↦
      Bool.or_eq_true_iff.2 (.inl hyield)
    exact Bool.or_eq_true_iff.2 (.inr (decide_eq_true hlt))
  · next h0 =>
      refine .of_running hrun ((h.steady.hold hheld .pending).congr rfl rfl rfl rfl rfl rfl)
        (fun heq ↦ absurd heq h0) ?_
      exact hhighest.congr (fun _ _ hu ↦ hu) rfl id fun hyield ↦ Bool.or_eq_true_iff.2 (.inl hyield)

omit [Fintype τ] [DecidableEq ε] in
/-- A task other than the idle task is suspended. -/
theorem Regular.suspend (h : s.Regular idle timer) (hrun : s.running = true) (ht : t ≠ idle) :
    (s.suspend t).Regular idle timer := by
  refine .of_running hrun ?_ ?_ ?_
  · exact h.steady.leave ht (by simp) (by simp) .nowhere
  · intro h0
    obtain ⟨hpended, hnone⟩ := h.caught h0
    refine ⟨hpended, fun u hu ↦ ?_⟩
    by_cases hut : u = t
    · subst hut
      exact absurd (wait_waiting_self.symm.trans hu) (by simp)
    · exact hnone u ((Function.update_of_ne hut ..).symm.trans hu)
  · refine (h.highest hrun).congr ?_ rfl id id
    intro u p hu
    by_cases hut : u = t
    · subst hut
      exact absurd (put_place_self.symm.trans hu) (by simp)
    · exact (put_place_of_ne hut).symm.trans hu

omit [Fintype τ] in
/-- A task is resumed by another one. -/
theorem Regular.resume (h : s.Regular idle timer) (hrun : s.running = true) :
    (s.resume t).Regular idle timer := by
  unfold Schedule.resume
  split
  · next hboth =>
      have hplace : s.place t ≠ .absent := by simp [hboth.2.1]
      refine .of_running hrun ((h.steady.toReady hplace).congr rfl rfl rfl rfl rfl rfl)
        (h.caught.toReady t) ?_
      refine (h.highest hrun).toReady rfl rfl (fun hlt ↦ .inl ?_)
        (fun hswitch ↦ Bool.or_eq_true_iff.2 (.inl hswitch)) id
      exact Bool.or_eq_true_iff.2 (.inr (decide_eq_true (le_of_lt hlt)))
  · exact h

omit [Fintype τ] in
/-- A task is resumed by an interrupt. -/
theorem Regular.resumeFromISR (h : s.Regular idle timer) (hrun : s.running = true) :
    (s.resumeFromISR t).Regular idle timer := by
  unfold Schedule.resumeFromISR
  split
  · next hresumable =>
      have hplace : s.place t ≠ .absent := by simp [hresumable.1]
      split
      · refine .of_running hrun ((h.steady.toReady hplace).congr rfl rfl rfl rfl rfl rfl)
          (h.caught.toReady t) ?_
        refine (h.highest hrun).toReady rfl rfl (fun hlt ↦ .inr ?_) id
          fun hyield ↦ Bool.or_eq_true_iff.2 (.inl hyield)
        exact Bool.or_eq_true_iff.2 (.inr (decide_eq_true (le_of_lt hlt)))
      · next h0 =>
          refine .of_running hrun (h.steady.hold ?_ .pending) (fun heq ↦ absurd heq h0)
            ((h.highest hrun).congr (fun _ _ hu ↦ hu) rfl id id)
          simp [hresumable.1]
  · exact h

omit [Fintype τ] [DecidableEq ε] [DecidableEq τ] in
/-- A context switch to a task of the highest priority of all that are ready. -/
theorem Regular.dispatch (h : s.Regular idle timer) (hrun : s.running = true)
    (ht : s.suspended = 0 → ∃ q, s.place t = .ready q ∧ ∀ u p, s.place u = .ready p → p ≤ q) :
    (s.dispatch t).Regular idle timer := by
  unfold Schedule.dispatch
  split
  · next h0 =>
      obtain ⟨q, hq, hhighest⟩ := ht h0
      refine .of_running hrun ⟨h.steady.ready, h.steady.punctual, h.steady.waiting, ?_, ?_⟩
        h.caught ?_
      · intro c hc
        obtain rfl : t = c := Option.some.inj hc
        simp [hq]
      · intro _
        exact ⟨by simp, (h.steady.idle hrun).2⟩
      · refine .inr (.inr fun u p hu ↦ ?_)
        have hlevel : level { s with
            switchPending := false, yieldPending := false, current := some t } = s.priority t := rfl
        rw [hlevel, ← h.steady.ready t q hq]
        exact hhighest u p hu
  · next h0 =>
      exact .of_running hrun (h.steady.congr rfl rfl rfl rfl rfl rfl) (fun heq ↦ absurd heq h0)
        (.inr (.inl rfl))

/-! ## Priorities and new tasks -/

omit [Fintype τ] [DecidableEq ε]

/-- The task goes from one ready list to another one, or stays where it is. -/
theorem place_prioritySet (h : s.Steady idle) (hp : s.base t ≠ p) :
    (∀ u, u ≠ t → (s.prioritySet t p).place u = s.place u) ∧
      (s.place t = .ready (s.priority t) ∧
        (s.prioritySet t p).place t = .ready ((s.prioritySet t p).priority t) ∨
      (∀ r, s.place t ≠ .ready r) ∧ (s.prioritySet t p).place t = s.place t) := by
  unfold prioritySet
  rw [if_neg hp]
  by_cases hready : s.place t = .ready (s.priority t)
  · simp only [if_pos hready]
    refine ⟨fun u hu ↦ Function.update_of_ne hu .., .inl ⟨hready, ?_⟩⟩
    rw [Function.update_self, Function.update_self]
  · simp only [if_neg hready]
    refine ⟨fun _ _ ↦ trivial, .inr ⟨fun r hr ↦ hready ?_, trivial⟩⟩
    rw [hr, h.ready t r hr]

/-- A task that is ready stays so with its new priority. -/
theorem Steady.prioritySet (h : s.Steady idle) : (s.prioritySet t p).Steady idle := by
  by_cases hp : s.base t = p
  · unfold Schedule.prioritySet
    rw [if_pos hp]
    exact h
  · obtain ⟨hother, hself⟩ := place_prioritySet h hp
    generalize hs' : s.prioritySet t p = s' at hother hself ⊢
    rw [Schedule.prioritySet, if_neg hp] at hs'
    have hpriority {u : τ} (hu : u ≠ t) : s'.priority u = s.priority u := by
      rw [← hs']
      exact Function.update_of_ne hu ..
    have hwaiting : s'.waiting = s.waiting := by rw [← hs']
    have hnow : s'.now = s.now := by rw [← hs']
    have hcurrent : s'.current = s.current := by rw [← hs']
    have hrunning : s'.running = s.running := by rw [← hs']
    refine ⟨?_, ?_, ?_, ?_, ?_⟩
    · intro u r hu
      by_cases hut : u = t
      · subst hut
        rcases hself with ⟨-, heq⟩ | ⟨hnot, heq⟩
        · exact (Place.ready.inj (heq.symm.trans hu)).symm
        · exact absurd (heq.symm.trans hu) (hnot r)
      · rw [hpriority hut]
        exact h.ready u r ((hother u hut).symm.trans hu)
    · intro u wake hu
      rw [hnow]
      by_cases hut : u = t
      · subst hut
        rcases hself with ⟨-, heq⟩ | ⟨-, heq⟩
        · exact absurd (heq.symm.trans hu) (by simp)
        · exact h.punctual u wake (heq.symm.trans hu)
      · exact h.punctual u wake ((hother u hut).symm.trans hu)
    · intro u hu
      rw [hwaiting] at hu
      have hheld := h.waiting u hu
      by_cases hut : u = t
      · subst hut
        rcases hself with ⟨heq, -⟩ | ⟨-, heq⟩
        · exact absurd heq (hheld.2 _)
        · rw [heq]
          exact hheld
      · rw [hother u hut]
        exact hheld
    · intro c hc
      rw [hcurrent] at hc
      by_cases hct : c = t
      · subst hct
        rcases hself with ⟨-, heq⟩ | ⟨-, heq⟩
        · simp [heq]
        · rw [heq]
          exact h.created c hc
      · rw [hother c hct]
        exact h.created c hc
    · intro hrun
      obtain ⟨hsome, r, hr⟩ := h.idle (hrunning.symm.trans hrun)
      refine ⟨by rw [hcurrent]; exact hsome, ?_⟩
      by_cases hit : idle = t
      · subst hit
        rcases hself with ⟨-, heq⟩ | ⟨hnot, -⟩
        · exact ⟨_, heq⟩
        · exact absurd hr (hnot r)
      · exact ⟨r, (hother idle hit).trans hr⟩

/-- A switch is requested if the current task no longer has the highest priority. -/
theorem Regular.prioritySet (h : s.Regular idle timer) (hrun : s.running = true) :
    (s.prioritySet t p).Regular idle timer := by
  by_cases hp : s.base t = p
  · unfold Schedule.prioritySet
    rw [if_pos hp]
    exact h
  obtain ⟨hother, hself⟩ := place_prioritySet h.steady hp
  have hsteady := h.steady.prioritySet (t := t) (p := p)
  obtain ⟨c, hcurrent⟩ := Option.ne_none_iff_exists'.1 (h.steady.idle hrun).1
  have hlevel : s.level = s.priority c := level_of_current hcurrent
  generalize hs' : s.prioritySet t p = s' at hother hself hsteady ⊢
  rw [Schedule.prioritySet, if_neg hp] at hs'
  have hpriority : s'.priority = Function.update s.priority t
      (if s.base t = s.priority t then p else s.priority t) := by rw [← hs']
  have hswitch : s'.switchPending =
      (s.switchPending || yieldRequired (s.current = some t) p (s.base t) s.level) := by rw [← hs']
  have hlevel' : s'.level = s'.priority c := by
    refine level_of_current ?_
    rw [← hs']
    exact hcurrent
  refine .of_running (by rw [← hs']; exact hrun) hsteady ?_ ?_
  · rw [← hs']
    exact h.caught
  · rcases h.highest hrun with hs | hy | hall
    · exact .inl (by rw [hswitch, hs, Bool.true_or])
    · exact .inr (.inl (by rw [← hs']; exact hy))
    · by_cases hflag : s'.switchPending = true
      · exact .inl hflag
      have hno : yieldRequired (s.current = some t) p (s.base t) s.level = false := by
        rw [hswitch, Bool.or_eq_true] at hflag
        exact Bool.eq_false_iff.2 fun hyes ↦ hflag (.inr hyes)
      refine .inr (.inr ?_)
      -- the level is not lowered, and the priority of the task is not raised above it
      have hself' : s.place t = .ready (s.priority t) → s'.priority t ≤ s'.level := by
        intro hready
        have hle := hall t _ hready
        rw [hlevel', hpriority]
        by_cases htc : t = c
        · rw [htc]
        · rw [Function.update_self, Function.update_of_ne (Ne.symm htc), ← hlevel]
          have hnot : ¬ s.current = some t := fun heq ↦
            htc (Option.some.inj (heq.symm.trans hcurrent))
          rw [decide_eq_false hnot, yieldRequired] at hno
          split
          · next hbase =>
              split at hno
              · exact le_of_lt (not_le.1 (by simpa using hno))
              · next hdown => exact (not_lt.1 hdown).trans (hbase.le.trans hle)
          · exact hle
      have hup : s.level ≤ s'.level := by
        rw [hlevel', hlevel, hpriority]
        by_cases htc : c = t
        · subst htc
          rw [Function.update_self]
          split
          · next hbase =>
              rw [decide_eq_true hcurrent, yieldRequired] at hno
              split at hno
              · next hraised => exact hbase ▸ le_of_lt hraised
              · exact absurd hno (by simp)
          · exact le_rfl
        · rw [Function.update_of_ne htc]
      intro u r hu
      by_cases hut : u = t
      · subst hut
        rcases hself with ⟨hready, heq⟩ | ⟨hnot, heq⟩
        · obtain rfl := Place.ready.inj (heq.symm.trans hu)
          exact hself' hready
        · exact absurd (heq.symm.trans hu) (hnot r)
      · exact (hall u r ((hother u hut).symm.trans hu)).trans hup

/-- A new task. -/
structure New (t : τ) (s : Schedule τ ε) : Prop where
  place : s.place t = .absent
  waiting : s.waiting t = .nowhere
  current : s.current ≠ some t

/-- A new task is ready. -/
theorem Steady.create (h : s.Steady idle) (ht : s.New t) : (s.create t p).Steady idle := by
  have hself : (s.create t p).place t = .ready p := Function.update_self ..
  have hother {u : τ} (hu : u ≠ t) : (s.create t p).place u = s.place u :=
    Function.update_of_ne hu ..
  refine ⟨?_, ?_, ?_, ?_, ?_⟩
  · intro u r hu
    by_cases hut : u = t
    · subst hut
      obtain rfl := Place.ready.inj (hself.symm.trans hu)
      exact (Function.update_self u p s.priority).symm
    · have hpriority : (s.create t p).priority u = s.priority u := Function.update_of_ne hut ..
      rw [hpriority]
      exact h.ready u r ((hother hut).symm.trans hu)
  · intro u wake hu
    by_cases hut : u = t
    · subst hut
      exact absurd (hself.symm.trans hu) (by simp)
    · exact h.punctual u wake ((hother hut).symm.trans hu)
  · intro u hu
    have hut : u ≠ t := by
      rintro rfl
      exact hu ht.waiting
    rw [hother hut]
    exact h.waiting u hu
  · intro c hc
    by_cases hct : c = t
    · subst hct
      simp [hself]
    · rw [hother hct]
      have hor :
        (if s.running = true ∨ (s.current ≠ none ∧ p < s.level) then s.current else some t) =
        some c := hc
      split at hor
      · exact h.created c hor
      · exact absurd (Option.some.inj hor).symm hct
  · intro hrun
    obtain ⟨hsome, r, hr⟩ := h.idle hrun
    have hit : idle ≠ t := by
      rintro rfl
      exact absurd (hr.symm.trans ht.place) (by simp)
    refine ⟨?_, r, (hother hit).trans hr⟩
    show (if s.running = true ∨ (s.current ≠ none ∧ p < s.level) then s.current else some t) ≠ none
    rw [if_pos (.inl hrun)]
    exact hsome

/-- Once the scheduler runs, a new task does not become the current one at once. -/
theorem level_create (ht : s.New t) (hrun : s.running = true) : (s.create t p).level = s.level := by
  have hcurrent : (s.create t p).current = s.current := if_pos (.inl hrun)
  unfold level
  rw [hcurrent]
  cases hc : s.current with
  | none => rfl
  | some c =>
      have hct : c ≠ t := fun heq ↦ ht.current (by rw [hc, heq])
      exact Function.update_of_ne hct ..

/-- A switch is requested if it has a higher priority than the current one. -/
theorem Regular.create (h : s.Regular idle timer) (ht : s.New t) (hne : t ≠ idle ∧ t ≠ timer) :
    (s.create t p).Regular idle timer := by
  have hself : (s.create t p).place t = .ready p := Function.update_self ..
  have hother {u : τ} (hu : u ≠ t) : (s.create t p).place u = s.place u :=
    Function.update_of_ne hu ..
  refine ⟨h.steady.create ht, h.caught, ?_, ?_⟩
  · intro hstop
    have hstopped := h.stopped hstop
    have hstop' : s.running = false := hstop
    refine ⟨hstopped.now, hstopped.suspended, hstopped.waiting, ?_, ?_, ?_, ?_⟩
    · intro u
      by_cases hut : u = t
      · subst hut
        exact .inr ⟨p, hself⟩
      · rw [hother hut]
        exact hstopped.place u
    · rw [hother hne.1.symm, hother hne.2.symm]
      exact hstopped.absent
    · show (s.switchPending || (s.running && decide (s.level < p))) = false
      rw [hstopped.switchPending, hstop', Bool.false_and, Bool.or_false]
    · intro c hc
      by_cases hct : c = t
      · subst hct
        exact ⟨p, hself⟩
      · rw [hother hct]
        have hor :
          (if s.running = true ∨ (s.current ≠ none ∧ p < s.level) then s.current else some t) =
          some c := hc
        split at hor
        · exact hstopped.current c hor
        · exact absurd (Option.some.inj hor).symm hct
  · intro hrun
    refine (h.highest hrun).wake (level_create ht hrun) ?_
      (fun hs ↦ Bool.or_eq_true_iff.2 (.inl hs)) id
    intro u r hu
    by_cases hut : u = t
    · subst hut
      obtain rfl := Place.ready.inj (hself.symm.trans hu)
      refine .inr fun hlt ↦ .inl (Bool.or_eq_true_iff.2 (.inr ?_))
      have hrun' : s.running = true := hrun
      rw [hrun', Bool.true_and, decide_eq_true hlt]
    · exact .inl ((hother hut).symm.trans hu)

omit [DecidableEq τ] in
/-- The tasks of the kernel itself are new while the scheduler does not run. -/
theorem Stopped.new (h : s.Stopped idle timer) (ht : s.place t = .absent) : s.New t := by
  refine ⟨ht, h.waiting t, fun hc ↦ ?_⟩
  obtain ⟨p, hp⟩ := h.current t hc
  exact absurd (hp.symm.trans ht) (by simp)

/-- The task of the timers is the first one to run. -/
theorem current_start (hstop : s.running = false) : (s.start idle timer).current = some timer := by
  show (if s.running = true ∨ ((s.create idle tskIDLE_PRIORITY).current ≠ none ∧
      configTIMER_TASK_PRIORITY < (s.create idle tskIDLE_PRIORITY).level)
    then (s.create idle tskIDLE_PRIORITY).current else some timer) = some timer
  have htop : ¬ configTIMER_TASK_PRIORITY < (s.create idle tskIDLE_PRIORITY).level :=
    not_lt.2 (Fin.le_last _)
  rw [if_neg]
  rintro (hrun | ⟨-, hlt⟩)
  · exact absurd (hrun.symm.trans hstop) (by simp)
  · exact htop hlt

/-- The scheduler's own tasks are new as well. -/
theorem Regular.start (h : s.Regular idle timer) (hstop : s.running = false) (hne : timer ≠ idle) :
    (s.start idle timer).Regular idle timer := by
  have hstopped := h.stopped hstop
  have hidle := hstopped.new hstopped.absent.1
  have htimer : (s.create idle tskIDLE_PRIORITY).New timer := by
    refine ⟨(Function.update_of_ne hne ..).trans hstopped.absent.2, hstopped.waiting timer, ?_⟩
    intro hc
    have hor : (if s.running = true ∨ (s.current ≠ none ∧ tskIDLE_PRIORITY < s.level) then s.current
      else some idle) = some timer := hc
    split at hor
    · exact (hstopped.new hstopped.absent.2).current hor
    · exact hne (Option.some.inj hor).symm
  have hsteady := (h.steady.create (p := tskIDLE_PRIORITY) hidle).create
    (p := configTIMER_TASK_PRIORITY) htimer
  have hcurrent : (s.start idle timer).current = some timer := current_start hstop
  refine .of_running rfl ⟨hsteady.ready, hsteady.punctual, hsteady.waiting, ?_, ?_⟩ h.caught ?_
  · intro c hc
    exact hsteady.created c hc
  · intro _
    refine ⟨by simp [hcurrent], tskIDLE_PRIORITY, ?_⟩
    have hself : (s.create idle tskIDLE_PRIORITY).place idle = .ready tskIDLE_PRIORITY :=
      Function.update_self ..
    exact (Function.update_of_ne hne.symm ..).trans hself
  · refine .inr (.inr fun u r _ ↦ ?_)
    have hlevel : (s.start idle timer).level = configTIMER_TASK_PRIORITY := by
      rw [level_of_current hcurrent]
      exact Function.update_self ..
    rw [hlevel]
    exact Fin.le_last r

omit [DecidableEq τ] in
/-- The schedule without a task. -/
theorem regular_initial {priority : τ → Priority} :
    (initial priority : Schedule τ ε).Regular idle timer where
  steady := ⟨by simp [initial], by simp [Punctual, initial], by simp [initial], by simp [initial],
    by simp [initial]⟩
  caught := by simp [Caught, initial]
  stopped _ := ⟨rfl, rfl, fun _ ↦ rfl, fun _ ↦ .inl rfl, ⟨rfl, rfl⟩, rfl, by simp [initial]⟩
  highest := by simp [initial]

end Schedule

end Stm32F1.Rtos

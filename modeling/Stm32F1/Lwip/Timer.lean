import Stm32F1.Lib.History

/-!
# The timers of lwIP

`lwip_timer` counts the interrupts of TIM6 modulo 2³².  `timer_expired` compares it with the value
that a timer recorded when it last fired, and records it anew when the interval is over.  The
interrupt may come between any two of these accesses, and several timers share the counter.

Beside the wrapped counter a state keeps the true time, and for every timer the calls that were made
of it; nothing that the code does depends on either.
-/

namespace Stm32F1.Lwip.Timer

variable {ι : Type}

/-- A call of `timer_expired` that has returned. -/
structure Call where
  /-- The tick at which it compared. -/
  compared : Nat
  /-- The tick it recorded in `*last_time`, if it fired. -/
  recorded : Option Nat

/-- Where the processor is in `timer_expired`. -/
inductive Pc (ι : Type)
  | idle
  | /-- `time = *last_time` -/
    loaded (i : ι) (time : UInt32)
  | /-- The interval is over; `*last_time` is still to be written. -/
    expired (i : ι) (compared : Nat)

/-- The counter, the variables `last_time` of the timers, and what has happened. -/
structure Board (ι : Type) where
  lwipTimer : UInt32
  lastTime : ι → UInt32
  pc : Pc ι
  /-- The true time. -/
  now : Nat
  /-- The calls of every timer, the newest first. -/
  calls : ι → List Call

inductive Event (ι : Type)
  | /-- `TIM6_IRQHandler` -/
    tick
  | enter (i : ι)
  | compare
  | record

namespace Board

/-- `TIM6_IRQHandler`: `lwip_timer++` -/
def tick (s : Board ι) : Board ι :=
  { s with lwipTimer := s.lwipTimer + 1, now := s.now + 1 }

/-- `time = *last_time` -/
def enter (s : Board ι) (i : ι) : Board ι := { s with pc := .loaded i (s.lastTime i) }

/-- `if ( ( lwip_timer - time ) >= tmr_interval )`, and `return 0` if not. -/
def compare [DecidableEq ι] (s : Board ι) (i : ι) (time tmrInterval : UInt32) : Board ι :=
  if tmrInterval ≤ s.lwipTimer - time then { s with pc := .expired i s.now }
  else { s with
    pc := .idle
    calls := Function.update s.calls i (⟨s.now, none⟩ :: s.calls i) }

/-- `*last_time = lwip_timer; return 1` -/
def record [DecidableEq ι] (s : Board ι) (i : ι) (compared : Nat) : Board ι :=
  { s with
    lastTime := Function.update s.lastTime i s.lwipTimer
    pc := .idle
    calls := Function.update s.calls i (⟨compared, some s.now⟩ :: s.calls i) }

end Board

/-- The accesses of `timer_expired` one after the other, and the interrupt at any moment. -/
inductive Step [DecidableEq ι] (tmrInterval : ι → UInt32) : Board ι → Event ι → Board ι → Prop
  | tick (s : Board ι) : Step tmrInterval s .tick s.tick
  | enter {s : Board ι} (i : ι) : s.pc = .idle → Step tmrInterval s (.enter i) (s.enter i)
  | compare {s : Board ι} {i : ι} {time : UInt32} :
      s.pc = .loaded i time → Step tmrInterval s .compare (s.compare i time (tmrInterval i))
  | record {s : Board ι} {i : ι} {compared : Nat} :
      s.pc = .expired i compared → Step tmrInterval s .record (s.record i compared)

/-- No call has been made yet, and every `last_time` is the counter at a past tick. -/
structure Started (u : ι → Nat) (s : Board ι) : Prop where
  clock : s.lwipTimer = UInt32.ofNat s.now
  past : ∀ i, u i ≤ s.now
  last : ∀ i, s.lastTime i = UInt32.ofNat (u i)
  pc : s.pc = .idle
  calls : s.calls = fun _ ↦ []

/-! ## The law -/

/-- A call that fired. -/
structure Firing where
  compared : Nat
  recorded : Nat

/-- The calls that fired. -/
def firings (calls : List Call) : List Firing :=
  calls.filterMap fun c ↦ c.recorded.map fun r ↦ ⟨c.compared, r⟩

/-- The tick that the last firing recorded, or the one that `*last_time` started with. -/
def lastTick (u : Nat) : List Call → Nat
  | [] => u
  | ⟨_, some r⟩ :: _ => r
  | ⟨_, none⟩ :: older => lastTick u older

/-- From one firing to the next the interval goes by, between the comparisons as well as between the
ticks that are recorded. -/
structure Apart (v : Nat) (later earlier : Firing) : Prop where
  compared : earlier.compared + v ≤ later.compared
  recorded : earlier.recorded + v ≤ later.recorded

/-- A timer of the interval `v` fires never early and never late. -/
structure Law (v u : Nat) (calls : List Call) : Prop where
  apart : (firings calls).IsChain (Apart v)
  onTime : ∀ c older, c :: older <:+ calls → lastTick u older + v ≤ c.compared →
    c.compared - lastTick u older < 2 ^ 32 → ∃ r, c.recorded = some r

/-- What one call does, by the tick that the last firing recorded. -/
structure Fair (v last : Nat) (c : Call) : Prop where
  fired : ∀ r, c.recorded = some r → last + v ≤ c.compared ∧ c.compared ≤ r
  fires : last + v ≤ c.compared → c.compared - last < 2 ^ 32 → ∃ r, c.recorded = some r

/-- Every call was fair. -/
def AllFair (v u : Nat) : List Call → Prop
  | [] => True
  | c :: older => Fair v (lastTick u older) c ∧ AllFair v u older

variable {v u : Nat} {calls : List Call}

/-- The last firing recorded the tick that the next comparison uses. -/
theorem AllFair.head (h : AllFair v u calls) :
    ∀ f ∈ (firings calls).head?, f.recorded = lastTick u calls ∧ f.compared ≤ f.recorded := by
  induction calls with
  | nil => exact fun f hf ↦ absurd hf (Option.not_mem_none f)
  | cons c older ih =>
      obtain ⟨compared, recorded⟩ := c
      cases recorded with
      | none => exact ih h.2
      | some r =>
          intro f hf
          obtain rfl : (⟨compared, r⟩ : Firing) = f := Option.some.inj hf
          exact ⟨rfl, (h.1.fired r rfl).2⟩

theorem AllFair.apart (h : AllFair v u calls) : (firings calls).IsChain (Apart v) := by
  induction calls with
  | nil => exact .nil
  | cons c older ih =>
      obtain ⟨compared, recorded⟩ := c
      cases recorded with
      | none => exact ih h.2
      | some r =>
          refine List.isChain_cons.2 ⟨?_, ih h.2⟩
          intro f hf
          obtain ⟨hlast, hle⟩ := h.2.head f hf
          obtain ⟨hv, hr⟩ := h.1.fired r rfl
          have hv : lastTick u older + v ≤ compared := hv
          have hr : compared ≤ r := hr
          constructor
          · show f.compared + v ≤ compared
            omega
          · show f.recorded + v ≤ r
            omega

theorem AllFair.suffix (h : AllFair v u calls) {c : Call} {older : List Call}
    (hc : c :: older <:+ calls) : Fair v (lastTick u older) c := by
  induction calls with
  | nil => exact absurd (List.suffix_nil.1 hc) (List.cons_ne_nil c older)
  | cons d rest ih =>
      rcases List.suffix_cons_iff.1 hc with heq | hc
      · obtain ⟨rfl, rfl⟩ := List.cons.inj heq
        exact h.1
      · exact ih h.2 hc

/-- Calls that are fair one by one obey the law. -/
theorem AllFair.law (h : AllFair v u calls) : Law v u calls :=
  ⟨h.apart, fun _ _ hc ↦ (h.suffix hc).fires⟩

/-! ## The wrapped counter -/

/-- The distance of two readings of the counter is the true one modulo 2³². -/
theorem toNat_elapsed {m n : Nat} (h : m ≤ n) :
    (UInt32.ofNat n - UInt32.ofNat m).toNat = (n - m) % 2 ^ 32 := by
  rw [← UInt32.ofNat_sub h]
  exact UInt32.toNat_ofNat'

/-- Wraps only shorten the distance, so a comparison never succeeds early. -/
theorem le_elapsed {m n : Nat} {interval : UInt32} (h : m ≤ n)
    (hle : interval ≤ UInt32.ofNat n - UInt32.ofNat m) : m + interval.toNat ≤ n := by
  have hmod : interval.toNat ≤ (n - m) % 2 ^ 32 := by
    rw [← toNat_elapsed h]
    exact UInt32.le_iff_toNat_le.1 hle
  have hsub := hmod.trans (Nat.mod_le _ _)
  omega

/-- Before the counter has come round, the comparison succeeds as soon as the interval is over. -/
theorem elapsed_le {m n : Nat} {interval : UInt32} (hn : m + interval.toNat ≤ n)
    (hlt : n - m < 2 ^ 32) : interval ≤ UInt32.ofNat n - UInt32.ofNat m := by
  have h : m ≤ n := (Nat.le_add_right _ _).trans hn
  rw [UInt32.le_iff_toNat_le, toNat_elapsed h, Nat.mod_eq_of_lt hlt]
  omega

/-! ## Runs -/

/-- What holds at every moment. -/
structure Inv (tmrInterval : ι → UInt32) (u : ι → Nat) (s : Board ι) : Prop where
  clock : s.lwipTimer = UInt32.ofNat s.now
  past : ∀ i, lastTick (u i) (s.calls i) ≤ s.now
  last : ∀ i, s.lastTime i = UInt32.ofNat (lastTick (u i) (s.calls i))
  loaded : ∀ i time, s.pc = .loaded i time → time = s.lastTime i
  expired : ∀ i compared, s.pc = .expired i compared →
    lastTick (u i) (s.calls i) + (tmrInterval i).toNat ≤ compared ∧ compared ≤ s.now
  fair : ∀ i, AllFair (tmrInterval i).toNat (u i) (s.calls i)

variable {tmrInterval : ι → UInt32} {u : ι → Nat} {s s' : Board ι} {e : Event ι}
  {history : List (Event ι)}

theorem Started.inv (h : Started u s) : Inv tmrInterval u s where
  clock := h.clock
  past := by rw [h.calls]; exact h.past
  last := by rw [h.calls]; exact h.last
  loaded i time hpc := by rw [h.pc] at hpc; cases hpc
  expired i compared hpc := by rw [h.pc] at hpc; cases hpc
  fair i := by rw [h.calls]; trivial

theorem Inv.tick (h : Inv tmrInterval u s) : Inv tmrInterval u s.tick where
  clock := by
    show s.lwipTimer + 1 = UInt32.ofNat (s.now + 1)
    rw [h.clock, UInt32.ofNat_add]
    rfl
  past i := (h.past i).trans (Nat.le_succ _)
  last := h.last
  loaded := h.loaded
  expired i compared hpc := ⟨(h.expired i compared hpc).1,
    (h.expired i compared hpc).2.trans (Nat.le_succ _)⟩
  fair := h.fair

theorem Inv.enter (h : Inv tmrInterval u s) (i : ι) : Inv tmrInterval u (s.enter i) where
  clock := h.clock
  past := h.past
  last := h.last
  loaded j time hpc := by
    obtain ⟨rfl, rfl⟩ := Pc.loaded.inj hpc
    rfl
  expired j compared hpc := by cases hpc
  fair := h.fair

variable [DecidableEq ι]

/-- The timers other than the one that is called keep their calls. -/
theorem forall_update {P : ι → List Call → Prop} {calls : ι → List Call} {i : ι} {c : List Call}
    (hi : P i c) (h : ∀ j, P j (calls j)) (j : ι) : P j (Function.update calls i c j) := by
  by_cases hj : j = i
  · subst hj
    rw [Function.update_self]
    exact hi
  · rw [Function.update_of_ne hj]
    exact h j

theorem Inv.compare (h : Inv tmrInterval u s) {i : ι} {time : UInt32}
    (hpc : s.pc = .loaded i time) : Inv tmrInterval u (s.compare i time (tmrInterval i)) := by
  obtain rfl := h.loaded i time hpc
  have hcmp : s.lwipTimer - s.lastTime i =
      UInt32.ofNat s.now - UInt32.ofNat (lastTick (u i) (s.calls i)) := by rw [h.clock, h.last i]
  unfold Board.compare
  split
  · rename_i hle
    rw [hcmp] at hle
    refine ⟨h.clock, h.past, h.last, ?_, ?_, h.fair⟩
    · intro j time hj
      cases hj
    · intro j compared hj
      obtain ⟨rfl, rfl⟩ := Pc.expired.inj hj
      exact ⟨le_elapsed (h.past i) hle, le_rfl⟩
  · rename_i hle
    rw [hcmp] at hle
    have hfair : Fair (tmrInterval i).toNat (lastTick (u i) (s.calls i)) ⟨s.now, none⟩ := by
      constructor
      · intro r hr
        cases hr
      · intro hv hlt
        exact absurd (elapsed_le hv hlt) hle
    refine ⟨h.clock, ?_, ?_, ?_, ?_, ?_⟩
    · exact forall_update (P := fun j c ↦ lastTick (u j) c ≤ s.now) (h.past i) h.past
    · exact forall_update (P := fun j c ↦ s.lastTime j = UInt32.ofNat (lastTick (u j) c))
        (h.last i) h.last
    · intro j time hj
      cases hj
    · intro j compared hj
      cases hj
    · exact forall_update (P := fun j c ↦ AllFair (tmrInterval j).toNat (u j) c)
        ⟨hfair, h.fair i⟩ h.fair

theorem Inv.record (h : Inv tmrInterval u s) {i : ι} {compared : Nat}
    (hpc : s.pc = .expired i compared) : Inv tmrInterval u (s.record i compared) := by
  obtain ⟨hv, hnow⟩ := h.expired i compared hpc
  have hfair : Fair (tmrInterval i).toNat (lastTick (u i) (s.calls i)) ⟨compared, some s.now⟩ := by
    constructor
    · intro r hr
      obtain rfl := Option.some.inj hr
      exact ⟨hv, hnow⟩
    · exact fun _ _ ↦ ⟨s.now, rfl⟩
  refine ⟨h.clock, ?_, ?_, ?_, ?_, ?_⟩
  · exact forall_update (P := fun j c ↦ lastTick (u j) c ≤ s.now) le_rfl h.past
  · intro j
    show Function.update s.lastTime i s.lwipTimer j = UInt32.ofNat (lastTick (u j)
      (Function.update s.calls i (⟨compared, some s.now⟩ :: s.calls i) j))
    by_cases hj : j = i
    · subst hj
      rw [Function.update_self, Function.update_self]
      exact h.clock
    · rw [Function.update_of_ne hj, Function.update_of_ne hj]
      exact h.last j
  · intro j time hj
    cases hj
  · intro j compared hj
    cases hj
  · exact forall_update (P := fun j c ↦ AllFair (tmrInterval j).toNat (u j) c)
      ⟨hfair, h.fair i⟩ h.fair

/-- One case for every access. -/
theorem Inv.step (h : Inv tmrInterval u s) (hs : Step tmrInterval s e s') :
    Inv tmrInterval u s' := by
  cases hs with
  | tick => exact h.tick
  | enter i _ => exact h.enter i
  | compare hpc => exact h.compare hpc
  | record hpc => exact h.record hpc

/-- **Every timer fires never early and never late**, whatever the other timers do and wherever the
interrupt comes, across any number of wraps.  That it never fires early needs no bound on the time
between two firings, since a wrap makes the measured distance smaller only. -/
theorem timer_law (h : Reaches (Started u) (Step tmrInterval) history s) (i : ι) :
    Law (tmrInterval i).toNat (u i) (s.calls i) := by
  have hinv : Inv tmrInterval u s :=
    h.invariant (I := fun _ s ↦ Inv tmrInterval u s) (fun _ hs ↦ hs.inv)
      fun _ _ _ _ _ hI hs ↦ hI.step hs
  exact (hinv.fair i).law

/-! ## Calls return -/

/-- An access of `timer_expired`, not the interrupt. -/
def Event.isAccess : Event ι → Bool
  | .tick => false
  | .enter _ | .compare | .record => true

/-- A call for this timer was entered and has not returned. -/
def Pc.Pending (i : ι) : Pc ι → Prop
  | .idle => False
  | .loaded j _ | .expired j _ => j = i

/-- How many accesses the call makes at most until it returns. -/
def Pc.left : Pc ι → Nat
  | .idle => 0
  | .loaded _ _ => 2
  | .expired _ _ => 1

variable {i : ι} {events : List (Event ι)}

/-- No access waits for anything, and none is made twice. -/
theorem exists_access (hpc : s.pc.Pending i) :
    ∃ e s', e.isAccess ∧ Step tmrInterval s e s' ∧ s'.pc.left < s.pc.left := by
  cases h : s.pc with
  | idle =>
      rw [h] at hpc
      exact absurd hpc id
  | loaded j time =>
      refine ⟨.compare, _, rfl, .compare h, ?_⟩
      rw [Board.compare]
      split
      · exact Nat.one_lt_two
      · exact Nat.two_pos
  | expired j compared => exact ⟨.record, _, rfl, .record h, Nat.one_pos⟩

/-- A step of a pending call brings it nearer to its return, an interrupt leaves it where it is. -/
theorem Step.pending (hs : Step tmrInterval s e s') (hpc : s.pc.Pending i) :
    (s'.pc.Pending i ∧ s'.calls i = s.calls i ∧
    s'.pc.left + [e].countP Event.isAccess ≤ s.pc.left) ∨
      ∃ c, s'.calls i = c :: s.calls i := by
  cases hs with
  | tick => exact .inl ⟨hpc, rfl, le_rfl⟩
  | enter j hidle =>
      rw [hidle] at hpc
      exact absurd hpc id
  | @compare j time h =>
      rw [h] at hpc
      obtain rfl : j = i := hpc
      rw [h, Board.compare]
      split
      · exact .inl ⟨rfl, rfl, le_rfl⟩
      · exact .inr ⟨_, Function.update_self ..⟩
  | @record j compared h =>
      rw [h] at hpc
      obtain rfl : j = i := hpc
      exact .inr ⟨_, Function.update_self ..⟩

/-- The calls that have returned stay on record. -/
theorem Step.keeps (hs : Step tmrInterval s e s') (i : ι) : s.calls i <:+ s'.calls i := by
  have hupdate (j : ι) (c : Call) : s.calls i <:+ Function.update s.calls j (c :: s.calls j) i :=
    forall_update (P := fun i calls ↦ s.calls i <:+ calls) (List.suffix_cons ..)
      (fun i ↦ List.suffix_refl (s.calls i)) i
  cases hs with
  | tick => exact List.suffix_refl _
  | enter j hidle => exact List.suffix_refl _
  | compare h =>
      rw [Board.compare]
      split
      · exact List.suffix_refl _
      · exact hupdate _ _
  | record h => exact hupdate _ _

/-- **A call that was entered returns** with its second access at the latest, whatever interrupts
come in between. -/
theorem call_returns (hpc : s.pc.Pending i)
    (h : Reaches (fun x ↦ x = s) (Step tmrInterval) events s')
    (hleft : s.pc.left ≤ events.countP Event.isAccess) : ∃ c, c :: s.calls i <:+ s'.calls i := by
  have hgoing : (s'.pc.Pending i ∧ s'.calls i = s.calls i ∧
      s'.pc.left + events.countP Event.isAccess ≤ s.pc.left) ∨
      ∃ c, c :: s.calls i <:+ s'.calls i := by
    refine h.invariant (I := fun events t ↦ (t.pc.Pending i ∧ t.calls i = s.calls i ∧
      t.pc.left + events.countP Event.isAccess ≤ s.pc.left) ∨
      ∃ c, c :: s.calls i <:+ t.calls i) ?_ ?_
    · rintro _ rfl
      exact .inl ⟨hpc, rfl, le_rfl⟩
    · rintro past t e t' - (⟨ht, hcalls, hle⟩ | ⟨c, hc⟩) hs
      · rcases hs.pending ht with ⟨ht', hsame, hless⟩ | ⟨c, hc⟩
        · refine .inl ⟨ht', hsame.trans hcalls, ?_⟩
          rw [List.countP_cons]
          rw [List.countP_singleton] at hless
          omega
        · exact .inr ⟨c, by rw [hc, hcalls]⟩
      · exact .inr ⟨c, hc.trans (hs.keeps i)⟩
  rcases hgoing with ⟨hpending, -, hle⟩ | hreturned
  · -- a pending call has an access left, and all of them were made
    have hpos : 0 < s'.pc.left := by
      obtain ⟨_, _, -, -, hlt⟩ := @exists_access _ tmrInterval _ _ _ hpending
      exact Nat.zero_lt_of_lt hlt
    omega
  · exact hreturned

/-! ## The polling loop -/

/-- The timers of `LWIP_Polling`. -/
inductive Polled
  | input
  | tcp
  | arp
  | ipreass
  deriving DecidableEq

def CLOCKTICKS_PER_MS : UInt32 := 10
def TCP_TMR_INTERVAL : UInt32 := 250
def ARP_TMR_INTERVAL : UInt32 := 5000
def IP_TMR_INTERVAL : UInt32 := 1000

/-- The intervals that `LWIP_Polling` passes. -/
def pollingInterval : Polled → UInt32
  | .input => 5
  | .tcp => TCP_TMR_INTERVAL / CLOCKTICKS_PER_MS
  | .arp => ARP_TMR_INTERVAL / CLOCKTICKS_PER_MS
  | .ipreass => IP_TMR_INTERVAL / CLOCKTICKS_PER_MS

/-- Three ticks before the counter wraps. -/
def beforeWrap : Board Polled where
  lwipTimer := 0xFFFFFFFD
  lastTime _ := 0xFFFFFFFC
  pc := .idle
  now := 0xFFFFFFFD
  calls _ := []

/-- Four ticks, and a call of the input timer. -/
def wrapped : Board Polled := beforeWrap.tick.tick.tick.tick.enter .input

/-- The call is interrupted by another tick before it records the time. -/
def acrossWrap : Board Polled :=
  (wrapped.compare .input 0xFFFFFFFC 5).tick.record .input 0x100000001

theorem wrapped_compare :
    wrapped.compare .input 0xFFFFFFFC 5 = { wrapped with pc := .expired .input 0x100000001 } := by
  have hle : (5 : UInt32) ≤ wrapped.lwipTimer - 0xFFFFFFFC := by decide
  exact if_pos hle

theorem timer_law_acrossWrap :
    acrossWrap.lwipTimer = 2 ∧ (acrossWrap.calls .input).length = 1 ∧
      Law 5 0xFFFFFFFC (acrossWrap.calls .input) := by
  have hstart : Started (fun _ ↦ 0xFFFFFFFC) beforeWrap :=
    ⟨rfl, fun _ ↦ by decide, fun _ ↦ rfl, rfl, rfl⟩
  have hticks : Reaches (Started fun _ ↦ 0xFFFFFFFC) (Step pollingInterval) _
      beforeWrap.tick.tick.tick.tick :=
    ((((Reaches.start hstart).step (.tick _)).step (.tick _)).step (.tick _)).step (.tick _)
  have hpc : (wrapped.compare .input 0xFFFFFFFC 5).tick.pc = .expired .input 0x100000001 := by
    rw [wrapped_compare]
    rfl
  have hcompare : Step pollingInterval wrapped .compare (wrapped.compare .input 0xFFFFFFFC 5) :=
    .compare rfl
  have hrecord : Step pollingInterval (wrapped.compare .input 0xFFFFFFFC 5).tick .record
      acrossWrap :=
    .record hpc
  have henter : Step pollingInterval beforeWrap.tick.tick.tick.tick (.enter Polled.input) wrapped :=
    .enter Polled.input rfl
  have hcall := (((hticks.step henter).step hcompare).step (.tick _)).step hrecord
  have hlog : acrossWrap.calls .input = [⟨0x100000001, some 0x100000002⟩] := by
    unfold acrossWrap
    rw [wrapped_compare]
    rfl
  have htimer : acrossWrap.lwipTimer = 2 := by
    unfold acrossWrap
    rw [wrapped_compare]
    rfl
  exact ⟨htimer, congrArg List.length hlog, timer_law hcall Polled.input⟩

end Stm32F1.Lwip.Timer

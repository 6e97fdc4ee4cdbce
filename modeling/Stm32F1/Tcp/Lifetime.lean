import Stm32F1.Tcp.Phases

/-!
# When a connection ends

Three parties end a connection: the client in its callbacks, the main loop, and
lwIP.  `main` keeps its own pointer, and nobody tells it that the connection is
gone, so it closes a connection a second time whenever it acts too late; and the
err callback is empty, so the flag stays set when lwIP frees the connection.
-/

namespace Stm32F1.Tcp

open Prog

variable {a : Abs} {s s' : World} {e : Event} {history : List Event} {log : List Act}

/-! ## Aborting once -/

/-- No connection is aborted that was aborted or freed before. -/
def AbortOnce (log : List Act) : Prop :=
  Meets (fun before act ↦ ∀ pcb, act = .tcpAbort pcb → ¬ Gone before pcb) log

theorem abortOnce_cons {act : Act} : AbortOnce (act :: log) ↔
    (∀ pcb, act = .tcpAbort pcb → ¬ Gone log pcb) ∧ AbortOnce log := meets_cons

theorem abortOnce_connActs : AbortOnce (connActs log) ↔ AbortOnce log := by
  induction log with
  | nil => exact Iff.rfl
  | cons act log ih =>
      rw [abortOnce_cons, ← ih]
      by_cases hact : act.ofConnection
      · have hcons : connActs (act :: log) = act :: connActs log := List.filter_cons_of_pos hact
        rw [hcons, abortOnce_cons]
        simp only [gone_connActs]
      · have hcons : connActs (act :: log) = connActs log := List.filter_cons_of_neg hact
        rw [hcons, and_iff_right]
        rintro pcb rfl
        exact absurd rfl hact

/-- The main loop does not close a connection that is gone: no key for closing, and no reconnection,
once the connection has ended. -/
def Abs.InTime (a : Abs) : Event → Prop
  | .key1 => a.phase ≠ .reset ∧ a.phase ≠ .ended
  | .status => a.phase ≠ .ended
  | _ => True

theorem Tracks.gone_iff (h : Tracks a s) :
    Gone s.log s.tcppcb ↔ a.phase = .reset ∨ a.phase = .ended := by
  rw [h.gone, and_iff_right h.tcppcb]
  constructor
  · intro hdead
    by_contra hphase
    have hinphase := h.phase
    cases ha : a.phase with
    | connecting =>
        rw [ha] at hinphase
        exact Bool.false_ne_true (hdead.symm.trans (congrArg Pcb.live hinphase.1))
    | opened =>
        rw [ha] at hinphase
        obtain ⟨es, hes, -⟩ := hinphase.es
        exact Bool.false_ne_true (hdead.symm.trans (congrArg Pcb.live hes))
    | closing =>
        rw [ha] at hinphase
        obtain ⟨es, hes, -⟩ := hinphase.es
        exact Bool.false_ne_true (hdead.symm.trans (congrArg Pcb.live hes))
    | reset => exact hphase (.inl ha)
    | ended => exact hphase (.inr ha)
  · have hinphase := h.phase
    rintro (ha | ha)
    · rw [ha] at hinphase
      exact hinphase.1
    · rw [ha] at hinphase
      exact hinphase.1

/-- An abort is the first end of the connection exactly when the connection is not gone. -/
theorem Tracks.abortOnce_abort (h : Tracks a s)
    (hacts : connActs s'.log = .tcpAbort s.tcppcb :: connActs s.log) :
    AbortOnce s'.log ↔ AbortOnce s.log ∧ a.phase ≠ .reset ∧ a.phase ≠ .ended := by
  rw [← abortOnce_connActs, hacts, abortOnce_cons, abortOnce_connActs, and_comm]
  refine and_congr_right fun _ ↦ ?_
  rw [← not_or, ← h.gone_iff]
  simp only [gone_connActs, Act.tcpAbort.injEq, forall_eq']

theorem abortOnce_same (hacts : connActs s'.log = connActs s.log) :
    AbortOnce s'.log ↔ AbortOnce s.log := by
  rw [← abortOnce_connActs, hacts, abortOnce_connActs]

theorem abortOnce_other {act : Act} (hacts : connActs s'.log = act :: connActs s.log)
    (hact : ∀ pcb, act ≠ .tcpAbort pcb) : AbortOnce s'.log ↔ AbortOnce s.log := by
  rw [← abortOnce_connActs, hacts, abortOnce_cons, abortOnce_connActs]
  exact and_iff_right fun pcb heq ↦ absurd heq (hact pcb)

/-- A step keeps the law exactly when the main loop acts in time. -/
theorem abortOnce_step (h : Tracks a s) (hs : Step s e s') :
    AbortOnce s'.log ↔ AbortOnce s.log ∧ a.InTime e := by
  have hacts := (follows h hs).2
  cases e with
  | connected pcb e mem =>
      obtain ⟨-, hphase⟩ := h.connecting hs.1.1 hs.1.2.1
      simp only [Abs.InTime, and_true]
      rw [Abs.acts] at hacts
      split at hacts
      · exact abortOnce_other hacts fun pcb ↦ Act.noConfusion
      · rw [h.abortOnce_abort hacts, hphase]
        exact and_iff_left ⟨by decide, by decide⟩
  | recv pcb packet e => exact (abortOnce_same hacts).trans (and_true _).symm.to_iff
  | sent pcb len answers => exact (abortOnce_same hacts).trans (and_true _).symm.to_iff
  | poll pcb alloc answers =>
      simp only [Abs.InTime, and_true]
      rw [Abs.acts] at hacts
      split at hacts
      · rename_i hphase
        rw [h.abortOnce_abort hacts, hphase.2]
        exact and_iff_left ⟨by decide, by decide⟩
      · exact abortOnce_same hacts
  | err pcb e =>
      simp only [Abs.InTime, and_true]
      exact abortOnce_other hacts fun pcb ↦ Act.noConfusion
  | newData => exact (abortOnce_same hacts).trans (and_true _).symm.to_iff
  | key0 m => exact (abortOnce_same hacts).trans (and_true _).symm.to_iff
  | key1 => exact h.abortOnce_abort hacts
  | status =>
      rw [Abs.acts] at hacts
      split at hacts
      · rename_i hphase
        rw [h.abortOnce_abort hacts, Abs.InTime]
        refine and_congr_right fun _ ↦ and_iff_right ?_
        rcases hphase with hphase | hphase <;> rw [hphase] <;> decide
      · rename_i hphase
        rw [abortOnce_same hacts, Abs.InTime]
        exact (and_iff_left fun ha ↦ hphase (.inr ha)).symm

/-- **`tcp_abort` is called at most once for each connection, and never for one that lwIP has
freed, exactly in the runs in which the main loop acts in time.** -/
theorem tcp_abort_once_iff (h : Reaches Start Step history s) :
    AbortOnce s.log ↔ Meets (fun past e ↦ (after past).InTime e) history := by
  induction h with
  | start hs =>
      rw [start_iff.1 hs]
      refine iff_of_true ?_ meets_nil
      exact abortOnce_connActs.1 meets_nil
  | @step past s s' e hpast hstep ih =>
      rw [abortOnce_step (reaches_tracks hpast) hstep, ih, meets_cons, and_comm]

/-- The connection is made, and the peer resets it. -/
def resetRun : List Event := [.err 0 ERR_RST, .connected 0 ERR_OK true]

def openedState : World := World.boot.connecting.opened 0

theorem reaches_opened : Reaches Start Step [.connected 0 ERR_OK true] openedState := by
  refine .step (.start (start_iff.2 rfl)) ⟨⟨rfl, rfl, rfl⟩, ?_⟩
  exact run_connected rfl rfl ERR_OK true

theorem reaches_reset : Reaches Start Step resetRun (openedState.lost 0) :=
  .step reaches_opened ⟨rfl, run_err openedState 0 ERR_RST⟩

theorem reaches_key1 :
    Reaches Start Step [.key1, .connected 0 ERR_OK true] (openedState.closed 0 none) :=
  .step reaches_opened ⟨trivial, run_key1 openedState⟩

/-- The key for closing is pressed in time. -/
theorem tcp_abort_once_iff_key1 :
    .tcpAbort 0 ∈ (openedState.closed 0 none).log ∧ AbortOnce (openedState.closed 0 none).log := by
  have hclosed : (openedState.closed 0 none).log = closeLog 0 none openedState.log := rfl
  refine ⟨by rw [hclosed, closeLog]; simp, (tcp_abort_once_iff reaches_key1).2 ?_⟩
  exact meets_cons.2 ⟨⟨by decide, by decide⟩, meets_cons.2 ⟨trivial, meets_nil⟩⟩

/-- The key for closing is pressed after the reset. -/
theorem tcp_abort_after_reset : ¬ ∀ history s, Reaches Start Step history s → AbortOnce s.log := by
  intro h
  have hreach : Reaches Start Step (.key1 :: resetRun) ((openedState.lost 0).closed 0 none) :=
    .step reaches_reset ⟨trivial, run_key1 (openedState.lost 0)⟩
  have honce := abortOnce_connActs.2 (h _ _ hreach)
  exact (abortOnce_cons.1 honce).1 0 rfl (.inr (List.mem_cons_self ..))

/-! ## The flag -/

/-- While the flag is set, the connection whose callback set it is not gone. -/
def FlagTracks (s : World) : Prop :=
  s.tcpClientFlag &&& LWIP_CONNECTED ≠ 0 → ∃ pcb, lastFlagged s.log = some pcb ∧ ¬ Gone s.log pcb

/-- lwIP does not free an open connection by itself. -/
def Abs.Kept (a : Abs) : Event → Prop
  | .err _ _ => a.phase = .connecting
  | _ => True

theorem Tracks.flagTracks (h : Tracks a s) (ha : a.phase ≠ .reset) : FlagTracks s := by
  intro hflag
  have hphase := h.phase
  have hgone : a.phase = .opened ∨ a.phase = .closing → ¬ Gone s.log s.tcppcb := by
    intro hopen hg
    rcases h.gone_iff.1 hg with heq | heq <;> rw [heq] at hopen <;> revert hopen <;> decide
  cases hp : a.phase with
  | connecting =>
      rw [hp] at hphase
      exact absurd hphase.2 hflag
  | opened =>
      rw [hp] at hphase
      exact ⟨_, hphase.flagged, hgone (.inl hp)⟩
  | closing =>
      rw [hp] at hphase
      exact ⟨_, hphase.flagged, hgone (.inr hp)⟩
  | reset => exact absurd hp ha
  | ended =>
      rw [hp] at hphase
      exact absurd hphase.2 hflag

theorem Tracks.not_flagTracks (h : Tracks a s) (ha : a.phase = .reset) : ¬ FlagTracks s := by
  have hphase := h.phase
  rw [ha] at hphase
  intro hf
  obtain ⟨pcb, hpcb, hgone⟩ := hf hphase.2.1
  obtain rfl : s.tcppcb = pcb := Option.some.inj (hphase.2.2.symm.trans hpcb)
  exact hgone (h.gone_iff.2 (.inl ha))

/-- Only lwIP leads into the phase `reset`. -/
theorem Abs.next_ne_reset (ha : a.phase ≠ .reset) (he : a.Kept e) : (a.next e).phase ≠ .reset := by
  cases e with
  | connected pcb e mem =>
      simp only [Abs.next]
      split <;> decide
  | recv pcb packet e =>
      simp only [Abs.next]
      split
      · decide
      · exact ha
  | sent pcb len answers => exact ha
  | poll pcb alloc answers =>
      simp only [Abs.next]
      split
      · exact ha
      · dsimp only
        split
        · decide
        · exact ha
  | err pcb e =>
      have hconn : a.phase = .connecting := he
      simp only [Abs.next, hconn, if_true]
      decide
  | newData => exact ha
  | key0 m => exact ha
  | key1 =>
      simp only [Abs.next]
      decide
  | status =>
      simp only [Abs.next]
      split
      · decide
      · exact ha

/-- **`LWIP_CONNECTED` tracks the connection throughout a run exactly when lwIP does not free an
open connection by itself.** -/
theorem flag_tracks_iff (h : Reaches Start Step history s) :
    Throughout Start Step (fun _ s ↦ FlagTracks s) history ↔
      Meets (fun past e ↦ (after past).Kept e) history := by
  refine throughout_iff (I := fun past _ ↦ (after past).phase ≠ .reset) ?_ ?_ ?_ ?_ h
  · exact fun _ _ ↦ by decide
  · exact fun past s e s' _ hphase he _ ↦ Abs.next_ne_reset hphase he
  · exact fun past s hs hphase ↦ (reaches_tracks hs).flagTracks hphase
  · intro past s e s' hpast hphase he hs
    have htracks := reaches_tracks hpast
    refine (follows htracks hs).1.not_flagTracks ?_
    cases e with
    | err pcb er => exact if_neg he
    | _ => exact absurd trivial he

/-- While the connection is open. -/
theorem flag_tracks_iff_opened : FlagTracks openedState := by
  have hrun := (flag_tracks_iff reaches_opened).2 (meets_cons.2 ⟨trivial, meets_nil⟩)
  exact hrun.now reaches_opened

/-- After a reset the flag is still set: the main loop does not connect again. -/
theorem flag_after_reset : ¬ ∀ history s, Reaches Start Step history s → FlagTracks s :=
  fun h ↦ (reaches_tracks reaches_reset).not_flagTracks rfl (h _ _ reaches_reset)

/-- Nor does it until the key for closing is pressed. -/
theorem status_after_reset (h : Tracks a s) (ha : a.phase = .reset) (hs : Step s .status s') :
    s' = s := by
  rcases step_status h hs with ⟨hphase, -⟩ | ⟨-, heq⟩
  · rw [ha] at hphase
    exact absurd hphase (by decide)
  · exact heq

end Stm32F1.Tcp

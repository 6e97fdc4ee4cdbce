import Stm32F1.Uart.Task

/-!
# Releasing the buffer

The task sets `USART_RX_STA` to 0 and then clears the buffer.  A byte that the
handler stores in between is cleared as well.
-/

namespace Stm32F1.Uart.Command

variable {s : System} {e : Event} {past history : List Event} {p : Pieces UInt8} {b : Option UInt8}

/-- Between the two statements of the release no byte is stored, and `USART_RX_STA` is only set to 0
when a line is complete or none has begun. -/
def Gentle (past : List Event) (e : Event) : Prop :=
  match e with
  | .interrupt b => (state past).pc = .clearBuf →
      ((state past).globals.rx.interrupt rtos b).stores = (state past).globals.rx.stores
  | .task => (state past).pc = .release →
      (state past).globals.rx.Completed rtos ∨ (state past).globals.rx.usartRxSta = 0
  | .create => True

instance : ∀ past e, Decidable (Gentle past e)
  | _, .interrupt _ => inferInstanceAs (Decidable (_ → _))
  | _, .task => inferInstanceAs (Decidable (_ → _ ∨ _))
  | _, .create => inferInstanceAs (Decidable True)

/-- A complete line is in the buffer with all its bytes. -/
def Intact (p : Pieces UInt8) (rx : Rx 16) : Prop :=
  rx.Completed rtos → p.mode = .complete ∧ (rx.usartRxSta &&& 0X3FFF).toNat = p.piece.length ∧
    Begins rx.usartRxBuf p.piece

/-! ## The steps -/

/-- The other statements have nothing to do with the receiver. -/
theorem task_frame (hrelease : s.pc ≠ .release) (hclear : s.pc ≠ .clearBuf) :
    (dataProcessTask s).globals.rx = s.globals.rx ∧ (dataProcessTask s).pc ≠ .clearBuf := by
  rw [dataProcessTask]
  cases hpc : s.pc with
  | take =>
      change (waitTake s).globals.rx = _ ∧ (waitTake s).pc ≠ _
      rw [waitTake]
      split
      · exact ⟨rfl, nofun⟩
      · exact ⟨rfl, hclear⟩
  | release => exact absurd hpc hrelease
  | clearBuf => exact absurd hpc hclear
  | length => exact ⟨rfl, nofun⟩
  | copy =>
      dsimp only
      split <;> exact ⟨rfl, nofun⟩
  | terminate =>
      dsimp only
      split <;> exact ⟨rfl, nofun⟩
  | lower => exact ⟨rfl, nofun⟩
  | process => exact ⟨rfl, nofun⟩
  | carryOut => exact ⟨rfl, nofun⟩
  | clearStr => exact ⟨rfl, nofun⟩
  | overrun => exact ⟨rfl, hclear⟩

theorem stream_task (h : (state past).pc ≠ .release) : stream (.task :: past) = stream past :=
  if_neg fun h' ↦ h h'.1

theorem startTask_frame (s : System) :
    (startTask s).globals.rx = s.globals.rx ∧ (startTask s).pc = s.pc := by
  rw [startTask]
  split <;> exact ⟨rfl, rfl⟩

/-- An interrupt that stores nothing leaves an empty piece empty. -/
theorem piece_eq_nil {r : Rx 16} (h : Tracks rtos r p) (hp : p.piece = [])
    (hstores : (r.interrupt rtos b).stores = r.stores) :
    (interrupted rtos.size b p).piece = [] := by
  cases b with
  | none => exact hp
  | some res =>
      cases hm : p.mode with
      | inside =>
          by_cases hb : res = CR
          · rw [hb, interrupted, Pieces.next_first hm]
            exact hp
          · have hlength := congrArg List.length hstores
            change (r.receive rtos res).stores.length = _ at hlength
            rw [h.receive_store hm hb] at hlength
            exact absurd hlength (Nat.succ_ne_self _)
      | marked =>
          by_cases hb : res = LF
          · rw [hb, interrupted, Pieces.next_second hm]
            exact hp
          · rw [interrupted, Pieces.next_giveUp hm hb]
            rfl
      | complete =>
          rw [interrupted, Pieces.next_complete hm]
          exact hp

/-- What holds as long as the buffer is released in peace. -/
structure Peaceful (past : List Event) (s : System) : Prop where
  tracks : Tracks rtos s.globals.rx (stream past)
  cleared : s.pc = .clearBuf → (stream past).piece = []

theorem peaceful_start : Peaceful [] System.start where
  tracks := tracks_start rtos
  cleared _ := rfl

theorem Peaceful.interrupt (h : Peaceful past (state past)) (hgentle : Gentle past (.interrupt b)) :
    Peaceful (.interrupt b :: past) ((state past).next (.interrupt b)) where
  tracks := by
    have hnext := h.tracks.interrupt b
    rw [← usart1IrqHandler_rx] at hnext
    exact hnext
  cleared hpc := piece_eq_nil h.tracks (h.cleared hpc) (hgentle hpc)

/-- The buffer is released. -/
theorem Peaceful.release (h : Peaceful past (state past)) (hpc : (state past).pc = .release)
    (hgentle : Gentle past .task) :
    Peaceful (.task :: past) ((state past).next .task) := by
  have hnext : (state past).next .task =
      { state past with globals := (state past).globals.setSta 0, pc := .clearBuf } := by
    rw [System.next, dataProcessTask, hpc]
  rw [hnext]
  by_cases hm : (stream past).mode = .complete
  · have hstream : stream (.task :: past) = (stream past).take := if_pos ⟨hpc, hm⟩
    refine ⟨?_, fun _ ↦ hstream ▸ rfl⟩
    rw [hstream]
    exact h.tracks.restart rfl rfl
  · have hstream : stream (.task :: past) = stream past := if_neg fun h' ↦ hm h'.2
    have hsta : (state past).globals.rx.usartRxSta = 0 :=
      (hgentle hpc).resolve_left (mt h.tracks.completed_iff.1 hm)
    have hrx : ((state past).globals.setSta 0).rx = (state past).globals.rx := by
      rw [Globals.setSta, ← hsta]
    have hpiece : (stream past).piece = [] := by
      refine List.length_eq_zero_iff.1 ?_
      rw [← h.tracks.index, hsta]
      rfl
    refine ⟨?_, fun _ ↦ hstream ▸ hpiece⟩
    rw [hstream]
    exact hrx ▸ h.tracks

/-- The buffer is cleared. -/
theorem Peaceful.clearBuf (h : Peaceful past (state past)) (hpc : (state past).pc = .clearBuf) :
    Peaceful (.task :: past) ((state past).next .task) := by
  have hpiece := h.cleared hpc
  have hstream : stream (.task :: past) = stream past := stream_task (by rw [hpc]; decide)
  rw [System.next, dataProcessTask, hpc]
  refine ⟨?_, fun h' ↦ nomatch h'⟩
  rw [hstream]
  exact ⟨h.tracks.sta, hpiece ▸ begins_nil _, h.tracks.sound, h.tracks.stores⟩

theorem Peaceful.next (h : Peaceful past (state past)) (hgentle : Gentle past e) :
    Peaceful (e :: past) ((state past).next e) := by
  cases e with
  | interrupt b => exact h.interrupt hgentle
  | create =>
      obtain ⟨hrx, hpc⟩ := startTask_frame (state past)
      exact ⟨hrx ▸ h.tracks, fun hpc' ↦ h.cleared (hpc.symm.trans hpc')⟩
  | task =>
      by_cases hrelease : (state past).pc = .release
      · exact h.release hrelease hgentle
      by_cases hclear : (state past).pc = .clearBuf
      · exact h.clearBuf hclear
      · obtain ⟨hrx, hpc⟩ := task_frame hrelease hclear
        refine ⟨?_, fun hpc' ↦ absurd hpc' hpc⟩
        rw [stream_task hrelease]
        exact hrx ▸ h.tracks

theorem peaceful_of_gentle (h : Meets Gentle history) : Peaceful history (state history) :=
  after_of_meets (I := Peaceful) peaceful_start (fun _ _ h hgentle ↦ h.next hgentle) h

/-- **A line that completes is intact** as long as the buffer is released gently. -/
theorem line_intact (history : List Event) (h : Meets Gentle history) :
    Intact (stream history) (state history).globals.rx := by
  have htracks := (peaceful_of_gentle h).tracks
  intro hc
  exact ⟨htracks.completed_iff.1 hc, htracks.index, htracks.buf⟩

/-- An empty line is processed, and then a line of one byte. -/
def quiet : List Event :=
  [.interrupt (some LF), .interrupt (some CR), .interrupt (some 65), .task, .task, .task,
    .task, .task,
    .task, .task, .task, .task, .task, .interrupt (some LF), .interrupt (some CR), .create]

theorem line_intact_quiet : Intact (stream quiet) (state quiet).globals.rx :=
  line_intact quiet (by decide +kernel)

/-- A byte comes between the two statements of the release. -/
def hasty : List Event :=
  [.interrupt (some LF), .interrupt (some CR), .task, .interrupt (some 65), .task, .task,
    .task, .task, .task, .task, .task, .task, .interrupt (some LF), .interrupt (some CR), .create]

theorem line_damaged : ¬ ∀ history, Intact (stream history) (state history).globals.rx := by
  intro h
  obtain ⟨-, -, hbuf⟩ := h hasty (by decide +kernel)
  have hbyte := hbuf 0 (by decide +kernel)
  revert hbyte
  decide +kernel

end Stm32F1.Uart.Command

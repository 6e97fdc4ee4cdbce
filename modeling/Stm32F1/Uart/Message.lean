import Stm32F1.Uart.Assembler

/-!
# Lines and messages

The project that sends its lines to a queue.  The handler sends the buffer as a
whole and does not look at whether it was accepted, so a line is lost when the
queue is full; and what an abandoned line has left in the buffer is sent along
behind a shorter one.
-/

namespace Stm32F1.Uart.Message

/-! ## The system -/

/-- The handler's variables, and the items that `show_receive_task` has received. -/
structure System where
  globals : Globals
  received : List Item

inductive Event
  | interrupt (b : Option UInt8)
  | /-- `start_task` creates the queue. -/
    create
  | /-- `show_receive_task` waits for an item; it blocks while there is none. -/
    receive
  deriving DecidableEq

/-- `start_task`, which runs once. -/
def startTask (s : System) : System :=
  match s.globals.messageQueue with
  | some _ => s
  | none => { s with globals := { s.globals with messageQueue := some .xQueueCreate } }

/-- `show_receive_task` between two delays. -/
def showReceiveTask (s : System) : System :=
  match s.globals.messageQueue with
  | some q =>
      match q.xQueueReceive with
      | some (item, q) =>
          { globals := { s.globals with messageQueue := some q }, received := s.received ++ [item] }
      | none => s
  | none => s

def System.next (s : System) : Event → System
  | .interrupt b => { s with globals := usart1IrqHandler b s.globals }
  | .create => startTask s
  | .receive => showReceiveTask s

def System.start : System := ⟨⟨Rx.start 16, none, []⟩, []⟩

/-- The system after the events of a history. -/
def state : List Event → System := after System.next .start

/-- The items in the queue. -/
def Globals.queued (g : Globals) : List Item := (g.messageQueue.map Queue.items).getD []

variable {s : System} {g : Globals} {b : Option UInt8} {e : Event} {history past : List Event}
  {p : Pieces UInt8}

/-! ## The handler -/

/-- The handler before it looks at the flag. -/
abbrev Globals.assembled (g : Globals) (b : Option UInt8) : Rx 16 := g.rx.interrupt rtos b

/-- Only a line that is complete has consequences. -/
theorem handler_incomplete (h : ¬ (g.assembled b).Completed rtos) :
    usart1IrqHandler b g = { g with rx := g.assembled b } := if_neg h

/-- It is posted if the queue exists. -/
theorem handler_complete (h : (g.assembled b).Completed rtos) {q : Queue Item MESSAGE_Q_NUM}
    (hq : g.messageQueue = some q) : usart1IrqHandler b g = post (g.assembled b) q g := by
  rw [usart1IrqHandler, if_pos h, hq]

/-- And it is held back as long as it does not. -/
theorem handler_held (h : (g.assembled b).Completed rtos) (hq : g.messageQueue = none) :
    usart1IrqHandler b g = { g with rx := g.assembled b } := by
  rw [usart1IrqHandler, if_pos h, hq]

/-- A line goes to a queue that has room. -/
theorem post_room {rx : Rx 16} {q : Queue Item MESSAGE_Q_NUM}
    (h : q.items.length < MESSAGE_Q_NUM) : post rx q g =
      { rx := { rx with usartRxSta := 0, usartRxBuf := clearBuf USART_REC_LEN rx.usartRxBuf }
        messageQueue := some (q.xQueueSendFromISR (item rx.usartRxBuf)).2
        posted := g.posted ++ [item rx.usartRxBuf] } := by
  rw [post, Queue.xQueueSendFromISR, dif_pos h]
  rfl

/-- It is dropped by one that has none, and cleared all the same. -/
theorem post_full {rx : Rx 16} {q : Queue Item MESSAGE_Q_NUM}
    (h : ¬ q.items.length < MESSAGE_Q_NUM) : post rx q g =
      { rx := { rx with usartRxSta := 0, usartRxBuf := clearBuf USART_REC_LEN rx.usartRxBuf }
        messageQueue := some q
        posted := g.posted } := by
  rw [post, Queue.xQueueSendFromISR, dif_neg h]
  rfl

/-! ## No line is lost -/

/-- The stream, cut into lines; a complete line is handed on as soon as there is a queue. -/
def stream : List Event → Pieces UInt8
  | .interrupt b :: past =>
      let p := interrupted rtos.size b (stream past)
      if p.mode = .complete ∧ (state past).globals.messageQueue.isSome then p.take else p
  | .create :: past => stream past
  | .receive :: past => stream past
  | [] => .empty

/-- Every line that was completed was accepted by the queue, exactly once and in order, except that
the last one may still be held in the buffer. -/
def NoneLost (lines : List (List UInt8)) (s : System) : Prop :=
  s.globals.posted = s.received ++ s.globals.queued ∧
    ∃ accepted held, lines = accepted ++ held ∧
      List.Forall₂ (fun bytes item ↦ bytes <+: item) accepted s.globals.posted ∧
      (held = [] ∨ ∃ bytes, held = [bytes] ∧ s.globals.rx.Completed rtos ∧
        (s.globals.rx.usartRxSta &&& 0X3FFF).toNat = bytes.length ∧
        Begins s.globals.rx.usartRxBuf bytes)

/-- The queue has room when the handler sends to it. -/
def RoomToSend (past : List Event) : Event → Prop
  | .interrupt b => ((state past).globals.assembled b).Completed rtos →
      ∀ q, (state past).globals.messageQueue = some q → q.items.length < MESSAGE_Q_NUM
  | _ => True

/-- The item begins with the line. -/
theorem prefix_item {r : Rx 16} (h : Tracks rtos r p) : p.piece <+: item r.usartRxBuf := by
  have hle : p.piece.length ≤ USART_REC_LEN := h.le_last.trans (Nat.sub_le ..)
  rw [List.prefix_iff_eq_take, item, ← List.map_take, List.take_range, Nat.min_eq_left hle]
  apply List.ext_getElem
  · rw [List.length_map, List.length_range]
  · intro i hi _
    rw [List.getElem_map, List.getElem_range]
    exact (h.buf i hi).symm

/-- Behind a line that was cleared the next one begins. -/
theorem tracks_cleared {r : Rx 16} (h : Tracks rtos r p) : Tracks rtos
    { r with usartRxSta := 0, usartRxBuf := clearBuf USART_REC_LEN r.usartRxBuf } p.take where
  sta := (Variant.word_inside rtos 0).symm
  buf := begins_nil _
  sound := Pieces.sound_nil rfl
  stores := h.stores

/-- An item joins the end of a queue that has room. -/
theorem queued_send {q : Queue Item MESSAGE_Q_NUM} (h : q.items.length < MESSAGE_Q_NUM)
    (x : Item) : (q.xQueueSendFromISR x).2.items = q.items ++ [x] := by
  rw [Queue.xQueueSendFromISR, dif_pos h]

/-- As long as there is no queue, nothing is taken. -/
theorem stream_held (hq : (state past).globals.messageQueue = none) (b : Option UInt8) :
    stream (.interrupt b :: past) = interrupted rtos.size b (stream past) := by
  rw [stream, hq]
  exact if_neg fun h ↦ Bool.false_ne_true h.2

/-- Nor is anything while no line is complete. -/
theorem stream_incomplete (hm : (interrupted rtos.size b (stream past)).mode ≠ .complete) :
    stream (.interrupt b :: past) = interrupted rtos.size b (stream past) := if_neg fun h ↦ hm h.1

/-- A line that is complete is taken at once. -/
theorem stream_taken (hm : (interrupted rtos.size b (stream past)).mode = .complete)
    (hq : (state past).globals.messageQueue ≠ none) :
    stream (.interrupt b :: past) = (interrupted rtos.size b (stream past)).take :=
  if_pos ⟨hm, Option.isSome_iff_ne_none.2 hq⟩

/-- The handler follows the stream, whether or not there is room in the queue. -/
theorem tracks_handler (h : Tracks rtos (state past).globals.rx (stream past)) (b : Option UInt8) :
    Tracks rtos (usart1IrqHandler b (state past).globals).rx (stream (.interrupt b :: past)) := by
  have hnext := h.interrupt b
  by_cases hm : (interrupted rtos.size b (stream past)).mode = .complete
  · have hc := hnext.completed_iff.2 hm
    cases hq : (state past).globals.messageQueue with
    | none =>
        rw [handler_held hc hq, stream_held hq]
        exact hnext
    | some q =>
        rw [handler_complete hc hq, stream_taken hm (by rw [hq]; exact Option.some_ne_none q)]
        exact tracks_cleared hnext
  · have hc := mt hnext.completed_iff.1 hm
    rw [handler_incomplete hc, stream_incomplete hm]
    exact hnext

/-- The tasks only change the queue. -/
theorem startTask_frame (s : System) : (startTask s).globals.rx = s.globals.rx ∧
    (startTask s).globals.posted = s.globals.posted := by
  rw [startTask]
  split <;> exact ⟨rfl, rfl⟩

/-- The task only takes from the queue. -/
theorem showReceiveTask_frame (s : System) : (showReceiveTask s).globals.rx = s.globals.rx ∧
    (showReceiveTask s).globals.posted = s.globals.posted := by
  rw [showReceiveTask]
  split
  · split <;> exact ⟨rfl, rfl⟩
  · exact ⟨rfl, rfl⟩

/-- The stream is followed whatever happens. -/
theorem tracks_stream (history : List Event) :
    Tracks rtos (state history).globals.rx (stream history) := by
  induction history with
  | nil => exact tracks_start rtos
  | cons e past ih =>
      cases e with
      | interrupt b => exact tracks_handler ih b
      | create =>
          obtain ⟨hrx, -⟩ := startTask_frame (state past)
          exact hrx ▸ ih
      | receive =>
          obtain ⟨hrx, -⟩ := showReceiveTask_frame (state past)
          exact hrx ▸ ih

/-- What holds as long as there is room. -/
structure Kept (past : List Event) (s : System) : Prop where
  posted : s.globals.posted = s.received ++ s.globals.queued
  lines : ∃ accepted, (stream past).HandedOn accepted ∧
    List.Forall₂ (fun bytes item ↦ bytes <+: item) accepted s.globals.posted

/-- So no line is lost. -/
theorem Kept.noneLost (h : Kept past (state past)) : NoneLost (stream past).lines (state past) := by
  have htracks := tracks_stream past
  obtain ⟨accepted, hlines, hposted⟩ := h.lines
  refine ⟨h.posted, accepted, _, hlines, hposted, ?_⟩
  split
  · rename_i hm
    exact .inr ⟨_, rfl, htracks.completed_iff.2 hm, htracks.index, htracks.buf⟩
  · exact .inl rfl

/-- An interrupt takes no line. -/
theorem handedOn_interrupted {taken : List (List UInt8)} (h : p.HandedOn taken) (b : Option UInt8) :
    (interrupted rtos.size b p).HandedOn taken := by
  cases b with
  | none => exact h
  | some res => exact h.next res

/-- No line has come at reset. -/
theorem kept_start : Kept [] System.start where
  posted := rfl
  lines := ⟨[], rfl, .nil⟩

/-- An interrupt that finds room posts the line that it completes. -/
theorem Kept.interrupt (h : Kept past (state past)) (hroom : RoomToSend past (.interrupt b)) :
    Kept (.interrupt b :: past) ((state past).next (.interrupt b)) := by
  have hnext := (tracks_stream past).interrupt b
  obtain ⟨accepted, hlines, hposted⟩ := h.lines
  have hlines' := handedOn_interrupted hlines b
  by_cases hm : (interrupted rtos.size b (stream past)).mode = .complete
  · have hc := hnext.completed_iff.2 hm
    cases hq : (state past).globals.messageQueue with
    | none =>
        refine ⟨?_, accepted, ?_, ?_⟩
        · rw [System.next, handler_held hc hq]
          exact h.posted
        · rw [stream_held hq]
          exact hlines'
        · rw [System.next, handler_held hc hq]
          exact hposted
    | some q =>
        have hsome : (state past).globals.messageQueue ≠ none := by
          rw [hq]
          exact Option.some_ne_none q
        have hlt := hroom hc q hq
        have hitem := prefix_item hnext
        refine ⟨?_, accepted ++ [(interrupted rtos.size b (stream past)).piece], ?_, ?_⟩
        · rw [System.next, handler_complete hc hq, post_room hlt]
          have hqueued : (state past).globals.queued = q.items := by
            rw [Globals.queued, hq]
            rfl
          change (state past).globals.posted ++ [_] = (state past).received ++ Queue.items _
          rw [queued_send hlt, h.posted, hqueued, List.append_assoc]
        · rw [stream_taken hm hsome]
          exact hlines'.take hm
        · rw [System.next, handler_complete hc hq, post_room hlt]
          exact List.rel_append hposted (.cons hitem .nil)
  · have hc := mt hnext.completed_iff.1 hm
    refine ⟨?_, accepted, ?_, ?_⟩
    · rw [System.next, handler_incomplete hc]
      exact h.posted
    · rw [stream_incomplete hm]
      exact hlines'
    · rw [System.next, handler_incomplete hc]
      exact hposted

/-- The queue that `start_task` creates is empty. -/
theorem Kept.startTask (h : Kept past s) : Kept (.create :: past) (startTask s) := by
  rw [Message.startTask]
  split
  · exact ⟨h.posted, h.lines⟩
  · rename_i hq
    refine ⟨?_, h.lines⟩
    have hposted := h.posted
    rw [Globals.queued, hq] at hposted
    exact hposted

/-- The task shows the oldest item. -/
theorem Kept.showReceiveTask (h : Kept past s) : Kept (.receive :: past) (showReceiveTask s) := by
  rw [Message.showReceiveTask]
  split
  · rename_i q hq
    split
    · rename_i item q' hreceive
      refine ⟨?_, h.lines⟩
      have hitems : q.items = item :: q'.items := by
        obtain ⟨items, hle⟩ := q
        cases items with
        | nil => cases hreceive
        | cons x xs =>
            obtain ⟨rfl, rfl⟩ := Prod.mk.inj (Option.some.inj hreceive)
            rfl
      have hposted := h.posted
      rw [Globals.queued, hq] at hposted
      change _ = (s.received ++ [item]) ++ q'.items
      rw [List.append_assoc, List.singleton_append, ← hitems]
      exact hposted
    · exact ⟨h.posted, h.lines⟩
  · exact ⟨h.posted, h.lines⟩

/-- One event. -/
theorem Kept.next (h : Kept past (state past)) (hroom : RoomToSend past e) :
    Kept (e :: past) ((state past).next e) := by
  cases e with
  | interrupt b => exact h.interrupt hroom
  | create => exact h.startTask
  | receive => exact h.showReceiveTask

/-- Without room the line is neither accepted nor held. -/
theorem Kept.lost (h : Kept past (state past)) (hfull : ¬ RoomToSend past e) :
    ¬ NoneLost (stream (e :: past)).lines ((state past).next e) := by
  cases e with
  | interrupt b =>
      rw [RoomToSend, not_forall] at hfull
      obtain ⟨hc, hfull⟩ := hfull
      rw [not_forall] at hfull
      obtain ⟨q, hfull⟩ := hfull
      rw [not_forall] at hfull
      obtain ⟨hq, hfull⟩ := hfull
      have hm := ((tracks_stream past).interrupt b).completed_iff.1 hc
      obtain ⟨accepted, hlines, hposted⟩ := h.lines
      have hlines' := handedOn_interrupted hlines b
      have hsome : (state past).globals.messageQueue ≠ none := by
        rw [hq]
        exact Option.some_ne_none q
      rw [stream_taken hm hsome, System.next, handler_complete hc hq, post_full hfull]
      rintro ⟨-, accepted', held, heq, hposted', hheld⟩
      rw [(hlines'.take hm).lines Pieces.inside_ne] at heq
      have hlength : accepted'.length = accepted.length :=
        hposted'.length_eq.trans hposted.length_eq.symm
      have hlengths := congrArg List.length heq
      rw [List.length_append, List.length_append, hlength] at hlengths
      rcases hheld with rfl | ⟨bytes, -, hcompleted, -⟩
      · exact absurd hlengths (by simp)
      · exact hcompleted BitVec.zero_and
  | create => exact absurd trivial hfull
  | receive => exact absurd trivial hfull

/-- **No completed line is lost exactly when there is room** in the queue whenever the handler sends
to it. -/
theorem none_lost_iff (history : List Event) :
    (∀ past, past <:+ history → NoneLost (stream past).lines (state past)) ↔
      Meets RoomToSend history :=
  always_after_iff (I := Kept) kept_start (fun _ _ h hroom ↦ h.next hroom)
    (fun _ h ↦ h.noneLost) fun _ _ h hfull ↦ h.lost hfull

/-- When no line is held, as many were accepted as were completed. -/
theorem NoneLost.length {lines : List (List UInt8)} (h : NoneLost lines s)
    (hc : ¬ s.globals.rx.Completed rtos) : lines.length = s.globals.posted.length := by
  obtain ⟨-, accepted, held, rfl, hposted, hheld⟩ := h
  rcases hheld with rfl | ⟨bytes, -, hcompleted, -⟩
  · rw [List.append_nil]
    exact hposted.length_eq
  · exact absurd hcompleted hc

/-- Five empty lines come before the task has received one of them. -/
def flood : List Event :=
  [.interrupt (some LF), .interrupt (some CR), .interrupt (some LF), .interrupt (some CR),
    .interrupt (some LF), .interrupt (some CR), .interrupt (some LF), .interrupt (some CR),
    .interrupt (some LF), .interrupt (some CR), .create]

theorem line_lost_when_full : ¬ ∀ history past, past <:+ history →
    NoneLost (stream past).lines (state past) := by
  intro h
  have hlost := (h flood flood (List.suffix_refl _)).length (by decide +kernel)
  revert hlost
  decide +kernel

end Stm32F1.Uart.Message

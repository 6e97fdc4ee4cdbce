import Stm32F1.Uart.Handlers

/-!
# The line assembler

Whatever comes, and whenever a consumer sets `USART_RX_STA` to 0, the word and
the buffer tell how the stream of bytes is cut into lines.  Here a piece is
not given up when the buffer is full: the index begins again at 0, and what is
left of the piece is its end.
-/

namespace Stm32F1.Uart

variable {v : Variant} {r : Rx v.width} {p q : Pieces UInt8}

/-- The word and the buffer belong to the bytes that have come since the last restart. -/
structure Assembled (v : Variant) (r : Rx v.width) (q : Pieces UInt8) : Prop where
  /-- Every store was in the buffer. -/
  inside : ∀ i ∈ r.stores, i < v.size
  /-- The low bits count the bytes, -/
  index : (r.usartRxSta &&& v.mask).toNat = q.piece.length % v.size
  /-- and the other bits are the flags. -/
  word : r.usartRxSta = v.word (q.piece.length % v.size) q.mode
  /-- A complete line is in the buffer, as far as it did not run over. -/
  complete : r.Completed v → q.mode = .complete ∧ ∃ bytes, bytes <:+ q.piece ∧
    bytes.length = (r.usartRxSta &&& v.mask).toNat ∧ CR ∉ bytes ∧ Begins r.usartRxBuf bytes

/-- What the word and the buffer tell about a stream with the limit is right about one without. -/
theorem Tracks.assembled (h : Tracks v r p) (htail : Pieces.Tail v.size p q) : Assembled v r q where
  inside := h.stores
  index := h.index.trans htail.length
  word := by rw [h.sta, htail.length, htail.mode]
  complete hc := by
    refine ⟨htail.mode.symm.trans (h.completed_iff.1 hc), p.piece, htail.suffix,
      h.index.symm, ?_, ?_⟩
    · exact h.sound.clean
    · exact h.buf

/-- The word and the buffer belong to the stream, and its pieces to those without a limit. -/
def Follows (v : Variant) (r : Rx v.width) (q : Pieces UInt8) : Prop :=
  ∃ p, Tracks v r p ∧ Pieces.Tail v.size p q

/-- The stream when an interrupt has come. -/
def interrupted (limit : Nat) (b : Option UInt8) (q : Pieces UInt8) : Pieces UInt8 :=
  match b with
  | some res => q.next limit CR LF res
  | none => q

/-- The handler follows the stream, whether a byte has come or not. -/
theorem Tracks.interrupt (h : Tracks v r p) (b : Option UInt8) :
    Tracks v (r.interrupt v b) (interrupted v.size b p) := by
  cases b with
  | none => exact h
  | some res => exact h.receive res

/-- A handler that follows the stream has its line. -/
theorem Follows.assembled (h : Follows v r q) : Assembled v r q := by
  obtain ⟨p, hp, htail⟩ := h
  exact hp.assembled htail

/-- A handler goes on following the stream. -/
theorem Follows.interrupt (h : Follows v r q) (b : Option UInt8) :
    Follows v (r.interrupt v b) (interrupted 0 b q) := by
  obtain ⟨p, hp, htail⟩ := h
  refine ⟨interrupted v.size b p, hp.interrupt b, ?_⟩
  cases b with
  | none => exact htail
  | some res => exact htail.next (Nat.succ_pos _) res

/-- Taking the line begins a new one. -/
theorem Follows.consume (h : Follows v r q) :
    Follows v { r with usartRxSta := 0 } q.take := by
  obtain ⟨p, hp, -⟩ := h
  exact ⟨p.take, hp.restart rfl rfl, Pieces.Tail.take p q⟩

/-- The variables before the first interrupt. -/
def Rx.start (width : Nat) : Rx width := ⟨0, fun _ ↦ 0, []⟩

/-- At reset the buffer is empty. -/
theorem tracks_start (v : Variant) : Tracks v (Rx.start v.width) .empty where
  sta := (Variant.word_inside v 0).symm
  buf := begins_nil _
  sound := Pieces.sound_nil rfl
  stores _ h := absurd h List.not_mem_nil

/-- And so is the stream. -/
theorem follows_start (v : Variant) : Follows v (Rx.start v.width) .empty :=
  ⟨.empty, tracks_start v, Pieces.tail_nil rfl rfl rfl⟩

/-- While the line is complete, an interrupt changes nothing. -/
theorem Follows.frozen (h : Follows v r q) (hc : r.Completed v) (b : Option UInt8) :
    r.interrupt v b = r := by
  obtain ⟨p, hp, -⟩ := h
  cases b with
  | none => rfl
  | some res => exact hp.receive_complete (hp.completed_iff.1 hc) res

/-! ## Runs -/

/-- What happens to the variables. -/
inductive Event
  | interrupt (b : Option UInt8)
  | /-- A consumer sets `USART_RX_STA` to 0. -/
    consume
  | /-- A task does something to the semaphore. -/
    semaphore (s : Option Semaphore)

/-- The stream, cut into lines, after the events of a history. -/
def stream : List Event → Pieces UInt8 :=
  after (fun q e ↦ match e with
    | .interrupt b => interrupted 0 b q
    | .consume => q.take
    | .semaphore _ => q) .empty

def Fatfs.step (r : Rx 8) : Event → Rx 8
  | .interrupt b => Fatfs.usart1IrqHandler b r
  | .consume => { r with usartRxSta := 0 }
  | .semaphore _ => r

def Command.step (g : Command.Globals) : Event → Command.Globals
  | .interrupt b => Command.usart1IrqHandler b g
  | .consume => { g with rx := { g.rx with usartRxSta := 0 } }
  | .semaphore s => { g with binarySemaphore := s }

/-- What the handler does with the semaphore has no influence on the line. -/
theorem Command.usart1IrqHandler_rx (b : Option UInt8) (g : Command.Globals) :
    (Command.usart1IrqHandler b g).rx = g.rx.interrupt rtos b := by
  rw [usart1IrqHandler]
  split <;> rfl

/-- The handler of the FATFS projects follows the stream. -/
theorem Fatfs.follows (history : List Event) :
    Follows Fatfs.variant (after Fatfs.step (Rx.start 8) history) (stream history) := by
  induction history with
  | nil => exact follows_start Fatfs.variant
  | cons e past ih =>
      cases e with
      | interrupt b => exact ih.interrupt b
      | consume => exact ih.consume
      | semaphore s => exact ih

/-- So does that of the projects with FreeRTOS. -/
theorem Command.follows (history : List Event) :
    Follows rtos (after Command.step ⟨Rx.start 16, none⟩ history).rx (stream history) := by
  induction history with
  | nil => exact follows_start rtos
  | cons e past ih =>
      cases e with
      | interrupt b =>
          have hrx := ih.interrupt b
          rw [← Command.usart1IrqHandler_rx] at hrx
          exact hrx
      | consume => exact ih.consume
      | semaphore s => exact ih

/-- **The line assembler**, in both variants of the handler. -/
theorem line_assembler :
    (∀ history, Assembled Fatfs.variant (after Fatfs.step (Rx.start 8) history) (stream history) ∧
      ∀ b, (after Fatfs.step (Rx.start 8) history).Completed Fatfs.variant →
        Fatfs.usart1IrqHandler b (after Fatfs.step (Rx.start 8) history) =
          after Fatfs.step (Rx.start 8) history) ∧
    ∀ history, Assembled rtos (after Command.step ⟨Rx.start 16, none⟩ history).rx (stream history) ∧
      ∀ b, (after Command.step ⟨Rx.start 16, none⟩ history).rx.Completed rtos →
        (Command.usart1IrqHandler b (after Command.step ⟨Rx.start 16, none⟩ history)).rx =
          (after Command.step ⟨Rx.start 16, none⟩ history).rx := by
  constructor
  · intro history
    have hfollows := Fatfs.follows history
    exact ⟨hfollows.assembled, fun b hc ↦ hfollows.frozen hc b⟩
  · intro history
    have hfollows := Command.follows history
    refine ⟨hfollows.assembled, fun b hc ↦ ?_⟩
    rw [Command.usart1IrqHandler_rx]
    exact hfollows.frozen hc b

end Stm32F1.Uart

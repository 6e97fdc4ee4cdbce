import Stm32F1.Uart.Receive

/-!
# The interrupt handlers

`USART1_IRQHandler` of three projects.  The first leaves a complete line to the
main loop; the second gives a binary semaphore as long as the line is complete;
the third sends the buffer to a queue and begins anew.

The queue is that of FreeRTOS, as far as it is used here; a binary semaphore is
a queue of one item without content.
-/

namespace Stm32F1.Uart

/-! ## Queues -/

/-- A queue created by `xQueueCreate`. -/
structure Queue (α : Type) (uxLength : Nat) where
  items : List α
  le : items.length ≤ uxLength

namespace Queue

variable {α : Type} {uxLength : Nat}

/-- `xQueueCreate` -/
def xQueueCreate : Queue α uxLength := ⟨[], Nat.zero_le _⟩

/-- `xQueueSendFromISR`: the result tells whether there was room. -/
def xQueueSendFromISR (q : Queue α uxLength) (item : α) : Bool × Queue α uxLength :=
  if h : q.items.length < uxLength then
    (true, ⟨q.items ++ [item], by rw [List.length_append]; exact h⟩)
  else (false, q)

/-- `xQueueReceive`, if there is an item. -/
def xQueueReceive (q : Queue α uxLength) : Option (α × Queue α uxLength) :=
  match q with
  | ⟨[], _⟩ => none
  | ⟨item :: items, h⟩ => some (item, ⟨items, (Nat.le_succ _).trans h⟩)

end Queue

abbrev Semaphore := Queue Unit 1

/-- `xSemaphoreCreateBinary`: the semaphore cannot be taken before it was given. -/
def xSemaphoreCreateBinary : Semaphore := Queue.xQueueCreate

/-- `xSemaphoreGiveFromISR` -/
def xSemaphoreGiveFromISR (s : Semaphore) : Semaphore := (s.xQueueSendFromISR ()).2

/-- `xSemaphoreTake`, if the semaphore was given. -/
def xSemaphoreTake (s : Semaphore) : Option Semaphore := s.xQueueReceive.map Prod.snd

/-! ## The handlers -/

/-- `memset (USART_RX_BUF, 0, n)` -/
def clearBuf (n : Nat) (buf : Nat → UInt8) : Nat → UInt8 := fun i ↦ if i < n then 0 else buf i

namespace Fatfs

/-- `USART_RX_STA` has 8 bits, and `USART_RX_BUF` 64 bytes. -/
def variant : Variant where
  width := 8
  completed := 0x80
  gotCr := 0x40
  mask := 0x3F
  last := 63
  bits := 6
  width_eq := rfl
  completed_eq := rfl
  gotCr_eq := rfl
  mask_eq := rfl
  last_lt := by decide

/-- `USART1_IRQHandler` of the project `FATFS_SD_Card`. -/
def usart1IrqHandler (b : Option UInt8) (r : Rx 8) : Rx 8 := r.interrupt variant b

end Fatfs

def USART_REC_LEN : Nat := 200

/-- `USART_RX_STA` has 16 bits, and `USART_RX_BUF` `USART_REC_LEN` bytes. -/
def rtos : Variant where
  width := 16
  completed := 0x8000
  gotCr := 0x4000
  mask := 0x3FFF
  last := USART_REC_LEN - 1
  bits := 14
  width_eq := rfl
  completed_eq := rfl
  gotCr_eq := rfl
  mask_eq := rfl
  last_lt := by decide

instance (r : Rx 16) : Decidable (r.Completed rtos) := inferInstanceAs (Decidable (_ ≠ _))

namespace Command

/-- What the handler of the project `FreeRTOS二值信号量` has access to. -/
structure Globals where
  rx : Rx 16
  /-- `BinarySemaphore` -/
  binarySemaphore : Option Semaphore

/-- `USART1_IRQHandler`. -/
def usart1IrqHandler (b : Option UInt8) (g : Globals) : Globals :=
  let rx := g.rx.interrupt rtos b
  if rx.Completed rtos then
    { rx := rx, binarySemaphore := g.binarySemaphore.map xSemaphoreGiveFromISR }
  else { g with rx := rx }

end Command

namespace Message

def MESSAGE_Q_NUM : Nat := 4

/-- What is sent to the queue: the bytes of `USART_RX_BUF`. -/
abbrev Item := List UInt8

def item (buf : Nat → UInt8) : Item := (List.range USART_REC_LEN).map buf

/-- What the handler of the project `FreeRTOS队列_中断发送` has access to. -/
structure Globals where
  rx : Rx 16
  /-- `Message_Queue` -/
  messageQueue : Option (Queue Item MESSAGE_Q_NUM)
  /-- The items that the queue has accepted. -/
  posted : List Item

/-- The complete line is sent; the result of `xQueueSendFromISR` is not looked at. -/
def post (rx : Rx 16) (q : Queue Item MESSAGE_Q_NUM) (g : Globals) : Globals :=
  let (sent, q) := q.xQueueSendFromISR (item rx.usartRxBuf)
  { rx := { rx with usartRxSta := 0, usartRxBuf := clearBuf USART_REC_LEN rx.usartRxBuf }
    messageQueue := some q
    posted := if sent then g.posted ++ [item rx.usartRxBuf] else g.posted }

/-- `USART1_IRQHandler`. -/
def usart1IrqHandler (b : Option UInt8) (g : Globals) : Globals :=
  let rx := g.rx.interrupt rtos b
  if rx.Completed rtos then
    match g.messageQueue with
    | some q => post rx q g
    | none => { g with rx := rx }
  else { g with rx := rx }

end Message

end Stm32F1.Uart

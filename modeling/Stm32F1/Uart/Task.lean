import Stm32F1.Uart.Assembler

/-!
# The command task

`DataProcess_task` waits for the semaphore, takes the line out of the buffer and
looks for a command in it, and then releases the buffer.  The interrupt handler
may run between any two of its statements.
-/

namespace Stm32F1.Uart.Command

/-! ## `main.c` -/

def LED1ON : UInt8 := 1
def LED1OFF : UInt8 := 2
def COMMANDERR : UInt8 := 0xFF

/-- A lower-case letter becomes upper-case. -/
def capital (b : UInt8) : UInt8 := if 96 < b ∧ b < 123 then b - 32 else b

/-- `LowerToCap` -/
def lowerToCap (str : Nat → UInt8) (len : UInt8) : Nat → UInt8 :=
  (List.range len.toNat).foldl (fun str i ↦ Function.update str i (capital (str i))) str

/-- `strcmp` with a literal is 0. -/
def equals (str : Nat → UInt8) (literal : List UInt8) : Bool :=
  (List.range literal.length).map str == literal && str literal.length == 0

/-- `"LED1ON"` -/
def led1On : List UInt8 := [76, 69, 68, 49, 79, 78]

/-- `"LED1OFF"` -/
def led1Off : List UInt8 := [76, 69, 68, 49, 79, 70, 70]

/-- `CommandProcess` -/
def commandProcess (str : Nat → UInt8) : UInt8 :=
  if equals str led1On then LED1ON else if equals str led1Off then LED1OFF else COMMANDERR

/-- `sprintf (dst, "%s", src)`: up to the first NUL, and the NUL itself. -/
def sprintf (dst src : Nat → UInt8) : Nat → UInt8 :=
  fun i ↦ if ∀ j < i, src j ≠ 0 then src i else dst i

/-- The statements of `DataProcess_task`. -/
inductive Pc
  | /-- `xSemaphoreTake (BinarySemaphore, portMAX_DELAY)` -/
    take
  | /-- `len = USART_RX_STA & 0x3fff` -/
    length
  | /-- `sprintf (CommandStr, "%s", USART_RX_BUF)` -/
    copy
  | /-- `CommandStr[len] = '\0'` -/
    terminate
  | /-- `LowerToCap (CommandStr, len)` -/
    lower
  | /-- `CommandValue = CommandProcess (CommandStr)` -/
    process
  | /-- The command is carried out. -/
    carryOut
  | /-- `USART_RX_STA = 0` -/
    release
  | /-- `memset (USART_RX_BUF, 0, USART_REC_LEN)` -/
    clearBuf
  | /-- `memset (CommandStr, 0, 30)` -/
    clearStr
  | /-- Something was written beyond `CommandStr`; the task is lost. -/
    overrun
  deriving DecidableEq

/-- The variables of the task; `CommandStr` has room for 30 bytes. -/
structure Locals where
  len : UInt8
  commandValue : UInt8
  commandStr : Nat → UInt8

structure System where
  globals : Globals
  pc : Pc
  locals : Locals
  led1 : Bool
  /-- The strings that `CommandProcess` was called with. -/
  calls : List (Nat → UInt8)

/-- The task takes the semaphore; it waits while there is none or it was not given. -/
def waitTake (s : System) : System :=
  match s.globals.binarySemaphore.bind xSemaphoreTake with
  | some sem => { s with globals := { s.globals with binarySemaphore := some sem }, pc := .length }
  | none => s

/-- The string and its NUL fit into `CommandStr`. -/
def Fits (str : Nat → UInt8) : Prop := ∃ i < 30, str i = 0

instance (str : Nat → UInt8) : Decidable (Fits str) := inferInstanceAs (Decidable (∃ i < 30, _))

/-- `switch (CommandValue)` -/
def switchLed (commandValue : UInt8) (led1 : Bool) : Bool :=
  if commandValue = LED1ON then false else if commandValue = LED1OFF then true else led1

def Globals.setSta (g : Globals) (sta : BitVec 16) : Globals :=
  { g with rx := { g.rx with usartRxSta := sta } }

def Globals.setBuf (g : Globals) (buf : Nat → UInt8) : Globals :=
  { g with rx := { g.rx with usartRxBuf := buf } }

/-- One statement of `DataProcess_task`. -/
def dataProcessTask (s : System) : System :=
  match s.pc with
  | .take => waitTake s
  | .length =>
      { s with
        locals := { s.locals with
          len := UInt8.ofNat (s.globals.rx.usartRxSta &&& 0x3fff).toNat }
        pc := .copy }
  | .copy =>
      if Fits s.globals.rx.usartRxBuf then
        { s with
          locals := { s.locals with
            commandStr := sprintf s.locals.commandStr s.globals.rx.usartRxBuf }
          pc := .terminate }
      else { s with pc := .overrun }
  | .terminate =>
      if s.locals.len.toNat < 30 then
        { s with
          locals := { s.locals with
            commandStr := Function.update s.locals.commandStr s.locals.len.toNat 0 }
          pc := .lower }
      else { s with pc := .overrun }
  | .lower =>
      { s with
        locals := { s.locals with commandStr := lowerToCap s.locals.commandStr s.locals.len }
        pc := .process }
  | .process =>
      { s with
        locals := { s.locals with commandValue := commandProcess s.locals.commandStr }
        calls := s.calls ++ [s.locals.commandStr]
        pc := .carryOut }
  | .carryOut => { s with led1 := switchLed s.locals.commandValue s.led1, pc := .release }
  | .release => { s with globals := s.globals.setSta 0, pc := .clearBuf }
  | .clearBuf =>
      { s with
        globals := s.globals.setBuf (Uart.clearBuf USART_REC_LEN s.globals.rx.usartRxBuf)
        pc := .clearStr }
  | .clearStr =>
      { s with
        locals := { s.locals with commandStr := Uart.clearBuf 30 s.locals.commandStr }
        pc := .take }
  | .overrun => s

/-! ## The system -/

inductive Event
  | interrupt (b : Option UInt8)
  | /-- `start_task` creates the semaphore, and then `DataProcess_task`. -/
    create
  | /-- The next statement of `DataProcess_task`. -/
    task
  deriving DecidableEq

/-- `start_task`, which runs once. -/
def startTask (s : System) : System :=
  match s.globals.binarySemaphore with
  | some _ => s
  | none => { s with globals := { s.globals with binarySemaphore := some xSemaphoreCreateBinary } }

def System.next (s : System) : Event → System
  | .interrupt b => { s with globals := usart1IrqHandler b s.globals }
  | .create => startTask s
  | .task => dataProcessTask s

def System.start : System := ⟨⟨Rx.start 16, none⟩, .take, ⟨0, COMMANDERR, fun _ ↦ 0⟩, true, []⟩

/-- The system after the events of a history. -/
def state : List Event → System := after System.next .start

/-- The stream, cut into lines; a line is taken when it is released. -/
def stream : List Event → Pieces UInt8
  | .interrupt b :: past => interrupted rtos.size b (stream past)
  | .create :: past => stream past
  | .task :: past =>
      if (state past).pc = .release ∧ (stream past).mode = .complete then (stream past).take
      else stream past
  | [] => .empty

end Stm32F1.Uart.Command

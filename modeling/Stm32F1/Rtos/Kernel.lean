import Stm32F1.Rtos.List

/-!
# `tasks.c`

The scheduler: one ready list for each priority and a word with a bit for each that is
not empty, two lists of delayed tasks that are exchanged when the tick count overflows,
and a list of tasks that interrupts have readied while the scheduler was suspended.

A critical section, and what an interrupt does, is one action.  A context switch is
requested by setting the pending bit of PendSV.
-/

namespace Stm32F1.Rtos

open Prog

def configMAX_PRIORITIES : UInt32 := 32

abbrev Priority := Fin 32

/-- The two list items of a task. -/
inductive Item (τ : Type)
  | xStateListItem (t : τ)
  | xEventListItem (t : τ)
deriving DecidableEq, Fintype

/-- `pvOwner` -/
def Item.pvOwner {τ : Type} : Item τ → τ
  | xStateListItem t => t
  | xEventListItem t => t

/-- The lists of the scheduler, and those of queues and the like. -/
inductive KernelList (ε : Type)
  | pxReadyTasksLists (p : Priority)
  | xDelayedTaskList1
  | xDelayedTaskList2
  | xPendingReadyList
  | xSuspendedTaskList
  | pxEventList (e : ε)
deriving DecidableEq

structure Kernel (τ ε : Type) where
  lists : Lists (Item τ) (KernelList ε)
  uxPriority : τ → Priority
  uxBasePriority : τ → Priority
  pxCurrentTCB : Option τ
  pxDelayedTaskList : KernelList ε
  pxOverflowDelayedTaskList : KernelList ε
  xTickCount : TickType
  uxTopReadyPriority : UInt32
  xSchedulerRunning : Bool
  xPendedTicks : TickType
  xYieldPending : Bool
  xNumOfOverflows : UInt32
  xNextTaskUnblockTime : TickType
  uxSchedulerSuspended : UInt32
  /-- `portNVIC_PENDSVSET_BIT` -/
  pendSV : Bool

variable {τ ε : Type} [DecidableEq τ] [DecidableEq ε]

/-! ## Accesses -/

/-- What `list.c` does. -/
def onLists {α : Type} (p : Prog (Lists (Item τ) (KernelList ε)) α) : Prog (Kernel τ ε) α := fun k ↦
  (p k.lists).map fun r ↦ (r.1, { k with lists := r.2 })

/-- `pxCurrentTCB`, to be dereferenced. -/
def currentTCB : Prog (Kernel τ ε) τ := fun k ↦ k.pxCurrentTCB.map fun t ↦ (t, k)

def listRemove (i : Item τ) : Prog (Kernel τ ε) UInt32 := onLists (uxListRemove i)

def listInsertEnd (l : KernelList ε) (i : Item τ) : Prog (Kernel τ ε) Unit :=
  onLists (modify (vListInsertEnd l i))

def listInsert (l : KernelList ε) (i : Item τ) : Prog (Kernel τ ε) Unit := onLists (vListInsert l i)

def listSET_LIST_ITEM_VALUE (i : Item τ) (v : TickType) : Prog (Kernel τ ε) Unit :=
  onLists (modify (Lists.setValue (.item i) v))

def listGET_LIST_ITEM_VALUE (i : Item τ) : Prog (Kernel τ ε) TickType :=
  read fun k ↦ k.lists.xItemValue (.item i)

def listLIST_ITEM_CONTAINER (i : Item τ) : Prog (Kernel τ ε) (Option (KernelList ε)) :=
  read fun k ↦ k.lists.pxContainer i

def listCURRENT_LIST_LENGTH (l : KernelList ε) : Prog (Kernel τ ε) UInt32 :=
  read fun k ↦ k.lists.uxNumberOfItems l

def listLIST_IS_EMPTY (l : KernelList ε) : Prog (Kernel τ ε) Bool :=
  read fun k ↦ k.lists.uxNumberOfItems l = 0

/-- The end marker has no owner. -/
def listGET_OWNER_OF_HEAD_ENTRY (l : KernelList ε) : Prog (Kernel τ ε) τ := fun k ↦
  match k.lists.pxNext (.xListEnd l) with
  | .item i => some (i.pvOwner, k)
  | .xListEnd _ => none

def listGET_ITEM_VALUE_OF_HEAD_ENTRY (l : KernelList ε) : Prog (Kernel τ ε) TickType :=
  read fun k ↦ k.lists.xItemValue (k.lists.pxNext (.xListEnd l))

def portYIELD : Prog (Kernel τ ε) Unit := modify fun k ↦ { k with pendSV := true }

def setYieldPending (b : Bool) : Prog (Kernel τ ε) Unit :=
  modify fun k ↦ { k with xYieldPending := b }

/-! ## Priorities -/

def priorityBit (p : Priority) : UInt32 := 1 <<< UInt32.ofNat p

def portRECORD_READY_PRIORITY (p : Priority) : Prog (Kernel τ ε) Unit := modify fun k ↦
  { k with uxTopReadyPriority := k.uxTopReadyPriority ||| priorityBit p }

def portRESET_READY_PRIORITY (p : Priority) : Prog (Kernel τ ε) Unit := modify fun k ↦
  { k with uxTopReadyPriority := k.uxTopReadyPriority &&& ~~~priorityBit p }

/-- `__clz` -/
def clz (x : UInt32) : UInt32 := ⟨x.toBitVec.clz⟩

def portGET_HIGHEST_PRIORITY (uxReadyPriorities : UInt32) : UInt32 := 31 - clz uxReadyPriorities

def taskRESET_READY_PRIORITY (p : Priority) : Prog (Kernel τ ε) Unit := do
  let n ← listCURRENT_LIST_LENGTH (.pxReadyTasksLists p)
  when (n = 0) (portRESET_READY_PRIORITY p)

def prvAddTaskToReadyList (t : τ) : Prog (Kernel τ ε) Unit := do
  let p ← read fun k ↦ k.uxPriority t
  portRECORD_READY_PRIORITY p
  listInsertEnd (.pxReadyTasksLists p) (.xStateListItem t)

/-- `uxListRemove` from the ready list of a priority, with `portRESET_READY_PRIORITY` if that was
the last item. -/
def removeFromReady (t : τ) (p : Priority) : Prog (Kernel τ ε) Unit := do
  let n ← listRemove (.xStateListItem t)
  when (n = 0) (portRESET_READY_PRIORITY p)

/-- `pxReadyTasksLists[ p ]` -/
def readyTasksList (p : UInt32) : Prog (Kernel τ ε) (KernelList ε) := fun k ↦
  if h : p.toNat < 32 then some (.pxReadyTasksLists ⟨p.toNat, h⟩, k) else none

def taskSELECT_HIGHEST_PRIORITY_TASK : Prog (Kernel τ ε) Unit := do
  let uxTopReadyPriority ← read Kernel.uxTopReadyPriority
  let l ← readyTasksList (portGET_HIGHEST_PRIORITY uxTopReadyPriority)
  let i ← onLists (listGET_OWNER_OF_NEXT_ENTRY l)
  modify fun k ↦ { k with pxCurrentTCB := some i.pvOwner }

def vTaskSwitchContext : Prog (Kernel τ ε) Unit := do
  let uxSchedulerSuspended ← read Kernel.uxSchedulerSuspended
  if uxSchedulerSuspended ≠ 0 then setYieldPending true
  else do
    setYieldPending false
    taskSELECT_HIGHEST_PRIORITY_TASK

/-! ## Time -/

def prvResetNextTaskUnblockTime : Prog (Kernel τ ε) Unit := do
  let pxDelayedTaskList ← read Kernel.pxDelayedTaskList
  let isEmpty ← listLIST_IS_EMPTY pxDelayedTaskList
  if isEmpty then modify fun k ↦ { k with xNextTaskUnblockTime := portMAX_DELAY }
  else do
    let v ← listGET_ITEM_VALUE_OF_HEAD_ENTRY pxDelayedTaskList
    modify fun k ↦ { k with xNextTaskUnblockTime := v }

def taskSWITCH_DELAYED_LISTS : Prog (Kernel τ ε) Unit := do
  modify fun k ↦ { k with
    pxDelayedTaskList := k.pxOverflowDelayedTaskList
    pxOverflowDelayedTaskList := k.pxDelayedTaskList
    xNumOfOverflows := k.xNumOfOverflows + 1 }
  prvResetNextTaskUnblockTime

def prvAddCurrentTaskToDelayedList (xTicksToWait : TickType) (xCanBlockIndefinitely : Bool) :
    Prog (Kernel τ ε) Unit := do
  let xConstTickCount ← read Kernel.xTickCount
  let current ← currentTCB
  let p ← read fun k ↦ k.uxPriority current
  removeFromReady current p
  if xTicksToWait = portMAX_DELAY ∧ xCanBlockIndefinitely = true then
    listInsertEnd .xSuspendedTaskList (.xStateListItem current)
  else do
    let xTimeToWake := xConstTickCount + xTicksToWait
    listSET_LIST_ITEM_VALUE (.xStateListItem current) xTimeToWake
    if xTimeToWake < xConstTickCount then do
      let l ← read Kernel.pxOverflowDelayedTaskList
      listInsert l (.xStateListItem current)
    else do
      let l ← read Kernel.pxDelayedTaskList
      listInsert l (.xStateListItem current)
      modify fun k ↦
        if xTimeToWake < k.xNextTaskUnblockTime then { k with xNextTaskUnblockTime := xTimeToWake }
        else k

/-- If an item is in a list, it is removed. -/
def removeFromEvent (t : τ) : Prog (Kernel τ ε) Unit := do
  let l ← listLIST_ITEM_CONTAINER (.xEventListItem t)
  when (l ≠ none) do
    let _ ← listRemove (.xEventListItem t)

/-- The loop of `xTaskIncrementTick`, over `xSwitchRequired`. -/
def unblockTasks (xConstTickCount : TickType) : Bool → Prog (Kernel τ ε) Bool :=
  repeatM fun xSwitchRequired ↦ do
    let pxDelayedTaskList ← read Kernel.pxDelayedTaskList
    let isEmpty ← listLIST_IS_EMPTY pxDelayedTaskList
    if isEmpty then do
      modify fun k ↦ { k with xNextTaskUnblockTime := portMAX_DELAY }
      pure (.inr xSwitchRequired)
    else do
      let pxTCB ← listGET_OWNER_OF_HEAD_ENTRY pxDelayedTaskList
      let xItemValue ← listGET_LIST_ITEM_VALUE (.xStateListItem pxTCB)
      if xConstTickCount < xItemValue then do
        modify fun k ↦ { k with xNextTaskUnblockTime := xItemValue }
        pure (.inr xSwitchRequired)
      else do
        let _ ← listRemove (.xStateListItem pxTCB)
        removeFromEvent pxTCB
        prvAddTaskToReadyList pxTCB
        let current ← currentTCB
        let uxPriority ← read Kernel.uxPriority
        pure (.inl (xSwitchRequired || uxPriority current ≤ uxPriority pxTCB))

/-- `xTaskIncrementTick` while the scheduler is not suspended. -/
def countTick : Prog (Kernel τ ε) Bool := do
  modify fun k ↦ { k with xTickCount := k.xTickCount + 1 }
  let xConstTickCount ← read Kernel.xTickCount
  when (xConstTickCount = 0) taskSWITCH_DELAYED_LISTS
  let xNextTaskUnblockTime ← read Kernel.xNextTaskUnblockTime
  let xSwitchRequired ←
    (if xNextTaskUnblockTime ≤ xConstTickCount then unblockTasks xConstTickCount false
      else pure false)
  let current ← currentTCB
  let uxPriority ← read Kernel.uxPriority
  let n ← listCURRENT_LIST_LENGTH (.pxReadyTasksLists (uxPriority current))
  let xYieldPending ← read Kernel.xYieldPending
  pure (xSwitchRequired || n > 1 || xYieldPending)

def xTaskIncrementTick : Prog (Kernel τ ε) Bool := do
  let uxSchedulerSuspended ← read Kernel.uxSchedulerSuspended
  if uxSchedulerSuspended = 0 then countTick
  else do
    modify fun k ↦ { k with xPendedTicks := k.xPendedTicks + 1 }
    pure false

def xPortSysTickHandler : Prog (Kernel τ ε) Unit := do
  let xSwitchRequired ← xTaskIncrementTick
  when xSwitchRequired portYIELD

/-! ## Suspending the scheduler -/

def vTaskSuspendAll : Prog (Kernel τ ε) Unit :=
  modify fun k ↦ { k with uxSchedulerSuspended := k.uxSchedulerSuspended + 1 }

/-- The first loop of `xTaskResumeAll`: whether a task has been moved. -/
def movePending : Bool → Prog (Kernel τ ε) Bool :=
  repeatM fun moved ↦ do
    let isEmpty ← listLIST_IS_EMPTY .xPendingReadyList
    if isEmpty then pure (.inr moved)
    else do
      let pxTCB ← listGET_OWNER_OF_HEAD_ENTRY .xPendingReadyList
      let _ ← listRemove (.xEventListItem pxTCB)
      let _ ← listRemove (.xStateListItem pxTCB)
      prvAddTaskToReadyList pxTCB
      let current ← currentTCB
      let uxPriority ← read Kernel.uxPriority
      when (uxPriority current ≤ uxPriority pxTCB) (setYieldPending true)
      pure (.inl true)

/-- The second one. -/
def countPended : TickType → Prog (Kernel τ ε) Unit :=
  repeatM fun xPendedCounts ↦ do
    let xSwitchRequired ← xTaskIncrementTick
    when xSwitchRequired (setYieldPending true)
    if xPendedCounts - 1 > 0 then pure (.inl (xPendedCounts - 1)) else pure (.inr ())

/-- There is a task, the one that calls. -/
def xTaskResumeAll : Prog (Kernel τ ε) Bool := do
  modify fun k ↦ { k with uxSchedulerSuspended := k.uxSchedulerSuspended - 1 }
  let uxSchedulerSuspended ← read Kernel.uxSchedulerSuspended
  if uxSchedulerSuspended = 0 then do
    let moved ← movePending false
    when moved prvResetNextTaskUnblockTime
    let xPendedCounts ← read Kernel.xPendedTicks
    when (xPendedCounts > 0) do
      countPended xPendedCounts
      modify fun k ↦ { k with xPendedTicks := 0 }
    let xYieldPending ← read Kernel.xYieldPending
    when xYieldPending portYIELD
    pure xYieldPending
  else pure false

/-! ## What a task calls -/

/-- `vTaskDelay` up to `xTaskResumeAll`. -/
def vTaskDelay (xTicksToDelay : TickType) : Prog (Kernel τ ε) Unit := do
  vTaskSuspendAll
  prvAddCurrentTaskToDelayedList xTicksToDelay false

/-- Whether `xTaskDelayUntil` delays. -/
def shouldDelay (xConstTickCount pxPreviousWakeTime xTimeToWake : TickType) : Bool :=
  if xConstTickCount < pxPreviousWakeTime then
    xTimeToWake < pxPreviousWakeTime ∧ xTimeToWake > xConstTickCount
  else xTimeToWake < pxPreviousWakeTime ∨ xTimeToWake > xConstTickCount

/-- `xTaskDelayUntil` up to `xTaskResumeAll`: the new wake time, and whether it delays. -/
def xTaskDelayUntil (pxPreviousWakeTime xTimeIncrement : TickType) :
    Prog (Kernel τ ε) (TickType × Bool) := do
  vTaskSuspendAll
  let xConstTickCount ← read Kernel.xTickCount
  let xTimeToWake := pxPreviousWakeTime + xTimeIncrement
  let xShouldDelay := shouldDelay xConstTickCount pxPreviousWakeTime xTimeToWake
  when xShouldDelay (prvAddCurrentTaskToDelayedList (xTimeToWake - xConstTickCount) false)
  pure (xTimeToWake, xShouldDelay)

structure TimeOut_t where
  xOverflowCount : UInt32
  xTimeOnEntering : TickType

/-- `vTaskSetTimeOutState` and `vTaskInternalSetTimeOutState` -/
def vTaskSetTimeOutState : Prog (Kernel τ ε) TimeOut_t :=
  read fun k ↦ ⟨k.xNumOfOverflows, k.xTickCount⟩

/-- Whether the time is over, and what `pxTimeOut` and `pxTicksToWait` are then. -/
def xTaskCheckForTimeOut (pxTimeOut : TimeOut_t) (pxTicksToWait : TickType) :
    Prog (Kernel τ ε) (Bool × TimeOut_t × TickType) := do
  let xConstTickCount ← read Kernel.xTickCount
  let xNumOfOverflows ← read Kernel.xNumOfOverflows
  let xElapsedTime := xConstTickCount - pxTimeOut.xTimeOnEntering
  if pxTicksToWait = portMAX_DELAY then pure (false, pxTimeOut, pxTicksToWait)
  else if xNumOfOverflows ≠ pxTimeOut.xOverflowCount ∧
      xConstTickCount ≥ pxTimeOut.xTimeOnEntering then
    pure (true, pxTimeOut, 0)
  else if xElapsedTime < pxTicksToWait then do
    let pxTimeOut ← vTaskSetTimeOutState
    pure (false, pxTimeOut, pxTicksToWait - xElapsedTime)
  else pure (true, pxTimeOut, 0)

/-- The end of a call that blocks. -/
def resumeAndYield : Prog (Kernel τ ε) Unit := do
  let xAlreadyYielded ← xTaskResumeAll
  when (xAlreadyYielded = false) portYIELD

def vTaskPlaceOnEventList (e : ε) (xTicksToWait : TickType) : Prog (Kernel τ ε) Unit := do
  let current ← currentTCB
  listInsert (.pxEventList e) (.xEventListItem current)
  prvAddCurrentTaskToDelayedList xTicksToWait true

/-- A task whose event has come is held back while the scheduler is suspended. -/
def addToReadyOrPending (t : τ) : Prog (Kernel τ ε) Unit := do
  let uxSchedulerSuspended ← read Kernel.uxSchedulerSuspended
  if uxSchedulerSuspended = 0 then do
    let _ ← listRemove (.xStateListItem t)
    prvAddTaskToReadyList t
  else listInsertEnd .xPendingReadyList (.xEventListItem t)

def xTaskRemoveFromEventList (e : ε) : Prog (Kernel τ ε) Bool := do
  let pxUnblockedTCB ← listGET_OWNER_OF_HEAD_ENTRY (.pxEventList e)
  let _ ← listRemove (.xEventListItem pxUnblockedTCB)
  addToReadyOrPending pxUnblockedTCB
  let current ← currentTCB
  let uxPriority ← read Kernel.uxPriority
  if uxPriority pxUnblockedTCB > uxPriority current then do
    setYieldPending true
    pure true
  else pure false

/-- `vTaskSuspend` up to the end of its first critical section. -/
def vTaskSuspend (t : τ) : Prog (Kernel τ ε) Unit := do
  let n ← listRemove (.xStateListItem t)
  let p ← read fun k ↦ k.uxPriority t
  when (n = 0) (taskRESET_READY_PRIORITY p)
  removeFromEvent t
  listInsertEnd .xSuspendedTaskList (.xStateListItem t)

/-- The rest of `vTaskSuspend`. -/
def vTaskSuspendEnd (t : τ) : Prog (Kernel τ ε) Unit := do
  prvResetNextTaskUnblockTime
  let current ← currentTCB
  when (t = current) portYIELD

def prvTaskIsTaskSuspended (t : τ) : Prog (Kernel τ ε) Bool := do
  let stateList ← listLIST_ITEM_CONTAINER (.xStateListItem t)
  let eventList ← listLIST_ITEM_CONTAINER (.xEventListItem t)
  pure (stateList = some .xSuspendedTaskList ∧ eventList ≠ some .xPendingReadyList ∧
    eventList = none)

def vTaskResume (t : τ) : Prog (Kernel τ ε) Unit := do
  let current ← currentTCB
  when (t ≠ current) do
    let suspended ← prvTaskIsTaskSuspended t
    when suspended do
      let _ ← listRemove (.xStateListItem t)
      prvAddTaskToReadyList t
      let uxPriority ← read Kernel.uxPriority
      when (uxPriority t ≥ uxPriority current) portYIELD

def xTaskResumeFromISR (t : τ) : Prog (Kernel τ ε) Bool := do
  let suspended ← prvTaskIsTaskSuspended t
  if suspended then do
    let uxSchedulerSuspended ← read Kernel.uxSchedulerSuspended
    if uxSchedulerSuspended = 0 then do
      let current ← currentTCB
      let uxPriority ← read Kernel.uxPriority
      when (uxPriority t ≥ uxPriority current) (setYieldPending true)
      let _ ← listRemove (.xStateListItem t)
      prvAddTaskToReadyList t
      pure (uxPriority t ≥ uxPriority current)
    else do
      listInsertEnd .xPendingReadyList (.xEventListItem t)
      pure false
  else pure false

/-- A priority that is too large is made the largest one. -/
def clampPriority (uxPriority : UInt32) : Priority :=
  if h : uxPriority.toNat < 32 then ⟨uxPriority.toNat, h⟩ else 31

def tskIDLE_PRIORITY : Priority := 0

def configTIMER_TASK_PRIORITY : Priority := 31

def taskEVENT_LIST_ITEM_VALUE_IN_USE : TickType := 0x80000000

def eventValue (p : Priority) : TickType := configMAX_PRIORITIES - UInt32.ofNat p

/-- What `vTaskPrioritySet` yields for. -/
def yieldRequired (isCurrent : Bool)
    (uxNewPriority uxCurrentBasePriority currentPriority : Priority) : Bool :=
  if uxNewPriority > uxCurrentBasePriority then !isCurrent && uxNewPriority ≥ currentPriority
  else isCurrent

def vTaskPrioritySet (t : τ) (uxNewPriority : UInt32) : Prog (Kernel τ ε) Unit := do
  let uxNewPriority := clampPriority uxNewPriority
  let uxCurrentBasePriority ← read fun k ↦ k.uxBasePriority t
  when (uxCurrentBasePriority ≠ uxNewPriority) do
    let current ← currentTCB
    let uxPriority ← read Kernel.uxPriority
    let xYieldRequired :=
      yieldRequired (t = current) uxNewPriority uxCurrentBasePriority (uxPriority current)
    let uxPriorityUsedOnEntry := uxPriority t
    when (uxCurrentBasePriority = uxPriority t)
      (modify fun k ↦ { k with uxPriority := Function.update k.uxPriority t uxNewPriority })
    modify fun k ↦ { k with uxBasePriority := Function.update k.uxBasePriority t uxNewPriority }
    let v ← listGET_LIST_ITEM_VALUE (.xEventListItem t)
    when (v &&& taskEVENT_LIST_ITEM_VALUE_IN_USE = 0)
      (listSET_LIST_ITEM_VALUE (.xEventListItem t) (eventValue uxNewPriority))
    let l ← listLIST_ITEM_CONTAINER (.xStateListItem t)
    when (l = some (.pxReadyTasksLists uxPriorityUsedOnEntry)) do
      removeFromReady t uxPriorityUsedOnEntry
      prvAddTaskToReadyList t
    when xYieldRequired portYIELD

/-! ## Creating tasks -/

/-- What `prvInitialiseNewTask` does for the scheduler. -/
def prvInitialiseNewTask (t : τ) (uxPriority : UInt32) : Prog (Kernel τ ε) Unit := do
  modify fun k ↦ { k with
    uxPriority := Function.update k.uxPriority t (clampPriority uxPriority)
    uxBasePriority := Function.update k.uxBasePriority t (clampPriority uxPriority) }
  onLists (modify (vListInitialiseItem (.xStateListItem t)))
  onLists (modify (vListInitialiseItem (.xEventListItem t)))
  listSET_LIST_ITEM_VALUE (.xEventListItem t) (eventValue (clampPriority uxPriority))

/-- Until the scheduler runs, the current task is the newest one of the highest priority. -/
def chooseFirst (t : τ) : Prog (Kernel τ ε) Unit := do
  let current ← read Kernel.pxCurrentTCB
  let uxPriority ← read Kernel.uxPriority
  let xSchedulerRunning ← read Kernel.xSchedulerRunning
  match current with
  | none => modify fun k ↦ { k with pxCurrentTCB := some t }
  | some current =>
      when (xSchedulerRunning = false ∧ uxPriority current ≤ uxPriority t)
        (modify fun k ↦ { k with pxCurrentTCB := some t })

/-- The lists have been initialised. -/
def prvAddNewTaskToReadyList (t : τ) : Prog (Kernel τ ε) Unit := do
  chooseFirst t
  prvAddTaskToReadyList t
  let xSchedulerRunning ← read Kernel.xSchedulerRunning
  when xSchedulerRunning do
    let current ← currentTCB
    let uxPriority ← read Kernel.uxPriority
    when (uxPriority current < uxPriority t) portYIELD

def xTaskCreate (t : τ) (uxPriority : UInt32) : Prog (Kernel τ ε) Unit := do
  prvInitialiseNewTask t uxPriority
  prvAddNewTaskToReadyList t

/-- With the idle task, and the task of the timers. -/
def vTaskStartScheduler (idle timer : τ) : Prog (Kernel τ ε) Unit := do
  xTaskCreate idle (UInt32.ofNat tskIDLE_PRIORITY)
  xTaskCreate timer (UInt32.ofNat configTIMER_TASK_PRIORITY)
  modify fun k ↦ { k with
    xNextTaskUnblockTime := portMAX_DELAY
    xSchedulerRunning := true
    xTickCount := 0 }

end Stm32F1.Rtos

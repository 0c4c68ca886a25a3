import SpaceBaremetal.Kernel
import SpaceBaremetal.Kernel.List

open SpaceBaremetal.Lists

namespace SpaceBaremetal.Tasks

def configMAX_PRIORITIES : Nat := 5

abbrev Priority := Fin configMAX_PRIORITIES

def portMAX_DELAY : BitVec 64 := BitVec.allOnes 64

-- The lists of the kernel. Those of an event are the ones that queues keep of
-- the tasks that wait for them.
inductive ListName (ε : Type)
  | ReadyTasks (priority : Priority)
  | DelayedTaskList1
  | DelayedTaskList2
  | PendingReady
  | TasksWaitingTermination
  | SuspendedTask
  | Event (e : ε)
deriving DecidableEq, Repr

-- The two list items of a task control block.
inductive TaskItem (τ : Type)
  | StateListItem (t : τ)
  | EventListItem (t : τ)
deriving DecidableEq, Repr

namespace TaskItem

variable {τ : Type}

def pxOwner : TaskItem τ → τ
  | StateListItem t => t
  | EventListItem t => t

end TaskItem

open ListName TaskItem

-- The variables of the kernel, with the fields of the task control blocks that
-- it reads. `τ` are the tasks, `ε` the events that they may wait for.
structure Kernel (ε τ : Type) where
  lists : Lists (ListName ε) (TaskItem τ)
  pxDelayedTaskList : ListName ε
  pxOverflowDelayedTaskList : ListName ε
  pxCurrentTCB : Option τ
  uxPriority : τ → Priority
  notification : τ → TaskNotification
  uxCurrentNumberOfTasks : Nat
  xTickCount : BitVec 64
  uxTopReadyPriority : Priority
  xSchedulerRunning : Bool
  xPendedTicks : BitVec 64
  xYieldPending : Bool
  xNumOfOverflows : BitVec 64
  xNextTaskUnblockTime : BitVec 64
  uxSchedulerSuspended : Nat

namespace Kernel

variable {ε τ : Type} [DecidableEq ε] [DecidableEq τ]

-- What `configASSERT` does when it holds. An assertion that fails ends the run.
def configASSERT (condition : Bool) : Option Unit := if condition then some () else none

def ownerOf : ListNode (ListName ε) (TaskItem τ) → Option τ
  | .End _ => none
  | .Item i => some i.pxOwner

def setLists (lists : Lists (ListName ε) (TaskItem τ)) (k : Kernel ε τ) : Kernel ε τ :=
  { k with lists := lists }

-- `listREMOVE_ITEM` and `uxListRemove`, whose count nothing here uses.
def removeItem (item : TaskItem τ) (k : Kernel ε τ) : Option (Kernel ε τ) := do
  let (_, lists) ← uxListRemove item k.lists
  some (k.setLists lists)

def insertEnd (list : ListName ε) (item : TaskItem τ) (k : Kernel ε τ) : Kernel ε τ :=
  k.setLists (vListInsertEnd list item k.lists)

def insertSorted (fuel : Nat) (list : ListName ε) (item : TaskItem τ) (k : Kernel ε τ) :
    Option (Kernel ε τ) := do
  let lists ← vListInsert fuel list item k.lists
  some (k.setLists lists)

def taskRECORD_READY_PRIORITY (uxPriority : Priority) (k : Kernel ε τ) : Kernel ε τ :=
  if uxPriority > k.uxTopReadyPriority then { k with uxTopReadyPriority := uxPriority } else k

def prvAddTaskToReadyList (pxTCB : τ) (k : Kernel ε τ) : Kernel ε τ :=
  let k := k.taskRECORD_READY_PRIORITY (k.uxPriority pxTCB)
  k.insertEnd (ReadyTasks (k.uxPriority pxTCB)) (StateListItem pxTCB)

def prvResetNextTaskUnblockTime (k : Kernel ε τ) : Kernel ε τ :=
  if listLIST_IS_EMPTY k.pxDelayedTaskList k.lists then
    { k with xNextTaskUnblockTime := portMAX_DELAY }
  else
    { k with xNextTaskUnblockTime := listGET_ITEM_VALUE_OF_HEAD_ENTRY k.pxDelayedTaskList k.lists }

def taskSWITCH_DELAYED_LISTS (k : Kernel ε τ) : Option (Kernel ε τ) := do
  configASSERT (listLIST_IS_EMPTY k.pxDelayedTaskList k.lists)
  let k := { k with
    pxDelayedTaskList := k.pxOverflowDelayedTaskList
    pxOverflowDelayedTaskList := k.pxDelayedTaskList
    xNumOfOverflows := k.xNumOfOverflows + 1 }
  some k.prvResetNextTaskUnblockTime

-- A list item that is on a list is taken off it.
def removeIfContained (item : TaskItem τ) (k : Kernel ε τ) : Option (Kernel ε τ) :=
  if (k.lists.pxContainer item).isSome then k.removeItem item else some k

-- The loop of `xTaskIncrementTick`: the tasks whose time has come are made
-- ready. `none` also stands for a loop of more than `fuel` rounds.
def unblockTasks (xConstTickCount : BitVec 64) :
    Nat → Bool → Kernel ε τ → Option (Bool × Kernel ε τ)
  | 0, _, _ => none
  | fuel + 1, xSwitchRequired, k =>
    if listLIST_IS_EMPTY k.pxDelayedTaskList k.lists then
      some (xSwitchRequired, { k with xNextTaskUnblockTime := portMAX_DELAY })
    else do
      let pxTCB ← ownerOf (listGET_OWNER_OF_HEAD_ENTRY k.pxDelayedTaskList k.lists)
      let xItemValue := k.lists.xItemValue (.Item (StateListItem pxTCB))
      if xConstTickCount < xItemValue then
        some (xSwitchRequired, { k with xNextTaskUnblockTime := xItemValue })
      else
        let k ← k.removeItem (StateListItem pxTCB)
        let k ← k.removeIfContained (EventListItem pxTCB)
        let k := k.prvAddTaskToReadyList pxTCB
        let pxCurrentTCB ← k.pxCurrentTCB
        unblockTasks xConstTickCount fuel
          (xSwitchRequired || k.uxPriority pxTCB > k.uxPriority pxCurrentTCB) k

-- The parts of `xTaskIncrementTick`: the tick count and what follows from its
-- overflow, and the tasks whose time has come.
def countTick (k : Kernel ε τ) : Option (Kernel ε τ) :=
  let k := { k with xTickCount := k.xTickCount + 1 }
  if k.xTickCount = 0 then k.taskSWITCH_DELAYED_LISTS else some k

def unblockDue (fuel : Nat) (k : Kernel ε τ) : Option (Bool × Kernel ε τ) :=
  if k.xTickCount ≥ k.xNextTaskUnblockTime then
    unblockTasks k.xTickCount fuel false k
  else
    some (false, k)

def xTaskIncrementTick (fuel : Nat) (k : Kernel ε τ) : Option (Bool × Kernel ε τ) :=
  if k.uxSchedulerSuspended = 0 then do
    let k ← k.countTick
    let (xSwitchRequired, k) ← k.unblockDue fuel
    -- time slicing among the tasks of one priority
    let pxCurrentTCB ← k.pxCurrentTCB
    let ready := listCURRENT_LIST_LENGTH (ReadyTasks (k.uxPriority pxCurrentTCB)) k.lists
    some (xSwitchRequired || ready > 1 || k.xYieldPending, k)
  else
    some (false, { k with xPendedTicks := k.xPendedTicks + 1 })

-- The loop of `taskSELECT_HIGHEST_PRIORITY_TASK`, with the assertion in it.
def findReadyPriority (lists : Lists (ListName ε) (TaskItem τ)) :
    (uxTopPriority : Nat) → uxTopPriority < configMAX_PRIORITIES → Option Priority
  | 0, h => if listLIST_IS_EMPTY (ReadyTasks ⟨0, h⟩) lists then none else some ⟨0, h⟩
  | p + 1, h =>
    if listLIST_IS_EMPTY (ReadyTasks ⟨p + 1, h⟩) lists then
      findReadyPriority lists p (Nat.lt_of_succ_lt h)
    else
      some ⟨p + 1, h⟩

def taskSELECT_HIGHEST_PRIORITY_TASK (k : Kernel ε τ) : Option (Kernel ε τ) := do
  let uxTopPriority ← findReadyPriority k.lists k.uxTopReadyPriority k.uxTopReadyPriority.isLt
  let (node, lists) := listGET_OWNER_OF_NEXT_ENTRY (ReadyTasks uxTopPriority) k.lists
  let pxTCB ← ownerOf node
  some { k with lists := lists, pxCurrentTCB := some pxTCB, uxTopReadyPriority := uxTopPriority }

def vTaskSwitchContext (k : Kernel ε τ) : Option (Kernel ε τ) :=
  if k.uxSchedulerSuspended ≠ 0 then
    some { k with xYieldPending := true }
  else
    taskSELECT_HIGHEST_PRIORITY_TASK { k with xYieldPending := false }

-- `portYIELD` traps, and the handler of the trap switches the context.
def portYIELD (k : Kernel ε τ) : Option (Kernel ε τ) := k.vTaskSwitchContext

-- The handler of the machine timer interrupt.
def mtimer_interrupt_handler (fuel : Nat) (k : Kernel ε τ) : Option (Kernel ε τ) := do
  let (xSwitchRequired, k) ← k.xTaskIncrementTick fuel
  if xSwitchRequired then k.vTaskSwitchContext else some k

def vTaskSuspendAll (k : Kernel ε τ) : Kernel ε τ :=
  { k with uxSchedulerSuspended := k.uxSchedulerSuspended + 1 }

-- The first loop of `xTaskResumeAll`. The Boolean says whether it moved a task.
def movePendingReady : Nat → Bool → Kernel ε τ → Option (Bool × Kernel ε τ)
  | 0, _, _ => none
  | fuel + 1, moved, k =>
    if listLIST_IS_EMPTY PendingReady k.lists then
      some (moved, k)
    else do
      let pxTCB ← ownerOf (listGET_OWNER_OF_HEAD_ENTRY PendingReady k.lists)
      let k ← k.removeItem (EventListItem pxTCB)
      let k ← k.removeItem (StateListItem pxTCB)
      let k := k.prvAddTaskToReadyList pxTCB
      let pxCurrentTCB ← k.pxCurrentTCB
      let k :=
        if k.uxPriority pxTCB > k.uxPriority pxCurrentTCB then
          { k with xYieldPending := true }
        else
          k
      movePendingReady fuel true k

-- The second loop: the ticks that came while the scheduler was suspended.
def processPendedTicks (fuel : Nat) : Nat → Kernel ε τ → Option (Kernel ε τ)
  | 0, k => some k
  | xPendedCounts + 1, k => do
    let (xSwitchRequired, k) ← k.xTaskIncrementTick fuel
    let k := if xSwitchRequired then { k with xYieldPending := true } else k
    processPendedTicks fuel xPendedCounts k

def resumePendingReady (fuel : Nat) (k : Kernel ε τ) : Option (Kernel ε τ) := do
  let (moved, k) ← movePendingReady fuel false k
  some (if moved then k.prvResetNextTaskUnblockTime else k)

def resumePendedTicks (fuel : Nat) (k : Kernel ε τ) : Option (Kernel ε τ) :=
  if k.xPendedTicks > 0 then do
    let k ← processPendedTicks fuel k.xPendedTicks.toNat k
    some { k with xPendedTicks := 0 }
  else
    some k

-- Returns whether it has yielded already.
def xTaskResumeAll (fuel : Nat) (k : Kernel ε τ) : Option (Bool × Kernel ε τ) := do
  configASSERT (k.uxSchedulerSuspended ≠ 0)
  let k := { k with uxSchedulerSuspended := k.uxSchedulerSuspended - 1 }
  if k.uxSchedulerSuspended = 0 ∧ k.uxCurrentNumberOfTasks > 0 then
    let k ← k.resumePendingReady fuel
    let k ← k.resumePendedTicks fuel
    if k.xYieldPending then
      let k ← k.portYIELD
      some (true, k)
    else
      some (false, k)
  else
    some (false, k)

def prvAddCurrentTaskToDelayedList (fuel : Nat) (xTicksToWait : BitVec 64)
    (xCanBlockIndefinitely : Bool) (k : Kernel ε τ) : Option (Kernel ε τ) := do
  let xConstTickCount := k.xTickCount
  let pxCurrentTCB ← k.pxCurrentTCB
  let k ← k.removeItem (StateListItem pxCurrentTCB)
  if xTicksToWait = portMAX_DELAY ∧ xCanBlockIndefinitely then
    some (k.insertEnd SuspendedTask (StateListItem pxCurrentTCB))
  else
    let xTimeToWake := xConstTickCount + xTicksToWait
    let k := k.setLists (k.lists.setValue (.Item (StateListItem pxCurrentTCB)) xTimeToWake)
    if xTimeToWake < xConstTickCount then
      k.insertSorted fuel k.pxOverflowDelayedTaskList (StateListItem pxCurrentTCB)
    else do
      let k ← k.insertSorted fuel k.pxDelayedTaskList (StateListItem pxCurrentTCB)
      if xTimeToWake < k.xNextTaskUnblockTime then
        some { k with xNextTaskUnblockTime := xTimeToWake }
      else
        some k

def vTaskPlaceOnEventList (fuel : Nat) (event : ε) (xTicksToWait : BitVec 64) (k : Kernel ε τ) :
    Option (Kernel ε τ) := do
  let pxCurrentTCB ← k.pxCurrentTCB
  let k ← k.insertSorted fuel (Event event) (EventListItem pxCurrentTCB)
  k.prvAddCurrentTaskToDelayedList fuel xTicksToWait true

def vTaskPlaceOnEventListRestricted (fuel : Nat) (event : ε) (xTicksToWait : BitVec 64)
    (xWaitIndefinitely : Bool) (k : Kernel ε τ) : Option (Kernel ε τ) := do
  let pxCurrentTCB ← k.pxCurrentTCB
  let k := k.insertEnd (Event event) (EventListItem pxCurrentTCB)
  let xTicksToWait := if xWaitIndefinitely then portMAX_DELAY else xTicksToWait
  k.prvAddCurrentTaskToDelayedList fuel xTicksToWait xWaitIndefinitely

-- The task that `xTaskRemoveFromEventList` unblocks is made ready, or held
-- until the scheduler is resumed.
def readyUnblocked (pxUnblockedTCB : τ) (k : Kernel ε τ) : Option (Kernel ε τ) :=
  if k.uxSchedulerSuspended = 0 then do
    let k ← k.removeItem (StateListItem pxUnblockedTCB)
    some (k.prvAddTaskToReadyList pxUnblockedTCB)
  else
    some (k.insertEnd PendingReady (EventListItem pxUnblockedTCB))

def xTaskRemoveFromEventList (event : ε) (k : Kernel ε τ) : Option (Bool × Kernel ε τ) := do
  let pxUnblockedTCB ← ownerOf (listGET_OWNER_OF_HEAD_ENTRY (Event event) k.lists)
  let k ← k.removeItem (EventListItem pxUnblockedTCB)
  let k ← k.readyUnblocked pxUnblockedTCB
  let pxCurrentTCB ← k.pxCurrentTCB
  if k.uxPriority pxUnblockedTCB > k.uxPriority pxCurrentTCB then
    some (true, { k with xYieldPending := true })
  else
    some (false, k)

def vTaskMissedYield (k : Kernel ε τ) : Kernel ε τ := { k with xYieldPending := true }

def taskYIELD_ANY_CORE_IF_USING_PREEMPTION (pxTCB : τ) (k : Kernel ε τ) : Option (Kernel ε τ) := do
  let pxCurrentTCB ← k.pxCurrentTCB
  if k.uxPriority pxCurrentTCB < k.uxPriority pxTCB then k.portYIELD else some k

def setNotification (t : τ) (slot : TaskNotification) (k : Kernel ε τ) : Kernel ε τ :=
  { k with notification := Function.update k.notification t slot }

-- The whole of the function, whose critical section on the notification slot
-- is a definition of its own.
def xTaskGenericNotify (pxTCB : τ) (ulValue : BitVec 32) (eAction : NotifyAction)
    (k : Kernel ε τ) : Option (Bool × Kernel ε τ) := do
  let ucOriginalNotifyState := (k.notification pxTCB).state
  let (xReturn, slot) := SpaceBaremetal.xTaskGenericNotify ulValue eAction (k.notification pxTCB)
  let k := k.setNotification pxTCB slot
  if ucOriginalNotifyState = .Waiting then
    let k ← k.removeItem (StateListItem pxTCB)
    let k := k.prvAddTaskToReadyList pxTCB
    configASSERT (k.lists.pxContainer (EventListItem pxTCB)).isNone
    let k ← k.taskYIELD_ANY_CORE_IF_USING_PREEMPTION pxTCB
    some (xReturn, k)
  else
    some (xReturn, k)

-- `xTaskGenericNotifyWait` between `vTaskSuspendAll` and `xTaskResumeAll`. The
-- Boolean says whether the task blocks.
def notifyWaitBlock (fuel : Nat) (ulBitsToClearOnEntry : BitVec 32) (xTicksToWait : BitVec 64)
    (k : Kernel ε τ) : Option (Bool × Kernel ε τ) := do
  let pxCurrentTCB ← k.pxCurrentTCB
  let (xShouldBlock, slot) :=
    xTaskNotifyWaitEntry ulBitsToClearOnEntry xTicksToWait (k.notification pxCurrentTCB)
  let k := k.setNotification pxCurrentTCB slot
  if xShouldBlock then do
    let k ← k.prvAddCurrentTaskToDelayedList fuel xTicksToWait true
    some (true, k)
  else
    some (false, k)

-- Its last critical section.
def notifyWaitExit (ulBitsToClearOnExit : BitVec 32) (k : Kernel ε τ) :
    Option (Bool × BitVec 32 × Kernel ε τ) := do
  let pxCurrentTCB ← k.pxCurrentTCB
  let (xReturn, value, slot) := xTaskNotifyWaitExit ulBitsToClearOnExit (k.notification pxCurrentTCB)
  some (xReturn, value, k.setNotification pxCurrentTCB slot)

section Creation

def prvInitialiseTaskLists (k : Kernel ε τ) : Kernel ε τ :=
  let ready := (List.finRange configMAX_PRIORITIES).map ReadyTasks
  let names := ready ++
    [DelayedTaskList1, DelayedTaskList2, PendingReady, TasksWaitingTermination, SuspendedTask]
  { k with
    lists := names.foldl (fun lists name => vListInitialise name lists) k.lists
    pxDelayedTaskList := DelayedTaskList1
    pxOverflowDelayedTaskList := DelayedTaskList2 }

-- What `prvInitialiseNewTask` does to the fields that are modelled here.
def prvInitialiseNewTask (pxNewTCB : τ) (uxPriority : Priority) (k : Kernel ε τ) : Kernel ε τ :=
  let lists := vListInitialiseItem (StateListItem pxNewTCB) k.lists
  let lists := vListInitialiseItem (EventListItem pxNewTCB) lists
  let value := BitVec.ofNat 64 configMAX_PRIORITIES - BitVec.ofNat 64 uxPriority
  { k with
    lists := lists.setValue (.Item (EventListItem pxNewTCB)) value
    uxPriority := Function.update k.uxPriority pxNewTCB uxPriority
    notification := Function.update k.notification pxNewTCB { value := 0, state := .NotWaiting } }

def prvAddNewTaskToReadyList (pxNewTCB : τ) (k : Kernel ε τ) : Option (Kernel ε τ) := do
  let k := { k with uxCurrentNumberOfTasks := k.uxCurrentNumberOfTasks + 1 }
  let k := match k.pxCurrentTCB with
    | none =>
      let k := { k with pxCurrentTCB := some pxNewTCB }
      if k.uxCurrentNumberOfTasks = 1 then k.prvInitialiseTaskLists else k
    | some pxCurrentTCB =>
      if ¬k.xSchedulerRunning ∧ k.uxPriority pxCurrentTCB ≤ k.uxPriority pxNewTCB then
        { k with pxCurrentTCB := some pxNewTCB }
      else
        k
  let k := k.prvAddTaskToReadyList pxNewTCB
  if k.xSchedulerRunning then k.taskYIELD_ANY_CORE_IF_USING_PREEMPTION pxNewTCB else some k

def xTaskCreate (pxNewTCB : τ) (uxPriority : Priority) (k : Kernel ε τ) : Option (Kernel ε τ) :=
  (k.prvInitialiseNewTask pxNewTCB uxPriority).prvAddNewTaskToReadyList pxNewTCB

-- What `vTaskStartScheduler` sets once the idle task and the timer task exist.
def startScheduler (k : Kernel ε τ) : Kernel ε τ :=
  { k with xNextTaskUnblockTime := portMAX_DELAY, xSchedulerRunning := true, xTickCount := 0 }

end Creation

end Kernel

end SpaceBaremetal.Tasks

import SpaceBaremetal.Lib.FixedPriority
import SpaceBaremetal.Lib.Transition
import SpaceBaremetal.Scheduler.Code

namespace SpaceBaremetal

def TASK_PRIO_WATCHDOG : Nat := 4
def TASK_PRIO_STATEMACHINE : Nat := 3
def TASK_PRIO_MEMSCRUB : Nat := 2
def TASK_PRIO_HEARTBEAT : Nat := 1
def TASK_PRIO_FAULTINJECT : Nat := 1
def TASK_PRIO_COMMANDHANDLER : Nat := 2
def TASK_PRIO_COMMANDINPUT : Nat := 1

inductive Task
  | Watchdog
  | StateMachine
  | Heartbeat
  | MemScrub
  | FaultInject
  | CommandInput
  | CommandHandler
deriving DecidableEq, Repr

def Task.priority : Task → Nat
  | .Watchdog => TASK_PRIO_WATCHDOG
  | .StateMachine => TASK_PRIO_STATEMACHINE
  | .Heartbeat => TASK_PRIO_HEARTBEAT
  | .MemScrub => TASK_PRIO_MEMSCRUB
  | .FaultInject => TASK_PRIO_FAULTINJECT
  | .CommandInput => TASK_PRIO_COMMANDINPUT
  | .CommandHandler => TASK_PRIO_COMMANDHANDLER

-- The calls of the tasks' loops on which a task may wait. `Loop` is no call but
-- the top of a loop, and `UartRx` is the poll of the receiver.
inductive KernelCall
  | Loop
  | NotifyWait (ticks : BitVec 64)
  | ReceiveState (ticks : Nat)
  | ReceiveFault
  | ReceiveCommand
  | Delay (ticks : Nat)
  | UartRx

namespace KernelCall

abbrev Answer : KernelCall → Type
  | .Loop => Unit
  | .NotifyWait _ => Bool × BitVec 32
  | .ReceiveState _ => Option StateRequest
  | .ReceiveFault => Option FaultEvent
  | .ReceiveCommand => Option CommandType
  | .Delay _ => Unit
  | .UartRx => Option Char

-- How long the call may wait; `none` is portMAX_DELAY.
def ticksToWait : KernelCall → Option Nat
  | .Loop => some 0
  | .NotifyWait ticks => some ticks.toNat
  | .ReceiveState ticks => some ticks
  | .ReceiveFault => some 0
  | .ReceiveCommand => none
  | .Delay ticks => some ticks
  | .UartRx => some 0

-- A receive asserts that its handle is not NULL.
def nullHandle (w : World) : KernelCall → Bool
  | .ReceiveState _ => w.xStateRequestQueue.isNone
  | .ReceiveFault => w.xFaultQueue.isNone
  | .ReceiveCommand => w.xCommandQueue.isNone
  | _ => false

def stateQueueReceive (w : World) : Option (StateRequest × World) :=
  match w.xStateRequestQueue with
  | none => none
  | some queue =>
      match queue.receive with
      | none => none
      | some (request, rest) => some (request, { w with xStateRequestQueue := some rest })

-- What the call waits for is there, so a task that waits for it is ready.
def available (w : World) : KernelCall → Bool
  | .NotifyWait _ => w.watchdogNotification.state == .Received
  | .ReceiveState _ => (stateQueueReceive w).isSome
  | .ReceiveFault => (faultQueueReceive w).isSome
  | .ReceiveCommand => (commandQueueReceive w).isSome
  | _ => false

-- What a call does before it waits.
def block (w : World) : KernelCall → World
  | .NotifyWait ticks =>
      { w with watchdogNotification := (xTaskNotifyWaitEntry 0 ticks w.watchdogNotification).2 }
  | _ => w

-- How a call ends, be it that what it waits for is there or that its time is
-- over. `received` is what the UART holds.
def finish (received : Option Char) (w : World) : (call : KernelCall) → call.Answer × World
  | .Loop => ((), w)
  | .NotifyWait _ =>
      let exit := xTaskNotifyWaitExit 0 w.watchdogNotification
      ((exit.1, exit.2.1), { w with watchdogNotification := exit.2.2 })
  | .ReceiveState _ =>
      match stateQueueReceive w with
      | none => (none, w)
      | some (request, w) => (some request, w)
  | .ReceiveFault =>
      match faultQueueReceive w with
      | none => (none, w)
      | some (event, w) => (some event, w)
  | .ReceiveCommand =>
      match commandQueueReceive w with
      | none => (none, w)
      | some (cmd, w) => (some cmd, w)
  | .Delay _ => ((), w)
  | .UartRx => (received, w)

-- The state requests that the answer hands over.
def taken : (call : KernelCall) → call.Answer → List StateRequest
  | .ReceiveState _, request => Option.toList request
  | _, _ => []

end KernelCall

-- The places at which the tasks make these calls, with the locals they need
-- afterwards.
inductive Site : Task → Type
  | WatchdogCycle (successfulCycles : BitVec 32) : Site .Watchdog
  | WatchdogWait (task : WatchdogTask) (remaining : BitVec 64) : Site .Watchdog
  | StateMachineReceive : Site .StateMachine
  | HeartbeatDelay : Site .Heartbeat
  | MemScrubReceive (hadEvent : Bool) : Site .MemScrub
  | MemScrubDelay : Site .MemScrub
  | FaultInjectDelay : Site .FaultInject
  | CommandInputPoll : Site .CommandInput
  | CommandInputDelay : Site .CommandInput
  | CommandHandlerReceive : Site .CommandHandler

def Site.call {task : Task} : Site task → KernelCall
  | .WatchdogCycle _ => .Loop
  | .WatchdogWait _ remaining => .NotifyWait remaining
  | .StateMachineReceive => .ReceiveState 1000
  | .HeartbeatDelay => .Delay 1000
  | .MemScrubReceive _ => .ReceiveFault
  | .MemScrubDelay => .Delay 800
  | .FaultInjectDelay => .Delay 3000
  | .CommandInputPoll => .UartRx
  | .CommandInputDelay => .Delay 10
  | .CommandHandlerReceive => .ReceiveCommand

section Tasks

variable (layout : Layout)

-- The loop of `vTaskWatchdog` after its inner loop.
def watchdogLoopDone (task : WatchdogTask) : Code (Site .Watchdog) := do
  let successfulCycles ← Code.watchdogEndCycle task
  pure (.WatchdogCycle successfulCycles)

-- The test of the inner loop.
def watchdogLoop (task : WatchdogTask) : Code (Site .Watchdog) := do
  let remaining ← .read (watchdogRemaining task)
  match remaining with
  | some remaining => pure (.WatchdogWait task remaining)
  | none => watchdogLoopDone task

-- The rest of the inner loop, given what `xTaskNotifyWait` returned.
def watchdogWoken (task : WatchdogTask) (notified : Bool × BitVec 32) : Code (Site .Watchdog) :=
  if notified.1 then
    watchdogLoop { task with received := task.received ||| notified.2 }
  else
    watchdogLoopDone task

-- The draining loop of `vTaskMemoryScrub`, given what the receive returned.
def memoryScrubReceived (hadEvent : Bool) : Option FaultEvent → Code (Site .MemScrub)
  | some event => do
      let _ ← Code.memoryScrubFixEvent layout event
      pure (.MemScrubReceive true)
  | none => do
      Code.memoryScrubDrained layout hadEvent
      pure .MemScrubDelay

-- A line end goes on to the next character without the delay.
def commandInputReceived (received : Option Char) : Code (Site .CommandInput) := do
  Code.commandInputBody received
  if received = some '\r' ∨ received = some '\n' then
    pure .CommandInputPoll
  else
    pure .CommandInputDelay

-- Each task up to the first of its calls, after what `Task.create` does.
def Task.start : (task : Task) → Code (Site task)
  | .Watchdog => do
      .act watchdogStart
      pure (.WatchdogCycle 0)
  | .StateMachine => do
      Code.stateMachineBoot
      pure .StateMachineReceive
  | .Heartbeat => do
      Code.heartbeatBody layout
      pure .HeartbeatDelay
  | .MemScrub => do
      Code.memoryScrubInit layout
      pure (.MemScrubReceive false)
  | .FaultInject => pure .FaultInjectDelay
  | .CommandInput => do
      Code.commandInputStart
      pure .CommandInputPoll
  | .CommandHandler => pure .CommandHandlerReceive

-- The code from one call of a task to its next.
def Site.resume {task : Task} : (site : Site task) → site.call.Answer → Code (Site task)
  | .WatchdogCycle successfulCycles, () => do
      let task ← Code.watchdogBeginCycle successfulCycles
      watchdogLoop task
  | .WatchdogWait task _, notified => watchdogWoken task notified
  | .StateMachineReceive, some request => do
      Code.stateMachineHandle request
      pure .StateMachineReceive
  | .StateMachineReceive, none => pure .StateMachineReceive
  | .HeartbeatDelay, () => do
      Code.heartbeatBody layout
      pure .HeartbeatDelay
  | .MemScrubReceive hadEvent, event => memoryScrubReceived layout hadEvent event
  | .MemScrubDelay, () => pure (.MemScrubReceive false)
  | .FaultInjectDelay, () => do
      Code.faultInjectBody layout
      pure .FaultInjectDelay
  | .CommandInputPoll, received => commandInputReceived received
  | .CommandInputDelay, () => pure .CommandInputPoll
  | .CommandHandlerReceive, some cmd => do
      Code.commandHandle layout cmd
      pure .CommandHandlerReceive
  | .CommandHandlerReceive, none => pure .CommandHandlerReceive

end Tasks

-- Where a task is: not yet run, in its code, between the NULL check of
-- `system_state_request_change` and the critical section of the send, or
-- waiting in a call, with the tick at which that times out.
inductive Thread (task : Task)
  | Created
  | Runs (code : Code (Site task))
  | Sends (request : StateRequest) (next : Bool → Code (Site task))
  | Waits (site : Site task) (wakeTick : Option Nat)

def Thread.ready {task : Task} (w : World) : Thread task → Prop
  | .Waits site wakeTick =>
      site.call.available w = true ∨ ∃ tick, wakeTick = some tick ∧ tick ≤ w.xTickCount
  | _ => True

structure StateCall where
  task : Task
  request : StateRequest
  passed : Bool

-- The firmware under the scheduler. A failed assertion disables the interrupts
-- and spins, so that nothing moves any more. Two fields are history variables:
-- `calls` lists the calls of `system_state_request_change` that returned, and
-- `taken` what the state machine has received.
structure System where
  world : World
  thread : (task : Task) → Thread task
  asserted : Bool
  calls : List StateCall
  taken : List StateRequest

namespace System

def start (w : World) : System where
  world := w
  thread := fun _ => .Created
  asserted := false
  calls := []
  taken := []

def Runs (s : System) (task : Task) : Prop :=
  FixedPriority.Runs Task.priority (fun task => (s.thread task).ready s.world) task

def setThread (task : Task) (thread : Thread task) (s : System) : System :=
  { s with thread := Function.update s.thread task thread }

section Threads

variable {task other : Task}

@[simp]
theorem setThread_same (thread : Thread task) (s : System) :
    (setThread task thread s).thread task = thread := Function.update_self _ _ _

theorem setThread_of_ne (hne : other ≠ task) (thread : Thread task) (s : System) :
    (setThread task thread s).thread other = s.thread other := Function.update_of_ne hne _ _

theorem setThread_eq_self {thread : Thread task} {s : System} (h : s.thread task = thread) :
    setThread task thread s = s := by
  unfold setThread
  rw [← h, Function.update_eq_self]

theorem setThread_setThread (thread thread' : Thread task) (w : World) (s : System) :
    setThread task thread' { setThread task thread s with world := w } =
      setThread task thread' { s with world := w } := by
  simp [setThread]

end Threads

variable (layout : Layout)

def resume {task : Task} (received : Option Char) (site : Site task) (s : System) : System :=
  let done := site.call.finish received s.world
  { s with
      world := done.2
      taken := s.taken ++ site.call.taken done.1 }
    |> setThread task (.Runs (site.resume layout done.1))

def arrive {task : Task} (received : Option Char) (site : Site task) (s : System) : System :=
  if site.call.nullHandle s.world then
    { s with asserted := true }
  else if site.call.available s.world = true ∨ site.call.ticksToWait = some 0 then
    resume layout received site s
  else
    { s with world := site.call.block s.world }
      |> setThread task (.Waits site (site.call.ticksToWait.map (s.world.xTickCount + ·)))

def answer {task : Task} (request : StateRequest) (next : Bool → Code (Site task)) (s : System) :
    System :=
  let done := answerRequest request s.world
  { s with
      world := done.2
      calls := s.calls ++ [{ task := task, request := request, passed := done.1 }] }
    |> setThread task (.Runs (next done.1))

-- The first thing that a task does. The state machine creates its queue, with
-- the outcome `allocated`.
def create (allocated : Bool) (task : Task) (s : System) : System :=
  match task with
  | .StateMachine =>
      { s with
          world :=
            { s.world with xStateRequestQueue := if allocated then some BoundedQueue.empty else none } }
        |> setThread .StateMachine (.Runs (Task.start layout .StateMachine))
  | task => setThread task (.Runs (Task.start layout task)) s

-- The next atomic action of a task.
def advance (allocated : Bool) (received : Option Char) (task : Task) (s : System) : System :=
  match s.thread task with
  | .Created => create layout allocated task s
  | .Runs (.Return site) => arrive layout received site s
  | .Runs (.Act f _ next) =>
      { s with world := f s.world } |> setThread task (.Runs (next s.world))
  | .Runs (.Call request next) =>
      if s.world.xStateRequestQueue.isNone then
        answer request next s
      else
        setThread task (.Sends request next) s
  | .Sends request next => answer request next s
  | .Waits site _ => resume layout received site s

inductive Step (allocated : Bool) : System → System → Prop
  | Tick (s : System) (halted : s.asserted = false) :
      Step allocated s { s with world := { s.world with xTickCount := s.world.xTickCount + 1 } }
  | Advance (s : System) (task : Task) (received : Option Char) (halted : s.asserted = false)
      (hruns : s.Runs task) : Step allocated s (advance layout allocated received task s)

-- What can be reached when `main` starts the scheduler in the world `w`.
def Reachable (allocated : Bool) (w : World) : System → Prop :=
  Transition.Reachable (· = start w) (Step layout allocated)

end System

end SpaceBaremetal

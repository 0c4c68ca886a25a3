import SpaceBaremetal.Control
import SpaceBaremetal.Tasks

namespace SpaceBaremetal

-- What is kept of a run. A cycle of the watchdog is a `CycleStart`, the
-- `LoopExit` at which the last wait of the cycle has returned, and a `CycleEnd`
-- with what the evaluation put into the flight recorder and asked for.
inductive Event
  | Boot (state : SystemState)
  | Handled (request : StateRequest) (from_ to_ : SystemState)
  | CycleStart (state : SystemState) (tick : Nat)
  | LoopExit (task : WatchdogTask) (tick : Nat)
  | CycleEnd (task : WatchdogTask) (logged : List EventLogEntry) (requested : List StateRequest)
  | Kick (taskBit : BitVec 32) (delivered : Bool) (tick : Nat)
  | FaultInjectCheck (allowed : Bool) (tick : Nat)
deriving DecidableEq

-- Where `vTaskWatchdog` is: not started, at the top of a cycle, blocked in
-- `xTaskNotifyWait` with the tick at which that times out, or out of the loop.
inductive WatchdogPc
  | Created
  | CycleTop (successfulCycles : BitVec 32)
  | Waiting (task : WatchdogTask) (wakeTick : Nat)
  | LoopDone (task : WatchdogTask)

-- The tasks around the watchdog and the state machine. `held` is the request
-- that the state machine has received and not yet applied, `faultInjectAllowed`
-- says that `vTaskFaultInject` has passed its check and not yet kicked, and
-- `trace` is the history of the run.
structure Fdir where
  world : World
  watchdog : WatchdogPc
  stateMachineRunning : Bool
  held : Option StateRequest
  faultInjectAllowed : Bool
  trace : List Event

namespace Fdir

-- The test of the inner loop and, if it passes, the entry of the next wait.
def waitOrExit (task : WatchdogTask) (s : Fdir) : Fdir :=
  match watchdogRemaining task s.world with
  | none => { s with watchdog := .LoopDone task, trace := s.trace ++ [.LoopExit task s.world.xTickCount] }
  | some remaining =>
      { s with
          world :=
            { s.world with
                watchdogNotification :=
                  (xTaskNotifyWaitEntry 0 remaining s.world.watchdogNotification).2 }
          watchdog := .Waiting task (s.world.xTickCount + remaining.toNat) }

def beginCycle (successfulCycles : BitVec 32) (s : Fdir) : Fdir :=
  waitOrExit (watchdogBeginCycle successfulCycles s.world)
    { s with trace := s.trace ++ [.CycleStart (systemStateGet s.world) s.world.xTickCount] }

def wake (task : WatchdogTask) (s : Fdir) : Fdir :=
  let exit := xTaskNotifyWaitExit 0 s.world.watchdogNotification
  let s := { s with world := { s.world with watchdogNotification := exit.2.2 } }
  if exit.1 then
    waitOrExit { task with received := task.received ||| exit.2.1 } s
  else
    { s with watchdog := .LoopDone task, trace := s.trace ++ [.LoopExit task s.world.xTickCount] }

def endCycle (task : WatchdogTask) (s : Fdir) : Fdir :=
  let done := watchdogEndCycle task s.world
  let logged := done.2.eventLog.recorded.drop s.world.eventLog.recorded.length
  let requested := (done.2.stateRequests.drop s.world.stateRequests.length).map Prod.fst
  { s with
      world := done.2
      watchdog := .CycleTop done.1
      trace := s.trace ++ [.CycleEnd task logged requested] }

-- The watchdog has the highest priority, so each of its stretches between two
-- points where it blocks is one step.
inductive WatchdogStep : Fdir → Fdir → Prop
  | Start (s : Fdir) (hpc : s.watchdog = .Created) :
      WatchdogStep s { s with world := watchdogStart s.world, watchdog := .CycleTop 0 }
  | BeginCycle (s : Fdir) (successfulCycles : BitVec 32)
      (hpc : s.watchdog = .CycleTop successfulCycles) :
      WatchdogStep s (beginCycle successfulCycles s)
  | Wake (s : Fdir) (task : WatchdogTask) (wakeTick : Nat)
      (hpc : s.watchdog = .Waiting task wakeTick)
      (hready : s.world.watchdogNotification.state = .Received ∨ wakeTick ≤ s.world.xTickCount) :
      WatchdogStep s (wake task s)
  | EndCycle (s : Fdir) (task : WatchdogTask) (hpc : s.watchdog = .LoopDone task) :
      WatchdogStep s (endCycle task s)

-- The software MPU lets a kick through.
def kickPermitted (layout : Layout) (w : World) : Bool :=
  (memoryProtectionCheckAccess layout.watchdogKickImpl 1 MEM_PERM_EXEC w).1

def kick (layout : Layout) (taskBit : BitVec 32) (s : Fdir) : Fdir :=
  let delivered := kickPermitted layout s.world && s.world.xWatchdogTaskHandle.isSome
  { s with
      world := watchdogKick layout taskBit s.world
      trace := s.trace ++ [.Kick taskBit delivered s.world.xTickCount] }

def boot (allocated : Bool) (s : Fdir) : Fdir :=
  let w := stateMachineBoot allocated s.world
  { s with world := w, stateMachineRunning := true, trace := s.trace ++ [.Boot w.gSystemState] }

def handle (request : StateRequest) (s : Fdir) : Fdir :=
  let w := stateMachineHandle request s.world
  { s with
      world := w
      held := none
      trace := s.trace ++ [.Handled request s.world.gSystemState w.gSystemState] }

def faultInjectCheck (s : Fdir) : Fdir :=
  let allowed := safePolicyAllowsAutoFaultInject (systemStateGet s.world)
  { s with
      faultInjectAllowed := allowed
      trace := s.trace ++ [.FaultInjectCheck allowed s.world.xTickCount] }

-- The requests that scrubbing and memory protection make.
def faultRequests : List StateRequest := [⟨.Degraded, 0x02⟩, ⟨.Degraded, 0x04⟩]

-- Between the two worlds requests of the given kind may have been queued, and
-- the rest of what the watchdog and the state machine steer by is the same.
def Sends (allowed : StateRequest → Prop) (w w' : World) : Prop :=
  w'.control = { w.control with queue := w'.xStateRequestQueue } ∧
    ((w.xStateRequestQueue = none ∧ w'.xStateRequestQueue = none) ∨
      ∃ queue queue' sent, w.xStateRequestQueue = some queue ∧
        w'.xStateRequestQueue = some queue' ∧ queue'.items = queue.items ++ sent ∧
        ∀ request ∈ sent, allowed request)

-- One step of one task or of the clock. `Background` stands for the parts of
-- the tasks that are not steps of their own here.
inductive Step (layout : Layout) : Fdir → Fdir → Prop
  | Watchdog (s s' : Fdir) (hstep : WatchdogStep s s') : Step layout s s'
  | Tick (s : Fdir) (ticks : Nat) :
      Step layout s { s with world := { s.world with xTickCount := s.world.xTickCount + ticks } }
  | Boot (s : Fdir) (allocated : Bool) (hpc : s.stateMachineRunning = false) :
      Step layout s (boot allocated s)
  | Receive (s : Fdir) (queue rest : BoundedQueue StateRequest STATE_REQUEST_QUEUE_LENGTH)
      (request : StateRequest) (hpc : s.stateMachineRunning = true) (hheld : s.held = none)
      (hqueue : s.world.xStateRequestQueue = some queue)
      (hreceive : queue.receive = some (request, rest)) :
      Step layout s
        { s with
            world := { s.world with xStateRequestQueue := some rest }
            held := some request }
  | Handle (s : Fdir) (request : StateRequest) (hheld : s.held = some request) :
      Step layout s (handle request s)
  | HeartbeatKick (s : Fdir) : Step layout s (kick layout WATCHDOG_BIT_HEARTBEAT s)
  | MemScrubKick (s : Fdir) : Step layout s (kick layout WATCHDOG_BIT_MEMSCRUB s)
  | FaultInjectCheck (s : Fdir) : Step layout s (faultInjectCheck s)
  | FaultInjectKick (s : Fdir) (hallowed : s.faultInjectAllowed = true) :
      Step layout s
        { kick layout WATCHDOG_BIT_FAULTINJECT s with faultInjectAllowed := false }
  | Command (s : Fdir) (cmd : CommandType) :
      Step layout s { s with world := commandHandle layout cmd s.world }
  | Background (s : Fdir) (w' : World) (hsends : Sends (· ∈ faultRequests) s.world w') :
      Step layout s { s with world := w' }

-- The scheduler starts. `imageOk` is the outcome of the boot check; the rest of
-- the world may be anything.
structure Initial (imageOk : Bool) (s : Fdir) : Prop where
  state_eq : s.world.gSystemState = .Boot
  queue_eq : s.world.xStateRequestQueue = none
  handle_eq : s.world.xWatchdogTaskHandle = none
  slot_eq : s.world.watchdogNotification = { value := 0, state := .NotWaiting }
  image_eq : s.world.imageIntegrityOk = imageOk
  watchdog_eq : s.watchdog = .Created
  stateMachine_eq : s.stateMachineRunning = false
  held_eq : s.held = none
  faultInject_eq : s.faultInjectAllowed = false
  trace_eq : s.trace = []

-- The state of the system as the history tells it.
def stateAfter (trace : List Event) : SystemState :=
  trace.foldl
    (fun state event =>
      match event with
      | .Boot booted => booted
      | .Handled _ _ to_ => to_
      | _ => state) .Boot

end Fdir

end SpaceBaremetal

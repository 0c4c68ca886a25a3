import SpaceBaremetal.Command
import SpaceBaremetal.EventLog.Theorems
import SpaceBaremetal.Lib.Program
import SpaceBaremetal.StateMachine

namespace SpaceBaremetal

-- What the code of the tasks leaves alone between two points where it may wait,
-- its state requests apart: the state queue, and which other queues exist.
structure QueueHandles where
  stateRequests : Option (BoundedQueue StateRequest STATE_REQUEST_QUEUE_LENGTH)
  faultQueue : Bool
  commandQueue : Bool

def World.handles (w : World) : QueueHandles where
  stateRequests := w.xStateRequestQueue
  faultQueue := w.xFaultQueue.isSome
  commandQueue := w.xCommandQueue.isSome

abbrev Code (α : Type) : Type := Program World.handles StateRequest Bool α

-- What a call of `system_state_request_change` does when no other task runs in
-- between.
def answerRequest (request : StateRequest) (w : World) : Bool × World :=
  systemStateRequestChange request.requestedState request.reasonCode w

-- The source functions once more, now as code that can be preempted between any
-- two of its actions.
namespace Code

section Actions

def countViolation (w : World) : World :=
  { w with
      memoryProtection :=
        { w.memoryProtection with violationCount := w.memoryProtection.violationCount + 1 } }

-- The critical section of the send in `inject_random_fault`.
def sendFault (event : FaultEvent) (w : World) : World :=
  { w with xFaultQueue := w.xFaultQueue.map fun queue => (queue.send event).2 }

theorem commandSend_handles (cmd : CommandType) (w : World) :
    (SpaceBaremetal.commandSend cmd w).2.handles = w.handles := by
  unfold SpaceBaremetal.commandSend
  split
  · rfl
  · rename_i queue hqueue
    simp [World.handles, hqueue]

theorem sendFault_handles (event : FaultEvent) (w : World) :
    (sendFault event w).handles = w.handles := by
  unfold sendFault World.handles
  cases w.xFaultQueue <;> rfl

theorem watchdogKickImpl_handles (taskBit : BitVec 32) (w : World) :
    (SpaceBaremetal.watchdogKickImpl taskBit w).handles = w.handles := by
  unfold SpaceBaremetal.watchdogKickImpl
  split <;> rfl

theorem uartHexDump_handles (data : Nat → BitVec 8) (len : Nat) (w : World) :
    (uartHexDump data len w).handles = w.handles := by
  rw [uartHexDump_eq]
  rfl

theorem memoryScrubProtectBuffers_handles (layout : Layout) (w : World) :
    (memoryScrubProtectBuffers layout w).handles = w.handles := by
  unfold memoryScrubProtectBuffers memoryProtectionProtectRegion memoryProtectionAddRegion
  split <;> rfl

theorem stateMachineLogTransition_handles (state : SystemState) (w : World) :
    (stateMachineLogTransition state w).handles = w.handles := by
  cases state <;> rfl

theorem eventLogDumpHeader_handles (w : World) : (eventLogDumpHeader w).handles = w.handles := by
  unfold eventLogDumpHeader
  rw [uartPutDec_eq, uartPutDec_eq]
  rfl

theorem eventLogDumpRound_handles (index : Nat) (w : World) :
    (eventLogDumpRound index w).handles = w.handles := by
  unfold eventLogDumpRound
  dsimp only
  split
  · rw [eventLogDumpEntry_eq]
    rfl
  · rfl

end Actions

def uartWrite (text : List String) : Code Unit :=
  .act (SpaceBaremetal.uartWrite text)

def uartPuts (s : String) : Code Unit := uartWrite [s]

def uartPutc (c : Char) : Code Unit := uartWrite [String.singleton c]

def uartPutDec (value : BitVec 32) : Code Unit := uartWrite [decText value]

def uartPutHex (value : BitVec 32) : Code Unit := uartWrite (hexText value)

def systemStateRequestChange (newState : SystemState) (reason : BitVec 32) : Code Bool :=
  .call { requestedState := newState, reasonCode := reason }

section MemoryProtection

def recordViolation : Code Unit := do
  .act countViolation
  let count ← .read fun w => w.memoryProtection.violationCount
  (if count = MEM_PROT_VIOLATION_THRESHOLD then
    .act (eventLogRecordMemProtThreshold count)
  else
    pure ())
  let count ← .read fun w => w.memoryProtection.violationCount
  if count ≥ MEM_PROT_VIOLATION_THRESHOLD then
    let _ ← systemStateRequestChange .Degraded 0x04
    pure ()
  else
    pure ()

def reportViolation (address size : BitVec 64) (accessType : String) (region : MemoryRegion) :
    Code Unit := do
  uartPuts (LOG_PREFIX_VIOLATION ++ "region=")
  uartPuts region.name
  uartPuts " access="
  uartPuts accessType
  uartPuts " addr=0x"
  uartPutHex (address.setWidth 32)
  uartPuts " size="
  uartPutDec (size.setWidth 32)
  uartPuts "\r\n"
  recordViolation

-- The table only ever grows at its end, and is read at once.
def checkRegions (address size : BitVec 64) (access : BitVec 32) : List MemoryRegion → Code Bool
  | [] => pure true
  | region :: rest =>
      if regionOverlaps region address size = false then
        checkRegions address size access rest
      else if region.permissions &&& access ≠ access then do
        reportViolation address size (accessTypeName access) region
        pure false
      else
        checkRegions address size access rest

def memoryProtectionCheckAccess (address size : BitVec 64) (access : BitVec 32) : Code Bool :=
  if access = MEM_PERM_NONE then
    pure true
  else do
    let regions ← .read fun w => w.memoryProtection.protectedRegions
    checkRegions address size access regions

end MemoryProtection

section Watchdog

variable (layout : Layout)

def watchdogKick (taskBit : BitVec 32) : Code Unit := do
  let access ← memoryProtectionCheckAccess layout.watchdogKickImpl 1 MEM_PERM_EXEC
  if access = false then
    uartPuts (LOG_PREFIX_VIOLATION ++ "watchdog kick blocked by memory protection\r\n")
  else
    .act (SpaceBaremetal.watchdogKickImpl taskBit) (watchdogKickImpl_handles taskBit)

def watchdogPrintMissingBits (received expectedBits : BitVec 32) : Code Unit := do
  let missing := expectedBits &&& ~~~received
  uartPuts (LOG_PREFIX_ERROR ++ "WATCHDOG TIMEOUT missing:")
  (if missing &&& WATCHDOG_BIT_HEARTBEAT ≠ 0 then uartPuts " Heartbeat" else pure ())
  (if missing &&& WATCHDOG_BIT_MEMSCRUB ≠ 0 then uartPuts " MemScrub" else pure ())
  (if missing &&& WATCHDOG_BIT_FAULTINJECT ≠ 0 then uartPuts " FaultInject" else pure ())
  uartPuts "\r\n"

-- The task passes the address of its own counter, so the pointer is not NULL.
def watchdogEvaluateCycle (receivedBits expectedBits : BitVec 32) (currentState : SystemState)
    (cycles : BitVec 32) : Code (BitVec 32) :=
  if receivedBits &&& expectedBits = expectedBits then
    if currentState = .Degraded then
      if cycles + 1 ≥ WATCHDOG_RECOVERY_THRESHOLD then do
        let _ ← systemStateRequestChange .Nominal 0x03
        pure 0
      else
        pure (cycles + 1)
    else
      pure 0
  else if currentState.value < SystemState.Degraded.value then do
    let _ ← systemStateRequestChange .Degraded 0x01
    pure cycles
  else if currentState = .Degraded then do
    let _ ← systemStateRequestChange .Safe 0x01
    pure cycles
  else
    pure cycles

def watchdogEndCycle (task : WatchdogTask) : Code (BitVec 32) := do
  (if task.complete then
    pure ()
  else do
    watchdogPrintMissingBits task.received task.expectedBits
    .act (eventLogRecordWatchdogTimeout (task.expectedBits &&& ~~~task.received) task.currentState))
  watchdogEvaluateCycle task.received task.expectedBits task.currentState task.successfulCycles

def watchdogBeginCycle (successfulCycles : BitVec 32) : Code WatchdogTask := do
  let currentState ← .read systemStateGet
  let ticks ← .read xTaskGetTickCount
  pure
    { successfulCycles := successfulCycles
      received := 0
      currentState := currentState
      expectedBits := safePolicyWatchdogExpectedBits currentState
      deadline := ticks + BitVec.ofNat 64 WATCHDOG_TIMEOUT_MS }

end Watchdog

section StateMachine

-- `vTaskStateMachine` between the creation of its queue and its loop.
def stateMachineBoot : Code Unit := do
  .act (fun w => { w with gSystemState := .Boot })
  uartPuts (LOG_PREFIX_STATE ++ "BOOT\r\n")
  let bootOk ← .read fun w => w.imageIntegrityOk
  if bootOk then do
    .act (fun w => { w with gSystemState := .Nominal })
    uartPuts (LOG_PREFIX_STATE ++ "NOMINAL\r\n")
    .act (eventLogRecordStateChange .Boot .Nominal 0)
  else do
    .act (fun w => { w with gSystemState := .Degraded })
    uartPuts (LOG_PREFIX_STATE ++ "DEGRADED\r\n")
    .act (eventLogRecordStateChange .Boot .Degraded IMAGE_INTEGRITY_REASON_CODE)
    .act safePolicyOnDegradedEnter

def stateMachineApplyPolicy (previous current : SystemState) : Code Unit :=
  if current = .Degraded ∧ previous ≠ .Degraded then
    .act safePolicyOnDegradedEnter
  else if current = .Safe ∧ previous ≠ .Safe then
    .act safePolicyOnEnter
  else if previous = .Safe ∧ current ≠ .Safe then
    .act safePolicyOnExit
  else
    pure ()

def stateMachineHandle (request : StateRequest) : Code Unit := do
  let current ← .read systemStateGet
  let applied := stateMachineApplyRequest (some current) (some request)
  let target := applied.2.getD current
  if applied.1 then do
    let previous ← .read systemStateGet
    .act (fun w => { w with gSystemState := target })
    .act (stateMachineLogTransition target) (stateMachineLogTransition_handles target)
    .act (eventLogRecordStateChange previous target request.reasonCode)
    stateMachineApplyPolicy previous target
  else
    pure ()

end StateMachine

section MemoryScrub

variable (layout : Layout)

def scrubRead (idx : Nat) : Code (BitVec 8) := do
  let access ← memoryProtectionCheckAccess (scrubAddress layout idx) 1 MEM_PERM_READ
  if access = false then pure 0 else .read fun w => w.scrubArea idx

def scrubWrite (idx : Nat) (value : BitVec 8) : Code Bool := do
  let access ← memoryProtectionCheckAccess (scrubAddress layout idx) 1 MEM_PERM_WRITE
  if access = false then
    pure false
  else do
    .act (fun w => { w with scrubArea := Function.update w.scrubArea idx value })
    pure true

def memoryScrubRecordSeu : Code Unit := do
  .act (fun w => { w with seuTotalCount := w.seuTotalCount + 1 })
  let state ← .read systemStateGet
  if safePolicyAllowsSeuEscalation state = false then
    pure ()
  else do
    .act (fun w => { w with seuCounter := w.seuCounter + 1 })
    let counter ← .read fun w => w.seuCounter
    if counter ≥ SEU_THRESHOLD_FOR_DEGRADED then do
      let _ ← systemStateRequestChange .Degraded 0x02
      .act (fun w => { w with seuCounter := 0 })
    else
      pure ()

def memoryScrubInit : Code Unit := do
  .act (fun w => { w with seuCounter := 0 })
  .act (fun w => { w with seuTotalCount := 0 })
  (List.range SCRUB_SIZE).foldlM (fun _ i =>
    .act (fun w => { w with scrubArea := Function.update w.scrubArea i (goldenCopy i) })) ()
  .act (memoryScrubProtectBuffers layout) (memoryScrubProtectBuffers_handles layout)
  uartPuts "Memory scrub initialized (EDAC Simulation)\r\n"

def memoryScrubFixEvent (event : FaultEvent) : Code Bool :=
  if event.index.toNat ≥ SCRUB_SIZE ∨ event.bit.toNat ≥ 8 then
    pure false
  else do
    let idx := event.index.toNat
    let bitMask : BitVec 8 := 1#8 <<< event.bit.toNat
    let actual ← scrubRead layout idx
    let expected := goldenCopy idx
    if actual &&& bitMask = expected &&& bitMask then do
      uartPuts "Memory scrub: targeted check @ byte "
      uartPutHex event.index
      uartPuts " bit "
      uartPutHex (event.bit.setWidth 32)
      uartPuts " — ok\r\n"
      pure false
    else do
      let written ← scrubWrite layout idx ((actual &&& ~~~bitMask) ||| (expected &&& bitMask))
      if written = false then do
        uartPuts (LOG_PREFIX_VIOLATION ++ "scrub write blocked by memory protection\r\n")
        pure false
      else do
        uartPuts "Memory scrub: SEU corrected @ byte "
        uartPutHex event.index
        uartPuts " bit "
        uartPutHex (event.bit.setWidth 32)
        uartPuts "\r\n"
        .act (eventLogRecordSeuCorrected event.index event.bit)
        memoryScrubRecordSeu
        pure true

def memoryScrubRound (errorsCorrected : BitVec 32) (i : Nat) : Code (BitVec 32) := do
  let current ← scrubRead layout i
  if current ≠ goldenCopy i then do
    let written ← scrubWrite layout i (goldenCopy i)
    if written then do
      memoryScrubRecordSeu
      pure (errorsCorrected + 1)
    else
      pure errorsCorrected
  else
    pure errorsCorrected

def memoryScrub : Code Unit := do
  let errorsCorrected ← (List.range SCRUB_SIZE).foldlM (memoryScrubRound layout) 0
  if errorsCorrected > 0 then
    uartPuts "Memory scrub: SEU(s) detected and corrected\r\n"
  else
    uartPuts "Memory scrub completed - No errors\r\n"

end MemoryScrub

section Tasks

variable (layout : Layout)

def injectRandomFault : Code Unit := do
  let ticks ← .read xTaskGetTickCount
  let idx := faultIndex ticks
  let bit := faultBit ticks
  .act (fun w => { w with scrubArea := flipBit w.scrubArea idx.toNat bit.toNat })
  uartPuts "Simulated fault injected @ tick "
  uartPutHex (ticks.setWidth 32)
  uartPuts " — byte "
  uartPutHex idx
  uartPuts " (bit "
  uartPutHex bit
  uartPuts ") !!!\r\n"
  uartPuts "Before scrub dump (first 64 bytes):\r\n"
  .act (fun w => uartHexDump w.scrubArea 64 w) (fun w => uartHexDump_handles w.scrubArea 64 w)
  .act (sendFault { index := idx, bit := bit.setWidth 8 }) (sendFault_handles _)

def heartbeatBody : Code Unit := do
  let state ← .read systemStateGet
  (if safePolicyAllowsHeartbeatUart state then
    uartPuts "HEARTBEAT from FreeRTOS task\r\n"
  else
    pure ())
  watchdogKick layout WATCHDOG_BIT_HEARTBEAT

-- The loop of `vTaskMemoryScrub` between its last receive and its delay.
def memoryScrubDrained (hadEvent : Bool) : Code Unit := do
  (if hadEvent then
    pure ()
  else do
    let state ← .read systemStateGet
    if safePolicyAllowsBackgroundScrub state then memoryScrub layout else pure ())
  watchdogKick layout WATCHDOG_BIT_MEMSCRUB

def faultInjectBody : Code Unit := do
  let state ← .read systemStateGet
  if safePolicyAllowsAutoFaultInject state then do
    watchdogKick layout WATCHDOG_BIT_FAULTINJECT
    let enabled ← .read faultInjectIsEnabled
    if enabled then injectRandomFault else pure ()
  else
    pure ()

def eventLogDumpLoop : Nat → Nat → Code Unit
  | 0, _ => pure ()
  | fuel + 1, index => do
      let count ← .read fun w => w.eventLog.count
      if index < count then do
        .act (eventLogDumpRound index) (eventLogDumpRound_handles index)
        eventLogDumpLoop fuel (index + 1)
      else
        pure ()

def eventLogDump : Code Unit := do
  .act eventLogDumpHeader eventLogDumpHeader_handles
  eventLogDumpLoop (EVENT_LOG_CAPACITY + 1) 0

def commandHandle (cmd : CommandType) : Code Unit :=
  match cmd with
  | .Status => uartPuts (LOG_PREFIX_CMD ++ "telemetry requires DEBUG build\r\n")
  | .GoNominal => do
      .act (eventLogRecordOperator 'n')
      let _ ← systemStateRequestChange .Nominal 0x10
      pure ()
  | .GoDegraded => do
      .act (eventLogRecordOperator 'd')
      let _ ← systemStateRequestChange .Degraded 0x10
      pure ()
  | .GoSafe => do
      .act (eventLogRecordOperator 'a')
      let _ ← systemStateRequestChange .Safe 0x10
      pure ()
  | .DumpEventLog => eventLogDump
  | .InjectFault => do
      let state ← .read systemStateGet
      if safePolicyAllowsManualFaultInject state = false then
        uartPuts (LOG_PREFIX_CMD ++ "fault inject blocked in SAFE\r\n")
      else
        injectRandomFault
  | .ForceScrub => memoryScrub layout
  | .PrintViolations => do
      uartPuts (LOG_PREFIX_CMD ++ "mem_prot violations: ")
      let count ← .read fun w => w.memoryProtection.violationCount
      uartPutDec count
      uartPuts "\r\n"
  | .PrintSeuCount => do
      uartPuts (LOG_PREFIX_CMD ++ "SEU count: ")
      let count ← .read fun w => w.seuTotalCount
      uartPutDec count
      uartPuts "\r\n"
  | .ToggleFaultInject => do
      let enabled ← .read faultInjectIsEnabled
      .act (fun w => (faultInjectSetEnabled (!enabled) w).2)
      uartPuts (LOG_PREFIX_CMD ++ "fault injection: ")
      let enabled ← .read faultInjectIsEnabled
      uartPuts (if enabled then "ON\r\n" else "OFF\r\n")

def commandSend (cmd : CommandType) : Code Bool :=
  .atomic (SpaceBaremetal.commandSend cmd) (commandSend_handles cmd)

def commandDispatchChar (c : Char) : Code Bool :=
  match keyCommand c with
  | some cmd => do
      let sent ← commandSend cmd
      (if sent = false then uartPuts (LOG_PREFIX_CMD ++ "queue full\r\n") else pure ())
      pure true
  | none =>
      if c = 'h' ∨ c = '?' then do
        .act commandPrintHelp
        pure true
      else
        pure false

def commandInputStart : Code Unit :=
  uartPuts (LOG_PREFIX_CMD ++ "input ready (h for help)\r\n")

def commandInputBody (received : Option Char) : Code Unit :=
  match received with
  | none => pure ()
  | some c =>
      if c = '\r' ∨ c = '\n' then
        pure ()
      else do
        let dispatched ← commandDispatchChar c
        if dispatched = false then do
          uartPuts (LOG_PREFIX_CMD ++ "unknown key '")
          uartPutc c
          uartPuts "' (h for help)\r\n"
        else
          pure ()

end Tasks

end Code

end SpaceBaremetal

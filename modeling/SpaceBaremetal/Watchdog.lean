import SpaceBaremetal.MemoryProtection
import SpaceBaremetal.SafePolicy

namespace SpaceBaremetal

def WATCHDOG_TIMEOUT_MS : Nat := 3500
def WATCHDOG_RECOVERY_THRESHOLD : BitVec 32 := 5

def watchdogKickImpl (taskBit : BitVec 32) (w : World) : World :=
  match w.xWatchdogTaskHandle with
  | none => w
  | some .Watchdog =>
      { w with
          watchdogNotification := (xTaskGenericNotify taskBit .SetBits w.watchdogNotification).2 }

def watchdogKick (layout : Layout) (taskBit : BitVec 32) (w : World) : World :=
  let access := memoryProtectionCheckAccess layout.watchdogKickImpl 1 MEM_PERM_EXEC w
  if access.1 = false then
    uartPuts (LOG_PREFIX_VIOLATION ++ "watchdog kick blocked by memory protection\r\n") access.2
  else
    watchdogKickImpl taskBit access.2

-- The counter is passed by reference: `none` is a NULL pointer, and the first
-- component is what the pointer points at afterwards.
def watchdogEvaluateCycle (receivedBits expectedBits : BitVec 32) (currentState : SystemState)
    (successfulCycles : Option (BitVec 32)) (w : World) : Option (BitVec 32) × World :=
  match successfulCycles with
  | none => (none, w)
  | some cycles =>
      if receivedBits &&& expectedBits = expectedBits then
        if currentState = .Degraded then
          if cycles + 1 ≥ WATCHDOG_RECOVERY_THRESHOLD then
            (some 0, (systemStateRequestChange .Nominal 0x03 w).2)
          else
            (some (cycles + 1), w)
        else
          (some 0, w)
      else if currentState.value < SystemState.Degraded.value then
        (some cycles, (systemStateRequestChange .Degraded 0x01 w).2)
      else if currentState = .Degraded then
        (some cycles, (systemStateRequestChange .Safe 0x01 w).2)
      else
        (some cycles, w)

def watchdogPrintMissingBits (received expectedBits : BitVec 32) (w : World) : World :=
  let missing := expectedBits &&& ~~~received
  let w := uartPuts (LOG_PREFIX_ERROR ++ "WATCHDOG TIMEOUT missing:") w
  let w := if missing &&& WATCHDOG_BIT_HEARTBEAT ≠ 0 then uartPuts " Heartbeat" w else w
  let w := if missing &&& WATCHDOG_BIT_MEMSCRUB ≠ 0 then uartPuts " MemScrub" w else w
  let w := if missing &&& WATCHDOG_BIT_FAULTINJECT ≠ 0 then uartPuts " FaultInject" w else w
  uartPuts "\r\n" w

-- The locals of `vTaskWatchdog`.
structure WatchdogTask where
  successfulCycles : BitVec 32
  received : BitVec 32
  currentState : SystemState
  expectedBits : BitVec 32
  deadline : BitVec 64
deriving DecidableEq, Repr

-- `vTaskWatchdog` up to its loop.
def watchdogStart (w : World) : World :=
  { w with xWatchdogTaskHandle := some .Watchdog }

def watchdogBeginCycle (successfulCycles : BitVec 32) (w : World) : WatchdogTask where
  successfulCycles := successfulCycles
  received := 0
  currentState := systemStateGet w
  expectedBits := safePolicyWatchdogExpectedBits (systemStateGet w)
  deadline := xTaskGetTickCount w + BitVec.ofNat 64 WATCHDOG_TIMEOUT_MS

def WatchdogTask.complete (task : WatchdogTask) : Bool :=
  task.received &&& task.expectedBits == task.expectedBits

-- The test of the inner loop: the timeout of the next wait, or `none` when the
-- loop is left before waiting again.
def watchdogRemaining (task : WatchdogTask) (w : World) : Option (BitVec 64) :=
  if task.complete then
    none
  else
    let remaining := task.deadline - xTaskGetTickCount w
    if (remaining.setWidth 32).toInt ≤ 0 then none else some remaining

-- The part of a cycle after the inner loop; the first component is the
-- counter of successful cycles.
def watchdogEndCycle (task : WatchdogTask) (w : World) : BitVec 32 × World :=
  let w := if task.complete then w else
    w |> watchdogPrintMissingBits task.received task.expectedBits
      |> eventLogRecordWatchdogTimeout (task.expectedBits &&& ~~~task.received) task.currentState
  let done := watchdogEvaluateCycle task.received task.expectedBits task.currentState
    (some task.successfulCycles) w
  (done.1.getD task.successfulCycles, done.2)

end SpaceBaremetal

import SpaceBaremetal.Command
import SpaceBaremetal.ImageIntegrity
import SpaceBaremetal.Scheduler.System

namespace SpaceBaremetal

-- Which allocations succeed: the queues that `main` creates, the one that the
-- state machine creates, and the control block and stack of each task.
structure Allocations where
  faultQueue : Bool
  commandQueue : Bool
  stateQueue : Bool
  task : Task → Bool

-- It does not return; what is left is the world in which it spins.
def systemHalt (reason : String) (w : World) : World :=
  w |> uartPuts "\r\n"
    |> uartPuts (LOG_PREFIX_ERROR ++ "System halted: ")
    |> uartPuts reason
    |> uartPuts "\r\n"

def faultQueueInit (allocated : Bool) (w : World) : Bool × World :=
  let w := { w with xFaultQueue := if allocated then some BoundedQueue.empty else none }
  (w.xFaultQueue.isSome, w)

def faultInjectInit (w : World) : World :=
  uartPuts "Fault injection initialized (SEU simulation)\r\n" w

-- The tasks of the build without DEBUG, in the order of the table.
def taskConfigs : List Task :=
  [.Watchdog, .StateMachine, .Heartbeat, .MemScrub, .FaultInject, .CommandInput, .CommandHandler]

-- An error is a halt.
def createTask (allocations : Allocations) (w : World) (task : Task) : Except World World :=
  if allocations.task task = false then .error (systemHalt "xTaskCreate failed" w) else .ok w

def tasksCreateAll (allocations : Allocations) (w : World) : Except World World :=
  taskConfigs.foldlM (createTask allocations) (faultInjectInit w)

-- What the linker and the loader put into memory.
structure Image where
  layout : Layout
  memory : Memory
  region : ImageRegion
  crcExpected : BitVec 32

-- `main` from its first statement to `vTaskStartScheduler`.
def main (image : Image) (allocations : Allocations) (w : World) : Except World World := do
  let fault := faultQueueInit allocations.faultQueue w
  if fault.1 = false then
    .error (systemHalt "fault_queue_init failed" fault.2)
  else
    let w := fault.2
      |> commandInit allocations.commandQueue
      |> eventLogInit
    let verified := imageIntegrityVerify image.memory image.region image.crcExpected w
    let w :=
      if verified.1 = false then
        eventLogRecordImageCrcFail verified.2.imageIntegrityExpected
          verified.2.imageIntegrityComputed verified.2
      else
        verified.2
    let w ← w
      |> memoryProtectionInit
      |> memoryProtectionRegisterCriticalText image.layout
      |> uartPuts "\r\n=== FreeRTOS Migration Started ===\r\n"
      |> tasksCreateAll allocations
    pure (uartPuts "Starting FreeRTOS scheduler...\r\n" w)

end SpaceBaremetal

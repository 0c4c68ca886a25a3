import Mathlib.Tactic.Simps.Basic
import SpaceBaremetal.Lib.BoundedQueue
import SpaceBaremetal.Lib.RingBuffer

namespace SpaceBaremetal

inductive SystemState
  | Boot
  | Nominal
  | Degraded
  | Safe
deriving DecidableEq, Repr

-- The enumerator's value, by which the C code orders the states.
def SystemState.value : SystemState → Nat
  | .Boot => 0
  | .Nominal => 1
  | .Degraded => 2
  | .Safe => 3

structure StateRequest where
  requestedState : SystemState
  reasonCode : BitVec 32
deriving DecidableEq, Repr

structure FaultEvent where
  index : BitVec 32
  bit : BitVec 8
deriving DecidableEq, Repr

inductive CommandType
  | Status
  | GoNominal
  | GoDegraded
  | GoSafe
  | InjectFault
  | ForceScrub
  | PrintViolations
  | PrintSeuCount
  | ToggleFaultInject
  | DumpEventLog
deriving DecidableEq, Repr

def EVENT_LOG_CAPACITY : Nat := 48
def STATE_REQUEST_QUEUE_LENGTH : Nat := 4
def FAULT_QUEUE_LENGTH : Nat := 5
def COMMAND_QUEUE_LENGTH : Nat := 8
def MAX_PROTECTED_REGIONS : Nat := 8
def SCRUB_SIZE : Nat := 512

inductive EventLogType
  | Boot
  | StateChange
  | WatchdogTimeout
  | SeuCorrected
  | MemProtThreshold
  | SafePolicy
  | Operator
  | ImageCrcFail
deriving DecidableEq, Repr

structure EventLogEntry where
  type : EventLogType
  argA : BitVec 8
  argB : BitVec 8
  tick : BitVec 32
  data : BitVec 32
deriving DecidableEq, Repr

-- `recorded` is a history variable that no C code reads: every entry stored
-- since the last reset, oldest first.
structure EventLog extends RingBuffer EventLogEntry EVENT_LOG_CAPACITY where
  recorded : List EventLogEntry

def MEM_PERM_NONE : BitVec 32 := 0
def MEM_PERM_READ : BitVec 32 := 1
def MEM_PERM_WRITE : BitVec 32 := 2
def MEM_PERM_EXEC : BitVec 32 := 4

structure MemoryRegion where
  start : BitVec 64
  end_ : BitVec 64
  permissions : BitVec 32
  name : String
deriving DecidableEq, Repr

-- The first `region_count` entries of `protected_regions`.
structure MemoryProtection where
  protectedRegions : List MemoryRegion
  violationCount : BitVec 32
  regions_le : protectedRegions.length ≤ MAX_PROTECTED_REGIONS

inductive NotifyState
  | NotWaiting
  | Waiting
  | Received
deriving DecidableEq, Repr

-- The notification slot of the watchdog task's control block.
structure TaskNotification where
  value : BitVec 32
  state : NotifyState
deriving DecidableEq, Repr

-- The only task whose handle the application keeps.
inductive TaskHandle
  | Watchdog
deriving DecidableEq, Repr

-- The addresses that the linker gives to what the software MPU is asked about.
structure Layout where
  scrubArea : BitVec 64
  watchdogKickImpl : BitVec 64
  criticalTextStart : BitVec 64
  criticalTextEnd : BitVec 64

-- The globals of the firmware and of the kernel objects it uses. A queue or a
-- handle that is still NULL is `none`. Two fields are history variables:
-- `uart` is what was printed, one string for each call, and `stateRequests`
-- lists every call of `system_state_request_change` with its result.
structure World where
  uart : List String
  xTickCount : Nat
  gSystemState : SystemState
  xStateRequestQueue : Option (BoundedQueue StateRequest STATE_REQUEST_QUEUE_LENGTH)
  stateRequests : List (StateRequest × Bool)
  eventLog : EventLog
  memoryProtection : MemoryProtection
  faultInjectEnabled : Bool
  xFaultQueue : Option (BoundedQueue FaultEvent FAULT_QUEUE_LENGTH)
  xCommandQueue : Option (BoundedQueue CommandType COMMAND_QUEUE_LENGTH)
  scrubArea : Nat → BitVec 8
  seuCounter : BitVec 32
  seuTotalCount : BitVec 32
  xWatchdogTaskHandle : Option TaskHandle
  watchdogNotification : TaskNotification
  imageIntegrityOk : Bool
  imageIntegrityComputed : BitVec 32
  imageIntegrityExpected : BitVec 32

-- What `main` starts from: the zeroed .bss and the initial values of .data.
def startupWorld : World where
  uart := []
  xTickCount := 0
  gSystemState := .Boot
  xStateRequestQueue := none
  stateRequests := []
  eventLog :=
    { slots := Vector.replicate _ ⟨.Boot, 0, 0, 0, 0⟩
      head := 0
      count := 0
      head_lt := by decide
      count_le := Nat.zero_le _
      head_eq := RingBuffer.reset_head_eq
      recorded := [] }
  memoryProtection := { protectedRegions := [], violationCount := 0, regions_le := Nat.zero_le _ }
  faultInjectEnabled := true
  xFaultQueue := none
  xCommandQueue := none
  scrubArea := fun _ => 0
  seuCounter := 0
  seuTotalCount := 0
  xWatchdogTaskHandle := none
  watchdogNotification := { value := 0, state := .NotWaiting }
  imageIntegrityOk := true
  imageIntegrityComputed := 0
  imageIntegrityExpected := 0

-- One placement of the symbols, the code below the data.
def startupLayout : Layout where
  scrubArea := 0x80010000
  watchdogKickImpl := 0x80000400
  criticalTextStart := 0x80000000
  criticalTextEnd := 0x80001000

end SpaceBaremetal

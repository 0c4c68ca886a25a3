import SpaceBaremetal.Kernel
import SpaceBaremetal.Uart

namespace SpaceBaremetal

def LOG_PREFIX_REC : String := "[REC] "

theorem event_log_capacity_pos : 0 < EVENT_LOG_CAPACITY := by decide

def eventLogStore (type : EventLogType) (argA argB : BitVec 8) (data : BitVec 32) (w : World) :
    World :=
  let log := w.eventLog
  let entry : EventLogEntry :=
    { type := type
      argA := argA
      argB := argB
      tick := (xTaskGetTickCount w).setWidth 32
      data := data }
  { w with
      eventLog :=
        { slots := log.slots.set log.head entry log.head_lt
          head := (log.head + 1) % EVENT_LOG_CAPACITY
          count := if log.count < EVENT_LOG_CAPACITY then log.count + 1 else log.count
          head_lt := Nat.mod_lt _ event_log_capacity_pos
          count_le := (log.store entry).count_le
          head_eq := log.store_head_eq
          recorded := log.recorded ++ [entry] } }

-- The entries themselves stay in the array.
def eventLogReset (w : World) : World :=
  { w with
      eventLog :=
        { slots := w.eventLog.slots
          head := 0
          count := 0
          head_lt := event_log_capacity_pos
          count_le := Nat.zero_le _
          head_eq := RingBuffer.reset_head_eq
          recorded := [] } }

def eventLogInit (w : World) : World :=
  w |> eventLogReset |> eventLogStore .Boot 0 0 0

def stateByte (state : SystemState) : BitVec 8 :=
  BitVec.ofNat 8 state.value

def eventLogRecordStateChange (from_ to_ : SystemState) (reason : BitVec 32) (w : World) : World :=
  eventLogStore .StateChange (stateByte from_) (stateByte to_) reason w

def eventLogRecordWatchdogTimeout (missingBits : BitVec 32) (state : SystemState) (w : World) :
    World :=
  eventLogStore .WatchdogTimeout (stateByte state) 0 missingBits w

def eventLogRecordSeuCorrected (byteIndex : BitVec 32) (bit : BitVec 8) (w : World) : World :=
  eventLogStore .SeuCorrected (byteIndex.setWidth 8) bit 0 w

def eventLogRecordMemProtThreshold (violationCount : BitVec 32) (w : World) : World :=
  eventLogStore .MemProtThreshold 0 0 violationCount w

def eventLogRecordSafePolicy (enteringSafe : Bool) (w : World) : World :=
  eventLogStore .SafePolicy (if enteringSafe then 1 else 0) 0 0 w

def eventLogRecordOperator (commandKey : Char) (w : World) : World :=
  eventLogStore .Operator (BitVec.ofNat 8 commandKey.toNat) 0 0 w

-- The one writer that does not go through `event_log_store`: its `tick` field
-- holds the computed CRC.
def eventLogRecordImageCrcFail (expected computed : BitVec 32) (w : World) : World :=
  let log := w.eventLog
  let entry : EventLogEntry :=
    { type := .ImageCrcFail
      argA := 0
      argB := 0
      tick := computed
      data := expected }
  { w with
      eventLog :=
        { slots := log.slots.set log.head entry log.head_lt
          head := (log.head + 1) % EVENT_LOG_CAPACITY
          count := if log.count < EVENT_LOG_CAPACITY then log.count + 1 else log.count
          head_lt := Nat.mod_lt _ event_log_capacity_pos
          count_le := (log.store entry).count_le
          head_eq := log.store_head_eq
          recorded := log.recorded ++ [entry] } }

def eventLogCount (w : World) : BitVec 16 :=
  BitVec.ofNat 16 w.eventLog.count

-- `entry` is what the output pointer points at, `none` for NULL.
def eventLogGetEntryChronological (index : BitVec 16) (entry : Option EventLogEntry) (w : World) :
    Bool × Option EventLogEntry :=
  let log := w.eventLog
  if entry = none ∨ log.count ≤ index.toNat then
    (false, entry)
  else
    let start := if log.count < EVENT_LOG_CAPACITY then 0 else log.head
    let slot := (start + index.toNat) % EVENT_LOG_CAPACITY
    (true, some log.slots[(⟨slot, Nat.mod_lt _ event_log_capacity_pos⟩ : Fin EVENT_LOG_CAPACITY)])

def eventLogPutStateName (state : BitVec 8) (w : World) : World :=
  if state = stateByte .Boot then uartPuts "BOOT" w
  else if state = stateByte .Nominal then uartPuts "NOMINAL" w
  else if state = stateByte .Degraded then uartPuts "DEGRADED" w
  else if state = stateByte .Safe then uartPuts "SAFE" w
  else uartPuts "UNKNOWN" w

-- The switch of `event_log_dump_entry`. Its default case cannot be met, since
-- every writer stores one of the enumerators.
def eventLogDumpPayload (entry : EventLogEntry) (w : World) : World :=
  match entry.type with
  | .Boot => uartPuts "BOOT" w
  | .StateChange =>
      w |> uartPuts "STATE "
        |> eventLogPutStateName entry.argA
        |> uartPuts "->"
        |> eventLogPutStateName entry.argB
        |> uartPuts " reason=0x"
        |> uartPutHex entry.data
  | .WatchdogTimeout =>
      w |> uartPuts "WDT_TIMEOUT state="
        |> eventLogPutStateName entry.argA
        |> uartPuts " missing=0x"
        |> uartPutHex entry.data
  | .SeuCorrected =>
      w |> uartPuts "SEU byte="
        |> uartPutDec (entry.argA.setWidth 32)
        |> uartPuts " bit="
        |> uartPutDec (entry.argB.setWidth 32)
  | .MemProtThreshold => w |> uartPuts "MPU_THRESHOLD count=" |> uartPutDec entry.data
  | .SafePolicy => uartPuts (if entry.argA ≠ 0 then "SAFE_ENTER" else "SAFE_EXIT") w
  | .Operator =>
      w |> uartPuts "OP key='"
        |> uartPutc (Char.ofNat entry.argA.toNat)
        |> uartPuts "'"
  | .ImageCrcFail =>
      w |> uartPuts "IMAGE_CRC_FAIL expected=0x"
        |> uartPutHex entry.data
        |> uartPuts " computed=0x"
        |> uartPutHex entry.tick

def eventLogDumpEntry (entry : EventLogEntry) (w : World) : World :=
  w |> uartPuts (LOG_PREFIX_REC ++ "t=")
    |> uartPutDec entry.tick
    |> uartPuts " "
    |> eventLogDumpPayload entry
    |> uartPuts "\r\n"

-- One round of the loop of `event_log_dump`. The local `entry` is not
-- initialised in C; any value may stand for it.
def eventLogDumpRound (index : Nat) (w : World) : World :=
  let blank : EventLogEntry := { type := .Boot, argA := 0, argB := 0, tick := 0, data := 0 }
  match eventLogGetEntryChronological (BitVec.ofNat 16 index) (some blank) w with
  | (true, some entry) => eventLogDumpEntry entry w
  | _ => w

-- The loop reads the count again before each round. The log holds at most
-- `EVENT_LOG_CAPACITY` entries, which bounds the rounds.
def eventLogDumpLoop : Nat → Nat → World → World
  | 0, _, w => w
  | fuel + 1, index, w =>
      if index < w.eventLog.count then
        eventLogDumpLoop fuel (index + 1) (eventLogDumpRound index w)
      else
        w

def eventLogDumpHeader (w : World) : World :=
  w |> uartPuts (LOG_PREFIX_REC ++ "flight log (")
    |> uartPutDec (BitVec.ofNat 32 w.eventLog.count)
    |> uartPuts "/"
    |> uartPutDec (BitVec.ofNat 32 EVENT_LOG_CAPACITY)
    |> uartPuts " entries)\r\n"

def eventLogDump (w : World) : World :=
  eventLogDumpLoop (EVENT_LOG_CAPACITY + 1) 0 (eventLogDumpHeader w)

end SpaceBaremetal

import SpaceBaremetal.EventLog
import SpaceBaremetal.SystemState

namespace SpaceBaremetal

section Text

def stateName (state : BitVec 8) : String :=
  if state = stateByte .Boot then "BOOT"
  else if state = stateByte .Nominal then "NOMINAL"
  else if state = stateByte .Degraded then "DEGRADED"
  else if state = stateByte .Safe then "SAFE"
  else "UNKNOWN"

def payloadText (entry : EventLogEntry) : List String :=
  match entry.type with
  | .Boot => ["BOOT"]
  | .StateChange =>
      ["STATE ", stateName entry.argA, "->", stateName entry.argB, " reason=0x"] ++ hexText entry.data
  | .WatchdogTimeout =>
      ["WDT_TIMEOUT state=", stateName entry.argA, " missing=0x"] ++ hexText entry.data
  | .SeuCorrected =>
      ["SEU byte=", decText (entry.argA.setWidth 32), " bit=", decText (entry.argB.setWidth 32)]
  | .MemProtThreshold => ["MPU_THRESHOLD count=", decText entry.data]
  | .SafePolicy => [if entry.argA ≠ 0 then "SAFE_ENTER" else "SAFE_EXIT"]
  | .Operator => ["OP key='", String.singleton (Char.ofNat entry.argA.toNat), "'"]
  | .ImageCrcFail =>
      ["IMAGE_CRC_FAIL expected=0x"] ++ hexText entry.data ++ [" computed=0x"] ++ hexText entry.tick

-- One line of the dump.
def entryText (entry : EventLogEntry) : List String :=
  [LOG_PREFIX_REC ++ "t=", decText entry.tick, " "] ++ payloadText entry ++ ["\r\n"]

@[simp] theorem eventLogPutStateName_eq (state : BitVec 8) (w : World) :
    eventLogPutStateName state w = uartWrite [stateName state] w := by
  unfold eventLogPutStateName stateName
  split_ifs <;> rfl

theorem eventLogDumpPayload_eq (entry : EventLogEntry) (w : World) :
    eventLogDumpPayload entry w = uartWrite (payloadText entry) w := by
  unfold eventLogDumpPayload payloadText
  cases entry.type <;> simp

@[simp] theorem eventLogDumpEntry_eq (entry : EventLogEntry) (w : World) :
    eventLogDumpEntry entry w = uartWrite (entryText entry) w := by
  simp [eventLogDumpEntry, eventLogDumpPayload_eq, entryText]

@[simp] theorem eventLogDumpHeader_eventLog (w : World) :
    (eventLogDumpHeader w).eventLog = w.eventLog := by
  simp [eventLogDumpHeader]

end Text

section Read

theorem eventLogGetEntryChronological_of_le {index : BitVec 16} {w : World}
    (entry : Option EventLogEntry) (h : w.eventLog.count ≤ index.toNat) :
    eventLogGetEntryChronological index entry w = (false, entry) := by
  simp [eventLogGetEntryChronological, h]

theorem eventLogGetEntryChronological_of_lt (index : BitVec 16) {w : World}
    (entry : EventLogEntry) (h : index.toNat < w.eventLog.count) :
    eventLogGetEntryChronological index (some entry) w =
      (true, some (w.eventLog.nth index.toNat)) := by
  simp [eventLogGetEntryChronological, Nat.not_le.mpr h, RingBuffer.nth, RingBuffer.start]

theorem eventLogDumpRound_eq {index : Nat} {w : World} (h : index < w.eventLog.count) :
    eventLogDumpRound index w = eventLogDumpEntry (w.eventLog.nth index) w := by
  have hc := w.eventLog.count_le
  have hcap : EVENT_LOG_CAPACITY = 48 := rfl
  have hi : (BitVec.ofNat 16 index).toNat = index := by
    rw [BitVec.toNat_ofNat]
    exact Nat.mod_eq_of_lt (by omega)
  have hg := eventLogGetEntryChronological_of_lt (BitVec.ofNat 16 index)
    { type := .Boot, argA := 0, argB := 0, tick := 0, data := 0 } (by rw [hi]; exact h)
  simp only [eventLogDumpRound, hg, hi]

-- Printing does not touch the log, so the count that bounds the loop and the
-- entries that the later rounds read are those of the first round.
theorem eventLogDumpLoop_eq (fuel index : Nat) (w : World)
    (hfuel : w.eventLog.count ≤ index + fuel) :
    eventLogDumpLoop fuel index w =
      ((List.range' index (w.eventLog.count - index)).map w.eventLog.nth).foldl
        (fun w entry => eventLogDumpEntry entry w) w := by
  induction fuel generalizing index w with
  | zero =>
      have hz : w.eventLog.count - index = 0 := by omega
      simp [eventLogDumpLoop, hz]
  | succ fuel ih =>
      unfold eventLogDumpLoop
      by_cases hi : index < w.eventLog.count
      · rw [if_pos hi, eventLogDumpRound_eq hi]
        have hlog : (eventLogDumpEntry (w.eventLog.nth index) w).eventLog = w.eventLog := by simp
        have hs : w.eventLog.count - index = w.eventLog.count - (index + 1) + 1 := by omega
        rw [ih (index + 1) _ (by rw [hlog]; omega), hlog, hs, List.range'_succ, List.map_cons,
          List.foldl_cons]
      · have hz : w.eventLog.count - index = 0 := by omega
        simp [hi, hz]

theorem eventLogDump_eq (w : World) :
    eventLogDump w =
      ((List.range w.eventLog.count).map w.eventLog.nth).foldl
        (fun w entry => eventLogDumpEntry entry w) (eventLogDumpHeader w) := by
  have hc := w.eventLog.count_le
  unfold eventLogDump
  rw [eventLogDumpLoop_eq _ _ _ (by simp; omega), eventLogDumpHeader_eventLog, Nat.sub_zero,
    List.range_eq_range']

def dumpText (log : EventLog) : List String :=
  [LOG_PREFIX_REC ++ "flight log (", decText (BitVec.ofNat 32 log.count), "/",
      decText (BitVec.ofNat 32 EVENT_LOG_CAPACITY), " entries)\r\n"] ++
    ((List.range log.count).map log.nth).flatMap entryText

theorem foldl_eventLogDumpEntry (entries : List EventLogEntry) (w : World) :
    entries.foldl (fun w entry => eventLogDumpEntry entry w) w =
      uartWrite (entries.flatMap entryText) w := by
  induction entries generalizing w with
  | nil => simp [uartWrite]
  | cons entry entries ih => rw [List.foldl_cons, ih, eventLogDumpEntry_eq, uartWrite_uartWrite,
      List.flatMap_cons]

-- All that a dump does is print.
theorem eventLogDump_eq_uartWrite (w : World) : eventLogDump w = uartWrite (dumpText w.eventLog) w := by
  rw [eventLogDump_eq, foldl_eventLogDumpEntry]
  simp [eventLogDumpHeader, dumpText]

end Read

section Kinds

-- The entries of one kind since the last reset, oldest first.
def World.entriesOf (kind : EventLogType) (w : World) : List EventLogEntry :=
  w.eventLog.recorded.filter fun entry => decide (entry.type = kind)

theorem eventLogStore_entriesOf (kind type : EventLogType) (argA argB : BitVec 8)
    (data : BitVec 32) (w : World) :
    (eventLogStore type argA argB data w).entriesOf kind =
      w.entriesOf kind ++ if type = kind then
        [⟨type, argA, argB, (xTaskGetTickCount w).setWidth 32, data⟩] else [] := by
  unfold World.entriesOf eventLogStore
  rw [List.filter_append]
  congr 1
  by_cases h : type = kind
  · simp [h]
  · simp [h]

theorem systemStateRequestChange_entriesOf (kind : EventLogType) (state : SystemState)
    (reason : BitVec 32) (w : World) :
    (systemStateRequestChange state reason w).2.entriesOf kind = w.entriesOf kind := by
  unfold systemStateRequestChange
  cases w.xStateRequestQueue <;> rfl

end Kinds

section Record

-- The calls that store an entry. The boot entry is the one that
-- `event_log_init` stores right after its reset.
inductive RecordCall
  | Boot
  | StateChange (from_ to_ : SystemState) (reason : BitVec 32)
  | WatchdogTimeout (missingBits : BitVec 32) (state : SystemState)
  | SeuCorrected (byteIndex : BitVec 32) (bit : BitVec 8)
  | MemProtThreshold (violationCount : BitVec 32)
  | SafePolicy (enteringSafe : Bool)
  | Operator (commandKey : Char)
  | ImageCrcFail (expected computed : BitVec 32)

def RecordCall.run : RecordCall → World → World
  | .Boot => eventLogStore .Boot 0 0 0
  | .StateChange from_ to_ reason => eventLogRecordStateChange from_ to_ reason
  | .WatchdogTimeout missingBits state => eventLogRecordWatchdogTimeout missingBits state
  | .SeuCorrected byteIndex bit => eventLogRecordSeuCorrected byteIndex bit
  | .MemProtThreshold violationCount => eventLogRecordMemProtThreshold violationCount
  | .SafePolicy enteringSafe => eventLogRecordSafePolicy enteringSafe
  | .Operator commandKey => eventLogRecordOperator commandKey
  | .ImageCrcFail expected computed => eventLogRecordImageCrcFail expected computed

-- The entry that the call stores when the tick count reads `ticks`.
def RecordCall.entry (ticks : BitVec 64) : RecordCall → EventLogEntry
  | .Boot => ⟨.Boot, 0, 0, ticks.setWidth 32, 0⟩
  | .StateChange from_ to_ reason =>
      ⟨.StateChange, stateByte from_, stateByte to_, ticks.setWidth 32, reason⟩
  | .WatchdogTimeout missingBits state =>
      ⟨.WatchdogTimeout, stateByte state, 0, ticks.setWidth 32, missingBits⟩
  | .SeuCorrected byteIndex bit =>
      ⟨.SeuCorrected, byteIndex.setWidth 8, bit, ticks.setWidth 32, 0⟩
  | .MemProtThreshold violationCount =>
      ⟨.MemProtThreshold, 0, 0, ticks.setWidth 32, violationCount⟩
  | .SafePolicy enteringSafe =>
      ⟨.SafePolicy, if enteringSafe then 1 else 0, 0, ticks.setWidth 32, 0⟩
  | .Operator commandKey =>
      ⟨.Operator, BitVec.ofNat 8 commandKey.toNat, 0, ticks.setWidth 32, 0⟩
  | .ImageCrcFail expected computed => ⟨.ImageCrcFail, 0, 0, computed, expected⟩

-- Both writers are the ring's `store` of the entry they build.
theorem RecordCall.run_toRingBuffer (call : RecordCall) (w : World) :
    (call.run w).eventLog.toRingBuffer =
      w.eventLog.toRingBuffer.store (call.entry (xTaskGetTickCount w)) := by
  cases call <;> rfl

theorem RecordCall.run_recorded (call : RecordCall) (w : World) :
    (call.run w).eventLog.recorded =
      w.eventLog.recorded ++ [call.entry (xTaskGetTickCount w)] := by
  cases call <;> rfl

-- A call made when the kernel has counted `ticks` ticks.
def RecordCall.runAt (ticks : Nat) (call : RecordCall) (w : World) : World :=
  call.run { w with xTickCount := ticks }

def recordAll (calls : List (Nat × RecordCall)) (w : World) : World :=
  calls.foldl (fun w call => call.2.runAt call.1 w) w

def storedEntries (calls : List (Nat × RecordCall)) : List EventLogEntry :=
  calls.map fun call => call.2.entry (BitVec.ofNat 64 call.1)

-- The ring holds the last entries of its history.
def EventLog.Sound (log : EventLog) : Prop :=
  log.toRingBuffer.Holds log.recorded

theorem eventLogReset_sound (w : World) : (eventLogReset w).eventLog.Sound :=
  RingBuffer.holds_nil _ rfl rfl

theorem RecordCall.run_sound (call : RecordCall) (w : World) (h : w.eventLog.Sound) :
    (call.run w).eventLog.Sound := by
  unfold EventLog.Sound
  rw [call.run_toRingBuffer, call.run_recorded]
  exact RingBuffer.holds_store h _

theorem recordAll_sound (calls : List (Nat × RecordCall)) (w : World) (h : w.eventLog.Sound) :
    (recordAll calls w).eventLog.Sound := by
  induction calls generalizing w with
  | nil => exact h
  | cons call rest ih => exact ih _ (call.2.run_sound _ h)

theorem RecordCall.runAt_recorded (ticks : Nat) (call : RecordCall) (w : World) :
    (call.runAt ticks w).eventLog.recorded =
      w.eventLog.recorded ++ [call.entry (BitVec.ofNat 64 ticks)] :=
  call.run_recorded _

theorem recordAll_recorded (calls : List (Nat × RecordCall)) (w : World) :
    (recordAll calls w).eventLog.recorded = w.eventLog.recorded ++ storedEntries calls := by
  induction calls generalizing w with
  | nil => simp [recordAll, storedEntries]
  | cons call rest ih =>
      have hr := ih (call.2.runAt call.1 w)
      rw [RecordCall.runAt_recorded] at hr
      simpa [recordAll, storedEntries] using hr

theorem recordAll_reset_holds (calls : List (Nat × RecordCall)) (w : World) :
    (recordAll calls (eventLogReset w)).eventLog.toRingBuffer.Holds (storedEntries calls) := by
  have hs := recordAll_sound calls _ (eventLogReset_sound w)
  have hr := recordAll_recorded calls (eventLogReset w)
  have hz : (eventLogReset w).eventLog.recorded = [] := rfl
  rw [hz, List.nil_append] at hr
  rwa [EventLog.Sound, hr] at hs

-- After any calls since a reset the log is the last `EVENT_LOG_CAPACITY`
-- entries stored: by count, entry by entry, and as the dump prints it.
theorem event_log_keeps_last_entries (calls : List (Nat × RecordCall)) (w : World) :
    let log := recordAll calls (eventLogReset w)
    let stored := storedEntries calls
    let count := min stored.length EVENT_LOG_CAPACITY
    (eventLogCount log).toNat = count ∧
    (∀ (index : BitVec 16) (output : EventLogEntry), index.toNat < count →
      ∃ entry, stored[stored.length - count + index.toNat]? = some entry ∧
        eventLogGetEntryChronological index (some output) log = (true, some entry)) ∧
    (∀ (index : BitVec 16) (output : EventLogEntry), count ≤ index.toNat →
      eventLogGetEntryChronological index (some output) log = (false, some output)) ∧
    eventLogDump log =
      uartWrite ((stored.drop (stored.length - count)).flatMap entryText) (eventLogDumpHeader log) := by
  have hholds := recordAll_reset_holds calls w
  have hcount := hholds.count_eq
  have hcap : EVENT_LOG_CAPACITY = 48 := rfl
  refine ⟨?_, ?_, ?_, ?_⟩
  · rw [eventLogCount, hcount, BitVec.toNat_ofNat]
    exact Nat.mod_eq_of_lt (by omega)
  · intro index output hi
    rw [← hcount] at hi ⊢
    exact ⟨_, RingBuffer.nth_eq hholds _ hi, eventLogGetEntryChronological_of_lt _ output hi⟩
  · intro index output hi
    rw [← hcount] at hi
    exact eventLogGetEntryChronological_of_le _ hi
  · rw [eventLogDump_eq, RingBuffer.map_nth_eq_drop hholds, foldl_eventLogDumpEntry, ← hcount]

end Record

end SpaceBaremetal

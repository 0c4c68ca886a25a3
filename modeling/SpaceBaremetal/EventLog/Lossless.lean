import SpaceBaremetal.EventLog.Theorems
import SpaceBaremetal.MemoryProtection.Theorems
import SpaceBaremetal.MemoryScrub.Theorems
import SpaceBaremetal.StateMachine.Theorems
import SpaceBaremetal.Uart.Theorems

namespace SpaceBaremetal

section Decode

-- The arguments that the callers of the recorder pass: a C `char` as the key,
-- and an upset within the scrub area.
def RecordCall.InRange : RecordCall → Prop
  | .SeuCorrected byteIndex bit => byteIndex.toNat < SCRUB_SIZE ∧ bit.toNat < 8
  | .Operator commandKey => commandKey.toNat < 256
  | _ => True

theorem nextSlot_lt (w : World) : w.eventLog.head < EVENT_LOG_CAPACITY := w.eventLog.head_lt

-- The entry that a call leaves in the slot it writes to.
def RecordCall.stored (call : RecordCall) (w : World) : EventLogEntry :=
  (call.run w).eventLog.slots.get ⟨w.eventLog.head, nextSlot_lt w⟩

-- Equal in everything but the time stamp. Where an image CRC failed, the
-- `tick` field is the computed CRC and not a time stamp.
structure SamePayload (entry other : EventLogEntry) : Prop where
  type_eq : entry.type = other.type
  argA_eq : entry.argA = other.argA
  argB_eq : entry.argB = other.argB
  data_eq : entry.data = other.data
  crc_eq : entry.type = .ImageCrcFail → entry.tick = other.tick

def decodeState (byte : BitVec 8) : SystemState :=
  if byte = stateByte .Boot then .Boot
  else if byte = stateByte .Nominal then .Nominal
  else if byte = stateByte .Degraded then .Degraded
  else .Safe

-- The event as it can be read back from its entry.
def EventLogEntry.decode (entry : EventLogEntry) : RecordCall :=
  match entry.type with
  | .Boot => .Boot
  | .StateChange => .StateChange (decodeState entry.argA) (decodeState entry.argB) entry.data
  | .WatchdogTimeout => .WatchdogTimeout entry.data (decodeState entry.argA)
  | .SeuCorrected => .SeuCorrected (entry.argA.setWidth 32) entry.argB
  | .MemProtThreshold => .MemProtThreshold entry.data
  | .SafePolicy => .SafePolicy (entry.argA != 0)
  | .Operator => .Operator (Char.ofNat entry.argA.toNat)
  | .ImageCrcFail => .ImageCrcFail entry.data entry.tick

-- What is left of an event: of a byte index, the low eight bits.
def RecordCall.truncated : RecordCall → RecordCall
  | .SeuCorrected byteIndex bit => .SeuCorrected ((byteIndex.setWidth 8).setWidth 32) bit
  | call => call

theorem RecordCall.stored_eq (call : RecordCall) (w : World) :
    call.stored w = call.entry (xTaskGetTickCount w) := by
  unfold RecordCall.stored
  rw [call.run_toRingBuffer]
  exact Vector.getElem_set_self _

theorem decodeState_stateByte (state : SystemState) : decodeState (stateByte state) = state := by
  cases state <;> rfl

theorem decode_entry (call : RecordCall) (ticks : BitVec 64) (hrange : call.InRange) :
    (call.entry ticks).decode = call.truncated := by
  cases call with
  | Boot => rfl
  | StateChange from_ to_ reason =>
    simp [RecordCall.entry, EventLogEntry.decode, decodeState_stateByte, RecordCall.truncated]
  | WatchdogTimeout missingBits state =>
    simp [RecordCall.entry, EventLogEntry.decode, decodeState_stateByte, RecordCall.truncated]
  | SeuCorrected byteIndex bit => rfl
  | MemProtThreshold violationCount => rfl
  | SafePolicy enteringSafe => cases enteringSafe <;> rfl
  | Operator commandKey =>
    have hkey : commandKey.toNat % 256 = commandKey.toNat := Nat.mod_eq_of_lt hrange
    simp [RecordCall.entry, EventLogEntry.decode, RecordCall.truncated, hkey, Char.ofNat_toNat]
  | ImageCrcFail expected computed => rfl

theorem decode_eq_of_samePayload {entry other : EventLogEntry} (h : SamePayload entry other) :
    entry.decode = other.decode := by
  unfold EventLogEntry.decode
  rw [← h.type_eq, ← h.argA_eq, ← h.argB_eq, ← h.data_eq]
  cases htype : entry.type with
  | ImageCrcFail => rw [h.crc_eq htype]
  | _ => rfl

theorem truncate_index (index : BitVec 32) :
    (index.setWidth 8).setWidth 32 = index ↔ index.toNat < 256 := by
  rw [← BitVec.toNat_inj]
  simp only [BitVec.toNat_setWidth]
  omega

theorem truncated_eq {call : RecordCall}
    (hsmall : ∀ index bit, call = .SeuCorrected index bit → index.toNat < 256) :
    call.truncated = call := by
  cases call with
  | SeuCorrected index bit =>
    rw [RecordCall.truncated, (truncate_index index).mpr (hsmall index bit rfl)]
  | _ => rfl

end Decode

section Repair

variable {layout : Layout}

theorem systemStateRequestChange_eventLog (state : SystemState) (reason : BitVec 32) (w : World) :
    (systemStateRequestChange state reason w).2.eventLog = w.eventLog := by
  unfold systemStateRequestChange
  cases w.xStateRequestQueue <;> rfl

theorem memoryScrubRecordSeu_eventLog (w : World) :
    (memoryScrubRecordSeu w).eventLog = w.eventLog := by
  unfold memoryScrubRecordSeu
  dsimp only
  split_ifs
  · rfl
  · change (systemStateRequestChange _ _ _).2.eventLog = _
    rw [systemStateRequestChange_eventLog]
  · rfl

-- A violation may reach the recorder, but only through its interface.
theorem recordViolation_sound (w : World) (h : w.eventLog.Sound) :
    (recordViolation w).eventLog.Sound := by
  unfold recordViolation
  dsimp only
  split_ifs
  · rw [systemStateRequestChange_eventLog]
    exact (RecordCall.MemProtThreshold _).run_sound _ h
  · rw [systemStateRequestChange_eventLog]
    exact h
  · exact (RecordCall.MemProtThreshold _).run_sound _ h
  · exact h

theorem memoryProtectionCheckAccess_sound (address size : BitVec 64) (access : BitVec 32)
    (w : World) (h : w.eventLog.Sound) :
    (memoryProtectionCheckAccess address size access w).2.eventLog.Sound := by
  by_cases hnone : access = MEM_PERM_NONE
  · rwa [memoryProtectionCheckAccess, if_pos hnone]
  · obtain ⟨hpass, -⟩ | ⟨region, -, -, hdenied⟩ :=
      memoryProtectionCheckAccess_cases address size w hnone
    · rwa [hpass]
    · rw [hdenied]
      unfold reportViolation
      exact recordViolation_sound _ (by simpa using h)

theorem scrubRead_sound (idx : Nat) (w : World) (h : w.eventLog.Sound) :
    (scrubRead layout idx w).2.eventLog.Sound := by
  unfold scrubRead
  dsimp only
  split_ifs <;> exact memoryProtectionCheckAccess_sound _ _ _ _ h

theorem scrubWrite_sound (idx : Nat) (value : BitVec 8) (w : World) (h : w.eventLog.Sound) :
    (scrubWrite layout idx value w).2.eventLog.Sound := by
  unfold scrubWrite
  dsimp only
  split_ifs <;> exact memoryProtectionCheckAccess_sound _ _ _ _ h

-- What a repair leaves in the recorder is its own entry, on top of a log that
-- is as sound as before.
theorem memoryScrubFixEvent_recorded (event : FaultEvent) (w : World) (h : w.eventLog.Sound)
    (hfixed : (memoryScrubFixEvent layout (some event) w).1 = true) :
    ∃ before : World, before.eventLog.Sound ∧
      (memoryScrubFixEvent layout (some event) w).2.eventLog =
        ((RecordCall.SeuCorrected event.index event.bit).run before).eventLog := by
  unfold memoryScrubFixEvent at hfixed ⊢
  simp only [uartPuts_eq, uartPutHex_eq, uartWrite_uartWrite] at hfixed ⊢
  split_ifs at hfixed ⊢
  refine ⟨_, ?_, memoryScrubRecordSeu_eventLog _⟩
  rw [uartWrite_eventLog]
  exact scrubWrite_sound _ _ _ (scrubRead_sound _ _ h)

theorem dump_ends_with_newest (call : RecordCall) (before w : World) (h : before.eventLog.Sound)
    (hlog : w.eventLog = (call.run before).eventLog) :
    entryText (call.entry (xTaskGetTickCount before)) <:+ (eventLogDump w).uart := by
  have hsound : w.eventLog.Sound := by
    rw [hlog]
    exact call.run_sound before h
  have hrecorded : w.eventLog.recorded =
      before.eventLog.recorded ++ [call.entry (xTaskGetTickCount before)] := by
    rw [hlog]
    exact call.run_recorded before
  have hcount := hsound.count_eq
  have hcap : EVENT_LOG_CAPACITY = 48 := rfl
  unfold EventLog.Sound at hsound
  rw [hrecorded] at hsound hcount
  rw [List.length_append, List.length_singleton] at hcount
  rw [eventLogDump_eq_uartWrite, uartWrite_uart, dumpText, RingBuffer.map_nth_eq_drop hsound,
    List.length_append, List.length_singleton, List.drop_append_of_le_length (by omega),
    List.flatMap_append, List.flatMap_singleton, ← List.append_assoc, ← List.append_assoc]
  exact List.suffix_append _ _

end Repair

section Lossless

variable {layout : Layout}

-- What the dump prints of a corrected upset, after its time stamp.
def seuText (index : BitVec 32) (bit : BitVec 8) : List String :=
  ["SEU byte=", decText index, " bit=", decText (bit.setWidth 32), "\r\n"]

structure LosslessRecorder (events : List RecordCall) : Prop where
  determines : ∀ event ∈ events, ∀ other ∈ events, ∀ w w' : World,
    SamePayload (event.stored w) (other.stored w') → event = other
  prints : ∀ index bit, RecordCall.SeuCorrected index bit ∈ events →
    ∀ (layout : Layout) (w : World), w.eventLog.Sound →
      (memoryScrubFixEvent layout (some ⟨index, bit⟩) w).1 = true →
      seuText index bit <:+ (eventLogDump (memoryScrubFixEvent layout (some ⟨index, bit⟩) w).2).uart

theorem repair_dump (layout : Layout) (index : BitVec 32) (bit : BitVec 8) (w : World)
    (h : w.eventLog.Sound) (hfixed : (memoryScrubFixEvent layout (some ⟨index, bit⟩) w).1 = true) :
    seuText ((index.setWidth 8).setWidth 32) bit <:+
      (eventLogDump (memoryScrubFixEvent layout (some ⟨index, bit⟩) w).2).uart := by
  obtain ⟨before, hsound, hlog⟩ := memoryScrubFixEvent_recorded ⟨index, bit⟩ w h hfixed
  have hline := dump_ends_with_newest (.SeuCorrected index bit) before _ hsound hlog
  exact List.IsSuffix.trans
    ⟨(entryText (RecordCall.entry (xTaskGetTickCount before) (.SeuCorrected index bit))).take 3, rfl⟩
    hline

theorem memoryScrubFixEvent_of_wrong (event : FaultEvent) (w : World) (hvalid : event.Valid)
    (hopen : AreaOpen layout w.scrub.regions) (hwrong : wrongBits w.scrubArea event = true) :
    (memoryScrubFixEvent layout (some event) w).1 = true := by
  have hindex := hvalid.1
  have hbit := hvalid.2
  have hmasked : ¬w.scrubArea event.index.toNat &&& (1#8 <<< event.bit.toNat) =
      goldenCopy event.index.toNat &&& (1#8 <<< event.bit.toNat) := by
    rw [masked_eq_iff _ _ _ hbit]
    simpa [wrongBits] using hwrong
  unfold memoryScrubFixEvent
  dsimp only
  rw [if_neg (by omega), scrubRead_eq w hopen _ hindex, if_neg hmasked,
    scrubWrite_eq w hopen _ hindex]
  rfl

-- Every upset in the area can be met: flip the bit in a golden area that
-- nothing protects.
theorem memoryScrubFixEvent_repairs (layout : Layout) (event : FaultEvent) (hvalid : event.Valid) :
    ∃ w : World, w.eventLog.Sound ∧ (memoryScrubFixEvent layout (some event) w).1 = true := by
  refine ⟨{ startupWorld with scrubArea := flipBit goldenCopy event.index.toNat event.bit.toNat },
    RingBuffer.holds_nil _ rfl rfl, ?_⟩
  apply memoryScrubFixEvent_of_wrong _ _ hvalid
  · intro region hregion
    cases hregion
  · change wrongBits (flipBit goldenCopy event.index.toNat event.bit.toNat) event = true
    rw [wrongBits_flipBit _ _ _ hvalid, Marks.toggle_apply]
    simp [wrongBits]

theorem recorder_lossless_iff (events : List RecordCall)
    (hrange : ∀ event ∈ events, event.InRange) :
    LosslessRecorder events ↔
      ∀ index bit, RecordCall.SeuCorrected index bit ∈ events → index.toNat < 256 := by
  constructor
  · intro hlossless index bit hevent
    obtain ⟨w, hsound, hfixed⟩ := memoryScrubFixEvent_repairs startupLayout ⟨index, bit⟩
      (hrange _ hevent)
    have hclaimed := hlossless.prints index bit hevent startupLayout w hsound hfixed
    have hprinted := repair_dump startupLayout index bit w hsound hfixed
    have hsuffix := List.suffix_of_suffix_length_le hclaimed hprinted (Nat.le_refl _)
    have hsame := hsuffix.eq_of_length rfl
    have hindex := (List.cons.inj (List.cons.inj hsame).2).1
    exact (truncate_index index).mp (decText_injective hindex).symm
  · intro hsmall
    have htruncated : ∀ event ∈ events, event.truncated = event := by
      intro event hevent
      apply truncated_eq
      rintro index bit rfl
      exact hsmall index bit hevent
    refine ⟨?_, ?_⟩
    · intro event hevent other hother w w' hsame
      rw [RecordCall.stored_eq, RecordCall.stored_eq] at hsame
      have hdecode := decode_eq_of_samePayload hsame
      rwa [decode_entry event _ (hrange event hevent), decode_entry other _ (hrange other hother),
        htruncated event hevent, htruncated other hother] at hdecode
    · intro index bit hevent layout w hsound hfixed
      have hprinted := repair_dump layout index bit w hsound hfixed
      rwa [(truncate_index index).mpr (hsmall index bit hevent)] at hprinted

theorem recorder_lossless_iff_operator :
    LosslessRecorder [.Operator 'a', .SeuCorrected 255 7] ↔
      ∀ index bit, RecordCall.SeuCorrected index bit ∈ [.Operator 'a', .SeuCorrected 255 7] →
        index.toNat < 256 := by
  apply recorder_lossless_iff
  intro event hevent
  simp only [List.mem_cons, List.not_mem_nil, or_false] at hevent
  obtain rfl | rfl := hevent
  · exact (by decide : 'a'.toNat < 256)
  · exact ⟨by decide, by decide⟩

-- The upsets of bytes 1 and 257 leave the same entry.
theorem upset_bytes_share_entry :
    (∀ event ∈ [RecordCall.SeuCorrected 1 0, .SeuCorrected 257 0], event.InRange) ∧
      ¬LosslessRecorder [.SeuCorrected 1 0, .SeuCorrected 257 0] := by
  refine ⟨?_, ?_⟩
  · intro event hevent
    simp only [List.mem_cons, List.not_mem_nil, or_false] at hevent
    obtain rfl | rfl := hevent
    · exact ⟨by decide, by decide⟩
    · exact ⟨by decide, by decide⟩
  · intro hlossless
    have hsame := hlossless.determines (.SeuCorrected 1 0) (by simp) (.SeuCorrected 257 0) (by simp)
      startupWorld startupWorld ⟨rfl, rfl, rfl, rfl, fun h => by cases h⟩
    simp at hsame

end Lossless

end SpaceBaremetal

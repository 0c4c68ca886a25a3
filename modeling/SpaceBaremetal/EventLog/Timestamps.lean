import SpaceBaremetal.EventLog.Theorems

namespace SpaceBaremetal

-- The calls whose entries are still in the log.
def retainedCalls (calls : List (Nat × RecordCall)) : List (Nat × RecordCall) :=
  calls.drop (calls.length - EVENT_LOG_CAPACITY)

-- What `event_log_get_entry_chronological` hands out at `index`.
def World.Returns (w : World) (index : BitVec 16) (entry : EventLogEntry) : Prop :=
  ∃ output, eventLogGetEntryChronological index (some output) w = (true, some entry)

-- The time stamps are in the order of the entries, and each is the tick count
-- at the call that recorded its entry.
structure StampsFollowEvents (calls : List (Nat × RecordCall)) (w : World) : Prop where
  ordered : ∀ (i j : BitVec 16) (earlier later : EventLogEntry), i ≤ j →
    w.Returns i earlier → w.Returns j later → earlier.tick ≤ later.tick
  recorded : ∀ (index : BitVec 16) (entry : EventLogEntry), w.Returns index entry →
    ∃ call, (retainedCalls calls)[index.toNat]? = some call ∧ entry.tick.toNat = call.1

-- The call passes what the tick counter reads as the computed CRC, if it passes
-- one at all.
def RecordCall.Stamped (ticks : Nat) (call : RecordCall) : Prop :=
  ∀ expected computed, call = .ImageCrcFail expected computed → computed = BitVec.ofNat 32 ticks

section Stamp

variable {calls : List (Nat × RecordCall)} {ticks : Nat} {call : RecordCall} {w : World}

-- Every writer but one stores the tick count.
theorem RecordCall.stamped_iff :
    call.Stamped ticks ↔ (call.entry (BitVec.ofNat 64 ticks)).tick = BitVec.ofNat 32 ticks := by
  have hticks : (BitVec.ofNat 64 ticks).setWidth 32 = BitVec.ofNat 32 ticks :=
    BitVec.setWidth_ofNat_of_le (by decide) ticks
  unfold Stamped
  cases call with
  | ImageCrcFail expected computed =>
    refine ⟨fun h => h expected computed rfl, ?_⟩
    intro h expected' computed' heq
    obtain ⟨-, rfl⟩ := RecordCall.ImageCrcFail.inj heq
    exact h
  | _ => exact ⟨fun _ => hticks, fun _ expected computed heq => nomatch heq⟩

theorem RecordCall.stamped_iff_toNat (hbound : ticks < 2 ^ 32) :
    call.Stamped ticks ↔ (call.entry (BitVec.ofNat 64 ticks)).tick.toNat = ticks := by
  rw [stamped_iff, ← BitVec.toNat_inj, BitVec.toNat_ofNat, Nat.mod_eq_of_lt hbound]

-- The log hands out the entries of the retained calls, in their order.
theorem recordAll_returns (index : BitVec 16) (entry : EventLogEntry) :
    (recordAll calls (eventLogReset w)).Returns index entry ↔
      ∃ call, (retainedCalls calls)[index.toNat]? = some call ∧
        entry = call.2.entry (BitVec.ofNat 64 call.1) := by
  have hholds := recordAll_reset_holds calls w
  have hcount := hholds.count_eq
  have hlength : (storedEntries calls).length = calls.length := List.length_map _
  have hread : (retainedCalls calls)[index.toNat]? =
      calls[calls.length - EVENT_LOG_CAPACITY + index.toNat]? := List.getElem?_drop
  rw [hlength] at hcount
  rw [hread]
  by_cases hindex : index.toNat < (recordAll calls (eventLogReset w)).eventLog.count
  · have hnth := RingBuffer.nth_eq hholds index.toNat hindex
    have hposition : calls.length - (recordAll calls (eventLogReset w)).eventLog.count =
        calls.length - EVENT_LOG_CAPACITY := by omega
    rw [hlength, hposition, storedEntries, List.getElem?_map, Option.map_eq_some_iff] at hnth
    obtain ⟨call, hcall, hentry⟩ := hnth
    unfold World.Returns
    simp only [eventLogGetEntryChronological_of_lt index _ hindex, ← hentry]
    constructor
    · intro hreturned
      obtain ⟨output, hreturned⟩ := hreturned
      obtain ⟨-, hsome⟩ := Prod.mk.inj hreturned
      exact ⟨call, hcall, (Option.some.inj hsome).symm⟩
    · intro hretained
      obtain ⟨call', hcall', hentry'⟩ := hretained
      rw [hcall, Option.some.injEq] at hcall'
      rw [hentry', hcall']
      exact ⟨entry, rfl⟩
  · have hpast : calls.length ≤ calls.length - EVENT_LOG_CAPACITY + index.toNat := by omega
    rw [List.getElem?_eq_none hpast]
    unfold World.Returns
    simp [eventLogGetEntryChronological_of_le _ (Nat.not_lt.mp hindex)]

end Stamp

section Log

variable {calls : List (Nat × RecordCall)} {w : World}

theorem retainedCalls_length_le (calls : List (Nat × RecordCall)) :
    (retainedCalls calls).length ≤ EVENT_LOG_CAPACITY := by
  unfold retainedCalls
  rw [List.length_drop]
  omega

theorem retainedCalls_lt (hbound : ∀ call ∈ calls, call.1 < 2 ^ 32) :
    ∀ call ∈ retainedCalls calls, call.1 < 2 ^ 32 :=
  fun call hcall => hbound call (List.mem_of_mem_drop hcall)

theorem stamped_of_stampsFollowEvents (hbound : ∀ call ∈ calls, call.1 < 2 ^ 32)
    (h : StampsFollowEvents calls (recordAll calls (eventLogReset w))) :
    ∀ call ∈ retainedCalls calls, call.2.Stamped call.1 := by
  intro call hcall
  obtain ⟨k, hk, hkcall⟩ := List.mem_iff_getElem.mp hcall
  have hlength := retainedCalls_length_le calls
  have hindex : (BitVec.ofNat 16 k).toNat = k := by
    rw [BitVec.toNat_ofNat]
    unfold EVENT_LOG_CAPACITY at hlength
    omega
  have hread : (retainedCalls calls)[(BitVec.ofNat 16 k).toNat]? = some call := by
    rw [hindex, List.getElem?_eq_getElem hk, hkcall]
  obtain ⟨call', hcall', htick⟩ := h.recorded (BitVec.ofNat 16 k) _
    ((recordAll_returns _ _).mpr ⟨call, hread, rfl⟩)
  rw [hread] at hcall'
  obtain rfl := Option.some.inj hcall'
  exact (RecordCall.stamped_iff_toNat (retainedCalls_lt hbound call hcall)).mpr htick

-- With the right stamps the order of the entries is that of the calls.
theorem stampsFollowEvents_of_stamped
    (hclock : calls.Pairwise fun earlier later => earlier.1 ≤ later.1)
    (hbound : ∀ call ∈ calls, call.1 < 2 ^ 32)
    (h : ∀ call ∈ retainedCalls calls, call.2.Stamped call.1) :
    StampsFollowEvents calls (recordAll calls (eventLogReset w)) := by
  have htick : ∀ call ∈ retainedCalls calls,
      (call.2.entry (BitVec.ofNat 64 call.1)).tick.toNat = call.1 := fun call hcall =>
    (RecordCall.stamped_iff_toNat (retainedCalls_lt hbound call hcall)).mp (h call hcall)
  refine ⟨?_, ?_⟩
  · intro i j earlier later hij hearlier hlater
    obtain ⟨call, hcall, rfl⟩ := (recordAll_returns i earlier).mp hearlier
    obtain ⟨call', hcall', rfl⟩ := (recordAll_returns j later).mp hlater
    rw [BitVec.le_def, htick call (List.mem_of_getElem? hcall),
      htick call' (List.mem_of_getElem? hcall')]
    rcases Nat.lt_or_eq_of_le (BitVec.le_def.mp hij) with hlt | heq
    · obtain ⟨hi, hicall⟩ := List.getElem?_eq_some_iff.mp hcall
      obtain ⟨hj, hjcall⟩ := List.getElem?_eq_some_iff.mp hcall'
      rw [← hicall, ← hjcall]
      exact List.pairwise_iff_getElem.mp hclock.drop i.toNat j.toNat hi hj hlt
    · rw [heq, hcall', Option.some.injEq] at hcall
      rw [hcall]
  · intro index entry hentry
    obtain ⟨call, hcall, rfl⟩ := (recordAll_returns index entry).mp hentry
    exact ⟨call, hcall, htick call (List.mem_of_getElem? hcall)⟩

end Log

-- The stamps of the log are right exactly when each failed image check that is
-- still in it happens to have computed the tick count of its moment.
theorem stamps_follow_events_iff (calls : List (Nat × RecordCall)) (w : World)
    (hclock : calls.Pairwise fun earlier later => earlier.1 ≤ later.1)
    (hbound : ∀ call ∈ calls, call.1 < 2 ^ 32) :
    StampsFollowEvents calls (recordAll calls (eventLogReset w)) ↔
      ∀ call ∈ retainedCalls calls, call.2.Stamped call.1 :=
  ⟨stamped_of_stampsFollowEvents hbound, stampsFollowEvents_of_stamped hclock hbound⟩

-- A boot and a change of state ten ticks later.
theorem stamps_follow_events_iff_two :
    StampsFollowEvents [(0, .Boot), (10, .StateChange .Boot .Nominal 0)]
      (recordAll [(0, .Boot), (10, .StateChange .Boot .Nominal 0)] (eventLogReset startupWorld)) := by
  rw [stamps_follow_events_iff _ startupWorld (by simp) (by simp)]
  intro call hcall expected computed heq
  cases List.mem_cons.mp hcall with
  | inl hboot =>
    rw [hboot] at heq
    exact nomatch heq
  | inr hchange =>
    rw [List.mem_singleton.mp hchange] at heq
    exact nomatch heq

-- The image check fails at tick 0, right after the boot: its entry gives the
-- computed CRC as its time, and the entry of the next change of state an earlier
-- one.
theorem image_crc_fail_breaks_stamps :
    let calls : List (Nat × RecordCall) :=
      [(0, .Boot), (0, .ImageCrcFail 0x12345678 0xDEADBEEF), (10, .StateChange .Boot .Nominal 0)]
    (calls.Pairwise fun earlier later => earlier.1 ≤ later.1) ∧
      (∀ call ∈ calls, call.1 < 2 ^ 32) ∧
      (recordAll calls (eventLogReset startupWorld)).Returns 1
        ⟨.ImageCrcFail, 0, 0, 0xDEADBEEF, 0x12345678⟩ ∧
      (recordAll calls (eventLogReset startupWorld)).Returns 2 ⟨.StateChange, 0, 1, 10, 0⟩ ∧
      ¬ StampsFollowEvents calls (recordAll calls (eventLogReset startupWorld)) := by
  intro calls
  have hfail : (recordAll calls (eventLogReset startupWorld)).Returns 1
      ⟨.ImageCrcFail, 0, 0, 0xDEADBEEF, 0x12345678⟩ :=
    (recordAll_returns 1 _).mpr ⟨(0, .ImageCrcFail 0x12345678 0xDEADBEEF), rfl, rfl⟩
  have hchange : (recordAll calls (eventLogReset startupWorld)).Returns 2
      ⟨.StateChange, 0, 1, 10, 0⟩ :=
    (recordAll_returns 2 _).mpr ⟨(10, .StateChange .Boot .Nominal 0), rfl, rfl⟩
  refine ⟨by simp [calls], by simp [calls], hfail, hchange, ?_⟩
  intro h
  have hordered := h.ordered 1 2 _ _ (by decide) hfail hchange
  exact absurd hordered (by decide)

end SpaceBaremetal

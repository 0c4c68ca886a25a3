import Mathlib.Data.List.Induction
import SpaceBaremetal.Control
import SpaceBaremetal.Lib.History

namespace SpaceBaremetal

section Handle

theorem stateMachineAllowsRequest_iff (current : SystemState) (request : StateRequest) :
    stateMachineAllowsRequest current request = true ↔
      current.value ≤ request.requestedState.value ∨
        (request.requestedState = .Nominal ∧ (current = .Degraded ∨ current = .Safe) ∧
          (request.reasonCode = 0x03 ∨ request.reasonCode = 0x10)) := by
  simp only [stateMachineAllowsRequest]
  split_ifs <;> simp_all

-- What handling a request does: nothing, or a transition to the requested
-- state with its log entry and the policy of the new state.
theorem stateMachineHandle_eq (request : StateRequest) (w : World) :
    stateMachineHandle request w =
      if stateMachineAllowsRequest w.gSystemState request = true ∧
          w.gSystemState ≠ request.requestedState then
        { w with gSystemState := request.requestedState }
          |> stateMachineLogTransition request.requestedState
          |> eventLogRecordStateChange w.gSystemState request.requestedState request.reasonCode
          |> stateMachineApplyPolicy w.gSystemState request.requestedState
      else
        w := by
  unfold stateMachineHandle stateMachineApplyRequest
  by_cases ha : stateMachineAllowsRequest w.gSystemState request = true
  · by_cases he : w.gSystemState = request.requestedState
    · simp [he]
    · simp [ha, he]
  · simp [ha]

-- The transition that a request makes in a state, if any.
def applied (state : SystemState) (request : StateRequest) : SystemState :=
  if stateMachineAllowsRequest state request then request.requestedState else state

-- A request moves the state up, or back to NOMINAL from DEGRADED or SAFE.
theorem applied_moves {state : SystemState} {request : StateRequest} (h : state ≠ applied state request) :
    applied state request = request.requestedState ∧
      (state.value < request.requestedState.value ∨
        (request.requestedState = .Nominal ∧ (state = .Degraded ∨ state = .Safe) ∧
          (request.reasonCode = 0x03 ∨ request.reasonCode = 0x10))) := by
  unfold applied at h ⊢
  split_ifs at h ⊢ with hallows
  · refine ⟨rfl, ?_⟩
    rw [stateMachineAllowsRequest_iff] at hallows
    refine hallows.imp_left (fun hle => Nat.lt_of_le_of_ne hle ?_)
    intro hvalue
    apply h
    revert hvalue
    cases state <;> cases request.requestedState <;> simp [SystemState.value]
  · exact absurd rfl h

theorem applied_ne_boot {state : SystemState} (h : state ≠ .Boot) (request : StateRequest) :
    applied state request ≠ .Boot := by
  unfold applied
  split_ifs with hallows
  · rw [stateMachineAllowsRequest_iff] at hallows
    intro hrequested
    rw [hrequested] at hallows
    cases state with
    | Boot => exact h rfl
    | _ => exact absurd hallows (by simp [SystemState.value])
  · exact h

theorem stateMachineHandle_control (request : StateRequest) (w : World) :
    (stateMachineHandle request w).control =
      { w.control with state := applied w.gSystemState request } := by
  rw [stateMachineHandle_eq]
  unfold applied
  by_cases ha : stateMachineAllowsRequest w.gSystemState request = true
  · by_cases he : w.gSystemState = request.requestedState
    · simp [he, World.control]
    · rw [if_pos ⟨ha, he⟩, if_pos ha]
      simp [eventLogRecordStateChange]
      simp [World.control]
  · simp [ha, World.control]

theorem stateMachineHandle_state (request : StateRequest) (w : World) :
    (stateMachineHandle request w).gSystemState = applied w.gSystemState request :=
  congrArg Control.state (stateMachineHandle_control request w)

end Handle

section Recorded

-- The policy entries that go with a transition.
def policyCalls (previous current : SystemState) : List RecordCall :=
  if current = .Degraded ∧ previous ≠ .Degraded then []
  else if current = .Safe ∧ previous ≠ .Safe then [.SafePolicy true]
  else if previous = .Safe ∧ current ≠ .Safe then [.SafePolicy false]
  else []

theorem stateMachineApplyPolicy_recorded (previous current : SystemState) (w : World) :
    (stateMachineApplyPolicy previous current w).eventLog.recorded =
      w.eventLog.recorded ++
        (policyCalls previous current).map (RecordCall.entry (xTaskGetTickCount w)) := by
  unfold stateMachineApplyPolicy policyCalls
  split_ifs
  · simp [safePolicyOnDegradedEnter, faultInjectSetEnabled]
  · rfl
  · rfl
  · simp

theorem stateMachineHandle_recorded (request : StateRequest) (w : World)
    (ha : stateMachineAllowsRequest w.gSystemState request = true)
    (hne : w.gSystemState ≠ request.requestedState) :
    (stateMachineHandle request w).eventLog.recorded =
      w.eventLog.recorded ++
        (RecordCall.StateChange w.gSystemState request.requestedState request.reasonCode ::
          policyCalls w.gSystemState request.requestedState).map
            (RecordCall.entry (xTaskGetTickCount w)) := by
  rw [stateMachineHandle_eq, if_pos ⟨ha, hne⟩, stateMachineApplyPolicy_recorded]
  cases request.requestedState <;>
    simp [stateMachineLogTransition, eventLogRecordStateChange, eventLogStore, RecordCall.entry,
      xTaskGetTickCount]

end Recorded

section Replay

-- A chain of state changes from `start` to `final`, none of which stays put.
def StateTrail : SystemState → List EventLogEntry → SystemState → Prop
  | start, [], final => start = final
  | start, entry :: rest, final =>
      entry.argA = stateByte start ∧
        ∃ next, entry.argB = stateByte next ∧ next ≠ start ∧ StateTrail next rest final

-- Policy entries that alternate; the flag is whether SAFE is in force.
def PolicyTrail : Bool → List EventLogEntry → Bool → Prop
  | inSafe, [], final => inSafe = final
  | inSafe, entry :: rest, final =>
      entry.argA = (if inSafe then 0 else 1) ∧ PolicyTrail (!inSafe) rest final

-- The change into or out of SAFE that a policy entry belongs to is the entry
-- right before it.
def PolicyFollows (pre : List EventLogEntry) (entry : EventLogEntry) : Prop :=
  entry.type = .SafePolicy →
    ∃ before change, pre = before ++ [change] ∧ change.type = .StateChange ∧
      ((entry.argA = 1 ∧ change.argA ≠ stateByte .Safe ∧ change.argB = stateByte .Safe) ∨
        (entry.argA = 0 ∧ change.argA = stateByte .Safe ∧ change.argB ≠ stateByte .Safe))

-- What the state machine's own entries say about the state it is in.
structure Replays (entries : List EventLogEntry) (state : SystemState) : Prop where
  states : StateTrail .Boot (entries.filter (·.type == .StateChange)) state
  policies : PolicyTrail false (entries.filter (·.type == .SafePolicy)) (state == .Safe)
  follows : History.Each PolicyFollows entries

theorem stateByte_injective {state other : SystemState} (h : stateByte state = stateByte other) :
    state = other := by
  cases state <;> cases other <;> simp_all [stateByte, SystemState.value]

theorem stateTrail_append {start current next : SystemState} {entries : List EventLogEntry}
    {entry : EventLogEntry} (h : StateTrail start entries current)
    (ha : entry.argA = stateByte current) (hb : entry.argB = stateByte next)
    (hne : next ≠ current) : StateTrail start (entries ++ [entry]) next := by
  induction entries generalizing start with
  | nil =>
      obtain rfl : start = current := h
      exact ⟨ha, next, hb, hne, rfl⟩
  | cons first rest ih =>
      obtain ⟨hfirst, middle, hmiddle, hmne, hrest⟩ := h
      exact ⟨hfirst, middle, hmiddle, hmne, ih hrest⟩

theorem policyTrail_append {start current : Bool} {entries : List EventLogEntry}
    (entry : EventLogEntry) (h : PolicyTrail start entries current)
    (ha : entry.argA = if current then 0 else 1) :
    PolicyTrail start (entries ++ [entry]) (!current) := by
  induction entries generalizing start with
  | nil =>
      obtain rfl : start = current := h
      exact ⟨ha, rfl⟩
  | cons first rest ih => exact ⟨h.1, ih h.2⟩

theorem replays_stateChange {entries : List EventLogEntry} {state : SystemState} (next : SystemState)
    (h : Replays entries state) (ticks : BitVec 64) (reason : BitVec 32) (hne : state ≠ next)
    (hsafe : (state == .Safe) = (next == .Safe)) :
    Replays (entries ++ [RecordCall.entry ticks (.StateChange state next reason)]) next where
  states := by
    simpa [RecordCall.entry] using stateTrail_append h.states rfl rfl hne.symm
  policies := by
    simpa [RecordCall.entry, ← hsafe] using h.policies
  follows := by
    apply History.each_append h.follows
    intro htype
    simp [RecordCall.entry] at htype

-- A change into or out of SAFE comes with its policy entry.
theorem replays_safeChange {entries : List EventLogEntry} {state : SystemState} (next : SystemState)
    (h : Replays entries state) (ticks : BitVec 64) (reason : BitVec 32)
    (hsafe : (next == .Safe) = !(state == .Safe)) :
    Replays (entries ++ [RecordCall.entry ticks (.StateChange state next reason),
      RecordCall.entry ticks (.SafePolicy (next == .Safe))]) next where
  states := by
    have hne : next ≠ state := by
      rintro rfl
      simp at hsafe
    simpa [RecordCall.entry] using stateTrail_append h.states rfl rfl hne
  policies := by
    have hp := policyTrail_append (RecordCall.entry ticks (.SafePolicy (next == .Safe))) h.policies
      (by simp only [RecordCall.entry, hsafe]; cases state == .Safe <;> rfl)
    rw [← hsafe] at hp
    simpa [RecordCall.entry] using hp
  follows := by
    rw [List.append_cons]
    apply History.each_append
    · apply History.each_append h.follows
      intro htype
      simp [RecordCall.entry] at htype
    · intro _
      refine ⟨entries, _, rfl, rfl, ?_⟩
      by_cases hs : state = .Safe
      · have hn : next ≠ .Safe := by simpa [hs] using hsafe
        right
        refine ⟨by simp [RecordCall.entry, hn], by simp [RecordCall.entry, hs], ?_⟩
        exact fun hb => hn (stateByte_injective hb)
      · have hb : (state == .Safe) = false := by simp [hs]
        have hn : next = .Safe := by simpa [hb] using hsafe
        left
        refine ⟨by simp [RecordCall.entry, hn], ?_, by simp [RecordCall.entry, hn]⟩
        exact fun ha => hs (stateByte_injective ha)

-- SAFE can only be left for NOMINAL. Leaving it for DEGRADED would run the
-- DEGRADED policy in place of the exit policy and break the alternation.
theorem replays_transition {entries : List EventLogEntry} {state : SystemState}
    (h : Replays entries state) (request : StateRequest) (ticks : BitVec 64)
    (ha : stateMachineAllowsRequest state request = true)
    (hne : state ≠ request.requestedState) :
    Replays (entries ++
      (RecordCall.StateChange state request.requestedState request.reasonCode ::
        policyCalls state request.requestedState).map (RecordCall.entry ticks))
      request.requestedState := by
  have hexit : state = .Safe → request.requestedState = .Nominal := by
    rintro rfl
    rcases (stateMachineAllowsRequest_iff _ _).mp ha with hle | hn
    · cases hr : request.requestedState <;> simp_all [SystemState.value]
    · exact hn.1
  by_cases hnext : request.requestedState = .Safe
  · have hs := replays_safeChange .Safe h ticks request.reasonCode
      (by simp [hnext ▸ hne])
    simpa [policyCalls, hnext, hnext ▸ hne] using hs
  · by_cases hstate : state = .Safe
    · have hs := replays_safeChange .Nominal h ticks request.reasonCode (by simp [hstate])
      have hb : (SystemState.Nominal == .Safe) = false := rfl
      simpa [policyCalls, hstate, hexit hstate, hb] using hs
    · have hs := replays_stateChange _ h ticks request.reasonCode hne (by simp [hnext, hstate])
      simpa [policyCalls, hnext, hstate] using hs

end Replay

section Run

def RecordCall.byStateMachine : RecordCall → Bool
  | .StateChange .. => true
  | .SafePolicy .. => true
  | _ => false

-- What the state machine task meets in its loop: a request it receives, or an
-- entry that another task records meanwhile.
inductive MachineInput
  | Request (request : StateRequest)
  | Record (ticks : Nat) (call : RecordCall) (hother : call.byStateMachine = false)

def MachineInput.run : MachineInput → World → World
  | .Request request, w => stateMachineHandle request w
  | .Record ticks call _, w => call.runAt ticks w

def stateMachineRun (inputs : List MachineInput) (w : World) : World :=
  inputs.foldl (fun w input => input.run w) (stateMachineBoot true w)

def EventLogEntry.byStateMachine (entry : EventLogEntry) : Bool :=
  entry.type == .StateChange || entry.type == .SafePolicy

-- The state machine's own entries among all that were recorded.
def machineEntries (w : World) : List EventLogEntry :=
  w.eventLog.recorded.filter EventLogEntry.byStateMachine

theorem RecordCall.entry_byStateMachine (ticks : BitVec 64) (call : RecordCall) :
    (call.entry ticks).byStateMachine = call.byStateMachine := by
  cases call <;> rfl

theorem policyCalls_byStateMachine (previous current : SystemState) (call : RecordCall)
    (h : call ∈ policyCalls previous current) : call.byStateMachine = true := by
  unfold policyCalls at h
  split_ifs at h <;> simp_all [RecordCall.byStateMachine]

theorem stateMachineBoot_replays (w : World) :
    ∃ own, machineEntries (stateMachineBoot true w) = machineEntries w ++ own ∧
      Replays own (stateMachineBoot true w).gSystemState := by
  have hempty : Replays [] .Boot := ⟨rfl, rfl, History.each_nil _⟩
  by_cases hok : w.imageIntegrityOk = true
  · have hr := replays_stateChange .Nominal hempty (xTaskGetTickCount w) 0 (by decide) (by decide)
    refine ⟨[RecordCall.entry (xTaskGetTickCount w) (.StateChange .Boot .Nominal 0)], ?_, ?_⟩
    · simp [machineEntries, stateMachineBoot, systemStateInit, hok, eventLogRecordStateChange,
        eventLogStore, RecordCall.entry, xTaskGetTickCount, EventLogEntry.byStateMachine]
    · simpa [stateMachineBoot, systemStateInit, hok, eventLogRecordStateChange, eventLogStore] using hr
  · have hr := replays_stateChange .Degraded hempty (xTaskGetTickCount w)
      IMAGE_INTEGRITY_REASON_CODE (by decide) (by decide)
    refine ⟨[RecordCall.entry (xTaskGetTickCount w)
      (.StateChange .Boot .Degraded IMAGE_INTEGRITY_REASON_CODE)], ?_, ?_⟩
    · simp [machineEntries, stateMachineBoot, systemStateInit, hok, eventLogRecordStateChange,
        eventLogStore, RecordCall.entry, xTaskGetTickCount, EventLogEntry.byStateMachine,
        safePolicyOnDegradedEnter, faultInjectSetEnabled]
    · simpa [stateMachineBoot, systemStateInit, hok, eventLogRecordStateChange, eventLogStore,
        safePolicyOnDegradedEnter, faultInjectSetEnabled] using hr

theorem machineEntries_handle (request : StateRequest) (w : World)
    (ha : stateMachineAllowsRequest w.gSystemState request = true)
    (hne : w.gSystemState ≠ request.requestedState) :
    machineEntries (stateMachineHandle request w) =
      machineEntries w ++
        (RecordCall.StateChange w.gSystemState request.requestedState request.reasonCode ::
          policyCalls w.gSystemState request.requestedState).map
            (RecordCall.entry (xTaskGetTickCount w)) := by
  unfold machineEntries
  rw [stateMachineHandle_recorded request w ha hne, List.filter_append]
  congr 1
  rw [List.filter_eq_self]
  intro entry hentry
  obtain ⟨call, hcall, rfl⟩ := List.mem_map.mp hentry
  rw [RecordCall.entry_byStateMachine]
  rcases List.mem_cons.mp hcall with rfl | hpolicy
  · rfl
  · exact policyCalls_byStateMachine _ _ call hpolicy

theorem stateMachineHandle_replays (request : StateRequest) (w : World) (own : List EventLogEntry)
    (h : Replays own w.gSystemState) :
    ∃ more, machineEntries (stateMachineHandle request w) = machineEntries w ++ more ∧
      Replays (own ++ more) (stateMachineHandle request w).gSystemState := by
  by_cases htake : stateMachineAllowsRequest w.gSystemState request = true ∧
      w.gSystemState ≠ request.requestedState
  · obtain ⟨ha, hne⟩ := htake
    refine ⟨_, machineEntries_handle request w ha hne, ?_⟩
    rw [stateMachineHandle_state, applied, if_pos ha]
    exact replays_transition h request _ ha hne
  · rw [stateMachineHandle_eq, if_neg htake]
    exact ⟨[], by simp, by simpa using h⟩

theorem machineEntries_record (ticks : Nat) (call : RecordCall) (w : World)
    (hother : call.byStateMachine = false) :
    machineEntries (call.runAt ticks w) = machineEntries w := by
  simp [machineEntries, RecordCall.runAt_recorded, RecordCall.entry_byStateMachine, hother]

theorem machineInput_replays (input : MachineInput) (w : World) (own : List EventLogEntry)
    (h : Replays own w.gSystemState) :
    ∃ more, machineEntries (input.run w) = machineEntries w ++ more ∧
      Replays (own ++ more) (input.run w).gSystemState := by
  cases input with
  | Request request => exact stateMachineHandle_replays request w own h
  | Record ticks call hother =>
      have hstate : (call.runAt ticks w).gSystemState = w.gSystemState := by
        cases call <;> rfl
      refine ⟨[], ?_, ?_⟩
      · simpa [MachineInput.run] using machineEntries_record ticks call w hother
      · simpa [MachineInput.run, hstate] using h

-- Other tasks may record their own entries at any point between two requests.
theorem flight_recorder_replays_state (inputs : List MachineInput) (w : World) :
    ∃ own, machineEntries (stateMachineRun inputs w) = machineEntries w ++ own ∧
      Replays own (stateMachineRun inputs w).gSystemState := by
  unfold stateMachineRun
  induction inputs using List.reverseRecOn with
  | nil => exact stateMachineBoot_replays w
  | append_singleton inputs input ih =>
      obtain ⟨own, hown, hreplays⟩ := ih
      obtain ⟨more, hmore, hnext⟩ := machineInput_replays input _ own hreplays
      rw [List.foldl_append]
      exact ⟨own ++ more, by rw [← List.append_assoc, ← hown]; exact hmore, hnext⟩

end Run

end SpaceBaremetal

import SpaceBaremetal.EventLog.Theorems
import SpaceBaremetal.MemoryScrub.Theorems
import SpaceBaremetal.StateMachine.Theorems

namespace SpaceBaremetal

-- The part of the world that belongs to the operator's commands: the queue
-- they wait in and the switch they toggle.
structure Operation where
  faultInjectEnabled : Bool
  commandQueue : Option (BoundedQueue CommandType COMMAND_QUEUE_LENGTH)

def World.operation (w : World) : Operation where
  faultInjectEnabled := w.faultInjectEnabled
  commandQueue := w.xCommandQueue

section Frame

@[simp] theorem uartWrite_operation (text : List String) (w : World) :
    (uartWrite text w).operation = w.operation := rfl

@[simp] theorem eventLogStore_operation (type : EventLogType) (argA argB : BitVec 8)
    (data : BitVec 32) (w : World) :
    (eventLogStore type argA argB data w).operation = w.operation := rfl

theorem operation_unreported : Unreported World.operation where
  uart := fun _ _ => rfl
  eventLog := fun _ _ => rfl
  violations := fun _ _ => rfl
  requests := fun _ _ _ => rfl

@[simp] theorem systemStateRequestChange_operation (state : SystemState) (reason : BitVec 32)
    (w : World) : (systemStateRequestChange state reason w).2.operation = w.operation :=
  operation_unreported.systemStateRequestChange state reason w

@[simp] theorem memoryProtectionCheckAccess_operation (address size : BitVec 64)
    (access : BitVec 32) (w : World) :
    (memoryProtectionCheckAccess address size access w).2.operation = w.operation :=
  operation_unreported.memoryProtectionCheckAccess address size access w

@[simp] theorem memoryScrubRecordSeu_operation (w : World) :
    (memoryScrubRecordSeu w).operation = w.operation :=
  memoryScrubRecordSeu_view operation_unreported (fun _ _ _ => rfl) w

variable (layout : Layout)

@[simp] theorem scrubRead_operation (idx : Nat) (w : World) :
    (scrubRead layout idx w).2.operation = w.operation := by
  unfold scrubRead
  dsimp only
  split_ifs <;> exact memoryProtectionCheckAccess_operation _ _ _ _

@[simp] theorem scrubWrite_operation (idx : Nat) (value : BitVec 8) (w : World) :
    (scrubWrite layout idx value w).2.operation = w.operation := by
  unfold scrubWrite
  dsimp only
  split_ifs
  · exact memoryProtectionCheckAccess_operation _ _ _ _
  · exact memoryProtectionCheckAccess_operation _ _ _ w

theorem memoryScrubRound_operation (i : Nat) (acc : BitVec 32 × World) :
    (memoryScrubRound layout i acc).2.operation = acc.2.operation := by
  unfold memoryScrubRound
  dsimp only
  split_ifs <;> simp

theorem memoryScrub_operation (w : World) : (memoryScrub layout w).operation = w.operation := by
  have hrounds : ∀ (indices : List Nat) (acc : BitVec 32 × World),
      (indices.foldl (fun acc i => memoryScrubRound layout i acc) acc).2.operation =
        acc.2.operation := by
    intro indices
    induction indices with
    | nil => exact fun _ => rfl
    | cons index indices ih =>
      exact fun acc => (ih _).trans (memoryScrubRound_operation layout index acc)
  unfold memoryScrub
  dsimp only
  split_ifs
  · rw [uartPuts_eq, uartWrite_operation, hrounds]
  · rw [uartPuts_eq, uartWrite_operation, hrounds]

theorem injectRandomFault_operation (w : World) :
    (injectRandomFault w).operation = w.operation := by
  unfold injectRandomFault
  simp only [uartPuts_eq, uartPutHex_eq, uartHexDump_eq, uartWrite_uartWrite, uartWrite_xFaultQueue]
  cases w.xFaultQueue <;> rfl

end Frame

-- The only command that touches this part toggles the switch.
theorem commandHandle_operation (layout : Layout) (cmd : CommandType) (w : World) :
    (commandHandle layout cmd w).operation =
      if cmd = .ToggleFaultInject then
        { w.operation with faultInjectEnabled := !w.faultInjectEnabled }
      else
        w.operation := by
  cases cmd with
  | Status => rfl
  | GoNominal => exact systemStateRequestChange_operation _ _ _
  | GoDegraded => exact systemStateRequestChange_operation _ _ _
  | GoSafe => exact systemStateRequestChange_operation _ _ _
  | InjectFault =>
    rw [if_neg (by decide)]
    unfold commandHandle
    dsimp only
    split_ifs
    · rfl
    · exact injectRandomFault_operation w
  | ForceScrub => exact memoryScrub_operation layout w
  | PrintViolations => simp [commandHandle]
  | PrintSeuCount => simp [commandHandle]
  | ToggleFaultInject => rfl
  | DumpEventLog => simp [commandHandle, eventLogDump_eq_uartWrite]

theorem stateMachineLogTransition_operation (state : SystemState) (w : World) :
    (stateMachineLogTransition state w).operation = w.operation := by
  cases state <;> rfl

theorem stateMachineApplyPolicy_operation (previous current : SystemState) (w : World)
    (hne : previous ≠ current) :
    (stateMachineApplyPolicy previous current w).operation =
      if current = .Degraded ∨ current = .Safe then
        { w.operation with faultInjectEnabled := false }
      else
        w.operation := by
  unfold stateMachineApplyPolicy
  by_cases hdegraded : current = .Degraded
  · subst hdegraded
    rw [if_pos ⟨rfl, hne⟩, if_pos (.inl rfl)]
    rfl
  · by_cases hsafe : current = .Safe
    · subst hsafe
      rw [if_neg (by simp), if_pos ⟨rfl, hne⟩, if_pos (.inr rfl)]
      rfl
    · simp only [hdegraded, hsafe, false_and, or_self, if_false]
      split_ifs <;> rfl

-- Entering DEGRADED or SAFE turns the switch off; nothing else that the state
-- machine does touches it.
theorem stateMachineHandle_operation (request : StateRequest) (w : World) :
    (stateMachineHandle request w).operation =
      if w.gSystemState ≠ applied w.gSystemState request ∧
          (applied w.gSystemState request = .Degraded ∨ applied w.gSystemState request = .Safe) then
        { w.operation with faultInjectEnabled := false }
      else
        w.operation := by
  rw [stateMachineHandle_eq]
  unfold applied
  by_cases hallows : stateMachineAllowsRequest w.gSystemState request = true
  · by_cases hsame : w.gSystemState = request.requestedState
    · simp [hsame]
    · rw [if_pos ⟨hallows, hsame⟩, if_pos hallows, stateMachineApplyPolicy_operation _ _ _ hsame]
      simp only [ne_eq, hsame, not_false_eq_true, true_and, eventLogRecordStateChange,
        eventLogStore_operation, stateMachineLogTransition_operation]
      rfl
  · simp [hallows]

end SpaceBaremetal

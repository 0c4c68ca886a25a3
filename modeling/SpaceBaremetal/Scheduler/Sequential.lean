import SpaceBaremetal.Scheduler.Code

-- Code that is not preempted does what the functions of the sequential model do.
namespace SpaceBaremetal.Code

open Program

@[simp]
theorem uartPuts_run (s : String) (w : World) :
    (uartPuts s).run answerRequest w = ((), SpaceBaremetal.uartWrite [s] w) := (rfl)

@[simp]
theorem uartPutc_run (c : Char) (w : World) :
    (uartPutc c).run answerRequest w =
      ((), SpaceBaremetal.uartWrite [String.singleton c] w) := (rfl)

@[simp]
theorem uartPutDec_run (value : BitVec 32) (w : World) :
    (uartPutDec value).run answerRequest w =
      ((), SpaceBaremetal.uartWrite [decText value] w) := (rfl)

@[simp]
theorem uartPutHex_run (value : BitVec 32) (w : World) :
    (uartPutHex value).run answerRequest w =
      ((), SpaceBaremetal.uartWrite (hexText value) w) := (rfl)

@[simp]
theorem systemStateRequestChange_run (newState : SystemState) (reason : BitVec 32) (w : World) :
    (systemStateRequestChange newState reason).run answerRequest w =
      SpaceBaremetal.systemStateRequestChange newState reason w := (rfl)

section MemoryProtection

@[simp]
theorem recordViolation_run (w : World) :
    recordViolation.run answerRequest w = ((), SpaceBaremetal.recordViolation w) := by
  have hfunction : SpaceBaremetal.recordViolation w =
      let counted := countViolation w
      let count := counted.memoryProtection.violationCount
      let noted :=
        if count = MEM_PROT_VIOLATION_THRESHOLD then eventLogRecordMemProtThreshold count counted
        else counted
      if count ≥ MEM_PROT_VIOLATION_THRESHOLD then
        (SpaceBaremetal.systemStateRequestChange .Degraded 0x04 noted).2
      else noted := rfl
  have hkept : ∀ (count : BitVec 32) (w : World),
      (eventLogRecordMemProtThreshold count w).memoryProtection = w.memoryProtection :=
    fun _ _ => rfl
  rw [hfunction]
  unfold recordViolation
  simp only [run_bind, run_act, run_read, run_ite, run_pure, systemStateRequestChange_run]
  by_cases hthird :
      (countViolation w).memoryProtection.violationCount = MEM_PROT_VIOLATION_THRESHOLD
  · simp only [if_pos hthird, hkept]
    split_ifs <;> rfl
  · simp only [if_neg hthird]
    split_ifs <;> rfl

@[simp]
theorem reportViolation_run (address size : BitVec 64) (accessType : String)
    (region : MemoryRegion) (w : World) :
    (reportViolation address size accessType region).run answerRequest w =
      ((), SpaceBaremetal.reportViolation address size accessType region w) := by
  simp [reportViolation, SpaceBaremetal.reportViolation]

@[simp]
theorem checkRegions_run (address size : BitVec 64) (access : BitVec 32)
    (regions : List MemoryRegion) (w : World) :
    (checkRegions address size access regions).run answerRequest w =
      SpaceBaremetal.checkRegions address size access regions w := by
  induction regions with
  | nil => rfl
  | cons region rest ih =>
    unfold checkRegions SpaceBaremetal.checkRegions
    simp [ih]

@[simp]
theorem memoryProtectionCheckAccess_run (address size : BitVec 64) (access : BitVec 32)
    (w : World) :
    (memoryProtectionCheckAccess address size access).run answerRequest w =
      SpaceBaremetal.memoryProtectionCheckAccess address size access w := by
  unfold memoryProtectionCheckAccess SpaceBaremetal.memoryProtectionCheckAccess
  split_ifs <;> simp

end MemoryProtection

section Watchdog

variable (layout : Layout)

@[simp]
theorem watchdogKick_run (taskBit : BitVec 32) (w : World) :
    (watchdogKick layout taskBit).run answerRequest w =
      ((), SpaceBaremetal.watchdogKick layout taskBit w) := by
  unfold watchdogKick SpaceBaremetal.watchdogKick
  simp only [run_bind, memoryProtectionCheckAccess_run, run_ite, uartPuts_run, run_act]
  split_ifs <;> rfl

@[simp]
theorem watchdogPrintMissingBits_run (received expectedBits : BitVec 32) (w : World) :
    (watchdogPrintMissingBits received expectedBits).run answerRequest w =
      ((), SpaceBaremetal.watchdogPrintMissingBits received expectedBits w) := by
  unfold watchdogPrintMissingBits SpaceBaremetal.watchdogPrintMissingBits
  simp only [run_bind, run_ite, uartPuts_run, run_pure]
  split_ifs <;> rfl

theorem watchdogEvaluateCycle_run (receivedBits expectedBits : BitVec 32)
    (currentState : SystemState) (cycles : BitVec 32) (w : World) :
    let done :=
      (watchdogEvaluateCycle receivedBits expectedBits currentState cycles).run answerRequest w
    SpaceBaremetal.watchdogEvaluateCycle receivedBits expectedBits currentState (some cycles) w =
      (some done.1, done.2) := by
  unfold watchdogEvaluateCycle SpaceBaremetal.watchdogEvaluateCycle
  simp only [run_ite, run_bind, systemStateRequestChange_run, run_pure]
  split_ifs <;> rfl

theorem watchdogEndCycle_run (task : WatchdogTask) (w : World) :
    (watchdogEndCycle task).run answerRequest w = SpaceBaremetal.watchdogEndCycle task w := by
  unfold watchdogEndCycle SpaceBaremetal.watchdogEndCycle
  dsimp only
  rw [watchdogEvaluateCycle_run]
  simp only [run_bind, run_ite, run_pure, run_act, watchdogPrintMissingBits_run, Option.getD_some]
  split_ifs <;> rfl

theorem watchdogBeginCycle_run (successfulCycles : BitVec 32) (w : World) :
    (watchdogBeginCycle successfulCycles).run answerRequest w =
      (SpaceBaremetal.watchdogBeginCycle successfulCycles w, w) := (rfl)

end Watchdog

section StateMachine

-- The queue is created before this code runs.
theorem stateMachineBoot_run (w : World) :
    SpaceBaremetal.stateMachineBoot true w =
      (stateMachineBoot.run answerRequest
        { w with xStateRequestQueue := some BoundedQueue.empty }).2 := by
  unfold stateMachineBoot SpaceBaremetal.stateMachineBoot
  simp only [run_bind, run_ite, run_act, run_read, uartPuts_run, uartWrite_imageIntegrityOk]
  by_cases hok : w.imageIntegrityOk = true
  · have hread : (systemStateInit true w).imageIntegrityOk = true := hok
    rw [if_pos hread, if_pos hok]
    rfl
  · have hread : ¬(systemStateInit true w).imageIntegrityOk = true := hok
    rw [if_neg hread, if_neg hok]
    rfl

@[simp]
theorem stateMachineApplyPolicy_run (previous current : SystemState) (w : World) :
    (stateMachineApplyPolicy previous current).run answerRequest w =
      ((), SpaceBaremetal.stateMachineApplyPolicy previous current w) := by
  unfold stateMachineApplyPolicy SpaceBaremetal.stateMachineApplyPolicy
  simp only [run_ite, run_act, run_pure]
  split_ifs <;> rfl

theorem stateMachineHandle_run (request : StateRequest) (w : World) :
    (stateMachineHandle request).run answerRequest w =
      ((), SpaceBaremetal.stateMachineHandle request w) := by
  unfold stateMachineHandle SpaceBaremetal.stateMachineHandle
  simp only [run_bind, run_ite, run_read, run_act, run_pure, stateMachineApplyPolicy_run]
  unfold systemStateGet stateMachineApplyRequest
  by_cases hallows : stateMachineAllowsRequest w.gSystemState request = false
  · simp only [if_pos hallows]
    rfl
  · by_cases hsame : w.gSystemState = request.requestedState
    · simp only [if_neg hallows, if_pos hsame]
      rfl
    · simp only [if_neg hallows, if_neg hsame]
      rfl

end StateMachine

section MemoryScrub

variable (layout : Layout)

@[simp]
theorem scrubRead_run (idx : Nat) (w : World) :
    (scrubRead layout idx).run answerRequest w = SpaceBaremetal.scrubRead layout idx w := by
  unfold scrubRead SpaceBaremetal.scrubRead
  simp only [run_bind, memoryProtectionCheckAccess_run, run_ite, run_pure, run_read]

@[simp]
theorem scrubWrite_run (idx : Nat) (value : BitVec 8) (w : World) :
    (scrubWrite layout idx value).run answerRequest w =
      SpaceBaremetal.scrubWrite layout idx value w := by
  unfold scrubWrite SpaceBaremetal.scrubWrite
  simp only [run_bind, memoryProtectionCheckAccess_run, run_ite, run_pure, run_act]

@[simp]
theorem memoryScrubRecordSeu_run (w : World) :
    memoryScrubRecordSeu.run answerRequest w = ((), SpaceBaremetal.memoryScrubRecordSeu w) := by
  unfold memoryScrubRecordSeu SpaceBaremetal.memoryScrubRecordSeu
  simp only [run_bind, run_act, run_read, run_ite, run_pure, systemStateRequestChange_run]
  split_ifs <;> rfl

theorem foldl_fillArea (indices : List Nat) (w : World) :
    indices.foldl (fun (acc : Unit × World) i =>
        ((), { acc.2 with scrubArea := Function.update acc.2.scrubArea i (goldenCopy i) })) ((), w) =
      ((), { w with
        scrubArea := indices.foldl (fun area i => Function.update area i (goldenCopy i))
          w.scrubArea }) := by
  induction indices generalizing w with
  | nil => rfl
  | cons i indices ih => rw [List.foldl_cons, ih, List.foldl_cons]

theorem memoryScrubInit_run (w : World) :
    (memoryScrubInit layout).run answerRequest w =
      ((), SpaceBaremetal.memoryScrubInit layout w) := by
  unfold memoryScrubInit SpaceBaremetal.memoryScrubInit
  simp only [run_bind, run_act, run_foldlM, uartPuts_run, uartPuts_eq, foldl_fillArea]

theorem memoryScrubFixEvent_run (event : FaultEvent) (w : World) :
    (memoryScrubFixEvent layout event).run answerRequest w =
      SpaceBaremetal.memoryScrubFixEvent layout (some event) w := by
  unfold memoryScrubFixEvent SpaceBaremetal.memoryScrubFixEvent
  simp only [run_bind, run_ite, run_act, run_pure, scrubRead_run, scrubWrite_run, uartPuts_run,
    uartPutHex_run, memoryScrubRecordSeu_run]
  split_ifs <;> simp

@[simp]
theorem memoryScrubRound_run (errorsCorrected : BitVec 32) (i : Nat) (w : World) :
    (memoryScrubRound layout errorsCorrected i).run answerRequest w =
      SpaceBaremetal.memoryScrubRound layout i (errorsCorrected, w) := by
  unfold memoryScrubRound SpaceBaremetal.memoryScrubRound
  simp only [run_bind, run_ite, run_pure, scrubRead_run, scrubWrite_run, memoryScrubRecordSeu_run]

@[simp]
theorem memoryScrub_run (w : World) :
    (memoryScrub layout).run answerRequest w = ((), SpaceBaremetal.memoryScrub layout w) := by
  unfold memoryScrub SpaceBaremetal.memoryScrub
  simp only [run_bind, run_foldlM, run_ite, uartPuts_run, memoryScrubRound_run, Prod.mk.eta,
    uartPuts_eq]
  split_ifs
  · rfl
  · rfl

end MemoryScrub

section Tasks

variable (layout : Layout)

@[simp]
theorem injectRandomFault_run (w : World) :
    injectRandomFault.run answerRequest w = ((), SpaceBaremetal.injectRandomFault w) := by
  unfold injectRandomFault SpaceBaremetal.injectRandomFault
  simp only [run_bind, run_act, run_read, uartPuts_run, uartPutHex_run, sendFault, uartPuts_eq,
    uartPutHex_eq, uartHexDump_eq, uartWrite_uartWrite, uartWrite_xFaultQueue]
  cases w.xFaultQueue with
  | none => rfl
  | some queue => rfl

theorem heartbeatBody_run (w : World) :
    (heartbeatBody layout).run answerRequest w = ((), SpaceBaremetal.heartbeatBody layout w) := by
  unfold heartbeatBody SpaceBaremetal.heartbeatBody
  simp only [run_bind, run_read, run_ite, run_pure, uartPuts_run, watchdogKick_run]
  split_ifs <;> rfl

-- What is left of a cycle once the fault queue is drained.
theorem memoryScrubDrained_run (hadEvent : Bool) (w : World) :
    (memoryScrubDrained layout hadEvent).run answerRequest w =
      ((), SpaceBaremetal.watchdogKick layout WATCHDOG_BIT_MEMSCRUB
        (if hadEvent = false ∧ safePolicyAllowsBackgroundScrub (systemStateGet w) then
          SpaceBaremetal.memoryScrub layout w
        else
          w)) := by
  unfold memoryScrubDrained
  simp only [run_bind, run_read, run_ite, run_pure, memoryScrub_run, watchdogKick_run]
  cases hadEvent with
  | true => rfl
  | false => split_ifs <;> simp_all

theorem faultInjectBody_run (w : World) :
    (faultInjectBody layout).run answerRequest w =
      ((), SpaceBaremetal.faultInjectBody layout w) := by
  unfold faultInjectBody SpaceBaremetal.faultInjectBody
  simp only [run_bind, run_read, run_ite, run_pure, watchdogKick_run, injectRandomFault_run,
    faultInjectIsEnabled]
  split_ifs <;> rfl

theorem eventLogDumpLoop_run (fuel index : Nat) (w : World) :
    (eventLogDumpLoop fuel index).run answerRequest w =
      ((), SpaceBaremetal.eventLogDumpLoop fuel index w) := by
  induction fuel generalizing index w with
  | zero => rfl
  | succ fuel ih =>
    unfold eventLogDumpLoop SpaceBaremetal.eventLogDumpLoop
    simp only [run_bind, run_read, run_ite, run_act, run_pure, ih]
    split_ifs <;> rfl

@[simp]
theorem eventLogDump_run (w : World) :
    eventLogDump.run answerRequest w = ((), SpaceBaremetal.eventLogDump w) := by
  unfold eventLogDump SpaceBaremetal.eventLogDump
  simp only [run_bind, run_act, eventLogDumpLoop_run]

theorem commandHandle_run (cmd : CommandType) (w : World) :
    (commandHandle layout cmd).run answerRequest w =
      ((), SpaceBaremetal.commandHandle layout cmd w) := by
  unfold commandHandle SpaceBaremetal.commandHandle
  cases cmd with
  | InjectFault =>
    simp only [run_bind, run_read, run_ite, uartPuts_run, injectRandomFault_run, uartPuts_eq]
    split_ifs <;> rfl
  | ToggleFaultInject =>
    simp only [run_bind, run_read, run_act, uartPuts_run, uartPuts_eq]
    rfl
  | _ => simp

theorem commandDispatchChar_run (c : Char) (w : World) :
    (commandDispatchChar c).run answerRequest w = SpaceBaremetal.commandDispatchChar c w := by
  unfold commandDispatchChar SpaceBaremetal.commandDispatchChar commandSend
  cases keyCommand c with
  | some cmd =>
    simp only [run_bind, run_atomic, run_ite, run_pure, uartPuts_run]
    split_ifs <;> rfl
  | none =>
    simp only [run_bind, run_act, run_ite, run_pure]

theorem commandInputStart_run (w : World) :
    commandInputStart.run answerRequest w = ((), SpaceBaremetal.commandInputStart w) := (rfl)

theorem commandInputBody_run (received : Option Char) (w : World) :
    (commandInputBody received).run answerRequest w =
      ((), SpaceBaremetal.commandInputBody received w) := by
  unfold commandInputBody SpaceBaremetal.commandInputBody
  cases received with
  | none => rfl
  | some c =>
    simp only [run_bind, run_ite, run_pure, commandDispatchChar_run, uartPuts_run, uartPutc_run]
    split_ifs <;> rfl

end Tasks

end SpaceBaremetal.Code

import SpaceBaremetal.Fdir
import SpaceBaremetal.MemoryProtection.Theorems

namespace SpaceBaremetal.Fdir

section Sends

variable {allowed : StateRequest → Prop} {w w' w'' : World}

theorem sends_of_control_eq (h : w'.control = w.control) : Sends allowed w w' := by
  have hqueue : w'.xStateRequestQueue = w.xStateRequestQueue := congrArg Control.queue h
  refine ⟨?_, ?_⟩
  · rw [h, hqueue]
    rfl
  · cases hw : w.xStateRequestQueue with
    | none => exact .inl ⟨rfl, hqueue.trans hw⟩
    | some queue =>
      exact .inr ⟨queue, queue, [], rfl, hqueue.trans hw, (List.append_nil _).symm,
        fun request hrequest => absurd hrequest List.not_mem_nil⟩

theorem sends_refl (w : World) : Sends allowed w w := sends_of_control_eq rfl

theorem sends_trans (h : Sends allowed w w') (h' : Sends allowed w' w'') :
    Sends allowed w w'' := by
  obtain ⟨hcontrol, hqueue⟩ := h
  obtain ⟨hcontrol', hqueue'⟩ := h'
  refine ⟨?_, ?_⟩
  · rw [hcontrol', hcontrol]
  · rcases hqueue with ⟨hnone, hnone'⟩ | ⟨queue, queue', sent, hsome, hsome', hitems, hsent⟩
    · rcases hqueue' with ⟨-, hnone''⟩ | ⟨_, _, _, hsome, -⟩
      · exact .inl ⟨hnone, hnone''⟩
      · rw [hnone'] at hsome
        exact absurd hsome (by simp)
    · rcases hqueue' with ⟨hnone, -⟩ | ⟨middle, queue'', sent', hmiddle, hsome'', hitems', hsent'⟩
      · rw [hsome'] at hnone
        exact absurd hnone (by simp)
      · rw [hsome', Option.some.injEq] at hmiddle
        subst hmiddle
        refine .inr ⟨queue, queue'', sent ++ sent', hsome, hsome'', ?_, ?_⟩
        · rw [hitems', hitems, List.append_assoc]
        · intro request hrequest
          exact (List.mem_append.mp hrequest).elim (hsent request) (hsent' request)

theorem sends_mono {allowed' : StateRequest → Prop} (himp : ∀ request, allowed request → allowed' request)
    (h : Sends allowed w w') : Sends allowed' w w' := by
  obtain ⟨hcontrol, hnone | ⟨queue, queue', sent, hsome, hsome', hitems, hsent⟩⟩ := h
  · exact ⟨hcontrol, .inl hnone⟩
  · exact ⟨hcontrol, .inr ⟨queue, queue', sent, hsome, hsome', hitems,
      fun request hrequest => himp request (hsent request hrequest)⟩⟩

theorem sends_state (h : Sends allowed w w') : w'.gSystemState = w.gSystemState :=
  congrArg Control.state h.1

theorem sends_slot (h : Sends allowed w w') : w'.watchdogNotification = w.watchdogNotification :=
  congrArg Control.slot h.1

theorem sends_handle (h : Sends allowed w w') : w'.xWatchdogTaskHandle = w.xWatchdogTaskHandle :=
  congrArg Control.handle h.1

theorem sends_ticks (h : Sends allowed w w') : w'.xTickCount = w.xTickCount :=
  congrArg Control.ticks h.1

theorem sends_imageOk (h : Sends allowed w w') : w'.imageIntegrityOk = w.imageIntegrityOk :=
  congrArg Control.imageOk h.1

-- What is waiting in the queue afterwards was there before or is of the kind.
theorem sends_pending (h : Sends allowed w w') (request : StateRequest)
    (hrequest : request ∈ w'.pendingRequests) :
    request ∈ w.pendingRequests ∨ allowed request := by
  unfold World.pendingRequests at hrequest ⊢
  rcases h.2 with ⟨-, hnone⟩ | ⟨queue, queue', sent, hsome, hsome', hitems, hsent⟩
  · rw [hnone] at hrequest
    exact absurd hrequest List.not_mem_nil
  · rw [hsome'] at hrequest
    rw [hsome]
    dsimp only at hrequest ⊢
    rw [hitems] at hrequest
    exact (List.mem_append.mp hrequest).imp id (hsent request)

-- A request of another kind waits as often as before.
theorem sends_count (h : Sends allowed w w') {request : StateRequest} (hnot : ¬allowed request) :
    w'.pendingRequests.count request = w.pendingRequests.count request := by
  unfold World.pendingRequests
  rcases h.2 with ⟨hnone, hnone'⟩ | ⟨queue, queue', sent, hsome, hsome', hitems, hsent⟩
  · rw [hnone, hnone']
  · rw [hsome, hsome']
    dsimp only
    have hnever : sent.count request = 0 :=
      List.count_eq_zero.mpr (fun hmem => hnot (hsent request hmem))
    rw [hitems, List.count_append, hnever, Nat.add_zero]

theorem systemStateRequestChange_none (state : SystemState) (reason : BitVec 32)
    (h : w.xStateRequestQueue = none) :
    systemStateRequestChange state reason w =
      (false, { w with stateRequests := w.stateRequests ++ [(⟨state, reason⟩, false)] }) := by
  unfold systemStateRequestChange
  rw [h]

theorem systemStateRequestChange_some (state : SystemState) (reason : BitVec 32)
    (queue : BoundedQueue StateRequest STATE_REQUEST_QUEUE_LENGTH)
    (h : w.xStateRequestQueue = some queue) :
    systemStateRequestChange state reason w =
      ((queue.send ⟨state, reason⟩).1,
        { w with
            xStateRequestQueue := some (queue.send ⟨state, reason⟩).2
            stateRequests :=
              w.stateRequests ++ [(⟨state, reason⟩, (queue.send ⟨state, reason⟩).1)] }) := by
  unfold systemStateRequestChange
  rw [h]

theorem systemStateRequestChange_sends (state : SystemState) (reason : BitVec 32) (w : World)
    (h : allowed ⟨state, reason⟩) : Sends allowed w (systemStateRequestChange state reason w).2 := by
  cases hqueue : w.xStateRequestQueue with
  | none =>
    rw [systemStateRequestChange_none state reason hqueue]
    exact sends_of_control_eq rfl
  | some queue =>
    rw [systemStateRequestChange_some state reason queue hqueue]
    refine ⟨rfl, .inr ⟨queue, _, _, hqueue, rfl, queue.send_items _, ?_⟩⟩
    intro request hrequest
    split at hrequest
    · rw [List.mem_singleton] at hrequest
      rw [hrequest]
      exact h
    · exact absurd hrequest List.not_mem_nil

end Sends

section Background

variable (layout : Layout)

abbrev FaultSends := Sends (· ∈ faultRequests)

theorem faultRequest_sends (state : SystemState) (reason : BitVec 32) (w : World)
    (h : ⟨state, reason⟩ ∈ faultRequests) :
    FaultSends w (systemStateRequestChange state reason w).2 :=
  systemStateRequestChange_sends state reason w h

theorem recordViolation_sends (w : World) : FaultSends w (recordViolation w) := by
  unfold recordViolation eventLogRecordMemProtThreshold
  dsimp only
  split_ifs
  · exact sends_trans (sends_of_control_eq rfl) (systemStateRequestChange_sends _ _ _ (by decide))
  · exact sends_trans (sends_of_control_eq rfl) (systemStateRequestChange_sends _ _ _ (by decide))
  · exact sends_of_control_eq rfl
  · exact sends_of_control_eq rfl

theorem memoryProtectionCheckAccess_sends (address size : BitVec 64) (access : BitVec 32)
    (w : World) : FaultSends w (memoryProtectionCheckAccess address size access w).2 := by
  by_cases hnone : access = MEM_PERM_NONE
  · rw [memoryProtectionCheckAccess, if_pos hnone]
    exact sends_refl w
  · obtain ⟨hpass, -⟩ | ⟨region, -, -, hdenied⟩ :=
      memoryProtectionCheckAccess_cases address size w hnone
    · rw [hpass]
      exact sends_refl w
    · rw [hdenied]
      unfold reportViolation
      simp only [uartPuts_eq, uartPutHex_eq, uartPutDec_eq, uartWrite_uartWrite]
      exact sends_trans (sends_of_control_eq rfl) (recordViolation_sends _)

theorem memoryScrubRecordSeu_sends (w : World) : FaultSends w (memoryScrubRecordSeu w) := by
  unfold memoryScrubRecordSeu
  dsimp only
  split_ifs
  · exact sends_of_control_eq rfl
  · have hcount : FaultSends w
        { w with seuTotalCount := w.seuTotalCount + 1, seuCounter := w.seuCounter + 1 } :=
      sends_of_control_eq rfl
    have hrequest := faultRequest_sends .Degraded 0x02
      { w with seuTotalCount := w.seuTotalCount + 1, seuCounter := w.seuCounter + 1 } (by decide)
    exact sends_trans (sends_trans hcount hrequest) (sends_of_control_eq rfl)
  · exact sends_of_control_eq rfl

theorem scrubRead_sends (idx : Nat) (w : World) : FaultSends w (scrubRead layout idx w).2 := by
  unfold scrubRead
  dsimp only
  split_ifs
  · exact memoryProtectionCheckAccess_sends _ _ _ _
  · exact memoryProtectionCheckAccess_sends _ _ _ _

theorem scrubWrite_sends (idx : Nat) (value : BitVec 8) (w : World) :
    FaultSends w (scrubWrite layout idx value w).2 := by
  unfold scrubWrite
  dsimp only
  split_ifs
  · exact memoryProtectionCheckAccess_sends _ _ _ _
  · exact sends_trans (memoryProtectionCheckAccess_sends _ _ _ _) (sends_of_control_eq rfl)

theorem memoryScrubFixEvent_sends (event : Option FaultEvent) (w : World) :
    FaultSends w (memoryScrubFixEvent layout event w).2 := by
  unfold memoryScrubFixEvent
  cases event with
  | none => exact sends_refl w
  | some event =>
    simp only [uartPuts_eq, uartPutHex_eq, uartWrite_uartWrite]
    split_ifs
    · exact sends_refl w
    · exact sends_trans (scrubRead_sends layout _ _) (sends_of_control_eq rfl)
    · exact sends_trans (scrubRead_sends layout _ _)
        (sends_trans (scrubWrite_sends layout _ _ _) (sends_of_control_eq rfl))
    · exact sends_trans (scrubRead_sends layout _ _) (sends_trans (scrubWrite_sends layout _ _ _)
        (sends_trans (sends_of_control_eq rfl) (memoryScrubRecordSeu_sends _)))

theorem memoryScrubDrain_sends (fuel : Nat) (acc : Bool × World) :
    FaultSends acc.2 (memoryScrubDrain layout fuel acc).2 := by
  induction fuel generalizing acc with
  | zero => exact sends_refl acc.2
  | succ fuel ih =>
    unfold memoryScrubDrain faultQueueReceive
    cases acc.2.xFaultQueue with
    | none => exact sends_refl acc.2
    | some queue =>
      dsimp only
      cases queue.receive with
      | none => exact sends_refl acc.2
      | some received =>
        exact sends_trans (sends_trans (sends_of_control_eq rfl)
          (memoryScrubFixEvent_sends layout _ { acc.2 with xFaultQueue := some received.2 })) (ih _)

theorem memoryScrubRound_sends (i : Nat) (acc : BitVec 32 × World) :
    FaultSends acc.2 (memoryScrubRound layout i acc).2 := by
  unfold memoryScrubRound
  dsimp only
  split_ifs
  · exact sends_trans (scrubRead_sends layout _ _)
      (sends_trans (scrubWrite_sends layout _ _ _) (memoryScrubRecordSeu_sends _))
  · exact sends_trans (scrubRead_sends layout _ _) (scrubWrite_sends layout _ _ _)
  · exact scrubRead_sends layout _ _

theorem foldl_memoryScrubRound_sends (indices : List Nat) (acc : BitVec 32 × World) :
    FaultSends acc.2 (indices.foldl (fun acc i => memoryScrubRound layout i acc) acc).2 := by
  induction indices generalizing acc with
  | nil => exact sends_refl acc.2
  | cons index indices ih => exact sends_trans (memoryScrubRound_sends layout index acc) (ih _)

theorem memoryScrub_sends (w : World) : FaultSends w (memoryScrub layout w) := by
  have hrounds := foldl_memoryScrubRound_sends layout (List.range SCRUB_SIZE) (0, w)
  unfold memoryScrub
  dsimp only
  split_ifs
  · rw [uartPuts_eq]
    exact sends_trans hrounds (sends_of_control_eq (uartWrite_control _ _))
  · rw [uartPuts_eq]
    exact sends_trans hrounds (sends_of_control_eq (uartWrite_control _ _))

theorem memoryScrubCycle_sends (w : World) : FaultSends w (memoryScrubCycle layout w) := by
  have hdrain := memoryScrubDrain_sends layout (FAULT_QUEUE_LENGTH + 1) (false, w)
  unfold memoryScrubCycle
  dsimp only
  split_ifs
  · exact sends_trans hdrain (memoryScrub_sends layout _)
  · exact hdrain

theorem injectRandomFault_control (w : World) : (injectRandomFault w).control = w.control := by
  unfold injectRandomFault
  simp only [uartPuts_eq, uartPutHex_eq, uartHexDump_eq, uartWrite_uartWrite]
  split
  · rfl
  · rfl

end Background

section Kicks

variable (layout : Layout)

theorem watchdogKick_refused (taskBit : BitVec 32) (w : World)
    (h : (kickPermitted layout w && w.xWatchdogTaskHandle.isSome) = false) :
    FaultSends w (watchdogKick layout taskBit w) := by
  have hcheck := memoryProtectionCheckAccess_sends layout.watchdogKickImpl 1 MEM_PERM_EXEC w
  unfold watchdogKick
  dsimp only
  split_ifs with hdenied
  · rw [uartPuts_eq]
    exact sends_trans hcheck (sends_of_control_eq (uartWrite_control _ _))
  · have hhandle : w.xWatchdogTaskHandle = none := by
      have hpermitted : kickPermitted layout w = true := by simpa [kickPermitted] using hdenied
      rw [hpermitted, Bool.true_and] at h
      simpa using h
    unfold watchdogKickImpl
    rw [sends_handle hcheck, hhandle]
    exact hcheck

-- A kick that gets through sets its bit and marks the notification received.
theorem watchdogKick_delivered (taskBit : BitVec 32) (w : World)
    (h : (kickPermitted layout w && w.xWatchdogTaskHandle.isSome) = true) :
    ∃ middle, FaultSends w middle ∧
      watchdogKick layout taskBit w =
        { middle with
            watchdogNotification :=
              { value := w.watchdogNotification.value ||| taskBit, state := .Received } } := by
  have hcheck := memoryProtectionCheckAccess_sends layout.watchdogKickImpl 1 MEM_PERM_EXEC w
  obtain ⟨hpermitted, hhandle⟩ := (Bool.and_eq_true _ _).mp h
  refine ⟨_, hcheck, ?_⟩
  unfold watchdogKick
  unfold kickPermitted at hpermitted
  dsimp only
  rw [if_neg (by rw [hpermitted]; exact Bool.true_eq_false.mp)]
  unfold watchdogKickImpl
  rw [sends_handle hcheck, ← sends_slot hcheck]
  cases htask : w.xWatchdogTaskHandle with
  | none => rw [htask] at hhandle; exact absurd hhandle Bool.false_ne_true
  | some task => rfl

end Kicks

section StateMachine

theorem stateMachineBoot_control (allocated : Bool) (w : World) :
    (stateMachineBoot allocated w).control =
      { w.control with
          state := if w.imageIntegrityOk then .Nominal else .Degraded
          queue := if allocated then some BoundedQueue.empty else none } := by
  unfold stateMachineBoot
  dsimp only
  have hok : (systemStateInit allocated w).imageIntegrityOk = w.imageIntegrityOk := rfl
  rw [hok]
  by_cases himage : w.imageIntegrityOk = true
  · rw [if_pos himage, if_pos himage]
    rfl
  · rw [if_neg himage, if_neg himage]
    rfl

end StateMachine

section Commands

variable (layout : Layout)

def operatorRequest : CommandType → Option StateRequest
  | .GoNominal => some ⟨.Nominal, 0x10⟩
  | .GoDegraded => some ⟨.Degraded, 0x10⟩
  | .GoSafe => some ⟨.Safe, 0x10⟩
  | _ => none

theorem eventLogDump_control (w : World) : (eventLogDump w).control = w.control := by
  rw [eventLogDump_eq_uartWrite, uartWrite_control]

theorem commandHandle_sends (cmd : CommandType) (w : World) :
    Sends (fun request => request ∈ faultRequests ∨ operatorRequest cmd = some request) w
      (commandHandle layout cmd w) := by
  have hfault : ∀ request, request ∈ faultRequests →
      request ∈ faultRequests ∨ operatorRequest cmd = some request := fun _ => .inl
  cases cmd with
  | Status => exact sends_of_control_eq rfl
  | GoNominal =>
    exact sends_trans (sends_of_control_eq rfl) (systemStateRequestChange_sends _ _ _ (.inr rfl))
  | GoDegraded =>
    exact sends_trans (sends_of_control_eq rfl) (systemStateRequestChange_sends _ _ _ (.inr rfl))
  | GoSafe =>
    exact sends_trans (sends_of_control_eq rfl) (systemStateRequestChange_sends _ _ _ (.inr rfl))
  | InjectFault =>
    unfold commandHandle
    dsimp only
    split_ifs
    · exact sends_of_control_eq rfl
    · exact sends_of_control_eq (injectRandomFault_control w)
  | ForceScrub =>
    unfold commandHandle
    exact sends_mono hfault (memoryScrub_sends layout w)
  | PrintViolations =>
    unfold commandHandle
    simp only [uartPuts_eq, uartPutDec_eq, uartWrite_uartWrite]
    exact sends_of_control_eq (uartWrite_control _ _)
  | PrintSeuCount =>
    unfold commandHandle
    simp only [uartPuts_eq, uartPutDec_eq, uartWrite_uartWrite]
    exact sends_of_control_eq (uartWrite_control _ _)
  | ToggleFaultInject => exact sends_of_control_eq rfl
  | DumpEventLog => exact sends_of_control_eq (eventLogDump_control w)

end Commands

section Evaluation

-- What the evaluation of a cycle asks for.
def watchdogRequest (task : WatchdogTask) : Option StateRequest :=
  if task.complete then
    if task.currentState = .Degraded then
      if task.successfulCycles + 1 ≥ WATCHDOG_RECOVERY_THRESHOLD then some ⟨.Nominal, 0x03⟩ else none
    else
      none
  else
    match task.currentState with
    | .Boot => some ⟨.Degraded, 0x01⟩
    | .Nominal => some ⟨.Degraded, 0x01⟩
    | .Degraded => some ⟨.Safe, 0x01⟩
    | .Safe => none

-- The counter after the cycle.
def nextSuccessfulCycles (task : WatchdogTask) : BitVec 32 :=
  if task.complete then
    if task.currentState = .Degraded then
      if task.successfulCycles + 1 ≥ WATCHDOG_RECOVERY_THRESHOLD then 0 else task.successfulCycles + 1
    else
      0
  else
    task.successfulCycles

-- What the evaluation records.
def watchdogEntry (task : WatchdogTask) (w : World) : List EventLogEntry :=
  if task.complete then
    []
  else
    [{ type := .WatchdogTimeout
       argA := stateByte task.currentState
       argB := 0
       tick := (xTaskGetTickCount w).setWidth 32
       data := task.expectedBits &&& ~~~task.received }]

def requestOptional (request : Option StateRequest) (w : World) : World :=
  match request with
  | none => w
  | some request => (systemStateRequestChange request.requestedState request.reasonCode w).2

theorem watchdogRequest_complete {task : WatchdogTask} (hcomplete : task.complete = true)
    {request : StateRequest} (h : watchdogRequest task = some request) :
    task.currentState = .Degraded ∧ request = ⟨.Nominal, 0x03⟩ := by
  unfold watchdogRequest at h
  rw [if_pos hcomplete] at h
  split_ifs at h with hdegraded
  exact ⟨hdegraded, (Option.some.inj h).symm⟩

theorem watchdogRequest_incomplete {task : WatchdogTask} (hincomplete : task.complete = false)
    {request : StateRequest} (h : watchdogRequest task = some request) :
    request = ⟨.Degraded, 0x01⟩ ∨ task.currentState = .Degraded ∧ request = ⟨.Safe, 0x01⟩ := by
  unfold watchdogRequest at h
  rw [hincomplete, if_neg Bool.false_ne_true] at h
  cases hstate : task.currentState with
  | Boot =>
    rw [hstate] at h
    exact .inl (Option.some.inj h).symm
  | Nominal =>
    rw [hstate] at h
    exact .inl (Option.some.inj h).symm
  | Degraded =>
    rw [hstate] at h
    exact .inr ⟨rfl, (Option.some.inj h).symm⟩
  | Safe =>
    rw [hstate] at h
    exact absurd h (by simp)

theorem complete_iff (task : WatchdogTask) :
    task.complete = true ↔ task.received &&& task.expectedBits = task.expectedBits := by
  unfold WatchdogTask.complete
  exact beq_iff_eq

theorem watchdogEvaluateCycle_eq (task : WatchdogTask) (w : World) :
    watchdogEvaluateCycle task.received task.expectedBits task.currentState
        (some task.successfulCycles) w =
      (some (nextSuccessfulCycles task), requestOptional (watchdogRequest task) w) := by
  unfold watchdogEvaluateCycle nextSuccessfulCycles watchdogRequest
  dsimp only
  by_cases hcomplete : task.complete = true
  · have hbits := (complete_iff task).mp hcomplete
    rw [if_pos hbits, if_pos hcomplete, if_pos hcomplete]
    split_ifs
    · rfl
    · rfl
    · rfl
  · have hbits : ¬ task.received &&& task.expectedBits = task.expectedBits :=
      fun h => hcomplete ((complete_iff task).mpr h)
    rw [if_neg hbits, if_neg hcomplete, if_neg hcomplete]
    cases task.currentState with
    | Boot => rfl
    | Nominal => rfl
    | Degraded => rfl
    | Safe => rfl

theorem watchdogPrintMissingBits_eq (received expectedBits : BitVec 32) (w : World) :
    ∃ text, watchdogPrintMissingBits received expectedBits w = uartWrite text w := by
  unfold watchdogPrintMissingBits
  simp only [uartPuts_eq]
  split_ifs
  all_goals
    simp only [uartWrite_uartWrite]
    exact ⟨_, rfl⟩

theorem requestOptional_sends (request : Option StateRequest) (w : World) :
    Sends (fun sent => request = some sent) w (requestOptional request w) := by
  cases request with
  | none => exact sends_refl w
  | some request => exact systemStateRequestChange_sends _ _ _ rfl

theorem requestOptional_recorded (request : Option StateRequest) (w : World) :
    (requestOptional request w).eventLog = w.eventLog := by
  cases request with
  | none => rfl
  | some request =>
    unfold requestOptional systemStateRequestChange
    dsimp only
    split
    · rfl
    · rfl

theorem requestOptional_requests (request : Option StateRequest) (w : World) :
    ((requestOptional request w).stateRequests.drop w.stateRequests.length).map Prod.fst =
      request.toList := by
  cases request with
  | none =>
    change (w.stateRequests.drop w.stateRequests.length).map Prod.fst = []
    rw [List.drop_length]
    rfl
  | some request =>
    unfold requestOptional systemStateRequestChange
    dsimp only
    split
    · dsimp only
      rw [List.drop_left]
      rfl
    · dsimp only
      rw [List.drop_left]
      rfl

-- The world in which the evaluation makes its request.
def beforeRequest (task : WatchdogTask) (w : World) : World :=
  if task.complete then w else
    w |> watchdogPrintMissingBits task.received task.expectedBits
      |> eventLogRecordWatchdogTimeout (task.expectedBits &&& ~~~task.received) task.currentState

theorem watchdogEndCycle_eq (task : WatchdogTask) (w : World) :
    watchdogEndCycle task w =
      (nextSuccessfulCycles task, requestOptional (watchdogRequest task) (beforeRequest task w)) := by
  unfold watchdogEndCycle
  dsimp only
  rw [watchdogEvaluateCycle_eq]
  rfl

theorem beforeRequest_frame (task : WatchdogTask) (w : World) :
    (beforeRequest task w).control = w.control ∧
      (beforeRequest task w).stateRequests = w.stateRequests ∧
      (beforeRequest task w).eventLog.recorded = w.eventLog.recorded ++ watchdogEntry task w := by
  unfold beforeRequest watchdogEntry
  split_ifs
  · exact ⟨rfl, rfl, (List.append_nil _).symm⟩
  · obtain ⟨text, htext⟩ := watchdogPrintMissingBits_eq task.received task.expectedBits w
    rw [htext]
    exact ⟨rfl, rfl, rfl⟩

theorem watchdogEndCycle_sends (task : WatchdogTask) (w : World) :
    Sends (fun sent => watchdogRequest task = some sent) w (watchdogEndCycle task w).2 := by
  rw [watchdogEndCycle_eq]
  exact sends_trans (sends_of_control_eq (beforeRequest_frame task w).1) (requestOptional_sends _ _)

-- A request waits once more at most for each time it is asked for.
theorem requestOptional_count (asked : Option StateRequest) (w : World) (request : StateRequest) :
    (requestOptional asked w).pendingRequests.count request ≤
      w.pendingRequests.count request + asked.toList.count request := by
  cases asked with
  | none => exact Nat.le_refl _
  | some asked =>
    unfold requestOptional World.pendingRequests
    dsimp only
    cases hqueue : w.xStateRequestQueue with
    | none =>
      rw [systemStateRequestChange_none _ _ hqueue, hqueue]
      exact Nat.zero_le _
    | some queue =>
      rw [systemStateRequestChange_some _ _ queue hqueue]
      dsimp only
      rw [queue.send_items, List.count_append]
      split
      · exact Nat.le_refl _
      · exact Nat.add_le_add_left (Nat.zero_le _) _

theorem watchdogEndCycle_count (task : WatchdogTask) (w : World) (request : StateRequest) :
    (watchdogEndCycle task w).2.pendingRequests.count request ≤
      w.pendingRequests.count request + (watchdogRequest task).toList.count request := by
  have hqueue : (beforeRequest task w).xStateRequestQueue = w.xStateRequestQueue :=
    congrArg Control.queue (beforeRequest_frame task w).1
  have hpending : (beforeRequest task w).pendingRequests = w.pendingRequests := by
    unfold World.pendingRequests
    rw [hqueue]
  rw [watchdogEndCycle_eq, ← hpending]
  exact requestOptional_count _ _ request

-- A cycle that ends complete records nothing; one that does not records one
-- timeout.
theorem watchdogEndCycle_logged (task : WatchdogTask) (w : World) :
    (watchdogEndCycle task w).2.eventLog.recorded.drop w.eventLog.recorded.length =
      watchdogEntry task w := by
  rw [watchdogEndCycle_eq, requestOptional_recorded, (beforeRequest_frame task w).2.2, List.drop_left]

theorem watchdogEndCycle_requested (task : WatchdogTask) (w : World) :
    ((watchdogEndCycle task w).2.stateRequests.drop w.stateRequests.length).map Prod.fst =
      (watchdogRequest task).toList := by
  have hframe := (beforeRequest_frame task w).2.1
  rw [watchdogEndCycle_eq, ← hframe]
  exact requestOptional_requests _ _

end Evaluation

end SpaceBaremetal.Fdir

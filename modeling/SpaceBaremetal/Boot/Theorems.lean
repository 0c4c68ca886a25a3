import SpaceBaremetal.Boot
import SpaceBaremetal.Scheduler.Requests

namespace SpaceBaremetal

section Main

variable {image : Image} {allocations : Allocations} {w w' : World}

-- Creating the tasks in turn stops at the first one that fails.
theorem foldlM_createTask (tasks : List Task) (w : World) :
    tasks.foldlM (createTask allocations) w =
      if ∀ task ∈ tasks, allocations.task task = true then
        .ok w
      else
        .error (systemHalt "xTaskCreate failed" w) := by
  induction tasks with
  | nil => rfl
  | cons task tasks ih =>
    rw [List.foldlM_cons]
    cases htask : allocations.task task with
    | false =>
      have hcreate :
          createTask allocations w task = .error (systemHalt "xTaskCreate failed" w) := by
        rw [createTask, if_pos htask]
      rw [hcreate, if_neg]
      · rfl
      · intro hall
        exact Bool.noConfusion (htask.symm.trans (hall task List.mem_cons_self))
    | true =>
      have hcreate : createTask allocations w task = .ok w := by
        rw [createTask, if_neg (by simp [htask])]
      rw [hcreate]
      change tasks.foldlM (createTask allocations) w = _
      rw [ih]
      simp only [List.forall_mem_cons, htask, true_and]

-- What `main` has set up when it creates the tasks.
def preparedWorld (image : Image) (allocations : Allocations) (w : World) : World :=
  let w := { w with xFaultQueue := some BoundedQueue.empty }
    |> commandInit allocations.commandQueue
    |> eventLogInit
  let verified := imageIntegrityVerify image.memory image.region image.crcExpected w
  let w :=
    if verified.1 = false then
      eventLogRecordImageCrcFail verified.2.imageIntegrityExpected
        verified.2.imageIntegrityComputed verified.2
    else
      verified.2
  w |> memoryProtectionInit
    |> memoryProtectionRegisterCriticalText image.layout
    |> uartPuts "\r\n=== FreeRTOS Migration Started ===\r\n"
    |> faultInjectInit

theorem main_of_faultQueue (hfault : allocations.faultQueue = true) :
    main image allocations w =
      if ∀ task ∈ taskConfigs, allocations.task task = true then
        .ok (uartPuts "Starting FreeRTOS scheduler...\r\n" (preparedWorld image allocations w))
      else
        .error (systemHalt "xTaskCreate failed" (preparedWorld image allocations w)) := by
  obtain ⟨faultQueue, commandQueue, stateQueue, task⟩ := allocations
  subst hfault
  let allocations : Allocations := ⟨true, commandQueue, stateQueue, task⟩
  change (taskConfigs.foldlM (createTask allocations) (preparedWorld image allocations w) >>=
    fun w => pure (uartPuts "Starting FreeRTOS scheduler...\r\n" w)) = _
  rw [foldlM_createTask]
  split_ifs
  · rfl
  · rfl

theorem main_of_no_faultQueue (image : Image) (w : World)
    (hfault : allocations.faultQueue = false) :
    ∃ w', main image allocations w = .error w' := by
  obtain ⟨faultQueue, commandQueue, stateQueue, task⟩ := allocations
  subst hfault
  exact ⟨_, rfl⟩

-- What the tasks find of it: the handles of the queues and the slot of the
-- watchdog's notification.
def kernelView (w : World) : QueueHandles × TaskNotification := (w.handles, w.watchdogNotification)

theorem imageIntegrityVerify_kernelView (memory : Memory) (region : ImageRegion)
    (crcExpected : BitVec 32) (w : World) :
    kernelView (imageIntegrityVerify memory region crcExpected w).2 = kernelView w := by
  unfold imageIntegrityVerify
  dsimp only
  split_ifs
  · rfl
  · rw [uartPutHex_eq]
    rfl
  · rw [uartPutHex_eq, uartPutHex_eq]
    rfl

theorem memoryProtectionRegisterCriticalText_kernelView (layout : Layout) (w : World) :
    kernelView (memoryProtectionRegisterCriticalText layout w) = kernelView w := by
  unfold memoryProtectionRegisterCriticalText
  split_ifs
  · rfl
  · unfold memoryProtectionProtectRegion memoryProtectionAddRegion
    split_ifs
    · rfl
    · rfl

theorem preparedWorld_kernelView (image : Image) (allocations : Allocations) (w : World) :
    kernelView (preparedWorld image allocations w) =
      ({ w.handles with faultQueue := true, commandQueue := allocations.commandQueue },
        w.watchdogNotification) := by
  let queued := commandInit allocations.commandQueue
    { w with xFaultQueue := some BoundedQueue.empty }
  let verified := imageIntegrityVerify image.memory image.region image.crcExpected
    (eventLogInit queued)
  let logged :=
    if verified.1 = false then
      eventLogRecordImageCrcFail verified.2.imageIntegrityExpected
        verified.2.imageIntegrityComputed verified.2
    else
      verified.2
  calc kernelView (preparedWorld image allocations w)
      = kernelView (memoryProtectionRegisterCriticalText image.layout
          (memoryProtectionInit logged)) := rfl
    _ = kernelView (memoryProtectionInit logged) :=
        memoryProtectionRegisterCriticalText_kernelView _ _
    _ = kernelView logged := rfl
    _ = kernelView verified.2 := by
        unfold logged
        split_ifs
        · rfl
        · rfl
    _ = kernelView (eventLogInit queued) := imageIntegrityVerify_kernelView _ _ _ _
    _ = kernelView queued := rfl
    _ = _ := by
        unfold queued
        cases allocations.commandQueue
        · rfl
        · rfl

end Main

namespace System

section Receive

variable {layout : Layout} {allocated : Bool} {received : Option Char} {w : World} {s s' : System}
  {task : Task}

-- A task calls `xQueueReceive` on a command or state-request queue that is NULL.
def ReceivesOnNull (s : System) (task : Task) : Prop :=
  s.Runs task ∧ ∃ site : Site task, s.thread task = .Runs (.Return site) ∧
    site.call.nullHandle s.world = true ∧ site.call ≠ .ReceiveFault

theorem answerRequest_commandQueue (request : StateRequest) (w : World) :
    (answerRequest request w).2.handles.commandQueue = w.handles.commandQueue := by
  cases hqueue : w.xStateRequestQueue with
  | none => rw [(answerRequest_of_none request hqueue).2]
  | some queue => rw [(answerRequest_of_some request hqueue).2]

-- No step creates or deletes the command queue.
theorem advance_commandQueue :
    (advance layout allocated received task s).world.handles.commandQueue =
      s.world.handles.commandQueue := by
  by_cases hcreates : task = .StateMachine ∧ s.thread .StateMachine = .Created
  · obtain ⟨rfl, hcreated⟩ := hcreates
    unfold advance
    rw [hcreated]
    rfl
  · have heffect : Effect task s (advance layout allocated received task s) :=
      advance_effect fun htask hcreated => hcreates ⟨htask, hcreated⟩
    cases heffect with
    | Keeps handles calls taken => rw [handles]
    | Answers request handles calls taken =>
      rw [handles]
      exact answerRequest_commandQueue request s.world
    | Takes queue rest request hqueue hreceive handles calls taken => rw [handles]

theorem reachable_commandQueue (hreach : Reachable layout allocated w s) :
    s.world.handles.commandQueue = w.handles.commandQueue := by
  have hinit : ∀ s, s = start w → s.world.handles.commandQueue = w.handles.commandQueue := by
    rintro s rfl
    rfl
  refine Transition.invariant_of_step hinit ?_ hreach
  intro s s' hkept hstep
  cases hstep with
  | Tick halted => exact hkept
  | Advance task received halted hruns => exact advance_commandQueue.trans hkept

-- With both queues created no receive is on a NULL handle.
theorem not_receivesOnNull (hcommand : w.handles.commandQueue = true)
    (hnull : w.xStateRequestQueue = none) (hreach : Reachable layout true w s) :
    ¬s.ReceivesOnNull task := by
  rintro ⟨hruns, site, hthread, hnullHandle, hfault⟩
  have hserved := reachable_served hnull hreach
  cases site with
  | StateMachineReceive =>
    have hqueue : s.world.xStateRequestQueue = none := Option.isNone_iff_eq_none.mp hnullHandle
    have hcreated := hserved.created_iff.mpr hqueue
    rw [hthread] at hcreated
    simp at hcreated
  | CommandHandlerReceive =>
    have hqueue : s.world.xCommandQueue = none := Option.isNone_iff_eq_none.mp hnullHandle
    have hsome : s.world.xCommandQueue.isSome = true :=
      (reachable_commandQueue hreach).trans hcommand
    rw [hqueue] at hsome
    exact Bool.noConfusion hsome
  | MemScrubReceive hadEvent => exact hfault rfl
  | _ => exact Bool.noConfusion hnullHandle

-- Without its queue the state machine gets to its first receive nevertheless.
theorem exists_receivesOnNull (layout : Layout) {w : World}
    (hslot : w.watchdogNotification.state ≠ .Received) :
    ∃ s, Reachable layout false w s ∧ s.ReceivesOnNull .StateMachine := by
  obtain ⟨s, hsteps, halted, hwatchdog, hthread, hothers, hhandles, hcommands⟩ :=
    start_steps_stateMachine layout false hslot
  have hqueue : s.world.xStateRequestQueue = none := congrArg QueueHandles.stateRequests hhandles
  have hruns : s.Runs .StateMachine := stateMachine_runs (ready_of_runs hthread) hwatchdog
  refine ⟨s, ⟨_, rfl, hsteps⟩, hruns, .StateMachineReceive, hthread, ?_, ?_⟩
  · exact Option.isNone_iff_eq_none.mpr hqueue
  · exact fun hcall => KernelCall.noConfusion hcall

end Receive

end System

section AllOrNothing

def Allocations.Complete (allocations : Allocations) : Prop :=
  allocations.faultQueue = true ∧ allocations.commandQueue = true ∧
    ∀ task ∈ taskConfigs, allocations.task task = true

-- `main` reaches the scheduler only with everything created, and halts otherwise.
def BootsAllOrNothing (image : Image) (allocations : Allocations) : Prop :=
  (∀ w, main image allocations startupWorld = .ok w → allocations.Complete) ∧
    (¬allocations.Complete → ∃ w, main image allocations startupWorld = .error w)

def NeverReceivesOnNull (image : Image) (allocations : Allocations) : Prop :=
  ∀ w, main image allocations startupWorld = .ok w →
    ∀ s, System.Reachable image.layout allocations.stateQueue w s → ∀ task, ¬s.ReceivesOnNull task

variable {image : Image} {allocations : Allocations} {w : World}

theorem main_halts (image : Image) (h : allocations.faultQueue = false ∨
    ∃ task ∈ taskConfigs, allocations.task task = false) :
    ∃ w, main image allocations startupWorld = .error w := by
  cases hfault : allocations.faultQueue with
  | false => exact main_of_no_faultQueue image startupWorld hfault
  | true =>
    obtain hnone | ⟨task, hmem, htask⟩ := h
    · exact Bool.noConfusion (hnone.symm.trans hfault)
    · rw [main_of_faultQueue hfault, if_neg]
      · exact ⟨_, rfl⟩
      · intro hall
        exact Bool.noConfusion (htask.symm.trans (hall task hmem))

-- What holds of the world in which `main` starts the scheduler.
theorem main_ok (h : main image allocations startupWorld = .ok w) :
    allocations.faultQueue = true ∧ (∀ task ∈ taskConfigs, allocations.task task = true) ∧
      w.handles = { startupWorld.handles with
        faultQueue := true
        commandQueue := allocations.commandQueue } ∧
      w.watchdogNotification = startupWorld.watchdogNotification := by
  cases hfault : allocations.faultQueue with
  | false =>
    obtain ⟨w', hhalts⟩ := main_of_no_faultQueue image startupWorld hfault
    rw [hhalts] at h
    cases h
  | true =>
    rw [main_of_faultQueue hfault] at h
    split_ifs at h with hall
    injection h with h
    subst h
    have hview := preparedWorld_kernelView image allocations startupWorld
    exact ⟨rfl, hall, congrArg Prod.fst hview, congrArg Prod.snd hview⟩

theorem main_of_tasks (image : Image) (hfault : allocations.faultQueue = true)
    (htasks : ∀ task ∈ taskConfigs, allocations.task task = true) :
    ∃ w, main image allocations startupWorld = .ok w := by
  rw [main_of_faultQueue hfault, if_pos htasks]
  exact ⟨_, rfl⟩

theorem checked_succeed (h : ¬(allocations.faultQueue = false ∨
    ∃ task ∈ taskConfigs, allocations.task task = false)) :
    allocations.faultQueue = true ∧ ∀ task ∈ taskConfigs, allocations.task task = true := by
  push Not at h
  simpa using h

theorem stateQueue_of_neverReceivesOnNull (hmain : main image allocations startupWorld = .ok w)
    (hnever : NeverReceivesOnNull image allocations) : allocations.stateQueue = true := by
  cases hstate : allocations.stateQueue with
  | true => rfl
  | false =>
    obtain ⟨-, -, -, hslot⟩ := main_ok hmain
    have hempty : w.watchdogNotification.state ≠ .Received := by
      rw [hslot]
      decide
    obtain ⟨s, hreach, hreceives⟩ := System.exists_receivesOnNull image.layout hempty
    rw [← hstate] at hreach
    exact absurd hreceives (hnever w hmain s hreach .StateMachine)

theorem all_or_nothing_of_queues (hcommand : allocations.commandQueue = true)
    (hstate : allocations.stateQueue = true) :
    BootsAllOrNothing image allocations ∧ NeverReceivesOnNull image allocations := by
  refine ⟨⟨?_, ?_⟩, ?_⟩
  · intro w hmain
    obtain ⟨hfault, htasks, -, -⟩ := main_ok hmain
    exact ⟨hfault, hcommand, htasks⟩
  · intro hincomplete
    apply main_halts image
    by_contra hunfailed
    obtain ⟨hfault, htasks⟩ := checked_succeed hunfailed
    exact hincomplete ⟨hfault, hcommand, htasks⟩
  · intro w hmain s hreach task
    obtain ⟨-, -, hhandles, -⟩ := main_ok hmain
    have hcreated : w.handles.commandQueue = true := by
      rw [hhandles]
      exact hcommand
    have hnull : w.xStateRequestQueue = none := congrArg QueueHandles.stateRequests hhandles
    rw [hstate] at hreach
    exact System.not_receivesOnNull hcreated hnull hreach

theorem all_or_nothing_of_halt (hhalts : main image allocations startupWorld = .error w) :
    BootsAllOrNothing image allocations ∧ NeverReceivesOnNull image allocations := by
  refine ⟨⟨?_, fun _ => ⟨w, hhalts⟩⟩, ?_⟩
  · intro w' hmain
    rw [hhalts] at hmain
    cases hmain
  · intro w' hmain
    rw [hhalts] at hmain
    cases hmain

-- Two allocations of the start-up have no check: that of the command queue in
-- `command_init` and that of the queue that the state machine creates when it
-- first runs. The kernel therefore never starts partially exactly when both
-- succeed or a checked one fails.
theorem boot_all_or_nothing_iff (image : Image) (allocations : Allocations) :
    BootsAllOrNothing image allocations ∧ NeverReceivesOnNull image allocations ↔
      (allocations.commandQueue = true ∧ allocations.stateQueue = true) ∨
        allocations.faultQueue = false ∨ ∃ task ∈ taskConfigs, allocations.task task = false := by
  constructor
  · rintro ⟨⟨hcomplete, -⟩, hnever⟩
    by_cases hchecked : allocations.faultQueue = false ∨
        ∃ task ∈ taskConfigs, allocations.task task = false
    · exact .inr hchecked
    · obtain ⟨hfault, htasks⟩ := checked_succeed hchecked
      obtain ⟨w, hmain⟩ := main_of_tasks image hfault htasks
      obtain ⟨-, hcommand, -⟩ := hcomplete w hmain
      exact .inl ⟨hcommand, stateQueue_of_neverReceivesOnNull hmain hnever⟩
  · rintro (⟨hcommand, hstate⟩ | hchecked)
    · exact all_or_nothing_of_queues hcommand hstate
    · obtain ⟨w, hhalts⟩ := main_halts image hchecked
      exact all_or_nothing_of_halt hhalts

-- An image of three words with the slot in the middle, and the memory full when
-- `command_init` asks for its queue.
def smallImage : Image where
  layout := startupLayout
  memory := fun _ => 0
  region := { start := 0x80000000, slot := 0x80000004, end_ := 0x8000000C }
  crcExpected := 0

def noCommandQueue : Allocations where
  faultQueue := true
  commandQueue := false
  stateQueue := true
  task := fun _ => true

theorem boots_without_command_queue :
    (∃ w, main smallImage noCommandQueue startupWorld = .ok w ∧ w.xCommandQueue = none) ∧
      ¬BootsAllOrNothing smallImage noCommandQueue := by
  have htasks : ∀ task ∈ taskConfigs, noCommandQueue.task task = true := fun _ _ => rfl
  obtain ⟨w, hmain⟩ := main_of_tasks smallImage rfl htasks
  obtain ⟨-, -, hhandles, -⟩ := main_ok hmain
  refine ⟨⟨w, hmain, ?_⟩, ?_⟩
  · have hnone : w.xCommandQueue.isSome = false := congrArg QueueHandles.commandQueue hhandles
    exact Option.isNone_iff_eq_none.mp (Option.isSome_eq_false_iff.mp hnone)
  · rintro ⟨hcomplete, -⟩
    exact Bool.noConfusion (hcomplete w hmain).2.1

end AllOrNothing

end SpaceBaremetal

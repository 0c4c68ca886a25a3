import SpaceBaremetal.Lib.BoundedTable
import SpaceBaremetal.Telemetry

namespace SpaceBaremetal

open BoundedTable

-- The world in which a sequence of calls ends or hangs.
def worldLeft : Except DebugWorld DebugWorld → DebugWorld
  | .ok s => s
  | .error s => s

def DebugWorld.entriesOf (s : DebugWorld) (handle : TaskAddress) : List TelemetryTaskEntry :=
  s.taskEntries.filter (·.handle = handle)

def idleEntry (kernel : KernelTasks) : TelemetryTaskEntry :=
  telemetryEntry kernel.idle "Idle" configMINIMAL_STACK_SIZE

def timerEntry (kernel : KernelTasks) : TelemetryTaskEntry :=
  telemetryEntry kernel.timer "TmrSvc" configTIMER_TASK_STACK_DEPTH

-- The first call of `telemetry_register_kernel_tasks` in a sequence, with the
-- calls around it.
def FirstKernelCall (calls done rest : List TelemetryCall) : Prop :=
  calls = done ++ .RegisterKernelTasks :: rest ∧ .RegisterKernelTasks ∉ done

-- The kernel's tasks get into the table once, and no assertion fails on the way.
structure KernelTasksOnce (kernel : KernelTasks) (before after : List TelemetryCall) (w : World) :
    Prop where
  no_assertion : ∃ s, telemetryRun kernel before after w = .ok s
  bounded : (worldLeft (telemetryRun kernel before after w)).taskEntries.length ≤
    TELEMETRY_MAX_TASKS
  idle : ∀ done rest found s, FirstKernelCall after done rest →
    telemetryRun kernel before done w = .ok found → telemetryRun kernel before after w = .ok s →
      found.taskEntries.length < TELEMETRY_MAX_TASKS → s.entriesOf kernel.idle = [idleEntry kernel]
  timer : ∀ done rest found s, FirstKernelCall after done rest →
    telemetryRun kernel before done w = .ok found → telemetryRun kernel before after w = .ok s →
      found.taskEntries.length + 1 < TELEMETRY_MAX_TASKS →
        s.entriesOf kernel.timer = [timerEntry kernel]

def TelemetryCall.entry? : TelemetryCall → Option TelemetryTaskEntry
  | .RegisterTask handle name allocatedWords => some (telemetryEntry handle name allocatedWords)
  | .RegisterKernelTasks => none

-- What the callers of `telemetry_register_task` ask for.
def givenEntries (calls : List TelemetryCall) : List TelemetryTaskEntry :=
  calls.filterMap TelemetryCall.entry?

-- Of these, the ones that find room when two more come between.
def givenAround (first rest : List TelemetryCall) : List TelemetryTaskEntry :=
  givenEntries first ++
    (givenEntries rest).take (TELEMETRY_MAX_TASKS - 2 - (givenEntries first).length)

-- The kernel's tasks are left to `telemetry_register_kernel_tasks`, and that to
-- the time after the start of the scheduler.
structure KernelTasksLeft (kernel : KernelTasks) (before after : List TelemetryCall) : Prop where
  started : .RegisterKernelTasks ∉ before
  idle : ∀ done rest, FirstKernelCall after done rest →
    (givenEntries (before ++ done)).length < TELEMETRY_MAX_TASKS →
      ∀ entry ∈ givenAround (before ++ done) rest, entry.handle ≠ kernel.idle
  timer : ∀ done rest, FirstKernelCall after done rest →
    (givenEntries (before ++ done)).length + 1 < TELEMETRY_MAX_TASKS →
      ∀ entry ∈ givenAround (before ++ done) rest, entry.handle ≠ kernel.timer

section Calls

variable (handle : TaskAddress) (name : String) (allocatedWords : BitVec 16) (s : DebugWorld)

-- The table holds what was registered first.
theorem telemetryRegisterTask_taskEntries :
    (telemetryRegisterTask handle name allocatedWords s).taskEntries =
      enter TELEMETRY_MAX_TASKS s.taskEntries [telemetryEntry handle name allocatedWords] := by
  unfold telemetryRegisterTask
  split
  · rename_i hfull
    exact (enter_singleton_of_full (Nat.le_antisymm s.entries_le hfull) _).symm
  · rename_i hroom
    exact (enter_singleton_of_lt (Nat.not_le.mp hroom) _).symm

-- A registration leaves the latch and the kernel's handles alone.
theorem telemetryRegisterTask_frame :
    (telemetryRegisterTask handle name allocatedWords s).kernelTasksRegistered =
        s.kernelTasksRegistered ∧
      (telemetryRegisterTask handle name allocatedWords s).xIdleTaskHandle = s.xIdleTaskHandle ∧
      (telemetryRegisterTask handle name allocatedWords s).xTimerTaskHandle =
        s.xTimerTaskHandle := by
  unfold telemetryRegisterTask
  split <;> exact ⟨rfl, rfl, rfl⟩

-- What a call does to the world `s`, apart from the console, when it adds the
-- given entries.
structure Registers (entries : List TelemetryTaskEntry) (s s' : DebugWorld) : Prop where
  taskEntries : s'.taskEntries = enter TELEMETRY_MAX_TASKS s.taskEntries entries
  xIdleTaskHandle : s'.xIdleTaskHandle = s.xIdleTaskHandle
  xTimerTaskHandle : s'.xTimerTaskHandle = s.xTimerTaskHandle

theorem Registers.refl : Registers [] s s :=
  ⟨(enter_nil s.entries_le).symm, rfl, rfl⟩

theorem Registers.trans {entries more : List TelemetryTaskEntry} {s s' s'' : DebugWorld}
    (h : Registers entries s s') (h' : Registers more s' s'') :
    Registers (entries ++ more) s s'' where
  taskEntries := by rw [h'.taskEntries, h.taskEntries, enter_enter]
  xIdleTaskHandle := h'.xIdleTaskHandle.trans h.xIdleTaskHandle
  xTimerTaskHandle := h'.xTimerTaskHandle.trans h.xTimerTaskHandle

theorem telemetryRegisterTask_registers :
    Registers [telemetryEntry handle name allocatedWords] s
      (telemetryRegisterTask handle name allocatedWords s) := by
  obtain ⟨-, hidle, htimer⟩ := telemetryRegisterTask_frame handle name allocatedWords s
  exact ⟨telemetryRegisterTask_taskEntries handle name allocatedWords s, hidle, htimer⟩

theorem telemetryRegisterKernelTasks_latched (h : s.kernelTasksRegistered = true) :
    telemetryRegisterKernelTasks s = .ok s := by
  rw [telemetryRegisterKernelTasks, if_pos h]

-- The getter of the Idle task asserts that there is one.
theorem telemetryRegisterKernelTasks_asserts (h : s.kernelTasksRegistered = false)
    (hidle : s.xIdleTaskHandle = 0) : telemetryRegisterKernelTasks s = .error s := by
  have hget : xTaskGetIdleTaskHandle s = .error s := by
    rw [xTaskGetIdleTaskHandle, configASSERT, if_neg (not_not.mpr hidle)]
    rfl
  rw [telemetryRegisterKernelTasks, if_neg (by rw [h]; exact Bool.false_ne_true), hget]
  rfl

-- With the scheduler running both getters return, and both tasks are entered.
theorem telemetryRegisterKernelTasks_first (kernel : KernelTasks)
    (h : s.kernelTasksRegistered = false) (hidle : s.xIdleTaskHandle = kernel.idle)
    (htimer : s.xTimerTaskHandle = kernel.timer) :
    ∃ s', telemetryRegisterKernelTasks s = .ok s' ∧ s'.kernelTasksRegistered = true ∧
      Registers [idleEntry kernel, timerEntry kernel] s s' := by
  have hidleNe : s.xIdleTaskHandle ≠ 0 := hidle ▸ kernel.idle_ne
  have hgetIdle : xTaskGetIdleTaskHandle s = .ok kernel.idle := by
    rw [xTaskGetIdleTaskHandle, configASSERT, if_pos hidleNe, hidle]
    rfl
  let entered := telemetryRegisterTask kernel.idle "Idle" configMINIMAL_STACK_SIZE s
  have hentered : Registers [idleEntry kernel] s entered :=
    telemetryRegisterTask_registers kernel.idle "Idle" configMINIMAL_STACK_SIZE s
  have htimerEntered : entered.xTimerTaskHandle = kernel.timer :=
    hentered.xTimerTaskHandle.trans htimer
  have hgetTimer : xTimerGetTimerDaemonTaskHandle entered = .ok kernel.timer := by
    rw [xTimerGetTimerDaemonTaskHandle, configASSERT,
      if_pos (htimerEntered ▸ kernel.timer_ne), htimerEntered]
    rfl
  have hboth := hentered.trans (telemetryRegisterTask_registers kernel.timer "TmrSvc"
    configTIMER_TASK_STACK_DEPTH entered)
  refine ⟨{ telemetryRegisterTask kernel.timer "TmrSvc" configTIMER_TASK_STACK_DEPTH entered with
    kernelTasksRegistered := true }, ?_, rfl, hboth.taskEntries, hboth.xIdleTaskHandle,
    hboth.xTimerTaskHandle⟩
  rw [telemetryRegisterKernelTasks, if_neg (by rw [h]; exact Bool.false_ne_true), hgetIdle]
  dsimp only [bind, Except.bind]
  rw [if_pos kernel.idle_ne, hgetTimer]
  dsimp only
  rw [if_pos kernel.timer_ne]
  rfl

end Calls

section Runs

variable (kernel : KernelTasks) {before done : List TelemetryCall} (rest : List TelemetryCall)
  (w : World)

theorem givenEntries_append (first : List TelemetryCall) :
    givenEntries (first ++ rest) = givenEntries first ++ givenEntries rest :=
  List.filterMap_append

theorem telemetryCalls_append (first : List TelemetryCall) (s : DebugWorld) :
    telemetryCalls (first ++ rest) s = telemetryCalls first s >>= telemetryCalls rest :=
  List.foldlM_append

theorem telemetryCalls_cons (call : TelemetryCall) (s : DebugWorld) :
    telemetryCalls (call :: rest) s = call.run s >>= telemetryCalls rest :=
  List.foldlM_cons

theorem telemetryRun_append (before done : List TelemetryCall) :
    telemetryRun kernel before (done ++ rest) w =
      telemetryRun kernel before done w >>= telemetryCalls rest := by
  simp only [telemetryRun, telemetryCalls_append, bind_assoc]

-- Calls that do not enter the kernel's tasks enter what they were given: either
-- these are in the table already, or only other tasks are registered.
theorem telemetryCalls_given (calls : List TelemetryCall) (s : DebugWorld)
    (h : s.kernelTasksRegistered = true ∨ .RegisterKernelTasks ∉ calls) :
    ∃ s', telemetryCalls calls s = .ok s' ∧
      s'.kernelTasksRegistered = s.kernelTasksRegistered ∧ Registers (givenEntries calls) s s' := by
  induction calls generalizing s with
  | nil => exact ⟨s, rfl, rfl, Registers.refl s⟩
  | cons call calls ih =>
    have hrest (next : DebugWorld) (hnext : next.kernelTasksRegistered = s.kernelTasksRegistered) :
        next.kernelTasksRegistered = true ∨ .RegisterKernelTasks ∉ calls := by
      rw [hnext]
      exact h.imp_right fun hnot hmem => hnot (List.mem_cons_of_mem _ hmem)
    cases call with
    | RegisterTask handle name allocatedWords =>
      obtain ⟨hlatch, -, -⟩ := telemetryRegisterTask_frame handle name allocatedWords s
      obtain ⟨s', hrun, hlatch', hregisters⟩ := ih _ (hrest _ hlatch)
      refine ⟨s', ?_, hlatch'.trans hlatch, ?_⟩
      · rw [telemetryCalls_cons]
        exact hrun
      · exact (telemetryRegisterTask_registers handle name allocatedWords s).trans hregisters
    | RegisterKernelTasks =>
      have hlatched : s.kernelTasksRegistered = true :=
        h.resolve_right fun hnot => hnot List.mem_cons_self
      obtain ⟨s', hrun, hlatch', hregisters⟩ := ih s (hrest s rfl)
      refine ⟨s', ?_, hlatch', hregisters⟩
      rw [telemetryCalls_cons, TelemetryCall.run, telemetryRegisterKernelTasks_latched s hlatched]
      exact hrun

-- Before the scheduler starts there is no Idle task to ask for.
theorem telemetryCalls_asserts (calls : List TelemetryCall) (s : DebugWorld)
    (h : s.kernelTasksRegistered = false) (hidle : s.xIdleTaskHandle = 0)
    (hcall : .RegisterKernelTasks ∈ calls) : ∃ s', telemetryCalls calls s = .error s' := by
  induction calls generalizing s with
  | nil => exact absurd hcall List.not_mem_nil
  | cons call calls ih =>
    rw [telemetryCalls_cons]
    cases call with
    | RegisterTask handle name allocatedWords =>
      obtain ⟨hlatch, hidle', -⟩ := telemetryRegisterTask_frame handle name allocatedWords s
      have hlater : .RegisterKernelTasks ∈ calls := by simpa using hcall
      exact ih _ (hlatch.trans h) (hidle'.trans hidle) hlater
    | RegisterKernelTasks =>
      refine ⟨s, ?_⟩
      rw [TelemetryCall.run, telemetryRegisterKernelTasks_asserts s h hidle]
      rfl

-- As long as the kernel's tasks are not asked for, the table holds the first
-- tasks that were given.
theorem telemetryRun_given (hbefore : .RegisterKernelTasks ∉ before)
    (hdone : .RegisterKernelTasks ∉ done) :
    ∃ found, telemetryRun kernel before done w = .ok found ∧ found.kernelTasksRegistered = false ∧
      found.xIdleTaskHandle = kernel.idle ∧ found.xTimerTaskHandle = kernel.timer ∧
      found.taskEntries = enter TELEMETRY_MAX_TASKS [] (givenEntries (before ++ done)) := by
  obtain ⟨s, hrun, hlatch, hs⟩ := telemetryCalls_given before (debugStart w) (.inr hbefore)
  obtain ⟨found, hrun', hlatch', hfound⟩ :=
    telemetryCalls_given done (vTaskStartScheduler kernel s) (.inr hdone)
  refine ⟨found, ?_, hlatch'.trans hlatch, hfound.xIdleTaskHandle, hfound.xTimerTaskHandle, ?_⟩
  · rw [telemetryRun, hrun]
    exact hrun'
  · have hstart : (vTaskStartScheduler kernel s).taskEntries = s.taskEntries := rfl
    have hempty : (debugStart w).taskEntries = [] := rfl
    rw [hfound.taskEntries, hstart, hs.taskEntries, hempty, enter_enter, givenEntries_append]

-- The first call that asks for them puts them right behind.
theorem telemetryRun_first (hbefore : .RegisterKernelTasks ∉ before)
    (hdone : .RegisterKernelTasks ∉ done) :
    ∃ s, telemetryRun kernel before (done ++ .RegisterKernelTasks :: rest) w = .ok s ∧
      s.taskEntries = enter TELEMETRY_MAX_TASKS (givenEntries (before ++ done))
        (idleEntry kernel :: timerEntry kernel :: givenEntries rest) := by
  obtain ⟨found, hrun, hlatch, hidle, htimer, hfound⟩ :=
    telemetryRun_given kernel w hbefore hdone
  obtain ⟨entered, hcall, hlatch', hentered⟩ :=
    telemetryRegisterKernelTasks_first found kernel hlatch hidle htimer
  obtain ⟨s, hrun', -, hs⟩ := telemetryCalls_given rest entered (.inl hlatch')
  refine ⟨s, ?_, ?_⟩
  · rw [telemetryRun_append, hrun]
    change telemetryCalls (.RegisterKernelTasks :: rest) found = _
    rw [telemetryCalls_cons, TelemetryCall.run, hcall]
    exact hrun'
  · rw [hs.taskEntries, hentered.taskEntries, hfound, enter_enter, enter_enter]
    rfl

-- Calling for the kernel's tasks too early hangs.
theorem telemetryRun_asserts (after : List TelemetryCall)
    (hbefore : .RegisterKernelTasks ∈ before) : ∃ s, telemetryRun kernel before after w = .error s := by
  obtain ⟨s, hs⟩ := telemetryCalls_asserts before (debugStart w) rfl rfl hbefore
  refine ⟨s, ?_⟩
  rw [telemetryRun, hs]
  rfl

theorem firstKernelCall_of_mem {calls : List TelemetryCall}
    (h : .RegisterKernelTasks ∈ calls) : ∃ done rest, FirstKernelCall calls done rest :=
  List.eq_append_cons_of_mem h

end Runs

section Entries

variable (kernel : KernelTasks) {s : DebugWorld} {first rest : List TelemetryCall}
  (hs : s.taskEntries = enter TELEMETRY_MAX_TASKS (givenEntries first)
    (idleEntry kernel :: timerEntry kernel :: givenEntries rest))

include hs

theorem entriesOf_idle_iff (hroom : (givenEntries first).length < TELEMETRY_MAX_TASKS) :
    s.entriesOf kernel.idle = [idleEntry kernel] ↔
      ∀ entry ∈ givenAround first rest, entry.handle ≠ kernel.idle := by
  have htimer : (timerEntry kernel).handle ≠ kernel.idle := kernel.idle_ne_timer.symm
  have hidle : (idleEntry kernel).handle = kernel.idle := rfl
  have hplace := forall_mem_take_cons (p := (TelemetryTaskEntry.handle · = kernel.idle)) htimer
    (givenEntries rest) (TELEMETRY_MAX_TASKS - 1 - (givenEntries first).length)
  have honly := filter_enter_cons_iff (p := (TelemetryTaskEntry.handle · = kernel.idle)) hidle
    (timerEntry kernel :: givenEntries rest) hroom
  rw [DebugWorld.entriesOf, hs, honly, hplace, Nat.sub_right_comm, givenAround,
    List.forall_mem_append]
  rfl

theorem entriesOf_timer_iff (hroom : (givenEntries first).length + 1 < TELEMETRY_MAX_TASKS) :
    s.entriesOf kernel.timer = [timerEntry kernel] ↔
      ∀ entry ∈ givenAround first rest, entry.handle ≠ kernel.timer := by
  have htimer : (timerEntry kernel).handle = kernel.timer := rfl
  have hidle : (idleEntry kernel).handle ≠ kernel.timer := kernel.idle_ne_timer
  have hlength : (givenEntries first ++ [idleEntry kernel]).length =
      (givenEntries first).length + 1 := List.length_append
  -- seen from TmrSvc, Idle is one of the entries before it
  have hbehind : s.taskEntries = enter TELEMETRY_MAX_TASKS
      (givenEntries first ++ [idleEntry kernel]) (timerEntry kernel :: givenEntries rest) := by
    rw [hs, enter, enter, List.append_assoc]
    rfl
  have honly := filter_enter_cons_iff (p := (TelemetryTaskEntry.handle · = kernel.timer)) htimer
    (givenEntries rest) (hlength.trans_lt hroom)
  rw [DebugWorld.entriesOf, hbehind, honly, List.forall_mem_append, List.forall_mem_singleton,
    and_iff_left hidle, hlength, Nat.add_comm _ 1, ← Nat.sub_sub, givenAround,
    List.forall_mem_append]
  rfl

end Entries

section Firmware

theorem debug_createTask_some (handle : TaskConfig → TaskAddress) (s : DebugWorld)
    (config : TaskConfig) :
    Debug.createTask (fun config => some (handle config)) s config =
      if taskConfigReportsTelemetry config then
        .ok (telemetryRegisterTask (handle config) config.name config.stackSize s)
      else
        .ok s := rfl

theorem debug_foldlM_createTask (handle : TaskConfig → TaskAddress) (configs : List TaskConfig)
    (s : DebugWorld) :
    configs.foldlM (Debug.createTask fun config => some (handle config)) s =
      telemetryCalls (createTaskCalls handle configs) s := by
  induction configs generalizing s with
  | nil => rfl
  | cons config configs ih =>
    rw [List.foldlM_cons, createTaskCalls, List.filter_cons, debug_createTask_some]
    by_cases hreports : taskConfigReportsTelemetry config = true
    · rw [if_pos hreports, if_pos hreports, List.map_cons, telemetryCalls_cons]
      exact ih _
    · rw [if_neg hreports, if_neg hreports]
      exact ih s

-- What `tasks_create_all` does to the telemetry is the sequence of its calls.
theorem debug_tasksCreateAll_eq (handle : TaskConfig → TaskAddress) (s : DebugWorld) :
    Debug.tasksCreateAll (fun config => some (handle config)) s =
      telemetryCalls (tasksCreateAllCalls handle)
        { s with toWorld := s.toWorld |> isrStackGuardInit |> faultInjectInit } := by
  have hlast (s : DebugWorld) :
      telemetryCalls [.RegisterKernelTasks] s = telemetryRegisterKernelTasks s := by
    rw [telemetryCalls_cons]
    exact bind_pure _
  rw [tasksCreateAllCalls, telemetryCalls_append, Debug.tasksCreateAll, debug_foldlM_createTask]
  exact congrArg _ (funext fun s => (hlast s).symm)

-- Creating tasks neither starts the scheduler nor sets the latch.
theorem debug_foldlM_createTask_frame (created : TaskConfig → Option TaskAddress)
    (configs : List TaskConfig) (s : DebugWorld) :
    (∃ s', configs.foldlM (Debug.createTask created) s = .error s') ∨
      ∃ s', configs.foldlM (Debug.createTask created) s = .ok s' ∧
        s'.kernelTasksRegistered = s.kernelTasksRegistered ∧
          s'.xIdleTaskHandle = s.xIdleTaskHandle := by
  induction configs generalizing s with
  | nil => exact .inr ⟨s, rfl, rfl, rfl⟩
  | cons config configs ih =>
    rw [List.foldlM_cons, Debug.createTask]
    cases created config with
    | none => exact .inl ⟨_, rfl⟩
    | some handle =>
      by_cases hreports : taskConfigReportsTelemetry config = true
      · obtain ⟨hlatch, hidle, -⟩ :=
          telemetryRegisterTask_frame handle config.name config.stackSize s
        have hrest := ih (telemetryRegisterTask handle config.name config.stackSize s)
        rw [hlatch, hidle] at hrest
        dsimp only
        rw [if_pos hreports]
        exact hrest
      · dsimp only
        rw [if_neg hreports]
        exact ih s

-- The build with DEBUG never gets to the start of the scheduler, whichever tasks
-- can be created.
theorem debug_tasksCreateAll_error (created : TaskConfig → Option TaskAddress) (w : World) :
    ∃ s, Debug.tasksCreateAll created (debugStart w) = .error s := by
  let start := debugStart (w |> isrStackGuardInit |> faultInjectInit)
  have hsplit : Debug.tasksCreateAll created (debugStart w) =
      debugTaskConfigs.foldlM (Debug.createTask created) start >>= telemetryRegisterKernelTasks := rfl
  rw [hsplit]
  obtain ⟨s, hhalt⟩ | ⟨s, hcreated, hlatch, hidle⟩ :=
    debug_foldlM_createTask_frame created debugTaskConfigs start
  · rw [hhalt]
    exact ⟨s, rfl⟩
  · rw [hcreated]
    exact ⟨s, telemetryRegisterKernelTasks_asserts s hlatch hidle⟩

end Firmware

section Once

variable (kernel : KernelTasks) {before done : List TelemetryCall} (rest : List TelemetryCall)
  (w : World)

-- The run up to the first call for the kernel's tasks and the whole run, side by
-- side.
theorem telemetryRun_around (hbefore : .RegisterKernelTasks ∉ before)
    (hdone : .RegisterKernelTasks ∉ done) :
    ∃ found s, telemetryRun kernel before done w = .ok found ∧
      telemetryRun kernel before (done ++ .RegisterKernelTasks :: rest) w = .ok s ∧
      found.taskEntries.length =
        min TELEMETRY_MAX_TASKS (givenEntries (before ++ done)).length ∧
      (found.taskEntries.length < TELEMETRY_MAX_TASKS →
        (s.entriesOf kernel.idle = [idleEntry kernel] ↔
          ∀ entry ∈ givenAround (before ++ done) rest, entry.handle ≠ kernel.idle)) ∧
      (found.taskEntries.length + 1 < TELEMETRY_MAX_TASKS →
        (s.entriesOf kernel.timer = [timerEntry kernel] ↔
          ∀ entry ∈ givenAround (before ++ done) rest, entry.handle ≠ kernel.timer)) := by
  obtain ⟨found, hfound, -, -, -, hentries⟩ := telemetryRun_given kernel w hbefore hdone
  obtain ⟨s, hs, htable⟩ := telemetryRun_first kernel rest w hbefore hdone
  have hlength : found.taskEntries.length =
      min TELEMETRY_MAX_TASKS (givenEntries (before ++ done)).length := by
    rw [hentries, length_enter, List.length_nil, Nat.zero_add]
  refine ⟨found, s, hfound, hs, hlength, ?_, ?_⟩
  · intro hroom
    exact entriesOf_idle_iff kernel htable (by omega)
  · intro hroom
    exact entriesOf_timer_iff kernel htable (by omega)

theorem KernelTasksOnce.started {kernel : KernelTasks} {before after : List TelemetryCall}
    {w : World} (h : KernelTasksOnce kernel before after w) : .RegisterKernelTasks ∉ before := by
  intro hmem
  obtain ⟨s, hs⟩ := h.no_assertion
  obtain ⟨s', hs'⟩ := telemetryRun_asserts kernel w after hmem
  rw [hs] at hs'
  cases hs'

-- The kernel's tasks are registered once and without a failed assertion exactly
-- if they are left to `telemetry_register_kernel_tasks` and that is left to the
-- time after the start.
theorem kernel_tasks_registered_once_iff (kernel : KernelTasks)
    (before after : List TelemetryCall) (w : World) :
    KernelTasksOnce kernel before after w ↔ KernelTasksLeft kernel before after := by
  constructor
  · intro h
    have hbefore := h.started
    refine ⟨hbefore, ?_, ?_⟩
    · rintro done rest ⟨rfl, hdone⟩ hroom
      obtain ⟨found, s, hfound, hs, hlength, hidle, -⟩ :=
        telemetryRun_around kernel rest w hbefore hdone
      have hfree : found.taskEntries.length < TELEMETRY_MAX_TASKS := by omega
      exact (hidle hfree).mp (h.idle done rest found s ⟨rfl, hdone⟩ hfound hs hfree)
    · rintro done rest ⟨rfl, hdone⟩ hroom
      obtain ⟨found, s, hfound, hs, hlength, -, htimer⟩ :=
        telemetryRun_around kernel rest w hbefore hdone
      have hfree : found.taskEntries.length + 1 < TELEMETRY_MAX_TASKS := by omega
      exact (htimer hfree).mp (h.timer done rest found s ⟨rfl, hdone⟩ hfound hs hfree)
  · intro h
    refine ⟨?_, DebugWorld.entries_le _, ?_, ?_⟩
    · by_cases hafter : .RegisterKernelTasks ∈ after
      · obtain ⟨done, rest, rfl, hdone⟩ := firstKernelCall_of_mem hafter
        obtain ⟨s, hs, -⟩ := telemetryRun_first kernel rest w h.started hdone
        exact ⟨s, hs⟩
      · obtain ⟨s, hs, -⟩ := telemetryRun_given kernel w h.started hafter
        exact ⟨s, hs⟩
    · rintro done rest found s ⟨rfl, hdone⟩ hfound hs hfree
      obtain ⟨found', s', hfound', hs', hlength, hidle, -⟩ :=
        telemetryRun_around kernel rest w h.started hdone
      cases hfound.symm.trans hfound'
      cases hs.symm.trans hs'
      exact (hidle hfree).mpr (h.idle done rest ⟨rfl, hdone⟩ (by omega))
    · rintro done rest found s ⟨rfl, hdone⟩ hfound hs hfree
      obtain ⟨found', s', hfound', hs', hlength, -, htimer⟩ :=
        telemetryRun_around kernel rest w h.started hdone
      cases hfound.symm.trans hfound'
      cases hs.symm.trans hs'
      exact (htimer hfree).mpr (h.timer done rest ⟨rfl, hdone⟩ (by omega))

-- The firmware's own sequence of calls.
theorem tasks_create_all_asserts :
    ¬KernelTasksOnce ⟨1, 2, by decide, by decide, by decide⟩
      (tasksCreateAllCalls fun config => debugTaskConfigs.idxOf config + 3) vTaskTelemetryCalls
      startupWorld := by
  intro honce
  exact honce.started (List.mem_append_right _ (List.mem_singleton_self _))

end Once

end SpaceBaremetal

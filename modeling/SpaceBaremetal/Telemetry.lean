import SpaceBaremetal.Boot

namespace SpaceBaremetal

def TELEMETRY_MAX_TASKS : Nat := 10
def configMINIMAL_STACK_SIZE : BitVec 16 := 128
def configTIMER_TASK_STACK_DEPTH : BitVec 16 := configMINIMAL_STACK_SIZE

-- A `TaskHandle_t` of the kernel: the address of a control block, or 0 for NULL.
abbrev TaskAddress := Nat

structure TelemetryTaskEntry where
  handle : TaskAddress
  name : String
  allocatedWords : BitVec 16
  minFreeWords : BitVec 64
deriving DecidableEq, Repr

-- The globals of the build with DEBUG: those of `telemetry.c`, where the first
-- `task_entry_count` entries stand for the table, and the handles of the tasks
-- that the kernel creates for itself.
structure DebugWorld extends World where
  taskEntries : List TelemetryTaskEntry
  kernelTasksRegistered : Bool
  xIdleTaskHandle : TaskAddress
  xTimerTaskHandle : TaskAddress
  entries_le : taskEntries.length ≤ TELEMETRY_MAX_TASKS

-- What the loader leaves of them.
def debugStart (w : World) : DebugWorld where
  toWorld := w
  taskEntries := []
  kernelTasksRegistered := false
  xIdleTaskHandle := 0
  xTimerTaskHandle := 0
  entries_le := Nat.zero_le _

-- In an error the code spins for ever in the world that is left. After a failed
-- assertion the interrupts are off as well.
def configASSERT (x : Prop) [Decidable x] (s : DebugWorld) : Except DebugWorld Unit :=
  if x then .ok () else .error s

def xTaskGetIdleTaskHandle (s : DebugWorld) : Except DebugWorld TaskAddress := do
  configASSERT (s.xIdleTaskHandle ≠ 0) s
  pure s.xIdleTaskHandle

def xTimerGetTimerDaemonTaskHandle (s : DebugWorld) : Except DebugWorld TaskAddress := do
  configASSERT (s.xTimerTaskHandle ≠ 0) s
  pure s.xTimerTaskHandle

def telemetryEntry (handle : TaskAddress) (name : String) (allocatedWords : BitVec 16) :
    TelemetryTaskEntry where
  handle := handle
  name := name
  allocatedWords := allocatedWords
  minFreeWords := allocatedWords.setWidth 64

def telemetryRegisterTask (handle : TaskAddress) (name : String) (allocatedWords : BitVec 16)
    (s : DebugWorld) : DebugWorld :=
  if hfull : s.taskEntries.length ≥ TELEMETRY_MAX_TASKS then
    { s with toWorld := uartPuts (LOG_PREFIX_ERROR ++ "telemetry task table full\r\n") s.toWorld }
  else
    { s with
        taskEntries := s.taskEntries ++ [telemetryEntry handle name allocatedWords]
        entries_le := by
          rw [List.length_append, List.length_singleton]
          exact Nat.not_le.mp hfull }

def telemetryRegisterKernelTasks (s : DebugWorld) : Except DebugWorld DebugWorld :=
  if s.kernelTasksRegistered then
    .ok s
  else do
    let idleHandle ← xTaskGetIdleTaskHandle s
    let s :=
      if idleHandle ≠ 0 then
        telemetryRegisterTask idleHandle "Idle" configMINIMAL_STACK_SIZE s
      else
        s
    let timerHandle ← xTimerGetTimerDaemonTaskHandle s
    let s :=
      if timerHandle ≠ 0 then
        telemetryRegisterTask timerHandle "TmrSvc" configTIMER_TASK_STACK_DEPTH s
      else
        s
    pure { s with kernelTasksRegistered := true }

-- The tasks that the kernel creates when the scheduler starts.
structure KernelTasks where
  idle : TaskAddress
  timer : TaskAddress
  idle_ne : idle ≠ 0
  timer_ne : timer ≠ 0
  idle_ne_timer : idle ≠ timer

-- What `vTaskStartScheduler` does to the handles.
def vTaskStartScheduler (kernel : KernelTasks) (s : DebugWorld) : DebugWorld :=
  { s with xIdleTaskHandle := kernel.idle, xTimerTaskHandle := kernel.timer }

inductive TelemetryCall
  | RegisterTask (handle : TaskAddress) (name : String) (allocatedWords : BitVec 16)
  | RegisterKernelTasks
deriving DecidableEq, Repr

def TelemetryCall.run : TelemetryCall → DebugWorld → Except DebugWorld DebugWorld
  | .RegisterTask handle name allocatedWords, s =>
      .ok (telemetryRegisterTask handle name allocatedWords s)
  | .RegisterKernelTasks, s => telemetryRegisterKernelTasks s

-- A failed assertion ends the sequence.
def telemetryCalls (calls : List TelemetryCall) (s : DebugWorld) : Except DebugWorld DebugWorld :=
  calls.foldlM (fun s call => call.run s) s

-- The calls made before the scheduler starts, and those made after.
def telemetryRun (kernel : KernelTasks) (before after : List TelemetryCall) (w : World) :
    Except DebugWorld DebugWorld := do
  let s ← telemetryCalls before (debugStart w)
  telemetryCalls after (vTaskStartScheduler kernel s)

structure TaskConfig where
  name : String
  stackSize : BitVec 16
deriving DecidableEq, Repr

-- The tasks of the build with DEBUG, in the order of the table.
def debugTaskConfigs : List TaskConfig :=
  [⟨"Watchdog", configMINIMAL_STACK_SIZE * 2⟩, ⟨"StateMachine", configMINIMAL_STACK_SIZE * 2⟩,
    ⟨"Heartbeat", configMINIMAL_STACK_SIZE * 2⟩, ⟨"MemScrub", configMINIMAL_STACK_SIZE * 3⟩,
    ⟨"FaultInject", configMINIMAL_STACK_SIZE * 2⟩, ⟨"CommandInput", configMINIMAL_STACK_SIZE * 2⟩,
    ⟨"CommandHandler", configMINIMAL_STACK_SIZE * 2⟩, ⟨"Telemetry", configMINIMAL_STACK_SIZE * 2⟩]

def taskConfigReportsTelemetry (config : TaskConfig) : Bool :=
  config.name ≠ "StateMachine" && config.name ≠ "CommandInput" && config.name ≠ "CommandHandler"

-- The pattern itself is only read by the check of the guard.
def isrStackGuardInit (w : World) : World :=
  uartPuts "ISR stack guard painted (0xDEADBEEF at stack_low)\r\n" w

namespace Debug

-- `created` says which handle `xTaskCreate` gives to a task, if it has memory.
def createTask (created : TaskConfig → Option TaskAddress) (s : DebugWorld) (config : TaskConfig) :
    Except DebugWorld DebugWorld :=
  match created config with
  | none => .error { s with toWorld := systemHalt "xTaskCreate failed" s.toWorld }
  | some handle =>
      if taskConfigReportsTelemetry config then
        .ok (telemetryRegisterTask handle config.name config.stackSize s)
      else
        .ok s

def tasksCreateAll (created : TaskConfig → Option TaskAddress) (s : DebugWorld) :
    Except DebugWorld DebugWorld := do
  let w := s.toWorld |> isrStackGuardInit |> faultInjectInit
  let s ← debugTaskConfigs.foldlM (createTask created) { s with toWorld := w }
  telemetryRegisterKernelTasks s

end Debug

-- The calls to the telemetry that `tasks_create_all` makes for its tasks, and all
-- of its calls when each task can be created.
def createTaskCalls (handle : TaskConfig → TaskAddress) (configs : List TaskConfig) :
    List TelemetryCall :=
  (configs.filter taskConfigReportsTelemetry).map fun config =>
    .RegisterTask (handle config) config.name config.stackSize

def tasksCreateAllCalls (handle : TaskConfig → TaskAddress) : List TelemetryCall :=
  createTaskCalls handle debugTaskConfigs ++ [.RegisterKernelTasks]

-- The call of `vTaskTelemetry`.
def vTaskTelemetryCalls : List TelemetryCall := [.RegisterKernelTasks]

end SpaceBaremetal

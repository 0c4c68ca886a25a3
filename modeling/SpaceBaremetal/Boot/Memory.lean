import SpaceBaremetal.Boot.Theorems
import SpaceBaremetal.Kernel.Heap.Theorems
import SpaceBaremetal.Telemetry

namespace SpaceBaremetal

open Heap FreeList

def configTIMER_QUEUE_LENGTH : Nat := 10

-- What `sizeof` says of the structures of the kernel and of the queue items.
structure KernelSizes where
  stackWord : Nat
  tcb : Nat
  queue : Nat
  faultEvent : Nat
  commandType : Nat
  stateRequest : Nat
  daemonTaskMessage : Nat

-- The stack of each task of the table, in words.
def taskStackDepth : Task → BitVec 16
  | .MemScrub => configMINIMAL_STACK_SIZE * 3
  | _ => configMINIMAL_STACK_SIZE * 2

section Creation

variable (layout : HeapLayout) (sizes : KernelSizes)

-- The allocations of `prvCreateTask`: the control block and the stack, or
-- neither.
def prvCreateTask (uxStackDepth : BitVec 16) (heap : Heap) : Option (Option (Nat × Nat) × Heap) := do
  let (pxStack, heap) ← pvPortMalloc layout (uxStackDepth.toNat * sizes.stackWord) heap
  if pxStack ≠ heapNULL then
    let (pxNewTCB, heap) ← pvPortMalloc layout sizes.tcb heap
    if pxNewTCB ≠ heapNULL then
      some (some (pxNewTCB, pxStack), heap)
    else
      let heap ← vPortFree layout pxStack heap
      some (none, heap)
  else
    some (none, heap)

-- The allocation of `xQueueGenericCreate`. A length or size that overflows
-- fails the assertion.
def xQueueGenericCreate (uxQueueLength uxItemSize : Nat) (heap : Heap) : Option (Nat × Heap) :=
  if uxQueueLength > 0 ∧ heapSIZE_MAX / uxQueueLength ≥ uxItemSize ∧
      heapSIZE_MAX - sizes.queue ≥ uxQueueLength * uxItemSize then
    pvPortMalloc layout (sizes.queue + uxQueueLength * uxItemSize) heap
  else do
    Heap.configASSERT false
    some (heapNULL, heap)

-- The loop of `tasks_create_all`, which does not come to the tasks after one
-- that fails: whether these could be created makes no difference to `main`.
def createTasks : List Task → Heap → Option ((Task → Bool) × Heap)
  | [], heap => some (fun _ => false, heap)
  | task :: rest, heap => do
    let (created, heap) ← prvCreateTask layout sizes (taskStackDepth task) heap
    let (others, heap) ← createTasks rest heap
    some (Function.update others task created.isSome, heap)

-- The allocations of `xTimerCreateTimerTask`: the timer queue and the task.
def xTimerCreateTimerTaskMemory (heap : Heap) : Option (Bool × Heap) := do
  let (xTimerQueue, heap) ←
    xQueueGenericCreate layout sizes configTIMER_QUEUE_LENGTH sizes.daemonTaskMessage heap
  let (xReturn, heap) ←
    if xTimerQueue ≠ heapNULL then do
      let (timer, heap) ← prvCreateTask layout sizes configTIMER_TASK_STACK_DEPTH heap
      some (timer.isSome, heap)
    else
      some (false, heap)
  Heap.configASSERT xReturn
  some (xReturn, heap)

-- The kernel's own objects. The timer is not come to without an idle task, and
-- what is not created for want of memory fails the last assertion.
def vTaskStartSchedulerMemory (heap : Heap) : Option (Bool × Heap) := do
  let (idle, heap) ← prvCreateTask layout sizes configMINIMAL_STACK_SIZE heap
  let (xReturn, heap) ←
    if idle.isSome then xTimerCreateTimerTaskMemory layout sizes heap else some (false, heap)
  Heap.configASSERT xReturn
  some (xReturn, heap)

-- Every allocation from reset to the first run of the state machine, in order:
-- those of `main`, those of the scheduler, and the queue that the state machine
-- creates. The Boolean says whether the scheduler got what it needs. Where the
-- fault queue or a task fails `main` halts, and does not come to the rest.
def startupMemory (heap : Heap) : Option (Allocations × Bool × Heap) := do
  let (faultQueue, heap) ←
    xQueueGenericCreate layout sizes FAULT_QUEUE_LENGTH sizes.faultEvent heap
  let (commandQueue, heap) ← xQueueGenericCreate layout sizes 8 sizes.commandType heap
  let (tasks, heap) ← createTasks layout sizes taskConfigs heap
  let (scheduler, heap) ← vTaskStartSchedulerMemory layout sizes heap
  let (stateQueue, heap) ← xQueueGenericCreate layout sizes 4 sizes.stateRequest heap
  some ({
    faultQueue := decide (faultQueue ≠ heapNULL)
    commandQueue := decide (commandQueue ≠ heapNULL)
    stateQueue := decide (stateQueue ≠ heapNULL)
    task := tasks }, scheduler, heap)

end Creation

section Fails

variable {layout : HeapLayout} {sizes : KernelSizes} {heap after : Heap} {live : List Allocation}
  {seen : List Nat}

theorem release_taken {a : HeapArena layout} {taken b : Block} {before : List Block}
    (hlive : a.live = taken :: before) (hb : b ∈ a.live) (hstart : b.start = taken.start) :
    (a.release b hb).live = before := by
  have heq : b = taken := by
    by_contra hne
    have happart := Arena.apart_of_mem_of_ne a.liveApart hb (by simp [hlive]) hne
    have hpos := (a.liveFits b hb).pos
    have htpos := (a.liveFits taken (by simp [hlive])).pos
    simp only [Block.Apart, Block.limit] at happart
    omega
  rw [Arena.release_live, hlive, heq, List.erase_cons_head]

-- A task that cannot be created leaves the heap as it was: what is out, what is
-- free, and the answer to every request.
theorem prvCreateTask_fails_cleanly (run : HeapRun layout heap live seen)
    (hinit : heap.pxEnd ≠ heapNULL) {depth : BitVec 16}
    (hcall : prvCreateTask layout sizes depth heap = some (none, after)) (n : Nat) :
    (∃ seen', HeapRun layout after live seen') ∧
      (pvPortMalloc layout n after).map Prod.fst = (pvPortMalloc layout n heap).map Prod.fst ∧
      xPortGetFreeHeapSize after = xPortGetFreeHeapSize heap ∧
      (vPortGetHeapStats layout after).map HeapStats.xNumberOfFreeBlocks =
        (vPortGetHeapStats layout heap).map HeapStats.xNumberOfFreeBlocks ∧
      (vPortGetHeapStats layout after).map HeapStats.xSizeOfLargestFreeBlockInBytes =
        (vPortGetHeapStats layout heap).map HeapStats.xSizeOfLargestFreeBlockInBytes := by
  obtain ⟨a, hready, -⟩ := run.ready hinit
  -- it is enough that the run ends with the blocks that were out before
  suffices hend : ∃ seen' a', HeapRun layout after live seen' ∧ Ready layout after live a' ∧
      a'.live = a.live by
    obtain ⟨seen', a', hrun, hready', hlive⟩ := hend
    refine ⟨⟨seen', hrun⟩, hready'.answers hready (Arena.free_eq_of_live ?_) n⟩
    rw [hlive]
    exact fun b => Iff.rfl
  obtain ⟨⟨pxStack, heap₁⟩, hstack⟩ := Option.isSome_iff_exists.mp
    (run.malloc_isSome (depth.toNat * sizes.stackWord))
  have run₁ := run.malloc hstack
  obtain ⟨a₁, hready₁, -, -, -, hlive₁⟩ := hready.malloc hstack
  simp only [prvCreateTask, hstack, Option.bind_eq_bind, Option.bind_some] at hcall
  by_cases hnull : pxStack = heapNULL
  · rw [if_neg (by simpa using hnull), Option.some.injEq, Prod.mk.injEq] at hcall
    obtain ⟨-, rfl⟩ := hcall
    rw [if_pos hnull] at run₁ hready₁ hlive₁
    exact ⟨_, a₁, run₁, hready₁, hlive₁⟩
  · rw [if_pos hnull] at hcall
    rw [if_neg hnull] at run₁ hready₁ hlive₁
    obtain ⟨taken, hlive₁, -⟩ := hlive₁
    obtain ⟨⟨pxNewTCB, heap₂⟩, htcb⟩ := Option.isSome_iff_exists.mp (run₁.malloc_isSome sizes.tcb)
    have run₂ := run₁.malloc htcb
    obtain ⟨a₂, hready₂, -, -, -, hlive₂⟩ := hready₁.malloc htcb
    simp only [htcb, Option.bind_some] at hcall
    by_cases hnull₂ : pxNewTCB = heapNULL
    · rw [if_neg (by simpa using hnull₂)] at hcall
      rw [if_pos hnull₂] at run₂ hready₂ hlive₂
      rw [hlive₁] at hlive₂
      -- the stack goes back
      obtain ⟨b, hb, hmatch, heap₃, hfree, hready₃, -⟩ :=
        hready₂.free (x := ⟨pxStack, depth.toNat * sizes.stackWord⟩) (by simp)
      have run₃ := run₂.free (by simp) hfree
      rw [List.erase_cons_head] at run₃ hready₃
      simp only at hfree
      rw [hfree, Option.bind_some, Option.some.injEq, Prod.mk.injEq] at hcall
      obtain ⟨-, rfl⟩ := hcall
      have hstart : b.start = taken.start := by
        have htaken := hready₂.matched
        rw [hlive₂] at htaken
        cases htaken with
        | cons hmatched hrest =>
          have hpointer := hmatch.pointer
          have hpointer' := hmatched.pointer
          omega
      exact ⟨_, _, run₃, hready₃, release_taken hlive₂ hb hstart⟩
    · rw [if_pos hnull₂] at hcall
      simp at hcall

-- A stack that fits and a control block that does not.
theorem prvCreateTask_fails_after_one : ∃ after,
    prvCreateTask linkedLayout ⟨8, 40000, 168, 8, 4, 8, 24⟩ 256 heapAfterOne = some (none, after) ∧
      xPortGetFreeHeapSize after = xPortGetFreeHeapSize heapAfterOne := by
  obtain ⟨seen, run⟩ := heapAfterOne_run
  have hfails : (prvCreateTask linkedLayout ⟨8, 40000, 168, 8, 4, 8, 24⟩ 256 heapAfterOne).map
      Prod.fst = some none := by
    decide +kernel
  obtain ⟨⟨created, after⟩, hcall, rfl⟩ := Option.map_eq_some_iff.mp hfails
  exact ⟨after, hcall, (prvCreateTask_fails_cleanly run heapAfterOne_init hcall 0).2.2.1⟩

end Fails

section Budget

variable {layout : HeapLayout} {sizes : KernelSizes} {heap after : Heap} {m : Nat}

-- What is free is one block of `m` bytes or more, or will be when the heap is
-- set up.
def Roomy (layout : HeapLayout) (heap : Heap) (m : Nat) : Prop :=
  (AtBoot heap ∧ m ≤ endAddress layout - startAddress layout) ∨
    ∃ live a, Ready layout heap live a ∧ ∃ b, a.free = [b] ∧ m ≤ b.size

theorem Ready.malloc_room {live : List Allocation} {a : HeapArena layout} {b : Block} {n : Nat}
    (h : Ready layout heap live a) (hfree : a.free = [b]) (hpos : 0 < n) (hn : n + 64 ≤ b.size) :
    ∃ p after, pvPortMalloc layout n heap = some (p, after) ∧ p ≠ heapNULL ∧
      Roomy layout after (b.size - (n + 31)) := by
  have hlt := (fits_bounds (a.freeFits b (by simp [hfree]))).2.2.2.2.2.2
  simp only [configTOTAL_HEAP_SIZE] at hlt
  have hrequired := requiredBlockSize_of_le (n := n) hpos (by omega)
  obtain ⟨hnull, hzero | hsmall⟩ | ⟨taken, -, after, hsome, -⟩ := pvPortMalloc_spec h.represents n
  · omega
  · have hb := hsmall b (by simp [hfree])
    omega
  · have hp : taken.start + 16 ≠ heapNULL := by
      rw [heapNULL]
      omega
    obtain ⟨a', hready, -, -, -, hfit⟩ := h.malloc hsome
    rw [if_neg hp] at hready hfit
    obtain ⟨taken', -, hfit⟩ := hfit
    have hrest : a'.free = [⟨b.start + requiredBlockSize n, b.size - requiredBlockSize n⟩] := by
      rw [hfree, firstFit, if_pos (by omega), if_pos (by
        simp only [heapMINIMUM_BLOCK_SIZE, xHeapStructSize]
        omega)] at hfit
      simp only [Option.some.injEq, Prod.mk.injEq] at hfit
      exact hfit.2.symm
    refine ⟨taken.start + 16, after, hsome, hp, .inr ⟨_, a', hready, _, hrest, ?_⟩⟩
    simp only
    omega

theorem Roomy.mono {m' : Nat} (h : Roomy layout heap m) (hle : m' ≤ m) : Roomy layout heap m' := by
  obtain ⟨hboot, hm⟩ | ⟨live, a, hready, b, hfree, hm⟩ := h
  · exact .inl ⟨hboot, Nat.le_trans hle hm⟩
  · exact .inr ⟨live, a, hready, b, hfree, Nat.le_trans hle hm⟩

-- As long as there is room a request is granted, and costs at most 31 bytes
-- more than it asks for.
theorem Roomy.malloc (h : Roomy layout heap m) {n : Nat} (hpos : 0 < n) (hn : n + 64 ≤ m) :
    ∃ p after, pvPortMalloc layout n heap = some (p, after) ∧ p ≠ heapNULL ∧
      Roomy layout after (m - (n + 31)) := by
  obtain ⟨hboot, hm⟩ | ⟨live, a, hready, b, hfree, hm⟩ := h
  · rw [pvPortMalloc_boot n hboot.pxEnd]
    have hfree : (freshArena layout).free =
        [⟨startAddress layout, endAddress layout - startAddress layout⟩] := rfl
    obtain ⟨p, after, hcall, hp, hroom⟩ := Ready.malloc_room (hboot.ready layout).1 hfree
      hpos (by simp only; omega)
    exact ⟨p, after, hcall, hp, hroom.mono (by simp only; omega)⟩
  · obtain ⟨p, after, hcall, hp, hroom⟩ := Ready.malloc_room hready hfree hpos (by omega)
    exact ⟨p, after, hcall, hp, hroom.mono (by omega)⟩

theorem Roomy.createTask (h : Roomy layout heap m) (depth : BitVec 16)
    (hdepth : 0 < depth.toNat * sizes.stackWord) (htcb : 0 < sizes.tcb)
    (hm : depth.toNat * sizes.stackWord + sizes.tcb + 126 ≤ m) :
    ∃ created after, prvCreateTask layout sizes depth heap = some (some created, after) ∧
      Roomy layout after (m - (depth.toNat * sizes.stackWord + sizes.tcb + 62)) := by
  obtain ⟨pxStack, heap₁, hstack, hp, hroom⟩ := h.malloc hdepth (by omega)
  obtain ⟨pxNewTCB, heap₂, htcb, hp', hroom'⟩ := hroom.malloc htcb (by omega)
  refine ⟨(pxNewTCB, pxStack), heap₂, ?_, hroom'.mono (by omega)⟩
  simp [prvCreateTask, hstack, htcb, hp, hp']

theorem Roomy.createQueue (h : Roomy layout heap m) (length item : Nat) (hlength : 0 < length)
    (hqueue : 0 < sizes.queue) (hm : sizes.queue + length * item + 64 ≤ m) (hlt : m < 2 ^ 60) :
    ∃ p after, xQueueGenericCreate layout sizes length item heap = some (p, after) ∧
      p ≠ heapNULL ∧ Roomy layout after (m - (sizes.queue + length * item + 31)) := by
  have hmul : heapSIZE_MAX / length ≥ item := by
    rw [ge_iff_le, Nat.le_div_iff_mul_le hlength, Nat.mul_comm, heapSIZE_MAX]
    omega
  have hadd : heapSIZE_MAX - sizes.queue ≥ length * item := by
    rw [heapSIZE_MAX]
    omega
  obtain ⟨p, after, hcall, hp, hroom⟩ := h.malloc (n := sizes.queue + length * item) (by omega) hm
  refine ⟨p, after, ?_, hp, hroom⟩
  rw [xQueueGenericCreate, if_pos ⟨hlength, hmul, hadd⟩]
  exact hcall

def stackBytes (sizes : KernelSizes) : List Task → Nat
  | [] => 0
  | task :: rest =>
    (taskStackDepth task).toNat * sizes.stackWord + sizes.tcb + 62 + stackBytes sizes rest

theorem Roomy.createTasks (h : Roomy layout heap m) (hword : 0 < sizes.stackWord)
    (htcb : 0 < sizes.tcb) (tasks : List Task) (hm : stackBytes sizes tasks + 64 ≤ m) :
    ∃ flags after, createTasks layout sizes tasks heap = some (flags, after) ∧
      (∀ task ∈ tasks, flags task = true) ∧ Roomy layout after (m - stackBytes sizes tasks) := by
  induction tasks generalizing heap m with
  | nil => exact ⟨fun _ => false, heap, rfl, by simp, h⟩
  | cons task rest ih =>
    rw [stackBytes] at hm ⊢
    have hdepth : 0 < (taskStackDepth task).toNat * sizes.stackWord := by
      apply Nat.mul_pos _ hword
      cases task <;> decide
    obtain ⟨created, heap₁, hcall, hroom⟩ := h.createTask _ hdepth htcb (by omega)
    obtain ⟨flags, after, hrest, hall, hroom'⟩ := ih hroom (by omega)
    refine ⟨Function.update flags task true, after, ?_, ?_, hroom'.mono (by omega)⟩
    · simp [SpaceBaremetal.createTasks, hcall, hrest]
    · intro other hother
      by_cases heq : other = task
      · simp [heq]
      · rw [Function.update_of_ne heq]
        exact hall other ((List.mem_cons.mp hother).resolve_left heq)

-- What the structures may take when the stacks and the overhead of 22 blocks
-- are taken off: the stacks are of 8 byte words.
structure WithinBudget (sizes : KernelSizes) : Prop where
  stackWord : sizes.stackWord = 8
  tcb : 0 < sizes.tcb
  queue : 0 < sizes.queue
  total : 9 * sizes.tcb + 4 * sizes.queue + 5 * sizes.faultEvent + 8 * sizes.commandType +
    10 * sizes.daemonTaskMessage + 4 * sizes.stateRequest ≤ 14500

-- Within this budget every allocation of the start-up succeeds, so `main` starts
-- the scheduler and no task receives on a queue that was not created.
theorem startup_within_budget (layout : HeapLayout) (sizes : KernelSizes) (hsizes : WithinBudget sizes)
    (hboot : AtBoot heap) (image : Image) :
    ∃ allocations after, startupMemory layout sizes heap = some (allocations, true, after) ∧
      (∃ w, main image allocations startupWorld = .ok w) ∧
      BootsAllOrNothing image allocations ∧ NeverReceivesOnNull image allocations := by
  obtain ⟨hword, htcb, hqueue, htotal⟩ := hsizes
  have husable : 32721 ≤ endAddress layout - startAddress layout := by
    obtain ⟨-, -, hstart, -, hend, -⟩ := layout_facts layout
    simp only [configTOTAL_HEAP_SIZE] at hend
    omega
  have hstacks : stackBytes sizes taskConfigs = 15360 + 7 * (sizes.tcb + 62) := by
    have hdouble : (configMINIMAL_STACK_SIZE * 2).toNat = 256 := by decide
    have htriple : (configMINIMAL_STACK_SIZE * 3).toNat = 384 := by decide
    simp only [stackBytes, taskConfigs, taskStackDepth, hdouble, htriple, hword]
    omega
  have hminimal : configMINIMAL_STACK_SIZE.toNat = 128 := by decide
  have htimerDepth : configTIMER_TASK_STACK_DEPTH.toNat = 128 := by decide
  have hroom : Roomy layout heap 32721 := .inl ⟨hboot, husable⟩
  obtain ⟨faultQueue, heap₁, hfault, hfaultNe, hroom⟩ := hroom.createQueue
    FAULT_QUEUE_LENGTH sizes.faultEvent (by decide) hqueue
    (by rw [FAULT_QUEUE_LENGTH]; omega) (by omega)
  rw [FAULT_QUEUE_LENGTH] at hroom
  obtain ⟨commandQueue, heap₂, hcommand, hcommandNe, hroom⟩ := hroom.createQueue
    8 sizes.commandType (by decide) hqueue (by omega) (by omega)
  obtain ⟨tasks, heap₃, htasks, hall, hroom⟩ := hroom.createTasks (by omega) htcb
    taskConfigs (by omega)
  obtain ⟨idle, heap₄, hidle, hroom⟩ := hroom.createTask configMINIMAL_STACK_SIZE
    (by rw [hminimal]; omega) htcb (by rw [hminimal]; omega)
  rw [hminimal] at hroom
  obtain ⟨timerQueue, heap₅, htimerQueue, htimerNe, hroom⟩ := hroom.createQueue
    configTIMER_QUEUE_LENGTH sizes.daemonTaskMessage (by decide) hqueue
    (by rw [configTIMER_QUEUE_LENGTH]; omega) (by omega)
  rw [configTIMER_QUEUE_LENGTH] at hroom
  obtain ⟨timer, heap₆, htimer, hroom⟩ := hroom.createTask configTIMER_TASK_STACK_DEPTH
    (by rw [htimerDepth]; omega) htcb (by rw [htimerDepth]; omega)
  rw [htimerDepth] at hroom
  obtain ⟨stateQueue, after, hstate, hstateNe, -⟩ := hroom.createQueue
    4 sizes.stateRequest (by decide) hqueue (by omega) (by omega)
  have hscheduler : vTaskStartSchedulerMemory layout sizes heap₃ = some (true, heap₆) := by
    simp [vTaskStartSchedulerMemory, xTimerCreateTimerTaskMemory, hidle, htimerQueue, htimerNe,
      htimer, Heap.configASSERT]
  refine ⟨⟨decide (faultQueue ≠ heapNULL), decide (commandQueue ≠ heapNULL),
    decide (stateQueue ≠ heapNULL), tasks⟩, after, ?_, ?_, ?_⟩
  · simp [startupMemory, hfault, hcommand, htasks, hscheduler, hstate]
  · exact main_of_tasks image (by simpa using hfaultNe) hall
  · exact all_or_nothing_of_queues (by simpa using hcommandNe) (by simpa using hstateNe)

-- The sizes that the 64 bit build has, or a little more.
theorem startup_within_budget_64 : ∃ allocations after,
    startupMemory linkedLayout ⟨8, 256, 168, 8, 4, 8, 32⟩ clearedHeap =
      some (allocations, true, after) ∧ ∃ w, main smallImage allocations startupWorld = .ok w := by
  obtain ⟨allocations, after, hmemory, hmain, -⟩ := startup_within_budget
    linkedLayout ⟨8, 256, 168, 8, 4, 8, 32⟩ ⟨rfl, by decide, by decide, by decide⟩
    clearedHeap_atBoot smallImage
  exact ⟨allocations, after, hmemory, hmain⟩

end Budget

end SpaceBaremetal

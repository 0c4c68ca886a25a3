import SpaceBaremetal.Kernel.Tasks.Calls

open SpaceBaremetal.Lists

namespace SpaceBaremetal.Tasks

open ListName TaskItem

variable {ε τ : Type} [DecidableEq ε] [DecidableEq τ]

def tskIDLE_PRIORITY : Priority := ⟨0, by decide⟩

-- The kernel's variables before the first task is created. The two pointers to
-- the delayed lists are null then, and nothing reads them.
def initialKernel (memory : Lists (ListName ε) (TaskItem τ)) (uxPriority : τ → Priority)
    (notification : τ → TaskNotification) : Kernel ε τ where
  lists := memory
  pxDelayedTaskList := DelayedTaskList1
  pxOverflowDelayedTaskList := DelayedTaskList1
  pxCurrentTCB := none
  uxPriority := uxPriority
  notification := notification
  uxCurrentNumberOfTasks := 0
  xTickCount := 0
  uxTopReadyPriority := tskIDLE_PRIORITY
  xSchedulerRunning := false
  xPendedTicks := 0
  xYieldPending := false
  xNumOfOverflows := 0
  xNextTaskUnblockTime := 0
  uxSchedulerSuspended := 0

def createAll : List (τ × Priority) → Kernel ε τ → Option (Kernel ε τ)
  | [], k => some k
  | (t, priority) :: tasks, k => do
    let k ← k.xTaskCreate t priority
    createAll tasks k

-- The tasks of the application are created, then the idle task and the timer
-- task, and the scheduler starts.
def start (tasks : List (τ × Priority)) (k : Kernel ε τ) : Option (Kernel ε τ) := do
  let k ← createAll tasks k
  some k.startScheduler

-- The tasks created so far are ready, and no other task is on any list.
structure Created (k : Kernel ε τ) (s : KernelLists ε τ) (tasks : List τ) : Prop where
  holds : Holds k.lists s
  delayed : k.pxDelayedTaskList = DelayedTaskList1 ∧ k.pxOverflowDelayedTaskList = DelayedTaskList2
  state : ∀ t, s.lists.home (StateListItem t) =
    if t ∈ tasks then some (ReadyTasks (k.uxPriority t)) else none
  event : ∀ t, s.lists.home (EventListItem t) = none
  eventValue : ∀ t ∈ tasks,
    (s.value (EventListItem t)).toNat = configMAX_PRIORITIES - k.uxPriority t
  top : ∀ t ∈ tasks, k.uxPriority t ≤ k.uxTopReadyPriority
  notification : ∀ t ∈ tasks, (k.notification t).state = .NotWaiting
  count : k.uxCurrentNumberOfTasks = tasks.length
  stopped : k.xSchedulerRunning = false
  others : k.xPendedTicks = 0 ∧ k.xYieldPending = false ∧ k.xNumOfOverflows = 0 ∧
    k.uxSchedulerSuspended = 0

-- Before the scheduler runs, the current task is the one that will run first.
def First (k : Kernel ε τ) (tasks : List τ) : Prop :=
  ∃ c ∈ tasks, k.pxCurrentTCB = some c ∧ ∀ t ∈ tasks, k.uxPriority t ≤ k.uxPriority c

section Create

variable {k : Kernel ε τ} {s : KernelLists ε τ} {tasks : List τ} {t : τ} {p : Priority}

theorem priority_value (p : Priority) :
    (BitVec.ofNat 64 configMAX_PRIORITIES - BitVec.ofNat 64 p).toNat = configMAX_PRIORITIES - p := by
  have hlt := p.isLt
  simp only [configMAX_PRIORITIES] at hlt ⊢
  rw [BitVec.toNat_sub, BitVec.toNat_ofNat, BitVec.toNat_ofNat]
  omega

omit [DecidableEq ε] in
theorem vListInitialiseItem_free (lists : Lists (ListName ε) (TaskItem τ)) (i : TaskItem τ)
    (hfree : lists.pxContainer i = none) : vListInitialiseItem i lists = lists := by
  rw [vListInitialiseItem, setContainer, ← hfree, Function.update_eq_self]

theorem Created.initialiseNewTask (h : Created k s tasks) (ht : t ∉ tasks) :
    ∃ s', Created (k.prvInitialiseNewTask t p) s' tasks ∧
      (s'.value (EventListItem t)).toNat = configMAX_PRIORITIES - p := by
  have hstate : k.lists.pxContainer (StateListItem t) = none := by
    rw [h.holds.home, h.state, if_neg ht]
  have hevent : k.lists.pxContainer (EventListItem t) = none := by rw [h.holds.home, h.event]
  have hne : ∀ u ∈ tasks, u ≠ t := by
    rintro u hu rfl
    exact ht hu
  refine ⟨⟨s.lists, Function.update s.value (EventListItem t)
    (BitVec.ofNat 64 configMAX_PRIORITIES - BitVec.ofNat 64 p)⟩,
    ⟨?_, h.delayed, ?_, h.event, ?_, ?_, ?_, h.count, h.stopped, h.others⟩, ?_⟩
  · simp only [Kernel.prvInitialiseNewTask]
    rw [vListInitialiseItem_free _ _ hstate, vListInitialiseItem_free _ _ hevent]
    exact holds_setItemValue h.holds _ _
  · intro u
    show s.lists.home (StateListItem u) = _
    rw [h.state u]
    by_cases hu : u ∈ tasks
    · simp [Kernel.prvInitialiseNewTask, hu, hne u hu]
    · rw [if_neg hu, if_neg hu]
  · intro u hu
    simpa [Kernel.prvInitialiseNewTask, hne u hu] using h.eventValue u hu
  · intro u hu
    simpa [Kernel.prvInitialiseNewTask, hne u hu] using h.top u hu
  · intro u hu
    simpa [Kernel.prvInitialiseNewTask, hne u hu] using h.notification u hu
  · simp only [Function.update_self, priority_value]

theorem Created.addReady (h : Created k s tasks) (ht : t ∉ tasks)
    (hvalue : (s.value (EventListItem t)).toNat = configMAX_PRIORITIES - k.uxPriority t)
    (hslot : (k.notification t).state = .NotWaiting) (current : Option τ) :
    ∃ lists top s', ({ k with
          uxCurrentNumberOfTasks := k.uxCurrentNumberOfTasks + 1
          pxCurrentTCB := current } : Kernel ε τ).prvAddTaskToReadyList t =
        { k with
          uxCurrentNumberOfTasks := k.uxCurrentNumberOfTasks + 1, pxCurrentTCB := current
          lists := lists, uxTopReadyPriority := top } ∧
      Created { k with
        uxCurrentNumberOfTasks := k.uxCurrentNumberOfTasks + 1, pxCurrentTCB := current
        lists := lists, uxTopReadyPriority := top } s' (t :: tasks) := by
  have hfree : s.lists.home (StateListItem t) = none := by rw [h.state, if_neg ht]
  have htop : ∃ top, (if k.uxPriority t > k.uxTopReadyPriority then k.uxPriority t
      else k.uxTopReadyPriority) = top ∧ k.uxPriority t ≤ top ∧ k.uxTopReadyPriority ≤ top := by
    refine ⟨_, rfl, ?_⟩
    split
    · rename_i hgt
      exact ⟨le_refl _, le_of_lt hgt⟩
    · rename_i hgt
      exact ⟨not_lt.mp hgt, le_refl _⟩
  obtain ⟨top, hrecord, hself, hbefore⟩ := htop
  refine ⟨vListInsertEnd (ReadyTasks (k.uxPriority t)) (StateListItem t) k.lists, top, _, ?_,
    ⟨perform_insertEnd h.holds hfree, h.delayed, ?_, ?_, ?_, ?_, ?_, ?_, h.stopped, h.others⟩⟩
  · rw [← hrecord]
    unfold Kernel.prvAddTaskToReadyList Kernel.taskRECORD_READY_PRIORITY
    split
    · rfl
    · rfl
  · intro u
    rw [CursorLists.insertEnd_home]
    by_cases heq : u = t
    · simp [heq]
    · simp [heq, h.state u]
  · intro u
    rw [CursorLists.insertEnd_home, Function.update_of_ne (by simp)]
    exact h.event u
  · intro u hu
    obtain rfl | hu := List.mem_cons.mp hu
    · exact hvalue
    · exact h.eventValue u hu
  · intro u hu
    obtain rfl | hu := List.mem_cons.mp hu
    · exact hself
    · exact le_trans (h.top u hu) hbefore
  · intro u hu
    obtain rfl | hu := List.mem_cons.mp hu
    · exact hslot
    · exact h.notification u hu
  · show k.uxCurrentNumberOfTasks + 1 = _
    rw [h.count, List.length_cons]

theorem prvAddTaskToReadyList_running (t : τ) (k : Kernel ε τ) :
    (k.prvAddTaskToReadyList t).xSchedulerRunning = k.xSchedulerRunning := by
  unfold Kernel.prvAddTaskToReadyList Kernel.taskRECORD_READY_PRIORITY
  split
  · rfl
  · rfl

-- Until the scheduler runs, a task that is created only takes its place.
theorem prvAddNewTaskToReadyList_stopped {c : τ} (hc : k.pxCurrentTCB = some c)
    (hstopped : k.xSchedulerRunning = false) :
    k.prvAddNewTaskToReadyList t = some (({ k with
      uxCurrentNumberOfTasks := k.uxCurrentNumberOfTasks + 1
      pxCurrentTCB := some (if k.uxPriority c ≤ k.uxPriority t then t else c) } :
        Kernel ε τ).prvAddTaskToReadyList t) := by
  unfold Kernel.prvAddNewTaskToReadyList
  by_cases hle : k.uxPriority c ≤ k.uxPriority t
  · simp [hc, hstopped, hle, prvAddTaskToReadyList_running]
  · simp [hc, hstopped, hle, prvAddTaskToReadyList_running]

theorem Created.create (h : Created k s tasks) (hfirst : First k tasks) (ht : t ∉ tasks) :
    ∃ k' s', k.xTaskCreate t p = some k' ∧ Created k' s' (t :: tasks) ∧ First k' (t :: tasks) ∧
      k'.uxPriority = Function.update k.uxPriority t p := by
  obtain ⟨c, hmem, hc, hhighest⟩ := hfirst
  obtain ⟨s₁, h₁, hvalue⟩ := h.initialiseNewTask (p := p) ht
  have hne : ∀ u ∈ tasks, u ≠ t := by
    rintro u hu rfl
    exact ht hu
  -- the new task comes first unless it is below the one that was to come first
  have hchoice : ∃ c', (if k.uxPriority c ≤ p then t else c) = c' ∧ c' ∈ t :: tasks ∧
      ∀ u ∈ t :: tasks, Function.update k.uxPriority t p u ≤ Function.update k.uxPriority t p c' := by
    refine ⟨_, rfl, ?_⟩
    split
    · rename_i hle
      refine ⟨List.mem_cons_self, ?_⟩
      intro u hu
      obtain rfl | hu := List.mem_cons.mp hu
      · exact le_refl _
      · rw [Function.update_of_ne (hne u hu), Function.update_self]
        exact le_trans (hhighest u hu) hle
    · rename_i hlt
      refine ⟨List.mem_cons_of_mem _ hmem, ?_⟩
      intro u hu
      rw [Function.update_of_ne (hne c hmem)]
      obtain rfl | hu := List.mem_cons.mp hu
      · rw [Function.update_self]
        exact le_of_lt (not_le.mp hlt)
      · rw [Function.update_of_ne (hne u hu)]
        exact hhighest u hu
  obtain ⟨c', hchoose, hmem', hhighest'⟩ := hchoice
  obtain ⟨lists, top, s', hadd, h'⟩ := h₁.addReady ht
    (by simpa [Kernel.prvInitialiseNewTask] using hvalue) (by simp [Kernel.prvInitialiseNewTask])
    (some c')
  refine ⟨_, s', ?_, h', ⟨c', hmem', rfl, hhighest'⟩, rfl⟩
  have hc' : (k.prvInitialiseNewTask t p).pxCurrentTCB = some c := hc
  rw [← hadd, Kernel.xTaskCreate, prvAddNewTaskToReadyList_stopped hc' h.stopped, ← hchoose]
  simp [Kernel.prvInitialiseNewTask, Function.update_of_ne (hne c hmem)]

-- The lists of the kernel, all but those of the events.
theorem prvInitialiseTaskLists_initialised {k : Kernel ε τ}
    (hevents : ∀ e, Initialised k.lists (Event e)) (l : ListName ε) :
    Initialised k.prvInitialiseTaskLists.lists l := by
  apply initialised_of_mem
  cases l with
  | Event e => exact .inr (hevents e)
  | ReadyTasks priority => exact .inl (by simp)
  | DelayedTaskList1 => exact .inl (by simp)
  | DelayedTaskList2 => exact .inl (by simp)
  | PendingReady => exact .inl (by simp)
  | TasksWaitingTermination => exact .inl (by simp)
  | SuspendedTask => exact .inl (by simp)

theorem Created.initialiseTaskLists {k : Kernel ε τ} (hfree : ∀ i, k.lists.pxContainer i = none)
    (hevents : ∀ e, Initialised k.lists (Event e)) (hcount : k.uxCurrentNumberOfTasks = 0)
    (hstopped : k.xSchedulerRunning = false)
    (hothers : k.xPendedTicks = 0 ∧ k.xYieldPending = false ∧ k.xNumOfOverflows = 0 ∧
      k.uxSchedulerSuspended = 0) :
    Created k.prvInitialiseTaskLists ⟨.empty, k.lists.values⟩ [] := by
  refine ⟨?_, ⟨rfl, rfl⟩, by simp [CursorLists.empty], fun t => rfl, by simp, by simp, by simp,
    hcount, hstopped, hothers⟩
  have hvalues : k.prvInitialiseTaskLists.lists.values = k.lists.values := initialise_values _ _
  rw [← hvalues]
  apply holds_of_initialised (prvInitialiseTaskLists_initialised hevents)
  have hcontainer : k.prvInitialiseTaskLists.lists.pxContainer = k.lists.pxContainer :=
    initialise_container _ _
  rw [hcontainer]
  exact hfree

-- The first task finds the lists of the events initialised, and has the others
-- initialised.
theorem created_first {memory : Lists (ListName ε) (TaskItem τ)}
    (hfree : ∀ i, memory.pxContainer i = none) (hevents : ∀ e, Initialised memory (Event e))
    (uxPriority : τ → Priority) (notification : τ → TaskNotification) (t : τ) (p : Priority) :
    ∃ k s, (initialKernel memory uxPriority notification).xTaskCreate t p = some k ∧
      Created k s [t] ∧ First k [t] ∧ k.uxPriority = Function.update uxPriority t p := by
  obtain ⟨k, hk⟩ : ∃ k, k = (initialKernel memory uxPriority notification).prvInitialiseNewTask t p :=
    ⟨_, rfl⟩
  have hlists : k.lists = memory.setValue (.Item (EventListItem t))
      (BitVec.ofNat 64 configMAX_PRIORITIES - BitVec.ofNat 64 p) := by
    rw [hk]
    simp only [Kernel.prvInitialiseNewTask, initialKernel]
    rw [vListInitialiseItem_free _ _ (hfree _), vListInitialiseItem_free _ _ (hfree _)]
  have hvalue : (k.lists.values (EventListItem t)).toNat = configMAX_PRIORITIES - p := by
    rw [hlists, values, setValue]
    simp only [Function.update_self, priority_value]
  have hnone : Created k.prvInitialiseTaskLists ⟨.empty, k.lists.values⟩ [] := by
    apply Created.initialiseTaskLists
    · rw [hlists]
      exact hfree
    · intro e
      rw [hlists]
      obtain ⟨hnext, hprevious, hend, hindex, hcount⟩ := hevents e
      exact ⟨hnext, hprevious, by simpa [setValue] using hend, hindex, hcount⟩
    · rw [hk]
      rfl
    · rw [hk]
      rfl
    · rw [hk]
      exact ⟨rfl, rfl, rfl, rfl⟩
  obtain ⟨lists, top, s, hadd, h⟩ := hnone.addReady (t := t) (by simp)
    (by simpa [hk, Kernel.prvInitialiseTaskLists, Kernel.prvInitialiseNewTask] using hvalue)
    (by simp [hk, Kernel.prvInitialiseTaskLists, Kernel.prvInitialiseNewTask]) (some t)
  refine ⟨_, s, ?_, h, ⟨t, by simp, rfl, by simp⟩, by simp [hk, Kernel.prvInitialiseTaskLists,
    Kernel.prvInitialiseNewTask, initialKernel]⟩
  rw [← hadd, hk]
  simp [Kernel.xTaskCreate, Kernel.prvAddNewTaskToReadyList, Kernel.prvInitialiseNewTask,
    Kernel.prvInitialiseTaskLists, initialKernel, prvAddTaskToReadyList_running]

theorem Created.createAll {new : List (τ × Priority)} (h : Created k s tasks) (hfirst : First k tasks)
    (hnodup : (new.map Prod.fst).Nodup) (hnew : ∀ t ∈ new.map Prod.fst, t ∉ tasks) :
    ∃ k' s', createAll new k = some k' ∧ Created k' s' ((new.map Prod.fst).reverse ++ tasks) ∧
      First k' ((new.map Prod.fst).reverse ++ tasks) ∧
      (∀ t p, (t, p) ∈ new → k'.uxPriority t = p) ∧
      ∀ t, t ∉ new.map Prod.fst → k'.uxPriority t = k.uxPriority t := by
  induction new generalizing k s tasks with
  | nil => exact ⟨k, s, rfl, h, hfirst, by simp, fun _ _ => rfl⟩
  | cons task new ih =>
    obtain ⟨t, p⟩ := task
    rw [List.map_cons, List.nodup_cons] at hnodup
    obtain ⟨ht, hnodup⟩ := hnodup
    have htNew : t ∉ tasks := hnew t (by simp)
    obtain ⟨k₁, s₁, hcreate, h₁, hfirst₁, hpriority₁⟩ := h.create (p := p) hfirst htNew
    have hnew₁ : ∀ u ∈ new.map Prod.fst, u ∉ t :: tasks := by
      intro u hu hmem
      obtain rfl | hmem := List.mem_cons.mp hmem
      · exact ht hu
      · exact hnew u (List.mem_cons_of_mem _ hu) hmem
    obtain ⟨k', s', hcreates, h', hfirst', hpriority, hother⟩ := ih h₁ hfirst₁ hnodup hnew₁
    refine ⟨k', s', ?_, by simpa using h', by simpa using hfirst', ?_, ?_⟩
    · rw [SpaceBaremetal.Tasks.createAll, hcreate]
      exact hcreates
    · intro u q hmem
      obtain heq | hmem := List.mem_cons.mp hmem
      · obtain ⟨rfl, rfl⟩ := Prod.mk.inj heq
        rw [hother u ht, hpriority₁, Function.update_self]
      · exact hpriority u q hmem
    · intro u hu
      rw [List.map_cons, List.mem_cons, not_or] at hu
      rw [hother u hu.2, hpriority₁, Function.update_of_ne hu.1]

end Create

-- Everybody is ready and the clock stands at zero.
def everyoneReady : Sleepers ε τ := ⟨0, fun _ => .Ready, fun _ => none⟩

omit [DecidableEq ε] in
theorem Created.startScheduler {k : Kernel ε τ} {s : KernelLists ε τ} {tasks : List τ}
    (h : Created k s tasks) (hfirst : First k tasks) (hall : ∀ t, t ∈ tasks) (idle : τ) :
    Good idle k.startScheduler s everyoneReady := by
  obtain ⟨c, -, hc, hhighest⟩ := hfirst
  have hempty : ∀ l, Keyed l → (s.lists.ring l).items = [] := by
    intro l hl
    rw [List.eq_nil_iff_forall_not_mem]
    intro i hi
    rw [← s.lists.home_iff] at hi
    cases i with
    | EventListItem t => simp [h.event] at hi
    | StateListItem t =>
      rw [h.state, if_pos (hall t), Option.some.injEq] at hi
      rw [← hi] at hl
      exact hl
  have hrel : Rel k.startScheduler s everyoneReady := by
    refine ⟨h.holds, .inl h.delayed, rfl, ?_, ?_, h.event, ?_, ?_, ?_, ?_, ?_, ?_⟩
    · exact h.others.2.2.1.trans (by simp [everyoneReady])
    · intro t
      rw [h.state, if_pos (hall t)]
      rfl
    · rintro t wake ⟨⟩
    · rintro t wake ⟨⟩
    · intro l hl
      rw [InOrder, hempty l hl]
      exact List.Pairwise.nil
    · exact fun t => h.eventValue t (hall t)
    · intro t ht
      rw [h.state, if_pos (hall t)] at ht
      have hd : k.startScheduler.pxDelayedTaskList = DelayedTaskList1 := h.delayed.1
      rw [hd] at ht
      cases ht
    · exact fun t _ => h.top t (hall t)
  have hnotWaiting : ∀ t, (k.notification t).state ≠ .Waiting := by
    intro t
    rw [h.notification t (hall t)]
    simp
  refine ⟨⟨hrel, ⟨?_, ?_, fun _ _ => rfl, rfl⟩, ⟨c, hc⟩, ?_, ?_, fun _ => h.others.1, ?_⟩, ?_⟩
  · rintro t wake ⟨⟩
  · rintro t ⟨⟩
  · show 0 < k.uxCurrentNumberOfTasks
    rw [h.count]
    exact List.length_pos_of_mem (hall idle)
  · rintro - t ⟨⟩
  · exact fun t ht => absurd ht (hnotWaiting t)
  · intro c' hc'
    obtain rfl : c' = c := Option.some.inj (hc'.symm.trans hc)
    exact .inr fun t _ => not_lt.mpr (hhighest t (hall t))

-- From memory in which no task is on a list the kernel comes up with every
-- task ready, and the highest of them first.
theorem start_good {memory : Lists (ListName ε) (TaskItem τ)}
    (hfree : ∀ i, memory.pxContainer i = none) (hevents : ∀ e, Initialised memory (Event e))
    (uxPriority : τ → Priority) (notification : τ → TaskNotification)
    {tasks : List (τ × Priority)} (hnodup : (tasks.map Prod.fst).Nodup)
    (hall : ∀ t, t ∈ tasks.map Prod.fst) (idle : τ) :
    ∃ k s, start tasks (initialKernel memory uxPriority notification) = some k ∧
      Good idle k s everyoneReady ∧ (∀ t p, (t, p) ∈ tasks → k.uxPriority t = p) ∧
      k.xPendedTicks = 0 ∧ (∀ t, (k.notification t).state = .NotWaiting) ∧
      ∃ c, k.pxCurrentTCB = some c ∧ ∀ t, k.uxPriority t ≤ k.uxPriority c := by
  cases tasks with
  | nil => cases hall idle
  | cons task tasks =>
    obtain ⟨t, p⟩ := task
    rw [List.map_cons, List.nodup_cons] at hnodup
    obtain ⟨k₁, s₁, hcreate, h₁, hfirst₁, hpriority₁⟩ :=
      created_first hfree hevents uxPriority notification t p
    have hnew : ∀ u ∈ tasks.map Prod.fst, u ∉ [t] := by
      intro u hu hmem
      rw [List.mem_singleton.mp hmem] at hu
      exact hnodup.1 hu
    obtain ⟨k, s, hcreates, h, hfirst, hpriority, hother⟩ := h₁.createAll hfirst₁ hnodup.2 hnew
    have hall' : ∀ u, u ∈ (tasks.map Prod.fst).reverse ++ [t] := by
      intro u
      simpa [or_comm] using hall u
    have hgood := h.startScheduler hfirst hall' idle
    obtain ⟨c, -, hc, hhighest⟩ := hfirst
    refine ⟨k.startScheduler, s, ?_, hgood, ?_, h.others.1, fun u => h.notification u (hall' u), c,
      hc, fun u => hhighest u (hall' u)⟩
    · simp [start, createAll, hcreate, hcreates]
    · intro u q hmem
      obtain heq | hmem := List.mem_cons.mp hmem
      · obtain ⟨rfl, rfl⟩ := Prod.mk.inj heq
        show k.uxPriority u = _
        rw [hother u hnodup.1, hpriority₁, Function.update_self]
      · exact hpriority u q hmem

end SpaceBaremetal.Tasks

import SpaceBaremetal.Scheduler.Startup

namespace SpaceBaremetal

section Answer

variable {request : StateRequest} {w : World}
  {queue : BoundedQueue StateRequest STATE_REQUEST_QUEUE_LENGTH}

theorem answerRequest_of_none (request : StateRequest) (h : w.xStateRequestQueue = none) :
    (answerRequest request w).1 = false ∧ (answerRequest request w).2.handles = w.handles := by
  unfold answerRequest systemStateRequestChange World.handles
  rw [h]
  exact ⟨rfl, rfl⟩

theorem answerRequest_of_some (request : StateRequest) (h : w.xStateRequestQueue = some queue) :
    (answerRequest request w).1 = (queue.send request).1 ∧
      (answerRequest request w).2.handles =
        { w.handles with stateRequests := some (queue.send request).2 } := by
  unfold answerRequest systemStateRequestChange World.handles
  rw [h]
  exact ⟨rfl, rfl⟩

-- A request to an empty queue is accepted.
theorem answerRequest_of_empty (h : w.xStateRequestQueue = some .empty) :
    (answerRequest request w).1 = true := by
  rw [(answerRequest_of_some request h).1]
  rfl

end Answer

namespace KernelCall

@[simp]
theorem block_handles (call : KernelCall) (w : World) : (call.block w).handles = w.handles := by
  cases call <;> rfl

theorem stateQueueReceive_cases (w : World) :
    stateQueueReceive w = none ∨
      ∃ queue request rest, w.xStateRequestQueue = some queue ∧
        queue.receive = some (request, rest) ∧
        stateQueueReceive w = some (request, { w with xStateRequestQueue := some rest }) := by
  unfold stateQueueReceive
  cases hqueue : w.xStateRequestQueue with
  | none => exact .inl rfl
  | some queue =>
    cases hreceive : queue.receive with
    | none =>
      left
      simp [hreceive]
    | some received =>
      right
      obtain ⟨request, rest⟩ := received
      exact ⟨queue, request, rest, rfl, hreceive, by simp [hreceive]⟩

theorem faultQueueReceive_handles {event : FaultEvent} {w w' : World}
    (h : faultQueueReceive w = some (event, w')) : w'.handles = w.handles := by
  unfold faultQueueReceive at h
  cases hqueue : w.xFaultQueue with
  | none => simp [hqueue] at h
  | some queue =>
    cases hreceive : queue.receive with
    | none => simp [hqueue, hreceive] at h
    | some received =>
      simp only [hqueue, hreceive, Option.some.injEq, Prod.mk.injEq] at h
      obtain ⟨-, rfl⟩ := h
      simp [World.handles, hqueue]

theorem commandQueueReceive_handles {cmd : CommandType} {w w' : World}
    (h : commandQueueReceive w = some (cmd, w')) : w'.handles = w.handles := by
  unfold commandQueueReceive at h
  cases hqueue : w.xCommandQueue with
  | none => simp [hqueue] at h
  | some queue =>
    cases hreceive : queue.receive with
    | none => simp [hqueue, hreceive] at h
    | some received =>
      simp only [hqueue, hreceive, Option.some.injEq, Prod.mk.injEq] at h
      obtain ⟨-, rfl⟩ := h
      simp [World.handles, hqueue]

-- A call that ends takes at most one request out of the state queue.
theorem finish_cases (received : Option Char) (call : KernelCall) (w : World) :
    ((call.finish received w).2.handles = w.handles ∧
        call.taken (call.finish received w).1 = []) ∨
      ∃ queue request rest, w.xStateRequestQueue = some queue ∧
        queue.receive = some (request, rest) ∧
        (call.finish received w).2.handles = { w.handles with stateRequests := some rest } ∧
        call.taken (call.finish received w).1 = [request] := by
  cases call with
  | ReceiveState ticks =>
    obtain hnone | ⟨queue, request, rest, hqueue, hreceive, hsome⟩ := stateQueueReceive_cases w
    · left
      simp [finish, taken, hnone]
    · right
      refine ⟨queue, request, rest, hqueue, hreceive, ?_, ?_⟩
      · simp [finish, hsome]
        rfl
      · simp [finish, taken, hsome]
  | ReceiveFault =>
    left
    cases hreceive : faultQueueReceive w with
    | none => simp [finish, taken, hreceive]
    | some item => simp [finish, taken, hreceive, faultQueueReceive_handles hreceive]
  | ReceiveCommand =>
    left
    cases hreceive : commandQueueReceive w with
    | none => simp [finish, taken, hreceive]
    | some item => simp [finish, taken, hreceive, commandQueueReceive_handles hreceive]
  | _ => exact .inl ⟨rfl, rfl⟩

end KernelCall

namespace System

section Threads

variable {layout : Layout} {allocated : Bool} {received : Option Char} {task other : Task}
  {s : System}

theorem advance_thread_of_ne (hne : other ≠ task) :
    (advance layout allocated received task s).thread other = s.thread other := by
  unfold advance
  split
  · unfold create
    split <;> exact setThread_of_ne hne _ _
  · unfold arrive
    split_ifs
    · rfl
    · exact setThread_of_ne hne _ _
    · exact setThread_of_ne hne _ _
  · exact setThread_of_ne hne _ _
  · split_ifs <;> exact setThread_of_ne hne _ _
  · exact setThread_of_ne hne _ _
  · exact setThread_of_ne hne _ _

-- A task that has run is never new again.
theorem advance_thread_ne_created :
    (advance layout allocated received task s).thread task ≠ .Created := by
  unfold advance
  split
  · unfold create
    split <;> simp
  · rename_i site hthread
    unfold arrive resume
    split_ifs
    · simp [hthread]
    · simp
    · simp
  · simp
  · unfold answer
    split_ifs <;> simp
  · unfold answer
    simp
  · unfold resume
    simp

end Threads

-- What a step of a task can do to the state queue and to the histories.
inductive Effect (task : Task) (s s' : System) : Prop
  | Keeps (handles : s'.world.handles = s.world.handles) (calls : s'.calls = s.calls)
      (taken : s'.taken = s.taken)
  | Answers (request : StateRequest)
      (handles : s'.world.handles = (answerRequest request s.world).2.handles)
      (calls : s'.calls =
        s.calls ++ [{ task := task, request := request, passed := (answerRequest request s.world).1 }])
      (taken : s'.taken = s.taken)
  | Takes (queue rest : BoundedQueue StateRequest STATE_REQUEST_QUEUE_LENGTH)
      (request : StateRequest) (hqueue : s.world.xStateRequestQueue = some queue)
      (hreceive : queue.receive = some (request, rest))
      (handles : s'.world.handles = { s.world.handles with stateRequests := some rest })
      (calls : s'.calls = s.calls) (taken : s'.taken = s.taken ++ [request])

section Step

variable {layout : Layout} {allocated : Bool} {received : Option Char} {task : Task} {s : System}

theorem resume_effect (site : Site task) : Effect task s (resume layout received site s) := by
  obtain ⟨hhandles, htaken⟩ | ⟨queue, request, rest, hqueue, hreceive, hhandles, htaken⟩ :=
    site.call.finish_cases received s.world
  · refine .Keeps hhandles rfl ?_
    change s.taken ++ site.call.taken _ = s.taken
    rw [htaken, List.append_nil]
  · refine .Takes queue rest request hqueue hreceive hhandles rfl ?_
    change s.taken ++ site.call.taken _ = s.taken ++ [request]
    rw [htaken]

theorem arrive_effect (site : Site task) : Effect task s (arrive layout received site s) := by
  unfold arrive
  split_ifs
  · exact .Keeps rfl rfl rfl
  · exact resume_effect site
  · exact .Keeps (site.call.block_handles s.world) rfl rfl

-- Every step but the one that creates the queue.
theorem advance_effect (hstep : task = .StateMachine → s.thread .StateMachine ≠ .Created) :
    Effect task s (advance layout allocated received task s) := by
  unfold advance
  split
  · rename_i hthread
    unfold create
    split
    · exact absurd hthread (hstep rfl)
    · exact .Keeps rfl rfl rfl
  · exact arrive_effect _
  · rename_i f keeps next hthread
    exact .Keeps (keeps s.world) rfl rfl
  · split_ifs
    · exact .Answers _ rfl rfl rfl
    · exact .Keeps rfl rfl rfl
  · exact .Answers _ rfl rfl rfl
  · exact resume_effect _

theorem advance_create (layout : Layout) (allocated : Bool) (received : Option Char)
    (hcreated : s.thread .StateMachine = .Created) :
    (advance layout allocated received .StateMachine s).world.xStateRequestQueue =
        (if allocated then some .empty else none) ∧
      (advance layout allocated received .StateMachine s).calls = s.calls ∧
      (advance layout allocated received .StateMachine s).taken = s.taken := by
  unfold advance
  rw [hcreated]
  exact ⟨rfl, rfl, rfl⟩

end Step

section Service

-- The requests of the calls that returned pdPASS.
def accepted (s : System) : List StateRequest :=
  (s.calls.filter StateCall.passed).map StateCall.request

-- The queue exists from the first step of the state machine on, no task below
-- the state machine has been refused, and what was accepted has been taken or
-- still waits, in order.
structure Served (s : System) : Prop where
  created_iff : s.thread .StateMachine = .Created ↔ s.world.xStateRequestQueue = none
  passed : ∀ call ∈ s.calls, call.task.priority < Task.StateMachine.priority → call.passed = true
  flow : s.accepted = s.taken ++ s.world.pendingRequests

variable {layout : Layout} {received : Option Char} {task : Task} {s s' : System}

theorem pendingRequests_of_handles {w w' : World} (h : w'.handles = w.handles) :
    w'.pendingRequests = w.pendingRequests := by
  have hqueue : w'.xStateRequestQueue = w.xStateRequestQueue :=
    congrArg QueueHandles.stateRequests h
  unfold World.pendingRequests
  rw [hqueue]

-- The state machine waits only for an empty queue.
theorem queue_empty_of_not_ready
    (hcreated : s.thread .StateMachine = .Created ↔ s.world.xStateRequestQueue = none)
    (hwaits : ¬(s.thread .StateMachine).ready s.world) :
    s.world.xStateRequestQueue = some .empty := by
  cases hthread : s.thread .StateMachine with
  | Created => exact absurd (by rw [hthread]; trivial) hwaits
  | Runs code => exact absurd (by rw [hthread]; trivial) hwaits
  | Sends request next => exact absurd (by rw [hthread]; trivial) hwaits
  | Waits site wakeTick =>
    cases site
    cases hqueue : s.world.xStateRequestQueue with
    | none =>
      rw [hthread, hqueue] at hcreated
      exact absurd (hcreated.mpr rfl) (by simp)
    | some queue =>
      have hunavailable : (KernelCall.stateQueueReceive s.world).isSome ≠ true := by
        intro havailable
        rw [hthread] at hwaits
        exact hwaits (.inl havailable)
      have hnone : queue.receive = none := by
        cases hreceive : queue.receive with
        | none => rfl
        | some item =>
          unfold KernelCall.stateQueueReceive at hunavailable
          rw [hqueue] at hunavailable
          simp [hreceive] at hunavailable
      have hempty : queue = .empty := BoundedQueue.ext_items (BoundedQueue.receive_eq_none.mp hnone)
      rw [hempty]

-- Hence it is empty whenever a task below the state machine runs.
theorem queue_empty_of_lower_runs (hserved : s.Served) (hruns : s.Runs task)
    (hlower : task.priority < Task.StateMachine.priority) :
    s.world.xStateRequestQueue = some .empty := by
  have hfixed : FixedPriority.Runs Task.priority (fun task => (s.thread task).ready s.world) task :=
    hruns
  have hwaits := FixedPriority.not_ready_of_runs hfixed hlower
  exact queue_empty_of_not_ready hserved.created_iff hwaits

theorem accepted_append (calls : List StateCall) (call : StateCall) :
    ((calls ++ [call]).filter StateCall.passed).map StateCall.request =
      (calls.filter StateCall.passed).map StateCall.request ++
        if call.passed then [call.request] else [] := by
  rw [List.filter_append, List.map_append]
  cases hpassed : call.passed <;> simp [hpassed]

-- An answer neither creates nor loses the queue.
theorem answered_null_iff {request : StateRequest} {w w' : World}
    (hhandles : w'.handles = (answerRequest request w).2.handles) :
    w.xStateRequestQueue = none ↔ w'.xStateRequestQueue = none := by
  have hqueue' : w'.xStateRequestQueue = (answerRequest request w).2.xStateRequestQueue :=
    congrArg QueueHandles.stateRequests hhandles
  unfold answerRequest systemStateRequestChange at hqueue'
  cases hqueue : w.xStateRequestQueue <;> simp [hqueue', hqueue]

theorem flow_of_answer {request : StateRequest} {w w' : World}
    {taken acceptedBefore : List StateRequest}
    (hflow : acceptedBefore = taken ++ w.pendingRequests)
    (hhandles : w'.handles = (answerRequest request w).2.handles) :
    acceptedBefore ++ (if (answerRequest request w).1 then [request] else []) =
      taken ++ w'.pendingRequests := by
  rw [pendingRequests_of_handles hhandles]
  cases hqueue : w.xStateRequestQueue with
  | none =>
    obtain ⟨hrefused, hkept⟩ := answerRequest_of_none request hqueue
    rw [hrefused, pendingRequests_of_handles hkept, hflow]
    simp
  | some queue =>
    obtain ⟨hanswer, hkept⟩ := answerRequest_of_some request hqueue
    have hafter : (answerRequest request w).2.xStateRequestQueue = some (queue.send request).2 :=
      congrArg QueueHandles.stateRequests hkept
    unfold World.pendingRequests at hflow ⊢
    rw [hqueue] at hflow
    rw [hafter, hanswer]
    exact BoundedQueue.send_flow request hflow

theorem start_served {w : World} (hnull : w.xStateRequestQueue = none) : (start w).Served where
  created_iff := by simp [start, hnull]
  passed := by simp [start]
  flow := by simp [start, accepted, World.pendingRequests, hnull]

-- The step that creates the queue.
theorem create_served (hserved : s.Served) (hcreated : s.thread .StateMachine = .Created) :
    (advance layout true received .StateMachine s).Served := by
  obtain ⟨hqueue, hcalls, htaken⟩ := advance_create layout true received hcreated
  have hnull := hserved.created_iff.mp hcreated
  refine ⟨?_, ?_, ?_⟩
  · rw [hqueue]
    simp [advance_thread_ne_created]
  · rw [hcalls]
    exact hserved.passed
  · have hflow := hserved.flow
    unfold accepted World.pendingRequests at hflow ⊢
    rw [hnull] at hflow
    rw [hcalls, htaken, hqueue]
    exact hflow

theorem served_of_effect (hserved : s.Served) (hruns : s.Runs task)
    (hthread : s'.thread .StateMachine = .Created ↔ s.thread .StateMachine = .Created)
    (heffect : Effect task s s') : s'.Served := by
  cases heffect with
  | Keeps handles calls taken =>
    have hqueue : s'.world.xStateRequestQueue = s.world.xStateRequestQueue :=
      congrArg QueueHandles.stateRequests handles
    refine ⟨?_, ?_, ?_⟩
    · rw [hthread, hserved.created_iff, hqueue]
    · rw [calls]
      exact hserved.passed
    · unfold accepted
      rw [calls, taken, pendingRequests_of_handles handles]
      exact hserved.flow
  | Answers request handles calls taken =>
    refine ⟨?_, ?_, ?_⟩
    · rw [hthread, hserved.created_iff]
      exact answered_null_iff handles
    · rw [calls]
      intro call hcall hlower
      rw [List.mem_append, List.mem_singleton] at hcall
      obtain hcall | rfl := hcall
      · exact hserved.passed call hcall hlower
      · exact answerRequest_of_empty (queue_empty_of_lower_runs hserved hruns hlower)
    · unfold accepted
      rw [calls, taken, accepted_append]
      exact flow_of_answer hserved.flow handles
  | Takes queue rest request hqueue hreceive handles calls taken =>
    have hafter : s'.world.xStateRequestQueue = some rest :=
      congrArg QueueHandles.stateRequests handles
    refine ⟨?_, ?_, ?_⟩
    · rw [hthread, hserved.created_iff, hqueue, hafter]
      simp
    · rw [calls]
      exact hserved.passed
    · have hflow := hserved.flow
      unfold accepted World.pendingRequests at hflow ⊢
      rw [hqueue] at hflow
      rw [calls, taken, hafter]
      exact BoundedQueue.receive_flow hflow hreceive

theorem advance_served (hserved : s.Served) (hruns : s.Runs task) :
    (advance layout true received task s).Served := by
  by_cases hcreates : task = .StateMachine ∧ s.thread .StateMachine = .Created
  · obtain ⟨rfl, hcreated⟩ := hcreates
    exact create_served hserved hcreated
  · have heffect : Effect task s (advance layout true received task s) :=
      advance_effect fun htask hcreated => hcreates ⟨htask, hcreated⟩
    have hthread : (advance layout true received task s).thread .StateMachine = .Created ↔
        s.thread .StateMachine = .Created := by
      by_cases htask : task = .StateMachine
      · subst htask
        simp only [advance_thread_ne_created, false_iff]
        exact fun hcreated => hcreates ⟨rfl, hcreated⟩
      · rw [advance_thread_of_ne (Ne.symm htask)]
    exact served_of_effect hserved hruns hthread heffect

theorem reachable_served {w : World} (hnull : w.xStateRequestQueue = none)
    (hreach : Reachable layout true w s) : s.Served := by
  refine Transition.invariant_of_step ?_ ?_ hreach
  · rintro s rfl
    exact start_served hnull
  · intro s s' hserved hstep
    cases hstep with
    | Tick halted => exact ⟨hserved.created_iff, hserved.passed, hserved.flow⟩
    | Advance task received halted hruns => exact advance_served hserved hruns

-- A task is at a call of `system_state_request_change`, before or after the
-- NULL check.
def Requests (s : System) (task : Task) (request : StateRequest) : Prop :=
  s.Runs task ∧
    ∃ next, s.thread task = .Runs (.Call request next) ∨ s.thread task = .Sends request next

-- The callers of `system_state_request_change` below the state machine can
-- ignore its result: every request of theirs is accepted, and the state machine
-- takes what is accepted in order.
theorem lower_requests_never_dropped (layout : Layout) (w : World)
    (hnull : w.xStateRequestQueue = none) (s : System) (hreach : Reachable layout true w s) :
    (∀ task request, task.priority < Task.StateMachine.priority → s.Requests task request →
        s.world.xStateRequestQueue = some .empty ∧
          (systemStateRequestChange request.requestedState request.reasonCode s.world).1 = true) ∧
      (∀ call ∈ s.calls, call.task.priority < Task.StateMachine.priority → call.passed = true) ∧
      s.accepted = s.taken ++ s.world.pendingRequests := by
  have hserved := reachable_served hnull hreach
  refine ⟨?_, hserved.passed, hserved.flow⟩
  rintro task request hlower ⟨hruns, -⟩
  have hempty := queue_empty_of_lower_runs hserved hruns hlower
  exact ⟨hempty, answerRequest_of_empty hempty⟩

def commandedWorld : World :=
  { startupWorld with xCommandQueue := some ⟨[.GoNominal], by decide⟩ }

-- An operator's 'n' that waits when the scheduler starts.
theorem lower_requests_never_dropped_operator :
    ∃ s : System, Reachable startupLayout true commandedWorld s ∧
      s.Requests .CommandHandler ⟨.Nominal, 0x10⟩ ∧ s.world.xStateRequestQueue = some .empty ∧
      (systemStateRequestChange .Nominal 0x10 s.world).1 = true := by
  obtain ⟨s, next, hsteps, hruns, hthread⟩ :=
    start_steps_request startupLayout (w := commandedWorld) (by decide) rfl rfl
  have hreach : Reachable startupLayout true commandedWorld s := ⟨_, rfl, hsteps⟩
  have hrequests : s.Requests .CommandHandler ⟨.Nominal, 0x10⟩ := ⟨hruns, next, .inl hthread⟩
  have hpasses := (lower_requests_never_dropped startupLayout commandedWorld rfl s hreach).1
  exact ⟨s, hreach, hrequests, hpasses .CommandHandler ⟨.Nominal, 0x10⟩ (by decide) hrequests⟩

end Service

end System

end SpaceBaremetal

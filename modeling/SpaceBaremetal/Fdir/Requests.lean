import SpaceBaremetal.Fdir.Cycles

namespace SpaceBaremetal

def Event.movesState : Event → Bool
  | .Boot _ => true
  | .Handled _ _ _ => true
  | _ => false

def Event.handled : Event → List StateRequest
  | .Handled request _ _ => [request]
  | _ => []

def Event.asked : Event → List StateRequest
  | .CycleEnd _ _ requested => requested
  | _ => []

namespace Fdir

-- What the state machine has received or will receive.
def pending (s : Fdir) : List StateRequest := s.held.toList ++ s.world.pendingRequests

-- A request that scrubbing, memory protection or the operator made, or that a
-- cycle of the watchdog ended with.
def Known (trace : List Event) (request : StateRequest) : Prop :=
  request ∈ faultRequests ∨ request.reasonCode = 0x10 ∨
    ∃ task logged requested, Event.CycleEnd task logged requested ∈ trace ∧ request ∈ requested

-- The requests that the state machine has handled, and those that cycles of the
-- watchdog have ended with.
def handledRequests (trace : List Event) : List StateRequest := trace.flatMap Event.handled

def askedRequests (trace : List Event) : List StateRequest := trace.flatMap Event.asked

-- A request that nobody but the watchdog makes.
def OfWatchdog (request : StateRequest) : Prop :=
  request ∉ faultRequests ∧ request.reasonCode ≠ 0x10

-- What an event says about the history before it.
def Judged (imageOk : Bool) (before : List Event) : Event → Prop
  | .Boot booted => stateAfter before = .Boot ∧ booted = if imageOk then .Nominal else .Degraded
  | .Handled request from_ to_ =>
      from_ = stateAfter before ∧ from_ ≠ .Boot ∧ to_ = applied from_ request ∧
        Known before request ∧ (OfWatchdog request →
          (handledRequests before).count request < (askedRequests before).count request)
  | .CycleStart state _ => state = stateAfter before
  | .FaultInjectCheck allowed _ => allowed = safePolicyAllowsAutoFaultInject (stateAfter before)
  | .Kick taskBit _ _ =>
      taskBit = WATCHDOG_BIT_HEARTBEAT ∨ taskBit = WATCHDOG_BIT_MEMSCRUB ∨
        taskBit = WATCHDOG_BIT_FAULTINJECT ∧ ∃ tick, Event.FaultInjectCheck true tick ∈ before
  | _ => True

-- The history accounts for the state, for every pending request and for every
-- FaultInject kick; and what the watchdog asked for is handled or pending no more
-- often than it asked.
structure Accounted (imageOk : Bool) (s : Fdir) : Prop where
  state_eq : s.world.gSystemState = stateAfter s.trace
  image_eq : s.world.imageIntegrityOk = imageOk
  running : s.stateMachineRunning = true → s.world.gSystemState ≠ .Boot
  idle : s.stateMachineRunning = false → s.held = none ∧ s.world.gSystemState = .Boot
  pending_known : ∀ request ∈ s.pending, Known s.trace request
  owed : ∀ request, OfWatchdog request →
    (handledRequests s.trace).count request + s.pending.count request ≤
      (askedRequests s.trace).count request
  allowed : s.faultInjectAllowed = true → ∃ tick, Event.FaultInjectCheck true tick ∈ s.trace
  judged : History.Each (Judged imageOk) s.trace

-- The same for an event that leaves the state as it is, by the state it is
-- added in.
def Observed (s : Fdir) : Event → Prop
  | .Boot _ => False
  | .Handled _ _ _ => False
  | .CycleStart state _ => state = s.world.gSystemState
  | .FaultInjectCheck allowed _ => allowed = safePolicyAllowsAutoFaultInject s.world.gSystemState
  | .Kick taskBit _ _ =>
      taskBit = WATCHDOG_BIT_HEARTBEAT ∨ taskBit = WATCHDOG_BIT_MEMSCRUB ∨
        taskBit = WATCHDOG_BIT_FAULTINJECT ∧ s.faultInjectAllowed = true
  | _ => True

-- A step that is not one of the state machine.
structure Unmoved (s s' : Fdir) : Prop where
  state_eq : s'.world.gSystemState = s.world.gSystemState
  image_eq : s'.world.imageIntegrityOk = s.world.imageIntegrityOk
  running_eq : s'.stateMachineRunning = s.stateMachineRunning
  held_eq : s'.held = s.held
  pending_known : ∀ request ∈ s'.world.pendingRequests,
    request ∈ s.world.pendingRequests ∨ Known s'.trace request
  owed : ∀ request, OfWatchdog request →
    s'.world.pendingRequests.count request + (askedRequests s.trace).count request ≤
      s.world.pendingRequests.count request + (askedRequests s'.trace).count request
  allowed : s'.faultInjectAllowed = true →
    s.faultInjectAllowed = true ∨ ∃ tick, Event.FaultInjectCheck true tick ∈ s'.trace
  trace_eq : s'.trace = s.trace ∨ ∃ event, s'.trace = s.trace ++ [event] ∧ Observed s event

section Known

variable {trace more : List Event} {request : StateRequest}

theorem known_append (h : Known trace request) : Known (trace ++ more) request := by
  obtain hfault | hoperator | ⟨task, logged, requested, hend, hrequested⟩ := h
  · exact .inl hfault
  · exact .inr (.inl hoperator)
  · exact .inr (.inr ⟨task, logged, requested, List.mem_append_left _ hend, hrequested⟩)

theorem stateAfter_append (trace : List Event) (event : Event) :
    stateAfter (trace ++ [event]) =
      match event with
      | .Boot booted => booted
      | .Handled _ _ to_ => to_
      | _ => stateAfter trace := by
  unfold stateAfter
  rw [List.foldl_append]
  rfl

theorem stateAfter_of_not_moves {event : Event} (h : event.movesState = false) :
    stateAfter (trace ++ [event]) = stateAfter trace := by
  rw [stateAfter_append]
  cases event with
  | Boot booted => exact absurd h (by simp [Event.movesState])
  | Handled request from_ to_ => exact absurd h (by simp [Event.movesState])
  | _ => rfl

theorem handledRequests_append (trace : List Event) (event : Event) :
    handledRequests (trace ++ [event]) = handledRequests trace ++ event.handled := by
  simp [handledRequests]

theorem askedRequests_append (trace : List Event) (event : Event) :
    askedRequests (trace ++ [event]) = askedRequests trace ++ event.asked := by
  simp [askedRequests]

theorem handledRequests_of_not_moves {event : Event} (h : event.movesState = false) :
    handledRequests (trace ++ [event]) = handledRequests trace := by
  rw [handledRequests_append]
  cases event with
  | Handled request from_ to_ => exact absurd h (by simp [Event.movesState])
  | _ => exact List.append_nil _

theorem asked_count_le (trace : List Event) (event : Event) (request : StateRequest) :
    (askedRequests trace).count request ≤ (askedRequests (trace ++ [event])).count request := by
  rw [askedRequests_append, List.count_append]
  exact Nat.le_add_right _ _

end Known

section Invariant

variable {layout : Layout} {imageOk : Bool} {s s' : Fdir}

theorem not_moves_of_observed {event : Event} (h : Observed s event) : event.movesState = false := by
  cases event with
  | Boot booted => exact absurd h id
  | Handled request from_ to_ => exact absurd h id
  | _ => rfl

theorem asked_le_of_trace
    (htrace : s'.trace = s.trace ∨ ∃ event, s'.trace = s.trace ++ [event] ∧ Observed s event)
    (request : StateRequest) :
    (askedRequests s.trace).count request ≤ (askedRequests s'.trace).count request := by
  obtain hsame | ⟨event, hadded, -⟩ := htrace
  · rw [hsame]
  · rw [hadded]
    exact asked_count_le s.trace event request

theorem not_allowed_of_watchdog {allowed : StateRequest → Prop}
    (hkind : ∀ request, allowed request → request ∈ faultRequests ∨ request.reasonCode = 0x10)
    {request : StateRequest} (h : OfWatchdog request) : ¬allowed request :=
  fun hallowed => (hkind request hallowed).elim h.1 h.2

theorem judged_of_observed (h : Accounted imageOk s) {event : Event} (hevent : Observed s event) :
    Judged imageOk s.trace event := by
  cases event with
  | Boot booted => exact absurd hevent id
  | Handled request from_ to_ => exact absurd hevent id
  | CycleStart state tick => exact Eq.trans hevent h.state_eq
  | FaultInjectCheck allowed tick =>
    unfold Judged
    rw [← h.state_eq]
    exact hevent
  | Kick taskBit delivered tick => exact hevent.imp_right (fun hrest => hrest.imp_right
      (fun hfault => ⟨hfault.1, h.allowed hfault.2⟩))
  | _ => trivial

theorem unmoved_judged (h : Accounted imageOk s) (hstep : Unmoved s s') :
    ∃ more, s'.trace = s.trace ++ more ∧ stateAfter s'.trace = stateAfter s.trace ∧
      handledRequests s'.trace = handledRequests s.trace ∧
      History.Each (Judged imageOk) s'.trace := by
  cases hstep.trace_eq with
  | inl hsame =>
    rw [hsame]
    exact ⟨[], (List.append_nil _).symm, rfl, rfl, h.judged⟩
  | inr hadded =>
    obtain ⟨event, htrace, hevent⟩ := hadded
    have hstays := not_moves_of_observed hevent
    rw [htrace]
    exact ⟨[event], rfl, stateAfter_of_not_moves hstays, handledRequests_of_not_moves hstays,
      History.each_append h.judged (judged_of_observed h hevent)⟩

theorem accounted_unmoved (h : Accounted imageOk s) (hstep : Unmoved s s') :
    Accounted imageOk s' := by
  obtain ⟨more, htrace, hstate, hhandled, hjudged⟩ := unmoved_judged h hstep
  refine ⟨?_, hstep.image_eq.trans h.image_eq, ?_, ?_, ?_, ?_, ?_, hjudged⟩
  · rw [hstep.state_eq, hstate]
    exact h.state_eq
  · rw [hstep.running_eq, hstep.state_eq]
    exact h.running
  · rw [hstep.running_eq, hstep.held_eq, hstep.state_eq]
    exact h.idle
  · intro request hrequest
    unfold pending at hrequest
    rw [hstep.held_eq] at hrequest
    have hbefore : request ∈ s.pending → Known s'.trace request := by
      intro hmem
      rw [htrace]
      exact known_append (h.pending_known request hmem)
    cases List.mem_append.mp hrequest with
    | inl hheld => exact hbefore (List.mem_append_left _ hheld)
    | inr hqueued =>
      cases hstep.pending_known request hqueued with
      | inl hearlier => exact hbefore (List.mem_append_right _ hearlier)
      | inr hknown => exact hknown
  · intro request hwatchdog
    have hpaid := h.owed request hwatchdog
    have hgrown := hstep.owed request hwatchdog
    unfold pending at hpaid ⊢
    rw [List.count_append] at hpaid
    rw [hhandled, hstep.held_eq, List.count_append]
    omega
  · intro hallowed
    cases hstep.allowed hallowed with
    | inl hearlier =>
      obtain ⟨tick, hcheck⟩ := h.allowed hearlier
      rw [htrace]
      exact ⟨tick, List.mem_append_left _ hcheck⟩
    | inr hcheck => exact hcheck

-- Requests that are not the watchdog's may be sent meanwhile.
theorem unmoved_of_sends {allowed : StateRequest → Prop} (hsends : Sends allowed s.world s'.world)
    (hkind : ∀ request, allowed request → request ∈ faultRequests ∨ request.reasonCode = 0x10)
    (hrunning : s'.stateMachineRunning = s.stateMachineRunning) (hheld : s'.held = s.held)
    (hallowed : s'.faultInjectAllowed = true → s.faultInjectAllowed = true)
    (htrace : s'.trace = s.trace ∨ ∃ event, s'.trace = s.trace ++ [event] ∧ Observed s event) :
    Unmoved s s' := by
  refine ⟨sends_state hsends, sends_imageOk hsends, hrunning, hheld, ?_, ?_,
    fun h => .inl (hallowed h), htrace⟩
  · intro request hrequest
    exact (sends_pending hsends request hrequest).imp_right
      (fun hsent => (hkind request hsent).imp_right .inl)
  · intro request hwatchdog
    rw [sends_count hsends (not_allowed_of_watchdog hkind hwatchdog)]
    exact Nat.add_le_add_left (asked_le_of_trace htrace request) _

theorem unmoved_of_slot {notification : TaskNotification} (hworld : s'.world =
      { s.world with watchdogNotification := notification })
    (hrunning : s'.stateMachineRunning = s.stateMachineRunning) (hheld : s'.held = s.held)
    (hallowed : s'.faultInjectAllowed = s.faultInjectAllowed)
    (htrace : s'.trace = s.trace ∨ ∃ event, s'.trace = s.trace ++ [event] ∧ Observed s event) :
    Unmoved s s' := by
  refine ⟨?_, ?_, hrunning, hheld, ?_, ?_, ?_, htrace⟩
  · rw [hworld]
  · rw [hworld]
  · rw [hworld]
    exact fun request hrequest => .inl hrequest
  · rw [hworld]
    exact fun request _ => Nat.add_le_add_left (asked_le_of_trace htrace request) _
  · rw [hallowed]
    exact .inl

theorem unmoved_waitOrExit (task : WatchdogTask) : Unmoved s (waitOrExit task s) := by
  unfold waitOrExit
  split
  · exact unmoved_of_slot rfl rfl rfl rfl (.inr ⟨_, rfl, trivial⟩)
  · exact unmoved_of_slot rfl rfl rfl rfl (.inl rfl)

theorem unmoved_endCycle (task : WatchdogTask) : Unmoved s (endCycle task s) := by
  have hsends := watchdogEndCycle_sends task s.world
  refine ⟨sends_state hsends, sends_imageOk hsends, rfl, rfl, ?_, ?_, .inl,
    .inr ⟨_, rfl, trivial⟩⟩
  · intro request hrequest
    refine (sends_pending hsends request hrequest).imp_right (fun hasked => .inr (.inr ?_))
    refine ⟨task, _, _, List.mem_append_right _ List.mem_cons_self, ?_⟩
    rw [watchdogEndCycle_requested, hasked]
    exact List.mem_cons_self
  · intro request _
    have hsent := watchdogEndCycle_count task s.world request
    change (watchdogEndCycle task s.world).2.pendingRequests.count request + _ ≤
      _ + (askedRequests (s.trace ++ [.CycleEnd task _ _])).count request
    rw [askedRequests_append, List.count_append, Event.asked, watchdogEndCycle_requested]
    omega

theorem unmoved_kick (taskBit : BitVec 32) (allowed : Bool)
    (hbit : taskBit = WATCHDOG_BIT_HEARTBEAT ∨ taskBit = WATCHDOG_BIT_MEMSCRUB ∨
      taskBit = WATCHDOG_BIT_FAULTINJECT ∧ s.faultInjectAllowed = true)
    (hallowed : allowed = true → s.faultInjectAllowed = true) :
    Unmoved s { kick layout taskBit s with faultInjectAllowed := allowed } := by
  have htrace : ∃ event, (kick layout taskBit s).trace = s.trace ++ [event] ∧ Observed s event :=
    ⟨_, rfl, hbit⟩
  cases hdelivered : kickPermitted layout s.world && s.world.xWatchdogTaskHandle.isSome with
  | false =>
    exact unmoved_of_sends (watchdogKick_refused layout taskBit s.world hdelivered)
      (fun request hrequest => .inl hrequest) rfl rfl hallowed (.inr htrace)
  | true =>
    obtain ⟨middle, hsends, hkick⟩ := watchdogKick_delivered layout taskBit s.world hdelivered
    refine ⟨?_, ?_, rfl, rfl, ?_, ?_, fun h => .inl (hallowed h), .inr htrace⟩
    · change (watchdogKick layout taskBit s.world).gSystemState = _
      rw [hkick]
      have hstate := sends_state hsends
      exact hstate
    · change (watchdogKick layout taskBit s.world).imageIntegrityOk = _
      rw [hkick]
      have himage := sends_imageOk hsends
      exact himage
    · change ∀ request ∈ (watchdogKick layout taskBit s.world).pendingRequests, _
      rw [hkick]
      intro request hrequest
      exact (sends_pending hsends request hrequest).imp_right .inl
    · intro request hwatchdog
      change (watchdogKick layout taskBit s.world).pendingRequests.count request + _ ≤ _
      rw [hkick]
      have hsame := sends_count hsends hwatchdog.1
      have hasked := asked_le_of_trace (.inr htrace) request
      exact Nat.add_le_add (Nat.le_of_eq hsame) hasked

theorem accounted_watchdog (h : Accounted imageOk s) (hstep : WatchdogStep s s') :
    Accounted imageOk s' := by
  cases hstep with
  | Start hpc =>
    exact ⟨h.state_eq, h.image_eq, h.running, h.idle, h.pending_known, h.owed, h.allowed, h.judged⟩
  | BeginCycle successfulCycles hpc =>
    refine accounted_unmoved (accounted_unmoved h ?_) (unmoved_waitOrExit _)
    exact unmoved_of_slot rfl rfl rfl rfl (.inr ⟨_, rfl, rfl⟩)
  | Wake task wakeTick hpc hready =>
    unfold wake
    dsimp only
    split_ifs
    · refine accounted_unmoved (accounted_unmoved h ?_) (unmoved_waitOrExit _)
      exact unmoved_of_slot rfl rfl rfl rfl (.inl rfl)
    · refine accounted_unmoved h ?_
      exact unmoved_of_slot rfl rfl rfl rfl (.inr ⟨_, rfl, trivial⟩)
  | EndCycle task hpc => exact accounted_unmoved h (unmoved_endCycle task)

theorem accounted_boot (h : Accounted imageOk s) (allocated : Bool)
    (hpc : s.stateMachineRunning = false) : Accounted imageOk (boot allocated s) := by
  have hcontrol := stateMachineBoot_control allocated s.world
  have hstate : (stateMachineBoot allocated s.world).gSystemState =
      if imageOk then .Nominal else .Degraded := by
    rw [← h.image_eq]
    exact congrArg Control.state hcontrol
  have hqueue : (stateMachineBoot allocated s.world).pendingRequests = [] := by
    have hcreated : (stateMachineBoot allocated s.world).xStateRequestQueue =
        if allocated then some BoundedQueue.empty else none := congrArg Control.queue hcontrol
    unfold World.pendingRequests
    rw [hcreated]
    cases allocated with
    | false => rfl
    | true => rfl
  have hpending : (boot allocated s).pending = [] := by
    change s.held.toList ++ (stateMachineBoot allocated s.world).pendingRequests = []
    rw [(h.idle hpc).1, hqueue]
    rfl
  refine ⟨?_, (congrArg Control.imageOk hcontrol).trans h.image_eq, ?_, ?_, ?_, ?_, ?_, ?_⟩
  · exact (stateAfter_append s.trace (.Boot _)).symm
  · intro _
    change (stateMachineBoot allocated s.world).gSystemState ≠ .Boot
    rw [hstate]
    split_ifs
    · simp
    · simp
  · exact fun hrunning => absurd hrunning (by simp [boot])
  · rw [hpending]
    exact fun request hrequest => absurd hrequest List.not_mem_nil
  · intro request hwatchdog
    have hpaid := h.owed request hwatchdog
    rw [hpending]
    change (handledRequests (s.trace ++ [.Boot _])).count request + 0 ≤
      (askedRequests (s.trace ++ [.Boot _])).count request
    simp only [handledRequests_append, askedRequests_append, Event.handled, Event.asked,
      List.append_nil]
    omega
  · intro hallowed
    obtain ⟨tick, hcheck⟩ := h.allowed hallowed
    exact ⟨tick, List.mem_append_left _ hcheck⟩
  · exact History.each_append h.judged ⟨h.state_eq.symm.trans (h.idle hpc).2, hstate⟩

theorem accounted_receive (h : Accounted imageOk s)
    {queue rest : BoundedQueue StateRequest STATE_REQUEST_QUEUE_LENGTH} {request : StateRequest}
    (hpc : s.stateMachineRunning = true) (hqueue : s.world.xStateRequestQueue = some queue)
    (hreceive : queue.receive = some (request, rest)) :
    Accounted imageOk
      { s with
          world := { s.world with xStateRequestQueue := some rest }
          held := some request } := by
  have hitems : s.world.pendingRequests = request :: rest.items := by
    unfold World.pendingRequests
    rw [hqueue]
    exact BoundedQueue.receive_eq_some.mp hreceive
  refine ⟨h.state_eq, h.image_eq, h.running, ?_, ?_, ?_, h.allowed, h.judged⟩
  · exact fun hidle => absurd (hpc.symm.trans hidle) (by simp)
  · intro received hreceived
    apply h.pending_known received
    apply List.mem_append_right
    rw [hitems]
    exact hreceived
  · intro other hwatchdog
    have hpaid := h.owed other hwatchdog
    unfold pending at hpaid ⊢
    rw [hitems, List.count_append] at hpaid
    change (handledRequests s.trace).count other + (request :: rest.items).count other ≤
      (askedRequests s.trace).count other
    omega

theorem accounted_handle (h : Accounted imageOk s) {request : StateRequest}
    (hheld : s.held = some request) : Accounted imageOk (handle request s) := by
  have hcontrol := stateMachineHandle_control request s.world
  have hrunning : s.stateMachineRunning = true := by
    by_contra hstopped
    rw [(h.idle (eq_false_of_ne_true hstopped)).1] at hheld
    exact absurd hheld (by simp)
  have happlied := stateMachineHandle_state request s.world
  have hqueue : (stateMachineHandle request s.world).xStateRequestQueue =
      s.world.xStateRequestQueue := congrArg Control.queue hcontrol
  have hpending : s.pending = request :: (handle request s).pending := by
    unfold pending handle World.pendingRequests
    dsimp only
    rw [hheld, hqueue]
    rfl
  have hmem : request ∈ s.pending := by
    rw [hpending]
    exact List.mem_cons_self
  refine ⟨?_, (congrArg Control.imageOk hcontrol).trans h.image_eq, ?_, ?_, ?_, ?_, ?_, ?_⟩
  · exact (stateAfter_append s.trace (.Handled _ _ _)).symm
  · intro _
    change (stateMachineHandle request s.world).gSystemState ≠ .Boot
    rw [happlied]
    exact applied_ne_boot (h.running hrunning) request
  · exact fun hstopped => absurd (hrunning.symm.trans hstopped) (by simp)
  · intro other hother
    apply known_append
    apply h.pending_known
    rw [hpending]
    exact List.mem_cons_of_mem _ hother
  · intro other hwatchdog
    have hpaid := h.owed other hwatchdog
    rw [hpending, ← List.singleton_append, List.count_append] at hpaid
    change (handledRequests (s.trace ++ [.Handled request _ _])).count other + _ ≤
      (askedRequests (s.trace ++ [.Handled request _ _])).count other
    simp only [handledRequests_append, askedRequests_append, Event.handled, Event.asked,
      List.append_nil, List.count_append]
    omega
  · intro hallowed
    obtain ⟨tick, hcheck⟩ := h.allowed hallowed
    exact ⟨tick, List.mem_append_left _ hcheck⟩
  · refine History.each_append h.judged
      ⟨h.state_eq, h.running hrunning, happlied, h.pending_known request hmem, ?_⟩
    intro hwatchdog
    have hpaid := h.owed request hwatchdog
    have hpos := List.count_pos_iff.mpr hmem
    omega

theorem operatorRequest_reason {cmd : CommandType} {request : StateRequest}
    (h : operatorRequest cmd = some request) : request.reasonCode = 0x10 := by
  cases cmd with
  | GoNominal => exact (Option.some.inj h) ▸ rfl
  | GoDegraded => exact (Option.some.inj h) ▸ rfl
  | GoSafe => exact (Option.some.inj h) ▸ rfl
  | _ => exact absurd h (by simp [operatorRequest])

theorem operatorRequest_goNominal {request : StateRequest} (hnominal : request.requestedState = .Nominal)
    (hreason : request.reasonCode = 0x10) : operatorRequest .GoNominal = some request := by
  cases request with
  | mk requestedState reasonCode =>
    dsimp only at hnominal hreason
    rw [hnominal, hreason]
    rfl

theorem accounted_step (h : Accounted imageOk s) (hstep : Step layout s s') :
    Accounted imageOk s' := by
  cases hstep with
  | Watchdog _ hwatchdog => exact accounted_watchdog h hwatchdog
  | Tick ticks =>
    exact ⟨h.state_eq, h.image_eq, h.running, h.idle, h.pending_known, h.owed, h.allowed, h.judged⟩
  | Boot allocated hpc => exact accounted_boot h allocated hpc
  | Receive queue rest request hpc hheld hqueue hreceive =>
    exact accounted_receive h hpc hqueue hreceive
  | Handle request hheld => exact accounted_handle h hheld
  | HeartbeatKick => exact accounted_unmoved h (unmoved_kick _ s.faultInjectAllowed (.inl rfl) id)
  | MemScrubKick =>
    exact accounted_unmoved h (unmoved_kick _ s.faultInjectAllowed (.inr (.inl rfl)) id)
  | FaultInjectCheck =>
    refine accounted_unmoved h ⟨rfl, rfl, rfl, rfl, fun _ => .inl, ?_, ?_, .inr ⟨_, rfl, rfl⟩⟩
    · exact fun request _ => Nat.add_le_add_left (asked_count_le s.trace _ request) _
    intro hallowed
    right
    refine ⟨s.world.xTickCount, List.mem_append_right _ ?_⟩
    rw [List.mem_singleton]
    exact congrArg (Event.FaultInjectCheck · s.world.xTickCount) hallowed.symm
  | FaultInjectKick hallowed =>
    exact accounted_unmoved h
      (unmoved_kick _ false (.inr (.inr ⟨rfl, hallowed⟩)) (fun hfalse => absurd hfalse (by simp)))
  | Command cmd =>
    refine accounted_unmoved h
      (unmoved_of_sends (commandHandle_sends layout cmd s.world) ?_ rfl rfl id (.inl rfl))
    intro request hrequest
    exact hrequest.imp_right operatorRequest_reason
  | Background w' hsends =>
    exact accounted_unmoved h
      (unmoved_of_sends hsends (fun _ hrequest => .inl hrequest) rfl rfl id (.inl rfl))

theorem accounted_initial (h : Initial imageOk s) : Accounted imageOk s := by
  refine ⟨?_, h.image_eq, ?_, fun _ => ⟨h.held_eq, h.state_eq⟩, ?_, ?_, ?_, ?_⟩
  · rw [h.state_eq, h.trace_eq]
    rfl
  · rw [h.stateMachine_eq]
    exact fun hrunning => absurd hrunning (by simp)
  · unfold pending World.pendingRequests
    rw [h.held_eq, h.queue_eq]
    exact fun request hrequest => absurd hrequest List.not_mem_nil
  · unfold pending World.pendingRequests
    rw [h.held_eq, h.queue_eq, h.trace_eq]
    exact fun request _ => Nat.le_refl _
  · rw [h.faultInject_eq]
    exact fun hallowed => absurd hallowed (by simp)
  · rw [h.trace_eq]
    exact History.each_nil _

theorem accounted_of_reachable (h : Transition.Reachable (Initial imageOk) (Step layout) s) :
    Accounted imageOk s := by
  refine Transition.invariant_of_step ?_ ?_ h
  · exact fun _ hinitial => accounted_initial hinitial
  · exact fun _ _ hinv hstep => accounted_step hinv hstep

end Invariant

end Fdir

end SpaceBaremetal

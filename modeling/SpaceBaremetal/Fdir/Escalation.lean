import SpaceBaremetal.Fdir.Requests

namespace SpaceBaremetal.Fdir

-- A property of the transitions that the state machine has made, judged by the
-- history before them.
def onTransition (P : List Event → StateRequest → SystemState → SystemState → Prop)
    (before : List Event) : Event → Prop
  | .Handled request from_ to_ => from_ ≠ to_ → P before request from_ to_
  | _ => True

instance (P : List Event → StateRequest → SystemState → SystemState → Prop)
    [∀ before request from_ to_, Decidable (P before request from_ to_)] (before : List Event) :
    ∀ event, Decidable (onTransition P before event)
  | .Handled request from_ to_ => inferInstanceAs (Decidable (from_ ≠ to_ → P before request from_ to_))
  | .Boot _ => inferInstanceAs (Decidable True)
  | .CycleStart _ _ => inferInstanceAs (Decidable True)
  | .LoopExit _ _ => inferInstanceAs (Decidable True)
  | .CycleEnd _ _ _ => inferInstanceAs (Decidable True)
  | .Kick _ _ _ => inferInstanceAs (Decidable True)
  | .FaultInjectCheck _ _ => inferInstanceAs (Decidable True)

-- The stretch brings the system into the state and leaves it there.
def MovesInto (state : SystemState) (events : List Event) : Prop :=
  ∃ earlier request from_ later, events = earlier ++ .Handled request from_ state :: later ∧
    from_ ≠ state ∧ ∀ request' from' to', Event.Handled request' from' to' ∈ later → to' = state

-- Automatic recovery only ever lifts DEGRADED, so SAFE is left by the operator.
def OnlyOperatorLeavesSafe (trace : List Event) : Prop :=
  History.Each (onTransition fun _ request from_ _ =>
    (request.reasonCode = 0x03 → from_ = .Degraded) ∧
      (from_ = .Safe → request.reasonCode = 0x10)) trace

-- Cycles have ended with the request more often than it has been handled, and
-- whichever of them it was sent by was complete and had started in DEGRADED; the
-- system still is in DEGRADED or has gone to SAFE since that start.
def AnswersRecovery (before : List Event) (request : StateRequest) (from_ : SystemState) : Prop :=
  (handledRequests before).count request < (askedRequests before).count request ∧
    (∃ cycle : Cycle, before = cycle.history ∧ request ∈ cycle.requested) ∧
    ∀ cycle : Cycle, before = cycle.history → request ∈ cycle.requested →
      cycle.state = .Degraded ∧ cycle.task.complete = true ∧
        (from_ = .Degraded ∨ from_ = .Safe ∧ MovesInto .Safe cycle.sinceStart)

def RecoveriesAnswer (trace : List Event) : Prop :=
  History.Each (onTransition fun before request from_ to_ =>
    (request.reasonCode = 0x03 → to_ = .Nominal ∧ AnswersRecovery before request from_) ∧
      (from_ = .Safe → operatorRequest .GoNominal = some request ∨ request.reasonCode = 0x03)) trace

-- A watchdog timeout takes the system up by one level.
def EscalatesOneLevel (trace : List Event) : Prop :=
  History.Each (onTransition fun _ request from_ to_ => request.reasonCode = 0x01 →
    (from_ = .Boot ∨ from_ = .Nominal) ∧ to_ = .Degraded ∨ from_ = .Degraded ∧ to_ = .Safe) trace

-- The request was made at the end of a cycle that started in DEGRADED and timed
-- out, and since that start the system has been brought back to NOMINAL.
def LapsedTimeout (before : List Event) (request : StateRequest) : Prop :=
  ∃ cycle : Cycle, before = cycle.history ∧ cycle.state = .Degraded ∧ cycle.task.complete = false ∧
    request ∈ cycle.requested ∧ MovesInto .Nominal cycle.sinceStart

def NoLapsedTimeouts (trace : List Event) : Prop :=
  History.Each (fun before event =>
    match event with
    | .Handled request _ _ => ¬ LapsedTimeout before request
    | _ => True) trace

section Moves

variable {imageOk : Bool} {early late : List Event} {state : SystemState}

-- Booting is behind the system once it has left BOOT.
theorem stateAfter_ne_boot (hjudged : History.Each (Judged imageOk) (early ++ late))
    (hearly : stateAfter early ≠ .Boot) : stateAfter (early ++ late) ≠ .Boot := by
  induction late using List.reverseRecOn with
  | nil => rwa [List.append_nil]
  | append_singleton late event ih =>
    rw [← List.append_assoc] at hjudged ⊢
    have hupTo := ih (History.each_of_append hjudged)
    have hevent := hjudged _ event [] rfl
    rw [stateAfter_append]
    cases event with
    | Boot booted => exact absurd hevent.1 hupTo
    | Handled request from_ to_ =>
      obtain ⟨-, hfrom, hto, -⟩ := hevent
      dsimp only
      rw [hto]
      exact applied_ne_boot hfrom request
    | _ => exact hupTo

theorem movesInto_of_stateAfter (hjudged : History.Each (Judged imageOk) (early ++ late))
    (hboot : stateAfter early ≠ .Boot) (hearly : stateAfter early ≠ state)
    (hlate : stateAfter (early ++ late) = state) : MovesInto state late := by
  induction late using List.reverseRecOn with
  | nil =>
    rw [List.append_nil] at hlate
    exact absurd hlate hearly
  | append_singleton late event ih =>
    rw [← List.append_assoc] at hjudged hlate
    have hupTo := History.each_of_append hjudged
    have hevent := hjudged _ event [] rfl
    have hnotBoot := stateAfter_ne_boot hupTo hboot
    rw [stateAfter_append] at hlate
    by_cases hthere : stateAfter (early ++ late) = state
    · obtain ⟨earlier, request, from_, later, rfl, hne, hstays⟩ := ih hupTo hthere
      refine ⟨earlier, request, from_, later ++ [event], by simp, hne, ?_⟩
      intro request' from' to' hmem
      cases List.mem_append.mp hmem with
      | inl hin => exact hstays request' from' to' hin
      | inr hlast =>
        rw [List.mem_singleton] at hlast
        rw [← hlast] at hlate
        exact hlate
    · cases event with
      | Boot booted => exact absurd hevent.1 hnotBoot
      | Handled request from_ to_ =>
        obtain ⟨hfrom, -⟩ := hevent
        rw [← hfrom] at hthere
        dsimp only at hlate
        rw [hlate]
        exact ⟨late, request, from_, [], rfl, hthere, fun _ _ _ hmem => absurd hmem List.not_mem_nil⟩
      | _ => exact absurd hlate hthere

theorem stateAfter_of_stays {start later : List Event}
    (hjudged : History.Each (Judged imageOk) (start ++ later)) (hstate : state ≠ .Boot)
    (hstart : stateAfter start = state)
    (hstays : ∀ request' from' to', Event.Handled request' from' to' ∈ later → to' = state) :
    stateAfter (start ++ later) = state := by
  induction later using List.reverseRecOn with
  | nil => rwa [List.append_nil]
  | append_singleton later event ih =>
    rw [← List.append_assoc] at hjudged ⊢
    have hupTo := ih (History.each_of_append hjudged)
      (fun request' from' to' hmem => hstays request' from' to' (List.mem_append_left _ hmem))
    have hevent := hjudged _ event [] rfl
    rw [stateAfter_append]
    cases event with
    | Boot booted => exact absurd (hupTo.symm.trans hevent.1) hstate
    | Handled request from_ to_ =>
      exact hstays request from_ to_ (List.mem_append_right _ List.mem_cons_self)
    | _ => exact hupTo

theorem stateAfter_of_movesInto (hjudged : History.Each (Judged imageOk) (early ++ late))
    (hstate : state ≠ .Boot) (h : MovesInto state late) : stateAfter (early ++ late) = state := by
  obtain ⟨earlier, request, from_, later, rfl, -, hstays⟩ := h
  have hsplit : early ++ (earlier ++ .Handled request from_ state :: later) =
      (early ++ earlier ++ [.Handled request from_ state]) ++ later := by simp
  rw [hsplit] at hjudged ⊢
  apply stateAfter_of_stays hjudged hstate _ hstays
  rw [stateAfter_append]

end Moves

section Answered

variable {imageOk : Bool} {cycle : Cycle}

theorem cycle_started (hjudged : History.Each (Judged imageOk) cycle.history) :
    stateAfter (cycle.before ++ [.CycleStart cycle.state cycle.start]) = cycle.state := by
  have hstart : cycle.state = stateAfter cycle.before := hjudged _ _ _ rfl
  rw [stateAfter_append]
  exact hstart.symm

-- The system is where a cycle found it, or has been moved from there since.
theorem movesInto_since {state : SystemState}
    (hjudged : History.Each (Judged imageOk) cycle.history) (hsampled : cycle.state = .Degraded)
    (hne : SystemState.Degraded ≠ state) (hnow : stateAfter cycle.history = state) :
    MovesInto state cycle.sinceStart := by
  have hstarted := (cycle_started hjudged).trans hsampled
  rw [Cycle.history_split] at hjudged hnow
  apply movesInto_of_stateAfter hjudged _ _ hnow
  · rw [hstarted]
    simp
  · rwa [hstarted]

theorem faultRequests_reason {request : StateRequest} (h : request ∈ faultRequests) :
    request.reasonCode = 0x02 ∨ request.reasonCode = 0x04 := by
  revert request
  decide

theorem asked (h : cycle.Told) {request : StateRequest} (hrequest : request ∈ cycle.requested) :
    watchdogRequest cycle.task = some request := by
  rw [h.requested_eq, Option.mem_toList] at hrequest
  exact hrequest

-- The cycle that a known request with one of the watchdog's reasons answers.
theorem answered_cycle {before : List Event} {request : StateRequest} (htells : CyclesTell before)
    (hknown : Known before request) (hreason : request.reasonCode = 0x01 ∨ request.reasonCode = 0x03) :
    ∃ cycle : Cycle, before = cycle.history ∧ cycle.state = cycle.task.currentState ∧
      request ∈ cycle.requested ∧ watchdogRequest cycle.task = some request := by
  obtain hfault | hoperator | ⟨task, logged, requested, hend, hrequested⟩ := hknown
  · have hother := faultRequests_reason hfault
    exfalso
    revert hreason hother
    generalize request.reasonCode = reason
    rintro (rfl | rfl) <;> decide
  · rw [hoperator] at hreason
    exact absurd hreason (by decide)
  · obtain ⟨earlier, after, hsplit⟩ := List.append_of_mem hend
    obtain ⟨cycle, hcycle, -, -, rfl, -⟩ := cycle_of_end htells hsplit
    rw [hcycle] at htells
    exact ⟨cycle, hcycle, (cycle.told htells).state_eq, hrequested, asked (cycle.told htells) hrequested⟩

-- What the watchdog asks for, by the reason it gives.
theorem watchdogRequest_recovery {task : WatchdogTask} {request : StateRequest}
    (h : watchdogRequest task = some request) (hreason : request.reasonCode = 0x03) :
    task.complete = true ∧ task.currentState = .Degraded ∧ request = ⟨.Nominal, 0x03⟩ := by
  by_cases hcomplete : task.complete = true
  · exact ⟨hcomplete, watchdogRequest_complete hcomplete h⟩
  · exfalso
    revert hreason
    obtain rfl | ⟨-, rfl⟩ := watchdogRequest_incomplete (eq_false_of_ne_true hcomplete) h
    · decide
    · decide

theorem watchdogRequest_timeout {task : WatchdogTask} {request : StateRequest}
    (h : watchdogRequest task = some request) (hreason : request.reasonCode = 0x01) :
    task.complete = false ∧ (request = ⟨.Degraded, 0x01⟩ ∨
      task.currentState = .Degraded ∧ request = ⟨.Safe, 0x01⟩) := by
  by_cases hcomplete : task.complete = true
  · rw [(watchdogRequest_complete hcomplete h).2] at hreason
    exact absurd hreason (by decide)
  · have hincomplete := eq_false_of_ne_true hcomplete
    exact ⟨hincomplete, watchdogRequest_incomplete hincomplete h⟩

end Answered

section Transitions

variable {layout : Layout} {imageOk : Bool} {s : Fdir}

-- A transition of a run, with what the history before it tells.
theorem transition_judged (h : Transition.Reachable (Initial imageOk) (Step layout) s)
    {before after : List Event} {request : StateRequest} {from_ to_ : SystemState}
    (hsplit : s.trace = before ++ .Handled request from_ to_ :: after) :
    from_ = stateAfter before ∧ from_ ≠ .Boot ∧ to_ = applied from_ request ∧
      Known before request ∧ CyclesTell before ∧ History.Each (Judged imageOk) before := by
  have hjudged := (accounted_of_reachable h).judged
  have htells := (cycleTracks_of_reachable h).tells
  obtain ⟨hfrom, hboot, hto, hknown, -⟩ := hjudged _ _ _ hsplit
  rw [hsplit] at hjudged htells
  exact ⟨hfrom, hboot, hto, hknown, History.each_of_append htells, History.each_of_append hjudged⟩

-- What only the watchdog makes is not handled more often than it was asked for.
theorem request_owed (h : Transition.Reachable (Initial imageOk) (Step layout) s)
    {before after : List Event} {request : StateRequest} {from_ to_ : SystemState}
    (hsplit : s.trace = before ++ .Handled request from_ to_ :: after)
    (hwatchdog : OfWatchdog request) :
    (handledRequests before).count request < (askedRequests before).count request := by
  obtain ⟨-, -, -, -, howed⟩ := (accounted_of_reachable h).judged _ _ _ hsplit
  exact howed hwatchdog

theorem ofWatchdog_recovery {request : StateRequest} (h : request.reasonCode = 0x03) :
    OfWatchdog request := by
  unfold OfWatchdog
  rw [h]
  refine ⟨?_, by decide⟩
  intro hfault
  have hother := faultRequests_reason hfault
  rw [h] at hother
  exact absurd hother (by decide)

end Transitions

section Recovery

variable {layout : Layout} {imageOk : Bool} {s : Fdir}

-- The recovery is judged by what the cycle sampled at its start, and by the
-- time it is applied the system may be in SAFE.
theorem recovery_answered (h : Transition.Reachable (Initial imageOk) (Step layout) s)
    {before after : List Event} {request : StateRequest} {from_ to_ : SystemState}
    (hsplit : s.trace = before ++ .Handled request from_ to_ :: after) (hmoves : from_ ≠ to_)
    (hreason : request.reasonCode = 0x03) :
    to_ = .Nominal ∧ AnswersRecovery before request from_ := by
  obtain ⟨hfrom, hboot, hto, hknown, htells, hjudged⟩ := transition_judged h hsplit
  obtain ⟨sender, hsender, -, hsent, hasked⟩ := answered_cycle htells hknown (.inr hreason)
  obtain ⟨-, -, hrecovery⟩ := watchdogRequest_recovery hasked hreason
  have hnominal : to_ = .Nominal := by
    rw [hto] at hmoves ⊢
    rw [(applied_moves hmoves).1, hrecovery]
  have howed := request_owed h hsplit (ofWatchdog_recovery hreason)
  refine ⟨hnominal, howed, ⟨sender, hsender, hsent⟩, ?_⟩
  intro cycle hcycle hrequested
  rw [hcycle] at htells hjudged hfrom
  obtain ⟨hcomplete, hdegraded, -⟩ :=
    watchdogRequest_recovery (asked (cycle.told htells) hrequested) hreason
  have hsampled : cycle.state = .Degraded := (cycle.told htells).state_eq.trans hdegraded
  refine ⟨hsampled, hcomplete, ?_⟩
  cases hcase : from_ with
  | Boot => exact absurd hcase hboot
  | Nominal => exact absurd (hcase.trans hnominal.symm) hmoves
  | Degraded => exact .inl rfl
  | Safe =>
    exact .inr ⟨rfl, movesInto_since hjudged hsampled (by simp) (hfrom.symm.trans hcase)⟩

-- SAFE is left on one of the two reasons for recovery only.
theorem safe_left {request : StateRequest} (h : SystemState.Safe ≠ applied .Safe request) :
    request.requestedState = .Nominal ∧ (request.reasonCode = 0x03 ∨ request.reasonCode = 0x10) := by
  obtain ⟨-, hup | ⟨hnominal, -, hreason⟩⟩ := applied_moves h
  · revert hup
    cases request.requestedState <;> simp [SystemState.value]
  · exact ⟨hnominal, hreason⟩

-- Over every interleaving of cycles, commands and requests.
theorem recoveries_answer (layout : Layout) (imageOk : Bool) (s : Fdir)
    (h : Transition.Reachable (Initial imageOk) (Step layout) s) : RecoveriesAnswer s.trace := by
  intro before event after hsplit
  cases event with
  | Handled request from_ to_ =>
    intro hmoves
    refine ⟨recovery_answered h hsplit hmoves, ?_⟩
    intro hsafe
    obtain ⟨-, -, hto, -⟩ := transition_judged h hsplit
    rw [hto, hsafe] at hmoves
    obtain ⟨hnominal, hreason⟩ := safe_left hmoves
    cases hreason with
    | inl hrecovery => exact .inr hrecovery
    | inr hoperator => exact .inl (operatorRequest_goNominal hnominal hoperator)
  | _ => trivial

def operatorMoves (cmd : CommandType) : List Action := [.Command cmd, .Receive, .Handle]

-- One kick completes a cycle once every bit has been kicked.
def completeCycle : List Action := [.BeginCycle, .HeartbeatKick, .Wake, .EndCycle]

-- The operator commands DEGRADED, and SAFE in the middle of the fifth complete
-- cycle after that.
def safeInFifthCycle : List Action :=
  [.Boot true, .WatchdogStart, .BeginCycle, .HeartbeatKick, .MemScrubKick, .FaultInjectCheck,
    .FaultInjectKick, .Wake, .EndCycle] ++ operatorMoves .GoDegraded ++ completeCycle ++
    completeCycle ++ completeCycle ++ completeCycle ++ [.BeginCycle] ++ operatorMoves .GoSafe ++
    [.HeartbeatKick, .Wake, .EndCycle, .Receive, .Handle]

theorem recoveries_answer_safe_in_fifth_cycle :
    RecoveriesAnswer (run startupLayout (start true) safeInFifthCycle).trace :=
  recoveries_answer startupLayout true _ (reachable_run_start true safeInFifthCycle)

theorem recovery_leaves_safe :
    ¬ ∀ imageOk s, Transition.Reachable (Initial imageOk) (Step startupLayout) s →
      OnlyOperatorLeavesSafe s.trace := by
  intro h
  have hsafe := h true _ (reachable_run_start true safeInFifthCycle)
  revert hsafe
  unfold OnlyOperatorLeavesSafe
  decide +kernel

end Recovery

section Timeout

variable {layout : Layout} {imageOk : Bool} {s : Fdir}

-- A lapsed request takes the system from NOMINAL to SAFE.
theorem lapsed_skips (h : Transition.Reachable (Initial imageOk) (Step layout) s)
    {before after : List Event} {request : StateRequest} {from_ to_ : SystemState}
    (hsplit : s.trace = before ++ .Handled request from_ to_ :: after)
    (hlapsed : LapsedTimeout before request) :
    request.reasonCode = 0x01 ∧ from_ = .Nominal ∧ to_ = .Safe := by
  obtain ⟨hfrom, -, hto, -, htells, hjudged⟩ := transition_judged h hsplit
  obtain ⟨cycle, rfl, hdegraded, hincomplete, hrequested, hmoved⟩ := hlapsed
  have htold := cycle.told htells
  rw [Cycle.history_split] at hfrom hjudged
  rw [stateAfter_of_movesInto hjudged (by simp) hmoved] at hfrom
  have hsafe : request = ⟨.Safe, 0x01⟩ := by
    have hrequest := asked htold hrequested
    unfold watchdogRequest at hrequest
    rw [hincomplete, if_neg Bool.false_ne_true, ← htold.state_eq, hdegraded] at hrequest
    exact (Option.some.inj hrequest).symm
  rw [hsafe, hfrom] at hto
  rw [hsafe]
  exact ⟨rfl, hfrom, hto⟩

theorem degraded_up {state : SystemState}
    (h : state ≠ applied state ⟨.Degraded, 0x01⟩) : state = .Boot ∨ state = .Nominal := by
  obtain ⟨-, hallows⟩ := applied_moves h
  revert hallows
  cases state <;> decide

theorem safe_up {state : SystemState} (h : state ≠ applied state ⟨.Safe, 0x01⟩) (hboot : state ≠ .Boot) :
    state = .Nominal ∨ state = .Degraded := by
  obtain ⟨-, hallows⟩ := applied_moves h
  revert hallows hboot
  cases state <;> decide

-- Any other timeout request is one level up from the state that it meets.
theorem one_level (h : Transition.Reachable (Initial imageOk) (Step layout) s)
    {before after : List Event} {request : StateRequest} {from_ to_ : SystemState}
    (hsplit : s.trace = before ++ .Handled request from_ to_ :: after)
    (hcurrent : ¬ LapsedTimeout before request) (hmoves : from_ ≠ to_)
    (hreason : request.reasonCode = 0x01) :
    (from_ = .Boot ∨ from_ = .Nominal) ∧ to_ = .Degraded ∨ from_ = .Degraded ∧ to_ = .Safe := by
  obtain ⟨hfrom, hboot, hto, hknown, htells, hjudged⟩ := transition_judged h hsplit
  obtain ⟨cycle, hcycle, hstate, hrequested, hasked⟩ := answered_cycle htells hknown (.inl hreason)
  obtain ⟨hincomplete, hrequest⟩ := watchdogRequest_timeout hasked hreason
  rw [hto] at hmoves
  have happlied := (applied_moves hmoves).1
  rw [← hto] at happlied
  obtain rfl | ⟨hdegraded, rfl⟩ := hrequest
  · exact .inl ⟨degraded_up hmoves, happlied⟩
  · refine .inr ⟨(safe_up hmoves hboot).resolve_left ?_, happlied⟩
    -- The cycle sampled DEGRADED, so NOMINAL was entered after its start.
    intro hnominal
    have hsampled : cycle.state = .Degraded := hstate.trans hdegraded
    refine absurd ⟨cycle, hcycle, hsampled, hincomplete, hrequested, ?_⟩ hcurrent
    rw [hcycle] at hjudged hfrom
    exact movesInto_since hjudged hsampled (by simp) (hfrom.symm.trans hnominal)

-- Over every interleaving of the cycles with all other producers of requests.
theorem escalates_iff_no_lapsed_timeout (layout : Layout) (imageOk : Bool) (s : Fdir)
    (h : Transition.Reachable (Initial imageOk) (Step layout) s) :
    EscalatesOneLevel s.trace ↔ NoLapsedTimeouts s.trace := by
  constructor
  · intro hlevel before event after hsplit
    cases event with
    | Handled request from_ to_ =>
      intro hlapsed
      obtain ⟨hreason, hfrom, hto⟩ := lapsed_skips h hsplit hlapsed
      have hone := hlevel _ _ _ hsplit
      rw [hfrom, hto] at hone
      exact absurd (hone (by simp) hreason) (by simp)
    | _ => trivial
  · intro hlapsed before event after hsplit
    cases event with
    | Handled request from_ to_ => exact one_level h hsplit (hlapsed _ _ _ hsplit)
    | _ => trivial

def timedOutCycle : List Action := [.BeginCycle, .Tick 3500, .Wake, .EndCycle]

-- Two timeouts in a row.
def twoTimeouts : List Action :=
  [.Boot true, .WatchdogStart] ++ timedOutCycle ++ [.Receive, .Handle] ++ timedOutCycle ++
    [.Receive, .Handle]

theorem escalates_iff_no_lapsed_timeout_twice :
    EscalatesOneLevel (run startupLayout (start true) twoTimeouts).trace ∧
      NoLapsedTimeouts (run startupLayout (start true) twoTimeouts).trace := by
  have hlevel : EscalatesOneLevel (run startupLayout (start true) twoTimeouts).trace := by
    unfold EscalatesOneLevel
    decide +kernel
  exact ⟨hlevel, (escalates_iff_no_lapsed_timeout startupLayout true _
    (reachable_run_start true twoTimeouts)).mp hlevel⟩

-- The operator brings the system back to NOMINAL while a cycle that started in
-- DEGRADED waits for kicks that do not come.
def nominalInTimedOutCycle : List Action :=
  [.Boot true, .WatchdogStart] ++ operatorMoves .GoDegraded ++ [.BeginCycle] ++
    operatorMoves .GoNominal ++ [.Tick 3500, .Wake, .EndCycle, .Receive, .Handle]

theorem timeout_skips_degraded :
    ¬ ∀ imageOk s, Transition.Reachable (Initial imageOk) (Step startupLayout) s →
      EscalatesOneLevel s.trace := by
  intro h
  have hlevel := h true _ (reachable_run_start true nominalInTimedOutCycle)
  revert hlevel
  unfold EscalatesOneLevel
  decide +kernel

end Timeout

end SpaceBaremetal.Fdir

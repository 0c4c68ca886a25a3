import SpaceBaremetal.Fdir.Cycles
import SpaceBaremetal.Fdir.Freshness

namespace SpaceBaremetal.Fdir

-- The history never goes back in time, and it is not ahead of the clock.
structure TimeTracks (s : Fdir) : Prop where
  ordered : History.InOrder Event.tick? s.trace
  stamped : History.StampedBy Event.tick? s.world.xTickCount s.trace

section Time

variable {layout : Layout} {imageOk : Bool} {s s' : Fdir}

theorem timeTracks_append (h : TimeTracks s) (more : List Event) (htrace : s'.trace = s.trace ++ more)
    (hticks : s.world.xTickCount ≤ s'.world.xTickCount)
    (hmore : ∀ event ∈ more, ∀ tick ∈ event.tick?, tick = s.world.xTickCount) : TimeTracks s' := by
  refine ⟨?_, ?_⟩
  · rw [htrace]
    exact History.inOrder_append h.ordered h.stamped hmore
  · rw [htrace]
    exact History.stampedBy_mono (History.stampedBy_append h.stamped hmore) hticks

theorem timeTracks_event (h : TimeTracks s) (event : Event) (htrace : s'.trace = s.trace ++ [event])
    (hticks : s'.world.xTickCount = s.world.xTickCount)
    (hevent : ∀ tick ∈ event.tick?, tick = s.world.xTickCount) : TimeTracks s' := by
  refine timeTracks_append h [event] htrace (Nat.le_of_eq hticks.symm) ?_
  intro event' hmem
  rw [List.mem_singleton] at hmem
  rw [hmem]
  exact hevent

theorem timeTracks_waitOrExit (h : TimeTracks s) (task : WatchdogTask) :
    TimeTracks (waitOrExit task s) := by
  unfold waitOrExit
  cases watchdogRemaining task s.world with
  | none => exact timeTracks_event h _ rfl rfl (fun _ htick => (Option.some.inj htick).symm)
  | some remaining => exact ⟨h.ordered, h.stamped⟩

theorem timeTracks_watchdog (h : TimeTracks s) (hstep : WatchdogStep s s') : TimeTracks s' := by
  cases hstep with
  | Start hpc => exact ⟨h.ordered, h.stamped⟩
  | BeginCycle successfulCycles hpc =>
    apply timeTracks_waitOrExit
    exact timeTracks_event h _ rfl rfl (fun _ htick => (Option.some.inj htick).symm)
  | Wake task wakeTick hpc hready =>
    unfold wake
    dsimp only
    split_ifs
    · apply timeTracks_waitOrExit
      exact ⟨h.ordered, h.stamped⟩
    · exact timeTracks_event h _ rfl rfl (fun _ htick => (Option.some.inj htick).symm)
  | EndCycle task hpc =>
    have hticks := sends_ticks (watchdogEndCycle_sends task s.world)
    exact timeTracks_event h _ rfl hticks (fun _ htick => absurd htick (by simp [Event.tick?]))

theorem timeTracks_of_reachable (h : Transition.Reachable (Initial imageOk) (Step layout) s) :
    TimeTracks s := by
  refine Transition.invariant_of_step ?_ ?_ h
  · intro s hinitial
    refine ⟨?_, ?_⟩
    · rw [hinitial.trace_eq]
      exact History.each_nil _
    · rw [hinitial.trace_eq]
      exact fun event hevent => absurd hevent List.not_mem_nil
  · intro s s' hinv hstep
    cases step_cases hstep with
    | inl hwatchdog => exact timeTracks_watchdog hinv hwatchdog
    | inr hquiet =>
      obtain ⟨-, hticks, more, htrace, hmore⟩ := hquiet
      exact timeTracks_append hinv more htrace hticks (fun event hevent => (hmore event hevent).2)

end Time

-- A kick in the stretch that got through before the deadline. It ends the loop
-- body of Heartbeat and of MemScrub.
def KickedBefore (deadline : Nat) (taskBit : BitVec 32) (events : List Event) : Prop :=
  ∃ tick, Event.Kick taskBit true tick ∈ events ∧ tick < deadline

-- FaultInject has made its check and, if that let it, its kick.
def FaultInjectRan (deadline : Nat) (events : List Event) : Prop :=
  ∃ earlier allowed tick later, events = earlier ++ .FaultInjectCheck allowed tick :: later ∧
    tick < deadline ∧ (allowed = true → KickedBefore deadline WATCHDOG_BIT_FAULTINJECT later)

namespace Cycle

variable (cycle : Cycle)

-- Every task runs one full loop body between the start of the cycle and its
-- deadline, and the kicks in it are not denied.
structure Healthy : Prop where
  heartbeat : KickedBefore cycle.deadline WATCHDOG_BIT_HEARTBEAT cycle.sinceStart
  memScrub : KickedBefore cycle.deadline WATCHDOG_BIT_MEMSCRUB cycle.sinceStart
  faultInject : FaultInjectRan cycle.deadline cycle.sinceStart

structure Passes : Prop where
  complete : cycle.task.complete = true
  no_timeout : ∀ entry ∈ cycle.logged, entry.type ≠ .WatchdogTimeout
  no_request : ∀ request ∈ cycle.requested, request.reasonCode ≠ 0x01

-- FaultInject has kicked at some time before the cycle leaves its loop.
def FaultInjectHeard : Prop :=
  kickedBits cycle.untilExit &&& WATCHDOG_BIT_FAULTINJECT = WATCHDOG_BIT_FAULTINJECT

end Cycle

-- The bits that the three tasks kick while the system stays in the state.
def kickedIn (state : SystemState) : BitVec 32 :=
  WATCHDOG_BIT_HEARTBEAT ||| WATCHDOG_BIT_MEMSCRUB |||
    if safePolicyAllowsAutoFaultInject state then WATCHDOG_BIT_FAULTINJECT else 0

-- What a state demands, the tasks kick in it.
def DemandMet (state : SystemState) : Prop :=
  safePolicyWatchdogExpectedBits state &&& kickedIn state = safePolicyWatchdogExpectedBits state

theorem demandMet_iff (state : SystemState) :
    DemandMet state ↔ state = .Nominal ∨ state = .Safe := by
  unfold DemandMet
  cases state with
  | Boot => decide
  | Nominal => decide
  | Degraded => decide
  | Safe => decide

section Bits

theorem kickedBits_mem {trace : List Event} {taskBit : BitVec 32} {tick : Nat}
    (h : Event.Kick taskBit true tick ∈ trace) : kickedBits trace &&& taskBit = taskBit := by
  obtain ⟨before, after, rfl⟩ := List.append_of_mem h
  have hone : kickedBits (before ++ [.Kick taskBit true tick]) = kickedBits before ||| taskBit :=
    kickedBits_concat _ _
  have hsplit : before ++ Event.Kick taskBit true tick :: after =
      (before ++ [.Kick taskBit true tick]) ++ after := by simp
  rw [hsplit, kickedBits_append, hone]
  ext i
  simp only [BitVec.getElem_and, BitVec.getElem_or]
  cases taskBit[i] <;> simp

theorem expectedBits_safe (received : BitVec 32)
    (hheartbeat : received &&& WATCHDOG_BIT_HEARTBEAT = WATCHDOG_BIT_HEARTBEAT)
    (hmemScrub : received &&& WATCHDOG_BIT_MEMSCRUB = WATCHDOG_BIT_MEMSCRUB) :
    received &&& WATCHDOG_SAFE_EXPECTED_BITS = WATCHDOG_SAFE_EXPECTED_BITS := by
  unfold WATCHDOG_SAFE_EXPECTED_BITS
  rw [BitVec.and_or_distrib_left, hheartbeat, hmemScrub]

theorem expectedBits_full (received : BitVec 32)
    (hheartbeat : received &&& WATCHDOG_BIT_HEARTBEAT = WATCHDOG_BIT_HEARTBEAT)
    (hmemScrub : received &&& WATCHDOG_BIT_MEMSCRUB = WATCHDOG_BIT_MEMSCRUB)
    (hfaultInject : received &&& WATCHDOG_BIT_FAULTINJECT = WATCHDOG_BIT_FAULTINJECT) :
    received &&& WATCHDOG_EXPECTED_BITS = WATCHDOG_EXPECTED_BITS := by
  unfold WATCHDOG_EXPECTED_BITS
  rw [BitVec.and_or_distrib_left, BitVec.and_or_distrib_left, hheartbeat, hmemScrub, hfaultInject]

-- Outside of SAFE the FaultInject bit is expected.
theorem faultInject_of_expected {state : SystemState} (hstate : state ≠ .Safe) {received : BitVec 32}
    (h : received &&& safePolicyWatchdogExpectedBits state = safePolicyWatchdogExpectedBits state) :
    received &&& WATCHDOG_BIT_FAULTINJECT = WATCHDOG_BIT_FAULTINJECT := by
  have hexpects : safePolicyWatchdogExpectedBits state &&& WATCHDOG_BIT_FAULTINJECT =
      WATCHDOG_BIT_FAULTINJECT := by
    unfold safePolicyWatchdogExpectedBits
    rw [if_neg hstate]
    decide
  rw [← hexpects, ← BitVec.and_assoc, h]

end Bits

section Healthy

variable {cycle : Cycle}

-- The wait that ends the cycle has everything kicked before it, if anything
-- was kicked in the cycle.
theorem accumulated_untilExit {taskBit : BitVec 32} {tick : Nat}
    (h : Event.Kick taskBit true tick ∈ cycle.waiting) :
    accumulated cycle.untilExit = kickedBits cycle.untilExit := by
  have hquiet : ∀ event ∈ Event.CycleStart cycle.state cycle.start :: cycle.waiting,
      event.isLoopExit = false := by
    intro event hevent
    cases List.mem_cons.mp hevent with
    | inl hstart =>
      rw [hstart]
      rfl
    | inr hwaiting =>
      have hcycle := cycle.waiting_quiet event hwaiting
      cases event with
      | LoopExit task tick => exact absurd hcycle (by simp [Event.ofCycle])
      | _ => rfl
  have hsince : sinceLoopExit cycle.untilExit =
      sinceLoopExit cycle.before ++ .CycleStart cycle.state cycle.start :: cycle.waiting :=
    History.sinceLast_append_of_none _ _ _ hquiet
  have hany : anyKick (sinceLoopExit cycle.untilExit) = true := by
    rw [hsince]
    unfold anyKick
    rw [List.any_eq_true]
    exact ⟨_, List.mem_append_right _ (List.mem_cons_of_mem _ h), rfl⟩
  unfold accumulated
  rw [if_pos hany]

-- Nothing after a late exit happened before the deadline.
theorem kicked_waiting {taskBit : BitVec 32} (hordered : History.InOrder Event.tick? cycle.history)
    (hlate : cycle.deadline ≤ cycle.exit)
    (h : KickedBefore cycle.deadline taskBit cycle.sinceStart) :
    ∃ tick, Event.Kick taskBit true tick ∈ cycle.waiting := by
  obtain ⟨tick, hmem, htick⟩ := h
  rw [cycle.history_split] at hordered
  refine ⟨tick, ?_⟩
  exact History.mem_before_of_lt (History.inOrder_suffix hordered) rfl rfl (by omega) hmem

theorem kickedBits_waiting {taskBit : BitVec 32} {tick : Nat}
    (h : Event.Kick taskBit true tick ∈ cycle.waiting) :
    kickedBits cycle.untilExit &&& taskBit = taskBit :=
  kickedBits_mem (List.mem_append_right _ (List.mem_cons_of_mem _ h))

-- A cycle that ends complete has nothing to record or to escalate.
theorem passes_iff_complete (h : cycle.Told) : cycle.Passes ↔ cycle.task.complete = true := by
  refine ⟨Cycle.Passes.complete, fun hcomplete => ⟨hcomplete, ?_, ?_⟩⟩
  · rw [h.logged_eq hcomplete]
    exact fun entry hentry => absurd hentry List.not_mem_nil
  · rw [h.requested_eq]
    intro request hrequest
    rw [Option.mem_toList] at hrequest
    rw [(watchdogRequest_complete hcomplete hrequest).2]
    decide

theorem complete_of_heard (htold : cycle.Told) (hexits : ExitsTrack cycle.history)
    (hordered : History.InOrder Event.tick? cycle.history) (hhealthy : cycle.Healthy)
    (hheard : cycle.state = .Safe ∨ cycle.FaultInjectHeard) : cycle.task.complete = true := by
  have hreceived : cycle.task.received = accumulated cycle.untilExit := hexits _ _ _ cycle.history_eq
  cases htold.exits with
  | inl hcomplete => exact hcomplete
  | inr hlate =>
    obtain ⟨_, hheartbeat⟩ := kicked_waiting hordered hlate hhealthy.heartbeat
    obtain ⟨_, hmemScrub⟩ := kicked_waiting hordered hlate hhealthy.memScrub
    have hheartbeatBit := kickedBits_waiting hheartbeat
    have hmemScrubBit := kickedBits_waiting hmemScrub
    rw [complete_iff, hreceived, accumulated_untilExit hheartbeat, htold.expected_eq]
    unfold safePolicyWatchdogExpectedBits
    split_ifs with hsafe
    · exact expectedBits_safe _ hheartbeatBit hmemScrubBit
    · exact expectedBits_full _ hheartbeatBit hmemScrubBit (hheard.resolve_left hsafe)

theorem heard_of_complete (htold : cycle.Told) (hexits : ExitsTrack cycle.history)
    (hcomplete : cycle.task.complete = true) : cycle.state = .Safe ∨ cycle.FaultInjectHeard := by
  have hreceived : cycle.task.received = accumulated cycle.untilExit := hexits _ _ _ cycle.history_eq
  by_cases hsafe : cycle.state = .Safe
  · exact .inl hsafe
  · right
    have hbit : cycle.task.received &&& WATCHDOG_BIT_FAULTINJECT = WATCHDOG_BIT_FAULTINJECT := by
      apply faultInject_of_expected hsafe
      rw [← htold.expected_eq]
      exact (complete_iff cycle.task).mp hcomplete
    rw [hreceived] at hbit
    unfold accumulated at hbit
    split_ifs at hbit with hany
    · exact hbit
    · exact absurd hbit (by decide)

variable {layout : Layout} {imageOk : Bool} {s : Fdir}

theorem exitsTrack_of_reachable (h : Transition.Reachable (Initial imageOk) (Step layout) s) :
    ExitsTrack s.trace := by
  have hkicks : Transition.Reachable (Initial imageOk) (KickStep layout) s :=
    Transition.reachable_mono (fun _ _ hstep => kickStep_of_step hstep) h
  exact (tracked_of_reachable hkicks).2

end Healthy

-- Over every run and every cycle in it.
theorem healthy_cycle_passes_iff (layout : Layout) (imageOk : Bool) (s : Fdir)
    (h : Transition.Reachable (Initial imageOk) (Step layout) s) (cycle : Cycle)
    (hcycle : s.trace = cycle.history) (hhealthy : cycle.Healthy) :
    (cycle.Passes ↔ cycle.state = .Safe ∨ cycle.FaultInjectHeard) ∧
      ∀ state, DemandMet state ↔ state = .Nominal ∨ state = .Safe := by
  have htells := (cycleTracks_of_reachable h).tells
  have hexits := exitsTrack_of_reachable h
  have hordered := (timeTracks_of_reachable h).ordered
  rw [hcycle] at htells hexits hordered
  have htold := cycle.told htells
  refine ⟨?_, demandMet_iff⟩
  rw [passes_iff_complete htold]
  exact ⟨heard_of_complete htold hexits, complete_of_heard htold hexits hordered hhealthy⟩

-- All three tasks kick in a cycle that starts in NOMINAL.
def nominalCycle : Cycle where
  before := [.Boot .Nominal]
  state := .Nominal
  start := 0
  waiting :=
    [.Kick WATCHDOG_BIT_HEARTBEAT true 0, .Kick WATCHDOG_BIT_MEMSCRUB true 0,
      .FaultInjectCheck true 3000, .Kick WATCHDOG_BIT_FAULTINJECT true 3000]
  task :=
    { successfulCycles := 0
      received := WATCHDOG_EXPECTED_BITS
      currentState := .Nominal
      expectedBits := WATCHDOG_EXPECTED_BITS
      deadline := 3500 }
  exit := 3000
  ending := []
  logged := []
  requested := []
  after := []
  waiting_quiet := by decide
  ending_quiet := by decide

-- The same tasks after a boot with a corrupt image.
def degradedCycle : Cycle where
  before := [.Boot .Degraded]
  state := .Degraded
  start := 0
  waiting :=
    [.Kick WATCHDOG_BIT_HEARTBEAT true 0, .Kick WATCHDOG_BIT_MEMSCRUB true 0,
      .FaultInjectCheck false 3000]
  task :=
    { successfulCycles := 0
      received := WATCHDOG_SAFE_EXPECTED_BITS
      currentState := .Degraded
      expectedBits := WATCHDOG_EXPECTED_BITS
      deadline := 3500 }
  exit := 3500
  ending := []
  logged :=
    [{ type := .WatchdogTimeout, argA := 2, argB := 0, tick := 3500,
       data := WATCHDOG_BIT_FAULTINJECT }]
  requested := [⟨.Safe, 0x01⟩]
  after := []
  waiting_quiet := by decide
  ending_quiet := by decide

def healthyBodies : List Action :=
  [.Boot true, .WatchdogStart, .BeginCycle, .HeartbeatKick, .Wake, .MemScrubKick, .Wake,
    .Tick 3000, .FaultInjectCheck, .FaultInjectKick, .Wake, .Tick 500, .Wake, .EndCycle]

theorem healthy_cycle_passes_iff_nominal :
    nominalCycle.Passes ∧ DemandMet .Nominal := by
  have hrun := healthy_cycle_passes_iff startupLayout true _
    (reachable_run_start true healthyBodies) nominalCycle (by decide +kernel)
    ⟨⟨0, by decide, by decide⟩, ⟨0, by decide, by decide⟩,
      ⟨nominalCycle.waiting.take 2, true, 3000, nominalCycle.sinceStart.drop 3, by decide, by decide,
        fun _ => ⟨3000, by decide, by decide⟩⟩⟩
  refine ⟨hrun.1.mpr (.inr ?_), (hrun.2 .Nominal).mpr (.inl rfl)⟩
  unfold Cycle.FaultInjectHeard
  decide

theorem healthy_cycle_fails_in_degraded :
    ¬ ∀ imageOk s, Transition.Reachable (Initial imageOk) (Step startupLayout) s →
      ∀ cycle : Cycle, s.trace = cycle.history → cycle.Healthy → cycle.Passes := by
  intro h
  have hpasses := h false _ (reachable_run_start false healthyBodies) degradedCycle (by decide +kernel)
    ⟨⟨0, by decide, by decide⟩, ⟨0, by decide, by decide⟩,
      ⟨degradedCycle.waiting.take 2, false, 3000, degradedCycle.sinceStart.drop 3, by decide,
        by decide, fun hallowed => absurd hallowed (by decide)⟩⟩
  exact absurd hpasses.complete (by decide)

end SpaceBaremetal.Fdir

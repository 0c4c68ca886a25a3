import SpaceBaremetal.Fdir.Run
import SpaceBaremetal.Lib.History
import SpaceBaremetal.StateMachine.Theorems
import SpaceBaremetal.Watchdog.Window

namespace SpaceBaremetal

-- The events that begin and end a cycle of the watchdog.
def Event.ofCycle : Event → Bool
  | .CycleStart _ _ => true
  | .LoopExit _ _ => true
  | .CycleEnd _ _ _ => true
  | _ => false

def Event.tick? : Event → Option Nat
  | .CycleStart _ tick => some tick
  | .LoopExit _ tick => some tick
  | .Kick _ _ tick => some tick
  | .FaultInjectCheck _ tick => some tick
  | _ => none

namespace Fdir

-- A cycle of the watchdog in its history: it starts at tick `start` in `state`,
-- leaves its loop at tick `exit` and then ends.
structure Cycle where
  before : List Event
  state : SystemState
  start : Nat
  waiting : List Event
  task : WatchdogTask
  exit : Nat
  ending : List Event
  logged : List EventLogEntry
  requested : List StateRequest
  after : List Event
  waiting_quiet : ∀ event ∈ waiting, event.ofCycle = false
  ending_quiet : ∀ event ∈ ending, event.ofCycle = false

namespace Cycle

variable (cycle : Cycle)

def untilExit : List Event := cycle.before ++ .CycleStart cycle.state cycle.start :: cycle.waiting

def sinceStart : List Event :=
  cycle.waiting ++ .LoopExit cycle.task cycle.exit ::
    (cycle.ending ++ .CycleEnd cycle.task cycle.logged cycle.requested :: cycle.after)

def history : List Event :=
  cycle.before ++ .CycleStart cycle.state cycle.start :: cycle.sinceStart

def deadline : Nat := cycle.start + WATCHDOG_TIMEOUT_MS

end Cycle

def lastCycleEvent (trace : List Event) : Option Event := History.lastMarked Event.ofCycle trace

-- A cycle leaves its loop with the bits it expected from the start, complete
-- or not before its deadline.
def ExitTells (before : List Event) (task : WatchdogTask) (tick : Nat) : Prop :=
  ∃ start, lastCycleEvent before = some (.CycleStart task.currentState start) ∧
    task.expectedBits = safePolicyWatchdogExpectedBits task.currentState ∧
    (task.complete = true ∨ start + WATCHDOG_TIMEOUT_MS ≤ tick)

-- A cycle ends as it left its loop. It records nothing if it was complete.
def EndTells (before : List Event) (task : WatchdogTask) (logged : List EventLogEntry)
    (requested : List StateRequest) : Prop :=
  (∃ tick, lastCycleEvent before = some (.LoopExit task tick)) ∧
    (task.complete = true → logged = []) ∧ requested = (watchdogRequest task).toList

def CyclesTell (trace : List Event) : Prop :=
  History.Each (fun before event =>
    match event with
    | .LoopExit task tick => ExitTells before task tick
    | .CycleEnd task logged requested => EndTells before task logged requested
    | _ => True) trace

-- What the history tells of a whole cycle.
structure Cycle.Told (cycle : Cycle) : Prop where
  state_eq : cycle.state = cycle.task.currentState
  expected_eq : cycle.task.expectedBits = safePolicyWatchdogExpectedBits cycle.state
  exits : cycle.task.complete = true ∨ cycle.deadline ≤ cycle.exit
  logged_eq : cycle.task.complete = true → cycle.logged = []
  requested_eq : cycle.requested = (watchdogRequest cycle.task).toList

structure CycleTracks (s : Fdir) : Prop where
  waiting : ∀ task wakeTick, s.watchdog = .Waiting task wakeTick →
    ∃ start, lastCycleEvent s.trace = some (.CycleStart task.currentState start) ∧
      task.expectedBits = safePolicyWatchdogExpectedBits task.currentState ∧
      task.deadline = BitVec.ofNat 64 (start + WATCHDOG_TIMEOUT_MS) ∧
      start + WATCHDOG_TIMEOUT_MS ≤ wakeTick ∧ start ≤ s.world.xTickCount
  loopDone : ∀ task, s.watchdog = .LoopDone task →
    ∃ tick, lastCycleEvent s.trace = some (.LoopExit task tick)
  tells : CyclesTell s.trace

-- A step of a task other than the watchdog, or of the clock.
structure Quiet (s s' : Fdir) : Prop where
  watchdog_eq : s'.watchdog = s.watchdog
  ticks_le : s.world.xTickCount ≤ s'.world.xTickCount
  trace_eq : ∃ more, s'.trace = s.trace ++ more ∧ ∀ event ∈ more, event.ofCycle = false ∧
    ∀ tick ∈ event.tick?, tick = s.world.xTickCount

section Steps

variable {layout : Layout} {s s' : Fdir}

theorem quiet_of_no_event (hpc : s'.watchdog = s.watchdog)
    (hticks : s.world.xTickCount ≤ s'.world.xTickCount) (htrace : s'.trace = s.trace) :
    Quiet s s' :=
  ⟨hpc, hticks, [], by rw [htrace, List.append_nil],
    fun event hevent => absurd hevent List.not_mem_nil⟩

theorem quiet_of_event (event : Event) (hpc : s'.watchdog = s.watchdog)
    (hticks : s'.world.xTickCount = s.world.xTickCount) (htrace : s'.trace = s.trace ++ [event])
    (hcycle : event.ofCycle = false) (htick : ∀ tick ∈ event.tick?, tick = s.world.xTickCount) :
    Quiet s s' := by
  refine ⟨hpc, Nat.le_of_eq hticks.symm, [event], htrace, ?_⟩
  intro event' hevent'
  rw [List.mem_singleton] at hevent'
  rw [hevent']
  exact ⟨hcycle, htick⟩

theorem watchdogKick_ticks (taskBit : BitVec 32) (w : World) :
    (watchdogKick layout taskBit w).xTickCount = w.xTickCount := by
  cases h : kickPermitted layout w && w.xWatchdogTaskHandle.isSome with
  | false => exact sends_ticks (watchdogKick_refused layout taskBit w h)
  | true =>
    obtain ⟨middle, hsends, hkick⟩ := watchdogKick_delivered layout taskBit w h
    have hticks := sends_ticks hsends
    rw [hkick]
    exact hticks

theorem quiet_kick (taskBit : BitVec 32) (allowed : Bool) :
    Quiet s { kick layout taskBit s with faultInjectAllowed := allowed } := by
  refine quiet_of_event (.Kick taskBit
    (kickPermitted layout s.world && s.world.xWatchdogTaskHandle.isSome) s.world.xTickCount)
    rfl (watchdogKick_ticks taskBit s.world) rfl rfl ?_
  intro tick htick
  exact (Option.some.inj htick).symm

-- Every step is one of the watchdog or leaves it where it is.
theorem step_cases (h : Step layout s s') : WatchdogStep s s' ∨ Quiet s s' := by
  cases h with
  | Watchdog _ hwatchdog => exact .inl hwatchdog
  | Tick ticks => exact .inr (quiet_of_no_event rfl (Nat.le_add_right _ _) rfl)
  | Boot allocated hpc =>
    have hticks := congrArg Control.ticks (stateMachineBoot_control allocated s.world)
    exact .inr (quiet_of_event _ rfl hticks rfl rfl (fun _ htick => absurd htick (by simp [Event.tick?])))
  | Receive queue rest request hpc hheld hqueue hreceive =>
    exact .inr (quiet_of_no_event rfl (Nat.le_refl _) rfl)
  | Handle request hheld =>
    have hticks := congrArg Control.ticks (stateMachineHandle_control request s.world)
    exact .inr (quiet_of_event _ rfl hticks rfl rfl (fun _ htick => absurd htick (by simp [Event.tick?])))
  | HeartbeatKick => exact .inr (quiet_kick _ s.faultInjectAllowed)
  | MemScrubKick => exact .inr (quiet_kick _ s.faultInjectAllowed)
  | FaultInjectCheck =>
    exact .inr (quiet_of_event _ rfl rfl rfl rfl (fun _ htick => (Option.some.inj htick).symm))
  | FaultInjectKick hallowed => exact .inr (quiet_kick _ false)
  | Command cmd =>
    have hticks := sends_ticks (commandHandle_sends layout cmd s.world)
    exact .inr (quiet_of_no_event rfl (Nat.le_of_eq hticks.symm) rfl)
  | Background w' hsends =>
    exact .inr (quiet_of_no_event rfl (Nat.le_of_eq (sends_ticks hsends).symm) rfl)

end Steps

section Deadline

variable {task : WatchdogTask} {start : Nat} {w : World}

-- The loop is left incomplete only at or after the deadline.
theorem watchdogRemaining_none (hdeadline : task.deadline = BitVec.ofNat 64 (start + WATCHDOG_TIMEOUT_MS))
    (hstart : start ≤ w.xTickCount) (hnone : watchdogRemaining task w = none) :
    task.complete = true ∨ start + WATCHDOG_TIMEOUT_MS ≤ w.xTickCount := by
  by_contra hboth
  rw [not_or, Nat.not_le] at hboth
  obtain ⟨hincomplete, hlt⟩ := hboth
  have hpositive := remaining_positive (start + WATCHDOG_TIMEOUT_MS) w.xTickCount (by omega) hlt
  unfold watchdogRemaining xTaskGetTickCount at hnone
  rw [if_neg hincomplete, hdeadline] at hnone
  dsimp only at hnone
  rw [if_neg (by omega)] at hnone
  exact absurd hnone (by simp)

-- A wait never times out before the deadline.
theorem watchdogRemaining_some {remaining : BitVec 64}
    (hdeadline : task.deadline = BitVec.ofNat 64 (start + WATCHDOG_TIMEOUT_MS))
    (hstart : start ≤ w.xTickCount) (hsome : watchdogRemaining task w = some remaining) :
    start + WATCHDOG_TIMEOUT_MS ≤ w.xTickCount + remaining.toNat := by
  by_contra hearly
  have hremaining : remaining = BitVec.ofNat 64 (start + WATCHDOG_TIMEOUT_MS) -
      BitVec.ofNat 64 w.xTickCount := by
    unfold watchdogRemaining xTaskGetTickCount at hsome
    rw [hdeadline] at hsome
    dsimp only at hsome
    split_ifs at hsome
    exact (Option.some.inj hsome).symm
  have hnat := remaining_toNat (start + WATCHDOG_TIMEOUT_MS) w.xTickCount (by omega) (by omega)
  rw [hremaining, hnat] at hearly
  omega

end Deadline

section Told

namespace Cycle

theorem lastCycleEvent_untilExit (cycle : Cycle) :
    lastCycleEvent cycle.untilExit = some (.CycleStart cycle.state cycle.start) :=
  History.lastMarked_of_split _ rfl cycle.waiting_quiet

theorem history_eq (cycle : Cycle) : cycle.history =
    cycle.untilExit ++ .LoopExit cycle.task cycle.exit ::
      (cycle.ending ++ .CycleEnd cycle.task cycle.logged cycle.requested :: cycle.after) := by
  unfold Cycle.history Cycle.untilExit Cycle.sinceStart
  rw [List.append_assoc, List.cons_append]

theorem history_split (cycle : Cycle) : cycle.history =
    (cycle.before ++ [.CycleStart cycle.state cycle.start]) ++ cycle.sinceStart := by
  unfold history
  simp

theorem told (cycle : Cycle) (h : CyclesTell cycle.history) : cycle.Told := by
  have hend : cycle.history =
      (cycle.untilExit ++ .LoopExit cycle.task cycle.exit :: cycle.ending) ++
        .CycleEnd cycle.task cycle.logged cycle.requested :: cycle.after := by
    rw [history_eq, List.append_assoc, List.cons_append]
  obtain ⟨-, hlogged, hrequested⟩ := h _ _ _ hend
  obtain ⟨start, hlast, hexpected, hexits⟩ := h _ _ _ cycle.history_eq
  rw [lastCycleEvent_untilExit, Option.some.injEq, Event.CycleStart.injEq] at hlast
  obtain ⟨hstate, rfl⟩ := hlast
  rw [← hstate] at hexpected
  exact ⟨hstate, hexpected, hexits, hlogged, hrequested⟩

end Cycle

-- The end of a cycle tells the whole of it.
theorem cycle_of_end {trace before : List Event} {task : WatchdogTask} {logged : List EventLogEntry}
    {requested : List StateRequest} {after : List Event} (h : CyclesTell trace)
    (hsplit : trace = before ++ .CycleEnd task logged requested :: after) :
    ∃ cycle : Cycle, trace = cycle.history ∧ cycle.task = task ∧ cycle.logged = logged ∧
      cycle.requested = requested ∧ cycle.after = after := by
  obtain ⟨⟨exit, hexit⟩, -⟩ := h _ _ _ hsplit
  obtain ⟨untilExit, ending, hbefore, -, hending⟩ := History.lastMarked_split _ hexit
  have htrace : trace =
      untilExit ++ .LoopExit task exit :: (ending ++ .CycleEnd task logged requested :: after) := by
    rw [hsplit, hbefore, List.append_assoc, List.cons_append]
  obtain ⟨start, hstart, -⟩ := h _ _ _ htrace
  obtain ⟨earlier, waiting, huntil, -, hwaiting⟩ := History.lastMarked_split _ hstart
  refine ⟨⟨earlier, task.currentState, start, waiting, task, exit, ending, logged, requested, after,
    hwaiting, hending⟩, ?_, rfl, rfl, rfl, rfl⟩
  rw [htrace, huntil, List.append_assoc, List.cons_append]
  rfl

end Told

section Invariant

variable {layout : Layout} {imageOk : Bool} {s s' : Fdir}

theorem lastCycleEvent_append (trace : List Event) (event : Event) :
    lastCycleEvent (trace ++ [event]) = if event.ofCycle then some event else lastCycleEvent trace :=
  History.lastMarked_append _ _ _

theorem cycleTracks_quiet (h : CycleTracks s) (hquiet : Quiet s s') : CycleTracks s' := by
  obtain ⟨hpc, hticks, more, htrace, hmore⟩ := hquiet
  have hlast : lastCycleEvent s'.trace = lastCycleEvent s.trace := by
    rw [htrace]
    exact History.lastMarked_append_of_none _ _ _ (fun event hevent => (hmore event hevent).1)
  refine ⟨?_, ?_, ?_⟩
  · intro task wakeTick hwaiting
    rw [hpc] at hwaiting
    obtain ⟨start, hstart, hexpected, hdeadline, hwake, hle⟩ := h.waiting task wakeTick hwaiting
    exact ⟨start, hlast.trans hstart, hexpected, hdeadline, hwake, hle.trans hticks⟩
  · intro task hdone
    rw [hpc] at hdone
    rw [hlast]
    exact h.loopDone task hdone
  · rw [htrace]
    have htells := h.tells
    revert hmore
    generalize s.trace = trace at htells
    intro hmore
    clear htrace
    induction more using List.reverseRecOn with
    | nil => rwa [List.append_nil]
    | append_singleton more event ih =>
      have hupTo := ih (fun e he => hmore e (List.mem_append_left _ he))
      have hevent := (hmore event (List.mem_append_right _ List.mem_cons_self)).1
      rw [← List.append_assoc]
      apply History.each_append hupTo
      cases event with
      | LoopExit task tick => exact absurd hevent (by simp [Event.ofCycle])
      | CycleEnd task logged requested => exact absurd hevent (by simp [Event.ofCycle])
      | _ => trivial

theorem cycleTracks_loopExit {world : World} {task : WatchdogTask} (htells : CyclesTell s.trace)
    (hexit : ExitTells s.trace task world.xTickCount) :
    CycleTracks
      { s with
          world := world
          watchdog := .LoopDone task
          trace := s.trace ++ [.LoopExit task world.xTickCount] } := by
  refine ⟨fun _ _ h => absurd h (by simp), ?_, History.each_append htells hexit⟩
  intro task' hdone
  rw [WatchdogPc.LoopDone.injEq] at hdone
  refine ⟨world.xTickCount, ?_⟩
  change lastCycleEvent (s.trace ++ [_]) = _
  rw [lastCycleEvent_append, ← hdone]
  rfl

theorem cycleTracks_waitOrExit {task : WatchdogTask} (start : Nat) (htells : CyclesTell s.trace)
    (hlast : lastCycleEvent s.trace = some (.CycleStart task.currentState start))
    (hexpected : task.expectedBits = safePolicyWatchdogExpectedBits task.currentState)
    (hdeadline : task.deadline = BitVec.ofNat 64 (start + WATCHDOG_TIMEOUT_MS))
    (hstart : start ≤ s.world.xTickCount) : CycleTracks (waitOrExit task s) := by
  unfold waitOrExit
  cases hremaining : watchdogRemaining task s.world with
  | none =>
    exact cycleTracks_loopExit htells
      ⟨start, hlast, hexpected, watchdogRemaining_none hdeadline hstart hremaining⟩
  | some remaining =>
    refine ⟨?_, fun _ h => absurd h (by simp), htells⟩
    intro task' wakeTick hwaiting
    rw [WatchdogPc.Waiting.injEq] at hwaiting
    obtain ⟨rfl, rfl⟩ := hwaiting
    exact ⟨start, hlast, hexpected, hdeadline,
      watchdogRemaining_some hdeadline hstart hremaining, hstart⟩

theorem cycleTracks_watchdog (h : CycleTracks s) (hstep : WatchdogStep s s') : CycleTracks s' := by
  cases hstep with
  | Start hpc =>
    exact ⟨fun _ _ h => absurd h (by simp), fun _ h => absurd h (by simp), h.tells⟩
  | BeginCycle successfulCycles hpc =>
    have hdeadline : (watchdogBeginCycle successfulCycles s.world).deadline =
        BitVec.ofNat 64 (s.world.xTickCount + WATCHDOG_TIMEOUT_MS) := (BitVec.ofNat_add _ _).symm
    refine cycleTracks_waitOrExit s.world.xTickCount ?_ ?_ rfl hdeadline (Nat.le_refl _)
    · exact History.each_append h.tells trivial
    · exact lastCycleEvent_append _ _
  | Wake task wakeTick hpc hready =>
    obtain ⟨start, hlast, hexpected, hdeadline, hwake, hle⟩ := h.waiting task wakeTick hpc
    have hresult := xTaskNotifyWaitExit_result 0 s.world.watchdogNotification
    unfold wake
    dsimp only
    by_cases hstate : s.world.watchdogNotification.state = .Received
    · rw [hresult, if_pos (decide_eq_true hstate)]
      exact cycleTracks_waitOrExit start h.tells hlast hexpected hdeadline hle
    · rw [hresult, if_neg (fun h => hstate (of_decide_eq_true h))]
      exact cycleTracks_loopExit h.tells
        ⟨start, hlast, hexpected, .inr (hwake.trans (hready.resolve_left hstate))⟩
  | EndCycle task hpc =>
    refine ⟨fun _ _ h => absurd h (by simp [endCycle]), fun _ h => absurd h (by simp [endCycle]), ?_⟩
    refine History.each_append h.tells ⟨h.loopDone task hpc, ?_, ?_⟩
    · intro hcomplete
      rw [watchdogEndCycle_logged]
      unfold watchdogEntry
      exact if_pos hcomplete
    · exact watchdogEndCycle_requested task s.world

theorem cycleTracks_initial (h : Initial imageOk s) : CycleTracks s := by
  refine ⟨?_, ?_, ?_⟩
  · rw [h.watchdog_eq]
    exact fun _ _ hpc => absurd hpc (by simp)
  · rw [h.watchdog_eq]
    exact fun _ hpc => absurd hpc (by simp)
  · rw [h.trace_eq]
    exact History.each_nil _

theorem cycleTracks_of_reachable (h : Transition.Reachable (Initial imageOk) (Step layout) s) :
    CycleTracks s := by
  refine Transition.invariant_of_step ?_ ?_ h
  · exact fun _ hinitial => cycleTracks_initial hinitial
  · intro s s' hinv hstep
    cases step_cases hstep with
    | inl hwatchdog => exact cycleTracks_watchdog hinv hwatchdog
    | inr hquiet => exact cycleTracks_quiet hinv hquiet

end Invariant

end Fdir

end SpaceBaremetal

import SpaceBaremetal.Fdir.Freshness
import SpaceBaremetal.Scheduler.Sequential
import SpaceBaremetal.Scheduler.System

-- The first run of the two tasks of the highest priorities, up to where they
-- wait.
namespace SpaceBaremetal.System

variable {layout : Layout} {allocated : Bool} {w : World} {s s' : System} {task other : Task}

-- What the tasks that wait are waiting for, the state queue apart.
def waitView (w : World) :
    TaskNotification × Nat × Option (BoundedQueue CommandType COMMAND_QUEUE_LENGTH) :=
  (w.watchdogNotification, w.xTickCount, w.xCommandQueue)

theorem runs_of_highest (hready : (s.thread task).ready s.world)
    (hwait : ∀ other, task.priority < other.priority → ¬(s.thread other).ready s.world) :
    s.Runs task := FixedPriority.runs_of_ready hready hwait

theorem watchdog_runs (hready : (s.thread .Watchdog).ready s.world) : s.Runs .Watchdog := by
  have hhighest : ∀ other : Task, ¬Task.Watchdog.priority < other.priority := by
    intro other
    cases other <;> decide
  exact runs_of_highest hready fun other hhigher => absurd hhigher (hhighest other)

def Steps (layout : Layout) (allocated : Bool) : System → System → Prop :=
  Relation.ReflTransGen (Step layout allocated)

-- Code that makes no call runs to its end if nothing that it does wakes a task
-- of a higher priority.
theorem steps_of_quiet {γ : Type} {view : World → γ} (code : Code (Site task))
    (hquiet : code.Quiet view s.world) (halted : s.asserted = false)
    (hthread : s.thread task = .Runs code)
    (hruns : ∀ (w : World) (code : Code (Site task)), view w = view s.world →
      (setThread task (.Runs code) { s with world := w }).Runs task) :
    Steps layout allocated s
      (setThread task (.Runs (.Return (code.run answerRequest s.world).1))
        { s with world := (code.run answerRequest s.world).2 }) := by
  induction code generalizing s with
  | Return site =>
    change Steps layout allocated s (setThread task (.Runs (.Return site)) s)
    rw [setThread_eq_self hthread]
    exact .refl
  | Act f keeps next ih =>
    obtain ⟨hview, hnext⟩ := hquiet
    let acted := setThread task (.Runs (next s.world)) { s with world := f s.world }
    have hnow : s.Runs task := by
      have h : (setThread task (.Runs (.Act f keeps next)) s).Runs task := hruns s.world _ rfl
      rwa [setThread_eq_self hthread] at h
    have hstep : Step layout allocated s acted := by
      have hadvance : advance layout allocated none task s = acted := by
        unfold advance
        rw [hthread]
      rw [← hadvance]
      exact .Advance s task none halted hnow
    have hlater := ih s.world (s := acted) hnext halted (setThread_same _ _) ?_
    · rw [setThread_setThread] at hlater
      exact hlater.head hstep
    · intro w code hw
      rw [setThread_setThread]
      exact hruns w code (hw.trans hview)
  | Call c next ih => exact hquiet.elim

-- The watchdog waits and what it waits for has not come.
structure WatchdogWaits (s : System) : Prop where
  waits : ∃ site wakeTick, s.thread .Watchdog = .Waits site (some wakeTick) ∧
    s.world.xTickCount < wakeTick
  slot : s.world.watchdogNotification.state ≠ .Received

theorem watchdog_not_ready (h : s.WatchdogWaits) : ¬(s.thread .Watchdog).ready s.world := by
  obtain ⟨site, wakeTick, hthread, hearly⟩ := h.waits
  rw [hthread]
  rintro (havailable | ⟨tick, htick, hdue⟩)
  · cases site with
    | WatchdogCycle successfulCycles => exact Bool.noConfusion havailable
    | WatchdogWait task remaining => exact h.slot (eq_of_beq havailable)
  · cases htick
    omega

theorem ready_of_created (h : s.thread task = .Created) : (s.thread task).ready s.world := by
  rw [h]
  trivial

theorem ready_of_runs {code : Code (Site task)} (h : s.thread task = .Runs code) :
    (s.thread task).ready s.world := by
  rw [h]
  trivial

variable (layout allocated)

theorem steps_create (s : System) (task : Task) (halted : s.asserted = false)
    (hruns : s.Runs task) (hthread : s.thread task = .Created) :
    Steps layout allocated s (create layout allocated task s) := by
  have hadvance : advance layout allocated none task s = create layout allocated task s := by
    unfold advance
    rw [hthread]
  rw [← hadvance]
  exact .single (.Advance s task none halted hruns)

theorem steps_arrive (s : System) (site : Site task) (halted : s.asserted = false)
    (hruns : s.Runs task) (hthread : s.thread task = .Runs (.Return site)) :
    Steps layout allocated s (arrive layout none site s) := by
  have hadvance : advance layout allocated none task s = arrive layout none site s := by
    unfold advance
    rw [hthread]
  rw [← hadvance]
  exact .single (.Advance s task none halted hruns)

theorem steps_act (s : System) (f : World → World) (keeps : ∀ w, (f w).handles = w.handles)
    (next : World → Code (Site task)) (halted : s.asserted = false) (hruns : s.Runs task)
    (hthread : s.thread task = .Runs (.Act f keeps next)) :
    Steps layout allocated s
      (setThread task (.Runs (next s.world)) { s with world := f s.world }) := by
  have hadvance : advance layout allocated none task s =
      setThread task (.Runs (next s.world)) { s with world := f s.world } := by
    unfold advance
    rw [hthread]
  rw [← hadvance]
  exact .single (.Advance s task none halted hruns)

theorem arrive_resumes {site : Site task} (hnull : site.call.nullHandle s.world = false)
    (havailable : site.call.available s.world = true) :
    arrive layout none site s = resume layout none site s := by
  unfold arrive
  rw [hnull, if_neg Bool.false_ne_true, if_pos (.inl havailable)]

theorem arrive_waits {site : Site task} (hnull : site.call.nullHandle s.world = false)
    (hunavailable : site.call.available s.world = false)
    (hticks : site.call.ticksToWait ≠ some 0) :
    arrive layout none site s =
      setThread task (.Waits site (site.call.ticksToWait.map (s.world.xTickCount + ·)))
        { s with world := site.call.block s.world } := by
  unfold arrive
  rw [hnull, if_neg Bool.false_ne_true, hunavailable, if_neg (by simp [hticks])]

-- The watchdog has the highest priority.
theorem watchdog_steps (s : System) (code : Code (Site .Watchdog))
    (hquiet : code.Quiet (fun _ => ()) s.world) (halted : s.asserted = false)
    (hthread : s.thread .Watchdog = .Runs code) :
    Steps layout allocated s
      (setThread .Watchdog (.Runs (.Return (code.run answerRequest s.world).1))
        { s with world := (code.run answerRequest s.world).2 }) := by
  apply steps_of_quiet code hquiet halted hthread
  intro w code _
  exact watchdog_runs (ready_of_runs (setThread_same _ _))

-- A new cycle of the watchdog begins with a wait.
theorem watchdogCycle_code (successfulCycles : BitVec 32) (w : World) :
    (Site.resume layout (.WatchdogCycle successfulCycles) ()).run answerRequest w =
        (.WatchdogWait (SpaceBaremetal.watchdogBeginCycle successfulCycles w)
          (BitVec.ofNat 64 3500), w) ∧
      (Site.resume layout (.WatchdogCycle successfulCycles) ()).Quiet (fun _ => ()) w := by
  have hremaining := Fdir.watchdogRemaining_beginCycle successfulCycles w
  constructor
  · change (Code.watchdogBeginCycle successfulCycles >>= watchdogLoop).run answerRequest w = _
    rw [Program.run_bind, Code.watchdogBeginCycle_run]
    unfold watchdogLoop
    rw [Program.run_bind, Program.run_read, hremaining]
    rfl
  · change (Code.watchdogBeginCycle successfulCycles >>= watchdogLoop).Quiet _ w
    apply Program.quiet_bind answerRequest
    · exact ⟨rfl, rfl, trivial⟩
    · rw [Code.watchdogBeginCycle_run]
      unfold watchdogLoop
      apply Program.quiet_bind answerRequest
      · exact ⟨rfl, trivial⟩
      · rw [Program.run_read, hremaining]
        trivial

-- At the top of its loop the watchdog runs on until it waits, if its slot is
-- not filled already.
theorem steps_watchdogCycle (s : System) (successfulCycles : BitVec 32)
    (halted : s.asserted = false)
    (hthread : s.thread .Watchdog = .Runs (.Return (.WatchdogCycle successfulCycles)))
    (hslot : s.world.watchdogNotification.state ≠ .Received) :
    ∃ s', Steps layout allocated s s' ∧ s'.asserted = false ∧ s'.WatchdogWaits ∧
      (∀ other, other ≠ .Watchdog → s'.thread other = s.thread other) ∧
      s'.world.handles = s.world.handles ∧ s'.world.xCommandQueue = s.world.xCommandQueue := by
  let site : Site .Watchdog :=
    .WatchdogWait (SpaceBaremetal.watchdogBeginCycle successfulCycles s.world)
      (BitVec.ofNat 64 3500)
  let resumed := resume layout none (.WatchdogCycle successfulCycles) s
  have hloop : Steps layout allocated s resumed :=
    steps_arrive layout allocated s (.WatchdogCycle successfulCycles) halted
      (watchdog_runs (ready_of_runs hthread)) hthread
  let arrived := setThread .Watchdog (.Runs (.Return site)) resumed
  have hbegin : Steps layout allocated resumed arrived := by
    obtain ⟨hrun, hquiet⟩ := watchdogCycle_code layout successfulCycles s.world
    have hsteps := watchdog_steps layout allocated resumed _ hquiet halted (setThread_same _ _)
    change Steps layout allocated resumed
      (setThread _ (.Runs (.Return (Program.run answerRequest _ s.world).1))
        { resumed with world := (Program.run answerRequest _ s.world).2 }) at hsteps
    rw [hrun] at hsteps
    exact hsteps
  have hwait : Steps layout allocated arrived (arrive layout none site arrived) :=
    steps_arrive layout allocated arrived site halted
      (watchdog_runs (ready_of_runs (setThread_same _ _))) (setThread_same _ _)
  have hunavailable : site.call.available arrived.world = false := beq_eq_false_iff_ne.mpr hslot
  rw [arrive_waits layout rfl hunavailable (by simp [site, Site.call, KernelCall.ticksToWait])]
    at hwait
  refine ⟨_, (hloop.trans hbegin).trans hwait, halted, ⟨⟨_, _, setThread_same _ _, ?_⟩, ?_⟩, ?_,
    rfl, rfl⟩
  · change s.world.xTickCount < s.world.xTickCount + 3500
    omega
  · change (xTaskNotifyWaitEntry 0 _ s.world.watchdogNotification).2.state ≠ .Received
    rw [Ne, xTaskNotifyWaitEntry_received]
    exact hslot
  · intro other hother
    simp [arrived, resumed, setThread, resume, hother]

-- From the start of the scheduler the watchdog runs until it waits.
theorem start_steps_watchdog (hslot : w.watchdogNotification.state ≠ .Received) :
    ∃ s, Steps layout allocated (start w) s ∧ s.asserted = false ∧ s.WatchdogWaits ∧
      (∀ other, other ≠ .Watchdog → s.thread other = .Created) ∧
      s.world.handles = w.handles ∧ s.world.xCommandQueue = w.xCommandQueue := by
  let created := create layout allocated .Watchdog (start w)
  have hcreate : Steps layout allocated (start w) created :=
    steps_create layout allocated (start w) .Watchdog rfl (watchdog_runs (ready_of_created rfl)) rfl
  let looping := setThread .Watchdog (.Runs (.Return (.WatchdogCycle 0)))
    { created with world := watchdogStart w }
  have hstart : Steps layout allocated created looping :=
    watchdog_steps layout allocated created (Task.start layout .Watchdog) ⟨rfl, trivial⟩ rfl
      (setThread_same _ _)
  obtain ⟨s, hcycle, halted, hwaits, hothers, hhandles, hcommands⟩ :=
    steps_watchdogCycle layout allocated looping 0 rfl (setThread_same _ _) hslot
  refine ⟨s, (hcreate.trans hstart).trans hcycle, halted, hwaits, ?_, hhandles, hcommands⟩
  intro other hother
  rw [hothers other hother]
  simp [looping, created, setThread, create, start, hother]

theorem watchdogWaits_of_world (h : s.WatchdogWaits)
    (hthread : s'.thread .Watchdog = s.thread .Watchdog)
    (hslot : s'.world.watchdogNotification = s.world.watchdogNotification)
    (hticks : s'.world.xTickCount = s.world.xTickCount) : s'.WatchdogWaits := by
  obtain ⟨site, wakeTick, hwaits, hearly⟩ := h.waits
  refine ⟨⟨site, wakeTick, hthread.trans hwaits, ?_⟩, ?_⟩
  · rw [hticks]
    exact hearly
  · rw [hslot]
    exact h.slot

-- While the watchdog waits, the state machine is next.
theorem stateMachine_runs (hready : (s.thread .StateMachine).ready s.world)
    (hwatchdog : s.WatchdogWaits) : s.Runs .StateMachine := by
  apply runs_of_highest hready
  intro other hhigher
  cases other with
  | Watchdog => exact watchdog_not_ready hwatchdog
  | _ => exact absurd hhigher (by decide)

theorem stateMachine_start_quiet (w : World) :
    (Task.start layout .StateMachine).Quiet waitView w := by
  apply Program.quiet_bind answerRequest
  · unfold Code.stateMachineBoot
    refine Program.quiet_bind answerRequest ⟨rfl, trivial⟩ ?_
    refine Program.quiet_bind answerRequest ⟨rfl, trivial⟩ ?_
    refine Program.quiet_bind answerRequest ⟨rfl, trivial⟩ ?_
    split_ifs
    · exact ⟨rfl, rfl, rfl, trivial⟩
    · exact ⟨rfl, rfl, rfl, rfl, trivial⟩
  · trivial

-- It then runs until it is at its first receive.
theorem start_steps_stateMachine (hslot : w.watchdogNotification.state ≠ .Received) :
    ∃ s, Steps layout allocated (start w) s ∧ s.asserted = false ∧ s.WatchdogWaits ∧
      s.thread .StateMachine = .Runs (.Return .StateMachineReceive) ∧
      (∀ other, other ≠ .Watchdog → other ≠ .StateMachine → s.thread other = .Created) ∧
      s.world.handles =
        { w.handles with stateRequests := if allocated then some .empty else none } ∧
      s.world.xCommandQueue = w.xCommandQueue := by
  obtain ⟨s, hsteps, halted, hwatchdog, hothers, hhandles, hcommands⟩ :=
    start_steps_watchdog layout allocated hslot
  let created := create layout allocated .StateMachine s
  have hcreate : Steps layout allocated s created :=
    steps_create layout allocated s .StateMachine halted
      (stateMachine_runs (ready_of_created (hothers _ (by decide))) hwatchdog)
      (hothers _ (by decide))
  have hnext : (created.thread .Watchdog) = s.thread .Watchdog := setThread_of_ne (by decide) _ _
  have hquiet : (Task.start layout .StateMachine).Quiet waitView created.world :=
    stateMachine_start_quiet layout _
  have hrun : Steps layout allocated created _ :=
    steps_of_quiet (Task.start layout .StateMachine) hquiet halted (setThread_same _ _) ?_
  · refine ⟨_, (hsteps.trans hcreate).trans hrun, halted, ?_, ?_, ?_, ?_, ?_⟩
    · have hview := Program.view_run answerRequest hquiet
      refine watchdogWaits_of_world hwatchdog ?_ (congrArg Prod.fst hview)
        (congrArg (fun view => view.2.1) hview)
      exact (setThread_of_ne (by decide) _ _).trans hnext
    · rw [setThread_same]
      generalize (Program.run answerRequest _ created.world).1 = site
      cases site
      rfl
    · intro other hother hne
      exact ((setThread_of_ne hne _ _).trans (setThread_of_ne hne _ _)).trans (hothers other hother)
    · refine (Program.frame_run answerRequest hquiet).trans ?_
      rw [← hhandles]
      rfl
    · have hview := Program.view_run answerRequest hquiet
      exact (congrArg (fun view => view.2.2) hview).trans hcommands
  · intro w' code hview
    refine stateMachine_runs (ready_of_runs (setThread_same _ _)) ?_
    refine watchdogWaits_of_world hwatchdog ?_ (congrArg Prod.fst hview)
      (congrArg (fun view => view.2.1) hview)
    exact (setThread_of_ne (by decide) _ _).trans hnext

-- The state machine waits for a request and none has come.
structure StateMachineWaits (s : System) : Prop where
  waits : ∃ site wakeTick, s.thread .StateMachine = .Waits site (some wakeTick) ∧
    s.world.xTickCount < wakeTick
  queue : s.world.xStateRequestQueue = some .empty

theorem stateMachine_not_ready (h : s.StateMachineWaits) :
    ¬(s.thread .StateMachine).ready s.world := by
  obtain ⟨site, wakeTick, hthread, hearly⟩ := h.waits
  rw [hthread]
  rintro (havailable | ⟨tick, htick, hdue⟩)
  · cases site
    have hnone : KernelCall.stateQueueReceive s.world = none := by
      unfold KernelCall.stateQueueReceive
      rw [h.queue]
      rfl
    change (KernelCall.stateQueueReceive s.world).isSome = true at havailable
    rw [hnone] at havailable
    exact Bool.noConfusion havailable
  · cases htick
    omega

-- Both tasks above the others wait.
structure UpperWait (s : System) : Prop where
  watchdog : s.WatchdogWaits
  stateMachine : s.StateMachineWaits

theorem commandHandler_runs (hready : (s.thread .CommandHandler).ready s.world)
    (hupper : s.UpperWait) : s.Runs .CommandHandler := by
  apply runs_of_highest hready
  intro other hhigher
  cases other with
  | Watchdog => exact watchdog_not_ready hupper.watchdog
  | StateMachine => exact stateMachine_not_ready hupper.stateMachine
  | _ => exact absurd hhigher (by decide)

theorem upperWait_of_world (h : s.UpperWait)
    (hthread : ∀ other, other ≠ .CommandHandler → s'.thread other = s.thread other)
    (hslot : s'.world.watchdogNotification = s.world.watchdogNotification)
    (hticks : s'.world.xTickCount = s.world.xTickCount)
    (hqueue : s'.world.xStateRequestQueue = s.world.xStateRequestQueue) : s'.UpperWait := by
  obtain ⟨site, wakeTick, hwaits, hearly⟩ := h.stateMachine.waits
  refine ⟨watchdogWaits_of_world h.watchdog (hthread .Watchdog (by decide)) hslot hticks, ?_⟩
  refine ⟨⟨site, wakeTick, (hthread .StateMachine (by decide)).trans hwaits, ?_⟩, ?_⟩
  · rw [hticks]
    exact hearly
  · exact hqueue.trans h.stateMachine.queue

-- With its queue created the state machine waits too.
theorem start_steps_waiting (hslot : w.watchdogNotification.state ≠ .Received) :
    ∃ s, Steps layout true (start w) s ∧ s.asserted = false ∧ s.UpperWait ∧
      (∀ other, other ≠ .Watchdog → other ≠ .StateMachine → s.thread other = .Created) ∧
      s.world.xCommandQueue = w.xCommandQueue := by
  obtain ⟨s, hsteps, halted, hwatchdog, hthread, hothers, hhandles, hcommands⟩ :=
    start_steps_stateMachine layout true hslot
  have hqueue : s.world.xStateRequestQueue = some .empty :=
    congrArg QueueHandles.stateRequests hhandles
  have hnone : KernelCall.stateQueueReceive s.world = none := by
    unfold KernelCall.stateQueueReceive
    rw [hqueue]
    rfl
  have harrive : Steps layout true s (arrive layout none .StateMachineReceive s) :=
    steps_arrive layout true s .StateMachineReceive halted
      (stateMachine_runs (ready_of_runs hthread) hwatchdog) hthread
  rw [arrive_waits layout] at harrive
  · refine ⟨_, hsteps.trans harrive, halted, ⟨?_, ⟨⟨_, _, setThread_same _ _, ?_⟩, hqueue⟩⟩, ?_, ?_⟩
    · exact watchdogWaits_of_world hwatchdog (setThread_of_ne (by decide) _ _) rfl rfl
    · change s.world.xTickCount < s.world.xTickCount + 1000
      omega
    · intro other hother hne
      exact (setThread_of_ne hne _ _).trans (hothers other hother hne)
    · exact hcommands
  · change s.world.xStateRequestQueue.isNone = false
    rw [hqueue]
    rfl
  · change (KernelCall.stateQueueReceive s.world).isSome = false
    rw [hnone]
    rfl
  · simp [Site.call, KernelCall.ticksToWait]

-- While both wait, the new command handler takes the command that waits for it.
theorem steps_commandHandler (s : System) (cmd : CommandType) (after : World)
    (halted : s.asserted = false) (hupper : s.UpperWait)
    (hnew : s.thread .CommandHandler = .Created)
    (hreceived : commandQueueReceive s.world = some (cmd, after))
    (hqueue : ∃ queue, after = { s.world with xCommandQueue := queue }) :
    ∃ s', Steps layout true s s' ∧ s'.asserted = false ∧ s'.UpperWait ∧
      s'.thread .CommandHandler = .Runs (Site.resume layout .CommandHandlerReceive (some cmd)) := by
  let created := create layout true .CommandHandler s
  have hcreate : Steps layout true s created :=
    steps_create layout true s .CommandHandler halted
      (commandHandler_runs (ready_of_created hnew) hupper) hnew
  have hcreated : created.UpperWait :=
    upperWait_of_world hupper (fun other hother => setThread_of_ne hother _ _) rfl rfl rfl
  have harrive : Steps layout true created (arrive layout none .CommandHandlerReceive created) :=
    steps_arrive layout true created .CommandHandlerReceive halted
      (commandHandler_runs (ready_of_runs (setThread_same _ _)) hcreated) (setThread_same _ _)
  have hnull : Site.CommandHandlerReceive.call.nullHandle created.world = false := by
    change s.world.xCommandQueue.isNone = false
    cases hhandle : s.world.xCommandQueue with
    | none => simp [commandQueueReceive, hhandle] at hreceived
    | some queue => rfl
  have havailable : Site.CommandHandlerReceive.call.available created.world = true := by
    change (commandQueueReceive s.world).isSome = true
    rw [hreceived]
    rfl
  rw [arrive_resumes layout hnull havailable] at harrive
  have hfinish : KernelCall.finish none s.world .ReceiveCommand = (some cmd, after) := by
    unfold KernelCall.finish
    rw [hreceived]
  let resumed := resume layout none .CommandHandlerReceive created
  have hworld : resumed.world = after := congrArg Prod.snd hfinish
  obtain ⟨queue, rfl⟩ := hqueue
  refine ⟨resumed, hcreate.trans harrive, halted, ?_, ?_⟩
  · exact upperWait_of_world hcreated (fun other hother => setThread_of_ne hother _ _)
      (by rw [hworld]; rfl) (by rw [hworld]; rfl) (by rw [hworld]; rfl)
  · refine (setThread_same _ _).trans ?_
    exact congrArg (fun done : Option CommandType × World =>
      Thread.Runs (Site.resume layout .CommandHandlerReceive done.1)) hfinish

-- An operator's 'n' then leads to a state request.
theorem start_steps_request (hslot : w.watchdogNotification.state ≠ .Received)
    {queue rest : BoundedQueue CommandType COMMAND_QUEUE_LENGTH}
    (hqueue : w.xCommandQueue = some queue) (hreceive : queue.receive = some (.GoNominal, rest)) :
    ∃ s next, Steps layout true (start w) s ∧ s.Runs .CommandHandler ∧
      s.thread .CommandHandler = .Runs (.Call ⟨.Nominal, 0x10⟩ next) := by
  obtain ⟨s, hsteps, halted, hupper, hothers, hcommands⟩ := start_steps_waiting layout hslot
  have hnew := hothers .CommandHandler (by decide) (by decide)
  have hreceived : commandQueueReceive s.world =
      some (.GoNominal, { s.world with xCommandQueue := some rest }) := by
    unfold commandQueueReceive
    rw [hcommands, hqueue]
    simp [hreceive]
  obtain ⟨received, htake, hstill, hwaits, hthread⟩ :=
    steps_commandHandler layout s .GoNominal _ halted hupper hnew hreceived ⟨_, rfl⟩
  have hact := steps_act layout true received (eventLogRecordOperator 'n') (fun _ => rfl) _ hstill
    (commandHandler_runs (ready_of_runs hthread) hwaits) hthread
  refine ⟨_, _, (hsteps.trans htake).trans hact, ?_, setThread_same _ _⟩
  refine commandHandler_runs (ready_of_runs (setThread_same _ _)) ?_
  exact upperWait_of_world hwaits (fun other hother => setThread_of_ne hother _ _) rfl rfl rfl

end SpaceBaremetal.System

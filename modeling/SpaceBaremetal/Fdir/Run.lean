import SpaceBaremetal.Fdir.Sends
import SpaceBaremetal.Lib.Transition

namespace SpaceBaremetal.Fdir

-- The steps by name, for running the system. `Background` steps have none.
inductive Action
  | WatchdogStart
  | BeginCycle
  | Wake
  | EndCycle
  | Tick (ticks : Nat)
  | Boot (allocated : Bool)
  | Receive
  | Handle
  | HeartbeatKick
  | MemScrubKick
  | FaultInjectCheck
  | FaultInjectKick
  | Command (cmd : CommandType)
deriving DecidableEq, Repr

variable (layout : Layout)

-- `none` where the task is not at that point.
def perform (s : Fdir) : Action → Option Fdir
  | .WatchdogStart =>
      match s.watchdog with
      | .Created => some { s with world := watchdogStart s.world, watchdog := .CycleTop 0 }
      | _ => none
  | .BeginCycle =>
      match s.watchdog with
      | .CycleTop successfulCycles => some (beginCycle successfulCycles s)
      | _ => none
  | .Wake =>
      match s.watchdog with
      | .Waiting task wakeTick =>
          if s.world.watchdogNotification.state = .Received ∨ wakeTick ≤ s.world.xTickCount then
            some (wake task s)
          else
            none
      | _ => none
  | .EndCycle =>
      match s.watchdog with
      | .LoopDone task => some (endCycle task s)
      | _ => none
  | .Tick ticks =>
      some { s with world := { s.world with xTickCount := s.world.xTickCount + ticks } }
  | .Boot allocated => if s.stateMachineRunning = false then some (boot allocated s) else none
  | .Receive =>
      if s.stateMachineRunning = true ∧ s.held = none then
        match s.world.xStateRequestQueue with
        | none => none
        | some queue =>
            match queue.receive with
            | none => none
            | some (request, rest) =>
                some
                  { s with
                      world := { s.world with xStateRequestQueue := some rest }
                      held := some request }
      else
        none
  | .Handle =>
      match s.held with
      | none => none
      | some request => some (handle request s)
  | .HeartbeatKick => some (kick layout WATCHDOG_BIT_HEARTBEAT s)
  | .MemScrubKick => some (kick layout WATCHDOG_BIT_MEMSCRUB s)
  | .FaultInjectCheck => some (faultInjectCheck s)
  | .FaultInjectKick =>
      if s.faultInjectAllowed = true then
        some { kick layout WATCHDOG_BIT_FAULTINJECT s with faultInjectAllowed := false }
      else
        none
  | .Command cmd => some { s with world := commandHandle layout cmd s.world }

-- Actions that are not possible when their turn comes are skipped.
def run (s : Fdir) (actions : List Action) : Fdir :=
  actions.foldl (fun s action => (perform layout s action).getD s) s

variable {layout}

theorem step_of_perform {s s' : Fdir} {action : Action} (h : perform layout s action = some s') :
    Step layout s s' := by
  cases action with
  | WatchdogStart =>
    unfold perform at h
    dsimp only at h
    split at h
    · rename_i hpc
      obtain rfl := Option.some.inj h
      exact .Watchdog _ _ (.Start s hpc)
    · exact absurd h (by simp)
  | BeginCycle =>
    unfold perform at h
    dsimp only at h
    split at h
    · rename_i successfulCycles hpc
      obtain rfl := Option.some.inj h
      exact .Watchdog _ _ (.BeginCycle s successfulCycles hpc)
    · exact absurd h (by simp)
  | Wake =>
    unfold perform at h
    dsimp only at h
    split at h
    · rename_i task wakeTick hpc
      split_ifs at h with hready
      obtain rfl := Option.some.inj h
      exact .Watchdog _ _ (.Wake s task wakeTick hpc hready)
    · exact absurd h (by simp)
  | EndCycle =>
    unfold perform at h
    dsimp only at h
    split at h
    · rename_i task hpc
      obtain rfl := Option.some.inj h
      exact .Watchdog _ _ (.EndCycle s task hpc)
    · exact absurd h (by simp)
  | Tick ticks =>
    obtain rfl := Option.some.inj h
    exact .Tick s ticks
  | Boot allocated =>
    unfold perform at h
    dsimp only at h
    split_ifs at h with hpc
    obtain rfl := Option.some.inj h
    exact .Boot s allocated hpc
  | Receive =>
    unfold perform at h
    dsimp only at h
    split_ifs at h with hpc
    split at h
    · exact absurd h (by simp)
    · rename_i queue hqueue
      split at h
      · exact absurd h (by simp)
      · rename_i request rest hreceive
        obtain rfl := Option.some.inj h
        exact .Receive s queue rest request hpc.1 hpc.2 hqueue hreceive
  | Handle =>
    unfold perform at h
    dsimp only at h
    split at h
    · exact absurd h (by simp)
    · rename_i request hheld
      obtain rfl := Option.some.inj h
      exact .Handle s request hheld
  | HeartbeatKick =>
    obtain rfl := Option.some.inj h
    exact .HeartbeatKick s
  | MemScrubKick =>
    obtain rfl := Option.some.inj h
    exact .MemScrubKick s
  | FaultInjectCheck =>
    obtain rfl := Option.some.inj h
    exact .FaultInjectCheck s
  | FaultInjectKick =>
    unfold perform at h
    dsimp only at h
    split_ifs at h with hallowed
    obtain rfl := Option.some.inj h
    exact .FaultInjectKick s hallowed
  | Command cmd =>
    obtain rfl := Option.some.inj h
    exact .Command s cmd

theorem reachable_run {init : Fdir → Prop} {s : Fdir}
    (hreach : Transition.Reachable init (Step layout) s) (actions : List Action) :
    Transition.Reachable init (Step layout) (run layout s actions) := by
  induction actions generalizing s with
  | nil => exact hreach
  | cons action actions ih =>
    apply ih
    dsimp only
    cases hperform : perform layout s action with
    | none => exact hreach
    | some s' => exact Transition.reachable_step hreach (step_of_perform hperform)

-- The system when the scheduler starts, with nothing in the MPU table.
def start (imageOk : Bool) : Fdir where
  world := { startupWorld with imageIntegrityOk := imageOk }
  watchdog := .Created
  stateMachineRunning := false
  held := none
  faultInjectAllowed := false
  trace := []

theorem initial_start (imageOk : Bool) : Initial imageOk (start imageOk) :=
  ⟨rfl, rfl, rfl, rfl, rfl, rfl, rfl, rfl, rfl, rfl⟩

theorem reachable_run_start (imageOk : Bool) (actions : List Action) :
    Transition.Reachable (Initial imageOk) (Step layout) (run layout (start imageOk) actions) :=
  reachable_run (Transition.reachable_of_init (initial_start imageOk)) actions

end SpaceBaremetal.Fdir

import SpaceBaremetal.Fdir.Run
import SpaceBaremetal.MemoryScrub.Theorems

-- The loop bodies of the monitored tasks are made of the steps of the system.
namespace SpaceBaremetal.Fdir

def Runs (layout : Layout) : Fdir → Fdir → Prop := Relation.ReflTransGen (Step layout)

def delivers (layout : Layout) (w : World) : Bool :=
  kickPermitted layout w && w.xWatchdogTaskHandle.isSome

section Permitted

variable {layout : Layout}

theorem kickPermitted_of_regions (w : World)
    (h : ∀ region ∈ w.memoryProtection.protectedRegions,
      regionOverlaps region layout.watchdogKickImpl 1 = true →
        region.permissions &&& MEM_PERM_EXEC = MEM_PERM_EXEC) :
    kickPermitted layout w = true := by
  unfold kickPermitted
  rw [memoryProtectionCheckAccess_granted w (by decide) h]

-- The table that `main` sets up lets the kicks through.
theorem kickPermitted_criticalText (w : World) :
    kickPermitted layout
      (w |> memoryProtectionInit |> memoryProtectionRegisterCriticalText layout) = true := by
  apply kickPermitted_of_regions
  intro region hregion _
  unfold memoryProtectionRegisterCriticalText at hregion
  split_ifs at hregion
  · exact absurd hregion List.not_mem_nil
  · have hadded : region ∈ [{ start := layout.criticalTextStart
                              end_ := layout.criticalTextEnd
                              permissions := MEM_PERM_READ ||| MEM_PERM_EXEC
                              name := "CriticalText" : MemoryRegion }] := hregion
    rw [List.mem_singleton] at hadded
    rw [hadded]
    change (MEM_PERM_READ ||| MEM_PERM_EXEC) &&& MEM_PERM_EXEC = MEM_PERM_EXEC
    decide

end Permitted

section Bodies

variable (layout : Layout) (s : Fdir)

-- Work of a task in the background and then its kick.
theorem kick_runs {taskBit : BitVec 32} (hkick : ∀ s, Step layout s (kick layout taskBit s))
    {w : World} (hsends : FaultSends s.world w) :
    ∃ s', Runs layout s s' ∧ s'.world = watchdogKick layout taskBit w ∧
      s'.trace = s.trace ++ [.Kick taskBit (delivers layout w) s.world.xTickCount] := by
  have hwork : Step layout s { s with world := w } := .Background s w hsends
  refine ⟨_, (Relation.ReflTransGen.single hwork).tail (hkick _), rfl, ?_⟩
  rw [← sends_ticks hsends]
  rfl

theorem heartbeatBody_runs :
    ∃ delivered s', Runs layout s s' ∧ s'.world = heartbeatBody layout s.world ∧
      s'.trace = s.trace ++ [.Kick WATCHDOG_BIT_HEARTBEAT delivered s.world.xTickCount] := by
  refine ⟨_, kick_runs layout s .HeartbeatKick (sends_of_control_eq ?_)⟩
  split_ifs
  · rw [uartPuts_eq]
    exact uartWrite_control _ _
  · rfl

theorem memoryScrubBody_runs :
    ∃ delivered s', Runs layout s s' ∧ s'.world = memoryScrubBody layout s.world ∧
      s'.trace = s.trace ++ [.Kick WATCHDOG_BIT_MEMSCRUB delivered s.world.xTickCount] :=
  ⟨_, kick_runs layout s .MemScrubKick (memoryScrubCycle_sends layout s.world)⟩

-- Past its check the task kicks before it injects.
theorem faultInjectBody_runs_allowed
    (hallowed : safePolicyAllowsAutoFaultInject (systemStateGet s.world) = true) :
    ∃ delivered s', Runs layout s s' ∧ s'.world = faultInjectBody layout s.world ∧
      s'.trace = s.trace ++ [.FaultInjectCheck true s.world.xTickCount,
        .Kick WATCHDOG_BIT_FAULTINJECT delivered s.world.xTickCount] := by
  have hcheck : Step layout s (faultInjectCheck s) := .FaultInjectCheck s
  have hkick : Step layout (faultInjectCheck s) _ := .FaultInjectKick _ hallowed
  let kicked := watchdogKick layout WATCHDOG_BIT_FAULTINJECT s.world
  have hcontrol : (if kicked.faultInjectEnabled then injectRandomFault kicked else kicked).control =
      kicked.control := by
    split_ifs
    · exact injectRandomFault_control kicked
    · rfl
  have hinject : Step layout _ _ := .Background
    { kick layout WATCHDOG_BIT_FAULTINJECT (faultInjectCheck s) with faultInjectAllowed := false } _
    (sends_of_control_eq hcontrol)
  refine ⟨delivers layout s.world, _,
    ((Relation.ReflTransGen.single hcheck).tail hkick).tail hinject, ?_, ?_⟩
  · unfold faultInjectBody
    rw [if_pos hallowed]
  · change (s.trace ++ [.FaultInjectCheck (safePolicyAllowsAutoFaultInject (systemStateGet s.world)) _]) ++
      [_] = _
    rw [hallowed, List.append_assoc]
    rfl

theorem faultInjectBody_runs_refused
    (hrefused : safePolicyAllowsAutoFaultInject (systemStateGet s.world) = false) :
    ∃ s', Runs layout s s' ∧ s'.world = faultInjectBody layout s.world ∧
      s'.trace = s.trace ++ [.FaultInjectCheck false s.world.xTickCount] := by
  refine ⟨_, Relation.ReflTransGen.single (.FaultInjectCheck s), ?_, ?_⟩
  · unfold faultInjectBody
    rw [if_neg (by rw [hrefused]; exact Bool.false_ne_true)]
    rfl
  · rw [← hrefused]
    rfl

end Bodies

end SpaceBaremetal.Fdir

import Mathlib.Data.List.Induction
import SpaceBaremetal.MemoryScrub.OpenArea
import SpaceBaremetal.StateMachine

namespace SpaceBaremetal

-- The atomic steps of the tasks that inject and repair faults, and of the one
-- that changes the state.
inductive ScrubAction
  | Elapse (ticks : Nat)
  | Inject
  | ForceScrub
  | Cycle
  | Boot (allocated : Bool)
  | Handle (request : StateRequest)

variable (layout : Layout)

def scrubStep (w : World) : ScrubAction → World
  | .Elapse ticks => { w with xTickCount := w.xTickCount + ticks }
  | .Inject => injectRandomFault w
  | .ForceScrub => commandHandle layout .ForceScrub w
  | .Cycle => memoryScrubBody layout w
  | .Boot allocated => stateMachineBoot allocated w
  | .Handle request => stateMachineHandle request w

def scrubRun (w : World) (actions : List ScrubAction) : World :=
  actions.foldl (scrubStep layout) w

-- A cycle has run and nothing was injected since.
def settled (actions : List ScrubAction) : Bool :=
  actions.foldl
    (fun settled action =>
      match action with
      | .Inject => false
      | .Cycle => true
      | _ => settled) false

def CyclesRepair (w : World) (actions : List ScrubAction) : Prop :=
  ∀ done rest, actions = done ++ rest → settled done = true →
    Golden (scrubRun layout w done).scrubArea

-- The bits that injections have hit, as far as the order of the steps and their
-- ticks tell: since the last cycle, and since the last scrub within that time.
structure Injections where
  tick : Nat
  sinceCycle : List FaultEvent
  sinceScrub : List FaultEvent

namespace Injections

def step (injections : Injections) : ScrubAction → Injections
  | .Elapse ticks => { injections with tick := injections.tick + ticks }
  | .Inject =>
      { injections with
          sinceCycle := injections.sinceCycle ++ [faultAt injections.tick]
          sinceScrub := injections.sinceScrub ++ [faultAt injections.tick] }
  | .ForceScrub => { injections with sinceScrub := [] }
  | .Cycle => { injections with sinceCycle := [], sinceScrub := [] }
  | .Boot _ => injections
  | .Handle _ => injections

def run (injections : Injections) (actions : List ScrubAction) : Injections :=
  actions.foldl step injections

-- Every bit that an odd number of injections has flipped since the last scrub
-- is among the first that were hit since the last cycle.
def Covered (injections : Injections) : Prop :=
  ∀ event, Marks.odd injections.sinceScrub event = true →
    event ∈ injections.sinceCycle.take FAULT_QUEUE_LENGTH

def CyclesCovered (injections : Injections) (actions : List ScrubAction) : Prop :=
  ∀ done rest, actions = done ++ .Cycle :: rest → (injections.run done).Covered

theorem run_append (injections : Injections) (actions : List ScrubAction) (action : ScrubAction) :
    injections.run (actions ++ [action]) = (injections.run actions).step action := by
  unfold run
  rw [List.foldl_append]
  rfl

end Injections

theorem scrubRun_append (w : World) (actions : List ScrubAction) (action : ScrubAction) :
    scrubRun layout w (actions ++ [action]) = scrubStep layout (scrubRun layout w actions) action := by
  unfold scrubRun
  rw [List.foldl_append]
  rfl

variable {layout}

-- The faults that are still in the area are those since the last scrub that
-- have not cancelled out, and the queue holds the first ones since the cycle.
structure Tracks (layout : Layout) (memory : ScrubMemory) (injections : Injections) : Prop where
  ticks_eq : memory.ticks = injections.tick
  areaOpen : AreaOpen layout memory.regions
  queue_eq : ∃ queue, memory.queue = some queue ∧
    queue.items = injections.sinceCycle.take FAULT_QUEUE_LENGTH
  wrong_eq : ∀ event : FaultEvent, event.Valid →
    wrongBits memory.area event = Marks.odd injections.sinceScrub event
  valid : ∀ event ∈ injections.sinceScrub, event.Valid
  subset : ∀ event ∈ injections.sinceScrub, event ∈ injections.sinceCycle

section Steps

variable {w : World} {injections : Injections}

theorem tracks_elapse (h : Tracks layout w.scrub injections) (ticks : Nat) :
    Tracks layout (scrubStep layout w (.Elapse ticks)).scrub (injections.step (.Elapse ticks)) := by
  refine ⟨?_, h.areaOpen, h.queue_eq, h.wrong_eq, h.valid, h.subset⟩
  change w.xTickCount + ticks = injections.tick + ticks
  rw [show w.xTickCount = injections.tick from h.ticks_eq]

theorem tracks_inject (h : Tracks layout w.scrub injections) :
    Tracks layout (scrubStep layout w .Inject).scrub (injections.step .Inject) := by
  obtain ⟨queue, hqueue, hitems⟩ := h.queue_eq
  have hticks : w.xTickCount = injections.tick := h.ticks_eq
  have hscrub := injectRandomFault_scrub w
  rw [hticks, show w.xFaultQueue = some queue from hqueue] at hscrub
  change Tracks layout (injectRandomFault w).scrub _
  rw [hscrub]
  have hvalid := faultAt_valid injections.tick
  refine ⟨h.ticks_eq, h.areaOpen, ⟨_, rfl, BoundedQueue.send_items_take _ hitems⟩, ?_, ?_, ?_⟩
  · intro event hevent
    change wrongBits (flipBit _ _ _) event = Marks.odd (_ ++ [_]) event
    rw [wrongBits_flipBit _ _ _ hvalid, Marks.odd_append, Marks.toggle_apply, Marks.toggle_apply]
    rw [show wrongBits w.scrubArea event = _ from h.wrong_eq event hevent]
  · intro event hevent
    rw [show (injections.step .Inject).sinceScrub = _ ++ [faultAt injections.tick] from rfl,
      List.mem_append, List.mem_singleton] at hevent
    cases hevent with
    | inl hold => exact h.valid event hold
    | inr hnew => rw [hnew]; exact hvalid
  · intro event hevent
    exact List.mem_append.mpr ((List.mem_append.mp hevent).imp (h.subset event) id)

-- Once the area is golden nothing that came before matters.
theorem tracks_of_golden {memory : ScrubMemory} (hticks : memory.ticks = injections.tick)
    (hopen : AreaOpen layout memory.regions)
    (hqueue : ∃ queue, memory.queue = some queue ∧
      queue.items = injections.sinceCycle.take FAULT_QUEUE_LENGTH)
    (hgolden : Golden memory.area) (hnone : injections.sinceScrub = []) :
    Tracks layout memory injections := by
  refine ⟨hticks, hopen, hqueue, ?_, ?_, ?_⟩
  · intro event hevent
    rw [(golden_iff _).mp hgolden event hevent, hnone, Marks.odd_nil]
  · rw [hnone]
    exact fun event hevent => absurd hevent List.not_mem_nil
  · rw [hnone]
    exact fun event hevent => absurd hevent List.not_mem_nil

theorem golden_of_tracks (h : Tracks layout w.scrub injections)
    (hnone : injections.sinceScrub = []) : Golden w.scrubArea := by
  rw [golden_iff]
  intro event hevent
  rw [show wrongBits w.scrubArea event = _ from h.wrong_eq event hevent, hnone, Marks.odd_nil]

theorem memoryScrub_golden (h : AreaOpen layout w.scrub.regions) :
    Golden (memoryScrub layout w).scrub.area := by
  rw [memoryScrub_scrub w h]
  intro i hi
  exact if_pos hi

theorem tracks_forceScrub (h : Tracks layout w.scrub injections) :
    Tracks layout (scrubStep layout w .ForceScrub).scrub (injections.step .ForceScrub) := by
  have hgolden := memoryScrub_golden h.areaOpen
  change Tracks layout (memoryScrub layout w).scrub _
  rw [memoryScrub_scrub w h.areaOpen] at hgolden ⊢
  exact tracks_of_golden h.ticks_eq h.areaOpen h.queue_eq hgolden rfl

-- With an empty queue there was nothing to report.
theorem sinceScrub_eq_nil (h : Tracks layout w.scrub injections)
    (hempty : injections.sinceCycle.take FAULT_QUEUE_LENGTH = []) : injections.sinceScrub = [] := by
  have hcycle : injections.sinceCycle = [] := by
    cases hsince : injections.sinceCycle with
    | nil => rfl
    | cons event rest =>
      rw [hsince] at hempty
      exact absurd hempty (by simp [FAULT_QUEUE_LENGTH])
  apply List.eq_nil_iff_forall_not_mem.mpr
  intro event hevent
  have hmem := h.subset event hevent
  rw [hcycle] at hmem
  exact absurd hmem List.not_mem_nil

-- Draining the queue repairs what the queue has not lost.
theorem drained_golden_iff (h : Tracks layout w.scrub injections) :
    (∀ event : FaultEvent, event.Valid →
        wrongBits ((injections.sinceCycle.take FAULT_QUEUE_LENGTH).foldl fixedArea w.scrubArea)
          event = false) ↔
      injections.Covered := by
  have hwrong : ∀ event : FaultEvent, event.Valid →
      wrongBits w.scrubArea event = Marks.odd injections.sinceScrub event := h.wrong_eq
  constructor
  · intro hgolden event hodd
    have hevent := h.valid event (Marks.mem_of_odd hodd)
    have hfixed := hgolden event hevent
    rw [wrongBits_foldl_fixedArea _ _ _ hevent, Marks.clearAll_apply, hwrong event hevent,
      hodd] at hfixed
    simpa using hfixed
  · intro hcovered event hevent
    rw [wrongBits_foldl_fixedArea _ _ _ hevent, Marks.clearAll_apply, hwrong event hevent]
    cases hodd : Marks.odd injections.sinceScrub event with
    | false => rfl
    | true =>
      have hmem := hcovered event hodd
      simp [hmem]

-- A cycle repairs the area exactly when the queue has not lost a fault that
-- still counts.
theorem cycle_golden_iff (h : Tracks layout w.scrub injections) :
    Golden (memoryScrubBody layout w).scrub.area ↔ injections.Covered := by
  obtain ⟨queue, hqueue, hitems⟩ := h.queue_eq
  rw [memoryScrubBody_scrub w queue hqueue h.areaOpen]
  by_cases hempty : queue.items = []
  · have hnone := sinceScrub_eq_nil h (hitems.symm.trans hempty)
    have hcovered : injections.Covered := by
      intro event hodd
      rw [hnone, Marks.odd_nil] at hodd
      exact absurd hodd Bool.false_ne_true
    refine ⟨fun _ => hcovered, fun _ => ?_⟩
    rw [if_pos hempty]
    split_ifs
    · exact golden_of_tracks h hnone
    · exact memoryScrub_golden h.areaOpen
  · rw [if_neg hempty, golden_iff, hitems]
    exact drained_golden_iff h

theorem tracks_cycle (h : Tracks layout w.scrub injections)
    (hgolden : Golden (memoryScrubBody layout w).scrub.area) :
    Tracks layout (scrubStep layout w .Cycle).scrub (injections.step .Cycle) := by
  obtain ⟨queue, hqueue, -⟩ := h.queue_eq
  change Tracks layout (memoryScrubBody layout w).scrub _
  have hbody := memoryScrubBody_scrub w queue hqueue h.areaOpen
  by_cases hempty : queue.items = []
  · have hsame : ∃ queue, w.scrub.queue = some queue ∧ queue.items = [].take FAULT_QUEUE_LENGTH :=
      ⟨queue, hqueue, hempty⟩
    rw [if_pos hempty, memoryScrub_scrub w h.areaOpen] at hbody
    by_cases hsafe : w.gSystemState = .Safe
    · rw [hbody, if_pos hsafe] at hgolden ⊢
      exact tracks_of_golden h.ticks_eq h.areaOpen hsame hgolden rfl
    · rw [hbody, if_neg hsafe] at hgolden ⊢
      exact tracks_of_golden h.ticks_eq h.areaOpen hsame hgolden rfl
  · rw [if_neg hempty] at hbody
    rw [hbody] at hgolden ⊢
    exact tracks_of_golden h.ticks_eq h.areaOpen ⟨_, rfl, rfl⟩ hgolden rfl

theorem stateMachineApplyPolicy_scrub (previous current : SystemState) (w : World) :
    (stateMachineApplyPolicy previous current w).scrub = w.scrub := by
  unfold stateMachineApplyPolicy
  split_ifs
  · rfl
  · rfl
  · rfl
  · rfl

theorem stateMachineBoot_scrub (allocated : Bool) (w : World) :
    (stateMachineBoot allocated w).scrub = w.scrub := by
  unfold stateMachineBoot
  dsimp only
  split_ifs
  · rfl
  · rfl

theorem stateMachineHandle_scrub (request : StateRequest) (w : World) :
    (stateMachineHandle request w).scrub = w.scrub := by
  unfold stateMachineHandle
  split
  · rename_i current _
    rw [stateMachineApplyPolicy_scrub]
    cases current
    · rfl
    · rfl
    · rfl
    · rfl
  · rfl

-- Every step but a cycle keeps the account whatever happens.
theorem tracks_step (h : Tracks layout w.scrub injections) (action : ScrubAction)
    (hcycle : action = .Cycle → Golden (memoryScrubBody layout w).scrub.area) :
    Tracks layout (scrubStep layout w action).scrub (injections.step action) := by
  cases action with
  | Elapse ticks => exact tracks_elapse h ticks
  | Inject => exact tracks_inject h
  | ForceScrub => exact tracks_forceScrub h
  | Cycle => exact tracks_cycle h (hcycle rfl)
  | Boot allocated =>
    change Tracks layout (stateMachineBoot allocated w).scrub injections
    rw [stateMachineBoot_scrub]
    exact h
  | Handle request =>
    change Tracks layout (stateMachineHandle request w).scrub injections
    rw [stateMachineHandle_scrub]
    exact h

end Steps

section Runs

variable {w : World} {injections : Injections}

-- As long as every cycle so far has repaired the area the account is right.
theorem tracks_run (h : Tracks layout w.scrub injections) (actions : List ScrubAction)
    (hrepaired : ∀ done rest, actions = done ++ .Cycle :: rest →
      Tracks layout (scrubRun layout w done).scrub (injections.run done) →
      Golden (memoryScrubBody layout (scrubRun layout w done)).scrub.area) :
    Tracks layout (scrubRun layout w actions).scrub (injections.run actions) := by
  induction actions using List.reverseRecOn with
  | nil => exact h
  | append_singleton actions action ih =>
    have hupTo := ih (fun done rest hsplit =>
      hrepaired done (rest ++ [action]) (by rw [hsplit]; simp))
    rw [scrubRun_append, Injections.run_append]
    apply tracks_step hupTo
    rintro rfl
    exact hrepaired actions [] rfl hupTo

theorem settled_append (actions : List ScrubAction) (action : ScrubAction) :
    settled (actions ++ [action]) =
      match action with
      | .Inject => false
      | .Cycle => true
      | _ => settled actions := by
  unfold settled
  rw [List.foldl_append]
  rfl

theorem sinceScrub_of_settled (actions : List ScrubAction) (hsettled : settled actions = true) :
    (injections.run actions).sinceScrub = [] := by
  induction actions using List.reverseRecOn with
  | nil => exact absurd hsettled Bool.false_ne_true
  | append_singleton actions action ih =>
    rw [settled_append] at hsettled
    rw [Injections.run_append]
    cases action with
    | Elapse ticks => exact ih hsettled
    | Inject => exact absurd hsettled Bool.false_ne_true
    | ForceScrub => rfl
    | Cycle => rfl
    | Boot allocated => exact ih hsettled
    | Handle request => exact ih hsettled

theorem cyclesRepair_iff (h : Tracks layout w.scrub injections) (actions : List ScrubAction) :
    CyclesRepair layout w actions ↔ injections.CyclesCovered actions := by
  constructor
  · intro hrepair
    -- A cycle that repaired the area had the faults of its time in the queue.
    have hcycle : ∀ done rest, actions = done ++ .Cycle :: rest →
        Golden (memoryScrubBody layout (scrubRun layout w done)).scrub.area := by
      intro done rest hsplit
      have hgolden := hrepair (done ++ [.Cycle]) rest (by rw [hsplit]; simp)
        (by rw [settled_append])
      rw [scrubRun_append] at hgolden
      exact hgolden
    intro done rest hsplit
    have htracks := tracks_run h done (fun before after hbefore _ =>
      hcycle before (after ++ .Cycle :: rest) (by rw [hsplit, hbefore]; simp))
    exact (cycle_golden_iff htracks).mp (hcycle done rest hsplit)
  · intro hcovered done rest hsplit hsettled
    have htracks := tracks_run h done (fun before after hbefore htracks =>
      (cycle_golden_iff htracks).mpr
        (hcovered before (after ++ rest) (by rw [hsplit, hbefore]; simp)))
    exact golden_of_tracks htracks (sinceScrub_of_settled done hsettled)

theorem sinceScrub_subset (hsubset : ∀ event ∈ injections.sinceScrub, event ∈ injections.sinceCycle)
    (actions : List ScrubAction) :
    ∀ event ∈ (injections.run actions).sinceScrub, event ∈ (injections.run actions).sinceCycle := by
  induction actions using List.reverseRecOn with
  | nil => exact hsubset
  | append_singleton actions action ih =>
    rw [Injections.run_append]
    cases action with
    | Elapse ticks => exact ih
    | Inject =>
      intro event hevent
      exact List.mem_append.mpr ((List.mem_append.mp hevent).imp (ih event) id)
    | ForceScrub => exact fun event hevent => absurd hevent List.not_mem_nil
    | Cycle => exact fun event hevent => absurd hevent List.not_mem_nil
    | Boot allocated => exact ih
    | Handle request => exact ih

-- As many injections between two cycles as the queue has room for are always
-- repaired.
theorem cyclesCovered_of_few
    (hsubset : ∀ event ∈ injections.sinceScrub, event ∈ injections.sinceCycle)
    (actions : List ScrubAction)
    (hfew : ∀ done rest, actions = done ++ .Cycle :: rest →
      (injections.run done).sinceCycle.length ≤ FAULT_QUEUE_LENGTH) :
    injections.CyclesCovered actions := by
  intro done rest hsplit event hodd
  rw [List.take_of_length_le (hfew done rest hsplit)]
  exact sinceScrub_subset hsubset done event (Marks.mem_of_odd hodd)

theorem tracks_memoryScrubInit (queue : BoundedQueue FaultEvent FAULT_QUEUE_LENGTH)
    (hqueue : w.xFaultQueue = some queue) (hopen : AreaOpen layout w.scrub.regions) :
    Tracks layout (memoryScrubInit layout w).scrub ⟨w.xTickCount, queue.items, []⟩ := by
  obtain ⟨hgolden, hqueue', hticks, hopen'⟩ := memoryScrubInit_scrub layout w hopen
  refine tracks_of_golden hticks hopen' ⟨queue, ?_, ?_⟩ hgolden rfl
  · exact hqueue'.trans hqueue
  · exact (List.take_of_length_le queue.items_le).symm

end Runs

-- From the initialisation of the area on, whatever was left in the queue.
theorem scrub_cycles_repair_iff (w : World) (queue : BoundedQueue FaultEvent FAULT_QUEUE_LENGTH)
    (hqueue : w.xFaultQueue = some queue) (hopen : AreaOpen layout w.scrub.regions)
    (actions : List ScrubAction) :
    CyclesRepair layout (memoryScrubInit layout w) actions ↔
      Injections.CyclesCovered ⟨w.xTickCount, queue.items, []⟩ actions :=
  cyclesRepair_iff (tracks_memoryScrubInit queue hqueue hopen) actions

-- The world in which the scrub task starts when nothing ran before it.
def scrubStart : World := { startupWorld with xFaultQueue := some BoundedQueue.empty }

theorem scrub_cycles_repair_iff_one :
    CyclesRepair startupLayout (memoryScrubInit startupLayout scrubStart) [.Inject, .Cycle] := by
  have hopen : AreaOpen startupLayout scrubStart.scrub.regions :=
    fun region hregion => absurd hregion List.not_mem_nil
  rw [scrub_cycles_repair_iff scrubStart BoundedQueue.empty rfl hopen]
  apply cyclesCovered_of_few (fun event hevent => absurd hevent List.not_mem_nil)
  intro done rest hsplit
  cases done with
  | nil => exact absurd (List.cons.inj hsplit).1 (by simp)
  | cons action done =>
    rw [List.cons_append, List.cons.injEq] at hsplit
    obtain ⟨rfl, htail⟩ := hsplit
    have hdone : done = [] := by
      have hlen := congrArg List.length htail
      simp only [List.length_append, List.length_cons, List.length_nil] at hlen
      exact List.eq_nil_of_length_eq_zero (by omega)
    subst hdone
    decide

-- Six injections between two cycles: the sixth is not queued, the cycle takes
-- the five others for all there is, and in SAFE no later cycle looks further.
theorem scrub_cycles_miss_sixth_fault :
    ¬ CyclesRepair startupLayout (memoryScrubInit startupLayout scrubStart)
      [.Inject, .Elapse 1, .Inject, .Elapse 1, .Inject, .Elapse 1, .Inject, .Elapse 1, .Inject,
        .Elapse 1, .Inject, .Cycle, .Handle ⟨.Safe, 0x10⟩, .Cycle] := by
  intro hrepair
  have hgolden := hrepair _ [] (List.append_nil _).symm (by decide)
  have hbyte := hgolden 5 (by decide)
  revert hbyte
  decide +kernel

end SpaceBaremetal

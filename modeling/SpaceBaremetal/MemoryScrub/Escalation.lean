import SpaceBaremetal.Lib.History
import SpaceBaremetal.Lib.Threshold
import SpaceBaremetal.Lib.Transition
import SpaceBaremetal.MemoryScrub.Upsets
import SpaceBaremetal.StateMachine

namespace SpaceBaremetal

-- The threshold as the library has it.
def SEU_THRESHOLD : Nat := SEU_THRESHOLD_FOR_DEGRADED.toNat

def UpsetCounts.escalation (counts : UpsetCounts) : Threshold where
  count := counts.counter.toNat
  fired := counts.requests

section Counting

theorem record_state (counts : UpsetCounts) : counts.record.state = counts.state := by
  unfold UpsetCounts.record
  split_ifs <;> rfl

theorem record_escalation_safe (counts : UpsetCounts) (hsafe : counts.state = .Safe) :
    counts.record.escalation = counts.escalation := by
  unfold UpsetCounts.record
  rw [if_pos hsafe]
  rfl

-- The test of the code is that of the library, as long as the counter has not
-- passed the threshold.
theorem counter_succ (counter : BitVec 32) (hlt : counter.toNat < SEU_THRESHOLD) :
    (counter + 1).toNat = counter.toNat + 1 ∧
      (counter + 1 ≥ SEU_THRESHOLD_FOR_DEGRADED ↔ counter.toNat + 1 ≥ SEU_THRESHOLD) := by
  have hthreshold : SEU_THRESHOLD = 5 := rfl
  have hsucc : (counter + 1).toNat = counter.toNat + 1 := by
    rw [BitVec.toNat_add]
    exact Nat.mod_eq_of_lt (by change counter.toNat + 1 < 2 ^ 32; omega)
  refine ⟨hsucc, ?_⟩
  rw [ge_iff_le, BitVec.le_def, hsucc]
  rfl

-- Below SAFE the two counters are the library's.
theorem record_escalation (counts : UpsetCounts) (hstate : counts.state ≠ .Safe)
    (hlt : counts.counter.toNat < SEU_THRESHOLD) :
    counts.record.escalation = Threshold.bump SEU_THRESHOLD counts.escalation := by
  obtain ⟨hsucc, hreached⟩ := counter_succ counts.counter hlt
  unfold UpsetCounts.record Threshold.bump
  rw [if_neg hstate]
  by_cases h : counts.counter + 1 ≥ SEU_THRESHOLD_FOR_DEGRADED
  · rw [if_pos h, if_pos (show counts.escalation.count + 1 ≥ SEU_THRESHOLD from hreached.mp h)]
    rfl
  · rw [if_neg h, if_neg (show ¬counts.escalation.count + 1 ≥ SEU_THRESHOLD from mt hreached.mpr h)]
    unfold UpsetCounts.escalation
    rw [hsucc]

theorem iterate_record_state (n : Nat) (counts : UpsetCounts) :
    (UpsetCounts.record^[n] counts).state = counts.state := by
  induction n with
  | zero => rfl
  | succ n ih => rw [Function.iterate_succ_apply', record_state, ih]

-- Any number of upsets in one state.
theorem iterate_record_escalation (n base m : Nat) (counts : UpsetCounts)
    (h : counts.escalation = Threshold.after SEU_THRESHOLD base m) :
    (UpsetCounts.record^[n] counts).escalation =
      Threshold.after SEU_THRESHOLD base
        (m + if counts.state.value < SystemState.Safe.value then n else 0) := by
  have hpos : 0 < SEU_THRESHOLD := by decide
  induction n with
  | zero => simpa using h
  | succ n ih =>
    rw [Function.iterate_succ_apply']
    by_cases hsafe : counts.state = .Safe
    · have hvalue : ¬counts.state.value < SystemState.Safe.value := by
        rw [hsafe]
        exact Nat.lt_irrefl _
      rw [if_neg hvalue] at ih ⊢
      rw [record_escalation_safe _ (by rw [iterate_record_state, hsafe]), ih]
    · have hvalue : counts.state.value < SystemState.Safe.value := by
        revert hsafe
        cases counts.state <;> decide
      rw [if_pos hvalue] at ih ⊢
      have hcount := congrArg Threshold.count ih
      have hlt : (UpsetCounts.record^[n] counts).counter.toNat < SEU_THRESHOLD := by
        change (UpsetCounts.record^[n] counts).escalation.count < SEU_THRESHOLD
        rw [hcount]
        exact Threshold.after_count_lt hpos base _
      rw [record_escalation _ (by rw [iterate_record_state]; exact hsafe) hlt, ih,
        Threshold.bump_after hpos, Nat.add_assoc]

end Counting

section Accounting

-- A run since `memory_scrub_init` with the upsets recorded in it: those below
-- SAFE, and all of them.
structure UpsetRun where
  world : World
  counted : Nat
  recorded : Nat

-- A step that records upsets in the state that it finds.
def UpsetRun.record (run : UpsetRun) (upsets : Nat) (world : World) : UpsetRun where
  world := world
  counted :=
    run.counted + if run.world.gSystemState.value < SystemState.Safe.value then upsets else 0
  recorded := run.recorded + upsets

-- The steps between which other tasks may run. A full scrub is one step, or one
-- for each of its bytes. What the rest of the system does is `elsewhere`.
inductive UpsetStep (layout : Layout) : UpsetRun → UpsetRun → Prop
  | fixEvent (run : UpsetRun) (event : Option FaultEvent) :
      UpsetStep layout run
        (run.record (memoryScrubFixEvent layout event run.world).1.toNat
          (memoryScrubFixEvent layout event run.world).2)
  | scrub (run : UpsetRun) :
      UpsetStep layout run
        (run.record (errorsCorrected layout (List.range SCRUB_SIZE) run.world).toNat
          (memoryScrub layout run.world))
  | scrubRound (run : UpsetRun) (i : Nat) :
      UpsetStep layout run
        (run.record (memoryScrubRound layout i (0, run.world)).1.toNat
          (memoryScrubRound layout i (0, run.world)).2)
  | handle (run : UpsetRun) (request : StateRequest) :
      UpsetStep layout run { run with world := stateMachineHandle request run.world }
  | elsewhere (run : UpsetRun) (world : World)
      (hcounter : world.seuCounter = run.world.seuCounter)
      (htotal : world.seuTotalCount = run.world.seuTotalCount)
      (hrequests : world.attempts UPSET_REQUEST = run.world.attempts UPSET_REQUEST) :
      UpsetStep layout run { run with world := world }

-- `base` requests were made before the run.
structure Accounted (base : Nat) (run : UpsetRun) : Prop where
  escalation : run.world.upsetCounts.escalation =
    Threshold.after SEU_THRESHOLD base run.counted
  total : run.world.seuTotalCount = BitVec.ofNat 32 run.recorded

variable {layout : Layout} {base : Nat} {run : UpsetRun}

theorem accounted_record (h : Accounted base run) (upsets : Nat) (world : World)
    (hcounts : world.upsetCounts = UpsetCounts.record^[upsets] run.world.upsetCounts) :
    Accounted base (run.record upsets world) := by
  refine ⟨?_, ?_⟩
  · change world.upsetCounts.escalation = _
    rw [hcounts]
    exact iterate_record_escalation upsets base run.counted run.world.upsetCounts h.escalation
  · change world.seuTotalCount = _
    rw [← World.upsetCounts_total, hcounts, iterate_record_total, World.upsetCounts_total, h.total,
      ← BitVec.ofNat_add]
    rfl

theorem accounted_elsewhere (h : Accounted base run) (world : World)
    (hcounter : world.seuCounter = run.world.seuCounter)
    (htotal : world.seuTotalCount = run.world.seuTotalCount)
    (hrequests : world.attempts UPSET_REQUEST = run.world.attempts UPSET_REQUEST) :
    Accounted base { run with world := world } := by
  refine ⟨?_, htotal.trans h.total⟩
  rw [← h.escalation]
  unfold UpsetCounts.escalation World.upsetCounts
  rw [hcounter, hrequests]

theorem stateMachineApplyPolicy_upsetCounts (previous current : SystemState) (w : World) :
    (stateMachineApplyPolicy previous current w).upsetCounts = w.upsetCounts := by
  unfold stateMachineApplyPolicy
  split_ifs
  · rfl
  · rfl
  · rfl
  · rfl

-- Handling a request changes the state and no count.
theorem stateMachineHandle_counts (request : StateRequest) (w : World) :
    (stateMachineHandle request w).seuCounter = w.seuCounter ∧
      (stateMachineHandle request w).seuTotalCount = w.seuTotalCount ∧
      (stateMachineHandle request w).attempts UPSET_REQUEST = w.attempts UPSET_REQUEST := by
  have hcounts : ∃ state,
      (stateMachineHandle request w).upsetCounts = { w.upsetCounts with state := state } := by
    unfold stateMachineHandle
    split
    · rename_i current _
      refine ⟨current, ?_⟩
      rw [stateMachineApplyPolicy_upsetCounts]
      cases current
      · rfl
      · rfl
      · rfl
      · rfl
    · exact ⟨w.gSystemState, rfl⟩
  obtain ⟨state, hcounts⟩ := hcounts
  exact ⟨congrArg UpsetCounts.counter hcounts, congrArg UpsetCounts.total hcounts,
    congrArg UpsetCounts.requests hcounts⟩

theorem accounted_step {run' : UpsetRun} (h : Accounted base run)
    (hstep : UpsetStep layout run run') : Accounted base run' := by
  cases hstep with
  | fixEvent event =>
    exact accounted_record h _ _ (memoryScrubFixEvent_upsetCounts event run.world)
  | scrub =>
    apply accounted_record h
    rw [memoryScrub_upsetCounts, errorsCorrected_range]
  | scrubRound i => exact accounted_record h _ _ (memoryScrubRound_upsetCounts i run.world)
  | handle request =>
    obtain ⟨hcounter, htotal, hrequests⟩ := stateMachineHandle_counts request run.world
    exact accounted_elsewhere h _ hcounter htotal hrequests
  | elsewhere world hcounter htotal hrequests =>
    exact accounted_elsewhere h world hcounter htotal hrequests

def upsetStart (layout : Layout) (w : World) : UpsetRun where
  world := memoryScrubInit layout w
  counted := 0
  recorded := 0

theorem memoryScrubInit_counts (layout : Layout) (w : World) :
    (memoryScrubInit layout w).seuCounter = 0 ∧ (memoryScrubInit layout w).seuTotalCount = 0 := by
  unfold memoryScrubInit memoryScrubProtectBuffers memoryProtectionProtectRegion
    memoryProtectionAddRegion
  simp only [uartPuts_eq, uartWrite_uartWrite]
  split_ifs
  · exact ⟨rfl, rfl⟩
  · exact ⟨rfl, rfl⟩

theorem accounted_start (w : World) :
    Accounted ((memoryScrubInit layout w).attempts UPSET_REQUEST) (upsetStart layout w) := by
  obtain ⟨hcounter, htotal⟩ := memoryScrubInit_counts layout w
  refine ⟨?_, htotal⟩
  change (⟨(memoryScrubInit layout w).seuCounter.toNat, _⟩ : Threshold) = _
  rw [hcounter]
  exact (Threshold.after_zero SEU_THRESHOLD _).symm

-- One more upset below SAFE escalates exactly if it completes five.
theorem memoryScrubRecordSeu_attempts (h : Accounted base run)
    (hbelow : run.world.gSystemState.value < SystemState.Safe.value) :
    (memoryScrubRecordSeu run.world).attempts UPSET_REQUEST =
      run.world.attempts UPSET_REQUEST + if 5 ∣ run.counted + 1 then 1 else 0 := by
  have hfired := congrArg Threshold.fired h.escalation
  have hnext := accounted_record h 1 (memoryScrubRecordSeu run.world)
    (congrArg UpsetAccount.counts (memoryScrubRecordSeu_upsets run.world))
  have hfired' := congrArg Threshold.fired hnext.escalation
  change run.world.attempts UPSET_REQUEST = base + run.counted / 5 at hfired
  change (memoryScrubRecordSeu run.world).attempts UPSET_REQUEST =
    base + (run.record 1 (memoryScrubRecordSeu run.world)).counted / 5 at hfired'
  unfold UpsetRun.record at hfired'
  rw [if_pos hbelow] at hfired'
  rw [hfired', hfired, Nat.succ_div, Nat.add_assoc]

theorem seu_escalation_accounting (layout : Layout) (w : World) (run : UpsetRun)
    (h : Transition.Reachable (fun start => start = upsetStart layout w) (UpsetStep layout) run) :
    run.world.attempts UPSET_REQUEST =
        (memoryScrubInit layout w).attempts UPSET_REQUEST + run.counted / 5 ∧
      run.world.seuCounter.toNat = run.counted % 5 ∧
      run.world.seuTotalCount.toNat = run.recorded % 2 ^ 32 ∧
      (run.world.gSystemState.value < SystemState.Safe.value →
        (memoryScrubRecordSeu run.world).attempts UPSET_REQUEST =
          run.world.attempts UPSET_REQUEST + if 5 ∣ run.counted + 1 then 1 else 0) ∧
      (run.world.gSystemState = .Safe →
        memoryScrubRecordSeu run.world =
          { run.world with seuTotalCount := run.world.seuTotalCount + 1 }) := by
  have haccounted : Accounted ((memoryScrubInit layout w).attempts UPSET_REQUEST) run := by
    apply Transition.invariant_of_step _ _ h
    · rintro start rfl
      exact accounted_start w
    · exact fun _ _ hrun hstep => accounted_step hrun hstep
  refine ⟨?_, ?_, ?_, ?_, ?_⟩
  · exact congrArg Threshold.fired haccounted.escalation
  · exact congrArg Threshold.count haccounted.escalation
  · rw [haccounted.total, BitVec.toNat_ofNat]
  · exact memoryScrubRecordSeu_attempts haccounted
  · exact memoryScrubRecordSeu_safe run.world

-- A flip in byte 3, and its repair.
def flippedWorld : World :=
  { startupWorld with gSystemState := .Nominal, scrubArea := flipBit goldenCopy 3 0 }

theorem seu_escalation_accounting_one :
    (memoryScrubFixEvent startupLayout (some ⟨3, 0⟩) flippedWorld).2.seuCounter.toNat = 1 := by
  obtain ⟨hcounter, htotal⟩ := memoryScrubInit_counts startupLayout startupWorld
  have hstart : Transition.Reachable
      (fun start => start = upsetStart startupLayout startupWorld) (UpsetStep startupLayout)
      (upsetStart startupLayout startupWorld) := Transition.reachable_of_init rfl
  have hflipped := Transition.reachable_step hstart
    (UpsetStep.elsewhere _ flippedWorld hcounter.symm htotal.symm (by decide))
  have hfixed := Transition.reachable_step hflipped (UpsetStep.fixEvent _ (some ⟨3, 0⟩))
  exact (seu_escalation_accounting startupLayout startupWorld _ hfixed).2.1.trans (by decide)

end Accounting

section Refused

-- What the rest of the system has made of the state and of the state queue when
-- an upset is recorded.
structure UpsetMoment where
  state : SystemState
  queue : Option (BoundedQueue StateRequest STATE_REQUEST_QUEUE_LENGTH)
  below_safe : state.value < SystemState.Safe.value

def UpsetMoment.HasRoom (moment : UpsetMoment) : Prop :=
  ∃ queue, moment.queue = some queue ∧ queue.items.length < STATE_REQUEST_QUEUE_LENGTH

def World.atMoment (w : World) (moment : UpsetMoment) : World :=
  { w with gSystemState := moment.state, xStateRequestQueue := moment.queue }

def recordUpset (w : World) (moment : UpsetMoment) : World :=
  memoryScrubRecordSeu (w.atMoment moment)

-- The escalations attempted so far that had the given result.
def World.answers (result : Bool) (w : World) : Nat :=
  w.stateRequests.countP fun attempt => decide (attempt = (UPSET_REQUEST, result))

-- A run of upsets, and how many were recorded since an escalation was accepted.
structure EscalationRun where
  world : World
  unanswered : Nat

def EscalationRun.step (run : EscalationRun) (moment : UpsetMoment) : EscalationRun where
  world := recordUpset run.world moment
  unanswered :=
    if (recordUpset run.world moment).answers true = run.world.answers true then
      run.unanswered + 1
    else
      0

def escalationRun (w : World) (moments : List UpsetMoment) : EscalationRun :=
  moments.foldl EscalationRun.step ⟨w, 0⟩

-- What recording one more upset ought to do: ask again once five upsets have
-- gone without an accepted request, and keep the count if a request is refused.
structure Remembers (run : EscalationRun) (moment : UpsetMoment) : Prop where
  retried : 5 ≤ run.unanswered →
    (recordUpset run.world moment).attempts UPSET_REQUEST =
      run.world.attempts UPSET_REQUEST + 1
  kept : (recordUpset run.world moment).answers false ≠ run.world.answers false →
    (recordUpset run.world moment).seuCounter = run.world.seuCounter + 1

variable {w : World} {moments : List UpsetMoment} {run : EscalationRun} {base k : Nat}

theorem escalationRun_append (w : World) (moments : List UpsetMoment) (moment : UpsetMoment) :
    escalationRun w (moments ++ [moment]) = (escalationRun w moments).step moment := by
  unfold escalationRun
  rw [List.foldl_append]
  rfl

theorem recordUpset_escalation (moment : UpsetMoment)
    (h : w.upsetCounts.escalation = Threshold.after SEU_THRESHOLD base k) :
    (recordUpset w moment).upsetCounts.escalation =
      Threshold.after SEU_THRESHOLD base (k + 1) := by
  have hmoment : (w.atMoment moment).upsetCounts.escalation =
      Threshold.after SEU_THRESHOLD base k := h
  have hrecorded := iterate_record_escalation 1 base k _ hmoment
  rw [if_pos (show (w.atMoment moment).upsetCounts.state.value < _ from moment.below_safe)]
    at hrecorded
  rw [← hrecorded]
  exact congrArg UpsetCounts.escalation
    (congrArg UpsetAccount.counts (memoryScrubRecordSeu_upsets (w.atMoment moment)))

-- Every upset counts, whatever becomes of the requests.
theorem escalationRun_escalation (w : World) (moments : List UpsetMoment)
    (hzero : w.seuCounter = 0) :
    (escalationRun w moments).world.upsetCounts.escalation =
      Threshold.after SEU_THRESHOLD (w.attempts UPSET_REQUEST) moments.length := by
  induction moments using List.reverseRecOn with
  | nil =>
    rw [List.length_nil, Threshold.after_zero]
    change (⟨w.seuCounter.toNat, _⟩ : Threshold) = _
    rw [hzero]
    rfl
  | append_singleton moments moment ih =>
    rw [escalationRun_append, List.length_append, List.length_singleton]
    exact recordUpset_escalation moment ih

theorem UpsetMoment.not_safe (moment : UpsetMoment) (w : World) :
    (w.atMoment moment).gSystemState ≠ .Safe := by
  intro hsafe
  have hbelow := moment.below_safe
  rw [show moment.state = .Safe from hsafe] at hbelow
  exact Nat.lt_irrefl _ hbelow

theorem counter_reached_iff (hcounter : w.seuCounter.toNat = k % 5) :
    w.seuCounter + 1 ≥ SEU_THRESHOLD_FOR_DEGRADED ↔ 5 ∣ k + 1 := by
  have hlt : w.seuCounter.toNat < SEU_THRESHOLD := by
    rw [hcounter]
    exact Nat.mod_lt k (by decide)
  rw [(counter_succ w.seuCounter hlt).2, hcounter]
  exact Threshold.reached_iff (by decide) k

-- Away from a fifth upset nothing is asked for.
theorem recordUpset_below (moment : UpsetMoment) (hcounter : w.seuCounter.toNat = k % 5)
    (hbelow : ¬5 ∣ k + 1) : (recordUpset w moment).stateRequests = w.stateRequests := by
  unfold recordUpset
  rw [memoryScrubRecordSeu_below _ (moment.not_safe w)
    (mt (counter_reached_iff (w := w.atMoment moment) hcounter).mp hbelow)]
  rfl

-- At a fifth upset the request is made, and the count starts again whether it
-- was accepted or not.
theorem recordUpset_reached (moment : UpsetMoment) (hcounter : w.seuCounter.toNat = k % 5)
    (hreached : 5 ∣ k + 1) :
    (recordUpset w moment).seuCounter = 0 ∧
      ∃ result, (recordUpset w moment).stateRequests =
          w.stateRequests ++ [(UPSET_REQUEST, result)] ∧
        (result = true ↔ moment.HasRoom) := by
  unfold recordUpset
  rw [memoryScrubRecordSeu_reached _ (moment.not_safe w)
    ((counter_reached_iff (w := w.atMoment moment) hcounter).mpr hreached)]
  refine ⟨rfl, _, systemStateRequestChange_stateRequests _ _ _, ?_⟩
  exact systemStateRequestChange_fst _ _ _

theorem answers_append {w' : World} {given : Bool}
    (h : w'.stateRequests = w.stateRequests ++ [(UPSET_REQUEST, given)]) (result : Bool) :
    w'.answers result = w.answers result + if given = result then 1 else 0 := by
  unfold World.answers
  rw [h, List.countP_append]
  by_cases hgiven : given = result
  · simp [hgiven]
  · simp [hgiven]

theorem answers_congr {w' : World} (h : w'.stateRequests = w.stateRequests) (result : Bool) :
    w'.answers result = w.answers result := by
  unfold World.answers
  rw [h]

-- A refusal at a fifth upset loses the four before it.
theorem hasRoom_of_remembers (moment : UpsetMoment) (hcounter : run.world.seuCounter.toNat = k % 5)
    (hreached : 5 ∣ k + 1) (h : Remembers run moment) : moment.HasRoom := by
  obtain ⟨hzero, result, hrequests, hresult⟩ := recordUpset_reached moment hcounter hreached
  rw [← hresult]
  by_contra hrefused
  have hanswers := answers_append hrequests false
  rw [if_pos (by simpa using hrefused)] at hanswers
  have hkept := h.kept (by omega)
  rw [hzero] at hkept
  have hnat := congrArg BitVec.toNat hkept
  rw [BitVec.toNat_add, hcounter] at hnat
  change 0 = (k % 5 + 1) % 2 ^ 32 at hnat
  omega

theorem unanswered_step (moment : UpsetMoment) (hcounter : run.world.seuCounter.toNat = k % 5)
    (hunanswered : run.unanswered = k % 5) (hroom : 5 ∣ k + 1 → moment.HasRoom) :
    (run.step moment).unanswered = (k + 1) % 5 := by
  unfold EscalationRun.step
  dsimp only
  by_cases hreached : 5 ∣ k + 1
  · obtain ⟨-, result, hrequests, hresult⟩ := recordUpset_reached moment hcounter hreached
    have hanswers := answers_append hrequests true
    rw [if_pos (hresult.mpr (hroom hreached))] at hanswers
    rw [if_neg (by omega)]
    omega
  · rw [if_pos (answers_congr (recordUpset_below moment hcounter hreached) true), hunanswered]
    omega

theorem remembers_of_hasRoom (moment : UpsetMoment) (hcounter : run.world.seuCounter.toNat = k % 5)
    (hunanswered : run.unanswered = k % 5) (hroom : 5 ∣ k + 1 → moment.HasRoom) :
    Remembers run moment := by
  refine ⟨fun hfive => ?_, fun hrefused => ?_⟩
  · omega
  · exfalso
    apply hrefused
    by_cases hreached : 5 ∣ k + 1
    · obtain ⟨-, result, hrequests, hresult⟩ := recordUpset_reached moment hcounter hreached
      have hanswers := answers_append hrequests false
      rw [hresult.mpr (hroom hreached)] at hanswers
      simpa using hanswers
    · exact answers_congr (recordUpset_below moment hcounter hreached) false

theorem escalationRun_counter (w : World) (moments : List UpsetMoment) (hzero : w.seuCounter = 0) :
    (escalationRun w moments).world.seuCounter.toNat = moments.length % 5 :=
  congrArg Threshold.count (escalationRun_escalation w moments hzero)

theorem escalationRun_unanswered (w : World) (moments : List UpsetMoment) (hzero : w.seuCounter = 0)
    (hrooms : History.Each (fun done moment => 5 ∣ done.length + 1 → moment.HasRoom) moments) :
    (escalationRun w moments).unanswered = moments.length % 5 := by
  induction moments using List.reverseRecOn with
  | nil => rfl
  | append_singleton moments moment ih =>
    rw [escalationRun_append, List.length_append, List.length_singleton]
    exact unanswered_step moment (escalationRun_counter w moments hzero)
      (ih (History.each_of_append hrooms)) (hrooms moments moment [] rfl)

theorem remembers_refusals_iff (layout : Layout) (w : World) (moments : List UpsetMoment) :
    History.Each (fun done => Remembers (escalationRun (memoryScrubInit layout w) done)) moments ↔
      History.Each (fun done moment => 5 ∣ done.length + 1 → moment.HasRoom) moments := by
  have hzero := (memoryScrubInit_counts layout w).1
  constructor
  · intro hremembers done moment rest hsplit hreached
    exact hasRoom_of_remembers moment (escalationRun_counter _ done hzero) hreached
      (hremembers done moment rest hsplit)
  · intro hrooms done moment rest hsplit
    have hbefore : History.Each (fun done moment => 5 ∣ done.length + 1 → moment.HasRoom) done :=
      History.each_of_append (hsplit ▸ hrooms)
    exact remembers_of_hasRoom moment (escalationRun_counter _ done hzero)
      (escalationRun_unanswered _ done hzero hbefore) (hrooms done moment rest hsplit)

-- Upsets before the state queue exists.
def queuelessMoment : UpsetMoment where
  state := .Nominal
  queue := none
  below_safe := by decide

-- The fifth request is refused and forgotten: the sixth upset asks for nothing.
theorem refused_escalation_is_forgotten :
    ¬History.Each (fun done => Remembers (escalationRun (memoryScrubInit startupLayout startupWorld)
      done)) (List.replicate 6 queuelessMoment) := by
  intro hremembers
  have hretried := (hremembers (List.replicate 5 queuelessMoment) queuelessMoment [] rfl).retried
  revert hretried
  decide

end Refused

end SpaceBaremetal

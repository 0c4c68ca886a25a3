import SpaceBaremetal.EventLog.Theorems
import SpaceBaremetal.Lib.Ascending
import SpaceBaremetal.Scheduler.Sequential

namespace SpaceBaremetal

-- What tasks of higher priority record before each atomic step of a dump. Step
-- 0 prints the header; of iteration `i` step `2 * i + 1` is the test and step
-- `2 * i + 2` the read, which the printing of the entry may as well be part of.
abbrev Schedule := Nat → List (Nat × RecordCall)

-- `event_log_dump` as it is preempted.
def dumpAmong (schedule : Schedule) (w : World) : World :=
  (Code.eventLogDump.runAmong answerRequest (fun step => recordAll (schedule step)) 0 w).2

-- The place in the history of the entry that is read at `index`.
def EventLog.place (log : EventLog) (index : Nat) : Nat :=
  log.recorded.length - log.count + index

-- The same loop with the places of the entries that it reads.
def dumpLoopAmong (schedule : Schedule) : Nat → Nat → World → List Nat × World
  | 0, _, w => ([], w)
  | fuel + 1, index, w =>
      let tested := recordAll (schedule (2 * index + 1)) w
      if index < tested.eventLog.count then
        let found := recordAll (schedule (2 * index + 2)) tested
        let rest := dumpLoopAmong schedule fuel (index + 1) (eventLogDumpRound index found)
        (found.eventLog.place index :: rest.1, rest.2)
      else
        ([], tested)

def dumpPlaces (schedule : Schedule) (w : World) : List Nat :=
  (dumpLoopAmong schedule (EVENT_LOG_CAPACITY + 1) 0
    (eventLogDumpHeader (recordAll (schedule 0) w))).1

-- The entry at `place` of the history is in the log.
def EventLog.Retains (log : EventLog) (place : Nat) : Prop :=
  log.recorded.length - log.count ≤ place ∧ place < log.recorded.length

-- What a dump ought to print while others record.
structure DumpSurvives (schedule : Schedule) (w : World) : Prop where
  printed : ∃ entries : List EventLogEntry,
    (dumpPlaces schedule w).map (fun place => (dumpAmong schedule w).eventLog.recorded[place]?) =
        entries.map some ∧
      (dumpAmong schedule w).uart =
        (eventLogDumpHeader (recordAll (schedule 0) w)).uart ++ entries.flatMap entryText
  ordered : (dumpPlaces schedule w).Pairwise (· < ·)
  complete : ∀ place, w.eventLog.Retains place → (dumpAmong schedule w).eventLog.Retains place →
    place ∈ dumpPlaces schedule w

-- How many entries have been recorded when a step runs, `stored` of them before
-- the dump.
def storedBy (schedule : Schedule) (stored : Nat) : Nat → Nat
  | 0 => stored + (schedule 0).length
  | step + 1 => storedBy schedule stored step + (schedule (step + 1)).length

-- The place of the oldest entry that is still there.
def oldest (stored : Nat) : Nat := stored - EVENT_LOG_CAPACITY

-- Test `i` is passed if it is made.
def TestPasses (schedule : Schedule) (stored i : Nat) : Prop :=
  i < min (storedBy schedule stored (2 * i + 1)) EVENT_LOG_CAPACITY

instance (schedule : Schedule) (stored i : Nat) : Decidable (TestPasses schedule stored i) :=
  inferInstanceAs (Decidable (_ < _))

-- Wherever the oldest entry moves between read `i` and the next one, what the
-- dump passes over is overwritten as well before the last test, or was recorded
-- after the dump began.
def PassesOverNothing (schedule : Schedule) (stored : Nat) : Prop :=
  ∀ i, (∀ j ≤ i + 1, TestPasses schedule stored j) →
    oldest (storedBy schedule stored (2 * i + 4)) = oldest (storedBy schedule stored (2 * i + 2)) ∨
      stored ≤ oldest (storedBy schedule stored (2 * i + 2)) + i + 1 ∨
      oldest (storedBy schedule stored (2 * i + 4)) + i <
        oldest (storedBy schedule stored (2 * EVENT_LOG_CAPACITY + 1)) ∨
      stored ≤ oldest (storedBy schedule stored (2 * EVENT_LOG_CAPACITY + 1))

section Loop

variable {schedule : Schedule}

theorem storedBy_mono (schedule : Schedule) (stored : Nat) {step later : Nat} (h : step ≤ later) :
    storedBy schedule stored step ≤ storedBy schedule stored later := by
  induction later with
  | zero => rw [Nat.le_zero.mp h]
  | succ later ih =>
    by_cases heq : step = later + 1
    · rw [heq]
    · exact Nat.le_trans (ih (by omega)) (Nat.le_add_right _ _)

theorem stored_le (schedule : Schedule) (stored step : Nat) :
    stored ≤ storedBy schedule stored step :=
  Nat.le_trans (Nat.le_add_right _ _) (storedBy_mono schedule stored (Nat.zero_le step))

-- The preemptible code goes through the same worlds.
theorem eventLogDumpLoop_runAmong (fuel index : Nat) (w : World) :
    ((Code.eventLogDumpLoop fuel index).runAmong answerRequest
        (fun step => recordAll (schedule step)) (2 * index + 1) w).2 =
      (dumpLoopAmong schedule fuel index w).2 := by
  induction fuel generalizing index w with
  | zero => rfl
  | succ fuel ih =>
    unfold Code.eventLogDumpLoop dumpLoopAmong
    rw [Program.runAmong_read_bind]
    dsimp only
    split_ifs
    · rw [Program.runAmong_act_bind]
      exact ih (index + 1) _
    · rfl

theorem dumpAmong_eq (schedule : Schedule) (w : World) :
    dumpAmong schedule w =
      (dumpLoopAmong schedule (EVENT_LOG_CAPACITY + 1) 0
        (eventLogDumpHeader (recordAll (schedule 0) w))).2 := by
  unfold dumpAmong Code.eventLogDump
  rw [Program.runAmong_act_bind]
  exact eventLogDumpLoop_runAmong _ 0 _

-- With nobody else about it is the dump.
theorem dumpAmong_alone (w : World) : dumpAmong (fun _ => []) w = eventLogDump w := by
  have hothers : (fun step => recordAll ((fun _ => [] : Schedule) step)) = fun _ => id := rfl
  unfold dumpAmong
  rw [hothers, Program.runAmong_id, Code.eventLogDump_run]

end Loop

section Spec

variable {schedule : Schedule} {stored : Nat} {w : World}

theorem recordAll_uart (calls : List (Nat × RecordCall)) (w : World) :
    (recordAll calls w).uart = w.uart := by
  induction calls generalizing w with
  | nil => rfl
  | cons call calls ih =>
    have hcall : (call.2.runAt call.1 w).uart = w.uart := by
      obtain ⟨ticks, call⟩ := call
      cases call <;> rfl
    exact (ih (call.2.runAt call.1 w)).trans hcall

theorem recordAll_stored (calls : List (Nat × RecordCall)) (w : World) :
    (recordAll calls w).eventLog.recorded.length =
      w.eventLog.recorded.length + calls.length := by
  rw [recordAll_recorded, List.length_append, storedEntries, List.length_map]

theorem recordAll_storedBy {step : Nat}
    (hstored : w.eventLog.recorded.length = storedBy schedule stored step) :
    (recordAll (schedule (step + 1)) w).eventLog.recorded.length =
      storedBy schedule stored (step + 1) := by
  rw [recordAll_stored, hstored]
  rfl

theorem EventLog.place_eq {log : EventLog} (hsound : log.Sound) (index : Nat) :
    log.place index = oldest log.recorded.length + index := by
  have hcount := hsound.count_eq
  unfold EventLog.place oldest
  omega

-- A round of the loop prints the entry at its place and touches nothing else.
theorem eventLogDumpRound_place {index : Nat} (hsound : w.eventLog.Sound)
    (hindex : index < w.eventLog.count) :
    ∃ entry, w.eventLog.recorded[w.eventLog.place index]? = some entry ∧
      eventLogDumpRound index w = uartWrite (entryText entry) w := by
  refine ⟨w.eventLog.nth index, RingBuffer.nth_eq hsound index hindex, ?_⟩
  rw [eventLogDumpRound_eq hindex, eventLogDumpEntry_eq]

-- The place that read `i` gets to.
def readPlace (schedule : Schedule) (stored i : Nat) : Nat :=
  oldest (storedBy schedule stored (2 * i + 2)) + i

-- What the loop has done from iteration `index` on, when test `index + n` ends
-- it.
structure DumpLoopDone (schedule : Schedule) (stored index : Nat) (w : World) (n : Nat)
    (run : List Nat × World) : Prop where
  places : run.1 = (List.range' index n).map (readPlace schedule stored)
  passed : ∀ i, index ≤ i → i < index + n → TestPasses schedule stored i
  failed : ¬TestPasses schedule stored (index + n)
  sound : run.2.eventLog.Sound
  stored_eq : run.2.eventLog.recorded.length = storedBy schedule stored (2 * (index + n) + 1)
  keeps : w.eventLog.recorded <+: run.2.eventLog.recorded
  printed : ∃ entries : List EventLogEntry,
    run.1.map (fun place => run.2.eventLog.recorded[place]?) = entries.map some ∧
      run.2.uart = w.uart ++ entries.flatMap entryText

-- The recorded entries are as many as the schedule says, so that the test can be
-- told from it.
theorem test_iff {step : Nat} (hsound : w.eventLog.Sound)
    (hstored : w.eventLog.recorded.length = storedBy schedule stored step) (index : Nat) :
    index < w.eventLog.count ↔ index < min (storedBy schedule stored step) EVENT_LOG_CAPACITY := by
  rw [hsound.count_eq, hstored]

-- The test that ends the loop.
theorem dumpLoopDone_exit {fuel index : Nat} (hsound : w.eventLog.Sound)
    (hstored : w.eventLog.recorded.length = storedBy schedule stored (2 * index))
    (hfailed : ¬index < (recordAll (schedule (2 * index + 1)) w).eventLog.count) :
    DumpLoopDone schedule stored index w 0 (dumpLoopAmong schedule (fuel + 1) index w) := by
  have htested := recordAll_sound (schedule (2 * index + 1)) w hsound
  have hlength := recordAll_storedBy hstored
  unfold dumpLoopAmong
  dsimp only
  rw [if_neg hfailed]
  refine ⟨rfl, fun i hle hlt => absurd hlt (by omega), ?_, htested, hlength, ?_, [], rfl, ?_⟩
  · rwa [test_iff htested hlength] at hfailed
  · exact ⟨storedEntries _, (recordAll_recorded _ w).symm⟩
  · exact (recordAll_uart _ w).trans (List.append_nil _).symm

theorem dumpLoopAmong_passed {fuel index : Nat} (tested found : World)
    (htested : tested = recordAll (schedule (2 * index + 1)) w)
    (hfound : found = recordAll (schedule (2 * index + 2)) tested)
    (hpassed : index < tested.eventLog.count) :
    dumpLoopAmong schedule (fuel + 1) index w =
      (found.eventLog.place index ::
          (dumpLoopAmong schedule fuel (index + 1) (eventLogDumpRound index found)).1,
        (dumpLoopAmong schedule fuel (index + 1) (eventLogDumpRound index found)).2) := by
  subst hfound htested
  exact if_pos hpassed

-- An iteration before the rest of the loop.
theorem dumpLoopDone_cons {index n : Nat} {found : World} {entry : EventLogEntry}
    {rest : List Nat × World} (hsound : found.eventLog.Sound)
    (hstored : found.eventLog.recorded.length = storedBy schedule stored (2 * index + 2))
    (hpassed : TestPasses schedule stored index)
    (hentry : found.eventLog.recorded[found.eventLog.place index]? = some entry)
    (hkeeps : w.eventLog.recorded <+: found.eventLog.recorded) (huart : found.uart = w.uart)
    (hrest : DumpLoopDone schedule stored (index + 1) (uartWrite (entryText entry) found) n rest) :
    DumpLoopDone schedule stored index w (n + 1) (found.eventLog.place index :: rest.1, rest.2) := by
  obtain ⟨hplaces, hpassed', hfailed, hsound', hstored', ⟨more, hmore⟩, entries, hentries, huart'⟩ :=
    hrest
  have hlast : index + 1 + n = index + (n + 1) := by omega
  rw [hlast] at hfailed hstored'
  have hplace : found.eventLog.place index = readPlace schedule stored index := by
    rw [EventLog.place_eq hsound, hstored]
    rfl
  have hread : rest.2.eventLog.recorded[found.eventLog.place index]? = some entry := by
    rw [← hmore]
    exact List.getElem?_append_left (List.getElem?_eq_some_iff.mp hentry).1 ▸ hentry
  refine ⟨?_, ?_, hfailed, hsound', hstored', ?_, entry :: entries, ?_, ?_⟩
  · rw [List.range'_succ, List.map_cons, ← hplaces, hplace]
  · intro i hle hlt
    by_cases hfirst : i = index
    · rw [hfirst]
      exact hpassed
    · exact hpassed' i (by omega) (by omega)
  · exact hkeeps.trans ⟨more, hmore⟩
  · rw [List.map_cons, List.map_cons, hread, hentries]
  · rw [huart', uartWrite_uart, huart, List.flatMap_cons, List.append_assoc]

theorem dumpLoopAmong_done (fuel index : Nat) (w : World) (hindex : index ≤ EVENT_LOG_CAPACITY)
    (hfuel : EVENT_LOG_CAPACITY < index + fuel) (hsound : w.eventLog.Sound)
    (hstored : w.eventLog.recorded.length = storedBy schedule stored (2 * index)) :
    ∃ n, DumpLoopDone schedule stored index w n (dumpLoopAmong schedule fuel index w) := by
  induction fuel generalizing index w with
  | zero => omega
  | succ fuel ih =>
    by_cases hpassed : index < (recordAll (schedule (2 * index + 1)) w).eventLog.count
    · generalize htested : recordAll (schedule (2 * index + 1)) w = tested at hpassed
      generalize hfound : recordAll (schedule (2 * index + 2)) tested = found
      have hsound₁ : tested.eventLog.Sound := htested ▸ recordAll_sound _ w hsound
      have hsound₂ : found.eventLog.Sound := hfound ▸ recordAll_sound _ tested hsound₁
      have hstored₁ : tested.eventLog.recorded.length = storedBy schedule stored (2 * index + 1) :=
        htested ▸ recordAll_storedBy hstored
      have hstored₂ : found.eventLog.recorded.length = storedBy schedule stored (2 * index + 2) :=
        hfound ▸ recordAll_storedBy hstored₁
      have hpasses : TestPasses schedule stored index := (test_iff hsound₁ hstored₁ index).mp hpassed
      have hgrown := storedBy_mono schedule stored (show 2 * index + 1 ≤ 2 * index + 2 by omega)
      have hpassed₂ : index < found.eventLog.count := by
        rw [test_iff hsound₂ hstored₂]
        unfold TestPasses at hpasses
        omega
      have hkeeps : w.eventLog.recorded <+: found.eventLog.recorded := by
        rw [← hfound, ← htested, recordAll_recorded, recordAll_recorded, List.append_assoc]
        exact List.prefix_append _ _
      have huart : found.uart = w.uart := by rw [← hfound, ← htested, recordAll_uart, recordAll_uart]
      obtain ⟨entry, hentry, hround⟩ := eventLogDumpRound_place hsound₂ hpassed₂
      have hnext : index + 1 ≤ EVENT_LOG_CAPACITY := by
        unfold TestPasses at hpasses
        omega
      obtain ⟨n, hrest⟩ := ih (index + 1) (uartWrite (entryText entry) found) hnext (by omega) hsound₂
        hstored₂
      refine ⟨n + 1, ?_⟩
      rw [dumpLoopAmong_passed tested found htested.symm hfound.symm hpassed, hround]
      exact dumpLoopDone_cons hsound₂ hstored₂ hpasses hentry hkeeps huart hrest
    · exact ⟨0, dumpLoopDone_exit hsound hstored hpassed⟩

-- A whole dump of `m` reads.
theorem dumpAmong_done (schedule : Schedule) (hsound : w.eventLog.Sound)
    (hstored : w.eventLog.recorded.length = stored) :
    ∃ m, DumpLoopDone schedule stored 0 (eventLogDumpHeader (recordAll (schedule 0) w)) m
      (dumpPlaces schedule w, dumpAmong schedule w) := by
  rw [dumpAmong_eq]
  have hheader := eventLogDumpHeader_eventLog (recordAll (schedule 0) w)
  apply dumpLoopAmong_done
  · exact Nat.zero_le _
  · omega
  · rw [hheader]
    exact recordAll_sound _ w hsound
  · rw [hheader, recordAll_stored, hstored]
    rfl

end Spec

section Places

variable {schedule : Schedule} {stored m : Nat}

-- The places ascend, since the oldest entry only moves forward.
theorem readPlace_lt (schedule : Schedule) (stored i : Nat) :
    readPlace schedule stored i < readPlace schedule stored (i + 1) := by
  have hgrown := storedBy_mono schedule stored (show 2 * i + 2 ≤ 2 * (i + 1) + 2 by omega)
  unfold readPlace oldest
  omega

-- The last read gets past all that was there when the dump began.
theorem stored_le_lastPlace (hpassed : ∀ i, i < m → TestPasses schedule stored i)
    (hfailed : ¬TestPasses schedule stored m) (hpos : 0 < m) :
    stored ≤ readPlace schedule stored (m - 1) + 1 := by
  have hlast := hpassed (m - 1) (by omega)
  have hbound := stored_le schedule stored (2 * m + 1)
  have hbegun := stored_le schedule stored (2 * (m - 1) + 1)
  have hgrown :=
    storedBy_mono schedule stored (show 2 * (m - 1) + 1 ≤ 2 * (m - 1) + 2 by omega)
  unfold TestPasses at hlast hfailed
  unfold readPlace oldest
  omega

-- Once the oldest entry has moved, the log is full and the dump goes through all
-- of it.
theorem length_of_moved (hpassed : ∀ i, i < m → TestPasses schedule stored i)
    (hfailed : ¬TestPasses schedule stored m) {i : Nat} (hi : i + 1 < m)
    (hmoved : oldest (storedBy schedule stored (2 * i + 4)) ≠
      oldest (storedBy schedule stored (2 * i + 2))) : m = EVENT_LOG_CAPACITY := by
  have hlast := hpassed (m - 1) (by omega)
  unfold TestPasses at hlast hfailed
  unfold oldest at hmoved
  have hgrown := storedBy_mono schedule stored (show 2 * i + 2 ≤ 2 * i + 4 by omega)
  have hrest := storedBy_mono schedule stored (show 2 * i + 4 ≤ 2 * m + 1 by omega)
  omega

theorem testsPass_iff (hpassed : ∀ i, i < m → TestPasses schedule stored i)
    (hfailed : ¬TestPasses schedule stored m) (i : Nat) :
    (∀ j ≤ i, TestPasses schedule stored j) ↔ i < m := by
  constructor
  · intro hall
    by_contra hge
    exact hfailed (hall m (by omega))
  · intro hi j hj
    exact hpassed j (by omega)

theorem readPlace_succ (schedule : Schedule) (stored i : Nat) :
    readPlace schedule stored (i + 1) = oldest (storedBy schedule stored (2 * i + 4)) + (i + 1) :=
  rfl

theorem firstPlace_le (schedule : Schedule) (stored : Nat) {step : Nat} (hstep : 2 ≤ step) :
    readPlace schedule stored 0 ≤ oldest (storedBy schedule stored step) := by
  have hgrown := storedBy_mono schedule stored hstep
  change oldest (storedBy schedule stored 2) + 0 ≤ _
  unfold oldest
  omega

-- What the dump passes over between two reads is what the condition speaks of.
theorem passesOverNothing_of_all (hpassed : ∀ i, i < m → TestPasses schedule stored i)
    (hfailed : ¬TestPasses schedule stored m)
    (hall : ∀ place, oldest stored ≤ place → place < stored →
      oldest (storedBy schedule stored (2 * m + 1)) ≤ place →
        place ∈ (List.range m).map (readPlace schedule stored)) :
    PassesOverNothing schedule stored := by
  intro i htests
  have hi : i + 1 < m := (testsPass_iff hpassed hfailed (i + 1)).mp htests
  by_contra hlost
  push Not at hlost
  obtain ⟨hmoved, hnext, hend, hleft⟩ := hlost
  rw [← length_of_moved hpassed hfailed hi hmoved] at hend hleft
  have hbegun := stored_le schedule stored (2 * i + 2)
  have hgrown := storedBy_mono schedule stored (show 2 * i + 2 ≤ 2 * i + 4 by omega)
  have hthis : readPlace schedule stored i = oldest (storedBy schedule stored (2 * i + 2)) + i := rfl
  have hlast := stored_le_lastPlace hpassed hfailed (by omega)
  have hfirst := firstPlace_le schedule stored (show 2 ≤ 2 * i + 2 by omega)
  -- The first place passed over, or the oldest one left at the end if that is later.
  have htaken := hall
    (max (readPlace schedule stored i + 1) (oldest (storedBy schedule stored (2 * m + 1))))
    (by unfold oldest at *; omega) (by omega) (Nat.le_max_right _ _)
  rw [Ascending.mem_map_iff (fun i _ => readPlace_lt schedule stored i) (by omega) (by omega)
    (by omega)] at htaken
  apply htaken i hi
  rw [readPlace_succ]
  unfold oldest at *
  omega

theorem all_of_passesOverNothing (hpassed : ∀ i, i < m → TestPasses schedule stored i)
    (hfailed : ¬TestPasses schedule stored m) (h : PassesOverNothing schedule stored) (place : Nat)
    (hlt : place < stored) (hend : oldest (storedBy schedule stored (2 * m + 1)) ≤ place) :
    place ∈ (List.range m).map (readPlace schedule stored) := by
  have hpos : 0 < m := by
    by_contra hzero
    have hbegun := stored_le schedule stored (2 * m + 1)
    unfold TestPasses EVENT_LOG_CAPACITY at hfailed
    omega
  have hlast := stored_le_lastPlace hpassed hfailed hpos
  have hfirst := firstPlace_le schedule stored (show 2 ≤ 2 * m + 1 by omega)
  rw [Ascending.mem_map_iff (fun i _ => readPlace_lt schedule stored i) (by omega) (by omega) hpos]
  rintro i hi ⟨hbefore, hafter⟩
  have hthis : readPlace schedule stored i = oldest (storedBy schedule stored (2 * i + 2)) + i := rfl
  rw [readPlace_succ] at hafter
  have hcondition := h i ((testsPass_iff hpassed hfailed (i + 1)).mpr hi)
  by_cases hmoved : oldest (storedBy schedule stored (2 * i + 4)) =
      oldest (storedBy schedule stored (2 * i + 2))
  · omega
  · rw [← length_of_moved hpassed hfailed hi hmoved] at hcondition
    omega

end Places

section Survives

variable {schedule : Schedule} {w : World}

theorem EventLog.retains_iff {log : EventLog} (hsound : log.Sound) (place : Nat) :
    log.Retains place ↔ oldest log.recorded.length ≤ place ∧ place < log.recorded.length := by
  have hcount := hsound.count_eq
  unfold EventLog.Retains oldest
  omega

-- The order always holds, and so does what is printed; the dump is complete
-- exactly under the condition.
theorem dumpSurvives_iff (hsound : w.eventLog.Sound) :
    DumpSurvives schedule w ↔ PassesOverNothing schedule w.eventLog.recorded.length := by
  obtain ⟨m, hplaces, hpassed, hfailed, hsound', hstored', -, hprinted⟩ :=
    dumpAmong_done schedule hsound rfl
  have hpassed' : ∀ i, i < m → TestPasses schedule w.eventLog.recorded.length i :=
    fun i hi => hpassed i (Nat.zero_le i) (by omega)
  rw [Nat.zero_add] at hfailed hstored'
  rw [← List.range_eq_range'] at hplaces
  dsimp only at hplaces hstored' hsound' hprinted
  constructor
  · intro h
    refine passesOverNothing_of_all hpassed' hfailed ?_
    intro place hold hlt hend
    rw [← hplaces]
    have hgrown := stored_le schedule w.eventLog.recorded.length (2 * m + 1)
    apply h.complete
    · exact (EventLog.retains_iff hsound place).mpr ⟨hold, hlt⟩
    · rw [EventLog.retains_iff hsound', hstored']
      exact ⟨hend, by omega⟩
  · intro h
    refine ⟨hprinted, ?_, ?_⟩
    · rw [hplaces]
      exact Ascending.pairwise_map fun i _ => readPlace_lt schedule _ i
    · intro place hbegun hleft
      rw [EventLog.retains_iff hsound', hstored'] at hleft
      rw [EventLog.retains_iff hsound] at hbegun
      rw [hplaces]
      exact all_of_passesOverNothing hpassed' hfailed h place hbegun.2 hleft.1

end Survives

theorem dump_survives_recording_iff (before : List (Nat × RecordCall)) (schedule : Schedule)
    (w : World) :
    DumpSurvives schedule (recordAll before (eventLogReset w)) ↔
      PassesOverNothing schedule before.length := by
  have hsound := recordAll_sound before _ (eventLogReset_sound w)
  have hstored : (recordAll before (eventLogReset w)).eventLog.recorded.length = before.length :=
    (recordAll_stored before (eventLogReset w)).trans (Nat.zero_add _)
  rw [dumpSurvives_iff hsound, hstored]

-- A full log, and one event between the first two reads: the second oldest entry
-- is passed over, although it is still there at the end.
theorem dump_passes_over_entry :
    ¬DumpSurvives (fun step => if step = 3 then [(1, .StateChange .Nominal .Degraded 1)] else [])
      (recordAll (List.replicate EVENT_LOG_CAPACITY (0, .Operator 'n'))
        (eventLogReset startupWorld)) := by
  intro hsurvives
  rw [dumpSurvives_iff (recordAll_sound _ _ (eventLogReset_sound startupWorld))] at hsurvives
  have hstored : (recordAll (List.replicate EVENT_LOG_CAPACITY (0, .Operator 'n'))
      (eventLogReset startupWorld)).eventLog.recorded.length = EVENT_LOG_CAPACITY :=
    (recordAll_stored _ _).trans (by simp [eventLogReset])
  rw [hstored] at hsurvives
  have hcondition := hsurvives 0 fun j hj => by
    obtain rfl | rfl : j = 0 ∨ j = 1 := by omega
    · decide +kernel
    · decide +kernel
  revert hcondition
  decide

end SpaceBaremetal

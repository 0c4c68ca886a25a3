import Mathlib.Data.List.Induction
import SpaceBaremetal.Fdir.Sends
import SpaceBaremetal.Lib.Streak

namespace SpaceBaremetal

-- One call of `watchdog_evaluate_cycle`.
structure CycleCall where
  receivedBits : BitVec 32
  expectedBits : BitVec 32
  currentState : SystemState
deriving DecidableEq

namespace CycleCall

def complete (call : CycleCall) : Bool :=
  call.receivedBits &&& call.expectedBits == call.expectedBits

def goodInDegraded (call : CycleCall) : Bool :=
  call.complete && call.currentState == .Degraded

def goodElsewhere (call : CycleCall) : Bool :=
  call.complete && call.currentState != .Degraded

end CycleCall

-- The calls share one counter, which starts at 0.
def evaluateCalls (calls : List CycleCall) (w : World) : Option (BitVec 32) × World :=
  calls.foldl
    (fun acc call =>
      watchdogEvaluateCycle call.receivedBits call.expectedBits call.currentState acc.1 acc.2)
    (some 0, w)

-- What the call at position `k` asks of the state machine.
def requestedAt (calls : List CycleCall) (w : World) (k : Nat) : List StateRequest :=
  ((evaluateCalls (calls.take (k + 1)) w).2.stateRequests.drop
    (evaluateCalls (calls.take k) w).2.stateRequests.length).map Prod.fst

def RecoveryAt (calls : List CycleCall) (w : World) (k : Nat) : Prop :=
  ⟨.Nominal, 0x03⟩ ∈ requestedAt calls w k

-- A recovery is asked for exactly by the last of five consecutive complete
-- cycles in DEGRADED, counted from the recovery before.
def RecoversAfterFive (calls : List CycleCall) (w : World) : Prop :=
  ∀ k, RecoveryAt calls w k ↔
    Streak.StreakAt CycleCall.goodInDegraded WATCHDOG_RECOVERY_THRESHOLD.toNat calls k
      (RecoveryAt calls w)

-- A timeout comes when some but not five complete cycles have been counted
-- since the last complete cycle outside DEGRADED, and as many as are lacking
-- follow before the next of those.
def TimeoutWithinCount (calls : List CycleCall) : Prop :=
  Streak.Interrupted CycleCall.goodInDegraded CycleCall.goodElsewhere
    WATCHDOG_RECOVERY_THRESHOLD.toNat calls

section Counter

def goodCount (calls : List CycleCall) : Nat :=
  Streak.count CycleCall.goodInDegraded CycleCall.goodElsewhere calls

def CycleCall.task (call : CycleCall) (successfulCycles : BitVec 32) : WatchdogTask where
  successfulCycles := successfulCycles
  received := call.receivedBits
  currentState := call.currentState
  expectedBits := call.expectedBits
  deadline := 0

-- The counter as a function of the good cycles counted so far.
def counterAt (count : Nat) : BitVec 32 :=
  BitVec.ofNat 32 (count % WATCHDOG_RECOVERY_THRESHOLD.toNat)

-- The five values that the counter can have.
theorem counter_values : ∀ r < 5,
    (BitVec.ofNat 32 r + 1 ≥ WATCHDOG_RECOVERY_THRESHOLD ↔ (r + 1) % 5 = 0) ∧
      BitVec.ofNat 32 ((r + 1) % 5) =
        if BitVec.ofNat 32 r + 1 ≥ WATCHDOG_RECOVERY_THRESHOLD then 0 else BitVec.ofNat 32 r + 1 := by
  decide

theorem counterAt_succ (count : Nat) :
    (counterAt count + 1 ≥ WATCHDOG_RECOVERY_THRESHOLD ↔
        WATCHDOG_RECOVERY_THRESHOLD.toNat ∣ count + 1) ∧
      counterAt (count + 1) =
        if counterAt count + 1 ≥ WATCHDOG_RECOVERY_THRESHOLD then 0 else counterAt count + 1 := by
  have hfive : WATCHDOG_RECOVERY_THRESHOLD.toNat = 5 := rfl
  obtain ⟨hreached, hnext⟩ := counter_values (count % 5) (Nat.mod_lt _ (by decide))
  have hmod : (count % 5 + 1) % 5 = (count + 1) % 5 := Nat.mod_add_mod count 5 1
  unfold counterAt
  rw [hfive, ← hmod, Nat.dvd_iff_mod_eq_zero, ← hmod]
  exact ⟨hreached, hnext⟩

theorem goodCount_append (calls : List CycleCall) (call : CycleCall) :
    goodCount (calls ++ [call]) =
      if call.goodInDegraded then goodCount calls + 1
      else if call.goodElsewhere then 0 else goodCount calls :=
  Streak.count_append_singleton _ _ calls call

theorem evaluateCalls_append (calls : List CycleCall) (call : CycleCall) (w : World)
    (successfulCycles : BitVec 32) (h : (evaluateCalls calls w).1 = some successfulCycles) :
    evaluateCalls (calls ++ [call]) w =
      (some (Fdir.nextSuccessfulCycles (call.task successfulCycles)),
        Fdir.requestOptional (Fdir.watchdogRequest (call.task successfulCycles))
          (evaluateCalls calls w).2) := by
  unfold evaluateCalls at h ⊢
  rw [List.foldl_append, List.foldl_cons, List.foldl_nil, h]
  exact Fdir.watchdogEvaluateCycle_eq (call.task successfulCycles) _

-- What one cycle does to a counter that agrees with the count.
theorem nextSuccessfulCycles_counterAt (calls : List CycleCall) (call : CycleCall) :
    Fdir.nextSuccessfulCycles (call.task (counterAt (goodCount calls))) =
      counterAt (goodCount (calls ++ [call])) := by
  have hcomplete : (call.task (counterAt (goodCount calls))).complete = call.complete := rfl
  unfold Fdir.nextSuccessfulCycles
  rw [goodCount_append, hcomplete]
  unfold CycleCall.goodInDegraded CycleCall.goodElsewhere
  cases call.complete with
  | false => rfl
  | true =>
    by_cases hdegraded : call.currentState = .Degraded
    · simp only [CycleCall.task, hdegraded, if_true, BEq.rfl, Bool.and_self]
      exact (counterAt_succ _).2.symm
    · simp [CycleCall.task, hdegraded]
      rfl

theorem evaluateCalls_counter (calls : List CycleCall) (w : World) :
    (evaluateCalls calls w).1 = some (counterAt (goodCount calls)) := by
  induction calls using List.reverseRecOn with
  | nil => rfl
  | append_singleton calls call ih =>
    rw [evaluateCalls_append calls call w _ ih, nextSuccessfulCycles_counterAt]

end Counter

section Recovery

theorem watchdogRequest_recovers_iff (calls : List CycleCall) (call : CycleCall) :
    Fdir.watchdogRequest (call.task (counterAt (goodCount calls))) = some ⟨.Nominal, 0x03⟩ ↔
      call.goodInDegraded = true ∧
        WATCHDOG_RECOVERY_THRESHOLD.toNat ∣ goodCount (calls ++ [call]) := by
  have hcomplete : (call.task (counterAt (goodCount calls))).complete = call.complete := rfl
  have hstate : (call.task (counterAt (goodCount calls))).currentState = call.currentState := rfl
  rw [goodCount_append]
  unfold Fdir.watchdogRequest CycleCall.goodInDegraded
  rw [hcomplete, hstate]
  cases call.complete with
  | false => cases call.currentState <;> simp
  | true =>
    by_cases hdegraded : call.currentState = .Degraded
    · simp only [hdegraded, if_true, BEq.rfl, Bool.and_self, true_and]
      rw [← (counterAt_succ _).1]
      simp [CycleCall.task]
    · simp [hdegraded]

-- The code counts the good cycles since the last break in fives.
theorem recoveryAt_iff_fires (calls : List CycleCall) (w : World) (k : Nat) :
    RecoveryAt calls w k ↔
      Streak.FiresAt CycleCall.goodInDegraded CycleCall.goodElsewhere
        WATCHDOG_RECOVERY_THRESHOLD.toNat calls k := by
  unfold RecoveryAt requestedAt Streak.FiresAt Streak.GoodAt
  cases hcall : calls[k]? with
  | none =>
    have htake : calls.take (k + 1) = calls.take k := by
      rw [List.take_add_one, hcall]
      exact List.append_nil _
    simp [htake]
  | some call =>
    have htake : calls.take (k + 1) = calls.take k ++ [call] := by
      rw [List.take_add_one, hcall]
      rfl
    rw [htake, evaluateCalls_append _ call w _ (evaluateCalls_counter _ w),
      Fdir.requestOptional_requests, Option.mem_toList, watchdogRequest_recovers_iff]
    simp [goodCount]

theorem recovers_after_five_iff (calls : List CycleCall) (w : World) :
    RecoversAfterFive calls w ↔ ¬TimeoutWithinCount calls := by
  have hfires : RecoveryAt calls w =
      Streak.FiresAt CycleCall.goodInDegraded CycleCall.goodElsewhere
        WATCHDOG_RECOVERY_THRESHOLD.toNat calls := by
    funext k
    exact propext (recoveryAt_iff_fires calls w k)
  unfold RecoversAfterFive
  rw [hfires]
  exact Streak.fires_iff_streak_iff (by decide)

-- Five good cycles in DEGRADED with a timeout after the second.
def interruptedCalls : List CycleCall :=
  [⟨7, 7, .Degraded⟩, ⟨7, 7, .Degraded⟩, ⟨1, 7, .Degraded⟩, ⟨7, 7, .Degraded⟩, ⟨7, 7, .Degraded⟩,
    ⟨7, 7, .Degraded⟩]

theorem recovery_despite_timeout : ¬RecoversAfterFive interruptedCalls startupWorld := by
  intro h
  have hrecovers : RecoveryAt interruptedCalls startupWorld 5 := by
    rw [recoveryAt_iff_fires]
    exact ⟨⟨⟨7, 7, .Degraded⟩, rfl, rfl⟩, by decide⟩
  obtain ⟨-, hgood, -⟩ := (h 5).mp hrecovers
  obtain ⟨call, hcall, hcomplete⟩ := hgood 2 (by decide) (by decide)
  obtain rfl : call = ⟨1, 7, .Degraded⟩ := by simpa [interruptedCalls] using hcall.symm
  revert hcomplete
  decide

end Recovery

end SpaceBaremetal

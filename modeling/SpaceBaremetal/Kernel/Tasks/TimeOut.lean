import SpaceBaremetal.Kernel.Tasks.Waking

open SpaceBaremetal.Lists

namespace SpaceBaremetal.Tasks

structure TimeOut where
  xOverflowCount : BitVec 64
  xTimeOnEntering : BitVec 64
deriving DecidableEq, Repr

variable {ε τ : Type} [DecidableEq ε] [DecidableEq τ]

namespace Kernel

def vTaskInternalSetTimeOutState (k : Kernel ε τ) : TimeOut where
  xOverflowCount := k.xNumOfOverflows
  xTimeOnEntering := k.xTickCount

def vTaskSetTimeOutState (k : Kernel ε τ) : TimeOut where
  xOverflowCount := k.xNumOfOverflows
  xTimeOnEntering := k.xTickCount

-- The answer, and what is written to `pxTimeOut` and to `pxTicksToWait`.
def xTaskCheckForTimeOut (pxTimeOut : TimeOut) (pxTicksToWait : BitVec 64) (k : Kernel ε τ) :
    Bool × TimeOut × BitVec 64 :=
  let xConstTickCount := k.xTickCount
  let xElapsedTime := xConstTickCount - pxTimeOut.xTimeOnEntering
  if pxTicksToWait = portMAX_DELAY then
    (false, pxTimeOut, pxTicksToWait)
  else if k.xNumOfOverflows ≠ pxTimeOut.xOverflowCount ∧
      xConstTickCount ≥ pxTimeOut.xTimeOnEntering then
    (true, pxTimeOut, 0)
  else if xElapsedTime < pxTicksToWait then
    (false, k.vTaskInternalSetTimeOutState, pxTicksToWait - xElapsedTime)
  else
    (true, pxTimeOut, 0)

end Kernel

-- What is noted when the clock has a value.
def timeOutAt (clock : Nat) : TimeOut where
  xOverflowCount := BitVec.ofNat 64 (clock / tickPeriod)
  xTimeOnEntering := BitVec.ofNat 64 clock

section Check

variable {k : Kernel ε τ} {s : KernelLists ε τ} {a : Sleepers ε τ} {since : Nat}
  {ticks : BitVec 64}

omit [DecidableEq ε] [DecidableEq τ] in
theorem timeOut_noted (h : Rel k s a) : k.vTaskInternalSetTimeOutState = timeOutAt a.clock := by
  unfold Kernel.vTaskInternalSetTimeOutState timeOutAt
  rw [h.tick, h.overflows]

theorem elapsed_toNat {since clock : Nat} (hle : since ≤ clock)
    (hsoon : clock < since + tickPeriod) :
    (BitVec.ofNat 64 clock - BitVec.ofNat 64 since).toNat = clock - since := by
  unfold tickPeriod at hsoon
  rw [BitVec.toNat_sub, BitVec.toNat_ofNat, BitVec.toNat_ofNat]
  omega

-- Before the clock has gone round once, an overflow leaves the tick count below
-- the one that was noted.
theorem not_round {since clock : Nat} (hle : since ≤ clock) (hsoon : clock < since + tickPeriod) :
    ¬(BitVec.ofNat 64 (clock / tickPeriod) ≠ BitVec.ofNat 64 (since / tickPeriod) ∧
      BitVec.ofNat 64 clock ≥ BitVec.ofNat 64 since) := by
  rintro ⟨hne, hge⟩
  have hrounds : clock / tickPeriod ≠ since / tickPeriod := fun heq => hne (by rw [heq])
  rw [ge_iff_le, BitVec.le_def, BitVec.toNat_ofNat, BitVec.toNat_ofNat] at hge
  unfold tickPeriod at hsoon hrounds
  omega

omit [DecidableEq ε] [DecidableEq τ] in
theorem xTaskCheckForTimeOut_eq (h : Rel k s a) (hle : since ≤ a.clock)
    (hsoon : a.clock < since + tickPeriod) (hfinite : ticks ≠ portMAX_DELAY) :
    k.xTaskCheckForTimeOut (timeOutAt since) ticks =
      if a.clock - since < ticks.toNat then
        (false, timeOutAt a.clock,
          ticks - (BitVec.ofNat 64 a.clock - BitVec.ofNat 64 since))
      else
        (true, timeOutAt since, 0) := by
  have hround : ¬(k.xNumOfOverflows ≠ (timeOutAt since).xOverflowCount ∧
      k.xTickCount ≥ (timeOutAt since).xTimeOnEntering) := by
    rw [h.overflows, h.tick]
    exact not_round hle hsoon
  have helapsed : (k.xTickCount - (timeOutAt since).xTimeOnEntering).toNat = a.clock - since := by
    rw [h.tick]
    exact elapsed_toNat hle hsoon
  have hearly : k.xTickCount - (timeOutAt since).xTimeOnEntering < ticks ↔
      a.clock - since < ticks.toNat := by rw [BitVec.lt_def, helapsed]
  simp only [Kernel.xTaskCheckForTimeOut]
  rw [if_neg hfinite, if_neg hround, timeOut_noted h]
  simp only [hearly]
  rw [h.tick]
  rfl

end Check

-- What a task does that waits with a timeout: it notes the time, and whenever
-- it has been woken it asks whether it may wait on.
inductive Waits (idle : τ) (fuel : Nat) (k₀ : Kernel ε τ) (n : BitVec 64) :
    List (Call ε τ) → Kernel ε τ → TimeOut → BitVec 64 → Prop
  | enters : Waits idle fuel k₀ n [] k₀ k₀.vTaskSetTimeOutState n
  | goesOn {calls : List (Call ε τ)} {k k' : Kernel ε τ} {noted : TimeOut} {ticks : BitVec 64}
      {c : Call ε τ} (waits : Waits idle fuel k₀ n calls k noted ticks)
      (allowed : Allowed idle c k) (step : call fuel c k = some k') :
      Waits idle fuel k₀ n (calls ++ [c]) k' noted ticks
  | asks {calls : List (Call ε τ)} {k : Kernel ε τ} {noted noted' : TimeOut}
      {ticks ticks' : BitVec 64} (waits : Waits idle fuel k₀ n calls k noted ticks)
      (check : k.xTaskCheckForTimeOut noted ticks = (false, noted', ticks')) :
      Waits idle fuel k₀ n calls k noted' ticks'

section Waits

variable [Fintype τ] {idle : τ} {fuel : Nat} {k₀ k : Kernel ε τ} {s₀ : KernelLists ε τ}
  {a₀ : Sleepers ε τ} {n ticks : BitVec 64} {calls : List (Call ε τ)} {noted : TimeOut}

-- The ticks that are left are those from the time that was noted to the end.
def TicksLeft (n : BitVec 64) (start clock : Nat) (noted : TimeOut) (ticks : BitVec 64) : Prop :=
  ∃ since, start ≤ since ∧ since ≤ clock ∧ noted = timeOutAt since ∧
    ticks.toNat + (since - start) = n.toNat

omit [DecidableEq ε] [Fintype τ] [DecidableEq τ] in
theorem TicksLeft.check {s : KernelLists ε τ} {a : Sleepers ε τ} {start : Nat} (h : Rel k s a)
    (hfinite : n ≠ portMAX_DELAY) (hsoon : a.clock < start + tickPeriod)
    (hleft : TicksLeft n start a.clock noted ticks) :
    (k.xTaskCheckForTimeOut noted ticks).1 = decide (n.toNat ≤ a.clock - start) ∧
      (k.xTaskCheckForTimeOut noted ticks).2.2.toNat = n.toNat - (a.clock - start) ∧
      ((k.xTaskCheckForTimeOut noted ticks).1 = false →
        TicksLeft n start a.clock (k.xTaskCheckForTimeOut noted ticks).2.1
          (k.xTaskCheckForTimeOut noted ticks).2.2) := by
  obtain ⟨since, hstart, hclock, rfl, hticks⟩ := hleft
  have hnot : ticks ≠ portMAX_DELAY := by
    rintro rfl
    apply hfinite
    apply BitVec.eq_of_toNat_eq
    have hmax : portMAX_DELAY.toNat = 2 ^ 64 - 1 := rfl
    have hlt := n.isLt
    omega
  rw [xTaskCheckForTimeOut_eq h hclock (by omega) hnot]
  by_cases hearly : a.clock - since < ticks.toNat
  · have hrest : (ticks - (BitVec.ofNat 64 a.clock - BitVec.ofNat 64 since)).toNat =
        ticks.toNat - (a.clock - since) := by
      have helapsed := elapsed_toNat hclock (show a.clock < since + tickPeriod by omega)
      rw [BitVec.toNat_sub_of_le, helapsed]
      rw [BitVec.le_def, helapsed]
      exact Nat.le_of_lt hearly
    rw [if_pos hearly]
    dsimp only
    refine ⟨(decide_eq_false (by omega)).symm, by omega, fun _ => ?_⟩
    exact ⟨a.clock, by omega, Nat.le_refl _, rfl, by omega⟩
  · rw [if_neg hearly]
    refine ⟨(decide_eq_true (by omega)).symm, ?_, fun h => by cases h⟩
    show 0 = _
    omega

theorem Waits.ticksLeft (hfuel : Fintype.card (TaskItem τ) < fuel) (h₀ : Good idle k₀ s₀ a₀)
    (hfinite : n ≠ portMAX_DELAY) (waits : Waits idle fuel k₀ n calls k noted ticks) :
    ∃ s a, Good idle k s a ∧
      a.clock + k.xPendedTicks.toNat = a₀.clock + k₀.xPendedTicks.toNat + calls.count .Tick ∧
      (a.clock < a₀.clock + tickPeriod → TicksLeft n a₀.clock a.clock noted ticks) := by
  induction waits with
  | enters =>
    exact ⟨s₀, a₀, h₀, rfl,
      fun _ => ⟨_, Nat.le_refl _, Nat.le_refl _, timeOut_noted h₀.rel, by simp⟩⟩
  | @goesOn calls k k' noted ticks c waits allowed step ih =>
    obtain ⟨s, a, h, hclock, hleft⟩ := ih
    obtain ⟨k'', s', hcall, h', hnext⟩ := h.call hfuel allowed
    obtain rfl := Option.some.inj (step.symm.trans hcall)
    refine ⟨s', _, h', hnext.clock allowed hclock, ?_⟩
    intro hsoon
    have hlater : a.clock ≤ (effect c k a).clock := effect_clock_le
    obtain ⟨since, hstart, hsince, hnoted, hticks⟩ := hleft (by omega)
    exact ⟨since, hstart, by omega, hnoted, hticks⟩
  | asks waits check ih =>
    obtain ⟨s, a, h, hclock, hleft⟩ := ih
    refine ⟨s, a, h, hclock, ?_⟩
    intro hsoon
    obtain ⟨-, -, hafter⟩ := (hleft hsoon).check h.rel hfinite hsoon
    rw [check] at hafter
    exact hafter rfl

-- However often a task is woken and waits on, it is told that its time is up
-- when the ticks it asked for have been counted and not before, and the ticks
-- it is left with are those that are missing.
theorem timeout_exact (hfuel : Fintype.card (TaskItem τ) < fuel) {k₁ : Kernel ε τ}
    (hstart : Started k₀) {before : List (Call ε τ)} (run : Run idle fuel k₀ before k₁)
    (hfinite : n ≠ portMAX_DELAY) (waits : Waits idle fuel k₁ n calls k noted ticks)
    (hsoon : ticksCounted calls k₁ k < 2 ^ 64) :
    (k.xTaskCheckForTimeOut noted ticks).1 = decide (n.toNat ≤ ticksCounted calls k₁ k) ∧
      (k.xTaskCheckForTimeOut noted ticks).2.2.toNat = n.toNat - ticksCounted calls k₁ k := by
  obtain ⟨⟨s₀, h₀⟩, -⟩ := hstart.good idle
  obtain ⟨s₁, a₁, h₁, -, -⟩ := run.good hfuel h₀
  obtain ⟨s, a, h, hclock, hleft⟩ := waits.ticksLeft hfuel h₁ hfinite
  have hcounted : ticksCounted calls k₁ k = a.clock - a₁.clock := by
    unfold ticksCounted
    omega
  rw [hcounted] at hsoon ⊢
  have hperiod : a.clock < a₁.clock + tickPeriod := by
    unfold tickPeriod
    omega
  obtain ⟨hanswer, hrest, -⟩ := (hleft hperiod).check h.rel hfinite hperiod
  exact ⟨hanswer, hrest⟩

theorem timeout_exact_two :
    ∃ k₀ k₁ k₂ : Kernel Unit Bool, Run false 5 k₀ [.SuspendAll] k₁ ∧
      Waits false 5 k₁ 7 ([] ++ [.Delay 1]) k₂ k₁.vTaskSetTimeOutState 7 ∧
      (k₂.xTaskCheckForTimeOut k₁.vTaskSetTimeOutState 7).1 =
        decide (7 ≤ ticksCounted ([] ++ [.Delay 1]) k₁ k₂) := by
  obtain ⟨k₀, k₁, k₂, hstart, run, -, -, hallowed, hcall, -⟩ :=
    twoTasks_suspended (.Delay 1) fun k hblock _ => ⟨hblock, by decide⟩
  have waits : Waits false 5 k₁ 7 ([] ++ [.Delay 1]) k₂ k₁.vTaskSetTimeOutState 7 :=
    .goesOn .enters hallowed hcall
  have hpended : k₁.xPendedTicks.toNat < 2 ^ 64 := k₁.xPendedTicks.isLt
  have hsoon : ticksCounted ([] ++ [.Delay 1]) k₁ k₂ < 2 ^ 64 := by
    simp only [ticksCounted, List.nil_append, List.count_singleton]
    simp
    omega
  exact ⟨k₀, k₁, k₂, run, waits,
    (timeout_exact (by decide) hstart run (by decide) waits hsoon).1⟩

end Waits

end SpaceBaremetal.Tasks

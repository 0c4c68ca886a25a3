import SpaceBaremetal.Fdir.Sends
import SpaceBaremetal.Operation

namespace SpaceBaremetal

-- What can change the state or the switch of automatic injection once the
-- state machine has booted.
inductive PolicyInput
  | Request (request : StateRequest)
  | Command (cmd : CommandType)
deriving DecidableEq

variable (layout : Layout)

def PolicyInput.run : PolicyInput → World → World
  | .Request request, w => stateMachineHandle request w
  | .Command cmd, w => commandHandle layout cmd w

-- The world after the first `k` inputs of a run.
def policyRun (inputs : List PolicyInput) (w : World) (k : Nat) : World :=
  (inputs.take k).foldl (fun w input => input.run layout w) w

def togglesAt (inputs : List PolicyInput) (k : Nat) : Prop :=
  inputs[k]? = some (.Command .ToggleFaultInject)

-- From any moment in SAFE on, injection is off until an 'x' is handled outside
-- SAFE. With `k = j` this says that it is off in SAFE itself.
def InjectionOffSinceSafe (inputs : List PolicyInput) (w : World) : Prop :=
  ∀ k j, k ≤ j → j ≤ inputs.length → systemStateGet (policyRun layout inputs w k) = .Safe →
    (∀ i, k ≤ i → i < j → togglesAt inputs i →
      systemStateGet (policyRun layout inputs w i) = .Safe) →
    faultInjectIsEnabled (policyRun layout inputs w j) = false

section Step

variable {layout}

theorem stateMachineBoot_ne_safe (allocated : Bool) (w : World) :
    (stateMachineBoot allocated w).gSystemState ≠ .Safe := by
  have hstate : (stateMachineBoot allocated w).gSystemState =
      if w.imageIntegrityOk then .Nominal else .Degraded :=
    congrArg Control.state (Fdir.stateMachineBoot_control allocated w)
  rw [hstate]
  split_ifs <;> decide

theorem policyRun_succ {inputs : List PolicyInput} {w : World} {k : Nat} {input : PolicyInput}
    (h : inputs[k]? = some input) :
    policyRun layout inputs w (k + 1) = input.run layout (policyRun layout inputs w k) := by
  unfold policyRun
  rw [List.take_add_one, h, List.foldl_append]
  rfl

theorem commandHandle_state (cmd : CommandType) (w : World) :
    (commandHandle layout cmd w).gSystemState = w.gSystemState :=
  Fdir.sends_state (Fdir.commandHandle_sends layout cmd w)

theorem toggle_enabled (layout : Layout) (w : World) :
    faultInjectIsEnabled (commandHandle layout .ToggleFaultInject w) = !faultInjectIsEnabled w :=
  congrArg Operation.faultInjectEnabled (commandHandle_operation layout .ToggleFaultInject w)

-- Only the toggle turns injection on.
theorem input_keeps_off {input : PolicyInput} {w : World}
    (hinput : input ≠ .Command .ToggleFaultInject) (hoff : faultInjectIsEnabled w = false) :
    faultInjectIsEnabled (input.run layout w) = false := by
  cases input with
  | Request request =>
    have hoperation := congrArg Operation.faultInjectEnabled (stateMachineHandle_operation request w)
    change (stateMachineHandle request w).operation.faultInjectEnabled = false
    rw [hoperation]
    split_ifs
    · rfl
    · exact hoff
  | Command cmd =>
    have hoperation := congrArg Operation.faultInjectEnabled (commandHandle_operation layout cmd w)
    rw [if_neg (fun h => hinput (congrArg PolicyInput.Command h))] at hoperation
    exact hoperation.trans hoff

theorem input_enters_safe_off {input : PolicyInput} {w : World} (hbefore : w.gSystemState ≠ .Safe)
    (hafter : (input.run layout w).gSystemState = .Safe) :
    faultInjectIsEnabled (input.run layout w) = false := by
  cases input with
  | Request request =>
    have hoperation := congrArg Operation.faultInjectEnabled (stateMachineHandle_operation request w)
    change (stateMachineHandle request w).gSystemState = .Safe at hafter
    rw [stateMachineHandle_state] at hafter
    rw [if_pos ⟨by rwa [hafter], .inr hafter⟩] at hoperation
    exact hoperation
  | Command cmd =>
    change (commandHandle layout cmd w).gSystemState = .Safe at hafter
    rw [commandHandle_state] at hafter
    exact absurd hafter hbefore

end Step

section Run

variable {layout}

-- Without a toggle in SAFE, every state of a run that is SAFE has injection off.
theorem policyRun_safe_off {inputs : List PolicyInput} {w : World} (hstart : w.gSystemState ≠ .Safe)
    (hno : ∀ k, togglesAt inputs k → systemStateGet (policyRun layout inputs w k) ≠ .Safe)
    (k : Nat) (hk : k ≤ inputs.length)
    (hsafe : systemStateGet (policyRun layout inputs w k) = .Safe) :
    faultInjectIsEnabled (policyRun layout inputs w k) = false := by
  induction k with
  | zero => exact absurd hsafe hstart
  | succ k ih =>
    have hinput : inputs[k]? = some inputs[k] := List.getElem?_eq_getElem hk
    rw [policyRun_succ hinput] at hsafe ⊢
    by_cases hbefore : systemStateGet (policyRun layout inputs w k) = .Safe
    · apply input_keeps_off
      · intro htoggle
        exact hno k (hinput.trans (congrArg some htoggle)) hbefore
      · exact ih (by omega) hbefore
    · exact input_enters_safe_off hbefore hsafe

-- The switch can be on in SAFE exactly because the toggle does not look at the
-- state.
theorem injection_off_since_safe_iff (allocated : Bool) (inputs : List PolicyInput) (w : World) :
    InjectionOffSinceSafe layout inputs (stateMachineBoot allocated w) ↔
      ∀ k, togglesAt inputs k →
        systemStateGet (policyRun layout inputs (stateMachineBoot allocated w) k) ≠ .Safe := by
  constructor
  · intro hoff k htoggle hsafe
    have hk := (List.getElem?_eq_some_iff.mp htoggle).1
    have hbefore := hoff k k (Nat.le_refl _) (by omega) hsafe (by omega)
    have hstep : policyRun layout inputs (stateMachineBoot allocated w) (k + 1) =
        commandHandle layout .ToggleFaultInject
          (policyRun layout inputs (stateMachineBoot allocated w) k) := policyRun_succ htoggle
    have hstill : systemStateGet (policyRun layout inputs (stateMachineBoot allocated w) (k + 1)) =
        .Safe := by
      rw [hstep]
      exact (commandHandle_state _ _).trans hsafe
    have hafter := hoff (k + 1) (k + 1) (Nat.le_refl _) hk hstill (by omega)
    rw [hstep] at hafter
    have htoggled := toggle_enabled layout
      (policyRun layout inputs (stateMachineBoot allocated w) k)
    rw [hbefore] at htoggled
    exact Bool.noConfusion (htoggled.symm.trans hafter)
  · intro hno k j hkj hj hsafe htoggles
    induction j, hkj using Nat.le_induction with
    | base => exact policyRun_safe_off (stateMachineBoot_ne_safe allocated w) hno k hj hsafe
    | succ j hkj ih =>
      have hinput : inputs[j]? = some inputs[j] := List.getElem?_eq_getElem hj
      rw [policyRun_succ hinput]
      apply input_keeps_off
      · intro htoggle
        have htogglesj : togglesAt inputs j := hinput.trans (congrArg some htoggle)
        exact hno j htogglesj (htoggles j hkj (Nat.lt_succ_self j) htogglesj)
      · exact ih (by omega) (fun i hki hij => htoggles i hki (by omega))

-- The operator asks for SAFE and then toggles.
theorem toggle_in_safe_enables_injection :
    ¬InjectionOffSinceSafe startupLayout [.Request ⟨.Safe, 0x10⟩, .Command .ToggleFaultInject]
      (stateMachineBoot true startupWorld) := by
  intro hoff
  have h := hoff 2 2 (Nat.le_refl _) (Nat.le_refl _) rfl (by omega)
  revert h
  decide

end Run

end SpaceBaremetal

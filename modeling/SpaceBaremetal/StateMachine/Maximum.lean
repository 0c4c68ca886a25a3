import SpaceBaremetal.Lib.ResettableMax
import SpaceBaremetal.StateMachine.Theorems

namespace SpaceBaremetal

section Order

theorem SystemState.value_injective : Function.Injective SystemState.value := by
  intro state other h
  revert h
  cases state <;> cases other <;> simp [SystemState.value]

-- The order of the enumerators.
instance : LinearOrder SystemState := LinearOrder.lift' SystemState.value SystemState.value_injective

theorem SystemState.le_iff (state other : SystemState) : state ≤ other ↔ state.value ≤ other.value :=
  Iff.rfl

end Order

section Maximum

-- The state after a list of requests, each applied to the state that the ones
-- before it left.
def applyRequests (start : SystemState) (requests : List StateRequest) : SystemState :=
  requests.foldl
    (fun state request => (stateMachineApplyRequest (some state) (some request)).2.getD state) start

def isRecoveryRequest (request : StateRequest) : Prop :=
  request.requestedState = .Nominal ∧ (request.reasonCode = 0x03 ∨ request.reasonCode = 0x10)

-- A recovery from DEGRADED or SAFE.
def Recovers (state : SystemState) (request : StateRequest) : Prop :=
  isRecoveryRequest request ∧ (state = .Degraded ∨ state = .Safe)

theorem stateMachineApplyRequest_eq (state : SystemState) (request : StateRequest) :
    stateMachineApplyRequest (some state) (some request) =
      (decide (state ≠ applied state request), some (applied state request)) := by
  unfold stateMachineApplyRequest applied
  by_cases hallows : stateMachineAllowsRequest state request = true
  · by_cases hsame : state = request.requestedState
    · simp [hsame]
    · simp [hallows, hsame]
  · simp [hallows]

-- A recovery is accepted, and everything else can only raise the state.
theorem applied_spec :
    ResettableMax.Spec applied Recovers StateRequest.requestedState SystemState.Nominal where
  reset := by
    rintro state request ⟨⟨hnominal, hreason⟩, hstate⟩
    have hallows : stateMachineAllowsRequest state request = true :=
      (stateMachineAllowsRequest_iff state request).mpr (.inr ⟨hnominal, hstate, hreason⟩)
    rw [applied, if_pos hallows, hnominal]
  raise := by
    intro state request hnot
    have hallows :
        stateMachineAllowsRequest state request = true ↔ state ≤ request.requestedState := by
      rw [stateMachineAllowsRequest_iff, SystemState.le_iff]
      constructor
      · rintro (hle | ⟨hnominal, hstate, hreason⟩)
        · exact hle
        · exact absurd ⟨⟨hnominal, hreason⟩, hstate⟩ hnot
      · exact .inl
    unfold applied
    split_ifs with h
    · exact (max_eq_right (hallows.mp h)).symm
    · exact (max_eq_left (le_of_not_ge (mt hallows.mpr h))).symm

theorem applyRequests_eq (start : SystemState) (requests : List StateRequest) :
    applyRequests start requests = requests.foldl applied start := by
  unfold applyRequests
  congr 1
  funext state request
  rw [stateMachineApplyRequest_eq]
  rfl

-- The request at position `k` is a recovery that the state machine accepts.
def AcceptedRecoveryAt (start : SystemState) (requests : List StateRequest) (k : Nat) : Prop :=
  ∃ request, requests[k]? = some request ∧
    (stateMachineApplyRequest (some (applyRequests start (requests.take k))) (some request)).1 = true ∧
    Recovers (applyRequests start (requests.take k)) request

theorem acceptedRecoveryAt_iff (start : SystemState) (requests : List StateRequest) (k : Nat) :
    AcceptedRecoveryAt start requests k ↔
      ResettableMax.ResetAt applied Recovers start requests k := by
  unfold AcceptedRecoveryAt ResettableMax.ResetAt
  rw [applyRequests_eq]
  refine exists_congr fun request => and_congr_right fun _ => ?_
  constructor
  · exact fun h => h.2
  · intro hrecovers
    refine ⟨?_, hrecovers⟩
    have hstate := hrecovers.2
    rw [stateMachineApplyRequest_eq, applied_spec.reset _ _ hrecovers]
    rcases hstate with hstate | hstate <;> rw [hstate] <;> rfl

theorem applyRequests_of_no_recovery (start : SystemState) (requests : List StateRequest)
    (hno : ∀ k, ¬AcceptedRecoveryAt start requests k) :
    applyRequests start requests = (requests.map StateRequest.requestedState).foldl max start := by
  rw [applyRequests_eq]
  apply ResettableMax.foldl_of_no_reset applied_spec
  intro k
  rw [← acceptedRecoveryAt_iff]
  exact hno k

theorem applyRequests_of_last_recovery (start : SystemState) (requests : List StateRequest)
    (k : Nat) (hrecovery : AcceptedRecoveryAt start requests k)
    (hlast : ∀ j, k < j → ¬AcceptedRecoveryAt start requests j) :
    applyRequests start requests =
      ((requests.drop (k + 1)).map StateRequest.requestedState).foldl max .Nominal := by
  simp only [acceptedRecoveryAt_iff] at hrecovery hlast
  rw [applyRequests_eq]
  exact ResettableMax.foldl_of_last_reset applied_spec start requests k hrecovery hlast

-- Without recovery requests only the requested states matter, however often
-- and in whatever order they come.
theorem applyRequests_congr (start : SystemState) (requests others : List StateRequest)
    (hno : ∀ request ∈ requests, ¬isRecoveryRequest request)
    (hsame : ∀ request, request ∈ requests ↔ request ∈ others) :
    applyRequests start requests = applyRequests start others := by
  have hnone : ∀ (list : List StateRequest), (∀ request ∈ list, ¬isRecoveryRequest request) →
      ∀ k, ¬AcceptedRecoveryAt start list k := by
    rintro list hlist k ⟨request, hrequest, -, hrecovers⟩
    exact hlist request (List.mem_of_getElem? hrequest) hrecovers.1
  rw [applyRequests_of_no_recovery start requests (hnone _ hno),
    applyRequests_of_no_recovery start others
      (hnone _ (fun request hrequest => hno request ((hsame request).mpr hrequest)))]
  apply ResettableMax.foldl_max_congr
  intro state
  simp only [List.mem_map, hsame]

theorem state_machine_is_resettable_maximum (start : SystemState) (requests : List StateRequest) :
    ((∀ k, ¬AcceptedRecoveryAt start requests k) →
        applyRequests start requests =
          (requests.map StateRequest.requestedState).foldl max start) ∧
      (∀ k, AcceptedRecoveryAt start requests k →
        (∀ j, k < j → ¬AcceptedRecoveryAt start requests j) →
        applyRequests start requests =
          ((requests.drop (k + 1)).map StateRequest.requestedState).foldl max .Nominal) ∧
      (∀ request, (stateMachineApplyRequest (some start) (some request)).1 = false →
        (stateMachineApplyRequest (some start) (some request)).2 = some start) ∧
      (start ≠ .Boot → ∀ request,
        (stateMachineApplyRequest (some start) (some request)).2 ≠ some .Boot) ∧
      ((∀ request ∈ requests, ¬isRecoveryRequest request) →
        ∀ others, (requests.Perm others ∨ ∀ request, request ∈ requests ↔ request ∈ others) →
          applyRequests start requests = applyRequests start others) := by
  refine ⟨applyRequests_of_no_recovery start requests,
    applyRequests_of_last_recovery start requests, ?_, ?_, ?_⟩
  · intro request hrejected
    rw [stateMachineApplyRequest_eq] at hrejected ⊢
    simp only [ne_eq, decide_not, Bool.not_eq_false', decide_eq_true_eq] at hrejected
    rw [← hrejected]
  · intro hstart request
    rw [stateMachineApplyRequest_eq]
    simpa using applied_ne_boot hstart request
  · rintro hno others (hperm | hsame)
    · exact applyRequests_congr start requests others hno fun request => hperm.mem_iff
    · exact applyRequests_congr start requests others hno hsame

end Maximum

end SpaceBaremetal

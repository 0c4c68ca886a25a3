import SpaceBaremetal.SystemState

namespace SpaceBaremetal

-- How often a request was made, whether the queue took it or not.
def World.attempts (request : StateRequest) (w : World) : Nat :=
  w.stateRequests.countP fun attempt => decide (attempt.1 = request)

theorem systemStateRequestChange_stateRequests (state : SystemState) (reason : BitVec 32)
    (w : World) :
    (systemStateRequestChange state reason w).2.stateRequests =
      w.stateRequests ++ [(⟨state, reason⟩, (systemStateRequestChange state reason w).1)] := by
  unfold systemStateRequestChange
  cases w.xStateRequestQueue <;> rfl

theorem systemStateRequestChange_attempts (request : StateRequest) (state : SystemState)
    (reason : BitVec 32) (w : World) :
    (systemStateRequestChange state reason w).2.attempts request =
      w.attempts request + if request = ⟨state, reason⟩ then 1 else 0 := by
  unfold World.attempts
  rw [systemStateRequestChange_stateRequests, List.countP_append]
  by_cases h : request = ⟨state, reason⟩
  · simp [h]
  · simp [h, Ne.symm h]

-- A request is taken exactly if the queue exists and has room.
theorem systemStateRequestChange_fst (state : SystemState) (reason : BitVec 32) (w : World) :
    (systemStateRequestChange state reason w).1 = true ↔
      ∃ queue, w.xStateRequestQueue = some queue ∧
        queue.items.length < STATE_REQUEST_QUEUE_LENGTH := by
  unfold systemStateRequestChange
  cases w.xStateRequestQueue with
  | none => simp
  | some queue =>
    by_cases hroom : queue.items.length < STATE_REQUEST_QUEUE_LENGTH
    · simp [hroom, (BoundedQueue.send_of_lt ⟨state, reason⟩ hroom).1]
    · simp [hroom, BoundedQueue.send_of_full ⟨state, reason⟩ (Nat.not_lt.mp hroom)]

end SpaceBaremetal

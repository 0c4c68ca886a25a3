import SpaceBaremetal.World

namespace SpaceBaremetal

def xTaskGetTickCount (w : World) : BitVec 64 :=
  BitVec.ofNat 64 w.xTickCount

inductive NotifyAction
  | NoAction
  | SetBits
  | Increment
  | SetValueWithOverwrite
  | SetValueWithoutOverwrite
deriving DecidableEq, Repr

-- The critical section of `xTaskGenericNotify`, without the scheduling that
-- follows it: what it returns and what it leaves in the slot.
def xTaskGenericNotify (value : BitVec 32) (action : NotifyAction) (slot : TaskNotification) :
    Bool × TaskNotification :=
  match action with
  | .SetBits => (true, { value := slot.value ||| value, state := .Received })
  | .Increment => (true, { value := slot.value + 1, state := .Received })
  | .SetValueWithOverwrite => (true, { value := value, state := .Received })
  | .SetValueWithoutOverwrite =>
      if slot.state ≠ .Received then
        (true, { value := value, state := .Received })
      else
        (false, { slot with state := .Received })
  | .NoAction => (true, { slot with state := .Received })

-- `xTaskGenericNotifyWait` up to the point where the task blocks. The Boolean
-- says whether it does block.
def xTaskNotifyWaitEntry (bitsToClearOnEntry : BitVec 32) (ticksToWait : BitVec 64)
    (slot : TaskNotification) : Bool × TaskNotification :=
  if slot.state ≠ .Received ∧ ticksToWait > 0 then
    (true, { value := slot.value &&& ~~~bitsToClearOnEntry, state := .Waiting })
  else
    (false, slot)

-- The rest of `xTaskGenericNotifyWait`, run when a notification has come or
-- the wait has timed out: the result, the value read, and the slot after it.
def xTaskNotifyWaitExit (bitsToClearOnExit : BitVec 32) (slot : TaskNotification) :
    Bool × BitVec 32 × TaskNotification :=
  if slot.state ≠ .Received then
    (false, slot.value, { slot with state := .NotWaiting })
  else
    (true, slot.value, { value := slot.value &&& ~~~bitsToClearOnExit, state := .NotWaiting })

section Masks

theorem and_not_zero (value : BitVec 32) : value &&& ~~~0 = value := by
  change value &&& ~~~0#32 = value
  rw [BitVec.not_zero, BitVec.and_allOnes]

-- The watchdog passes 0 for both masks, so its waits never clear a bit.
@[simp] theorem xTaskNotifyWaitEntry_value (ticks : BitVec 64) (slot : TaskNotification) :
    (xTaskNotifyWaitEntry 0 ticks slot).2.value = slot.value := by
  unfold xTaskNotifyWaitEntry
  split <;> simp only [and_not_zero]

@[simp] theorem xTaskNotifyWaitExit_value (slot : TaskNotification) :
    (xTaskNotifyWaitExit 0 slot).2.2.value = slot.value := by
  unfold xTaskNotifyWaitExit
  split <;> simp only [and_not_zero]

@[simp] theorem xTaskNotifyWaitExit_bits (clear : BitVec 32) (slot : TaskNotification) :
    (xTaskNotifyWaitExit clear slot).2.1 = slot.value := by
  unfold xTaskNotifyWaitExit
  split <;> rfl

@[simp] theorem xTaskNotifyWaitExit_state (clear : BitVec 32) (slot : TaskNotification) :
    (xTaskNotifyWaitExit clear slot).2.2.state = .NotWaiting := by
  unfold xTaskNotifyWaitExit
  split <;> rfl

theorem xTaskNotifyWaitExit_result (clear : BitVec 32) (slot : TaskNotification) :
    (xTaskNotifyWaitExit clear slot).1 = decide (slot.state = .Received) := by
  unfold xTaskNotifyWaitExit
  split <;> simp_all

-- Entering a wait keeps a notification that is already pending.
theorem xTaskNotifyWaitEntry_received (clear : BitVec 32) (ticks : BitVec 64)
    (slot : TaskNotification) :
    (xTaskNotifyWaitEntry clear ticks slot).2.state = .Received ↔ slot.state = .Received := by
  unfold xTaskNotifyWaitEntry
  split <;> simp_all

end Masks

end SpaceBaremetal

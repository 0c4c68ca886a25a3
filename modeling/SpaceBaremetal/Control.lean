import SpaceBaremetal.EventLog.Theorems
import SpaceBaremetal.StateMachine
import SpaceBaremetal.Watchdog

namespace SpaceBaremetal

-- The part of the world that the state machine and the watchdog steer by. The
-- functions below either leave it alone or say how they change it.
structure Control where
  state : SystemState
  queue : Option (BoundedQueue StateRequest STATE_REQUEST_QUEUE_LENGTH)
  slot : TaskNotification
  handle : Option TaskHandle
  ticks : Nat
  imageOk : Bool

def World.control (w : World) : Control where
  state := w.gSystemState
  queue := w.xStateRequestQueue
  slot := w.watchdogNotification
  handle := w.xWatchdogTaskHandle
  ticks := w.xTickCount
  imageOk := w.imageIntegrityOk

section Frame

@[simp] theorem uartWrite_control (text : List String) (w : World) :
    (uartWrite text w).control = w.control := rfl

@[simp] theorem eventLogStore_control (type : EventLogType) (argA argB : BitVec 8)
    (data : BitVec 32) (w : World) : (eventLogStore type argA argB data w).control = w.control := rfl

@[simp] theorem safePolicyOnDegradedEnter_control (w : World) :
    (safePolicyOnDegradedEnter w).control = w.control := rfl

@[simp] theorem safePolicyOnEnter_control (w : World) :
    (safePolicyOnEnter w).control = w.control := rfl

@[simp] theorem safePolicyOnExit_control (w : World) :
    (safePolicyOnExit w).control = w.control := rfl

@[simp] theorem stateMachineLogTransition_control (state : SystemState) (w : World) :
    (stateMachineLogTransition state w).control = w.control := by
  cases state <;> rfl

@[simp] theorem stateMachineApplyPolicy_control (previous current : SystemState) (w : World) :
    (stateMachineApplyPolicy previous current w).control = w.control := by
  unfold stateMachineApplyPolicy
  split_ifs <;> simp

end Frame

end SpaceBaremetal

import SpaceBaremetal.SafePolicy
import SpaceBaremetal.SystemState

namespace SpaceBaremetal

def IMAGE_INTEGRITY_REASON_CODE : BitVec 32 := 0x05

def stateMachineAllowsRequest (current : SystemState) (request : StateRequest) : Bool :=
  let requested := request.requestedState
  if requested.value ≥ current.value then
    true
  else if requested = .Nominal ∧ (current = .Degraded ∨ current = .Safe) ∧
      (request.reasonCode = 0x03 ∨ request.reasonCode = 0x10) then
    true
  else
    false

-- A NULL pointer is `none`. The second component is what `current` points at
-- afterwards.
def stateMachineApplyRequest (current : Option SystemState) (request : Option StateRequest) :
    Bool × Option SystemState :=
  match current, request with
  | some current, some request =>
      if stateMachineAllowsRequest current request = false then
        (false, some current)
      else if current = request.requestedState then
        (false, some current)
      else
        (true, some request.requestedState)
  | current, _ => (false, current)

def stateMachineLogTransition (state : SystemState) (w : World) : World :=
  let w := uartPuts (LOG_PREFIX_STATE ++ "changed to ") w
  match state with
  | .Nominal => uartPuts "NOMINAL\r\n" w
  | .Degraded => uartPuts "DEGRADED\r\n" w
  | .Safe => uartPuts "SAFE\r\n" w
  | .Boot => uartPuts "UNKNOWN\r\n" w

-- `vTaskStateMachine` up to its loop.
def stateMachineBoot (allocated : Bool) (w : World) : World :=
  let w := systemStateInit allocated w
  if w.imageIntegrityOk then
    { w with gSystemState := .Nominal }
      |> uartPuts (LOG_PREFIX_STATE ++ "NOMINAL\r\n")
      |> eventLogRecordStateChange .Boot .Nominal 0
  else
    { w with gSystemState := .Degraded }
      |> uartPuts (LOG_PREFIX_STATE ++ "DEGRADED\r\n")
      |> eventLogRecordStateChange .Boot .Degraded IMAGE_INTEGRITY_REASON_CODE
      |> safePolicyOnDegradedEnter

def stateMachineApplyPolicy (previous current : SystemState) (w : World) : World :=
  if current = .Degraded ∧ previous ≠ .Degraded then
    safePolicyOnDegradedEnter w
  else if current = .Safe ∧ previous ≠ .Safe then
    safePolicyOnEnter w
  else if previous = .Safe ∧ current ≠ .Safe then
    safePolicyOnExit w
  else
    w

-- The body of the loop for a request that was received.
def stateMachineHandle (request : StateRequest) (w : World) : World :=
  match stateMachineApplyRequest (some w.gSystemState) (some request) with
  | (true, some current) =>
      let previous := w.gSystemState
      { w with gSystemState := current }
        |> stateMachineLogTransition current
        |> eventLogRecordStateChange previous current request.reasonCode
        |> stateMachineApplyPolicy previous current
  | _ => w

end SpaceBaremetal

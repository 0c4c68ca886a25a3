import SpaceBaremetal.Uart

namespace SpaceBaremetal

def LOG_PREFIX_STATE : String := "[STATE] "

-- `allocated` is the outcome of `xQueueCreate`.
def systemStateInit (allocated : Bool) (w : World) : World :=
  { w with
      xStateRequestQueue := if allocated then some BoundedQueue.empty else none
      gSystemState := .Boot }
    |> uartPuts (LOG_PREFIX_STATE ++ "BOOT\r\n")

def systemStateGet (w : World) : SystemState :=
  w.gSystemState

-- `true` is pdPASS. Every call is also kept in the history of requests.
def systemStateRequestChange (newState : SystemState) (reason : BitVec 32) (w : World) :
    Bool × World :=
  let request : StateRequest := { requestedState := newState, reasonCode := reason }
  match w.xStateRequestQueue with
  | none => (false, { w with stateRequests := w.stateRequests ++ [(request, false)] })
  | some queue =>
      ((queue.send request).1,
        { w with
            xStateRequestQueue := some (queue.send request).2
            stateRequests := w.stateRequests ++ [(request, (queue.send request).1)] })

-- What is waiting in the state queue; nothing is while it does not exist.
def World.pendingRequests (w : World) : List StateRequest :=
  match w.xStateRequestQueue with
  | none => []
  | some queue => queue.items

end SpaceBaremetal

import SpaceBaremetal.Tasks

namespace SpaceBaremetal

-- `allocated` is the outcome of `xQueueCreate`.
def commandInit (allocated : Bool) (w : World) : World :=
  { w with xCommandQueue := if allocated then some BoundedQueue.empty else none }

def commandSend (cmd : CommandType) (w : World) : Bool × World :=
  match w.xCommandQueue with
  | none => (false, w)
  | some queue => ((queue.send cmd).1, { w with xCommandQueue := some (queue.send cmd).2 })

def commandPrintHelp (w : World) : World :=
  w |> uartPuts (LOG_PREFIX_CMD ++ "Commands:\r\n")
    |> uartPuts (LOG_PREFIX_CMD ++ "  s  status (DEBUG telemetry snapshot)\r\n")
    |> uartPuts (LOG_PREFIX_CMD ++ "  n  request NOMINAL state\r\n")
    |> uartPuts (LOG_PREFIX_CMD ++ "  d  request DEGRADED state\r\n")
    |> uartPuts (LOG_PREFIX_CMD ++ "  a  request SAFE state\r\n")
    |> uartPuts (LOG_PREFIX_CMD ++ "  f  inject one fault now\r\n")
    |> uartPuts (LOG_PREFIX_CMD ++ "  r  force full memory scrub\r\n")
    |> uartPuts (LOG_PREFIX_CMD ++ "  v  print memory protection violation count\r\n")
    |> uartPuts (LOG_PREFIX_CMD ++ "  u  print SEU count\r\n")
    |> uartPuts (LOG_PREFIX_CMD ++ "  x  toggle automatic fault injection\r\n")
    |> uartPuts (LOG_PREFIX_CMD ++ "  l  dump flight recorder log\r\n")
    |> uartPuts (LOG_PREFIX_CMD ++ "  h  show this help\r\n")

-- The switch of `command_dispatch_char`, for the keys that name a command.
def keyCommand (c : Char) : Option CommandType :=
  match c with
  | 's' => some .Status
  | 'n' => some .GoNominal
  | 'd' => some .GoDegraded
  | 'a' => some .GoSafe
  | 'f' => some .InjectFault
  | 'r' => some .ForceScrub
  | 'v' => some .PrintViolations
  | 'u' => some .PrintSeuCount
  | 'x' => some .ToggleFaultInject
  | 'l' => some .DumpEventLog
  | _ => none

def commandDispatchChar (c : Char) (w : World) : Bool × World :=
  match keyCommand c with
  | some cmd =>
      let sent := commandSend cmd w
      (true, if sent.1 = false then uartPuts (LOG_PREFIX_CMD ++ "queue full\r\n") sent.2 else sent.2)
  | none =>
      if c = 'h' ∨ c = '?' then
        (true, commandPrintHelp w)
      else
        (false, w)

-- `vTaskCommandInput` up to its loop.
def commandInputStart (w : World) : World :=
  uartPuts (LOG_PREFIX_CMD ++ "input ready (h for help)\r\n") w

-- One round of the loop of `vTaskCommandInput`, given what the UART holds.
def commandInputBody (received : Option Char) (w : World) : World :=
  match received with
  | none => w
  | some c =>
      if c = '\r' ∨ c = '\n' then
        w
      else
        let dispatched := commandDispatchChar c w
        if dispatched.1 = false then
          dispatched.2
            |> uartPuts (LOG_PREFIX_CMD ++ "unknown key '")
            |> uartPutc c
            |> uartPuts "' (h for help)\r\n"
        else
          dispatched.2

-- The receive of `vTaskCommandHandler`, which waits while this is `none`.
def commandQueueReceive (w : World) : Option (CommandType × World) :=
  match w.xCommandQueue with
  | none => none
  | some queue =>
      match queue.receive with
      | none => none
      | some (cmd, rest) => some (cmd, { w with xCommandQueue := some rest })

end SpaceBaremetal

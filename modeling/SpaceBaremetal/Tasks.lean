import SpaceBaremetal.MemoryScrub
import SpaceBaremetal.Watchdog

namespace SpaceBaremetal

def LOG_PREFIX_CMD : String := "[CMD] "

variable (layout : Layout)

-- One round of the loop of `vTaskHeartbeat`.
def heartbeatBody (w : World) : World :=
  let w := if safePolicyAllowsHeartbeatUart (systemStateGet w) then
    uartPuts "HEARTBEAT from FreeRTOS task\r\n" w
  else
    w
  watchdogKick layout WATCHDOG_BIT_HEARTBEAT w

-- One round of the loop of `vTaskMemoryScrub`.
def memoryScrubBody (w : World) : World :=
  w |> memoryScrubCycle layout |> watchdogKick layout WATCHDOG_BIT_MEMSCRUB

-- One round of the loop of `vTaskFaultInject` after its delay.
def faultInjectBody (w : World) : World :=
  if safePolicyAllowsAutoFaultInject (systemStateGet w) then
    let w := watchdogKick layout WATCHDOG_BIT_FAULTINJECT w
    if w.faultInjectEnabled then injectRandomFault w else w
  else
    w

-- The build without DEBUG, which has no telemetry.
def commandHandle (cmd : CommandType) (w : World) : World :=
  match cmd with
  | .Status => uartPuts (LOG_PREFIX_CMD ++ "telemetry requires DEBUG build\r\n") w
  | .GoNominal =>
      (w |> eventLogRecordOperator 'n' |> systemStateRequestChange .Nominal 0x10).2
  | .GoDegraded =>
      (w |> eventLogRecordOperator 'd' |> systemStateRequestChange .Degraded 0x10).2
  | .GoSafe =>
      (w |> eventLogRecordOperator 'a' |> systemStateRequestChange .Safe 0x10).2
  | .DumpEventLog => eventLogDump w
  | .InjectFault =>
      if safePolicyAllowsManualFaultInject (systemStateGet w) = false then
        uartPuts (LOG_PREFIX_CMD ++ "fault inject blocked in SAFE\r\n") w
      else
        injectRandomFault w
  | .ForceScrub => memoryScrub layout w
  | .PrintViolations =>
      w |> uartPuts (LOG_PREFIX_CMD ++ "mem_prot violations: ")
        |> uartPutDec w.memoryProtection.violationCount
        |> uartPuts "\r\n"
  | .PrintSeuCount =>
      w |> uartPuts (LOG_PREFIX_CMD ++ "SEU count: ")
        |> uartPutDec w.seuTotalCount
        |> uartPuts "\r\n"
  | .ToggleFaultInject =>
      let w := (faultInjectSetEnabled (!faultInjectIsEnabled w) w).2
      w |> uartPuts (LOG_PREFIX_CMD ++ "fault injection: ")
        |> uartPuts (if faultInjectIsEnabled w then "ON\r\n" else "OFF\r\n")

end SpaceBaremetal

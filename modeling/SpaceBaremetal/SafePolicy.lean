import SpaceBaremetal.EventLog
import SpaceBaremetal.FaultInject

namespace SpaceBaremetal

def LOG_PREFIX_DEGRADED : String := "[DEGRADED] "
def LOG_PREFIX_SAFE : String := "[SAFE] "

def WATCHDOG_BIT_HEARTBEAT : BitVec 32 := 1#32 <<< 0
def WATCHDOG_BIT_MEMSCRUB : BitVec 32 := 1#32 <<< 1
def WATCHDOG_BIT_FAULTINJECT : BitVec 32 := 1#32 <<< 2

def WATCHDOG_EXPECTED_BITS : BitVec 32 :=
  WATCHDOG_BIT_HEARTBEAT ||| WATCHDOG_BIT_MEMSCRUB ||| WATCHDOG_BIT_FAULTINJECT

def WATCHDOG_SAFE_EXPECTED_BITS : BitVec 32 :=
  WATCHDOG_BIT_HEARTBEAT ||| WATCHDOG_BIT_MEMSCRUB

def safePolicyWatchdogExpectedBits (state : SystemState) : BitVec 32 :=
  if state = .Safe then WATCHDOG_SAFE_EXPECTED_BITS else WATCHDOG_EXPECTED_BITS

def safePolicyAllowsAutoFaultInject (state : SystemState) : Bool :=
  state == .Nominal

def safePolicyAllowsManualFaultInject (state : SystemState) : Bool :=
  state != .Safe

def safePolicyAllowsBackgroundScrub (state : SystemState) : Bool :=
  state != .Safe

def safePolicyAllowsHeartbeatUart (state : SystemState) : Bool :=
  state != .Safe

def safePolicyAllowsSeuEscalation (state : SystemState) : Bool :=
  decide (state.value < SystemState.Safe.value)

def safePolicyOnDegradedEnter (w : World) : World :=
  (faultInjectSetEnabled false w).2
    |> uartPuts (LOG_PREFIX_DEGRADED ++ "policy active: auto-inject off ")
    |> uartPuts "(background scrub and full watchdog unchanged)\r\n"

def safePolicyOnEnter (w : World) : World :=
  (w |> eventLogRecordSafePolicy true |> faultInjectSetEnabled false).2
    |> uartPuts (LOG_PREFIX_SAFE ++ "policy active: auto-inject off, background scrub off, ")
    |> uartPuts "watchdog expects Heartbeat+MemScrub only, heartbeat log suppressed\r\n"

def safePolicyOnExit (w : World) : World :=
  w |> eventLogRecordSafePolicy false
    |> uartPuts (LOG_PREFIX_SAFE ++ "policy cleared: nominal operations restored ")
    |> uartPuts "(fault inject remains off until 'x')\r\n"

end SpaceBaremetal

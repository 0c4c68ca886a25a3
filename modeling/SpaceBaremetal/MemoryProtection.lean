import SpaceBaremetal.EventLog
import SpaceBaremetal.SystemState

namespace SpaceBaremetal

def LOG_PREFIX_VIOLATION : String := "[VIOLATION] "
def LOG_PREFIX_ERROR : String := "[ERROR] "

def MEM_PROT_VIOLATION_THRESHOLD : BitVec 32 := 3

-- The end of the access is computed in 64-bit arithmetic and may wrap.
def regionOverlaps (region : MemoryRegion) (address size : BitVec 64) : Bool :=
  decide (address < region.end_) && decide (region.start < address + size)

def recordViolation (w : World) : World :=
  let count := w.memoryProtection.violationCount + 1
  let w := { w with memoryProtection := { w.memoryProtection with violationCount := count } }
  let w := if count = MEM_PROT_VIOLATION_THRESHOLD then eventLogRecordMemProtThreshold count w else w
  if count ≥ MEM_PROT_VIOLATION_THRESHOLD then
    (systemStateRequestChange .Degraded 0x04 w).2
  else
    w

def reportViolation (address size : BitVec 64) (accessType : String) (region : MemoryRegion)
    (w : World) : World :=
  w |> uartPuts (LOG_PREFIX_VIOLATION ++ "region=")
    |> uartPuts region.name
    |> uartPuts " access="
    |> uartPuts accessType
    |> uartPuts " addr=0x"
    |> uartPutHex (address.setWidth 32)
    |> uartPuts " size="
    |> uartPutDec (size.setWidth 32)
    |> uartPuts "\r\n"
    |> recordViolation

def accessTypeName (access : BitVec 32) : String :=
  if access = MEM_PERM_WRITE then "WRITE"
  else if access = MEM_PERM_EXEC then "EXEC"
  else if access = MEM_PERM_READ then "READ"
  else "ACCESS"

-- The loop over the region table from the region reached so far.
def checkRegions (address size : BitVec 64) (access : BitVec 32) :
    List MemoryRegion → World → Bool × World
  | [], w => (true, w)
  | region :: rest, w =>
      if regionOverlaps region address size = false then
        checkRegions address size access rest w
      else if region.permissions &&& access ≠ access then
        (false, reportViolation address size (accessTypeName access) region w)
      else
        checkRegions address size access rest w

def memoryProtectionCheckAccess (address size : BitVec 64) (access : BitVec 32) (w : World) :
    Bool × World :=
  if access = MEM_PERM_NONE then
    (true, w)
  else
    checkRegions address size access w.memoryProtection.protectedRegions w

def memoryProtectionInit (w : World) : World :=
  { w with
      memoryProtection :=
        { protectedRegions := []
          violationCount := 0
          regions_le := Nat.zero_le _ } }
    |> uartPuts "Memory Protection initialized\r\n"

def memoryProtectionAddRegion (region : MemoryRegion) (w : World) : World :=
  if h : w.memoryProtection.protectedRegions.length < MAX_PROTECTED_REGIONS then
    { w with
        memoryProtection :=
          { w.memoryProtection with
              protectedRegions := w.memoryProtection.protectedRegions ++ [region]
              regions_le := by simpa using Nat.succ_le_of_lt h } }
  else
    uartPuts (LOG_PREFIX_ERROR ++ "memory protection region table full\r\n") w

def memoryProtectionProtectRegion (region : MemoryRegion) (w : World) : World :=
  w |> memoryProtectionAddRegion region
    |> uartPuts "Memory Protection: locked "
    |> uartPuts region.name
    |> uartPuts "\r\n"

-- From `critical_exec.c`. The bounds are linker symbols.
def memoryProtectionRegisterCriticalText (layout : Layout) (w : World) : World :=
  if layout.criticalTextStart ≥ layout.criticalTextEnd then
    w
  else
    memoryProtectionProtectRegion
      { start := layout.criticalTextStart
        end_ := layout.criticalTextEnd
        permissions := MEM_PERM_READ ||| MEM_PERM_EXEC
        name := "CriticalText" } w

end SpaceBaremetal

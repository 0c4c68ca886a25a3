import SpaceBaremetal.MemoryProtection
import SpaceBaremetal.SafePolicy

namespace SpaceBaremetal

def SEU_THRESHOLD_FOR_DEGRADED : BitVec 32 := 5

-- The table in the source is 0, 1, ..., 255 twice over.
def goldenCopy (idx : Nat) : BitVec 8 :=
  BitVec.ofNat 8 idx

variable (layout : Layout)

def scrubAddress (idx : Nat) : BitVec 64 :=
  layout.scrubArea + BitVec.ofNat 64 idx

-- A denied read reports the violation and reads 0.
def scrubRead (idx : Nat) (w : World) : BitVec 8 × World :=
  let access := memoryProtectionCheckAccess (scrubAddress layout idx) 1 MEM_PERM_READ w
  if access.1 = false then
    (0, access.2)
  else
    (access.2.scrubArea idx, access.2)

def scrubWrite (idx : Nat) (value : BitVec 8) (w : World) : Bool × World :=
  let access := memoryProtectionCheckAccess (scrubAddress layout idx) 1 MEM_PERM_WRITE w
  if access.1 = false then
    (false, access.2)
  else
    (true, { access.2 with scrubArea := Function.update access.2.scrubArea idx value })

def memoryScrubRecordSeu (w : World) : World :=
  let w := { w with seuTotalCount := w.seuTotalCount + 1 }
  if safePolicyAllowsSeuEscalation (systemStateGet w) = false then
    w
  else
    let w := { w with seuCounter := w.seuCounter + 1 }
    if w.seuCounter ≥ SEU_THRESHOLD_FOR_DEGRADED then
      { (systemStateRequestChange .Degraded 0x02 w).2 with seuCounter := 0 }
    else
      w

def memoryScrubProtectBuffers (w : World) : World :=
  memoryProtectionProtectRegion
    { start := layout.scrubArea
      end_ := layout.scrubArea + BitVec.ofNat 64 SCRUB_SIZE
      permissions := MEM_PERM_READ ||| MEM_PERM_WRITE
      name := "ScrubArea" } w

def memoryScrubInit (w : World) : World :=
  { w with
      seuCounter := 0
      seuTotalCount := 0
      scrubArea :=
        (List.range SCRUB_SIZE).foldl (fun area i => Function.update area i (goldenCopy i))
          w.scrubArea }
    |> memoryScrubProtectBuffers layout
    |> uartPuts "Memory scrub initialized (EDAC Simulation)\r\n"

-- A NULL event is `none`.
def memoryScrubFixEvent (event : Option FaultEvent) (w : World) : Bool × World :=
  match event with
  | none => (false, w)
  | some event =>
      if event.index.toNat ≥ SCRUB_SIZE ∨ event.bit.toNat ≥ 8 then
        (false, w)
      else
        let idx := event.index.toNat
        let bitMask : BitVec 8 := 1#8 <<< event.bit.toNat
        let read := scrubRead layout idx w
        let actual := read.1
        let expected := goldenCopy idx
        if actual &&& bitMask = expected &&& bitMask then
          (false, read.2
            |> uartPuts "Memory scrub: targeted check @ byte "
            |> uartPutHex event.index
            |> uartPuts " bit "
            |> uartPutHex (event.bit.setWidth 32)
            |> uartPuts " — ok\r\n")
        else
          let corrected := (actual &&& ~~~bitMask) ||| (expected &&& bitMask)
          let write := scrubWrite layout idx corrected read.2
          if write.1 = false then
            (false, write.2
              |> uartPuts (LOG_PREFIX_VIOLATION ++ "scrub write blocked by memory protection\r\n"))
          else
            (true, write.2
              |> uartPuts "Memory scrub: SEU corrected @ byte "
              |> uartPutHex event.index
              |> uartPuts " bit "
              |> uartPutHex (event.bit.setWidth 32)
              |> uartPuts "\r\n"
              |> eventLogRecordSeuCorrected event.index event.bit
              |> memoryScrubRecordSeu)

-- One round of the loop of `memory_scrub`; the first component is
-- `errors_corrected`.
def memoryScrubRound (i : Nat) (acc : BitVec 32 × World) : BitVec 32 × World :=
  let read := scrubRead layout i acc.2
  let expected := goldenCopy i
  if read.1 ≠ expected then
    let write := scrubWrite layout i expected read.2
    if write.1 then
      (acc.1 + 1, memoryScrubRecordSeu write.2)
    else
      (acc.1, write.2)
  else
    (acc.1, read.2)

def memoryScrub (w : World) : World :=
  let done := (List.range SCRUB_SIZE).foldl (fun acc i => memoryScrubRound layout i acc) (0, w)
  if done.1 > 0 then
    uartPuts "Memory scrub: SEU(s) detected and corrected\r\n" done.2
  else
    uartPuts "Memory scrub completed - No errors\r\n" done.2

-- A receive on the fault queue that does not wait.
def faultQueueReceive (w : World) : Option (FaultEvent × World) :=
  match w.xFaultQueue with
  | none => none
  | some queue =>
      match queue.receive with
      | none => none
      | some (event, rest) => some (event, { w with xFaultQueue := some rest })

-- The draining loop of `vTaskMemoryScrub`; the first component is `had_event`.
-- Nothing is sent meanwhile, so the queue length bounds the rounds.
def memoryScrubDrain : Nat → Bool × World → Bool × World
  | 0, acc => acc
  | fuel + 1, acc =>
      match faultQueueReceive acc.2 with
      | none => acc
      | some (event, w) => memoryScrubDrain fuel (true, (memoryScrubFixEvent layout (some event) w).2)

-- One round of the loop of `vTaskMemoryScrub` up to its kick.
def memoryScrubCycle (w : World) : World :=
  let drained := memoryScrubDrain layout (FAULT_QUEUE_LENGTH + 1) (false, w)
  if drained.1 = false ∧ safePolicyAllowsBackgroundScrub (systemStateGet drained.2) then
    memoryScrub layout drained.2
  else
    drained.2

end SpaceBaremetal

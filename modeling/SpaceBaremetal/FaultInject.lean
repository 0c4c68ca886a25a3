import SpaceBaremetal.Kernel
import SpaceBaremetal.Uart

namespace SpaceBaremetal

def faultInjectIsEnabled (w : World) : Bool :=
  w.faultInjectEnabled

def faultInjectSetEnabled (enabled : Bool) (w : World) : Bool × World :=
  (enabled, { w with faultInjectEnabled := enabled })

-- The bit of the scrub area that an injection at tick `ticks` flips.
def faultIndex (ticks : BitVec 64) : BitVec 32 :=
  ticks.setWidth 32 % BitVec.ofNat 32 SCRUB_SIZE

def faultBit (ticks : BitVec 64) : BitVec 32 :=
  (ticks.setWidth 32 >>> 8) % 8

def flipBit (area : Nat → BitVec 8) (index bit : Nat) : Nat → BitVec 8 :=
  Function.update area index (area index ^^^ (1#8 <<< bit))

-- The result of the send is ignored, as in the C code.
def injectRandomFault (w : World) : World :=
  let ticks := xTaskGetTickCount w
  let idx := faultIndex ticks
  let bit := faultBit ticks
  let w := { w with scrubArea := flipBit w.scrubArea idx.toNat bit.toNat }
  let w := w |> uartPuts "Simulated fault injected @ tick "
    |> uartPutHex (ticks.setWidth 32)
    |> uartPuts " — byte "
    |> uartPutHex idx
    |> uartPuts " (bit "
    |> uartPutHex bit
    |> uartPuts ") !!!\r\n"
    |> uartPuts "Before scrub dump (first 64 bytes):\r\n"
    |> uartHexDump w.scrubArea 64
  match w.xFaultQueue with
  | none => w
  | some queue =>
      { w with xFaultQueue := some (queue.send { index := idx, bit := bit.setWidth 8 }).2 }

end SpaceBaremetal

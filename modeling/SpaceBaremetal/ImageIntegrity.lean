import SpaceBaremetal.Crc32
import SpaceBaremetal.MemoryProtection

namespace SpaceBaremetal

def LOG_PREFIX_BOOT : String := "[BOOT] "

def imageIntegrityCrcRegionEx (memory : Memory) (start slot end_ : Nat) : BitVec 32 :=
  if start = 0 ∨ slot = 0 ∨ end_ = 0 ∨ slot < start ∨ end_ < slot ∨ slot + 4 > end_ then
    0
  else
    let crc := crc32Update CRC32_INIT memory start (slot - start)
    let crc := crc32Update crc memory (slot + 4) (end_ - (slot + 4))
    crc ^^^ CRC32_INIT

-- The linker symbols `__image_integrity_start`, `__image_crc_slot` and
-- `__image_integrity_end`.
structure ImageRegion where
  start : Nat
  slot : Nat
  end_ : Nat
deriving DecidableEq, Repr

-- The word that `g_image_crc_expected` reads where the linker puts it in the
-- slot. The target is little-endian.
def readWord (memory : Memory) (address : Nat) : BitVec 32 :=
  memory (address + 3) ++ memory (address + 2) ++ memory (address + 1) ++ memory address

def imageIntegrityVerify (memory : Memory) (region : ImageRegion) (gImageCrcExpected : BitVec 32)
    (w : World) : Bool × World :=
  let computed := imageIntegrityCrcRegionEx memory region.start region.slot region.end_
  let w := { w with imageIntegrityExpected := gImageCrcExpected, imageIntegrityComputed := computed }
  if gImageCrcExpected = 0 then
    (false, { w with imageIntegrityOk := false }
      |> uartPuts (LOG_PREFIX_ERROR ++ "image CRC slot not patched (expected=0)\r\n"))
  else if computed = gImageCrcExpected then
    (true, { w with imageIntegrityOk := true }
      |> uartPuts (LOG_PREFIX_BOOT ++ "image CRC OK (0x")
      |> uartPutHex computed
      |> uartPuts ")\r\n")
  else
    (false, { w with imageIntegrityOk := false }
      |> uartPuts (LOG_PREFIX_ERROR ++ "image CRC mismatch expected=0x")
      |> uartPutHex gImageCrcExpected
      |> uartPuts " computed=0x"
      |> uartPutHex computed
      |> uartPuts "\r\n")

end SpaceBaremetal

import Mathlib.Logic.Function.Iterate

namespace SpaceBaremetal

-- Byte-addressed memory. Address 0 is the NULL pointer.
abbrev Memory := Nat → BitVec 8

def CRC32_POLY : BitVec 32 := 0xEDB88320
def CRC32_INIT : BitVec 32 := 0xFFFFFFFF

def crc32Bit (crc : BitVec 32) : BitVec 32 :=
  if crc &&& 1 ≠ 0 then (crc >>> 1) ^^^ CRC32_POLY else crc >>> 1

def crc32Byte (crc : BitVec 32) (byte : BitVec 8) : BitVec 32 :=
  crc32Bit^[8] (crc ^^^ byte.setWidth 32)

def crc32Update (crc : BitVec 32) (memory : Memory) (data length : Nat) : BitVec 32 :=
  if data = 0 then
    crc
  else
    (List.range length).foldl (fun crc index => crc32Byte crc (memory (data + index))) crc

def crc32Compute (memory : Memory) (data length : Nat) : BitVec 32 :=
  crc32Update CRC32_INIT memory data length ^^^ CRC32_INIT

end SpaceBaremetal

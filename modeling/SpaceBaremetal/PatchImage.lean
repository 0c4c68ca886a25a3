import Mathlib.Logic.Function.Iterate
import SpaceBaremetal.ImageIntegrity

-- The build script `patch_image_crc.py`, on the unbounded integers of Python.
namespace SpaceBaremetal.PatchImage

def LOAD_VADDR : Nat := 0x80000000
def CRC32_POLY : Nat := 0xEDB88320

def crc32IeeeBit (crc : Nat) : Nat :=
  if crc &&& 1 ≠ 0 then (crc >>> 1) ^^^ CRC32_POLY else crc >>> 1

def crc32IeeeByte (crc : Nat) (byte : BitVec 8) : Nat :=
  crc32IeeeBit^[8] (crc ^^^ byte.toNat)

def crc32Ieee (data : List (BitVec 8)) : Nat :=
  data.foldl crc32IeeeByte 0xFFFFFFFF ^^^ 0xFFFFFFFF

-- A slice bound: a negative one counts from the end, and each is clamped.
def sliceBound (length : Nat) (bound : Int) : Nat :=
  if bound < 0 then (length + bound).toNat else min bound.toNat length

def slice (data : List (BitVec 8)) (start stop : Int) : List (BitVec 8) :=
  (data.take (sliceBound data.length stop)).drop (sliceBound data.length start)

def packLe32 (value : Nat) : List (BitVec 8) :=
  (List.range 4).map fun i => BitVec.ofNat 8 (value >>> (8 * i))

def packInto (image : List (BitVec 8)) (offset : Int) (value : Nat) :
    Except String (List (BitVec 8)) :=
  let at_ := if offset < 0 then offset + image.length else offset
  if value ≥ 2 ^ 32 then
    .error "argument out of range"
  else if at_ < 0 ∨ at_ + 4 > image.length then
    .error "pack_into requires a buffer of at least 4 bytes at the offset"
  else
    .ok (image.take at_.toNat ++ packLe32 value ++ image.drop (at_.toNat + 4))

-- The symbol addresses and the segment size come from the ELF file. The result
-- is the digest and the bytes written back.
def patchKernel (slotAddr endAddr segmentSize : Nat) (image : List (BitVec 8)) :
    Except String (Nat × List (BitVec 8)) :=
  let slotOffset : Int := slotAddr - LOAD_VADDR
  let regionEndOffset : Int := endAddr - LOAD_VADDR
  if slotOffset + 4 > regionEndOffset then
    .error "CRC slot is outside integrity region"
  else if regionEndOffset > image.length then
    .error "integrity region end outside binary image"
  else if segmentSize > image.length then
    .error "RX segment size exceeds binary length"
  else
    let payload := slice image 0 regionEndOffset
    let crcInput := slice payload 0 slotOffset ++ slice payload (slotOffset + 4) regionEndOffset
    let digest := crc32Ieee crcInput
    (packInto image slotOffset digest).map fun patched => (digest, patched)

end SpaceBaremetal.PatchImage

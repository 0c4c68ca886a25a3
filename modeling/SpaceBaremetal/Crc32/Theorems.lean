import SpaceBaremetal.Crc32
import SpaceBaremetal.Lib.ReflectedCrc

namespace SpaceBaremetal

-- The bits of a byte in the order in which the CRC takes them.
def byteBits (byte : BitVec 8) : List Bool := (List.range 8).map byte.getLsbD

def messageBits (bytes : List (BitVec 8)) : List Bool := bytes.flatMap byteBits

def readBytes (memory : Memory) (address length : Nat) : List (BitVec 8) :=
  (List.range length).map fun index => memory (address + index)

-- The register after a message, in the terms of the general theory.
def crc32Feed (crc : BitVec 32) (bytes : List (BitVec 8)) : BitVec 32 :=
  ReflectedCrc.feed CRC32_POLY crc (messageBits bytes)

theorem CRC32_POLY_msb : CRC32_POLY.msb = true := by decide

@[simp]
theorem byteBits_length (byte : BitVec 8) : (byteBits byte).length = 8 := by
  simp [byteBits]

theorem byteBits_getElem? (byte : BitVec 8) (k : Nat) (hk : k < 8) :
    (byteBits byte)[k]? = some (byte.getLsbD k) := by
  unfold byteBits
  rw [List.getElem?_map, List.getElem?_range hk]
  rfl

@[simp]
theorem messageBits_cons (byte : BitVec 8) (bytes : List (BitVec 8)) :
    messageBits (byte :: bytes) = byteBits byte ++ messageBits bytes := rfl

@[simp]
theorem messageBits_append (xs ys : List (BitVec 8)) :
    messageBits (xs ++ ys) = messageBits xs ++ messageBits ys := List.flatMap_append

theorem messageBits_length (bytes : List (BitVec 8)) :
    (messageBits bytes).length = 8 * bytes.length := by
  induction bytes with
  | nil => rfl
  | cons byte bytes ih =>
    rw [messageBits_cons, List.length_append, byteBits_length, ih, List.length_cons]
    omega

@[simp]
theorem readBytes_length (memory : Memory) (address length : Nat) :
    (readBytes memory address length).length = length := by
  simp [readBytes]

theorem crc32Bit_eq_shift (crc : BitVec 32) :
    crc32Bit crc = ReflectedCrc.shift CRC32_POLY crc := by
  have hlow : crc &&& 1 ≠ 0 ↔ crc.getLsbD 0 = true := by
    have hand : crc &&& 1#32 = (BitVec.ofBool (crc.getLsbD 0)).setWidth 32 :=
      BitVec.and_one_eq_setWidth_ofBool_getLsbD
    change ¬ (crc &&& 1#32 = 0#32) ↔ _
    rw [hand]
    cases crc.getLsbD 0 with
    | false => simp
    | true => simp
  unfold crc32Bit ReflectedCrc.shift
  by_cases h : crc.getLsbD 0 = true
  · rw [if_pos (hlow.mpr h), if_pos h]
  · rw [if_neg (fun hand => h (hlow.mp hand)), if_neg h]

theorem pack_byteBits (byte : BitVec 8) :
    ReflectedCrc.pack (w := 32) (byteBits byte) = byte.setWidth 32 := by
  apply BitVec.eq_of_getLsbD_eq
  intro k hk
  rw [ReflectedCrc.getLsbD_pack _ k hk, BitVec.getLsbD_setWidth, List.getD_eq_getElem?_getD]
  by_cases hbyte : k < 8
  · rw [byteBits_getElem? byte k hbyte]
    simp [hk]
  · rw [BitVec.getLsbD_of_ge byte k (by omega), List.getElem?_eq_none (by simp; omega)]
    simp

-- The source adds a byte to the register at once; this is the same as feeding
-- its bits, lowest first.
theorem crc32Byte_eq_feed (crc : BitVec 32) (byte : BitVec 8) :
    crc32Byte crc byte = ReflectedCrc.feed CRC32_POLY crc (byteBits byte) := by
  have hshift : crc32Bit = ReflectedCrc.shift CRC32_POLY := funext crc32Bit_eq_shift
  rw [ReflectedCrc.feed_eq_iterate_shift _ _ _ (by simp), pack_byteBits, byteBits_length]
  unfold crc32Byte
  rw [hshift]

@[simp]
theorem crc32Feed_nil (crc : BitVec 32) : crc32Feed crc [] = crc := rfl

theorem crc32Feed_cons (crc : BitVec 32) (byte : BitVec 8) (bytes : List (BitVec 8)) :
    crc32Feed crc (byte :: bytes) = crc32Feed (crc32Byte crc byte) bytes := by
  unfold crc32Feed
  rw [messageBits_cons, ReflectedCrc.feed_append, crc32Byte_eq_feed]

theorem crc32Feed_append (crc : BitVec 32) (xs ys : List (BitVec 8)) :
    crc32Feed crc (xs ++ ys) = crc32Feed (crc32Feed crc xs) ys := by
  unfold crc32Feed
  rw [messageBits_append, ReflectedCrc.feed_append]

theorem foldl_crc32Byte (crc : BitVec 32) (bytes : List (BitVec 8)) :
    bytes.foldl crc32Byte crc = crc32Feed crc bytes := by
  induction bytes generalizing crc with
  | nil => rfl
  | cons byte bytes ih => rw [List.foldl_cons, ih, crc32Feed_cons]

theorem crc32Update_eq_feed (crc : BitVec 32) (memory : Memory) (data length : Nat)
    (hdata : data ≠ 0) :
    crc32Update crc memory data length = crc32Feed crc (readBytes memory data length) := by
  unfold crc32Update readBytes
  rw [if_neg hdata, ← foldl_crc32Byte, List.foldl_map]

-- Splitting a buffer does not change its CRC.
theorem crc32Update_add (crc : BitVec 32) (memory : Memory) (data n m : Nat) (hdata : data ≠ 0) :
    crc32Update (crc32Update crc memory data n) memory (data + n) m
      = crc32Update crc memory data (n + m) := by
  rw [crc32Update_eq_feed _ _ _ _ hdata, crc32Update_eq_feed _ _ _ _ hdata,
    crc32Update_eq_feed _ _ _ _ (by omega), ← crc32Feed_append]
  congr 1
  unfold readBytes
  rw [List.range_add, List.map_append, List.map_map]
  simp only [Function.comp_def, Nat.add_assoc]

-- The check value of this CRC.
example : crc32Compute (fun a => BitVec.ofNat 8 (a + 0x30)) 1 9 = 0xCBF43926 := by
  decide +kernel

end SpaceBaremetal

import SpaceBaremetal.Crc32.Theorems
import SpaceBaremetal.ImageIntegrity

namespace SpaceBaremetal

namespace ImageRegion

-- The geometry that the CRC computation insists on.
structure Valid (region : ImageRegion) : Prop where
  start_ne : region.start ≠ 0
  start_le : region.start ≤ region.slot
  slot_le : region.slot + 4 ≤ region.end_

-- The bytes that the CRC covers: those before the slot and those after it.
def hashedBytes (region : ImageRegion) (memory : Memory) : List (BitVec 8) :=
  readBytes memory region.start (region.slot - region.start) ++
    readBytes memory (region.slot + 4) (region.end_ - (region.slot + 4))

def hashedBits (region : ImageRegion) (memory : Memory) : List Bool :=
  messageBits (region.hashedBytes memory)

theorem hashedBytes_length (region : ImageRegion) (memory : Memory) :
    (region.hashedBytes memory).length
      = (region.slot - region.start) + (region.end_ - (region.slot + 4)) := by
  simp [hashedBytes]

end ImageRegion

-- Some of the four slot bytes differ and nothing that the CRC covers does.
def SlotModified (region : ImageRegion) (memory memory' : Memory) : Prop :=
  (∃ i < 4, memory' (region.slot + i) ≠ memory (region.slot + i)) ∧
    region.hashedBytes memory' = region.hashedBytes memory

-- Some of the hashed bits differ, all of them within 32 consecutive ones, and
-- the slot bytes do not.
def BurstModified (region : ImageRegion) (memory memory' : Memory) : Prop :=
  (∀ i < 4, memory' (region.slot + i) = memory (region.slot + i)) ∧
    region.hashedBits memory' ≠ region.hashedBits memory ∧
    ∃ position, ∀ k, k < position ∨ position + 32 ≤ k →
      (region.hashedBits memory')[k]? = (region.hashedBits memory)[k]?

section ReadWord

theorem readWord_getLsbD (memory : Memory) (address i k : Nat) (hi : i < 4) (hk : k < 8) :
    (readWord memory address).getLsbD (8 * i + k) = (memory (address + i)).getLsbD k := by
  unfold readWord
  simp only [BitVec.getLsbD_append]
  have hcases : i = 0 ∨ i = 1 ∨ i = 2 ∨ i = 3 := by omega
  obtain rfl | rfl | rfl | rfl := hcases
  · rw [if_pos (by omega)]
    congr 1
    omega
  · rw [if_neg (by omega), if_pos (by omega)]
    congr 1
    omega
  · rw [if_neg (by omega), if_neg (by omega), if_pos (by omega)]
    congr 1
    omega
  · rw [if_neg (by omega), if_neg (by omega), if_neg (by omega)]
    congr 1
    omega

-- The word determines its bytes.
theorem byte_eq_of_readWord_eq (memory memory' : Memory) (address : Nat)
    (h : readWord memory address = readWord memory' address) (i : Nat) (hi : i < 4) :
    memory (address + i) = memory' (address + i) := by
  apply BitVec.eq_of_getLsbD_eq
  intro k hk
  rw [← readWord_getLsbD memory address i k hi hk, h, readWord_getLsbD memory' address i k hi hk]

theorem readWord_congr (memory memory' : Memory) (address : Nat)
    (h : ∀ i < 4, memory (address + i) = memory' (address + i)) :
    readWord memory address = readWord memory' address := by
  have h0 := h 0 (by omega)
  rw [Nat.add_zero] at h0
  unfold readWord
  rw [h0, h 1 (by omega), h 2 (by omega), h 3 (by omega)]

end ReadWord

-- The two incremental calls around the slot are one pass over the hashed bytes.
theorem imageIntegrityCrcRegionEx_eq (memory : Memory) (region : ImageRegion)
    (hvalid : region.Valid) :
    imageIntegrityCrcRegionEx memory region.start region.slot region.end_
      = crc32Feed CRC32_INIT (region.hashedBytes memory) ^^^ CRC32_INIT := by
  obtain ⟨hne, hstart, hslot⟩ := hvalid
  unfold imageIntegrityCrcRegionEx ImageRegion.hashedBytes
  rw [if_neg (by omega), crc32Feed_append]
  simp only
  rw [crc32Update_eq_feed _ _ _ _ hne, crc32Update_eq_feed _ _ _ _ (by omega)]

theorem imageIntegrityCrcRegionEx_invalid (memory : Memory) (region : ImageRegion)
    (hinvalid : ¬ region.Valid) :
    imageIntegrityCrcRegionEx memory region.start region.slot region.end_ = 0 := by
  unfold imageIntegrityCrcRegionEx
  rw [if_pos]
  by_contra h
  exact hinvalid ⟨by omega, by omega, by omega⟩

theorem imageIntegrityVerify_fst (memory : Memory) (region : ImageRegion) (expected : BitVec 32)
    (w : World) :
    (imageIntegrityVerify memory region expected w).1 = true ↔
      expected ≠ 0 ∧
        imageIntegrityCrcRegionEx memory region.start region.slot region.end_ = expected := by
  unfold imageIntegrityVerify
  dsimp only
  split_ifs with hzero hmatch
  · exact ⟨fun h => h.elim, fun h => absurd hzero h.1⟩
  · exact ⟨fun _ => ⟨hzero, hmatch⟩, fun _ => rfl⟩
  · exact ⟨fun h => h.elim, fun h => absurd h.2 hmatch⟩

-- The result is also what `image_integrity_boot_ok` tells the state machine.
theorem imageIntegrityVerify_imageIntegrityOk (memory : Memory) (region : ImageRegion)
    (expected : BitVec 32) (w : World) :
    (imageIntegrityVerify memory region expected w).2.imageIntegrityOk
      = (imageIntegrityVerify memory region expected w).1 := by
  unfold imageIntegrityVerify
  simp only [uartPuts_eq, uartPutHex_eq]
  split_ifs
  · rfl
  · rfl
  · rfl

-- A region is accepted exactly when it is laid out properly, it was patched,
-- and the register ends at the complement of the stored word.
theorem imageIntegrityVerify_iff (memory : Memory) (region : ImageRegion) (expected : BitVec 32)
    (w : World) :
    (imageIntegrityVerify memory region expected w).1 = true ↔
      expected ≠ 0 ∧ region.Valid ∧
        crc32Feed CRC32_INIT (region.hashedBytes memory) = expected ^^^ CRC32_INIT := by
  rw [imageIntegrityVerify_fst]
  constructor
  · rintro ⟨hne, hcrc⟩
    have hvalid : region.Valid := by
      by_contra hinvalid
      rw [imageIntegrityCrcRegionEx_invalid memory region hinvalid] at hcrc
      exact hne hcrc.symm
    refine ⟨hne, hvalid, ?_⟩
    rw [imageIntegrityCrcRegionEx_eq memory region hvalid] at hcrc
    rw [← hcrc, BitVec.xor_assoc, BitVec.xor_self, BitVec.xor_zero]
  · rintro ⟨hne, hvalid, hfeed⟩
    refine ⟨hne, ?_⟩
    rw [imageIntegrityCrcRegionEx_eq memory region hvalid, hfeed, BitVec.xor_assoc,
      BitVec.xor_self, BitVec.xor_zero]

-- A burst leaves another register behind, whatever follows it in the region.
theorem crc32Feed_ne_of_burst (region : ImageRegion) (memory memory' : Memory)
    (hburst : BurstModified region memory memory') :
    crc32Feed CRC32_INIT (region.hashedBytes memory')
      ≠ crc32Feed CRC32_INIT (region.hashedBytes memory) := by
  obtain ⟨-, hne, position, hsame⟩ := hburst
  intro h
  apply hne
  apply ReflectedCrc.feed_burst CRC32_POLY_msb CRC32_INIT _ _ _ position hsame h
  unfold ImageRegion.hashedBits
  rw [messageBits_length, messageBits_length, ImageRegion.hashedBytes_length,
    ImageRegion.hashedBytes_length]

theorem boot_check_catches_bursts (region : ImageRegion) (memory memory' : Memory) (w w' : World)
    (haccepted : (imageIntegrityVerify memory region (readWord memory region.slot) w).1 = true)
    (hmodified : SlotModified region memory memory' ∨ BurstModified region memory memory') :
    (imageIntegrityVerify memory' region (readWord memory' region.slot) w').1 = false := by
  obtain ⟨-, -, hfeed⟩ := (imageIntegrityVerify_iff _ _ _ _).mp haccepted
  rw [← Bool.not_eq_true]
  intro haccepted'
  obtain ⟨-, -, hfeed'⟩ := (imageIntegrityVerify_iff _ _ _ _).mp haccepted'
  cases hmodified with
  | inl hslot =>
    obtain ⟨⟨i, hi, hbyte⟩, hhashed⟩ := hslot
    rw [hhashed, hfeed] at hfeed'
    have hword := (BitVec.xor_left_inj CRC32_INIT).mp hfeed'
    exact hbyte (byte_eq_of_readWord_eq memory memory' region.slot hword i hi).symm
  | inr hburst =>
    apply crc32Feed_ne_of_burst region memory memory' hburst
    rw [hfeed, hfeed', readWord_congr memory' memory region.slot hburst.1]

-- The byte 'a' and its CRC.
def oneByteImage (byte : BitVec 8) : Memory := fun address =>
  [byte, 0x43, 0xbe, 0xb7, 0xe8].getD (address - 0x80000000) 0

theorem boot_check_catches_bursts_one_byte :
    (imageIntegrityVerify (oneByteImage 0x65) ⟨0x80000000, 0x80000001, 0x80000005⟩
      (readWord (oneByteImage 0x65) 0x80000001) startupWorld).1 = false := by
  apply boot_check_catches_bursts ⟨0x80000000, 0x80000001, 0x80000005⟩ (oneByteImage 0x61)
    (oneByteImage 0x65) startupWorld startupWorld
  · decide +kernel
  · refine .inr ⟨by decide, by decide, 0, ?_⟩
    intro k hk
    rw [List.getElem?_eq_none (by simp [ImageRegion.hashedBits, messageBits_length,
        ImageRegion.hashedBytes_length]; omega),
      List.getElem?_eq_none (by simp [ImageRegion.hashedBits, messageBits_length,
        ImageRegion.hashedBytes_length]; omega)]

end SpaceBaremetal

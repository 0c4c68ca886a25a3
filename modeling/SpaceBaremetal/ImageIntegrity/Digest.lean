import SpaceBaremetal.Crc32.Polynomial
import SpaceBaremetal.ImageIntegrity.Theorems

namespace SpaceBaremetal

-- Two images of one layout, perhaps at different addresses, whose bytes are the
-- same but for the four of the slot.
structure SameButSlot (region : ImageRegion) (memory : Memory) (region' : ImageRegion)
    (memory' : Memory) : Prop where
  before : region'.slot - region'.start = region.slot - region.start
  after : region'.end_ - region'.slot = region.end_ - region.slot
  head : ∀ i < region.slot - region.start,
    memory' (region'.start + i) = memory (region.start + i)
  tail : ∀ i, 4 ≤ i → i < region.end_ - region.slot →
    memory' (region'.slot + i) = memory (region.slot + i)

theorem readBytes_congr (memory memory' : Memory) (address address' length : Nat)
    (h : ∀ i < length, memory' (address' + i) = memory (address + i)) :
    readBytes memory' address' length = readBytes memory address length := by
  unfold readBytes
  apply List.map_congr_left
  intro i hi
  exact h i (List.mem_range.mp hi)

-- What is hashed does not depend on the slot.
theorem hashedBytes_eq_of_sameButSlot {region region' : ImageRegion} {memory memory' : Memory}
    (h : SameButSlot region memory region' memory') :
    region'.hashedBytes memory' = region.hashedBytes memory := by
  obtain ⟨hbefore, hafter, hhead, htail⟩ := h
  have hlength : region'.end_ - (region'.slot + 4) = region.end_ - (region.slot + 4) := by
    omega
  unfold ImageRegion.hashedBytes
  rw [hbefore, hlength, readBytes_congr memory memory' region.start region'.start _ hhead,
    readBytes_congr memory memory' (region.slot + 4) (region'.slot + 4)]
  intro i hi
  rw [Nat.add_assoc, Nat.add_assoc]
  exact htail (4 + i) (by omega) (by omega)

-- The digest is the CRC of the image without its slot; where there is no such
-- image the value 0 that stands for it is never accepted.
theorem digest_skips_slot (region : ImageRegion) (memory : Memory) :
    (region.Valid →
      (∀ memory' data, StoredAt memory' data (region.hashedBytes memory) →
        imageIntegrityCrcRegionEx memory region.start region.slot region.end_ =
          crc32Compute memory' data (region.hashedBytes memory).length) ∧
      ∀ region' memory', region'.Valid → SameButSlot region memory region' memory' →
        imageIntegrityCrcRegionEx memory' region'.start region'.slot region'.end_ =
          imageIntegrityCrcRegionEx memory region.start region.slot region.end_) ∧
    (region.start = 0 ∨ region.slot = 0 ∨ region.end_ = 0 ∨ region.slot < region.start ∨
        region.end_ < region.slot ∨ region.end_ < region.slot + 4 →
      ∀ gImageCrcExpected w,
        (imageIntegrityVerify memory region gImageCrcExpected w).1 = false) := by
  refine ⟨?_, ?_⟩
  · intro hvalid
    refine ⟨?_, ?_⟩
    · intro memory' data hstored
      rw [imageIntegrityCrcRegionEx_eq memory region hvalid, crc32Compute_eq_feed hstored]
    · intro region' memory' hvalid' hsame
      rw [imageIntegrityCrcRegionEx_eq memory' region' hvalid',
        imageIntegrityCrcRegionEx_eq memory region hvalid, hashedBytes_eq_of_sameButSlot hsame]
  · intro hgeometry expected w
    rw [← Bool.not_eq_true, imageIntegrityVerify_iff]
    intro haccepted
    obtain ⟨-, ⟨hstart, hslot, hend⟩, -⟩ := haccepted
    omega

-- The digest of a one-byte image, and the CRC of the byte.
theorem digest_skips_slot_one_byte :
    imageIntegrityCrcRegionEx (oneByteImage 0x61) 0x80000000 0x80000001 0x80000005 =
      crc32Compute (fun _ => 0x61) 1 1 :=
  ((digest_skips_slot ⟨0x80000000, 0x80000001, 0x80000005⟩ (oneByteImage 0x61)).1
    ⟨by decide, by decide, by decide⟩).1 (fun _ => 0x61) 1 ⟨by decide, by decide⟩

end SpaceBaremetal

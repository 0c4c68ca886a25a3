import SpaceBaremetal.ImageIntegrity.Theorems
import SpaceBaremetal.PatchImage

namespace SpaceBaremetal.PatchImage

-- The checks of `patch_kernel`, with the slot behind the load address.
structure Checks (slotAddr endAddr segmentSize : Nat) (image : List (BitVec 8)) : Prop where
  load_le : LOAD_VADDR ≤ slotAddr
  slot_le : slotAddr + 4 ≤ endAddr
  end_le : endAddr - LOAD_VADDR ≤ image.length
  segment_le : segmentSize ≤ image.length

-- The bytes before the slot and those from there to the end of the region.
def crcInput (slotOffset regionEnd : Nat) (image : List (BitVec 8)) : List (BitVec 8) :=
  image.take slotOffset ++ (image.take regionEnd).drop (slotOffset + 4)

-- The image with `value` in its slot.
def patched (slotOffset value : Nat) (image : List (BitVec 8)) : List (BitVec 8) :=
  image.take slotOffset ++ packLe32 value ++ image.drop (slotOffset + 4)

def Loaded (memory : Memory) (image : List (BitVec 8)) : Prop :=
  ∀ i (hi : i < image.length), memory (LOAD_VADDR + i) = image[i]

-- What the build relies on: the patch changes the slot only, can be repeated,
-- and makes the firmware accept the image wherever it is loaded.
def PatchThenVerify (slotAddr endAddr segmentSize : Nat) (image : List (BitVec 8)) : Prop :=
  ∃ digest image', patchKernel slotAddr endAddr segmentSize image = .ok (digest, image') ∧
    image'.length = image.length ∧
    (∀ k, k < slotAddr - LOAD_VADDR ∨ slotAddr - LOAD_VADDR + 4 ≤ k → image'[k]? = image[k]?) ∧
    patchKernel slotAddr endAddr segmentSize image' = .ok (digest, image') ∧
    ∀ memory w, Loaded memory image' →
      (imageIntegrityVerify memory ⟨LOAD_VADDR, slotAddr, endAddr⟩ (readWord memory slotAddr) w).1 =
        true

theorem load_vaddr_ne_zero : LOAD_VADDR ≠ 0 := by decide

section Digest

theorem crc32IeeeBit_toNat (crc : BitVec 32) :
    crc32IeeeBit crc.toNat = (crc32Bit crc).toNat := by
  have hlow : crc.toNat &&& 1 ≠ 0 ↔ crc &&& 1 ≠ 0 := by
    rw [Ne, Ne, BitVec.toNat_eq]
    rfl
  unfold crc32IeeeBit crc32Bit
  by_cases h : crc &&& 1 ≠ 0
  · rw [if_pos (hlow.mpr h), if_pos h, BitVec.toNat_xor, BitVec.toNat_ushiftRight]
    rfl
  · rw [if_neg (fun hand => h (hlow.mp hand)), if_neg h, BitVec.toNat_ushiftRight]

theorem iterate_crc32IeeeBit_toNat (n : Nat) (crc : BitVec 32) :
    crc32IeeeBit^[n] crc.toNat = (crc32Bit^[n] crc).toNat := by
  induction n generalizing crc with
  | zero => rfl
  | succ n ih => rw [Function.iterate_succ_apply, Function.iterate_succ_apply, crc32IeeeBit_toNat, ih]

theorem crc32IeeeByte_toNat (crc : BitVec 32) (byte : BitVec 8) :
    crc32IeeeByte crc.toNat byte = (crc32Byte crc byte).toNat := by
  have hbyte : byte.toNat = (byte.setWidth 32).toNat := by
    rw [BitVec.toNat_setWidth, Nat.mod_eq_of_lt (by have := byte.isLt; omega)]
  unfold crc32IeeeByte crc32Byte
  rw [hbyte, ← BitVec.toNat_xor, iterate_crc32IeeeBit_toNat]

theorem foldl_crc32IeeeByte_toNat (crc : BitVec 32) (data : List (BitVec 8)) :
    data.foldl crc32IeeeByte crc.toNat = (crc32Feed crc data).toNat := by
  induction data generalizing crc with
  | nil => rfl
  | cons byte data ih => rw [List.foldl_cons, crc32IeeeByte_toNat, ih, crc32Feed_cons]

-- The script and the firmware compute the same CRC: the integers of the script
-- never leave 32 bits.
theorem crc32Ieee_eq (data : List (BitVec 8)) :
    crc32Ieee data = (crc32Feed CRC32_INIT data ^^^ CRC32_INIT).toNat := by
  have hinit : (0xFFFFFFFF : Nat) = CRC32_INIT.toNat := rfl
  unfold crc32Ieee
  rw [hinit, foldl_crc32IeeeByte_toNat, BitVec.toNat_xor]

theorem crc32Ieee_lt (data : List (BitVec 8)) : crc32Ieee data < 2 ^ 32 := by
  rw [crc32Ieee_eq]
  exact BitVec.isLt _

end Digest

section Patched

variable {slotOffset : Nat} {image : List (BitVec 8)}

@[simp]
theorem packLe32_length (value : Nat) : (packLe32 value).length = 4 := by
  simp [packLe32]

theorem packLe32_getElem? (value i : Nat) (hi : i < 4) :
    (packLe32 value)[i]? = some (BitVec.ofNat 8 (value >>> (8 * i))) := by
  unfold packLe32
  rw [List.getElem?_map, List.getElem?_range hi]
  rfl

theorem patched_length (value : Nat) (hslot : slotOffset + 4 ≤ image.length) :
    (patched slotOffset value image).length = image.length := by
  simp [patched]
  omega

theorem patched_take (value : Nat) (hslot : slotOffset + 4 ≤ image.length) :
    (patched slotOffset value image).take slotOffset = image.take slotOffset := by
  have hlen : (image.take slotOffset).length = slotOffset := by simp; omega
  unfold patched
  rw [List.append_assoc, List.take_left' hlen]

theorem patched_drop (value : Nat) (hslot : slotOffset + 4 ≤ image.length) :
    (patched slotOffset value image).drop (slotOffset + 4) = image.drop (slotOffset + 4) := by
  have hlen : (image.take slotOffset ++ packLe32 value).length = slotOffset + 4 := by simp; omega
  unfold patched
  rw [List.drop_left' hlen]

theorem patched_getElem?_slot (value i : Nat) (hi : i < 4) (hslot : slotOffset + 4 ≤ image.length) :
    (patched slotOffset value image)[slotOffset + i]? =
      some (BitVec.ofNat 8 (value >>> (8 * i))) := by
  have hlen : (image.take slotOffset).length = slotOffset := by simp; omega
  unfold patched
  rw [List.append_assoc, List.getElem?_append_right (by omega), hlen, Nat.add_sub_cancel_left,
    List.getElem?_append_left (by simp; omega), packLe32_getElem? value i hi]

theorem patched_getElem?_frame (value k : Nat) (hslot : slotOffset + 4 ≤ image.length)
    (hk : k < slotOffset ∨ slotOffset + 4 ≤ k) :
    (patched slotOffset value image)[k]? = image[k]? := by
  cases hk with
  | inl hbefore =>
    rw [← List.getElem?_take_of_lt hbefore, patched_take value hslot,
      List.getElem?_take_of_lt hbefore]
  | inr hafter =>
    have hdrop := congrArg (fun rest => rest[k - (slotOffset + 4)]?) (patched_drop value hslot)
    simp only [List.getElem?_drop] at hdrop
    rwa [Nat.add_sub_cancel' hafter] at hdrop

-- The digest does not depend on what is in the slot.
theorem crcInput_patched (value regionEnd : Nat) (hslot : slotOffset + 4 ≤ image.length) :
    crcInput slotOffset regionEnd (patched slotOffset value image) =
      crcInput slotOffset regionEnd image := by
  unfold crcInput
  rw [patched_take value hslot, List.drop_take, List.drop_take, patched_drop value hslot]

theorem patched_patched (value : Nat) (hslot : slotOffset + 4 ≤ image.length) :
    patched slotOffset value (patched slotOffset value image) = patched slotOffset value image := by
  change (patched slotOffset value image).take slotOffset ++ packLe32 value ++
    (patched slotOffset value image).drop (slotOffset + 4) = _
  rw [patched_take value hslot, patched_drop value hslot]
  rfl

end Patched

section Script

theorem sliceBound_ofNat (length bound : Nat) : sliceBound length bound = min bound length := by
  unfold sliceBound
  rw [if_neg (by omega), Int.toNat_natCast]

theorem slice_zero (data : List (BitVec 8)) (stop : Nat) : slice data 0 stop = data.take stop := by
  have hzero : sliceBound data.length 0 = 0 := by simp [sliceBound]
  unfold slice
  rw [sliceBound_ofNat, hzero, List.drop_zero, ← List.take_eq_take_min]

theorem slice_ofNat (data : List (BitVec 8)) (start stop : Nat) (hstart : start ≤ data.length) :
    slice data start stop = (data.take stop).drop start := by
  unfold slice
  rw [sliceBound_ofNat, sliceBound_ofNat, Nat.min_eq_left hstart, ← List.take_eq_take_min]

theorem packInto_ofNat (image : List (BitVec 8)) (offset value : Nat)
    (hoffset : offset + 4 ≤ image.length) (hvalue : value < 2 ^ 32) :
    packInto image offset value = .ok (patched offset value image) := by
  unfold packInto patched
  have hnonneg : ¬ (offset : Int) < 0 := by omega
  simp only [if_neg hnonneg, if_neg (Nat.not_le.mpr hvalue)]
  rw [if_neg (by omega), Int.toNat_natCast]

variable {slotAddr endAddr segmentSize : Nat} {image : List (BitVec 8)}

theorem patchKernel_eq (hchecks : Checks slotAddr endAddr segmentSize image) :
    patchKernel slotAddr endAddr segmentSize image =
      .ok (crc32Ieee (crcInput (slotAddr - LOAD_VADDR) (endAddr - LOAD_VADDR) image),
        patched (slotAddr - LOAD_VADDR)
          (crc32Ieee (crcInput (slotAddr - LOAD_VADDR) (endAddr - LOAD_VADDR) image)) image) := by
  obtain ⟨hload, hslot, hend, hsegment⟩ := hchecks
  have hslotOffset : (slotAddr : Int) - LOAD_VADDR = ((slotAddr - LOAD_VADDR : Nat) : Int) := by omega
  have hendOffset : (endAddr : Int) - LOAD_VADDR = ((endAddr - LOAD_VADDR : Nat) : Int) := by omega
  have hfits : slotAddr - LOAD_VADDR + 4 ≤ endAddr - LOAD_VADDR := by omega
  unfold patchKernel
  rw [hslotOffset, hendOffset]
  generalize slotAddr - LOAD_VADDR = slotOffset at *
  generalize endAddr - LOAD_VADDR = regionEnd at *
  have hlen : (image.take regionEnd).length = regionEnd := by simp; omega
  have hnext : (slotOffset : Int) + 4 = ((slotOffset + 4 : Nat) : Int) := by omega
  dsimp only
  rw [if_neg (by omega), if_neg (by omega), if_neg (by omega), slice_zero, slice_zero, hnext,
    slice_ofNat _ _ _ (by omega), List.take_take, List.take_take, Nat.min_self,
    Nat.min_eq_left (by omega)]
  change (packInto image slotOffset (crc32Ieee (crcInput slotOffset regionEnd image))).map _ = _
  rw [packInto_ofNat _ _ _ (by omega) (crc32Ieee_lt _)]
  rfl

end Script

section Verify

variable {slotAddr endAddr segmentSize : Nat} {image : List (BitVec 8)} {memory : Memory}

theorem loaded_getElem? (hloaded : Loaded memory image) (k : Nat) (hk : k < image.length) :
    image[k]? = some (memory (LOAD_VADDR + k)) := by
  rw [List.getElem?_eq_getElem hk, hloaded k hk]

-- The firmware hashes the bytes of the image that the script hashes.
theorem hashedBytes_of_loaded (hchecks : Checks slotAddr endAddr segmentSize image)
    (hloaded : Loaded memory image) :
    ImageRegion.hashedBytes ⟨LOAD_VADDR, slotAddr, endAddr⟩ memory =
      crcInput (slotAddr - LOAD_VADDR) (endAddr - LOAD_VADDR) image := by
  obtain ⟨hload, hslot, hend, -⟩ := hchecks
  unfold ImageRegion.hashedBytes crcInput
  refine congrArg₂ (· ++ ·) ?_ ?_
  · apply List.ext_getElem?
    intro k
    by_cases hk : k < slotAddr - LOAD_VADDR
    · rw [List.getElem?_take_of_lt hk, loaded_getElem? hloaded k (by omega)]
      simp [readBytes, hk]
    · rw [List.getElem?_take_eq_none (by omega), List.getElem?_eq_none (by simp; omega)]
  · apply List.ext_getElem?
    intro k
    rw [List.getElem?_drop]
    by_cases hk : slotAddr - LOAD_VADDR + 4 + k < endAddr - LOAD_VADDR
    · have haddr : LOAD_VADDR + (slotAddr - LOAD_VADDR + 4 + k) = slotAddr + 4 + k := by omega
      have hrange : k < endAddr - (slotAddr + 4) := by omega
      rw [List.getElem?_take_of_lt hk, loaded_getElem? hloaded _ (by omega), haddr]
      simp [readBytes, hrange]
    · rw [List.getElem?_take_eq_none (by omega), List.getElem?_eq_none (by simp; omega)]

-- The firmware reads back the word that the script packed.
theorem readWord_of_loaded (value : Nat)
    (hload : LOAD_VADDR ≤ slotAddr) (hslot : slotAddr - LOAD_VADDR + 4 ≤ image.length)
    (hloaded : Loaded memory (patched (slotAddr - LOAD_VADDR) value image)) :
    readWord memory slotAddr = BitVec.ofNat 32 value := by
  have hbyte : ∀ i < 4, memory (slotAddr + i) = BitVec.ofNat 8 (value >>> (8 * i)) := by
    intro i hi
    have hget := patched_getElem?_slot value i hi hslot
    rw [loaded_getElem? hloaded _ (by rw [patched_length value hslot]; omega)] at hget
    have haddr : LOAD_VADDR + (slotAddr - LOAD_VADDR + i) = slotAddr + i := by omega
    rw [haddr] at hget
    exact Option.some.inj hget
  apply BitVec.eq_of_getLsbD_eq
  intro k hk
  have hsplit : k = 8 * (k / 8) + k % 8 := (Nat.div_add_mod k 8).symm
  have hi : k / 8 < 4 := by omega
  have hbit : k % 8 < 8 := Nat.mod_lt _ (by omega)
  rw [hsplit, readWord_getLsbD _ _ _ _ hi hbit, hbyte _ hi, BitVec.getLsbD_ofNat,
    BitVec.getLsbD_ofNat, Nat.testBit_shiftRight]
  have hlt : 8 * (k / 8) + k % 8 < 32 := by omega
  simp [hbit, hlt]

theorem checks_patched (value : Nat) (hchecks : Checks slotAddr endAddr segmentSize image) :
    Checks slotAddr endAddr segmentSize (patched (slotAddr - LOAD_VADDR) value image) := by
  obtain ⟨hload, hslot, hend, hsegment⟩ := hchecks
  have hfits : slotAddr - LOAD_VADDR + 4 ≤ image.length := by omega
  have hlen := patched_length value hfits
  exact ⟨hload, hslot, by omega, by omega⟩

-- Of the patched image the firmware asks one thing more than the script
-- establishes, that the digest is not 0.
theorem verify_patched_iff (hchecks : Checks slotAddr endAddr segmentSize image) (w : World)
    (hloaded : Loaded memory (patched (slotAddr - LOAD_VADDR)
      (crc32Ieee (crcInput (slotAddr - LOAD_VADDR) (endAddr - LOAD_VADDR) image)) image)) :
    (imageIntegrityVerify memory ⟨LOAD_VADDR, slotAddr, endAddr⟩ (readWord memory slotAddr) w).1 =
        true ↔
      crc32Feed CRC32_INIT (crcInput (slotAddr - LOAD_VADDR) (endAddr - LOAD_VADDR) image) ≠
        CRC32_INIT := by
  have hslot : slotAddr - LOAD_VADDR + 4 ≤ image.length := by
    have := hchecks.load_le
    have := hchecks.slot_le
    have := hchecks.end_le
    omega
  have hhashed := hashedBytes_of_loaded (checks_patched _ hchecks) hloaded
  rw [crcInput_patched _ _ hslot] at hhashed
  rw [readWord_of_loaded _ hchecks.load_le hslot hloaded, crc32Ieee_eq,
    BitVec.ofNat_toNat, BitVec.setWidth_eq, imageIntegrityVerify_iff, hhashed, Ne, Ne]
  have hvalid : ImageRegion.Valid ⟨LOAD_VADDR, slotAddr, endAddr⟩ :=
    ⟨load_vaddr_ne_zero, hchecks.load_le, hchecks.slot_le⟩
  constructor
  · rintro ⟨hne, -, -⟩ hinit
    exact hne (BitVec.xor_eq_zero_iff.mpr hinit)
  · intro hne
    refine ⟨fun hzero => hne (BitVec.xor_eq_zero_iff.mp hzero), hvalid, ?_⟩
    rw [BitVec.xor_assoc, BitVec.xor_self, BitVec.xor_zero]

end Verify

-- The memory that holds an image and nothing else.
def loadImage (image : List (BitVec 8)) : Memory := fun address =>
  image.getD (address - LOAD_VADDR) 0

theorem loaded_loadImage (image : List (BitVec 8)) : Loaded (loadImage image) image := by
  intro i hi
  unfold loadImage
  rw [Nat.add_sub_cancel_left, List.getD_eq_getElem _ _ hi]

-- Everything but the firmware's verdict holds of every image.
theorem patch_then_verify_iff (slotAddr endAddr segmentSize : Nat) (image : List (BitVec 8))
    (hchecks : Checks slotAddr endAddr segmentSize image) :
    PatchThenVerify slotAddr endAddr segmentSize image ↔
      crc32Feed CRC32_INIT (crcInput (slotAddr - LOAD_VADDR) (endAddr - LOAD_VADDR) image) ≠
        CRC32_INIT := by
  have hslot : slotAddr - LOAD_VADDR + 4 ≤ image.length := by
    have := hchecks.load_le
    have := hchecks.slot_le
    have := hchecks.end_le
    omega
  constructor
  · rintro ⟨digest, image', hpatch, -, -, -, hverify⟩
    rw [patchKernel_eq hchecks] at hpatch
    have himage := congrArg Prod.snd (Except.ok.inj hpatch)
    dsimp only at himage
    subst himage
    have hloaded := loaded_loadImage (patched (slotAddr - LOAD_VADDR)
      (crc32Ieee (crcInput (slotAddr - LOAD_VADDR) (endAddr - LOAD_VADDR) image)) image)
    exact (verify_patched_iff hchecks startupWorld hloaded).mp (hverify _ _ hloaded)
  · intro hne
    refine ⟨_, _, patchKernel_eq hchecks, patched_length _ hslot, ?_, ?_, ?_⟩
    · intro k hk
      exact patched_getElem?_frame _ k hslot hk
    · rw [patchKernel_eq (checks_patched _ hchecks), crcInput_patched _ _ hslot,
        patched_patched _ hslot]
    · intro memory w hloaded
      exact (verify_patched_iff hchecks w hloaded).mpr hne

theorem patch_then_verify_iff_abc :
    PatchThenVerify 0x80000003 0x80000007 7 [0x61, 0x62, 0x63, 0, 0, 0, 0] :=
  (patch_then_verify_iff 0x80000003 0x80000007 7 [0x61, 0x62, 0x63, 0, 0, 0, 0]
    ⟨by decide, by decide, by decide, by decide⟩).mpr (by decide +kernel)

-- The four bytes whose CRC-32 is 0: the slot keeps its 0 and the firmware takes
-- the patched image for an unpatched one.
theorem patch_then_verify_fails_on_zero_digest :
    Checks 0x80000004 0x80000008 8 [0x9d, 0x0a, 0xd9, 0x6d, 0, 0, 0, 0] ∧
      ¬ PatchThenVerify 0x80000004 0x80000008 8 [0x9d, 0x0a, 0xd9, 0x6d, 0, 0, 0, 0] := by
  refine ⟨⟨by decide, by decide, by decide, by decide⟩, ?_⟩
  rintro ⟨digest, image', hpatch, -, -, -, hverify⟩
  have hresult : patchKernel 0x80000004 0x80000008 8 [0x9d, 0x0a, 0xd9, 0x6d, 0, 0, 0, 0] =
      .ok (0, [0x9d, 0x0a, 0xd9, 0x6d, 0, 0, 0, 0]) := by decide +kernel
  have himage := congrArg Prod.snd (Except.ok.inj (hresult.symm.trans hpatch))
  dsimp only at himage
  subst himage
  have haccepted := hverify _ startupWorld (loaded_loadImage _)
  revert haccepted
  decide +kernel

end SpaceBaremetal.PatchImage

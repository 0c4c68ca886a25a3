import SpaceBaremetal.Crc32.Theorems
import SpaceBaremetal.Lib.CrcPolynomial
import SpaceBaremetal.PatchImage.Theorems

namespace SpaceBaremetal

open Polynomial ReflectedCrc

-- The generator of CRC-32 (IEEE), written out.
noncomputable def CRC32_GENERATOR : (ZMod 2)[X] :=
  X ^ 32 + X ^ 26 + X ^ 23 + X ^ 22 + X ^ 16 + X ^ 12 + X ^ 11 + X ^ 10 + X ^ 8 + X ^ 7 +
    X ^ 5 + X ^ 4 + X ^ 2 + X + 1

-- A byte string in memory. An empty one may be given as NULL.
def StoredAt (memory : Memory) (data : Nat) (m : List (BitVec 8)) : Prop :=
  readBytes memory data m.length = m ∧ (data = 0 → m = [])

theorem generator_CRC32_POLY : generator CRC32_POLY = CRC32_GENERATOR := by
  have hreverse : CRC32_POLY.reverse = 0x04C11DB7#32 := by decide +kernel
  unfold generator reflected polynomial CRC32_GENERATOR
  rw [hreverse]
  simp [Finset.sum_range_succ, coefficient]
  rw [monomial_one_one_eq_X]
  simp only [← X_pow_eq_monomial]
  ring

theorem reflected_CRC32_INIT : reflected CRC32_INIT = ∑ i ∈ Finset.range 32, X ^ i := by
  have hones : CRC32_INIT = BitVec.allOnes 32 := by decide
  ext k
  rw [coeff_reflected, finsetSum_coeff, hones, BitVec.getMsbD_allOnes]
  simp [coeff_X_pow, coefficient]

theorem crc32Compute_eq_feed {memory : Memory} {data : Nat} {m : List (BitVec 8)}
    (h : StoredAt memory data m) :
    crc32Compute memory data m.length = crc32Feed CRC32_INIT m ^^^ CRC32_INIT := by
  unfold crc32Compute
  by_cases hdata : data = 0
  · rw [h.2 hdata, crc32Update, if_pos hdata, crc32Feed_nil]
  · rw [crc32Update_eq_feed _ _ _ _ hdata, h.1]

-- The register before the final inversion is the remainder of the message, with
-- the initial inversion of its first 32 bits, and the script agrees with the
-- kernel.
theorem crc32_compute_is_remainder (memory : Memory) (data : Nat) (m : List (BitVec 8))
    (h : StoredAt memory data m) :
    polynomial (crc32Compute memory data m.length ^^^ 0xFFFFFFFF).reverse =
        (messagePolynomial (messageBits m) * X ^ 32 +
          (∑ i ∈ Finset.range 32, X ^ i) * X ^ (8 * m.length)) %ₘ CRC32_GENERATOR ∧
      PatchImage.crc32Ieee m = (crc32Compute memory data m.length).toNat := by
  rw [crc32Compute_eq_feed h]
  refine ⟨?_, PatchImage.crc32Ieee_eq m⟩
  have hregister : crc32Feed CRC32_INIT m ^^^ CRC32_INIT ^^^ 0xFFFFFFFF =
      crc32Feed CRC32_INIT m := by
    rw [BitVec.xor_assoc]
    exact BitVec.xor_zero
  have hremainder := reflected_feed CRC32_POLY (by decide) CRC32_INIT (messageBits m)
  rw [generator_CRC32_POLY, reflected_CRC32_INIT, messageBits_length] at hremainder
  rw [hregister]
  exact hremainder

-- A message of one byte.
theorem crc32_compute_is_remainder_digit :
    polynomial (crc32Compute (fun _ => 0x31) 1 1 ^^^ 0xFFFFFFFF).reverse =
        (messagePolynomial (messageBits [0x31]) * X ^ 32 +
          (∑ i ∈ Finset.range 32, X ^ i) * X ^ (8 * 1)) %ₘ CRC32_GENERATOR ∧
      PatchImage.crc32Ieee [0x31] = (crc32Compute (fun _ => 0x31) 1 1).toNat :=
  crc32_compute_is_remainder (fun _ => 0x31) 1 [0x31] ⟨by decide, by decide⟩

end SpaceBaremetal

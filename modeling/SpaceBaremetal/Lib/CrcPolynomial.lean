import Mathlib.Algebra.CharP.Two
import Mathlib.Algebra.Field.ZMod
import Mathlib.Algebra.Polynomial.Div
import Mathlib.Data.ZMod.Basic
import SpaceBaremetal.Lib.ReflectedCrc

-- What a reflected check computes: the remainder of the message as a polynomial
-- over GF(2).
namespace ReflectedCrc

open Polynomial

section Registers

variable {w : Nat}

def coefficient (b : Bool) : ZMod 2 := if b then 1 else 0

-- Bit `i` of a register is the coefficient of `X ^ i`.
noncomputable def polynomial (crc : BitVec w) : (ZMod 2)[X] :=
  ∑ i ∈ Finset.range w, monomial i (coefficient (crc.getLsbD i))

-- The coefficients of a message, highest degree first.
noncomputable def messagePolynomial (bits : List Bool) : (ZMod 2)[X] :=
  bits.foldl (fun p b => p * X + C (coefficient b)) 0

-- In a reflected register the lowest bit has the highest degree.
noncomputable def reflected (crc : BitVec w) : (ZMod 2)[X] := polynomial crc.reverse

-- The generator: its leading term does not fit into the register.
noncomputable def generator (poly : BitVec w) : (ZMod 2)[X] := X ^ w + reflected poly

@[simp]
theorem coefficient_false : coefficient false = 0 := rfl

theorem coefficient_xor (a b : Bool) : coefficient (a ^^ b) = coefficient a + coefficient b := by
  cases a <;> cases b <;> decide

theorem coeff_polynomial (crc : BitVec w) (k : Nat) :
    (polynomial crc).coeff k = coefficient (crc.getLsbD k) := by
  unfold polynomial
  rw [finsetSum_coeff]
  simp only [coeff_monomial, Finset.sum_ite_eq', Finset.mem_range]
  by_cases hk : k < w
  · rw [if_pos hk]
  · rw [if_neg hk, BitVec.getLsbD_of_ge _ _ (by omega), coefficient_false]

theorem coeff_reflected (crc : BitVec w) (k : Nat) :
    (reflected crc).coeff k = coefficient (crc.getMsbD k) := by
  unfold reflected
  rw [coeff_polynomial, BitVec.getLsbD_reverse]

theorem reflected_xor (a b : BitVec w) : reflected (a ^^^ b) = reflected a + reflected b := by
  ext k
  rw [coeff_add, coeff_reflected, coeff_reflected, coeff_reflected, BitVec.getMsbD_xor,
    coefficient_xor]

theorem degree_reflected (crc : BitVec w) : (reflected crc).degree < w := by
  apply (degree_lt_iff_coeff_zero _ _).mpr
  intro k hk
  rw [coeff_reflected, BitVec.getMsbD_of_ge _ _ hk, coefficient_false]

theorem generator_monic (poly : BitVec w) : (generator poly).Monic :=
  monic_X_pow_add (degree_reflected poly)

theorem degree_generator (poly : BitVec w) : (generator poly).degree = w := by
  unfold generator
  rw [degree_add_eq_left_of_degree_lt, degree_X_pow]
  rw [degree_X_pow]
  exact degree_reflected poly

@[simp]
theorem messagePolynomial_nil : messagePolynomial [] = 0 := rfl

theorem messagePolynomial_concat (bits : List Bool) (b : Bool) :
    messagePolynomial (bits ++ [b]) = messagePolynomial bits * X + C (coefficient b) := by
  unfold messagePolynomial
  rw [List.foldl_append]
  rfl

-- Shifting a register down multiplies by `X` and drops the leading term.
theorem reflected_ushiftRight (crc : BitVec w) :
    reflected (crc >>> 1) + C (coefficient (crc.getLsbD 0)) * X ^ w = reflected crc * X := by
  ext k
  rw [coeff_add, coeff_reflected, coeff_C_mul_X_pow]
  cases k with
  | zero =>
    rw [coeff_mul_X_zero, BitVec.getMsbD_ushiftRight]
    by_cases hw : 0 = w
    · subst hw
      simp
    · rw [if_neg hw]
      simp
  | succ k =>
    rw [coeff_mul_X, coeff_reflected, BitVec.getMsbD_ushiftRight]
    by_cases hk : k + 1 = w
    · have hlast : crc.getMsbD k = crc.getLsbD 0 := by
        rw [BitVec.getMsbD_eq_getLsbD, show w - 1 - k = 0 by omega]
        simp [show k < w by omega]
      rw [if_pos hk, hlast]
      simp [show ¬k + 1 < w by omega]
    · rw [if_neg hk, add_zero]
      by_cases hlt : k + 1 < w
      · simp [hlt]
      · rw [BitVec.getMsbD_of_ge _ k (by omega)]
        simp [hlt]

end Registers

section Remainder

variable {w : Nat} (poly : BitVec w)

theorem reflected_bit (hw : 0 < w) (b : Bool) :
    reflected (bit b : BitVec w) * X = C (coefficient b) * X ^ w := by
  have hzero : (bit b : BitVec w) >>> 1 = 0#w := by
    apply BitVec.eq_of_getLsbD_eq
    intro i hi
    simp [bit]
  have hnone : reflected (0#w) = 0 := by
    ext k
    rw [coeff_reflected]
    simp
  rw [← reflected_ushiftRight, hzero, hnone, zero_add]
  simp [bit, hw]

-- The shift is multiplication by `X` up to the generator.
theorem reflected_shift (crc : BitVec w) :
    reflected (shift poly crc) =
      reflected crc * X + C (coefficient (crc.getLsbD 0)) * generator poly := by
  rw [← reflected_ushiftRight]
  unfold shift generator
  cases crc.getLsbD 0 with
  | false => simp
  | true =>
    change reflected (crc >>> 1 ^^^ poly) =
      reflected (crc >>> 1) + C 1 * X ^ w + C 1 * (X ^ w + reflected poly)
    rw [reflected_xor, C_1, one_mul, one_mul, ← add_assoc, add_assoc (reflected (crc >>> 1)),
      CharTwo.add_self_eq_zero, add_zero]

theorem generator_dvd_feedBit (hw : 0 < w) (crc : BitVec w) (b : Bool) :
    generator poly ∣ reflected (feedBit poly crc b) -
      (reflected crc * X + C (coefficient b) * X ^ w) := by
  unfold feedBit
  rw [reflected_shift, reflected_xor, add_mul, reflected_bit hw, add_sub_cancel_left]
  exact Dvd.intro_left _ rfl

-- Every message bit multiplies what came before by `X` and enters above the
-- register.
theorem generator_dvd_feed (hw : 0 < w) (crc : BitVec w) (bits : List Bool) :
    generator poly ∣ reflected (feed poly crc bits) -
      (messagePolynomial bits * X ^ w + reflected crc * X ^ bits.length) := by
  induction bits using List.reverseRecOn with
  | nil => simp
  | append_singleton bits b ih =>
    have hbit := generator_dvd_feedBit poly hw (feed poly crc bits) b
    have hsplit : reflected (feed poly crc (bits ++ [b])) -
        (messagePolynomial (bits ++ [b]) * X ^ w + reflected crc * X ^ (bits ++ [b]).length) =
        (reflected (feedBit poly (feed poly crc bits) b) -
          (reflected (feed poly crc bits) * X + C (coefficient b) * X ^ w)) +
        (reflected (feed poly crc bits) -
          (messagePolynomial bits * X ^ w + reflected crc * X ^ bits.length)) * X := by
      rw [feed_append, feed_cons, feed_nil, messagePolynomial_concat, List.length_append,
        List.length_singleton]
      ring
    rw [hsplit]
    exact dvd_add hbit (ih.mul_right X)

-- The register is the remainder of the message shifted up by its own width, with
-- the initial register added to its first bits.
theorem reflected_feed (hw : 0 < w) (crc : BitVec w) (bits : List Bool) :
    reflected (feed poly crc bits) =
      (messagePolynomial bits * X ^ w + reflected crc * X ^ bits.length) %ₘ generator poly := by
  have hreduced : reflected (feed poly crc bits) %ₘ generator poly =
      reflected (feed poly crc bits) := by
    apply (modByMonic_eq_self_iff (generator_monic poly)).mpr
    rw [degree_generator]
    exact degree_reflected _
  rw [← hreduced]
  exact modByMonic_eq_of_dvd_sub (generator_monic poly) (generator_dvd_feed poly hw crc bits)

end Remainder

end ReflectedCrc

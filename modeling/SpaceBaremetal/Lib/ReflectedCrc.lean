import Mathlib.Data.List.GetD
import Mathlib.Logic.Function.Iterate

-- A cyclic redundancy check that takes the bits of a message least significant
-- first, over any register width and polynomial.
namespace ReflectedCrc

variable {w : Nat} (poly : BitVec w)

def shift (crc : BitVec w) : BitVec w :=
  if crc.getLsbD 0 then (crc >>> 1) ^^^ poly else crc >>> 1

-- A message bit as a register value.
def bit (b : Bool) : BitVec w := (BitVec.ofBool b).setWidth w

def feedBit (crc : BitVec w) (b : Bool) : BitVec w := shift poly (crc ^^^ bit b)

def feed (crc : BitVec w) (bits : List Bool) : BitVec w := bits.foldl (feedBit poly) crc

-- The first bits of a message as one register value, the first bit lowest.
def pack (bits : List Bool) : BitVec w := (BitVec.ofBoolListLE bits).setWidth w

@[simp]
theorem feed_nil (crc : BitVec w) : feed poly crc [] = crc := rfl

@[simp]
theorem feed_cons (crc : BitVec w) (b : Bool) (bits : List Bool) :
    feed poly crc (b :: bits) = feed poly (feedBit poly crc b) bits := rfl

theorem feed_append (crc : BitVec w) (xs ys : List Bool) :
    feed poly crc (xs ++ ys) = feed poly (feed poly crc xs) ys := by
  unfold feed
  rw [List.foldl_append]

-- The shift is linear: the polynomial enters for exactly one of two registers
-- when their low bits differ.
theorem shift_xor (a b : BitVec w) : shift poly (a ^^^ b) = shift poly a ^^^ shift poly b := by
  unfold shift
  rw [BitVec.getLsbD_xor, BitVec.ushiftRight_xor_distrib]
  cases a.getLsbD 0 with
  | false =>
    cases b.getLsbD 0 with
    | false => rfl
    | true => exact BitVec.xor_assoc _ _ _
  | true =>
    cases b.getLsbD 0 with
    | false =>
      change a >>> 1 ^^^ b >>> 1 ^^^ poly = (a >>> 1 ^^^ poly) ^^^ b >>> 1
      ac_rfl
    | true =>
      change a >>> 1 ^^^ b >>> 1 = (a >>> 1 ^^^ poly) ^^^ (b >>> 1 ^^^ poly)
      have hpair : (a >>> 1 ^^^ poly) ^^^ (b >>> 1 ^^^ poly)
          = (a >>> 1 ^^^ b >>> 1) ^^^ (poly ^^^ poly) := by ac_rfl
      rw [hpair, BitVec.xor_self, BitVec.xor_zero]

theorem getLsbD_pack (bits : List Bool) (i : Nat) (hi : i < w) :
    (pack (w := w) bits).getLsbD i = bits.getD i false := by
  unfold pack
  rw [BitVec.getLsbD_setWidth, BitVec.getLsbD_ofBoolListLE]
  simp [hi]

@[simp]
theorem pack_nil : pack (w := w) [] = 0#w := by
  simp [pack, BitVec.ofBoolListLE]

theorem pack_cons (b : Bool) (bits : List Bool) :
    pack (w := w) (b :: bits) = bit b ^^^ pack bits <<< 1 := by
  apply BitVec.eq_of_getLsbD_eq
  intro i hi
  rw [getLsbD_pack _ i hi, BitVec.getLsbD_xor, BitVec.getLsbD_shiftLeft]
  cases i with
  | zero => simp [bit, hi]
  | succ i =>
    have hrest : (pack (w := w) bits).getLsbD i = bits.getD i false := getLsbD_pack bits i (by omega)
    simp [bit, hi, hrest]

-- A register whose top bit is clear comes back when it is shifted up and down.
theorem shift_shiftLeft (crc : BitVec w) (htop : crc.getLsbD (w - 1) = false) :
    shift poly (crc <<< 1) = crc := by
  have hlow : (crc <<< 1).getLsbD 0 = false := by simp
  unfold shift
  rw [hlow]
  change (crc <<< 1) >>> 1 = crc
  apply BitVec.eq_of_getLsbD_eq
  intro i hi
  rw [BitVec.getLsbD_ushiftRight]
  by_cases hlast : i = w - 1
  · subst hlast
    rw [htop]
    exact BitVec.getLsbD_of_ge _ _ (by omega)
  · have hnext : 1 + i < w := by omega
    rw [BitVec.getLsbD_shiftLeft, Nat.add_sub_cancel_left]
    simp [hnext]

-- Feeding up to `w` bits one at a time is adding them all at once and then
-- shifting as often, because the bits above are not looked at before their turn.
theorem feed_eq_iterate_shift (crc : BitVec w) (bits : List Bool) (hlen : bits.length ≤ w) :
    feed poly crc bits = (shift poly)^[bits.length] (crc ^^^ pack bits) := by
  induction bits generalizing crc with
  | nil =>
    change crc = crc ^^^ pack []
    rw [pack_nil, BitVec.xor_zero]
  | cons b bits ih =>
    have hrest : bits.length + 1 ≤ w := by simpa using hlen
    have htop : (pack (w := w) bits).getLsbD (w - 1) = false := by
      rw [getLsbD_pack _ _ (by omega)]
      exact List.getD_eq_default _ _ (by omega)
    have hstep : shift poly (crc ^^^ pack (b :: bits)) = feedBit poly crc b ^^^ pack bits := by
      rw [pack_cons, ← BitVec.xor_assoc, shift_xor, shift_shiftLeft poly _ htop]
      rfl
    rw [feed_cons, ih _ (by omega), List.length_cons, Function.iterate_succ_apply, hstep]

section Invertible

variable {poly}

-- With the top bit of the polynomial set, the top bit after a shift is the bit
-- that was shifted out, so no register is lost.
theorem eq_zero_of_shift_eq_zero (hpoly : poly.msb = true) (crc : BitVec w)
    (h : shift poly crc = 0) : crc = 0 := by
  unfold shift at h
  rw [BitVec.msb_eq_getLsbD_last] at hpoly
  by_cases hlow : crc.getLsbD 0 = true
  · rw [if_pos hlow] at h
    have hw : 0 < w := BitVec.lt_of_getLsbD hlow
    have htop : ((crc >>> 1) ^^^ poly).getLsbD (w - 1) = true := by
      rw [BitVec.getLsbD_xor, hpoly, BitVec.getLsbD_ushiftRight,
        BitVec.getLsbD_of_ge _ _ (by omega)]
      rfl
    rw [h] at htop
    simp at htop
  · rw [if_neg hlow] at h
    apply BitVec.eq_of_getLsbD_eq
    intro i hi
    cases i with
    | zero => simpa using hlow
    | succ i =>
      have hbit := congrArg (fun r : BitVec w => r.getLsbD i) h
      simp only [BitVec.getLsbD_ushiftRight] at hbit
      rw [Nat.add_comm] at hbit
      simpa using hbit

theorem shift_injective (hpoly : poly.msb = true) : Function.Injective (shift poly) := by
  intro a b h
  apply BitVec.xor_eq_zero_iff.mp
  apply eq_zero_of_shift_eq_zero hpoly
  rw [shift_xor, h]
  exact BitVec.xor_self

theorem feedBit_injective (hpoly : poly.msb = true) (b : Bool) :
    Function.Injective (fun crc => feedBit poly crc b) := by
  intro x y h
  have hxor := shift_injective hpoly h
  exact (BitVec.xor_left_inj (bit b)).mp hxor

theorem feed_injective (hpoly : poly.msb = true) (bits : List Bool) :
    Function.Injective (fun crc => feed poly crc bits) := by
  induction bits with
  | nil => exact fun _ _ h => h
  | cons b bits ih => exact fun _ _ h => feedBit_injective hpoly b (ih h)

-- Two messages of up to `w` bits leave different registers.
theorem feed_injective_bits (hpoly : poly.msb = true) (crc : BitVec w) (xs ys : List Bool)
    (hlen : xs.length = ys.length) (hw : xs.length ≤ w)
    (h : feed poly crc xs = feed poly crc ys) : xs = ys := by
  rw [feed_eq_iterate_shift poly crc xs hw, feed_eq_iterate_shift poly crc ys (by omega),
    hlen] at h
  have hxor := (shift_injective hpoly).iterate _ h
  have hpack := (BitVec.xor_right_inj crc).mp hxor
  apply List.ext_getElem hlen
  intro i hx hy
  have hbit : (pack (w := w) xs).getLsbD i = (pack (w := w) ys).getLsbD i := by rw [hpack]
  rw [getLsbD_pack _ i (by omega), getLsbD_pack _ i (by omega)] at hbit
  rwa [List.getD_eq_getElem _ _ hx, List.getD_eq_getElem _ _ hy] at hbit

-- Errors confined to `w` consecutive bits never cancel out, whatever precedes
-- and follows them.
theorem feed_burst (hpoly : poly.msb = true) (crc : BitVec w) (xs ys : List Bool)
    (hlen : xs.length = ys.length) (position : Nat)
    (hsame : ∀ k, k < position ∨ position + w ≤ k → xs[k]? = ys[k]?)
    (h : feed poly crc xs = feed poly crc ys) : xs = ys := by
  have hsplit : ∀ bits : List Bool,
      bits = bits.take position ++ ((bits.drop position).take w ++ bits.drop (position + w)) := by
    intro bits
    rw [← List.drop_drop, List.take_append_drop, List.take_append_drop]
  have hbefore : xs.take position = ys.take position := by
    apply List.ext_getElem?
    intro k
    by_cases hk : k < position
    · rw [List.getElem?_take_of_lt hk, List.getElem?_take_of_lt hk]
      exact hsame k (.inl hk)
    · rw [List.getElem?_take_eq_none (by omega), List.getElem?_take_eq_none (by omega)]
  have hafter : xs.drop (position + w) = ys.drop (position + w) := by
    apply List.ext_getElem?
    intro k
    rw [List.getElem?_drop, List.getElem?_drop]
    exact hsame _ (.inr (by omega))
  rw [hsplit xs, hsplit ys, hbefore, hafter] at h ⊢
  rw [feed_append, feed_append, feed_append, feed_append] at h
  have hmiddle := feed_injective hpoly _ h
  have hwindow : ((xs.drop position).take w).length = ((ys.drop position).take w).length := by
    simp [hlen]
  rw [feed_injective_bits hpoly _ _ _ hwindow (List.length_take_le _ _) hmiddle]

end Invertible

end ReflectedCrc

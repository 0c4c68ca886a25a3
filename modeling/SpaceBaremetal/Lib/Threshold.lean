import Mathlib.Logic.Function.Iterate

-- A counter that fires and starts again when it reaches a threshold.
structure Threshold where
  count : Nat
  fired : Nat
deriving DecidableEq, Repr

namespace Threshold

variable (n : Nat)

def bump (counter : Threshold) : Threshold :=
  if counter.count + 1 ≥ n then
    ⟨0, counter.fired + 1⟩
  else
    ⟨counter.count + 1, counter.fired⟩

-- Where `m` events have brought a counter that had fired `base` times before.
def after (base m : Nat) : Threshold := ⟨m % n, base + m / n⟩

@[simp] theorem after_zero (base : Nat) : after n base 0 = ⟨0, base⟩ := by
  simp [after]

variable {n}

theorem after_count_lt (hn : 0 < n) (base m : Nat) : (after n base m).count < n :=
  Nat.mod_lt m hn

theorem reached_iff (hn : 0 < n) (m : Nat) : m % n + 1 ≥ n ↔ n ∣ m + 1 := by
  have hlt := Nat.mod_lt m hn
  have hdiv := Nat.div_add_mod m n
  constructor
  · intro h
    refine ⟨m / n + 1, ?_⟩
    rw [Nat.mul_add_one]
    omega
  · rintro ⟨k, hk⟩
    by_contra h
    have hmod : (m + 1) % n = m % n + 1 := by
      rw [Nat.add_mod, Nat.mod_eq_of_lt (by omega : 1 < n), Nat.mod_eq_of_lt (by omega)]
    rw [hk, Nat.mul_mod_right] at hmod
    omega

-- One more event fires the counter exactly if it makes a multiple of `n`.
theorem bump_after (hn : 0 < n) (base m : Nat) : bump n (after n base m) = after n base (m + 1) := by
  have hreached := reached_iff hn m
  unfold bump after
  by_cases h : n ∣ m + 1
  · rw [if_pos (hreached.mpr h), Nat.succ_div_of_dvd h, Nat.mod_eq_zero_of_dvd h, Nat.add_assoc]
  · have hlt : m % n + 1 < n := Nat.not_le.mp (mt hreached.mp h)
    have hmod : (m + 1) % n = m % n + 1 := by
      rw [Nat.add_mod, Nat.mod_eq_of_lt (by omega : 1 < n), Nat.mod_eq_of_lt hlt]
    rw [if_neg (mt hreached.mp h), Nat.succ_div_of_not_dvd h, hmod]

end Threshold

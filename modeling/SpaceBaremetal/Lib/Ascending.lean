import Mathlib.Order.Basic

-- Sequences of numbers that ascend up to some length.
namespace Ascending

variable {f : Nat → Nat} {m : Nat}

theorem lt_of_lt (hstep : ∀ i, i + 1 < m → f i < f (i + 1)) {i j : Nat} (hij : i < j) (hj : j < m) :
    f i < f j := by
  induction j with
  | zero => omega
  | succ j ih =>
    have hlast := hstep j hj
    by_cases heq : i = j
    · rw [heq]
      exact hlast
    · exact Nat.lt_trans (ih (by omega) (by omega)) hlast

theorem pairwise_map (hstep : ∀ i, i + 1 < m → f i < f (i + 1)) :
    ((List.range m).map f).Pairwise (· < ·) := by
  rw [List.pairwise_map, List.pairwise_iff_getElem]
  intro i j hi hj hij
  rw [List.getElem_range, List.getElem_range]
  rw [List.length_range] at hj
  exact lt_of_lt hstep hij hj

-- From the first value on, each number up to the last is taken or passed over.
theorem mem_or_skipped {p : Nat} (hfirst : f 0 ≤ p) (hlast : p ≤ f (m - 1)) (hpos : 0 < m) :
    (∃ i < m, f i = p) ∨ ∃ i, i + 1 < m ∧ f i < p ∧ p < f (i + 1) := by
  induction m with
  | zero => omega
  | succ m ih =>
    by_cases hm : m = 0
    · subst hm
      exact .inl ⟨0, by omega, Nat.le_antisymm hfirst hlast⟩
    · by_cases hbefore : p ≤ f (m - 1)
      · obtain ⟨i, hi, htaken⟩ | ⟨i, hi, hskipped⟩ := ih hbefore (by omega)
        · exact .inl ⟨i, by omega, htaken⟩
        · exact .inr ⟨i, by omega, hskipped⟩
      · rw [Nat.add_sub_cancel] at hlast
        by_cases htaken : f m = p
        · exact .inl ⟨m, by omega, htaken⟩
        · refine .inr ⟨m - 1, by omega, by omega, ?_⟩
          rw [Nat.sub_add_cancel (by omega)]
          omega

-- A number between the first value and the last is taken exactly if no two
-- neighbours pass over it.
theorem mem_map_iff (hstep : ∀ i, i + 1 < m → f i < f (i + 1)) {p : Nat} (hfirst : f 0 ≤ p)
    (hlast : p ≤ f (m - 1)) (hpos : 0 < m) :
    p ∈ (List.range m).map f ↔ ∀ i, i + 1 < m → ¬(f i < p ∧ p < f (i + 1)) := by
  simp only [List.mem_map, List.mem_range]
  constructor
  · rintro ⟨j, hj, rfl⟩ i hi ⟨hbefore, hafter⟩
    rcases Nat.lt_trichotomy j i with hlt | rfl | hgt
    · exact absurd hbefore (Nat.not_lt.mpr (Nat.le_of_lt (lt_of_lt hstep hlt (by omega))))
    · exact Nat.lt_irrefl _ hbefore
    · by_cases heq : j = i + 1
      · rw [heq] at hafter
        exact Nat.lt_irrefl _ hafter
      · exact absurd hafter (Nat.not_lt.mpr (Nat.le_of_lt (lt_of_lt hstep (by omega) hj)))
  · intro hnone
    obtain htaken | ⟨i, hi, hskipped⟩ := mem_or_skipped hfirst hlast hpos
    · exact htaken
    · exact absurd hskipped (hnone i hi)

end Ascending

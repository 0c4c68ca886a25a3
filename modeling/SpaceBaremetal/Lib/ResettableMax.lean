import Mathlib.Data.List.Induction
import Mathlib.Order.MinMax

-- Runs that climb to the highest level seen, except where a step resets them
-- to a fixed floor.
namespace ResettableMax

variable {σ ι : Type}

-- At position `k` of the run of `step` over `xs` from `start` stands a step
-- for which `resets` holds.
def ResetAt (step : σ → ι → σ) (resets : σ → ι → Prop) (start : σ) (xs : List ι) (k : Nat) : Prop :=
  ∃ x, xs[k]? = some x ∧ resets ((xs.take k).foldl step start) x

variable [LinearOrder σ]

structure Spec (step : σ → ι → σ) (resets : σ → ι → Prop) (level : ι → σ) (floor : σ) : Prop where
  reset : ∀ s x, resets s x → step s x = floor
  raise : ∀ s x, ¬resets s x → step s x = max s (level x)

section Run

variable {step : σ → ι → σ} {resets : σ → ι → Prop} {level : ι → σ} {floor : σ}

theorem foldl_of_no_reset (hspec : Spec step resets level floor) (start : σ) (xs : List ι)
    (hno : ∀ k, ¬ResetAt step resets start xs k) :
    xs.foldl step start = (xs.map level).foldl max start := by
  induction xs using List.reverseRecOn with
  | nil => rfl
  | append_singleton xs x ih =>
    have hbefore : ∀ k, ¬ResetAt step resets start xs k := by
      rintro k ⟨y, hy, hreset⟩
      have hk := (List.getElem?_eq_some_iff.mp hy).1
      refine hno k ⟨y, ?_, ?_⟩
      · rw [List.getElem?_append_left hk, hy]
      · rwa [List.take_append_of_le_length (Nat.le_of_lt hk)]
    have hlast : ¬resets (xs.foldl step start) x := by
      intro hreset
      refine hno xs.length ⟨x, by simp, ?_⟩
      rwa [List.take_append_of_le_length (Nat.le_refl _), List.take_length]
    rw [List.foldl_append, List.map_append, List.foldl_append, ← ih hbefore]
    exact hspec.raise _ _ hlast

-- Only what comes after the last reset counts.
theorem foldl_of_last_reset (hspec : Spec step resets level floor) (start : σ) (xs : List ι)
    (k : Nat) (hreset : ResetAt step resets start xs k)
    (hlast : ∀ j, k < j → ¬ResetAt step resets start xs j) :
    xs.foldl step start = ((xs.drop (k + 1)).map level).foldl max floor := by
  obtain ⟨x, hx, hresets⟩ := hreset
  have htake : xs.take (k + 1) = xs.take k ++ [x] := by
    rw [List.take_add_one, hx]
    rfl
  have hfloor : (xs.take (k + 1)).foldl step start = floor := by
    rw [htake, List.foldl_append]
    exact hspec.reset _ _ hresets
  have hno : ∀ j, ¬ResetAt step resets floor (xs.drop (k + 1)) j := by
    rintro j ⟨y, hy, hj⟩
    refine hlast (k + 1 + j) (by omega) ⟨y, ?_, ?_⟩
    · rwa [List.getElem?_drop] at hy
    · rwa [List.take_add, List.foldl_append, hfloor]
  rw [← List.take_append_drop (k + 1) xs, List.foldl_append, hfloor, List.take_append_drop]
  exact foldl_of_no_reset hspec floor _ hno

end Run

theorem foldl_max_le_iff (start bound : σ) (levels : List σ) :
    levels.foldl max start ≤ bound ↔ start ≤ bound ∧ ∀ l ∈ levels, l ≤ bound := by
  induction levels generalizing start with
  | nil => simp
  | cons l levels ih =>
    rw [List.foldl_cons, ih, max_le_iff]
    simp only [List.forall_mem_cons]
    exact and_assoc

-- A maximum depends on which levels occur, not on their order or number.
theorem foldl_max_congr (start : σ) (levels others : List σ)
    (hsame : ∀ l, l ∈ levels ↔ l ∈ others) : levels.foldl max start = others.foldl max start := by
  apply eq_of_forall_ge_iff
  intro bound
  rw [foldl_max_le_iff, foldl_max_le_iff]
  simp only [hsame]

end ResettableMax

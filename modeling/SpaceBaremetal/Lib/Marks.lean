import Mathlib.Data.Finset.Card
import Mathlib.Data.List.Count
import Mathlib.Logic.Function.Basic

-- Positions that are marked or not, under toggling and clearing one position.
namespace Marks

variable {α : Type} [DecidableEq α]

def toggle (marks : α → Bool) (a : α) : α → Bool := Function.update marks a (!marks a)

def clear (marks : α → Bool) (a : α) : α → Bool := Function.update marks a false

def clearAll (marks : α → Bool) (positions : List α) : α → Bool := positions.foldl clear marks

theorem toggle_apply (marks : α → Bool) (a b : α) :
    toggle marks a b = (marks b != decide (b = a)) := by
  unfold toggle
  by_cases h : b = a
  · subst h
    simp
  · simp [h]

theorem clear_apply (marks : α → Bool) (a b : α) :
    clear marks a b = (marks b && !decide (b = a)) := by
  unfold clear
  by_cases h : b = a
  · subst h
    simp
  · simp [h]

theorem clearAll_apply (marks : α → Bool) (positions : List α) (b : α) :
    clearAll marks positions b = (marks b && !decide (b ∈ positions)) := by
  induction positions generalizing marks with
  | nil => simp [clearAll]
  | cons a positions ih =>
    change clearAll (clear marks a) positions b = _
    rw [ih, clear_apply]
    by_cases hb : b = a
    · simp [hb]
    · simp [hb]

-- How many of the positions are still marked when their turn comes.
def clears (marks : α → Bool) : List α → Nat
  | [] => 0
  | a :: positions => (marks a).toNat + clears (clear marks a) positions

theorem filter_clear (marks : α → Bool) (positions : Finset α) (a : α) :
    (positions.filter fun b => clear marks a b = true) =
      (positions.filter fun b => marks b = true).erase a := by
  ext b
  rw [Finset.mem_erase, Finset.mem_filter, Finset.mem_filter, clear_apply]
  by_cases hb : b = a
  · simp [hb]
  · simp [hb]

-- Each marked position counts once, however often and wherever it comes.
theorem clears_eq (marks : α → Bool) (positions : List α) :
    clears marks positions = (positions.toFinset.filter fun a => marks a = true).card := by
  induction positions generalizing marks with
  | nil => rfl
  | cons a positions ih =>
    unfold clears
    rw [ih, filter_clear, List.toFinset_cons, Finset.filter_insert]
    cases hmark : marks a with
    | true =>
      rw [if_pos rfl, ← Finset.card_erase_add_one (Finset.mem_insert_self a _),
        Finset.erase_insert_eq_erase, Bool.toNat_true, Nat.add_comm]
    | false =>
      have hmem : a ∉ positions.toFinset.filter fun b => marks b = true := by simp [hmark]
      rw [if_neg (by decide), Finset.erase_eq_of_notMem hmem]
      simp

-- The positions that an odd number of toggles has hit.
def odd (toggled : List α) (a : α) : Bool := decide (toggled.count a % 2 = 1)

@[simp]
theorem odd_nil (a : α) : odd [] a = false := by
  simp [odd]

-- One more toggle changes the parity of its own position only.
theorem odd_append (toggled : List α) (a : α) : odd (toggled ++ [a]) = toggle (odd toggled) a := by
  funext b
  rw [toggle_apply]
  unfold odd
  rw [List.count_append]
  by_cases hb : b = a
  · subst hb
    rw [List.count_singleton_self]
    have hparity := Nat.mod_two_eq_zero_or_one (toggled.count b)
    obtain h | h := hparity
    · simp [Nat.add_mod, h]
    · simp [Nat.add_mod, h]
  · have hab : ¬ a = b := fun h => hb h.symm
    simp [hb, hab]

theorem mem_of_odd {toggled : List α} {a : α} (h : odd toggled a = true) : a ∈ toggled := by
  unfold odd at h
  by_contra hmem
  rw [List.count_eq_zero_of_not_mem hmem] at h
  simp at h

end Marks

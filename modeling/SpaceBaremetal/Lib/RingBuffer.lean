import Mathlib.Data.List.Basic
import Mathlib.Data.Vector.Basic

-- A fixed array that keeps the last `capacity` values stored in it. While it
-- is not full the next free slot is `count`; once it is full the slot written
-- next holds the oldest value.
structure RingBuffer (α : Type) (capacity : Nat) where
  slots : Vector α capacity
  head : Nat
  count : Nat
  head_lt : head < capacity
  count_le : count ≤ capacity
  head_eq : count < capacity → head = count

namespace RingBuffer

variable {α : Type} {capacity : Nat}

theorem reset_head_eq : 0 < capacity → 0 = 0 := fun _ => rfl

theorem store_head_eq (ring : RingBuffer α capacity) :
    (if ring.count < capacity then ring.count + 1 else ring.count) < capacity →
      (ring.head + 1) % capacity =
        if ring.count < capacity then ring.count + 1 else ring.count := by
  have hh := ring.head_eq
  split
  · rename_i hlt
    intro h
    rw [hh hlt, Nat.mod_eq_of_lt h]
  · intro h
    contradiction

def store (ring : RingBuffer α capacity) (value : α) : RingBuffer α capacity where
  slots := ring.slots.set ring.head value ring.head_lt
  head := (ring.head + 1) % capacity
  count := if ring.count < capacity then ring.count + 1 else ring.count
  head_lt := Nat.mod_lt _ (Nat.zero_lt_of_lt ring.head_lt)
  count_le := by have := ring.count_le; split <;> omega
  head_eq := ring.store_head_eq

def start (ring : RingBuffer α capacity) : Nat :=
  if ring.count < capacity then 0 else ring.head

theorem slot_lt (ring : RingBuffer α capacity) (i : Nat) : (ring.start + i) % capacity < capacity :=
  Nat.mod_lt _ (Nat.zero_lt_of_lt ring.head_lt)

-- The i-th oldest value.
def nth (ring : RingBuffer α capacity) (i : Nat) : α :=
  ring.slots[(⟨(ring.start + i) % capacity, ring.slot_lt i⟩ : Fin capacity)]

-- `ring` holds the last `capacity` of the values in `stored`. The k-th value
-- ever stored went to slot `k % capacity`, and only the last ones are left.
structure Holds (ring : RingBuffer α capacity) (stored : List α) : Prop where
  count_eq : ring.count = min stored.length capacity
  head_mod : ring.head = stored.length % capacity
  slot : ∀ k (hk : k < stored.length), stored.length ≤ k + ring.count →
    ring.slots[(⟨k % capacity, Nat.mod_lt _ (Nat.zero_lt_of_lt ring.head_lt)⟩ : Fin capacity)] =
      stored[k]

theorem holds_nil (ring : RingBuffer α capacity) (hh : ring.head = 0) (hc : ring.count = 0) :
    ring.Holds [] :=
  ⟨by simp [hc], by simp [hh], by simp⟩

theorem mod_ne_of_lt_add {k n : Nat} (hk : k < n) (hn : n < k + capacity) :
    k % capacity ≠ n % capacity := by
  intro h
  have hz := Nat.sub_mod_eq_zero_of_mod_eq h.symm
  rw [Nat.mod_eq_of_lt (by omega)] at hz
  omega

-- Storing a value overwrites the oldest one at most, so the values that are
-- still held are the last ones of the longer sequence.
theorem holds_store {ring : RingBuffer α capacity} {stored : List α} (h : ring.Holds stored)
    (value : α) : (ring.store value).Holds (stored ++ [value]) := by
  have hc := h.count_eq
  have hcap : 0 < capacity := Nat.zero_lt_of_lt ring.head_lt
  refine ⟨?_, ?_, ?_⟩
  · simp only [store, List.length_append, List.length_singleton]
    split <;> omega
  · simp only [store, List.length_append, List.length_singleton, h.head_mod, Nat.mod_add_mod]
  · intro k hk hlast
    have hcount : (ring.store value).count = min (stored.length + 1) capacity := by
      simp only [store]
      split <;> omega
    simp only [List.length_append, List.length_singleton] at hk hlast
    simp only [store, Fin.getElem_fin, Vector.getElem_set]
    by_cases hnew : k = stored.length
    · subst k
      simp [h.head_mod]
    · have hold : k < stored.length := by omega
      have hne : ring.head ≠ k % capacity := by
        rw [h.head_mod]
        exact (mod_ne_of_lt_add hold (by omega)).symm
      rw [if_neg hne, List.getElem_append_left hold]
      simpa only [Fin.getElem_fin] using h.slot k hold (by omega)

theorem nth_eq {ring : RingBuffer α capacity} {stored : List α} (h : ring.Holds stored)
    (i : Nat) (hi : i < ring.count) :
    stored[stored.length - ring.count + i]? = some (ring.nth i) := by
  have hc := h.count_eq
  have hslot : (ring.start + i) % capacity =
      (stored.length - ring.count + i) % capacity := by
    by_cases hfull : ring.count < capacity
    · have hl : stored.length = ring.count := by omega
      simp [start, hfull, hl]
    · have hcap : ring.count = capacity := by have := ring.count_le; omega
      have hl : stored.length + i = stored.length - ring.count + i + capacity := by omega
      rw [start, if_neg hfull, h.head_mod, Nat.mod_add_mod, hl, Nat.add_mod_right]
  have hk : stored.length - ring.count + i < stored.length := by omega
  have hs := h.slot _ hk (by omega)
  simp only [nth, hslot, hs, List.getElem?_eq_getElem hk]

-- Read out oldest first, the ring is the tail of what was stored.
theorem map_nth_eq_drop {ring : RingBuffer α capacity} {stored : List α} (h : ring.Holds stored) :
    (List.range ring.count).map ring.nth = stored.drop (stored.length - ring.count) := by
  have hc := h.count_eq
  apply List.ext_getElem?
  intro i
  rw [List.getElem?_drop]
  by_cases hi : i < ring.count
  · simp [hi, nth_eq h i hi]
  · have hlen : stored.length ≤ stored.length - ring.count + i := by omega
    simp [hi, List.getElem?_eq_none hlen]

end RingBuffer

import Mathlib.Data.List.Basic
import Mathlib.Logic.Function.Basic

-- A sequence of bounded length that is kept in slots which are used in turn.
-- The slot that was read last is kept, and how many hold items.
structure SlotRing (α : Type) (capacity : Nat) where
  slots : Nat → α
  last : Nat
  count : Nat
  last_lt : last < capacity
  count_le : count ≤ capacity

namespace SlotRing

variable {α : Type} {capacity : Nat}

-- Slots are counted on from the one read last, at most twice around.
def slotAfter (capacity last i : Nat) : Nat :=
  if last + 1 + i < capacity then
    last + 1 + i
  else if last + 1 + i < 2 * capacity then
    last + 1 + i - capacity
  else
    0

def slot (ring : SlotRing α capacity) (i : Nat) : Nat := slotAfter capacity ring.last i

theorem slotAfter_cases {last : Nat} (hlast : last < capacity) {i : Nat} (hi : i ≤ capacity) :
    (last + 1 + i < capacity ∧ slotAfter capacity last i = last + 1 + i) ∨
    (capacity ≤ last + 1 + i ∧ last + 1 + i < 2 * capacity ∧
      slotAfter capacity last i + capacity = last + 1 + i) ∨
    (last + 1 + i = 2 * capacity ∧ slotAfter capacity last i = 0) := by
  unfold slotAfter
  split
  · omega
  · split
    · omega
    · omega

def items (ring : SlotRing α capacity) : List α :=
  (List.range ring.count).map fun i => ring.slots (ring.slot i)

-- The slot that the next item is put into.
def free (ring : SlotRing α capacity) : Nat := ring.slot ring.count

def empty (slots : Nat → α) (h : 0 < capacity) : SlotRing α capacity where
  slots := slots
  last := capacity - 1
  count := 0
  last_lt := by omega
  count_le := Nat.zero_le _

def pushBack (ring : SlotRing α capacity) (item : α) (h : ring.count < capacity) :
    SlotRing α capacity where
  slots := Function.update ring.slots ring.free item
  last := ring.last
  count := ring.count + 1
  last_lt := ring.last_lt
  count_le := h

-- The slot before the one read last.
def before (capacity last : Nat) : Nat := if last = 0 then capacity - 1 else last - 1

def pushFront (ring : SlotRing α capacity) (item : α) (h : ring.count < capacity) :
    SlotRing α capacity where
  slots := Function.update ring.slots ring.last item
  last := before capacity ring.last
  count := ring.count + 1
  last_lt := by
    have hlast := ring.last_lt
    unfold before
    split
    · omega
    · omega
  count_le := h

theorem slot_cases (ring : SlotRing α capacity) {i : Nat} (hi : i ≤ capacity) :
    (ring.last + 1 + i < capacity ∧ ring.slot i = ring.last + 1 + i) ∨
    (capacity ≤ ring.last + 1 + i ∧ ring.last + 1 + i < 2 * capacity ∧
      ring.slot i + capacity = ring.last + 1 + i) ∨
    (ring.last + 1 + i = 2 * capacity ∧ ring.slot i = 0) := slotAfter_cases ring.last_lt hi

theorem slot_lt (ring : SlotRing α capacity) {i : Nat} (hi : i ≤ capacity) :
    ring.slot i < capacity := by
  have hlast := ring.last_lt
  have hcases := ring.slot_cases hi
  omega

def pop (ring : SlotRing α capacity) : α × SlotRing α capacity :=
  (ring.slots (ring.slot 0), {
    slots := ring.slots
    last := ring.slot 0
    count := ring.count - 1
    last_lt := ring.slot_lt (Nat.zero_le _)
    count_le := Nat.le_trans (Nat.sub_le _ _) ring.count_le })

section Slots

variable (ring : SlotRing α capacity) {i j : Nat}

theorem free_lt : ring.free < capacity := ring.slot_lt ring.count_le

theorem slot_ne (hi : i < capacity) (hj : j < capacity) (hne : i ≠ j) :
    ring.slot i ≠ ring.slot j := by
  have hlast := ring.last_lt
  have hcases := ring.slot_cases (Nat.le_of_lt hi)
  have hcases' := ring.slot_cases (Nat.le_of_lt hj)
  omega

theorem slot_ne_last (hi : i + 1 < capacity) : ring.slot i ≠ ring.last := by
  have hlast := ring.last_lt
  have hcases := ring.slot_cases (show i ≤ capacity by omega)
  omega

-- The next slot, as a pointer that goes round finds it.
theorem slot_succ (hi : i < capacity) :
    ring.slot (i + 1) = if capacity ≤ ring.slot i + 1 then 0 else ring.slot i + 1 := by
  have hlast := ring.last_lt
  have hcases := ring.slot_cases (Nat.le_of_lt hi)
  have hcases' := ring.slot_cases (show i + 1 ≤ capacity from hi)
  split
  · omega
  · omega

theorem slot_zero : ring.slot 0 = if capacity ≤ ring.last + 1 then 0 else ring.last + 1 := by
  have hlast := ring.last_lt
  have hcases := ring.slot_cases (Nat.zero_le _)
  split
  · omega
  · omega

-- Counting from the slot before, every slot is one further on.
theorem slotAfter_before (hi : i < capacity) :
    slotAfter capacity (before capacity ring.last) (i + 1) = ring.slot i ∧
      slotAfter capacity (before capacity ring.last) 0 = ring.last := by
  have hlast := ring.last_lt
  have hbefore : before capacity ring.last < capacity ∧
      (before capacity ring.last + 1 = ring.last ∨
        before capacity ring.last + 1 = capacity ∧ ring.last = 0) := by
    unfold before
    split
    · omega
    · omega
  have hcases := ring.slot_cases (Nat.le_of_lt hi)
  have hcases' := slotAfter_cases hbefore.1 (show i + 1 ≤ capacity from hi)
  have hzero := slotAfter_cases hbefore.1 (Nat.zero_le _)
  omega

-- Counting from the slot after, every slot is one nearer.
theorem slotAfter_slot_zero (hi : i < capacity) :
    slotAfter capacity (ring.slot 0) i = ring.slot (i + 1) := by
  have hlast := ring.last_lt
  have hzero := ring.slot_cases (Nat.zero_le _)
  have hcases := ring.slot_cases (show i + 1 ≤ capacity from hi)
  have hcases' := slotAfter_cases (ring.slot_lt (Nat.zero_le _)) (Nat.le_of_lt hi)
  omega

end Slots

section Items

variable (ring : SlotRing α capacity) (item : α)

@[simp] theorem items_length : ring.items.length = ring.count := by simp [items]

theorem items_pushBack (h : ring.count < capacity) :
    (ring.pushBack item h).items = ring.items ++ [item] := by
  have hslot : ∀ i, (ring.pushBack item h).slot i = ring.slot i := fun i => rfl
  simp only [items, pushBack, List.range_succ, List.map_append, List.map_cons, List.map_nil]
  congr 1
  · apply List.map_congr_left
    intro i hi
    rw [List.mem_range] at hi
    exact Function.update_of_ne (ring.slot_ne (by omega) h (by omega)) _ _
  · exact congrArg (· :: []) (Function.update_self _ _ _)

theorem items_pushFront (h : ring.count < capacity) :
    (ring.pushFront item h).items = item :: ring.items := by
  simp only [items, pushFront, List.range_succ_eq_map, List.map_cons, List.map_map]
  have hshift := fun i (hi : i < capacity) => ring.slotAfter_before hi
  congr 1
  · rw [slot, (hshift 0 (by omega)).2, Function.update_self]
  · apply List.map_congr_left
    intro i hi
    rw [List.mem_range] at hi
    have hne : ring.slot i ≠ ring.last := ring.slot_ne_last (by omega)
    simp only [Function.comp_apply, Nat.succ_eq_add_one]
    rw [slot, (hshift i (by omega)).1, Function.update_of_ne hne]

theorem items_pop (h : 0 < ring.count) : ring.items = ring.pop.1 :: ring.pop.2.items := by
  obtain ⟨n, hn⟩ := Nat.exists_eq_succ_of_ne_zero (Nat.pos_iff_ne_zero.mp h)
  have hle := ring.count_le
  simp only [items, pop, hn, Nat.succ_eq_add_one, List.range_succ_eq_map, List.map_cons,
    List.map_map, Nat.add_sub_cancel]
  congr 1
  apply List.map_congr_left
  intro i hi
  rw [List.mem_range] at hi
  simp only [Function.comp_apply, Nat.succ_eq_add_one]
  rw [← slotAfter_slot_zero ring (by omega)]
  rfl

end Items

end SlotRing

import Mathlib.Data.List.Basic

-- A table that takes entries in until it is full and drops the others.
namespace BoundedTable

variable {α : Type*}

def enter (capacity : Nat) (table entries : List α) : List α :=
  (table ++ entries).take capacity

@[simp] theorem length_enter (capacity : Nat) (table entries : List α) :
    (enter capacity table entries).length = min capacity (table.length + entries.length) := by
  rw [enter, List.length_take, List.length_append]

theorem enter_nil {capacity : Nat} {table : List α} (h : table.length ≤ capacity) :
    enter capacity table [] = table := by
  rw [enter, List.append_nil, List.take_of_length_le h]

theorem enter_singleton_of_full {capacity : Nat} {table : List α} (h : table.length = capacity)
    (entry : α) : enter capacity table [entry] = table := by
  rw [enter, List.take_append_of_le_length (Nat.le_of_eq h.symm), ← h, List.take_length]

theorem enter_singleton_of_lt {capacity : Nat} {table : List α} (h : table.length < capacity)
    (entry : α) : enter capacity table [entry] = table ++ [entry] := by
  rw [enter, List.take_of_length_le]
  rw [List.length_append, List.length_singleton]
  exact h

-- What was dropped leaves no trace.
theorem enter_enter (capacity : Nat) (table entries more : List α) :
    enter capacity (enter capacity table entries) more =
      enter capacity table (entries ++ more) := by
  unfold enter
  rw [← List.append_assoc]
  by_cases hfull : capacity ≤ (table ++ entries).length
  · have hlength : ((table ++ entries).take capacity).length = capacity :=
      (List.length_take ..).trans (Nat.min_eq_left hfull)
    rw [List.take_append_of_le_length (Nat.le_of_eq hlength.symm),
      List.take_append_of_le_length hfull, List.take_take, Nat.min_self]
  · rw [List.take_of_length_le (Nat.le_of_not_le hfull)]

variable {p : α → Prop}

-- An entry of another kind only takes a place.
theorem forall_mem_take_cons {entry : α} (hentry : ¬p entry) (rest : List α) (room : Nat) :
    (∀ other ∈ (entry :: rest).take room, ¬p other) ↔
      ∀ other ∈ rest.take (room - 1), ¬p other := by
  cases room with
  | zero => rfl
  | succ room =>
    rw [List.take_succ_cons, List.forall_mem_cons]
    exact and_iff_right hentry

-- An entry that finds room is the only one of its kind exactly if no entry
-- before it is of that kind, and none of those after it that still find room.
theorem filter_enter_cons_iff [DecidablePred p] {capacity : Nat} {entry : α} (hentry : p entry)
    {table : List α} (rest : List α) (hroom : table.length < capacity) :
    (enter capacity table (entry :: rest)).filter p = [entry] ↔
      (∀ other ∈ table, ¬p other) ∧
        ∀ other ∈ rest.take (capacity - 1 - table.length), ¬p other := by
  have henter : enter capacity table (entry :: rest) =
      table ++ entry :: rest.take (capacity - 1 - table.length) := by
    rw [enter, List.take_append, List.take_of_length_le (Nat.le_of_lt hroom),
      List.take_cons (Nat.sub_pos_of_lt hroom), Nat.sub_right_comm]
  have hnone (entries : List α) : entries.filter p = [] ↔ ∀ other ∈ entries, ¬p other := by
    rw [List.filter_eq_nil_iff]
    simp only [decide_eq_true_eq]
  rw [henter, List.filter_append,
    List.filter_cons_of_pos (p := fun other => decide (p other)) (decide_eq_true hentry), ← hnone,
    ← hnone]
  constructor
  · intro honly
    have hlength := congrArg List.length honly
    simp only [List.length_append, List.length_cons, List.length_nil] at hlength
    exact ⟨List.eq_nil_of_length_eq_zero (by omega), List.eq_nil_of_length_eq_zero (by omega)⟩
  · rintro ⟨hbefore, hafter⟩
    rw [hbefore, hafter, List.nil_append]

end BoundedTable

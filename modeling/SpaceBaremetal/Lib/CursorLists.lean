import SpaceBaremetal.Lib.CursorList
import Mathlib.Logic.Function.Basic

-- Several lists with cursors, an item being on one of them at most.
structure CursorLists (ι τ : Type) where
  ring : ι → CursorList τ
  home : τ → Option ι
  home_iff : ∀ i l, home i = some l ↔ i ∈ (ring l).items

namespace CursorLists

variable {ι τ : Type} [DecidableEq ι] [DecidableEq τ]

def empty : CursorLists ι τ where
  ring := fun _ => ⟨[], none, List.nodup_nil, by simp⟩
  home := fun _ => none
  home_iff := by simp

variable (s : CursorLists ι τ) {l other : ι} {i a : τ}

omit [DecidableEq ι] [DecidableEq τ] in
theorem notMem_of_free (h : s.home i = none) (l : ι) : i ∉ (s.ring l).items := by
  intro hmem
  rw [(s.home_iff i l).mpr hmem] at h
  cases h

-- A new item on the list `l`.
def place (l : ι) (i : τ) (r : CursorList τ) (hi : s.home i = none)
    (hr : r.items.Perm (i :: (s.ring l).items)) : CursorLists ι τ where
  ring := Function.update s.ring l r
  home := Function.update s.home i (some l)
  home_iff := by
    intro a other
    by_cases hai : a = i
    · subst hai
      rw [Function.update_self]
      by_cases heq : other = l
      · subst heq
        simp [hr.mem_iff]
      · rw [Function.update_of_ne heq]
        simp [Ne.symm heq, s.notMem_of_free hi other]
    · rw [Function.update_of_ne hai]
      by_cases heq : other = l
      · subst heq
        rw [Function.update_self, s.home_iff, hr.mem_iff]
        simp [hai]
      · rw [Function.update_of_ne heq]
        exact s.home_iff a other

def insertEnd (l : ι) (i : τ) (hi : s.home i = none) : CursorLists ι τ :=
  s.place l i ((s.ring l).insertEnd i (s.notMem_of_free hi l)) hi
    (CursorList.insertBefore_perm i (s.ring l).cursor_mem)

def insert (l : ι) (p : τ → Bool) (i : τ) (hi : s.home i = none) : CursorLists ι τ :=
  s.place l i ((s.ring l).insert p i (s.notMem_of_free hi l)) hi
    (CursorList.insertAfter_perm p i (s.ring l).items)

def remove (l : ι) (i : τ) (hi : s.home i = some l) : CursorLists ι τ where
  ring := Function.update s.ring l ((s.ring l).remove i)
  home := Function.update s.home i none
  home_iff := by
    intro a other
    by_cases hai : a = i
    · subst hai
      rw [Function.update_self]
      by_cases heq : other = l
      · subst heq
        simp [CursorList.remove, (s.ring other).nodup.not_mem_erase]
      · rw [Function.update_of_ne heq, ← s.home_iff, hi]
        simp [Ne.symm heq]
    · rw [Function.update_of_ne hai]
      by_cases heq : other = l
      · subst heq
        rw [Function.update_self, s.home_iff]
        simp [CursorList.remove, List.mem_erase_of_ne hai]
      · rw [Function.update_of_ne heq]
        exact s.home_iff a other

-- The cursor of the list goes on by one item.
def next (l : ι) : Option (τ × CursorLists ι τ) :=
  match h : (s.ring l).next with
  | none => none
  | some (x, r) => some (x, {
      ring := Function.update s.ring l r
      home := s.home
      home_iff := by
        intro a other
        obtain ⟨-, -, -, hitems, -⟩ := CursorList.next_order h
        by_cases heq : other = l
        · subst heq
          rw [Function.update_self, hitems]
          exact s.home_iff a other
        · rw [Function.update_of_ne heq]
          exact s.home_iff a other })

section Frame

variable {s}

@[simp] theorem place_ring (r : CursorList τ) (hi : s.home i = none)
    (hr : r.items.Perm (i :: (s.ring l).items)) :
    (s.place l i r hi hr).ring = Function.update s.ring l r := rfl

@[simp] theorem insertEnd_ring (hi : s.home i = none) : (s.insertEnd l i hi).ring =
    Function.update s.ring l ((s.ring l).insertEnd i (s.notMem_of_free hi l)) := rfl

@[simp] theorem insertEnd_home (hi : s.home i = none) :
    (s.insertEnd l i hi).home = Function.update s.home i (some l) := rfl

@[simp] theorem insert_ring (p : τ → Bool) (hi : s.home i = none) : (s.insert l p i hi).ring =
    Function.update s.ring l ((s.ring l).insert p i (s.notMem_of_free hi l)) := rfl

@[simp] theorem insert_home (p : τ → Bool) (hi : s.home i = none) :
    (s.insert l p i hi).home = Function.update s.home i (some l) := rfl

@[simp] theorem remove_ring (hi : s.home i = some l) : (s.remove l i hi).ring =
    Function.update s.ring l ((s.ring l).remove i) := rfl

@[simp] theorem remove_home (hi : s.home i = some l) :
    (s.remove l i hi).home = Function.update s.home i none := rfl

theorem next_ring {x : τ} {s' : CursorLists ι τ} (h : s.next l = some (x, s')) :
    ∃ r, (s.ring l).next = some (x, r) ∧ s'.ring = Function.update s.ring l r ∧
      s'.home = s.home := by
  unfold next at h
  split at h
  · cases h
  · rename_i y r hnext
    simp only [Option.some.injEq, Prod.mk.injEq] at h
    obtain ⟨rfl, rfl⟩ := h
    exact ⟨r, hnext, rfl, rfl⟩

theorem next_of_ring {x : τ} {r : CursorList τ} (h : (s.ring l).next = some (x, r)) :
    ∃ s', s.next l = some (x, s') := by
  unfold next
  split
  · rename_i hnone
    rw [hnone] at h
    cases h
  · rename_i y r' hnext
    rw [hnext] at h
    obtain ⟨rfl, rfl⟩ := Prod.mk.inj (Option.some.inj h)
    exact ⟨_, rfl⟩

end Frame

end CursorLists

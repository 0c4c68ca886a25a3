import Mathlib.Data.List.Basic
import Mathlib.Logic.Function.Basic

-- Nodes that are linked by a pointer each.
namespace LinkPath

variable {α : Type}

-- Following `next` from `a` one meets the nodes listed, in that order, and
-- then `z`.
def Path (next : α → α) : α → List α → α → Prop
  | a, [], z => next a = z
  | a, node :: rest, z => next a = node ∧ Path next node rest z

variable {next other : α → α} {a b z : α} {nodes front back : List α}

@[simp] theorem path_nil : Path next a [] z ↔ next a = z := Iff.rfl

@[simp] theorem path_cons : Path next a (b :: nodes) z ↔ next a = b ∧ Path next b nodes z := Iff.rfl

theorem path_append :
    Path next a (front ++ b :: back) z ↔ Path next a front b ∧ Path next b back z := by
  induction front generalizing a with
  | nil => simp
  | cons node front ih => simp [ih, and_assoc]

-- A path reads the pointer of its first node and those of the nodes it lists.
theorem Path.transfer {c : α} (h : Path next a nodes z) (hhead : other c = next a)
    (hsame : ∀ node ∈ nodes, other node = next node) : Path other c nodes z := by
  induction nodes generalizing a c with
  | nil => exact hhead.trans h
  | cons node nodes ih =>
    refine ⟨hhead.trans h.1, ih h.2 (hsame node (by simp)) ?_⟩
    intro member hmember
    exact hsame member (List.mem_cons_of_mem _ hmember)

theorem Path.congr (h : Path next a nodes z)
    (hsame : ∀ node ∈ a :: nodes, other node = next node) : Path other a nodes z := by
  apply h.transfer (hsame a (by simp))
  intro node hnode
  exact hsame node (List.mem_cons_of_mem _ hnode)

variable [DecidableEq α]

-- A write to a pointer that is not on the path leaves the path as it is.
theorem Path.update_of_notMem (h : Path next a nodes z) {node : α} (value : α)
    (hnode : node ∉ a :: nodes) : Path (Function.update next node value) a nodes z := by
  apply h.congr
  intro member hmember
  rw [Function.update_of_ne]
  rintro rfl
  exact hnode hmember

-- The last node of a path, from which its end is reached.
def last (a : α) (nodes : List α) : α := nodes.getLastD a

omit [DecidableEq α] in
@[simp] theorem last_nil : last a [] = a := rfl

omit [DecidableEq α] in
@[simp] theorem last_cons : last a (b :: nodes) = last b nodes := by
  rw [last, last, List.getLastD_cons]

omit [DecidableEq α] in
@[simp] theorem last_append : last a (front ++ [b]) = b := by
  simp [last]

omit [DecidableEq α] in
theorem last_mem : last a nodes ∈ a :: nodes := by
  rcases List.eq_nil_or_concat nodes with rfl | ⟨front, b, rfl⟩
  · simp
  · simp [last]

omit [DecidableEq α] in
theorem Path.next_last (h : Path next a nodes z) : next (last a nodes) = z := by
  rcases List.eq_nil_or_concat nodes with rfl | ⟨front, b, rfl⟩
  · exact h
  · rw [List.concat_eq_append] at h ⊢
    rw [last_append]
    exact (path_append.mp h).2

-- Redirecting the last node leads the path to another end.
theorem Path.redirect (h : Path next a nodes z) (hnodup : (a :: nodes).Nodup) (b : α) :
    Path (Function.update next (last a nodes) b) a nodes b := by
  rcases List.eq_nil_or_concat nodes with rfl | ⟨front, node, rfl⟩
  · simp
  · rw [List.concat_eq_append] at h hnodup ⊢
    rw [last_append]
    obtain ⟨hfront, -⟩ := path_append.mp h
    refine path_append.mpr ⟨hfront.update_of_notMem b ?_, by simp⟩
    intro hmember
    have happend : ((a :: front) ++ [node]).Nodup := by simpa using hnodup
    exact (List.nodup_append.mp happend).2.2 node hmember node (by simp) rfl

-- The node after the last of `front` is taken off the path.
theorem Path.skip (h : Path next a (front ++ b :: back) z)
    (hnodup : (a :: (front ++ b :: back)).Nodup) :
    Path (Function.update next (last a front) (next b)) a (front ++ back) z := by
  obtain ⟨hfront, hback⟩ := path_append.mp h
  rw [← List.cons_append, List.nodup_append] at hnodup
  obtain ⟨hnodup, hrest, hapart⟩ := hnodup
  have hpath := hfront.redirect hnodup (next b)
  cases back with
  | nil =>
    rw [List.append_nil, ← show next b = z from hback]
    exact hpath
  | cons c back =>
    obtain ⟨rfl, hback⟩ := hback
    refine path_append.mpr ⟨hpath, hback.update_of_notMem _ ?_⟩
    intro hmember
    exact hapart _ last_mem _ (List.mem_cons_of_mem _ hmember) rfl

-- A new node is put on the path after the last of `front`.
theorem Path.link (h : Path next a (front ++ back) z) (hnodup : (a :: (front ++ back)).Nodup)
    {c : α} (hc : c ∉ a :: (front ++ back)) :
    Path (Function.update (Function.update next c (next (last a front))) (last a front) c)
      a (front ++ c :: back) z := by
  rw [← List.cons_append] at hc hnodup
  rw [List.nodup_append] at hnodup
  obtain ⟨hnodup, -, hapart⟩ := hnodup
  have hlast : last a front ≠ c := by
    intro heq
    exact hc (List.mem_append_left _ (heq ▸ last_mem))
  have hback : ∀ node ∈ back, node ≠ c ∧ node ≠ last a front := by
    intro node hnode
    refine ⟨?_, fun heq => hapart _ last_mem node hnode heq.symm⟩
    rintro rfl
    exact hc (List.mem_append_right _ hnode)
  refine path_append.mpr ⟨?_, ?_⟩
  · have hfront : ∃ y, Path next a front y := by
      cases back with
      | nil => exact ⟨z, by simpa using h⟩
      | cons node back => exact ⟨node, (path_append.mp h).1⟩
    obtain ⟨y, hfront⟩ := hfront
    apply (hfront.redirect hnodup c).congr
    intro node hnode
    by_cases heq : node = last a front
    · simp [heq]
    · rw [Function.update_of_ne heq, Function.update_of_ne heq, Function.update_of_ne]
      rintro rfl
      exact hc (List.mem_append_left _ hnode)
  · have htail : Path next (last a front) back z := by
      cases back with
      | nil => exact Path.next_last (by simpa using h)
      | cons node back =>
        obtain ⟨hfront, hrest⟩ := path_append.mp h
        exact ⟨hfront.next_last, hrest⟩
    apply htail.transfer
    · rw [Function.update_of_ne hlast.symm, Function.update_self]
    · intro node hnode
      rw [Function.update_of_ne (hback node hnode).2, Function.update_of_ne (hback node hnode).1]

end LinkPath

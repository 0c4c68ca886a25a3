import SpaceBaremetal.Kernel.List
import Mathlib.Data.List.TakeWhile

namespace SpaceBaremetal.Lists

open LinkPath ListNode

section Nodes

variable {ι τ : Type} {l : ι} {i : τ} {front back items : List τ}

def cursorNode (l : ι) : Option τ → ListNode ι τ
  | none => End l
  | some i => Item i

-- The first of the items, or the end of the list when there is none.
def headNode (l : ι) (items : List τ) : ListNode ι τ := last (End l) (items.reverse.map Item)

def lastNode (l : ι) (items : List τ) : ListNode ι τ := last (End l) (items.map Item)

@[simp] theorem headNode_nil : headNode l ([] : List τ) = End l := rfl

@[simp] theorem headNode_cons : headNode l (i :: back) = Item i := by
  simp [headNode]

@[simp] theorem lastNode_nil : lastNode l ([] : List τ) = End l := rfl

@[simp] theorem lastNode_append : lastNode l (front ++ [i]) = Item i := by
  simp [lastNode]

theorem lastNode_mem : lastNode l front ∈ End l :: front.map Item := last_mem

theorem headNode_mem : headNode l back ∈ End l :: back.map Item := by
  have hmem : headNode l back ∈ End l :: back.reverse.map Item := last_mem
  simpa using hmem

-- The nodes of a list are different.
theorem nodes_nodup (hnodup : items.Nodup) :
    (End l :: items.map (Item : τ → ListNode ι τ)).Nodup := by
  rw [List.nodup_cons]
  refine ⟨by simp, hnodup.map ?_⟩
  intro a b hab
  exact Item.inj hab

end Nodes

variable {ι τ : Type} [DecidableEq ι] [DecidableEq τ]

-- The memory holds these lists: both ways round each of them one meets its
-- items, and an item knows the list that it is on.
structure Represents (lists : Lists ι τ) (rings : ι → CursorList τ) : Prop where
  next : ∀ l, Path lists.pxNext (End l) ((rings l).items.map Item) (End l)
  previous : ∀ l, Path lists.pxPrevious (End l) ((rings l).items.reverse.map Item) (End l)
  endValue : ∀ l, lists.xItemValue (End l) = listMAX_VALUE
  index : ∀ l, lists.pxIndex l = cursorNode l (rings l).cursor
  count : ∀ l, lists.uxNumberOfItems l = (rings l).items.length
  container : ∀ i l, lists.pxContainer i = some l ↔ i ∈ (rings l).items

variable {lists : Lists ι τ} {rings : ι → CursorList τ} {l : ι} {i : τ} {front back : List τ}

omit [DecidableEq ι] [DecidableEq τ] in
-- What the neighbours of a place in a list point to.
theorem Represents.neighbours (h : Represents lists rings)
    (hitems : (rings l).items = front ++ back) :
    lists.pxNext (lastNode l front) = headNode l back ∧
      lists.pxPrevious (headNode l back) = lastNode l front := by
  have hnext := h.next l
  have hprevious := h.previous l
  rw [hitems] at hnext hprevious
  rw [List.reverse_append, List.map_append] at hprevious
  rw [List.map_append] at hnext
  constructor
  · cases back with
    | nil => exact Path.next_last (by simpa using hnext)
    | cons b back =>
      rw [headNode_cons]
      exact (path_append.mp hnext).1.next_last
  · obtain rfl | ⟨pre, a, rfl⟩ := List.eq_nil_or_concat' front
    · rw [List.reverse_nil, List.map_nil, List.append_nil] at hprevious
      exact hprevious.next_last
    · rw [lastNode_append]
      rw [List.reverse_append, List.reverse_singleton, List.singleton_append, List.map_cons]
        at hprevious
      exact (path_append.mp hprevious).1.next_last

omit [DecidableEq ι] [DecidableEq τ] in
-- An item on a list is not on another.
theorem Represents.notMem_of_mem (h : Represents lists rings) {other : ι}
    (hi : i ∈ (rings l).items) (hne : other ≠ l) : i ∉ (rings other).items := by
  intro hother
  have hl := (h.container i l).mpr hi
  rw [(h.container i other).mpr hother] at hl
  exact hne (Option.some.inj hl)

omit [DecidableEq ι] [DecidableEq τ] in
-- The nodes of the other lists are other nodes.
theorem Represents.other_ne (h : Represents lists rings) {other : ι} (hne : other ≠ l)
    {items : List τ} (hitems : ∀ a ∈ items, a ∈ (rings l).items) {node node' : ListNode ι τ}
    (hnode : node ∈ End l :: items.map Item)
    (hnode' : node' ∈ End other :: (rings other).items.map Item) : node' ≠ node := by
  rintro rfl
  obtain rfl | hnode := List.mem_cons.mp hnode
  · obtain heq | hnode' := List.mem_cons.mp hnode'
    · exact hne (End.inj heq).symm
    · simp at hnode'
  · obtain ⟨a, ha, rfl⟩ := List.mem_map.mp hnode
    obtain heq | hnode' := List.mem_cons.mp hnode'
    · cases heq
    · obtain ⟨b, hb, heq⟩ := List.mem_map.mp hnode'
      obtain rfl := Item.inj heq
      exact h.notMem_of_mem (hitems b ha) hne hb

section Insert

-- The pointers after an item is linked in between `front` and `back`.
structure LinkedBetween (lists after : Lists ι τ) (l : ι) (front back : List τ) (i : τ) : Prop where
  next : after.pxNext = Function.update (Function.update lists.pxNext (Item i)
    (headNode l back)) (lastNode l front) (Item i)
  previous : after.pxPrevious = Function.update (Function.update lists.pxPrevious (Item i)
    (lastNode l front)) (headNode l back) (Item i)
  value : after.xItemValue = lists.xItemValue
  index : after.pxIndex = lists.pxIndex
  count : after.uxNumberOfItems =
    Function.update lists.uxNumberOfItems l (lists.uxNumberOfItems l + 1)
  container : after.pxContainer = Function.update lists.pxContainer i (some l)

theorem Represents.linkBetween (h : Represents lists rings) {after : Lists ι τ}
    (hlinked : LinkedBetween lists after l front back i)
    (hitems : (rings l).items = front ++ back) (hfree : lists.pxContainer i = none)
    {r : CursorList τ} (hr : r.items = front ++ i :: back) (hcursor : r.cursor = (rings l).cursor) :
    Represents after (Function.update rings l r) := by
  obtain ⟨hprevNext, hnextPrev⟩ := h.neighbours hitems
  have hfresh : ∀ other, i ∉ (rings other).items := by
    intro other hmem
    rw [(h.container i other).mpr hmem] at hfree
    cases hfree
  have hfront : ∀ a ∈ front, a ∈ (rings l).items := fun a ha => by simp [hitems, ha]
  have hback : ∀ a ∈ back, a ∈ (rings l).items := fun a ha => by simp [hitems, ha]
  have hnodup := (rings l).nodup
  -- the new item's node is on no list
  have hnew : ∀ other, Item i ∉ End other :: (rings other).items.map Item := by
    intro other hmem
    obtain heq | hmem := List.mem_cons.mp hmem
    · cases heq
    · obtain ⟨a, ha, heq⟩ := List.mem_map.mp hmem
      exact hfresh other (Item.inj heq ▸ ha)
  refine ⟨?_, ?_, ?_, ?_, ?_, ?_⟩
  · intro other
    rw [hlinked.next]
    by_cases heq : other = l
    · subst heq
      have hpath := h.next other
      have hnodes := nodes_nodup (l := other) hnodup
      have hout := hnew other
      rw [hitems, List.map_append] at hpath hnodes hout
      rw [Function.update_self, hr, List.map_append, List.map_cons, ← hprevNext]
      exact hpath.link hnodes hout
    · rw [Function.update_of_ne heq]
      apply (h.next other).congr
      intro node hnode
      rw [Function.update_of_ne (h.other_ne heq hfront lastNode_mem hnode), Function.update_of_ne]
      rintro rfl
      exact hnew other hnode
  · intro other
    rw [hlinked.previous]
    by_cases heq : other = l
    · subst heq
      have hpath := h.previous other
      have hnodes := nodes_nodup (l := other) (List.nodup_reverse.mpr hnodup)
      have hout : Item i ∉ End other :: (rings other).items.reverse.map Item := by
        simpa using hnew other
      rw [hitems, List.reverse_append, List.map_append] at hpath hnodes hout
      rw [Function.update_self, hr, List.reverse_append, List.reverse_cons, List.append_assoc,
        List.singleton_append, List.map_append, List.map_cons, ← hnextPrev]
      exact hpath.link hnodes hout
    · rw [Function.update_of_ne heq]
      apply (h.previous other).congr
      intro node hnode
      have hnode' : node ∈ End other :: (rings other).items.map Item := by simpa using hnode
      rw [Function.update_of_ne (h.other_ne heq hback headNode_mem hnode'), Function.update_of_ne]
      rintro rfl
      exact hnew other hnode'
  · intro other
    rw [hlinked.value]
    exact h.endValue other
  · intro other
    rw [hlinked.index, h.index]
    by_cases heq : other = l
    · subst heq
      rw [Function.update_self, hcursor]
    · rw [Function.update_of_ne heq]
  · intro other
    rw [hlinked.count]
    by_cases heq : other = l
    · subst heq
      rw [Function.update_self, Function.update_self, h.count, hitems, hr]
      simp
      omega
    · rw [Function.update_of_ne heq, Function.update_of_ne heq, h.count]
  · intro a other
    rw [hlinked.container]
    by_cases hai : a = i
    · subst hai
      rw [Function.update_self]
      by_cases heq : other = l
      · subst heq
        simp [hr]
      · rw [Function.update_of_ne heq]
        simp [Ne.symm heq, hfresh other]
    · rw [Function.update_of_ne hai]
      by_cases heq : other = l
      · subst heq
        rw [Function.update_self, h.container, hitems, hr]
        simp [hai]
      · rw [Function.update_of_ne heq]
        exact h.container a other

omit [DecidableEq ι] [DecidableEq τ] in
theorem notMem_nodes {items : List τ} (hi : i ∉ items) {node : ListNode ι τ}
    (hnode : node ∈ End l :: items.map Item) : node ≠ Item i := by
  rintro rfl
  apply hi
  simpa using hnode

omit [DecidableEq ι] in
-- Where the item goes in front of the cursor.
theorem insertBefore_split (r : CursorList τ) (x : τ) : ∃ front back, r.items = front ++ back ∧
    CursorList.insertBefore r.cursor x r.items = front ++ x :: back ∧
      headNode l back = cursorNode l r.cursor := by
  cases hcursor : r.cursor with
  | none => exact ⟨r.items, [], by simp, rfl, rfl⟩
  | some c =>
    obtain ⟨pre, post, hitems, hpre, -⟩ := CursorList.cursor_split hcursor
    refine ⟨pre, c :: post, hitems, ?_, headNode_cons⟩
    rw [hitems, CursorList.insertBefore, CursorList.before_append hpre, CursorList.after_append hpre]

theorem vListInsertEnd_refines (h : Represents lists rings) (hfree : lists.pxContainer i = none)
    (hi : i ∉ (rings l).items) :
    Represents (vListInsertEnd l i lists)
      (Function.update rings l ((rings l).insertEnd i hi)) := by
  obtain ⟨front, back, hitems, hinserted, hhead⟩ := insertBefore_split (l := l) (rings l) i
  obtain ⟨-, hprevious⟩ := h.neighbours hitems
  have hne : lists.pxIndex l ≠ Item i := by
    rw [h.index, ← hhead]
    apply notMem_nodes _ headNode_mem
    exact fun hmem => hi (by simp [hitems, hmem])
  refine h.linkBetween ?_ hitems hfree hinserted rfl
  refine ⟨?_, ?_, rfl, rfl, rfl, rfl⟩
  · simp only [vListInsertEnd, setNext, setPrevious, setContainer, setCount,
      Function.update_of_ne hne]
    rw [h.index, ← hhead, hprevious]
  · simp only [vListInsertEnd, setNext, setPrevious, setContainer, setCount]
    rw [h.index, ← hhead, hprevious]

theorem le_listMAX_VALUE (value : BitVec 64) : value ≤ listMAX_VALUE := by
  rw [listMAX_VALUE, BitVec.le_def, BitVec.toNat_allOnes]
  omega

theorem not_listMAX_VALUE_le {value : BitVec 64} (h : value ≠ listMAX_VALUE) :
    ¬ listMAX_VALUE ≤ value := by
  intro hle
  exact h (BitVec.le_antisymm (le_listMAX_VALUE value) hle)

omit [DecidableEq ι] [DecidableEq τ] in
-- The loop ends at the last item whose value is not above the new one: the end
-- of the list has a value above it.
theorem findPosition_spec {value : BitVec 64} (hend : lists.xItemValue (End l) = listMAX_VALUE)
    (hvalue : value ≠ listMAX_VALUE) {items : List τ} {node : ListNode ι τ}
    (hpath : Path lists.pxNext node (items.map Item) (End l)) {fuel : Nat}
    (hfuel : items.length < fuel) :
    findPosition lists value fuel node = some (last node ((items.takeWhile fun a =>
      decide (lists.xItemValue (Item a) ≤ value)).map Item)) := by
  induction items generalizing node fuel with
  | nil =>
    obtain ⟨fuel, rfl⟩ : ∃ n, fuel = n + 1 := ⟨fuel - 1, by simp at hfuel; omega⟩
    have hnext : lists.pxNext node = End l := hpath
    rw [findPosition, hnext, hend, if_neg (not_listMAX_VALUE_le hvalue)]
    simp
  | cons a items ih =>
    obtain ⟨fuel, rfl⟩ : ∃ n, fuel = n + 1 := ⟨fuel - 1, by simp at hfuel; omega⟩
    obtain ⟨hnext, hrest⟩ := path_cons.mp hpath
    rw [findPosition, hnext]
    by_cases hle : lists.xItemValue (Item a) ≤ value
    · rw [if_pos hle, ih hrest (by simp at hfuel; omega), List.takeWhile_cons]
      simp [hle]
    · rw [if_neg hle, List.takeWhile_cons]
      simp [hle]

-- Where the item goes among the others.
def notAbove (value : τ → BitVec 64) (i a : τ) : Bool := decide (value a ≤ value i)

def values (lists : Lists ι τ) (i : τ) : BitVec 64 := lists.xItemValue (Item i)

omit [DecidableEq ι] [DecidableEq τ] in
theorem Represents.pxIterator_eq (h : Represents lists rings) (l : ι) (i : τ) {fuel : Nat}
    (hfuel : (rings l).items.length < fuel) :
    lists.pxIterator fuel l (lists.values i) =
      some (lastNode l ((rings l).items.takeWhile (notAbove lists.values i))) := by
  unfold pxIterator
  split
  · rename_i hmax
    have hall : (rings l).items.takeWhile (notAbove lists.values i) = (rings l).items := by
      rw [List.takeWhile_eq_self_iff]
      intro a _
      rw [notAbove, hmax]
      exact decide_eq_true (le_listMAX_VALUE _)
    have hback := (h.neighbours (List.append_nil (rings l).items).symm).2
    rw [hall, ← hback, headNode_nil]
  · rename_i hvalue
    exact findPosition_spec (h.endValue l) hvalue (h.next l) hfuel

theorem vListInsert_refines (h : Represents lists rings) (hfree : lists.pxContainer i = none)
    (hi : i ∉ (rings l).items) {fuel : Nat} (hfuel : (rings l).items.length < fuel) :
    ∃ after, vListInsert fuel l i lists = some after ∧
      Represents after (Function.update rings l
        ((rings l).insert (notAbove lists.values i) i hi)) ∧
      after.pxContainer = Function.update lists.pxContainer i (some l) ∧
      after.values = lists.values := by
  have hposition : lists.pxIterator fuel l (lists.xItemValue (Item i)) =
      some (lastNode l ((rings l).items.takeWhile (notAbove lists.values i))) :=
    h.pxIterator_eq l i hfuel
  have hsplit : (rings l).items = (rings l).items.takeWhile (notAbove lists.values i) ++
      (rings l).items.dropWhile (notAbove lists.values i) := List.takeWhile_append_dropWhile.symm
  have hhead : headNode l ((rings l).items.dropWhile (notAbove lists.values i)) ≠ Item i := by
    apply notMem_nodes _ headNode_mem
    exact fun hmem => hi ((List.dropWhile_suffix _).subset hmem)
  obtain ⟨hnext, -⟩ := h.neighbours hsplit
  rw [vListInsert, hposition]
  refine ⟨_, rfl, ?_, rfl, rfl⟩
  refine h.linkBetween (r := (rings l).insert (notAbove lists.values i) i hi) ?_ hsplit hfree rfl rfl
  refine ⟨?_, ?_, rfl, rfl, rfl, rfl⟩
  · simp only [setNext, setPrevious, setContainer, setCount]
    rw [hnext]
  · simp only [setNext, setPrevious, setContainer, setCount, Function.update_self]
    rw [hnext, Function.update_comm hhead]

end Insert

section Remove

-- The pointers after the item between `front` and `back` is taken off its list.
structure Unlinked (lists after : Lists ι τ) (l : ι) (front back : List τ) (i : τ) : Prop where
  next : after.pxNext = Function.update lists.pxNext (lastNode l front) (lists.pxNext (Item i))
  previous : after.pxPrevious =
    Function.update lists.pxPrevious (headNode l back) (lists.pxPrevious (Item i))
  value : after.xItemValue = lists.xItemValue
  index : after.pxIndex = Function.update lists.pxIndex l
    (if lists.pxIndex l = Item i then lastNode l front else lists.pxIndex l)
  count : after.uxNumberOfItems =
    Function.update lists.uxNumberOfItems l (lists.uxNumberOfItems l - 1)
  container : after.pxContainer = Function.update lists.pxContainer i none

theorem Represents.unlinked (h : Represents lists rings)
    (hitems : (rings l).items = front ++ i :: back) :
    Unlinked lists (unlink l i lists) l front back i := by
  have hnodup := (rings l).nodup
  rw [hitems, List.nodup_append, List.nodup_cons] at hnodup
  obtain ⟨-, ⟨hback, -⟩, -⟩ := hnodup
  have hprevious : lists.pxPrevious (Item i) = lastNode l front := by
    rw [← (h.neighbours hitems).2, headNode_cons]
  have hnext : lists.pxNext (Item i) = headNode l back := by
    have hitems' : (rings l).items = (front ++ [i]) ++ back := by simp [hitems]
    rw [← (h.neighbours hitems').1, lastNode_append]
  have hne : headNode l back ≠ Item i := notMem_nodes hback headNode_mem
  by_cases hindex : lists.pxIndex l = Item i
  · constructor <;> simp [unlink, setPrevious, setNext, setIndex, setContainer, setCount, hindex,
      hnext, hprevious, Function.update_of_ne hne.symm]
  · constructor <;> simp [unlink, setPrevious, setNext, setContainer, setCount, hindex, hnext,
      hprevious, Function.update_of_ne hne.symm]

theorem Represents.unlink (h : Represents lists rings) (hmem : i ∈ (rings l).items) :
    Represents (Lists.unlink l i lists) (Function.update rings l ((rings l).remove i)) := by
  obtain ⟨front, back, hitems, hfront⟩ := CursorList.exists_split hmem
  have hunlinked := h.unlinked hitems
  have hnodup := (rings l).nodup
  have hremoved : ((rings l).remove i).items = front ++ back := by
    simp only [CursorList.remove, hitems, CursorList.erase_append hfront]
  have hkept : ∀ a ∈ front ++ back, a ∈ (rings l).items := by
    intro a ha
    rw [hitems]
    simp only [List.mem_append, List.mem_cons] at ha ⊢
    tauto
  refine ⟨?_, ?_, ?_, ?_, ?_, ?_⟩
  · intro other
    rw [hunlinked.next]
    by_cases heq : other = l
    · subst heq
      have hpath := h.next other
      have hnodes := nodes_nodup (l := other) hnodup
      rw [hitems, List.map_append, List.map_cons] at hpath hnodes
      rw [Function.update_self, hremoved, List.map_append]
      exact hpath.skip hnodes
    · rw [Function.update_of_ne heq]
      apply (h.next other).congr
      intro node hnode
      rw [Function.update_of_ne]
      exact h.other_ne heq (fun a ha => hkept a (by simp [ha])) lastNode_mem hnode
  · intro other
    rw [hunlinked.previous]
    by_cases heq : other = l
    · subst heq
      have hpath := h.previous other
      have hnodes := nodes_nodup (l := other) (List.nodup_reverse.mpr hnodup)
      rw [hitems, List.reverse_append, List.reverse_cons, List.append_assoc, List.singleton_append,
        List.map_append, List.map_cons] at hpath hnodes
      rw [Function.update_self, hremoved, List.reverse_append, List.map_append]
      exact hpath.skip hnodes
    · rw [Function.update_of_ne heq]
      apply (h.previous other).congr
      intro node hnode
      have hnode' : node ∈ End other :: (rings other).items.map Item := by simpa using hnode
      rw [Function.update_of_ne]
      exact h.other_ne heq (fun a ha => hkept a (by simp [ha])) headNode_mem hnode'
  · intro other
    rw [hunlinked.value]
    exact h.endValue other
  · intro other
    rw [hunlinked.index]
    by_cases heq : other = l
    · subst heq
      rw [Function.update_self, Function.update_self, h.index]
      cases hcursor : (rings other).cursor with
      | none => simp [cursorNode, CursorList.remove, hcursor]
      | some c =>
        by_cases hci : c = i
        · subst hci
          have hback : CursorList.predecessor c (rings other).items = front.getLast? := by
            rw [hitems, CursorList.predecessor, CursorList.before_append hfront]
          obtain rfl | ⟨pre, p, rfl⟩ := List.eq_nil_or_concat' front
          · simp [cursorNode, CursorList.remove, hcursor, hback]
          · simp [cursorNode, CursorList.remove, hcursor, hback]
        · simp [cursorNode, CursorList.remove, hcursor, hci]
    · rw [Function.update_of_ne heq, Function.update_of_ne heq]
      exact h.index other
  · intro other
    rw [hunlinked.count]
    by_cases heq : other = l
    · subst heq
      rw [Function.update_self, Function.update_self, h.count, hremoved, hitems]
      simp
    · rw [Function.update_of_ne heq, Function.update_of_ne heq, h.count]
  · intro a other
    rw [hunlinked.container]
    by_cases hai : a = i
    · subst hai
      rw [Function.update_self]
      by_cases heq : other = l
      · subst heq
        rw [Function.update_self]
        simp [CursorList.remove, hnodup.not_mem_erase]
      · rw [Function.update_of_ne heq]
        simp [h.notMem_of_mem hmem heq]
    · rw [Function.update_of_ne hai]
      by_cases heq : other = l
      · subst heq
        rw [Function.update_self, h.container]
        simp [CursorList.remove, List.mem_erase_of_ne hai]
      · rw [Function.update_of_ne heq]
        exact h.container a other

theorem uxListRemove_refines (h : Represents lists rings) (hi : lists.pxContainer i = some l) :
    ∃ after, uxListRemove i lists = some (((rings l).remove i).items.length, after) ∧
      Represents after (Function.update rings l ((rings l).remove i)) ∧
      after.pxContainer = Function.update lists.pxContainer i none ∧
      after.values = lists.values := by
  have hmem := (h.container i l).mp hi
  obtain ⟨front, back, hitems, -⟩ := CursorList.exists_split hmem
  have hunlinked := h.unlinked hitems
  have hafter := h.unlink hmem
  refine ⟨_, ?_, hafter, hunlinked.container, ?_⟩
  rotate_left
  · funext a
    rw [values, hunlinked.value]
    rfl
  have hcount := hafter.count l
  rw [Function.update_self] at hcount
  rw [uxListRemove, hi, ← hcount]
  rfl

end Remove

section Walk

omit [DecidableEq ι] [DecidableEq τ] in
-- The end of the list is passed over.
theorem Represents.next_cursor (h : Represents lists rings) [DecidableEq τ] {x : τ}
    {rest : List τ} (horder : (rings l).order = x :: rest) :
    (lists.pxNext (cursorNode l (rings l).cursor) = End l ∧ lists.pxNext (End l) = Item x) ∨
      lists.pxNext (cursorNode l (rings l).cursor) = Item x := by
  have hfirst : ∀ {a : τ} {items : List τ}, (rings l).items = a :: items →
      lists.pxNext (End l) = Item a := by
    intro a items hitems
    have hitems' : (rings l).items = [] ++ a :: items := hitems
    have hnext := (h.neighbours hitems').1
    rwa [lastNode_nil, headNode_cons] at hnext
  cases hcursor : (rings l).cursor with
  | none =>
    rw [CursorList.order_of_none hcursor] at horder
    exact .inr (hfirst horder)
  | some c =>
    obtain ⟨pre, post, hitems, -, hsplit⟩ := CursorList.cursor_split hcursor
    rw [hsplit] at horder
    have hnext : lists.pxNext (Item c) = headNode l post := by
      have hitems' : (rings l).items = (pre ++ [c]) ++ post := by simp [hitems]
      rw [← (h.neighbours hitems').1, lastNode_append]
    cases post with
    | nil =>
      have hitems' : (rings l).items = x :: rest := by rw [hitems, ← horder, List.nil_append]
      exact .inl ⟨by rw [cursorNode, hnext, headNode_nil], hfirst hitems'⟩
    | cons q post =>
      obtain ⟨rfl, -⟩ := List.cons.inj horder
      exact .inr (by rw [cursorNode, hnext, headNode_cons])

theorem listGET_OWNER_OF_NEXT_ENTRY_refines (h : Represents lists rings) {x : τ}
    {r : CursorList τ} (hnext : (rings l).next = some (x, r)) :
    ∃ after, listGET_OWNER_OF_NEXT_ENTRY l lists = (Item x, after) ∧
      Represents after (Function.update rings l r) ∧ after.pxContainer = lists.pxContainer ∧
      after.values = lists.values := by
  obtain ⟨rest, horder, -, hitems, hcursor⟩ := CursorList.next_order hnext
  have hindex : listGET_OWNER_OF_NEXT_ENTRY l lists = (Item x, lists.setIndex l (Item x)) := by
    unfold listGET_OWNER_OF_NEXT_ENTRY
    obtain ⟨hend, hfirst⟩ | hitem := h.next_cursor horder
    · simp [setIndex, h.index, hend, hfirst]
    · simp [setIndex, h.index, hitem]
  refine ⟨_, hindex, ?_, rfl, rfl⟩
  have hsame : ∀ other, (Function.update rings l r other).items = (rings other).items := by
    intro other
    by_cases heq : other = l
    · rw [heq, Function.update_self, hitems]
    · rw [Function.update_of_ne heq]
  refine ⟨?_, ?_, h.endValue, ?_, ?_, ?_⟩
  · intro other
    rw [hsame]
    exact h.next other
  · intro other
    rw [hsame]
    exact h.previous other
  · intro other
    show Function.update lists.pxIndex l (Item x) other = _
    by_cases heq : other = l
    · rw [heq, Function.update_self, Function.update_self, hcursor]
      rfl
    · rw [Function.update_of_ne heq, Function.update_of_ne heq]
      exact h.index other
  · intro other
    rw [hsame]
    exact h.count other
  · intro a other
    rw [hsame]
    exact h.container a other

omit [DecidableEq ι] [DecidableEq τ] in
theorem listGET_OWNER_OF_HEAD_ENTRY_refines (h : Represents lists rings) (l : ι) :
    listGET_OWNER_OF_HEAD_ENTRY l lists = headNode l (rings l).items := by
  exact (h.neighbours (List.nil_append (rings l).items).symm).1

omit [DecidableEq ι] [DecidableEq τ] in
theorem listLIST_IS_EMPTY_refines (h : Represents lists rings) (l : ι) :
    listLIST_IS_EMPTY l lists = (rings l).items.isEmpty := by
  rw [listLIST_IS_EMPTY, h.count]
  cases (rings l).items with
  | nil => rfl
  | cons a items => rfl

end Walk

section Initialise

def emptyRing : CursorList τ := ⟨[], none, List.nodup_nil, CursorList.cursor_mem_nil⟩

-- What `vListInitialise` writes.
structure Initialised (lists : Lists ι τ) (l : ι) : Prop where
  next : lists.pxNext (End l) = End l
  previous : lists.pxPrevious (End l) = End l
  endValue : lists.xItemValue (End l) = listMAX_VALUE
  index : lists.pxIndex l = End l
  count : lists.uxNumberOfItems l = 0

theorem vListInitialise_self (l : ι) (lists : Lists ι τ) :
    Initialised (vListInitialise l lists) l := by
  constructor <;> simp [vListInitialise, setIndex, setValue, setNext, setPrevious, setCount]

theorem vListInitialise_keeps {other : ι} (h : Initialised lists other) (l : ι) :
    Initialised (vListInitialise l lists) other := by
  by_cases heq : other = l
  · rw [heq]
    exact vListInitialise_self l lists
  · constructor <;> simp [vListInitialise, setIndex, setValue, setNext, setPrevious, setCount, heq,
      h.next, h.previous, h.endValue, h.index, h.count]

theorem initialised_of_mem {names : List ι} {lists : Lists ι τ}
    (h : l ∈ names ∨ Initialised lists l) :
    Initialised (names.foldl (fun lists l => vListInitialise l lists) lists) l := by
  induction names generalizing lists with
  | nil => exact h.resolve_left (by simp)
  | cons name names ih =>
    rw [List.foldl_cons]
    apply ih
    obtain hmem | hdone := h
    · obtain rfl | hmem := List.mem_cons.mp hmem
      · exact .inr (vListInitialise_self _ lists)
      · exact .inl hmem
    · exact .inr (vListInitialise_keeps hdone name)

theorem initialise_container (names : List ι) (lists : Lists ι τ) :
    (names.foldl (fun lists l => vListInitialise l lists) lists).pxContainer =
      lists.pxContainer := by
  induction names generalizing lists with
  | nil => rfl
  | cons name names ih => rw [List.foldl_cons, ih, vListInitialise]; rfl

theorem initialise_values (names : List ι) (lists : Lists ι τ) :
    (names.foldl (fun lists l => vListInitialise l lists) lists).values = lists.values := by
  induction names generalizing lists with
  | nil => rfl
  | cons name names ih =>
    rw [List.foldl_cons, ih]
    funext i
    simp [vListInitialise, values, setIndex, setValue, setNext, setPrevious, setCount]

omit [DecidableEq ι] [DecidableEq τ] in
theorem represents_of_initialised (hdone : ∀ l, Initialised lists l)
    (hfree : ∀ i, lists.pxContainer i = none) : Represents lists (fun _ => emptyRing) := by
  refine ⟨fun l => (hdone l).next, fun l => (hdone l).previous, fun l => (hdone l).endValue,
    fun l => (hdone l).index, fun l => (hdone l).count, ?_⟩
  intro i l
  rw [hfree]
  simp [emptyRing]

end Initialise

end SpaceBaremetal.Lists

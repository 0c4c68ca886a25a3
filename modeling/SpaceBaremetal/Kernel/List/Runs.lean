import SpaceBaremetal.Kernel.List.Refinement
import SpaceBaremetal.Lib.Calls
import SpaceBaremetal.Lib.CursorLists
import Mathlib.Data.Fintype.Card

namespace SpaceBaremetal.Lists

open ListNode Calls

-- The uses that the kernel makes of its lists.
inductive Use (ι τ : Type)
  | SetItemValue (i : τ) (value : BitVec 64)
  | InsertEnd (l : ι) (i : τ)
  | Insert (l : ι) (i : τ)
  | Remove (i : τ)
  | OwnerOfNextEntry (l : ι)
  | OwnerOfHeadEntry (l : ι)
  | ItemValueOfHeadEntry (l : ι)
  | IsEmpty (l : ι)
deriving DecidableEq, Repr

inductive Answer (ι τ : Type)
  | Done
  | Remaining (count : Nat)
  | Owner (node : ListNode ι τ)
  | Value (value : BitVec 64)
  | Empty (answer : Bool)
deriving DecidableEq, Repr

variable {ι τ : Type} [DecidableEq ι] [DecidableEq τ]

def perform (fuel : Nat) (use : Use ι τ) (lists : Lists ι τ) : Option (Answer ι τ × Lists ι τ) :=
  match use with
  | .SetItemValue i value => some (.Done, lists.setValue (Item i) value)
  | .InsertEnd l i => some (.Done, vListInsertEnd l i lists)
  | .Insert l i => do
    let lists ← vListInsert fuel l i lists
    some (.Done, lists)
  | .Remove i => do
    let (count, lists) ← uxListRemove i lists
    some (.Remaining count, lists)
  | .OwnerOfNextEntry l =>
    let (node, lists) := listGET_OWNER_OF_NEXT_ENTRY l lists
    some (.Owner node, lists)
  | .OwnerOfHeadEntry l => some (.Owner (listGET_OWNER_OF_HEAD_ENTRY l lists), lists)
  | .ItemValueOfHeadEntry l => some (.Value (listGET_ITEM_VALUE_OF_HEAD_ENTRY l lists), lists)
  | .IsEmpty l => some (.Empty (listLIST_IS_EMPTY l lists), lists)

-- What the lists are for: each item has a value and is on one list at most.
structure KeyedLists (ι τ : Type) where
  lists : CursorLists ι τ
  value : τ → BitVec 64

-- `none` when the kernel must not make this use: an item that is on a list is
-- not put on one, and there is no entry to look at on an empty list.
def KeyedLists.perform (use : Use ι τ) (s : KeyedLists ι τ) : Option (Answer ι τ × KeyedLists ι τ) :=
  match use with
  | .SetItemValue i value => some (.Done, { s with value := Function.update s.value i value })
  | .InsertEnd l i =>
    if h : s.lists.home i = none then
      some (.Done, { s with lists := s.lists.insertEnd l i h })
    else
      none
  | .Insert l i =>
    if h : s.lists.home i = none then
      some (.Done, { s with lists := s.lists.insert l (notAbove s.value i) i h })
    else
      none
  | .Remove i =>
    match h : s.lists.home i with
    | none => none
    | some l =>
      let lists := s.lists.remove l i h
      some (.Remaining (lists.ring l).items.length, { s with lists := lists })
  | .OwnerOfNextEntry l => do
    let (x, lists) ← s.lists.next l
    some (.Owner (Item x), { s with lists := lists })
  | .OwnerOfHeadEntry l => do
    let x ← (s.lists.ring l).items.head?
    some (.Owner (Item x), s)
  | .ItemValueOfHeadEntry l => do
    let x ← (s.lists.ring l).items.head?
    some (.Value (s.value x), s)
  | .IsEmpty l => some (.Empty (s.lists.ring l).items.isEmpty, s)

-- The memory holds these lists.
structure Holds (lists : Lists ι τ) (s : KeyedLists ι τ) : Prop where
  represents : Represents lists s.lists.ring
  home : lists.pxContainer = s.lists.home
  value : lists.values = s.value

section Simulation

variable {lists : Lists ι τ} {s s' : KeyedLists ι τ} {answer : Answer ι τ} {l : ι} {i : τ}

theorem holds_setItemValue (h : Holds lists s) (i : τ) (value : BitVec 64) :
    Holds (lists.setValue (Item i) value)
      { s with value := Function.update s.value i value } := by
  obtain ⟨hlists, hhome, hvalue⟩ := h
  refine ⟨⟨hlists.next, hlists.previous, ?_, hlists.index, hlists.count, hlists.container⟩,
    hhome, ?_⟩
  · intro l
    rw [← hlists.endValue l]
    simp [setValue]
  · rw [← hvalue]
    funext a
    by_cases heq : a = i
    · simp [values, setValue, heq]
    · simp [values, setValue, heq]

theorem perform_insertEnd (h : Holds lists s) (hi : s.lists.home i = none) :
    Holds (vListInsertEnd l i lists) { s with lists := s.lists.insertEnd l i hi } := by
  have hfree : lists.pxContainer i = none := by rw [h.home, hi]
  refine ⟨vListInsertEnd_refines h.represents hfree (s.lists.notMem_of_free hi l), ?_, h.value⟩
  rw [CursorLists.insertEnd_home, ← h.home]
  rfl

theorem perform_insert (h : Holds lists s) (hi : s.lists.home i = none) {fuel : Nat}
    (hfuel : (s.lists.ring l).items.length < fuel) :
    ∃ after, vListInsert fuel l i lists = some after ∧
      Holds after { s with lists := s.lists.insert l (notAbove s.value i) i hi } := by
  have hfree : lists.pxContainer i = none := by rw [h.home, hi]
  obtain ⟨after, hafter, hrings, hcontainer, hvalues⟩ :=
    vListInsert_refines h.represents hfree (s.lists.notMem_of_free hi l) hfuel
  refine ⟨after, hafter, ?_, ?_, hvalues.trans h.value⟩
  · rw [h.value] at hrings
    exact hrings
  · rw [hcontainer, h.home, CursorLists.insert_home]

theorem perform_remove (h : Holds lists s) (hi : s.lists.home i = some l) :
    ∃ after, uxListRemove i lists = some (((s.lists.remove l i hi).ring l).items.length, after) ∧
      Holds after { s with lists := s.lists.remove l i hi } := by
  have hcontainer : lists.pxContainer i = some l := by rw [h.home, hi]
  obtain ⟨after, hafter, hrings, hhome, hvalues⟩ := uxListRemove_refines h.represents hcontainer
  refine ⟨after, ?_, hrings, ?_, hvalues.trans h.value⟩
  · rw [hafter, CursorLists.remove_ring, Function.update_self]
  · rw [hhome, h.home, CursorLists.remove_home]

theorem perform_next (h : Holds lists s) {x : τ} {after : CursorLists ι τ}
    (hnext : s.lists.next l = some (x, after)) :
    ∃ lists', listGET_OWNER_OF_NEXT_ENTRY l lists = (Item x, lists') ∧
      Holds lists' { s with lists := after } := by
  obtain ⟨r, hr, hring, hhome⟩ := CursorLists.next_ring hnext
  obtain ⟨lists', hlists', hrings, hcontainer, hvalues⟩ :=
    listGET_OWNER_OF_NEXT_ENTRY_refines h.represents hr
  refine ⟨lists', hlists', ?_, ?_, hvalues.trans h.value⟩
  · rw [hring]
    exact hrings
  · rw [hcontainer, h.home, hhome]

-- One use of the lists in memory does what it is for.
theorem perform_simulates [Fintype τ] {fuel : Nat} (hfuel : Fintype.card τ < fuel)
    (use : Use ι τ) (h : Holds lists s) (hs : s.perform use = some (answer, s')) :
    ∃ after, perform fuel use lists = some (answer, after) ∧ Holds after s' := by
  have hlength : ∀ l, (s.lists.ring l).items.length < fuel := by
    intro l
    have hcard := (s.lists.ring l).nodup.length_le_card
    omega
  cases use with
  | SetItemValue i value =>
    simp only [KeyedLists.perform, Option.some.injEq, Prod.mk.injEq] at hs
    obtain ⟨rfl, rfl⟩ := hs
    exact ⟨_, rfl, holds_setItemValue h i value⟩
  | InsertEnd l i =>
    simp only [KeyedLists.perform] at hs
    split at hs
    · simp only [Option.some.injEq, Prod.mk.injEq] at hs
      obtain ⟨rfl, rfl⟩ := hs
      exact ⟨_, rfl, perform_insertEnd h _⟩
    · cases hs
  | Insert l i =>
    simp only [KeyedLists.perform] at hs
    split at hs
    · rename_i hi
      simp only [Option.some.injEq, Prod.mk.injEq] at hs
      obtain ⟨rfl, rfl⟩ := hs
      obtain ⟨after, hafter, hholds⟩ := perform_insert h hi (hlength l)
      exact ⟨after, by simp [perform, hafter], hholds⟩
    · cases hs
  | Remove i =>
    simp only [KeyedLists.perform] at hs
    split at hs
    · cases hs
    · rename_i l hi
      simp only [Option.some.injEq, Prod.mk.injEq] at hs
      obtain ⟨rfl, rfl⟩ := hs
      obtain ⟨after, hafter, hholds⟩ := perform_remove h hi
      exact ⟨after, by simp [perform, hafter], hholds⟩
  | OwnerOfNextEntry l =>
    simp only [KeyedLists.perform, Option.bind_eq_bind, Option.bind_eq_some_iff, Prod.exists,
      Option.some.injEq, Prod.mk.injEq] at hs
    obtain ⟨x, next, hnext, rfl, rfl⟩ := hs
    obtain ⟨after, hafter, hholds⟩ := perform_next h hnext
    exact ⟨after, by simp [perform, hafter], hholds⟩
  | OwnerOfHeadEntry l =>
    simp only [KeyedLists.perform, Option.bind_eq_bind, Option.bind_eq_some_iff,
      Option.some.injEq, Prod.mk.injEq] at hs
    obtain ⟨x, hx, rfl, rfl⟩ := hs
    obtain ⟨rest, hrest⟩ := List.head?_eq_some_iff.mp hx
    refine ⟨lists, ?_, h⟩
    rw [perform, listGET_OWNER_OF_HEAD_ENTRY_refines h.represents l, hrest, headNode_cons]
  | ItemValueOfHeadEntry l =>
    simp only [KeyedLists.perform, Option.bind_eq_bind, Option.bind_eq_some_iff,
      Option.some.injEq, Prod.mk.injEq] at hs
    obtain ⟨x, hx, rfl, rfl⟩ := hs
    obtain ⟨rest, hrest⟩ := List.head?_eq_some_iff.mp hx
    have hhead := listGET_OWNER_OF_HEAD_ENTRY_refines h.represents l
    rw [hrest, headNode_cons, listGET_OWNER_OF_HEAD_ENTRY] at hhead
    refine ⟨lists, ?_, h⟩
    rw [perform, listGET_ITEM_VALUE_OF_HEAD_ENTRY, hhead, ← h.value]
    rfl
  | IsEmpty l =>
    simp only [KeyedLists.perform, Option.some.injEq, Prod.mk.injEq] at hs
    obtain ⟨rfl, rfl⟩ := hs
    exact ⟨lists, by rw [perform, listLIST_IS_EMPTY_refines h.represents], h⟩

end Simulation

omit [DecidableEq ι] [DecidableEq τ] in
theorem holds_of_initialised {lists : Lists ι τ} (hdone : ∀ l, Initialised lists l)
    (hfree : ∀ i, lists.pxContainer i = none) : Holds lists ⟨.empty, lists.values⟩ := by
  refine ⟨represents_of_initialised hdone hfree, ?_, rfl⟩
  funext i
  exact hfree i

-- Any memory in which no item is on a list becomes empty lists.
theorem holds_initialised (names : List ι) (hnames : ∀ l, l ∈ names) {memory : Lists ι τ}
    (hfree : ∀ i, memory.pxContainer i = none) :
    Holds (names.foldl (fun lists l => vListInitialise l lists) memory)
      ⟨.empty, memory.values⟩ := by
  rw [← initialise_values names memory]
  apply holds_of_initialised
  · exact fun l => initialised_of_mem (.inl (hnames l))
  · rw [initialise_container]
    exact hfree

-- Whatever use the kernel makes of its lists, the pointers in memory give the
-- answers of the lists that they stand for.
theorem perform_refines [Fintype τ] {fuel : Nat} (hfuel : Fintype.card τ < fuel) (names : List ι)
    (hnames : ∀ l, l ∈ names) (memory : Lists ι τ) (hfree : ∀ i, memory.pxContainer i = none)
    (uses : List (Use ι τ)) {answers : List (Answer ι τ)} {s : KeyedLists ι τ}
    (hs : callAll (fun use s => s.perform use) uses ⟨.empty, memory.values⟩ = some (answers, s)) :
    ∃ after, callAll (perform fuel) uses
        (names.foldl (fun lists l => vListInitialise l lists) memory) = some (answers, after) ∧
      Holds after s := by
  apply callAll_simulates _ (holds_initialised names hnames hfree) hs
  intro use lists s answer s' hholds hstep
  exact perform_simulates hfuel use hholds hstep

-- Two items go on a list, the later one in front by its value.
theorem perform_refines_after_two :
    ∃ after, callAll (perform 3)
        [.SetItemValue true 9#64, .Insert () true, .SetItemValue false 4#64, .Insert () false,
          .ItemValueOfHeadEntry (), .Remove false, .OwnerOfHeadEntry (), .OwnerOfNextEntry ()]
        ([()].foldl (fun lists l => vListInitialise l lists) (⟨id, id, fun _ => 0, fun _ => none,
          fun _ => Item true, fun _ => 7⟩ : Lists Unit Bool)) =
          some ([.Done, .Done, .Done, .Done, .Value 4#64, .Remaining 1, .Owner (Item true),
            .Owner (Item true)], after) ∧
      ∃ s, Holds after s := by
  obtain ⟨after, hafter, hholds⟩ := perform_refines (by decide : Fintype.card Bool < 3) [()] (by decide)
    (⟨id, id, fun _ => 0, fun _ => none, fun _ => Item true, fun _ => 7⟩ : Lists Unit Bool)
    (by decide)
    [.SetItemValue true 9#64, .Insert () true, .SetItemValue false 4#64, .Insert () false,
      .ItemValueOfHeadEntry (), .Remove false, .OwnerOfHeadEntry (), .OwnerOfNextEntry ()] rfl
  exact ⟨after, hafter, _, hholds⟩

section RoundRobin

-- What a use is to one of the lists.
def turnOf (l : ι) : Use ι τ × Answer ι τ → Option (CursorList.Turn τ)
  | (.OwnerOfNextEntry l', .Owner (Item x)) => if l' = l then some (.select x) else none
  | (.InsertEnd l' i, _) => if l' = l then some (.enter i) else none
  | (.Insert l' i, _) => if l' = l then some (.enter i) else none
  | (.Remove i, _) => some (.leave i)
  | _ => none

def turnsOf (l : ι) (uses : List (Use ι τ)) (answers : List (Answer ι τ)) :
    List (CursorList.Turn τ) := (uses.zip answers).filterMap (turnOf l)

variable {s s' : KeyedLists ι τ} {l : ι} {a b : τ} {use : Use ι τ} {uses : List (Use ι τ)}
  {answer : Answer ι τ} {answers : List (Answer ι τ)}

omit [DecidableEq τ] in
theorem leave_of_mem_turnsOf (h : .leave a ∈ turnsOf l uses answers) : .Remove a ∈ uses := by
  obtain ⟨⟨use, answer⟩, hmem, hturn⟩ := List.mem_filterMap.mp h
  unfold turnOf at hturn
  split at hturn
  · split at hturn <;> cases hturn
  · split at hturn <;> cases hturn
  · split at hturn <;> cases hturn
  · rename_i heq
    obtain ⟨rfl, rfl⟩ := Prod.mk.inj heq
    cases hturn
    exact (List.of_mem_zip hmem).1
  · cases hturn

theorem runs_turnOf (hs : s.perform use = some (answer, s')) (l : ι)
    {turns : List (CursorList.Turn τ)} {last : CursorList τ}
    (run : CursorList.Runs (s'.lists.ring l) turns last) :
    CursorList.Runs (s.lists.ring l) ((turnOf l (use, answer)).toList ++ turns) last := by
  cases use with
  | SetItemValue i value =>
    simp only [KeyedLists.perform, Option.some.injEq, Prod.mk.injEq] at hs
    obtain ⟨rfl, rfl⟩ := hs
    exact run
  | InsertEnd l' i =>
    simp only [KeyedLists.perform] at hs
    split at hs
    · rename_i hi
      simp only [Option.some.injEq, Prod.mk.injEq] at hs
      obtain ⟨rfl, rfl⟩ := hs
      rw [CursorLists.insertEnd_ring] at run
      by_cases heq : l' = l
      · subst heq
        rw [Function.update_self] at run
        rw [turnOf, if_pos rfl]
        exact .enter _ run
      · rw [Function.update_of_ne (Ne.symm heq)] at run
        rw [turnOf, if_neg heq]
        exact run
    · cases hs
  | Insert l' i =>
    simp only [KeyedLists.perform] at hs
    split at hs
    · rename_i hi
      simp only [Option.some.injEq, Prod.mk.injEq] at hs
      obtain ⟨rfl, rfl⟩ := hs
      rw [CursorLists.insert_ring] at run
      by_cases heq : l' = l
      · subst heq
        rw [Function.update_self] at run
        rw [turnOf, if_pos rfl]
        exact .slip _ _ run
      · rw [Function.update_of_ne (Ne.symm heq)] at run
        rw [turnOf, if_neg heq]
        exact run
    · cases hs
  | Remove i =>
    simp only [KeyedLists.perform] at hs
    split at hs
    · cases hs
    · rename_i l' hi
      simp only [Option.some.injEq, Prod.mk.injEq] at hs
      obtain ⟨rfl, rfl⟩ := hs
      rw [CursorLists.remove_ring] at run
      apply CursorList.Runs.leave
      by_cases heq : l' = l
      · subst heq
        rwa [Function.update_self] at run
      · rw [Function.update_of_ne (Ne.symm heq)] at run
        rwa [CursorList.remove_of_notMem]
        intro hmem
        rw [(s.lists.home_iff i l).mpr hmem] at hi
        exact heq (Option.some.inj hi).symm
  | OwnerOfNextEntry l' =>
    simp only [KeyedLists.perform, Option.bind_eq_bind, Option.bind_eq_some_iff, Prod.exists,
      Option.some.injEq, Prod.mk.injEq] at hs
    obtain ⟨x, next, hnext, rfl, rfl⟩ := hs
    obtain ⟨r, hr, hring, -⟩ := CursorLists.next_ring hnext
    rw [hring] at run
    by_cases heq : l' = l
    · subst heq
      rw [Function.update_self] at run
      rw [turnOf, if_pos rfl]
      exact .select hr run
    · rw [Function.update_of_ne (Ne.symm heq)] at run
      rw [turnOf, if_neg heq]
      exact run
  | OwnerOfHeadEntry l' =>
    simp only [KeyedLists.perform, Option.bind_eq_bind, Option.bind_eq_some_iff,
      Option.some.injEq, Prod.mk.injEq] at hs
    obtain ⟨x, hx, rfl, rfl⟩ := hs
    exact run
  | ItemValueOfHeadEntry l' =>
    simp only [KeyedLists.perform, Option.bind_eq_bind, Option.bind_eq_some_iff,
      Option.some.injEq, Prod.mk.injEq] at hs
    obtain ⟨x, hx, rfl, rfl⟩ := hs
    exact run
  | IsEmpty l' =>
    simp only [KeyedLists.perform, Option.some.injEq, Prod.mk.injEq] at hs
    obtain ⟨rfl, rfl⟩ := hs
    exact run

theorem runs_turnsOf (l : ι)
    (hs : callAll (fun use s => s.perform use) uses s = some (answers, s')) :
    CursorList.Runs (s.lists.ring l) (turnsOf l uses answers) (s'.lists.ring l) := by
  induction uses generalizing s answers with
  | nil =>
    simp only [callAll, Option.some.injEq, Prod.mk.injEq] at hs
    obtain ⟨rfl, rfl⟩ := hs
    exact .nil _
  | cons use uses ih =>
    obtain ⟨answer, mid, rest, hfirst, hrest, rfl⟩ := callAll_cons.mp hs
    have hrun := runs_turnOf hfirst l (ih hrest)
    rw [turnsOf, List.zip_cons_cons, List.filterMap_cons]
    rw [turnsOf] at hrun
    split
    · rename_i hturn
      rwa [hturn] at hrun
    · rename_i turn hturn
      rwa [hturn] at hrun

-- Two items that stay on a list are chosen from it in turn: neither is chosen
-- twice without the other in between, whatever else is done with the lists.
theorem listGET_OWNER_OF_NEXT_ENTRY_alternates [Fintype τ] {fuel : Nat}
    (hfuel : Fintype.card τ < fuel) {lists : Lists ι τ} (h : Holds lists s) (hne : a ≠ b)
    (ha : lists.pxContainer a = some l) (hb : lists.pxContainer b = some l)
    (haStays : .Remove a ∉ uses) (hbStays : .Remove b ∉ uses)
    (hs : callAll (fun use s => s.perform use) uses s = some (answers, s')) :
    ∃ after, callAll (perform fuel) uses lists = some (answers, after) ∧
      (CursorList.picks a b (turnsOf l uses answers)).IsChain (· ≠ ·) := by
  obtain ⟨after, hafter, -⟩ := callAll_simulates
    (fun use lists s answer s' hholds hstep => perform_simulates hfuel use hholds hstep) h hs
  refine ⟨after, hafter, ?_⟩
  rw [h.home] at ha hb
  exact (runs_turnsOf l hs).picks_isChain hne ((s.lists.home_iff a l).mp ha)
    ((s.lists.home_iff b l).mp hb) (fun hmem => haStays (leave_of_mem_turnsOf hmem))
    (fun hmem => hbStays (leave_of_mem_turnsOf hmem))

theorem listGET_OWNER_OF_NEXT_ENTRY_alternates_of_two :
    let memory : Lists Unit Bool := ⟨id, id, fun _ => 0, fun _ => none, fun _ => Item true, fun _ => 7⟩
    let lists := vListInsertEnd () false (vListInsertEnd () true (vListInitialise () memory))
    let uses := [.OwnerOfNextEntry (), .OwnerOfNextEntry (), .SetItemValue false 3#64,
      .OwnerOfNextEntry ()]
    ∃ after, callAll (perform 3) uses lists =
        some ([.Owner (Item true), .Owner (Item false), .Done, .Owner (Item true)], after) ∧
      (CursorList.picks true false (turnsOf () uses
        [.Owner (Item true), .Owner (Item false), .Done, .Owner (Item true)])).IsChain
          (· ≠ ·) := by
  intro memory lists uses
  have hempty : Holds (vListInitialise () memory) ⟨.empty, memory.values⟩ :=
    holds_initialised [()] (by decide) (by decide)
  have hone := perform_insertEnd (i := true) (l := ()) hempty rfl
  have htwo := perform_insertEnd (i := false) (l := ()) hone rfl
  exact listGET_OWNER_OF_NEXT_ENTRY_alternates (by decide : Fintype.card Bool < 3) htwo
    (by decide) (by decide) (by decide) (by decide) (by decide) rfl

end RoundRobin

end SpaceBaremetal.Lists

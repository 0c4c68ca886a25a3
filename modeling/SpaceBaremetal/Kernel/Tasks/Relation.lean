import SpaceBaremetal.Kernel.Tasks
import SpaceBaremetal.Kernel.List.Runs
import SpaceBaremetal.Lib.Sleepers
import Mathlib.Algebra.Group.Nat.Defs
import Mathlib.Data.Fintype.Sum

open SpaceBaremetal.Lists

namespace SpaceBaremetal.Tasks

open ListName TaskItem

variable {ε τ : Type} [DecidableEq ε] [DecidableEq τ]

abbrev KernelLists (ε τ : Type) := KeyedLists (ListName ε) (TaskItem τ)

abbrev tickPeriod : Nat := 2 ^ 64

-- The list that a task in this phase is on. Of the two delayed lists the one
-- in use is for the wake times before the tick count overflows.
def listOf (k : Kernel ε τ) (clock : Nat) (t : τ) : Phase → Option (ListName ε)
  | .Ready => some (ReadyTasks (k.uxPriority t))
  | .Until wake =>
    if wake / tickPeriod = clock / tickPeriod then
      some k.pxDelayedTaskList
    else
      some k.pxOverflowDelayedTaskList
  | .Forever => some SuspendedTask
  | .Nowhere => none

def eventListOf : Option (Awaiting ε) → Option (ListName ε)
  | none => none
  | some (.On e) => some (Event e)
  | some .Woken => some PendingReady

-- The lists whose items are in the order of their values: wake times on the
-- delayed lists, and the more urgent task first on an event list.
def Keyed : ListName ε → Prop
  | DelayedTaskList1 | DelayedTaskList2 | Event _ => True
  | ReadyTasks _ | PendingReady | TasksWaitingTermination | SuspendedTask => False

def InOrder (s : KernelLists ε τ) (l : ListName ε) : Prop :=
  (s.lists.ring l).items.Pairwise fun a b => (s.value a).toNat ≤ (s.value b).toNat

-- The kernel's memory holds these tasks: `s` are the lists that the pointers
-- make up, and where a task is on them shows what it waits for.
structure Rel (k : Kernel ε τ) (s : KernelLists ε τ) (a : Sleepers ε τ) : Prop where
  holds : Holds k.lists s
  delayed : (k.pxDelayedTaskList = DelayedTaskList1 ∧
      k.pxOverflowDelayedTaskList = DelayedTaskList2) ∨
    (k.pxDelayedTaskList = DelayedTaskList2 ∧ k.pxOverflowDelayedTaskList = DelayedTaskList1)
  tick : k.xTickCount = BitVec.ofNat 64 a.clock
  overflows : k.xNumOfOverflows = BitVec.ofNat 64 (a.clock / tickPeriod)
  state : ∀ t, s.lists.home (StateListItem t) = listOf k a.clock t (a.phase t)
  event : ∀ t, s.lists.home (EventListItem t) = eventListOf (a.wait t)
  value : ∀ t wake, a.phase t = .Until wake → s.value (StateListItem t) = BitVec.ofNat 64 wake
  wake : ∀ t wake, a.phase t = .Until wake → a.clock ≤ wake ∧ wake < a.clock + tickPeriod
  inOrder : ∀ l, Keyed l → InOrder s l
  eventValue : ∀ t, (s.value (EventListItem t)).toNat = configMAX_PRIORITIES - k.uxPriority t
  next : ∀ t, s.lists.home (StateListItem t) = some k.pxDelayedTaskList →
    k.xNextTaskUnblockTime.toNat ≤ (s.value (StateListItem t)).toNat
  top : ∀ t, a.phase t = .Ready → k.uxPriority t ≤ k.uxTopReadyPriority

omit [DecidableEq ε] [DecidableEq τ] in
-- The other variables of the kernel play no part in it.
theorem Rel.others {k : Kernel ε τ} {s : KernelLists ε τ} {a : Sleepers ε τ} (h : Rel k s a)
    (current : Option τ) (notification : τ → TaskNotification) (tasks suspended : Nat)
    (running yield : Bool) (pended : BitVec 64) :
    Rel { k with
      pxCurrentTCB := current, notification := notification, uxCurrentNumberOfTasks := tasks
      uxSchedulerSuspended := suspended, xSchedulerRunning := running, xYieldPending := yield
      xPendedTicks := pended } s a :=
  ⟨h.holds, h.delayed, h.tick, h.overflows, h.state, h.event, h.value, h.wake, h.inOrder,
    h.eventValue, h.next, h.top⟩

section Containers

omit [DecidableEq ε] [DecidableEq τ]

variable {k : Kernel ε τ} {s : KernelLists ε τ} {a : Sleepers ε τ} {t : τ}

theorem Rel.pxContainer_state (h : Rel k s a) :
    k.lists.pxContainer (StateListItem t) = listOf k a.clock t (a.phase t) := by
  rw [h.holds.home, h.state]

theorem Rel.pxContainer_event (h : Rel k s a) :
    k.lists.pxContainer (EventListItem t) = eventListOf (a.wait t) := by
  rw [h.holds.home, h.event]

end Containers

section Order

variable {s : KernelLists ε τ} {l l' : ListName ε} {i : TaskItem τ}

theorem inOrder_remove (h : InOrder s l') (hi : s.lists.home i = some l) :
    InOrder { s with lists := s.lists.remove l i hi } l' := by
  unfold InOrder
  rw [CursorLists.remove_ring]
  by_cases heq : l' = l
  · subst heq
    rw [Function.update_self]
    exact h.sublist List.erase_sublist
  · rw [Function.update_of_ne heq]
    exact h

theorem inOrder_insertEnd (h : InOrder s l') (hi : s.lists.home i = none) (hne : l' ≠ l) :
    InOrder { s with lists := s.lists.insertEnd l i hi } l' := by
  unfold InOrder
  rw [CursorLists.insertEnd_ring, Function.update_of_ne hne]
  exact h

theorem inOrder_insertEnd_alone (hi : s.lists.home i = none) (halone : (s.lists.ring l).items = []) :
    InOrder { s with lists := s.lists.insertEnd l i hi } l := by
  have hitems : ((s.lists.insertEnd l i hi).ring l).items = [i] := by
    rw [CursorLists.insertEnd_ring, Function.update_self]
    have hcursor : (s.lists.ring l).cursor = none := by
      rw [Option.eq_none_iff_forall_ne_some]
      intro a ha
      have hmem := (s.lists.ring l).cursor_mem a ha
      rw [halone] at hmem
      cases hmem
    simp [CursorList.insertEnd, CursorList.insertBefore, hcursor, halone]
  unfold InOrder
  rw [hitems]
  exact List.pairwise_singleton _ _

theorem inOrder_insert (h : InOrder s l') (hi : s.lists.home i = none) :
    InOrder { s with lists := s.lists.insert l (notAbove s.value i) i hi } l' := by
  unfold InOrder
  rw [CursorLists.insert_ring]
  by_cases heq : l' = l
  · subst heq
    rw [Function.update_self]
    apply CursorList.insertAfter_pairwise (f := fun a => (s.value a).toNat) _ h
    intro a
    simp only [notAbove, BitVec.le_def]
  · rw [Function.update_of_ne heq]
    exact h

omit [DecidableEq ε] in
theorem inOrder_setValue (h : InOrder s l') (hi : s.lists.home i = none) (value : BitVec 64) :
    InOrder { s with value := Function.update s.value i value } l' := by
  have hne : ∀ a ∈ (s.lists.ring l').items, a ≠ i := by
    rintro a ha rfl
    exact s.lists.notMem_of_free hi l' ha
  apply List.Pairwise.imp_of_mem _ h
  intro a b ha hb hab
  simpa only [Function.update_of_ne (hne a ha), Function.update_of_ne (hne b hb)] using hab

end Order

section Moves

variable {k : Kernel ε τ} {s s' : KernelLists ε τ} {a : Sleepers ε τ} {t : τ} {l : ListName ε}
  {lists : Lists (ListName ε) (TaskItem τ)}

omit [DecidableEq ε] [DecidableEq τ] in
theorem Rel.delayed_ne (h : Rel k s a) : k.pxDelayedTaskList ≠ k.pxOverflowDelayedTaskList := by
  obtain ⟨hd, ho⟩ | ⟨hd, ho⟩ := h.delayed <;> rw [hd, ho] <;> simp

omit [DecidableEq ε] [DecidableEq τ] in
theorem Rel.delayed_keyed (h : Rel k s a) :
    Keyed k.pxDelayedTaskList ∧ Keyed k.pxOverflowDelayedTaskList := by
  obtain ⟨hd, ho⟩ | ⟨hd, ho⟩ := h.delayed <;> rw [hd, ho] <;> exact ⟨trivial, trivial⟩

omit [DecidableEq ε] in
-- A task whose state item is moved changes its phase.
theorem Rel.moveState (h : Rel k s a) {phase : Phase} {next : BitVec 64} {top : Priority}
    (hholds : Holds lists s')
    (hhome : s'.lists.home =
      Function.update s.lists.home (StateListItem t) (listOf k a.clock t phase))
    (hvalue : ∀ i, i ≠ StateListItem t → s'.value i = s.value i)
    (hwake : ∀ wake, phase = .Until wake → s'.value (StateListItem t) = BitVec.ofNat 64 wake ∧
      a.clock ≤ wake ∧ wake < a.clock + tickPeriod ∧
      (wake / tickPeriod = a.clock / tickPeriod → next.toNat ≤ wake % tickPeriod))
    (hnext : next.toNat ≤ k.xNextTaskUnblockTime.toNat)
    (htop : k.uxTopReadyPriority ≤ top) (hready : phase = .Ready → k.uxPriority t ≤ top)
    (hinOrder : ∀ l, Keyed l → InOrder s' l) :
    Rel { k with lists := lists, xNextTaskUnblockTime := next, uxTopReadyPriority := top } s'
      (a.setPhase t phase) := by
  refine ⟨hholds, h.delayed, h.tick, h.overflows, ?_, ?_, ?_, ?_, hinOrder, ?_, ?_, ?_⟩
  · intro u
    rw [hhome]
    by_cases heq : u = t
    · subst heq
      simp only [Function.update_self, Sleepers.setPhase_phase]
      rfl
    · rw [Function.update_of_ne (by simpa using heq), h.state u]
      simp only [Sleepers.setPhase_phase, Function.update_of_ne heq]
      rfl
  · intro u
    rw [hhome, Function.update_of_ne (by simp)]
    exact h.event u
  · intro u wake hu
    by_cases heq : u = t
    · subst heq
      rw [Sleepers.setPhase_phase, Function.update_self] at hu
      exact (hwake wake hu).1
    · rw [Sleepers.setPhase_phase, Function.update_of_ne heq] at hu
      rw [hvalue _ (by simpa using heq)]
      exact h.value u wake hu
  · intro u wake hu
    by_cases heq : u = t
    · subst heq
      rw [Sleepers.setPhase_phase, Function.update_self] at hu
      exact ⟨(hwake wake hu).2.1, (hwake wake hu).2.2.1⟩
    · rw [Sleepers.setPhase_phase, Function.update_of_ne heq] at hu
      exact h.wake u wake hu
  · intro u
    rw [hvalue _ (by simp)]
    exact h.eventValue u
  · intro u hu
    rw [hhome] at hu
    by_cases heq : u = t
    · subst heq
      rw [Function.update_self] at hu
      cases phase with
      | Until wake =>
        obtain ⟨hv, -, -, hle⟩ := hwake wake rfl
        rw [hv, BitVec.toNat_ofNat]
        apply hle
        by_contra hne
        rw [listOf, if_neg hne] at hu
        exact h.delayed_ne (Option.some.inj hu).symm
      | Ready =>
        obtain ⟨hd, -⟩ | ⟨hd, -⟩ := h.delayed <;> simp [listOf, hd] at hu
      | Forever =>
        obtain ⟨hd, -⟩ | ⟨hd, -⟩ := h.delayed <;> simp [listOf, hd] at hu
      | Nowhere => cases hu
    · rw [Function.update_of_ne (by simpa using heq)] at hu
      rw [hvalue _ (by simpa using heq)]
      exact Nat.le_trans hnext (h.next u hu)
  · intro u hu
    by_cases heq : u = t
    · subst heq
      rw [Sleepers.setPhase_phase, Function.update_self] at hu
      exact hready hu
    · rw [Sleepers.setPhase_phase, Function.update_of_ne heq] at hu
      exact le_trans (h.top u hu) htop

omit [DecidableEq ε] in
-- A task whose event item is moved waits for something else.
theorem Rel.moveEvent (h : Rel k s a) {wait : Option (Awaiting ε)} (hholds : Holds lists s')
    (hhome : s'.lists.home = Function.update s.lists.home (EventListItem t) (eventListOf wait))
    (hvalue : s'.value = s.value) (hinOrder : ∀ l, Keyed l → InOrder s' l) :
    Rel (k.setLists lists) s' (a.setWait t wait) := by
  refine ⟨hholds, h.delayed, h.tick, h.overflows, ?_, ?_, ?_, h.wake, hinOrder, ?_, ?_, h.top⟩
  · intro u
    rw [hhome, Function.update_of_ne (by simp)]
    exact h.state u
  · intro u
    rw [hhome]
    by_cases heq : u = t
    · subst heq
      simp only [Function.update_self, Sleepers.setWait_wait]
    · rw [Function.update_of_ne (by simpa using heq), h.event u]
      simp only [Sleepers.setWait_wait, Function.update_of_ne heq]
  · intro u wake hu
    rw [hvalue]
    exact h.value u wake hu
  · rw [hvalue]
    exact h.eventValue
  · intro u hu
    rw [hhome, Function.update_of_ne (by simp)] at hu
    rw [hvalue]
    exact h.next u hu

end Moves

section Primitives

variable {k : Kernel ε τ} {s : KernelLists ε τ} {a : Sleepers ε τ} {t : τ} {l : ListName ε}

theorem Rel.removeState (h : Rel k s a) (hl : s.lists.home (StateListItem t) = some l) :
    ∃ lists s', k.removeItem (StateListItem t) = some (k.setLists lists) ∧
      Rel (k.setLists lists) s' (a.setPhase t .Nowhere) := by
  obtain ⟨lists, hremove, hholds⟩ := perform_remove h.holds hl
  refine ⟨lists, _, by simp [Kernel.removeItem, hremove],
    h.moveState hholds ?_ ?_ ?_ ?_ ?_ ?_ ?_⟩
  · rfl
  · exact fun i _ => rfl
  · rintro wake ⟨⟩
  · exact Nat.le_refl _
  · exact le_refl _
  · rintro ⟨⟩
  · exact fun l' hl' => inOrder_remove (h.inOrder l' hl') hl

theorem Rel.removeEvent (h : Rel k s a) (hl : s.lists.home (EventListItem t) = some l) :
    ∃ lists s', k.removeItem (EventListItem t) = some (k.setLists lists) ∧
      Rel (k.setLists lists) s' (a.setWait t none) := by
  obtain ⟨lists, hremove, hholds⟩ := perform_remove h.holds hl
  refine ⟨lists, _, by simp [Kernel.removeItem, hremove], h.moveEvent hholds ?_ ?_ ?_⟩
  · rfl
  · rfl
  · exact fun l' hl' => inOrder_remove (h.inOrder l' hl') hl

theorem Rel.removeIfContained (h : Rel k s a) (t : τ) :
    ∃ lists s', k.removeIfContained (EventListItem t) = some (k.setLists lists) ∧
      Rel (k.setLists lists) s' (a.setWait t none) := by
  rw [Kernel.removeIfContained, h.pxContainer_event]
  cases hwait : a.wait t with
  | none =>
    refine ⟨k.lists, s, rfl, ?_⟩
    have hsame : a.setWait t none = a := by
      ext u
      · rfl
      · rfl
      · by_cases heq : u = t
        · simp [heq, hwait]
        · simp [heq]
    rw [hsame]
    exact h
  | some wait =>
    have hl : ∃ l, s.lists.home (EventListItem t) = some l ∧
        (eventListOf (some wait)).isSome = true := by
      rw [h.event, hwait]
      cases wait with
      | On e => exact ⟨_, rfl, rfl⟩
      | Woken => exact ⟨_, rfl, rfl⟩
    obtain ⟨l, hl, hsome⟩ := hl
    rw [if_pos hsome]
    exact h.removeEvent hl

-- On an event list an item may be put at the end when nobody else is on it.
theorem Rel.insertEndEvent (h : Rel k s a) (hwait : a.wait t = none)
    {wait : Awaiting ε} (hl : eventListOf (some wait) = some l)
    (halone : ∀ e, wait = .On e → (s.lists.ring (Event e)).items = []) :
    ∃ lists s', k.insertEnd l (EventListItem t) = k.setLists lists ∧
      Rel (k.setLists lists) s' (a.setWait t (some wait)) := by
  have hfree : s.lists.home (EventListItem t) = none := by rw [h.event, hwait, eventListOf]
  refine ⟨_, _, rfl, h.moveEvent (perform_insertEnd h.holds hfree) ?_ ?_ ?_⟩
  · rw [hl]
    rfl
  · rfl
  · intro l' hl'
    by_cases heq : l' = l
    · subst heq
      cases wait with
      | On e =>
        obtain rfl := Option.some.inj hl
        apply inOrder_insertEnd_alone hfree (halone e rfl)
      | Woken =>
        obtain rfl := Option.some.inj hl
        exact hl'.elim
    · exact inOrder_insertEnd (h.inOrder l' hl') hfree heq

theorem Rel.insertSortedEvent (h : Rel k s a) (hwait : a.wait t = none) (e : ε)
    {fuel : Nat} (hfuel : (s.lists.ring (Event e)).items.length < fuel) :
    ∃ lists s', k.insertSorted fuel (Event e) (EventListItem t) = some (k.setLists lists) ∧
      Rel (k.setLists lists) s' (a.setWait t (some (.On e))) := by
  have hfree : s.lists.home (EventListItem t) = none := by rw [h.event, hwait, eventListOf]
  obtain ⟨lists, hinsert, hholds⟩ := perform_insert h.holds hfree hfuel
  refine ⟨lists, _, by simp [Kernel.insertSorted, hinsert], h.moveEvent hholds ?_ ?_ ?_⟩
  · rfl
  · rfl
  · exact fun l hl => inOrder_insert (h.inOrder l hl) hfree

theorem Rel.insertEndState (h : Rel k s a) (hphase : a.phase t = .Nowhere) {phase : Phase}
    {top : Priority} (hl : listOf k a.clock t phase = some l) (hwake : ∀ wake, phase ≠ .Until wake)
    (htop : k.uxTopReadyPriority ≤ top) (hready : phase = .Ready → k.uxPriority t ≤ top) :
    ∃ s', Rel { k with
        lists := vListInsertEnd l (StateListItem t) k.lists, uxTopReadyPriority := top }
      s' (a.setPhase t phase) := by
  have hfree : s.lists.home (StateListItem t) = none := by rw [h.state, hphase, listOf]
  have hkeyed : ¬Keyed l := by
    cases phase with
    | Until wake => exact absurd rfl (hwake wake)
    | Nowhere => cases hl
    | Ready =>
      obtain rfl := Option.some.inj hl
      exact id
    | Forever =>
      obtain rfl := Option.some.inj hl
      exact id
  refine ⟨_, h.moveState (perform_insertEnd h.holds hfree) ?_ ?_ ?_ (Nat.le_refl _) htop hready ?_⟩
  · rw [hl]
    rfl
  · exact fun i _ => rfl
  · exact fun wake heq => absurd heq (hwake wake)
  · intro l' hl'
    apply inOrder_insertEnd (h.inOrder l' hl') hfree
    rintro rfl
    exact hkeyed hl'

theorem Rel.addReady (h : Rel k s a) (hphase : a.phase t = .Nowhere) :
    ∃ lists top s', k.prvAddTaskToReadyList t =
        { k with lists := lists, uxTopReadyPriority := top } ∧
      Rel { k with lists := lists, uxTopReadyPriority := top } s' (a.setPhase t .Ready) := by
  have hl : listOf k a.clock t .Ready = some (ReadyTasks (k.uxPriority t)) := rfl
  unfold Kernel.prvAddTaskToReadyList Kernel.taskRECORD_READY_PRIORITY
  by_cases htop : k.uxPriority t > k.uxTopReadyPriority
  · obtain ⟨s', hs'⟩ := h.insertEndState hphase hl (by simp) (le_of_lt htop)
      (fun _ => le_refl (k.uxPriority t))
    exact ⟨_, _, s', by rw [if_pos htop]; rfl, hs'⟩
  · obtain ⟨s', hs'⟩ := h.insertEndState hphase hl (by simp) (le_refl k.uxTopReadyPriority)
      (fun _ => not_lt.mp htop)
    exact ⟨_, _, s', by rw [if_neg htop]; rfl, hs'⟩

end Primitives

instance [Fintype τ] : Fintype (TaskItem τ) :=
  Fintype.ofSurjective (Sum.elim StateListItem EventListItem) (by
    rintro (t | t)
    · exact ⟨.inl t, rfl⟩
    · exact ⟨.inr t, rfl⟩)

section Members

omit [DecidableEq ε] [DecidableEq τ]

variable {k : Kernel ε τ} {s : KernelLists ε τ} {a : Sleepers ε τ} {t : τ}

theorem Rel.length_lt [Fintype τ] [DecidableEq τ] (_ : Rel k s a) {fuel : Nat}
    (hfuel : Fintype.card (TaskItem τ) < fuel) (l : ListName ε) :
    (s.lists.ring l).items.length < fuel := by
  have hcard := (s.lists.ring l).nodup.length_le_card
  omega

-- The delayed list in use holds those who wake before the tick count overflows.
theorem Rel.mem_delayed (h : Rel k s a) {i : TaskItem τ} :
    i ∈ (s.lists.ring k.pxDelayedTaskList).items ↔
      ∃ t wake, i = StateListItem t ∧ a.phase t = .Until wake ∧
        wake / tickPeriod = a.clock / tickPeriod := by
  rw [← s.lists.home_iff]
  constructor
  · intro hi
    cases i with
    | EventListItem t =>
      rw [h.event] at hi
      rcases hwait : a.wait t with _ | e | _
      · simp [hwait, eventListOf] at hi
      · obtain ⟨hd, -⟩ | ⟨hd, -⟩ := h.delayed <;> simp [hwait, eventListOf, hd] at hi
      · obtain ⟨hd, -⟩ | ⟨hd, -⟩ := h.delayed <;> simp [hwait, eventListOf, hd] at hi
    | StateListItem t =>
      rw [h.state] at hi
      cases hphase : a.phase t with
      | Until wake =>
        refine ⟨t, wake, rfl, hphase, ?_⟩
        by_contra hne
        rw [hphase, listOf, if_neg hne] at hi
        exact h.delayed_ne (Option.some.inj hi).symm
      | Ready => obtain ⟨hd, -⟩ | ⟨hd, -⟩ := h.delayed <;> simp [hphase, listOf, hd] at hi
      | Forever => obtain ⟨hd, -⟩ | ⟨hd, -⟩ := h.delayed <;> simp [hphase, listOf, hd] at hi
      | Nowhere => simp [hphase, listOf] at hi
  · rintro ⟨t, wake, rfl, hphase, hsame⟩
    rw [h.state, hphase, listOf, if_pos hsame]

theorem Rel.delayed_empty (h : Rel k s a) :
    listLIST_IS_EMPTY k.pxDelayedTaskList k.lists = true ↔
      (s.lists.ring k.pxDelayedTaskList).items = [] := by
  rw [listLIST_IS_EMPTY_refines h.holds.represents, List.isEmpty_iff]

-- The first of the delayed tasks.
theorem Rel.delayed_head (h : Rel k s a)
    (hne : (s.lists.ring k.pxDelayedTaskList).items ≠ []) :
    ∃ t wake, Kernel.ownerOf (listGET_OWNER_OF_HEAD_ENTRY k.pxDelayedTaskList k.lists) = some t ∧
      a.phase t = .Until wake ∧ wake / tickPeriod = a.clock / tickPeriod ∧
      k.lists.xItemValue (.Item (StateListItem t)) = BitVec.ofNat 64 wake ∧
      listGET_ITEM_VALUE_OF_HEAD_ENTRY k.pxDelayedTaskList k.lists = BitVec.ofNat 64 wake ∧
      ∀ u wake', a.phase u = .Until wake' → wake' / tickPeriod = a.clock / tickPeriod →
        wake ≤ wake' := by
  obtain ⟨i, rest, hitems⟩ := List.exists_cons_of_ne_nil hne
  have hmem : i ∈ (s.lists.ring k.pxDelayedTaskList).items := by simp [hitems]
  obtain ⟨t, wake, rfl, hphase, hsame⟩ := h.mem_delayed.mp hmem
  have hhead := listGET_OWNER_OF_HEAD_ENTRY_refines h.holds.represents k.pxDelayedTaskList
  rw [hitems, headNode_cons] at hhead
  have hvalue : k.lists.xItemValue (.Item (StateListItem t)) = BitVec.ofNat 64 wake := by
    have hsv := h.value t wake hphase
    rwa [← h.holds.value] at hsv
  refine ⟨t, wake, by rw [hhead]; rfl, hphase, hsame, hvalue, ?_, ?_⟩
  · rw [listGET_OWNER_OF_HEAD_ENTRY] at hhead
    rw [listGET_ITEM_VALUE_OF_HEAD_ENTRY, hhead, hvalue]
  · intro u wake' hu hsame'
    have hmem' := h.mem_delayed.mpr ⟨u, wake', rfl, hu, hsame'⟩
    rw [hitems, List.mem_cons] at hmem'
    obtain heq | hrest := hmem'
    · obtain rfl := StateListItem.inj heq
      rw [hphase] at hu
      obtain rfl := Phase.Until.inj hu
      exact Nat.le_refl _
    · have horder := h.inOrder _ h.delayed_keyed.1
      rw [InOrder, hitems, List.pairwise_cons] at horder
      have hle := horder.1 _ hrest
      rw [h.value t wake hphase, h.value u wake' hu, BitVec.toNat_ofNat, BitVec.toNat_ofNat] at hle
      have hdiv := Nat.div_add_mod wake tickPeriod
      have hdiv' := Nat.div_add_mod wake' tickPeriod
      rw [hsame] at hdiv
      rw [hsame'] at hdiv'
      simp only [tickPeriod] at hdiv hdiv'
      omega

-- Only a lower bound of the next wake time is kept.
theorem Rel.setNext (h : Rel k s a) {next : BitVec 64}
    (hnext : ∀ t wake, a.phase t = .Until wake → wake / tickPeriod = a.clock / tickPeriod →
      next.toNat ≤ wake % tickPeriod) :
    Rel { k with xNextTaskUnblockTime := next } s a := by
  refine ⟨h.holds, h.delayed, h.tick, h.overflows, h.state, h.event, h.value, h.wake, h.inOrder,
    h.eventValue, ?_, h.top⟩
  intro t ht
  obtain ⟨u, wake, heq, hphase, hsame⟩ := h.mem_delayed.mp ((s.lists.home_iff _ _).mp ht)
  obtain rfl := StateListItem.inj heq
  rw [h.value t wake hphase, BitVec.toNat_ofNat]
  exact hnext t wake hphase hsame

end Members

section Woken

variable {k : Kernel ε τ} {s : KernelLists ε τ} {a : Sleepers ε τ} {t : τ}

omit [DecidableEq ε] [DecidableEq τ] in
theorem Rel.home_of_phase (h : Rel k s a) (hphase : a.phase t ≠ .Nowhere) :
    ∃ l, s.lists.home (StateListItem t) = some l := by
  rw [h.state]
  cases hp : a.phase t with
  | Ready => exact ⟨_, rfl⟩
  | Until wake =>
    rw [listOf]
    split
    · exact ⟨_, rfl⟩
    · exact ⟨_, rfl⟩
  | Forever => exact ⟨_, rfl⟩
  | Nowhere => exact absurd hp hphase

-- A task that is woken by its event is taken off that list first.
theorem Rel.wakeEvent (h : Rel k s a) {e f : ListName ε}
    (hevent : s.lists.home (EventListItem t) = some e)
    (hstate : s.lists.home (StateListItem t) = some f) :
    ∃ lists lists' lists'' top s', k.removeItem (EventListItem t) = some (k.setLists lists) ∧
      (k.setLists lists).removeItem (StateListItem t) =
        some ((k.setLists lists).setLists lists') ∧
      ((k.setLists lists).setLists lists').prvAddTaskToReadyList t =
        { k with lists := lists'', uxTopReadyPriority := top } ∧
      Rel { k with lists := lists'', uxTopReadyPriority := top } s' (a.wake t) := by
  obtain ⟨lists, s₁, hremove, h₁⟩ := h.removeEvent hevent
  have hstate₁ : s₁.lists.home (StateListItem t) = some f := by
    rw [h₁.state, ← hstate, h.state]
    rfl
  obtain ⟨lists', s₂, hremove', h₂⟩ := h₁.removeState hstate₁
  obtain ⟨lists'', top, s₃, hadd, h₃⟩ := h₂.addReady (t := t) (by simp)
  refine ⟨lists, lists', lists'', top, s₃, hremove, hremove', hadd, ?_⟩
  rw [Sleepers.setPhase_setPhase] at h₃
  exact h₃

omit [DecidableEq ε] [DecidableEq τ] in
theorem setYield (k : Kernel ε τ) (condition : Prop) [Decidable condition] :
    (if condition then { k with xYieldPending := true } else k) =
      { k with xYieldPending := k.xYieldPending || decide condition } := by
  split
  · rename_i h
    simp [h]
  · rename_i h
    simp [h]

end Woken

end SpaceBaremetal.Tasks

import SpaceBaremetal.Kernel.Tasks.Relation
import SpaceBaremetal.Lib.FixedPriority

open SpaceBaremetal.Lists

namespace SpaceBaremetal.Tasks

open ListName TaskItem

variable {ε τ : Type} [DecidableEq ε] [DecidableEq τ]
variable {k : Kernel ε τ} {s : KernelLists ε τ} {a : Sleepers ε τ} {t c : τ} {p : Priority}

def IsReady (a : Sleepers ε τ) (t : τ) : Prop := a.phase t = .Ready

section Find

omit [DecidableEq ε] [DecidableEq τ]

theorem Rel.mem_ready (h : Rel k s a) {i : TaskItem τ} :
    i ∈ (s.lists.ring (ReadyTasks p)).items ↔
      ∃ t, i = StateListItem t ∧ IsReady a t ∧ k.uxPriority t = p := by
  rw [← s.lists.home_iff]
  constructor
  · intro hi
    cases i with
    | EventListItem t =>
      rw [h.event] at hi
      rcases hwait : a.wait t with _ | e | _ <;> simp [hwait, eventListOf] at hi
    | StateListItem t =>
      rw [h.state] at hi
      cases hphase : a.phase t with
      | Ready =>
        rw [hphase, listOf, Option.some.injEq, ReadyTasks.injEq] at hi
        exact ⟨t, rfl, hphase, hi⟩
      | Until wake =>
        rw [hphase, listOf] at hi
        obtain ⟨hd, ho⟩ | ⟨hd, ho⟩ := h.delayed <;> split at hi <;> simp [hd, ho] at hi
      | Forever => simp [hphase, listOf] at hi
      | Nowhere => simp [hphase, listOf] at hi
  · rintro ⟨t, rfl, hphase, rfl⟩
    rw [h.state, show a.phase t = .Ready from hphase, listOf]

theorem Rel.ready_empty (h : Rel k s a) (p : Priority) :
    listLIST_IS_EMPTY (ReadyTasks p) k.lists = true ↔
      ∀ t, IsReady a t → k.uxPriority t ≠ p := by
  rw [listLIST_IS_EMPTY_refines h.holds.represents, List.isEmpty_iff,
    List.eq_nil_iff_forall_not_mem]
  constructor
  · intro hnone t ht hp
    exact hnone _ (h.mem_ready.mpr ⟨t, rfl, ht, hp⟩)
  · intro hnone i hi
    obtain ⟨t, -, ht, hp⟩ := h.mem_ready.mp hi
    exact hnone t ht hp

-- Going down from a bound of the ready priorities one comes to the highest.
theorem findReadyPriority_spec (h : Rel k s a) (hready : ∃ t, IsReady a t) {top : Nat}
    (htop : top < configMAX_PRIORITIES) (hbound : ∀ t, IsReady a t → (k.uxPriority t).val ≤ top) :
    ∃ p, Kernel.findReadyPriority k.lists top htop = some p ∧
      (∃ t, IsReady a t ∧ k.uxPriority t = p) ∧ ∀ t, IsReady a t → k.uxPriority t ≤ p := by
  -- the list looked at holds a task, or the bound can be lowered
  have hfound : ∀ {top : Nat} (htop : top < configMAX_PRIORITIES),
      ¬ listLIST_IS_EMPTY (ReadyTasks ⟨top, htop⟩) k.lists = true →
        ∃ t, IsReady a t ∧ k.uxPriority t = ⟨top, htop⟩ := by
    intro top htop hnonempty
    by_contra hnone
    apply hnonempty
    rw [h.ready_empty]
    intro t ht hp
    exact hnone ⟨t, ht, hp⟩
  induction top with
  | zero =>
    obtain ⟨t, ht⟩ := hready
    have hnonempty : ¬ listLIST_IS_EMPTY (ReadyTasks ⟨0, htop⟩) k.lists = true := by
      rw [h.ready_empty]
      intro hnone
      apply hnone t ht
      have hle := hbound t ht
      apply Fin.ext
      show (k.uxPriority t).val = 0
      omega
    rw [Kernel.findReadyPriority, if_neg hnonempty]
    refine ⟨_, rfl, hfound htop hnonempty, ?_⟩
    intro u hu
    exact hbound u hu
  | succ top ih =>
    rw [Kernel.findReadyPriority]
    by_cases hempty : listLIST_IS_EMPTY (ReadyTasks ⟨top + 1, htop⟩) k.lists = true
    · rw [if_pos hempty]
      apply ih
      intro t ht
      have hne := (h.ready_empty _).mp hempty t ht
      have hle := hbound t ht
      have hval : (k.uxPriority t).val ≠ top + 1 := fun heq => hne (Fin.ext heq)
      omega
    · rw [if_neg hempty]
      refine ⟨_, rfl, hfound htop hempty, ?_⟩
      intro u hu
      exact hbound u hu

end Find

section Select

theorem Rel.nextEntry (h : Rel k s a) {i : TaskItem τ}
    (hi : i ∈ (s.lists.ring (ReadyTasks p)).items) :
    ∃ t lists s', listGET_OWNER_OF_NEXT_ENTRY (ReadyTasks p) k.lists =
        (.Item (StateListItem t), lists) ∧
      Rel (k.setLists lists) s' a ∧ IsReady a t ∧ k.uxPriority t = p ∧
      (s.lists.ring (ReadyTasks p)).next = some (StateListItem t, s'.lists.ring (ReadyTasks p)) ∧
      ∀ l, l ≠ ReadyTasks p → s'.lists.ring l = s.lists.ring l := by
  have hsome : (s.lists.ring (ReadyTasks p)).next ≠ none := by
    rw [ne_eq, CursorList.next_eq_none]
    exact List.ne_nil_of_mem hi
  obtain ⟨⟨x, r⟩, hnext⟩ := Option.ne_none_iff_exists'.mp hsome
  obtain ⟨after, hafter⟩ := CursorLists.next_of_ring hnext
  obtain ⟨r', hr', hring, hhome⟩ := CursorLists.next_ring hafter
  rw [hnext] at hr'
  obtain rfl : r = r' := (Prod.mk.inj (Option.some.inj hr')).2
  obtain ⟨lists, hlists, hholds⟩ := perform_next h.holds hafter
  obtain ⟨rest, horder, -, hitems, -⟩ := CursorList.next_order hnext
  have hx : x ∈ (s.lists.ring (ReadyTasks p)).items := by
    rw [← CursorList.mem_order, horder]
    exact List.mem_cons_self
  obtain ⟨t, rfl, ht, hp⟩ := h.mem_ready.mp hx
  have hother : ∀ l, l ≠ ReadyTasks p → after.ring l = s.lists.ring l := by
    intro l hl
    rw [hring, Function.update_of_ne hl]
  refine ⟨t, lists, { s with lists := after }, hlists, ?_, ht, hp, ?_, hother⟩
  · refine ⟨hholds, h.delayed, h.tick, h.overflows, ?_, ?_, h.value, h.wake, ?_, h.eventValue, ?_,
      h.top⟩
    · intro u
      rw [hhome]
      exact h.state u
    · intro u
      rw [hhome]
      exact h.event u
    · intro l hl
      show List.Pairwise _ (after.ring l).items
      rw [hother l (by rintro rfl; exact hl)]
      exact h.inOrder l hl
    · intro u hu
      rw [hhome] at hu
      exact h.next u hu
  · rw [hnext, hring, Function.update_self]

-- One of the ready tasks of the highest priority is chosen, the one whose turn
-- it is on their list.
theorem Rel.select (h : Rel k s a) (hready : ∃ t, IsReady a t) :
    ∃ lists c top s', k.taskSELECT_HIGHEST_PRIORITY_TASK =
        some { k with lists := lists, pxCurrentTCB := some c, uxTopReadyPriority := top } ∧
      Rel { k with lists := lists, pxCurrentTCB := some c, uxTopReadyPriority := top } s' a ∧
      FixedPriority.Runs k.uxPriority (IsReady a) c ∧
      (s.lists.ring (ReadyTasks (k.uxPriority c))).next =
        some (StateListItem c, s'.lists.ring (ReadyTasks (k.uxPriority c))) ∧
      ∀ l, l ≠ ReadyTasks (k.uxPriority c) → s'.lists.ring l = s.lists.ring l := by
  obtain ⟨p, hfind, ⟨t, ht, htp⟩, hhighest⟩ :=
    findReadyPriority_spec h hready k.uxTopReadyPriority.isLt (fun t ht => h.top t ht)
  obtain ⟨c, lists, s', hnext, hrel, hc, hcp, hturn, hother⟩ :=
    h.nextEntry (h.mem_ready.mpr ⟨t, rfl, ht, htp⟩)
  subst hcp
  refine ⟨lists, c, k.uxPriority c, s', ?_, ?_, ?_, hturn, hother⟩
  · rw [Kernel.taskSELECT_HIGHEST_PRIORITY_TASK, hfind]
    simp only [Option.bind_eq_bind, Option.bind_some, hnext]
    rfl
  · exact ⟨hrel.holds, hrel.delayed, hrel.tick, hrel.overflows, hrel.state, hrel.event, hrel.value,
      hrel.wake, hrel.inOrder, hrel.eventValue, hrel.next, hhighest⟩
  · refine ⟨hc, ?_⟩
    intro u hu
    exact not_lt.mpr (hhighest u hu)

end Select

end SpaceBaremetal.Tasks

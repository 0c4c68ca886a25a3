import SpaceBaremetal.Kernel.Tasks.Relation
import Mathlib.Data.Finset.Card

open SpaceBaremetal.Lists

namespace SpaceBaremetal.Tasks

open ListName TaskItem

variable {ε τ : Type} [DecidableEq ε] [DecidableEq τ]
variable {k : Kernel ε τ} {s : KernelLists ε τ} {a : Sleepers ε τ} {t c : τ}

section Wake

-- A task whose time it is leaves the delayed list, and the event list if it is
-- on one.
theorem Rel.wakeDelayed (h : Rel k s a) {wake : Nat} (hphase : a.phase t = .Until wake) :
    ∃ lists lists' lists'' top s', k.removeItem (StateListItem t) = some (k.setLists lists) ∧
      (k.setLists lists).removeIfContained (EventListItem t) =
        some ((k.setLists lists).setLists lists') ∧
      ((k.setLists lists).setLists lists').prvAddTaskToReadyList t =
        { k with lists := lists'', uxTopReadyPriority := top } ∧
      Rel { k with lists := lists'', uxTopReadyPriority := top } s' (a.wake t) := by
  have hl : ∃ l, s.lists.home (StateListItem t) = some l := by
    rw [h.state, hphase, listOf]
    split
    · exact ⟨_, rfl⟩
    · exact ⟨_, rfl⟩
  obtain ⟨l, hl⟩ := hl
  obtain ⟨lists, s₁, hremove, h₁⟩ := h.removeState hl
  obtain ⟨lists', s₂, hevent, h₂⟩ := h₁.removeIfContained t
  obtain ⟨lists'', top, s₃, hadd, h₃⟩ := h₂.addReady (t := t) (by simp)
  refine ⟨lists, lists', lists'', top, s₃, hremove, hevent, hadd, ?_⟩
  have hwake : ((a.setPhase t .Nowhere).setWait t none).setPhase t .Ready = a.wake t := by
    ext u
    · rfl
    · by_cases heq : u = t <;> simp [heq]
    · rfl
  rw [← hwake]
  exact h₃

end Wake

section Unblock

variable [Fintype τ]

def blocked (a : Sleepers ε τ) : Finset τ := Finset.univ.filter fun t => a.phase t ≠ .Ready

omit [DecidableEq ε] [DecidableEq τ] in
theorem mem_blocked : t ∈ blocked a ↔ a.phase t ≠ .Ready := by
  simp [blocked]

omit [DecidableEq ε] in
theorem blocked_wake (ht : a.phase t ≠ .Ready) : (blocked (a.wake t)).card < (blocked a).card := by
  have hsubset : blocked (a.wake t) ⊆ blocked a := by
    intro u hu
    rw [mem_blocked] at hu ⊢
    by_cases heq : u = t
    · rw [heq]
      exact ht
    · rwa [Sleepers.wake_phase, Function.update_of_ne heq] at hu
  apply Finset.card_lt_card
  rw [Finset.ssubset_iff_of_subset hsubset]
  refine ⟨t, mem_blocked.mpr ht, ?_⟩
  rw [mem_blocked]
  simp

-- The loop of the tick wakes those whose time it is. The switch it asks for is
-- due if one of them is above the task that runs.
theorem unblockTasks_spec (h : Rel k s a) (hc : k.pxCurrentTCB = some c) {fuel : Nat}
    (hfuel : (blocked a).card < fuel) (b : Bool) :
    ∃ sw lists next top s', Kernel.unblockTasks k.xTickCount fuel b k = some (sw,
        { k with lists := lists, xNextTaskUnblockTime := next, uxTopReadyPriority := top }) ∧
      Rel { k with lists := lists, xNextTaskUnblockTime := next, uxTopReadyPriority := top } s'
        a.expire ∧
      (b = true → sw = true) ∧
      ∀ t, a.phase t = .Until a.clock → k.uxPriority t > k.uxPriority c → sw = true := by
  induction fuel generalizing k s a b with
  | zero => omega
  | succ fuel ih =>
    rw [Kernel.unblockTasks]
    by_cases hempty : (s.lists.ring k.pxDelayedTaskList).items = []
    · -- nobody is left to wake before the tick count overflows
      have hnone : ∀ t wake, a.phase t = .Until wake →
          wake / tickPeriod ≠ a.clock / tickPeriod := by
        intro t wake hphase hsame
        have hmem := h.mem_delayed.mpr ⟨t, wake, rfl, hphase, hsame⟩
        rw [hempty] at hmem
        cases hmem
      have hawake : a.Awake := by
        intro t wake hphase
        have hwake := h.wake t wake hphase
        have hne := hnone t wake hphase
        by_contra hle
        exact hne (by rw [show wake = a.clock by omega])
      rw [if_pos (h.delayed_empty.mpr hempty)]
      refine ⟨b, k.lists, portMAX_DELAY, k.uxTopReadyPriority, s, rfl, ?_, id, ?_⟩
      · rw [Sleepers.expire_of_awake hawake]
        exact h.setNext fun t wake hphase hsame => absurd hsame (hnone t wake hphase)
      · intro t hphase
        exact absurd rfl (hnone t a.clock hphase)
    · obtain ⟨t, wake, howner, hphase, hsame, hvalue, -, hfirst⟩ := h.delayed_head hempty
      have hnonempty : ¬ listLIST_IS_EMPTY k.pxDelayedTaskList k.lists = true := by
        rw [h.delayed_empty]
        exact hempty
      have hbounds := h.wake t wake hphase
      have hmod : k.xTickCount < BitVec.ofNat 64 wake ↔ a.clock < wake := by
        rw [h.tick, BitVec.lt_def, BitVec.toNat_ofNat, BitVec.toNat_ofNat]
        have hdiv := Nat.div_add_mod wake tickPeriod
        have hdiv' := Nat.div_add_mod a.clock tickPeriod
        rw [hsame] at hdiv
        simp only [tickPeriod] at hdiv hdiv'
        omega
      simp only [hnonempty, howner, hvalue, Option.bind_eq_bind, Option.bind_some]
      by_cases hlater : a.clock < wake
      · -- the first of them has to wait, and so have the others
        have hawake : a.Awake := by
          intro u wake' hu
          have hwake := h.wake u wake' hu
          by_contra hle
          have hnow : wake' = a.clock := by omega
          have hle' := hfirst u wake' hu (by rw [hnow])
          omega
        simp only [hmod.mpr hlater, if_true]
        refine ⟨b, k.lists, BitVec.ofNat 64 wake, k.uxTopReadyPriority, s, by simp, ?_, id, ?_⟩
        · rw [Sleepers.expire_of_awake hawake]
          apply h.setNext
          intro u wake' hu hsame'
          have hle := hfirst u wake' hu hsame'
          have hdiv := Nat.div_add_mod wake tickPeriod
          have hdiv' := Nat.div_add_mod wake' tickPeriod
          rw [hsame] at hdiv
          rw [hsame'] at hdiv'
          rw [BitVec.toNat_ofNat]
          simp only [tickPeriod] at hdiv hdiv' ⊢
          omega
        · intro u hu
          exact absurd (hawake u _ hu) (Nat.lt_irrefl _)
      · have hnow : wake = a.clock := by omega
        subst hnow
        obtain ⟨lists, lists', lists'', top, s', hremove, hevent, hadd, h'⟩ := h.wakeDelayed hphase
        have hless := blocked_wake (a := a) (t := t) (by rw [hphase]; simp)
        obtain ⟨sw, lists₂, next, top₂, s₂, hloop, hrel, hb, hhigher⟩ :=
          ih h' hc (by omega) (b || decide (k.uxPriority t > k.uxPriority c))
        refine ⟨sw, lists₂, next, top₂, s₂, ?_, ?_, ?_, ?_⟩
        · have hdue : ¬ k.xTickCount < BitVec.ofNat 64 a.clock := fun hlt => hlater (hmod.mp hlt)
          simp only [hdue, Bool.false_eq_true, if_false, hremove, hevent, hadd, Option.bind_some, hc]
          simpa only [hc] using hloop
        · rw [Sleepers.wake_expire hphase] at hrel
          exact hrel
        · intro hb'
          exact hb (by simp [hb'])
        · intro u hu hprio
          by_cases heq : u = t
          · subst heq
            exact hb (by simp [hprio])
          · exact hhigher u (by simp [heq, hu]) hprio

end Unblock

section Increment

section Clock

omit [DecidableEq ε] [DecidableEq τ]

theorem Rel.tick_wraps (h : Rel k s a) :
    k.xTickCount + 1 = 0 ↔ (a.clock + 1) % tickPeriod = 0 := by
  rw [h.tick, ← BitVec.toNat_inj, BitVec.toNat_add, BitVec.toNat_ofNat]
  simp [tickPeriod]

-- The tick count goes on without overflowing: the delayed lists stay.
theorem Rel.advance_same (h : Rel k s a) (hawake : a.Awake)
    (hwrap : (a.clock + 1) % tickPeriod ≠ 0) :
    Rel { k with xTickCount := k.xTickCount + 1 } s a.advance := by
  have hsame : (a.clock + 1) / tickPeriod = a.clock / tickPeriod := by
    rw [Nat.succ_div]
    rw [if_neg (by rwa [Nat.dvd_iff_mod_eq_zero]), Nat.add_zero]
  have hlist : ∀ t, listOf { k with xTickCount := k.xTickCount + 1 } (a.clock + 1) t (a.phase t) =
      listOf k a.clock t (a.phase t) := by
    intro t
    cases a.phase t with
    | Until wake => rw [listOf, listOf, hsame]
    | Ready => rfl
    | Forever => rfl
    | Nowhere => rfl
  refine ⟨h.holds, h.delayed, ?_, ?_, ?_, h.event, h.value, ?_, h.inOrder, h.eventValue,
    h.next, h.top⟩
  · show k.xTickCount + 1 = _
    rw [h.tick, Sleepers.advance]
    simp [BitVec.ofNat_add]
  · rw [Sleepers.advance, hsame]
    exact h.overflows
  · intro t
    rw [h.state]
    exact (hlist t).symm
  · intro t wake hphase
    have hlt := hawake t wake hphase
    have hwake := h.wake t wake hphase
    simp only [Sleepers.advance]
    omega

end Clock

omit [DecidableEq ε] [DecidableEq τ] in
theorem Rel.resetNext (h : Rel { k with xNextTaskUnblockTime := 0 } s a) :
    ∃ next, k.prvResetNextTaskUnblockTime = { k with xNextTaskUnblockTime := next } ∧
      Rel { k with xNextTaskUnblockTime := next } s a := by
  unfold Kernel.prvResetNextTaskUnblockTime
  by_cases hempty : (s.lists.ring k.pxDelayedTaskList).items = []
  · rw [if_pos (h.delayed_empty.mpr hempty)]
    refine ⟨_, rfl, h.setNext ?_⟩
    intro t wake hphase hsame
    have hmem := h.mem_delayed.mpr ⟨t, wake, rfl, hphase, hsame⟩
    rw [hempty] at hmem
    cases hmem
  · have hnonempty : ¬ listLIST_IS_EMPTY k.pxDelayedTaskList k.lists = true :=
      fun h' => hempty (h.delayed_empty.mp h')
    rw [if_neg hnonempty]
    obtain ⟨t, wake, -, -, hsame, -, hvalue, hfirst⟩ := h.delayed_head hempty
    refine ⟨_, rfl, h.setNext ?_⟩
    intro u wake' hu hsame'
    have hle := hfirst u wake' hu hsame'
    have hdiv := Nat.div_add_mod wake tickPeriod
    have hdiv' := Nat.div_add_mod wake' tickPeriod
    rw [hsame] at hdiv
    rw [hsame'] at hdiv'
    rw [hvalue, BitVec.toNat_ofNat]
    simp only [tickPeriod] at hdiv hdiv' ⊢
    omega

omit [DecidableEq ε] [DecidableEq τ] in
-- The tick count overflows: everybody who was to wake before that is awake,
-- and those who wake after it are on the list that is in use from now on.
theorem Rel.advance_wrap (h : Rel k s a) (hawake : a.Awake)
    (hwrap : (a.clock + 1) % tickPeriod = 0) :
    ∃ next, ({ k with xTickCount := k.xTickCount + 1 } : Kernel ε τ).taskSWITCH_DELAYED_LISTS =
        some { k with
          xTickCount := k.xTickCount + 1
          pxDelayedTaskList := k.pxOverflowDelayedTaskList
          pxOverflowDelayedTaskList := k.pxDelayedTaskList
          xNumOfOverflows := k.xNumOfOverflows + 1
          xNextTaskUnblockTime := next } ∧
      Rel { k with
          xTickCount := k.xTickCount + 1
          pxDelayedTaskList := k.pxOverflowDelayedTaskList
          pxOverflowDelayedTaskList := k.pxDelayedTaskList
          xNumOfOverflows := k.xNumOfOverflows + 1
          xNextTaskUnblockTime := next } s a.advance := by
  have hnext : (a.clock + 1) / tickPeriod = a.clock / tickPeriod + 1 := by
    rw [Nat.succ_div, if_pos (by rwa [Nat.dvd_iff_mod_eq_zero])]
  -- whoever still sleeps wakes after the overflow
  have hafter : ∀ t wake, a.phase t = .Until wake →
      wake / tickPeriod = a.clock / tickPeriod + 1 := by
    intro t wake hphase
    have hlt := hawake t wake hphase
    have hwake := h.wake t wake hphase
    simp only [tickPeriod] at hwrap hwake ⊢
    omega
  have hempty : (s.lists.ring k.pxDelayedTaskList).items = [] := by
    rw [List.eq_nil_iff_forall_not_mem]
    intro i hi
    obtain ⟨t, wake, -, hphase, hsame⟩ := h.mem_delayed.mp hi
    have hlater := hafter t wake hphase
    omega
  have hrel : Rel { k with
      xTickCount := k.xTickCount + 1
      pxDelayedTaskList := k.pxOverflowDelayedTaskList
      pxOverflowDelayedTaskList := k.pxDelayedTaskList
      xNumOfOverflows := k.xNumOfOverflows + 1
      xNextTaskUnblockTime := 0 } s a.advance := by
    refine ⟨h.holds, ?_, ?_, ?_, ?_, h.event, h.value, ?_, h.inOrder, h.eventValue, ?_, h.top⟩
    · obtain ⟨hd, ho⟩ | ⟨hd, ho⟩ := h.delayed
      · exact .inr ⟨ho, hd⟩
      · exact .inl ⟨ho, hd⟩
    · show k.xTickCount + 1 = _
      rw [h.tick, Sleepers.advance]
      simp [BitVec.ofNat_add]
    · show k.xNumOfOverflows + 1 = _
      rw [h.overflows, Sleepers.advance, hnext]
      simp [BitVec.ofNat_add]
    · intro t
      rw [h.state]
      show listOf k a.clock t (a.phase t) = listOf _ (a.clock + 1) t (a.phase t)
      cases hphase : a.phase t with
      | Until wake =>
        have hlater := hafter t wake hphase
        rw [listOf, listOf, if_neg (by omega), if_pos (by rw [hlater, hnext])]
      | Ready => rfl
      | Forever => rfl
      | Nowhere => rfl
    · intro t wake hphase
      have hlt := hawake t wake hphase
      have hwake := h.wake t wake hphase
      simp only [Sleepers.advance]
      omega
    · exact fun t _ => Nat.zero_le _
  obtain ⟨next, hreset, hnextRel⟩ := Rel.resetNext (k := { k with
      xTickCount := k.xTickCount + 1
      pxDelayedTaskList := k.pxOverflowDelayedTaskList
      pxOverflowDelayedTaskList := k.pxDelayedTaskList
      xNumOfOverflows := k.xNumOfOverflows + 1 }) hrel
  refine ⟨next, ?_, hnextRel⟩
  have hassert : listLIST_IS_EMPTY k.pxDelayedTaskList k.lists = true :=
    h.delayed_empty.mpr hempty
  simp only [Kernel.taskSWITCH_DELAYED_LISTS, Kernel.configASSERT, hassert, if_true,
    Option.bind_eq_bind, Option.bind_some]
  rw [hreset]

omit [DecidableEq ε] [DecidableEq τ] in
theorem Rel.countTick (h : Rel k s a) (hawake : a.Awake) :
    ∃ next d o overflows, k.countTick = some { k with
          xTickCount := k.xTickCount + 1, pxDelayedTaskList := d, pxOverflowDelayedTaskList := o
          xNumOfOverflows := overflows, xNextTaskUnblockTime := next } ∧
      Rel { k with
          xTickCount := k.xTickCount + 1, pxDelayedTaskList := d, pxOverflowDelayedTaskList := o
          xNumOfOverflows := overflows, xNextTaskUnblockTime := next } s a.advance := by
  unfold Kernel.countTick
  by_cases hwrap : (a.clock + 1) % tickPeriod = 0
  · obtain ⟨next, hswitch, hrel⟩ := h.advance_wrap hawake hwrap
    refine ⟨next, _, _, _, ?_, hrel⟩
    rw [if_pos (h.tick_wraps.mpr hwrap)]
    exact hswitch
  · refine ⟨k.xNextTaskUnblockTime, k.pxDelayedTaskList, k.pxOverflowDelayedTaskList,
      k.xNumOfOverflows, ?_, h.advance_same hawake hwrap⟩
    rw [if_neg (fun heq => hwrap (h.tick_wraps.mp heq))]

omit [DecidableEq ε] [DecidableEq τ] in
-- Before the next wake time there is nobody to wake.
theorem Rel.awake_of_next (h : Rel k s a) (hnext : ¬ k.xTickCount ≥ k.xNextTaskUnblockTime) :
    a.Awake := by
  intro t wake hphase
  have hwake := h.wake t wake hphase
  by_contra hle
  have hnow : wake = a.clock := by omega
  subst hnow
  have hmem := h.mem_delayed.mpr ⟨t, a.clock, rfl, hphase, rfl⟩
  have hlower := h.next t ((s.lists.home_iff _ _).mpr hmem)
  rw [h.value t _ hphase, ← h.tick] at hlower
  exact hnext hlower

theorem Rel.unblockDue [Fintype τ] (h : Rel k s a) (hc : k.pxCurrentTCB = some c) {fuel : Nat}
    (hfuel : Fintype.card τ < fuel) :
    ∃ sw lists next top s', k.unblockDue fuel = some (sw,
        { k with lists := lists, xNextTaskUnblockTime := next, uxTopReadyPriority := top }) ∧
      Rel { k with lists := lists, xNextTaskUnblockTime := next, uxTopReadyPriority := top } s'
        a.expire ∧
      ∀ t, a.phase t = .Until a.clock → k.uxPriority t > k.uxPriority c → sw = true := by
  unfold Kernel.unblockDue
  by_cases hdue : k.xTickCount ≥ k.xNextTaskUnblockTime
  · have hcard : (blocked a).card < fuel := Nat.lt_of_le_of_lt (Finset.card_le_univ _) hfuel
    obtain ⟨sw, lists, next, top, s', hunblock, hrel, -, hhigher⟩ :=
      unblockTasks_spec h hc hcard false
    rw [if_pos hdue]
    exact ⟨sw, lists, next, top, s', hunblock, hrel, hhigher⟩
  · have hawake := h.awake_of_next hdue
    rw [if_neg hdue]
    refine ⟨false, k.lists, k.xNextTaskUnblockTime, k.uxTopReadyPriority, s, rfl, ?_, ?_⟩
    · rw [Sleepers.expire_of_awake hawake]
      exact h
    · intro t hphase
      exact absurd (hawake t _ hphase) (Nat.lt_irrefl _)

-- A tick while the scheduler is not suspended. It asks for a switch if it has
-- woken a task above the one that runs, if that one has to share its priority,
-- and if a switch was due already.
theorem xTaskIncrementTick_spec [Fintype τ] (h : Rel k s a) (hawake : a.Awake)
    (hc : k.pxCurrentTCB = some c) (hrunning : k.uxSchedulerSuspended = 0) {fuel : Nat}
    (hfuel : Fintype.card τ < fuel) :
    ∃ sw lists next top d o overflows s', k.xTaskIncrementTick fuel = some (sw, { k with
          lists := lists, xNextTaskUnblockTime := next, uxTopReadyPriority := top
          xTickCount := k.xTickCount + 1, pxDelayedTaskList := d, pxOverflowDelayedTaskList := o
          xNumOfOverflows := overflows }) ∧
      Rel { k with
          lists := lists, xNextTaskUnblockTime := next, uxTopReadyPriority := top
          xTickCount := k.xTickCount + 1, pxDelayedTaskList := d, pxOverflowDelayedTaskList := o
          xNumOfOverflows := overflows } s' a.tick ∧
      (k.xYieldPending = true → sw = true) ∧
      (1 < (s'.lists.ring (ReadyTasks (k.uxPriority c))).items.length → sw = true) ∧
      ∀ t, a.phase t = .Until (a.clock + 1) → k.uxPriority t > k.uxPriority c → sw = true := by
  obtain ⟨next, d, o, overflows, hcount, hrel⟩ := h.countTick hawake
  obtain ⟨sw, lists, next', top, s', hunblock, hrel', hhigher⟩ := hrel.unblockDue hc hfuel
  have hlength : listCURRENT_LIST_LENGTH (ReadyTasks (k.uxPriority c)) lists =
      (s'.lists.ring (ReadyTasks (k.uxPriority c))).items.length := hrel'.holds.represents.count _
  refine ⟨sw || decide ((s'.lists.ring (ReadyTasks (k.uxPriority c))).items.length > 1) ||
    k.xYieldPending, lists, next', top, d, o, overflows, s', ?_, hrel', ?_, ?_, ?_⟩
  · rw [Kernel.xTaskIncrementTick, if_pos hrunning, hcount]
    simp only [Option.bind_eq_bind, Option.bind_some]
    rw [hunblock]
    simp only [Option.bind_some]
    rw [hc, Option.bind_some, hlength]
  · intro hyield
    simp [hyield]
  · intro hmany
    simp [hmany]
  · intro t hphase hprio
    simp [hhigher t hphase hprio]

end Increment

end SpaceBaremetal.Tasks

import SpaceBaremetal.Kernel.Tasks.Switch
import SpaceBaremetal.Kernel.Tasks.Tick

open SpaceBaremetal.Lists

namespace SpaceBaremetal.Tasks

open ListName TaskItem

variable {ε τ : Type} [DecidableEq ε] [DecidableEq τ]
variable {k : Kernel ε τ} {s : KernelLists ε τ} {a : Sleepers ε τ} {t c : τ}

section Release

omit [DecidableEq ε] [DecidableEq τ] in
theorem Rel.mem_pending (h : Rel k s a) {i : TaskItem τ} :
    i ∈ (s.lists.ring PendingReady).items ↔
      ∃ t, i = EventListItem t ∧ a.wait t = some .Woken := by
  rw [← s.lists.home_iff]
  constructor
  · intro hi
    cases i with
    | EventListItem t =>
      rw [h.event] at hi
      rcases hwait : a.wait t with _ | e | _
      · simp [hwait, eventListOf] at hi
      · simp [hwait, eventListOf] at hi
      · exact ⟨t, rfl, hwait⟩
    | StateListItem t =>
      rw [h.state] at hi
      cases hphase : a.phase t with
      | Until wake =>
        rw [hphase, listOf] at hi
        obtain ⟨hd, ho⟩ | ⟨hd, ho⟩ := h.delayed <;> split at hi <;> simp [hd, ho] at hi
      | Ready => simp [hphase, listOf] at hi
      | Forever => simp [hphase, listOf] at hi
      | Nowhere => simp [hphase, listOf] at hi
  · rintro ⟨t, rfl, hwait⟩
    rw [h.event, hwait, eventListOf]

variable [Fintype τ]

def pendingTasks (a : Sleepers ε τ) : Finset τ :=
  Finset.univ.filter fun t => a.wait t = some .Woken

omit [DecidableEq τ] in
theorem mem_pendingTasks : t ∈ pendingTasks a ↔ a.wait t = some .Woken := by
  simp [pendingTasks]

theorem pendingTasks_wake (ht : a.wait t = some .Woken) :
    (pendingTasks (a.wake t)).card < (pendingTasks a).card := by
  have hsubset : pendingTasks (a.wake t) ⊆ pendingTasks a := by
    intro u hu
    rw [mem_pendingTasks] at hu ⊢
    by_cases heq : u = t
    · rw [heq]
      exact ht
    · rwa [Sleepers.wake_wait, Function.update_of_ne heq] at hu
  apply Finset.card_lt_card
  rw [Finset.ssubset_iff_of_subset hsubset]
  refine ⟨t, mem_pendingTasks.mpr ht, ?_⟩
  rw [mem_pendingTasks]
  simp

-- The first loop of `xTaskResumeAll` makes all tasks ready whose event came
-- while the scheduler was suspended.
theorem movePendingReady_spec (h : Rel k s a) (hc : k.pxCurrentTCB = some c)
    (hnowhere : ∀ t, a.phase t ≠ .Nowhere) {fuel : Nat} (hfuel : (pendingTasks a).card < fuel)
    (moved : Bool) :
    ∃ moved' lists top yield s', Kernel.movePendingReady fuel moved k = some (moved',
        { k with lists := lists, uxTopReadyPriority := top, xYieldPending := yield }) ∧
      Rel { k with lists := lists, uxTopReadyPriority := top, xYieldPending := yield } s'
        a.release ∧
      (k.xYieldPending = true → yield = true) ∧
      ∀ t, a.wait t = some .Woken → k.uxPriority t > k.uxPriority c → yield = true := by
  induction fuel generalizing k s a moved with
  | zero => omega
  | succ fuel ih =>
    rw [Kernel.movePendingReady]
    by_cases hempty : (s.lists.ring PendingReady).items = []
    · have hnone : ∀ t, a.wait t ≠ some .Woken := by
        intro t ht
        have hmem := h.mem_pending.mpr ⟨t, rfl, ht⟩
        rw [hempty] at hmem
        cases hmem
      have hlist : listLIST_IS_EMPTY PendingReady k.lists = true := by
        rw [listLIST_IS_EMPTY_refines h.holds.represents, hempty]
        rfl
      rw [if_pos hlist]
      refine ⟨moved, k.lists, k.uxTopReadyPriority, k.xYieldPending, s, rfl, ?_, id, ?_⟩
      · rw [Sleepers.release_of_none hnone]
        exact h
      · exact fun t ht => absurd ht (hnone t)
    · obtain ⟨i, rest, hitems⟩ := List.exists_cons_of_ne_nil hempty
      have hmem : i ∈ (s.lists.ring PendingReady).items := by simp [hitems]
      obtain ⟨t, rfl, hwait⟩ := h.mem_pending.mp hmem
      have hhead := listGET_OWNER_OF_HEAD_ENTRY_refines h.holds.represents PendingReady
      rw [hitems, headNode_cons] at hhead
      have hlist : ¬ listLIST_IS_EMPTY PendingReady k.lists = true := by
        rw [listLIST_IS_EMPTY_refines h.holds.represents, hitems]
        simp
      obtain ⟨f, hstate⟩ := h.home_of_phase (hnowhere t)
      obtain ⟨lists, lists', lists'', top, s', hevent, hremove, hadd, h'⟩ :=
        h.wakeEvent ((s.lists.home_iff _ _).mpr hmem) hstate
      have hless := pendingTasks_wake hwait
      have hnowhere' : ∀ u, (a.wake t).phase u ≠ .Nowhere := by
        intro u
        by_cases heq : u = t
        · simp [heq]
        · simpa [heq] using hnowhere u
      have hyield : ∀ y, Rel { k with
          lists := lists'', uxTopReadyPriority := top, xYieldPending := y } s' (a.wake t) := by
        intro y
        exact h'.others _ _ _ _ _ _ _
      obtain ⟨moved', lists₂, top₂, yield, s₂, hloop, hrel, hpending, hhigher⟩ :=
        ih (hyield (k.xYieldPending || decide (k.uxPriority t > k.uxPriority c))) hc hnowhere'
          (by omega) true
      refine ⟨moved', lists₂, top₂, yield, s₂, ?_, ?_, ?_, ?_⟩
      · rw [if_neg hlist, hhead]
        simp only [Kernel.ownerOf, pxOwner, Option.bind_eq_bind, Option.bind_some, hevent, hremove,
          hadd, hc, setYield]
        simpa only [hc] using hloop
      · rw [Sleepers.wake_release hwait] at hrel
        exact hrel
      · intro hy
        exact hpending (by simp [hy])
      · intro u hu hprio
        by_cases heq : u = t
        · subst heq
          exact hpending (by simp [hprio])
        · exact hhigher u (by simp [heq, hu]) hprio

end Release

section Pended

variable [Fintype τ]

-- The second loop makes up for the ticks that came in the meantime.
theorem processPendedTicks_spec (h : Rel k s a) (hawake : a.Awake) (hc : k.pxCurrentTCB = some c)
    (hrunning : k.uxSchedulerSuspended = 0) {fuel : Nat} (hfuel : Fintype.card τ < fuel) (n : Nat) :
    ∃ lists next top tick d o overflows yield s', Kernel.processPendedTicks fuel n k =
        some { k with
          lists := lists, xNextTaskUnblockTime := next, uxTopReadyPriority := top
          xTickCount := tick, pxDelayedTaskList := d, pxOverflowDelayedTaskList := o
          xNumOfOverflows := overflows, xYieldPending := yield } ∧
      Rel { k with
          lists := lists, xNextTaskUnblockTime := next, uxTopReadyPriority := top
          xTickCount := tick, pxDelayedTaskList := d, pxOverflowDelayedTaskList := o
          xNumOfOverflows := overflows, xYieldPending := yield } s' (Sleepers.ticks n a) ∧
      (k.xYieldPending = true → yield = true) ∧
      ∀ t, ¬IsReady a t → IsReady (Sleepers.ticks n a) t → k.uxPriority t > k.uxPriority c →
        yield = true := by
  induction n generalizing k s a with
  | zero =>
    exact ⟨k.lists, k.xNextTaskUnblockTime, k.uxTopReadyPriority, k.xTickCount, k.pxDelayedTaskList,
      k.pxOverflowDelayedTaskList, k.xNumOfOverflows, k.xYieldPending, s, rfl, h, id,
      fun t hnot hready => absurd hready hnot⟩
  | succ n ih =>
    obtain ⟨sw, lists, next, top, d, o, overflows, s', htick, hrel, hyield, -, hhigher⟩ :=
      xTaskIncrementTick_spec h hawake hc hrunning hfuel
    have hset : Rel { k with
        lists := lists, xNextTaskUnblockTime := next, uxTopReadyPriority := top
        xTickCount := k.xTickCount + 1, pxDelayedTaskList := d, pxOverflowDelayedTaskList := o
        xNumOfOverflows := overflows, xYieldPending := k.xYieldPending || sw } s' a.tick :=
      hrel.others _ _ _ _ _ _ _
    obtain ⟨lists', next', top', tick', d', o', overflows', yield, s₂, hrest, hrel', hkept,
      hhigher'⟩ := ih hset (Sleepers.tick_awake hawake) hc hrunning
    refine ⟨lists', next', top', tick', d', o', overflows', yield, s₂, ?_, hrel', ?_, ?_⟩
    · rw [Kernel.processPendedTicks, htick]
      simp only [Option.bind_eq_bind, Option.bind_some, setYield, Bool.decide_eq_true]
      exact hrest
    · intro hy
      exact hkept (by simp [hy])
    · intro t hnot hready hprio
      by_cases hnow : IsReady a.tick t
      · apply hkept
        have hwoken : a.phase t = .Until (a.clock + 1) := by
          by_contra hne
          rw [IsReady, Sleepers.tick_phase, if_neg hne] at hnow
          exact hnot hnow
        simp [hhigher t hwoken hprio]
      · exact hhigher' t hnow hready hprio

end Pended

section Resume

variable [Fintype τ]

theorem Rel.resumePendingReady (h : Rel k s a) (hc : k.pxCurrentTCB = some c)
    (hnowhere : ∀ t, a.phase t ≠ .Nowhere) {fuel : Nat} (hfuel : Fintype.card τ < fuel) :
    ∃ lists next top yield s', k.resumePendingReady fuel = some { k with
        lists := lists, xNextTaskUnblockTime := next, uxTopReadyPriority := top
        xYieldPending := yield } ∧
      Rel { k with
        lists := lists, xNextTaskUnblockTime := next, uxTopReadyPriority := top
        xYieldPending := yield } s' a.release ∧
      (k.xYieldPending = true → yield = true) ∧
      ∀ t, a.wait t = some .Woken → k.uxPriority t > k.uxPriority c → yield = true := by
  have hcard : (pendingTasks a).card < fuel := Nat.lt_of_le_of_lt (Finset.card_le_univ _) hfuel
  obtain ⟨moved, lists, top, yield, s', hmove, hrel, hkept, hhigher⟩ :=
    movePendingReady_spec h hc hnowhere hcard false
  rw [Kernel.resumePendingReady, hmove]
  simp only [Option.bind_eq_bind, Option.bind_some]
  cases moved with
  | false => exact ⟨lists, k.xNextTaskUnblockTime, top, yield, s', rfl, hrel, hkept, hhigher⟩
  | true =>
    obtain ⟨next, hreset, hrel'⟩ := Rel.resetNext (hrel.setNext fun _ _ _ _ => Nat.zero_le _)
    exact ⟨lists, next, top, yield, s', by rw [if_pos rfl, hreset], hrel', hkept, hhigher⟩

theorem Rel.resumePendedTicks (h : Rel k s a) (hawake : a.Awake) (hc : k.pxCurrentTCB = some c)
    (hrunning : k.uxSchedulerSuspended = 0) {fuel : Nat} (hfuel : Fintype.card τ < fuel) :
    ∃ lists next top tick d o overflows yield s', k.resumePendedTicks fuel =
        some { k with
          lists := lists, xNextTaskUnblockTime := next, uxTopReadyPriority := top
          xTickCount := tick, pxDelayedTaskList := d, pxOverflowDelayedTaskList := o
          xNumOfOverflows := overflows, xYieldPending := yield, xPendedTicks := 0 } ∧
      Rel { k with
          lists := lists, xNextTaskUnblockTime := next, uxTopReadyPriority := top
          xTickCount := tick, pxDelayedTaskList := d, pxOverflowDelayedTaskList := o
          xNumOfOverflows := overflows, xYieldPending := yield, xPendedTicks := 0 } s'
        (Sleepers.ticks k.xPendedTicks.toNat a) ∧
      (k.xYieldPending = true → yield = true) ∧
      ∀ t, ¬IsReady a t → IsReady (Sleepers.ticks k.xPendedTicks.toNat a) t →
        k.uxPriority t > k.uxPriority c → yield = true := by
  unfold Kernel.resumePendedTicks
  by_cases hpended : k.xPendedTicks > 0
  · obtain ⟨lists, next, top, tick, d, o, overflows, yield, s', hloop, hrel, hkept, hhigher⟩ :=
      processPendedTicks_spec h hawake hc hrunning hfuel k.xPendedTicks.toNat
    refine ⟨lists, next, top, tick, d, o, overflows, yield, s', ?_, ?_, hkept, hhigher⟩
    · rw [if_pos hpended, hloop]
      rfl
    · exact hrel.others _ _ _ _ _ _ _
  · have hzero : k.xPendedTicks = 0 := by
      rw [← BitVec.toNat_inj]
      have hle : ¬ 0 < k.xPendedTicks.toNat := hpended
      show k.xPendedTicks.toNat = 0
      omega
    have hticks : Sleepers.ticks k.xPendedTicks.toNat a = a := by
      rw [hzero]
      rfl
    rw [if_neg hpended, hticks]
    refine ⟨k.lists, k.xNextTaskUnblockTime, k.uxTopReadyPriority, k.xTickCount,
      k.pxDelayedTaskList, k.pxOverflowDelayedTaskList, k.xNumOfOverflows, k.xYieldPending, s, ?_,
      ?_, id, fun t hnot hready => absurd hready hnot⟩
    · rw [← hzero]
    · exact h.others _ _ _ _ _ _ _

end Resume

end SpaceBaremetal.Tasks

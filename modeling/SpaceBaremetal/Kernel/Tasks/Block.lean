import SpaceBaremetal.Kernel.Tasks.Switch

open SpaceBaremetal.Lists

namespace SpaceBaremetal.Tasks

open ListName TaskItem

variable {ε τ : Type} [DecidableEq ε] [DecidableEq τ]
variable {k : Kernel ε τ} {s : KernelLists ε τ} {a : Sleepers ε τ} {t c : τ}

section Sleep

-- For how long a task is put aside.
def sleepPhase (clock : Nat) (xTicksToWait : BitVec 64) (xCanBlockIndefinitely : Bool) : Phase :=
  if xTicksToWait = portMAX_DELAY ∧ xCanBlockIndefinitely then
    .Forever
  else
    .Until (clock + xTicksToWait.toNat)

theorem Rel.setStateValue (h : Rel k s a) (hphase : a.phase t = .Nowhere) (value : BitVec 64) :
    Rel (k.setLists (k.lists.setValue (.Item (StateListItem t)) value))
      { s with value := Function.update s.value (StateListItem t) value } a := by
  have hfree : s.lists.home (StateListItem t) = none := by rw [h.state, hphase, listOf]
  refine ⟨holds_setItemValue h.holds _ value, h.delayed, h.tick, h.overflows, h.state, h.event, ?_,
    h.wake, fun l hl => inOrder_setValue (h.inOrder l hl) hfree value, ?_, ?_, h.top⟩
  · intro u wake hu
    have hne : u ≠ t := by
      rintro rfl
      rw [hphase] at hu
      cases hu
    rw [← h.value u wake hu]
    simp [hne]
  · intro u
    show (Function.update s.value _ value (EventListItem u)).toNat = _
    rw [Function.update_of_ne (by simp)]
    exact h.eventValue u
  · intro u hu
    have hne : u ≠ t := by
      rintro rfl
      rw [hfree] at hu
      cases hu
    show k.xNextTaskUnblockTime.toNat ≤ (Function.update s.value _ value (StateListItem u)).toNat
    rw [Function.update_of_ne (by simpa using hne)]
    exact h.next u hu

-- The sum overflows exactly if the wake time is after the overflow.
theorem wake_overflows {clock : Nat} {ticks : BitVec 64} :
    BitVec.ofNat 64 clock + ticks < BitVec.ofNat 64 clock ↔
      (clock + ticks.toNat) / tickPeriod ≠ clock / tickPeriod := by
  have hticks := ticks.isLt
  rw [BitVec.lt_def, BitVec.toNat_add, BitVec.toNat_ofNat]
  simp only [tickPeriod]
  omega

theorem Rel.insertSleeper (h : Rel k s a) (hphase : a.phase t = .Nowhere) {wake : Nat}
    (hvalue : s.value (StateListItem t) = BitVec.ofNat 64 wake)
    (hwake : a.clock ≤ wake ∧ wake < a.clock + tickPeriod) {l : ListName ε}
    (hl : listOf k a.clock t (.Until wake) = some l) {fuel : Nat}
    (hfuel : (s.lists.ring l).items.length < fuel) {next : BitVec 64}
    (hnext : next.toNat ≤ k.xNextTaskUnblockTime.toNat)
    (hsoon : wake / tickPeriod = a.clock / tickPeriod → next.toNat ≤ wake % tickPeriod) :
    ∃ lists s', k.insertSorted fuel l (StateListItem t) = some (k.setLists lists) ∧
      Rel { k with lists := lists, xNextTaskUnblockTime := next } s'
        (a.setPhase t (.Until wake)) := by
  have hfree : s.lists.home (StateListItem t) = none := by rw [h.state, hphase, listOf]
  obtain ⟨lists, hinsert, hholds⟩ := perform_insert h.holds hfree hfuel
  refine ⟨lists, _, by simp [Kernel.insertSorted, hinsert],
    h.moveState hholds ?_ ?_ ?_ hnext (le_refl _) ?_ ?_⟩
  · rw [hl]
    rfl
  · exact fun i _ => rfl
  · rintro w ⟨⟩
    exact ⟨hvalue, hwake.1, hwake.2, hsoon⟩
  · rintro ⟨⟩
  · exact fun l' hl' => inOrder_insert (h.inOrder l' hl') hfree

-- The task that runs is put aside.
theorem prvAddCurrentTaskToDelayedList_spec [Fintype τ] (h : Rel k s a)
    (hc : k.pxCurrentTCB = some c) (hready : IsReady a c) (xTicksToWait : BitVec 64) (can : Bool)
    {fuel : Nat} (hfuel : Fintype.card (TaskItem τ) < fuel) :
    ∃ lists next s', k.prvAddCurrentTaskToDelayedList fuel xTicksToWait can =
        some { k with lists := lists, xNextTaskUnblockTime := next } ∧
      Rel { k with lists := lists, xNextTaskUnblockTime := next } s'
        (a.setPhase c (sleepPhase a.clock xTicksToWait can)) := by
  have hhome : s.lists.home (StateListItem c) = some (ReadyTasks (k.uxPriority c)) := by
    rw [h.state, show a.phase c = .Ready from hready, listOf]
  obtain ⟨lists, s₁, hremove, h₁⟩ := h.removeState hhome
  have hnowhere : (a.setPhase c .Nowhere).phase c = .Nowhere := by simp
  by_cases hforever : xTicksToWait = portMAX_DELAY ∧ can = true
  · have hbody : k.prvAddCurrentTaskToDelayedList fuel xTicksToWait can =
        some ((k.setLists lists).insertEnd SuspendedTask (StateListItem c)) := by
      rw [Kernel.prvAddCurrentTaskToDelayedList, hc]
      simp [hremove, hforever]
    obtain ⟨s₂, h₂⟩ := h₁.insertEndState hnowhere
      (show listOf _ _ _ .Forever = some SuspendedTask from rfl) (by simp) (le_refl _) (by simp)
    rw [Sleepers.setPhase_setPhase] at h₂
    rw [sleepPhase, if_pos hforever, hbody]
    exact ⟨_, k.xNextTaskUnblockTime, s₂, rfl, h₂⟩
  · have h₂ := h₁.setStateValue hnowhere (k.xTickCount + xTicksToWait)
    have hvalue : k.xTickCount + xTicksToWait =
        BitVec.ofNat 64 (a.clock + xTicksToWait.toNat) := by
      rw [h.tick, BitVec.ofNat_add, BitVec.ofNat_toNat]
      simp
    have hwake : a.clock ≤ a.clock + xTicksToWait.toNat ∧
        a.clock + xTicksToWait.toNat < a.clock + tickPeriod := by
      have hticks := xTicksToWait.isLt
      simp only [tickPeriod]
      omega
    rw [sleepPhase, if_neg hforever]
    by_cases hoverflow : k.xTickCount + xTicksToWait < k.xTickCount
    · have hlater : (a.clock + xTicksToWait.toNat) / tickPeriod ≠ a.clock / tickPeriod := by
        rw [h.tick] at hoverflow
        exact wake_overflows.mp hoverflow
      obtain ⟨lists', s₃, hinsert, h₃⟩ := h₂.insertSleeper hnowhere (by simpa using hvalue) hwake
        (by rw [listOf, Sleepers.setPhase_clock, if_neg hlater]) (h₂.length_lt hfuel _)
        (Nat.le_refl _) (fun hsame => absurd hsame hlater)
      rw [Sleepers.setPhase_setPhase] at h₃
      have hbody : k.prvAddCurrentTaskToDelayedList fuel xTicksToWait can =
          some ((k.setLists lists).setLists lists') := by
        rw [Kernel.prvAddCurrentTaskToDelayedList, hc]
        simp only [Option.bind_eq_bind, Option.bind_some, hremove, if_neg hforever,
          if_pos hoverflow]
        exact hinsert
      rw [hbody]
      exact ⟨lists', k.xNextTaskUnblockTime, s₃, rfl, h₃⟩
    · have hsame : (a.clock + xTicksToWait.toNat) / tickPeriod = a.clock / tickPeriod := by
        by_contra hlater
        rw [h.tick] at hoverflow
        exact hoverflow (wake_overflows.mpr hlater)
      have hmod : (k.xTickCount + xTicksToWait).toNat =
          (a.clock + xTicksToWait.toNat) % tickPeriod := by
        rw [hvalue, BitVec.toNat_ofNat]
      -- the next wake time is lowered to this one if it is the earlier
      obtain ⟨next, hnext, hle, hsoon⟩ : ∃ next : BitVec 64,
          (if k.xTickCount + xTicksToWait < k.xNextTaskUnblockTime then
            k.xTickCount + xTicksToWait else k.xNextTaskUnblockTime) = next ∧
          next.toNat ≤ k.xNextTaskUnblockTime.toNat ∧
          next.toNat ≤ (a.clock + xTicksToWait.toNat) % tickPeriod := by
        refine ⟨_, rfl, ?_⟩
        rw [← hmod]
        split
        · rename_i hlt
          exact ⟨Nat.le_of_lt hlt, Nat.le_refl _⟩
        · rename_i hlt
          exact ⟨Nat.le_refl _, Nat.le_of_not_lt hlt⟩
      obtain ⟨lists', s₃, hinsert, h₃⟩ := h₂.insertSleeper hnowhere (by simpa using hvalue) hwake
        (by rw [listOf, Sleepers.setPhase_clock, if_pos hsame]) (h₂.length_lt hfuel _) hle
        (fun _ => hsoon)
      rw [Sleepers.setPhase_setPhase] at h₃
      have hbody : k.prvAddCurrentTaskToDelayedList fuel xTicksToWait can =
          some { (k.setLists lists).setLists lists' with xNextTaskUnblockTime := next } := by
        have hinsert' : ((k.setLists lists).setLists _).insertSorted fuel
            ((k.setLists lists).setLists _).pxDelayedTaskList _ =
              some ((k.setLists lists).setLists lists') := hinsert
        rw [Kernel.prvAddCurrentTaskToDelayedList, hc]
        simp only [Option.bind_eq_bind, Option.bind_some, hremove, if_neg hforever,
          if_neg hoverflow]
        rw [hinsert', Option.bind_some, ← hnext]
        by_cases hlt : k.xTickCount + xTicksToWait < k.xNextTaskUnblockTime
        · rw [if_pos hlt]
          exact if_pos hlt
        · rw [if_neg hlt]
          exact if_neg hlt
      rw [hbody]
      exact ⟨lists', next, s₃, rfl, h₃⟩

end Sleep

section Events

theorem vTaskPlaceOnEventList_spec [Fintype τ] (h : Rel k s a) (hc : k.pxCurrentTCB = some c)
    (hready : IsReady a c) (hwait : a.wait c = none) (e : ε) (xTicksToWait : BitVec 64)
    {fuel : Nat} (hfuel : Fintype.card (TaskItem τ) < fuel) :
    ∃ lists next s', k.vTaskPlaceOnEventList fuel e xTicksToWait =
        some { k with lists := lists, xNextTaskUnblockTime := next } ∧
      Rel { k with lists := lists, xNextTaskUnblockTime := next } s'
        ((a.setWait c (some (.On e))).setPhase c (sleepPhase a.clock xTicksToWait true)) := by
  obtain ⟨lists, s₁, hinsert, h₁⟩ := h.insertSortedEvent hwait e (h.length_lt hfuel _)
  obtain ⟨lists', next, s₂, hadd, h₂⟩ := prvAddCurrentTaskToDelayedList_spec h₁ hc hready
    xTicksToWait true hfuel
  refine ⟨lists', next, s₂, ?_, h₂⟩
  have hbody : k.vTaskPlaceOnEventList fuel e xTicksToWait =
      (k.setLists lists).prvAddCurrentTaskToDelayedList fuel xTicksToWait true := by
    rw [Kernel.vTaskPlaceOnEventList, hc]
    simp [hinsert]
  rw [hbody, hadd]
  rfl

theorem vTaskPlaceOnEventListRestricted_spec [Fintype τ] (h : Rel k s a)
    (hc : k.pxCurrentTCB = some c) (hready : IsReady a c) (hwait : a.wait c = none) {e : ε}
    (halone : (s.lists.ring (Event e)).items = []) (xTicksToWait : BitVec 64)
    (xWaitIndefinitely : Bool) {fuel : Nat} (hfuel : Fintype.card (TaskItem τ) < fuel) :
    ∃ lists next s',
      k.vTaskPlaceOnEventListRestricted fuel e xTicksToWait xWaitIndefinitely =
        some { k with lists := lists, xNextTaskUnblockTime := next } ∧
      Rel { k with lists := lists, xNextTaskUnblockTime := next } s'
        ((a.setWait c (some (.On e))).setPhase c (sleepPhase a.clock
          (if xWaitIndefinitely then portMAX_DELAY else xTicksToWait) xWaitIndefinitely)) := by
  have halone' : ∀ e', Awaiting.On e = .On e' → (s.lists.ring (Event e')).items = [] := by
    rintro e' ⟨⟩
    exact halone
  obtain ⟨lists, s₁, hinsert, h₁⟩ := h.insertEndEvent hwait rfl halone'
  obtain ⟨lists', next, s₂, hadd, h₂⟩ := prvAddCurrentTaskToDelayedList_spec h₁ hc hready
    (if xWaitIndefinitely then portMAX_DELAY else xTicksToWait) xWaitIndefinitely hfuel
  refine ⟨lists', next, s₂, ?_, h₂⟩
  have hbody : k.vTaskPlaceOnEventListRestricted fuel e xTicksToWait xWaitIndefinitely =
      (k.setLists lists).prvAddCurrentTaskToDelayedList fuel
        (if xWaitIndefinitely then portMAX_DELAY else xTicksToWait) xWaitIndefinitely := by
    rw [Kernel.vTaskPlaceOnEventListRestricted, hc]
    simp only [Option.bind_eq_bind, Option.bind_some]
    rw [hinsert]
  rw [hbody, hadd]
  rfl

omit [DecidableEq ε] [DecidableEq τ] in
theorem Rel.mem_event (h : Rel k s a) {e : ε} {i : TaskItem τ} :
    i ∈ (s.lists.ring (Event e)).items ↔
      ∃ t, i = EventListItem t ∧ a.wait t = some (.On e) := by
  rw [← s.lists.home_iff]
  constructor
  · intro hi
    cases i with
    | EventListItem t =>
      rw [h.event] at hi
      rcases hwait : a.wait t with _ | e' | _
      · simp [hwait, eventListOf] at hi
      · rw [hwait, eventListOf, Option.some.injEq, ListName.Event.injEq] at hi
        exact ⟨t, rfl, by rw [hwait, hi]⟩
      · simp [hwait, eventListOf] at hi
    | StateListItem t =>
      rw [h.state] at hi
      cases hphase : a.phase t with
      | Until wake =>
        rw [hphase, listOf] at hi
        obtain ⟨hd, ho⟩ | ⟨hd, ho⟩ := h.delayed <;> split at hi <;> simp [hd, ho] at hi
      | Ready => simp [hphase, listOf] at hi
      | Forever => simp [hphase, listOf] at hi
      | Nowhere => simp [hphase, listOf] at hi
  · rintro ⟨t, rfl, hwait⟩
    rw [h.event, hwait, eventListOf]

omit [DecidableEq ε] [DecidableEq τ] in
theorem Rel.event_nonempty (h : Rel k s a) {e : ε} (hwait : a.wait t = some (.On e)) :
    listLIST_IS_EMPTY (Event e) k.lists = false := by
  rw [listLIST_IS_EMPTY_refines h.holds.represents, List.isEmpty_eq_false_iff]
  exact List.ne_nil_of_mem (h.mem_event.mpr ⟨t, rfl, hwait⟩)

omit [DecidableEq ε] [DecidableEq τ] in
-- Of those who wait for an event the most urgent is the first.
theorem Rel.event_head (h : Rel k s a) {e : ε}
    (hne : listLIST_IS_EMPTY (Event e) k.lists = false) :
    ∃ t, Kernel.ownerOf (listGET_OWNER_OF_HEAD_ENTRY (Event e) k.lists) = some t ∧
      a.wait t = some (.On e) ∧ ∀ u, a.wait u = some (.On e) → k.uxPriority u ≤ k.uxPriority t := by
  rw [listLIST_IS_EMPTY_refines h.holds.represents, List.isEmpty_eq_false_iff] at hne
  obtain ⟨i, rest, hitems⟩ := List.exists_cons_of_ne_nil hne
  have hmem : i ∈ (s.lists.ring (Event e)).items := by simp [hitems]
  obtain ⟨t, rfl, hwait⟩ := h.mem_event.mp hmem
  have hhead := listGET_OWNER_OF_HEAD_ENTRY_refines h.holds.represents (Event e)
  rw [hitems, headNode_cons] at hhead
  refine ⟨t, by rw [hhead]; rfl, hwait, ?_⟩
  intro u hu
  have hmem' := h.mem_event.mpr ⟨u, rfl, hu⟩
  rw [hitems, List.mem_cons] at hmem'
  obtain heq | hrest := hmem'
  · rw [EventListItem.inj heq]
  · have horder := h.inOrder (Event e) trivial
    rw [InOrder, hitems, List.pairwise_cons] at horder
    have hle := horder.1 _ hrest
    rw [h.eventValue, h.eventValue] at hle
    have ht := (k.uxPriority t).isLt
    have hu := (k.uxPriority u).isLt
    rw [Fin.le_def]
    omega

-- The most urgent of those who wait is woken, at once or when the scheduler is
-- resumed.
theorem xTaskRemoveFromEventList_spec (h : Rel k s a) (hc : k.pxCurrentTCB = some c)
    (hnowhere : ∀ t, a.phase t ≠ .Nowhere) {e : ε}
    (hne : listLIST_IS_EMPTY (Event e) k.lists = false) :
    ∃ t sw lists top yield s',
      Kernel.ownerOf (listGET_OWNER_OF_HEAD_ENTRY (Event e) k.lists) = some t ∧
      a.wait t = some (.On e) ∧ (∀ u, a.wait u = some (.On e) → k.uxPriority u ≤ k.uxPriority t) ∧
      k.xTaskRemoveFromEventList e = some (sw,
        { k with lists := lists, uxTopReadyPriority := top, xYieldPending := yield }) ∧
      Rel { k with lists := lists, uxTopReadyPriority := top, xYieldPending := yield } s'
        (if k.uxSchedulerSuspended = 0 then a.wake t else a.setWait t (some .Woken)) ∧
      (k.xYieldPending = true → yield = true) ∧
      (k.uxPriority t > k.uxPriority c → yield = true) := by
  obtain ⟨t, howner, hwait, hfirst⟩ := h.event_head hne
  obtain ⟨f, hstate⟩ := h.home_of_phase (hnowhere t)
  have hevent : s.lists.home (EventListItem t) = some (Event e) := by
    rw [h.event, hwait, eventListOf]
  have hready : ∃ lists k' lists' top s', k.removeItem (EventListItem t) = some (k.setLists lists) ∧
      (k.setLists lists).readyUnblocked t = some k' ∧
      k' = { k with lists := lists', uxTopReadyPriority := top } ∧
      Rel k' s' (if k.uxSchedulerSuspended = 0 then a.wake t else a.setWait t (some .Woken)) := by
    by_cases hrunning : k.uxSchedulerSuspended = 0
    · obtain ⟨lists, lists', lists'', top, s', hremove, hremove', hadd, hrel⟩ :=
        h.wakeEvent hevent hstate
      rw [if_pos hrunning]
      refine ⟨lists, _, lists'', top, s', hremove, ?_, rfl, hrel⟩
      have hrunning' : (k.setLists lists).uxSchedulerSuspended = 0 := hrunning
      rw [Kernel.readyUnblocked, if_pos hrunning', hremove', Option.bind_eq_bind, Option.bind_some,
        hadd]
    · obtain ⟨lists, s₁, hremove, h₁⟩ := h.removeEvent hevent
      obtain ⟨lists', s₂, hinsert, h₂⟩ := h₁.insertEndEvent (t := t) (by simp)
        (show eventListOf (some .Woken) = some PendingReady from rfl) (by simp)
      rw [if_neg hrunning]
      refine ⟨lists, _, lists', k.uxTopReadyPriority, s₂, hremove, ?_, rfl, ?_⟩
      · have hrunning' : ¬ (k.setLists lists).uxSchedulerSuspended = 0 := hrunning
        rw [Kernel.readyUnblocked, if_neg hrunning', hinsert]
        rfl
      · have hwoken : (a.setWait t none).setWait t (some .Woken) = a.setWait t (some .Woken) := by
          simp [Sleepers.setWait]
        rw [hwoken] at h₂
        exact h₂
  obtain ⟨lists, k', lists', top, s', hremove, hunblock, rfl, hrel⟩ := hready
  refine ⟨t, decide (k.uxPriority t > k.uxPriority c), lists', top,
    k.xYieldPending || decide (k.uxPriority t > k.uxPriority c), s', howner, hwait, hfirst, ?_,
    hrel.others _ _ _ _ _ _ _, ?_, ?_⟩
  · rw [Kernel.xTaskRemoveFromEventList, howner]
    simp only [Option.bind_eq_bind, Option.bind_some, hremove, hunblock, hc]
    split
    · rename_i hprio
      simp [hprio]
    · rename_i hprio
      simp [hprio]
  · intro hy
    simp [hy]
  · intro hprio
    simp [hprio]

end Events

end SpaceBaremetal.Tasks

import SpaceBaremetal.Kernel.Tasks.Start

open SpaceBaremetal.Lists

namespace SpaceBaremetal.Tasks

open ListName TaskItem

variable {ε τ : Type} [DecidableEq ε] [DecidableEq τ]

-- A run of the kernel: the calls follow each other, and every caller keeps to
-- what is allowed.
inductive Run (idle : τ) (fuel : Nat) (k₀ : Kernel ε τ) : List (Call ε τ) → Kernel ε τ → Prop
  | nil : Run idle fuel k₀ [] k₀
  | snoc {calls : List (Call ε τ)} {k k' : Kernel ε τ} {c : Call ε τ}
      (run : Run idle fuel k₀ calls k) (allowed : Allowed idle c k)
      (step : call fuel c k = some k') : Run idle fuel k₀ (calls ++ [c]) k'

theorem Run.eq_of_nil {idle : τ} {fuel : Nat} {k₀ k : Kernel ε τ} (run : Run idle fuel k₀ [] k) :
    k = k₀ := by
  generalize hcalls : ([] : List (Call ε τ)) = calls at run
  cases run with
  | nil => rfl
  | snoc run allowed step => simp at hcalls

-- The kernel as `vTaskStartScheduler` leaves it.
def Started (k : Kernel ε τ) : Prop :=
  ∃ memory uxPriority notification, ∃ tasks : List (τ × Priority),
    (∀ i, memory.pxContainer i = none) ∧ (∀ e, Initialised memory (Event e)) ∧
    (tasks.map Prod.fst).Nodup ∧ (∀ t, t ∈ tasks.map Prod.fst) ∧
    start tasks (initialKernel memory uxPriority notification) = some k

theorem Started.good {k : Kernel ε τ} (h : Started k) (idle : τ) :
    (∃ s, Good idle k s everyoneReady) ∧ k.xPendedTicks = 0 := by
  obtain ⟨memory, uxPriority, notification, tasks, hfree, hevents, hnodup, hall, hstart⟩ := h
  obtain ⟨k', s, hstart', hgood, -, hpended, -⟩ :=
    start_good hfree hevents uxPriority notification hnodup hall idle
  obtain rfl := Option.some.inj (hstart.symm.trans hstart')
  exact ⟨⟨s, hgood⟩, hpended⟩

section Clock

variable [Fintype τ] {idle : τ} {k k' : Kernel ε τ} {s : KernelLists ε τ} {a : Sleepers ε τ}
  {c : Call ε τ} {fuel : Nat}

omit [Fintype τ] in
theorem effect_clock_of_ne (htick : c ≠ .Tick) (hresume : c ≠ .ResumeAll) :
    (effect c k a).clock = a.clock := by
  cases c with
  | Tick => exact absurd rfl htick
  | ResumeAll => exact absurd rfl hresume
  | Delay n => cases hcurrent : k.pxCurrentTCB <;> simp [effect, hcurrent]
  | PlaceOnEventList e n => cases hcurrent : k.pxCurrentTCB <;> simp [effect, hcurrent]
  | PlaceOnEventListRestricted e n always =>
    cases hcurrent : k.pxCurrentTCB <;> simp [effect, hcurrent]
  | RemoveFromEventList e =>
    simp only [effect]
    split
    · split
      · rfl
      · rfl
    · rfl
  | Notify t value action =>
    simp only [effect]
    split
    · rfl
    · rfl
  | NotifyWait clear n =>
    cases hcurrent : k.pxCurrentTCB with
    | none => simp [effect, hcurrent]
    | some t =>
      simp only [effect, hcurrent]
      split
      · rfl
      · rfl
  | Yield => rfl
  | SuspendAll => rfl
  | MissedYield => rfl
  | NotifyTaken clear => rfl

omit [Fintype τ] in
theorem effect_resumeAll_clock :
    (effect .ResumeAll k a).clock =
      if k.uxSchedulerSuspended = 1 then a.clock + k.xPendedTicks.toNat else a.clock := by
  simp only [effect]
  split
  · rw [Sleepers.ticks_clock]
    rfl
  · rfl

omit [Fintype τ] in
theorem effect_clock_le : a.clock ≤ (effect c k a).clock := by
  by_cases htick : c = .Tick
  · subst htick
    simp only [effect]
    split
    · exact Nat.le_succ _
    · exact Nat.le_refl _
  · by_cases hresume : c = .ResumeAll
    · subst hresume
      rw [effect_resumeAll_clock]
      split
      · exact Nat.le_add_right _ _
      · exact Nat.le_refl _
    · rw [effect_clock_of_ne htick hresume]

omit [Fintype τ] in
-- A tick is counted or is kept to be counted later.
theorem effect_clock (hallowed : Allowed idle c k) :
    (effect c k a).clock + (pendedAfter c k).toNat =
      a.clock + k.xPendedTicks.toNat + if c = .Tick then 1 else 0 := by
  by_cases htick : c = .Tick
  · subst htick
    rw [if_pos rfl]
    by_cases hrunning : k.uxSchedulerSuspended = 0
    · simp only [effect, pendedAfter, hrunning, if_true, Sleepers.tick_clock]
      omega
    · have hpended : (k.xPendedTicks + 1).toNat = k.xPendedTicks.toNat + 1 := by
        have hlt := k.xPendedTicks.isLt
        have hne : k.xPendedTicks.toNat ≠ 2 ^ 64 - 1 := by
          intro heq
          exact hallowed hrunning (BitVec.eq_of_toNat_eq (by rw [heq]; rfl))
        rw [BitVec.toNat_add]
        show (_ + 1) % 2 ^ 64 = _
        omega
      simp only [effect, pendedAfter, hrunning, if_false, hpended]
      omega
  · rw [if_neg htick]
    by_cases hresume : c = .ResumeAll
    · subst hresume
      rw [effect_resumeAll_clock, pendedAfter]
      split
      · simp
      · rfl
    · rw [effect_clock_of_ne htick hresume]
      cases c with
      | Tick => exact absurd rfl htick
      | ResumeAll => exact absurd rfl hresume
      | _ => rfl

omit [Fintype τ] in
-- The ticks of a run are counted, or kept for later.
theorem Next.clock (hnext : Next c k k') (hallowed : Allowed idle c k) {start : Nat}
    {calls : List (Call ε τ)}
    (hclock : a.clock + k.xPendedTicks.toNat = start + calls.count .Tick) :
    (effect c k a).clock + k'.xPendedTicks.toNat = start + (calls ++ [c]).count .Tick := by
  rw [hnext.pended, effect_clock hallowed, hclock, List.count_append, List.count_singleton]
  by_cases htick : c = .Tick
  · rw [if_pos htick, if_pos (beq_iff_eq.mpr htick)]
    omega
  · rw [if_neg htick, if_neg (by simpa using htick)]
    omega

-- What holds at first and is kept by every call holds after every run.
theorem Run.invariant {k₀ : Kernel ε τ} {s₀ : KernelLists ε τ} {a₀ : Sleepers ε τ}
    {calls : List (Call ε τ)} {P : List (Call ε τ) → Kernel ε τ → Sleepers ε τ → Prop}
    (hfuel : Fintype.card (TaskItem τ) < fuel) (h₀ : Good idle k₀ s₀ a₀) (hnil : P [] k₀ a₀)
    (hstep : ∀ {calls k s a c k' s'}, Run idle fuel k₀ (calls ++ [c]) k' → Good idle k s a →
      P calls k a → Allowed idle c k → Next c k k' → Good idle k' s' (effect c k a) →
      P (calls ++ [c]) k' (effect c k a))
    (run : Run idle fuel k₀ calls k) : ∃ s a, Good idle k s a ∧ P calls k a := by
  induction run with
  | nil => exact ⟨s₀, a₀, h₀, hnil⟩
  | snoc run allowed step ih =>
    obtain ⟨s, a, h, hP⟩ := ih
    obtain ⟨k', s', hcall, h', hnext⟩ := h.call hfuel allowed
    obtain rfl := Option.some.inj (step.symm.trans hcall)
    exact ⟨s', _, h', hstep (run.snoc allowed step) h hP allowed hnext h'⟩

theorem Run.good {k₀ : Kernel ε τ} {s₀ : KernelLists ε τ} {a₀ : Sleepers ε τ}
    {calls : List (Call ε τ)} (hfuel : Fintype.card (TaskItem τ) < fuel)
    (h₀ : Good idle k₀ s₀ a₀) (run : Run idle fuel k₀ calls k) :
    ∃ s a, Good idle k s a ∧ k.uxPriority = k₀.uxPriority ∧
      a.clock + k.xPendedTicks.toNat =
        a₀.clock + k₀.xPendedTicks.toNat + calls.count .Tick := by
  refine run.invariant (P := fun calls k a => k.uxPriority = k₀.uxPriority ∧
    a.clock + k.xPendedTicks.toNat = a₀.clock + k₀.xPendedTicks.toNat + calls.count .Tick)
    hfuel h₀ ⟨rfl, rfl⟩ ?_
  rintro calls k s a c k' s' - - ⟨hpriority, hclock⟩ hallowed hnext -
  exact ⟨hnext.priority.trans hpriority, hnext.clock hallowed hclock⟩

end Clock

section Consistent

-- The task may run: it is on the ready list of its priority.
def OnReadyList (k : Kernel ε τ) (t : τ) : Prop :=
  k.lists.pxContainer (StateListItem t) = some (ReadyTasks (k.uxPriority t))

def OnDelayedList (k : Kernel ε τ) (t : τ) : Prop :=
  k.lists.pxContainer (StateListItem t) = some k.pxDelayedTaskList ∨
    k.lists.pxContainer (StateListItem t) = some k.pxOverflowDelayedTaskList

def OnEventList (k : Kernel ε τ) (e : ε) (t : τ) : Prop :=
  k.lists.pxContainer (EventListItem t) = some (Event e)

-- The kernel's lists hang together, and the processor is with the right task.
structure Consistent (k : Kernel ε τ) : Prop where
  rings : ∃ rings, Represents k.lists rings
  state : ∀ t, OnReadyList k t ∨ OnDelayedList k t ∨
    k.lists.pxContainer (StateListItem t) = some SuspendedTask
  event : ∀ t, OnReadyList k t → k.lists.pxContainer (EventListItem t) = none
  pending : k.uxSchedulerSuspended = 0 →
    ∀ t, k.lists.pxContainer (EventListItem t) ≠ some PendingReady
  current : ∃ c, k.pxCurrentTCB = some c ∧ (k.xYieldPending = true ∨
    ∀ t, OnReadyList k t → k.uxPriority t ≤ k.uxPriority c)

variable {idle : τ} {k : Kernel ε τ} {s : KernelLists ε τ} {a : Sleepers ε τ} {t : τ} {e : ε}

omit [DecidableEq ε] [DecidableEq τ] in
theorem Rel.onReadyList_iff (h : Rel k s a) : OnReadyList k t ↔ a.phase t = .Ready := by
  rw [OnReadyList, h.pxContainer_state]
  obtain ⟨hd, ho⟩ | ⟨hd, ho⟩ := h.delayed
  · cases hphase : a.phase t <;> simp [listOf, hd, ho]
    split <;> simp
  · cases hphase : a.phase t <;> simp [listOf, hd, ho]
    split <;> simp

omit [DecidableEq ε] [DecidableEq τ] in
theorem Rel.onDelayedList_iff (h : Rel k s a) :
    OnDelayedList k t ↔ ∃ wake, a.phase t = .Until wake := by
  rw [OnDelayedList, h.pxContainer_state]
  obtain ⟨hd, ho⟩ | ⟨hd, ho⟩ := h.delayed
  · cases hphase : a.phase t <;> simp [listOf, hd, ho]
    exact em _
  · cases hphase : a.phase t <;> simp [listOf, hd, ho]
    exact em _

omit [DecidableEq ε] [DecidableEq τ] in
theorem Rel.onEventList_iff (h : Rel k s a) : OnEventList k e t ↔ a.wait t = some (.On e) := by
  rw [OnEventList, h.pxContainer_event]
  rcases hwait : a.wait t with _ | e' | _
  · simp [eventListOf]
  · simp [eventListOf]
  · simp [eventListOf]

omit [DecidableEq ε] [DecidableEq τ] in
theorem Rel.onPendingReady_iff (h : Rel k s a) :
    k.lists.pxContainer (EventListItem t) = some PendingReady ↔ a.wait t = some .Woken := by
  rw [h.pxContainer_event]
  rcases hwait : a.wait t with _ | e' | _
  · simp [eventListOf]
  · simp [eventListOf]
  · simp [eventListOf]

omit [DecidableEq ε] [DecidableEq τ] in
theorem Good.consistent (h : Good idle k s a) : Consistent k := by
  obtain ⟨c, hc⟩ := h.current
  refine ⟨⟨_, h.rel.holds.represents⟩, ?_, ?_, ?_, ⟨c, hc, ?_⟩⟩
  · intro t
    cases hphase : a.phase t with
    | Ready => exact .inl (h.rel.onReadyList_iff.mpr hphase)
    | Until wake => exact .inr (.inl (h.rel.onDelayedList_iff.mpr ⟨wake, hphase⟩))
    | Forever =>
      refine .inr (.inr ?_)
      rw [h.rel.pxContainer_state, hphase, listOf]
    | Nowhere => exact absurd hphase (h.sound.nowhere t)
  · intro t ht
    rw [h.rel.pxContainer_event, h.sound.waiting t (h.rel.onReadyList_iff.mp ht), eventListOf]
  · intro hrunning t ht
    exact h.released hrunning t (h.rel.onPendingReady_iff.mp ht)
  · obtain hpending | hurgent := h.urgent c hc
    · exact .inl hpending
    · exact .inr fun t ht => not_lt.mp (hurgent t (h.rel.onReadyList_iff.mp ht))

end Consistent

section Blank

-- Memory in which the lists of the events are initialised.
def blankLists : Lists (ListName ε) (TaskItem τ) where
  pxNext := id
  pxPrevious := id
  xItemValue := fun _ => listMAX_VALUE
  pxContainer := fun _ => none
  pxIndex := .End
  uxNumberOfItems := fun _ => 0

omit [DecidableEq ε] [DecidableEq τ] in
theorem blankLists_initialised (e : ε) :
    Initialised (blankLists : Lists (ListName ε) (TaskItem τ)) (Event e) :=
  ⟨rfl, rfl, rfl, rfl, rfl⟩

-- Two tasks: `false` is the idle task, and `true` is above it.
def twoTasks : List (Bool × Priority) := [(false, tskIDLE_PRIORITY), (true, ⟨3, by decide⟩)]

theorem twoTasks_suspended (c : Call Unit Bool)
    (hc : ∀ k, MayBlock false k → k.xPendedTicks = 0 → Allowed false c k) :
    ∃ k₀ k k₁ : Kernel Unit Bool, Started k₀ ∧ Run false 5 k₀ [.SuspendAll] k ∧
      k.pxCurrentTCB = some true ∧ OnReadyList k true ∧ Allowed false c k ∧
      call 5 c k = some k₁ ∧ ∃ s a s₁, Good false k s a ∧ Good false k₁ s₁ (effect c k a) := by
  have hnodup : (twoTasks.map Prod.fst).Nodup := by decide
  have hall : ∀ t, t ∈ twoTasks.map Prod.fst := by decide
  obtain ⟨k₀, s₀, hstart, h₀, hpriority, hpended, hslots, current, hcurrent, hhighest⟩ :=
    start_good (ε := Unit) (fun _ => rfl) blankLists_initialised (fun _ => tskIDLE_PRIORITY)
      (fun _ => { value := 0, state := .NotWaiting }) hnodup hall false
  have hlow : k₀.uxPriority false = tskIDLE_PRIORITY := hpriority false _ (by simp [twoTasks])
  have hhigh : k₀.uxPriority true = ⟨3, by decide⟩ := hpriority true _ (by simp [twoTasks])
  have htrue : current = true := by
    by_contra hne
    rw [Bool.not_eq_true] at hne
    have hle := hhighest true
    rw [hne, hlow, hhigh] at hle
    exact absurd hle (by decide)
  subst htrue
  have hready : OnReadyList k₀ true := h₀.rel.onReadyList_iff.mpr rfl
  have hblock : MayBlock false k₀.vTaskSuspendAll :=
    ⟨Nat.succ_ne_zero _, true, hcurrent, by simp, hready, by
      show (k₀.notification true).state ≠ _
      rw [hslots]
      simp⟩
  have hrun : Run false 5 k₀ [.SuspendAll] k₀.vTaskSuspendAll := Run.nil.snoc trivial rfl
  have hallowed := hc _ hblock hpended
  have hfuel : Fintype.card (TaskItem Bool) < 5 := by decide
  obtain ⟨s, a, h, -, -⟩ := hrun.good hfuel h₀
  obtain ⟨k₁, s₁, hcall, h₁, -⟩ := h.call hfuel hallowed
  exact ⟨k₀, _, k₁, ⟨_, _, _, twoTasks, fun _ => rfl, blankLists_initialised, hnodup, hall, hstart⟩,
    hrun, hcurrent, hready, hallowed, hcall, s, a, s₁, h, h₁⟩

end Blank

section Theorems

variable [Fintype τ] {idle : τ} {k₀ k k' : Kernel ε τ} {fuel : Nat} {calls : List (Call ε τ)}

-- The kernel starts, and whatever is called in whatever order then, no
-- assertion fails, no null pointer is followed and every loop ends.
theorem kernel_never_fails (hfuel : Fintype.card (TaskItem τ) < fuel)
    {memory : Lists (ListName ε) (TaskItem τ)} (hfree : ∀ i, memory.pxContainer i = none)
    (hevents : ∀ e, Initialised memory (Event e)) (uxPriority : τ → Priority)
    (notification : τ → TaskNotification) {tasks : List (τ × Priority)}
    (hnodup : (tasks.map Prod.fst).Nodup) (hall : ∀ t, t ∈ tasks.map Prod.fst) (idle : τ) :
    ∃ k₀, start tasks (initialKernel memory uxPriority notification) = some k₀ ∧
      ∀ calls k, Run idle fuel k₀ calls k → Consistent k ∧
        (∀ t p, (t, p) ∈ tasks → k.uxPriority t = p) ∧
        ∀ c, Allowed idle c k → ∃ k', call fuel c k = some k' := by
  obtain ⟨k₀, s₀, hstart, hgood, hpriority, -⟩ :=
    start_good hfree hevents uxPriority notification hnodup hall idle
  refine ⟨k₀, hstart, ?_⟩
  intro calls k run
  obtain ⟨s, a, h, hsame, -⟩ := run.good hfuel hgood
  refine ⟨h.consistent, ?_, ?_⟩
  · intro t p hmem
    rw [hsame]
    exact hpriority t p hmem
  · intro c hallowed
    obtain ⟨k', -, hcall, -, -⟩ := h.call hfuel hallowed
    exact ⟨k', hcall⟩

theorem kernel_never_fails_two :
    ∃ k₀, start twoTasks (initialKernel blankLists (fun _ => tskIDLE_PRIORITY)
        (fun _ => { value := 0, state := .NotWaiting }) : Kernel Unit Bool) = some k₀ ∧
      ∀ calls k, Run false 5 k₀ calls k → Consistent k ∧
        (∀ t p, (t, p) ∈ twoTasks → k.uxPriority t = p) ∧
        ∀ c, Allowed false c k → ∃ k', call 5 c k = some k' :=
  kernel_never_fails (by decide) (fun _ => rfl) blankLists_initialised _ _ (by decide) (by decide)
    false

-- No tick is lost: those that came while the scheduler was suspended are
-- counted when it is resumed, and the count goes on in `xNumOfOverflows`.
theorem tick_count_exact (hfuel : Fintype.card (TaskItem τ) < fuel) (hstart : Started k₀)
    (run : Run idle fuel k₀ calls k) :
    ∃ counted, counted + k.xPendedTicks.toNat = calls.count .Tick ∧
      k.xTickCount = BitVec.ofNat 64 counted ∧
      k.xNumOfOverflows = BitVec.ofNat 64 (counted / 2 ^ 64) ∧
      (k.uxSchedulerSuspended = 0 → counted = calls.count .Tick) := by
  obtain ⟨⟨s₀, h₀⟩, hpended₀⟩ := hstart.good idle
  obtain ⟨s, a, h, -, hclock⟩ := run.good hfuel h₀
  have hsum : a.clock + k.xPendedTicks.toNat = calls.count .Tick := by
    rw [hclock, hpended₀]
    simp [everyoneReady]
  refine ⟨a.clock, hsum, h.rel.tick, h.rel.overflows, ?_⟩
  intro hrunning
  rw [← hsum, h.pended hrunning]
  rfl

theorem tick_count_exact_two :
    ∃ k₀ k : Kernel Unit Bool, Run false 5 k₀ [.SuspendAll, .Tick] k ∧
      ∃ counted, counted + k.xPendedTicks.toNat = 1 ∧ k.xTickCount = BitVec.ofNat 64 counted ∧
        k.xNumOfOverflows = BitVec.ofNat 64 (counted / 2 ^ 64) ∧
        (k.uxSchedulerSuspended = 0 → counted = 1) := by
  obtain ⟨k₀, k, k₁, hstart, run, -, -, hallowed, hcall, -⟩ := twoTasks_suspended .Tick (by
    intro k _ hpended _
    rw [hpended]
    decide)
  exact ⟨k₀, k₁, run.snoc hallowed hcall,
    tick_count_exact (by decide) hstart (run.snoc hallowed hcall)⟩

end Theorems

end SpaceBaremetal.Tasks

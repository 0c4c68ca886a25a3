import SpaceBaremetal.Kernel.Tasks.Block
import SpaceBaremetal.Kernel.Tasks.Resume

open SpaceBaremetal.Lists

namespace SpaceBaremetal.Tasks

open ListName TaskItem

-- What may happen to the kernel next: the timer interrupt, or a step of the
-- task that runs. Those that the source makes with the scheduler suspended may
-- be interrupted between `SuspendAll` and `ResumeAll`.
inductive Call (ε τ : Type)
  | Tick
  | Yield
  | SuspendAll
  | ResumeAll
  | Delay (xTicksToDelay : BitVec 64)
  | PlaceOnEventList (e : ε) (xTicksToWait : BitVec 64)
  | PlaceOnEventListRestricted (e : ε) (xTicksToWait : BitVec 64) (xWaitIndefinitely : Bool)
  | RemoveFromEventList (e : ε)
  | MissedYield
  | Notify (t : τ) (ulValue : BitVec 32) (eAction : NotifyAction)
  | NotifyWait (ulBitsToClearOnEntry : BitVec 32) (xTicksToWait : BitVec 64)
  | NotifyTaken (ulBitsToClearOnExit : BitVec 32)
deriving DecidableEq, Repr

variable {ε τ : Type} [DecidableEq ε] [DecidableEq τ]

def call (fuel : Nat) (c : Call ε τ) (k : Kernel ε τ) : Option (Kernel ε τ) :=
  match c with
  | .Tick => k.mtimer_interrupt_handler fuel
  | .Yield => k.portYIELD
  | .SuspendAll => some k.vTaskSuspendAll
  | .ResumeAll => (k.xTaskResumeAll fuel).map Prod.snd
  | .Delay n => k.prvAddCurrentTaskToDelayedList fuel n false
  | .PlaceOnEventList e n => k.vTaskPlaceOnEventList fuel e n
  | .PlaceOnEventListRestricted e n always => k.vTaskPlaceOnEventListRestricted fuel e n always
  | .RemoveFromEventList e => (k.xTaskRemoveFromEventList e).map Prod.snd
  | .MissedYield => some k.vTaskMissedYield
  | .Notify t value action => (k.xTaskGenericNotify t value action).map Prod.snd
  | .NotifyWait clear n => (k.notifyWaitBlock fuel clear n).map Prod.snd
  | .NotifyTaken clear => (k.notifyWaitExit clear).map fun r => r.2.2

-- The task that runs may put itself aside with the scheduler suspended, unless
-- it is the idle task or is waiting already.
def MayBlock (idle : τ) (k : Kernel ε τ) : Prop :=
  k.uxSchedulerSuspended ≠ 0 ∧ ∃ c, k.pxCurrentTCB = some c ∧ c ≠ idle ∧
    k.lists.pxContainer (StateListItem c) = some (ReadyTasks (k.uxPriority c)) ∧
    (k.notification c).state ≠ .Waiting

-- What the callers in the kernel and in the application keep to.
def Allowed (idle : τ) (c : Call ε τ) (k : Kernel ε τ) : Prop :=
  match c with
  -- there are fewer than 2 ^ 64 ticks to make up for
  | .Tick => k.uxSchedulerSuspended ≠ 0 → k.xPendedTicks ≠ BitVec.allOnes 64
  | .ResumeAll => k.uxSchedulerSuspended ≠ 0
  | .Delay n => MayBlock idle k ∧ n ≠ 0
  | .PlaceOnEventList _ n => MayBlock idle k ∧ n ≠ 0
  | .PlaceOnEventListRestricted e n always =>
    MayBlock idle k ∧ (n ≠ 0 ∨ always = true) ∧ listLIST_IS_EMPTY (Event e) k.lists = true
  | .RemoveFromEventList e => listLIST_IS_EMPTY (Event e) k.lists = false
  | .NotifyWait _ n => MayBlock idle k ∧ n ≠ 0
  | .Yield | .SuspendAll | .MissedYield | .Notify _ _ _ | .NotifyTaken _ => True

-- What a call is to the tasks that sleep.
def effect (c : Call ε τ) (k : Kernel ε τ) (a : Sleepers ε τ) : Sleepers ε τ :=
  match c, k.pxCurrentTCB with
  | .Tick, _ => if k.uxSchedulerSuspended = 0 then a.tick else a
  | .ResumeAll, _ =>
    if k.uxSchedulerSuspended = 1 then Sleepers.ticks k.xPendedTicks.toNat a.release else a
  | .Delay n, some c => a.setPhase c (sleepPhase a.clock n false)
  | .PlaceOnEventList e n, some c =>
    (a.setWait c (some (.On e))).setPhase c (sleepPhase a.clock n true)
  | .PlaceOnEventListRestricted e n always, some c =>
    (a.setWait c (some (.On e))).setPhase c
      (sleepPhase a.clock (if always then portMAX_DELAY else n) always)
  | .RemoveFromEventList e, _ =>
    match Kernel.ownerOf (listGET_OWNER_OF_HEAD_ENTRY (Event e) k.lists) with
    | some t => if k.uxSchedulerSuspended = 0 then a.wake t else a.setWait t (some .Woken)
    | none => a
  | .Notify t _ _, _ => if (k.notification t).state = .Waiting then a.wake t else a
  | .NotifyWait _ n, some c =>
    if (k.notification c).state = .Received then a
    else a.setPhase c (sleepPhase a.clock n true)
  | _, _ => a

def suspendedAfter (c : Call ε τ) (k : Kernel ε τ) : Nat :=
  match c with
  | .SuspendAll => k.uxSchedulerSuspended + 1
  | .ResumeAll => k.uxSchedulerSuspended - 1
  | _ => k.uxSchedulerSuspended

def pendedAfter (c : Call ε τ) (k : Kernel ε τ) : BitVec 64 :=
  match c with
  | .Tick => if k.uxSchedulerSuspended = 0 then k.xPendedTicks else k.xPendedTicks + 1
  | .ResumeAll => if k.uxSchedulerSuspended = 1 then 0 else k.xPendedTicks
  | _ => k.xPendedTicks

def notificationAfter (c : Call ε τ) (k : Kernel ε τ) : τ → TaskNotification :=
  match c, k.pxCurrentTCB with
  | .Notify t value action, _ => Function.update k.notification t
    (SpaceBaremetal.xTaskGenericNotify value action (k.notification t)).2
  | .NotifyWait clear n, some c => Function.update k.notification c
    (xTaskNotifyWaitEntry clear n (k.notification c)).2
  | .NotifyTaken clear, some c => Function.update k.notification c
    (xTaskNotifyWaitExit clear (k.notification c)).2.2
  | _, _ => k.notification

-- What holds between the calls, but for the choice of the task that runs.
structure Settled (idle : τ) (k : Kernel ε τ) (s : KernelLists ε τ) (a : Sleepers ε τ) : Prop where
  rel : Rel k s a
  sound : a.Sound idle
  current : ∃ c, k.pxCurrentTCB = some c
  tasks : 0 < k.uxCurrentNumberOfTasks
  released : k.uxSchedulerSuspended = 0 → ∀ t, a.wait t ≠ some .Woken
  pended : k.uxSchedulerSuspended = 0 → k.xPendedTicks = 0
  notify : ∀ t, (k.notification t).state = .Waiting → a.wait t = none

-- A switch is due, or no ready task is above the one that runs.
structure Good (idle : τ) (k : Kernel ε τ) (s : KernelLists ε τ) (a : Sleepers ε τ) : Prop extends
    Settled idle k s a where
  urgent : ∀ c, k.pxCurrentTCB = some c → k.xYieldPending = true ∨
    ∀ t, IsReady a t → ¬k.uxPriority c < k.uxPriority t

section Switch

variable {idle : τ} {k : Kernel ε τ} {s : KernelLists ε τ} {a : Sleepers ε τ} {t c : τ}

theorem Settled.vTaskSwitchContext (h : Settled idle k s a) :
    ∃ k' s', k.vTaskSwitchContext = some k' ∧ Good idle k' s' a ∧
      k'.uxPriority = k.uxPriority ∧ k'.uxSchedulerSuspended = k.uxSchedulerSuspended ∧
      k'.xPendedTicks = k.xPendedTicks ∧ k'.notification = k.notification := by
  unfold Kernel.vTaskSwitchContext
  by_cases hrunning : k.uxSchedulerSuspended = 0
  · have hrel : Rel { k with xYieldPending := false } s a :=
      h.rel.others _ _ _ _ _ _ _
    obtain ⟨lists, c, top, s', hselect, hrel', hruns, -⟩ := hrel.select ⟨idle, h.sound.idle⟩
    rw [if_neg (by simpa using hrunning), hselect]
    refine ⟨_, s', rfl, ⟨⟨hrel', h.sound, ⟨c, rfl⟩, h.tasks, h.released, h.pended, h.notify⟩, ?_⟩,
      rfl, rfl, rfl, rfl⟩
    rintro c' ⟨⟩
    exact .inr hruns.2
  · rw [if_pos hrunning]
    refine ⟨_, s, rfl, ⟨⟨?_, h.sound, h.current, h.tasks, h.released, h.pended, h.notify⟩,
      fun _ _ => .inl rfl⟩, rfl, rfl, rfl, rfl⟩
    exact h.rel.others _ _ _ _ _ _ _

end Switch

-- What a call does to the variables that play no part in the lists.
structure Next (c : Call ε τ) (k k' : Kernel ε τ) : Prop where
  priority : k'.uxPriority = k.uxPriority
  suspended : k'.uxSchedulerSuspended = suspendedAfter c k
  pended : k'.xPendedTicks = pendedAfter c k
  notification : k'.notification = notificationAfter c k

-- One call from a good state: it returns, and leaves a good state.
def Steps (idle : τ) (fuel : Nat) (c : Call ε τ) (k : Kernel ε τ) (a : Sleepers ε τ) : Prop :=
  ∃ k' s', call fuel c k = some k' ∧ Good idle k' s' (effect c k a) ∧ Next c k k'

section Tick

variable [Fintype τ] {idle : τ} {k : Kernel ε τ} {s : KernelLists ε τ} {a : Sleepers ε τ} {c : τ}
  {fuel : Nat}

omit [DecidableEq ε] [DecidableEq τ] [Fintype τ] in
theorem IsReady.tick {t : τ} (h : IsReady a.tick t) (hnot : ¬IsReady a t) :
    a.phase t = .Until (a.clock + 1) := by
  by_contra hne
  rw [IsReady, Sleepers.tick_phase, if_neg hne] at h
  exact hnot h

theorem Good.tick (h : Good idle k s a) (hfuel : Fintype.card τ < fuel) :
    Steps idle fuel .Tick k a := by
  obtain ⟨c, hc⟩ := h.current
  by_cases hrunning : k.uxSchedulerSuspended = 0
  · obtain ⟨sw, lists, next, top, d, o, overflows, s', htick, hrel, hyield, -, hhigher⟩ :=
      xTaskIncrementTick_spec h.rel h.sound.awake hc hrunning hfuel
    have hwait : ∀ t, a.wait t = none → a.tick.wait t = none := by
      intro t ht
      rw [Sleepers.tick_wait]
      split
      · rfl
      · exact ht
    have hsettled : Settled idle { k with
        lists := lists, xNextTaskUnblockTime := next, uxTopReadyPriority := top
        xTickCount := k.xTickCount + 1, pxDelayedTaskList := d, pxOverflowDelayedTaskList := o
        xNumOfOverflows := overflows } s' a.tick := by
      refine ⟨hrel, h.sound.tick, ⟨c, hc⟩, h.tasks, ?_, h.pended, ?_⟩
      · intro _ t ht
        rw [Sleepers.tick_wait] at ht
        split at ht
        · cases ht
        · exact h.released hrunning t ht
      · exact fun t ht => hwait t (h.notify t ht)
    have heffect : effect .Tick k a = a.tick := by simp [effect, hrunning]
    have hcall : call fuel .Tick k = if sw then
        ({ k with
          lists := lists, xNextTaskUnblockTime := next, uxTopReadyPriority := top
          xTickCount := k.xTickCount + 1, pxDelayedTaskList := d, pxOverflowDelayedTaskList := o
          xNumOfOverflows := overflows } : Kernel ε τ).vTaskSwitchContext
      else
        some { k with
          lists := lists, xNextTaskUnblockTime := next, uxTopReadyPriority := top
          xTickCount := k.xTickCount + 1, pxDelayedTaskList := d, pxOverflowDelayedTaskList := o
          xNumOfOverflows := overflows } := by
      simp [call, Kernel.mtimer_interrupt_handler, htick]
    rw [Steps, hcall, heffect]
    cases sw with
    | true =>
      obtain ⟨k', s'', hswitch, hgood, hpriority, hsuspended, hpended, hslots⟩ :=
        hsettled.vTaskSwitchContext
      exact ⟨k', s'', by rw [if_pos rfl, hswitch], hgood, hpriority, hsuspended,
        by rw [hpended, pendedAfter, if_pos hrunning], hslots⟩
    | false =>
      refine ⟨_, s', rfl, ⟨hsettled, ?_⟩, rfl, rfl, by rw [pendedAfter, if_pos hrunning],
        rfl⟩
      intro c' hc'
      obtain rfl : c' = c := Option.some.inj (hc'.symm.trans hc)
      obtain hpending | hurgent := h.urgent c' hc
      · cases hyield hpending
      · refine .inr ?_
        intro t ht hprio
        by_cases hold : IsReady a t
        · exact hurgent t hold hprio
        · cases hhigher t (ht.tick hold) hprio
  · have heffect : effect .Tick k a = a := by simp [effect, hrunning]
    have hcall : call fuel .Tick k = some { k with xPendedTicks := k.xPendedTicks + 1 } := by
      simp [call, Kernel.mtimer_interrupt_handler, Kernel.xTaskIncrementTick, hrunning]
    rw [Steps, hcall, heffect]
    refine ⟨_, s, rfl, ⟨⟨h.rel.others _ _ _ _ _ _ _, h.sound, h.current, h.tasks, h.released, ?_,
      h.notify⟩, h.urgent⟩, rfl, rfl, by rw [pendedAfter, if_neg hrunning], rfl⟩
    exact fun hzero => absurd hzero hrunning

end Tick

section Resume

variable [Fintype τ] {idle : τ} {k : Kernel ε τ} {s : KernelLists ε τ} {a : Sleepers ε τ} {c : τ}
  {fuel : Nat}

theorem Good.resumeAll (h : Good idle k s a) (hfuel : Fintype.card τ < fuel)
    (hallowed : Allowed idle .ResumeAll k) : Steps idle fuel .ResumeAll k a := by
  obtain ⟨c, hc⟩ := h.current
  have hassert : Kernel.configASSERT (decide (k.uxSchedulerSuspended ≠ 0)) = some () := by
    have hne : k.uxSchedulerSuspended ≠ 0 := hallowed
    simp [Kernel.configASSERT, hne]
  have hrel : Rel { k with uxSchedulerSuspended := k.uxSchedulerSuspended - 1 } s a :=
    h.rel.others _ _ _ _ _ _ _
  by_cases hlast : k.uxSchedulerSuspended = 1
  · have hzero : k.uxSchedulerSuspended - 1 = 0 := by omega
    obtain ⟨lists, next, top, yield, s₁, hready, h₁, hyield, hhigher⟩ :=
      hrel.resumePendingReady hc h.sound.nowhere hfuel
    obtain ⟨lists', next', top', tick, d, o, overflows, yield', s₂, hticks, h₂, hyield', hhigher'⟩ :=
      h₁.resumePendedTicks h.sound.release.awake hc hzero hfuel
    have heffect : effect .ResumeAll k a =
        Sleepers.ticks k.xPendedTicks.toNat a.release := by
      simp [effect, hlast]
    have hsettled : Settled idle { k with
        lists := lists', xNextTaskUnblockTime := next', uxTopReadyPriority := top'
        xTickCount := tick, pxDelayedTaskList := d, pxOverflowDelayedTaskList := o
        xNumOfOverflows := overflows, xYieldPending := yield', xPendedTicks := 0
        uxSchedulerSuspended := k.uxSchedulerSuspended - 1 } s₂
        (Sleepers.ticks k.xPendedTicks.toNat a.release) := by
      refine ⟨h₂, h.sound.release.ticks _, ⟨c, hc⟩, h.tasks, ?_, fun _ => rfl, ?_⟩
      · exact fun _ t => Sleepers.ticks_wait_ne _ (Sleepers.release_wait_ne a t)
      · exact fun t ht =>
          Sleepers.ticks_wait_none _ (Sleepers.release_wait_none (h.notify t ht))
    have hcall : call fuel .ResumeAll k = if yield' then
        ({ k with
          lists := lists', xNextTaskUnblockTime := next', uxTopReadyPriority := top'
          xTickCount := tick, pxDelayedTaskList := d, pxOverflowDelayedTaskList := o
          xNumOfOverflows := overflows, xYieldPending := yield', xPendedTicks := 0
          uxSchedulerSuspended := k.uxSchedulerSuspended - 1 } : Kernel ε τ).vTaskSwitchContext
      else
        some { k with
          lists := lists', xNextTaskUnblockTime := next', uxTopReadyPriority := top'
          xTickCount := tick, pxDelayedTaskList := d, pxOverflowDelayedTaskList := o
          xNumOfOverflows := overflows, xYieldPending := yield', xPendedTicks := 0
          uxSchedulerSuspended := k.uxSchedulerSuspended - 1 } := by
      simp only [call, Kernel.xTaskResumeAll, hassert, Option.bind_eq_bind, Option.bind_some,
        hzero, h.tasks, and_self, if_true]
      rw [← hzero, hready, Option.bind_some, hticks, Option.bind_some]
      cases yield' with
      | true => simp [Kernel.portYIELD]
      | false => rfl
    rw [Steps, hcall, heffect]
    cases yield' with
    | true =>
      obtain ⟨k', s', hswitch, hgood, hpriority, hsuspended, hpended, hslots⟩ :=
        hsettled.vTaskSwitchContext
      exact ⟨k', s', by rw [if_pos rfl, hswitch], hgood, hpriority, hsuspended,
        by rw [hpended, pendedAfter, if_pos hlast], hslots⟩
    | false =>
      refine ⟨_, s₂, rfl, ⟨hsettled, ?_⟩, rfl, rfl, by rw [pendedAfter, if_pos hlast], rfl⟩
      intro c' hc'
      obtain rfl : c' = c := Option.some.inj (hc'.symm.trans hc)
      obtain hpending | hurgent := h.urgent c' hc
      · cases hyield' (hyield hpending)
      · refine .inr ?_
        intro t ht hprio
        by_cases hold : IsReady a t
        · exact hurgent t hold hprio
        · by_cases hreleased : IsReady a.release t
          · have hwoken : a.wait t = some .Woken := by
              by_contra hne
              simp only [IsReady, Sleepers.release, if_neg hne] at hreleased
              exact hold hreleased
            cases hyield' (hhigher t hwoken hprio)
          · cases hhigher' t hreleased ht hprio
  · have hmore : ¬ k.uxSchedulerSuspended - 1 = 0 := by
      have hne : k.uxSchedulerSuspended ≠ 0 := hallowed
      omega
    have heffect : effect .ResumeAll k a = a := by simp [effect, hlast]
    have hcall : call fuel .ResumeAll k =
        some { k with uxSchedulerSuspended := k.uxSchedulerSuspended - 1 } := by
      simp only [call, Kernel.xTaskResumeAll, hassert, Option.bind_eq_bind, Option.bind_some, hmore,
        false_and, if_false]
      rfl
    rw [Steps, hcall, heffect]
    refine ⟨_, s, rfl, ⟨⟨hrel, h.sound, h.current, h.tasks, ?_, ?_, h.notify⟩, h.urgent⟩, rfl, rfl,
      by rw [pendedAfter, if_neg hlast], rfl⟩
    · exact fun hzero => absurd hzero hmore
    · exact fun hzero => absurd hzero hmore

end Resume

section Block

variable [Fintype τ] {idle : τ} {k : Kernel ε τ} {s : KernelLists ε τ} {a : Sleepers ε τ} {c : τ}
  {fuel : Nat}

omit [DecidableEq ε] [DecidableEq τ] [Fintype τ] in
-- A task that the lists show to be ready.
theorem Rel.isReady_of_container (h : Rel k s a)
    (hready : k.lists.pxContainer (StateListItem c) = some (ReadyTasks (k.uxPriority c))) :
    IsReady a c := by
  rw [h.holds.home] at hready
  obtain ⟨t, heq, ht, -⟩ := h.mem_ready.mp ((s.lists.home_iff _ _).mp hready)
  rw [StateListItem.inj heq]
  exact ht

theorem sleepPhase_cases (clock : Nat) {n : BitVec 64} (can : Bool) (hn : n ≠ 0) :
    sleepPhase clock n can = .Forever ∨
      ∃ wake, sleepPhase clock n can = .Until wake ∧ clock < wake := by
  unfold sleepPhase
  split
  · exact .inl rfl
  · refine .inr ⟨_, rfl, ?_⟩
    have hpos : 0 < n.toNat := by
      rw [Nat.pos_iff_ne_zero]
      intro hzero
      exact hn (BitVec.eq_of_toNat_eq hzero)
    omega

omit [DecidableEq ε] [Fintype τ] in
-- The task that runs is put aside, and perhaps put on an event list: nobody
-- else is concerned.
theorem Good.block (h : Good idle k s a) (hblock : MayBlock idle k) (hc : k.pxCurrentTCB = some c)
    {lists : Lists (ListName ε) (TaskItem τ)} {next : BitVec 64} {s' : KernelLists ε τ}
    {notification : τ → TaskNotification} {wait : Option (Awaiting ε)} {n : BitVec 64} {can : Bool}
    (hn : n ≠ 0)
    (hnotify : ∀ t, (notification t).state = .Waiting →
      (a.setWait c wait).wait t = none)
    (hrel : Rel { k with lists := lists, xNextTaskUnblockTime := next } s'
      ((a.setWait c wait).setPhase c (sleepPhase a.clock n can))) :
    Good idle { k with
        lists := lists, xNextTaskUnblockTime := next, notification := notification } s'
      ((a.setWait c wait).setPhase c (sleepPhase a.clock n can)) := by
  obtain ⟨hsuspended, c', hc', hidle, hready, -⟩ := hblock
  obtain rfl : c' = c := Option.some.inj (hc'.symm.trans hc)
  have hrunning := h.rel.isReady_of_container hready
  refine ⟨⟨hrel.others _ _ _ _ _ _ _, h.sound.sleep hidle (sleepPhase_cases _ _ hn) wait, h.current,
    h.tasks, fun hzero => absurd hzero hsuspended, fun hzero => absurd hzero hsuspended, hnotify⟩, ?_⟩
  intro c'' hc''
  obtain hpending | hurgent := h.urgent c'' hc''
  · exact .inl hpending
  · refine .inr ?_
    intro t ht hprio
    by_cases heq : t = c'
    · subst heq
      obtain hforever | ⟨wake, huntil, -⟩ := sleepPhase_cases a.clock can hn
      · simp [IsReady, hforever] at ht
      · simp [IsReady, huntil] at ht
    · simp only [IsReady, Sleepers.setPhase_phase, Sleepers.setWait_phase,
        Function.update_of_ne heq] at ht
      exact hurgent t ht hprio

omit [DecidableEq ε] [Fintype τ] in
-- A task that starts to wait does not wait for a notification.
theorem Good.notify_setWait (h : Good idle k s a)
    (hnotWaiting : (k.notification c).state ≠ .Waiting) (wait : Option (Awaiting ε)) :
    ∀ t, (k.notification t).state = .Waiting → (a.setWait c wait).wait t = none := by
  intro t ht
  have hne : t ≠ c := by
    rintro rfl
    exact hnotWaiting ht
  simpa [hne] using h.notify t ht

theorem Good.delay (h : Good idle k s a) (hfuel : Fintype.card (TaskItem τ) < fuel)
    {n : BitVec 64} (hallowed : Allowed idle (.Delay n) k) : Steps idle fuel (.Delay n) k a := by
  obtain ⟨hblock, hn⟩ := hallowed
  obtain ⟨-, c, hc, -, hready, hnotWaiting⟩ := id hblock
  have hrunning := h.rel.isReady_of_container hready
  have hwait := h.sound.waiting c hrunning
  obtain ⟨lists, next, s', hadd, hrel⟩ :=
    prvAddCurrentTaskToDelayedList_spec h.rel hc hrunning n false hfuel
  have hsame : a.setWait c none = a := Sleepers.setWait_same c none hwait
  have heffect : effect (.Delay n) k a =
      (a.setWait c none).setPhase c (sleepPhase a.clock n false) := by
    rw [hsame]
    simp [effect, hc]
  rw [Steps, heffect]
  refine ⟨_, s', hadd, h.block hblock hc hn (h.notify_setWait hnotWaiting _) ?_,
    rfl, rfl, rfl, rfl⟩
  rw [hsame]
  exact hrel

theorem Good.placeOnEventList (h : Good idle k s a) (hfuel : Fintype.card (TaskItem τ) < fuel)
    {e : ε} {n : BitVec 64} (hallowed : Allowed idle (.PlaceOnEventList e n) k) :
    Steps idle fuel (.PlaceOnEventList e n) k a := by
  obtain ⟨hblock, hn⟩ := hallowed
  obtain ⟨-, c, hc, -, hready, hnotWaiting⟩ := id hblock
  have hrunning := h.rel.isReady_of_container hready
  have hwait := h.sound.waiting c hrunning
  obtain ⟨lists, next, s', hadd, hrel⟩ :=
    vTaskPlaceOnEventList_spec h.rel hc hrunning hwait e n hfuel
  have heffect : effect (.PlaceOnEventList e n) k a =
      (a.setWait c (some (.On e))).setPhase c (sleepPhase a.clock n true) := by
    simp [effect, hc]
  rw [Steps, heffect]
  exact ⟨_, s', hadd, h.block hblock hc hn (h.notify_setWait hnotWaiting _) hrel,
    rfl, rfl, rfl, rfl⟩

theorem Good.placeRestricted (h : Good idle k s a) (hfuel : Fintype.card (TaskItem τ) < fuel)
    {e : ε} {n : BitVec 64} {always : Bool}
    (hallowed : Allowed idle (.PlaceOnEventListRestricted e n always) k) :
    Steps idle fuel (.PlaceOnEventListRestricted e n always) k a := by
  obtain ⟨hblock, hn, hempty⟩ := hallowed
  obtain ⟨-, c, hc, -, hready, hnotWaiting⟩ := id hblock
  have hrunning := h.rel.isReady_of_container hready
  have hwait := h.sound.waiting c hrunning
  have halone : (s.lists.ring (Event e)).items = [] := by
    rwa [listLIST_IS_EMPTY_refines h.rel.holds.represents, List.isEmpty_iff] at hempty
  obtain ⟨lists, next, s', hadd, hrel⟩ :=
    vTaskPlaceOnEventListRestricted_spec h.rel hc hrunning hwait halone n always hfuel
  have heffect : effect (.PlaceOnEventListRestricted e n always) k a =
      (a.setWait c (some (.On e))).setPhase c
        (sleepPhase a.clock (if always then portMAX_DELAY else n) always) := by
    simp [effect, hc]
  have hn' : (if always then portMAX_DELAY else n) ≠ 0 := by
    split
    · decide
    · rename_i hnot
      exact hn.resolve_right hnot
  rw [Steps, heffect]
  exact ⟨_, s', hadd, h.block hblock hc hn' (h.notify_setWait hnotWaiting _) hrel,
    rfl, rfl, rfl, rfl⟩

theorem Good.notifyWait (h : Good idle k s a) (hfuel : Fintype.card (TaskItem τ) < fuel)
    {clear : BitVec 32} {n : BitVec 64} (hallowed : Allowed idle (.NotifyWait clear n) k) :
    Steps idle fuel (.NotifyWait clear n) k a := by
  obtain ⟨hblock, hn⟩ := hallowed
  obtain ⟨-, c, hc, -, hready, hnotWaiting⟩ := id hblock
  have hrunning := h.rel.isReady_of_container hready
  have hwait := h.sound.waiting c hrunning
  have hrel₀ : Rel (k.setNotification c (xTaskNotifyWaitEntry clear n (k.notification c)).2) s a :=
    h.rel.others _ _ _ _ _ _ _
  by_cases hreceived : (k.notification c).state = .Received
  · have heffect : effect (.NotifyWait clear n) k a = a := by simp [effect, hc, hreceived]
    have hentry : xTaskNotifyWaitEntry clear n (k.notification c) = (false, k.notification c) := by
      rw [xTaskNotifyWaitEntry, if_neg (by simp [hreceived])]
    have hcall : call fuel (.NotifyWait clear n) k = some k := by
      rw [call, Kernel.notifyWaitBlock]
      simp only [hc, Option.bind_eq_bind, Option.bind_some, hentry]
      simp [Kernel.setNotification]
    rw [Steps, heffect, hcall]
    refine ⟨k, s, rfl, h, rfl, rfl, rfl, ?_⟩
    simp only [notificationAfter, hc, hentry, Function.update_eq_self]
  · have heffect : effect (.NotifyWait clear n) k a =
        (a.setWait c none).setPhase c (sleepPhase a.clock n true) := by
      rw [Sleepers.setWait_same c none hwait]
      simp [effect, hc, hreceived]
    have hpos : n > 0 := by
      rw [gt_iff_lt, BitVec.lt_def]
      have hne : n.toNat ≠ 0 := fun hzero => hn (BitVec.eq_of_toNat_eq hzero)
      show 0 < n.toNat
      omega
    have hentry : (xTaskNotifyWaitEntry clear n (k.notification c)).1 = true := by
      rw [xTaskNotifyWaitEntry, if_pos ⟨hreceived, hpos⟩]
    obtain ⟨lists, next, s', hadd, hrel⟩ :=
      prvAddCurrentTaskToDelayedList_spec hrel₀ hc hrunning n true hfuel
    have hcall : call fuel (.NotifyWait clear n) k = some { k with
        lists := lists, xNextTaskUnblockTime := next
        notification := Function.update k.notification c
          (xTaskNotifyWaitEntry clear n (k.notification c)).2 } := by
      have hbody : k.notifyWaitBlock fuel clear n =
          ((k.setNotification c
            (xTaskNotifyWaitEntry clear n (k.notification c)).2).prvAddCurrentTaskToDelayedList fuel
              n true).map fun k => (true, k) := by
        rw [Kernel.notifyWaitBlock, hc]
        simp only [Option.bind_eq_bind, Option.bind_some, hentry, if_true]
        cases Kernel.prvAddCurrentTaskToDelayedList fuel n true
          (k.setNotification c (xTaskNotifyWaitEntry clear n (k.notification c)).2) <;> rfl
      rw [call, hbody, hadd]
      rfl
    rw [Steps, heffect, hcall]
    refine ⟨_, s', rfl, h.block hblock hc hn ?_ ?_, rfl, rfl, rfl, ?_⟩
    · intro t ht
      rw [Sleepers.setWait_same c none hwait]
      by_cases heq : t = c
      · rw [heq]
        exact hwait
      · rw [Function.update_of_ne heq] at ht
        exact h.notify t ht
    · rw [Sleepers.setWait_same c none hwait]
      exact hrel.others _ _ _ _ _ _ _
    · simp only [notificationAfter, hc]

end Block

section Wake

theorem xTaskGenericNotify_state (value : BitVec 32) (action : NotifyAction)
    (slot : TaskNotification) :
    (SpaceBaremetal.xTaskGenericNotify value action slot).2.state = .Received := by
  unfold SpaceBaremetal.xTaskGenericNotify
  split <;> try rfl
  split <;> rfl

variable {idle : τ} {k : Kernel ε τ} {s : KernelLists ε τ} {a : Sleepers ε τ} {t c : τ} {fuel : Nat}

omit [DecidableEq ε] in
theorem IsReady.wake {u : τ} (h : IsReady (a.wake t) u) (hne : u ≠ t) : IsReady a u := by
  rwa [IsReady, Sleepers.wake_phase, Function.update_of_ne hne] at h

theorem Good.removeFromEventList (h : Good idle k s a) {e : ε}
    (hallowed : Allowed idle (.RemoveFromEventList e) k) :
    Steps idle fuel (.RemoveFromEventList e) k a := by
  obtain ⟨c, hc⟩ := h.current
  obtain ⟨t, sw, lists, top, yield, s', howner, hwait, -, hremove, hrel, hyield, hhigher⟩ :=
    xTaskRemoveFromEventList_spec h.rel hc h.sound.nowhere hallowed
  have hnotReady : a.phase t ≠ .Ready := by
    intro hready
    rw [h.sound.waiting t hready] at hwait
    cases hwait
  have heffect : effect (.RemoveFromEventList e) k a =
      if k.uxSchedulerSuspended = 0 then a.wake t else a.setWait t (some .Woken) := by
    simp only [effect, howner]
  have hcall : call fuel (.RemoveFromEventList e) k = some { k with
      lists := lists, uxTopReadyPriority := top, xYieldPending := yield } := by
    simp [call, hremove]
  rw [Steps, heffect, hcall]
  refine ⟨_, s', rfl, ⟨⟨hrel, ?_, ⟨c, hc⟩, h.tasks, ?_, h.pended, ?_⟩, ?_⟩, rfl, rfl, rfl, rfl⟩
  · split
    · exact h.sound.wake t
    · exact h.sound.setWait hnotReady _
  · intro hrunning u
    rw [if_pos hrunning, Sleepers.wake_wait]
    by_cases heq : u = t
    · simp [heq]
    · rw [Function.update_of_ne heq]
      exact h.released hrunning u
  · -- nobody who waits for a notification waits for an event
    intro u hu
    have hnone := h.notify u hu
    have hne : u ≠ t := by
      rintro rfl
      rw [hnone] at hwait
      cases hwait
    split
    · rwa [Sleepers.wake_wait, Function.update_of_ne hne]
    · rwa [Sleepers.setWait_wait, Function.update_of_ne hne]
  · intro c' hc'
    obtain rfl : c' = c := Option.some.inj (hc'.symm.trans hc)
    obtain hpending | hurgent := h.urgent c' hc
    · exact .inl (hyield hpending)
    · by_cases hprio : k.uxPriority t > k.uxPriority c'
      · exact .inl (hhigher hprio)
      · refine .inr ?_
        intro u hu
        split at hu
        · by_cases heq : u = t
          · rw [heq]
            exact hprio
          · exact hurgent u (hu.wake heq)
        · exact hurgent u hu

-- A task that waits for a notification is made ready.
theorem Settled.wakeNotified (h : Settled idle k s a) (hwaiting : (k.notification t).state = .Waiting)
    (slot : TaskNotification) :
    ∃ lists lists' top s', (k.setNotification t slot).removeItem (StateListItem t) =
        some ((k.setNotification t slot).setLists lists) ∧
      ((k.setNotification t slot).setLists lists).prvAddTaskToReadyList t =
        { k.setNotification t slot with lists := lists', uxTopReadyPriority := top } ∧
      lists'.pxContainer (EventListItem t) = none ∧
      Settled idle { k.setNotification t slot with lists := lists', uxTopReadyPriority := top } s'
        (a.wake t) := by
  have hnone := h.notify t hwaiting
  have hrel : Rel (k.setNotification t slot) s a := h.rel.others _ _ _ _ _ _ _
  obtain ⟨l, hl⟩ := hrel.home_of_phase (h.sound.nowhere t)
  obtain ⟨lists, s₁, hremove, h₁⟩ := hrel.removeState hl
  obtain ⟨lists', top, s₂, hadd, h₂⟩ := h₁.addReady (t := t) (by simp)
  rw [Sleepers.setPhase_setPhase] at h₂
  have hwake : a.wake t = a.setPhase t .Ready := by
    rw [Sleepers.wake, Sleepers.setWait_same t none hnone]
  refine ⟨lists, lists', top, s₂, hremove, hadd, ?_, ?_⟩
  · rw [h₂.pxContainer_event, Sleepers.setPhase_wait, hnone, eventListOf]
  · refine ⟨?_, h.sound.wake t, h.current, h.tasks, ?_, h.pended, ?_⟩
    · rw [hwake]
      exact h₂
    · rw [hwake]
      exact h.released
    · intro u hu
      rw [hwake]
      by_cases heq : u = t
      · rw [heq]
        exact hnone
      · simp only [Kernel.setNotification, Function.update_of_ne heq] at hu
        exact h.notify u hu

theorem Good.genericNotify (h : Good idle k s a) {value : BitVec 32} {action : NotifyAction} :
    Steps idle fuel (.Notify t value action) k a := by
  obtain ⟨c, hc⟩ := h.current
  by_cases hwaiting : (k.notification t).state = .Waiting
  · obtain ⟨lists, lists', top, s', hremove, hadd, hnone, hsettled⟩ := h.wakeNotified hwaiting
      (SpaceBaremetal.xTaskGenericNotify value action (k.notification t)).2
    have heffect : effect (.Notify t value action) k a = a.wake t := by simp [effect, hwaiting]
    have hcall : call fuel (.Notify t value action) k =
        if k.uxPriority c < k.uxPriority t then
          ({ k.setNotification t
              (SpaceBaremetal.xTaskGenericNotify value action (k.notification t)).2 with
            lists := lists', uxTopReadyPriority := top } : Kernel ε τ).vTaskSwitchContext
        else
          some { k.setNotification t
              (SpaceBaremetal.xTaskGenericNotify value action (k.notification t)).2 with
            lists := lists', uxTopReadyPriority := top } := by
      have hassert : Kernel.configASSERT (lists'.pxContainer (EventListItem t)).isNone =
          some () := by
        simp [Kernel.configASSERT, hnone]
      have hc' : (k.setNotification t
          (SpaceBaremetal.xTaskGenericNotify value action (k.notification t)).2).pxCurrentTCB =
            some c := hc
      have hpriority : (k.setNotification t
          (SpaceBaremetal.xTaskGenericNotify value action (k.notification t)).2).uxPriority =
            k.uxPriority := rfl
      simp only [call, Kernel.xTaskGenericNotify, hwaiting, if_true, hremove, hadd, hassert,
        Option.bind_eq_bind, Option.bind_some,
        Kernel.taskYIELD_ANY_CORE_IF_USING_PREEMPTION, hc', hpriority, Kernel.portYIELD]
      split
      · simp
      · rfl
    rw [Steps, hcall, heffect]
    by_cases hprio : k.uxPriority c < k.uxPriority t
    · obtain ⟨k', s'', hswitch, hgood, hpriority, hsuspended, hpended, hslots⟩ :=
        hsettled.vTaskSwitchContext
      exact ⟨k', s'', by rw [if_pos hprio, hswitch], hgood, hpriority, hsuspended, hpended,
        hslots⟩
    · refine ⟨_, s', by rw [if_neg hprio], ⟨hsettled, ?_⟩, rfl, rfl, rfl, rfl⟩
      intro c' hc'
      obtain rfl : c' = c := Option.some.inj (hc'.symm.trans hc)
      obtain hpending | hurgent := h.urgent c' hc
      · exact .inl hpending
      · refine .inr ?_
        intro u hu
        by_cases heq : u = t
        · rw [heq]
          exact hprio
        · exact hurgent u (hu.wake heq)
  · have heffect : effect (.Notify t value action) k a = a := by simp [effect, hwaiting]
    have hcall : call fuel (.Notify t value action) k = some (k.setNotification t
        (SpaceBaremetal.xTaskGenericNotify value action (k.notification t)).2) := by
      simp only [call, Kernel.xTaskGenericNotify, hwaiting, if_false]
      rfl
    rw [Steps, heffect, hcall]
    refine ⟨_, s, rfl, ⟨⟨h.rel.others _ _ _ _ _ _ _, h.sound, h.current, h.tasks, h.released,
      h.pended, ?_⟩, h.urgent⟩, rfl, rfl, rfl, rfl⟩
    intro u hu
    by_cases heq : u = t
    · subst heq
      simp only [Kernel.setNotification, Function.update_self] at hu
      rw [xTaskGenericNotify_state] at hu
      cases hu
    · simp only [Kernel.setNotification, Function.update_of_ne heq] at hu
      exact h.notify u hu

theorem Good.notifyTaken (h : Good idle k s a) {clear : BitVec 32} :
    Steps idle fuel (.NotifyTaken clear) k a := by
  obtain ⟨c, hc⟩ := h.current
  have hcall : call fuel (.NotifyTaken clear) k = some (k.setNotification c
      (xTaskNotifyWaitExit clear (k.notification c)).2.2) := by
    simp [call, Kernel.notifyWaitExit, hc]
  rw [Steps, hcall]
  refine ⟨_, s, rfl, ⟨⟨h.rel.others _ _ _ _ _ _ _, h.sound, h.current, h.tasks, h.released,
    h.pended, ?_⟩, h.urgent⟩, rfl, rfl, rfl, ?_⟩
  · intro u hu
    by_cases heq : u = c
    · subst heq
      simp only [Kernel.setNotification, Function.update_self, xTaskNotifyWaitExit_state] at hu
      cases hu
    · simp only [Kernel.setNotification, Function.update_of_ne heq] at hu
      exact h.notify u hu
  · simp only [notificationAfter, hc]
    rfl

theorem Good.yield (h : Good idle k s a) : Steps idle fuel .Yield k a := by
  obtain ⟨k', s', hswitch, hgood, hpriority, hsuspended, hpended, hslots⟩ :=
    h.toSettled.vTaskSwitchContext
  exact ⟨k', s', hswitch, hgood, hpriority, hsuspended, hpended, hslots⟩

theorem Good.suspendAll (h : Good idle k s a) : Steps idle fuel .SuspendAll k a := by
  refine ⟨_, s, rfl, ⟨⟨h.rel.others _ _ _ _ _ _ _, h.sound, h.current, h.tasks, ?_, ?_, h.notify⟩,
    h.urgent⟩, rfl, rfl, rfl, rfl⟩
  · exact fun hzero => absurd hzero (Nat.succ_ne_zero _)
  · exact fun hzero => absurd hzero (Nat.succ_ne_zero _)

theorem Good.missedYield (h : Good idle k s a) : Steps idle fuel .MissedYield k a :=
  ⟨_, s, rfl, ⟨⟨h.rel.others _ _ _ _ _ _ _, h.sound, h.current, h.tasks, h.released, h.pended,
    h.notify⟩, fun _ _ => .inl rfl⟩, rfl, rfl, rfl, rfl⟩

end Wake

-- Whatever is called next, the kernel does not fail, and does to the tasks
-- what the call is for.
theorem Good.call [Fintype τ] {idle : τ} {k : Kernel ε τ} {s : KernelLists ε τ}
    {a : Sleepers ε τ} {fuel : Nat} (h : Good idle k s a)
    (hfuel : Fintype.card (TaskItem τ) < fuel) {c : Call ε τ} (hallowed : Allowed idle c k) :
    Steps idle fuel c k a := by
  have htasks : Fintype.card τ < fuel := by
    have hle := Fintype.card_le_of_injective (StateListItem (τ := τ)) fun _ _ => StateListItem.inj
    omega
  cases c with
  | Tick => exact h.tick htasks
  | Yield => exact h.yield
  | SuspendAll => exact h.suspendAll
  | ResumeAll => exact h.resumeAll htasks hallowed
  | Delay n => exact h.delay hfuel hallowed
  | PlaceOnEventList e n => exact h.placeOnEventList hfuel hallowed
  | PlaceOnEventListRestricted e n always => exact h.placeRestricted hfuel hallowed
  | RemoveFromEventList e => exact h.removeFromEventList hallowed
  | MissedYield => exact h.missedYield
  | Notify t value action => exact h.genericNotify
  | NotifyWait clear n => exact h.notifyWait hfuel hallowed
  | NotifyTaken clear => exact h.notifyTaken

end SpaceBaremetal.Tasks

import SpaceBaremetal.Kernel.Tasks.Runs

open SpaceBaremetal.Lists

namespace SpaceBaremetal.Tasks

open ListName TaskItem

variable {ε τ : Type} [DecidableEq ε] [DecidableEq τ]

section Asleep

variable {idle : τ} {k : Kernel ε τ} {s : KernelLists ε τ} {a : Sleepers ε τ} {t : τ} {e : ε}
  {c : Call ε τ}

-- What may become of a task that is not ready in the course of a call.
inductive Outcome (c : Call ε τ) (k : Kernel ε τ) (a a' : Sleepers ε τ) (t : τ) : Prop
  | sleeps (phase : a'.phase t = a.phase t) (wait : a'.wait t = a.wait t)
  | timeout (wake : Nat) (call : c = .Tick ∨ c = .ResumeAll) (until_ : a.phase t = .Until wake)
      (late : wake ≤ a'.clock) (ready : a'.phase t = .Ready) (wait : a'.wait t = none)
  | chosen (e : ε) (call : c = .RemoveFromEventList e) (on : a.wait t = some (.On e))
      (first : ∀ u, a.wait u = some (.On e) → k.uxPriority u ≤ k.uxPriority t)
      (woken : a' = if k.uxSchedulerSuspended = 0 then a.wake t else a.setWait t (some .Woken))
  | released (call : c = .ResumeAll) (woken : a.wait t = some .Woken) (ready : a'.phase t = .Ready)
      (wait : a'.wait t = none)
  | notified (value : BitVec 32) (action : NotifyAction) (call : c = .Notify t value action)
      (waiting : (k.notification t).state = .Waiting) (ready : a'.phase t = .Ready)
      (wait : a'.wait t = none)

omit [DecidableEq ε] [DecidableEq τ] in
theorem MayBlock.ne (h : Good idle k s a) (hblock : MayBlock idle k) (ht : a.phase t ≠ .Ready) {u : τ}
    (hu : k.pxCurrentTCB = some u) : t ≠ u := by
  rintro rfl
  obtain ⟨-, u', hu', -, hready, -⟩ := hblock
  obtain rfl : u' = t := Option.some.inj (hu'.symm.trans hu)
  exact ht (h.rel.isReady_of_container hready)

omit [DecidableEq ε] in
theorem Good.ticks_outcome (h : Good idle k s a) (ht : a.phase t ≠ .Ready) (n : Nat)
    {a₁ : Sleepers ε τ} (hawake : a₁.Awake) (hphase : a₁.phase t = a.phase t)
    (hwait : a₁.wait t = a.wait t) (hc : c = .Tick ∨ c = .ResumeAll) :
    Outcome c k a (Sleepers.ticks n a₁) t := by
  have hphase' := Sleepers.ticks_phase n hawake t
  have hwait' := Sleepers.ticks_wait n hawake t
  rw [hphase] at hphase' hwait'
  rw [hwait] at hwait'
  cases hp : a.phase t with
  | Ready => exact absurd hp ht
  | Nowhere => exact absurd hp (h.sound.nowhere t)
  | Forever =>
    simp only [hp] at hphase' hwait'
    exact .sleeps (by rw [hphase', hp]) hwait'
  | Until wake =>
    simp only [hp] at hphase' hwait'
    by_cases hlate : wake ≤ a₁.clock + n
    · rw [if_pos hlate] at hphase' hwait'
      exact .timeout wake hc hp (by rwa [Sleepers.ticks_clock]) hphase' hwait'
    · rw [if_neg hlate] at hphase' hwait'
      exact .sleeps (by rw [hphase', hp]) hwait'

theorem Good.outcome (h : Good idle k s a) (hallowed : Allowed idle c k) (ht : a.phase t ≠ .Ready) :
    Outcome c k a (effect c k a) t := by
  cases c with
  | Tick =>
    by_cases hrunning : k.uxSchedulerSuspended = 0
    · have heffect : effect .Tick k a = Sleepers.ticks 1 a := by simp [effect, hrunning, Sleepers.ticks]
      rw [heffect]
      exact h.ticks_outcome ht 1 h.sound.awake rfl rfl (.inl rfl)
    · have heffect : effect .Tick k a = a := by simp [effect, hrunning]
      rw [heffect]
      exact .sleeps rfl rfl
  | ResumeAll =>
    by_cases hlast : k.uxSchedulerSuspended = 1
    · have heffect : effect .ResumeAll k a = Sleepers.ticks k.xPendedTicks.toNat a.release := by
        simp [effect, hlast]
      rw [heffect]
      by_cases hwoken : a.wait t = some .Woken
      · refine .released rfl hwoken ?_ ?_
        · rw [Sleepers.ticks_phase _ h.sound.release.awake]
          simp [Sleepers.release, hwoken]
        · exact Sleepers.ticks_wait_none _ (by simp [Sleepers.release, hwoken])
      · exact h.ticks_outcome ht _ h.sound.release.awake (by simp [Sleepers.release, hwoken])
          (by simp [Sleepers.release, hwoken]) (.inr rfl)
    · have heffect : effect .ResumeAll k a = a := by simp [effect, hlast]
      rw [heffect]
      exact .sleeps rfl rfl
  | Delay n =>
    obtain ⟨u, hu⟩ := h.current
    have hne := hallowed.1.ne h ht hu
    simp only [effect, hu]
    exact .sleeps (by simp [hne]) rfl
  | PlaceOnEventList e n =>
    obtain ⟨u, hu⟩ := h.current
    have hne := hallowed.1.ne h ht hu
    simp only [effect, hu]
    exact .sleeps (by simp [hne]) (by simp [hne])
  | PlaceOnEventListRestricted e n always =>
    obtain ⟨u, hu⟩ := h.current
    have hne := hallowed.1.ne h ht hu
    simp only [effect, hu]
    exact .sleeps (by simp [hne]) (by simp [hne])
  | NotifyWait clear n =>
    obtain ⟨u, hu⟩ := h.current
    have hne := hallowed.1.ne h ht hu
    simp only [effect, hu]
    split
    · exact .sleeps rfl rfl
    · exact .sleeps (by simp [hne]) (by simp)
  | RemoveFromEventList e =>
    obtain ⟨u, howner, hwait, hfirst⟩ := h.rel.event_head hallowed
    simp only [effect, howner]
    by_cases heq : t = u
    · subst heq
      exact .chosen e rfl hwait hfirst rfl
    · split
      · exact .sleeps (by simp [heq]) (by simp [heq])
      · exact .sleeps (by simp) (by simp [heq])
  | Notify u value action =>
    simp only [effect]
    split
    · rename_i hwaiting
      by_cases heq : t = u
      · subst heq
        exact .notified value action rfl hwaiting (by simp) (by simp)
      · exact .sleeps (by simp [heq]) (by simp [heq])
    · exact .sleeps rfl rfl
  | Yield => exact .sleeps rfl rfl
  | SuspendAll => exact .sleeps rfl rfl
  | MissedYield => exact .sleeps rfl rfl
  | NotifyTaken clear => exact .sleeps rfl rfl

omit [DecidableEq ε] in
-- Only a task that runs begins to wait for a notification.
theorem Good.notWaiting (h : Good idle k s a) (hallowed : Allowed idle c k)
    (ht : a.phase t ≠ .Ready) (hnot : (k.notification t).state ≠ .Waiting) :
    (notificationAfter c k t).state ≠ .Waiting := by
  cases c with
  | Notify u value action =>
    simp only [notificationAfter]
    by_cases heq : t = u
    · subst heq
      rw [Function.update_self, xTaskGenericNotify_state]
      simp
    · rwa [Function.update_of_ne heq]
  | NotifyWait clear n =>
    obtain ⟨u, hu⟩ := h.current
    simp only [notificationAfter, hu]
    rwa [Function.update_of_ne (hallowed.1.ne h ht hu)]
  | NotifyTaken clear =>
    obtain ⟨u, hu⟩ := h.current
    simp only [notificationAfter, hu]
    by_cases heq : t = u
    · subst heq
      rw [Function.update_self, xTaskNotifyWaitExit_state]
      simp
    · rwa [Function.update_of_ne heq]
  | _ => exact hnot

end Asleep

section Delay

variable [Fintype τ] {idle : τ} {k k₁ k₂ : Kernel ε τ} {s₁ : KernelLists ε τ}
  {a a₁ : Sleepers ε τ} {t : τ} {c : Call ε τ} {calls : List (Call ε τ)} {fuel : Nat}

-- The task sleeps until a time and for nothing else.
structure Delayed (k : Kernel ε τ) (a : Sleepers ε τ) (t : τ) (wake : Nat) : Prop where
  phase : a.phase t = .Until wake
  wait : a.wait t = none
  notification : (k.notification t).state ≠ .Waiting

omit [DecidableEq ε] [Fintype τ] in
theorem Delayed.outcome {wake : Nat} (hd : Delayed k a t wake) {a' : Sleepers ε τ}
    (houtcome : Outcome c k a a' t) :
    (a'.phase t = .Until wake ∧ a'.wait t = none) ∨ (wake ≤ a'.clock ∧ a'.phase t = .Ready) := by
  cases houtcome with
  | sleeps hphase hwait => exact .inl ⟨hphase.trans hd.phase, hwait.trans hd.wait⟩
  | timeout wake' hcall huntil hlate hready hwait =>
    obtain rfl := Phase.Until.inj (huntil.symm.trans hd.phase)
    exact .inr ⟨hlate, hready⟩
  | chosen e hcall hon hfirst hwoken => cases hon.symm.trans hd.wait
  | released hcall hwoken hready hwait => cases hwoken.symm.trans hd.wait
  | notified value action hcall hwaiting hready hwait => exact absurd hwaiting hd.notification

theorem Run.delayed (hfuel : Fintype.card (TaskItem τ) < fuel) (h₁ : Good idle k₁ s₁ a₁)
    {wake : Nat} (hd₁ : Delayed k₁ a₁ t wake) (run : Run idle fuel k₁ calls k) :
    ∃ s a, Good idle k s a ∧ (a.clock < wake → Delayed k a t wake) ∧
      a.clock + k.xPendedTicks.toNat = a₁.clock + k₁.xPendedTicks.toNat + calls.count .Tick := by
  refine run.invariant (P := fun calls k a => (a.clock < wake → Delayed k a t wake) ∧
    a.clock + k.xPendedTicks.toNat = a₁.clock + k₁.xPendedTicks.toNat + calls.count .Tick)
    hfuel h₁ ⟨fun _ => hd₁, rfl⟩ ?_
  rintro calls k s a c k' s' - h ⟨hd, hclock⟩ hallowed hnext -
  refine ⟨?_, hnext.clock hallowed hclock⟩
  intro hearly
  have hbefore := Nat.lt_of_le_of_lt effect_clock_le hearly
  have hd := hd hbefore
  have hnotReady : a.phase t ≠ .Ready := by simp [hd.phase]
  obtain ⟨hphase, hwait⟩ | ⟨hlate, -⟩ := hd.outcome (h.outcome hallowed hnotReady)
  · refine ⟨hphase, hwait, ?_⟩
    rw [hnext.notification]
    exact h.notWaiting hallowed hnotReady hd.notification
  · omega

-- The ticks counted in the course of a run: those that came, and those kept
-- from before, less those that are kept still.
def ticksCounted (calls : List (Call ε τ)) (k k' : Kernel ε τ) : Nat :=
  calls.count .Tick + k.xPendedTicks.toNat - k'.xPendedTicks.toNat

omit [Fintype τ] [DecidableEq ε] [DecidableEq τ] in
theorem MayBlock.asleep {s : KernelLists ε τ} (h : Good idle k s a) (hblock : MayBlock idle k)
    (hc : k.pxCurrentTCB = some t) :
    a.phase t = .Ready ∧ a.wait t = none ∧ (k.notification t).state ≠ .Waiting := by
  obtain ⟨-, u, hu, -, hready, hnot⟩ := hblock
  obtain rfl : u = t := Option.some.inj (hu.symm.trans hc)
  have hphase := h.rel.isReady_of_container hready
  exact ⟨hphase, h.sound.waiting u hphase, hnot⟩

-- A task that delays itself for `n` ticks is off the ready lists until `n`
-- ticks have been counted, and is on its ready list as soon as they have,
-- whatever else happens and wherever the tick count overflows.
theorem delay_exact (hfuel : Fintype.card (TaskItem τ) < fuel) {k₀ k k₁ k₂ : Kernel ε τ}
    (hstart : Started k₀) {before after : List (Call ε τ)} (run : Run idle fuel k₀ before k)
    (hc : k.pxCurrentTCB = some t) {n : BitVec 64} (hallowed : Allowed idle (.Delay n) k)
    (hdelay : call fuel (.Delay n) k = some k₁) (run' : Run idle fuel k₁ after k₂)
    (hearly : ticksCounted after k₁ k₂ < n.toNat) :
    OnDelayedList k₂ t ∧ ∀ c k₃, Allowed idle c k₂ → call fuel c k₂ = some k₃ →
      n.toNat ≤ ticksCounted (after ++ [c]) k₁ k₃ → OnReadyList k₃ t := by
  obtain ⟨⟨s₀, h₀⟩, -⟩ := hstart.good idle
  obtain ⟨s, a, h, -, -⟩ := run.good hfuel h₀
  obtain ⟨k₁', s₁, hdelay', h₁, hnext⟩ := h.call hfuel hallowed
  obtain rfl := Option.some.inj (hdelay.symm.trans hdelay')
  obtain ⟨-, hwait, hnot⟩ := hallowed.1.asleep h hc
  have heffect : effect (.Delay n) k a = a.setPhase t (.Until (a.clock + n.toNat)) := by
    simp [effect, hc, sleepPhase]
  rw [heffect] at h₁
  have hd₁ : Delayed k₁ (a.setPhase t (.Until (a.clock + n.toNat))) t (a.clock + n.toNat) := by
    refine ⟨by simp, hwait, ?_⟩
    rw [hnext.notification]
    exact hnot
  obtain ⟨s₂, a₂, h₂, hd₂, hclock⟩ := run'.delayed hfuel h₁ hd₁
  rw [Sleepers.setPhase_clock] at hclock
  have hd := hd₂ (by unfold ticksCounted at hearly; omega)
  refine ⟨h₂.rel.onDelayedList_iff.mpr ⟨_, hd.phase⟩, ?_⟩
  intro c k₃ hallowed' hcall hlate
  obtain ⟨k₃', s₃, hcall', h₃, hnext'⟩ := h₂.call hfuel hallowed'
  obtain rfl := Option.some.inj (hcall.symm.trans hcall')
  have hclock' := hnext'.clock hallowed' hclock
  rw [h₃.rel.onReadyList_iff]
  obtain ⟨hphase, -⟩ | ⟨-, hready⟩ := hd.outcome (h₂.outcome hallowed' (by simp [hd.phase]))
  · have hawake := h₃.sound.awake t _ hphase
    have hpos : n.toNat ≠ 0 := fun hzero => hallowed.2 (BitVec.eq_of_toNat_eq hzero)
    unfold ticksCounted at hlate
    omega
  · exact hready

theorem delay_exact_two :
    ∃ k₀ k k₁ : Kernel Unit Bool, Run false 5 k₀ [.SuspendAll] k ∧ call 5 (.Delay 1) k = some k₁ ∧
      OnDelayedList k₁ true ∧ ∀ c k₃, Allowed false c k₁ → call 5 c k₁ = some k₃ →
        1 ≤ ticksCounted ([] ++ [c]) k₁ k₃ → OnReadyList k₃ true := by
  obtain ⟨k₀, k, k₁, hstart, run, hc, -, hallowed, hcall, -⟩ := twoTasks_suspended (.Delay 1)
    fun k hblock _ => ⟨hblock, by decide⟩
  exact ⟨k₀, k, k₁, run, hcall,
    delay_exact (by decide) hstart run hc hallowed hcall .nil (by simp [ticksCounted])⟩

end Delay

section Timeout

variable [Fintype τ] {idle : τ} {k₀ k k₁ k₂ : Kernel ε τ} {s s₁ : KernelLists ε τ}
  {a a₁ : Sleepers ε τ} {t : τ} {c : Call ε τ} {n : BitVec 64} {wake fuel : Nat}
  {before after : List (Call ε τ)}

-- For how many ticks a call puts the task that runs aside at most.
def timeoutOf : Call ε τ → Option (BitVec 64)
  | .Delay n => some n
  | .PlaceOnEventList _ n => if n = portMAX_DELAY then none else some n
  | .NotifyWait _ n => if n = portMAX_DELAY then none else some n
  | .PlaceOnEventListRestricted _ n always => if always then none else some n
  | _ => none

omit [Fintype τ] in
theorem effect_timeout (hc : k.pxCurrentTCB = some t) (htimeout : timeoutOf c = some n)
    (hready : a.phase t = .Ready) (hasleep : (effect c k a).phase t ≠ .Ready) :
    (effect c k a).phase t = .Until (a.clock + n.toNat) ∧ (effect c k a).clock = a.clock := by
  cases c with
  | Delay m =>
    obtain rfl := Option.some.inj htimeout
    simp [effect, hc, sleepPhase]
  | PlaceOnEventList e m =>
    simp only [timeoutOf] at htimeout
    split at htimeout
    · cases htimeout
    · rename_i hfinite
      obtain rfl := Option.some.inj htimeout
      simp [effect, hc, sleepPhase, hfinite]
  | PlaceOnEventListRestricted e m always =>
    simp only [timeoutOf] at htimeout
    split at htimeout
    · cases htimeout
    · rename_i hfinite
      obtain rfl := Option.some.inj htimeout
      simp [effect, hc, sleepPhase, hfinite]
  | NotifyWait clear m =>
    simp only [timeoutOf] at htimeout
    split at htimeout
    · cases htimeout
    · rename_i hfinite
      obtain rfl := Option.some.inj htimeout
      by_cases hreceived : (k.notification t).state = .Received
      · simp only [effect, hc, hreceived, if_true] at hasleep
        exact absurd hready hasleep
      · simp [effect, hc, hreceived, sleepPhase, hfinite]
  | _ => cases htimeout

theorem Run.until_kept (hfuel : Fintype.card (TaskItem τ) < fuel) (h₁ : Good idle k₁ s₁ a₁)
    (hphase : a₁.phase t = .Until wake) (run : Run idle fuel k₁ after k)
    (hasleep : ∀ front k', front <+: after → Run idle fuel k₁ front k' → ¬OnReadyList k' t) :
    ∃ s a, Good idle k s a ∧ a.phase t = .Until wake ∧
      a.clock + k.xPendedTicks.toNat = a₁.clock + k₁.xPendedTicks.toNat + after.count .Tick := by
  have hrun := run.invariant (P := fun calls k a =>
    ((∀ front k', front <+: calls → Run idle fuel k₁ front k' → ¬OnReadyList k' t) →
      a.phase t = .Until wake) ∧
    a.clock + k.xPendedTicks.toNat = a₁.clock + k₁.xPendedTicks.toNat + calls.count .Tick)
    hfuel h₁ ⟨fun _ => hphase, rfl⟩ ?_
  · obtain ⟨s, a, h, hkept, hclock⟩ := hrun
    exact ⟨s, a, h, hkept hasleep, hclock⟩
  · rintro calls k s a c k' s' run h ⟨hkept, hclock⟩ hallowed hnext h'
    refine ⟨?_, hnext.clock hallowed hclock⟩
    intro hasleep
    have hbefore := hkept fun front k'' hfront =>
      hasleep front k'' (hfront.trans (List.prefix_append calls [c]))
    have hnot := hasleep _ k' (List.prefix_refl _) run
    rw [h'.rel.onReadyList_iff] at hnot
    cases h.outcome hallowed (t := t) (by simp [hbefore]) with
    | sleeps hphase hwait => exact hphase.trans hbefore
    | timeout wake' hcall huntil hlate hready hwait => exact absurd hready hnot
    | chosen e hcall hon hfirst hwoken =>
      rw [hwoken] at hnot ⊢
      by_cases hrunning : k.uxSchedulerSuspended = 0
      · rw [if_pos hrunning] at hnot
        exact absurd (by simp) hnot
      · rw [if_neg hrunning]
        exact hbefore
    | released hcall hwoken hready hwait => exact absurd hready hnot
    | notified value action hcall hwaiting hready hwait => exact absurd hready hnot

-- Whatever a task waits for with a timeout: while it has not been made ready,
-- its ticks have not all been counted.
theorem never_sleeps_too_long (hfuel : Fintype.card (TaskItem τ) < fuel) (hstart : Started k₀)
    (run : Run idle fuel k₀ before k) (hc : k.pxCurrentTCB = some t)
    (htimeout : timeoutOf c = some n) (hready : OnReadyList k t) (hallowed : Allowed idle c k)
    (hblock : call fuel c k = some k₁) (run' : Run idle fuel k₁ after k₂)
    (hasleep : ∀ front k', front <+: after → Run idle fuel k₁ front k' → ¬OnReadyList k' t) :
    OnDelayedList k₂ t ∧ ticksCounted after k₁ k₂ < n.toNat := by
  obtain ⟨⟨s₀, h₀⟩, -⟩ := hstart.good idle
  obtain ⟨s, a, h, -, -⟩ := run.good hfuel h₀
  obtain ⟨k₁', s₁, hblock', h₁, -⟩ := h.call hfuel hallowed
  obtain rfl := Option.some.inj (hblock.symm.trans hblock')
  have hnot := hasleep [] k₁ (List.nil_prefix) .nil
  rw [h₁.rel.onReadyList_iff] at hnot
  obtain ⟨hphase, hclock⟩ := effect_timeout hc htimeout (h.rel.onReadyList_iff.mp hready) hnot
  obtain ⟨s₂, a₂, h₂, huntil, hsum⟩ := run'.until_kept hfuel h₁ hphase hasleep
  refine ⟨h₂.rel.onDelayedList_iff.mpr ⟨_, huntil⟩, ?_⟩
  have hawake := h₂.sound.awake t _ huntil
  have hstart' := h₁.sound.awake t _ hphase
  rw [hclock] at hsum hstart'
  unfold ticksCounted
  omega

theorem never_sleeps_too_long_two :
    ∃ k₀ k k₁ : Kernel Unit Bool, Run false 5 k₀ [.SuspendAll] k ∧
      call 5 (.PlaceOnEventList () 7) k = some k₁ ∧ OnDelayedList k₁ true ∧
      ticksCounted [] k₁ k₁ < 7 := by
  obtain ⟨k₀, k, k₁, hstart, run, hc, hready, hallowed, hcall, s, a, s₁, -, h₁⟩ :=
    twoTasks_suspended (.PlaceOnEventList () 7) fun k hblock _ => ⟨hblock, by decide⟩
  refine ⟨k₀, k, k₁, run, hcall, never_sleeps_too_long (n := 7) (by decide) hstart run hc
    (by simp [timeoutOf, portMAX_DELAY]) hready hallowed hcall .nil ?_⟩
  intro front k' hfront run'
  rw [List.prefix_nil] at hfront
  subst hfront
  obtain rfl := run'.eq_of_nil
  rw [h₁.rel.onReadyList_iff]
  simp [effect, hc, sleepPhase, portMAX_DELAY]

end Timeout

section Events

variable [Fintype τ] {idle : τ} {k₀ k k' : Kernel ε τ} {t : τ} {c : Call ε τ} {e : ε}
  {fuel : Nat} {calls : List (Call ε τ)}

-- What may become of a wait for an event in the course of a call.
inductive EventWait (e : ε) (t : τ) (c : Call ε τ) (k k' : Kernel ε τ) : Prop
  | goesOn (on : OnEventList k' e t) (blocked : ¬OnReadyList k' t)
  | timesOut (call : c = .Tick ∨ c = .ResumeAll) (delayed : OnDelayedList k t)
      (ready : OnReadyList k' t) (off : k'.lists.pxContainer (EventListItem t) = none)
  | comes (call : c = .RemoveFromEventList e)
      (first : ∀ u, OnEventList k e u → k.uxPriority u ≤ k.uxPriority t)
      (woken : if k.uxSchedulerSuspended = 0 then
          OnReadyList k' t ∧ k'.lists.pxContainer (EventListItem t) = none
        else
          k'.lists.pxContainer (EventListItem t) = some PendingReady)

-- Whoever waits for an event waits on until its time is up, or until the event
-- has come and nobody above it waits for it too.
theorem event_wait_ends (hfuel : Fintype.card (TaskItem τ) < fuel) (hstart : Started k₀)
    (run : Run idle fuel k₀ calls k) (hon : OnEventList k e t) (hallowed : Allowed idle c k)
    (hcall : call fuel c k = some k') : EventWait e t c k k' := by
  obtain ⟨⟨s₀, h₀⟩, -⟩ := hstart.good idle
  obtain ⟨s, a, h, -, -⟩ := run.good hfuel h₀
  obtain ⟨k'', s', hcall', h', -⟩ := h.call hfuel hallowed
  obtain rfl := Option.some.inj (hcall.symm.trans hcall')
  rw [h.rel.onEventList_iff] at hon
  have hnotReady : a.phase t ≠ .Ready := by
    intro hready
    rw [h.sound.waiting t hready] at hon
    cases hon
  have hnone : ∀ {a' : Sleepers ε τ}, Good idle k' s' a' → a'.wait t = none →
      k'.lists.pxContainer (EventListItem t) = none := by
    intro a' h' hwait
    rw [h'.rel.pxContainer_event, hwait, eventListOf]
  cases h.outcome hallowed hnotReady with
  | sleeps hphase hwait =>
    refine .goesOn ?_ ?_
    · rw [h'.rel.onEventList_iff, hwait, hon]
    · rw [h'.rel.onReadyList_iff, hphase]
      exact hnotReady
  | timeout wake hticks huntil hlate hready hwait =>
    exact .timesOut hticks (h.rel.onDelayedList_iff.mpr ⟨wake, huntil⟩)
      (h'.rel.onReadyList_iff.mpr hready) (hnone h' hwait)
  | chosen e' hremove hon' hfirst hwoken =>
    obtain rfl : e' = e := by simpa [hon] using hon'.symm
    refine .comes hremove ?_ ?_
    · intro u hu
      exact hfirst u (h.rel.onEventList_iff.mp hu)
    · rw [hwoken] at h'
      by_cases hrunning : k.uxSchedulerSuspended = 0
      · rw [if_pos hrunning] at h' ⊢
        exact ⟨h'.rel.onReadyList_iff.mpr (by simp), hnone h' (by simp)⟩
      · rw [if_neg hrunning] at h' ⊢
        exact h'.rel.onPendingReady_iff.mpr (by simp)
  | released hresume hwoken hready hwait => cases hwoken.symm.trans hon
  | notified value action hnotify hwaiting hready hwait =>
    cases (h.notify t hwaiting).symm.trans hon

theorem event_wait_ends_two :
    ∃ k₀ k k' : Kernel Unit Bool,
      Run false 5 k₀ ([.SuspendAll] ++ [.PlaceOnEventList () 7]) k ∧ OnEventList k () true ∧
      EventWait () true .SuspendAll k k' := by
  obtain ⟨k₀, k, k₁, hstart, run, hc, -, hallowed, hcall, s, a, s₁, -, h₁⟩ :=
    twoTasks_suspended (.PlaceOnEventList () 7) fun k hblock _ => ⟨hblock, by decide⟩
  have hon : OnEventList k₁ () true := by
    rw [h₁.rel.onEventList_iff]
    simp [effect, hc]
  exact ⟨k₀, k₁, _, run.snoc hallowed hcall, hon,
    event_wait_ends (by decide) hstart (run.snoc hallowed hcall) hon trivial rfl⟩

-- Of those who wait for an event the highest is woken, and nobody else is moved:
-- of every other task both items stay on the lists they are on.
theorem event_wakes_most_urgent (hfuel : Fintype.card (TaskItem τ) < fuel) (hstart : Started k₀)
    (run : Run idle fuel k₀ calls k) (hne : listLIST_IS_EMPTY (Event e) k.lists = false) :
    ∃ k' t, call fuel (.RemoveFromEventList e) k = some k' ∧ OnEventList k e t ∧
      (∀ u, OnEventList k e u → k.uxPriority u ≤ k.uxPriority t) ∧
      (if k.uxSchedulerSuspended = 0 then
        k'.lists.pxContainer (StateListItem t) = some (ReadyTasks (k.uxPriority t)) ∧
          k'.lists.pxContainer (EventListItem t) = none
      else
        k'.lists.pxContainer (StateListItem t) = k.lists.pxContainer (StateListItem t) ∧
          k'.lists.pxContainer (EventListItem t) = some PendingReady) ∧
      (∀ u, u ≠ t →
        k'.lists.pxContainer (StateListItem u) = k.lists.pxContainer (StateListItem u) ∧
          k'.lists.pxContainer (EventListItem u) = k.lists.pxContainer (EventListItem u)) ∧
      k' = { k with
        lists := k'.lists, uxTopReadyPriority := k'.uxTopReadyPriority
        xYieldPending := k'.xYieldPending } := by
  obtain ⟨⟨s₀, h₀⟩, -⟩ := hstart.good idle
  obtain ⟨s, a, h, -, -⟩ := run.good hfuel h₀
  obtain ⟨c, hc⟩ := h.current
  obtain ⟨t, sw, lists, top, yield, s', -, hwait, hfirst, hremove, hrel, -⟩ :=
    xTaskRemoveFromEventList_spec h.rel hc h.sound.nowhere hne
  refine ⟨_, t, by rw [call, hremove]; rfl, h.rel.onEventList_iff.mpr hwait, ?_, ?_, ?_, rfl⟩
  · intro u hu
    exact hfirst u (h.rel.onEventList_iff.mp hu)
  · by_cases hrunning : k.uxSchedulerSuspended = 0
    · rw [if_pos hrunning] at hrel ⊢
      rw [hrel.pxContainer_state, hrel.pxContainer_event]
      simp [listOf, eventListOf]
    · rw [if_neg hrunning] at hrel ⊢
      rw [hrel.pxContainer_state, hrel.pxContainer_event, h.rel.pxContainer_state]
      exact ⟨rfl, by simp [eventListOf]⟩
  · intro u hu
    rw [hrel.pxContainer_state, hrel.pxContainer_event, h.rel.pxContainer_state,
      h.rel.pxContainer_event]
    split
    · have hphase : (a.wake t).phase u = a.phase u := by simp [hu]
      rw [hphase]
      exact ⟨rfl, by simp [hu]⟩
    · exact ⟨rfl, by simp [hu]⟩

theorem event_wakes_most_urgent_two :
    ∃ k₀ k k' : Kernel Unit Bool, ∃ t,
      Run false 5 k₀ ([.SuspendAll] ++ [.PlaceOnEventList () 7]) k ∧
      call 5 (.RemoveFromEventList ()) k = some k' ∧ OnEventList k () t ∧
      ∀ u, u ≠ t →
        k'.lists.pxContainer (StateListItem u) = k.lists.pxContainer (StateListItem u) ∧
          k'.lists.pxContainer (EventListItem u) = k.lists.pxContainer (EventListItem u) := by
  obtain ⟨k₀, k, k₁, hstart, run, hc, -, hallowed, hcall, s, a, s₁, -, h₁⟩ :=
    twoTasks_suspended (.PlaceOnEventList () 7) fun k hblock _ => ⟨hblock, by decide⟩
  have hwait : (effect (.PlaceOnEventList () 7) k a).wait true = some (.On ()) := by
    simp [effect, hc]
  obtain ⟨k₂, t, hremove, hon, -, -, hothers, -⟩ := event_wakes_most_urgent (by decide) hstart
    (run.snoc hallowed hcall) (h₁.rel.event_nonempty hwait)
  exact ⟨k₀, k₁, k₂, t, run.snoc hallowed hcall, hremove, hon, hothers⟩

end Events

end SpaceBaremetal.Tasks

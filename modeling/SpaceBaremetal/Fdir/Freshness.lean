import SpaceBaremetal.Fdir.Run
import SpaceBaremetal.Lib.History
import SpaceBaremetal.StateMachine.Theorems

namespace SpaceBaremetal

-- The events by which a cycle of the watchdog is told.
def Event.ofWatchdog : Event → Bool
  | .CycleStart _ _ => true
  | .LoopExit _ _ => true
  | .CycleEnd _ _ _ => true
  | .Kick _ _ _ => true
  | _ => false

def Event.isLoopExit : Event → Bool
  | .LoopExit _ _ => true
  | _ => false

def Event.isDelivered : Event → Bool
  | .Kick _ delivered _ => delivered
  | _ => false

def Event.deliveredBits : Event → BitVec 32
  | .Kick taskBit true _ => taskBit
  | _ => 0

namespace Fdir

-- All bits that have been kicked in a stretch of the history.
def kickedBits (trace : List Event) : BitVec 32 :=
  trace.foldl (fun bits event => bits ||| event.deliveredBits) 0

def anyKick (trace : List Event) : Bool := trace.any Event.isDelivered

-- What has happened since the last wait of the previous cycle returned, or
-- since the start.
def sinceLoopExit (trace : List Event) : List Event :=
  History.sinceLast Event.isLoopExit trace

-- A property of the cycles, judged when their last wait has returned.
def onLoopExit (P : List Event → WatchdogTask → Prop) (before : List Event) : Event → Prop
  | .LoopExit task _ => P before task
  | _ => True

instance (P : List Event → WatchdogTask → Prop) [∀ before task, Decidable (P before task)]
    (before : List Event) : ∀ event, Decidable (onLoopExit P before event)
  | .LoopExit task _ => inferInstanceAs (Decidable (P before task))
  | .Boot _ => inferInstanceAs (Decidable True)
  | .Handled _ _ _ => inferInstanceAs (Decidable True)
  | .CycleStart _ _ => inferInstanceAs (Decidable True)
  | .CycleEnd _ _ _ => inferInstanceAs (Decidable True)
  | .Kick _ _ _ => inferInstanceAs (Decidable True)
  | .FaultInjectCheck _ _ => inferInstanceAs (Decidable True)

theorem onLoopExit_of_other {P : List Event → WatchdogTask → Prop} {before : List Event}
    {event : Event} (h : event.isLoopExit = false) : onLoopExit P before event := by
  cases event with
  | LoopExit task tick => exact absurd h (by simp [Event.isLoopExit])
  | _ => trivial

def FreshExit (before : List Event) (task : WatchdogTask) : Prop :=
  task.complete = true →
    kickedBits (sinceLoopExit before) &&& task.expectedBits = task.expectedBits

-- A cycle that ends complete has had every bit it expects since then.
def Fresh (trace : List Event) : Prop := History.Each (onLoopExit FreshExit) trace

-- The cycles that end complete and expect the bit.
def completeExits (taskBit : BitVec 32) (trace : List Event) : List Event :=
  trace.filter fun event =>
    match event with
    | .LoopExit task _ => task.complete && task.expectedBits &&& taskBit == taskBit
    | _ => false

-- Once a bit is no longer kicked, one more cycle that expects it may end
-- complete.
def StopsSoon (trace : List Event) : Prop :=
  ∀ before after taskBit, trace = before ++ after → taskBit ≠ 0 →
    kickedBits after &&& taskBit = 0 → (completeExits taskBit after).length ≤ 1

-- No cycle's wait ends with something kicked since the previous one and every
-- expected bit kicked at some time, but not every one of them since.
def NothingStale (trace : List Event) : Prop :=
  History.Each (onLoopExit fun before task =>
    anyKick (sinceLoopExit before) = true →
    kickedBits before &&& task.expectedBits = task.expectedBits →
    kickedBits (sinceLoopExit before) &&& task.expectedBits = task.expectedBits) trace

-- Any task may kick with any bits at any time, and all else may change in any
-- way that leaves the notification slot to the kernel.
inductive KickStep (layout : Layout) : Fdir → Fdir → Prop
  | Watchdog (s s' : Fdir) (hstep : WatchdogStep s s') : KickStep layout s s'
  | Kick (s : Fdir) (taskBit : BitVec 32) (allowed : Bool) :
      KickStep layout s { kick layout taskBit s with faultInjectAllowed := allowed }
  | Other (s s' : Fdir) (more : List Event) (hpc : s'.watchdog = s.watchdog)
      (hslot : s'.world.watchdogNotification = s.world.watchdogNotification)
      (hhandle : s'.world.xWatchdogTaskHandle = s.world.xWatchdogTaskHandle)
      (htrace : s'.trace = s.trace ++ more) (hmore : ∀ event ∈ more, event.ofWatchdog = false) :
      KickStep layout s s'

section Kicked

@[simp]
theorem kickedBits_nil : kickedBits [] = 0 := rfl

theorem kickedBits_concat (trace : List Event) (event : Event) :
    kickedBits (trace ++ [event]) = kickedBits trace ||| event.deliveredBits := by
  unfold kickedBits
  rw [List.foldl_append]
  rfl

theorem kickedBits_append (trace more : List Event) :
    kickedBits (trace ++ more) = kickedBits trace ||| kickedBits more := by
  induction more using List.reverseRecOn with
  | nil => simp
  | append_singleton more event ih =>
    rw [← List.append_assoc, kickedBits_concat, ih, kickedBits_concat, BitVec.or_assoc]

theorem anyKick_append (trace more : List Event) :
    anyKick (trace ++ more) = (anyKick trace || anyKick more) := List.any_append

theorem deliveredBits_of_not_delivered {event : Event} (h : event.isDelivered = false) :
    event.deliveredBits = 0 := by
  cases event with
  | Kick taskBit delivered tick =>
    cases delivered with
    | false => rfl
    | true => exact absurd h (by simp [Event.isDelivered])
  | _ => rfl

theorem sinceLoopExit_append {trace : List Event} (event : Event) (h : event.isLoopExit = false) :
    sinceLoopExit (trace ++ [event]) = sinceLoopExit trace ++ [event] := by
  unfold sinceLoopExit
  rw [History.sinceLast_append, h]
  rfl

theorem sinceLoopExit_loopExit (trace : List Event) (task : WatchdogTask) (tick : Nat) :
    sinceLoopExit (trace ++ [.LoopExit task tick]) = [] := by
  unfold sinceLoopExit
  rw [History.sinceLast_append]
  rfl

theorem isLoopExit_of_not_ofWatchdog {event : Event} (h : event.ofWatchdog = false) :
    event.isLoopExit = false := by
  cases event with
  | LoopExit task tick => exact absurd h (by simp [Event.ofWatchdog])
  | _ => rfl

theorem isDelivered_of_not_ofWatchdog {event : Event} (h : event.ofWatchdog = false) :
    event.isDelivered = false := by
  cases event with
  | Kick taskBit delivered tick => exact absurd h (by simp [Event.ofWatchdog])
  | _ => rfl

end Kicked

-- What a wait that ends now will have received in all: whatever was kicked at
-- any time if something was kicked since the last one, because the masks that
-- the watchdog passes never clear the notification value; else nothing.
def accumulated (trace : List Event) : BitVec 32 :=
  if anyKick (sinceLoopExit trace) then kickedBits trace else 0

-- The notification slot holds every bit ever kicked, and it is pending when
-- something was kicked that no wait has returned yet.
structure SlotTracks (s : Fdir) : Prop where
  value_eq : s.world.watchdogNotification.value = kickedBits s.trace
  received : s.world.watchdogNotification.state = .Received →
    anyKick (sinceLoopExit s.trace) = true
  handle : s.watchdog = .Created → s.world.xWatchdogTaskHandle = none
  pending : (∀ task wakeTick, s.watchdog ≠ .Waiting task wakeTick) →
    anyKick (sinceLoopExit s.trace) = true → s.world.watchdogNotification.state = .Received
  waiting : ∀ task wakeTick, s.watchdog = .Waiting task wakeTick →
    s.world.watchdogNotification.state ≠ .Received → task.received = accumulated s.trace
  known : ∀ task wakeTick, s.watchdog = .Waiting task wakeTick →
    task.received ||| kickedBits s.trace = kickedBits s.trace

-- Every wait that ends a cycle has received what had accumulated.
def ExitsTrack (trace : List Event) : Prop :=
  History.Each (onLoopExit fun before task => task.received = accumulated before) trace

def Tracked (s : Fdir) : Prop := SlotTracks s ∧ ExitsTrack s.trace

section Invariant

variable {s : Fdir}

theorem accumulated_of_not_delivered (trace : List Event) {event : Event}
    (hexit : event.isLoopExit = false) (hdelivered : event.isDelivered = false) :
    anyKick (sinceLoopExit (trace ++ [event])) = anyKick (sinceLoopExit trace) ∧
      kickedBits (trace ++ [event]) = kickedBits trace ∧
      accumulated (trace ++ [event]) = accumulated trace := by
  have hany : anyKick (sinceLoopExit (trace ++ [event])) = anyKick (sinceLoopExit trace) := by
    rw [sinceLoopExit_append event hexit, anyKick_append]
    simp [anyKick, hdelivered]
  have hbits : kickedBits (trace ++ [event]) = kickedBits trace := by
    rw [kickedBits_concat, deliveredBits_of_not_delivered hdelivered]
    exact BitVec.or_zero
  refine ⟨hany, hbits, ?_⟩
  unfold accumulated
  rw [hany, hbits]

theorem exitsTrack_append {trace : List Event} (h : ExitsTrack trace) {event : Event}
    (hexit : event.isLoopExit = false) : ExitsTrack (trace ++ [event]) := by
  exact History.each_append h (onLoopExit_of_other hexit)

theorem watchdogRemaining_beginCycle (successfulCycles : BitVec 32) (w : World) :
    watchdogRemaining (watchdogBeginCycle successfulCycles w) w = some (BitVec.ofNat 64 3500) := by
  have hincomplete : (watchdogBeginCycle successfulCycles w).complete = false := by
    unfold WatchdogTask.complete watchdogBeginCycle safePolicyWatchdogExpectedBits
    dsimp only
    split_ifs
    · decide
    · decide
  have hremaining : (watchdogBeginCycle successfulCycles w).deadline - xTaskGetTickCount w =
      BitVec.ofNat 64 3500 := by
    unfold watchdogBeginCycle WATCHDOG_TIMEOUT_MS
    dsimp only
    rw [BitVec.add_comm, BitVec.add_sub_cancel]
  unfold watchdogRemaining
  rw [hincomplete, if_neg Bool.false_ne_true, hremaining]
  decide

-- Leaving the loop with what has accumulated starts a new account.
theorem tracked_loopExit {world : World} {task : WatchdogTask} {tick : Nat}
    (hvalue : world.watchdogNotification.value = kickedBits s.trace)
    (hstate : world.watchdogNotification.state ≠ .Received) (hexits : ExitsTrack s.trace)
    (hreceived : task.received = accumulated s.trace) :
    Tracked
      { s with
          world := world
          watchdog := .LoopDone task
          trace := s.trace ++ [.LoopExit task tick] } := by
  have hsince := sinceLoopExit_loopExit s.trace task tick
  have hbits : kickedBits (s.trace ++ [.LoopExit task tick]) = kickedBits s.trace := by
    rw [kickedBits_concat]
    exact BitVec.or_zero
  refine ⟨⟨?_, ?_, ?_, ?_, ?_, ?_⟩, ?_⟩
  · exact hvalue.trans hbits.symm
  · exact fun h => absurd h hstate
  · exact fun h => absurd h (by simp)
  · intro _ hany
    change anyKick (sinceLoopExit (s.trace ++ [.LoopExit task tick])) = true at hany
    rw [hsince] at hany
    exact absurd hany (by simp [anyKick])
  · exact fun _ _ h => absurd h (by simp)
  · exact fun _ _ h => absurd h (by simp)
  · exact History.each_append hexits hreceived

-- Going on to wait keeps what has been received so far.
theorem tracked_waitOrExit {task : WatchdogTask}
    (hvalue : s.world.watchdogNotification.value = kickedBits s.trace)
    (hstate : s.world.watchdogNotification.state ≠ .Received) (hexits : ExitsTrack s.trace)
    (hreceived : task.received = accumulated s.trace) : Tracked (waitOrExit task s) := by
  unfold waitOrExit
  split
  · exact tracked_loopExit hvalue hstate hexits hreceived
  · rename_i remaining _
    have hentry := xTaskNotifyWaitEntry_received 0 remaining s.world.watchdogNotification
    have hnot : (xTaskNotifyWaitEntry 0 remaining s.world.watchdogNotification).2.state ≠
        .Received := fun h => hstate (hentry.mp h)
    refine ⟨⟨?_, ?_, ?_, ?_, ?_, ?_⟩, hexits⟩
    · exact (xTaskNotifyWaitEntry_value remaining _).trans hvalue
    · exact fun h => absurd h hnot
    · exact fun h => absurd h (by simp)
    · exact fun h => absurd rfl (h task _)
    · intro task' wakeTick' hpc _
      rw [WatchdogPc.Waiting.injEq] at hpc
      rw [← hpc.1]
      exact hreceived
    · intro task' wakeTick' hpc
      rw [WatchdogPc.Waiting.injEq] at hpc
      rw [← hpc.1, hreceived]
      unfold accumulated
      split_ifs
      · exact BitVec.or_self
      · exact BitVec.zero_or

theorem tracked_beginCycle (h : Tracked s) (successfulCycles : BitVec 32)
    (hpc : s.watchdog = .CycleTop successfulCycles) : Tracked (beginCycle successfulCycles s) := by
  obtain ⟨hslot, hexits⟩ := h
  let event := Event.CycleStart (systemStateGet s.world) s.world.xTickCount
  have hexit : event.isLoopExit = false := rfl
  have hsame := accumulated_of_not_delivered s.trace hexit rfl
  unfold beginCycle waitOrExit
  rw [watchdogRemaining_beginCycle]
  have hentry := xTaskNotifyWaitEntry_received 0 (BitVec.ofNat 64 3500)
    s.world.watchdogNotification
  refine ⟨⟨?_, ?_, ?_, ?_, ?_, ?_⟩, exitsTrack_append hexits rfl⟩
  · exact (xTaskNotifyWaitEntry_value _ _).trans (hslot.value_eq.trans hsame.2.1.symm)
  · exact fun h => hsame.1.trans (hslot.received (hentry.mp h))
  · exact fun h => absurd h (by simp)
  · exact fun h => absurd rfl (h _ _)
  · intro task wakeTick htask hstate
    rw [WatchdogPc.Waiting.injEq] at htask
    have hnone : anyKick (sinceLoopExit s.trace) = false := by
      rw [← Bool.not_eq_true]
      intro hany
      have hnotWaiting : ∀ task wakeTick, s.watchdog ≠ .Waiting task wakeTick := by
        intro task wakeTick
        rw [hpc]
        simp
      exact hstate (hentry.mpr (hslot.pending hnotWaiting hany))
    change task.received = accumulated _
    rw [hsame.2.2]
    unfold accumulated
    rw [hnone, ← htask.1]
    rfl
  · intro task wakeTick htask
    rw [WatchdogPc.Waiting.injEq] at htask
    rw [← htask.1]
    exact BitVec.zero_or

theorem tracked_wake (h : Tracked s) (task : WatchdogTask) (wakeTick : Nat)
    (hpc : s.watchdog = .Waiting task wakeTick) : Tracked (wake task s) := by
  obtain ⟨hslot, hexits⟩ := h
  have hresult := xTaskNotifyWaitExit_result 0 s.world.watchdogNotification
  have hvalue := (xTaskNotifyWaitExit_value s.world.watchdogNotification).trans hslot.value_eq
  have hnot : (xTaskNotifyWaitExit 0 s.world.watchdogNotification).2.2.state ≠ .Received := by
    rw [xTaskNotifyWaitExit_state]
    simp
  unfold wake
  dsimp only
  by_cases hstate : s.world.watchdogNotification.state = .Received
  · rw [hresult, if_pos (decide_eq_true hstate), xTaskNotifyWaitExit_bits, hslot.value_eq,
      hslot.known task wakeTick hpc]
    refine tracked_waitOrExit
      (s := { s with
                world := { s.world with watchdogNotification :=
                  (xTaskNotifyWaitExit 0 s.world.watchdogNotification).2.2 } })
      hvalue hnot hexits ?_
    unfold accumulated
    exact (if_pos (hslot.received hstate)).symm
  · rw [hresult, if_neg (fun h => hstate (of_decide_eq_true h))]
    exact tracked_loopExit hvalue hnot hexits (hslot.waiting task wakeTick hpc hstate)

theorem tracked_start (h : Tracked s) (hpc : s.watchdog = .Created) :
    Tracked { s with world := watchdogStart s.world, watchdog := .CycleTop 0 } := by
  obtain ⟨hslot, hexits⟩ := h
  have hnotWaiting : ∀ task wakeTick, s.watchdog ≠ .Waiting task wakeTick := by
    intro task wakeTick
    rw [hpc]
    simp
  refine ⟨⟨hslot.value_eq, hslot.received, ?_, ?_, ?_, ?_⟩, hexits⟩
  · exact fun h => absurd h (by simp)
  · exact fun _ hany => hslot.pending hnotWaiting hany
  · exact fun _ _ h => absurd h (by simp)
  · exact fun _ _ h => absurd h (by simp)

theorem tracked_endCycle (h : Tracked s) (task : WatchdogTask) (hpc : s.watchdog = .LoopDone task) :
    Tracked (endCycle task s) := by
  obtain ⟨hslot, hexits⟩ := h
  have hsends := watchdogEndCycle_sends task s.world
  have hnotWaiting : ∀ task wakeTick, s.watchdog ≠ .Waiting task wakeTick := by
    intro task wakeTick
    rw [hpc]
    simp
  unfold endCycle
  dsimp only
  have hexit : ∀ logged requested, (Event.CycleEnd task logged requested).isLoopExit = false :=
    fun _ _ => rfl
  have hsame := fun logged requested =>
    accumulated_of_not_delivered s.trace (hexit logged requested) rfl
  refine ⟨⟨?_, ?_, ?_, ?_, ?_, ?_⟩, exitsTrack_append hexits rfl⟩
  · change (watchdogEndCycle task s.world).2.watchdogNotification.value = kickedBits (_ ++ [_])
    rw [(hsame _ _).2.1, sends_slot hsends]
    exact hslot.value_eq
  · change (watchdogEndCycle task s.world).2.watchdogNotification.state = .Received →
      anyKick (sinceLoopExit (_ ++ [_])) = true
    rw [(hsame _ _).1, sends_slot hsends]
    exact hslot.received
  · exact fun h => absurd h (by simp)
  · intro _
    change anyKick (sinceLoopExit (_ ++ [_])) = true →
      (watchdogEndCycle task s.world).2.watchdogNotification.state = .Received
    rw [(hsame _ _).1, sends_slot hsends]
    exact hslot.pending hnotWaiting
  · exact fun _ _ h => absurd h (by simp)
  · exact fun _ _ h => absurd h (by simp)

-- Events that are neither exits nor kicks that got through leave the account as
-- it is.
theorem accumulated_append_others (trace : List Event) {more : List Event}
    (hmore : ∀ event ∈ more, event.isLoopExit = false ∧ event.isDelivered = false) :
    anyKick (sinceLoopExit (trace ++ more)) = anyKick (sinceLoopExit trace) ∧
      kickedBits (trace ++ more) = kickedBits trace ∧
      accumulated (trace ++ more) = accumulated trace ∧
      (ExitsTrack trace → ExitsTrack (trace ++ more)) := by
  induction more using List.reverseRecOn with
  | nil =>
    rw [List.append_nil]
    exact ⟨rfl, rfl, rfl, id⟩
  | append_singleton more event ih =>
    obtain ⟨hany, hbits, hacc, hexits⟩ := ih (fun e he => hmore e (List.mem_append_left _ he))
    obtain ⟨hexit, hdelivered⟩ := hmore event (List.mem_append_right _ List.mem_cons_self)
    have hsame := accumulated_of_not_delivered (trace ++ more) hexit hdelivered
    rw [← List.append_assoc]
    exact ⟨hsame.1.trans hany, hsame.2.1.trans hbits, hsame.2.2.trans hacc,
      fun h => exitsTrack_append (hexits h) hexit⟩

theorem tracked_other {s' : Fdir} (h : Tracked s) (more : List Event)
    (hpc : s'.watchdog = s.watchdog)
    (hslot : s'.world.watchdogNotification = s.world.watchdogNotification)
    (hhandle : s'.world.xWatchdogTaskHandle = s.world.xWatchdogTaskHandle)
    (htrace : s'.trace = s.trace ++ more)
    (hmore : ∀ event ∈ more, event.isLoopExit = false ∧ event.isDelivered = false) : Tracked s' := by
  obtain ⟨hany, hbits, hacc, hexits⟩ := accumulated_append_others s.trace hmore
  refine ⟨⟨?_, ?_, ?_, ?_, ?_, ?_⟩, ?_⟩
  · rw [hslot, htrace, hbits]
    exact h.1.value_eq
  · rw [hslot, htrace, hany]
    exact h.1.received
  · rw [hpc, hhandle]
    exact h.1.handle
  · rw [hpc, hslot, htrace, hany]
    exact h.1.pending
  · rw [hpc, hslot, htrace, hacc]
    exact h.1.waiting
  · rw [hpc, htrace, hbits]
    exact h.1.known
  · rw [htrace]
    exact hexits h.2

-- A kick that is refused does not reach the slot, and its event does not count.
theorem tracked_kick_refused {layout : Layout} (h : Tracked s) (taskBit : BitVec 32) (allowed : Bool)
    (hrefused : (kickPermitted layout s.world && s.world.xWatchdogTaskHandle.isSome) = false) :
    Tracked { kick layout taskBit s with faultInjectAllowed := allowed } := by
  have hsends := watchdogKick_refused layout taskBit s.world hrefused
  refine tracked_other h [.Kick taskBit false s.world.xTickCount] rfl (sends_slot hsends)
    (sends_handle hsends) ?_ ?_
  · unfold kick
    dsimp only
    rw [hrefused]
  · intro event hevent
    rw [List.mem_singleton] at hevent
    rw [hevent]
    exact ⟨rfl, rfl⟩

theorem tracked_kick_delivered {layout : Layout} (h : Tracked s) (taskBit : BitVec 32) (allowed : Bool)
    (hdelivered : (kickPermitted layout s.world && s.world.xWatchdogTaskHandle.isSome) = true) :
    Tracked { kick layout taskBit s with faultInjectAllowed := allowed } := by
  obtain ⟨hslot, hexits⟩ := h
  obtain ⟨middle, hsends, hkick⟩ := watchdogKick_delivered layout taskBit s.world hdelivered
  have hhandle : s.world.xWatchdogTaskHandle ≠ none := by
    intro hnone
    rw [hnone] at hdelivered
    simp at hdelivered
  have hbits : kickedBits (s.trace ++ [.Kick taskBit true s.world.xTickCount]) =
      kickedBits s.trace ||| taskBit := kickedBits_concat _ _
  unfold kick
  dsimp only
  rw [hdelivered, hkick]
  refine ⟨⟨?_, ?_, ?_, ?_, ?_, ?_⟩, exitsTrack_append hexits rfl⟩
  · rw [hbits, ← hslot.value_eq]
  · intro _
    change anyKick (sinceLoopExit (s.trace ++ [.Kick taskBit true s.world.xTickCount])) = true
    rw [sinceLoopExit_append _ rfl, anyKick_append]
    simp [anyKick, Event.isDelivered]
  · exact fun hpc => absurd (hslot.handle hpc) hhandle
  · exact fun _ _ => rfl
  · exact fun _ _ _ hstate => absurd rfl hstate
  · intro task wakeTick hpc
    have hknown := hslot.known task wakeTick hpc
    change task.received ||| kickedBits (_ ++ [_]) = kickedBits (_ ++ [_])
    rw [hbits, ← BitVec.or_assoc, hknown]

theorem tracked_kick {layout : Layout} (h : Tracked s) (taskBit : BitVec 32) (allowed : Bool) :
    Tracked { kick layout taskBit s with faultInjectAllowed := allowed } := by
  cases hdelivered : kickPermitted layout s.world && s.world.xWatchdogTaskHandle.isSome with
  | false => exact tracked_kick_refused h taskBit allowed hdelivered
  | true => exact tracked_kick_delivered h taskBit allowed hdelivered

theorem tracked_step {layout : Layout} {s' : Fdir} (h : Tracked s) (hstep : KickStep layout s s') :
    Tracked s' := by
  cases hstep with
  | Watchdog _ hwatchdog =>
    cases hwatchdog with
    | Start hpc => exact tracked_start h hpc
    | BeginCycle successfulCycles hpc => exact tracked_beginCycle h successfulCycles hpc
    | Wake task wakeTick hpc hready => exact tracked_wake h task wakeTick hpc
    | EndCycle task hpc => exact tracked_endCycle h task hpc
  | Kick taskBit allowed => exact tracked_kick h taskBit allowed
  | Other _ more hpc hslot hhandle htrace hmore =>
    refine tracked_other h more hpc hslot hhandle htrace (fun event hevent => ⟨?_, ?_⟩)
    · exact isLoopExit_of_not_ofWatchdog (hmore event hevent)
    · exact isDelivered_of_not_ofWatchdog (hmore event hevent)

theorem tracked_initial {imageOk : Bool} (h : Initial imageOk s) : Tracked s := by
  have hnone : anyKick (sinceLoopExit s.trace) = false := by rw [h.trace_eq]; rfl
  refine ⟨⟨?_, ?_, ?_, ?_, ?_, ?_⟩, ?_⟩
  · rw [h.slot_eq, h.trace_eq]
    rfl
  · rw [h.slot_eq]
    exact fun hstate => absurd hstate (by simp)
  · exact fun _ => h.handle_eq
  · intro _ hany
    rw [hnone] at hany
    exact absurd hany Bool.false_ne_true
  · rw [h.watchdog_eq]
    exact fun _ _ hpc => absurd hpc (by simp)
  · rw [h.watchdog_eq]
    exact fun _ _ hpc => absurd hpc (by simp)
  · rw [h.trace_eq]
    exact History.each_nil _

end Invariant

theorem kickStep_of_step {layout : Layout} {s s' : Fdir} (h : Step layout s s') :
    KickStep layout s s' := by
  have hnone : ∀ event ∈ ([] : List Event), event.ofWatchdog = false :=
    fun event hevent => absurd hevent List.not_mem_nil
  have hone : ∀ event : Event, event.ofWatchdog = false → ∀ e ∈ [event], e.ofWatchdog = false := by
    intro event hevent e he
    rw [List.mem_singleton] at he
    rw [he]
    exact hevent
  cases h with
  | Watchdog _ hwatchdog => exact .Watchdog _ _ hwatchdog
  | Tick ticks => exact .Other _ _ [] rfl rfl rfl (List.append_nil _).symm hnone
  | Boot allocated hpc =>
    have hcontrol := stateMachineBoot_control allocated s.world
    exact .Other _ _ _ rfl (congrArg Control.slot hcontrol) (congrArg Control.handle hcontrol) rfl
      (hone _ rfl)
  | Receive queue rest request hpc hheld hqueue hreceive =>
    exact .Other _ _ [] rfl rfl rfl (List.append_nil _).symm hnone
  | Handle request hheld =>
    have hcontrol := stateMachineHandle_control request s.world
    exact .Other _ _ _ rfl (congrArg Control.slot hcontrol) (congrArg Control.handle hcontrol) rfl
      (hone _ rfl)
  | HeartbeatKick => exact .Kick s _ s.faultInjectAllowed
  | MemScrubKick => exact .Kick s _ s.faultInjectAllowed
  | FaultInjectCheck => exact .Other _ _ _ rfl rfl rfl rfl (hone _ rfl)
  | FaultInjectKick hallowed => exact .Kick s _ false
  | Command cmd =>
    have hsends := commandHandle_sends layout cmd s.world
    exact .Other _ _ [] rfl (sends_slot hsends) (sends_handle hsends) (List.append_nil _).symm hnone
  | Background w' hsends =>
    exact .Other _ _ [] rfl (sends_slot hsends) (sends_handle hsends) (List.append_nil _).symm hnone

section Main

variable {layout : Layout} {imageOk : Bool} {s : Fdir}

theorem tracked_of_reachable
    (h : Transition.Reachable (Initial imageOk) (KickStep layout) s) : Tracked s := by
  refine Transition.invariant_of_step ?_ ?_ h
  · exact fun _ hinitial => tracked_initial hinitial
  · exact fun _ _ hinv hstep => tracked_step hinv hstep

theorem fresh_iff_nothingStale {trace : List Event} (h : ExitsTrack trace) :
    Fresh trace ↔ NothingStale trace := by
  have hexit : ∀ before task, task.received = accumulated before →
      (FreshExit before task ↔
        (anyKick (sinceLoopExit before) = true →
          kickedBits before &&& task.expectedBits = task.expectedBits →
          kickedBits (sinceLoopExit before) &&& task.expectedBits = task.expectedBits)) := by
    intro before task hreceived
    unfold FreshExit
    rw [complete_iff, hreceived]
    unfold accumulated
    by_cases hany : anyKick (sinceLoopExit before) = true
    · rw [if_pos hany]
      exact ⟨fun hfresh _ => hfresh, fun hstale => hstale hany⟩
    · rw [if_neg hany]
      refine ⟨fun _ hany' => absurd hany' hany, fun _ hzero => ?_⟩
      have hexpected : task.expectedBits = 0 := hzero.symm.trans BitVec.zero_and
      rw [hexpected]
      exact BitVec.and_zero
  constructor
  · intro hfresh before event after hsplit
    cases event with
    | LoopExit task tick =>
      exact (hexit before task (h before _ after hsplit)).mp (hfresh before _ after hsplit)
    | _ => trivial
  · intro hstale before event after hsplit
    cases event with
    | LoopExit task tick =>
      exact (hexit before task (h before _ after hsplit)).mpr (hstale before _ after hsplit)
    | _ => trivial

theorem completeExits_append (taskBit : BitVec 32) (trace : List Event) (event : Event) :
    completeExits taskBit (trace ++ [event]) =
      completeExits taskBit trace ++ completeExits taskBit [event] := by
  unfold completeExits
  rw [List.filter_append]

theorem completeExits_eq_nil (taskBit : BitVec 32) {trace : List Event}
    (h : ∀ event ∈ trace, event.isLoopExit = false) : completeExits taskBit trace = [] := by
  unfold completeExits
  rw [List.filter_eq_nil_iff]
  intro event hevent
  have hexit := h event hevent
  cases event with
  | LoopExit task tick => exact absurd hexit (by simp [Event.isLoopExit])
  | _ => simp

theorem mem_completeExits {taskBit : BitVec 32} {event : Event}
    (h : completeExits taskBit [event] ≠ []) :
    ∃ task tick, event = .LoopExit task tick ∧ task.complete = true ∧
      task.expectedBits &&& taskBit = taskBit := by
  cases event with
  | LoopExit task tick =>
    unfold completeExits at h
    rw [Ne, List.filter_eq_nil_iff] at h
    simp only [List.mem_singleton, forall_eq, Decidable.not_not, Bool.and_eq_true, beq_iff_eq] at h
    exact ⟨task, tick, rfl, h⟩
  | _ => exact absurd rfl h

-- The second cycle without a kick of the bit would have had to see one since
-- the first.
theorem stopsSoon_of_fresh {trace : List Event} (h : Fresh trace) : StopsSoon trace := by
  intro before after taskBit hsplit hne hquiet
  subst hsplit
  induction after using List.reverseRecOn with
  | nil => exact Nat.zero_le _
  | append_singleton after event ih =>
    rw [← List.append_assoc] at h
    have hbits : kickedBits after &&& taskBit = 0 := by
      rw [kickedBits_concat, BitVec.and_comm, BitVec.and_or_distrib_left] at hquiet
      have hleft := (BitVec.or_eq_zero_iff.mp hquiet).1
      rwa [BitVec.and_comm] at hleft
    have hupTo := ih hbits (History.each_of_append h)
    rw [completeExits_append, List.length_append]
    by_cases hcounts : completeExits taskBit [event] = []
    · rw [hcounts]
      exact hupTo
    · -- The last event is such a cycle, so a kick of the bit came since the exit
      -- before it; no exit can lie in the quiet stretch.
      have hnoexit : ∀ e ∈ after, e.isLoopExit = false := by
        intro e he
        by_contra hexit
        rw [Bool.not_eq_false] at hexit
        have hsince : sinceLoopExit (before ++ after) = sinceLoopExit after :=
          History.sinceLast_append_of_some _ _ _ ⟨e, he, hexit⟩
        obtain ⟨task, tick, rfl, hcomplete, hexpects⟩ := mem_completeExits hcounts
        have hfresh := h (before ++ after) _ [] rfl hcomplete
        rw [hsince] at hfresh
        obtain ⟨earlier, hearlier⟩ := History.sinceLast_suffix Event.isLoopExit after
        have hzero : kickedBits (sinceLoopExit after) &&& taskBit = 0 := by
          rw [hearlier, kickedBits_append, BitVec.and_comm, BitVec.and_or_distrib_left] at hbits
          have hright := (BitVec.or_eq_zero_iff.mp hbits).2
          rwa [BitVec.and_comm] at hright
        apply hne
        rw [← hexpects, ← hfresh, BitVec.and_assoc, hexpects]
        exact hzero
      rw [completeExits_eq_nil taskBit hnoexit]
      have hlen : (completeExits taskBit [event]).length ≤ [event].length := List.length_filter_le _ _
      simpa using hlen

end Main

-- Over every interleaving of kicks with the cycles of the watchdog.
theorem watchdog_fresh_iff (layout : Layout) (imageOk : Bool) (s : Fdir)
    (h : Transition.Reachable (Initial imageOk) (KickStep layout) s) :
    (Fresh s.trace ∧ StopsSoon s.trace) ↔ NothingStale s.trace := by
  have hiff := fresh_iff_nothingStale (tracked_of_reachable h).2
  constructor
  · rintro ⟨hfresh, -⟩
    exact hiff.mp hfresh
  · intro hstale
    have hfresh := hiff.mpr hstale
    exact ⟨hfresh, stopsSoon_of_fresh hfresh⟩

-- A start in NOMINAL and a cycle in which all tasks kick.
def healthyCycle : List Action :=
  [.Boot true, .WatchdogStart, .BeginCycle, .HeartbeatKick, .MemScrubKick, .FaultInjectCheck,
    .FaultInjectKick, .Wake]

theorem reachable_kicks (actions : List Action) :
    Transition.Reachable (Initial true) (KickStep startupLayout)
      (run startupLayout (start true) actions) :=
  Transition.reachable_mono (fun _ _ h => kickStep_of_step h) (reachable_run_start true actions)

theorem watchdog_fresh_iff_healthy :
    Fresh (run startupLayout (start true) healthyCycle).trace ∧
      StopsSoon (run startupLayout (start true) healthyCycle).trace :=
  (watchdog_fresh_iff startupLayout true _ (reachable_kicks healthyCycle)).mpr (by
    unfold NothingStale
    decide +kernel)

-- After that cycle only Heartbeat kicks, and the next cycle ends complete too.
theorem watchdog_completes_on_stale_bits :
    ¬ ∀ s, Transition.Reachable (Initial true) (KickStep startupLayout) s →
      Fresh s.trace ∧ StopsSoon s.trace := by
  intro h
  have hfresh := (h _ (reachable_kicks
    (healthyCycle ++ [.EndCycle, .BeginCycle, .HeartbeatKick, .Wake]))).1
  revert hfresh
  unfold Fresh FreshExit
  decide +kernel

end Fdir

end SpaceBaremetal

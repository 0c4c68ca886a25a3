import SpaceBaremetal.Watchdog

namespace SpaceBaremetal

-- A turn of the inner loop of `vTaskWatchdog` as the kernel has it: the tick
-- count when the loop reads it, how long the wait then blocks, and the value
-- that it delivers, `none` where it times out.
structure WindowTurn where
  reading : Nat
  waited : Nat
  bits : Option (BitVec 32)
deriving DecidableEq

-- A call of `xTaskNotifyWait`.
structure WindowWait extends WindowTurn where
  timeout : BitVec 64
deriving DecidableEq

-- What the loop did, and whether it was left.
structure Window where
  waits : List WindowWait
  task : WatchdogTask
  exited : Bool
deriving DecidableEq

-- The inner loop, for as many turns as are given.
def watchdogWindow (w : World) : WatchdogTask → List WindowTurn → Window
  | task, [] => { waits := [], task := task, exited := task.complete }
  | task, turn :: turns =>
      match watchdogRemaining task { w with xTickCount := turn.reading } with
      | none => { waits := [], task := task, exited := true }
      | some remaining =>
          let wait : WindowWait := { turn with timeout := remaining }
          match turn.bits with
          | none => { waits := [wait], task := task, exited := true }
          | some bits =>
              let rest := watchdogWindow w { task with received := task.received ||| bits } turns
              { rest with waits := wait :: rest.waits }

-- The clock does not go back, a wait takes its time, and fewer than 2 ^ 31 ticks
-- pass between two readings.
def ClockRuns (last earliest : Nat) : List WindowTurn → Prop
  | [] => True
  | turn :: turns =>
      earliest ≤ turn.reading ∧ turn.reading < last + 2 ^ 31 ∧
        ClockRuns turn.reading (turn.reading + turn.waited) turns

-- What the kernel promises of a wait.
structure WindowWait.Kept (wait : WindowWait) : Prop where
  within : wait.waited ≤ wait.timeout.toNat
  timed_out : wait.bits = none → wait.waited = wait.timeout.toNat

-- The bits that successful waits delivered, all in one word.
def delivered (waits : List WindowWait) : BitVec 32 :=
  (waits.filterMap fun wait => wait.bits).foldl (fun received bits => received ||| bits) 0

-- The ticks that waits block for, all together.
def waitedTicks (waits : List WindowWait) : Nat :=
  waits.foldr (fun wait total => wait.waited + total) 0

-- What the loop may do in a window that starts at tick `start`.
structure WindowKept (start : Nat) (window : Window) : Prop where
  timeouts : ∀ wait ∈ window.waits,
    1 ≤ wait.timeout.toNat ∧ wait.timeout.toNat ≤ WATCHDOG_TIMEOUT_MS
  started : ∀ wait ∈ window.waits, wait.reading < start + WATCHDOG_TIMEOUT_MS
  total : waitedTicks window.waits ≤ WATCHDOG_TIMEOUT_MS
  complete : window.exited = true ∧ window.task.complete = true ↔
    delivered window.waits &&& window.task.expectedBits = window.task.expectedBits

section Remaining

-- With the deadline ahead the difference of the ticks is what is left to wait,
-- whatever the counter has wrapped around to.
theorem remaining_toNat (deadline now : Nat) (hle : deadline ≤ now + WATCHDOG_TIMEOUT_MS)
    (hlt : now < deadline) :
    (BitVec.ofNat 64 deadline - BitVec.ofNat 64 now).toNat = deadline - now := by
  unfold WATCHDOG_TIMEOUT_MS at hle
  rw [BitVec.toNat_sub, BitVec.toNat_ofNat, BitVec.toNat_ofNat]
  omega

theorem remaining_positive (deadline now : Nat) (hle : deadline ≤ now + WATCHDOG_TIMEOUT_MS)
    (hlt : now < deadline) :
    0 < ((BitVec.ofNat 64 deadline - BitVec.ofNat 64 now).setWidth 32).toInt := by
  have hnat := remaining_toNat deadline now hle hlt
  unfold WATCHDOG_TIMEOUT_MS at hle
  have hwidth : ((BitVec.ofNat 64 deadline - BitVec.ofNat 64 now).setWidth 32).toNat =
      deadline - now := by
    rw [BitVec.toNat_setWidth, hnat]
    omega
  rw [BitVec.toInt_eq_toNat_of_lt (by rw [hwidth]; omega), hwidth]
  omega

-- Once the deadline has come the difference is taken for negative, as long as
-- it fits in 31 bits.
theorem remaining_not_positive (deadline now : Nat) (hle : deadline ≤ now)
    (hlt : now < deadline + 2 ^ 31) :
    ((BitVec.ofNat 64 deadline - BitVec.ofNat 64 now).setWidth 32).toInt ≤ 0 := by
  have hwidth : ((BitVec.ofNat 64 deadline - BitVec.ofNat 64 now).setWidth 32).toNat =
      (2 ^ 32 - (now - deadline)) % 2 ^ 32 := by
    rw [BitVec.toNat_setWidth, BitVec.toNat_sub, BitVec.toNat_ofNat, BitVec.toNat_ofNat]
    omega
  rw [BitVec.toInt_eq_toNat_cond, hwidth]
  split_ifs <;> omega

end Remaining

section Loop

variable {w : World} {task : WatchdogTask} {turn : WindowTurn} {turns : List WindowTurn}
  {remaining : BitVec 64} {start : Nat}

theorem watchdogWindow_exit
    (h : watchdogRemaining task { w with xTickCount := turn.reading } = none) :
    watchdogWindow w task (turn :: turns) = { waits := [], task := task, exited := true } := by
  rw [watchdogWindow, h]

theorem watchdogWindow_timeout
    (h : watchdogRemaining task { w with xTickCount := turn.reading } = some remaining)
    (hbits : turn.bits = none) :
    watchdogWindow w task (turn :: turns) =
      { waits := [{ turn with timeout := remaining }], task := task, exited := true } := by
  rw [watchdogWindow, h]
  simp only [hbits]

theorem watchdogWindow_kick {bits : BitVec 32}
    (h : watchdogRemaining task { w with xTickCount := turn.reading } = some remaining)
    (hbits : turn.bits = some bits) :
    watchdogWindow w task (turn :: turns) =
      { watchdogWindow w { task with received := task.received ||| bits } turns with
          waits := { turn with timeout := remaining } ::
            (watchdogWindow w { task with received := task.received ||| bits } turns).waits } := by
  rw [watchdogWindow, h]
  simp only [hbits]

-- The loop waits only before its deadline, and then for what is left until it.
theorem watchdogRemaining_eq_some
    (hdeadline : task.deadline = BitVec.ofNat 64 (start + WATCHDOG_TIMEOUT_MS))
    (hstart : start ≤ turn.reading)
    (hlate : turn.reading < start + WATCHDOG_TIMEOUT_MS + 2 ^ 31)
    (h : watchdogRemaining task { w with xTickCount := turn.reading } = some remaining) :
    turn.reading < start + WATCHDOG_TIMEOUT_MS ∧
      turn.reading + remaining.toNat = start + WATCHDOG_TIMEOUT_MS := by
  unfold watchdogRemaining xTaskGetTickCount at h
  dsimp only at h
  rw [hdeadline] at h
  split_ifs at h with hcomplete hover
  have hbefore : turn.reading < start + WATCHDOG_TIMEOUT_MS := by
    by_contra hpast
    exact hover (remaining_not_positive _ _ (Nat.not_lt.mp hpast) hlate)
  have hnat := remaining_toNat (start + WATCHDOG_TIMEOUT_MS) turn.reading (by omega) hbefore
  rw [← Option.some.inj h, hnat]
  omega

-- What the waits of a window add up to, and when each of them starts and ends.
theorem watchdogWindow_bounds (turns : List WindowTurn) (task : WatchdogTask) (last earliest : Nat)
    (hdeadline : task.deadline = BitVec.ofNat 64 (start + WATCHDOG_TIMEOUT_MS))
    (hstart : start ≤ earliest) (hearliest : earliest ≤ start + WATCHDOG_TIMEOUT_MS)
    (hlast : last < start + WATCHDOG_TIMEOUT_MS) (hclock : ClockRuns last earliest turns)
    (hkept : ∀ wait ∈ (watchdogWindow w task turns).waits, wait.Kept) :
    (∀ wait ∈ (watchdogWindow w task turns).waits,
        start ≤ wait.reading ∧ wait.reading < start + WATCHDOG_TIMEOUT_MS ∧
          wait.reading + wait.timeout.toNat = start + WATCHDOG_TIMEOUT_MS) ∧
      earliest + waitedTicks (watchdogWindow w task turns).waits ≤
        start + WATCHDOG_TIMEOUT_MS := by
  induction turns generalizing task last earliest with
  | nil => exact ⟨fun wait hwait => absurd hwait List.not_mem_nil, hearliest⟩
  | cons turn turns ih =>
    obtain ⟨hreading, hadvance, hclock⟩ := hclock
    cases hremaining : watchdogRemaining task { w with xTickCount := turn.reading } with
    | none =>
      rw [watchdogWindow_exit hremaining]
      exact ⟨fun wait hwait => absurd hwait List.not_mem_nil, hearliest⟩
    | some remaining =>
      obtain ⟨hbefore, hexact⟩ :=
        watchdogRemaining_eq_some hdeadline (by omega) (by omega) hremaining
      cases hbits : turn.bits with
      | none =>
        rw [watchdogWindow_timeout hremaining hbits] at hkept ⊢
        have hwithin : turn.waited ≤ remaining.toNat := (hkept _ List.mem_cons_self).within
        refine ⟨?_, ?_⟩
        · rw [List.forall_mem_singleton]
          exact ⟨Nat.le_trans hstart hreading, hbefore, hexact⟩
        · show earliest + (turn.waited + 0) ≤ _
          omega
      | some bits =>
        rw [watchdogWindow_kick hremaining hbits] at hkept ⊢
        have hwithin : turn.waited ≤ remaining.toNat := (hkept _ List.mem_cons_self).within
        obtain ⟨hwaits, htotal⟩ := ih { task with received := task.received ||| bits }
          turn.reading (turn.reading + turn.waited) hdeadline (by omega) (by omega) hbefore hclock
          (fun wait hwait => hkept wait (List.mem_cons_of_mem _ hwait))
        refine ⟨?_, ?_⟩
        · rw [List.forall_mem_cons]
          exact ⟨⟨Nat.le_trans hstart hreading, hbefore, hexact⟩, hwaits⟩
        · show earliest + (turn.waited + waitedTicks _) ≤ _
          omega

theorem delivered_none {wait : WindowWait} (h : wait.bits = none) : delivered [wait] = 0 := by
  unfold delivered
  simp [h]

theorem foldl_or_eq (waits : List (BitVec 32)) (received : BitVec 32) :
    waits.foldl (fun received bits => received ||| bits) received =
      received ||| waits.foldl (fun received bits => received ||| bits) 0 := by
  induction waits generalizing received with
  | nil => simp
  | cons bits waits ih =>
    rw [List.foldl_cons, List.foldl_cons, ih (received ||| bits), ih (0 ||| bits)]
    simp [BitVec.or_assoc]

theorem delivered_cons {wait : WindowWait} {bits : BitVec 32} (waits : List WindowWait)
    (h : wait.bits = some bits) : delivered (wait :: waits) = bits ||| delivered waits := by
  unfold delivered
  simp only [List.filterMap_cons, h, List.foldl_cons]
  rw [foldl_or_eq]
  simp

-- The loop takes up what its waits deliver and nothing else; it is never left
-- waiting once all bits are there.
theorem watchdogWindow_task (w : World) (turns : List WindowTurn) (task : WatchdogTask) :
    (watchdogWindow w task turns).task =
        { task with received := task.received ||| delivered (watchdogWindow w task turns).waits } ∧
      ((watchdogWindow w task turns).task.complete = true →
        (watchdogWindow w task turns).exited = true) := by
  induction turns generalizing task with
  | nil => exact ⟨by simp [watchdogWindow, delivered], id⟩
  | cons turn turns ih =>
    cases hremaining : watchdogRemaining task { w with xTickCount := turn.reading } with
    | none =>
      rw [watchdogWindow_exit hremaining]
      exact ⟨by simp [delivered], fun _ => rfl⟩
    | some remaining =>
      cases hbits : turn.bits with
      | none =>
        rw [watchdogWindow_timeout hremaining hbits]
        refine ⟨?_, fun _ => rfl⟩
        rw [delivered_none hbits]
        simp
      | some bits =>
        rw [watchdogWindow_kick hremaining hbits]
        obtain ⟨htask, hexited⟩ := ih { task with received := task.received ||| bits }
        refine ⟨?_, hexited⟩
        rw [delivered_cons _ hbits, htask, ← BitVec.or_assoc]

end Loop

-- However many partial kicks arrive, a window lasts until its deadline and no
-- longer, and it is complete when its waits have delivered every bit.
theorem watchdog_window_kept (w : World) (successfulCycles expectedBits : BitVec 32) (start : Nat)
    (turns : List WindowTurn) (hclock : ClockRuns start start turns)
    (hkept : ∀ wait ∈ (watchdogWindow w
        { watchdogBeginCycle successfulCycles { w with xTickCount := start } with
            expectedBits := expectedBits } turns).waits, wait.Kept) :
    WindowKept start (watchdogWindow w
      { watchdogBeginCycle successfulCycles { w with xTickCount := start } with
          expectedBits := expectedBits } turns) := by
  have hdeadline : (watchdogBeginCycle successfulCycles { w with xTickCount := start }).deadline =
      BitVec.ofNat 64 (start + WATCHDOG_TIMEOUT_MS) :=
    (BitVec.ofNat_add start WATCHDOG_TIMEOUT_MS).symm
  generalize hbegin : { watchdogBeginCycle successfulCycles { w with xTickCount := start } with
      expectedBits := expectedBits } = task at hkept ⊢
  have hreceived : task.received = 0 := by rw [← hbegin]; rfl
  obtain ⟨hwaits, htotal⟩ := watchdogWindow_bounds turns task start start
    (by rw [← hbegin]; exact hdeadline) (Nat.le_refl _) (Nat.le_add_right _ _)
    (Nat.lt_add_of_pos_right (by decide)) hclock hkept
  obtain ⟨htask, hexited⟩ := watchdogWindow_task w turns task
  refine ⟨?_, ?_, by omega, ?_⟩
  · intro wait hwait
    obtain ⟨hstart, hbefore, hexact⟩ := hwaits wait hwait
    omega
  · intro wait hwait
    exact (hwaits wait hwait).2.1
  · have hcomplete : (watchdogWindow w task turns).task.complete = true ↔
        delivered (watchdogWindow w task turns).waits &&&
          (watchdogWindow w task turns).task.expectedBits =
          (watchdogWindow w task turns).task.expectedBits := by
      unfold WatchdogTask.complete
      rw [beq_iff_eq, htask]
      simp [hreceived]
    rw [← hcomplete]
    exact ⟨fun h => h.2, fun h => ⟨hexited h, h⟩⟩

-- The deadline of this window has wrapped around.
theorem watchdog_window_kept_wrapped :
    let turns : List WindowTurn :=
      [⟨2 ^ 64 - 1000, 10, some 1⟩, ⟨2 ^ 64 - 990, 3490, none⟩]
    let window := watchdogWindow startupWorld
      { watchdogBeginCycle 0 { startupWorld with xTickCount := 2 ^ 64 - 1000 } with
          expectedBits := 7 } turns
    (window.waits.map fun wait => wait.timeout.toNat) = [3500, 3490] ∧
      WindowKept (2 ^ 64 - 1000) window := by
  have hwaits : (watchdogWindow startupWorld
      { watchdogBeginCycle 0 { startupWorld with xTickCount := 2 ^ 64 - 1000 } with
          expectedBits := 7 } [⟨2 ^ 64 - 1000, 10, some 1⟩, ⟨2 ^ 64 - 990, 3490, none⟩]).waits =
      [⟨⟨2 ^ 64 - 1000, 10, some 1⟩, 3500⟩, ⟨⟨2 ^ 64 - 990, 3490, none⟩, 3490⟩] := by
    rfl
  refine ⟨by rw [hwaits]; rfl, watchdog_window_kept startupWorld 0 7 (2 ^ 64 - 1000)
    [⟨2 ^ 64 - 1000, 10, some 1⟩, ⟨2 ^ 64 - 990, 3490, none⟩] ?_ ?_⟩
  · exact ⟨by decide, by decide, by decide, by decide, trivial⟩
  · intro wait hwait
    rw [hwaits] at hwait
    rcases List.mem_cons.mp hwait with rfl | hwait
    · exact ⟨by decide, fun h => absurd h (by decide)⟩
    · rw [List.mem_singleton.mp hwait]
      exact ⟨by decide, fun _ => by decide⟩

end SpaceBaremetal

import Mathlib.Data.List.Basic
import Mathlib.Logic.Function.Basic

-- Tasks that wait for a time, for an event, or for whichever comes first.
inductive Phase
  | Ready
  | Until (wake : Nat)
  | Forever
  -- while a task is moved from one phase to another
  | Nowhere
deriving DecidableEq, Repr

-- Whether the event that a task waits for has come.
inductive Awaiting (ε : Type)
  | On (e : ε)
  | Woken
deriving DecidableEq, Repr

structure Sleepers (ε τ : Type) where
  clock : Nat
  phase : τ → Phase
  wait : τ → Option (Awaiting ε)

namespace Sleepers

variable {ε τ : Type} [DecidableEq τ]

def setPhase (t : τ) (phase : Phase) (a : Sleepers ε τ) : Sleepers ε τ :=
  { a with phase := Function.update a.phase t phase }

def setWait (t : τ) (wait : Option (Awaiting ε)) (a : Sleepers ε τ) : Sleepers ε τ :=
  { a with wait := Function.update a.wait t wait }

-- The task is ready and waits for nothing.
def wake (t : τ) (a : Sleepers ε τ) : Sleepers ε τ := (a.setWait t none).setPhase t .Ready

-- Those whose time it is are woken.
def expire (a : Sleepers ε τ) : Sleepers ε τ where
  clock := a.clock
  phase := fun t => if a.phase t = .Until a.clock then .Ready else a.phase t
  wait := fun t => if a.phase t = .Until a.clock then none else a.wait t

def advance (a : Sleepers ε τ) : Sleepers ε τ := { a with clock := a.clock + 1 }

def tick (a : Sleepers ε τ) : Sleepers ε τ := a.advance.expire

-- Those whose event has come are woken.
def release [DecidableEq ε] (a : Sleepers ε τ) : Sleepers ε τ where
  clock := a.clock
  phase := fun t => if a.wait t = some .Woken then .Ready else a.phase t
  wait := fun t => if a.wait t = some .Woken then none else a.wait t

-- Nobody has slept through a wake time.
def Awake (a : Sleepers ε τ) : Prop := ∀ t wake, a.phase t = .Until wake → a.clock < wake

section Fields

variable (a : Sleepers ε τ) (t : τ) (phase : Phase) (wait : Option (Awaiting ε))

@[simp] theorem setPhase_clock : (a.setPhase t phase).clock = a.clock := rfl

@[simp] theorem setPhase_phase :
    (a.setPhase t phase).phase = Function.update a.phase t phase := rfl

@[simp] theorem setPhase_wait : (a.setPhase t phase).wait = a.wait := rfl

@[simp] theorem setWait_clock : (a.setWait t wait).clock = a.clock := rfl

@[simp] theorem setWait_phase : (a.setWait t wait).phase = a.phase := rfl

@[simp] theorem setWait_wait : (a.setWait t wait).wait = Function.update a.wait t wait := rfl

theorem setPhase_setPhase (p : Phase) : (a.setPhase t p).setPhase t phase = a.setPhase t phase := by
  simp [setPhase]

theorem setWait_same {a : Sleepers ε τ} (h : a.wait t = wait) : a.setWait t wait = a := by
  rw [setWait, ← h, Function.update_eq_self]

omit [DecidableEq τ] in
@[ext] theorem ext_fields {a b : Sleepers ε τ} (hclock : a.clock = b.clock)
    (hphase : ∀ t, a.phase t = b.phase t) (hwait : ∀ t, a.wait t = b.wait t) : a = b := by
  cases a
  cases b
  simp only [mk.injEq]
  exact ⟨hclock, funext hphase, funext hwait⟩

end Fields

section Wake

variable {a : Sleepers ε τ} {t : τ}

@[simp] theorem wake_clock (a : Sleepers ε τ) (t : τ) : (a.wake t).clock = a.clock := rfl

@[simp] theorem wake_phase (a : Sleepers ε τ) (t : τ) :
    (a.wake t).phase = Function.update a.phase t .Ready := rfl

@[simp] theorem wake_wait (a : Sleepers ε τ) (t : τ) :
    (a.wake t).wait = Function.update a.wait t none := rfl

-- It does not matter in which order those whose time it is are woken.
theorem wake_expire (h : a.phase t = .Until a.clock) : (a.wake t).expire = a.expire := by
  ext u
  · rfl
  · by_cases heq : u = t
    · simp [expire, heq, h]
    · simp [expire, heq]
  · by_cases heq : u = t
    · simp [expire, heq, h]
    · simp [expire, heq]

omit [DecidableEq τ] in
theorem expire_of_awake (h : a.Awake) : a.expire = a := by
  have hne : ∀ t, a.phase t ≠ .Until a.clock := fun t ht => Nat.lt_irrefl _ (h t _ ht)
  ext t
  · rfl
  · simp [expire, hne]
  · simp [expire, hne]

omit [DecidableEq τ] in
theorem expire_awake (h : ∀ t wake, a.phase t = .Until wake → a.clock ≤ wake) :
    a.expire.Awake := by
  intro t wake ht
  unfold expire at ht ⊢
  simp only at ht ⊢
  split at ht
  · cases ht
  · rename_i hne
    have hle := h t wake ht
    have hwake : wake ≠ a.clock := by
      rintro rfl
      exact hne ht
    omega

omit [DecidableEq τ] in
theorem tick_awake (h : a.Awake) : a.tick.Awake := by
  apply expire_awake
  intro t wake ht
  exact h t wake ht

theorem wake_release [DecidableEq ε] (h : a.wait t = some .Woken) :
    (a.wake t).release = a.release := by
  ext u
  · rfl
  · by_cases heq : u = t
    · simp [release, heq, h]
    · simp [release, heq]
  · by_cases heq : u = t
    · simp [release, heq, h]
    · simp [release, heq]

omit [DecidableEq τ] in
theorem release_of_none [DecidableEq ε] (h : ∀ t, a.wait t ≠ some .Woken) : a.release = a := by
  ext t
  · rfl
  · simp [release, h]
  · simp [release, h]

end Wake

section Ticks

omit [DecidableEq τ]

variable {a : Sleepers ε τ} {t : τ} {wake : Nat}

def ticks : Nat → Sleepers ε τ → Sleepers ε τ
  | 0, a => a
  | n + 1, a => ticks n a.tick

@[simp] theorem tick_clock (a : Sleepers ε τ) : a.tick.clock = a.clock + 1 := rfl

theorem ticks_clock (n : Nat) (a : Sleepers ε τ) : (ticks n a).clock = a.clock + n := by
  induction n generalizing a with
  | zero => rfl
  | succ n ih =>
    rw [ticks, ih, tick_clock]
    omega

theorem tick_phase (a : Sleepers ε τ) (t : τ) :
    a.tick.phase t = if a.phase t = .Until (a.clock + 1) then .Ready else a.phase t := rfl

theorem tick_wait (a : Sleepers ε τ) (t : τ) :
    a.tick.wait t = if a.phase t = .Until (a.clock + 1) then none else a.wait t := rfl

-- Who sleeps until a time is woken at that time, and nobody else is woken.
theorem ticks_phase (n : Nat) (h : a.Awake) (t : τ) : (ticks n a).phase t =
    match a.phase t with
    | .Until wake => if wake ≤ a.clock + n then .Ready else .Until wake
    | phase => phase := by
  induction n generalizing a with
  | zero =>
    cases hphase : a.phase t with
    | Until wake =>
      have hlt := h t wake hphase
      simp only [ticks, Nat.add_zero]
      rw [if_neg (by omega), hphase]
    | Ready => simp [ticks, hphase]
    | Forever => simp [ticks, hphase]
    | Nowhere => simp [ticks, hphase]
  | succ n ih =>
    rw [ticks, ih (tick_awake h), tick_phase, tick_clock]
    cases hphase : a.phase t with
    | Until wake =>
      have hlt := h t wake hphase
      by_cases hnow : wake = a.clock + 1
      · subst hnow
        simp
      · simp only [Phase.Until.injEq, hnow, if_false]
        congr 1
        rw [eq_iff_iff]
        omega
    | Ready => simp
    | Forever => simp
    | Nowhere => simp

theorem ticks_wait (n : Nat) (h : a.Awake) (t : τ) : (ticks n a).wait t =
    match a.phase t with
    | .Until wake => if wake ≤ a.clock + n then none else a.wait t
    | _ => a.wait t := by
  induction n generalizing a with
  | zero =>
    cases hphase : a.phase t with
    | Until wake =>
      have hlt := h t wake hphase
      simp only [ticks, Nat.add_zero]
      rw [if_neg (by omega)]
    | Ready => simp [ticks]
    | Forever => simp [ticks]
    | Nowhere => simp [ticks]
  | succ n ih =>
    rw [ticks, ih (tick_awake h), tick_phase, tick_clock, tick_wait]
    cases hphase : a.phase t with
    | Until wake =>
      have hlt := h t wake hphase
      by_cases hnow : wake = a.clock + 1
      · subst hnow
        simp
      · simp only [Phase.Until.injEq, hnow, if_false]
        congr 1
        rw [eq_iff_iff]
        omega
    | Ready => simp
    | Forever => simp
    | Nowhere => simp

theorem ticks_wait_none (n : Nat) (h : a.wait t = none) : (ticks n a).wait t = none := by
  induction n generalizing a with
  | zero => exact h
  | succ n ih =>
    apply ih
    rw [tick_wait]
    split
    · rfl
    · exact h

theorem ticks_wait_ne (n : Nat) {wait : Awaiting ε} (h : a.wait t ≠ some wait) :
    (ticks n a).wait t ≠ some wait := by
  induction n generalizing a with
  | zero => exact h
  | succ n ih =>
    apply ih
    rw [tick_wait]
    split
    · simp
    · exact h

theorem release_wait_none [DecidableEq ε] (h : a.wait t = none) : a.release.wait t = none := by
  simp [release, h]

theorem release_wait_ne [DecidableEq ε] (a : Sleepers ε τ) (t : τ) :
    a.release.wait t ≠ some .Woken := by
  simp only [release]
  split
  · simp
  · assumption

end Ticks

section Sound

-- Nobody is late, nobody is lost, who waits is not ready, and one task never
-- sleeps.
structure Sound (idle : τ) (a : Sleepers ε τ) : Prop where
  awake : a.Awake
  nowhere : ∀ t, a.phase t ≠ .Nowhere
  waiting : ∀ t, a.phase t = .Ready → a.wait t = none
  idle : a.phase idle = .Ready

variable {a : Sleepers ε τ} {idle t : τ}

omit [DecidableEq τ] in
theorem Sound.tick (h : Sound idle a) : Sound idle a.tick := by
  refine ⟨tick_awake h.awake, ?_, ?_, ?_⟩
  · intro t
    rw [tick_phase]
    split
    · simp
    · exact h.nowhere t
  · intro t ht
    rw [tick_phase] at ht
    rw [tick_wait]
    split
    · rfl
    · rename_i hne
      rw [if_neg hne] at ht
      exact h.waiting t ht
  · rw [tick_phase, if_neg (by simp [h.idle]), h.idle]

omit [DecidableEq τ] in
theorem Sound.ticks (h : Sound idle a) (n : Nat) : Sound idle (ticks n a) := by
  induction n generalizing a with
  | zero => exact h
  | succ n ih => exact ih h.tick

omit [DecidableEq τ] in
theorem Sound.release [DecidableEq ε] (h : Sound idle a) : Sound idle a.release := by
  refine ⟨?_, ?_, ?_, ?_⟩
  · intro t wake ht
    simp only [Sleepers.release] at ht ⊢
    split at ht
    · cases ht
    · exact h.awake t wake ht
  · intro t
    simp only [Sleepers.release]
    split
    · simp
    · exact h.nowhere t
  · intro t ht
    simp only [Sleepers.release] at ht ⊢
    split at ht
    · rename_i hwoken
      rw [if_pos hwoken]
    · rename_i hnot
      rw [if_neg hnot]
      exact h.waiting t ht
  · simp only [Sleepers.release]
    split
    · rfl
    · exact h.idle

theorem Sound.wake (h : Sound idle a) (t : τ) : Sound idle (a.wake t) := by
  refine ⟨?_, ?_, ?_, ?_⟩
  · intro u wake hu
    by_cases heq : u = t
    · simp [heq] at hu
    · rw [wake_phase, Function.update_of_ne heq] at hu
      exact h.awake u wake hu
  · intro u
    by_cases heq : u = t
    · simp [heq]
    · simpa [heq] using h.nowhere u
  · intro u hu
    by_cases heq : u = t
    · simp [heq]
    · rw [wake_phase, Function.update_of_ne heq] at hu
      simpa [heq] using h.waiting u hu
  · by_cases heq : idle = t
    · simp [heq]
    · simpa [heq] using h.idle

theorem Sound.setWait (h : Sound idle a) (ht : a.phase t ≠ .Ready) (wait : Option (Awaiting ε)) :
    Sound idle (a.setWait t wait) := by
  refine ⟨h.awake, h.nowhere, ?_, h.idle⟩
  intro u hu
  have hne : u ≠ t := by
    rintro rfl
    exact ht hu
  simpa [hne] using h.waiting u hu

-- A task other than the one that never sleeps is put aside.
theorem Sound.sleep (h : Sound idle a) (hne : t ≠ idle) {phase : Phase}
    (hphase : phase = .Forever ∨ ∃ wake, phase = .Until wake ∧ a.clock < wake)
    (wait : Option (Awaiting ε)) : Sound idle ((a.setWait t wait).setPhase t phase) := by
  refine ⟨?_, ?_, ?_, ?_⟩
  · intro u wake hu
    by_cases heq : u = t
    · subst heq
      obtain rfl | ⟨wake', rfl, hlt⟩ := hphase
      · simp at hu
      · simp only [setPhase_phase, Function.update_self, Phase.Until.injEq] at hu
        subst hu
        exact hlt
    · simp only [setPhase_phase, setWait_phase, Function.update_of_ne heq] at hu
      exact h.awake u wake hu
  · intro u
    by_cases heq : u = t
    · subst heq
      obtain rfl | ⟨wake', rfl, -⟩ := hphase
      · simp
      · simp
    · simpa [heq] using h.nowhere u
  · intro u hu
    by_cases heq : u = t
    · subst heq
      obtain rfl | ⟨wake', rfl, -⟩ := hphase
      · simp at hu
      · simp at hu
    · simp only [setPhase_phase, setWait_phase, Function.update_of_ne heq] at hu
      simpa [heq] using h.waiting u hu
  · simpa [Ne.symm hne] using h.idle

end Sound

end Sleepers

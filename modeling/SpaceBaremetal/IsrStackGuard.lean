import Mathlib.Data.List.MinMax
import Mathlib.Logic.Function.Basic

namespace SpaceBaremetal.IsrStackGuard

def ISR_STACK_GUARD_PATTERN : BitVec 32 := 0xDEADBEEF

def ISR_STACK_GUARD_SIZE : Nat := 512

def guardWords : Nat := ISR_STACK_GUARD_SIZE / 4

-- The words of the interrupt stack from `stack_low` on, and the mark.
structure IsrStack where
  word : Nat → BitVec 32
  isr_stack_high_water_mark : BitVec 32

-- The loop of `isr_stack_guard_init`, with the number of words that are left.
def paintFrom : (left p : Nat) → (Nat → BitVec 32) → Nat → BitVec 32
  | 0, _, word => word
  | left + 1, p, word => paintFrom left (p + 1) (Function.update word p ISR_STACK_GUARD_PATTERN)

def isrStackGuardInit (s : IsrStack) : IsrStack :=
  { s with word := paintFrom guardWords 0 s.word }

-- The bytes from a word to the end of the guard.
def usage (p : Nat) : Nat := ISR_STACK_GUARD_SIZE - 4 * p

-- The loop of `isr_stack_guard_check`.
def checkFrom : (left p : Nat) → (corrupt : Bool) → IsrStack → Bool × IsrStack
  | 0, _, corrupt, s => (corrupt, s)
  | left + 1, p, corrupt, s =>
    if s.word p ≠ ISR_STACK_GUARD_PATTERN then
      let usage := BitVec.ofNat 32 (usage p)
      checkFrom left (p + 1) true
        (if usage > s.isr_stack_high_water_mark then
          { s with isr_stack_high_water_mark := usage }
        else
          s)
    else
      checkFrom left (p + 1) corrupt s

def isrStackGuardCheck (s : IsrStack) : Bool × IsrStack := checkFrom guardWords 0 false s

def isrStackGuardGetHwmBytes (s : IsrStack) : BitVec 32 := s.isr_stack_high_water_mark

section Loops

variable {s : IsrStack} {word : Nat → BitVec 32} {left p i : Nat} {corrupt : Bool}

theorem paintFrom_apply :
    paintFrom left p word i =
      if p ≤ i ∧ i < p + left then ISR_STACK_GUARD_PATTERN else word i := by
  induction left generalizing p word with
  | zero => rw [paintFrom, if_neg (by omega)]
  | succ left ih =>
    rw [paintFrom, ih]
    by_cases hp : i = p
    · subst hp
      rw [if_neg (by omega), if_pos (by omega), Function.update_self]
    · rw [Function.update_of_ne hp]
      by_cases hin : p + 1 ≤ i ∧ i < p + 1 + left
      · rw [if_pos hin, if_pos (by omega)]
      · rw [if_neg hin, if_neg (by omega)]

-- A word of the guard that no longer holds the pattern.
def Spoilt (s : IsrStack) (i : Nat) : Prop := s.word i ≠ ISR_STACK_GUARD_PATTERN

-- What the loop has found when it is at its end.
structure Checked (p left : Nat) (corrupt : Bool) (before : IsrStack) (answer : Bool)
    (after : IsrStack) : Prop where
  word : after.word = before.word
  corrupt : answer = true ↔ corrupt = true ∨ ∃ i, p ≤ i ∧ i < p + left ∧ Spoilt before i
  mark : ∀ d, after.isr_stack_high_water_mark.toNat ≤ d ↔
    before.isr_stack_high_water_mark.toNat ≤ d ∧
      ∀ i, p ≤ i → i < p + left → Spoilt before i → usage i ≤ d

theorem usage_toNat : (BitVec.ofNat 32 (usage p)).toNat = usage p := by
  have hle : usage p ≤ ISR_STACK_GUARD_SIZE := Nat.sub_le _ _
  unfold ISR_STACK_GUARD_SIZE at hle
  rw [BitVec.toNat_ofNat]
  omega

theorem forall_from {P : Nat → Prop} :
    (∀ i, p ≤ i → i < p + (left + 1) → P i) ↔
      P p ∧ ∀ i, p + 1 ≤ i → i < p + 1 + left → P i := by
  constructor
  · intro h
    exact ⟨h p (by omega) (by omega), fun i hi hlt => h i (by omega) (by omega)⟩
  · rintro ⟨hfirst, hrest⟩ i hi hlt
    by_cases hp : i = p
    · rwa [hp]
    · exact hrest i (by omega) (by omega)

theorem exists_from {P : Nat → Prop} :
    (∃ i, p ≤ i ∧ i < p + (left + 1) ∧ P i) ↔
      P p ∨ ∃ i, p + 1 ≤ i ∧ i < p + 1 + left ∧ P i := by
  constructor
  · rintro ⟨i, hi, hlt, hP⟩
    by_cases hp : i = p
    · exact .inl (hp ▸ hP)
    · exact .inr ⟨i, by omega, by omega, hP⟩
  · rintro (hfirst | ⟨i, hi, hlt, hP⟩)
    · exact ⟨p, by omega, by omega, hfirst⟩
    · exact ⟨i, by omega, by omega, hP⟩

def raise (p : Nat) (s : IsrStack) : IsrStack :=
  if BitVec.ofNat 32 (usage p) > s.isr_stack_high_water_mark then
    { s with isr_stack_high_water_mark := BitVec.ofNat 32 (usage p) }
  else
    s

theorem raise_word : (raise p s).word = s.word := by
  unfold raise
  split
  · rfl
  · rfl

theorem raise_mark {d : Nat} : (raise p s).isr_stack_high_water_mark.toNat ≤ d ↔
    s.isr_stack_high_water_mark.toNat ≤ d ∧ usage p ≤ d := by
  unfold raise
  split
  · rename_i hhigher
    rw [gt_iff_lt, BitVec.lt_def, usage_toNat] at hhigher
    simp only [usage_toNat]
    omega
  · rename_i hnot
    rw [gt_iff_lt, BitVec.lt_def, usage_toNat] at hnot
    omega

theorem checkFrom_spoilt (hspoilt : Spoilt s p) :
    checkFrom (left + 1) p corrupt s = checkFrom left (p + 1) true (raise p s) := if_pos hspoilt

theorem checkFrom_intact (hintact : ¬Spoilt s p) :
    checkFrom (left + 1) p corrupt s = checkFrom left (p + 1) corrupt s := if_neg hintact

theorem checkFrom_checked :
    Checked p left corrupt s (checkFrom left p corrupt s).1 (checkFrom left p corrupt s).2 := by
  induction left generalizing p corrupt s with
  | zero => exact ⟨rfl, by simp [checkFrom]; omega, by simp [checkFrom]; omega⟩
  | succ left ih =>
    by_cases hspoilt : Spoilt s p
    · rw [checkFrom_spoilt hspoilt]
      have hrest : Checked (p + 1) left true (raise p s) _ _ := ih
      obtain ⟨hword, hcorrupt, hmark⟩ := hrest
      refine ⟨hword.trans raise_word, ?_, ?_⟩
      · rw [hcorrupt, exists_from]
        simp [hspoilt]
      · intro d
        rw [hmark, raise_mark, forall_from]
        simp only [Spoilt, raise_word] at hspoilt ⊢
        simp [hspoilt, and_assoc]
    · rw [checkFrom_intact hspoilt]
      have hrest : Checked (p + 1) left corrupt s _ _ := ih
      obtain ⟨hword, hcorrupt, hmark⟩ := hrest
      refine ⟨hword, ?_, ?_⟩
      · rw [hcorrupt, exists_from]
        simp [hspoilt]
      · intro d
        rw [hmark, forall_from]
        simp [hspoilt]

end Loops

-- What is stored to the stack by those who use it, and the checks in between. A
-- store is of one whole aligned word, the `p`-th from `stack_low` on.
inductive Event
  | Store (p : Nat) (value : BitVec 32)
  | Check
deriving DecidableEq, Repr

def happen (s : IsrStack) : Event → IsrStack
  | .Store p value => { s with word := Function.update s.word p value }
  | .Check => (isrStackGuardCheck s).2

-- How far into the guard a store reaches, in bytes from the first byte of its
-- word to the end of the guard; nothing for one that is above it.
def reach : Event → Nat
  | .Store p _ => usage p
  | .Check => 0

def deepest (events : List Event) : Nat := (events.map reach).foldr max 0

def StoresPattern : Event → Prop
  | .Store _ value => value = ISR_STACK_GUARD_PATTERN
  | .Check => False

section Run

variable {s : IsrStack} {events : List Event} {d : Nat}

theorem deepest_le : deepest events ≤ d ↔ ∀ e ∈ events, reach e ≤ d := by
  induction events with
  | nil => simp [deepest]
  | cons e events ih =>
    have hcons : deepest (e :: events) = max (reach e) (deepest events) := rfl
    rw [hcons, Nat.max_le, ih, List.forall_mem_cons]

theorem deepest_snoc {e : Event} : deepest (events ++ [e]) = max (deepest events) (reach e) := by
  apply Nat.le_antisymm
  · rw [deepest_le]
    intro x hx
    rw [List.mem_append, List.mem_singleton] at hx
    obtain hold | rfl := hx
    · exact (deepest_le.mp (Nat.le_refl _) x hold).trans (Nat.le_max_left _ _)
    · exact Nat.le_max_right _ _
  · have hall := deepest_le.mp (Nat.le_refl (deepest (events ++ [e])))
    refine Nat.max_le.mpr ⟨deepest_le.mpr fun x hx => ?_, ?_⟩
    · exact hall x (List.mem_append_left _ hx)
    · exact hall e (by simp)

theorem check_checked : Checked 0 guardWords false s (isrStackGuardCheck s).1
    (isrStackGuardCheck s).2 := checkFrom_checked

theorem usage_pos_iff {i : Nat} : 0 < usage i ↔ i < guardWords := by
  unfold usage guardWords ISR_STACK_GUARD_SIZE
  omega

-- The guard and the mark tell no more than what was stored, and the guard no
-- less as long as nobody stores the pattern itself.
structure Tells (events : List Event) (s : IsrStack) : Prop where
  spoilt : ∀ i < guardWords, Spoilt s i → usage i ≤ deepest events
  mark : s.isr_stack_high_water_mark.toNat ≤ deepest events
  stored : (∀ e ∈ events, ¬StoresPattern e) → ∀ i value, Event.Store i value ∈ events → Spoilt s i

theorem tells_init (hmark : s.isr_stack_high_water_mark = 0) : Tells [] (isrStackGuardInit s) where
  spoilt := by
    intro i hi hspoilt
    refine absurd ?_ hspoilt
    exact paintFrom_apply.trans (if_pos ⟨Nat.zero_le _, by omega⟩)
  mark := by
    show s.isr_stack_high_water_mark.toNat ≤ _
    rw [hmark]
    exact Nat.zero_le _
  stored := fun _ i value hmem => by cases hmem

theorem spoilt_store {p i : Nat} {value : BitVec 32} :
    Spoilt (happen s (.Store p value)) i ↔
      if i = p then value ≠ ISR_STACK_GUARD_PATTERN else Spoilt s i := by
  simp only [Spoilt, happen, Function.update_apply]
  split
  · exact Iff.rfl
  · exact Iff.rfl

theorem Tells.check (h : Tells events s) :
    (isrStackGuardCheck s).2.isr_stack_high_water_mark.toNat ≤ deepest events := by
  rw [check_checked.mark]
  exact ⟨h.mark, fun i _ hi => h.spoilt i (by omega)⟩

theorem Tells.happen (h : Tells events s) (e : Event) : Tells (events ++ [e]) (happen s e) := by
  cases e with
  | Store p value =>
    have hdeepest : deepest (events ++ [.Store p value]) = max (deepest events) (usage p) :=
      deepest_snoc
    refine ⟨?_, ?_, ?_⟩
    · intro i hi hspoilt
      rw [hdeepest]
      by_cases hp : i = p
      · rw [hp]
        exact Nat.le_max_right _ _
      · rw [spoilt_store, if_neg hp] at hspoilt
        exact (h.spoilt i hi hspoilt).trans (Nat.le_max_left _ _)
    · rw [hdeepest]
      exact h.mark.trans (Nat.le_max_left _ _)
    · intro hpattern i v hmem
      by_cases hp : i = p
      · subst hp
        have hvalue : value ≠ ISR_STACK_GUARD_PATTERN :=
          hpattern (.Store i value) (by simp)
        rwa [spoilt_store, if_pos rfl]
      · have hold : Event.Store i v ∈ events := by
          simpa [hp] using hmem
        rw [spoilt_store, if_neg hp]
        exact h.stored (fun e he => hpattern e (List.mem_append_left _ he)) i v hold
  | Check =>
    have hdeepest : deepest (events ++ [.Check]) = deepest events :=
      deepest_snoc.trans (Nat.max_eq_left (Nat.zero_le _))
    have hspoilt : ∀ i, Spoilt (isrStackGuardCheck s).2 i ↔ Spoilt s i := by
      intro i
      rw [Spoilt, check_checked.word]
      rfl
    refine ⟨?_, ?_, ?_⟩
    · intro i hi hafter
      rw [hdeepest]
      exact h.spoilt i hi ((hspoilt i).mp hafter)
    · rw [hdeepest]
      exact h.check
    · intro hpattern i v hmem
      have hold : Event.Store i v ∈ events := by simpa using hmem
      exact (hspoilt i).mpr
        (h.stored (fun e he => hpattern e (List.mem_append_left _ he)) i v hold)

theorem tells_run (hmark : s.isr_stack_high_water_mark = 0) (events : List Event) :
    Tells events (events.foldl happen (isrStackGuardInit s)) := by
  induction events using List.reverseRecOn with
  | nil => exact tells_init hmark
  | append_singleton events e ih =>
    rw [List.foldl_append]
    exact ih.happen e

theorem Tells.corrupt (h : Tells events s) (hcorrupt : (isrStackGuardCheck s).1 = true) :
    0 < deepest events := by
  rw [check_checked.corrupt] at hcorrupt
  obtain hfalse | ⟨i, -, hi, hspoilt⟩ := hcorrupt
  · cases hfalse
  · have hle := h.spoilt i (by omega) hspoilt
    have hpos := usage_pos_iff.mpr (show i < guardWords by omega)
    omega

theorem Tells.reached (h : Tells events s) (hpattern : ∀ e ∈ events, ¬StoresPattern e) {e : Event}
    (he : e ∈ events) (hreach : 0 < reach e) :
    ∃ i, 0 ≤ i ∧ i < 0 + guardWords ∧ reach e = usage i ∧ Spoilt s i := by
  cases e with
  | Check => exact absurd hreach (Nat.lt_irrefl 0)
  | Store p value =>
    have hp : p < guardWords := usage_pos_iff.mp hreach
    exact ⟨p, Nat.zero_le _, by omega, rfl, h.stored hpattern p value he⟩

theorem Tells.exact (h : Tells events s) (hpattern : ∀ e ∈ events, ¬StoresPattern e) :
    (isrStackGuardCheck s).1 = decide (0 < deepest events) ∧
      (isrStackGuardCheck s).2.isr_stack_high_water_mark.toNat = deepest events := by
  constructor
  · rw [Bool.eq_iff_iff, decide_eq_true_iff]
    refine ⟨h.corrupt, fun hpos => ?_⟩
    by_contra hfine
    rw [check_checked.corrupt] at hfine
    have hnone : deepest events ≤ 0 := by
      rw [deepest_le]
      intro e he
      by_contra hreach
      obtain ⟨i, hi, hlt, -, hspoilt⟩ := h.reached hpattern he (by omega)
      exact hfine (.inr ⟨i, hi, hlt, hspoilt⟩)
    omega
  · apply Nat.le_antisymm h.check
    rw [deepest_le]
    intro e he
    by_cases hreach : 0 < reach e
    · obtain ⟨i, hi, hlt, hequal, hspoilt⟩ := h.reached hpattern he hreach
      rw [hequal]
      exact ((check_checked.mark _).mp (Nat.le_refl _)).2 i hi hlt hspoilt
    · omega

-- A check after the guard was painted never reports more than the deepest store
-- so far, and reports just this if none of the stores was of the pattern.
theorem isrStackGuardCheck_exact (hmark : s.isr_stack_high_water_mark = 0) (events : List Event) :
    let after := isrStackGuardCheck (events.foldl happen (isrStackGuardInit s))
    (after.1 = true → 0 < deepest events) ∧
      (isrStackGuardGetHwmBytes after.2).toNat ≤ deepest events ∧
      ((∀ e ∈ events, ¬StoresPattern e) →
        after.1 = decide (0 < deepest events) ∧
          (isrStackGuardGetHwmBytes after.2).toNat = deepest events) := by
  have h := tells_run hmark events
  exact ⟨h.corrupt, h.check, h.exact⟩

-- The words 100 and 3 are stored, with a check between.
theorem isrStackGuardCheck_exact_two :
    let events := [.Store 100 7, .Check, .Store 3 1, .Store 200 9]
    let after := isrStackGuardCheck (events.foldl happen (isrStackGuardInit ⟨fun _ => 0, 0⟩))
    after.1 = true ∧ (isrStackGuardGetHwmBytes after.2).toNat = 500 := by
  intro events after
  have hpattern : ∀ e ∈ events, ¬StoresPattern e := by
    simp [events, StoresPattern, ISR_STACK_GUARD_PATTERN]
  obtain ⟨-, -, hexact⟩ := isrStackGuardCheck_exact (s := ⟨fun _ => 0, 0⟩) rfl events
  obtain ⟨hcorrupt, hmark⟩ := hexact hpattern
  exact ⟨hcorrupt.trans (by decide), hmark.trans (by decide)⟩

end Run

end SpaceBaremetal.IsrStackGuard

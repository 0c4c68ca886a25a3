import Mathlib.Data.List.Induction

-- Properties of the events of a history, each judged against what came before.
namespace History

variable {ε : Type}

-- `Q pre e` holds of every event `e` of the history and the part `pre` before it.
def Each (Q : List ε → ε → Prop) (trace : List ε) : Prop :=
  ∀ pre e post, trace = pre ++ e :: post → Q pre e

theorem each_nil (Q : List ε → ε → Prop) : Each Q [] := by
  intro pre e post h
  simp at h

theorem each_append {Q : List ε → ε → Prop} {trace : List ε} {e : ε}
    (h : Each Q trace) (he : Q trace e) : Each Q (trace ++ [e]) := by
  intro pre e' post hsplit
  rcases List.eq_nil_or_concat post with rfl | ⟨init, last, rfl⟩
  · obtain ⟨rfl, hlast⟩ := List.append_inj' hsplit rfl
    simp only [List.cons.injEq, and_true] at hlast
    exact hlast ▸ he
  · rw [List.concat_eq_append, ← List.cons_append, ← List.append_assoc] at hsplit
    exact h pre e' init (List.append_inj' hsplit rfl).1

theorem each_of_append {Q : List ε → ε → Prop} {trace more : List ε}
    (h : Each Q (trace ++ more)) : Each Q trace := by
  intro pre e post hsplit
  exact h pre e (post ++ more) (by simp [hsplit])

section Decide

-- The same by running through the history from a given point.
def eachFrom (Q : List ε → ε → Prop) : List ε → List ε → Prop
  | _, [] => True
  | pre, e :: rest => Q pre e ∧ eachFrom Q (pre ++ [e]) rest

theorem eachFrom_iff (Q : List ε → ε → Prop) (before trace : List ε) :
    eachFrom Q before trace ↔
      ∀ pre e post, trace = pre ++ e :: post → Q (before ++ pre) e := by
  induction trace generalizing before with
  | nil => simp [eachFrom]
  | cons first rest ih =>
    unfold eachFrom
    rw [ih]
    constructor
    · rintro ⟨hfirst, hrest⟩ pre e post hsplit
      cases pre with
      | nil =>
        obtain ⟨rfl, rfl⟩ := List.cons.inj hsplit
        rwa [List.append_nil]
      | cons _ pre =>
        rw [List.cons_append, List.cons.injEq] at hsplit
        obtain ⟨rfl, htail⟩ := hsplit
        have hpre := hrest pre e post htail
        rwa [List.append_assoc] at hpre
    · intro h
      refine ⟨?_, ?_⟩
      · have hfirst := h [] first rest rfl
        rwa [List.append_nil] at hfirst
      · intro pre e post htail
        have hpre := h (first :: pre) e post (by rw [htail]; rfl)
        rwa [List.append_assoc]

instance decidableEachFrom (Q : List ε → ε → Prop) [∀ pre e, Decidable (Q pre e)] :
    ∀ before trace, Decidable (eachFrom Q before trace)
  | _, [] => inferInstanceAs (Decidable True)
  | before, e :: rest =>
      have := decidableEachFrom Q (before ++ [e]) rest
      inferInstanceAs (Decidable (Q before e ∧ eachFrom Q (before ++ [e]) rest))

instance (Q : List ε → ε → Prop) [∀ pre e, Decidable (Q pre e)] (trace : List ε) :
    Decidable (Each Q trace) :=
  decidable_of_iff (eachFrom Q [] trace) (eachFrom_iff Q [] trace)

end Decide

section SinceLast

variable (mark : ε → Bool)

-- The events after the last marked one; all of them when none is marked.
def sinceLast (trace : List ε) : List ε :=
  trace.foldl (fun since e => if mark e then [] else since ++ [e]) []

theorem sinceLast_append (trace : List ε) (e : ε) :
    sinceLast mark (trace ++ [e]) = if mark e then [] else sinceLast mark trace ++ [e] := by
  unfold sinceLast
  rw [List.foldl_append]
  rfl

theorem sinceLast_append_of_none (before after : List ε) (h : ∀ e ∈ after, mark e = false) :
    sinceLast mark (before ++ after) = sinceLast mark before ++ after := by
  induction after using List.reverseRecOn with
  | nil => simp
  | append_singleton after e ih =>
    have hafter := ih (fun e' he' => h e' (List.mem_append_left _ he'))
    have he := h e (List.mem_append_right _ List.mem_cons_self)
    rw [← List.append_assoc, sinceLast_append, he, hafter]
    simp

theorem sinceLast_append_of_some (before after : List ε) (h : ∃ e ∈ after, mark e = true) :
    sinceLast mark (before ++ after) = sinceLast mark after := by
  induction after using List.reverseRecOn with
  | nil => simp at h
  | append_singleton after e ih =>
    rw [← List.append_assoc, sinceLast_append, sinceLast_append]
    by_cases hmark : mark e = true
    · rw [if_pos hmark, if_pos hmark]
    · obtain ⟨e', hmem, he'⟩ := h
      have hearlier : e' ∈ after := by
        cases List.mem_append.mp hmem with
        | inl hin => exact hin
        | inr hlast =>
          rw [List.mem_singleton] at hlast
          rw [hlast] at he'
          exact absurd he' hmark
      rw [if_neg hmark, if_neg hmark, ih ⟨e', hearlier, he'⟩]

theorem sinceLast_suffix (trace : List ε) : ∃ before, trace = before ++ sinceLast mark trace := by
  induction trace using List.reverseRecOn with
  | nil => exact ⟨[], rfl⟩
  | append_singleton trace e ih =>
    obtain ⟨before, hbefore⟩ := ih
    rw [sinceLast_append]
    by_cases hmark : mark e = true
    · rw [if_pos hmark]
      exact ⟨trace ++ [e], (List.append_nil _).symm⟩
    · rw [if_neg hmark]
      refine ⟨before, ?_⟩
      rw [← List.append_assoc, ← hbefore]

-- The last marked event.
def lastMarked (trace : List ε) : Option ε :=
  trace.foldl (fun last e => if mark e then some e else last) none

theorem lastMarked_append (trace : List ε) (e : ε) :
    lastMarked mark (trace ++ [e]) = if mark e then some e else lastMarked mark trace := by
  unfold lastMarked
  rw [List.foldl_append]
  rfl

theorem lastMarked_append_of_none (before after : List ε) (h : ∀ e ∈ after, mark e = false) :
    lastMarked mark (before ++ after) = lastMarked mark before := by
  induction after using List.reverseRecOn with
  | nil => rw [List.append_nil]
  | append_singleton after e ih =>
    have he := h e (List.mem_append_right _ List.mem_cons_self)
    rw [← List.append_assoc, lastMarked_append, he,
      ih (fun e' he' => h e' (List.mem_append_left _ he'))]
    rfl

-- Behind its last marked event a history is quiet.
theorem lastMarked_split {trace : List ε} {e : ε} (h : lastMarked mark trace = some e) :
    ∃ before after, trace = before ++ e :: after ∧ mark e = true ∧ ∀ e' ∈ after, mark e' = false := by
  induction trace using List.reverseRecOn with
  | nil => exact absurd h (by simp [lastMarked])
  | append_singleton trace last ih =>
    rw [lastMarked_append] at h
    by_cases hmark : mark last = true
    · rw [if_pos hmark, Option.some.injEq] at h
      subst h
      exact ⟨trace, [], rfl, hmark, fun e' he' => absurd he' List.not_mem_nil⟩
    · rw [if_neg hmark] at h
      obtain ⟨before, after, hsplit, he, hquiet⟩ := ih h
      refine ⟨before, after ++ [last], by rw [hsplit]; simp, he, ?_⟩
      intro e' he'
      cases List.mem_append.mp he' with
      | inl hin => exact hquiet e' hin
      | inr hlast =>
        rw [List.mem_singleton] at hlast
        rw [hlast]
        exact eq_false_of_ne_true hmark

theorem lastMarked_of_split {before after : List ε} {e : ε} (he : mark e = true)
    (hquiet : ∀ e' ∈ after, mark e' = false) :
    lastMarked mark (before ++ e :: after) = some e := by
  have hsplit : before ++ e :: after = (before ++ [e]) ++ after := by simp
  rw [hsplit, lastMarked_append_of_none mark _ _ hquiet, lastMarked_append, if_pos he]

end SinceLast

section Stamps

variable (stamp : ε → Option Nat)

-- No event is stamped earlier than one before it.
def InOrder (trace : List ε) : Prop :=
  Each (fun before e => ∀ e' ∈ before, ∀ t' ∈ stamp e', ∀ t ∈ stamp e, t' ≤ t) trace

def StampedBy (now : Nat) (trace : List ε) : Prop := ∀ e ∈ trace, ∀ t ∈ stamp e, t ≤ now

variable {stamp}

theorem stampedBy_append {now : Nat} {trace more : List ε} (h : StampedBy stamp now trace)
    (hmore : ∀ e ∈ more, ∀ t ∈ stamp e, t = now) : StampedBy stamp now (trace ++ more) := by
  intro e he t ht
  cases List.mem_append.mp he with
  | inl hin => exact h e hin t ht
  | inr hin => exact Nat.le_of_eq (hmore e hin t ht)

theorem stampedBy_mono {now later : Nat} {trace : List ε} (h : StampedBy stamp now trace)
    (hle : now ≤ later) : StampedBy stamp later trace :=
  fun e he t ht => Nat.le_trans (h e he t ht) hle

-- Events that happen now keep the order.
theorem inOrder_append {now : Nat} {trace more : List ε} (h : InOrder stamp trace)
    (hstamped : StampedBy stamp now trace) (hmore : ∀ e ∈ more, ∀ t ∈ stamp e, t = now) :
    InOrder stamp (trace ++ more) := by
  induction more using List.reverseRecOn with
  | nil => rwa [List.append_nil]
  | append_singleton more e ih =>
    have hinit : ∀ e' ∈ more, ∀ t ∈ stamp e', t = now :=
      fun e' he' => hmore e' (List.mem_append_left _ he')
    rw [← List.append_assoc]
    apply each_append (ih hinit)
    intro e' he' t' ht' t ht
    have hnow := hmore e (List.mem_append_right _ List.mem_cons_self) t ht
    rw [hnow]
    exact stampedBy_append hstamped hinit e' he' t' ht'

theorem inOrder_suffix {before trace : List ε} (h : InOrder stamp (before ++ trace)) :
    InOrder stamp trace := by
  intro pre e post hsplit e' he'
  have hwhole : before ++ trace = (before ++ pre) ++ e :: post := by
    rw [hsplit, List.append_assoc]
  exact h (before ++ pre) e post hwhole e' (List.mem_append_right _ he')

-- What is stamped earlier than an event came before it.
theorem mem_before_of_lt {before after : List ε} {e e' : ε} {t t' : Nat}
    (h : InOrder stamp (before ++ e :: after)) (ht : t ∈ stamp e) (ht' : t' ∈ stamp e')
    (hlt : t' < t) (hmem : e' ∈ before ++ e :: after) : e' ∈ before := by
  cases List.mem_append.mp hmem with
  | inl hin => exact hin
  | inr hin =>
    exfalso
    cases List.mem_cons.mp hin with
    | inl heq =>
      rw [heq, ht] at ht'
      have hsame := Option.some.inj ht'
      omega
    | inr hafter =>
      obtain ⟨middle, rest, rfl⟩ := List.append_of_mem hafter
      have hsplit : before ++ e :: (middle ++ e' :: rest) = (before ++ e :: middle) ++ e' :: rest := by
        simp
      have hle := h _ e' rest hsplit e (by simp) t ht t' ht'
      omega

end Stamps

end History

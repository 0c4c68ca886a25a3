import Mathlib.Data.List.Basic

-- Sequences of calls, each with its answer.
namespace Calls

variable {κ α σ τ : Type}

-- `none` when a call is one that must not be made.
def callAll (call : κ → σ → Option (α × σ)) : List κ → σ → Option (List α × σ)
  | [], s => some ([], s)
  | c :: calls, s => do
    let (answer, s) ← call c s
    let (answers, s) ← callAll call calls s
    some (answer :: answers, s)

variable {call : κ → σ → Option (α × σ)} {spec : κ → τ → Option (α × τ)} {c : κ}
  {calls : List κ} {answers : List α} {s s' : σ} {t t' : τ}

theorem callAll_cons : callAll call (c :: calls) s = some (answers, s') ↔
    ∃ answer mid rest, call c s = some (answer, mid) ∧ callAll call calls mid = some (rest, s') ∧
      answers = answer :: rest := by
  constructor
  · intro h
    simp only [callAll, Option.bind_eq_bind, Option.bind_eq_some_iff, Prod.exists,
      Option.some.injEq, Prod.mk.injEq] at h
    obtain ⟨answer, mid, hcall, rest, last, hrest, rfl, rfl⟩ := h
    exact ⟨answer, mid, rest, hcall, hrest, rfl⟩
  · rintro ⟨answer, mid, rest, hcall, hrest, rfl⟩
    simp [callAll, hcall, hrest]

-- Where each call gives the answer of its specification, so does each sequence.
theorem callAll_simulates {rel : σ → τ → Prop}
    (hcall : ∀ c s t answer t', rel s t → spec c t = some (answer, t') →
      ∃ s', call c s = some (answer, s') ∧ rel s' t')
    (hrel : rel s t) (h : callAll spec calls t = some (answers, t')) :
    ∃ s', callAll call calls s = some (answers, s') ∧ rel s' t' := by
  induction calls generalizing s t answers with
  | nil =>
    simp only [callAll, Option.some.injEq, Prod.mk.injEq] at h
    obtain ⟨rfl, rfl⟩ := h
    exact ⟨s, rfl, hrel⟩
  | cons c calls ih =>
    obtain ⟨answer, mid, rest, hfirst, hrest, rfl⟩ := callAll_cons.mp h
    obtain ⟨next, hnext, hmid⟩ := hcall _ _ _ _ _ hrel hfirst
    obtain ⟨last, hlast, hend⟩ := ih hmid hrest
    exact ⟨last, callAll_cons.mpr ⟨answer, next, rest, hnext, hlast, rfl⟩, hend⟩

end Calls

import Mathlib.Order.Defs.PartialOrder

-- Preemptive scheduling by fixed priorities on one core.
namespace FixedPriority

variable {τ κ : Type} [Preorder κ] {priority : τ → κ} {ready : τ → Prop} {t u : τ}

-- Any of the ready tasks of the highest priority may be the one that runs.
def Runs (priority : τ → κ) (ready : τ → Prop) (t : τ) : Prop :=
  ready t ∧ ∀ u, ready u → ¬priority t < priority u

theorem not_ready_of_runs (hruns : Runs priority ready t) (hhigher : priority t < priority u) :
    ¬ready u :=
  fun hready => hruns.2 u hready hhigher

-- A task runs if those above it all wait.
theorem runs_of_ready (hready : ready t) (hwait : ∀ u, priority t < priority u → ¬ready u) :
    Runs priority ready t :=
  ⟨hready, fun u hu hhigher => hwait u hhigher hu⟩

end FixedPriority

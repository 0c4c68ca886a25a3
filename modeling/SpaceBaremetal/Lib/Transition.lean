import Mathlib.Logic.Relation

-- Transition systems given by their initial states and a step relation.
namespace Transition

variable {σ : Type} {init : σ → Prop} {step : σ → σ → Prop}

def Reachable (init : σ → Prop) (step : σ → σ → Prop) (s : σ) : Prop :=
  ∃ start, init start ∧ Relation.ReflTransGen step start s

theorem reachable_of_init {s : σ} (h : init s) : Reachable init step s :=
  ⟨s, h, .refl⟩

theorem reachable_step {s s' : σ} (h : Reachable init step s) (hstep : step s s') :
    Reachable init step s' := by
  obtain ⟨start, hinit, hrun⟩ := h
  exact ⟨start, hinit, hrun.tail hstep⟩

-- What holds at the start and is kept by every step holds in every reachable
-- state. A step may use what is already known of the reachable states.
theorem invariant {known inv : σ → Prop} (hknown : ∀ s, Reachable init step s → known s)
    (hinit : ∀ s, init s → inv s)
    (hstep : ∀ s s', known s → inv s → step s s' → inv s') {s : σ}
    (h : Reachable init step s) : inv s := by
  obtain ⟨start, hstart, hrun⟩ := h
  induction hrun with
  | refl => exact hinit start hstart
  | tail hupTo hlast ih => exact hstep _ _ (hknown _ ⟨start, hstart, hupTo⟩) ih hlast

theorem invariant_of_step {inv : σ → Prop} (hinit : ∀ s, init s → inv s)
    (hstep : ∀ s s', inv s → step s s' → inv s') {s : σ} (h : Reachable init step s) : inv s := by
  have hknown : ∀ s, Reachable init step s → True := fun _ _ => trivial
  exact invariant hknown hinit (fun s s' _ hinv hlast => hstep s s' hinv hlast) h

theorem reachable_mono {step' : σ → σ → Prop} (hstep : ∀ s s', step s s' → step' s s') {s : σ}
    (h : Reachable init step s) : Reachable init step' s := by
  obtain ⟨start, hinit, hrun⟩ := h
  exact ⟨start, hinit, Relation.ReflTransGen.mono hstep _ _ hrun⟩

end Transition

import Mathlib.Data.List.Basic

-- What a task does between two points where it may wait: atomic actions on a
-- state that it shares with other tasks, and calls whose answers come from
-- outside. No action changes what `frame` shows of the state.
inductive Program {σ ρ : Type} (frame : σ → ρ) (ι ο α : Type) : Type
  | Return (a : α)
  | Act (f : σ → σ) (keeps : ∀ s, frame (f s) = frame s) (next : σ → Program frame ι ο α)
  | Call (call : ι) (next : ο → Program frame ι ο α)

namespace Program

variable {σ ρ : Type} {frame : σ → ρ} {ι ο α β : Type}

-- What follows an action is given the state that the action found.
def bind : Program frame ι ο α → (α → Program frame ι ο β) → Program frame ι ο β
  | .Return a, k => k a
  | .Act f keeps next, k => .Act f keeps fun s => (next s).bind k
  | .Call call next, k => .Call call fun answer => (next answer).bind k

instance : Monad (Program frame ι ο) where
  pure := .Return
  bind := bind

def act (f : σ → σ) (keeps : ∀ s, frame (f s) = frame s := by exact fun _ => id rfl) :
    Program frame ι ο Unit :=
  .Act f keeps fun _ => .Return ()

def read (g : σ → α) : Program frame ι ο α :=
  .Act id (fun _ => rfl) fun s => .Return (g s)

-- An action with a result.
def atomic (f : σ → α × σ) (keeps : ∀ s, frame (f s).2 = frame s) : Program frame ι ο α :=
  .Act (fun s => (f s).2) keeps fun s => .Return (f s).1

def call (c : ι) : Program frame ι ο ο := .Call c .Return

-- A run without interruption.
def run (answer : ι → σ → ο × σ) : Program frame ι ο α → σ → α × σ
  | .Return a, s => (a, s)
  | .Act f _ next, s => run answer (next s) (f s)
  | .Call call next, s => run answer (next (answer call s).1) (answer call s).2

section Run

variable (answer : ι → σ → ο × σ)

-- The parentheses keep `simp` from using these lemmas by definitional unfolding,
-- which would leave the instances of conditions behind.

@[simp]
theorem run_pure (a : α) (s : σ) :
    run answer (pure a : Program frame ι ο α) s = (a, s) := (rfl)

@[simp]
theorem run_act (f : σ → σ) (keeps : ∀ s, frame (f s) = frame s) (s : σ) :
    run answer (act f keeps : Program frame ι ο Unit) s = ((), f s) := (rfl)

@[simp]
theorem run_read (g : σ → α) (s : σ) :
    run answer (read g : Program frame ι ο α) s = (g s, s) := (rfl)

@[simp]
theorem run_atomic (f : σ → α × σ) (keeps : ∀ s, frame (f s).2 = frame s) (s : σ) :
    run answer (atomic f keeps : Program frame ι ο α) s = f s := (rfl)

@[simp]
theorem run_bind (p : Program frame ι ο α) (k : α → Program frame ι ο β) (s : σ) :
    run answer (p >>= k) s = run answer (k (run answer p s).1) (run answer p s).2 := by
  change run answer (p.bind k) s = _
  induction p generalizing s with
  | Return a => rfl
  | Act f keeps next ih => exact ih s (f s)
  | Call c next ih => exact ih (answer c s).1 (answer c s).2

@[simp]
theorem run_ite (c : Prop) [Decidable c] (p q : Program frame ι ο α) (s : σ) :
    run answer (if c then p else q) s = if c then run answer p s else run answer q s := by
  split_ifs
  · rfl
  · rfl

-- A loop over a list is a fold of its rounds.
theorem run_foldlM {ε : Type} (body : α → ε → Program frame ι ο α) (items : List ε) (a : α)
    (s : σ) :
    run answer (items.foldlM body a) s =
      items.foldl (fun acc item => run answer (body acc.1 item) acc.2) (a, s) := by
  induction items generalizing a s with
  | nil => rfl
  | cons item items ih => rw [List.foldlM_cons, run_bind, ih, List.foldl_cons]

end Run

-- A run among others, who have their turn before each action. The actions are
-- counted from `n`.
def runAmong (answer : ι → σ → ο × σ) (others : Nat → σ → σ) :
    Nat → Program frame ι ο α → σ → α × σ
  | _, .Return a, s => (a, s)
  | n, .Act f _ next, s => runAmong answer others (n + 1) (next (others n s)) (f (others n s))
  | n, .Call call next, s =>
      let answered := answer call (others n s)
      runAmong answer others (n + 1) (next answered.1) answered.2

section Among

variable (answer : ι → σ → ο × σ) (others : Nat → σ → σ)

theorem runAmong_act_bind (n : Nat) (f : σ → σ) (keeps : ∀ s, frame (f s) = frame s)
    (k : Unit → Program frame ι ο α) (s : σ) :
    runAmong answer others n (act f keeps >>= k) s =
      runAmong answer others (n + 1) (k ()) (f (others n s)) := rfl

theorem runAmong_read_bind (n : Nat) (g : σ → β) (k : β → Program frame ι ο α) (s : σ) :
    runAmong answer others n (read g >>= k) s =
      runAmong answer others (n + 1) (k (g (others n s))) (others n s) := rfl

-- Alone it is the run without interruption.
theorem runAmong_id (n : Nat) (p : Program frame ι ο α) (s : σ) :
    runAmong answer (fun _ => id) n p s = run answer p s := by
  induction p generalizing n s with
  | Return a => rfl
  | Act f keeps next ih => exact ih s (n + 1) (f s)
  | Call c next ih => exact ih (answer c s).1 (n + 1) (answer c s).2

end Among

section Quiet

variable {γ : Type} {view : σ → γ}

-- The run from `s` makes no call and keeps what `view` shows.
def Quiet (view : σ → γ) : Program frame ι ο α → σ → Prop
  | .Return _, _ => True
  | .Act f _ next, s => view (f s) = view s ∧ (next s).Quiet view (f s)
  | .Call _ _, _ => False

theorem quiet_bind (answer : ι → σ → ο × σ) {p : Program frame ι ο α}
    {k : α → Program frame ι ο β} {s : σ} (hp : p.Quiet view s)
    (hk : (k (p.run answer s).1).Quiet view (p.run answer s).2) : (p >>= k).Quiet view s := by
  change (p.bind k).Quiet view s
  induction p generalizing s with
  | Return a => exact hk
  | Act f keeps next ih => exact ⟨hp.1, ih s hp.2 hk⟩
  | Call c next ih => exact hp.elim

theorem frame_run (answer : ι → σ → ο × σ) {p : Program frame ι ο α} {s : σ}
    (hp : p.Quiet view s) : frame (p.run answer s).2 = frame s := by
  induction p generalizing s with
  | Return a => rfl
  | Act f keeps next ih => exact (ih s hp.2).trans (keeps s)
  | Call c next ih => exact hp.elim

theorem view_run (answer : ι → σ → ο × σ) {p : Program frame ι ο α} {s : σ}
    (hp : p.Quiet view s) : view (p.run answer s).2 = view s := by
  induction p generalizing s with
  | Return a => rfl
  | Act f keeps next ih => exact (ih s hp.2).trans hp.1
  | Call c next ih => exact hp.elim

end Quiet

end Program

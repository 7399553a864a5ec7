import Mathlib.Data.List.Induction
import ZonKey.Runs

set_option autoImplicit false

namespace ZonKey.Runs

variable {σ α τ : Type*} {step : σ → α → σ}

/-- `held` is issued under growing numbers and changes only at steps that do not pass it on. -/
structure Versioned (step : σ → α → σ) (I : σ → Prop) (Passes : σ → α → Prop)
    (held : σ → Option τ) (number : τ → Nat) (issued : σ → Nat) : Prop where
  keeps : ∀ s a, I s → I (step s a)
  current : ∀ s v, I s → held s = some v → number v = issued s
  passed : ∀ s a, I s → Passes s a → held (step s a) = held s ∧ issued (step s a) = issued s
  other : ∀ s a, I s → ¬ Passes s a →
    (held (step s a) = none ∧ issued (step s a) = issued s) ∨
      ((held (step s a)).isSome ∧ issued s < issued (step s a))

namespace Versioned

variable {I : σ → Prop} {Passes : σ → α → Prop} {held : σ → Option τ} {number : τ → Nat}
variable {issued : σ → Nat}

theorem issued_le_step (h : Versioned step I Passes held number issued) {s : σ} (start : I s)
    (a : α) : issued s ≤ issued (step s a) := by
  by_cases passes : Passes s a
  · exact Nat.le_of_eq (h.passed s a start passes).2.symm
  · rcases h.other s a start passes with ⟨_, same⟩ | ⟨_, more⟩
    · exact Nat.le_of_eq same.symm
    · exact Nat.le_of_lt more

theorem issued_le_run (h : Versioned step I Passes held number issued) {s : σ} (start : I s)
    (inputs : List α) : issued s ≤ issued (run step s inputs) := by
  induction inputs generalizing s with
  | nil => exact Nat.le_refl _
  | cons a rest ih => exact Nat.le_trans (h.issued_le_step start a) (ih (h.keeps s a start))

theorem held_of_allSteps (h : Versioned step I Passes held number issued) {s : σ} (start : I s)
    {inputs : List α} (passes : AllSteps step Passes s inputs) :
    held (run step s inputs) = held s := by
  induction inputs generalizing s with
  | nil => rfl
  | cons a rest ih =>
    have first := (h.passed s a start passes.1).1
    exact (ih (h.keeps s a start) passes.2).trans first

/-- Once a step has not passed the value on, whatever is held later has a number of its own. -/
theorem issued_lt_of_held (h : Versioned step I Passes held number issued) {s : σ} (start : I s)
    {inputs : List α} (stopped : ¬ AllSteps step Passes s inputs) {w : τ}
    (later : held (run step s inputs) = some w) : issued s < number w := by
  induction inputs using List.reverseRecOn generalizing w with
  | nil => exact absurd trivial stopped
  | append_singleton inputs a ih =>
    rw [run_append, run_cons, run_nil] at later
    have now : I (run step s inputs) := run_keeps I h.keeps start inputs
    by_cases passes : Passes (run step s inputs) a
    · rw [(h.passed _ a now passes).1] at later
      refine ih (fun all => stopped ?_) later
      exact (allSteps_append s inputs [a]).mpr ⟨all, passes, trivial⟩
    · rcases h.other _ a now passes with ⟨dropped, _⟩ | ⟨_, more⟩
      · rw [dropped] at later
        cases later
      · have grown := h.issued_le_run start inputs
        have numbered := h.current _ w (h.keeps _ a now) later
        omega

theorem passed_or_younger (h : Versioned step I Passes held number issued) {s : σ} (start : I s)
    {inputs : List α} {v w : τ} (first : held s = some v)
    (second : held (run step s inputs) = some w) :
    (AllSteps step Passes s inputs ∧ w = v) ∨ number v < number w := by
  by_cases passes : AllSteps step Passes s inputs
  · rw [h.held_of_allSteps start passes, first] at second
    exact .inl ⟨passes, (Option.some.inj second).symm⟩
  · have younger := h.issued_lt_of_held start passes second
    have numbered := h.current s v start first
    exact .inr (by omega)

theorem held_again_iff (h : Versioned step I Passes held number issued) {s : σ} (start : I s)
    (inputs : List α) {v : τ} (first : held s = some v) :
    held (run step s inputs) = some v ↔ AllSteps step Passes s inputs := by
  constructor
  · intro again
    rcases h.passed_or_younger start first again with ⟨passes, _⟩ | younger
    · exact passes
    · exact absurd younger (Nat.lt_irrefl _)
  · intro passes
    rw [h.held_of_allSteps start passes, first]

end Versioned
end ZonKey.Runs

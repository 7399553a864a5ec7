import Mathlib.Data.List.Basic

set_option autoImplicit false

/-!
# Runs of a deterministic machine

A machine is a step function on states and inputs; a run feeds it a list of
inputs. What one step preserves holds along every run, and a property that
holds at the end of a run was established by a last step and kept since.
-/
namespace ZonKey.Runs

variable {σ α : Type*} {step : σ → α → σ}

def run (step : σ → α → σ) (s : σ) (inputs : List α) : σ := inputs.foldl step s

@[simp] theorem run_nil (s : σ) : run step s [] = s := rfl

@[simp] theorem run_cons (s : σ) (a : α) (rest : List α) :
    run step s (a :: rest) = run step (step s a) rest := rfl

theorem run_append (s : σ) (xs ys : List α) :
    run step s (xs ++ ys) = run step (run step s xs) ys := List.foldl_append

/-- `P` holds of every state and input met along the run. -/
def AllSteps (step : σ → α → σ) (P : σ → α → Prop) : σ → List α → Prop
  | _, [] => True
  | s, a :: rest => P s a ∧ AllSteps step P (step s a) rest

instance AllSteps.decidable {P : σ → α → Prop} [∀ s a, Decidable (P s a)] :
    ∀ (s : σ) (inputs : List α), Decidable (AllSteps step P s inputs)
  | _, [] => instDecidableTrue
  | s, a :: rest => @instDecidableAnd _ _ _ (AllSteps.decidable (step s a) rest)

theorem allSteps_of_forall {P : σ → α → Prop} (h : ∀ s a, P s a) (s : σ) (inputs : List α) :
    AllSteps step P s inputs := by
  induction inputs generalizing s with
  | nil => trivial
  | cons a rest ih => exact ⟨h s a, ih _⟩

theorem allSteps_append {P : σ → α → Prop} (s : σ) (xs ys : List α) :
    AllSteps step P s (xs ++ ys) ↔
      AllSteps step P s xs ∧ AllSteps step P (run step s xs) ys := by
  induction xs generalizing s with
  | nil => simp [AllSteps]
  | cons a rest ih => simp only [List.cons_append, AllSteps, ih, run_cons, and_assoc]

theorem AllSteps.and {P Q : σ → α → Prop} {s : σ} {inputs : List α}
    (hp : AllSteps step P s inputs) (hq : AllSteps step Q s inputs) :
    AllSteps step (fun s a => P s a ∧ Q s a) s inputs := by
  induction inputs generalizing s with
  | nil => trivial
  | cons a rest ih => exact ⟨⟨hp.1, hq.1⟩, ih hp.2 hq.2⟩

theorem AllSteps.at {P : σ → α → Prop} {s : σ} {before after : List α} {a : α}
    (h : AllSteps step P s (before ++ a :: after)) : P (run step s before) a :=
  ((allSteps_append s before (a :: after)).mp h).2.1

theorem allSteps_of_split {P : σ → α → Prop} {s : σ} {inputs : List α}
    (h : ∀ before a after, inputs = before ++ a :: after → P (run step s before) a) :
    AllSteps step P s inputs := by
  induction inputs generalizing s with
  | nil => trivial
  | cons a rest ih =>
    refine ⟨h [] a rest rfl, ih fun before b after eq => ?_⟩
    exact h (a :: before) b after (by rw [eq, List.cons_append])

/-- An invariant that every allowed step keeps holds at the end of the run. -/
theorem run_invariant {P : σ → α → Prop} (I : σ → Prop)
    (kept : ∀ s a, I s → P s a → I (step s a)) {s : σ} {inputs : List α}
    (start : I s) (allowed : AllSteps step P s inputs) : I (run step s inputs) := by
  induction inputs generalizing s with
  | nil => exact start
  | cons a rest ih => exact ih (kept s a start allowed.1) allowed.2

theorem run_keeps (I : σ → Prop) (kept : ∀ s a, I s → I (step s a)) {s : σ}
    (start : I s) (inputs : List α) : I (run step s inputs) :=
  run_invariant (P := fun _ _ => True) I (fun s a hs _ => kept s a hs) start
    (allSteps_of_forall (fun _ _ => trivial) s inputs)

/-- A relation that every input keeps is one between runs. -/
theorem run_simulates {τ : Type*} {other : τ → α → τ} (R : σ → τ → Prop)
    (kept : ∀ s t a, R s t → R (step s a) (other t a)) {s : σ} {t : τ} (start : R s t)
    (inputs : List α) : R (run step s inputs) (run other t inputs) := by
  induction inputs generalizing s t with
  | nil => exact start
  | cons a rest ih => exact ih (kept s t a start)

theorem allSteps_of_invariant {P Q : σ → α → Prop} (I : σ → Prop)
    (kept : ∀ s a, I s → P s a → I (step s a)) (good : ∀ s a, I s → P s a → Q s a)
    {s : σ} {inputs : List α} (start : I s) (allowed : AllSteps step P s inputs) :
    AllSteps step Q s inputs := by
  induction inputs generalizing s with
  | nil => trivial
  | cons a rest ih =>
    exact ⟨good s a start allowed.1, ih (kept s a start allowed.1) allowed.2⟩

theorem AllSteps.imp {P Q : σ → α → Prop} (imp : ∀ s a, P s a → Q s a) {s : σ} {inputs : List α}
    (allowed : AllSteps step P s inputs) : AllSteps step Q s inputs :=
  allSteps_of_invariant (fun _ => True) (fun _ _ _ _ => trivial) (fun s a _ => imp s a) trivial
    allowed

/-- Where a step keeps `Q` exactly if it meets a condition, `Q` holds at the end of a run exactly if
it held at the start and every step met the condition. -/
theorem run_iff_allSteps {P : σ → α → Prop} {Q : σ → Prop} (I : σ → Prop)
    (kept : ∀ s a, I s → I (step s a)) (exact_ : ∀ s a, I s → (Q (step s a) ↔ Q s ∧ P s a))
    {s : σ} (start : I s) (inputs : List α) :
    Q (run step s inputs) ↔ Q s ∧ AllSteps step P s inputs := by
  induction inputs generalizing s with
  | nil => simp [AllSteps]
  | cons a rest ih => rw [run_cons, ih (kept s a start), exact_ s a start, AllSteps, and_assoc]

/-- Where a step may also leave the invariant through an exit, a run either
keeps the invariant to its end or meets a first exit. -/
theorem run_or_exit {P : σ → α → Prop} (I : σ → Prop) (E : σ → α → Prop)
    (kept : ∀ s a, I s → P s a → I (step s a) ∨ E s a) {s : σ} {inputs : List α}
    (start : I s) (allowed : AllSteps step P s inputs) :
    I (run step s inputs) ∨ ∃ before a after, inputs = before ++ a :: after ∧
      I (run step s before) ∧ E (run step s before) a := by
  induction inputs generalizing s with
  | nil => exact .inl start
  | cons a rest ih =>
    rcases kept s a start allowed.1 with next | exit
    · rcases ih next allowed.2 with final | ⟨before, b, after, eq, held, exit⟩
      · exact .inl final
      · exact .inr ⟨a :: before, b, after, by rw [eq, List.cons_append], held, exit⟩
    · exact .inr ⟨[], a, rest, rfl, start, exit⟩

/-- `M` holds at the end, so either it held from the start and through every
step, or some step established it and every later step kept it. -/
theorem last_established (M : σ → Prop) (s : σ) (inputs : List α)
    (final : M (run step s inputs)) :
    (M s ∧ AllSteps step (fun u a => M u ∧ M (step u a)) s inputs) ∨
      ∃ before a after, inputs = before ++ a :: after ∧
        ¬ M (run step s before) ∧ M (step (run step s before) a) ∧
        AllSteps step (fun u b => M u ∧ M (step u b)) (step (run step s before) a) after := by
  induction inputs generalizing s with
  | nil => exact .inl ⟨final, trivial⟩
  | cons a rest ih =>
    rcases ih (step s a) final with ⟨now, kept⟩ | ⟨before, b, after, eq, was, made, kept⟩
    · by_cases start : M s
      · exact .inl ⟨start, ⟨start, now⟩, kept⟩
      · exact .inr ⟨[], a, rest, rfl, start, now, kept⟩
    · exact .inr ⟨a :: before, b, after, by rw [eq, List.cons_append], was, made, kept⟩

end ZonKey.Runs

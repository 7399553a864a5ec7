import Mathlib.Logic.Function.Basic

set_option autoImplicit false

namespace ZonKey.Numbering

variable {κ ι : Type*} [DecidableEq κ] [DecidableEq ι]

structure Numbers (κ ι : Type*) where
  assigned : List (κ × ι × Nat)
  issued : ι → Nat

namespace Numbers

def empty : Numbers κ ι := ⟨[], fun _ => 0⟩

def issue (numbers : Numbers κ ι) (c : ι) (k : κ) : (ι × Nat) × Numbers κ ι :=
  match numbers.assigned.lookup k with
  | some known => (known, numbers)
  | none =>
    let n := numbers.issued c + 1
    ((c, n), ⟨(k, c, n) :: numbers.assigned, Function.update numbers.issued c n⟩)

/-- No number was given twice in a class, and none beyond its count. -/
structure Sound (numbers : Numbers κ ι) : Prop where
  positive : ∀ k c n, numbers.assigned.lookup k = some (c, n) → 0 < n
  bounded : ∀ k c n, numbers.assigned.lookup k = some (c, n) → n ≤ numbers.issued c
  distinct : ∀ j k known, numbers.assigned.lookup j = some known →
    numbers.assigned.lookup k = some known → j = k

variable {numbers : Numbers κ ι}

omit [DecidableEq ι] in
theorem sound_empty : (empty : Numbers κ ι).Sound := ⟨nofun, nofun, nofun⟩

theorem issue_known {k : κ} {known : ι × Nat} (here : numbers.assigned.lookup k = some known)
    (c : ι) : numbers.issue c k = (known, numbers) := by
  simp only [issue, here]

theorem issue_fresh {k : κ} (fresh : numbers.assigned.lookup k = none) (c : ι) :
    numbers.issue c k = ((c, numbers.issued c + 1),
      ⟨(k, c, numbers.issued c + 1) :: numbers.assigned,
        Function.update numbers.issued c (numbers.issued c + 1)⟩) := by
  simp only [issue, fresh]

theorem lookup_issue_self (c : ι) (k : κ) :
    (numbers.issue c k).2.assigned.lookup k = some (numbers.issue c k).1 := by
  cases here : numbers.assigned.lookup k with
  | some known =>
    rw [issue_known here]
    exact here
  | none =>
    rw [issue_fresh here]
    exact List.lookup_cons_self

theorem lookup_issue_other (c : ι) {j k : κ} (other : j ≠ k) :
    (numbers.issue c k).2.assigned.lookup j = numbers.assigned.lookup j := by
  cases here : numbers.assigned.lookup k with
  | some known => rw [issue_known here]
  | none =>
    have apart : (j == k) = false := by simpa using other
    rw [issue_fresh here]
    simp [List.lookup_cons, apart]

theorem lookup_issue_kept (c : ι) {j : κ} (k : κ) {known : ι × Nat}
    (here : numbers.assigned.lookup j = some known) :
    (numbers.issue c k).2.assigned.lookup j = some known := by
  by_cases same : j = k
  · subst same
    rw [issue_known here]
    exact here
  · rw [lookup_issue_other c same]
    exact here

theorem Sound.issue (sound : numbers.Sound) (c : ι) (k : κ) : (numbers.issue c k).2.Sound := by
  cases fresh : numbers.assigned.lookup k with
  | some known =>
    rw [issue_known fresh]
    exact sound
  | none =>
    have self : (numbers.issue c k).2.assigned.lookup k = some (numbers.issue c k).1 :=
      lookup_issue_self c k
    have other : ∀ j, j ≠ k → (numbers.issue c k).2.assigned.lookup j = numbers.assigned.lookup j :=
      fun _ ne => lookup_issue_other c ne
    have issued : (numbers.issue c k).2.issued =
        Function.update numbers.issued c (numbers.issued c + 1) := by rw [issue_fresh fresh]
    have given : (numbers.issue c k).1 = (c, numbers.issued c + 1) := by rw [issue_fresh fresh]
    rw [given] at self
    generalize (numbers.issue c k).2 = after at self other issued ⊢
    -- a key that had a number of the class before has a smaller one
    have apart : ∀ j, j ≠ k → after.assigned.lookup j ≠ some (c, numbers.issued c + 1) := by
      intro j ne here
      rw [other j ne] at here
      have bound := sound.bounded j c _ here
      omega
    refine ⟨fun j d n here => ?_, fun j d n here => ?_, fun i j known first second => ?_⟩
    · by_cases new : j = k
      · subst new
        rw [self] at here
        cases here
        omega
      · rw [other j new] at here
        exact sound.positive j d n here
    · rw [issued]
      by_cases new : j = k
      · subst new
        rw [self] at here
        cases here
        simp
      · rw [other j new] at here
        have bound := sound.bounded j d n here
        by_cases same : d = c
        · subst same
          rw [Function.update_self]
          omega
        · rw [Function.update_of_ne same]
          exact bound
    · by_cases left : i = k
      · by_cases right : j = k
        · rw [left, right]
        · subst left
          rw [self] at first
          cases first
          exact absurd second (apart j right)
      · by_cases right : j = k
        · subst right
          rw [self] at second
          cases second
          exact absurd first (apart i left)
        · rw [other i left] at first
          rw [other j right] at second
          exact sound.distinct i j known first second

end Numbers
end ZonKey.Numbering

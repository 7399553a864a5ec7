import Mathlib.Data.List.Basic

set_option autoImplicit false

namespace ZonKey.SuffixEdit

variable {α : Type*} [DecidableEq α]

def common (before after : List α) : Nat :=
  ((before.zip after).takeWhile fun pair => pair.1 == pair.2).length

@[simp] theorem common_nil_left (after : List α) : common [] after = 0 := rfl

@[simp] theorem common_nil_right (before : List α) : common before [] = 0 := by
  simp [common]

theorem common_cons (a b : α) (before after : List α) :
    common (a :: before) (b :: after) = if a = b then common before after + 1 else 0 := by
  by_cases same : a = b
  · simp [common, same]
  · simp [common, same]

theorem common_le_left (before after : List α) : common before after ≤ before.length := by
  induction before generalizing after with
  | nil => exact Nat.le_refl 0
  | cons a before ih =>
    cases after with
    | nil => simp
    | cons b after =>
      have := ih after
      rw [common_cons, List.length_cons]
      split <;> omega

theorem take_common (before after : List α) :
    before.take (common before after) = after.take (common before after) := by
  induction before generalizing after with
  | nil => simp
  | cons a before ih =>
    cases after with
    | nil => simp
    | cons b after =>
      rw [common_cons]
      split
      · rename_i same
        rw [List.take_succ_cons, List.take_succ_cons, ih after, same]
      · rfl

theorem le_common {before after : List α} {kept : Nat} (le : kept ≤ before.length)
    (shared : before.take kept <+: after) : kept ≤ common before after := by
  induction before generalizing after kept with
  | nil => exact le
  | cons a before ih =>
    cases kept with
    | zero => exact Nat.zero_le _
    | succ kept =>
      cases after with
      | nil => simp at shared
      | cons b after =>
        rw [List.take_succ_cons, List.cons_prefix_cons] at shared
        obtain ⟨same, rest⟩ := shared
        rw [common_cons, if_pos same]
        exact Nat.succ_le_succ (ih (Nat.le_of_succ_le_succ le) rest)

theorem take_append_drop (before after : List α) :
    before.take (common before after) ++ after.drop (common before after) = after := by
  rw [take_common, List.take_append_drop]

theorem take_front (front before after : List α) :
    (front ++ before).take
        ((front ++ before).length - (before.length - common before after)) =
      front ++ before.take (common before after) := by
  have le := common_le_left before after
  have keep : (front ++ before).length - (before.length - common before after) =
      front.length + common before after := by
    rw [List.length_append]
    omega
  rw [keep, List.take_length_add_append]

end ZonKey.SuffixEdit

import Mathlib.Data.List.Basic

set_option autoImplicit false

namespace ZonKey.DelimitedText

variable {α : Type*} {separator : α}

theorem intercalate_append {xs ys : List (List α)} (left : xs ≠ []) (right : ys ≠ []) :
    [separator].intercalate (xs ++ ys) =
      [separator].intercalate xs ++ separator :: [separator].intercalate ys := by
  induction xs with
  | nil => exact absurd rfl left
  | cons first rest ih =>
    cases rest with
    | nil => simp [List.intercalate_cons_of_ne_nil right]
    | cons second others => simpa using ih (by simp)

theorem intercalate_intercalate (first : List (List α)) {last : List (List α)} (some_last : last ≠ []) :
    [separator].intercalate (first ++ [[separator].intercalate last]) =
      [separator].intercalate (first ++ last) := by
  cases first with
  | nil => simp
  | cons piece rest =>
    rw [intercalate_append (by simp) (by simp), intercalate_append (by simp) some_last,
      List.intercalate_singleton]

variable [DecidableEq α]

def pieces (separator : α) (fields : List (List α)) : List (List α) :=
  fields.flatMap (·.splitOn separator)

theorem not_mem_splitOn {text piece : List α} (member : piece ∈ text.splitOn separator) :
    separator ∉ piece := by
  induction text generalizing piece with
  | nil => simp_all
  | cons a rest ih =>
    rw [List.splitOn_cons_eq_if_modifyHead] at member
    obtain ⟨first, others, cut⟩ := List.exists_cons_of_ne_nil (rest.splitOn_ne_nil separator)
    rw [cut] at member ih
    by_cases same : a = separator
    · simp only [same, beq_self_eq_true, if_true, List.mem_cons] at member
      cases member with
      | inl empty => simp [empty]
      | inr later => exact ih (List.mem_cons.mpr later)
    · simp only [beq_iff_eq, same, if_false, List.modifyHead_cons, List.mem_cons] at member
      cases member with
      | inl head =>
        rw [head, List.mem_cons, not_or]
        exact ⟨Ne.symm same, ih List.mem_cons_self⟩
      | inr later => exact ih (List.mem_cons_of_mem _ later)

theorem exists_mem_splitOn {text : List α} {a : α} (member : a ∈ text) (other : a ≠ separator) :
    ∃ piece ∈ text.splitOn separator, a ∈ piece := by
  induction text with
  | nil => cases member
  | cons b rest ih =>
    obtain ⟨first, others, cut⟩ := List.exists_cons_of_ne_nil (rest.splitOn_ne_nil separator)
    rw [List.splitOn_cons_eq_if_modifyHead]
    rw [cut] at ih ⊢
    by_cases same : b = separator
    · have later : a ∈ rest := (List.mem_cons.mp member).resolve_left (same ▸ other)
      obtain ⟨piece, mem, inside⟩ := ih later
      rw [if_pos (by simp [same])]
      exact ⟨piece, List.mem_cons_of_mem _ mem, inside⟩
    · rw [if_neg (by simp [same]), List.modifyHead_cons]
      rcases List.mem_cons.mp member with rfl | later
      · exact ⟨_, List.mem_cons_self, List.mem_cons_self⟩
      · obtain ⟨piece, mem, inside⟩ := ih later
        rcases List.mem_cons.mp mem with rfl | further
        · exact ⟨_, List.mem_cons_self, List.mem_cons_of_mem _ inside⟩
        · exact ⟨piece, List.mem_cons_of_mem _ further, inside⟩

theorem not_mem_pieces {fields : List (List α)} {piece : List α}
    (member : piece ∈ pieces separator fields) : separator ∉ piece := by
  obtain ⟨_, _, cut⟩ := List.mem_flatMap.mp member
  exact not_mem_splitOn cut

theorem length_splitOn (separator : α) (text : List α) :
    (text.splitOn separator).length = text.count separator + 1 := by
  induction text with
  | nil => rfl
  | cons a rest ih =>
    rw [List.splitOn_cons_eq_if_modifyHead, List.count_cons]
    by_cases same : a = separator <;> simp [same, ih]

theorem length_le_length_pieces (separator : α) (fields : List (List α)) :
    fields.length ≤ (pieces separator fields).length := by
  induction fields with
  | nil => exact Nat.le_refl 0
  | cons field rest ih =>
    have one := length_splitOn separator field
    simp only [pieces, List.flatMap_cons, List.length_append, List.length_cons] at ih ⊢
    omega

/-- A field with a separator in it leaves more pieces than fields. -/
theorem length_lt_length_pieces {fields : List (List α)} {field : List α}
    (member : field ∈ fields) (dirty : separator ∈ field) :
    fields.length < (pieces separator fields).length := by
  induction fields with
  | nil => cases member
  | cons first rest ih =>
    have one := length_splitOn separator first
    have others := length_le_length_pieces separator rest
    simp only [pieces, List.flatMap_cons, List.length_append, List.length_cons] at ih others ⊢
    cases member with
    | head =>
      have two := List.count_pos_iff.mpr dirty
      omega
    | tail _ later =>
      have more := ih later
      omega

theorem intercalate_pieces (separator : α) (fields : List (List α)) :
    [separator].intercalate (pieces separator fields) = [separator].intercalate fields := by
  induction fields with
  | nil => rfl
  | cons field rest ih =>
    cases rest with
    | nil => simp [pieces]
    | cons second others =>
      have some_later : pieces separator (second :: others) ≠ [] := by simp [pieces]
      calc
        [separator].intercalate (pieces separator (field :: second :: others)) =
            [separator].intercalate (field.splitOn separator ++
              pieces separator (second :: others)) := rfl
        _ = field ++ separator :: [separator].intercalate (second :: others) := by
          rw [intercalate_append (List.splitOn_ne_nil _ _) some_later, List.intercalate_splitOn, ih]
        _ = [separator].intercalate (field :: second :: others) := by simp

end ZonKey.DelimitedText

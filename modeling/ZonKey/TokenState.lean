import ZonKey.ObservedInput
import ZonKey.SuffixEdit

set_option autoImplicit false

/-!
# Token state

The engine's value types and the token of `zonkey-token`. Text is a list of
scalar values; how text splits into grapheme clusters is a parameter.
-/
namespace ZonKey.Telex
open ZonKey.Observe

inductive TokenBoundary where
  | space
  | enter
  | tab
  | punctuation (value : Char)
  | cursorMove
  | focusLoss
  | unknown
  deriving DecidableEq, Repr

def TokenBoundary.fromChar (character : Char) : Option TokenBoundary :=
  if character = ' ' then some .space
  else if character = '\n' ∨ character = '\r' then some .enter
  else if character = '\t' then some .tab
  else if isAsciiPunctuation character then some (.punctuation character)
  else none

structure EditPlan where
  deleteGraphemes : Nat
  insertText : List Char
  deriving DecidableEq, Repr

inductive EngineAction where
  | noop
  | apply (plan : EditPlan)
  | commit (boundary : TokenBoundary)
  | reset
  deriving DecidableEq, Repr

inductive EngineEvent where
  | character (value : Char)
  | backspace
  | boundary (value : TokenBoundary)
  deriving DecidableEq, Repr

inductive UnsupportedBehavior where
  | nonAsciiInput (character : Char)
  deriving DecidableEq, Repr

/-- How text is cut into grapheme clusters: no piece is empty, and they concatenate back. -/
structure Segmentation where
  graphemes : List Char → List (List Char)
  flatten : ∀ text, (graphemes text).flatten = text
  nonempty : ∀ text, ∀ piece ∈ graphemes text, piece ≠ []

section Edits
variable (unicode : Segmentation)

def graphemeCount (text : List Char) : Nat := (unicode.graphemes text).length

def deleteLastGraphemes (text : List Char) (count : Nat) : List Char × Nat :=
  let total := graphemeCount unicode text
  let keep := total - count
  (((unicode.graphemes text).take keep).flatten, total - keep)

def editPlanBetween (before after : List Char) : EditPlan :=
  let beforeGraphemes := unicode.graphemes before
  let afterGraphemes := unicode.graphemes after
  let common := SuffixEdit.common beforeGraphemes afterGraphemes
  { deleteGraphemes := beforeGraphemes.length - common,
    insertText := (afterGraphemes.drop common).flatten }

def applyEditPlan (text : List Char) (plan : EditPlan) : List Char :=
  (deleteLastGraphemes unicode text plan.deleteGraphemes).1 ++ plan.insertText

variable {unicode}

theorem deleteLastGraphemes_fst (text : List Char) (count : Nat) :
    (deleteLastGraphemes unicode text count).1 =
      ((unicode.graphemes text).take ((unicode.graphemes text).length - count)).flatten := rfl

theorem deleteLastGraphemes_front {front before : List Char} (after : List Char)
    (apart : unicode.graphemes (front ++ before) =
      unicode.graphemes front ++ unicode.graphemes before) :
    (deleteLastGraphemes unicode (front ++ before)
        (editPlanBetween unicode before after).deleteGraphemes).1 =
      front ++ ((unicode.graphemes before).take
        (SuffixEdit.common (unicode.graphemes before) (unicode.graphemes after))).flatten := by
  rw [deleteLastGraphemes_fst, apart]
  simp only [editPlanBetween]
  rw [SuffixEdit.take_front, List.flatten_append, unicode.flatten]

theorem applyEditPlan_front {front before : List Char} (after : List Char)
    (apart : unicode.graphemes (front ++ before) =
      unicode.graphemes front ++ unicode.graphemes before) :
    applyEditPlan unicode (front ++ before) (editPlanBetween unicode before after) =
      front ++ after := by
  rw [applyEditPlan, deleteLastGraphemes_front after apart, List.append_assoc]
  simp only [editPlanBetween]
  rw [← List.flatten_append, SuffixEdit.take_append_drop, unicode.flatten]

theorem graphemes_nil : unicode.graphemes [] = [] := by
  rw [List.eq_nil_iff_forall_not_mem]
  intro piece mem
  have empty : (unicode.graphemes []).flatten = [] := unicode.flatten []
  exact unicode.nonempty [] piece mem (List.flatten_eq_nil_iff.mp empty piece mem)

theorem applyEditPlan_nothing (text : List Char) : applyEditPlan unicode text ⟨0, []⟩ = text := by
  rw [applyEditPlan, deleteLastGraphemes_fst, Nat.sub_zero, List.take_length, unicode.flatten,
    List.append_nil]

theorem applyEditPlan_between (before after : List Char) :
    applyEditPlan unicode before (editPlanBetween unicode before after) = after := by
  have alone : unicode.graphemes ([] ++ before) =
      unicode.graphemes [] ++ unicode.graphemes before := by
    rw [graphemes_nil, List.nil_append, List.nil_append]
  exact applyEditPlan_front after alone

/-- A plan that shares its kept clusters with `after` deletes no fewer. -/
theorem editPlanBetween_least {before after : List Char} (plan : EditPlan)
    (shared : (unicode.graphemes before).take (graphemeCount unicode before - plan.deleteGraphemes) <+:
      unicode.graphemes after) :
    (editPlanBetween unicode before after).deleteGraphemes ≤ plan.deleteGraphemes := by
  have kept := SuffixEdit.le_common (Nat.sub_le _ _) shared
  simp only [editPlanBetween]
  omega

/-- The plan between two texts makes the second of the first, and no plan that
keeps whole clusters of both texts in front does so with fewer deletions. -/
theorem editPlanBetween_correct (unicode : Segmentation) (before after : List Char) :
    applyEditPlan unicode before (editPlanBetween unicode before after) = after ∧
      (editPlanBetween unicode before after).deleteGraphemes ≤ graphemeCount unicode before ∧
      ∀ plan : EditPlan,
        plan.deleteGraphemes < (editPlanBetween unicode before after).deleteGraphemes →
        ¬ (applyEditPlan unicode before plan = after ∧
          (unicode.graphemes before).take
            (graphemeCount unicode before - plan.deleteGraphemes) <+: unicode.graphemes after) := by
  refine ⟨applyEditPlan_between before after, Nat.sub_le _ _, ?_⟩
  rintro plan fewer ⟨_, shared⟩
  have least := editPlanBetween_least plan shared
  omega

end Edits

/-- The raw keys are ASCII: `push_raw` is the only way in. -/
structure TokenState where
  rawAscii : List Char
  rendered : List Char
  ascii : ∀ character ∈ rawAscii, isAscii character
  deriving DecidableEq

namespace TokenState

def new : TokenState := ⟨[], [], by simp⟩

def isEmpty (token : TokenState) : Bool := token.rawAscii.isEmpty && token.rendered.isEmpty

def pushRaw (token : TokenState) (character : Char) : Except Char TokenState :=
  if ascii : isAscii character then
    .ok { token with
      rawAscii := token.rawAscii ++ [character]
      ascii := by
        simp only [List.mem_append, List.mem_singleton]
        rintro other (typed | rfl)
        · exact token.ascii other typed
        · exact ascii }
  else .error character

def popRaw (token : TokenState) : Option (Char × TokenState) :=
  match token.rawAscii.getLast? with
  | none => none
  | some character =>
    some (character, { token with
      rawAscii := token.rawAscii.dropLast
      ascii := fun other mem => token.ascii other (List.dropLast_subset _ mem) })

def replaceRendered (unicode : Segmentation) (token : TokenState) (rendered : List Char) :
    EditPlan × TokenState :=
  (editPlanBetween unicode token.rendered rendered, { token with rendered := rendered })

def clear (_token : TokenState) : TokenState := new

@[simp] theorem new_rawAscii : new.rawAscii = [] := rfl

@[simp] theorem new_rendered : new.rendered = [] := rfl

theorem ext_text {token other : TokenState} (raw : token.rawAscii = other.rawAscii)
    (rendered : token.rendered = other.rendered) : token = other := by
  cases token
  cases other
  cases raw
  cases rendered
  rfl

theorem pushRaw_ok (token : TokenState) {character : Char} (ascii : isAscii character) :
    ∃ pushed, token.pushRaw character = .ok pushed ∧
      pushed.rawAscii = token.rawAscii ++ [character] ∧ pushed.rendered = token.rendered := by
  rw [pushRaw, dif_pos ascii]
  exact ⟨_, rfl, rfl, rfl⟩

theorem popRaw_none {token : TokenState} (none : token.popRaw = none) : token.rawAscii = [] := by
  unfold popRaw at none
  split at none
  · rename_i empty
    exact List.getLast?_eq_none_iff.mp empty
  · cases none

theorem popRaw_some {token popped : TokenState} {character : Char}
    (some : token.popRaw = some (character, popped)) :
    popped.rawAscii = token.rawAscii.dropLast ∧ popped.rendered = token.rendered := by
  unfold popRaw at some
  split at some
  · cases some
  · cases some
    exact ⟨rfl, rfl⟩

theorem isEmpty_iff {token : TokenState} :
    token.isEmpty ↔ token.rawAscii = [] ∧ token.rendered = [] := by
  simp [isEmpty]

theorem isEmpty_iff_new {token : TokenState} : token.isEmpty ↔ token = new := by
  constructor
  · intro empty
    exact ext_text (isEmpty_iff.mp empty).1 (isEmpty_iff.mp empty).2
  · rintro rfl
    rfl

end TokenState

end ZonKey.Telex

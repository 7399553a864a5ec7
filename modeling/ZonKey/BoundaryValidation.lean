import ZonKey.Utf16

set_option autoImplicit false

/-!
# Boundary validation

`validate_boundary` of `zonkey-service`: two samples of one control agree, and the
expected text stands right before the caret. Reading past the end of a slice
panics in the source; here it is `none`.
-/
namespace ZonKey.Boundary
open ZonKey.Host (isHighSurrogate isLowSurrogate encodeUtf16 utf16 utf16_append)
open ZonKey.Utf16

inductive BoundarySampleStatus where
  | available
  | failed
  | timedOut
  deriving DecidableEq, Repr

structure BoundaryControlEvidence where
  identity : UInt64
  supported : Bool
  secure : Bool
  style : UInt32
  deriving DecidableEq, Repr

structure BoundarySample where
  utf16Text : List UInt16
  start : Nat
  stop : Nat
  control : BoundaryControlEvidence
  status : BoundarySampleStatus
  deriving DecidableEq, Repr

inductive BoundaryRejection where
  | sampleUnavailable
  | samplesDisagree
  | identityChanged
  | styleChanged
  | unsupportedControl
  | secureControl
  | selectionNotEmpty
  | indexOutOfBounds
  | invalidRange
  | malformedUtf16
  | surrogateSplit
  | prefixMismatch
  deriving DecidableEq, Repr

inductive BoundaryValidation where
  | boundaryValidated
  | rejected (reason : BoundaryRejection)
  deriving DecidableEq, Repr

/-- `&text[start..stop]`. -/
def slice (text : List UInt16) (start stop : Nat) : Option (List UInt16) :=
  if start ≤ stop ∧ stop ≤ text.length then some ((text.take stop).drop start) else none

def splitsSurrogate (text : List UInt16) (index : Nat) : Option Bool :=
  if 0 < index ∧ index < text.length then
    (text[index - 1]?).bind fun before =>
      if isHighSurrogate before then (text[index]?).map isLowSurrogate else some false
  else some false

/-- `splits_surrogate(text, start) || splits_surrogate(text, end)`. -/
def splitsSurrogates (text : List UInt16) (start stop : Nat) : Option Bool :=
  (splitsSurrogate text start).bind fun split =>
    if split then some true else splitsSurrogate text stop

def validateBoundary (first second : BoundarySample) (expected : String) :
    Option BoundaryValidation :=
  if first.status ≠ .available ∨ second.status ≠ .available then
    some (.rejected .sampleUnavailable)
  else if first.control.identity ≠ second.control.identity then
    some (.rejected .identityChanged)
  else if first.control.style ≠ second.control.style then some (.rejected .styleChanged)
  else if first.control ≠ second.control ∨ first.utf16Text ≠ second.utf16Text ∨
      first.start ≠ second.start ∨ first.stop ≠ second.stop then
    some (.rejected .samplesDisagree)
  else if !second.control.supported then some (.rejected .unsupportedControl)
  else if second.control.secure then some (.rejected .secureControl)
  else if second.start > second.utf16Text.length ∨ second.stop > second.utf16Text.length then
    some (.rejected .indexOutOfBounds)
  else if second.start > second.stop then some (.rejected .invalidRange)
  else if second.start ≠ second.stop then some (.rejected .selectionNotEmpty)
  else if !isWellFormedUtf16 second.utf16Text then some (.rejected .malformedUtf16)
  else
    (splitsSurrogates second.utf16Text second.start second.stop).bind fun split =>
      if split then some (.rejected .surrogateSplit)
      else
        let expectedUnits := utf16 expected
        if expectedUnits.length > second.start then some (.rejected .prefixMismatch)
        else
          (slice second.utf16Text (second.start - expectedUnits.length) second.start).bind
            fun units =>
              if units ≠ expectedUnits then some (.rejected .prefixMismatch)
              else some .boundaryValidated

example :
    let text := utf16 "x😀resume"
    let sample : BoundarySample := ⟨text, 9, 9, ⟨7, true, false, 1⟩, .available⟩
    validateBoundary sample sample "😀resume" = some .boundaryValidated := by decide

section Split
variable {text : List UInt16} {index start stop : Nat}

/-- The units on both sides of an index are read only where there are two. -/
theorem splitsSurrogate_inside (positive : 0 < index) (inside : index < text.length) :
    splitsSurrogate text index =
      some (isHighSurrogate text[index - 1] && isLowSurrogate text[index]) := by
  rw [splitsSurrogate, if_pos ⟨positive, inside⟩, List.getElem?_eq_getElem inside,
    List.getElem?_eq_getElem (by omega : index - 1 < text.length), Option.bind_some]
  cases high : isHighSurrogate text[index - 1]
  · simp
  · simp

theorem splitsSurrogate_total (text : List UInt16) (index : Nat) :
    ∃ split, splitsSurrogate text index = some split := by
  by_cases inside : 0 < index ∧ index < text.length
  · exact ⟨_, splitsSurrogate_inside inside.1 inside.2⟩
  · exact ⟨false, if_neg inside⟩

theorem splitsSurrogate_false_iff :
    splitsSurrogate text index = some false ↔
      ∀ x y, (text.take index).getLast? = some x → (text.drop index).head? = some y →
        ¬ SurrogatePair x y := by
  by_cases inside : 0 < index ∧ index < text.length
  · obtain ⟨positive, inside⟩ := inside
    have before : (text.take index).getLast? = some text[index - 1] := by
      rw [List.getLast?_take, if_neg (by omega),
        List.getElem?_eq_getElem (by omega : index - 1 < text.length), Option.some_or]
    have after : (text.drop index).head? = some text[index] := by
      rw [List.head?_drop, List.getElem?_eq_getElem inside]
    rw [splitsSurrogate_inside positive inside, before, after, Option.some_inj,
      Bool.and_eq_false_iff]
    constructor
    · rintro one_false x y ⟨⟩ ⟨⟩ ⟨high, low⟩
      rw [high, low] at one_false
      simp at one_false
    · intro apart
      have not_pair := apart _ _ rfl rfl
      rw [SurrogatePair, not_and_or, Bool.not_eq_true, Bool.not_eq_true] at not_pair
      exact not_pair
  · rw [splitsSurrogate, if_neg inside]
    refine ⟨fun _ x y at_last at_head => ?_, fun _ => rfl⟩
    rw [List.head?_drop] at at_head
    obtain ⟨inside_text, _⟩ := List.getElem?_eq_some_iff.mp at_head
    have zero : index = 0 := by omega
    rw [zero, List.take_zero] at at_last
    cases at_last

theorem splitsSurrogate_between (front back : String) :
    splitsSurrogate (utf16 front ++ utf16 back) (utf16 front).length = some false := by
  rw [splitsSurrogate_false_iff, List.drop_left]
  intro x y _ at_head joined
  rw [SurrogatePair, head_not_low at_head] at joined
  exact absurd joined.2 Bool.false_ne_true

theorem splitsSurrogates_total (text : List UInt16) (start stop : Nat) :
    ∃ split, splitsSurrogates text start stop = some split := by
  obtain ⟨at_start, start_split⟩ := splitsSurrogate_total text start
  obtain ⟨at_stop, stop_split⟩ := splitsSurrogate_total text stop
  rw [splitsSurrogates, start_split, stop_split]
  cases at_start
  · exact ⟨at_stop, rfl⟩
  · exact ⟨true, rfl⟩

theorem splitsSurrogates_caret (text : List UInt16) (caret : Nat) :
    splitsSurrogates text caret caret = splitsSurrogate text caret := by
  obtain ⟨split, at_caret⟩ := splitsSurrogate_total text caret
  rw [splitsSurrogates, at_caret]
  cases split <;> rfl

end Split

section Validate
variable {first second : BoundarySample} {expected : String}

/-- What both samples have to agree on, and what has to be true of the control. -/
structure Sampled (first second : BoundarySample) : Prop where
  first_available : first.status = .available
  second_available : second.status = .available
  same_text : first.utf16Text = second.utf16Text
  same_start : first.start = second.start
  same_stop : first.stop = second.stop
  same_control : first.control = second.control
  supported : second.control.supported = true
  not_secure : second.control.secure = false

/-- The expected text stands right before the caret. -/
def AtCaret (sample : BoundarySample) (expected : String) : Prop :=
  ∃ p s : String, sample.utf16Text = utf16 (p ++ expected ++ s) ∧
    sample.start = (utf16 (p ++ expected)).length ∧ sample.stop = (utf16 (p ++ expected)).length

structure CaretChecks (sample : BoundarySample) (expected : String) : Prop where
  bounds : sample.start ≤ sample.utf16Text.length
  well_formed : isWellFormedUtf16 sample.utf16Text
  apart : splitsSurrogate sample.utf16Text sample.start = some false
  room : (utf16 expected).length ≤ sample.start
  units : (sample.utf16Text.take sample.start).drop (sample.start - (utf16 expected).length) =
    utf16 expected

theorem reject_accepts_iff {check : Prop} [Decidable check] {reason : BoundaryRejection}
    {rest : Option BoundaryValidation} :
    (if check then some (.rejected reason) else rest) = some .boundaryValidated ↔
      ¬ check ∧ rest = some .boundaryValidated := by
  by_cases failed : check
  · simp [failed]
  · simp [failed]

theorem reject_isSome {check : Prop} [Decidable check] {reason : BoundaryRejection}
    {rest : Option BoundaryValidation} (after : ¬ check → rest.isSome) :
    (if check then some (.rejected reason) else rest).isSome := by
  by_cases failed : check
  · rw [if_pos failed]
    rfl
  · rw [if_neg failed]
    exact after failed

/-- No read of a unit or of a range leaves the text. -/
theorem validateBoundary_total (first second : BoundarySample) (expected : String) :
    (validateBoundary first second expected).isSome := by
  obtain ⟨split, caret⟩ := splitsSurrogates_total second.utf16Text second.start second.stop
  unfold validateBoundary
  refine reject_isSome fun _ => reject_isSome fun _ => reject_isSome fun _ => reject_isSome fun _ =>
    reject_isSome fun _ => reject_isSome fun _ => reject_isSome fun bounds => reject_isSome fun _ =>
    reject_isSome fun _ => reject_isSome fun _ => ?_
  rw [caret, Option.bind_some]
  refine reject_isSome fun _ => reject_isSome fun room => ?_
  rw [slice, if_pos (by omega), Option.bind_some]
  exact reject_isSome fun _ => rfl

theorem validateBoundary_checks :
    validateBoundary first second expected = some .boundaryValidated ↔
      Sampled first second ∧ second.start = second.stop ∧ CaretChecks second expected := by
  obtain ⟨split, caret⟩ := splitsSurrogates_total second.utf16Text second.start second.stop
  unfold validateBoundary
  rw [caret, Option.bind_some]
  simp only [reject_accepts_iff, not_or, Decidable.not_not, Bool.not_eq_true', Bool.not_eq_false,
    Bool.not_eq_true]
  constructor
  · rintro ⟨available, _, _, ⟨control, text, start, stop⟩, supported, not_secure, bounds, _, empty,
      well_formed, apart, room, rest⟩
    rw [slice, if_pos (by omega), Option.bind_some, reject_accepts_iff, Decidable.not_not] at rest
    rw [← empty, splitsSurrogates_caret, apart] at caret
    exact ⟨⟨available.1, available.2, text, start, stop, control, supported, not_secure⟩, empty,
      by omega, well_formed, caret, by omega, rest.1⟩
  · rintro ⟨sampled, empty, bounds, well_formed, apart, room, units⟩
    rw [← empty, splitsSurrogates_caret, apart] at caret
    have control := sampled.same_control
    refine ⟨⟨sampled.first_available, sampled.second_available⟩, by rw [control], by rw [control],
      ⟨control, sampled.same_text, sampled.same_start, sampled.same_stop⟩, sampled.supported,
      sampled.not_secure, by omega, by omega, empty, well_formed, (Option.some.inj caret).symm,
      by omega, ?_⟩
    rw [slice, if_pos (by omega), Option.bind_some, reject_accepts_iff, Decidable.not_not]
    exact ⟨units, rfl⟩

theorem utf16_ofList (chars : List Char) :
    utf16 (String.ofList chars) = chars.flatMap encodeUtf16 := by
  rw [utf16, String.toList_ofList]

theorem length_before {p : String} {caret : Nat}
    (at_caret : caret = (utf16 (p ++ expected)).length) :
    caret - (utf16 expected).length = (utf16 p).length := by
  rw [at_caret, utf16_append, List.length_append, Nat.add_sub_cancel]

theorem AtCaret.checks {sample : BoundarySample} (at_caret : AtCaret sample expected) :
    CaretChecks sample expected := by
  obtain ⟨p, s, text, start, _⟩ := at_caret
  have p_length := length_before start
  rw [utf16_append] at text
  have before : sample.utf16Text.take sample.start = utf16 (p ++ expected) := by
    rw [text, start, List.take_left]
  refine ⟨?_, ?_, ?_, ?_, ?_⟩
  · rw [text, start]
    simp
  · rw [isWellFormedUtf16_iff]
    exact ⟨p.toList ++ expected.toList ++ s.toList, by simp [text, utf16]⟩
  · rw [text, start]
    exact splitsSurrogate_between (p ++ expected) s
  · rw [start, utf16_append, List.length_append]
    omega
  · rw [before, p_length, utf16_append, List.drop_left]

theorem CaretChecks.atCaret {sample : BoundarySample} (checks : CaretChecks sample expected)
    (empty : sample.start = sample.stop) : AtCaret sample expected := by
  obtain ⟨chars, text⟩ := (isWellFormedUtf16_iff _).mp checks.well_formed
  have whole : chars.flatMap encodeUtf16 =
      sample.utf16Text.take sample.start ++ sample.utf16Text.drop sample.start := by
    rw [List.take_append_drop, text]
  obtain ⟨before, after, rfl, at_caret, rest⟩ :=
    cut_text whole (splitsSurrogate_false_iff.mp checks.apart)
  have ending : before.flatMap encodeUtf16 =
      (sample.utf16Text.take sample.start).take (sample.start - (utf16 expected).length) ++
        expected.toList.flatMap encodeUtf16 := by
    rw [at_caret]
    exact (List.take_append_drop _ _).symm.trans (congrArg _ checks.units)
  obtain ⟨left, rfl, _⟩ := suffix_text ending
  have before_units : utf16 (String.ofList left ++ expected) =
      sample.utf16Text.take sample.start := by
    rw [utf16_append, utf16_ofList, utf16, ← List.flatMap_append, at_caret]
  have length : sample.start = (utf16 (String.ofList left ++ expected)).length := by
    rw [before_units, List.length_take, min_eq_left checks.bounds]
  refine ⟨String.ofList left, String.ofList after, ?_, length, empty ▸ length⟩
  rw [utf16_append, before_units, utf16_ofList, rest, List.take_append_drop]

/-- A sample is accepted exactly when the expected text ends at the caret of a text. -/
theorem validateBoundary_exact (first second : BoundarySample) (expected : String) :
    (validateBoundary first second expected).isSome ∧
    (validateBoundary first second expected = some .boundaryValidated ↔
      Sampled first second ∧ AtCaret second expected) ∧
    (validateBoundary first second expected = some .boundaryValidated →
      splitsSurrogate second.utf16Text (second.start - (utf16 expected).length) = some false ∧
        splitsSurrogate second.utf16Text second.start = some false) := by
  have exact_accept : validateBoundary first second expected = some .boundaryValidated ↔
      Sampled first second ∧ AtCaret second expected := by
    rw [validateBoundary_checks]
    constructor
    · rintro ⟨sampled, empty, checks⟩
      exact ⟨sampled, checks.atCaret empty⟩
    · rintro ⟨sampled, at_caret⟩
      obtain ⟨p, s, _, start, stop⟩ := id at_caret
      exact ⟨sampled, start.trans stop.symm, at_caret.checks⟩
  refine ⟨validateBoundary_total first second expected, exact_accept, fun accepted => ?_⟩
  have at_caret := (exact_accept.mp accepted).2
  refine ⟨?_, at_caret.checks.apart⟩
  obtain ⟨p, s, text, start, _⟩ := at_caret
  rw [length_before start, text, utf16_append, utf16_append, List.append_assoc, ← utf16_append]
  exact splitsSurrogate_between p (expected ++ s)

end Validate

end ZonKey.Boundary

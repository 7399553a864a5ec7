import ZonKey.DecisionProcessor
import ZonKey.VersionedRuns

set_option autoImplicit false

namespace ZonKey.Diagnostic
open Observe Telex Detect Runs

section Generations

def DiagnosticDecisionProcessor.lastIssued (processor : DiagnosticDecisionProcessor) : Nat :=
  match processor.nextPlanGeneration with
  | some generation => generation.toNat - 1
  | none => u64Max

theorem checkedAddOne_eq (generation : UInt64) :
    (generation.toNat < u64Max ∧ ∃ next, checkedAddOne generation = some next ∧
        next.toNat = generation.toNat + 1) ∨
      (generation.toNat = u64Max ∧ checkedAddOne generation = none) := by
  have small : generation.toNat < 2 ^ 64 := generation.toNat_lt
  unfold checkedAddOne
  by_cases below : generation.toNat < u64Max
  · refine .inl ⟨below, generation + 1, if_pos below, ?_⟩
    simp only [u64Max] at below
    rw [UInt64.toNat_add, show (1 : UInt64).toNat = 1 from rfl]
    omega
  · refine .inr ⟨?_, if_neg below⟩
    simp only [u64Max] at below ⊢
    omega

end Generations

structure RestorePlan.Justified (plan : RestorePlan) : Prop where
  nonempty : plan.originalToken ≠ []
  replacement : plan.replacementToken = plan.originalToken
  rendered : compose plan.originalToken = .ok plan.renderedToken
  changed : plan.renderedToken ≠ plan.originalToken
  known : (builtInDictionaries plan.originalToken).isSome
  unprotected : classifyNeverTransform plan.originalToken = none
  renderedUnits : plan.renderedUnitsToReplace = plan.renderedToken.length
  replacementUnits : plan.replacementUnits = plan.replacementToken.length
  inert : plan.executionAllowed = false

namespace DiagnosticDecisionProcessor

def Passes (processor : DiagnosticDecisionProcessor) : Input → Prop
  | .event event =>
    isInjected event ∨ event.key.modifierValue.isSome ∨ event.kind.isUp ∨ processor.isChorded event
  | .discontinuity => False

structure TokenHolds (telex : TelexEngine) : Prop where
  composes : compose telex.token.rawAscii = .ok telex.token.rendered
  typed : ∀ character ∈ telex.token.rawAscii, isAsciiAlphanumeric character

/-- How an input that is not passed over changes the token, the plan and the generations. -/
inductive Replaced (processor after : DiagnosticDecisionProcessor) : Prop
  | dropped (token : TokenHolds processor.telex → TokenHolds after.telex)
    (plan : after.lastRestorePlan = none)
    (next : after.nextPlanGeneration = processor.nextPlanGeneration)
  | planned (text : List Char) (confidence : Confidence) (reason : DecisionReason)
    (boundary : TokenBoundary) (generation : UInt64)
    (evidence : classify builtInDictionaries
      ⟨processor.token.rawAscii, processor.token.rendered, boundary⟩ =
        .candidate text confidence reason)
    (telex : after.telex = .new)
    (decision : after.lastDecision = some .restoreCandidate)
    (plan : after.lastRestorePlan = some (planFor processor.token text reason generation))
    (available : processor.nextPlanGeneration = some generation)
    (next : after.nextPlanGeneration = checkedAddOne generation)

section Steps
variable {unicode : Segmentation}

theorem tokenHolds_new : TokenHolds .new := ⟨rfl, by simp [TelexEngine.new]⟩

variable (unicode) in
theorem process_boundary_telex (telex : TelexEngine) (boundary : TokenBoundary) :
    (telex.process unicode (.boundary boundary)).2 = .new := by
  cases boundary <;> rfl

theorem isAsciiAlphanumeric_lowercase {letter : Char} (alphabetic : isAsciiAlphabetic letter) :
    isAsciiAlphanumeric (toAsciiLowercase letter) := by
  have ascii : isAscii letter := isAscii_of_alphanumeric (by simp [isAsciiAlphanumeric, alphabetic])
  have all : ∀ n < 128, isAsciiAlphabetic (Char.ofNat n) →
      isAsciiAlphanumeric (toAsciiLowercase (Char.ofNat n)) := by decide
  exact forall_ascii (P := fun c => isAsciiAlphabetic c → isAsciiAlphanumeric (toAsciiLowercase c))
    all ascii alphabetic

theorem characterFor_alphanumeric {event : ObservedInputEvent} {character : Char}
    (typed : characterFor event = some character) : isAsciiAlphanumeric character := by
  have valid := event.key.valid
  unfold characterFor ObservedKey.letterValue ObservedKey.digitValue at typed
  cases kind : event.key.kind with
  | letter value =>
    rw [kind] at valid
    simp only [kind, Option.map_some, Option.some_or, Option.some.injEq] at typed
    split at typed
    · rw [← typed]
      simp only [isAsciiAlphanumeric, Bool.or_eq_true]
      exact .inl valid
    · rw [← typed]
      exact isAsciiAlphanumeric_lowercase valid
  | digit value =>
    rw [kind] at valid
    simp only [kind, Option.map_none, Option.map_some, Option.none_or, Option.some.injEq] at typed
    have all : ∀ digit ≤ 9, isAsciiAlphanumeric (Char.ofNat ('0'.toNat + digit)) := by decide
    rw [← typed]
    exact all value valid
  | space | enter | tab | backspace | escape | punctuation | modifier | other =>
    simp [kind] at typed

variable (unicode) in
theorem process_tokenHolds {telex : TelexEngine} {event : EngineEvent}
    (typed : event = .backspace ∨ ∃ character, event = .character character ∧
      isAsciiAlphanumeric character) (h : TokenHolds telex) :
    TokenHolds (telex.process unicode event).2 := by
  refine ⟨TelexEngine.process_composed unicode event h.composes, ?_⟩
  have processed := TelexEngine.process_processed unicode telex event
  generalize telex.process unicode event = result at processed ⊢
  obtain ⟨answer, after⟩ := result
  cases processed with
  | refused | empty => exact h.typed
  | ended | abandoned => exact tokenHolds_new.typed
  | recomposed _ token raw _ =>
    rcases raw with ⟨_, shorter⟩ | ⟨character, is, _, longer⟩
    · intro other mem
      rw [shorter] at mem
      exact h.typed other (List.dropLast_subset _ mem)
    · rcases typed with back | ⟨key, typed, alphanumeric⟩
      · rw [back] at is
        cases is
      · rw [typed] at is
        cases is
        rw [longer]
        exact all_concat h.typed alphanumeric

theorem updateShortcutState_some (processor : DiagnosticDecisionProcessor)
    {event : ObservedInputEvent} (modifier : event.key.modifierValue.isSome) :
    ∃ after, processor.updateShortcutState event = some after ∧
      after.telex = processor.telex ∧ after.lastDecision = processor.lastDecision ∧
      after.lastRestorePlan = processor.lastRestorePlan ∧
      after.nextPlanGeneration = processor.nextPlanGeneration := by
  obtain ⟨key, held⟩ := Option.isSome_iff_exists.mp modifier
  unfold updateShortcutState
  rw [held]
  cases key <;> exact ⟨_, rfl, rfl, rfl, rfl, rfl⟩

theorem updateShortcutState_none {processor : DiagnosticDecisionProcessor}
    {event : ObservedInputEvent} (plain : event.key.modifierValue = none) :
    processor.updateShortcutState event = none := by
  rw [updateShortcutState, plain]

variable (unicode) in
theorem step_passed {processor : DiagnosticDecisionProcessor} {input : Input}
    (passes : processor.Passes input) :
    (processor.step unicode input).telex = processor.telex ∧
      (processor.step unicode input).lastDecision = processor.lastDecision ∧
      (processor.step unicode input).lastRestorePlan = processor.lastRestorePlan ∧
      (processor.step unicode input).nextPlanGeneration = processor.nextPlanGeneration := by
  cases input with
  | discontinuity => exact absurd passes id
  | event event =>
    simp only [step, process]
    cases injected : isInjected event with
    | true => exact ⟨rfl, rfl, rfl, rfl⟩
    | false =>
      cases modifier : event.key.modifierValue with
      | some key =>
        obtain ⟨after, updated, same⟩ := updateShortcutState_some processor
          (Option.isSome_of_eq_some modifier)
        rw [updated]
        exact same
      | none =>
        rw [updateShortcutState_none modifier]
        simp only [Passes, injected, modifier, Bool.false_eq_true, Option.isSome_none, false_or]
          at passes
        cases up : event.kind.isUp with
        | true => exact ⟨rfl, rfl, rfl, rfl⟩
        | false =>
          rw [up] at passes
          simp only [Bool.false_eq_true, false_or] at passes
          simp [passes]

/-- A boundary ends the token, leaves the modifier flags alone and settles the plan. -/
theorem evaluateBoundary_spec (processor : DiagnosticDecisionProcessor)
    (boundary : TokenBoundary) :
    let after := (processor.evaluateBoundary unicode boundary).1
    after.telex = .new ∧ after.controlDown = processor.controlDown ∧
      after.altDown = processor.altDown ∧ after.metaDown = processor.metaDown ∧
      Replaced processor after := by
  have ended (other : DiagnosticDecisionProcessor) :
      (other.feed unicode (.boundary boundary)).telex = .new :=
    process_boundary_telex unicode other.telex boundary
  have fresh {after : DiagnosticDecisionProcessor} (telex : after.telex = .new) :
      TokenHolds processor.telex → TokenHolds after.telex := by
    rw [telex]
    exact fun _ => tokenHolds_new
  simp only [evaluateBoundary]
  split
  · exact ⟨ended _, rfl, rfl, rfl, .dropped (fresh (ended _)) rfl rfl⟩
  · generalize verdict : decideToken unicode _ boundary = result
    have decided : processor.decideToken unicode boundary = result := verdict
    obtain ⟨evidence, decision⟩ := result
    cases decision with
    | restoreEnglish text confidence reason =>
      have candidate := decide_restoreEnglish (congrArg Prod.snd decided)
      simp only [allocatePlanGeneration, invalidateRestorePlan]
      cases available : processor.nextPlanGeneration with
      | none => exact ⟨ended _, rfl, rfl, rfl, .dropped (fresh (ended _)) rfl available.symm⟩
      | some generation =>
        exact ⟨ended _, rfl, rfl, rfl, .planned text confidence reason boundary generation
          candidate (ended _) rfl rfl available rfl⟩
    | ambiguous confidence reason =>
      exact ⟨ended _, rfl, rfl, rfl, .dropped (fresh (ended _)) rfl rfl⟩
    | keepVietnamese reason =>
      cases evidence <;> exact ⟨ended _, rfl, rfl, rfl, .dropped (fresh (ended _)) rfl rfl⟩

variable (unicode) in
theorem step_replaced {processor : DiagnosticDecisionProcessor} {input : Input}
    (stops : ¬ processor.Passes input) : Replaced processor (processor.step unicode input) := by
  have new {other : TelexEngine} : TokenHolds other → TokenHolds TelexEngine.new :=
    fun _ => tokenHolds_new
  cases input with
  | discontinuity => exact .dropped new rfl rfl
  | event event =>
    simp only [Passes, not_or, Bool.not_eq_true] at stops
    obtain ⟨injected, modifier, up, chorded⟩ := stops
    have plain : event.key.modifierValue = none := by simpa using modifier
    simp only [step, process, injected, updateShortcutState_none plain, up, chorded, plain,
      Bool.false_eq_true, if_false, Option.isSome_none]
    split
    · exact .dropped new rfl rfl
    · split
      · exact .dropped (process_tokenHolds unicode (.inl rfl)) rfl rfl
      · cases boundaryFor event with
        | some boundary => exact (evaluateBoundary_spec processor boundary).2.2.2.2
        | none =>
          cases typed : characterFor event with
          | none => exact .dropped new rfl rfl
          | some character =>
            have keeps : TokenHolds processor.telex →
                TokenHolds (processor.telex.process unicode (.character character)).2 :=
              process_tokenHolds unicode (.inr ⟨character, rfl, characterFor_alphanumeric typed⟩)
            simp only [invalidateRestorePlan]
            generalize processor.telex.process unicode (.character character) = result at keeps
            obtain ⟨answer, telex⟩ := result
            cases answer with
            | ok action => exact .dropped keeps rfl rfl
            | error behavior => exact .dropped new rfl rfl

end Steps

/-- What holds of every reachable processor. -/
structure PlanHolds (processor : DiagnosticDecisionProcessor) : Prop where
  token : TokenHolds processor.telex
  plan : ∀ plan, processor.lastRestorePlan = some plan →
    processor.token = .new ∧ processor.lastDecision = some .restoreCandidate ∧ plan.Justified ∧
      plan.generation.toNat = processor.lastIssued
  next : ∀ generation, processor.nextPlanGeneration = some generation → 0 < generation.toNat

section Runs
variable {unicode : Segmentation}

theorem new_planHolds : PlanHolds new where
  token := tokenHolds_new
  plan plan current := by cases current
  next generation first := by
    cases first
    decide

theorem lastIssued_congr {processor after : DiagnosticDecisionProcessor}
    (next : after.nextPlanGeneration = processor.nextPlanGeneration) :
    after.lastIssued = processor.lastIssued := by
  rw [lastIssued, lastIssued, next]

theorem planFor_justified {token : TokenState} {text : List Char} {confidence : Confidence}
    {reason : DecisionReason} {boundary : TokenBoundary} {generation : UInt64}
    (composes : compose token.rawAscii = .ok token.rendered)
    (evidence : classify builtInDictionaries ⟨token.rawAscii, token.rendered, boundary⟩ =
      .candidate text confidence reason) :
    (planFor token text reason generation).Justified := by
  obtain ⟨rfl, nonempty, _, plain, changed, known, found, _, _⟩ := classify_candidate evidence
  exact {
    nonempty := nonempty
    replacement := rfl
    rendered := composes
    changed := Ne.symm changed
    known := by simp only [planFor, found, Option.isSome_some]
    unprotected := plain
    renderedUnits := rfl
    replacementUnits := rfl
    inert := rfl }

theorem lastIssued_planned {processor after : DiagnosticDecisionProcessor} {generation : UInt64}
    (h : processor.PlanHolds) (available : processor.nextPlanGeneration = some generation)
    (next : after.nextPlanGeneration = checkedAddOne generation) :
    processor.lastIssued < after.lastIssued ∧ generation.toNat = after.lastIssued := by
  have positive := h.next generation available
  have before : processor.lastIssued = generation.toNat - 1 := by rw [lastIssued, available]
  rcases checkedAddOne_eq generation with ⟨_, more, some, value⟩ | ⟨last, none⟩
  · have issued : after.lastIssued = more.toNat - 1 := by rw [lastIssued, next, some]
    omega
  · have issued : after.lastIssued = u64Max := by rw [lastIssued, next, none]
    omega

theorem step_planHolds {processor : DiagnosticDecisionProcessor} (h : processor.PlanHolds)
    (input : Input) : (processor.step unicode input).PlanHolds := by
  by_cases passes : processor.Passes input
  · obtain ⟨telex, decision, plan, next⟩ := step_passed unicode passes
    refine ⟨?_, fun current shown => ?_, fun generation some => ?_⟩
    · rw [telex]
      exact h.token
    · rw [plan] at shown
      rw [token, telex, decision, lastIssued_congr next]
      exact h.plan current shown
    · rw [next] at some
      exact h.next generation some
  · have replaced := step_replaced unicode passes
    generalize processor.step unicode input = after at replaced
    cases replaced with
    | dropped token plan next =>
      refine ⟨token h.token, fun current shown => ?_, fun generation some => ?_⟩
      · rw [plan] at shown
        cases shown
      · rw [next] at some
        exact h.next generation some
    | planned text confidence reason boundary generation evidence telex decision plan available
        next =>
      have issued := (lastIssued_planned h available next).2
      refine ⟨?_, fun current shown => ?_, fun following some => ?_⟩
      · rw [telex]
        exact tokenHolds_new
      · rw [plan] at shown
        cases shown
        refine ⟨?_, decision, planFor_justified h.token.composes evidence, issued⟩
        rw [token, telex]
        rfl
      · rw [next] at some
        rcases checkedAddOne_eq generation with ⟨_, more, is, value⟩ | ⟨_, none⟩
        · rw [is] at some
          cases some
          omega
        · rw [none] at some
          cases some

theorem step_versioned (unicode : Segmentation) :
    Versioned (step unicode) PlanHolds Passes lastRestorePlan
      (fun plan => plan.generation.toNat) lastIssued where
  keeps _ input h := step_planHolds h input
  current _ plan h current := (h.plan plan current).2.2.2
  passed processor input _ passes := by
    obtain ⟨_, _, plan, next⟩ := step_passed unicode passes
    exact ⟨plan, lastIssued_congr next⟩
  other processor input h stops := by
    have replaced := step_replaced unicode stops
    generalize processor.step unicode input = after at replaced ⊢
    cases replaced with
    | dropped _ plan next => exact .inl ⟨plan, lastIssued_congr next⟩
    | planned _ _ _ _ _ _ _ _ plan available next =>
      exact .inr ⟨by rw [plan]; rfl, (lastIssued_planned h available next).1⟩

theorem run_planHolds (inputs : List Input) : PlanHolds (run (step unicode) new inputs) :=
  run_keeps PlanHolds (fun _ input h => step_planHolds h input) new_planHolds inputs

/-- In every reachable state the token and a current plan are as they should be; one more input
leaves a current plan in place exactly if it is passed over; of two plans met on a run the
second is the first one, passed over all the way, or has a greater generation; and after
generation `u64::MAX` there is no other plan. -/
theorem run_plan_lifecycle (unicode : Segmentation) (inputs later : List Input) :
    let processor := run (step unicode) new inputs
    let after := run (step unicode) processor later
    (compose processor.token.rawAscii = .ok processor.token.rendered ∧
        ∀ character ∈ processor.token.rawAscii, isAsciiAlphanumeric character) ∧
      (∀ plan, processor.lastRestorePlan = some plan →
        processor.token.isEmpty ∧ processor.lastDecision = some .restoreCandidate ∧
          plan.Justified ∧
          (∀ input, (processor.step unicode input).lastRestorePlan = some plan ↔
            processor.Passes input) ∧
          (∀ other, after.lastRestorePlan = some other →
            (AllSteps (step unicode) Passes processor later ∧ other = plan) ∨
              plan.generation < other.generation) ∧
          (plan.generation.toNat = u64Max → ∀ other, after.lastRestorePlan = some other →
            AllSteps (step unicode) Passes processor later ∧ other = plan)) := by
  intro processor after
  have holds : processor.PlanHolds := run_planHolds inputs
  have versioned := step_versioned unicode
  refine ⟨⟨holds.token.composes, holds.token.typed⟩, fun plan current => ?_⟩
  obtain ⟨ended, decision, justified, _⟩ := holds.plan plan current
  have younger (other : RestorePlan) (shown : after.lastRestorePlan = some other) :=
    versioned.passed_or_younger holds current shown
  refine ⟨TokenState.isEmpty_iff_new.mpr ended, decision, justified, fun input => ?_,
    younger, fun last other shown => ?_⟩
  · have again := versioned.held_again_iff holds [input] current
    simpa only [run_cons, run_nil, AllSteps, and_true] using again
  · rcases younger other shown with same | more
    · exact same
    · have small := other.generation.toNat_lt
      simp only [last, u64Max] at more
      omega

end Runs
end DiagnosticDecisionProcessor
end ZonKey.Diagnostic

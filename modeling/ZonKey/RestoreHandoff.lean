import ZonKey.RestorePlans
import ZonKey.Transport

set_option autoImplicit false

namespace ZonKey.Diagnostic
open Observe Telex Detect Runs Transport

inductive PlanIneligibilityReason where
  | noCurrentPlan
  | internalSpanInconsistent
  | executionCapabilityPresent
  deriving DecidableEq, Repr

inductive PlanEligibility where
  | eligibleForFutureExecutionConsideration
  | ineligible (reason : PlanIneligibilityReason)
  deriving DecidableEq, Repr

def validateRestorePlan (plan : Option RestorePlan) : PlanEligibility :=
  match plan with
  | none => .ineligible .noCurrentPlan
  | some plan =>
    if plan.executionAllowed then .ineligible .executionCapabilityPresent
    else if plan.originalToken.isEmpty || plan.replacementToken.isEmpty ||
        plan.renderedUnitsToReplace ≠ plan.renderedToken.length ||
        plan.replacementUnits ≠ plan.replacementToken.length then
      .ineligible .internalSpanInconsistent
    else .eligibleForFutureExecutionConsideration

structure RestorePlanHandoff where
  renderedToken : List Char
  replacementToken : List Char
  renderedUnitsToReplace : Nat
  replacementUnits : Nat
  reason : DecisionReason
  generation : UInt64
  simulationOnly : Bool
  deriving DecidableEq

inductive HandoffStaleReason where
  | noCurrentPlan
  | differentGeneration
  | malformedSnapshot
  deriving DecidableEq, Repr

inductive HandoffRevalidation where
  | current
  | stale (reason : HandoffStaleReason)
  deriving DecidableEq, Repr

inductive InternalGateRejection where
  | noCurrentPlan
  | planIneligible
  | noCurrentHandoff
  | handoffStale
  | handoffMalformed
  | generationMismatch
  | internalSpanInconsistent
  | simulationInvariantBroken
  deriving DecidableEq, Repr

inductive InternalExecutionGate where
  | passedForExternalValidation
  | rejected (reason : InternalGateRejection)
  deriving DecidableEq, Repr

inductive HandoffRequestError where
  | noCurrentPlan
  | staleHandoff
  | generationMismatch
  | malformedSpan
  | internalGateFailed
  deriving DecidableEq, Repr

/-- `RestorePlanHandoff` as captured from a plan. -/
def RestorePlan.handoff (plan : RestorePlan) : RestorePlanHandoff where
  renderedToken := plan.renderedToken
  replacementToken := plan.replacementToken
  renderedUnitsToReplace := plan.renderedUnitsToReplace
  replacementUnits := plan.replacementUnits
  reason := plan.reason
  generation := plan.generation
  simulationOnly := true

def RestorePlanHandoff.isMalformed (handoff : RestorePlanHandoff) : Bool :=
  handoff.renderedToken.isEmpty || handoff.replacementToken.isEmpty ||
    handoff.renderedUnitsToReplace ≠ handoff.renderedToken.length ||
    handoff.replacementUnits ≠ handoff.replacementToken.length

def RestorePlanHandoff.request (handoff : RestorePlanHandoff) : HandoffRequest where
  requestId := "handoff-" ++ toString handoff.generation
  renderedToken := .ofList handoff.renderedToken
  replacementToken := .ofList handoff.replacementToken
  renderedUnits := handoff.renderedUnitsToReplace
  replacementUnits := handoff.replacementUnits
  generation := handoff.generation

namespace DiagnosticDecisionProcessor

def planEligibility (processor : DiagnosticDecisionProcessor) : PlanEligibility :=
  validateRestorePlan processor.lastRestorePlan

def currentRestoreHandoff (processor : DiagnosticDecisionProcessor) : Option RestorePlanHandoff :=
  if processor.planEligibility ≠ .eligibleForFutureExecutionConsideration then none
  else processor.lastRestorePlan.map RestorePlan.handoff

def revalidateRestoreHandoff (processor : DiagnosticDecisionProcessor)
    (handoff : RestorePlanHandoff) : HandoffRevalidation :=
  match processor.lastRestorePlan with
  | none => .stale .noCurrentPlan
  | some plan =>
    if !handoff.simulationOnly || handoff.isMalformed then .stale .malformedSnapshot
    else if processor.planEligibility ≠ .eligibleForFutureExecutionConsideration then
      .stale .noCurrentPlan
    else if handoff.generation ≠ plan.generation || handoff.renderedToken ≠ plan.renderedToken ||
        handoff.replacementToken ≠ plan.replacementToken ||
        handoff.renderedUnitsToReplace ≠ plan.renderedUnitsToReplace ||
        handoff.replacementUnits ≠ plan.replacementUnits || handoff.reason ≠ plan.reason then
      .stale .differentGeneration
    else .current

def evaluateInternalExecutionGate (processor : DiagnosticDecisionProcessor)
    (handoff : RestorePlanHandoff) : InternalExecutionGate :=
  if processor.planEligibility ≠ .eligibleForFutureExecutionConsideration then
    .rejected .planIneligible
  else
    match processor.currentRestoreHandoff with
    | none => .rejected .noCurrentHandoff
    | some current =>
      if !handoff.simulationOnly then .rejected .simulationInvariantBroken
      else
        match processor.revalidateRestoreHandoff handoff with
        | .current =>
          if current.generation = handoff.generation then .passedForExternalValidation
          else .rejected .generationMismatch
        | .stale .noCurrentPlan => .rejected .noCurrentPlan
        | .stale .differentGeneration => .rejected .generationMismatch
        | .stale .malformedSnapshot => .rejected .handoffMalformed

/-- `build_host_request` of `transport.rs`. -/
def buildHostRequest (processor : DiagnosticDecisionProcessor) (submitted : RestorePlanHandoff) :
    Except HandoffRequestError HandoffRequest :=
  if processor.currentRestoreHandoff.isNone then .error .noCurrentPlan
  else
    match processor.evaluateInternalExecutionGate submitted with
    | .rejected reason =>
      .error (match reason with
        | .noCurrentPlan | .planIneligible => .noCurrentPlan
        | .noCurrentHandoff | .handoffStale => .staleHandoff
        | .generationMismatch => .generationMismatch
        | .handoffMalformed | .internalSpanInconsistent => .malformedSpan
        | .simulationInvariantBroken => .internalGateFailed)
    | .passedForExternalValidation =>
      if submitted.isMalformed then .error .malformedSpan else .ok submitted.request

section Current

theorem composed_token_ne_nil {plan : RestorePlan} (h : plan.Justified) :
    plan.renderedToken ≠ [] := by
  rw [compose_ok h.rendered]
  exact composed_ne_nil h.nonempty

theorem handoff_not_malformed {plan : RestorePlan} (h : plan.Justified) :
    plan.handoff.isMalformed = false := by
  simp [RestorePlanHandoff.isMalformed, RestorePlan.handoff, h.renderedUnits, h.replacementUnits,
    composed_token_ne_nil h, h.replacement, h.nonempty]

theorem handoff_injective {plan other : RestorePlan} (h : plan.Justified) (o : other.Justified)
    (same : other.handoff = plan.handoff) : other = plan := by
  have original := h.replacement
  have others := o.replacement
  have inert := h.inert
  have also := o.inert
  cases plan
  cases other
  simp only [RestorePlan.handoff, RestorePlanHandoff.mk.injEq, and_true] at same
  obtain ⟨rfl, rfl, rfl, rfl, rfl, rfl⟩ := same
  simp only at original others inert also
  simp only [RestorePlan.mk.injEq, and_true, true_and]
  exact ⟨others.symm.trans original, also.trans inert.symm⟩

theorem justified_eligible {plan : RestorePlan} (h : plan.Justified) :
    validateRestorePlan (some plan) = .eligibleForFutureExecutionConsideration := by
  simp [validateRestorePlan, h.inert, h.renderedUnits, h.replacementUnits, h.replacement,
    h.nonempty]

variable {processor : DiagnosticDecisionProcessor}

theorem currentRestoreHandoff_eq (holds : processor.PlanHolds) :
    processor.currentRestoreHandoff = processor.lastRestorePlan.map RestorePlan.handoff := by
  unfold currentRestoreHandoff planEligibility
  cases current : processor.lastRestorePlan with
  | none => simp [validateRestorePlan]
  | some plan => simp [justified_eligible (holds.plan plan current).2.2.1]

theorem revalidate_current_iff {plan : RestorePlan} (justified : plan.Justified)
    (current : processor.lastRestorePlan = some plan) (handoff : RestorePlanHandoff) :
    processor.revalidateRestoreHandoff handoff = .current ↔ handoff = plan.handoff := by
  simp only [revalidateRestoreHandoff, planEligibility, current, justified_eligible justified]
  constructor
  · intro passed
    split_ifs at passed with malformed eligible different
    simp only [Bool.or_eq_true, not_or, decide_eq_true_eq, ne_eq, not_not, Bool.not_eq_true',
      Bool.not_eq_false] at malformed different
    obtain ⟨⟨⟨⟨⟨generation, rendered⟩, replacement⟩, units⟩, others⟩, reason⟩ := different
    cases handoff
    simp_all [RestorePlan.handoff]
  · rintro rfl
    simp [handoff_not_malformed justified]
    simp [RestorePlan.handoff]

theorem gate_passed_iff (holds : processor.PlanHolds) (handoff : RestorePlanHandoff) :
    processor.evaluateInternalExecutionGate handoff = .passedForExternalValidation ↔
      processor.currentRestoreHandoff = some handoff := by
  unfold evaluateInternalExecutionGate
  rw [currentRestoreHandoff_eq holds]
  cases current : processor.lastRestorePlan with
  | none => simp [planEligibility, current, validateRestorePlan]
  | some plan =>
    have justified := (holds.plan plan current).2.2.1
    have eligible : processor.planEligibility = .eligibleForFutureExecutionConsideration := by
      rw [planEligibility, current, justified_eligible justified]
    have passes := revalidate_current_iff justified current handoff
    simp only [eligible, ne_eq, not_true_eq_false, if_false, Option.map_some, Option.some.injEq]
    rw [@eq_comm _ plan.handoff, ← passes]
    constructor
    · intro passed
      cases revalidated : processor.revalidateRestoreHandoff handoff with
      | current => rfl
      | stale reason =>
        rw [revalidated] at passed
        cases reason <;> split at passed <;> cases passed
    · intro now
      rw [now]
      rw [passes.mp now]
      simp [RestorePlan.handoff]

theorem build_ok_iff (holds : processor.PlanHolds) (handoff : RestorePlanHandoff)
    (request : HandoffRequest) :
    processor.buildHostRequest handoff = .ok request ↔
      processor.currentRestoreHandoff = some handoff ∧ request = handoff.request := by
  rw [← gate_passed_iff holds]
  unfold buildHostRequest
  constructor
  · intro built
    split at built
    · cases built
    · split at built
      · cases built
      · rename_i gate
        split at built
        · cases built
        · cases built
          exact ⟨gate, rfl⟩
  · rintro ⟨gate, rfl⟩
    have now := (gate_passed_iff holds handoff).mp gate
    rw [gate, now]
    rw [currentRestoreHandoff_eq holds, Option.map_eq_some_iff] at now
    obtain ⟨plan, current, rfl⟩ := now
    simp [handoff_not_malformed (holds.plan plan current).2.2.1]

end Current

def KeepsPlan (unicode : Segmentation) (processor : DiagnosticDecisionProcessor) (input : Input) :
    Prop :=
  (processor.step unicode input).lastRestorePlan = processor.lastRestorePlan

theorem held_iff_kept {unicode : Segmentation} {processor : DiagnosticDecisionProcessor}
    (holds : processor.PlanHolds) {plan : RestorePlan}
    (current : processor.lastRestorePlan = some plan) (later : List Input) :
    (run (step unicode) processor later).lastRestorePlan = some plan ↔
      AllSteps (step unicode) (KeepsPlan unicode) processor later := by
  constructor
  · intro again
    have passes := ((step_versioned unicode).held_again_iff holds later current).mp again
    refine allSteps_of_split fun before input after split => ?_
    rw [split] at passes
    exact (step_passed unicode passes.at).2.2.1
  · intro kept
    induction later generalizing processor with
    | nil => exact current
    | cons input rest ih =>
      exact ih (step_planHolds holds input) (kept.1.trans current) kept.2

/-- A handoff makes a request exactly if it is the current one, which is when the gate passes it;
and one captured on the way makes a request later exactly if every input in between left the plan
as it was. -/
theorem run_handoff_exact (unicode : Segmentation) (inputs later : List Input) :
    let processor := run (step unicode) new inputs
    let after := run (step unicode) processor later
    (∀ handoff,
      ((∃ request, processor.buildHostRequest handoff = .ok request) ↔
          processor.currentRestoreHandoff = some handoff) ∧
        (processor.currentRestoreHandoff = some handoff ↔
          processor.evaluateInternalExecutionGate handoff = .passedForExternalValidation) ∧
        ∀ request, processor.buildHostRequest handoff = .ok request →
          request.requestId = "handoff-" ++ toString handoff.generation ∧
            request.renderedToken = .ofList handoff.renderedToken ∧
            request.replacementToken = .ofList handoff.replacementToken ∧
            request.renderedUnits = handoff.renderedUnitsToReplace ∧
            request.replacementUnits = handoff.replacementUnits ∧
            request.generation = handoff.generation) ∧
      ∀ handoff, processor.currentRestoreHandoff = some handoff →
        ((∃ request, after.buildHostRequest handoff = .ok request) ↔
          AllSteps (step unicode) (KeepsPlan unicode) processor later) := by
  intro processor after
  have holds : processor.PlanHolds := run_planHolds inputs
  have later_holds : after.PlanHolds :=
    run_keeps PlanHolds (fun _ input h => step_planHolds h input) holds later
  have built {now : DiagnosticDecisionProcessor} (h : now.PlanHolds) (handoff : RestorePlanHandoff) :
      (∃ request, now.buildHostRequest handoff = .ok request) ↔
        now.currentRestoreHandoff = some handoff := by
    simp only [build_ok_iff h, exists_and_left, exists_eq, and_true]
  refine ⟨fun handoff => ⟨built holds handoff, (gate_passed_iff holds handoff).symm, ?_⟩, ?_⟩
  · intro request accepted
    rw [((build_ok_iff holds handoff request).mp accepted).2]
    exact ⟨rfl, rfl, rfl, rfl, rfl, rfl⟩
  · intro handoff captured
    rw [built later_holds]
    rw [currentRestoreHandoff_eq holds, Option.map_eq_some_iff] at captured
    obtain ⟨plan, current, rfl⟩ := captured
    rw [← held_iff_kept holds current, currentRestoreHandoff_eq later_holds,
      Option.map_eq_some_iff]
    constructor
    · rintro ⟨other, shown, same⟩
      rw [shown, handoff_injective (holds.plan plan current).2.2.1
        (later_holds.plan other shown).2.2.1 same]
    · intro again
      exact ⟨plan, again, rfl⟩

end DiagnosticDecisionProcessor
end ZonKey.Diagnostic

import ZonKey.ObserveService
import ZonKey.RecoveryPolicy
import ZonKey.TelexEngine

set_option autoImplicit false

/-!
# The diagnostic decision processor

`DiagnosticDecisionProcessor` of `zonkey-service`: observed keys go to the Telex
engine, a boundary key has the finished token classified, and a token worth
restoring leaves a restore plan behind. What is printed is left out.
-/
namespace ZonKey.Diagnostic
open Observe Telex Detect

inductive DiagnosticDecision where
  | keep
  | restoreCandidate
  | ambiguous
  | unsupported
  deriving DecidableEq, Repr

structure RestorePlan where
  originalToken : List Char
  renderedToken : List Char
  replacementToken : List Char
  renderedUnitsToReplace : Nat
  replacementUnits : Nat
  reason : DecisionReason
  executionAllowed : Bool
  generation : UInt64
  deriving DecidableEq

structure DiagnosticDecisionProcessor where
  telex : TelexEngine
  context : InputContext
  completedTokens : Nat
  resets : Nat
  injectedEvents : Nat
  controlDown : Bool
  altDown : Bool
  metaDown : Bool
  lastTokenLengths : Option (Nat × Nat)
  lastDecision : Option DiagnosticDecision
  lastRestorePlan : Option RestorePlan
  nextPlanGeneration : Option UInt64

/-- `checked_add(1)`. -/
def checkedAddOne (generation : UInt64) : Option UInt64 :=
  if generation.toNat < u64Max then some (generation + 1) else none

namespace DiagnosticDecisionProcessor

def new : DiagnosticDecisionProcessor where
  telex := .new
  context := .writing
  completedTokens := 0
  resets := 0
  injectedEvents := 0
  controlDown := false
  altDown := false
  metaDown := false
  lastTokenLengths := none
  lastDecision := none
  lastRestorePlan := none
  nextPlanGeneration := some 1

def token (processor : DiagnosticDecisionProcessor) : TokenState := processor.telex.token

def allocatePlanGeneration (processor : DiagnosticDecisionProcessor) :
    Option UInt64 × DiagnosticDecisionProcessor :=
  match processor.nextPlanGeneration with
  | none => (none, processor)
  | some generation =>
    (some generation, { processor with nextPlanGeneration := checkedAddOne generation })

def resetToken (processor : DiagnosticDecisionProcessor) : DiagnosticDecisionProcessor :=
  { processor with telex := .new }

def invalidateRestorePlan (processor : DiagnosticDecisionProcessor) :
    DiagnosticDecisionProcessor :=
  { processor with lastRestorePlan := none }

/-- The flags after a modifier key; `none` for every other key. -/
def updateShortcutState (processor : DiagnosticDecisionProcessor) (event : ObservedInputEvent) :
    Option DiagnosticDecisionProcessor :=
  match event.key.modifierValue with
  | none => none
  | some modifier =>
    let active := !event.kind.isUp
    some (match modifier with
      | .control => { processor with controlDown := active }
      | .alt => { processor with altDown := active }
      | .metaKey => { processor with metaDown := active }
      | .shift => processor)

def boundaryFor (event : ObservedInputEvent) : Option TokenBoundary :=
  if event.key.isSpace then some .space
  else if event.key.isEnter then some .enter
  else if event.key.isTab then some .tab
  else event.key.punctuationValue.map .punctuation

def resetAfterDiscontinuity (processor : DiagnosticDecisionProcessor) :
    DiagnosticDecisionProcessor :=
  { processor with
    telex := .new
    lastRestorePlan := none
    controlDown := false
    altDown := false
    metaDown := false
    resets := saturatingSucc processor.resets }

variable (unicode : Segmentation)

def feed (processor : DiagnosticDecisionProcessor) (event : EngineEvent) :
    DiagnosticDecisionProcessor :=
  { processor with telex := (processor.telex.process unicode event).2 }

def decideToken (processor : DiagnosticDecisionProcessor) (boundary : TokenBoundary) :
    LexicalEvidence × RecoveryDecision :=
  let evidence := classify builtInDictionaries
    ⟨processor.token.rawAscii, processor.token.rendered, boundary⟩
  (evidence,
    (SafePolicy.decide unicode evidence processor.context processor.token.rendered).decision)

def planFor (token : TokenState) (text : List Char) (reason : DecisionReason)
    (generation : UInt64) : RestorePlan where
  originalToken := token.rawAscii
  renderedToken := token.rendered
  replacementToken := text
  renderedUnitsToReplace := token.rendered.length
  replacementUnits := text.length
  reason := reason
  executionAllowed := false
  generation := generation

def finishToken (processor : DiagnosticDecisionProcessor) (decision : DiagnosticDecision) :
    DiagnosticDecisionProcessor :=
  { processor with
    completedTokens := saturatingSucc processor.completedTokens
    lastDecision := some decision }

def evaluateBoundary (processor : DiagnosticDecisionProcessor) (boundary : TokenBoundary) :
    DiagnosticDecisionProcessor × ProcessorClassification :=
  let token := processor.token
  let processor := processor.invalidateRestorePlan
  if token.rawAscii.isEmpty && token.rendered.isEmpty then
    (processor.feed unicode (.boundary boundary), .boundaryObserved)
  else
    let processor := { processor with
      lastTokenLengths := some (utf8Length token.rawAscii, utf8Length token.rendered) }
    match processor.decideToken unicode boundary with
    | (_, .restoreEnglish text _ reason) =>
      match processor.allocatePlanGeneration with
      | (none, processor) =>
        ({ processor with
            lastRestorePlan := none, lastDecision := some .ambiguous }.feed unicode
              (.boundary boundary), .boundaryObserved)
      | (some generation, processor) =>
        ({ processor with lastRestorePlan := some (planFor token text reason generation) }
            |>.finishToken .restoreCandidate |>.feed unicode (.boundary boundary),
          .boundaryObserved)
    | (_, .ambiguous _ _) =>
      (processor.finishToken .ambiguous |>.feed unicode (.boundary boundary), .boundaryObserved)
    | (.unsupported, .keepVietnamese _) =>
      (processor.finishToken .unsupported |>.feed unicode (.boundary boundary), .boundaryObserved)
    | (_, .keepVietnamese _) =>
      (processor.finishToken .keep |>.feed unicode (.boundary boundary), .boundaryObserved)

def characterFor (event : ObservedInputEvent) : Option Char :=
  (event.key.letterValue.map fun value =>
    if event.modifiers.shift then value else toAsciiLowercase value).or
  (event.key.digitValue.map fun value => Char.ofNat ('0'.toNat + value))

def isInjected (event : ObservedInputEvent) : Bool :=
  event.injectionOrigin = .markedInjected || event.injectionOrigin = .lowerIntegrityInjected

def isChorded (processor : DiagnosticDecisionProcessor) (event : ObservedInputEvent) : Bool :=
  event.modifiers.control || event.modifiers.alt || event.modifiers.metaKey ||
    processor.controlDown || processor.altDown || processor.metaDown

def process (processor : DiagnosticDecisionProcessor) (event : ObservedInputEvent) :
    DiagnosticDecisionProcessor × ProcessorClassification :=
  if isInjected event then
    ({ processor with injectedEvents := saturatingSucc processor.injectedEvents }, .ignored)
  else
    match processor.updateShortcutState event with
    | some processor => (processor, .ignored)
    | none =>
      if event.kind.isUp then (processor, .ignored)
      else if processor.isChorded event then (processor, .ignored)
      else if event.key.modifierValue.isSome then (processor, .ignored)
      else if event.key.isEscape then (processor.resetToken.invalidateRestorePlan, .ignored)
      else if event.key.isBackspace then
        (processor.invalidateRestorePlan.feed unicode .backspace, .observed)
      else
        match boundaryFor event with
        | some boundary => processor.evaluateBoundary unicode boundary
        | none =>
          match characterFor event with
          | none => (processor.resetToken.invalidateRestorePlan, .unsupported)
          | some character =>
            let processor := processor.invalidateRestorePlan
            match processor.telex.process unicode (.character character) with
            | (.ok _, telex) => ({ processor with telex := telex }, .observed)
            | (.error _, telex) =>
              ({ processor with telex := telex }.resetToken.invalidateRestorePlan, .unsupported)

def eventProcessor : EventProcessor ObservedInputEvent DiagnosticDecisionProcessor where
  resetAfterDiscontinuity := resetAfterDiscontinuity
  process := process unicode

/-- What the service hands to the processor. -/
inductive Input where
  | event (event : ObservedInputEvent)
  | discontinuity

def step (processor : DiagnosticDecisionProcessor) : Input → DiagnosticDecisionProcessor
  | .event event => (processor.process unicode event).1
  | .discontinuity => processor.resetAfterDiscontinuity

end DiagnosticDecisionProcessor
end ZonKey.Diagnostic

import ZonKey.HeardKeys
import ZonKey.JsDecimalText
import ZonKey.OperatorChecks

set_option autoImplicit false

namespace ZonKey.Host

theorem positiveSafeInteger_large {n : Nat} (large : JsNumber.maxSafeInteger < n) :
    positiveSafeInteger (JsNumber.numeral n) = none := by
  have digits : JsNumber.DigitText (JsNumber.numeral n) := fun _ mem => JsNumber.numeral_digit mem
  rw [positiveSafeInteger, (digits.ofText (JsNumber.readDigits_numeral n)).1,
    JsNumber.nearest_unsafe large]
  rfl

theorem Presentable.reads {request : Transport.HandoffRequest} (h : Presentable request) :
    parseHandoffPayload (utf16 (Pipe.handoffPayload request)) =
      if request.renderedUnits ≤ JsNumber.maxSafeInteger ∧
          request.replacementUnits ≤ JsNumber.maxSafeInteger ∧
          request.generation.toNat ≤ JsNumber.maxSafeInteger then
        .current {
          requestId := utf16 request.requestId
          renderedToken := utf16 request.renderedToken
          replacementToken := utf16 request.replacementToken
          renderedUnits := request.renderedUnits
          replacementUnits := request.replacementUnits
          generation := request.generation.toNat }
      else .unavailable := by
  by_cases safe : request.renderedUnits ≤ JsNumber.maxSafeInteger ∧
      request.replacementUnits ≤ JsNumber.maxSafeInteger ∧
      request.generation.toNat ≤ JsNumber.maxSafeInteger
  · rw [if_pos safe, h.parsed safe.2.2 safe.1 safe.2.1]
  · have split : ([0x7c].intercalate (payloadFields request)).splitOn 0x7c =
        payloadFields request :=
      List.splitOn_intercalate 0x7c h.bar_not_mem (by simp [payloadFields])
    rw [if_neg safe, utf16_handoffPayload, parseHandoffPayload_fields, split, payloadFields,
      parseHandoffFields]
    by_cases rendered : request.renderedUnits ≤ JsNumber.maxSafeInteger
    · by_cases replacement : request.replacementUnits ≤ JsNumber.maxSafeInteger
      · have generation : JsNumber.maxSafeInteger < request.generation.toNat := by
          rw [← Nat.not_le]
          exact fun small => safe ⟨rendered, replacement, small⟩
        rw [positiveSafeInteger_large generation]
        cases positiveSafeInteger (JsNumber.numeral request.renderedUnits) with
        | none => rfl
        | some => cases positiveSafeInteger (JsNumber.numeral request.replacementUnits) <;> rfl
      · rw [positiveSafeInteger_large (Nat.lt_of_not_le replacement)]
        cases positiveSafeInteger (JsNumber.numeral request.renderedUnits) <;> rfl
    · rw [positiveSafeInteger_large (Nat.lt_of_not_le rendered)]

end ZonKey.Host

namespace ZonKey.Native
open Observe Telex Diagnostic Runs Transport Pipe Host DiagnosticDecisionProcessor

/-- `{error:?}`. -/
def debugText : HandoffRequestError → String
  | .noCurrentPlan => "NoCurrentPlan"
  | .staleHandoff => "StaleHandoff"
  | .generationMismatch => "GenerationMismatch"
  | .malformedSpan => "MalformedSpan"
  | .internalGateFailed => "InternalGateFailed"

/-- `SharedDecisionState::current_handoff_request`; no thread panics with the lock held. -/
def currentHandoffRequest (processor : DiagnosticDecisionProcessor) :
    Except HandoffRequestError HandoffRequest :=
  match processor.currentRestoreHandoff with
  | none => .error .noCurrentPlan
  | some handoff => processor.buildHostRequest handoff

/-- The provider of `run_handoff_live`. -/
def liveProvider (processor : DiagnosticDecisionProcessor) : Except String HandoffRequest :=
  (currentHandoffRequest processor).mapError debugText

/-- The provider of `run_serve_host_validation`. -/
def validationProvider (processor : DiagnosticDecisionProcessor) : Except String HandoffRequest :=
  match processor.currentRestoreHandoff with
  | none => .error "NoCurrentPlan"
  | some handoff => (processor.buildHostRequest handoff).mapError debugText

theorem validationProvider_eq (processor : DiagnosticDecisionProcessor) :
    validationProvider processor = liveProvider processor := by
  unfold validationProvider liveProvider currentHandoffRequest
  cases processor.currentRestoreHandoff <;> rfl

section Answers

def offeredRequest (offer : Option OfferedWord) : Option HandoffRequest :=
  (offer.bind OfferedWord.plan).map fun plan => plan.handoff.request

def offerAnswer (offer : Option OfferedWord) : String :=
  match offeredRequest offer with
  | none => "handoff-rejected:NoCurrentPlan"
  | some request => handoffPayload request

/-- What the host makes of the answer. -/
def offerReading (offer : Option OfferedWord) : HandoffQuery :=
  match offeredRequest offer with
  | none => .none
  | some request =>
    if request.renderedUnits ≤ JsNumber.maxSafeInteger ∧
        request.replacementUnits ≤ JsNumber.maxSafeInteger ∧
        request.generation.toNat ≤ JsNumber.maxSafeInteger then
      .current {
        requestId := utf16 request.requestId
        renderedToken := utf16 request.renderedToken
        replacementToken := utf16 request.replacementToken
        renderedUnits := request.renderedUnits
        replacementUnits := request.replacementUnits
        generation := request.generation.toNat }
    else .unavailable

variable {processor : DiagnosticDecisionProcessor} {buffer : WordBuffer}

theorem liveProvider_eq (holds : processor.PlanHolds) (tracks : processor.Tracks buffer) :
    liveProvider processor =
      match offeredRequest buffer.offer with
      | none => .error "NoCurrentPlan"
      | some request => .ok request := by
  unfold liveProvider currentHandoffRequest offeredRequest
  have current := currentRestoreHandoff_eq holds
  rw [tracks.plan] at current
  cases offered : buffer.offer.bind OfferedWord.plan with
  | none =>
    rw [offered] at current
    rw [current]
    rfl
  | some plan =>
    rw [offered] at current
    have built := (build_ok_iff holds plan.handoff plan.handoff.request).mpr ⟨current, rfl⟩
    rw [current]
    simp only [Option.map_some, built]
    rfl

theorem liveProvider_ok (holds : processor.PlanHolds) (request : HandoffRequest) :
    liveProvider processor = .ok request ↔
      ∃ plan, processor.lastRestorePlan = some plan ∧ request = plan.handoff.request := by
  unfold liveProvider currentHandoffRequest
  rw [currentRestoreHandoff_eq holds]
  cases current : processor.lastRestorePlan with
  | none =>
    constructor
    · intro answered
      cases answered
    · rintro ⟨plan, shown, _⟩
      cases shown
  | some plan =>
    have built := (build_ok_iff holds plan.handoff plan.handoff.request).mpr
      ⟨by rw [currentRestoreHandoff_eq holds, current]; rfl, rfl⟩
    simp only [Option.map_some, built]
    constructor
    · intro answered
      cases answered
      exact ⟨plan, rfl, rfl⟩
    · rintro ⟨_, shown, rfl⟩
      cases shown
      rfl

/-- Of two handoffs on a run the second is the first one or has a greater generation, and
its id says which. -/
theorem handoffs_numbered (unicode : Segmentation) (holds : processor.PlanHolds)
    (inputs : List Input) {first second : HandoffRequest}
    (offered : liveProvider processor = .ok first)
    (again : liveProvider (run (DiagnosticDecisionProcessor.step unicode) processor inputs) =
      .ok second) :
    (second = first ∨ first.generation < second.generation) ∧
      (second.requestId = first.requestId ↔ second = first) := by
  have later : PlanHolds (run (DiagnosticDecisionProcessor.step unicode) processor inputs) :=
    run_keeps PlanHolds (fun _ input h => step_planHolds h input) holds inputs
  obtain ⟨plan, current, rfl⟩ := (liveProvider_ok holds first).mp offered
  obtain ⟨other, shown, rfl⟩ := (liveProvider_ok later second).mp again
  have younger : other = plan ∨ plan.generation < other.generation :=
    ((step_versioned unicode).passed_or_younger holds current shown).imp And.right id
  refine ⟨younger.imp (congrArg fun plan : RestorePlan => plan.handoff.request) id, ?_,
    congrArg _⟩
  intro same
  have numbers : toString other.generation = toString plan.generation :=
    (String.append_right_inj _).mp same
  have generation : other.generation = plan.generation :=
    Option.some.inj (by rw [← parseU64_toString, numbers, parseU64_toString])
  rcases younger with rfl | less
  · rfl
  · rw [generation] at less
    exact absurd less (UInt64.lt_irrefl _)

theorem handoffText_live (holds : processor.PlanHolds) (tracks : processor.Tracks buffer) :
    handoffText (some (liveProvider processor)) = offerAnswer buffer.offer := by
  rw [liveProvider_eq holds tracks]
  unfold offerAnswer
  cases offeredRequest buffer.offer with
  | none => rfl
  | some request => rfl

theorem reads_offerAnswer (typed : processor.PlanTyped) (tracks : processor.Tracks buffer) :
    parseHandoffPayload (utf16 (offerAnswer buffer.offer)) = offerReading buffer.offer := by
  unfold offerAnswer offerReading offeredRequest
  cases offered : buffer.offer.bind OfferedWord.plan with
  | none =>
    have narrow : ("handoff-rejected:NoCurrentPlan".toList.all fun c =>
      decide (c.toNat < 0x10000)) = true := rfl
    have text : utf16 "handoff-rejected:NoCurrentPlan" = js "handoff-rejected:NoCurrentPlan" :=
      utf16_narrow fun c mem => of_decide_eq_true (List.all_eq_true.mp narrow c mem)
    simp only [Option.map_none, text]
    exact if_pos rfl
  | some plan =>
    exact (plan_presentable typed (tracks.plan.trans offered)).reads

end Answers

theorem watch_inputs (unicode : Segmentation) (watch : Watch) (deliveries : List Delivery) :
    ∃ inputs, (run (Watch.step unicode) watch deliveries).processor =
      run (DiagnosticDecisionProcessor.step unicode) watch.processor inputs := by
  induction deliveries generalizing watch with
  | nil => exact ⟨[], rfl⟩
  | cons delivery rest ih =>
    obtain ⟨inputs, same⟩ := ih (watch.step unicode delivery)
    have first : ∃ input : List Input, (watch.step unicode delivery).processor =
        run (DiagnosticDecisionProcessor.step unicode) watch.processor input := by
      cases delivery with
      | discontinuity => exact ⟨[.discontinuity], rfl⟩
      | native native =>
        unfold Watch.step
        dsimp only
        cases mapNativeEvent native watch.tracker with
        | none => exact ⟨[], rfl⟩
        | some result => exact ⟨[.event result.1], rfl⟩
    obtain ⟨input, stepped⟩ := first
    refine ⟨input ++ inputs, ?_⟩
    rw [run_cons, same, stepped, run_append]

structure LiveEndpoint where
  observer : LiveObserver DiagnosticDecisionProcessor
  server : PipeServer

/-- A step on the observer's side, or a frame with what becomes of the writes for it. -/
inductive LiveMove where
  | observe (step : LiveStep)
  | frame (firstWrite secondWrite delivery : Bool) (payload : String)

def LiveMove.step : LiveMove → Option LiveStep
  | .observe step => some step
  | .frame .. => none

namespace LiveEndpoint

def start (session : String) (recovery : Option Store.DurableRecoveryStore) : LiveEndpoint :=
  ⟨.start .new, gateServer session recovery⟩

def processor (live : LiveEndpoint) : DiagnosticDecisionProcessor := live.observer.state.2

/-- A frame that arrives now. -/
def frame (live : LiveEndpoint) (firstWrite secondWrite delivery : Bool) (payload : String) :
    GateFrame :=
  ⟨some (liveProvider live.processor), firstWrite, secondWrite, delivery, payload⟩

def next (unicode : Segmentation) (live : LiveEndpoint) : LiveMove → LiveEndpoint
  | .observe step => { live with observer := live.observer.step (eventProcessor unicode) step }
  | .frame firstWrite secondWrite delivery payload =>
    { live with
        server := live.server.next (live.frame firstWrite secondWrite delivery payload).arrival }

def observed (moves : List LiveMove) : List LiveStep := moves.filterMap LiveMove.step

section Queries
variable {unicode : Segmentation} {live : LiveEndpoint}

theorem run_observer (live : LiveEndpoint) (moves : List LiveMove) :
    (run (next unicode) live moves).observer =
      run (LiveObserver.step (eventProcessor unicode)) live.observer (observed moves) := by
  induction moves generalizing live with
  | nil => rfl
  | cons move rest ih =>
    rw [run_cons, ih]
    cases move with
    | observe step => rfl
    | frame => rfl

theorem processor_typed (unicode : Segmentation) (session : String)
    (recovery : Option Store.DurableRecoveryStore) (moves : List LiveMove) :
    (run (next unicode) (start session recovery) moves).processor.PlanTyped := by
  obtain ⟨heard, held, _⟩ := LiveObserver.run_heard unicode (observed moves)
  obtain ⟨inputs, same⟩ := watch_inputs unicode .start (heard.map .native)
  have reached : (run (next unicode) (start session recovery) moves).processor =
      (run (Watch.step unicode) .start (heard.map .native)).processor := by
    rw [processor, run_observer]
    exact congrArg Watch.processor held.watch
  rw [reached, same]
  exact run_planTyped inputs

/-- However the hook, the observer and the clients interleave, a handoff query is answered
with the word that the heard keys offer at that moment, and the host reads it so; the heard
keys are a part of the hook's calls in their order, and all of them but the ones still queued
if none was refused. -/
theorem live_handoff (unicode : Segmentation) (session : String)
    (recovery : Option Store.DurableRecoveryStore) (moves : List LiveMove) :
    let live := run (next unicode) (start session recovery) moves
    ∃ heard,
      ((heard ++ live.observer.bridge.events).map NativeKeyboardEvent.hookCall).Sublist
        (hookCalls (observed moves)) ∧
      (AllSteps (LiveObserver.step (eventProcessor unicode)) LiveObserver.Accepts (.start .new)
          (observed moves) →
        (heard ++ live.observer.bridge.events).map NativeKeyboardEvent.hookCall =
          hookCalls (observed moves)) ∧
      let offer := (run KeyWatch.hear .start heard).buffer.offer
      parseHandoffPayload (utf16 (offerAnswer offer)) = offerReading offer ∧
      ∀ firstWrite secondWrite delivery asked, live.server.sessionOk asked = true →
        (live.server.report
            (live.frame firstWrite secondWrite delivery ("HANDOFF|" ++ asked)).arrival).sent =
          some ("RESULT|DEFINITE|" ++ offerAnswer offer) ∧
        live.next unicode (.frame firstWrite secondWrite delivery ("HANDOFF|" ++ asked)) = live := by
  intro live
  have observer : live.observer = run (LiveObserver.step (eventProcessor unicode)) (.start .new)
      (observed moves) := run_observer _ moves
  obtain ⟨heard, held, sub, whole⟩ := LiveObserver.run_heard unicode (observed moves)
  rw [← observer] at held sub whole
  have typed : live.processor.PlanTyped := processor_typed unicode session recovery moves
  have tracks : live.processor.Tracks (run KeyWatch.hear .start heard).buffer := by
    have watched : live.processor =
        (run (Watch.step unicode) .start (heard.map .native)).processor :=
      congrArg Watch.processor held.watch
    rw [watched]
    exact LiveObserver.heard_tracks unicode heard
  refine ⟨heard, sub, whole, reads_offerAnswer typed tracks, ?_⟩
  intro firstWrite secondWrite delivery asked own
  have served := serveFrame_handoff
    (live.frame firstWrite secondWrite delivery ("HANDOFF|" ++ asked)) rfl own
  have answered := congrArg (fun result => FrameReport.sent (Prod.fst result)) served
  have unchanged := congrArg Prod.snd served
  refine ⟨?_, ?_⟩
  · rw [← handoffText_live typed.holds tracks]
    exact answered
  · exact congrArg (LiveEndpoint.mk live.observer) unchanged

/-- Whatever happens in between, the handoffs of an endpoint are numbered: of two of them the
later one is the same or has a greater generation, and the same id stands for the same handoff. -/
theorem live_handoff_ids (unicode : Segmentation) (session : String)
    (recovery : Option Store.DurableRecoveryStore) (moves later : List LiveMove) :
    let live := run (next unicode) (start session recovery) moves
    let after := run (next unicode) live later
    ∀ first second, liveProvider live.processor = .ok first →
      liveProvider after.processor = .ok second →
      (second = first ∨ first.generation < second.generation) ∧
        (second.requestId = first.requestId ↔ second = first) := by
  intro live after first second offered again
  have observer : live.observer = run (LiveObserver.step (eventProcessor unicode)) (.start .new)
      (observed moves) := run_observer _ moves
  obtain ⟨heard, held, _⟩ := LiveObserver.run_heard unicode (observed moves)
  rw [← observer] at held
  obtain ⟨more, after_held⟩ := LiveObserver.run_hears_more held (observed later)
  rw [← run_observer live later] at after_held
  -- what is heard after `live` reaches the processor as it is there
  have watched : after.processor = (run (Watch.step unicode)
      ⟨live.observer.source.tracker, live.processor⟩ (more.map .native)).processor := by
    have joined := congrArg Watch.processor after_held.watch
    rw [List.map_append, run_append, ← held.watch] at joined
    exact joined
  obtain ⟨inputs, same⟩ := watch_inputs unicode
    ⟨live.observer.source.tracker, live.processor⟩ (more.map .native)
  rw [watched, same] at again
  exact handoffs_numbered unicode (processor_typed unicode session recovery moves).holds inputs
    offered again

def resumeMoves : List LiveMove :=
  [0x52, 0x45, 0x53, 0x55, 0x4d, 0x45, 0x20].flatMap fun key =>
    [.observe (.callback 0x100 key 0 true), .observe (.poll true)]

def secondPlan : RestorePlan := { resumePlan with generation := 2 }

theorem resume_heard :
    let typed := run (next scalarSegmentation) (start "session" none) resumeMoves
    typed.processor.lastRestorePlan = some resumePlan ∧
      (run (next scalarSegmentation) typed resumeMoves).processor.lastRestorePlan =
        some secondPlan := by
  decide +kernel

theorem live_handoff_ids_resume :
    (secondPlan.handoff.request = resumePlan.handoff.request ∨
        resumePlan.handoff.request.generation < secondPlan.handoff.request.generation) ∧
      (secondPlan.handoff.request.requestId = resumePlan.handoff.request.requestId ↔
        secondPlan.handoff.request = resumePlan.handoff.request) := by
  have typed := processor_typed scalarSegmentation "session" none resumeMoves
  have again := processor_typed scalarSegmentation "session" none (resumeMoves ++ resumeMoves)
  rw [run_append] at again
  exact live_handoff_ids scalarSegmentation "session" none resumeMoves resumeMoves _ _
    ((liveProvider_ok typed.holds _).mpr ⟨resumePlan, resume_heard.1, rfl⟩)
    ((liveProvider_ok again.holds _).mpr ⟨secondPlan, resume_heard.2, rfl⟩)

end Queries
end LiveEndpoint
end ZonKey.Native

import ZonKey.CompositionGate
import ZonKey.JsonWire
import ZonKey.PipeClientCalls
import ZonKey.ProbeCommand

set_option autoImplicit false

/-!
# The operator's check of the current handoff

`checkCurrentHandoff` of `extension.ts` asks the endpoint for the handoff,
captures it in the active editor, and sends the captured request back to the
endpoint, which turns it down. Each check runs on a connection in step: the
answer to a call is the one that the endpoint gave to it, unless it is lost.
-/
namespace ZonKey.Host
open Pipe Transport Runs

def SnapshotRefusalReason.name : SnapshotRefusalReason → String
  | noActiveEditor => "NoActiveEditor"
  | multiSelection => "MultiSelection"
  | multipleEditors => "MultipleEditors"
  | selectionNotEmpty => "SelectionNotEmpty"
  | rangeInvalid => "RangeInvalid"
  | candidateMismatch => "CandidateMismatch"

/-- `/^[A-Za-z][A-Za-z0-9]*$/`. -/
def isReasonName (name : String) : Bool :=
  match name.toList with
  | [] => false
  | first :: rest => first.isAlpha && rest.all Char.isAlphanum

def describeOperatorResult (result : String) : String :=
  match (stripPrefix "DEFINITE|rejected:" result).filter isReasonName with
  | some name => "Rejected(" ++ name ++ ")"
  | none =>
    if (stripPrefix "AMBIGUOUS|" result).isSome then "Indeterminate"
    else "Unexpected transport result"

inductive CheckBegun where
  | labelled (label : String)
  | requesting (request : CompareAndReplaceRequest)

/-- `none` is a query that rejects. -/
def beginCheck (binding : HostBinding) (handoffPayload : Option String) : CheckBegun :=
  match handoffPayload with
  | none => .labelled "CurrentHandoffUnavailable"
  | some payload =>
    match parseHandoffPayload (utf16 payload) with
    | .none => .labelled "NoCurrentHandoff"
    | .unavailable => .labelled "CurrentHandoffUnavailable"
    | .current handoff =>
      match captureSnapshot binding ⟨handoff.renderedToken, handoff.replacementToken⟩ with
      | .error reason => .labelled ("SnapshotRefused(" ++ reason.name ++ ")")
      | .ok snapshot => .requesting (requestFromSnapshot snapshot handoff.requestId)

/-- What the client sends; the separators between the fields pair with no surrogate. -/
def requestCall (numberText : Rat → JsString) (request : CompareAndReplaceRequest) : CallKind :=
  .request (utf8Text request.requestId) (utf8Text request.composition.name)
    (utf8Text (canonicalJson numberText request.toJs))

/-- One check: the window, the provider of the handoff, which of the two answers
arrive, and the document once the second one is there. -/
structure OperatorCheck where
  env : VsEnv
  window : VsWindow
  handoff : Option (Except String HandoffRequest)
  queryArrives : Bool
  resultArrives : Bool
  documentAfter : TextDocument

/-- A call of the client that waits for its own answer; `none` is a call that rejects. -/
def callServer (session : String) (handoff : Option (Except String HandoffRequest))
    (arrives : Bool) (kind : CallKind) (server : PipeServer) : Option String × PipeServer :=
  match encodeFrame (kind.payload session) with
  | .error _ => (none, server)
  | .ok _ =>
    let frame : GateFrame := ⟨handoff, true, true, arrives, kind.payload session⟩
    ((server.report frame.arrival).response.bind fun text => (kind.settle text).toOption,
      server.next frame.arrival)

namespace OperatorCheck

/-- Every check creates a binding of its own. -/
def binding (check : OperatorCheck) : HostBinding := RealBinding.create.read check.env check.window

def finish (check : OperatorCheck) (result : Option String) : String :=
  match result with
  | none => "RequestResultUnavailable"
  | some result =>
    if check.binding.activeEditor.any fun editor =>
        check.documentAfter.text ≠ editor.document.text ||
          check.documentAfter.version ≠ editor.document.version then "DocumentChanged"
    else describeOperatorResult result

def perform (numberText : Rat → JsString) (session : String) (server : PipeServer)
    (check : OperatorCheck) : String × PipeServer :=
  let (payload, server) := callServer session check.handoff check.queryArrives .handoffQuery server
  match beginCheck check.binding payload with
  | .labelled label => (label, server)
  | .requesting request =>
    let (result, server) :=
      callServer session check.handoff check.resultArrives (requestCall numberText request) server
    (check.finish result, server)

def performAll (numberText : Rat → JsString) (session : String) :
    PipeServer → List OperatorCheck → List String
  | _, [] => []
  | server, check :: rest =>
    (check.perform numberText session server).1 ::
      performAll numberText session (check.perform numberText session server).2 rest

end OperatorCheck

/-- The shipped endpoint once a client has said hello. -/
def greeted (session : String) (recovery : Option Store.DurableRecoveryStore) : PipeServer :=
  (gateServer session recovery).next
    (GateFrame.arrival ⟨none, true, true, true, "HELLO|" ++ transportProtocolId⟩)

section Expected
variable (numberText : Rat → JsString) (session : String)

instance (text : String) : Decidable (Fits text) := inferInstanceAs (Decidable (_ ≤ _))

def handoffText (handoff : Option (Except String HandoffRequest)) : String :=
  match handoff with
  | some (.ok request) => handoffPayload request
  | some (.error reason) => "handoff-rejected:" ++ reason
  | none => "handoff-unavailable"

/-- The answer to the query of a check, if it arrives. -/
def OperatorCheck.payload (check : OperatorCheck) : Option String :=
  if check.queryArrives ∧ Fits ("HANDOFF|" ++ session) ∧
      Fits ("RESULT|DEFINITE|" ++ handoffText check.handoff) then some (handoffText check.handoff)
  else none

/-- The endpoint as a memory of requests: the first one under an id is turned down
because the composition is not known, and so is the same one again, but another one
under the id is not what the label expects. -/
def remembered (earlier : List CompareAndReplaceRequest) (request : CompareAndReplaceRequest) :
    String :=
  if (earlier.find? fun first => first.requestId = request.requestId).all (· = request) then
    "DEFINITE|rejected:CompositionUnknown"
  else "DEFINITE|request_id_reuse"

/-- The memory holds the first request under each id, and forgets the oldest of 256. -/
def remember (earlier : List CompareAndReplaceRequest) (request : CompareAndReplaceRequest) :
    List CompareAndReplaceRequest :=
  match earlier.find? fun first => first.requestId = request.requestId with
  | some _ => earlier
  | none => if earlier.length < 256 then earlier ++ [request] else earlier.tail ++ [request]

/-- A check against the memory, and what the memory holds after it. -/
def OperatorCheck.expected (earlier : List CompareAndReplaceRequest) (check : OperatorCheck) :
    String × List CompareAndReplaceRequest :=
  match beginCheck check.binding (check.payload session) with
  | .labelled label => (label, earlier)
  | .requesting request =>
    if Fits ((requestCall numberText request).payload session) then
      (check.finish (if check.resultArrives then some (remembered earlier request) else none),
        remember earlier request)
    else (check.finish none, earlier)

def expectedAll : List CompareAndReplaceRequest → List OperatorCheck → List String
  | _, [] => []
  | earlier, check :: rest =>
    (check.expected numberText session earlier).1 ::
      expectedAll (check.expected numberText session earlier).2 rest

end Expected
end ZonKey.Host

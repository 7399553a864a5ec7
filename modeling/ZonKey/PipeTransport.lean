import ZonKey.RecoveryStore
import ZonKey.Transport

set_option autoImplicit false

/-!
# The pipe server

`serve_connection` of `pipe_transport.rs`, one decoded frame at a time. What
the handler, the handoff provider, the durable writes and the delivery of the
answer do is the environment of the frame.
-/
namespace ZonKey.Pipe
open RecoveryCodec Recovery Store Transport

def stripPrefix (start text : String) : Option String :=
  (start.toList.isPrefixOf? text.toList).map String.ofList

def split (text : String) : List String := (text.toList.splitOn '|').map String.ofList

def splitnChars : Nat → List Char → List (List Char)
  | 0, _ => []
  | 1, chars => [chars]
  | count + 2, chars =>
    match chars.span (· ≠ '|') with
    | (first, []) => [first]
    | (first, _ :: rest) => first :: splitnChars (count + 1) rest

/-- `str::splitn(count, '|')`. -/
def splitn (count : Nat) (text : String) : List String :=
  (splitnChars count text.toList).map String.ofList

/-- `str::parse` at `u64`, and at `usize` of a 64-bit target. -/
def parseU64 (text : String) : Option UInt64 :=
  let digits := match text.toList with
    | '+' :: rest => rest
    | chars => chars
  if digits = [] ∨ ¬ digits.all (·.isDigit) then none
  else
    let value := digits.foldl (fun acc digit => 10 * acc + (digit.toNat - '0'.toNat)) 0
    if value < 2 ^ 64 then some (.ofNat value) else none

structure Request where
  session : String
  requestId : String
  composition : String
  canonical : String

def parseRequest (payload : String) : Option Request :=
  match splitn 4 payload with
  | [session, requestId, composition, canonical] =>
    if session = "" ∨ requestId = "" ∨ canonical = "" then none
    else some ⟨session, requestId, composition, canonical⟩
  | _ => none

structure DescriptorRequest where
  session : String
  descriptor : RecoveryDescriptor
  composition : String
  canonical : String

def parseDescriptorRequest (payload : String) : Option DescriptorRequest :=
  match splitn 11 payload with
  | [session, requestId, composition, uri, start, stop, expected, replacement, generation,
      documentEpoch, canonical] => do
    let start ← parseU64 start
    let stop ← parseU64 stop
    let generation ← parseU64 generation
    let documentEpoch ← parseU64 documentEpoch
    if session = "" ∨ requestId = "" ∨ composition = "" ∨ uri = "" ∨ expected = "" ∨
        replacement = "" ∨ canonical = "" ∨ stop < start then none
    else
      some ⟨session, ⟨requestId, uri, (start, stop), expected, replacement, generation,
        documentEpoch⟩, composition, canonical⟩
  | _ => none

inductive RecoveryCommand where
  | list
  | block (uri expected replacement : String) (range : UInt64 × UInt64)
  | reconcile (uri expected : String) (documentEpoch : UInt64) (live : String)
  | ack (uri expected : String) (documentEpoch : UInt64)

/-- The live text may contain the separator and is joined again. -/
def parseReconcile : List String → Option RecoveryCommand
  | uri :: expected :: epoch :: live :: tail => do
    let documentEpoch ← parseU64 epoch
    if uri = "" ∨ expected = "" ∨ live = "" then none
    else
      some (.reconcile uri expected documentEpoch
        (if tail.isEmpty then live else live ++ "|" ++ String.intercalate "|" tail))
  | _ => none

/-- The fields behind the session; `BLOCK` and `ACK` ignore what follows theirs. -/
def parseCommand : List String → Option RecoveryCommand
  | "LIST" :: _ => some .list
  | "BLOCK" :: uri :: expected :: replacement :: start :: stop :: _ => do
    let start ← parseU64 start
    let stop ← parseU64 stop
    some (.block uri expected replacement (start, stop))
  | "RECONCILE" :: fields => parseReconcile fields
  | "ACK" :: uri :: expected :: epoch :: _ => do
    let documentEpoch ← parseU64 epoch
    some (.ack uri expected documentEpoch)
  | _ => none

section Debug

def codecErrorName : RecoveryCodecError → String
  | .truncated => "Truncated"
  | .badMagic => "BadMagic"
  | .unknownVersion => "UnknownVersion"
  | .tooManyEntries => "TooManyEntries"
  | .oversizedFile => "OversizedFile"
  | .oversizedRecord => "OversizedRecord"
  | .malformed => "Malformed"
  | .checksumMismatch => "ChecksumMismatch"
  | .encodeOverflow => "EncodeOverflow"

def recoveryErrorName : RecoveryError → String
  | .unknownTarget => "UnknownTarget"
  | .sessionMismatch => "SessionMismatch"
  | .ackBeforeReconcile => "AckBeforeReconcile"
  | .registryFull => "RegistryFull"
  | .epochMismatch => "EpochMismatch"

def verdictName : RecoveryVerdict → String
  | .appliedAcknowledged => "AppliedAcknowledged"
  | .notApplied => "NotApplied"
  | .conflictHumanReview => "ConflictHumanReview"

end Debug

def mapStoreError : RecoveryStoreError → String
  | .stateUnreadable code => "recovery-error:StateUnreadable:" ++ codecErrorName code
  | .unavailable => "recovery-error:StateUnavailable"
  | .writeFailed => "recovery-error:StateWriteFailed"
  | .registry reason => "recovery-error:" ++ recoveryErrorName reason

def listText (targets : List BlockedTarget) : String :=
  if targets.isEmpty then "recovery-list|0"
  else
    let awaiting := targets.countP fun target => target.state.isNone
    let resolved := targets.countP fun target => target.state.isSome
    "recovery-list|" ++ toString (awaiting + resolved) ++ "|awaiting=" ++ toString awaiting ++
      "|resolved=" ++ toString resolved

def replyText {τ : Type} (ok : τ → String) : Except RecoveryStoreError τ → String
  | .ok result => ok result
  | .error error => mapStoreError error

def performCommand (durable : Bool) (session : String) (store : DurableRecoveryStore) :
    RecoveryCommand → String × DurableRecoveryStore
  | .list => (replyText listText store.list, store)
  | .block uri expected replacement range =>
    (store.block durable session uri expected replacement range).map
      (replyText fun _ => "recovery-blocked") id
  | .reconcile uri expected epoch live =>
    (store.reconcile durable session uri expected epoch live).map
      (replyText fun verdict => "recovery-verdict:" ++ verdictName verdict) id
  | .ack uri expected epoch =>
    (store.acknowledge durable session uri expected epoch).map
      (replyText fun _ => "recovery-acked") id

/-- The environment of one frame: the durable writes are those of the
preflight or command, and of the resolution after the delivery. -/
structure FrameEnvironment where
  handler : String → String → String → LedgerOutcome
  handoff : Option (Except String HandoffRequest)
  firstWrite : Bool
  secondWrite : Bool
  delivery : Bool

structure PipeServer where
  sessionId : String
  endpoint : HostTransportEndpoint
  recovery : Option DurableRecoveryStore

structure Execution where
  requestId : String
  composition : String
  canonical : String
  descriptor : Option RecoveryDescriptor
  outcome : LedgerOutcome

/-- What a frame led to: the payload handed to `write_frame`, whether it was
delivered, the handler run if there was one, and whether the connection stays. -/
structure FrameReport where
  sent : Option String
  delivered : Bool
  executed : Option Execution
  keepsOpen : Bool

/-- `write_frame`: the frame limit first, then the pipe. -/
def writeFrame (env : FrameEnvironment) (payload : String) : Bool :=
  match encodeFrame payload with
  | .ok _ => env.delivery
  | .error _ => false

def answer (env : FrameEnvironment) (payload : String) (executed : Option Execution) : FrameReport :=
  let delivered := writeFrame env payload
  ⟨some payload, delivered, executed, delivered⟩

def dropped : FrameReport := ⟨none, false, none, false⟩

def outcomePayload : LedgerOutcome → String
  | .definite text => "RESULT|DEFINITE|" ++ text
  | .ambiguous text => "RESULT|AMBIGUOUS|" ++ text

def handoffPayload (request : HandoffRequest) : String :=
  "handoff:" ++ request.requestId ++ "|" ++ request.renderedToken ++ "|" ++
    request.replacementToken ++ "|" ++ toString request.renderedUnits ++ "|" ++
    toString request.replacementUnits ++ "|" ++ toString request.generation

namespace PipeServer
variable (env : FrameEnvironment) (server : PipeServer)

def sessionOk (session : String) : Bool := (server.endpoint.checkSession session).toBool

def handleRecoveryCommand (command : String) : String × PipeServer :=
  match split command with
  | [] => ("recovery-error:MalformedCommand", server)
  | session :: fields =>
    if ¬ server.sessionOk session then ("recovery-error:SessionMismatch", server)
    else
      match server.recovery with
      | none => ("recovery-error:RecoveryUnavailable", server)
      | some store =>
        match parseCommand fields with
        | none => ("recovery-error:MalformedCommand", server)
        | some command =>
          (performCommand env.firstWrite session store command).map id fun store =>
            { server with recovery := some store }

/-- The handler runs only behind a durable preflight; the intent stays open. -/
def executeDescriptorRequest (request : DescriptorRequest) :
    LedgerOutcome × Option Execution × PipeServer :=
  let d := request.descriptor
  match server.recovery with
  | none => (.definite "rejected:RecoveryUnavailable", none, server)
  | some store =>
    if store.targetBlocked d.uri d.expected then
      (.definite "rejected:TargetBlocked", none, server)
    else
      match store.beginPending env.firstWrite d with
      | (.error _, store) =>
        (.definite "rejected:RecoveryPreflightFailed", none, { server with recovery := some store })
      | (.ok _, store) =>
        let outcome := env.handler d.requestId request.composition request.canonical
        let endpoint :=
          (server.endpoint.recordWithRecovery d.requestId request.canonical outcome).2
        (outcome, some ⟨d.requestId, request.composition, request.canonical, some d, outcome⟩,
          { server with endpoint, recovery := some store })

def uncertain : LedgerOutcome → Bool
  | .ambiguous _ => true
  | .definite text => (stripPrefix "rejected:" text).isNone

/-- The result of the store is ignored, and so is a failed write. -/
def resolvePending (session requestId : String) (outcome : LedgerOutcome) : PipeServer :=
  { server with recovery := server.recovery.map fun store =>
      if uncertain outcome then (store.promotePending env.secondWrite session requestId).2
      else (store.clearPending env.secondWrite requestId).2 }

def promoteAfterLoss (session requestId : String) : PipeServer :=
  { server with recovery := server.recovery.map fun store =>
      (store.promotePending env.secondWrite session requestId).2 }

def serveFresh (request : DescriptorRequest) : FrameReport × PipeServer :=
  let requestId := request.descriptor.requestId
  let (outcome, executed, served) := server.executeDescriptorRequest env request
  let report := answer env (outcomePayload outcome) executed
  if report.delivered then (report, served.resolvePending env request.session requestId outcome)
  else (report, served.promoteAfterLoss env request.session requestId)

def serveDescriptorRequest (payload : String) : FrameReport × PipeServer :=
  match parseDescriptorRequest payload with
  | none => (dropped, server)
  | some request =>
    if ¬ server.sessionOk request.session then (answer env "ERROR|session_mismatch" none, server)
    else
      match server.endpoint.classifyRequest request.descriptor.requestId request.canonical with
      | .duplicate recorded => (answer env (outcomePayload recorded) none, server)
      | .conflict => (answer env (outcomePayload (.definite "request_id_reuse")) none, server)
      | .fresh => server.serveFresh env request

def serveRequest (payload : String) : FrameReport × PipeServer :=
  match parseRequest payload with
  | none => (dropped, server)
  | some request =>
    if ¬ server.sessionOk request.session then (answer env "ERROR|session_mismatch" none, server)
    else
      match server.endpoint.classifyRequest request.requestId request.canonical with
      | .duplicate recorded => (answer env (outcomePayload recorded) none, server)
      | .conflict => (answer env (outcomePayload (.definite "request_id_reuse")) none, server)
      | .fresh =>
        let outcome := env.handler request.requestId request.composition request.canonical
        let endpoint := (server.endpoint.record request.requestId request.canonical outcome).2
        (answer env (outcomePayload outcome)
          (some ⟨request.requestId, request.composition, request.canonical, none, outcome⟩),
          { server with endpoint })

def serveHello (protocol : String) : FrameReport × PipeServer :=
  match server.endpoint.acceptHello protocol server.sessionId with
  | (.ok _, endpoint) =>
    (answer env ("WELCOME|" ++ server.sessionId) none, { server with endpoint })
  | (.error _, endpoint) =>
    ({ answer env "ERROR|protocol_mismatch" none with keepsOpen := false }, { server with endpoint })

def serveHandoff (session : String) : FrameReport :=
  if ¬ server.sessionOk session then answer env "ERROR|session_mismatch" none
  else
    let text := match env.handoff with
      | some (.ok request) => handoffPayload request
      | some (.error reason) => "handoff-rejected:" ++ reason
      | none => "handoff-unavailable"
    answer env ("RESULT|DEFINITE|" ++ text) none

def serveRecovery (command : String) : FrameReport × PipeServer :=
  let (text, served) := server.handleRecoveryCommand env command
  (answer env ("RESULT|DEFINITE|" ++ text) none, served)

end PipeServer

inductive FrameBody where
  | hello (protocol : String)
  | recovery (command : String)
  | handoff (session : String)
  | req (request : String)
  | reqx (request : String)
  | unknown

/-- The prefixes in the order in which the connection loop tries them. -/
def frameBody (payload : String) : FrameBody :=
  match stripPrefix "HELLO|" payload with
  | some protocol => .hello protocol
  | none =>
    match stripPrefix "RECOVERY|" payload with
    | some command => .recovery command
    | none =>
      match stripPrefix "HANDOFF|" payload with
      | some session => .handoff session
      | none =>
        match stripPrefix "REQ|" payload with
        | some request => .req request
        | none =>
          match stripPrefix "REQX|" payload with
          | some request => .reqx request
          | none => .unknown

def PipeServer.serveFrame (env : FrameEnvironment) (server : PipeServer) (payload : String) :
    FrameReport × PipeServer :=
  match frameBody payload with
  | .hello protocol => server.serveHello env protocol
  | .recovery command => server.serveRecovery env command
  | .handoff session => (server.serveHandoff env session, server)
  | .req request => server.serveRequest env request
  | .reqx request => server.serveDescriptorRequest env request
  | .unknown => (dropped, server)

structure Arrival where
  env : FrameEnvironment
  payload : String

namespace PipeServer

def report (server : PipeServer) (a : Arrival) : FrameReport :=
  (server.serveFrame a.env a.payload).1

def next (server : PipeServer) (a : Arrival) : PipeServer :=
  (server.serveFrame a.env a.payload).2

def serveConnection (server : PipeServer) : List Arrival → List FrameReport × PipeServer
  | [] => ([], server)
  | a :: rest =>
    let (report, served) := server.serveFrame a.env a.payload
    if report.keepsOpen then (served.serveConnection rest).map (report :: ·) id
    else ([report], served)

end PipeServer
end ZonKey.Pipe

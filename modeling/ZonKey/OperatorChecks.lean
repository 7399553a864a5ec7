import Mathlib.Data.List.Find
import ZonKey.OperatorHandoff

set_option autoImplicit false

namespace ZonKey.Host
open Pipe Transport Runs

section Calls
variable {session : String} {handoff : Option (Except String HandoffRequest)} {arrives : Bool}
  {server : PipeServer}

theorem encodeFrame_iff {text : String} (nonempty : text ≠ "") :
    (∃ frame, encodeFrame text = .ok frame) ↔ Fits text := by
  have positive : (Digest.asBytes text).length ≠ 0 := by
    rw [ne_eq, List.length_eq_zero_iff, Digest.asBytes_eq_nil]
    exact nonempty
  unfold encodeFrame Fits
  simp only [positive, ↓reduceIte]
  by_cases long : maxFrameBytes < (Digest.asBytes text).length
  · simp [long]
  · simp [long, Nat.le_of_not_lt long]

theorem response_answer {env : FrameEnvironment} (delivery : env.delivery = arrives)
    {text : String} (nonempty : text ≠ "") (executed : Option Execution) :
    (answer env text executed).response =
      if arrives = true ∧ Fits text then some text else none := by
  unfold FrameReport.response answer
  cases arrives with
  | false =>
    have lost : writeFrame env text = false := by
      unfold writeFrame
      split
      · exact delivery
      · rfl
    simp [lost]
  | true =>
    have written := writeFrame_iff delivery nonempty
    by_cases fits : Fits text
    · simp [fits, written.mpr fits]
    · have lost : writeFrame env text = false := by
        rw [Bool.eq_false_iff, ne_eq, written]
        exact fits
      simp [fits, lost]

theorem payload_ne_empty (kind : CallKind) : kind.payload session ≠ "" := by
  cases kind with
  | request =>
    simp only [CallKind.payload, String.append_assoc]
    exact append_ne_empty (by decide)
  | handoffQuery => exact append_ne_empty (by decide)
  | recoveryCommand =>
    simp only [CallKind.payload, String.append_assoc]
    exact append_ne_empty (by decide)

def callFrame (session : String) (handoff : Option (Except String HandoffRequest)) (arrives : Bool)
    (kind : CallKind) : GateFrame :=
  ⟨handoff, true, true, arrives, kind.payload session⟩

theorem callServer_of_fits {kind : CallKind} (fits : Fits (kind.payload session)) :
    callServer session handoff arrives kind server =
      ((server.report (callFrame session handoff arrives kind).arrival).response.bind
          fun text => (kind.settle text).toOption,
        server.next (callFrame session handoff arrives kind).arrival) := by
  obtain ⟨frame, encoded⟩ := (encodeFrame_iff (payload_ne_empty kind)).mpr fits
  unfold callServer
  rw [encoded]
  rfl

theorem callServer_of_oversized {kind : CallKind} (long : ¬ Fits (kind.payload session)) :
    callServer session handoff arrives kind server = (none, server) := by
  unfold callServer
  cases encoded : encodeFrame (kind.payload session) with
  | error => rfl
  | ok frame => exact absurd ((encodeFrame_iff (payload_ne_empty kind)).mp ⟨frame, encoded⟩) long

theorem frameBody_handoff (session : String) :
    frameBody ("HANDOFF|" ++ session) = .handoff session := by
  have foreign : ∀ start ∈ ["HELLO|", "RECOVERY|"],
      stripPrefix start ("HANDOFF|" ++ session) = none := by
    simp [stripPrefix, List.isPrefixOf?]
  simp only [List.forall_mem_cons] at foreign
  rw [frameBody, foreign.1, foreign.2.1, stripPrefix_append]

theorem serveFrame_handoff (f : GateFrame) (payload : f.payload = "HANDOFF|" ++ session)
    (own : server.sessionOk session = true) :
    server.serveFrame f.arrival.env f.arrival.payload =
      (answer f.arrival.env ("RESULT|DEFINITE|" ++ handoffText f.handoff) none, server) := by
  have body : frameBody f.arrival.payload = .handoff session := by
    change frameBody f.payload = _
    rw [payload, frameBody_handoff]
  unfold PipeServer.serveFrame
  rw [body]
  simp only [PipeServer.serveHandoff, own, not_true_eq_false, if_false]
  rfl

theorem settle_handoffQuery (text : String) :
    CallKind.handoffQuery.settle ("RESULT|DEFINITE|" ++ text) = .ok text := by
  have read : stripPrefix "ERROR|" ("RESULT|DEFINITE|" ++ text) = none := by
    simp [stripPrefix, List.isPrefixOf?]
  unfold CallKind.settle CallKind.resultPrefix
  rw [read, stripPrefix_append]

theorem settle_request (requestId composition canonical text : String) :
    (CallKind.request requestId composition canonical).settle ("RESULT|" ++ text) = .ok text := by
  have read : stripPrefix "ERROR|" ("RESULT|" ++ text) = none := by
    simp [stripPrefix, List.isPrefixOf?]
  unfold CallKind.settle CallKind.resultPrefix
  rw [read, stripPrefix_append]

theorem callServer_handoffQuery (own : server.sessionOk session = true) :
    callServer session handoff arrives .handoffQuery server =
      (if arrives ∧ Fits ("HANDOFF|" ++ session) ∧
          Fits ("RESULT|DEFINITE|" ++ handoffText handoff) then some (handoffText handoff)
        else none, server) := by
  by_cases fits : Fits (CallKind.handoffQuery.payload session)
  · have served := serveFrame_handoff (callFrame session handoff arrives .handoffQuery) rfl own
    have report := congrArg Prod.fst served
    have next := congrArg Prod.snd served
    change server.report _ = _ at report
    change server.next _ = _ at next
    have delivery : (callFrame session handoff arrives .handoffQuery).arrival.env.delivery =
        arrives := rfl
    have some_text : "RESULT|DEFINITE|" ++ handoffText handoff ≠ "" :=
      append_ne_empty (by decide)
    rw [callServer_of_fits fits, report, next]
    change ((answer _ ("RESULT|DEFINITE|" ++ handoffText handoff) none).response.bind _, server) = _
    rw [response_answer delivery some_text none]
    by_cases reaches : arrives = true ∧ Fits ("RESULT|DEFINITE|" ++ handoffText handoff)
    · rw [if_pos reaches, if_pos ⟨reaches.1, fits, reaches.2⟩, Option.bind_some, settle_handoffQuery]
      rfl
    · rw [if_neg reaches, if_neg fun all => reaches ⟨all.1, all.2.2⟩]
      rfl
  · rw [callServer_of_oversized fits, if_neg fun all => fits all.2.1]

end Calls

section Requests
variable {session : String} {numberText : Rat → JsString}

structure Sendable (request : CompareAndReplaceRequest) : Prop where
  plain : Plain request.toJs
  id : isHandoffId request.requestId = true
  unknown : request.composition = .unknown

theorem isHandoffId_units {text : JsString} (id : isHandoffId text = true) :
    text ≠ [] ∧ ∀ unit ∈ text, unit ≠ 0x7c ∧ unit.toNat < 0xd800 := by
  unfold isHandoffId at id
  rw [Bool.and_eq_true, List.isPrefixOf_iff_prefix] at id
  obtain ⟨⟨rest, rfl⟩, digits⟩ := id
  refine ⟨by simp [js], fun unit mem => ?_⟩
  rcases List.mem_append.mp mem with start | tail
  · have all : (js "handoff-").all
        (fun unit => unit != 0x7c && Nat.blt unit.toNat 0xd800) = true := rfl
    have checked := List.all_eq_true.mp all unit start
    rwa [Bool.and_eq_true, bne_iff_ne, Nat.blt_eq] at checked
  · have cut : (js "handoff-" ++ rest).drop 8 = rest := rfl
    rw [cut] at digits
    have decimal : isDecimalDigit unit = true := by
      cases rest with
      | nil => cases tail
      | cons first more =>
        simp only [Bool.and_eq_true, decide_eq_true_eq, List.all_eq_true] at digits
        rcases List.mem_cons.mp tail with rfl | later
        · have one : (0x30 : UInt16) ≤ 0x31 := by decide
          simp [isDecimalDigit, UInt16.le_trans one digits.1.1, digits.1.2]
        · exact digits.2 unit later
    simp only [isDecimalDigit, Bool.and_eq_true, decide_eq_true_eq, UInt16.le_iff_toNat_le]
      at decimal
    have nine : (0x39 : UInt16).toNat = 0x39 := rfl
    refine ⟨?_, by omega⟩
    rintro rfl
    have bar : (0x7c : UInt16).toNat = 0x7c := rfl
    omega

theorem not_mem_utf8Text {text : JsString} (paired : Paired text) (clean : 0x7c ∉ text) :
    '|' ∉ (utf8Text text).toList := by
  obtain ⟨chars, rfl⟩ := paired
  rw [utf8Text_flatMap, String.toList_ofList]
  intro mem
  refine clean (List.mem_flatMap.mpr ⟨'|', mem, ?_⟩)
  decide

theorem Sendable.paired {request : CompareAndReplaceRequest} (sendable : Sendable request) :
    Paired request.requestId :=
  .narrow fun unit mem => ((isHandoffId_units sendable.id).2 unit mem).2

theorem Sendable.id_iff {first second : CompareAndReplaceRequest} (sendable : Sendable first)
    (other : Sendable second) :
    utf8Text first.requestId = utf8Text second.requestId ↔ first.requestId = second.requestId :=
  ⟨sendable.paired.utf8Text_inj other.paired, congrArg utf8Text⟩

theorem Sendable.canonical_iff {first second : CompareAndReplaceRequest}
    (standard : StandardNumbers numberText) (sendable : Sendable first) (other : Sendable second) :
    utf8Text (canonicalJson numberText first.toJs) =
      utf8Text (canonicalJson numberText second.toJs) ↔ first = second :=
  ⟨utf8Text_canonicalJson_inj standard sendable.plain other.plain, fun same => by rw [same]⟩

theorem canonicalJson_object_ne_nil (entries : List (JsString × JsValue)) :
    canonicalJson numberText (.object entries) ≠ [] := by
  rw [canonicalJson]
  simp [js]

def wireRequest (numberText : Rat → JsString) (session : String)
    (request : CompareAndReplaceRequest) : WireRequest :=
  ⟨session, utf8Text request.requestId, "Unknown",
    utf8Text (canonicalJson numberText request.toJs), none⟩

theorem utf8Text_unknown : utf8Text CompositionState.unknown.name = "Unknown" := by
  have units : CompositionState.unknown.name = "Unknown".toList.flatMap encodeUtf16 := by decide
  rw [units, utf8Text_flatMap, String.ofList_toList]

theorem payload_request (session requestId composition canonical : String) :
    (CallKind.request requestId composition canonical).payload session =
      Request.payload ⟨session, requestId, composition, canonical⟩ := rfl

theorem frameRequest_payload {r : Request} (clean : r.Clean) (session : r.session ≠ "")
    (requestId : r.requestId ≠ "") (canonical : r.canonical ≠ "") :
    frameRequest r.payload = some ⟨r.session, r.requestId, r.composition, r.canonical, none⟩ := by
  obtain ⟨body, framed, parsed⟩ := Request.arrives clean session requestId canonical
  rw [frameRequest, framed]
  dsimp only
  rw [parsed, Option.map_some]

theorem frameRequest_call (standard : StandardNumbers numberText)
    {request : CompareAndReplaceRequest} (sendable : Sendable request) (some_session : session ≠ "")
    (clean : '|' ∉ session.toList) :
    frameRequest ((requestCall numberText request).payload session) =
      some (wireRequest numberText session request) := by
  have units := isHandoffId_units sendable.id
  have named : utf8Text request.requestId ≠ "" := fun empty =>
    units.1 (sendable.paired.utf8Text_eq_empty empty)
  have id : '|' ∉ (utf8Text request.requestId).toList :=
    not_mem_utf8Text sendable.paired fun bar => (units.2 _ bar).1 rfl
  have composition : '|' ∉ "Unknown".toList := by decide
  have canonical : utf8Text (canonicalJson numberText request.toJs) ≠ "" := fun empty =>
    canonicalJson_object_ne_nil _
      ((paired_canonicalJson standard sendable.plain).utf8Text_eq_empty empty)
  unfold requestCall wireRequest
  rw [sendable.unknown, utf8Text_unknown, payload_request]
  generalize utf8Text (canonicalJson numberText request.toJs) = text at canonical
  refine frameRequest_payload ?_ some_session named canonical
  intro field mem
  simp only [List.mem_cons, List.not_mem_nil, or_false] at mem
  rcases mem with rfl | rfl | rfl
  · exact clean
  · exact id
  · exact composition

end Requests

section Captured
variable {binding : HostBinding} {request : CompareAndReplaceRequest}

theorem isDouble_ofNat {n : Nat} (small : n ≤ JsNumber.maxSafeInteger) : IsDouble (n : Rat) := by
  refine ⟨n, 0, ?_, .inl ⟨Nat.zero_le _, by simp⟩⟩
  have bound : JsNumber.maxSafeInteger < 2 ^ 53 := by decide
  simp only [Int.natAbs_natCast]
  omega

theorem plain_ofNat {n : Nat} (small : n ≤ JsNumber.maxSafeInteger) :
    Plain (.number (.ofNat n)) :=
  .number (isDouble_ofNat small)

theorem isHandoffId_of_current {payload : JsString} {handoff : HandoffAnswer}
    (parsed : parseHandoffPayload payload = .current handoff) :
    isHandoffId handoff.requestId = true := by
  unfold parseHandoffPayload at parsed
  split_ifs at parsed
  unfold parseHandoffFields at parsed
  split at parsed
  · split at parsed
    · split_ifs at parsed with refused
      cases parsed
      simp only [Bool.or_eq_true, not_or, Bool.not_eq_true, Bool.not_eq_false'] at refused
      exact refused.1.1.1.1
    · cases parsed
  · cases parsed

theorem requesting_inv {payload : Option String}
    (begun : beginCheck binding payload = .requesting request) :
    ∃ candidate snapshot requestId, captureSnapshot binding candidate = .ok snapshot ∧
      isHandoffId requestId = true ∧ request = requestFromSnapshot snapshot requestId := by
  unfold beginCheck at begun
  split at begun
  · cases begun
  · split at begun
    · cases begun
    · cases begun
    · rename_i handoff parsed
      split at begun
      · cases begun
      · rename_i snapshot captured
        cases begun
        exact ⟨_, snapshot, _, captured, isHandoffId_of_current parsed, rfl⟩

theorem requestKeys_nodup (request : CompareAndReplaceRequest) (entries : List (JsString × JsValue))
    (shape : request.toJs = .object entries) : (entries.map Prod.fst).Nodup := by
  cases shape
  simp [js]

theorem Plain.object_cons {key : JsString} {value : JsValue}
    {entries : List (JsString × JsValue)} (plain : Plain value)
    (rest : ∀ entry ∈ entries, isDefined entry.2 → Plain entry.2) :
    ∀ entry ∈ (key, value) :: entries, isDefined entry.2 → Plain entry.2 := by
  intro entry mem defined
  rcases List.mem_cons.mp mem with rfl | later
  · exact plain
  · exact rest entry later defined

theorem Plain.object_nil : ∀ entry ∈ ([] : List (JsString × JsValue)),
    isDefined entry.2 → Plain entry.2 := nofun

structure Counted (request : CompareAndReplaceRequest) : Prop where
  documentEpoch : Plain (.number request.identity.documentEpoch)
  editorId : Plain (.number request.identity.editorId)
  revision : Plain (.number request.revision)
  unitSchema : Plain (.number request.expectedRange.unitSchema)
  start : Plain (.number request.expectedRange.start)
  stop : Plain (.number request.expectedRange.stop)
  caret : Plain (.number request.caret)
  selection : request.selection = .empty
  flags : Plain (.number request.capabilities.flags)
  capabilitySchema : Plain (.number request.capabilities.unitSchema)

theorem Counted.plain (counted : Counted request) : Plain request.toJs := by
  have identity : Plain request.identity.toJs :=
    .object (by simp [js]) (.object_cons (.string _) (.object_cons counted.documentEpoch
      (.object_cons counted.editorId .object_nil)))
  have range : Plain request.expectedRange.toJs :=
    .object (by simp [js]) (.object_cons counted.unitSchema (.object_cons counted.start
      (.object_cons counted.stop .object_nil)))
  have selection : Plain request.selection.toJs := by
    rw [counted.selection]
    exact .object (by simp) (.object_cons (.string _) .object_nil)
  have capabilities : Plain request.capabilities.toJs :=
    .object (by simp [js]) (.object_cons counted.flags (.object_cons counted.capabilitySchema
      .object_nil))
  refine .object (requestKeys_nodup request _ rfl) ?_
  refine .object_cons (.string _) (.object_cons (.bool _) (.object_cons (.string _) ?_))
  refine .object_cons (.string _) (.object_cons (.string _) (.object_cons identity ?_))
  refine .object_cons counted.revision (.object_cons range (.object_cons (.string _) ?_))
  refine .object_cons (.string _) (.object_cons counted.caret (.object_cons selection ?_))
  refine .object_cons (.string _) (.object_cons (.string _) (.object_cons (.string _) ?_))
  exact .object_cons capabilities .object_nil

theorem active_create {env : VsEnv} {window : VsWindow} {editor : TextEditor}
    (measured : RealBinding.Measured window)
    (active : (RealBinding.create.read env window).activeEditor = some editor) :
    editor.documentEpoch = 1 ∧ editor.editorId = 1 ∧ editor.document.version < maxRevision ∧
      editor.selectionEnd ≤ JsNumber.maxSafeInteger := by
  change (RealBinding.create.getActiveEditor window).1 = some editor at active
  cases shown : RealBinding.fileEditor window with
  | none => simp [RealBinding.getActiveEditor, shown] at active
  | some vsEditor =>
    simp only [RealBinding.getActiveEditor, shown, Option.some.injEq] at active
    subst active
    obtain ⟨_, version, offset⟩ := measured vsEditor shown
    exact ⟨rfl, rfl, version, offset⟩

theorem sendable_of_requesting {check : OperatorCheck} (measured : RealBinding.Measured check.window)
    {payload : Option String} (begun : beginCheck check.binding payload = .requesting request) :
    Sendable request := by
  obtain ⟨candidate, snapshot, requestId, captured, id, rfl⟩ := requesting_inv begun
  obtain ⟨editor, active, _, _, _, _, start, ordered, _, _, rfl⟩ := capture_ok captured
  obtain ⟨epoch, number, version, offset⟩ := active_create measured active
  have one : 1 ≤ JsNumber.maxSafeInteger := by decide
  have two : unitSchemaUtf16 ≤ JsNumber.maxSafeInteger := by decide
  have bound : maxRevision ≤ JsNumber.maxSafeInteger := by decide
  refine ⟨Counted.plain ?_, id, rfl⟩
  exact {
    documentEpoch := plain_ofNat (epoch.le.trans one)
    editorId := plain_ofNat (number.le.trans one)
    revision := plain_ofNat (version.le.trans bound)
    unitSchema := plain_ofNat two
    start := plain_ofNat (ordered.trans offset)
    stop := plain_ofNat offset
    caret := plain_ofNat offset
    selection := rfl
    flags := plain_ofNat (by decide)
    capabilitySchema := plain_ofNat two }

end Captured

section Memory
variable {session : String} {numberText : Rat → JsString} {server : PipeServer}
  {earlier : List CompareAndReplaceRequest} {request : CompareAndReplaceRequest}

def wireId (request : CompareAndReplaceRequest) : String := utf8Text request.requestId

def turnedEntry (numberText : Rat → JsString) (request : CompareAndReplaceRequest) :
    Transport.LedgerEntry :=
  ⟨utf8Text (canonicalJson numberText request.toJs), .definite "rejected:CompositionUnknown", false⟩

/-- The ledger and the memory hold the same requests in the same order. -/
structure Remembers (numberText : Rat → JsString) (session : String)
    (earlier : List CompareAndReplaceRequest) (server : PipeServer) : Prop where
  established : server.Established
  bound : server.endpoint.sessionId = some session
  capacity : server.endpoint.ledger.capacity = 256
  order : server.endpoint.ledger.order = earlier.map wireId
  nodup : (earlier.map wireId).Nodup
  entries : ∀ id, server.endpoint.ledger.entries id =
    (earlier.find? fun first => wireId first = id).map (turnedEntry numberText)
  sendable : ∀ first ∈ earlier, Sendable first

theorem find?_wire (all : ∀ first ∈ earlier, Sendable first) (sendable : Sendable request) :
    (earlier.find? fun first => wireId first = wireId request) =
      earlier.find? fun first => first.requestId = request.requestId :=
  List.find?_congr fun first mem => by
    have same : wireId first = wireId request ↔ first.requestId = request.requestId :=
      (all first mem).id_iff sendable
    simp only [same]

theorem Remembers.own (remembers : Remembers numberText session earlier server) :
    server.sessionOk session = true :=
  PipeServer.sessionOk_iff.mpr remembers.bound

theorem Remembers.unpinned (remembers : Remembers numberText session earlier server) (id : String) :
    ¬ server.endpoint.ledger.Pinned id := by
  rintro ⟨entry, text, known, ambiguous, _⟩
  rw [remembers.entries id, Option.map_eq_some_iff] at known
  obtain ⟨first, _, rfl⟩ := known
  cases ambiguous

theorem rejected_payload : outcomePayload (.definite "rejected:CompositionUnknown") =
    "RESULT|" ++ "DEFINITE|rejected:CompositionUnknown" := rfl

theorem reuse_payload : outcomePayload (.definite "request_id_reuse") =
    "RESULT|" ++ "DEFINITE|request_id_reuse" := rfl

theorem remember_known {first : CompareAndReplaceRequest}
    (known : (earlier.find? fun first => first.requestId = request.requestId) = some first) :
    remember earlier request = earlier := by
  unfold remember
  rw [known]

theorem remember_fresh
    (fresh : (earlier.find? fun first => first.requestId = request.requestId) = none) :
    remember earlier request =
      if earlier.length < 256 then earlier ++ [request] else earlier.tail ++ [request] := by
  unfold remember
  rw [fresh]

theorem mem_remember {first : CompareAndReplaceRequest} (mem : first ∈ remember earlier request) :
    first ∈ earlier ∨ first = request := by
  unfold remember at mem
  split at mem
  · exact .inl mem
  · split_ifs at mem
    · exact (List.mem_append.mp mem).imp_right List.mem_singleton.mp
    · exact (List.mem_append.mp mem).imp List.mem_of_mem_tail List.mem_singleton.mp

theorem find?_append_singleton (held : List CompareAndReplaceRequest) (id : String)
    (new : ∀ first ∈ held, wireId first ≠ wireId request) :
    ((held ++ [request]).find? fun first => wireId first = id).map (turnedEntry numberText) =
      if id = wireId request then some (turnedEntry numberText request)
      else (held.find? fun first => wireId first = id).map (turnedEntry numberText) := by
  rw [List.find?_append]
  by_cases same : id = wireId request
  · subst same
    have nothing : (held.find? fun first => wireId first = wireId request) = none := by
      rw [List.find?_eq_none]
      intro first mem
      simpa using new first mem
    simp [nothing]
  · have other : ([request].find? fun first => wireId first = id) = none := by
      simp [Ne.symm same]
    rw [other, Option.or_none, if_neg same]

theorem Remembers.recorded (remembers : Remembers numberText session earlier server)
    (fresh : (earlier.find? fun first => first.requestId = request.requestId) = none)
    (new : ∀ first ∈ earlier, wireId first ≠ wireId request)
    {answer : RecordOutcome} {ledger : BoundedRequestLedger}
    (recording : BoundedRequestLedger.Recording server.endpoint.ledger (wireId request)
      (turnedEntry numberText request) answer ledger) :
    ledger.order = (remember earlier request).map wireId ∧
      ((remember earlier request).map wireId).Nodup ∧
      ∀ id, ledger.entries id =
        ((remember earlier request).find? fun first => wireId first = id).map
          (turnedEntry numberText) := by
  have unknown : wireId request ∉ earlier.map wireId := by
    intro mem
    obtain ⟨first, old, same⟩ := List.mem_map.mp mem
    exact new first old same
  have size : server.endpoint.ledger.order.length = earlier.length := by
    rw [remembers.order, List.length_map]
  have missing : server.endpoint.ledger.entries (wireId request) = none := by
    rw [remembers.entries, List.find?_eq_none.mpr fun first mem => by simpa using new first mem,
      Option.map_none]
  rw [remember_fresh fresh]
  cases recording with
  | alreadyPresent known =>
    rw [KeyedQueue.contains, missing] at known
    cases known
  | inserted _ room =>
    rw [remembers.capacity, size] at room
    rw [if_pos room]
    refine ⟨?_, ?_, fun id => ?_⟩
    · change server.endpoint.ledger.order ++ [wireId request] = _
      rw [remembers.order, List.map_append, List.map_singleton]
    · rw [List.map_append, List.map_singleton]
      exact List.nodup_append.mpr ⟨remembers.nodup, List.nodup_singleton _,
        fun id mem other last => by
          rw [List.mem_singleton] at last
          rintro rfl
          exact unknown (last ▸ mem)⟩
    · change Function.update server.endpoint.ledger.entries (wireId request) _ id = _
      rw [find?_append_singleton earlier id new, Function.update_apply, remembers.entries id]
  | evicted _ full before oldest after split skipped _ _ order entries =>
    have head : before = [] :=
      List.eq_nil_iff_forall_not_mem.mpr fun id mem => remembers.unpinned id (skipped id mem)
    subst head
    rw [remembers.capacity, size] at full
    rw [if_neg (Nat.not_lt.mpr full)]
    rw [remembers.order, List.nil_append] at split
    obtain ⟨first, rest, rfl, rfl, rfl⟩ := List.map_eq_cons_iff.mp split
    have nodup := remembers.nodup
    rw [List.map_cons, List.nodup_cons] at nodup
    rw [List.map_cons, List.mem_cons, not_or] at unknown
    have newer : ∀ other ∈ rest, wireId other ≠ wireId request :=
      fun other mem => new other (List.mem_cons_of_mem _ mem)
    refine ⟨?_, ?_, fun id => ?_⟩
    · rw [order, List.nil_append, List.tail_cons, List.map_append, List.map_singleton]
    · rw [List.tail_cons, List.map_append, List.map_singleton]
      exact List.nodup_append.mpr ⟨nodup.2, List.nodup_singleton _, fun id mem other last => by
        rw [List.mem_singleton] at last
        rintro rfl
        exact unknown.2 (last ▸ mem)⟩
    · rw [entries, List.tail_cons, find?_append_singleton rest id newer, Function.update_apply,
        Function.update_apply, remembers.entries id]
      by_cases last : id = wireId request
      · rw [if_pos last, if_pos last]
      · rw [if_neg last, if_neg last]
        by_cases gone : id = wireId first
        · subst gone
          have nothing : (rest.find? fun other => wireId other = wireId first) = none := by
            rw [List.find?_eq_none]
            intro other mem
            simpa using fun same => nodup.1 (List.mem_map.mpr ⟨other, mem, same⟩)
          rw [if_pos rfl, nothing, Option.map_none]
        · rw [if_neg gone, List.find?_cons_of_neg (by simpa using Ne.symm gone)]
  | rejectedLedgerFull _ full pinned =>
    have some_entry : server.endpoint.ledger.order ≠ [] := by
      intro none
      rw [none, remembers.capacity] at full
      cases full
    obtain ⟨id, rest, order⟩ := List.exists_cons_of_ne_nil some_entry
    exact absurd (pinned id (by rw [order]; exact List.mem_cons_self)) (remembers.unpinned id)

/-- A request is answered as the memory says, and the memory takes it in. -/
theorem Remembers.asked (remembers : Remembers numberText session earlier server)
    (standard : StandardNumbers numberText) (some_session : session ≠ "")
    (clean : '|' ∉ session.toList) (sendable : Sendable request)
    (f : GateFrame) (payload : f.payload = (requestCall numberText request).payload session) :
    (∃ executed, server.report f.arrival =
      answer f.arrival.env ("RESULT|" ++ remembered earlier request) executed) ∧
    Remembers numberText session (remember earlier request) (server.next f.arrival) := by
  have arrived : frameRequest f.arrival.payload = some (wireRequest numberText session request) := by
    change frameRequest f.payload = _
    rw [payload]
    exact frameRequest_call standard sendable some_session clean
  have all : ∀ first ∈ remember earlier request, Sendable first := fun first mem =>
    (mem_remember mem).elim (remembers.sendable first) fun last => last ▸ sendable
  have found := remembers.entries (wireId request)
  rw [find?_wire remembers.sendable sendable] at found
  have established := (PipeServer.established_next remembers.established (a := f.arrival)).1
  have bound := PipeServer.bound_next remembers.established remembers.bound f.arrival
  have capacity := (PipeServer.order_grows remembers.established f.arrival).1
  have moved := PipeServer.next_ledger remembers.established f.arrival
  unfold remembered
  cases first_time : earlier.find? fun first => first.requestId = request.requestId with
  | some first =>
    rw [first_time, Option.map_some] at found
    have mem := List.mem_of_find?_eq_some first_time
    have answered := PipeServer.report_of_retained arrived remembers.own found
    refine ⟨⟨none, ?_⟩, ?_⟩
    · rw [answered]
      have same := (remembers.sendable first mem).canonical_iff standard sendable
      simp only [turnedEntry, wireRequest, same, Option.all_some, decide_eq_true_eq]
      split
      · rw [rejected_payload]
      · rw [reuse_payload]
    · have unmoved : (server.next f.arrival).endpoint.ledger = server.endpoint.ledger := by
        rcases moved with ⟨_, same⟩ | ⟨x, _, ran, _⟩
        · exact same
        · rw [answered] at ran
          cases ran
      rw [remember_known first_time] at all ⊢
      exact {
        established := established
        bound := bound
        capacity := capacity.trans remembers.capacity
        order := by rw [unmoved, remembers.order]
        nodup := remembers.nodup
        entries := fun id => by rw [unmoved, remembers.entries id]
        sendable := all }
  | none =>
    rw [first_time, Option.map_none] at found
    have ran := PipeServer.executed_of_fresh arrived remembers.own
      (PipeServer.classify_fresh_iff.mpr found) rfl
    refine ⟨⟨_, PipeServer.report_of_executed ran⟩, ?_⟩
    have new : ∀ first ∈ earlier, wireId first ≠ wireId request := by
      rw [← find?_wire remembers.sendable sendable, List.find?_eq_none] at first_time
      intro first mem
      simpa using first_time first mem
    rcases moved with ⟨idle, _⟩ | ⟨x, _, again, _, recording⟩
    · rw [ran] at idle
      cases idle
    · rw [ran] at again
      cases again
      obtain ⟨order, nodup, entries⟩ := remembers.recorded first_time new recording
      exact {
        established := established
        bound := bound
        capacity := capacity.trans remembers.capacity
        order := order
        nodup := nodup
        entries := entries
        sendable := all }

theorem remembered_short (earlier : List CompareAndReplaceRequest)
    (request : CompareAndReplaceRequest) : Fits ("RESULT|" ++ remembered earlier request) := by
  apply fits_short
  unfold remembered
  split
  · exact Nat.le_of_ble_eq_true rfl
  · exact Nat.le_of_ble_eq_true rfl

theorem Remembers.requestCall (remembers : Remembers numberText session earlier server)
    (standard : StandardNumbers numberText) (some_session : session ≠ "")
    (clean : '|' ∉ session.toList) (sendable : Sendable request)
    (fits : Fits ((requestCall numberText request).payload session))
    (handoff : Option (Except String HandoffRequest)) (arrives : Bool) :
    (callServer session handoff arrives (requestCall numberText request) server).1 =
      (if arrives then some (remembered earlier request) else none) ∧
    Remembers numberText session (remember earlier request)
      (callServer session handoff arrives (requestCall numberText request) server).2 := by
  obtain ⟨⟨executed, answered⟩, after⟩ := remembers.asked standard some_session clean sendable
    (callFrame session handoff arrives (Host.requestCall numberText request)) rfl
  rw [callServer_of_fits fits]
  refine ⟨?_, after⟩
  have delivery : (callFrame session handoff arrives
      (Host.requestCall numberText request)).arrival.env.delivery = arrives := rfl
  have some_text : "RESULT|" ++ remembered earlier request ≠ "" := append_ne_empty (by decide)
  dsimp only
  rw [answered, response_answer delivery some_text executed]
  cases arrives with
  | false => rfl
  | true =>
    rw [if_pos ⟨rfl, remembered_short earlier request⟩, Option.bind_some, Host.requestCall,
      settle_request]
    rfl

theorem remembers_greeted (some_session : session ≠ "")
    (recovery : Option Store.DurableRecoveryStore) :
    Remembers numberText session [] (greeted session recovery) := by
  have served : greeted session recovery = { gateServer session recovery with
      endpoint := ⟨some session, (gateServer session recovery).endpoint.ledger⟩ } := by
    have body : frameBody ("HELLO|" ++ transportProtocolId) = .hello transportProtocolId := by
      rw [frameBody, stripPrefix_append]
    have accepted : (gateServer session recovery).endpoint.acceptHello transportProtocolId session =
        (.ok false, ⟨some session, (gateServer session recovery).endpoint.ledger⟩) := by
      have named : ¬ (transportProtocolId = "" ∨ session = "") := by
        rw [not_or]
        exact ⟨by decide, some_session⟩
      unfold HostTransportEndpoint.acceptHello
      rw [if_neg named, if_neg (not_not.mpr rfl)]
      rfl
    unfold greeted PipeServer.next
    change (PipeServer.serveFrame _ _ ("HELLO|" ++ transportProtocolId)).2 = _
    unfold PipeServer.serveFrame
    rw [body]
    change ((gateServer session recovery).serveHello _ transportProtocolId).2 = _
    change ((gateServer session recovery).endpoint.acceptHello transportProtocolId
      (gateServer session recovery).sessionId) = _ at accepted
    unfold PipeServer.serveHello
    rw [accepted]
  rw [served]
  exact {
    established := .inr rfl
    bound := rfl
    capacity := rfl
    order := rfl
    nodup := List.nodup_nil
    entries := fun id => by
      rw [List.find?_nil, Option.map_none]
      rfl
    sendable := fun _ mem => absurd mem List.not_mem_nil }

end Memory

section Checks
variable {session : String} {numberText : Rat → JsString} {server : PipeServer}
  {earlier : List CompareAndReplaceRequest} {check : OperatorCheck}

/-- One check: the label is the one of the memory, and the endpoint keeps being it. -/
theorem Remembers.perform (remembers : Remembers numberText session earlier server)
    (standard : StandardNumbers numberText) (some_session : session ≠ "")
    (clean : '|' ∉ session.toList) (measured : RealBinding.Measured check.window) :
    (check.perform numberText session server).1 = (check.expected numberText session earlier).1 ∧
      Remembers numberText session (check.expected numberText session earlier).2
        (check.perform numberText session server).2 := by
  have queried : callServer session check.handoff check.queryArrives .handoffQuery server =
      (check.payload session, server) := callServer_handoffQuery remembers.own
  unfold OperatorCheck.perform OperatorCheck.expected
  rw [queried]
  dsimp only
  cases begun : beginCheck check.binding (check.payload session) with
  | labelled label => exact ⟨rfl, remembers⟩
  | requesting request =>
    dsimp only
    by_cases fits : Fits ((Host.requestCall numberText request).payload session)
    · obtain ⟨answered, after⟩ := remembers.requestCall standard some_session clean
        (sendable_of_requesting measured begun) fits check.handoff check.resultArrives
      rw [if_pos fits]
      exact ⟨congrArg check.finish answered, after⟩
    · rw [if_neg fits, callServer_of_oversized fits]
      exact ⟨rfl, remembers⟩

theorem Remembers.performAll (standard : StandardNumbers numberText) (some_session : session ≠ "")
    (clean : '|' ∉ session.toList) :
    ∀ (checks : List OperatorCheck) {earlier : List CompareAndReplaceRequest} {server : PipeServer},
      Remembers numberText session earlier server →
      (∀ check ∈ checks, RealBinding.Measured check.window) →
      OperatorCheck.performAll numberText session server checks =
        expectedAll numberText session earlier checks
  | [], _, _, _, _ => rfl
  | check :: rest, _, _, remembers, measured => by
    obtain ⟨label, after⟩ := remembers.perform standard some_session clean
      (measured check List.mem_cons_self)
    unfold OperatorCheck.performAll expectedAll
    rw [label, performAll standard some_session clean rest after
      fun other mem => measured other (List.mem_cons_of_mem _ mem)]

theorem describe_remembered (earlier : List CompareAndReplaceRequest)
    (request : CompareAndReplaceRequest) : describeOperatorResult (remembered earlier request) ∈
      ["Rejected(CompositionUnknown)", "Unexpected transport result"] := by
  have rejected : describeOperatorResult "DEFINITE|rejected:CompositionUnknown" =
      "Rejected(CompositionUnknown)" := by decide
  have reuse : describeOperatorResult "DEFINITE|request_id_reuse" =
      "Unexpected transport result" := by decide
  unfold remembered
  split
  · rw [rejected]
    exact List.mem_cons_self
  · rw [reuse]
    exact List.mem_cons_of_mem _ List.mem_cons_self

def plainLabels : List String :=
  ["CurrentHandoffUnavailable", "NoCurrentHandoff", "RequestResultUnavailable", "DocumentChanged",
    "Rejected(CompositionUnknown)", "Unexpected transport result"]

def IsLabel (label : String) : Prop :=
  label ∈ plainLabels ∨ ∃ reason : SnapshotRefusalReason,
    label = "SnapshotRefused(" ++ reason.name ++ ")"

theorem isLabel_begin {binding : HostBinding} {payload : Option String} {label : String}
    (begun : beginCheck binding payload = .labelled label) : IsLabel label := by
  unfold beginCheck at begun
  split at begun
  · cases begun
    exact .inl (by simp [plainLabels])
  · split at begun
    · cases begun
      exact .inl (by simp [plainLabels])
    · cases begun
      exact .inl (by simp [plainLabels])
    · split at begun
      · cases begun
        exact .inr ⟨_, rfl⟩
      · cases begun

theorem isLabel_finish (arrives : Bool) (request : CompareAndReplaceRequest)
    (earlier : List CompareAndReplaceRequest) (check : OperatorCheck) :
    IsLabel (check.finish (if arrives then some (remembered earlier request) else none)) := by
  unfold OperatorCheck.finish
  cases arrives with
  | false => exact .inl (by simp [plainLabels])
  | true =>
    rw [if_pos rfl]
    dsimp only
    split
    · exact .inl (by simp [plainLabels])
    · have told := describe_remembered earlier request
      generalize describeOperatorResult (remembered earlier request) = label at told
      refine .inl ?_
      unfold plainLabels
      exact List.mem_append_right ["CurrentHandoffUnavailable", "NoCurrentHandoff",
        "RequestResultUnavailable", "DocumentChanged"] told

theorem isLabel_expected : IsLabel (check.expected numberText session earlier).1 := by
  unfold OperatorCheck.expected
  cases begun : beginCheck check.binding (check.payload session) with
  | labelled label => exact isLabel_begin begun
  | requesting request =>
    dsimp only
    split
    · exact isLabel_finish check.resultArrives request earlier check
    · exact isLabel_finish false request earlier check

theorem isLabel_expectedAll (checks : List OperatorCheck) :
    ∀ (earlier : List CompareAndReplaceRequest),
      ∀ label ∈ expectedAll numberText session earlier checks, IsLabel label := by
  induction checks with
  | nil => nofun
  | cons check rest ih =>
    intro earlier label mem
    unfold expectedAll at mem
    rcases List.mem_cons.mp mem with rfl | later
    · exact isLabel_expected
    · exact ih _ label later

theorem operator_labels (numberText : Rat → JsString) (standard : StandardNumbers numberText)
    (session : String) (some_session : session ≠ "") (clean : '|' ∉ session.toList)
    (recovery : Option Store.DurableRecoveryStore) (checks : List OperatorCheck)
    (measured : ∀ check ∈ checks, RealBinding.Measured check.window) :
    ∀ label ∈ OperatorCheck.performAll numberText session (greeted session recovery) checks,
      IsLabel label := by
  rw [Remembers.performAll standard some_session clean checks
    (remembers_greeted some_session recovery) measured]
  exact isLabel_expectedAll checks []

end Checks
end ZonKey.Host

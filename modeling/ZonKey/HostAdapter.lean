import ZonKey.JsValues

set_option autoImplicit false

/-!
# The VS Code host adapter

`VsCodeHostAdapter` over its ports: the checks of a compare-and-replace request,
the edit transaction with its re-read, and the verification after the commit.
The editor and everything else that may change the document are inputs.
-/
namespace ZonKey.Host

section Contract

def protocolId : JsString := js "zonkey.vscode-host/1"
def unitSchemaUtf16 : Nat := 2
def maxRevision : Nat := 0x7fffffff

inductive SecureState where
  | knownNonSecure
  | secure
  | unknown
  deriving DecidableEq, Repr

inductive CompositionState where
  | inactive
  | active
  | unknown
  deriving DecidableEq, Repr

inductive SessionState where
  | supportedLocal
  | unsupportedRemote
  | unknown
  deriving DecidableEq, Repr

inductive SelectionState where
  | empty
  | range (start stop : JsNumber)
  deriving DecidableEq

structure TargetIdentity where
  documentUri : JsString
  documentEpoch : JsNumber
  editorId : JsNumber
  deriving DecidableEq

structure TextRange where
  unitSchema : JsNumber
  start : JsNumber
  stop : JsNumber
  deriving DecidableEq

structure Capabilities where
  flags : JsNumber
  unitSchema : JsNumber
  deriving DecidableEq

structure CompareAndReplaceRequest where
  protocolId : JsString
  authenticated : Bool
  hostId : JsString
  sessionId : JsString
  requestId : JsString
  identity : TargetIdentity
  revision : JsNumber
  expectedRange : TextRange
  expectedText : JsString
  replacement : JsString
  caret : JsNumber
  selection : SelectionState
  secure : SecureState
  composition : CompositionState
  session : SessionState
  capabilities : Capabilities
  deriving DecidableEq

inductive RejectReason where
  | malformedRequest
  | protocolMismatch
  | authenticationFailed
  | hostIdentityMismatch
  | sessionMismatch
  | targetIdentityMismatch
  | multipleEditors
  | revisionMismatch
  | textMismatch
  | rangeMismatch
  | unitMismatch
  | caretMismatch
  | selectionNotEmpty
  | secureTarget
  | secureUnknown
  | compositionActive
  | compositionUnknown
  | unsupportedSession
  | sessionUnknown
  | capabilityMismatch
  | requestIdReuse
  | revisionOverflow
  | editTransactionRefused
  deriving DecidableEq, Repr

inductive IndeterminateReason where
  | editOutcomeLost
  | ambiguousCommit
  deriving DecidableEq, Repr

inductive HostResult where
  | applied (newRevision : Nat)
  | rejected (reason : RejectReason)
  | indeterminate (reason : IndeterminateReason)
  deriving DecidableEq, Repr

end Contract

section Json

def SecureState.name : SecureState → JsString
  | knownNonSecure => js "KnownNonSecure"
  | secure => js "Secure"
  | unknown => js "Unknown"

def CompositionState.name : CompositionState → JsString
  | inactive => js "Inactive"
  | active => js "Active"
  | unknown => js "Unknown"

def SessionState.name : SessionState → JsString
  | supportedLocal => js "SupportedLocal"
  | unsupportedRemote => js "UnsupportedRemote"
  | unknown => js "Unknown"

def SelectionState.toJs : SelectionState → JsValue
  | empty => .object [(js "kind", .string (js "Empty"))]
  | range start stop =>
    .object [(js "kind", .string (js "Range")), (js "start", .number start), (js "end", .number stop)]

def TargetIdentity.toJs (identity : TargetIdentity) : JsValue :=
  .object [(js "document_uri", .string identity.documentUri),
    (js "document_epoch", .number identity.documentEpoch),
    (js "editor_id", .number identity.editorId)]

def TextRange.toJs (range : TextRange) : JsValue :=
  .object [(js "unit_schema", .number range.unitSchema), (js "start", .number range.start),
    (js "end", .number range.stop)]

def Capabilities.toJs (capabilities : Capabilities) : JsValue :=
  .object [(js "flags", .number capabilities.flags),
    (js "unit_schema", .number capabilities.unitSchema)]

def CompareAndReplaceRequest.toJs (request : CompareAndReplaceRequest) : JsValue :=
  .object [(js "protocol_id", .string request.protocolId),
    (js "authenticated", .bool request.authenticated), (js "host_id", .string request.hostId),
    (js "session_id", .string request.sessionId), (js "request_id", .string request.requestId),
    (js "identity", request.identity.toJs), (js "revision", .number request.revision),
    (js "expected_range", request.expectedRange.toJs),
    (js "expected_text", .string request.expectedText),
    (js "replacement", .string request.replacement), (js "caret", .number request.caret),
    (js "selection", request.selection.toJs), (js "secure", .string request.secure.name),
    (js "composition", .string request.composition.name),
    (js "session", .string request.session.name), (js "capabilities", request.capabilities.toJs)]

end Json

structure TextDocument where
  uri : JsString
  version : Nat
  text : JsString
  deriving DecidableEq

structure TextEditor where
  document : TextDocument
  selectionCount : Nat
  selectionStart : Nat
  selectionEnd : Nat
  documentEpoch : Nat
  editorId : Nat
  visibleEditorCount : Nat
  deriving DecidableEq

structure HostBinding where
  hostId : JsString
  sessionId : JsString
  session : SessionState
  composition : CompositionState
  capabilities : Capabilities
  activeEditor : Option TextEditor
  secureStateFor : JsString → SecureState

/-- What `validateAndApply` hands to `commit`; `revisionBefore` is read first thing there. -/
structure Commit where
  editor : TextEditor
  start : Nat
  stop : Nat
  validatedText : JsString
  revisionBefore : Nat
  expectedText : JsString
  replacement : JsString
  deriving DecidableEq

structure Replace where
  start : Nat
  stop : Nat
  text : JsString
  deriving DecidableEq

def TextEditor.identity (editor : TextEditor) : TargetIdentity where
  documentUri := editor.document.uri
  documentEpoch := .ofNat editor.documentEpoch
  editorId := .ofNat editor.editorId

section Validate
variable (numberText : Rat → JsString)

def checkedRange (range : TextRange) (text : JsString) : Option (Nat × Nat) :=
  match range.start.safeNat, range.stop.safeNat with
  | some start, some stop =>
    if stop < start ∨ text.length < stop ∨ splitsSurrogate text start ∨ splitsSurrogate text stop
    then none else some (start, stop)
  | _, _ => none

def checkEnvironment (binding : HostBinding) (uri : JsString) (request : CompareAndReplaceRequest) :
    Option RejectReason :=
  let liveSecure := binding.secureStateFor uri
  if request.secure ≠ liveSecure then some .secureTarget
  else if liveSecure = .secure then some .secureTarget
  else if liveSecure = .unknown then some .secureUnknown
  else if request.composition ≠ binding.composition then some .compositionActive
  else if binding.composition = .active then some .compositionActive
  else if binding.composition = .unknown then some .compositionUnknown
  else if request.session ≠ binding.session then some .sessionMismatch
  else if binding.session = .unsupportedRemote then some .unsupportedSession
  else if binding.session = .unknown then some .sessionUnknown
  else none

/-- `validateAndApply` up to the call of `commit`. -/
def validate (binding : HostBinding) (request : CompareAndReplaceRequest) :
    Except RejectReason Commit :=
  match binding.activeEditor with
  | none => .error .targetIdentityMismatch
  | some editor =>
    if 1 < editor.visibleEditorCount then .error .multipleEditors
    else if request.protocolId ≠ protocolId then .error .protocolMismatch
    else if request.authenticated ≠ true then .error .authenticationFailed
    else if request.hostId ≠ binding.hostId then .error .hostIdentityMismatch
    else if request.sessionId ≠ binding.sessionId then .error .sessionMismatch
    else if canonicalJson numberText request.identity.toJs ≠
        canonicalJson numberText editor.identity.toJs then .error .targetIdentityMismatch
    else if canonicalJson numberText request.capabilities.toJs ≠
        canonicalJson numberText binding.capabilities.toJs then .error .capabilityMismatch
    else if !request.expectedRange.unitSchema.strictEq (.ofNat unitSchemaUtf16) then
      .error .unitMismatch
    else
      match request.revision.safeNat with
      | none => .error .revisionOverflow
      | some revision =>
        if maxRevision ≤ revision then .error .revisionOverflow
        else if editor.document.version ≠ revision then .error .revisionMismatch
        else
          match checkedRange request.expectedRange editor.document.text with
          | none => .error .rangeMismatch
          | some (start, stop) =>
            if !request.caret.strictEq (.ofNat editor.selectionEnd) ||
                !request.expectedRange.stop.strictEq request.caret then .error .caretMismatch
            else if request.selection ≠ .empty ∨ editor.selectionStart ≠ editor.selectionEnd then
              .error .selectionNotEmpty
            else
              match checkEnvironment binding editor.document.uri request with
              | some reason => .error reason
              | none =>
                if slice editor.document.text start stop ≠ request.expectedText then
                  .error .textMismatch
                else
                  .ok {
                    editor := editor
                    start := start
                    stop := stop
                    validatedText := editor.document.text
                    revisionBefore := editor.document.version
                    expectedText := request.expectedText
                    replacement := request.replacement }

end Validate

def Commit.build (commit : Commit) (immediate : JsString) : Option Replace :=
  if slice immediate commit.start commit.stop ≠ commit.expectedText then none
  else some ⟨commit.start, commit.stop, commit.replacement⟩

/-- How the promise of `edit` settles. -/
inductive EditSettled where
  | resolved (transaction : Bool)
  | failed
  deriving DecidableEq

/-- `commit` after the `await`, with the document as it is then. -/
def Commit.finish (commit : Commit) (queued : Bool) (settled : EditSettled)
    (version : Nat) (textAfter : JsString) : HostResult :=
  match settled with
  | .failed => .indeterminate .editOutcomeLost
  | .resolved false => .rejected .editTransactionRefused
  | .resolved true =>
    if !queued then
      if version = commit.revisionBefore then .rejected .textMismatch
      else .indeterminate .ambiguousCommit
    else if version ≠ commit.revisionBefore + 1 ∨
        textAfter ≠ commit.validatedText.take commit.start ++ commit.replacement ++
          commit.validatedText.drop commit.stop then .indeterminate .ambiguousCommit
    else .applied version

structure LedgerEntry where
  canonical : JsString
  result : HostResult
  deriving DecidableEq

/-- The request ledger: a `Map` in insertion order, with its capacity. -/
structure Ledger where
  entries : List (JsString × LedgerEntry)
  capacity : Nat
  capacity_pos : 0 < capacity

namespace Ledger

def get (ledger : Ledger) (requestId : JsString) : Option LedgerEntry :=
  ledger.entries.lookup requestId

def remember (ledger : Ledger) (requestId canonical : JsString) (result : HostResult) : Ledger :=
  if (ledger.get requestId).isSome then ledger
  else
    { ledger with
      entries := ledger.entries.drop (ledger.entries.length + 1 - ledger.capacity) ++
        [(requestId, ⟨canonical, result⟩)] }

def invalidateSession (ledger : Ledger) : Ledger := { ledger with entries := [] }

end Ledger

/-- What `apply` has come to when it first waits. -/
inductive Begun where
  | answered (result : HostResult)
  | rejected (reason : RejectReason)
  | editing (commit : Commit)

/-- `apply` up to its first `await`: an answer from the ledger, a request that fails a check, or
a call of `editor.edit`. -/
def begin (numberText : Rat → JsString) (binding : HostBinding) (ledger : Ledger)
    (request : CompareAndReplaceRequest) : Begun :=
  if request.requestId.isEmpty then .answered (.rejected .malformedRequest)
  else
    match ledger.get request.requestId with
    | some recorded =>
      .answered (if recorded.canonical = canonicalJson numberText request.toJs then recorded.result
        else .rejected .requestIdReuse)
    | none =>
      match validate numberText binding request with
      | .error reason => .rejected reason
      | .ok commit => .editing commit

section Transaction

def Replace.applyTo (replace : Replace) (document : TextDocument) : TextDocument :=
  { document with
    version := document.version + 1
    text := document.text.take replace.start ++ replace.text ++ document.text.drop replace.stop }

/-- What becomes of a transaction. One that fails may have been carried out all the same. -/
inductive EditFate where
  | applied
  | refused
  | lost (carriedOut : Bool)
  deriving DecidableEq

/-- What else happens to the document around one transaction, with or without a new version. -/
structure EditEnvironment where
  beforeBuild : TextDocument → TextDocument
  afterBuild : TextDocument → TextDocument
  fate : EditFate
  afterCommit : TextDocument → TextDocument

/-- `settled` and `queued` are what the adapter sees; `replaced` is what was carried out, and
`document` is what it reads afterwards. -/
structure EditRun where
  settled : EditSettled
  queued : Bool
  replaced : List Replace
  document : TextDocument

/-- `TextEditorPort.edit` run with the build callback of a commit. -/
def edit (environment : EditEnvironment) (commit : Commit) : EditRun :=
  let atBuild := environment.beforeBuild commit.editor.document
  let queue := (commit.build atBuild.text).toList
  let atCommit := environment.afterBuild atBuild
  let (settled, replaced) := match environment.fate with
    | .applied => (EditSettled.resolved true, queue)
    | .refused => (.resolved false, [])
    | .lost carriedOut => (.failed, if carriedOut then queue else [])
  { settled := settled
    queued := !queue.isEmpty
    replaced := replaced
    document := environment.afterCommit
      (replaced.foldl (fun document replace => replace.applyTo document) atCommit) }

/-- One call of `apply` from beginning to end. -/
structure ApplyRun where
  result : HostResult
  replaced : List Replace
  read : Option TextDocument
  ledger : Ledger

/-- `apply` when no other call gets in between. -/
def apply (numberText : Rat → JsString) (binding : HostBinding) (ledger : Ledger)
    (request : CompareAndReplaceRequest) (environment : EditEnvironment) : ApplyRun :=
  let canonical := canonicalJson numberText request.toJs
  match begin numberText binding ledger request with
  | .answered result => ⟨result, [], none, ledger⟩
  | .rejected reason =>
    ⟨.rejected reason, [], none, ledger.remember request.requestId canonical (.rejected reason)⟩
  | .editing commit =>
    let run := edit environment commit
    let result :=
      commit.finish run.queued run.settled run.document.version run.document.text
    ⟨result, run.replaced, some run.document, ledger.remember request.requestId canonical result⟩

end Transaction

section Soundness
variable {numberText : Rat → JsString} {binding : HostBinding} {request : CompareAndReplaceRequest}

/-- Everything that a request says about the host is so, for this editor and this range. -/
structure Matches (numberText : Rat → JsString) (binding : HostBinding)
    (request : CompareAndReplaceRequest) (editor : TextEditor) (start stop : Nat) : Prop where
  active : binding.activeEditor = some editor
  visible : editor.visibleEditorCount ≤ 1
  protocol : request.protocolId = protocolId
  authenticated : request.authenticated = true
  host : request.hostId = binding.hostId
  sessionId : request.sessionId = binding.sessionId
  identity : canonicalJson numberText request.identity.toJs =
    canonicalJson numberText editor.identity.toJs
  capabilities : canonicalJson numberText request.capabilities.toJs =
    canonicalJson numberText binding.capabilities.toJs
  unitSchema : request.expectedRange.unitSchema = .ofNat unitSchemaUtf16
  revision : request.revision = .ofNat editor.document.version
  countable : editor.document.version < maxRevision
  range : request.expectedRange.start = .ofNat start ∧ request.expectedRange.stop = .ofNat stop
  inside : start ≤ stop ∧ stop ≤ editor.document.text.length
  whole : splitsSurrogate editor.document.text start = false ∧
    splitsSurrogate editor.document.text stop = false
  caret : request.caret = .ofNat editor.selectionEnd ∧ request.expectedRange.stop = request.caret
  selection : request.selection = .empty ∧ editor.selectionStart = editor.selectionEnd
  secure : request.secure = .knownNonSecure ∧
    binding.secureStateFor editor.document.uri = .knownNonSecure
  composition : request.composition = .inactive ∧ binding.composition = .inactive
  session : request.session = .supportedLocal ∧ binding.session = .supportedLocal
  text : slice editor.document.text start stop = request.expectedText

theorem checkedRange_eq_some_iff {range : TextRange} {text : JsString} {start stop : Nat} :
    checkedRange range text = some (start, stop) ↔
      (range.start = .ofNat start ∧ range.stop = .ofNat stop) ∧
        (start ≤ stop ∧ stop ≤ text.length) ∧
        (splitsSurrogate text start = false ∧ splitsSurrogate text stop = false) ∧
        stop ≤ JsNumber.maxSafeInteger := by
  unfold checkedRange
  constructor
  · intro checked
    split at checked
    · rename_i first last is_start is_stop
      split at checked
      · cases checked
      · rename_i fits
        cases checked
        simp only [not_or, Bool.not_eq_true, Nat.not_lt] at fits
        obtain ⟨same_start, _⟩ := JsNumber.safeNat_eq_some_iff.mp is_start
        obtain ⟨same_stop, small⟩ := JsNumber.safeNat_eq_some_iff.mp is_stop
        exact ⟨⟨same_start, same_stop⟩, ⟨fits.1, fits.2.1⟩, fits.2.2, small⟩
    · cases checked
  · rintro ⟨⟨is_start, is_stop⟩, ⟨ordered, inside⟩, ⟨whole_start, whole_stop⟩, small⟩
    have safe_start := JsNumber.safeNat_eq_some_iff.mpr ⟨is_start, Nat.le_trans ordered small⟩
    have safe_stop := JsNumber.safeNat_eq_some_iff.mpr ⟨is_stop, small⟩
    have fits : ¬ (stop < start ∨ text.length < stop ∨ splitsSurrogate text start = true ∨
        splitsSurrogate text stop = true) := by
      simp [whole_start, whole_stop, ordered, inside]
    rw [safe_start, safe_stop]
    exact if_neg fits

theorem of_check_passed {ε α : Type} {check : Prop} [Decidable check] {reason : ε}
    {rest : Except ε α} {value : α}
    (passed : (if check then .error reason else rest) = .ok value) : ¬ check ∧ rest = .ok value := by
  by_cases fails : check
  · rw [if_pos fails] at passed
    cases passed
  · rw [if_neg fails] at passed
    exact ⟨fails, passed⟩

theorem check_passes {ε α : Type} {check : Prop} [Decidable check] {reason : ε}
    {rest : Except ε α} {value : α} (passes : ¬ check) (valid : rest = .ok value) :
    (if check then .error reason else rest) = .ok value := by
  rw [if_neg passes, valid]

theorem of_check_none {α : Type} {check : Prop} [Decidable check] {reason : α} {rest : Option α}
    (passed : (if check then some reason else rest) = none) : ¬ check ∧ rest = none := by
  by_cases fails : check
  · rw [if_pos fails] at passed
    cases passed
  · rw [if_neg fails] at passed
    exact ⟨fails, passed⟩

theorem checkEnvironment_none {uri : JsString}
    (passed : checkEnvironment binding uri request = none) :
    (request.secure = .knownNonSecure ∧ binding.secureStateFor uri = .knownNonSecure) ∧
      (request.composition = .inactive ∧ binding.composition = .inactive) ∧
      (request.session = .supportedLocal ∧ binding.session = .supportedLocal) := by
  unfold checkEnvironment at passed
  obtain ⟨secure, passed⟩ := of_check_none passed
  obtain ⟨live, passed⟩ := of_check_none passed
  obtain ⟨unclear, passed⟩ := of_check_none passed
  obtain ⟨composition, passed⟩ := of_check_none passed
  obtain ⟨active, passed⟩ := of_check_none passed
  obtain ⟨hidden, passed⟩ := of_check_none passed
  obtain ⟨session, passed⟩ := of_check_none passed
  obtain ⟨remote, passed⟩ := of_check_none passed
  obtain ⟨unsure, _⟩ := of_check_none passed
  rw [not_not] at secure composition session
  refine ⟨?_, ?_, ?_⟩
  · cases now : binding.secureStateFor uri with
    | knownNonSecure => exact ⟨secure.trans now, rfl⟩
    | secure => exact absurd now live
    | unknown => exact absurd now unclear
  · cases now : binding.composition with
    | inactive => exact ⟨composition.trans now, rfl⟩
    | active => exact absurd now active
    | unknown => exact absurd now hidden
  · cases now : binding.session with
    | supportedLocal => exact ⟨session.trans now, rfl⟩
    | unsupportedRemote => exact absurd now remote
    | unknown => exact absurd now unsure

theorem validate_ok {commit : Commit} (valid : validate numberText binding request = .ok commit) :
    Matches numberText binding request commit.editor commit.start commit.stop ∧
      commit.validatedText = commit.editor.document.text ∧
      commit.revisionBefore = commit.editor.document.version ∧
      commit.expectedText = request.expectedText ∧ commit.replacement = request.replacement ∧
      commit.stop ≤ JsNumber.maxSafeInteger := by
  unfold validate at valid
  cases active : binding.activeEditor with
  | none =>
    rw [active] at valid
    cases valid
  | some editor =>
  rw [active] at valid
  obtain ⟨visible, valid⟩ := of_check_passed valid
  obtain ⟨protocol, valid⟩ := of_check_passed valid
  obtain ⟨authenticated, valid⟩ := of_check_passed valid
  obtain ⟨host, valid⟩ := of_check_passed valid
  obtain ⟨sessionId, valid⟩ := of_check_passed valid
  obtain ⟨identity, valid⟩ := of_check_passed valid
  obtain ⟨capabilities, valid⟩ := of_check_passed valid
  obtain ⟨unit, valid⟩ := of_check_passed valid
  cases is_revision : request.revision.safeNat with
  | none =>
    rw [is_revision] at valid
    cases valid
  | some revision =>
  rw [is_revision] at valid
  obtain ⟨large, valid⟩ := of_check_passed valid
  obtain ⟨other, valid⟩ := of_check_passed valid
  cases checked : checkedRange request.expectedRange editor.document.text with
  | none =>
    rw [checked] at valid
    cases valid
  | some bounds =>
  obtain ⟨start, stop⟩ := bounds
  rw [checked] at valid
  obtain ⟨caret, valid⟩ := of_check_passed valid
  obtain ⟨selection, valid⟩ := of_check_passed valid
  cases environment : checkEnvironment binding editor.document.uri request with
  | some reason =>
    rw [environment] at valid
    cases valid
  | none =>
  rw [environment] at valid
  obtain ⟨text, valid⟩ := of_check_passed valid
  cases valid
  obtain ⟨range, inside, whole, safe⟩ := checkedRange_eq_some_iff.mp checked
  obtain ⟨secure, composition, session⟩ := checkEnvironment_none environment
  have same_unit : request.expectedRange.unitSchema = .ofNat unitSchemaUtf16 :=
    JsNumber.strictEq_ofNat.mp (by simpa using unit)
  have same_revision : request.revision = .ofNat editor.document.version :=
    (JsNumber.safeNat_some is_revision).trans (congrArg JsNumber.ofNat (not_not.mp other).symm)
  have small : editor.document.version < maxRevision := by
    rw [not_not.mp other]
    exact Nat.not_le.mp large
  rw [Bool.or_eq_true, not_or] at caret
  have same_caret : request.caret = .ofNat editor.selectionEnd :=
    JsNumber.strictEq_ofNat.mp (by simpa using caret.1)
  have last : request.expectedRange.stop = request.caret := by
    have strict : request.expectedRange.stop.strictEq request.caret = true := by simpa using caret.2
    rw [same_caret] at strict ⊢
    exact JsNumber.strictEq_ofNat.mp strict
  rw [not_or, not_not, not_not] at selection
  exact ⟨{
    active := active
    visible := Nat.not_lt.mp visible
    protocol := not_not.mp protocol
    authenticated := not_not.mp authenticated
    host := not_not.mp host
    sessionId := not_not.mp sessionId
    identity := not_not.mp identity
    capabilities := not_not.mp capabilities
    unitSchema := same_unit
    revision := same_revision
    countable := small
    range := range
    inside := inside
    whole := whole
    caret := ⟨same_caret, last⟩
    selection := selection
    secure := secure
    composition := composition
    session := session
    text := not_not.mp text }, rfl, rfl, rfl, rfl, safe⟩

/-- The request matches the host at offsets that are safe integers. -/
def Accepted (numberText : Rat → JsString) (binding : HostBinding)
    (request : CompareAndReplaceRequest) : Prop :=
  ∃ editor start stop, Matches numberText binding request editor start stop ∧
    stop ≤ JsNumber.maxSafeInteger

theorem checkEnvironment_eq_none {editor : TextEditor} {start stop : Nat}
    (matched : Matches numberText binding request editor start stop) :
    checkEnvironment binding editor.document.uri request = none := by
  obtain ⟨secure, live_secure⟩ := matched.secure
  obtain ⟨composition, live_composition⟩ := matched.composition
  obtain ⟨session, live_session⟩ := matched.session
  simp [checkEnvironment, secure, live_secure, composition, live_composition, session, live_session]

/-- Nothing but the checks stands between a request and its edit. -/
theorem validate_of_matches {editor : TextEditor} {start stop : Nat}
    (matched : Matches numberText binding request editor start stop)
    (safe : stop ≤ JsNumber.maxSafeInteger) :
    validate numberText binding request = .ok {
      editor := editor
      start := start
      stop := stop
      validatedText := editor.document.text
      revisionBefore := editor.document.version
      expectedText := request.expectedText
      replacement := request.replacement } := by
  have revision : request.revision.safeNat = some editor.document.version := by
    have counted : maxRevision ≤ JsNumber.maxSafeInteger := by decide
    exact JsNumber.safeNat_eq_some_iff.mpr
      ⟨matched.revision, Nat.le_trans (Nat.le_of_lt matched.countable) counted⟩
  have range : checkedRange request.expectedRange editor.document.text = some (start, stop) :=
    checkedRange_eq_some_iff.mpr ⟨matched.range, matched.inside, matched.whole, safe⟩
  have unit : request.expectedRange.unitSchema.strictEq (.ofNat unitSchemaUtf16) = true :=
    JsNumber.strictEq_ofNat.mpr matched.unitSchema
  have caret : request.caret.strictEq (.ofNat editor.selectionEnd) = true :=
    JsNumber.strictEq_ofNat.mpr matched.caret.1
  have last : request.expectedRange.stop.strictEq request.caret = true := by
    rw [matched.caret.1]
    exact JsNumber.strictEq_ofNat.mpr (matched.caret.2.trans matched.caret.1)
  unfold validate
  simp only [matched.active, revision, range, checkEnvironment_eq_none matched]
  refine check_passes (Nat.not_lt.mpr matched.visible) ?_
  refine check_passes (not_not_intro matched.protocol) ?_
  refine check_passes (not_not_intro matched.authenticated) ?_
  refine check_passes (not_not_intro matched.host) ?_
  refine check_passes (not_not_intro matched.sessionId) ?_
  refine check_passes (not_not_intro matched.identity) ?_
  refine check_passes (not_not_intro matched.capabilities) ?_
  refine check_passes (by simp [unit]) ?_
  refine check_passes (Nat.not_le.mpr matched.countable) ?_
  refine check_passes (not_not_intro rfl) ?_
  refine check_passes (by simp [caret, last]) ?_
  refine check_passes (by simp [matched.selection]) ?_
  exact check_passes (not_not_intro matched.text) rfl

theorem accepted_iff : Accepted numberText binding request ↔
    ∃ commit, validate numberText binding request = .ok commit := by
  constructor
  · rintro ⟨editor, start, stop, matched, safe⟩
    exact ⟨_, validate_of_matches matched safe⟩
  · rintro ⟨commit, valid⟩
    obtain ⟨matched, _, _, _, _, safe⟩ := validate_ok valid
    exact ⟨_, _, _, matched, safe⟩

theorem finish_applied {commit : Commit} {queued : Bool} {settled : EditSettled} {version : Nat}
    {text : JsString} {revision : Nat}
    (applied : commit.finish queued settled version text = .applied revision) :
    settled = .resolved true ∧ queued = true ∧ revision = version ∧
      version = commit.revisionBefore + 1 ∧
      text = commit.validatedText.take commit.start ++ commit.replacement ++
        commit.validatedText.drop commit.stop := by
  unfold Commit.finish at applied
  split at applied
  · cases applied
  · cases applied
  · split_ifs at applied with idle same exact_
    simp only [Bool.not_eq_true', Bool.not_eq_false] at idle
    simp only [ne_eq, not_or, not_not] at exact_
    cases applied
    exact ⟨rfl, idle, rfl, exact_⟩

theorem finish_rejected {commit : Commit} {queued : Bool} {settled : EditSettled} {version : Nat}
    {text : JsString} {reason : RejectReason}
    (rejected : commit.finish queued settled version text = .rejected reason) :
    settled = .resolved false ∨ queued = false := by
  unfold Commit.finish at rejected
  split at rejected
  · cases rejected
  · exact .inl rfl
  · split_ifs at rejected with idle
    exact .inr (by simpa using idle)

theorem build_some {commit : Commit} {immediate : JsString} {replace : Replace}
    (queued : commit.build immediate = some replace) :
    replace = ⟨commit.start, commit.stop, commit.replacement⟩ := by
  unfold Commit.build at queued
  split at queued
  · cases queued
  · cases queued
    rfl

theorem edit_replaced (environment : EditEnvironment) (commit : Commit) :
    let run := edit environment commit
    (run.settled = .resolved false → run.replaced = []) ∧ (run.queued = false → run.replaced = []) ∧
      (run.settled = .resolved true → run.queued = true →
        run.replaced = [⟨commit.start, commit.stop, commit.replacement⟩]) := by
  simp only [edit]
  cases queue : commit.build (environment.beforeBuild commit.editor.document).text with
  | none => cases environment.fate <;> simp
  | some replace =>
    rw [build_some queue]
    cases environment.fate <;> simp

theorem Ledger.get_eq_none {ledger : Ledger} {requestId : JsString} :
    ledger.get requestId = none ↔ requestId ∉ ledger.entries.map Prod.fst := by
  rw [Ledger.get, List.lookup_eq_none_iff, List.mem_map]
  simp only [bne_iff_ne, ne_eq, not_exists, not_and]
  exact ⟨fun other entry isEntry same => other entry isEntry same.symm,
    fun other entry isEntry same => other entry isEntry same.symm⟩

theorem Ledger.remember_capacity (ledger : Ledger) (requestId canonical : JsString)
    (result : HostResult) :
    (ledger.remember requestId canonical result).capacity = ledger.capacity := by
  unfold Ledger.remember
  split <;> rfl

theorem begin_editing {ledger : Ledger} {commit : Commit}
    (begun : begin numberText binding ledger request = .editing commit) :
    request.requestId ≠ [] ∧ ledger.get request.requestId = none ∧
      validate numberText binding request = .ok commit := by
  unfold begin at begun
  split at begun
  · cases begun
  · rename_i named
    split at begun
    · cases begun
    · rename_i fresh
      split at begun
      · cases begun
      · rename_i valid
        cases begun
        exact ⟨by simpa using named, fresh, valid⟩

theorem begin_of_accepted {ledger : Ledger} (fresh : ledger.get request.requestId = none)
    (named : request.requestId ≠ []) (accepted : Accepted numberText binding request) :
    ∃ commit, begin numberText binding ledger request = .editing commit := by
  obtain ⟨commit, valid⟩ := accepted_iff.mp accepted
  refine ⟨commit, ?_⟩
  unfold begin
  rw [if_neg (by simpa using named), fresh, valid]

theorem begin_answered {ledger : Ledger} {result : HostResult}
    (fresh : ledger.get request.requestId = none)
    (begun : begin numberText binding ledger request = .answered result) :
    result = .rejected .malformedRequest := by
  unfold begin at begun
  rw [fresh] at begun
  split at begun
  · cases begun
    rfl
  · cases valid : validate numberText binding request <;> rw [valid] at begun <;> cases begun

/-- A call for a fresh id fails a check, or its result is read off one transaction. -/
theorem apply_cases {ledger : Ledger} (environment : EditEnvironment)
    (fresh : ledger.get request.requestId = none) :
    let run := apply numberText binding ledger request environment
    (run.replaced = [] ∧ (∃ reason, run.result = .rejected reason) ∧
        ∀ commit, begin numberText binding ledger request ≠ .editing commit) ∨
      ∃ commit, begin numberText binding ledger request = .editing commit ∧
        let edited := edit environment commit
        run.replaced = edited.replaced ∧ run.read = some edited.document ∧
          run.result = commit.finish edited.queued edited.settled edited.document.version
            edited.document.text := by
  unfold apply
  cases begun : begin numberText binding ledger request with
  | answered result =>
    rw [begin_answered fresh begun]
    exact .inl ⟨rfl, ⟨_, rfl⟩, fun commit is => by cases is⟩
  | rejected reason => exact .inl ⟨rfl, ⟨_, rfl⟩, fun commit is => by cases is⟩
  | editing commit => exact .inr ⟨commit, rfl, rfl, rfl, rfl⟩

theorem lost_indeterminate {environment : EditEnvironment} {commit : Commit} {carriedOut : Bool}
    (lost : environment.fate = .lost carriedOut) : (edit environment commit).settled = .failed := by
  simp only [edit, lost]

/-- `Applied` is said only of one replace carried out by a request that matched the host, with the
next version and exactly the expected text read afterwards; `Rejected` only if no replace was
carried out. A replace that cannot be proved exact, and a lost transaction, are `Indeterminate`. -/
theorem apply_sound (numberText : Rat → JsString) (binding : HostBinding) (ledger : Ledger)
    (request : CompareAndReplaceRequest) (environment : EditEnvironment)
    (fresh : ledger.get request.requestId = none) :
    let run := apply numberText binding ledger request environment
    (∀ revision, run.result = .applied revision →
      ∃ editor start stop, Matches numberText binding request editor start stop ∧
        run.replaced = [⟨start, stop, request.replacement⟩] ∧
        (∃ before, request.revision = .ofNat before ∧ revision = before + 1) ∧
        ∃ read, run.read = some read ∧ read.version = revision ∧
          read.text = editor.document.text.take start ++ request.replacement ++
            editor.document.text.drop stop) ∧
      (∀ reason, run.result = .rejected reason → run.replaced = []) ∧
      ((run.replaced ≠ [] ∨ ∃ commit carriedOut,
          begin numberText binding ledger request = .editing commit ∧
            environment.fate = .lost carriedOut) →
        (∀ revision, run.result ≠ .applied revision) →
          ∃ reason, run.result = .indeterminate reason) := by
  intro run
  rcases @apply_cases numberText binding request ledger environment fresh with
    ⟨none, ⟨reason, rejected⟩, idle⟩ | ⟨commit, begun, replaced, read, result⟩
  · refine ⟨fun revision applied => ?_, fun _ _ => none, fun effect _ => ?_⟩
    · exact absurd (rejected.symm.trans applied) (by simp)
    · rcases effect with some | ⟨commit, _, begun, _⟩
      · exact absurd none some
      · exact absurd begun (idle commit)
  · obtain ⟨_, _, valid⟩ := begin_editing begun
    obtain ⟨matched, text, version, _, replacement, _⟩ := validate_ok valid
    obtain ⟨refused, unqueued, carried⟩ := edit_replaced environment commit
    have nothing (reason : RejectReason) (rejected : run.result = .rejected reason) :
        run.replaced = [] := by
      rw [replaced]
      rcases finish_rejected (result.symm.trans rejected) with settled | queued
      · exact refused settled
      · exact unqueued queued
    refine ⟨fun revision applied => ?_, nothing, fun effect never => ?_⟩
    · obtain ⟨settled, queued, same, next, exact_⟩ := finish_applied (result.symm.trans applied)
      refine ⟨commit.editor, commit.start, commit.stop, matched, ?_,
        ⟨commit.editor.document.version, matched.revision, ?_⟩, _, read, same.symm, ?_⟩
      · rw [replaced, carried settled queued, replacement]
      · rw [same, next, version]
      · rw [exact_, text, replacement]
    · cases answer : run.result with
      | applied revision => exact absurd answer (never revision)
      | indeterminate reason => exact ⟨reason, rfl⟩
      | rejected reason =>
        rcases effect with some | ⟨other, carriedOut, _, lost⟩
        · exact absurd (nothing reason answer) some
        · have failed : (edit environment commit).settled = .failed := lost_indeterminate lost
          rw [result, failed] at answer
          cases answer

end Soundness

section Example

def resumeEditor : TextEditor where
  document := ⟨js "file:///d:/spike/doc.txt", 1, js "resume"⟩
  selectionCount := 1
  selectionStart := 6
  selectionEnd := 6
  documentEpoch := 1
  editorId := 1
  visibleEditorCount := 1

def resumeBinding : HostBinding where
  hostId := js "fake-host"
  sessionId := js "fake-session"
  session := .supportedLocal
  composition := .inactive
  capabilities := ⟨.ofNat 31, .ofNat 2⟩
  activeEditor := some resumeEditor
  secureStateFor := fun _ => .knownNonSecure

def resumeRequest : CompareAndReplaceRequest where
  protocolId := protocolId
  authenticated := true
  hostId := resumeBinding.hostId
  sessionId := resumeBinding.sessionId
  requestId := js "req-1"
  identity := resumeEditor.identity
  revision := .ofNat 1
  expectedRange := ⟨.ofNat 2, .ofNat 0, .ofNat 6⟩
  expectedText := js "resume"
  replacement := js "restored"
  caret := .ofNat 6
  selection := .empty
  secure := .knownNonSecure
  composition := .inactive
  session := .supportedLocal
  capabilities := resumeBinding.capabilities

def resumeCommit : Commit where
  editor := resumeEditor
  start := 0
  stop := 6
  validatedText := resumeEditor.document.text
  revisionBefore := 1
  expectedText := resumeRequest.expectedText
  replacement := resumeRequest.replacement

theorem resume_matched (numberText : Rat → JsString) :
    Matches numberText resumeBinding resumeRequest resumeEditor 0 6 where
  active := rfl
  visible := Nat.le_refl 1
  protocol := rfl
  authenticated := rfl
  host := rfl
  sessionId := rfl
  identity := rfl
  capabilities := rfl
  unitSchema := rfl
  revision := rfl
  countable := by decide
  range := ⟨rfl, rfl⟩
  inside := by decide
  whole := by decide
  caret := ⟨rfl, rfl⟩
  selection := ⟨rfl, rfl⟩
  secure := ⟨rfl, rfl⟩
  composition := ⟨rfl, rfl⟩
  session := ⟨rfl, rfl⟩
  text := rfl

theorem validate_resume (numberText : Rat → JsString) :
    validate numberText resumeBinding resumeRequest = .ok resumeCommit :=
  validate_of_matches (resume_matched numberText) (by decide)

theorem begin_resume (numberText : Rat → JsString) {ledger : Ledger}
    (fresh : ledger.get resumeRequest.requestId = none) :
    begin numberText resumeBinding ledger resumeRequest = .editing resumeCommit := by
  have named : resumeRequest.requestId.isEmpty = false := rfl
  unfold begin
  rw [named, fresh, validate_resume]
  rfl

def emptyLedger : Ledger := ⟨[], 256, by decide⟩

def wholeText (value : Rat) : JsString := js (toString value.num)

def quietEnvironment : EditEnvironment := ⟨id, id, .applied, id⟩

end Example

theorem apply_resume : (apply wholeText resumeBinding emptyLedger resumeRequest
    quietEnvironment).result = .applied 2 := by
  unfold apply
  rw [begin_resume wholeText rfl]
  rfl

theorem apply_sound_resume :
    let run := apply wholeText resumeBinding emptyLedger resumeRequest quietEnvironment
    run.result = .applied 2 ∧
      (∀ revision, run.result = .applied revision →
        ∃ editor start stop, Matches wholeText resumeBinding resumeRequest editor start stop ∧
          run.replaced = [⟨start, stop, resumeRequest.replacement⟩] ∧
          (∃ before, resumeRequest.revision = .ofNat before ∧ revision = before + 1) ∧
          ∃ read, run.read = some read ∧ read.version = revision ∧
            read.text = editor.document.text.take start ++ resumeRequest.replacement ++
              editor.document.text.drop stop) :=
  ⟨apply_resume,
    (apply_sound wholeText resumeBinding emptyLedger resumeRequest quietEnvironment rfl).1⟩

end ZonKey.Host

import ZonKey.HostAdapter

set_option autoImplicit false

namespace ZonKey.Host

inductive SnapshotRefusalReason where
  | noActiveEditor
  | multiSelection
  | multipleEditors
  | selectionNotEmpty
  | rangeInvalid
  | candidateMismatch
  deriving DecidableEq, Repr

structure HostSnapshot where
  protocolId : JsString
  hostId : JsString
  sessionId : JsString
  identity : TargetIdentity
  revision : JsNumber
  range : TextRange
  expectedText : JsString
  replacement : JsString
  caret : JsNumber
  selection : SelectionState
  secure : SecureState
  composition : CompositionState
  session : SessionState
  capabilities : Capabilities
  deriving DecidableEq

structure Candidate where
  expectedText : JsString
  replacement : JsString

def snapshotAt (binding : HostBinding) (editor : TextEditor) (rangeStart : Nat)
    (candidate : Candidate) : HostSnapshot where
  protocolId := protocolId
  hostId := binding.hostId
  sessionId := binding.sessionId
  identity := editor.identity
  revision := .ofNat editor.document.version
  range := ⟨.ofNat unitSchemaUtf16, .ofNat rangeStart, .ofNat editor.selectionEnd⟩
  expectedText := candidate.expectedText
  replacement := candidate.replacement
  caret := .ofNat editor.selectionEnd
  selection := .empty
  secure := binding.secureStateFor editor.document.uri
  composition := binding.composition
  session := binding.session
  capabilities := binding.capabilities

def captureSnapshot (binding : HostBinding) (candidate : Candidate) :
    Except SnapshotRefusalReason HostSnapshot :=
  if candidate.expectedText.length = 0 ∨ candidate.replacement.length = 0 then
    .error .rangeInvalid
  else
    match binding.activeEditor with
    | none => .error .noActiveEditor
    | some editor =>
      if 1 < editor.visibleEditorCount then .error .multipleEditors
      else if editor.selectionCount ≠ 1 then .error .multiSelection
      else if editor.selectionStart ≠ editor.selectionEnd then .error .selectionNotEmpty
      else
        let caret := editor.selectionEnd
        let text := editor.document.text
        if text.length < caret ∨ splitsSurrogate text caret = true ∨
            caret < candidate.expectedText.length then .error .rangeInvalid
        else
          let rangeStart := caret - candidate.expectedText.length
          if splitsSurrogate text rangeStart = true then .error .rangeInvalid
          else if slice text rangeStart caret ≠ candidate.expectedText then
            .error .candidateMismatch
          else .ok (snapshotAt binding editor rangeStart candidate)

def requestFromSnapshot (snapshot : HostSnapshot) (requestId : JsString) :
    CompareAndReplaceRequest where
  protocolId := snapshot.protocolId
  authenticated := true
  hostId := snapshot.hostId
  sessionId := snapshot.sessionId
  requestId := requestId
  identity := snapshot.identity
  revision := snapshot.revision
  expectedRange := snapshot.range
  expectedText := snapshot.expectedText
  replacement := snapshot.replacement
  caret := snapshot.caret
  selection := snapshot.selection
  secure := snapshot.secure
  composition := snapshot.composition
  session := snapshot.session
  capabilities := snapshot.capabilities

/-- What the request would have been captured for. -/
def CompareAndReplaceRequest.candidate (request : CompareAndReplaceRequest) : Candidate :=
  ⟨request.expectedText, request.replacement⟩

/-- The conditions that `captureSnapshot` checks and `validateAndApply` does not. -/
def Unambiguous (binding : HostBinding) (request : CompareAndReplaceRequest) : Prop :=
  (∀ editor, binding.activeEditor = some editor → editor.selectionCount = 1) ∧
    request.expectedText ≠ [] ∧ request.replacement ≠ []

/-- `apply` returns `Rejected` and has not invoked `editor.edit`. -/
def RejectedUnedited (numberText : Rat → JsString) (binding : HostBinding) (ledger : Ledger)
    (request : CompareAndReplaceRequest) (environment : EditEnvironment) : Prop :=
  (∃ reason, (apply numberText binding ledger request environment).result = .rejected reason) ∧
    ∀ commit, begin numberText binding ledger request ≠ .editing commit

section Strictness
variable {numberText : Rat → JsString} {binding : HostBinding} {request : CompareAndReplaceRequest}

theorem slice_length {text : JsString} {start stop : Nat} (inside : stop ≤ text.length) :
    (slice text start stop).length = stop - start := by
  simp [slice, List.length_drop, List.length_take, Nat.min_eq_left inside]

theorem Matches.start_eq {editor : TextEditor} {start stop : Nat}
    (matched : Matches numberText binding request editor start stop) :
    stop = editor.selectionEnd ∧ request.expectedText.length ≤ stop ∧
      start = stop - request.expectedText.length := by
  have caret : JsNumber.ofNat stop = .ofNat editor.selectionEnd :=
    (matched.range.2.symm.trans matched.caret.2).trans matched.caret.1
  have length := @slice_length _ start stop matched.inside.2
  rw [matched.text] at length
  have ordered := matched.inside.1
  refine ⟨?_, by omega, by omega⟩
  simpa [JsNumber.ofNat] using caret

/-- A request that matches the host could have been captured, were it not for the conditions that
only `captureSnapshot` checks. -/
theorem capture_ok_iff {editor : TextEditor} {start stop : Nat}
    (matched : Matches numberText binding request editor start stop) :
    (∃ snapshot, captureSnapshot binding request.candidate = .ok snapshot) ↔
      Unambiguous binding request := by
  obtain ⟨caret, long, first⟩ := matched.start_eq
  subst caret first
  unfold captureSnapshot
  simp only [matched.active]
  constructor
  · rintro ⟨snapshot, captured⟩
    obtain ⟨texts, captured⟩ := of_check_passed captured
    obtain ⟨_, captured⟩ := of_check_passed captured
    obtain ⟨single, _⟩ := of_check_passed captured
    rw [not_or] at texts
    refine ⟨fun other active => ?_, fun empty => ?_, fun empty => ?_⟩
    · cases matched.active.symm.trans active
      exact not_not.mp single
    · exact texts.1 (congrArg List.length empty)
    · exact texts.2 (congrArg List.length empty)
  · rintro ⟨single, expected, replacement⟩
    refine ⟨snapshotAt binding editor (editor.selectionEnd - request.expectedText.length)
      request.candidate, ?_⟩
    refine check_passes ?_ ?_
    · rw [not_or]
      exact ⟨fun empty => expected (List.length_eq_zero_iff.mp empty),
        fun empty => replacement (List.length_eq_zero_iff.mp empty)⟩
    refine check_passes (Nat.not_lt.mpr matched.visible) ?_
    refine check_passes (not_not_intro (single editor matched.active)) ?_
    refine check_passes (not_not_intro matched.selection.2) ?_
    refine check_passes ?_ ?_
    · rw [not_or, not_or]
      exact ⟨Nat.not_lt.mpr matched.inside.2, ne_true_of_eq_false matched.whole.2, Nat.not_lt.mpr long⟩
    refine check_passes (ne_true_of_eq_false matched.whole.1) ?_
    exact check_passes (not_not_intro matched.text) rfl

theorem rejected_of_not_accepted {ledger : Ledger} (environment : EditEnvironment)
    (fresh : ledger.get request.requestId = none)
    (refused : request.requestId = [] ∨ ¬ Accepted numberText binding request) :
    RejectedUnedited numberText binding ledger request environment := by
  rcases @apply_cases numberText binding request ledger environment fresh with
    ⟨_, rejected, idle⟩ | ⟨commit, begun, _⟩
  · exact ⟨rejected, idle⟩
  · obtain ⟨named, _, valid⟩ := begin_editing begun
    rcases refused with unnamed | mismatched
    · exact absurd unnamed named
    · exact absurd (accepted_iff.mpr ⟨commit, valid⟩) mismatched

theorem capture_ok {candidate : Candidate} {snapshot : HostSnapshot}
    (captured : captureSnapshot binding candidate = .ok snapshot) :
    ∃ editor, binding.activeEditor = some editor ∧ editor.visibleEditorCount ≤ 1 ∧
      editor.selectionStart = editor.selectionEnd ∧
      editor.selectionEnd ≤ editor.document.text.length ∧
      splitsSurrogate editor.document.text editor.selectionEnd = false ∧
      ∃ start ≤ editor.selectionEnd, splitsSurrogate editor.document.text start = false ∧
        slice editor.document.text start editor.selectionEnd = candidate.expectedText ∧
        snapshot = snapshotAt binding editor start candidate := by
  unfold captureSnapshot at captured
  obtain ⟨_, captured⟩ := of_check_passed captured
  cases active : binding.activeEditor with
  | none =>
    rw [active] at captured
    cases captured
  | some editor =>
    rw [active] at captured
    obtain ⟨visible, captured⟩ := of_check_passed captured
    obtain ⟨_, captured⟩ := of_check_passed captured
    obtain ⟨selection, captured⟩ := of_check_passed captured
    obtain ⟨range, captured⟩ := of_check_passed captured
    obtain ⟨start, captured⟩ := of_check_passed captured
    obtain ⟨text, captured⟩ := of_check_passed captured
    cases captured
    rw [not_or, not_or, Bool.not_eq_true] at range
    exact ⟨editor, rfl, Nat.not_lt.mp visible, not_not.mp selection, Nat.not_lt.mp range.1, range.2.1,
      _, Nat.sub_le _ _, Bool.not_eq_true _ ▸ start, not_not.mp text, rfl⟩

theorem accepted_of_captured {candidate : Candidate} {snapshot : HostSnapshot}
    (captured : captureSnapshot binding candidate = .ok snapshot) (requestId : JsString)
    (allowed : snapshot.secure = .knownNonSecure ∧ snapshot.composition = .inactive ∧
      snapshot.session = .supportedLocal)
    (small : ∀ editor, binding.activeEditor = some editor →
      editor.document.version < maxRevision ∧ editor.selectionEnd ≤ JsNumber.maxSafeInteger) :
    Accepted numberText binding (requestFromSnapshot snapshot requestId) := by
  obtain ⟨editor, active, visible, selection, inside, last, start, ordered, first, text, rfl⟩ :=
    capture_ok captured
  obtain ⟨countable, safe⟩ := small editor active
  obtain ⟨secure, composition, session⟩ := allowed
  exact ⟨editor, start, editor.selectionEnd, {
    active := active
    visible := visible
    protocol := rfl
    authenticated := rfl
    host := rfl
    sessionId := rfl
    identity := rfl
    capabilities := rfl
    unitSchema := rfl
    revision := rfl
    countable := countable
    range := ⟨rfl, rfl⟩
    inside := ⟨ordered, inside⟩
    whole := ⟨first, last⟩
    caret := ⟨rfl, rfl⟩
    selection := ⟨rfl, selection⟩
    secure := ⟨secure, secure⟩
    composition := ⟨composition, composition⟩
    session := ⟨session, session⟩
    text := text }, safe⟩

end Strictness

/-- Whatever `captureSnapshot` refuses, `apply` rejects without an edit, exactly if a request that
passes every check of `apply` has one selection to deal with and two texts that are not empty. -/
theorem apply_strict_iff (numberText : Rat → JsString) (binding : HostBinding) (ledger : Ledger)
    (request : CompareAndReplaceRequest) (environment : EditEnvironment)
    (fresh : ledger.get request.requestId = none) :
    (∀ reason, captureSnapshot binding request.candidate = .error reason →
        RejectedUnedited numberText binding ledger request environment) ↔
      (request.requestId ≠ [] → Accepted numberText binding request →
        Unambiguous binding request) := by
  constructor
  · intro strict named accepted
    obtain ⟨commit, begun⟩ := begin_of_accepted fresh named accepted
    obtain ⟨editor, start, stop, matched, _⟩ := accepted
    cases captured : captureSnapshot binding request.candidate with
    | ok snapshot => exact (capture_ok_iff matched).mp ⟨snapshot, captured⟩
    | error reason => exact absurd begun ((strict reason captured).2 commit)
  · intro unambiguous reason refused
    refine rejected_of_not_accepted environment fresh ?_
    by_cases named : request.requestId = []
    · exact .inl named
    · refine .inr fun accepted => ?_
      have condition := unambiguous named accepted
      obtain ⟨editor, start, stop, matched, _⟩ := accepted
      obtain ⟨snapshot, captured⟩ := (capture_ok_iff matched).mpr condition
      cases refused.symm.trans captured

section Example

def cursorsEditor : TextEditor := { resumeEditor with selectionCount := 2 }

def cursorsBinding : HostBinding := { resumeBinding with activeEditor := some cursorsEditor }

theorem cursors_matched (numberText : Rat → JsString) :
    Matches numberText cursorsBinding resumeRequest cursorsEditor 0 6 :=
  { resume_matched numberText with active := rfl }

end Example

theorem apply_strict_resume :
    (∀ reason, captureSnapshot resumeBinding resumeRequest.candidate = .error reason →
        RejectedUnedited wholeText resumeBinding emptyLedger resumeRequest quietEnvironment) ↔
      (resumeRequest.requestId ≠ [] → Accepted wholeText resumeBinding resumeRequest →
        Unambiguous resumeBinding resumeRequest) :=
  apply_strict_iff wholeText resumeBinding emptyLedger resumeRequest quietEnvironment rfl

theorem capture_refused_apply_edits :
    ¬ ∀ binding ledger (request : CompareAndReplaceRequest) environment reason,
      Ledger.get ledger request.requestId = none →
        captureSnapshot binding request.candidate = .error reason →
          RejectedUnedited wholeText binding ledger request environment := by
  intro strict
  have refused : captureSnapshot cursorsBinding resumeRequest.candidate = .error .multiSelection :=
    rfl
  have accepted : Accepted wholeText cursorsBinding resumeRequest :=
    ⟨_, _, _, cursors_matched wholeText, by decide⟩
  obtain ⟨commit, begun⟩ := @begin_of_accepted wholeText cursorsBinding resumeRequest emptyLedger rfl
    (by decide) accepted
  have rejected := strict cursorsBinding emptyLedger resumeRequest quietEnvironment _ rfl refused
  exact rejected.2 commit begun

end ZonKey.Host

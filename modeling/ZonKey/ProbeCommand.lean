import ZonKey.CanonicalJson
import ZonKey.RealBinding

set_option autoImplicit false

namespace ZonKey.Host
open Runs ZonKey.Numbering

theorem checkEnvironment_unknown {binding : HostBinding} {uri : JsString}
    {request : CompareAndReplaceRequest} (secure : request.secure = binding.secureStateFor uri)
    (file : binding.secureStateFor uri = .knownNonSecure)
    (composition : request.composition = binding.composition)
    (unknown : binding.composition = .unknown) :
    checkEnvironment binding uri request = some .compositionUnknown := by
  simp [checkEnvironment, secure, file, composition, unknown]

theorem check_skipped {ε α : Type} {check : Prop} [Decidable check] {reason : ε}
    {rest result : Except ε α} (passes : ¬ check) (valid : rest = result) :
    (if check then .error reason else rest) = result := by
  rw [if_neg passes, valid]

theorem validate_captured (numberText : Rat → JsString) {binding : HostBinding}
    {candidate : Candidate} {snapshot : HostSnapshot}
    (captured : captureSnapshot binding candidate = .ok snapshot) (requestId : JsString)
    (unknown : binding.composition = .unknown)
    (measured : ∀ editor, binding.activeEditor = some editor →
      editor.document.version < maxRevision ∧ editor.selectionEnd ≤ JsNumber.maxSafeInteger ∧
        binding.secureStateFor editor.document.uri = .knownNonSecure) :
    validate numberText binding (requestFromSnapshot snapshot requestId) =
      .error .compositionUnknown := by
  obtain ⟨editor, active, visible, selection, inside, last, start, ordered, first, text, rfl⟩ :=
    capture_ok captured
  obtain ⟨countable, safe, file⟩ := measured editor active
  have environment : checkEnvironment binding editor.document.uri
      (requestFromSnapshot (snapshotAt binding editor start candidate) requestId) =
        some .compositionUnknown := checkEnvironment_unknown rfl file rfl unknown
  have revision : (requestFromSnapshot (snapshotAt binding editor start candidate)
      requestId).revision.safeNat = some editor.document.version :=
    JsNumber.safeNat_eq_some_iff.mpr ⟨rfl, by
      have bound : maxRevision ≤ JsNumber.maxSafeInteger := by decide
      omega⟩
  have range : checkedRange (requestFromSnapshot (snapshotAt binding editor start candidate)
      requestId).expectedRange editor.document.text = some (start, editor.selectionEnd) :=
    checkedRange_eq_some_iff.mpr ⟨⟨rfl, rfl⟩, ⟨ordered, inside⟩, ⟨first, last⟩, safe⟩
  have strict (n : Nat) : (JsNumber.ofNat n).strictEq (.ofNat n) = true :=
    JsNumber.strictEq_ofNat.mpr rfl
  unfold validate
  rw [active]
  refine check_skipped (Nat.not_lt.mpr visible) ?_
  refine check_skipped (not_not.mpr rfl) (check_skipped (not_not.mpr rfl) ?_)
  refine check_skipped (not_not.mpr rfl) (check_skipped (not_not.mpr rfl) ?_)
  refine check_skipped (not_not.mpr rfl) (check_skipped (not_not.mpr rfl) ?_)
  refine check_skipped ?_ ?_
  · simp [requestFromSnapshot, snapshotAt, strict]
  · rw [revision]
    refine check_skipped (Nat.not_le.mpr countable) (check_skipped (not_not.mpr rfl) ?_)
    rw [range]
    refine check_skipped ?_ (check_skipped ?_ ?_)
    · simp [requestFromSnapshot, snapshotAt, strict]
    · rw [not_or, not_not, not_not]
      exact ⟨rfl, selection⟩
    · rw [environment]

theorem begin_rejected {numberText : Rat → JsString} {binding : HostBinding} {ledger : Ledger}
    {request : CompareAndReplaceRequest} {reason : RejectReason}
    (named : request.requestId.isEmpty = false) (fresh : ledger.get request.requestId = none)
    (invalid : validate numberText binding request = .error reason) :
    begin numberText binding ledger request = .rejected reason := by
  unfold begin
  rw [named, if_neg Bool.false_ne_true, fresh, invalid]

namespace RealBinding
variable {binding : RealBinding} {window : VsWindow}

/-- What the adapter relies on in a window: a uri that begins with its scheme,
and numbers that the contract counts. -/
def Measured (window : VsWindow) : Prop :=
  ∀ editor, fileEditor window = some editor →
    editor.document.uri.takeWhile (· ≠ 0x3a) = editor.document.scheme ∧
      editor.document.version < maxRevision ∧ editor.selectionEnd ≤ JsNumber.maxSafeInteger

def FilesOnly (binding : RealBinding) : Prop :=
  ∀ object port, binding.documents.assigned.lookup object = some port →
    secureStateFor port.1 = .knownNonSecure

theorem file_of_active {editor : VsEditor} (active : fileEditor window = some editor) :
    editor.document.scheme = js "file" := by
  have kept := (Option.filter_eq_some_iff.mp active).2
  simpa using kept

theorem FilesOnly.issue (files : binding.FilesOnly) (measured : Measured window)
    {editor : VsEditor} (active : fileEditor window = some editor) :
    secureStateFor (binding.documents.issue editor.document.uri editor.document.object).1.1 =
      .knownNonSecure := by
  cases known : binding.documents.assigned.lookup editor.document.object with
  | some port =>
    rw [Numbers.issue_known known]
    exact files _ port known
  | none =>
    rw [Numbers.issue_fresh known]
    unfold secureStateFor deriveSecureState
    rw [(measured editor active).1, if_pos (file_of_active active)]

theorem FilesOnly.next (files : binding.FilesOnly) (measured : Measured window) :
    (binding.next window).FilesOnly := by
  cases active : fileEditor window with
  | none =>
    rw [next_of_inactive active]
    exact files
  | some editor =>
    rw [next_of_active active]
    intro object port here
    by_cases same : object = editor.document.object
    · subst same
      rw [Numbers.lookup_issue_self] at here
      cases here
      exact files.issue measured active
    · rw [Numbers.lookup_issue_other _ same] at here
      exact files object port here

theorem FilesOnly.active (files : binding.FilesOnly) (measured : Measured window) (env : VsEnv)
    {editor : TextEditor} (active : (binding.read env window).activeEditor = some editor) :
    editor.document.version < maxRevision ∧ editor.selectionEnd ≤ JsNumber.maxSafeInteger ∧
      (binding.read env window).secureStateFor editor.document.uri = .knownNonSecure := by
  change (binding.getActiveEditor window).1 = some editor at active
  cases shown : fileEditor window with
  | none => simp [getActiveEditor, shown] at active
  | some vsEditor =>
    simp only [getActiveEditor, shown, Option.some.injEq] at active
    subst active
    obtain ⟨_, version, offset⟩ := measured vsEditor shown
    exact ⟨version, offset, files.issue measured shown⟩

theorem read_next (binding : RealBinding) (env : VsEnv) (window : VsWindow) :
    (binding.next window).read env window = binding.read env window := by
  have same : ((binding.next window).getActiveEditor window).1 =
      (binding.getActiveEditor window).1 := by
    cases active : fileEditor window with
    | none => simp only [getActiveEditor, active]
    | some editor =>
      rw [next_of_active active]
      simp only [getActiveEditor, active, Numbers.issue_known (Numbers.lookup_issue_self _ _)]
  unfold read
  rw [same]

end RealBinding

structure Probe where
  binding : RealBinding
  adapter : Overlap
  counter : Nat

/-- A probe with what the window shows, or the adapter's next step in an earlier one. -/
inductive ProbeMove where
  | probe (window : VsWindow)
  | settle (number : Nat) (queued : Bool) (settled : EditSettled) (version : Nat) (text : JsString)
  | finish (number : Nat)

namespace Probe

def candidate : Candidate := ⟨js "zonkey-spike-target", js "zonkey-spike-applied"⟩

def activate (capacity : Nat) (capacity_pos : 0 < capacity) : Probe :=
  ⟨.create, .new capacity capacity_pos, 0⟩

def requestId (env : VsEnv) (counter : Nat) : JsString :=
  env.sessionId ++ js ":" ++ JsNumber.numeral counter

def probe (numberText : Rat → JsString) (env : VsEnv) (state : Probe) (window : VsWindow) : Probe :=
  let binding := state.binding.next window
  match captureSnapshot (state.binding.read env window) candidate with
  | .error _ => { state with binding }
  | .ok snapshot =>
    let counter := state.counter + 1
    let request := requestFromSnapshot snapshot (requestId env counter)
    ⟨binding, state.adapter.call numberText (binding.read env window) request, counter⟩

def step (numberText : Rat → JsString) (env : VsEnv) (state : Probe) : ProbeMove → Probe
  | .probe window => state.probe numberText env window
  | .settle number queued settled version text =>
    { state with adapter := state.adapter.settle number queued settled version text }
  | .finish number => { state with adapter := state.adapter.finish number }

def Measured : ProbeMove → Prop
  | .probe window => RealBinding.Measured window
  | .settle .. | .finish _ => True

theorem requestId_inj {env : VsEnv} {n m : Nat} (same : requestId env n = requestId env m) :
    n = m :=
  numeral_inj (List.append_cancel_left same)

structure Turned (env : VsEnv) (state : Probe) : Prop where
  files : state.binding.FilesOnly
  unedited : state.adapter.edits = []
  waiting : ∀ call ∈ state.adapter.pending,
    call.phase = .settled (.rejected .compositionUnknown) ∧
      ∃ n ≤ state.counter, call.requestId = requestId env n
  recorded : ∀ entry ∈ state.adapter.ledger.entries, ∃ n ≤ state.counter, entry.1 = requestId env n
  returned : ∀ call ∈ state.adapter.returned, call.result = .rejected .compositionUnknown
  accounted : state.adapter.returned.length + state.adapter.pending.length = state.counter

variable {numberText : Rat → JsString} {env : VsEnv} {state : Probe}

theorem turned_activate (capacity : Nat) (capacity_pos : 0 < capacity) :
    (activate capacity capacity_pos).Turned env where
  files := nofun
  unedited := rfl
  waiting := nofun
  recorded := nofun
  returned := nofun
  accounted := rfl

theorem Turned.fresh (turned : state.Turned env) :
    state.adapter.ledger.get (requestId env (state.counter + 1)) = none := by
  rw [Ledger.get_eq_none]
  intro mem
  obtain ⟨entry, inside, same⟩ := List.mem_map.mp mem
  obtain ⟨n, small, named⟩ := turned.recorded entry inside
  have number := requestId_inj (named.symm.trans same)
  omega

theorem Turned.probe (turned : state.Turned env) {window : VsWindow}
    (measured : RealBinding.Measured window) :
    (state.probe numberText env window).Turned env := by
  have files := turned.files.next measured
  unfold Probe.probe
  cases captured : captureSnapshot (state.binding.read env window) candidate with
  | error reason => exact { turned with files }
  | ok snapshot =>
    have begun : begin numberText ((state.binding.next window).read env window)
        state.adapter.ledger (requestFromSnapshot snapshot (requestId env (state.counter + 1))) =
          .rejected .compositionUnknown := by
      have named : (requestId env (state.counter + 1)).isEmpty = false := by
        simp [requestId, js]
      have valid := validate_captured numberText captured (requestId env (state.counter + 1)) rfl
        (fun editor active => turned.files.active measured env active)
      rw [state.binding.read_next]
      exact begin_rejected named turned.fresh valid
    dsimp only
    unfold Overlap.call
    rw [begun]
    refine ⟨files, turned.unedited, ?_, ?_, turned.returned, ?_⟩
    · intro call mem
      rcases List.mem_append.mp mem with old | new
      · obtain ⟨phase, n, small, named⟩ := turned.waiting call old
        exact ⟨phase, n, Nat.le_succ_of_le small, named⟩
      · rw [List.mem_singleton.mp new]
        exact ⟨rfl, _, Nat.le_refl _, rfl⟩
    · intro entry mem
      obtain ⟨n, small, named⟩ := turned.recorded entry mem
      exact ⟨n, Nat.le_succ_of_le small, named⟩
    · have accounted := turned.accounted
      simp only [Overlap.wait, List.length_append, List.length_singleton]
      omega

theorem Turned.settle (turned : state.Turned env) (number : Nat) (queued : Bool)
    (settled : EditSettled) (version : Nat) (text : JsString) :
    ({ state with adapter := state.adapter.settle number queued settled version text }).Turned
      env := by
  refine { turned with waiting := fun call mem => ?_, accounted := ?_ }
  · obtain ⟨old, inside, rfl⟩ := List.mem_map.mp mem
    obtain ⟨phase, named⟩ := turned.waiting old inside
    split
    · exact ⟨by simp only [phase, Overlap.settlePhase], named⟩
    · exact ⟨phase, named⟩
  · rw [← turned.accounted]
    simp only [Overlap.settle, List.length_map]

theorem Turned.finish (turned : state.Turned env) (number : Nat) :
    ({ state with adapter := state.adapter.finish number }).Turned env := by
  unfold Overlap.finish
  split
  · exact turned
  · rename_i waiting found
    have inside := List.mem_of_find?_eq_some found
    obtain ⟨phase, n, small, named⟩ := turned.waiting waiting inside
    rw [phase]
    dsimp only
    refine ⟨turned.files, turned.unedited, ?_, ?_, ?_, ?_⟩
    · exact fun call mem => turned.waiting call (List.mem_of_mem_eraseP mem)
    · intro entry mem
      unfold Ledger.remember at mem
      split at mem
      · exact turned.recorded entry mem
      · rcases List.mem_append.mp mem with old | new
        · exact turned.recorded entry (List.mem_of_mem_drop old)
        · rw [List.mem_singleton.mp new]
          exact ⟨n, small, named⟩
    · intro call mem
      rcases List.mem_append.mp mem with old | new
      · exact turned.returned call old
      · rw [List.mem_singleton.mp new]
    · have accounted := turned.accounted
      have shorter := List.length_eraseP_of_mem inside (List.find?_some found)
      have some_call := List.length_pos_of_mem inside
      simp only [List.length_append, List.length_singleton, shorter]
      omega

/-- However the probes of a session overlap, none of them calls for an edit, and
each one that captured a snapshot returns one rejection, because the composition
is not known, or still waits to return it. -/
theorem probes_rejected (numberText : Rat → JsString) (env : VsEnv) (capacity : Nat)
    (capacity_pos : 0 < capacity) (moves : List ProbeMove) (measured : ∀ move ∈ moves, Measured move) :
    let state := run (step numberText env) (activate capacity capacity_pos) moves
    state.adapter.edits = [] ∧
      state.adapter.returned.length + state.adapter.pending.length = state.counter ∧
      (∀ call ∈ state.adapter.returned, call.result = .rejected .compositionUnknown) ∧
      ∀ call ∈ state.adapter.pending, call.phase = .settled (.rejected .compositionUnknown) := by
  have kept : (run (step numberText env) (activate capacity capacity_pos) moves).Turned env := by
    refine run_invariant (P := fun _ move => Measured move) (Turned env) ?_
      (turned_activate capacity capacity_pos) (allSteps_of_split ?_)
    · intro state move turned fits
      cases move with
      | probe window => exact turned.probe fits
      | settle => exact turned.settle _ _ _ _ _
      | finish => exact turned.finish _
    · rintro before move after rfl
      exact measured move (by simp)
  exact ⟨kept.unedited, kept.accounted, kept.returned, fun call mem => (kept.waiting call mem).1⟩

def spikeEnv : VsEnv := ⟨js "Code", js "desktop", js "1.99.0", js "s1", none⟩

def spikeDocument : VsDocument :=
  ⟨0, js "file", js "file:///a", 3, js "zonkey-spike-target"⟩

def spikeWindow : VsWindow := ⟨some ⟨1, spikeDocument, 1, 19, 19⟩, [⟨1, spikeDocument, 1, 19, 19⟩]⟩

theorem measured_spikeWindow : RealBinding.Measured spikeWindow := by
  intro editor active
  obtain ⟨shown, _⟩ := Option.filter_eq_some_iff.mp active
  cases shown
  refine ⟨?_, ?_, ?_⟩
  · simp [spikeDocument, js]
  · simp [spikeDocument, maxRevision]
  · simp [JsNumber.maxSafeInteger]

theorem probes_rejected_twice :
    let state := run (step wholeText spikeEnv) (activate 256 (by decide))
      [.probe spikeWindow, .probe spikeWindow, .finish 1]
    state.adapter.edits = [] ∧
      state.adapter.returned.length + state.adapter.pending.length = state.counter ∧
      (∀ call ∈ state.adapter.returned, call.result = .rejected .compositionUnknown) ∧
      ∀ call ∈ state.adapter.pending, call.phase = .settled (.rejected .compositionUnknown) := by
  refine probes_rejected wholeText spikeEnv 256 (by decide) _ ?_
  intro move mem
  simp only [List.mem_cons, List.not_mem_nil, or_false] at mem
  rcases mem with rfl | rfl | rfl
  · exact measured_spikeWindow
  · exact measured_spikeWindow
  · trivial

end Probe
end ZonKey.Host

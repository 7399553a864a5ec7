import ZonKey.HostCapture
import ZonKey.HostOverlap
import ZonKey.HandoffPayload
import ZonKey.Numbering

set_option autoImplicit false

/-!
# The binding to the real editor

`createRealBinding` of `vscode-binding.ts` with its policy. An object of the
editor's interface is a number here; the maps keyed by objects hand out epochs
and editor ids.
-/
namespace ZonKey.Host
open Runs ZonKey.Numbering

section Policy

def capSnapshot : Nat := 0b00000001
def capCompareAndReplace : Nat := 0b00000010
def capUtf16Units : Nat := 0b00000100
def capIdempotentRequests : Nat := 0b00001000

def realHostComposition : CompositionState := .unknown

def deriveSessionState (appHost : JsString) (remoteName : Option JsString) : SessionState :=
  if remoteName.isSome then .unsupportedRemote
  else if appHost = js "desktop" then .supportedLocal
  else .unknown

def deriveSecureState (uriScheme : JsString) : SecureState :=
  if uriScheme = js "file" then .knownNonSecure else .unknown

def realCapabilities : Capabilities where
  flags := .ofNat (capSnapshot ||| capCompareAndReplace ||| capUtf16Units ||| capIdempotentRequests)
  unitSchema := .ofNat unitSchemaUtf16

end Policy

structure VsDocument where
  object : Nat
  scheme : JsString
  uri : JsString
  version : Nat
  text : JsString

/-- An editor object; its document is the same for its lifetime. -/
structure VsEditor where
  object : Nat
  document : VsDocument
  selectionCount : Nat
  selectionStart : Nat
  selectionEnd : Nat

/-- What the window shows at one moment. -/
structure VsWindow where
  activeTextEditor : Option VsEditor
  visibleTextEditors : List VsEditor

/-- `vscode.env`, read once when the binding is created. -/
structure VsEnv where
  appName : JsString
  appHost : JsString
  version : JsString
  sessionId : JsString
  remoteName : Option JsString

/-- The ports of document objects, an epoch for each uri, and the ids of editor objects. -/
structure RealBinding where
  documents : Numbers Nat JsString
  editors : Numbers Nat Unit

namespace RealBinding

def create : RealBinding := ⟨.empty, .empty⟩

/-- The active editor that the binding answers about. -/
def fileEditor (window : VsWindow) : Option VsEditor :=
  window.activeTextEditor.filter fun editor => editor.document.scheme = js "file"

def visibleEditorCount (window : VsWindow) (uri : JsString) : Nat :=
  window.visibleTextEditors.countP fun editor =>
    editor.document.scheme = js "file" && editor.document.uri = uri

/-- `getActiveEditor`, with what the binding answers about the port it returns. -/
def getActiveEditor (binding : RealBinding) (window : VsWindow) : Option TextEditor × RealBinding :=
  match fileEditor window with
  | none => (none, binding)
  | some editor =>
    -- an editor whose port is cached has the port of its document cached as well
    let ((uri, documentEpoch), documents) :=
      binding.documents.issue editor.document.uri editor.document.object
    let ((_, editorId), editors) := binding.editors.issue () editor.object
    (some {
      document := ⟨uri, editor.document.version, editor.document.text⟩
      selectionCount := editor.selectionCount
      selectionStart := editor.selectionStart
      selectionEnd := editor.selectionEnd
      documentEpoch
      editorId
      visibleEditorCount := visibleEditorCount window uri }, ⟨documents, editors⟩)

def secureStateFor (documentUri : JsString) : SecureState :=
  deriveSecureState (documentUri.takeWhile (· ≠ 0x3a))

def hostId (env : VsEnv) : JsString :=
  js "vscode:" ++ env.appName ++ js ":" ++ env.appHost ++ js ":" ++ env.version

/-- The binding as the adapter reads it while the window shows this. -/
def read (binding : RealBinding) (env : VsEnv) (window : VsWindow) : HostBinding where
  hostId := hostId env
  sessionId := env.sessionId
  session := deriveSessionState env.appHost env.remoteName
  composition := realHostComposition
  capabilities := realCapabilities
  activeEditor := (binding.getActiveEditor window).1
  secureStateFor := secureStateFor

def next (binding : RealBinding) (window : VsWindow) : RealBinding :=
  (binding.getActiveEditor window).2

/-- The identity under which the binding knows the active editor. -/
def identity (binding : RealBinding) (window : VsWindow) : Option TargetIdentity :=
  (binding.getActiveEditor window).1.map TextEditor.identity

section Identities
variable {binding : RealBinding} {window : VsWindow} {editor : VsEditor}

structure Sound (binding : RealBinding) : Prop where
  documents : binding.documents.Sound
  editors : binding.editors.Sound

theorem sound_create : create.Sound := ⟨Numbers.sound_empty, Numbers.sound_empty⟩

theorem next_of_active (active : fileEditor window = some editor) : binding.next window =
    ⟨(binding.documents.issue editor.document.uri editor.document.object).2,
      (binding.editors.issue () editor.object).2⟩ := by
  simp only [next, getActiveEditor, active]

theorem next_of_inactive (inactive : fileEditor window = none) : binding.next window = binding := by
  simp only [next, getActiveEditor, inactive]

theorem identity_of_active (active : fileEditor window = some editor) :
    binding.identity window = some {
      documentUri := (binding.documents.issue editor.document.uri editor.document.object).1.1
      documentEpoch :=
        .ofNat (binding.documents.issue editor.document.uri editor.document.object).1.2
      editorId := .ofNat (binding.editors.issue () editor.object).1.2 } := by
  simp only [identity, getActiveEditor, active]
  rfl

theorem Sound.next (sound : binding.Sound) (window : VsWindow) : (binding.next window).Sound := by
  cases active : fileEditor window with
  | none =>
    rw [next_of_inactive active]
    exact sound
  | some editor =>
    rw [next_of_active active]
    exact ⟨sound.documents.issue _ _, sound.editors.issue _ _⟩

theorem run_sound (windows : List VsWindow) : (run next create windows).Sound :=
  run_keeps Sound (fun _ window sound => sound.next window) sound_create windows

theorem run_kept {document : Nat} {port : JsString × Nat} {object : Nat} {id : Unit × Nat}
    (documents : binding.documents.assigned.lookup document = some port)
    (editors : binding.editors.assigned.lookup object = some id) (windows : List VsWindow) :
    (run RealBinding.next binding windows).documents.assigned.lookup document = some port ∧
      (run RealBinding.next binding windows).editors.assigned.lookup object = some id := by
  refine run_keeps (fun s : RealBinding => s.documents.assigned.lookup document = some port ∧
    s.editors.assigned.lookup object = some id) ?_ ⟨documents, editors⟩ windows
  rintro s window ⟨first, second⟩
  cases active : fileEditor window with
  | none =>
    rw [next_of_inactive active]
    exact ⟨first, second⟩
  | some editor =>
    rw [next_of_active active]
    exact ⟨Numbers.lookup_issue_kept _ _ first, Numbers.lookup_issue_kept _ _ second⟩

theorem issued_eq_iff {κ ι : Type*} [DecidableEq κ] [DecidableEq ι] {numbers : Numbers κ ι}
    (sound : numbers.Sound) {j k : κ} {known : ι × Nat}
    (here : numbers.assigned.lookup j = some known) (c : ι) :
    known = (numbers.issue c k).1 ↔ j = k := by
  constructor
  · intro same
    refine (sound.issue c k).distinct j k known (Numbers.lookup_issue_kept c k here) ?_
    rw [same]
    exact Numbers.lookup_issue_self c k
  · rintro rfl
    rw [Numbers.issue_known here]

/-- Two captures of a binding, however far apart: they name one document if and
only if it is one document object, also where the uri was reopened, and one
editor if and only if it is one editor object. -/
theorem identities_distinct (before middle : List VsWindow) (x y : VsWindow)
    {first second : VsEditor} (shown : fileEditor x = some first)
    (later : fileEditor y = some second) :
    ∃ a b, (run next create before).identity x = some a ∧
      (run next create (before ++ x :: middle)).identity y = some b ∧
      (a.documentUri = b.documentUri ∧ a.documentEpoch = b.documentEpoch ↔
        first.document.object = second.document.object) ∧
      (a.editorId = b.editorId ↔ first.object = second.object) := by
  refine ⟨_, _, identity_of_active shown, identity_of_active later, ?_⟩
  have start := run_sound before
  have sound := run_sound (before ++ x :: middle)
  rw [run_append, run_cons] at sound ⊢
  generalize run next create before = s at start sound ⊢
  have opened : s.next x = ⟨(s.documents.issue first.document.uri first.document.object).2,
      (s.editors.issue () first.object).2⟩ := next_of_active shown
  have document : (s.next x).documents.assigned.lookup first.document.object =
      some (s.documents.issue first.document.uri first.document.object).1 := by
    rw [opened]
    exact Numbers.lookup_issue_self _ _
  have editor : (s.next x).editors.assigned.lookup first.object =
      some (s.editors.issue () first.object).1 := by
    rw [opened]
    exact Numbers.lookup_issue_self _ _
  have kept := run_kept document editor middle
  generalize run next (s.next x) middle = t at sound kept ⊢
  have documents := issued_eq_iff (k := second.document.object) sound.documents kept.1
    second.document.uri
  have editors := issued_eq_iff (k := second.object) sound.editors kept.2 ()
  rw [← documents, ← editors, Prod.ext_iff, Prod.ext_iff]
  simp [JsNumber.ofNat]

theorem identities_distinct_reopened :
    let shown (document editor : Nat) : VsEditor :=
      ⟨editor, ⟨document, js "file", js "file:///a", 1, []⟩, 1, 0, 0⟩
    let window (document editor : Nat) : VsWindow := ⟨some (shown document editor), []⟩
    ∃ a b, (run next create []).identity (window 0 0) = some a ∧
      (run next create ([] ++ window 0 0 :: [])).identity (window 1 1) = some b ∧
      (a.documentUri = b.documentUri ∧ a.documentEpoch = b.documentEpoch ↔ 0 = 1) ∧
      (a.editorId = b.editorId ↔ 0 = 1) := by
  intro shown window
  have first : fileEditor (window 0 0) = some (shown 0 0) := rfl
  have second : fileEditor (window 1 1) = some (shown 1 1) := rfl
  exact identities_distinct [] [] (window 0 0) (window 1 1) first second

end Identities

end RealBinding
end ZonKey.Host

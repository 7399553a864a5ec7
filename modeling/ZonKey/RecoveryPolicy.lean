import ZonKey.NeverTransform
import ZonKey.TokenState

set_option autoImplicit false

namespace ZonKey.Detect
open ZonKey.Observe ZonKey.Telex

inductive InputContext where
  | writing
  | technicalEditor
  | terminal
  | secure
  | remote
  | unknown
  deriving DecidableEq, Repr

inductive DecisionReason where
  | exactEnglishDictionary
  | exactTechnicalDictionary
  | exactProductDictionary
  | userAllowList
  | neverTransformPattern
  | vietnameseCandidate
  | contextBlocked
  | insufficientConfidence
  | unsupportedInput
  deriving DecidableEq, Repr

/-- A confidence in hundredths: the constants of the source are 0.0, 0.98, 0.99 and 1.0. -/
structure Confidence where
  hundredths : Nat
  deriving DecidableEq, Repr

namespace Confidence

def zero : Confidence := ⟨0⟩
def englishExact : Confidence := ⟨98⟩
def technicalExact : Confidence := ⟨99⟩
def certain : Confidence := ⟨100⟩

end Confidence

inductive RecoveryDecision where
  | keepVietnamese (reason : DecisionReason)
  | restoreEnglish (text : List Char) (confidence : Confidence) (reason : DecisionReason)
  | ambiguous (confidence : Confidence) (reason : DecisionReason)
  deriving DecidableEq, Repr

inductive DictionaryClass where
  | english
  | technical
  | product
  | user
  deriving DecidableEq, Repr

def DictionaryClass.reason : DictionaryClass → DecisionReason
  | english => .exactEnglishDictionary
  | technical => .exactTechnicalDictionary
  | product => .exactProductDictionary
  | user => .userAllowList

def exactConfidence : DictionaryClass → Confidence
  | .english => .englishExact
  | .technical | .product => .technicalExact
  | .user => .certain

section Dictionaries

def productsTxt : List String :=
  ["# Lowercase product and platform names; input casing is preserved.", "esxi", "firefox",
   "fortigate", "pfsense", "redis", "tauri", "vcenter", "vmware"]

def itCommonTxt : List String :=
  ["# Lowercase exact-match technical vocabulary.", "certificate", "cluster", "compiler",
   "config", "database", "dhcp", "dns", "endpoint", "firewall", "fqdn", "hostname", "iis",
   "kernel", "network", "openssl", "pki", "powershell", "rdp", "registry", "router",
   "service", "storage", "terminal", "virtual", "vlan", "xrdp"]

def enCommonTxt : List String :=
  ["# Lowercase exact-match English recovery vocabulary.", "browser", "buffer", "client",
   "custom", "default", "download", "driver", "error", "feature", "folder", "format",
   "install", "inventory", "library", "logger", "memory", "merge", "monitor", "parser",
   "password", "profile", "pull", "push", "refresh", "release", "request", "reset",
   "response", "restore", "resume", "root", "secret", "server", "session", "settings",
   "source", "status", "system", "target", "test", "testing", "upgrade", "username",
   "version", "warning"]

def trim (line : List Char) : List Char :=
  ((line.dropWhile isWhitespace).reverse.dropWhile isWhitespace).reverse

def contains (contents : List String) (token : List Char) : Bool :=
  contents.any fun line =>
    let entry := trim line.toList
    !entry.isEmpty && !startsWith entry ['#'] &&
      decide (toAsciiLowercaseText entry = toAsciiLowercaseText token)

/-- `BuiltInDictionaries::classify`. -/
def builtInDictionaries (token : List Char) : Option DictionaryClass :=
  let token := toAsciiLowercaseText token
  if contains productsTxt token then some .product
  else if contains itCommonTxt token then some .technical
  else if contains enCommonTxt token then some .english
  else none

end Dictionaries

def isVietnameseLetter (character : Char) : Bool :=
  let within (low high : Nat) : Bool := decide (low ≤ character.toNat ∧ character.toNat ≤ high)
  within 0xc0 0xc3 || within 0xc8 0xca || within 0xcc 0xcd || within 0xd2 0xd5 ||
    within 0xd9 0xda || within 0xdd 0xdd || within 0xe0 0xe3 || within 0xe8 0xea ||
    within 0xec 0xed || within 0xf2 0xf5 || within 0xf9 0xfa || within 0xfd 0xfd ||
    within 0x102 0x103 || within 0x110 0x111 || within 0x128 0x129 || within 0x168 0x169 ||
    within 0x1a0 0x1b0 || within 0x1ea0 0x1ef9

def isVietnameseCandidate (text : List Char) : Bool := text.any isVietnameseLetter

structure DetectionRequest where
  raw : List Char
  rendered : List Char
  boundary : TokenBoundary

inductive LexicalEvidence where
  | candidate (text : List Char) (confidence : Confidence) (reason : DecisionReason)
  | neverTransform
  | vietnameseCandidate
  | unsupported
  | unknown
  deriving DecidableEq, Repr

/-- `Classifier::classify` with a dictionary provider; the context of a request is not read. -/
def classify (dictionaries : List Char → Option DictionaryClass) (request : DetectionRequest) :
    LexicalEvidence :=
  if request.raw.isEmpty || !request.raw.all isAscii || request.boundary = .unknown then
    .unsupported
  else if (classifyNeverTransform request.raw).isSome then .neverTransform
  else
    match if request.raw ≠ request.rendered then dictionaries request.raw else none with
    | some known => .candidate request.raw (exactConfidence known) known.reason
    | none =>
      if isVietnameseCandidate request.rendered then .vietnameseCandidate else .unknown

structure PolicyOutcome where
  decision : RecoveryDecision
  editPlan : Option EditPlan
  deriving DecidableEq, Repr

namespace SafePolicy

def defaultAutoRecoveryThreshold : Confidence := .englishExact
def technicalEditorThreshold : Confidence := .technicalExact

def permitsCandidate (context : InputContext) (confidence : Confidence)
    (reason : DecisionReason) : Bool :=
  match context with
  | .writing => defaultAutoRecoveryThreshold.hundredths ≤ confidence.hundredths
  | .technicalEditor =>
    technicalEditorThreshold.hundredths ≤ confidence.hundredths &&
      (reason = .exactTechnicalDictionary || reason = .exactProductDictionary ||
        reason = .userAllowList)
  | .terminal | .secure | .remote | .unknown => false

def keep (reason : DecisionReason) : PolicyOutcome := ⟨.keepVietnamese reason, none⟩

def decide (unicode : Segmentation) (evidence : LexicalEvidence) (context : InputContext)
    (rendered : List Char) : PolicyOutcome :=
  if context = .terminal ∨ context = .secure ∨ context = .remote ∨ context = .unknown then
    keep .contextBlocked
  else
    match evidence with
    | .candidate text confidence reason =>
      if permitsCandidate context confidence reason then
        ⟨.restoreEnglish text confidence reason, some (editPlanBetween unicode rendered text)⟩
      else ⟨.ambiguous confidence .insufficientConfidence, none⟩
    | .neverTransform => keep .neverTransformPattern
    | .vietnameseCandidate => keep .vietnameseCandidate
    | .unsupported => keep .unsupportedInput
    | .unknown => ⟨.ambiguous .zero .insufficientConfidence, none⟩

end SafePolicy

section Decisions
variable {dictionaries : List Char → Option DictionaryClass} {request : DetectionRequest}
variable {text : List Char} {confidence : Confidence} {reason : DecisionReason}

theorem classify_candidate
    (found : classify dictionaries request = .candidate text confidence reason) :
    text = request.raw ∧ request.raw ≠ [] ∧ (∀ c ∈ request.raw, isAscii c) ∧
      classifyNeverTransform request.raw = none ∧ request.raw ≠ request.rendered ∧
      ∃ known, dictionaries request.raw = some known ∧ confidence = exactConfidence known ∧
        reason = known.reason := by
  unfold classify at found
  split at found
  · cases found
  · rename_i supported
    split at found
    · cases found
    · rename_i plain
      simp only [Bool.or_eq_true, not_or, Bool.not_eq_true', Bool.not_eq_true,
        List.isEmpty_eq_false_iff] at supported
      split at found
      · rename_i known lookup
        cases found
        split at lookup
        · rename_i changed
          refine ⟨rfl, supported.1.1, ?_, by simpa using plain, changed, known, lookup, rfl, rfl⟩
          simpa using supported.1.2
        · cases lookup
      · split at found <;> cases found

theorem decide_restoreEnglish {unicode : Segmentation} {evidence : LexicalEvidence}
    {context : InputContext} {rendered : List Char}
    (restores : (SafePolicy.decide unicode evidence context rendered).decision =
      .restoreEnglish text confidence reason) :
    evidence = .candidate text confidence reason := by
  unfold SafePolicy.decide at restores
  split at restores
  · cases restores
  · split at restores
    · split at restores
      · cases restores
        rfl
      · cases restores
    all_goals cases restores

structure Candidate (dictionaries : List Char → Option DictionaryClass)
    (request : DetectionRequest) (known : DictionaryClass) : Prop where
  typed : request.raw ≠ []
  ascii : ∀ c ∈ request.raw, isAscii c
  boundary : request.boundary ≠ .unknown
  plain : classifyNeverTransform request.raw = none
  changed : request.raw ≠ request.rendered
  lookup : dictionaries request.raw = some known

theorem classify_of_candidate {known : DictionaryClass}
    (h : Candidate dictionaries request known) : classify dictionaries request =
      .candidate request.raw (exactConfidence known) known.reason := by
  have supported : ¬ (request.raw.isEmpty || !request.raw.all isAscii ||
      decide (request.boundary = .unknown)) = true := by
    simp [h.typed, h.boundary]
    exact h.ascii
  have plain : ¬ (classifyNeverTransform request.raw).isSome = true := by simp [h.plain]
  rw [classify, if_neg supported, if_neg plain, if_pos h.changed, h.lookup]

theorem candidate_of_classify
    (found : classify dictionaries request = .candidate text confidence reason) :
    ∃ known, Candidate dictionaries request known ∧ text = request.raw ∧
      confidence = exactConfidence known ∧ reason = known.reason := by
  obtain ⟨same, typed, ascii, plain, changed, known, lookup, grade, cause⟩ := classify_candidate found
  have boundary : request.boundary ≠ .unknown := by
    intro unknown
    simp [classify, unknown] at found
  exact ⟨known, ⟨typed, ascii, boundary, plain, changed, lookup⟩, same, grade, cause⟩

/-- The contexts that let a word of the class through. -/
def Permits (context : InputContext) (known : DictionaryClass) : Prop :=
  context = .writing ∨
    context = .technicalEditor ∧ (known = .technical ∨ known = .product ∨ known = .user)

theorem permitsCandidate_iff {context : InputContext} {known : DictionaryClass} :
    SafePolicy.permitsCandidate context (exactConfidence known) known.reason = true ↔
      Permits context known := by
  unfold Permits
  cases context <;> cases known <;> decide

theorem permits_open {context : InputContext} {known : DictionaryClass}
    (h : Permits context known) :
    ¬ (context = .terminal ∨ context = .secure ∨ context = .remote ∨ context = .unknown) := by
  rcases h with rfl | ⟨rfl, _⟩ <;> decide

section Outcome
variable {unicode : Segmentation} {evidence : LexicalEvidence} {context : InputContext}
  {rendered : List Char}

theorem decide_of_permitted {known : DictionaryClass} (permits : Permits context known) :
    SafePolicy.decide unicode (.candidate text (exactConfidence known) known.reason) context
        rendered =
      ⟨.restoreEnglish text (exactConfidence known) known.reason,
        some (editPlanBetween unicode rendered text)⟩ := by
  rw [SafePolicy.decide, if_neg (permits_open permits)]
  exact if_pos (permitsCandidate_iff.mpr permits)

theorem decide_cases (unicode : Segmentation) (evidence : LexicalEvidence)
    (context : InputContext) (rendered : List Char) :
    (∃ text confidence reason, evidence = .candidate text confidence reason ∧
      SafePolicy.permitsCandidate context confidence reason = true) ∨
    ((SafePolicy.decide unicode evidence context rendered).editPlan = none ∧
      ∀ text confidence reason, (SafePolicy.decide unicode evidence context rendered).decision ≠
        .restoreEnglish text confidence reason) := by
  unfold SafePolicy.decide
  split
  · exact .inr ⟨rfl, nofun⟩
  · cases evidence with
    | candidate text confidence reason =>
      by_cases permitted : SafePolicy.permitsCandidate context confidence reason = true
      · exact .inl ⟨text, confidence, reason, rfl, permitted⟩
      · simp only [permitted]
        exact .inr ⟨rfl, nofun⟩
    | neverTransform | vietnameseCandidate | unsupported | unknown => exact .inr ⟨rfl, nofun⟩

end Outcome

/-- The policy restores exactly the permitted candidates, to what was typed and
with a plan that turns the shown text into it. -/
theorem recovery_exact (unicode : Segmentation)
    (dictionaries : List Char → Option DictionaryClass) (request : DetectionRequest)
    (context : InputContext) :
    let outcome := SafePolicy.decide unicode (classify dictionaries request) context
      request.rendered
    ((∃ text confidence reason, outcome.decision = .restoreEnglish text confidence reason) ↔
        ∃ known, Candidate dictionaries request known ∧ Permits context known) ∧
      (outcome.editPlan.isSome ↔
        ∃ known, Candidate dictionaries request known ∧ Permits context known) ∧
      ∀ plan, outcome.editPlan = some plan →
        (∃ confidence reason,
          outcome.decision = .restoreEnglish request.raw confidence reason) ∧
        applyEditPlan unicode request.rendered plan = request.raw ∧ plan ≠ ⟨0, []⟩ := by
  intro outcome
  by_cases recovers : ∃ known, Candidate dictionaries request known ∧ Permits context known
  · obtain ⟨known, candidate, permits⟩ := recovers
    have restored : outcome = ⟨.restoreEnglish request.raw (exactConfidence known) known.reason,
        some (editPlanBetween unicode request.rendered request.raw)⟩ := by
      simp only [outcome, classify_of_candidate candidate]
      exact decide_of_permitted permits
    rw [restored]
    refine ⟨iff_of_true ⟨_, _, _, rfl⟩ ⟨known, candidate, permits⟩,
      iff_of_true rfl ⟨known, candidate, permits⟩, ?_⟩
    rintro plan ⟨⟩
    have applied : applyEditPlan unicode request.rendered
        (editPlanBetween unicode request.rendered request.raw) = request.raw :=
      applyEditPlan_between request.rendered request.raw
    refine ⟨⟨_, _, rfl⟩, applied, fun nothing => ?_⟩
    rw [nothing, applyEditPlan_nothing] at applied
    exact candidate.changed applied.symm
  · rcases decide_cases unicode (classify dictionaries request) context request.rendered with
      ⟨text, confidence, reason, found, permitted⟩ | ⟨planless, unrestored⟩
    · obtain ⟨known, candidate, _, rfl, rfl⟩ := candidate_of_classify found
      exact absurd ⟨known, candidate, permitsCandidate_iff.mp permitted⟩ recovers
    · refine ⟨iff_of_false (fun ⟨_, _, _, restores⟩ => unrestored _ _ _ restores) recovers,
        iff_of_false ?_ recovers, fun plan made => ?_⟩
      · rw [show outcome.editPlan = none from planless]
        simp
      · cases planless.symm.trans made

end Decisions
end ZonKey.Detect

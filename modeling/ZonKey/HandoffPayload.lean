import ZonKey.JsNumberText
import ZonKey.PipeTransport
import ZonKey.PipeWire
import ZonKey.RestoreHandoff
import ZonKey.TypedWords

set_option autoImplicit false

namespace ZonKey.Host
open Transport Pipe

structure HandoffAnswer where
  requestId : JsString
  renderedToken : JsString
  replacementToken : JsString
  renderedUnits : Nat
  replacementUnits : Nat
  generation : Nat
  deriving DecidableEq

inductive HandoffQuery where
  | current (handoff : HandoffAnswer)
  | none
  | unavailable
  deriving DecidableEq

section Strings

def encodeUtf16 (c : Char) : JsString :=
  if c.toNat < 0x10000 then [UInt16.ofNat c.toNat]
  else
    let rest := c.toNat - 0x10000
    [UInt16.ofNat (0xd800 + rest / 0x400), UInt16.ofNat (0xdc00 + rest % 0x400)]

/-- A Rust string as JavaScript sees it. -/
def utf16 (text : String) : JsString := text.toList.flatMap encodeUtf16

/-- `[...text].length`: a surrogate pair counts once. -/
def codePointCount : JsString → Nat
  | [] => 0
  | [_] => 1
  | unit :: next :: rest =>
    if isHighSurrogate unit && isLowSurrogate next then codePointCount rest + 1
    else codePointCount (next :: rest) + 1

theorem utf16_append (front back : String) : utf16 (front ++ back) = utf16 front ++ utf16 back := by
  simp [utf16]

theorem utf16_narrow {text : String} (narrow : ∀ c ∈ text.toList, c.toNat < 0x10000) :
    utf16 text = js text := by
  have units : ∀ chars : List Char, (∀ c ∈ chars, c.toNat < 0x10000) →
      chars.flatMap encodeUtf16 = chars.map fun c => UInt16.ofNat c.toNat := by
    intro chars narrow
    induction chars with
    | nil => rfl
    | cons c rest ih =>
      rw [List.flatMap_cons, ih fun other mem => narrow other (List.mem_cons_of_mem _ mem),
        encodeUtf16, if_pos (narrow c List.mem_cons_self)]
      rfl
  exact units text.toList narrow

theorem utf16_numeral (n : Nat) : utf16 (toString n) = JsNumber.numeral n := by
  refine utf16_narrow fun c mem => ?_
  have chars : (toString n).toList = Nat.toDigits 10 n := Nat.toList_repr
  rw [chars] at mem
  have digit := Nat.isDigit_of_mem_toDigits (by omega) (by omega) mem
  have high := (Char.isDigit_iff_toNat.mp digit).2
  have nine : '9'.toNat = 57 := rfl
  omega

theorem encodeUtf16_ne_nil (c : Char) : encodeUtf16 c ≠ [] := by
  unfold encodeUtf16
  split <;> simp

theorem utf16_ne_nil {text : String} (some_text : text.toList ≠ []) : utf16 text ≠ [] := by
  obtain ⟨c, rest, chars⟩ := List.exists_cons_of_ne_nil some_text
  simp [utf16, chars, encodeUtf16_ne_nil]

theorem toNat_unit {n : Nat} (small : n < 0x10000) : (UInt16.ofNat n).toNat = n :=
  UInt16.toNat_ofNat_of_lt' small

theorem isHighSurrogate_unit {n : Nat} (small : n < 0x10000) :
    isHighSurrogate (UInt16.ofNat n) = true ↔ 0xd800 ≤ n ∧ n ≤ 0xdbff := by
  simp [isHighSurrogate, UInt16.le_iff_toNat_le, toNat_unit small]

theorem isLowSurrogate_unit {n : Nat} (small : n < 0x10000) :
    isLowSurrogate (UInt16.ofNat n) = true ↔ 0xdc00 ≤ n ∧ n ≤ 0xdfff := by
  simp [isLowSurrogate, UInt16.le_iff_toNat_le, toNat_unit small]

theorem codePointCount_single {unit : UInt16} (single : isHighSurrogate unit = false)
    (rest : JsString) : codePointCount (unit :: rest) = codePointCount rest + 1 := by
  cases rest with
  | nil => rfl
  | cons next rest => simp [codePointCount, single]

theorem codePointCount_pair {unit next : UInt16} (high : isHighSurrogate unit = true)
    (low : isLowSurrogate next = true) (rest : JsString) :
    codePointCount (unit :: next :: rest) = codePointCount rest + 1 := by
  simp [codePointCount, high, low]

theorem codePointCount_encode (c : Char) (rest : JsString) :
    codePointCount (encodeUtf16 c ++ rest) = codePointCount rest + 1 := by
  have valid := c.valid
  have value : c.val.toNat = c.toNat := rfl
  simp only [UInt32.isValidChar, Nat.isValidChar, value] at valid
  unfold encodeUtf16
  split
  · rename_i narrow
    have single : isHighSurrogate (UInt16.ofNat c.toNat) = false := by
      rw [Bool.eq_false_iff, ne_eq, isHighSurrogate_unit narrow]
      omega
    exact codePointCount_single single rest
  · have high := (isHighSurrogate_unit (n := 0xd800 + (c.toNat - 0x10000) / 0x400) (by omega)).mpr
      (by omega)
    have low := (isLowSurrogate_unit (n := 0xdc00 + (c.toNat - 0x10000) % 0x400) (by omega)).mpr
      (by omega)
    exact codePointCount_pair high low rest

theorem codePointCount_utf16 (text : String) : codePointCount (utf16 text) = text.toList.length := by
  unfold utf16
  induction text.toList with
  | nil => rfl
  | cons c rest ih => rw [List.flatMap_cons, codePointCount_encode, ih, List.length_cons]

theorem bar_not_mem_encode {c : Char} (other : c ≠ '|') : 0x7c ∉ encodeUtf16 c := by
  have valid := c.valid
  have value : c.val.toNat = c.toNat := rfl
  have apart : c.toNat ≠ 0x7c := fun same => other (Char.toNat_inj.mp same)
  have bar : (0x7c : UInt16).toNat = 0x7c := rfl
  simp only [UInt32.isValidChar, Nat.isValidChar, value] at valid
  unfold encodeUtf16
  split
  · rename_i narrow
    simp only [List.mem_singleton, ← UInt16.toNat_inj, toNat_unit narrow, bar]
    omega
  · simp only [List.mem_cons, List.not_mem_nil, or_false, ← UInt16.toNat_inj, bar]
    rw [toNat_unit (by omega), toNat_unit (by omega)]
    omega

theorem bar_not_mem_utf16 {text : String} (clean : '|' ∉ text.toList) : 0x7c ∉ utf16 text := by
  intro mem
  obtain ⟨c, inside, unit⟩ := List.mem_flatMap.mp mem
  exact bar_not_mem_encode (fun same => clean (same ▸ inside)) unit

end Strings

section Parsing

def positiveSafeInteger (value : JsString) : Option Nat :=
  (JsNumber.ofText value).safeNat.filter (0 < ·)

/-- `/^handoff-[1-9]\d*$/`. -/
def isHandoffId (text : JsString) : Bool :=
  (js "handoff-").isPrefixOf text &&
    match text.drop 8 with
    | [] => false
    | first :: digits => 0x31 ≤ first && first ≤ 0x39 && digits.all isDecimalDigit

def parseHandoffFields : List JsString → HandoffQuery
  | [requestId, renderedToken, replacementToken, renderedUnitsText, replacementUnitsText,
      generationText] =>
    match positiveSafeInteger renderedUnitsText, positiveSafeInteger replacementUnitsText,
      positiveSafeInteger generationText with
    | some renderedUnits, some replacementUnits, some generation =>
      if !isHandoffId requestId || renderedToken.isEmpty || replacementToken.isEmpty ||
          codePointCount renderedToken ≠ renderedUnits ||
          codePointCount replacementToken ≠ replacementUnits then .unavailable
      else
        .current ⟨requestId, renderedToken, replacementToken, renderedUnits, replacementUnits,
          generation⟩
    | _, _, _ => .unavailable
  | _ => .unavailable

def parseHandoffPayload (payload : JsString) : HandoffQuery :=
  if payload = js "handoff-rejected:NoCurrentPlan" then .none
  else if (js "handoff-rejected:").isPrefixOf payload then .unavailable
  else if !(js "handoff:").isPrefixOf payload then .unavailable
  else parseHandoffFields ((payload.drop 8).splitOn 0x7c)

/-- The number of a request has no leading zero. -/
theorem toDigits_head {n : Nat} (positive : 0 < n) :
    ∃ first rest, Nat.toDigits 10 n = first :: rest ∧ first ≠ '0' := by
  induction n using Nat.strongRecOn with
  | ind n ih =>
    by_cases small : n < 10
    · refine ⟨n.digitChar, [], Nat.toDigits_of_lt_base small, ?_⟩
      have all : ∀ digit < 10, 0 < digit → Nat.digitChar digit ≠ '0' := by decide
      exact all n small positive
    · obtain ⟨first, rest, digits, other⟩ := ih (n / 10) (by omega) (by omega)
      exact ⟨first, rest ++ [(n % 10).digitChar],
        by rw [Nat.toDigits_of_base_le (by omega) (by omega), digits, List.cons_append], other⟩

theorem isHandoffId_numeral {n : Nat} (positive : 0 < n) :
    isHandoffId (js "handoff-" ++ JsNumber.numeral n) = true := by
  obtain ⟨first, rest, digits, other⟩ := toDigits_head positive
  have decimal (c : Char) (mem : c ∈ Nat.toDigits 10 n) : c.isDigit = true :=
    Nat.isDigit_of_mem_toDigits (by omega) (by omega) mem
  have bounds := Char.isDigit_iff_toNat.mp (decimal first (by simp [digits]))
  have zero : '0'.toNat = 0x30 := rfl
  have nine : '9'.toNat = 0x39 := rfl
  have apart : first.toNat ≠ '0'.toNat := fun same => other (Char.toNat_inj.mp same)
  have leading : 0x31 ≤ UInt16.ofNat first.toNat ∧ UInt16.ofNat first.toNat ≤ 0x39 := by
    have least : (0x31 : UInt16).toNat = 0x31 := rfl
    have most : (0x39 : UInt16).toNat = 0x39 := rfl
    rw [UInt16.le_iff_toNat_le, UInt16.le_iff_toNat_le, toNat_unit (by omega), least, most]
    omega
  have others : (rest.map fun c => UInt16.ofNat c.toNat).all isDecimalDigit = true := by
    rw [List.all_map, List.all_eq_true]
    intro c mem
    exact (JsNumber.digitUnit (decimal c (by simp [digits, mem]))).decimal
  have cut : (js "handoff-" ++ JsNumber.numeral n).drop 8 =
      UInt16.ofNat first.toNat :: rest.map fun c => UInt16.ofNat c.toNat := by
    rw [JsNumber.numeral_eq, digits]
    rfl
  have starts : (js "handoff-").isPrefixOf (js "handoff-" ++ JsNumber.numeral n) = true := by
    simp
  simp [isHandoffId, starts, cut, leading, others]

theorem positiveSafeInteger_numeral {n : Nat} (positive : 0 < n)
    (small : n ≤ JsNumber.maxSafeInteger) :
    positiveSafeInteger (JsNumber.numeral n) = some n := by
  rw [positiveSafeInteger, JsNumber.ofText_numeral small,
    JsNumber.safeNat_eq_some_iff.mpr ⟨rfl, small⟩]
  simp [positive]

structure Presentable (request : HandoffRequest) : Prop where
  requestId : request.requestId = "handoff-" ++ toString request.generation
  issued : 0 < request.generation.toNat
  renderedToken : request.renderedToken.toList ≠ [] ∧ '|' ∉ request.renderedToken.toList
  replacementToken : request.replacementToken.toList ≠ [] ∧ '|' ∉ request.replacementToken.toList
  renderedUnits : request.renderedUnits = request.renderedToken.toList.length
  replacementUnits : request.replacementUnits = request.replacementToken.toList.length

def payloadFields (request : HandoffRequest) : List JsString :=
  [utf16 request.requestId, utf16 request.renderedToken, utf16 request.replacementToken,
    JsNumber.numeral request.renderedUnits, JsNumber.numeral request.replacementUnits,
    JsNumber.numeral request.generation.toNat]

theorem utf16_handoffPayload (request : HandoffRequest) :
    utf16 (handoffPayload request) = js "handoff:" ++ [0x7c].intercalate (payloadFields request) := by
  have bar : utf16 "|" = [0x7c] := by decide
  have start : utf16 "handoff:" = js "handoff:" := by decide
  have generation : utf16 (toString request.generation) =
      JsNumber.numeral request.generation.toNat := utf16_numeral _
  unfold handoffPayload
  simp only [utf16_append, utf16_numeral, bar, start, generation]
  simp [payloadFields, List.intercalate]

theorem bar_not_mem_numeral (n : Nat) : 0x7c ∉ JsNumber.numeral n := by
  intro mem
  obtain ⟨_, digit⟩ := JsNumber.numeral_digit mem
  exact digit.bar rfl

theorem Presentable.utf16_requestId {request : HandoffRequest} (h : Presentable request) :
    utf16 request.requestId = js "handoff-" ++ JsNumber.numeral request.generation.toNat := by
  have start : utf16 "handoff-" = js "handoff-" := by decide
  have generation : utf16 (toString request.generation) =
      JsNumber.numeral request.generation.toNat := utf16_numeral _
  rw [h.requestId, utf16_append, start, generation]

theorem Presentable.bar_not_mem {request : HandoffRequest} (h : Presentable request) :
    ∀ field ∈ payloadFields request, 0x7c ∉ field := by
  have id : 0x7c ∉ utf16 request.requestId := by
    rw [h.utf16_requestId, List.mem_append, not_or]
    exact ⟨by decide, bar_not_mem_numeral _⟩
  simp only [payloadFields, List.mem_cons, List.not_mem_nil, or_false]
  rintro field (rfl | rfl | rfl | rfl | rfl | rfl)
  · exact id
  · exact bar_not_mem_utf16 h.renderedToken.2
  · exact bar_not_mem_utf16 h.replacementToken.2
  · exact bar_not_mem_numeral _
  · exact bar_not_mem_numeral _
  · exact bar_not_mem_numeral _

theorem parseHandoffPayload_fields (fields : JsString) :
    parseHandoffPayload (js "handoff:" ++ fields) = parseHandoffFields (fields.splitOn 0x7c) := by
  have rejected : (js "handoff-rejected:").isPrefixOf (js "handoff:" ++ fields) = false := rfl
  have none : js "handoff:" ++ fields ≠ js "handoff-rejected:NoCurrentPlan" := by
    intro same
    rw [same] at rejected
    exact absurd rejected (by decide)
  have starts : (js "handoff:").isPrefixOf (js "handoff:" ++ fields) = true := by simp
  have rest : (js "handoff:" ++ fields).drop 8 = fields := rfl
  simp [parseHandoffPayload, none, rejected, starts, rest]

theorem Presentable.parsed {request : HandoffRequest} (h : Presentable request)
    (generation : request.generation.toNat ≤ JsNumber.maxSafeInteger)
    (rendered : request.renderedUnits ≤ JsNumber.maxSafeInteger)
    (replacement : request.replacementUnits ≤ JsNumber.maxSafeInteger) :
    parseHandoffPayload (utf16 (handoffPayload request)) =
      .current {
        requestId := utf16 request.requestId
        renderedToken := utf16 request.renderedToken
        replacementToken := utf16 request.replacementToken
        renderedUnits := request.renderedUnits
        replacementUnits := request.replacementUnits
        generation := request.generation.toNat } := by
  have split : ([0x7c].intercalate (payloadFields request)).splitOn 0x7c = payloadFields request :=
    List.splitOn_intercalate 0x7c h.bar_not_mem (by simp [payloadFields])
  have id := isHandoffId_numeral h.issued
  rw [← h.utf16_requestId] at id
  have renderedPositive : 0 < request.renderedUnits := by
    rw [h.renderedUnits]
    exact List.length_pos_iff.mpr h.renderedToken.1
  have replacementPositive : 0 < request.replacementUnits := by
    rw [h.replacementUnits]
    exact List.length_pos_iff.mpr h.replacementToken.1
  rw [utf16_handoffPayload, parseHandoffPayload_fields, split, payloadFields, parseHandoffFields,
    positiveSafeInteger_numeral renderedPositive rendered,
    positiveSafeInteger_numeral replacementPositive replacement,
    positiveSafeInteger_numeral h.issued generation]
  simp [id, utf16_ne_nil h.renderedToken.1, utf16_ne_nil h.replacementToken.1,
    codePointCount_utf16, h.renderedUnits, h.replacementUnits]

end Parsing

end ZonKey.Host

namespace ZonKey.Diagnostic.DiagnosticDecisionProcessor
open Observe Telex Detect Runs Transport Host Pipe

structure PlanTyped (processor : DiagnosticDecisionProcessor) : Prop where
  holds : processor.PlanHolds
  plan : ∀ plan, processor.lastRestorePlan = some plan →
    (∀ c ∈ plan.originalToken, isAsciiAlphanumeric c) ∧ 0 < plan.generation.toNat

variable {unicode : Segmentation}

theorem new_planTyped : PlanTyped new where
  holds := new_planHolds
  plan plan current := by cases current

theorem step_planTyped {processor : DiagnosticDecisionProcessor} (h : processor.PlanTyped)
    (input : Input) : (processor.step unicode input).PlanTyped := by
  refine ⟨step_planHolds h.holds input, fun current shown => ?_⟩
  by_cases passes : processor.Passes input
  · rw [(step_passed unicode passes).2.2.1] at shown
    exact h.plan current shown
  · have replaced := step_replaced unicode passes
    generalize processor.step unicode input = after at replaced shown
    cases replaced with
    | dropped _ plan _ =>
      rw [plan] at shown
      cases shown
    | planned text confidence reason boundary generation evidence telex decision plan available =>
      rw [plan] at shown
      cases shown
      exact ⟨h.holds.token.typed, h.holds.next generation available⟩

theorem run_planTyped (inputs : List Input) : PlanTyped (run (step unicode) new inputs) :=
  run_keeps PlanTyped (fun _ input h => step_planTyped h input) new_planTyped inputs

theorem bar_not_mem_composed {raw : List Char} (typed : ∀ c ∈ raw, isAsciiAlphanumeric c) :
    '|' ∉ composed raw := by
  have absent : '|' ∉ raw := fun mem => absurd (typed '|' mem) (by decide)
  refine not_mem_composed ⟨fun shape tone => ?_, by decide, by decide⟩ absent
  cases shape <;> cases tone <;> decide

theorem plan_presentable {processor : DiagnosticDecisionProcessor} (h : processor.PlanTyped)
    {plan : RestorePlan} (current : processor.lastRestorePlan = some plan) :
    Presentable plan.handoff.request := by
  have justified := (h.holds.plan plan current).2.2.1
  obtain ⟨typed, issued⟩ := h.plan plan current
  have plain : '|' ∉ plan.originalToken := fun mem => absurd (typed '|' mem) (by decide)
  have rendered : plan.renderedToken = composed plan.originalToken := compose_ok justified.rendered
  refine ⟨rfl, issued, ?_, ?_, ?_, ?_⟩
  · simp only [RestorePlanHandoff.request, RestorePlan.handoff, String.toList_ofList]
    refine ⟨composed_token_ne_nil justified, ?_⟩
    rw [rendered]
    exact bar_not_mem_composed typed
  · simp only [RestorePlanHandoff.request, RestorePlan.handoff, String.toList_ofList,
      justified.replacement]
    exact ⟨justified.nonempty, plain⟩
  · simpa [RestorePlanHandoff.request, RestorePlan.handoff] using justified.renderedUnits
  · simpa [RestorePlanHandoff.request, RestorePlan.handoff] using justified.replacementUnits

/-- After any run a handoff that makes a request is read back by the host as it was sent, while
its numbers are safe integers. -/
theorem run_handoff_parses (unicode : Segmentation) (inputs : List Input) :
    let processor := run (step unicode) new inputs
    ∀ handoff request, processor.buildHostRequest handoff = .ok request →
      request.generation.toNat ≤ JsNumber.maxSafeInteger →
      request.renderedUnits ≤ JsNumber.maxSafeInteger →
      request.replacementUnits ≤ JsNumber.maxSafeInteger →
      parseHandoffPayload (utf16 (handoffPayload request)) =
        .current {
          requestId := utf16 request.requestId
          renderedToken := utf16 request.renderedToken
          replacementToken := utf16 request.replacementToken
          renderedUnits := request.renderedUnits
          replacementUnits := request.replacementUnits
          generation := request.generation.toNat } := by
  intro processor handoff request built generation rendered replacement
  have typed : processor.PlanTyped := run_planTyped inputs
  obtain ⟨captured, rfl⟩ := (build_ok_iff typed.holds handoff request).mp built
  rw [currentRestoreHandoff_eq typed.holds, Option.map_eq_some_iff] at captured
  obtain ⟨plan, current, rfl⟩ := captured
  exact (plan_presentable typed current).parsed generation rendered replacement

theorem run_handoff_parses_resume :
    parseHandoffPayload (utf16 (handoffPayload resumePlan.handoff.request)) =
      .current {
        requestId := utf16 resumePlan.handoff.request.requestId
        renderedToken := utf16 resumePlan.handoff.request.renderedToken
        replacementToken := utf16 resumePlan.handoff.request.replacementToken
        renderedUnits := 5
        replacementUnits := 6
        generation := 1 } :=
  run_handoff_parses scalarSegmentation ((pressKeys resumeKeys).map .event) resumePlan.handoff
    resumePlan.handoff.request
    ((build_ok_iff (run_planHolds _) _ _).mpr
      ⟨by rw [currentRestoreHandoff_eq (run_planHolds _), resume_planned.1]; rfl, rfl⟩)
    (by decide) (by decide) (by decide)

end ZonKey.Diagnostic.DiagnosticDecisionProcessor

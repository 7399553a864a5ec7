import ZonKey.ProtectedWords
import ZonKey.RestorePlans

set_option autoImplicit false

namespace ZonKey.Diagnostic
open Observe Telex Detect Runs DiagnosticDecisionProcessor

section Dictionary

/-- Every entry is in lower case and has a letter that is no hexadecimal digit. -/
theorem entry_lowercase {contents : List String}
    (entries : contents ∈ [productsTxt, itCommonTxt, enCommonTxt]) {line : String}
    (mem : line ∈ contents) (word : startsWith (trim line.toList) ['#'] = false) :
    (∀ c ∈ toAsciiLowercaseText (trim line.toList), isAsciiLowercase c) ∧
      ∃ c ∈ toAsciiLowercaseText (trim line.toList), isAsciiHexdigit c = false := by
  have all : ∀ contents ∈ [productsTxt, itCommonTxt, enCommonTxt], ∀ line ∈ contents,
      startsWith (trim line.toList) ['#'] = false →
        (toAsciiLowercaseText (trim line.toList)).all isAsciiLowercase ∧
        (toAsciiLowercaseText (trim line.toList)).any fun c => !isAsciiHexdigit c := by
    decide +kernel
  obtain ⟨lower, letter⟩ := all contents entries line mem word
  simp only [List.all_eq_true, List.any_eq_true, Bool.not_eq_true'] at lower letter
  exact ⟨lower, letter⟩

theorem known_lowercase {token : List Char} (known : (builtInDictionaries token).isSome)
    (lower : toAsciiLowercaseText token = token) :
    (∀ c ∈ token, isAsciiLowercase c) ∧ ∃ c ∈ token, isAsciiHexdigit c = false := by
  have entry {contents : List String} (entries : contents ∈ [productsTxt, itCommonTxt, enCommonTxt])
      (found : contains contents (toAsciiLowercaseText token) = true) :
      (∀ c ∈ token, isAsciiLowercase c) ∧ ∃ c ∈ token, isAsciiHexdigit c = false := by
    simp only [contains, List.any_eq_true, Bool.and_eq_true, Bool.not_eq_true',
      decide_eq_true_eq] at found
    obtain ⟨line, mem, ⟨_, word⟩, same⟩ := found
    rw [lower, lower] at same
    rw [← same]
    exact entry_lowercase entries mem word
  simp only [builtInDictionaries] at known
  split_ifs at known with product technical english
  · exact entry (by simp) product
  · exact entry (by simp) technical
  · exact entry (by simp) english
  · cases known

end Dictionary

def typedCharacter (event : ObservedInputEvent) : Option Char :=
  match event.key.kind with
  | .letter value => some (toAsciiLowercase value)
  | .digit value => some (Char.ofNat ('0'.toNat + value))
  | .punctuation value => some value
  | .space => some ' '
  | .enter => some '\n'
  | .tab => some '\t'
  | .backspace | .escape | .modifier _ | .other => none

/-- A physical key-down without modifiers of a letter, digit, punctuation, space, enter or tab. -/
structure IsTyped (event : ObservedInputEvent) : Prop where
  down : event.kind.isUp = false
  modifiers : event.modifiers = .new
  origin : event.injectionOrigin = .physicalOrUnmarked
  character : (typedCharacter event).isSome

def typedText (events : List ObservedInputEvent) : List Char := events.filterMap typedCharacter

theorem punctuation_not_alphanumeric {c : Char} (punctuation : isAsciiPunctuation c) :
    isAscii c ∧ isAsciiAlphanumeric c = false ∧ isWhitespace c = false ∧
      isAsciiUppercase c = false := by
  have ascii : isAscii c := by
    simp only [isAsciiPunctuation, Bool.or_eq_true, Bool.and_eq_true, decide_eq_true_eq,
      Char.le_def, UInt32.le_iff_toNat_le] at punctuation
    simp only [isAscii, decide_eq_true_eq, Char.toNat]
    rcases punctuation with ((⟨_, high⟩ | ⟨_, high⟩) | ⟨_, high⟩) | ⟨_, high⟩ <;>
      exact Nat.lt_of_le_of_lt high (by decide)
  have all : ∀ n < 128, isAsciiPunctuation (Char.ofNat n) →
      isAsciiAlphanumeric (Char.ofNat n) = false ∧ isWhitespace (Char.ofNat n) = false ∧
        isAsciiUppercase (Char.ofNat n) = false := by decide
  exact ⟨ascii, forall_ascii (P := fun c => isAsciiPunctuation c → isAsciiAlphanumeric c = false ∧
    isWhitespace c = false ∧ isAsciiUppercase c = false) all ascii punctuation⟩

theorem typed_cases {event : ObservedInputEvent} (typed : IsTyped event) {c : Char}
    (character : typedCharacter event = some c) :
    (boundaryFor event = none ∧ characterFor event = some c ∧ isAsciiAlphanumeric c) ∨
      (∃ boundary, boundaryFor event = some boundary) ∧ isAsciiAlphanumeric c = false := by
  have valid := event.key.valid
  have unshifted : event.modifiers.shift = false := by rw [typed.modifiers]; rfl
  have inside (same : characterFor event = some c) : isAsciiAlphanumeric c :=
    characterFor_alphanumeric same
  unfold typedCharacter at character
  unfold boundaryFor ObservedKey.isSpace ObservedKey.isEnter ObservedKey.isTab
    ObservedKey.punctuationValue
  cases kind : event.key.kind with
  | letter value | digit value =>
    rw [kind] at character
    have same : characterFor event = some c := by
      simpa [characterFor, ObservedKey.letterValue, ObservedKey.digitValue, kind, unshifted]
        using character
    exact .inl ⟨by simp, same, inside same⟩
  | space | enter | tab =>
    rw [kind] at character
    cases character
    exact .inr ⟨⟨_, rfl⟩, rfl⟩
  | punctuation value =>
    rw [kind] at character valid
    cases character
    exact .inr ⟨⟨_, rfl⟩, (punctuation_not_alphanumeric valid).2.1⟩
  | backspace | escape | modifier _ | other =>
    rw [kind] at character
    cases character

/-- What was typed since the last space, enter or tab. -/
def lastWord (text : List Char) : List Char :=
  text.rtakeWhile fun c => c ≠ ' ' && c ≠ '\n' && c ≠ '\t'

def lastToken (text : List Char) : List Char := text.rtakeWhile isAsciiAlphanumeric

namespace DiagnosticDecisionProcessor

/-- The processor after a typed text: the token is its last run of letters and digits, and a plan
is about the run before its last character. -/
structure Follows (processor : DiagnosticDecisionProcessor) (text : List Char) : Prop where
  control : processor.controlDown = false
  alt : processor.altDown = false
  metaKey : processor.metaDown = false
  raw : processor.token.rawAscii = lastToken text
  plan : ∀ plan, processor.lastRestorePlan = some plan →
    ∃ front mark, text = front ++ [mark] ∧ plan.originalToken = lastToken front

section Typing
variable {unicode : Segmentation}

theorem new_follows : Follows new [] where
  control := rfl
  alt := rfl
  metaKey := rfl
  raw := rfl
  plan plan current := by cases current

theorem process_alphanumeric (telex : TelexEngine) {character : Char}
    (alphanumeric : isAsciiAlphanumeric character) :
    ∃ plan token, telex.process unicode (.character character) = (.ok (.apply plan), ⟨token⟩) ∧
      token.rawAscii = telex.token.rawAscii ++ [character] := by
  have ascii := isAscii_of_alphanumeric alphanumeric
  have all : ∀ n < 128, isAsciiAlphanumeric (Char.ofNat n) →
      TokenBoundary.fromChar (Char.ofNat n) = none := by decide
  have inside := forall_ascii
    (P := fun c => isAsciiAlphanumeric c → TokenBoundary.fromChar c = none) all ascii alphanumeric
  have processed := TelexEngine.process_processed unicode telex (.character character)
  generalize telex.process unicode (.character character) = result at processed
  obtain ⟨answer, after⟩ := result
  cases processed with
  | refused _ other =>
    rw [ascii] at other
    cases other
  | ended _ boundary ends _ =>
    rcases ends with is | ⟨other, is, from_⟩
    · cases is
    · cases is
      rw [inside] at from_
      cases from_
  | recomposed _ token raw _ =>
    rcases raw with ⟨is, _⟩ | ⟨other, is, _, longer⟩
    · cases is
    · cases is
      exact ⟨_, token, rfl, longer⟩

theorem process_typed {processor : DiagnosticDecisionProcessor} {text : List Char}
    (h : processor.Follows text) {event : ObservedInputEvent} (typed : IsTyped event) :
    processor.process unicode event =
      match boundaryFor event with
      | some boundary => processor.evaluateBoundary unicode boundary
      | none =>
        match characterFor event with
        | none => (processor.resetToken.invalidateRestorePlan, .unsupported)
        | some character =>
          let processor := processor.invalidateRestorePlan
          match processor.telex.process unicode (.character character) with
          | (.ok _, telex) => ({ processor with telex := telex }, .observed)
          | (.error _, telex) =>
            ({ processor with telex := telex }.resetToken.invalidateRestorePlan, .unsupported) := by
  have physical : isInjected event = false := by
    rw [isInjected, typed.origin]
    rfl
  have chorded : processor.isChorded event = false := by
    simp [isChorded, typed.modifiers, ModifierState.new, h.control, h.alt, h.metaKey]
  have shown := typed.character
  have plain : event.key.modifierValue = none ∧ event.key.isEscape = false ∧
      event.key.isBackspace = false := by
    unfold typedCharacter at shown
    unfold ObservedKey.modifierValue ObservedKey.isEscape ObservedKey.isBackspace
    cases kind : event.key.kind <;> simp_all
  rw [process, physical, updateShortcutState_none plain.1, typed.down, chorded, plain.1,
    plain.2.1, plain.2.2]
  rfl

theorem step_follows {processor : DiagnosticDecisionProcessor} {text : List Char}
    (h : processor.Follows text) {event : ObservedInputEvent} (typed : IsTyped event) {c : Char}
    (character : typedCharacter event = some c) :
    (processor.step unicode (.event event)).Follows (text ++ [c]) := by
  rw [step, process_typed h typed]
  rcases typed_cases typed character with ⟨inside, shown, alphanumeric⟩ | ⟨⟨boundary, ends⟩, other⟩
  · obtain ⟨plan, token, fed, raw⟩ :=
      @process_alphanumeric unicode processor.telex _ alphanumeric
    rw [inside, shown]
    simp only [invalidateRestorePlan, fed]
    refine ⟨h.control, h.alt, h.metaKey, ?_, fun plan current => by cases current⟩
    have before : processor.telex.token.rawAscii = lastToken text := h.raw
    rw [lastToken, List.rtakeWhile_concat_pos _ _ _ alphanumeric, ← lastToken, ← before]
    exact raw
  · simp only [ends]
    obtain ⟨telex, control, alt, metaKey, replaced⟩ :=
      @evaluateBoundary_spec unicode processor boundary
    generalize processor.evaluateBoundary unicode boundary = result at *
    refine ⟨control.trans h.control, alt.trans h.alt, metaKey.trans h.metaKey, ?_, ?_⟩
    · rw [token, telex, lastToken, List.rtakeWhile_concat_neg _ _ _ (by simp [other])]
      rfl
    · intro plan current
      cases replaced with
      | dropped _ gone =>
        rw [gone] at current
        cases current
      | planned _ _ _ _ _ _ _ _ made =>
        rw [made] at current
        cases current
        exact ⟨text, c, rfl, h.raw⟩

theorem run_follows {events : List ObservedInputEvent} (typed : ∀ event ∈ events, IsTyped event) :
    (run (step unicode) new (events.map .event)).Follows (typedText events) := by
  induction events using List.reverseRecOn with
  | nil => exact new_follows
  | append_singleton events event ih =>
    have last := typed event (List.mem_append_right _ (List.mem_singleton_self event))
    have before := ih fun other mem => typed other (List.mem_append_left _ mem)
    obtain ⟨c, character⟩ := Option.isSome_iff_exists.mp last.character
    have more : typedText (events ++ [event]) = typedText events ++ [c] := by
      simp [typedText, character]
    rw [List.map_append, run_append, more]
    exact step_follows before last character

theorem typed_plain {event : ObservedInputEvent} {c : Char}
    (character : typedCharacter event = some c) :
    isAscii c ∧ isAsciiUppercase c = false ∧
      (isWhitespace c = false ∨ c = ' ' ∨ c = '\n' ∨ c = '\t') := by
  have valid := event.key.valid
  unfold typedCharacter at character
  cases kind : event.key.kind with
  | letter value =>
    rw [kind] at character valid
    cases character
    have alphabetic : isAsciiAlphabetic value := valid
    have ascii : isAscii value := isAscii_of_alphanumeric (by simp [isAsciiAlphanumeric, alphabetic])
    have all : ∀ n < 128, isAsciiAlphabetic (Char.ofNat n) →
        isAscii (toAsciiLowercase (Char.ofNat n)) ∧
          isAsciiUppercase (toAsciiLowercase (Char.ofNat n)) = false ∧
          isWhitespace (toAsciiLowercase (Char.ofNat n)) = false := by decide
    obtain ⟨lowered, upper, space⟩ := forall_ascii (P := fun c => isAsciiAlphabetic c →
      isAscii (toAsciiLowercase c) ∧ isAsciiUppercase (toAsciiLowercase c) = false ∧
        isWhitespace (toAsciiLowercase c) = false) all ascii alphabetic
    exact ⟨lowered, upper, .inl space⟩
  | digit value =>
    rw [kind] at character valid
    cases character
    have all : ∀ digit ≤ 9, isAscii (Char.ofNat ('0'.toNat + digit)) ∧
        isAsciiUppercase (Char.ofNat ('0'.toNat + digit)) = false ∧
        isWhitespace (Char.ofNat ('0'.toNat + digit)) = false := by decide
    obtain ⟨ascii, upper, space⟩ := all value valid
    exact ⟨ascii, upper, .inl space⟩
  | punctuation value =>
    rw [kind] at character valid
    cases character
    obtain ⟨ascii, _, space, upper⟩ := punctuation_not_alphanumeric valid
    exact ⟨ascii, upper, .inl space⟩
  | space | enter | tab =>
    rw [kind] at character
    cases character
    exact ⟨rfl, rfl, .inr (by simp)⟩
  | backspace | escape | modifier _ | other =>
    rw [kind] at character
    cases character

end Typing

section Word

theorem rtakeWhile_rtakeWhile {α : Type*} {p q : α → Bool} (inside : ∀ a, p a → q a)
    (text : List α) : (text.rtakeWhile q).rtakeWhile p = text.rtakeWhile p := by
  induction text using List.reverseRecOn with
  | nil => rfl
  | append_singleton text a ih =>
    by_cases shown : p a
    · rw [List.rtakeWhile_concat_pos q _ _ (inside a shown), List.rtakeWhile_concat_pos p _ _ shown,
        List.rtakeWhile_concat_pos p _ _ shown, ih]
    · rw [List.rtakeWhile_concat_neg p _ _ shown]
      by_cases kept : q a
      · rw [List.rtakeWhile_concat_pos q _ _ kept, List.rtakeWhile_concat_neg p _ _ shown]
      · rw [List.rtakeWhile_concat_neg q _ _ kept, List.rtakeWhile_nil]

/-- What was typed in front of the last token in the same word. -/
def beforeToken (text : List Char) : List Char := (lastWord text).rdropWhile isAsciiAlphanumeric

theorem lastWord_eq (text : List Char) : lastWord text = beforeToken text ++ lastToken text := by
  have inside : ∀ c, isAsciiAlphanumeric c → (c ≠ ' ' && c ≠ '\n' && c ≠ '\t') = true := by
    intro c alphanumeric
    simp only [Bool.and_eq_true, decide_eq_true_eq]
    refine ⟨⟨?_, ?_⟩, ?_⟩ <;> rintro rfl <;> cases alphanumeric
  have same := rtakeWhile_rtakeWhile inside text
  rw [lastToken, ← same, beforeToken, lastWord, List.rdropWhile_append_rtakeWhile]

theorem wordParts_typed {events : List ObservedInputEvent} {front : List Char}
    (leads : front <+: typedText events)
    (known : (builtInDictionaries (lastToken front)).isSome) :
    WordParts (beforeToken front) (lastToken front) := by
  have plain (c : Char) (mem : c ∈ front) : isAscii c ∧ isAsciiUppercase c = false ∧
      (isWhitespace c = false ∨ c = ' ' ∨ c = '\n' ∨ c = '\t') := by
    obtain ⟨event, _, character⟩ := List.mem_filterMap.mp (leads.subset mem)
    exact typed_plain character
  have lower : toAsciiLowercaseText (lastToken front) = lastToken front :=
    toAsciiLowercaseText_eq_self fun c mem => (plain c ((List.rtakeWhile_suffix _ _).subset mem)).2.1
  obtain ⟨lowercase, letter⟩ := known_lowercase known lower
  refine ⟨lowercase, letter, fun c mem => ?_, fun some_before => ?_⟩
  · have in_word : c ∈ lastWord front := (List.rdropWhile_prefix _ _).subset mem
    have visible := List.mem_rtakeWhile_imp in_word
    have in_text : c ∈ front := (List.rtakeWhile_suffix _ _).subset in_word
    obtain ⟨ascii, upper, space⟩ := plain c in_text
    simp only [Bool.and_eq_true, decide_eq_true_eq] at visible
    refine ⟨ascii, ?_, upper⟩
    rcases space with none | is | is | is
    · exact none
    · exact absurd is visible.1.1
    · exact absurd is visible.1.2
    · exact absurd is visible.2
  · have stops := List.rdropWhile_last_not isAsciiAlphanumeric (lastWord front) some_before
    exact Bool.eq_false_iff.mpr stops

end Word

/-- With a plan current after typing `events`, the word up to its token is no never-transform
token exactly if nothing that was typed in front of the token in that word protects it. -/
theorem word_unprotected_iff (unicode : Segmentation) (events : List ObservedInputEvent)
    (typed : ∀ event ∈ events, IsTyped event) (plan : RestorePlan)
    (current : (run (step unicode) new (events.map .event)).lastRestorePlan = some plan) :
    let text := (typedText events).dropLast
    lastWord text = beforeToken text ++ plan.originalToken ∧
      (classifyNeverTransform (lastWord text) = none ↔
        ¬ Protecting (beforeToken text) plan.originalToken) := by
  intro text
  have follows := @run_follows unicode events typed
  have holds : PlanHolds (run (step unicode) new (events.map .event)) := run_planHolds _
  have justified := (holds.plan plan current).2.2.1
  obtain ⟨front, mark, split, original⟩ := follows.plan plan current
  have same : text = front := by
    change (typedText events).dropLast = front
    rw [split, List.dropLast_concat]
  have known := justified.known
  rw [original] at known
  have parts : WordParts (beforeToken front) (lastToken front) :=
    wordParts_typed (split ▸ List.prefix_append front [mark]) known
  have unprotected := justified.unprotected
  rw [same, original]
  rw [original] at unprotected
  refine ⟨lastWord_eq front, ?_⟩
  rw [lastWord_eq]
  exact parts.unprotected_iff unprotected

def pressKeys (keys : List ObservedKey) : List ObservedInputEvent :=
  keys.zipIdx.map fun (key, index) => .pressed key ⟨index + 1, by omega⟩

theorem pressKeys_typed {keys : List ObservedKey}
    (typing : ∀ key ∈ keys, (typedCharacter (.pressed key ⟨1, by decide⟩)).isSome) :
    ∀ event ∈ pressKeys keys, IsTyped event := by
  intro event mem
  obtain ⟨⟨key, index⟩, pair, rfl⟩ := List.mem_map.mp mem
  exact ⟨rfl, rfl, rfl, typing key (List.fst_mem_of_mem_zipIdx pair)⟩

def resumeKeys : List ObservedKey :=
  [⟨.letter 'r', rfl⟩, ⟨.letter 'e', rfl⟩, ⟨.letter 's', rfl⟩, ⟨.letter 'u', rfl⟩,
    ⟨.letter 'm', rfl⟩, ⟨.letter 'e', rfl⟩, .space]

def resumePlan : RestorePlan where
  originalToken := "resume".toList
  renderedToken := "réume".toList
  replacementToken := "resume".toList
  renderedUnitsToReplace := 5
  replacementUnits := 6
  reason := .exactEnglishDictionary
  executionAllowed := false
  generation := 1

theorem resume_planned :
    (run (step scalarSegmentation) new ((pressKeys resumeKeys).map .event)).lastRestorePlan =
        some resumePlan ∧
      (run (step scalarSegmentation) new
        ((pressKeys (⟨.punctuation '/', rfl⟩ :: resumeKeys)).map .event)).lastRestorePlan =
          some resumePlan := by
  decide +kernel

theorem word_unprotected_iff_resume :
    let text := (typedText (pressKeys resumeKeys)).dropLast
    lastWord text = beforeToken text ++ resumePlan.originalToken ∧
      (classifyNeverTransform (lastWord text) = none ↔
        ¬ Protecting (beforeToken text) resumePlan.originalToken) :=
  word_unprotected_iff scalarSegmentation (pressKeys resumeKeys) (pressKeys_typed (by decide))
    resumePlan resume_planned.1

/-- After the keys of "/resume " a plan is current for "resume", although "/resume" is an option. -/
theorem option_planned :
    ¬ ∀ events : List ObservedInputEvent, (∀ event ∈ events, IsTyped event) →
      ∀ plan, (run (step scalarSegmentation) new (events.map .event)).lastRestorePlan = some plan →
        classifyNeverTransform (lastWord (typedText events).dropLast) = none := by
  intro claimed
  have unprotected := claimed (pressKeys (⟨.punctuation '/', rfl⟩ :: resumeKeys))
    (pressKeys_typed (by decide)) resumePlan resume_planned.2
  revert unprotected
  decide

end DiagnosticDecisionProcessor
end ZonKey.Diagnostic

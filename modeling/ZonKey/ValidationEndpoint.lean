import ZonKey.LiveEndpoint

set_option autoImplicit false

namespace ZonKey.Detect
open Observe

section Lowercase
variable {word : List Char}

theorem not_mem_lowercase (lower : ∀ c ∈ word, isAsciiLowercase c) {c : Char}
    (other : isAsciiLowercase c = false) : c ∉ word := by
  intro mem
  rw [lower c mem] at other
  cases other

theorem any_lowercase (lower : ∀ c ∈ word, isAsciiLowercase c) {p : Char → Bool}
    (none : ∀ c, isAsciiLowercase c → p c = false) : word.any p = false := by
  rw [List.any_eq_false]
  exact fun c mem => Bool.eq_false_iff.mp (none c (lower c mem))

theorem secret_lowercase (lower : ∀ c ∈ word, isAsciiLowercase c) :
    looksLikeSecret word = false := by
  have key : startsWith word ['A', 'K', 'I', 'A'] = false :=
    startsWith_false_of_not_mem List.mem_cons_self (not_mem_lowercase lower rfl)
  have upper : word.any isAsciiUppercase = false :=
    any_lowercase lower fun c small => (lowercase_ascii small).2.2.1
  have digit : word.any isAsciiDigit = false :=
    any_lowercase lower fun c small => (lowercase_ascii small).2.2.2.1
  have mark : (word.any fun c => !isAsciiAlphanumeric c) = false :=
    any_lowercase lower fun c small => by rw [(lowercase_ascii small).2.2.2.2]; rfl
  have classes : ¬ 3 ≤ (secretClasses word).count true := by
    rw [secretClasses, upper, digit, mark]
    cases word.any isAsciiLowercase <;> decide
  simp only [looksLikeSecret, key, Bool.false_and, Bool.false_eq_true, if_false, classes,
    decide_false, Bool.and_false]

theorem classifyNeverTransform_lowercase (nonempty : word ≠ [])
    (lower : ∀ c ∈ word, isAsciiLowercase c) : classifyNeverTransform word = none := by
  have absent {c : Char} (other : isAsciiLowercase c = false) : c ∉ word :=
    not_mem_lowercase lower other
  have starts {start : List Char} {c : Char} (mem : c ∈ start)
      (other : isAsciiLowercase c = false) : startsWith word start = false :=
    startsWith_false_of_not_mem mem (absent other)
  have upper (c : Char) (mem : c ∈ word) : isAsciiUppercase c = false :=
    (lowercase_ascii (lower c mem)).2.2.1
  have dots : word.splitOn '.' = [word] := List.splitOn_eq_singleton (absent rfl)
  have hyphens : word.splitOn '-' = [word] := List.splitOn_eq_singleton (absent rfl)
  rw [classifyNeverTransform_none_iff nonempty, toAsciiLowercaseText_eq_self upper]
  refine ⟨⟨?_, starts (c := ':') (by decide) rfl, starts (c := ':') (by decide) rfl⟩, ?_,
    ⟨starts (c := '-') (by decide) rfl, starts (c := '/') (by decide) rfl,
      starts (c := '/') (by decide) rfl, starts (c := '/') (by decide) rfl, ?_, absent rfl⟩,
    ⟨?_, ?_⟩, ?_, ?_, ?_, secret_lowercase lower, ?_, absent rfl,
    fun mem => absurd mem (absent rfl), ?_⟩
  · rw [containsText, decide_eq_false_iff_not]
    exact fun inside => absent rfl (inside.subset List.mem_cons_self)
  · rw [looksLikeEmail, splitOnce, if_neg (absent rfl)]
  · cases windows : looksLikeWindowsPath word with
    | false => rfl
    | true =>
      rcases looksLikeWindowsPath_slash windows with slash | slash
      · exact absurd (List.mem_of_getElem? slash) (absent rfl)
      · exact absurd (List.mem_of_getElem? slash) (absent rfl)
  · simp [looksLikeIpv4, dots]
  · have colon : ':' ∉ word := absent rfl
    simp [looksLikeIpv6, colon]
  · have core : '.' ∉ ((stripPrefix ['v'] word).getD word).takeWhile isCoreCharacter := fun mem =>
      absent rfl (stripPrefix_subset _ _ (List.takeWhile_subset _ mem))
    rw [looksLikeSemver_core, List.splitOn_eq_singleton core]
    rfl
  · simp [looksLikeUuid, hyphens]
  · have digit : ((stripPrefix ['0', 'x'] word).getD word).any isAsciiDigit = false :=
      List.any_eq_false.mpr fun c mem => Bool.eq_false_iff.mp
        (lowercase_ascii (lower c (stripPrefix_subset _ _ mem))).2.2.2.1
    have mark : startsWith word ['0', 'x'] = false := starts (c := '0') List.mem_cons_self rfl
    simp only [looksLikeHexOrHash, mark, digit, Bool.or_self, Bool.and_false]
  · simp [looksLikeDomain, dots]
  · rw [hasInternalUppercase, Bool.and_eq_false_iff]
    exact .inr (List.any_eq_false.mpr fun c mem =>
      Bool.eq_false_iff.mp (upper c (List.mem_of_mem_drop mem)))

theorem toAsciiLowercase_letter {c : Char} (letter : isAsciiAlphabetic c) :
    isAsciiLowercase (toAsciiLowercase c) := by
  have all : ∀ n < 128, isAsciiAlphabetic (Char.ofNat n) →
      isAsciiLowercase (toAsciiLowercase (Char.ofNat n)) := by decide
  have ascii := isAscii_of_alphanumeric (c := c) (by simp [isAsciiAlphanumeric, letter])
  exact forall_ascii (P := fun c => isAsciiAlphabetic c →
    isAsciiLowercase (toAsciiLowercase c)) all ascii letter

theorem restoration_letters {token : List Char} (nonempty : token ≠ [])
    (letters : ∀ c ∈ token, isAsciiAlphabetic c) :
    Diagnostic.restoration (toAsciiLowercaseText token) =
      if toAsciiLowercaseText token = Telex.composed (toAsciiLowercaseText token) then none
      else (builtInDictionaries token).map DictionaryClass.reason := by
  have lower : ∀ c ∈ toAsciiLowercaseText token, isAsciiLowercase c := by
    intro c mem
    obtain ⟨typed, inside, rfl⟩ := List.mem_map.mp mem
    exact toAsciiLowercase_letter (letters typed inside)
  have some_word : toAsciiLowercaseText token ≠ [] := fun empty =>
    nonempty (List.map_eq_nil_iff.mp empty)
  have twice : builtInDictionaries (toAsciiLowercaseText token) = builtInDictionaries token := by
    have same : toAsciiLowercaseText (toAsciiLowercaseText token) = toAsciiLowercaseText token :=
      toAsciiLowercaseText_eq_self fun c mem => (lowercase_ascii (lower c mem)).2.2.1
    rw [builtInDictionaries, same]
    rfl
  simp only [Diagnostic.restoration, some_word, classifyNeverTransform_lowercase some_word lower,
    Option.isSome_none, Bool.false_eq_true, false_or, twice]

end Lowercase

end ZonKey.Detect

namespace ZonKey.Diagnostic
open Observe Telex Detect Runs

/-- `feed_token`; `none` is its panic. -/
def feedToken (unicode : Segmentation) (processor : DiagnosticDecisionProcessor) :
    List Char → Nat → Option DiagnosticDecisionProcessor
  | [], sequence => do
    let sequence ← (EventSequence.new sequence).toOption
    some (processor.process unicode (.pressed .space sequence)).1
  | character :: rest, startSequence => do
    let key ← (ObservedKey.letter character).toOption
    let sequence ← (EventSequence.new startSequence).toOption
    feedToken unicode (processor.process unicode (.pressed key sequence)).1 rest (startSequence + 1)

section Feeding
open DiagnosticDecisionProcessor
variable {unicode : Segmentation} {buffer : WordBuffer}

def WordBuffer.Calm (buffer : WordBuffer) : Prop :=
  buffer.control = false ∧ buffer.alt = false ∧ buffer.metaKey = false

theorem WordBuffer.Calm.pressed (calm : buffer.Calm) {key : ObservedKey}
    (plain : key.modifierValue = none) (sequence : EventSequence) :
    buffer.step (.event (.pressed key sequence)) = buffer.press false key.kind := by
  obtain ⟨control, alt, metaKey⟩ := calm
  simp [WordBuffer.step, ObservedInputEvent.pressed, isInjected, plain, KeyEventKind.isUp,
    WordBuffer.chorded, ModifierState.new, control, alt, metaKey]

theorem WordBuffer.finish_offer (buffer : WordBuffer) :
    buffer.finish.offer =
      (restoration buffer.word).map fun reason => ⟨buffer.word, reason, buffer.restored + 1⟩ := by
  simp only [WordBuffer.finish]
  cases restoration buffer.word <;> rfl

theorem WordBuffer.finish_unoffered (buffer : WordBuffer) :
    { buffer with offer := none }.finish = buffer.finish := by
  simp only [WordBuffer.finish]
  cases restoration buffer.word <;> rfl

variable {processor : DiagnosticDecisionProcessor} {sequence : Nat}

theorem feedToken_nil (counted : sequence ≠ 0) :
    feedToken unicode processor [] sequence =
      some (processor.process unicode (.pressed .space ⟨sequence, counted⟩)).1 := by
  simp [feedToken, EventSequence.new, counted, Except.toOption]

theorem feedToken_cons (counted : sequence ≠ 0) {c : Char} (letter : isAsciiAlphabetic c)
    (rest : List Char) :
    feedToken unicode processor (c :: rest) sequence =
      feedToken unicode
        (processor.process unicode (.pressed ⟨.letter c, letter⟩ ⟨sequence, counted⟩)).1
        rest (sequence + 1) := by
  simp [feedToken, EventSequence.new, ObservedKey.letter, counted, letter, Except.toOption]

theorem feedToken_tracks (tracks : processor.Tracks buffer) (calm : buffer.Calm)
    {token : List Char} (letters : ∀ c ∈ token, isAsciiAlphabetic c) (counted : sequence ≠ 0) :
    ∃ inputs,
      feedToken unicode processor token sequence = some (run (step unicode) processor inputs) ∧
      (run (step unicode) processor inputs).Tracks (WordBuffer.finish
        { buffer with word := buffer.word ++ toAsciiLowercaseText token, offer := none }) := by
  induction token generalizing processor buffer sequence with
  | nil =>
    let space : Input := .event (.pressed .space ⟨sequence, counted⟩)
    have stepped : (processor.step unicode space).Tracks (buffer.step space) := tracks.step space
    rw [calm.pressed rfl] at stepped
    refine ⟨[space], feedToken_nil counted, ?_⟩
    rw [toAsciiLowercaseText, List.map_nil, List.append_nil, WordBuffer.finish_unoffered]
    exact stepped
  | cons c rest ih =>
    have letter : isAsciiAlphabetic c := letters c List.mem_cons_self
    let key : Input := .event (.pressed ⟨.letter c, letter⟩ ⟨sequence, counted⟩)
    have stepped : (processor.step unicode key).Tracks (buffer.step key) := tracks.step key
    rw [calm.pressed rfl] at stepped
    obtain ⟨inputs, fed, ended⟩ := ih stepped calm
      (fun d mem => letters d (List.mem_cons_of_mem c mem)) (Nat.succ_ne_zero sequence)
    refine ⟨key :: inputs, (feedToken_cons counted letter rest).trans fed, ?_⟩
    simp only [WordBuffer.press, WordBuffer.write, List.append_assoc, Bool.false_eq_true,
      if_false] at ended
    exact ended

end Feeding

end ZonKey.Diagnostic

namespace ZonKey.Native
open Observe Telex Detect Diagnostic Runs Transport Pipe Host DiagnosticDecisionProcessor

/-- What becomes of `run_serve_host_validation` before its pipe opens. -/
inductive ValidationStart where
  | refused (message : String)
  | panicked
  | serving (handoff : Option (Except String HandoffRequest))

/-- The token of `run_serve_host_validation` and the answer of its provider, whose processor
no event reaches any more. -/
def startValidation (unicode : Segmentation) : Option (List Char) → ValidationStart
  | none => .serving none
  | some token =>
    if token.isEmpty || !token.all isAsciiAlphabetic then
      .refused "handoff token must be non-empty ASCII letters"
    else
      match feedToken unicode .new token 1 with
      | none => .panicked
      | some processor => .serving (some (validationProvider processor))

/-- The word that a token leaves: its small letters, if Telex changes them and a dictionary
has them. -/
def tokenOffer (token : List Char) : Option OfferedWord :=
  if toAsciiLowercaseText token = composed (toAsciiLowercaseText token) then none
  else (builtInDictionaries token).map fun entry => ⟨toAsciiLowercaseText token, entry.reason, 1⟩

section Validation
variable {unicode : Segmentation} {token : List Char}

theorem finish_token (nonempty : token ≠ []) (letters : ∀ c ∈ token, isAsciiAlphabetic c) :
    (WordBuffer.finish { WordBuffer.blank with word := toAsciiLowercaseText token }).offer =
      tokenOffer token := by
  rw [WordBuffer.finish_offer, restoration_letters nonempty letters, tokenOffer]
  split
  · rfl
  · rw [Option.map_map]
    rfl

theorem token_checked :
    (token.isEmpty || !token.all isAsciiAlphabetic) = false ↔
      token ≠ [] ∧ ∀ c ∈ token, isAsciiAlphabetic c := by
  rw [Bool.or_eq_false_iff, List.isEmpty_eq_false_iff, Bool.not_eq_false', List.all_eq_true]

theorem startValidation_letters (nonempty : token ≠ [])
    (letters : ∀ c ∈ token, isAsciiAlphabetic c) : ∃ processor : DiagnosticDecisionProcessor,
    startValidation unicode (some token) = .serving (some (validationProvider processor)) ∧
      processor.PlanTyped ∧ ∃ buffer, processor.Tracks buffer ∧ buffer.offer = tokenOffer token := by
  obtain ⟨inputs, fed, tracks⟩ := @feedToken_tracks unicode .blank .new 1 tracks_new
    ⟨rfl, rfl, rfl⟩ token letters (Nat.succ_ne_zero 0)
  refine ⟨_, ?_, run_planTyped inputs, _, tracks, finish_token nonempty letters⟩
  rw [startValidation, token_checked.mpr ⟨nonempty, letters⟩, fed]
  rfl

/-- The endpoint starts exactly with a token of letters, never panics over one, and for as long
as it serves, whatever the clients send, it answers every handoff query with the token in small
letters if Telex changes these and a dictionary has them, and with no plan otherwise. -/
theorem validation_handoff (unicode : Segmentation) (session : String)
    (recovery : Option Store.DurableRecoveryStore) (token : List Char) :
    startValidation unicode (some token) ≠ .panicked ∧
    ((∃ message, startValidation unicode (some token) = .refused message) ↔
      token = [] ∨ ∃ c ∈ token, isAsciiAlphabetic c = false) ∧
    ∀ handoff, startValidation unicode (some token) = .serving handoff →
      parseHandoffPayload (utf16 (offerAnswer (tokenOffer token))) =
          offerReading (tokenOffer token) ∧
        ∀ frames : List GateFrame,
          let server := run PipeServer.next (gateServer session recovery)
            (frames.map fun f => { f with handoff := handoff }.arrival)
          ∀ firstWrite secondWrite delivery asked, server.sessionOk asked = true →
            (server.report (GateFrame.mk handoff firstWrite secondWrite delivery
                ("HANDOFF|" ++ asked)).arrival).sent =
              some ("RESULT|DEFINITE|" ++ offerAnswer (tokenOffer token)) := by
  by_cases valid : token ≠ [] ∧ ∀ c ∈ token, isAsciiAlphabetic c
  · obtain ⟨processor, started, typed, buffer, tracks, offered⟩ :=
      @startValidation_letters unicode token valid.1 valid.2
    rw [started]
    refine ⟨ValidationStart.noConfusion, ⟨?_, ?_⟩, ?_⟩
    · rintro ⟨message, refused⟩
      cases refused
    · rintro (empty | ⟨c, mem, other⟩)
      · exact absurd empty valid.1
      · rw [valid.2 c mem] at other
        cases other
    · intro handoff serving
      cases serving
      rw [← offered, validationProvider_eq]
      refine ⟨reads_offerAnswer typed tracks, ?_⟩
      intro frames server firstWrite secondWrite delivery asked own
      rw [← handoffText_live typed.holds tracks]
      exact congrArg (fun result => FrameReport.sent (Prod.fst result))
        (serveFrame_handoff ⟨_, firstWrite, secondWrite, delivery, "HANDOFF|" ++ asked⟩ rfl own)
  · have checked : (token.isEmpty || !token.all isAsciiAlphabetic) = true := by
      rw [← Bool.not_eq_false, token_checked]
      exact valid
    have started : startValidation unicode (some token) =
        .refused "handoff token must be non-empty ASCII letters" := by
      rw [startValidation, if_pos checked]
    rw [started]
    refine ⟨ValidationStart.noConfusion, ⟨fun _ => ?_, fun _ => ⟨_, rfl⟩⟩, ?_⟩
    · rw [not_and_or, not_not] at valid
      refine valid.imp id fun other => ?_
      simpa using other
    · intro handoff serving
      cases serving

end Validation
end ZonKey.Native

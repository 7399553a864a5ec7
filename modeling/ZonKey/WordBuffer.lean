import ZonKey.RestoreHandoff
import ZonKey.TypedWords

set_option autoImplicit false

namespace ZonKey.Diagnostic
open Observe Telex Detect Runs

/-- The reason to restore a word: a dictionary word, no protected pattern, shown as something else. -/
def restoration (word : List Char) : Option DecisionReason :=
  if word = [] ∨ (classifyNeverTransform word).isSome ∨ word = composed word then none
  else (builtInDictionaries word).map DictionaryClass.reason

structure OfferedWord where
  word : List Char
  reason : DecisionReason
  number : Nat

structure WordBuffer where
  control : Bool
  alt : Bool
  metaKey : Bool
  word : List Char
  offer : Option OfferedWord
  restored : Nat

namespace WordBuffer

def blank : WordBuffer := ⟨false, false, false, [], none, 0⟩

def hold (buffer : WordBuffer) (down : Bool) : ModifierKey → WordBuffer
  | .control => { buffer with control := down }
  | .alt => { buffer with alt := down }
  | .metaKey => { buffer with metaKey := down }
  | .shift => buffer

def write (buffer : WordBuffer) (character : Char) : WordBuffer :=
  { buffer with word := buffer.word ++ [character], offer := none }

def erase (buffer : WordBuffer) : WordBuffer :=
  { buffer with word := buffer.word.dropLast, offer := none }

def abandon (buffer : WordBuffer) : WordBuffer := { buffer with word := [], offer := none }

def finish (buffer : WordBuffer) : WordBuffer :=
  match restoration buffer.word with
  | none => buffer.abandon
  | some reason =>
    { buffer with
        word := []
        offer := some ⟨buffer.word, reason, buffer.restored + 1⟩
        restored := buffer.restored + 1 }

def press (buffer : WordBuffer) (shift : Bool) : ObservedKeyKind → WordBuffer
  | .letter value => buffer.write (if shift then value else toAsciiLowercase value)
  | .digit value => buffer.write (Char.ofNat ('0'.toNat + value))
  | .backspace => buffer.erase
  | .space | .enter | .tab | .punctuation _ => buffer.finish
  | .escape | .modifier _ | .other => buffer.abandon

def chorded (buffer : WordBuffer) (modifiers : ModifierState) : Bool :=
  modifiers.control || modifiers.alt || modifiers.metaKey ||
    buffer.control || buffer.alt || buffer.metaKey

def step (buffer : WordBuffer) : DiagnosticDecisionProcessor.Input → WordBuffer
  | .discontinuity => ⟨false, false, false, [], none, buffer.restored⟩
  | .event event =>
    if DiagnosticDecisionProcessor.isInjected event then buffer
    else
      match event.key.modifierValue with
      | some key => buffer.hold (!event.kind.isUp) key
      | none =>
        if event.kind.isUp || buffer.chorded event.modifiers then buffer
        else buffer.press event.modifiers.shift event.key.kind

end WordBuffer

/-- The plan for an offered word, as long as its number is a generation. -/
def OfferedWord.plan (offer : OfferedWord) : Option RestorePlan :=
  if offer.number ≤ u64Max then
    some {
      originalToken := offer.word
      renderedToken := composed offer.word
      replacementToken := offer.word
      renderedUnitsToReplace := (composed offer.word).length
      replacementUnits := offer.word.length
      reason := offer.reason
      executionAllowed := false
      generation := UInt64.ofNat offer.number }
  else none

def generationAfter (restored : Nat) : Option UInt64 :=
  if restored < u64Max then some (UInt64.ofNat (restored + 1)) else none

namespace DiagnosticDecisionProcessor
variable {unicode : Segmentation} {processor : DiagnosticDecisionProcessor} {buffer : WordBuffer}

/-- The processor holds what the buffer does. -/
structure Tracks (processor : DiagnosticDecisionProcessor) (buffer : WordBuffer) : Prop where
  control : processor.controlDown = buffer.control
  alt : processor.altDown = buffer.alt
  metaKey : processor.metaDown = buffer.metaKey
  context : processor.context = .writing
  word : processor.token.rawAscii = buffer.word
  token : TokenHolds processor.telex
  plan : processor.lastRestorePlan = buffer.offer.bind OfferedWord.plan
  next : processor.nextPlanGeneration = generationAfter buffer.restored

theorem Tracks.rendered (h : processor.Tracks buffer) :
    processor.token.rendered = composed buffer.word := by
  rw [← h.word]
  exact compose_ok h.token.composes

theorem tracks_new : new.Tracks .blank where
  control := rfl
  alt := rfl
  metaKey := rfl
  context := rfl
  word := rfl
  token := tokenHolds_new
  plan := rfl
  next := rfl

theorem Tracks.dropped {after : DiagnosticDecisionProcessor} {next : WordBuffer}
    (h : processor.Tracks buffer) (control : after.controlDown = processor.controlDown)
    (alt : after.altDown = processor.altDown) (metaKey : after.metaDown = processor.metaDown)
    (context : after.context = processor.context) (plan : after.lastRestorePlan = none)
    (generation : after.nextPlanGeneration = processor.nextPlanGeneration)
    (word : after.token.rawAscii = next.word) (token : TokenHolds after.telex)
    (same : next = { buffer with word := next.word, offer := none }) : after.Tracks next := by
  rw [same]
  exact {
    control := control.trans h.control
    alt := alt.trans h.alt
    metaKey := metaKey.trans h.metaKey
    context := context.trans h.context
    word := word
    token := token
    plan := plan
    next := generation.trans h.next }

section Boundary
variable {boundary : TokenBoundary}

theorem restoration_iff {word : List Char} (ascii : ∀ c ∈ word, isAscii c)
    (known : boundary ≠ .unknown) {reason : DecisionReason} :
    restoration word = some reason ↔
      ∃ entry, Candidate builtInDictionaries ⟨word, composed word, boundary⟩ entry ∧
        entry.reason = reason := by
  unfold restoration
  constructor
  · intro found
    split_ifs at found with refused
    simp only [not_or, Bool.not_eq_true, Option.isSome_eq_false_iff, Option.isNone_iff_eq_none]
      at refused
    obtain ⟨entry, lookup, rfl⟩ := Option.map_eq_some_iff.mp found
    exact ⟨entry, ⟨refused.1, ascii, known, refused.2.1, refused.2.2, lookup⟩, rfl⟩
  · rintro ⟨entry, candidate, rfl⟩
    have allowed : ¬ (word = [] ∨ (classifyNeverTransform word).isSome = true ∨
        word = composed word) := by
      rw [not_or, not_or, Bool.not_eq_true, Option.isSome_eq_false_iff, Option.isNone_iff_eq_none]
      exact ⟨candidate.typed, candidate.plain, candidate.changed⟩
    rw [if_neg allowed, candidate.lookup, Option.map_some]

theorem Tracks.ascii (h : processor.Tracks buffer) : ∀ c ∈ buffer.word, isAscii c := by
  intro c mem
  rw [← h.word] at mem
  exact isAscii_of_alphanumeric (h.token.typed c mem)

theorem Tracks.evidence (h : processor.Tracks buffer) (boundary : TokenBoundary) :
    processor.decideToken unicode boundary =
      (classify builtInDictionaries ⟨buffer.word, composed buffer.word, boundary⟩,
        (SafePolicy.decide unicode
          (classify builtInDictionaries ⟨buffer.word, composed buffer.word, boundary⟩) .writing
          (composed buffer.word)).decision) := by
  rw [decideToken, h.word, h.rendered, h.context]

theorem Tracks.restores (h : processor.Tracks buffer) (known : boundary ≠ .unknown)
    {reason : DecisionReason} (found : restoration buffer.word = some reason) : ∃ confidence,
      (processor.decideToken unicode boundary).2 =
        .restoreEnglish buffer.word confidence reason := by
  obtain ⟨entry, candidate, rfl⟩ := (restoration_iff h.ascii known).mp found
  refine ⟨exactConfidence entry, ?_⟩
  rw [h.evidence boundary]
  dsimp only
  rw [classify_of_candidate candidate, decide_of_permitted (.inl rfl)]

theorem Tracks.restored (h : processor.Tracks buffer) (known : boundary ≠ .unknown)
    {text : List Char} {confidence : Confidence} {reason : DecisionReason}
    (restores : (processor.decideToken unicode boundary).2 =
      .restoreEnglish text confidence reason) : restoration buffer.word = some reason := by
  rw [h.evidence boundary] at restores
  obtain ⟨entry, candidate, _, _, cause⟩ := candidate_of_classify (decide_restoreEnglish restores)
  exact (restoration_iff h.ascii known).mpr ⟨entry, candidate, cause.symm⟩

theorem generationAfter_succ {restored : Nat} {generation : UInt64}
    (available : generationAfter restored = some generation) :
    generation = UInt64.ofNat (restored + 1) ∧ restored + 1 ≤ u64Max ∧
      checkedAddOne generation = generationAfter (restored + 1) := by
  unfold generationAfter at available
  split_ifs at available with below
  cases available
  have limit : u64Max + 1 = 2 ^ 64 := by decide
  have value : (UInt64.ofNat (restored + 1)).toNat = restored + 1 := by
    rw [UInt64.toNat_ofNat']
    exact Nat.mod_eq_of_lt (by omega)
  refine ⟨rfl, below, ?_⟩
  unfold checkedAddOne generationAfter
  rw [value]
  by_cases more : restored + 1 < u64Max
  · rw [if_pos more, if_pos more, UInt64.ofNat_add (restored + 1) 1]
    rfl
  · rw [if_neg more, if_neg more]

theorem Tracks.evaluateBoundary (h : processor.Tracks buffer) (known : boundary ≠ .unknown) :
    (processor.evaluateBoundary unicode boundary).1.Tracks buffer.finish := by
  have ended (other : DiagnosticDecisionProcessor) :
      (other.feed unicode (.boundary boundary)).telex = .new :=
    process_boundary_telex unicode other.telex boundary
  have fresh {telex : TelexEngine} (eq : telex = .new) :
      TokenHolds telex ∧ telex.token.rawAscii = [] := by
    rw [eq]
    exact ⟨tokenHolds_new, rfl⟩
  have kept {after : DiagnosticDecisionProcessor} (telex : after.telex = .new)
      (control : after.controlDown = processor.controlDown)
      (alt : after.altDown = processor.altDown) (metaKey : after.metaDown = processor.metaDown)
      (context : after.context = processor.context) (plan : after.lastRestorePlan = none)
      (generation : after.nextPlanGeneration = processor.nextPlanGeneration)
      (unrestored : restoration buffer.word = none) : after.Tracks buffer.finish := by
    rw [WordBuffer.finish, unrestored]
    exact h.dropped control alt metaKey context plan generation (fresh telex).2 (fresh telex).1 rfl
  simp only [DiagnosticDecisionProcessor.evaluateBoundary]
  split
  · rename_i empty
    rw [Bool.and_eq_true, List.isEmpty_iff, h.word] at empty
    exact kept (ended _) rfl rfl rfl rfl rfl rfl (if_pos (.inl empty.1))
  · generalize verdict : decideToken unicode _ boundary = result
    have decided : processor.decideToken unicode boundary = result := verdict
    cases found : restoration buffer.word with
    | none =>
      have refused {text : List Char} {confidence : Confidence} {reason : DecisionReason} :
          result.2 ≠ .restoreEnglish text confidence reason := by
        intro restores
        rw [← decided] at restores
        rw [h.restored known restores] at found
        cases found
      obtain ⟨evidence, decision⟩ := result
      cases decision with
      | restoreEnglish => exact absurd rfl refused
      | ambiguous => exact kept (ended _) rfl rfl rfl rfl rfl rfl found
      | keepVietnamese reason =>
        cases evidence <;> exact kept (ended _) rfl rfl rfl rfl rfl rfl found
    | some reason =>
      obtain ⟨confidence, restores⟩ := h.restores known found
      rw [decided] at restores
      obtain ⟨evidence, decision⟩ := result
      cases restores
      simp only [allocatePlanGeneration, invalidateRestorePlan]
      have finished : buffer.finish = { buffer with
          word := []
          offer := some ⟨buffer.word, reason, buffer.restored + 1⟩
          restored := buffer.restored + 1 } := by
        rw [WordBuffer.finish, found]
      rw [finished]
      cases available : processor.nextPlanGeneration with
      | none =>
        have spent : ¬ buffer.restored < u64Max := by
          intro below
          rw [h.next, generationAfter, if_pos below] at available
          cases available
        have still : none = generationAfter (buffer.restored + 1) :=
          (if_neg fun more => spent (Nat.lt_of_succ_lt more)).symm
        exact {
          control := h.control
          alt := h.alt
          metaKey := h.metaKey
          context := h.context
          word := (fresh (ended _)).2
          token := (fresh (ended _)).1
          plan := (if_neg spent).symm
          next := still }
      | some generation =>
        obtain ⟨rfl, below, next⟩ := generationAfter_succ (h.next.symm.trans available)
        have rendered := h.rendered
        have word := h.word
        exact {
          control := h.control
          alt := h.alt
          metaKey := h.metaKey
          context := h.context
          word := (fresh (ended _)).2
          token := (fresh (ended _)).1
          plan := by
            change some (planFor processor.token buffer.word reason _) = _
            rw [Option.bind_some, OfferedWord.plan, if_pos below, planFor, rendered, word]
          next := next }

end Boundary

section Steps

theorem boundaryFor_known {event : ObservedInputEvent} {boundary : TokenBoundary}
    (ends : boundaryFor event = some boundary) : boundary ≠ .unknown := by
  rintro rfl
  unfold boundaryFor at ends
  split_ifs at ends
  all_goals simp at ends

theorem Tracks.chorded (h : processor.Tracks buffer) (event : ObservedInputEvent) :
    processor.isChorded event = buffer.chorded event.modifiers := by
  rw [isChorded, WordBuffer.chorded, h.control, h.alt, h.metaKey]

theorem Tracks.hold (h : processor.Tracks buffer) {event : ObservedInputEvent} {key : ModifierKey}
    (modifier : event.key.modifierValue = some key) :
    ∃ after, processor.updateShortcutState event = some after ∧
      after.Tracks (buffer.hold (!event.kind.isUp) key) := by
  unfold updateShortcutState
  rw [modifier]
  cases key with
  | control => exact ⟨_, rfl, { h with control := rfl }⟩
  | alt => exact ⟨_, rfl, { h with alt := rfl }⟩
  | metaKey => exact ⟨_, rfl, { h with metaKey := rfl }⟩
  | shift => exact ⟨_, rfl, h⟩

theorem Tracks.abandon (h : processor.Tracks buffer) :
    (processor.resetToken.invalidateRestorePlan).Tracks buffer.abandon :=
  h.dropped rfl rfl rfl rfl rfl rfl rfl tokenHolds_new rfl

theorem Tracks.erase (h : processor.Tracks buffer) :
    (processor.invalidateRestorePlan.feed unicode .backspace).Tracks buffer.erase := by
  refine h.dropped rfl rfl rfl rfl rfl rfl ?_ (process_tokenHolds unicode (.inl rfl) h.token) rfl
  have processed := TelexEngine.process_processed unicode processor.telex .backspace
  have word : processor.telex.token.rawAscii = buffer.word := h.word
  change (processor.telex.process unicode .backspace).2.token.rawAscii = buffer.word.dropLast
  generalize processor.telex.process unicode .backspace = result at processed ⊢
  obtain ⟨answer, after⟩ := result
  cases processed with
  | empty raw =>
    rw [raw] at word
    rw [← word, raw]
    rfl
  | ended _ _ ends =>
    rcases ends with is | ⟨_, is, _⟩
    · cases is
    · cases is
  | recomposed _ token raw =>
    rcases raw with ⟨_, shorter⟩ | ⟨_, is, _⟩
    · rw [shorter, word]
    · cases is

theorem Tracks.write (h : processor.Tracks buffer) {character : Char}
    (alphanumeric : isAsciiAlphanumeric character) :
    ∃ action telex, processor.telex.process unicode (.character character) = (.ok action, telex) ∧
      { processor.invalidateRestorePlan with telex := telex }.Tracks (buffer.write character) := by
  obtain ⟨plan, token, fed, raw⟩ := @process_alphanumeric unicode processor.telex _ alphanumeric
  have holds := process_tokenHolds unicode (.inr ⟨character, rfl, alphanumeric⟩) h.token
  rw [fed] at holds
  refine ⟨_, _, fed, h.dropped rfl rfl rfl rfl rfl rfl ?_ holds rfl⟩
  have word : processor.telex.token.rawAscii = buffer.word := h.word
  change token.rawAscii = buffer.word ++ [character]
  rw [raw, word]

theorem press_cases (buffer : WordBuffer) (event : ObservedInputEvent)
    (plain : event.key.modifierValue = none) (escape : event.key.isEscape = false)
    (backspace : event.key.isBackspace = false) :
    ((boundaryFor event).isSome ∧
      buffer.press event.modifiers.shift event.key.kind = buffer.finish) ∨
    boundaryFor event = none ∧
      ((∃ character, characterFor event = some character ∧
        buffer.press event.modifiers.shift event.key.kind = buffer.write character) ∨
      characterFor event = none ∧
        buffer.press event.modifiers.shift event.key.kind = buffer.abandon) := by
  unfold boundaryFor characterFor ObservedKey.isSpace ObservedKey.isEnter ObservedKey.isTab
    ObservedKey.punctuationValue ObservedKey.letterValue ObservedKey.digitValue
  unfold ObservedKey.isEscape at escape
  unfold ObservedKey.isBackspace at backspace
  unfold ObservedKey.modifierValue at plain
  cases kind : event.key.kind with
  | letter value => exact .inr ⟨by simp, .inl ⟨_, by simp, rfl⟩⟩
  | digit value => exact .inr ⟨by simp, .inl ⟨_, by simp, rfl⟩⟩
  | space | enter | tab | punctuation => exact .inl ⟨by simp, rfl⟩
  | backspace => simp [kind] at backspace
  | escape => simp [kind] at escape
  | modifier value => simp [kind] at plain
  | other => exact .inr ⟨by simp, .inr ⟨by simp, rfl⟩⟩

theorem Tracks.press (h : processor.Tracks buffer) {event : ObservedInputEvent}
    (physical : isInjected event = false) (plain : event.key.modifierValue = none)
    (down : event.kind.isUp = false) (single : buffer.chorded event.modifiers = false) :
    (processor.process unicode event).1.Tracks
      (buffer.press event.modifiers.shift event.key.kind) := by
  have alone : processor.isChorded event = false := (h.chorded event).trans single
  simp only [process, physical, updateShortcutState_none plain, down, alone, plain,
    Bool.false_eq_true, if_false, Option.isSome_none]
  cases escape : event.key.isEscape with
  | true =>
    have kind : event.key.kind = .escape := by simpa [ObservedKey.isEscape] using escape
    rw [if_pos rfl, kind]
    exact h.abandon
  | false =>
  rw [if_neg Bool.false_ne_true]
  cases backspace : event.key.isBackspace with
  | true =>
    have kind : event.key.kind = .backspace := by simpa [ObservedKey.isBackspace] using backspace
    rw [if_pos rfl, kind]
    exact h.erase
  | false =>
  rw [if_neg Bool.false_ne_true]
  rcases press_cases buffer event plain escape backspace with
    ⟨ends, press⟩ | ⟨inside, ⟨character, shown, press⟩ | ⟨blank, press⟩⟩
  · obtain ⟨boundary, ends⟩ := Option.isSome_iff_exists.mp ends
    rw [ends, press]
    exact h.evaluateBoundary (boundaryFor_known ends)
  · obtain ⟨action, telex, fed, tracks⟩ :=
      @Tracks.write unicode processor buffer h character (characterFor_alphanumeric shown)
    rw [inside, shown, press]
    simp only [invalidateRestorePlan] at tracks ⊢
    rw [fed]
    exact tracks
  · rw [inside, blank, press]
    exact h.abandon

theorem Tracks.step (h : processor.Tracks buffer) (input : Input) :
    (processor.step unicode input).Tracks (buffer.step input) := by
  cases input with
  | discontinuity =>
    exact {
      control := rfl
      alt := rfl
      metaKey := rfl
      context := h.context
      word := rfl
      token := tokenHolds_new
      plan := rfl
      next := h.next }
  | event event =>
    change (processor.process unicode event).1.Tracks _
    unfold WordBuffer.step
    dsimp only
    cases injected : isInjected event with
    | true =>
      rw [process, if_pos injected, if_pos rfl]
      exact { h with }
    | false =>
    rw [if_neg Bool.false_ne_true]
    cases modifier : event.key.modifierValue with
    | some key =>
      obtain ⟨after, updated, tracks⟩ := h.hold modifier
      simp only [process, injected, updated, Bool.false_eq_true, if_false]
      exact tracks
    | none =>
    dsimp only
    cases passed : event.kind.isUp || buffer.chorded event.modifiers with
    | true =>
      have plain := (@updateShortcutState_none processor event modifier)
      rw [← h.chorded event] at passed
      simp only [process, injected, plain, Bool.false_eq_true, if_false]
      cases up : event.kind.isUp with
      | true => exact h
      | false =>
        rw [up, Bool.false_or] at passed
        rw [passed]
        exact h
    | false =>
      rw [Bool.or_eq_false_iff] at passed
      rw [if_neg Bool.false_ne_true]
      exact h.press injected modifier passed.1 passed.2

theorem run_tracks (unicode : Segmentation) (inputs : List Input) :
    (run (step unicode) new inputs).Tracks (run WordBuffer.step .blank inputs) :=
  run_simulates Tracks (fun _ _ input h => h.step input) tracks_new inputs

/-- Whatever keys and losses it meets, the processor holds the word of the buffer, shows its
composition, and has a plan, and hands it off, exactly for the word that the buffer offers,
with its number as the generation. -/
theorem processor_refines_buffer (unicode : Segmentation) (inputs : List Input) :
    let processor := run (step unicode) new inputs
    let buffer := run WordBuffer.step .blank inputs
    processor.token.rawAscii = buffer.word ∧ processor.token.rendered = composed buffer.word ∧
      processor.lastRestorePlan = buffer.offer.bind OfferedWord.plan ∧
      processor.currentRestoreHandoff =
        (buffer.offer.bind OfferedWord.plan).map RestorePlan.handoff ∧
      processor.nextPlanGeneration = generationAfter buffer.restored := by
  intro processor buffer
  have tracks : processor.Tracks buffer := run_tracks unicode inputs
  refine ⟨tracks.word, tracks.rendered, tracks.plan, ?_, tracks.next⟩
  rw [currentRestoreHandoff_eq (run_planHolds inputs), tracks.plan]

end Steps
end DiagnosticDecisionProcessor
end ZonKey.Diagnostic

import ZonKey.NativeBridge
import ZonKey.TypedWords

set_option autoImplicit false

namespace ZonKey.Native
open Observe Diagnostic Runs Telex

/-- A native event on its way through the mapper, or a discontinuity of the queue. -/
inductive Delivery where
  | native (event : NativeKeyboardEvent)
  | discontinuity

structure Watch where
  tracker : ModifierTracker
  processor : DiagnosticDecisionProcessor

structure Moves (modifier : ModifierKey) (native : NativeKeyboardEvent) (kind : KeyEventKind) :
    Prop where
  message : kindOf native.message = some kind
  key : (mapKey native.virtualKey).bind ObservedKey.modifierValue = some modifier
  numbered : native.sequence ≠ 0

/-- A letter that goes down, not injected. -/
structure LetterDown (native : NativeKeyboardEvent) : Prop where
  message : native.message = 0x0100 ∨ native.message = 0x0104
  letter : 0x41 ≤ native.virtualKey ∧ native.virtualKey ≤ 0x5a
  physical : injectionOrigin native.flags = .physicalOrUnmarked
  numbered : native.sequence ≠ 0

namespace Watch

def start : Watch := ⟨{}, .new⟩

variable (unicode : Segmentation)

def step (watch : Watch) : Delivery → Watch
  | .native native =>
    match mapNativeEvent native watch.tracker with
    | none => watch
    | some (event, tracker) => ⟨tracker, (watch.processor.process unicode event).1⟩
  | .discontinuity => { watch with processor := watch.processor.resetAfterDiscontinuity }

end Watch

def held (state : ModifierState) : ModifierKey → Bool
  | .shift => state.shift
  | .control => state.control
  | .alt => state.alt
  | .metaKey => state.metaKey

/-- The processor's own flag; it keeps none for shift. -/
def shortcutFlag (processor : DiagnosticDecisionProcessor) : ModifierKey → Bool
  | .shift => false
  | .control => processor.controlDown
  | .alt => processor.altDown
  | .metaKey => processor.metaDown

def IsPhysicalMove (modifier : ModifierKey) : Delivery → Prop
  | .native native =>
    (∃ kind, Moves modifier native kind) ∧ injectionOrigin native.flags = .physicalOrUnmarked
  | .discontinuity => False

def IsInjectedRelease (modifier : ModifierKey) : Delivery → Prop
  | .native native =>
    (∃ kind, Moves modifier native kind ∧ kind.isUp = true) ∧
      injectionOrigin native.flags ≠ .physicalOrUnmarked
  | .discontinuity => False

/-- Behind `after` stands a press that is not injected. It is the last event of
this kind since the last discontinuity. -/
def LastPress (modifier : ModifierKey) (deliveries after : List Delivery) : Prop :=
  ∃ before native kind, deliveries = before ++ .native native :: after ∧
    Moves modifier native kind ∧ kind.isUp = false ∧
    injectionOrigin native.flags = .physicalOrUnmarked ∧
    ∀ delivery ∈ after, ¬ IsPhysicalMove modifier delivery ∧ delivery ≠ .discontinuity

/-- After the last press an injected event released a key of the modifier. -/
def ReleasedByInjection (modifier : ModifierKey) (deliveries : List Delivery) : Prop :=
  ∃ after, LastPress modifier deliveries after ∧
    ∃ delivery ∈ after, IsInjectedRelease modifier delivery

section Tracker
variable {virtualKey : UInt32} {modifier : ModifierKey} {kind : KeyEventKind}

theorem letter_modifierValue (value : Char) :
    (ObservedKey.letter value).toOption.bind ObservedKey.modifierValue = none := by
  unfold ObservedKey.letter
  split <;> rfl

theorem digit_modifierValue (value : Nat) :
    (ObservedKey.digit value).toOption.bind ObservedKey.modifierValue = none := by
  unfold ObservedKey.digit
  split <;> rfl

theorem punctuation_modifierValue (value : Char) :
    (ObservedKey.punctuation value).toOption.bind ObservedKey.modifierValue = none := by
  unfold ObservedKey.punctuation
  split <;> rfl

def modifierKeys : List (UInt32 × ModifierKey) :=
  [(0x10, .shift), (0xa0, .shift), (0xa1, .shift), (0x11, .control), (0xa2, .control),
    (0xa3, .control), (0x12, .alt), (0xa4, .alt), (0xa5, .alt), (0x5b, .metaKey),
    (0x5c, .metaKey)]

theorem mem_modifierKeys
    (key : (mapKey virtualKey).bind ObservedKey.modifierValue = some modifier) :
    (virtualKey, modifier) ∈ modifierKeys := by
  unfold mapKey at key
  split at key
  · rw [letter_modifierValue] at key
    cases key
  · split at key
    · rw [digit_modifierValue] at key
      cases key
    · split at key
      all_goals first
        | (rw [punctuation_modifierValue] at key; cases key)
        | (cases key; decide)
        | cases key

theorem observe_held_other (tracker : ModifierTracker) (kind : KeyEventKind)
    (other : (mapKey virtualKey).bind ObservedKey.modifierValue ≠ some modifier) :
    held (tracker.observe virtualKey kind).state modifier = held tracker.state modifier := by
  unfold ModifierTracker.observe
  split
  case h_12 => rfl
  all_goals
    cases modifier
    all_goals first
      | rfl
      | exact absurd rfl other

theorem observe_held_down (tracker : ModifierTracker)
    (key : (mapKey virtualKey).bind ObservedKey.modifierValue = some modifier)
    (down : kind.isUp = false) :
    held (tracker.observe virtualKey kind).state modifier = true := by
  have mem := mem_modifierKeys key
  simp only [modifierKeys, List.mem_cons, Prod.mk.injEq, List.not_mem_nil, or_false] at mem
  rcases mem with ⟨rfl, rfl⟩ | ⟨rfl, rfl⟩ | ⟨rfl, rfl⟩ | ⟨rfl, rfl⟩ | ⟨rfl, rfl⟩ | ⟨rfl, rfl⟩ |
    ⟨rfl, rfl⟩ | ⟨rfl, rfl⟩ | ⟨rfl, rfl⟩ | ⟨rfl, rfl⟩ | ⟨rfl, rfl⟩ <;>
    simp [ModifierTracker.observe, ModifierTracker.state, held, down]

end Tracker

section Processor
variable {unicode : Segmentation} {modifier : ModifierKey}
open DiagnosticDecisionProcessor

theorem evaluateBoundary_flag (processor : DiagnosticDecisionProcessor)
    (boundary : TokenBoundary) :
    shortcutFlag (processor.evaluateBoundary unicode boundary).1 modifier =
      shortcutFlag processor modifier := by
  obtain ⟨_, control, alt, metaKey, _⟩ := @evaluateBoundary_spec unicode processor boundary
  cases modifier
  · rfl
  · exact control
  · exact alt
  · exact metaKey

/-- Only a modifier key that is not injected changes a flag. -/
theorem process_flag_other (processor : DiagnosticDecisionProcessor) {event : ObservedInputEvent}
    (other : isInjected event = true ∨ event.key.modifierValue ≠ some modifier) :
    shortcutFlag (processor.process unicode event).1 modifier =
      shortcutFlag processor modifier := by
  have same (after : DiagnosticDecisionProcessor)
      (control : after.controlDown = processor.controlDown)
      (alt : after.altDown = processor.altDown) (metaKey : after.metaDown = processor.metaDown) :
      shortcutFlag after modifier = shortcutFlag processor modifier := by
    cases modifier
    · rfl
    · exact control
    · exact alt
    · exact metaKey
  unfold process
  cases injected : isInjected event with
  | true => exact same _ rfl rfl rfl
  | false =>
    rw [injected] at other
    replace other := other.resolve_left Bool.false_ne_true
    simp only [Bool.false_eq_true, if_false]
    unfold updateShortcutState
    cases moved : event.key.modifierValue with
    | some key =>
      rw [moved] at other
      cases key <;> cases modifier <;> first | rfl | exact absurd rfl other
    | none =>
      dsimp only
      split
      · rfl
      split
      · rfl
      split
      · rfl
      split
      · exact same _ rfl rfl rfl
      split
      · exact same _ rfl rfl rfl
      split
      · exact evaluateBoundary_flag _ _
      split
      · exact same _ rfl rfl rfl
      split
      · exact same _ rfl rfl rfl
      · exact same _ rfl rfl rfl

theorem process_flag_up (processor : DiagnosticDecisionProcessor) {event : ObservedInputEvent}
    (physical : isInjected event = false) (key : event.key.modifierValue = some modifier)
    (up : event.kind.isUp = true) :
    shortcutFlag (processor.process unicode event).1 modifier = false := by
  rw [process, physical, updateShortcutState, key, up]
  cases modifier <;> rfl

end Processor

section Deliveries
variable {unicode : Segmentation} {modifier : ModifierKey} {deliveries : List Delivery}

theorem LastPress.concat {after : List Delivery} (pressed : LastPress modifier deliveries after)
    {native : NativeKeyboardEvent} (other : ¬ IsPhysicalMove modifier (.native native)) :
    LastPress modifier (deliveries ++ [.native native]) (after ++ [.native native]) := by
  obtain ⟨before, press, kind, rfl, moves, down, physical, since⟩ := pressed
  refine ⟨before, press, kind, by simp, moves, down, physical, ?_⟩
  intro later mem
  rcases List.mem_append.mp mem with earlier | last
  · exact since later earlier
  · rw [List.mem_singleton.mp last]
    exact ⟨other, fun same => by cases same⟩

theorem mapNativeEvent_some {native : NativeKeyboardEvent} {tracker next : ModifierTracker}
    {event : ObservedInputEvent} (mapped : mapNativeEvent native tracker = some (event, next)) :
    ∃ kind, kindOf native.message = some kind ∧ native.sequence ≠ 0 ∧
      mapKey native.virtualKey = some event.key ∧ event.kind = kind ∧
      event.modifiers = next.state ∧ event.injectionOrigin = injectionOrigin native.flags ∧
      next = tracker.observe native.virtualKey kind := by
  unfold mapNativeEvent at mapped
  simp only [Option.bind_eq_bind, Option.bind_eq_some_iff] at mapped
  obtain ⟨kind, message, key, at_key, sequence, made, eq⟩ := mapped
  cases eq
  refine ⟨kind, message, ?_, at_key, rfl, rfl, rfl, rfl⟩
  intro zero
  rw [zero] at made
  cases made

theorem isInjected_iff {event : ObservedInputEvent} {flags : UInt32}
    (origin : event.injectionOrigin = injectionOrigin flags) :
    DiagnosticDecisionProcessor.isInjected event = true ↔
      injectionOrigin flags ≠ .physicalOrUnmarked := by
  rw [DiagnosticDecisionProcessor.isInjected, origin]
  unfold injectionOrigin
  split
  · decide
  · split <;> decide

theorem mapNativeEvent_isSome {native : NativeKeyboardEvent} {kind : KeyEventKind}
    {key : ObservedKey} (message : kindOf native.message = some kind)
    (at_key : mapKey native.virtualKey = some key) (numbered : native.sequence ≠ 0)
    (tracker : ModifierTracker) : (mapNativeEvent native tracker).isSome := by
  simp [mapNativeEvent, message, at_key, EventSequence.new, numbered, Except.toOption]

theorem Moves.isSome {native : NativeKeyboardEvent} {kind : KeyEventKind}
    (moves : Moves modifier native kind) (tracker : ModifierTracker) :
    (mapNativeEvent native tracker).isSome := by
  obtain ⟨key, at_key, _⟩ := Option.bind_eq_some_iff.mp moves.key
  exact mapNativeEvent_isSome moves.message at_key moves.numbered tracker

theorem Watch.step_none {watch : Watch} {native : NativeKeyboardEvent}
    (refused : mapNativeEvent native watch.tracker = none) :
    watch.step unicode (.native native) = watch := by
  simp only [Watch.step, refused]

theorem Watch.step_some {watch : Watch} {native : NativeKeyboardEvent}
    {event : ObservedInputEvent} {tracker : ModifierTracker}
    (mapped : mapNativeEvent native watch.tracker = some (event, tracker)) :
    watch.step unicode (.native native) =
      ⟨tracker, (watch.processor.process unicode event).1⟩ := by
  simp only [Watch.step, mapped]

def Explained (watch : Watch) (deliveries : List Delivery) : Prop :=
  ∀ modifier, shortcutFlag watch.processor modifier = true →
    ∃ after, LastPress modifier deliveries after ∧
      (held watch.tracker.state modifier = true ∨
        ∃ delivery ∈ after, IsInjectedRelease modifier delivery)

variable (unicode) in
theorem step_explained {watch : Watch} (h : Explained watch deliveries) (delivery : Delivery) :
    Explained (watch.step unicode delivery) (deliveries ++ [delivery]) := by
  intro modifier flag
  cases delivery with
  | discontinuity => cases modifier <;> cases flag
  | native native =>
    -- an event that leaves both the flag and the tracker's keys as they are
    have aside (same : held (watch.step unicode (.native native)).tracker.state modifier =
          held watch.tracker.state modifier)
        (was : shortcutFlag watch.processor modifier = true)
        (other : ¬ IsPhysicalMove modifier (.native native)) :
        ∃ after, LastPress modifier (deliveries ++ [.native native]) after ∧
          (held (watch.step unicode (.native native)).tracker.state modifier = true ∨
            ∃ delivery ∈ after, IsInjectedRelease modifier delivery) := by
      obtain ⟨after, pressed, why⟩ := h modifier was
      refine ⟨_, pressed.concat other, why.imp same.trans ?_⟩
      rintro ⟨release, mem, released⟩
      exact ⟨release, List.mem_append_left _ mem, released⟩
    cases mapped : mapNativeEvent native watch.tracker with
    | none =>
      rw [Watch.step_none mapped] at flag
      refine aside (by rw [Watch.step_none mapped]) flag ?_
      rintro ⟨⟨kind, moves⟩, _⟩
      have passed := moves.isSome watch.tracker
      rw [mapped] at passed
      cases passed
    | some passed =>
      obtain ⟨event, tracker⟩ := passed
      obtain ⟨kind, message, numbered, at_key, is_kind, _, origin, rfl⟩ :=
        mapNativeEvent_some mapped
      rw [Watch.step_some mapped] at flag aside ⊢
      dsimp only at flag aside ⊢
      by_cases key : (mapKey native.virtualKey).bind ObservedKey.modifierValue = some modifier
      · have moves : Moves modifier native kind := ⟨message, key, numbered⟩
        cases injected : DiagnosticDecisionProcessor.isInjected event with
        | true =>
          have marked := (isInjected_iff origin).mp injected
          rw [process_flag_other _ (.inl injected)] at flag
          obtain ⟨after, pressed, _⟩ := h modifier flag
          refine ⟨_, pressed.concat fun move => marked move.2, ?_⟩
          cases up : kind.isUp with
          | false => exact .inl (observe_held_down watch.tracker key up)
          | true =>
            exact .inr ⟨_, List.mem_append_right _ (List.mem_singleton_self _),
              ⟨kind, moves, up⟩, marked⟩
        | false =>
          have physical : injectionOrigin native.flags = .physicalOrUnmarked := by
            rw [Bool.eq_false_iff, ne_eq, isInjected_iff origin, not_not] at injected
            exact injected
          cases up : kind.isUp with
          | false =>
            exact ⟨[], ⟨deliveries, native, kind, rfl, moves, up, physical, by simp⟩,
              .inl (observe_held_down watch.tracker key up)⟩
          | true =>
            -- a release that is not injected clears the flag
            rw [at_key, Option.bind_some] at key
            rw [process_flag_up _ injected key (is_kind ▸ up)] at flag
            cases flag
      · have other : event.key.modifierValue ≠ some modifier := by
          rwa [at_key, Option.bind_some] at key
        rw [process_flag_other _ (.inr other)] at flag
        refine aside (observe_held_other watch.tracker kind key) flag ?_
        rintro ⟨⟨_, moves⟩, _⟩
        exact key moves.key

variable (unicode) in
theorem run_explained (deliveries : List Delivery) :
    Explained (run (Watch.step unicode) .start deliveries) deliveries := by
  induction deliveries using List.reverseRecOn with
  | nil =>
    intro modifier flag
    cases modifier <;> cases flag
  | append_singleton deliveries delivery ih =>
    rw [run_append]
    exact step_explained unicode ih delivery

theorem process_letter {processor : DiagnosticDecisionProcessor} {event : ObservedInputEvent}
    {value : Char} (letter : event.key.kind = .letter value) (down : event.kind.isUp = false)
    (physical : DiagnosticDecisionProcessor.isInjected event = false)
    (alone : processor.isChorded event = false) :
    (processor.process unicode event).1.token.rawAscii =
      processor.token.rawAscii ++
        [if event.modifiers.shift then value else toAsciiLowercase value] := by
  have plain : event.key.modifierValue = none ∧ event.key.isEscape = false ∧
      event.key.isBackspace = false ∧ DiagnosticDecisionProcessor.boundaryFor event = none := by
    simp [ObservedKey.modifierValue, ObservedKey.isEscape, ObservedKey.isBackspace,
      DiagnosticDecisionProcessor.boundaryFor, ObservedKey.isSpace, ObservedKey.isEnter,
      ObservedKey.isTab, ObservedKey.punctuationValue, letter]
  obtain ⟨no_modifier, no_escape, no_backspace, no_boundary⟩ := plain
  have character : DiagnosticDecisionProcessor.characterFor event =
      some (if event.modifiers.shift then value else toAsciiLowercase value) := by
    simp [DiagnosticDecisionProcessor.characterFor, ObservedKey.letterValue, letter]
  obtain ⟨plan, token, fed, raw⟩ := @DiagnosticDecisionProcessor.process_alphanumeric unicode
    processor.telex _ (DiagnosticDecisionProcessor.characterFor_alphanumeric character)
  unfold DiagnosticDecisionProcessor.process
  simp only [physical, DiagnosticDecisionProcessor.updateShortcutState_none no_modifier, down,
    alone, no_modifier, no_escape, no_backspace, no_boundary, character, Bool.false_eq_true,
    if_false, Option.isSome_none, DiagnosticDecisionProcessor.invalidateRestorePlan, fed]
  exact raw

theorem observe_letter (tracker : ModifierTracker) {virtualKey : UInt32}
    (letter : 0x41 ≤ virtualKey ∧ virtualKey ≤ 0x5a) (kind : KeyEventKind) :
    tracker.observe virtualKey kind = tracker := by
  unfold ModifierTracker.observe
  split
  case h_12 => rfl
  all_goals exact absurd letter (by decide)

theorem mapKey_letter {virtualKey : UInt32} (letter : 0x41 ≤ virtualKey ∧ virtualKey ≤ 0x5a) :
    ∃ key, mapKey virtualKey = some key ∧
      key.kind = .letter (Char.ofNat virtualKey.toNat) := by
  have all : ∀ n < 128, 0x41 ≤ n ∧ n ≤ 0x5a → isAsciiAlphabetic (Char.ofNat n) := by decide
  have low : 0x41 ≤ virtualKey.toNat := UInt32.le_iff_toNat_le.mp letter.1
  have high : virtualKey.toNat ≤ 0x5a := UInt32.le_iff_toNat_le.mp letter.2
  have alphabetic := all virtualKey.toNat (by omega) ⟨low, high⟩
  unfold mapKey ObservedKey.letter
  rw [if_pos letter, dif_pos alphabetic]
  exact ⟨_, rfl, rfl⟩

theorem LetterDown.mapped {native : NativeKeyboardEvent} (letter : LetterDown native)
    (tracker : ModifierTracker) :
    ∃ event, mapNativeEvent native tracker = some (event, tracker) ∧
      event.key.kind = .letter (Char.ofNat native.virtualKey.toNat) ∧
      event.kind.isUp = false ∧ event.modifiers = tracker.state ∧
      DiagnosticDecisionProcessor.isInjected event = false := by
  obtain ⟨kind, message, down⟩ : ∃ kind, kindOf native.message = some kind ∧
      kind.isUp = false := by
    rcases letter.message with is | is
    · exact ⟨.keyDown, by rw [is]; rfl, rfl⟩
    · exact ⟨.systemKeyDown, by rw [is]; rfl, rfl⟩
  obtain ⟨key, at_key, is_letter⟩ := mapKey_letter letter.letter
  have passed := mapNativeEvent_isSome message at_key letter.numbered tracker
  obtain ⟨⟨event, next⟩, mapped⟩ := Option.isSome_iff_exists.mp passed
  obtain ⟨same_kind, same_message, _, same_key, is_kind, modifiers, origin, rfl⟩ :=
    mapNativeEvent_some mapped
  rw [message] at same_message
  cases same_message
  rw [at_key] at same_key
  cases same_key
  rw [observe_letter tracker letter.letter] at mapped modifiers
  refine ⟨event, mapped, is_letter, by rw [is_kind, down], modifiers, ?_⟩
  rw [Bool.eq_false_iff, ne_eq, isInjected_iff origin, not_not]
  exact letter.physical

/-- A modifier flag outlives the tracker's keys only if an injected release followed the last
press; without one, and with every modifier released, letters are typed again. -/
theorem run_shortcut_flags (unicode : Segmentation) (deliveries : List Delivery) :
    let watch := run (Watch.step unicode) .start deliveries
    (∀ modifier, shortcutFlag watch.processor modifier = true →
      held watch.tracker.state modifier = true ∨ ReleasedByInjection modifier deliveries) ∧
    ((∀ modifier, modifier ≠ .shift → held watch.tracker.state modifier = false ∧
        ¬ ReleasedByInjection modifier deliveries) →
      ∀ native, LetterDown native →
        let letter := Char.ofNat native.virtualKey.toNat
        (watch.step unicode (.native native)).processor.token.rawAscii =
          watch.processor.token.rawAscii ++
            [if watch.tracker.state.shift then letter else toAsciiLowercase letter]) := by
  intro watch
  have explained (modifier : ModifierKey) (flag : shortcutFlag watch.processor modifier = true) :
      held watch.tracker.state modifier = true ∨ ReleasedByInjection modifier deliveries := by
    obtain ⟨after, pressed, why⟩ := run_explained unicode deliveries modifier flag
    exact why.imp_right fun released => ⟨after, pressed, released⟩
  refine ⟨explained, fun released native letter => ?_⟩
  obtain ⟨event, mapped, key, down, modifiers, physical⟩ := letter.mapped watch.tracker
  have no_flag (modifier : ModifierKey) (other : modifier ≠ .shift) :
      shortcutFlag watch.processor modifier = false := by
    obtain ⟨up, no_injection⟩ := released modifier other
    by_contra flag
    rcases explained modifier (by simpa using flag) with down | injected
    · rw [up] at down
      cases down
    · exact no_injection injected
  have alone : watch.processor.isChorded event = false := by
    have control := (released .control nofun).1
    have alt := (released .alt nofun).1
    have metaKey := (released .metaKey nofun).1
    have control_flag := no_flag .control nofun
    have alt_flag := no_flag .alt nofun
    have meta_flag := no_flag .metaKey nofun
    simp only [held, shortcutFlag] at control alt metaKey control_flag alt_flag meta_flag
    simp [DiagnosticDecisionProcessor.isChorded, modifiers, control, alt, metaKey, control_flag,
      alt_flag, meta_flag]
  rw [Watch.step_some mapped, ← modifiers]
  exact process_letter key down physical alone

def controlTakenUp : List Delivery :=
  [.native ⟨0x0100, 0xa2, 0, 1⟩, .native ⟨0x0101, 0xa2, 0x10, 2⟩]

theorem controlTakenUp_flagged :
    ¬ ∀ (deliveries : List Delivery) (modifier : ModifierKey),
      let watch := run (Watch.step scalarSegmentation) .start deliveries
      shortcutFlag watch.processor modifier = true →
        held watch.tracker.state modifier = true := by
  intro claim
  have flagged := claim controlTakenUp .control rfl
  exact absurd flagged (by decide)

end Deliveries

end ZonKey.Native

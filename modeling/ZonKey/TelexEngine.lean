import ZonKey.Runs
import ZonKey.TelexCompose

set_option autoImplicit false

namespace ZonKey.Telex
open ZonKey.Observe ZonKey.Runs

/-- What `compose` makes of a raw token, which the source expects to succeed. -/
def TokenState.recompose (token : TokenState) : List Char :=
  (compose token.rawAscii).toOption.get (by rw [compose_ascii token.ascii]; rfl)

theorem TokenState.recompose_eq (token : TokenState) :
    token.recompose = composed token.rawAscii := by
  simp only [recompose, compose_ascii token.ascii]
  rfl

structure TelexEngine where
  token : TokenState
  deriving DecidableEq

namespace TelexEngine

def new : TelexEngine := ⟨.new⟩

def processBoundary (engine : TelexEngine) (boundary : TokenBoundary) :
    EngineAction × TelexEngine :=
  match boundary with
  | .space | .enter | .tab | .punctuation _ => (.commit boundary, ⟨engine.token.clear⟩)
  | .cursorMove | .focusLoss | .unknown => (.reset, ⟨engine.token.clear⟩)

section Process
variable (unicode : Segmentation)

def processCharacter (engine : TelexEngine) (character : Char) :
    Except UnsupportedBehavior EngineAction × TelexEngine :=
  match TokenBoundary.fromChar character with
  | some boundary =>
    let (action, engine) := engine.processBoundary boundary
    (.ok action, engine)
  | none =>
    if !isAscii character then (.error (.nonAsciiInput character), engine)
    else
      match engine.token.pushRaw character with
      | .error character => (.error (.nonAsciiInput character), engine)
      | .ok token =>
        match compose token.rawAscii with
        | .error behavior => (.error behavior, ⟨token⟩)
        | .ok rendered =>
          let (plan, token) := token.replaceRendered unicode rendered
          (.ok (.apply plan), ⟨token⟩)

def processBackspace (engine : TelexEngine) : EngineAction × TelexEngine :=
  match engine.token.popRaw with
  | none => (.noop, engine)
  | some (_, token) =>
    let (plan, token) := token.replaceRendered unicode token.recompose
    (.apply plan, ⟨token⟩)

def process (engine : TelexEngine) (event : EngineEvent) :
    Except UnsupportedBehavior EngineAction × TelexEngine :=
  match event with
  | .character character => engine.processCharacter unicode character
  | .backspace =>
    let (action, engine) := engine.processBackspace unicode
    (.ok action, engine)
  | .boundary boundary =>
    let (action, engine) := engine.processBoundary boundary
    (.ok action, engine)

end Process

def Composed (engine : TelexEngine) : Prop :=
  compose engine.token.rawAscii = .ok engine.token.rendered

theorem composed_iff {engine : TelexEngine} :
    engine.Composed ↔ engine.token.rendered = composed engine.token.rawAscii := by
  rw [Composed, compose_ascii engine.token.ascii, Except.ok.injEq, eq_comm]

theorem composed_new : new.Composed := rfl

/-- What one event can do: let go of the token, or recompose a changed raw token. -/
inductive Processed (unicode : Segmentation) (engine : TelexEngine) :
    EngineEvent → Except UnsupportedBehavior EngineAction → TelexEngine → Prop
  | refused (character : Char) (ascii : isAscii character = false) :
    Processed unicode engine (.character character) (.error (.nonAsciiInput character)) engine
  | empty (raw : engine.token.rawAscii = []) :
    Processed unicode engine .backspace (.ok .noop) engine
  | ended (event : EngineEvent) (boundary : TokenBoundary)
    (ends : event = .boundary boundary ∨
      ∃ character, event = .character character ∧ TokenBoundary.fromChar character = some boundary)
    (commits : boundary ≠ .cursorMove ∧ boundary ≠ .focusLoss ∧ boundary ≠ .unknown) :
    Processed unicode engine event (.ok (.commit boundary)) new
  | abandoned (boundary : TokenBoundary)
    (resets : boundary = .cursorMove ∨ boundary = .focusLoss ∨ boundary = .unknown) :
    Processed unicode engine (.boundary boundary) (.ok .reset) new
  | recomposed (event : EngineEvent) (token : TokenState)
    (raw : (event = .backspace ∧ token.rawAscii = engine.token.rawAscii.dropLast) ∨
      ∃ character, event = .character character ∧ TokenBoundary.fromChar character = none ∧
        token.rawAscii = engine.token.rawAscii ++ [character])
    (rendered : token.rendered = composed token.rawAscii) :
    Processed unicode engine event
      (.ok (.apply (editPlanBetween unicode engine.token.rendered token.rendered))) ⟨token⟩

variable {unicode : Segmentation}

theorem fromChar_commits {character : Char} {boundary : TokenBoundary}
    (from_ : TokenBoundary.fromChar character = some boundary) :
    boundary ≠ .cursorMove ∧ boundary ≠ .focusLoss ∧ boundary ≠ .unknown := by
  unfold TokenBoundary.fromChar at from_
  split_ifs at from_ <;> cases from_ <;> simp

theorem processBoundary_commits (engine : TelexEngine) {boundary : TokenBoundary}
    (commits : boundary ≠ .cursorMove ∧ boundary ≠ .focusLoss ∧ boundary ≠ .unknown) :
    engine.processBoundary boundary = (.commit boundary, new) := by
  cases boundary with
  | space | enter | tab | punctuation value => rfl
  | cursorMove => exact absurd rfl commits.1
  | focusLoss => exact absurd rfl commits.2.1
  | unknown => exact absurd rfl commits.2.2

theorem processBoundary_resets (engine : TelexEngine) {boundary : TokenBoundary}
    (resets : boundary = .cursorMove ∨ boundary = .focusLoss ∨ boundary = .unknown) :
    engine.processBoundary boundary = (.reset, new) := by
  rcases resets with rfl | rfl | rfl <;> rfl

variable (unicode) in
theorem process_processed (engine : TelexEngine) (event : EngineEvent) :
    Processed unicode engine event (engine.process unicode event).1
      (engine.process unicode event).2 := by
  cases event with
  | boundary boundary =>
    by_cases resets : boundary = .cursorMove ∨ boundary = .focusLoss ∨ boundary = .unknown
    · simp only [process, processBoundary_resets engine resets]
      exact .abandoned boundary resets
    · have commits : boundary ≠ .cursorMove ∧ boundary ≠ .focusLoss ∧ boundary ≠ .unknown := by
        simpa only [not_or] using resets
      simp only [process, processBoundary_commits engine commits]
      exact .ended _ boundary (.inl rfl) commits
  | backspace =>
    simp only [process, processBackspace]
    cases pops : engine.token.popRaw with
    | none => exact .empty (TokenState.popRaw_none pops)
    | some popped =>
      obtain ⟨character, token⟩ := popped
      obtain ⟨raw, rendered⟩ := TokenState.popRaw_some pops
      simp only [TokenState.replaceRendered, rendered]
      exact .recomposed _ { token with rendered := token.recompose } (.inl ⟨rfl, raw⟩)
        token.recompose_eq
  | character character =>
    simp only [process, processCharacter]
    cases ends : TokenBoundary.fromChar character with
    | some boundary =>
      have commits := fromChar_commits ends
      simp only [processBoundary_commits engine commits]
      exact .ended _ boundary (.inr ⟨character, rfl, ends⟩) commits
    | none =>
      cases ascii : isAscii character with
      | false => exact .refused character ascii
      | true =>
        obtain ⟨token, pushed, raw, rendered⟩ := engine.token.pushRaw_ok ascii
        simp only [Bool.not_true, Bool.false_eq_true, if_false, pushed,
          compose_ascii token.ascii, TokenState.replaceRendered, rendered]
        exact .recomposed _ { token with rendered := composed token.rawAscii }
          (.inr ⟨character, rfl, ends, raw⟩) rfl

variable (unicode) in
theorem process_composed {engine : TelexEngine} (event : EngineEvent) (holds : engine.Composed) :
    (engine.process unicode event).2.Composed := by
  have processed := process_processed unicode engine event
  generalize engine.process unicode event = result at processed ⊢
  obtain ⟨answer, after⟩ := result
  cases processed with
  | refused | empty => exact holds
  | ended | abandoned => exact composed_new
  | recomposed _ token _ rendered => exact composed_iff.mpr rendered

end TelexEngine

/-- Every scalar value on its own, except that CR LF stays together. -/
def singletons : List Char → List (List Char)
  | [] => []
  | '\r' :: '\n' :: rest => ['\r', '\n'] :: singletons rest
  | character :: rest => [character] :: singletons rest

/-- ASCII characters and the composer's letters are clusters of their own, CR LF excepted. -/
def Segmentation.SplitsLetters (unicode : Segmentation) : Prop :=
  ∀ text, (∀ character ∈ text, Composable character) →
    unicode.graphemes text = singletons text

section Singletons

theorem singletons_flatten (text : List Char) : (singletons text).flatten = text := by
  induction text using singletons.induct with
  | case1 => rfl
  | case2 rest ih => simp [singletons, ih]
  | case3 character rest apart ih => simp [singletons, ih]

theorem singletons_nonempty (text : List Char) : ∀ piece ∈ singletons text, piece ≠ [] := by
  induction text using singletons.induct with
  | case1 => simp [singletons]
  | case2 rest ih => simpa [singletons] using ih
  | case3 character rest apart ih => simpa [singletons] using ih

/-- The segmentation that splits nothing but CR LF off. -/
def scalarSegmentation : Segmentation := ⟨singletons, singletons_flatten, singletons_nonempty⟩

theorem singletons_append (front : List Char) {rest : List Char} (apart : '\n' ∉ rest) :
    singletons (front ++ rest) = singletons front ++ singletons rest := by
  induction front using singletons.induct with
  | case1 => rfl
  | case2 front ih => simp [singletons, ih]
  | case3 character front single ih =>
    cases front with
    | nil =>
      cases rest with
      | nil => simp [singletons]
      | cons first rest =>
        have other : first ≠ '\n' := fun same => apart (same ▸ List.mem_cons_self)
        simp [singletons, other]
    | cons next front =>
      have keeps : singletons (character :: next :: (front ++ rest)) =
          [character] :: singletons (next :: (front ++ rest)) := by
        rw [singletons]
        intro tail cr lf
        exact single front cr (by rw [(List.cons.inj lf).1])
      have alone : singletons (character :: next :: front) =
          [character] :: singletons (next :: front) := by
        rw [singletons]
        exact fun tail cr lf => single tail cr lf
      rw [List.cons_append, List.cons_append, keeps, alone, List.cons_append]
      congr 1

theorem Segmentation.SplitsLetters.apart {unicode : Segmentation}
    (splits : unicode.SplitsLetters) {front rest : List Char}
    (letters : ∀ character ∈ front ++ rest, Composable character) (apart : '\n' ∉ rest) :
    unicode.graphemes (front ++ rest) = unicode.graphemes front ++ unicode.graphemes rest := by
  rw [splits _ letters, splits _ fun character mem => letters character (List.mem_append_left _ mem),
    splits _ fun character mem => letters character (List.mem_append_right _ mem),
    singletons_append front apart]

end Singletons

def EngineEvent.IsAscii : EngineEvent → Prop
  | .character value => isAscii value
  | .boundary (.punctuation value) => isAscii value
  | .backspace | .boundary _ => True

/-- The character that a committing event puts on the screen. -/
def EngineEvent.typed : EngineEvent → List Char
  | .character value => [value]
  | .boundary .space => [' ']
  | .boundary .enter => ['\n']
  | .boundary .tab => ['\t']
  | .boundary (.punctuation value) => [value]
  | .backspace | .boundary _ => []

/-- A host that carries out the engine's actions. `committed` is the text that the engine has
let go of: with its boundary character at a commit, as it stands at a reset. -/
structure HostText where
  engine : TelexEngine
  text : List Char
  committed : List Char

namespace HostText

def new : HostText := ⟨.new, [], []⟩

def step (unicode : Segmentation) (host : HostText) (event : EngineEvent) : HostText :=
  let (answer, engine) := host.engine.process unicode event
  match answer with
  | .error _ | .ok .noop => { host with engine := engine }
  | .ok (.apply plan) => { host with engine := engine, text := applyEditPlan unicode host.text plan }
  | .ok (.commit _) =>
    { engine := engine
      text := host.text ++ event.typed
      committed := host.committed ++ host.engine.token.rendered ++ event.typed }
  | .ok .reset =>
    { host with
      engine := engine
      committed := host.committed ++ host.engine.token.rendered }

structure InStep (host : HostText) : Prop where
  text : host.text = host.committed ++ host.engine.token.rendered
  composes : host.engine.Composed
  letters : ∀ character ∈ host.committed, Composable character
  unbroken : '\n' ∉ host.engine.token.rawAscii

variable {unicode : Segmentation}

theorem new_inStep : InStep new :=
  ⟨rfl, TelexEngine.composed_new, by simp [new], by simp [new, TelexEngine.new]⟩

theorem composed_unbroken {raw : List Char} (unbroken : '\n' ∉ raw) : '\n' ∉ composed raw := by
  refine not_mem_composed ⟨fun shape tone => ?_, by decide, by decide⟩ unbroken
  cases shape <;> cases tone <;> decide

theorem InStep.rendered {host : HostText} (h : host.InStep) :
    host.engine.token.rendered = composed host.engine.token.rawAscii :=
  TelexEngine.composed_iff.mp h.composes

theorem InStep.apart {host : HostText} (h : host.InStep) (splits : unicode.SplitsLetters) :
    unicode.graphemes (host.committed ++ host.engine.token.rendered) =
      unicode.graphemes host.committed ++ unicode.graphemes host.engine.token.rendered := by
  refine splits.apart ?_ ?_
  · rw [h.rendered]
    simp only [List.mem_append]
    rintro character (old | new)
    · exact h.letters character old
    · exact composed_composable host.engine.token.ascii character new
  · rw [h.rendered]
    exact composed_unbroken h.unbroken

theorem typed_composable {event : EngineEvent} (ascii : event.IsAscii) :
    ∀ character ∈ event.typed, Composable character := by
  have plain (value : Char) (ok : isAscii value) : ∀ character ∈ [value], Composable character := by
    intro character mem
    rw [List.mem_singleton.mp mem]
    exact .inl ok
  cases event with
  | character value => exact plain value ascii
  | backspace => simp [EngineEvent.typed]
  | boundary boundary =>
    cases boundary with
    | space => exact plain ' ' rfl
    | enter => exact plain '\n' rfl
    | tab => exact plain '\t' rfl
    | punctuation value => exact plain value ascii
    | cursorMove | focusLoss | unknown => simp [EngineEvent.typed]

theorem committed_composable {host : HostText} (h : host.InStep) {more : List Char}
    (letters : ∀ character ∈ more, Composable character) :
    ∀ character ∈ host.committed ++ host.engine.token.rendered ++ more, Composable character := by
  intro character mem
  rw [h.rendered] at mem
  simp only [List.mem_append] at mem
  rcases mem with (old | shown) | new
  · exact h.letters character old
  · exact composed_composable host.engine.token.ascii character shown
  · exact letters character new

theorem step_inStep {host : HostText} (splits : unicode.SplitsLetters) {event : EngineEvent}
    (ascii : event.IsAscii) (h : host.InStep) : (step unicode host event).InStep := by
  have processed := TelexEngine.process_processed unicode host.engine event
  have keeps := TelexEngine.process_composed unicode event h.composes
  simp only [step]
  generalize host.engine.process unicode event = result at processed keeps ⊢
  obtain ⟨answer, engine⟩ := result
  cases processed with
  | refused | empty => exact ⟨h.text, h.composes, h.letters, h.unbroken⟩
  | ended boundary =>
    refine ⟨?_, keeps, committed_composable h (typed_composable ascii), by simp⟩
    simp [h.text]
  | abandoned boundary =>
    refine ⟨?_, keeps, ?_, by simp⟩
    · simp [h.text]
    · have none : ∀ character ∈ ([] : List Char), Composable character := by simp
      simpa using committed_composable h none
  | recomposed _ token raw rendered =>
    refine ⟨?_, keeps, h.letters, ?_⟩
    · simp only [h.text]
      exact applyEditPlan_front token.rendered (h.apart splits)
    · rcases raw with ⟨_, shorter⟩ | ⟨character, _, inside, longer⟩
      · rw [shorter]
        exact fun mem => h.unbroken (List.dropLast_subset _ mem)
      · rw [longer, List.mem_append, List.mem_singleton]
        rintro (old | rfl)
        · exact h.unbroken old
        · simp [TokenBoundary.fromChar] at inside

theorem run_inStep (splits : unicode.SplitsLetters) {events : List EngineEvent}
    (ascii : ∀ event ∈ events, event.IsAscii) : (run (step unicode) new events).InStep := by
  induction events using List.reverseRecOn with
  | nil => exact new_inStep
  | append_singleton events event ih =>
    rw [run_append]
    exact step_inStep splits (ascii event (List.mem_append_right _ (List.mem_singleton_self _)))
      (ih fun other mem => ascii other (List.mem_append_left _ mem))

/-- A plan deletes at most the rendered token. -/
theorem InStep.spares_committed {host : HostText} (h : host.InStep)
    (splits : unicode.SplitsLetters) {event : EngineEvent} {plan : EditPlan}
    (applied : (host.engine.process unicode event).1 = .ok (.apply plan)) :
    host.committed <+: (deleteLastGraphemes unicode host.text plan.deleteGraphemes).1 := by
  have processed := TelexEngine.process_processed unicode host.engine event
  generalize host.engine.process unicode event = result at processed applied
  obtain ⟨answer, engine⟩ := result
  cases processed with
  | refused | empty | ended | abandoned => cases applied
  | recomposed _ token =>
    cases applied
    rw [h.text, deleteLastGraphemes_front _ (h.apart splits)]
    exact List.prefix_append _ _

/-- After every event the text is the committed text and the rendered token, the rendered token
is the composition of the raw one, and the plan of a next event spares the committed text. -/
theorem run_shows_token (unicode : Segmentation) (splits : unicode.SplitsLetters)
    (events : List EngineEvent) (ascii : ∀ event ∈ events, event.IsAscii) :
    let host := run (step unicode) new events
    host.text = host.committed ++ host.engine.token.rendered ∧
      compose host.engine.token.rawAscii = .ok host.engine.token.rendered ∧
      ∀ event plan, (host.engine.process unicode event).1 = .ok (.apply plan) →
        host.committed <+: (deleteLastGraphemes unicode host.text plan.deleteGraphemes).1 := by
  have inStep := run_inStep splits ascii
  exact ⟨inStep.text, inStep.composes, fun _ _ => inStep.spares_committed splits⟩

theorem run_shows_token_typed :
    let events := [.character 'a', .character 's', .backspace, .character 'd', .character 'd',
      .boundary .space, .character 'e', .character 'f', .character 'f']
    let host := run (step scalarSegmentation) new events
    host.text = "ađ ef".toList ∧
      host.text = host.committed ++ host.engine.token.rendered ∧
      compose host.engine.token.rawAscii = .ok host.engine.token.rendered ∧
      ∀ event plan, (host.engine.process scalarSegmentation event).1 = .ok (.apply plan) →
        host.committed <+:
          (deleteLastGraphemes scalarSegmentation host.text plan.deleteGraphemes).1 :=
  ⟨by decide, run_shows_token scalarSegmentation (fun _ _ => rfl) _
    (by simp [EngineEvent.IsAscii, isAscii])⟩

end HostText
end ZonKey.Telex

import ZonKey.ShortcutFlags
import ZonKey.WordBuffer

set_option autoImplicit false

namespace ZonKey.Native
open Observe Telex Diagnostic Runs DiagnosticDecisionProcessor

structure HookCall where
  message : UInt32
  virtualKey : UInt32
  flags : UInt32

def NativeKeyboardEvent.hookCall (native : NativeKeyboardEvent) : HookCall :=
  ⟨native.message, native.virtualKey, native.flags⟩

def LiveStep.hookCall : LiveStep → Option HookCall
  | .callback message virtualKey flags _ => some ⟨message, virtualKey, flags⟩
  | .poll _ | .quit | .messageError => none

def hookCalls (steps : List LiveStep) : List HookCall := steps.filterMap LiveStep.hookCall

structure KeyWatch where
  tracker : ModifierTracker
  buffer : WordBuffer

namespace KeyWatch

def start : KeyWatch := ⟨{}, .blank⟩

def hear (watch : KeyWatch) (native : NativeKeyboardEvent) : KeyWatch :=
  match mapNativeEvent native watch.tracker with
  | none => watch
  | some (event, tracker) => ⟨tracker, watch.buffer.step (.event event)⟩

end KeyWatch

namespace LiveObserver
variable {unicode : Segmentation} {observer : LiveObserver DiagnosticDecisionProcessor}
  {heard : List NativeKeyboardEvent}

def Accepts (observer : LiveObserver DiagnosticDecisionProcessor) : LiveStep → Prop
  | .callback _ _ _ lockFree => lockFree = true ∧ observer.bridge.active = true ∧
      observer.bridge.sequence < u64Max ∧ observer.bridge.events.length < 256
  | .poll _ | .quit | .messageError => True

structure Heard (unicode : Segmentation) (observer : LiveObserver DiagnosticDecisionProcessor)
    (heard : List NativeKeyboardEvent) : Prop where
  sound : observer.Sound
  watch : (⟨observer.source.tracker, observer.state.2⟩ : Watch) =
    run (Watch.step unicode) .start (heard.map .native)

theorem heard_start : (start .new).Heard unicode [] where
  sound := start_sound _
  watch := rfl

theorem Heard.congr {next : LiveObserver DiagnosticDecisionProcessor}
    (h : observer.Heard unicode heard) (sound : next.Sound)
    (tracker : next.source.tracker = observer.source.tracker) (state : next.state = observer.state) :
    next.Heard unicode heard :=
  ⟨sound, by rw [tracker, state]; exact h.watch⟩

theorem Heard.unmapped (h : observer.Heard unicode heard) {native : NativeKeyboardEvent}
    {rest : List NativeKeyboardEvent} (events : observer.bridge.events = native :: rest)
    (unmapped : mapNativeEvent native observer.source.tracker = none) :
    ({ observer with bridge := { observer.bridge with events := rest } }).Heard unicode
      (heard ++ [native]) := by
  refine ⟨h.sound.popped events, ?_⟩
  rw [List.map_append, run_append, ← h.watch]
  simp only [List.map_cons, List.map_nil, run_cons, run_nil, Watch.step, unmapped]

theorem deliver_state (processor : EventProcessor ObservedInputEvent DiagnosticDecisionProcessor)
    (event : ObservedInputEvent) (idle : observer.service.queue.events = [])
    (unmarked : observer.service.queue.discontinuityPending = false) :
    (observer.deliver processor event).state.2 = (processor.process observer.state.2 event).1 := by
  have room : ¬ 0 = observer.service.queue.capacity := Nat.ne_of_lt observer.service.queue.positive
  simp [deliver, ObserveService.receive, ObserveQueue.tryEnqueue, ObserveService.processOne,
    ObserveQueue.tryDequeue, EventProcessor.recorded, idle, unmarked, room]

theorem Heard.mapped (h : observer.Heard unicode heard) {native : NativeKeyboardEvent}
    {rest : List NativeKeyboardEvent} {event : ObservedInputEvent} {tracker : ModifierTracker}
    (events : observer.bridge.events = native :: rest)
    (mapped : mapNativeEvent native observer.source.tracker = some (event, tracker)) :
    (LiveObserver.deliver (eventProcessor unicode)
      { observer with
          bridge := { observer.bridge with events := rest }
          source := { observer.source with tracker := tracker } } event).Heard unicode
        (heard ++ [native]) := by
  refine ⟨h.sound.delivered events mapped, ?_⟩
  rw [List.map_append, run_append, ← h.watch]
  simp only [List.map_cons, List.map_nil, run_cons, run_nil, Watch.step, mapped]
  exact congrArg (Watch.mk tracker)
    (deliver_state (eventProcessor unicode) event h.sound.idle h.sound.unmarked)

theorem Heard.exhaust (h : observer.Heard unicode heard) :
    (observer.exhaust (eventProcessor unicode)).Heard unicode heard :=
  h.congr (h.sound.exhaust _) rfl (exhaust_idle _ h.sound.idle).2.2.1

theorem Heard.poll (h : observer.Heard unicode heard) (lockFree : Bool) :
    ∃ more, (observer.poll (eventProcessor unicode) lockFree).Heard unicode (heard ++ more) ∧
      observer.bridge.events =
        more ++ (observer.poll (eventProcessor unicode) lockFree).bridge.events := by
  have silent : ∃ more, observer.Heard unicode (heard ++ more) ∧
      observer.bridge.events = more ++ observer.bridge.events :=
    ⟨[], by rw [List.append_nil]; exact h, rfl⟩
  have cleared {other : LiveObserver DiagnosticDecisionProcessor} {kept : List NativeKeyboardEvent}
      (same : other.Heard unicode kept) :
      (other.exhaust (eventProcessor unicode)).bridge = other.bridge :=
    (exhaust_idle _ same.sound.idle).1
  have ended : ∃ more, (observer.exhaust (eventProcessor unicode)).Heard unicode (heard ++ more) ∧
      observer.bridge.events =
        more ++ (observer.exhaust (eventProcessor unicode)).bridge.events :=
    ⟨[], by rw [List.append_nil]; exact h.exhaust, by rw [cleared h, List.nil_append]⟩
  unfold LiveObserver.poll
  cases observer.service.isTerminal with
  | true => exact silent
  | false =>
  rw [if_neg Bool.false_ne_true]
  cases observer.source.stopped with
  | true => exact ended
  | false =>
  rw [if_neg Bool.false_ne_true]
  unfold nextMappedEvent
  cases lockFree with
  | false =>
    rw [if_neg Bool.false_ne_true]
    dsimp only
    split
    · exact ended
    · exact silent
  | true =>
    rw [if_pos rfl]
    cases events : observer.bridge.events with
    | nil =>
      rw [events] at ended
      dsimp only
      split
      · exact ended
      · exact ⟨[], by rw [List.append_nil]; exact h, events.symm⟩
    | cons native rest =>
      cases mapped : mapNativeEvent native observer.source.tracker with
      | none =>
        have dropped := h.unmapped events mapped
        simp only [mapped]
        split
        · exact ⟨[native], dropped.exhaust, by rw [cleared dropped]; rfl⟩
        · exact ⟨[native], dropped, rfl⟩
      | some result =>
        simp only [mapped]
        refine ⟨[native], h.mapped events mapped, ?_⟩
        rw [(h.sound.deliver_spec (eventProcessor unicode) mapped).1]
        rfl

/-- A step takes some events out of the bridge and puts the accepted calls into it. -/
def HearsMore (unicode : Segmentation) (observer next : LiveObserver DiagnosticDecisionProcessor)
    (heard : List NativeKeyboardEvent) (input : LiveStep) : Prop :=
  ∃ more calls, next.Heard unicode (heard ++ more) ∧
    (more ++ next.bridge.events).map NativeKeyboardEvent.hookCall =
      observer.bridge.events.map NativeKeyboardEvent.hookCall ++ calls ∧
    calls.Sublist input.hookCall.toList ∧
    (observer.Accepts input → calls = input.hookCall.toList)

theorem Heard.quiet {next : LiveObserver DiagnosticDecisionProcessor} {input : LiveStep}
    (h : observer.Heard unicode heard) (sound : next.Sound)
    (tracker : next.source.tracker = observer.source.tracker) (state : next.state = observer.state)
    (events : next.bridge.events = observer.bridge.events)
    (silent : observer.Accepts input → input.hookCall = none) :
    HearsMore unicode observer next heard input := by
  refine ⟨[], [], ?_, ?_, List.nil_sublist _, fun accepts => ?_⟩
  · rw [List.append_nil]
    exact h.congr sound tracker state
  · rw [List.nil_append, List.append_nil, events]
  · rw [silent accepts]
    rfl

theorem Heard.callback (h : observer.Heard unicode heard) (message virtualKey flags : UInt32)
    (lockFree : Bool) :
    HearsMore unicode observer
      (observer.lowLevelKeyboardProc message virtualKey flags lockFree) heard
      (.callback message virtualKey flags lockFree) := by
  have sound := callback_sound h.sound message virtualKey flags lockFree
  unfold lowLevelKeyboardProc at sound ⊢
  by_cases ready : (lockFree && observer.bridge.active) = true
  · simp only [ready, if_true] at sound ⊢
    rw [Bool.and_eq_true] at ready
    unfold checkedSucc at sound ⊢
    by_cases more : observer.bridge.sequence < u64Max
    · simp only [more, if_true] at sound ⊢
      unfold BridgeState.push at sound ⊢
      by_cases full : 256 ≤ observer.bridge.events.length
      · simp only [full, if_true] at sound ⊢
        exact h.quiet sound rfl rfl rfl
          fun accepts => absurd accepts.2.2.2 (Nat.not_lt.mpr full)
      · simp only [full, if_false] at sound ⊢
        refine ⟨[], [⟨message, virtualKey, flags⟩], ?_, ?_, List.Sublist.refl _, fun _ => rfl⟩
        · rw [List.append_nil]
          exact h.congr sound rfl rfl
        · rw [List.nil_append, List.map_append]
          rfl
    · simp only [more, if_false] at sound ⊢
      exact h.quiet sound rfl rfl rfl fun accepts => absurd accepts.2.2.1 more
  · simp only [ready] at sound ⊢
    refine h.quiet sound rfl rfl rfl fun accepts => absurd ?_ ready
    rw [accepts.1, accepts.2.1]
    rfl

theorem Heard.step (h : observer.Heard unicode heard) (input : LiveStep) :
    HearsMore unicode observer (observer.step (eventProcessor unicode) input) heard input := by
  have sound := step_sound (eventProcessor unicode) observer input h.sound
  cases input with
  | callback message virtualKey flags lockFree => exact h.callback message virtualKey flags lockFree
  | poll lockFree =>
    obtain ⟨more, polled, events⟩ := h.poll lockFree
    refine ⟨more, [], polled, ?_, List.nil_sublist _, fun _ => rfl⟩
    rw [events, List.append_nil]
    rfl
  | quit => exact h.quiet sound rfl rfl rfl fun _ => rfl
  | messageError =>
    unfold LiveObserver.step at sound ⊢
    by_cases terminal : observer.service.isTerminal = true
    · simp only [terminal, if_true] at sound ⊢
      exact h.quiet sound rfl rfl rfl fun _ => rfl
    · simp only [terminal] at sound ⊢
      exact h.quiet sound rfl rfl rfl fun _ => rfl

theorem run_hears_more (h : observer.Heard unicode heard) (steps : List LiveStep) :
    ∃ more,
      (run (step (eventProcessor unicode)) observer steps).Heard unicode (heard ++ more) := by
  induction steps generalizing observer heard with
  | nil => exact ⟨[], by rw [List.append_nil]; exact h⟩
  | cons input rest ih =>
    obtain ⟨first, _, stepped, _⟩ := h.step input
    obtain ⟨more, reached⟩ := ih stepped
    refine ⟨first ++ more, ?_⟩
    rw [← List.append_assoc]
    exact reached

/-- Over a run the processor hears a part of the hook's calls in their order, with the
last ones still queued, and all of them if none is refused. -/
theorem run_heard (unicode : Segmentation) (steps : List LiveStep) :
    let observer := run (step (eventProcessor unicode)) (start .new) steps
    ∃ heard, observer.Heard unicode heard ∧
      ((heard ++ observer.bridge.events).map NativeKeyboardEvent.hookCall).Sublist
        (hookCalls steps) ∧
      (AllSteps (step (eventProcessor unicode)) Accepts (start .new) steps →
        (heard ++ observer.bridge.events).map NativeKeyboardEvent.hookCall = hookCalls steps) := by
  induction steps using List.reverseRecOn with
  | nil => exact ⟨[], heard_start, List.Sublist.refl _, fun _ => rfl⟩
  | append_singleton steps input ih =>
    obtain ⟨heard, held, sub, whole⟩ := ih
    obtain ⟨more, calls, after, moved, some_calls, all_calls⟩ := held.step input
    have further : hookCalls (steps ++ [input]) = hookCalls steps ++ input.hookCall.toList := by
      unfold hookCalls
      rw [List.filterMap_append]
      cases shown : input.hookCall <;> simp [shown]
    intro observer
    have last : observer = (run (LiveObserver.step (eventProcessor unicode)) (start .new) steps).step
        (eventProcessor unicode) input := run_append _ steps [input]
    rw [last, further]
    have grown := congrArg (heard.map NativeKeyboardEvent.hookCall ++ ·) moved
    simp only [← List.map_append, ← List.append_assoc] at grown
    refine ⟨heard ++ more, after, ?_, fun accepts => ?_⟩
    · rw [grown]
      exact sub.append some_calls
    · obtain ⟨before, accepted, _⟩ := (allSteps_append _ steps [input]).mp accepts
      rw [grown, whole before, all_calls accepted]

theorem heard_tracks (unicode : Segmentation) (heard : List NativeKeyboardEvent) :
    (run (Watch.step unicode) .start (heard.map .native)).processor.Tracks
      (run KeyWatch.hear .start heard).buffer := by
  let follows (watch : Watch) (keys : KeyWatch) : Prop :=
    watch.tracker = keys.tracker ∧ watch.processor.Tracks keys.buffer
  have start : follows .start .start := ⟨rfl, tracks_new⟩
  have kept (watch : Watch) (keys : KeyWatch) (native : NativeKeyboardEvent)
      (same : follows watch keys) :
      follows (watch.step unicode (.native native)) (keys.hear native) := by
    unfold Watch.step KeyWatch.hear
    rw [← same.1]
    dsimp only
    cases mapNativeEvent native watch.tracker with
    | none => exact same
    | some result => exact ⟨rfl, same.2.step (.event result.1)⟩
  have both := run_simulates follows kept start heard
  unfold run at both ⊢
  rw [List.foldl_map]
  exact both.2

end LiveObserver
end ZonKey.Native

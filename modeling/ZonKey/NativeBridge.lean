import ZonKey.ObserveService

set_option autoImplicit false

/-!
# The native keyboard bridge

`native.rs`: the hook callback pushes into a bridge of 256 events, the source
of the service takes them out and maps them. Callbacks, polls and messages of
the observer's thread come in any order.
-/
namespace ZonKey.Native
open Observe Runs

structure NativeKeyboardEvent where
  message : UInt32
  virtualKey : UInt32
  flags : UInt32
  sequence : Nat

structure ModifierTracker where
  shiftGeneric : Bool := false
  shiftLeft : Bool := false
  shiftRight : Bool := false
  controlGeneric : Bool := false
  controlLeft : Bool := false
  controlRight : Bool := false
  altGeneric : Bool := false
  altLeft : Bool := false
  altRight : Bool := false
  metaLeft : Bool := false
  metaRight : Bool := false

namespace ModifierTracker

def observe (tracker : ModifierTracker) (virtualKey : UInt32) (kind : KeyEventKind) :
    ModifierTracker :=
  let active := !kind.isUp
  match virtualKey with
  | 0x10 => { tracker with shiftGeneric := active }
  | 0xa0 => { tracker with shiftLeft := active }
  | 0xa1 => { tracker with shiftRight := active }
  | 0x11 => { tracker with controlGeneric := active }
  | 0xa2 => { tracker with controlLeft := active }
  | 0xa3 => { tracker with controlRight := active }
  | 0x12 => { tracker with altGeneric := active }
  | 0xa4 => { tracker with altLeft := active }
  | 0xa5 => { tracker with altRight := active }
  | 0x5b => { tracker with metaLeft := active }
  | 0x5c => { tracker with metaRight := active }
  | _ => tracker

def state (tracker : ModifierTracker) : ModifierState where
  shift := tracker.shiftGeneric || tracker.shiftLeft || tracker.shiftRight
  control := tracker.controlGeneric || tracker.controlLeft || tracker.controlRight
  alt := tracker.altGeneric || tracker.altLeft || tracker.altRight
  metaKey := tracker.metaLeft || tracker.metaRight

end ModifierTracker

def mapKey (virtualKey : UInt32) : Option ObservedKey :=
  if 0x41 ≤ virtualKey ∧ virtualKey ≤ 0x5a then
    (ObservedKey.letter (Char.ofNat virtualKey.toNat)).toOption
  else if 0x30 ≤ virtualKey ∧ virtualKey ≤ 0x39 then
    (ObservedKey.digit (virtualKey.toNat - 0x30)).toOption
  else
    match virtualKey with
    | 0x20 => some .space
    | 0x0d => some .enter
    | 0x09 => some .tab
    | 0x08 => some .backspace
    | 0x1b => some .escape
    | 0x10 | 0xa0 | 0xa1 => some (.modifier .shift)
    | 0x11 | 0xa2 | 0xa3 => some (.modifier .control)
    | 0x12 | 0xa4 | 0xa5 => some (.modifier .alt)
    | 0x5b | 0x5c => some (.modifier .metaKey)
    | 0xba => (ObservedKey.punctuation ';').toOption
    | 0xbb => (ObservedKey.punctuation '=').toOption
    | 0xbc => (ObservedKey.punctuation ',').toOption
    | 0xbd => (ObservedKey.punctuation '-').toOption
    | 0xbe => (ObservedKey.punctuation '.').toOption
    | 0xbf => (ObservedKey.punctuation '/').toOption
    | 0xc0 => (ObservedKey.punctuation '\x60').toOption
    | 0xdb => (ObservedKey.punctuation '[').toOption
    | 0xdc => (ObservedKey.punctuation '\\').toOption
    | 0xdd => (ObservedKey.punctuation ']').toOption
    | 0xde => (ObservedKey.punctuation '\'').toOption
    | _ => some .other

def kindOf (message : UInt32) : Option KeyEventKind :=
  match message with
  | 0x0100 => some .keyDown
  | 0x0101 => some .keyUp
  | 0x0104 => some .systemKeyDown
  | 0x0105 => some .systemKeyUp
  | _ => none

def injectionOrigin (flags : UInt32) : InjectionOrigin :=
  if flags &&& 0x02 ≠ 0 then .lowerIntegrityInjected
  else if flags &&& 0x10 ≠ 0 then .markedInjected
  else .physicalOrUnmarked

def mapNativeEvent (native : NativeKeyboardEvent) (tracker : ModifierTracker) :
    Option (ObservedInputEvent × ModifierTracker) := do
  let kind ← kindOf native.message
  let nextTracker := tracker.observe native.virtualKey kind
  let key ← mapKey native.virtualKey
  let sequence ← (EventSequence.new native.sequence).toOption
  some (⟨key, kind, nextTracker.state, injectionOrigin native.flags, sequence⟩, nextTracker)

structure BridgeState where
  events : List NativeKeyboardEvent
  sequence : Nat
  dropped : Nat
  active : Bool

namespace BridgeState

def new : BridgeState := ⟨[], 0, 0, false⟩

def push (bridge : BridgeState) (event : NativeKeyboardEvent) : BridgeState × Bool :=
  if 256 ≤ bridge.events.length then
    ({ bridge with dropped := saturatingSucc bridge.dropped }, false)
  else ({ bridge with events := bridge.events ++ [event] }, true)

end BridgeState

structure WindowsObserveSource where
  tracker : ModifierTracker := {}
  stopped : Bool := false
  shutdownRequested : Bool := false

/-- The observer with everything it owns; `lost` lists the sequence numbers of
the events that a full bridge refused. -/
structure LiveObserver (σ : Type) where
  bridge : BridgeState
  source : WindowsObserveSource
  service : ObserveService ObservedInputEvent
  state : List (ProcessorCall ObservedInputEvent) × σ
  lost : List Nat

/-- A callback of the hook, with whether the bridge's lock was free; one turn
of the loop of `next_event`; or what `GetMessageW` returns to that loop. -/
inductive LiveStep where
  | callback (message virtualKey flags : UInt32) (lockFree : Bool)
  | poll (lockFree : Bool)
  | quit
  | messageError

namespace LiveObserver
variable {σ : Type}

/-- The hook is installed, nothing has been typed, and the service runs. -/
def start (state : σ) : LiveObserver σ where
  bridge := { BridgeState.new with active := true }
  source := {}
  service := { ObserveService.new ObserveQueue.default with status := .running }
  state := ([], state)
  lost := []

def lowLevelKeyboardProc (observer : LiveObserver σ) (message virtualKey flags : UInt32)
    (lockFree : Bool) : LiveObserver σ :=
  if lockFree && observer.bridge.active then
    match checkedSucc observer.bridge.sequence with
    | some sequence =>
      let bridge := { observer.bridge with sequence := sequence }
      match bridge.push ⟨message, virtualKey, flags, sequence⟩ with
      | (bridge, true) => { observer with bridge := bridge }
      | (bridge, false) => { observer with bridge := bridge, lost := observer.lost ++ [sequence] }
    | none =>
      { observer with
          bridge := { observer.bridge with dropped := saturatingSucc observer.bridge.dropped } }
  else observer

/-- Takes one event out of the bridge; an event that is not mapped is gone. -/
def nextMappedEvent (observer : LiveObserver σ) (lockFree : Bool) :
    LiveObserver σ × Option ObservedInputEvent :=
  if lockFree then
    match observer.bridge.events with
    | [] => (observer, none)
    | native :: events =>
      let observer := { observer with bridge := { observer.bridge with events := events } }
      match mapNativeEvent native observer.source.tracker with
      | none => (observer, none)
      | some (event, tracker) =>
        ({ observer with source := { observer.source with tracker := tracker } }, some event)
  else (observer, none)

def deliver (processor : EventProcessor ObservedInputEvent σ) (observer : LiveObserver σ)
    (event : ObservedInputEvent) : LiveObserver σ :=
  let (service, state, _) :=
    (observer.service.receive event).processOne processor.recorded observer.state
  { observer with service := service, state := state }

def exhaust (processor : EventProcessor ObservedInputEvent σ) (observer : LiveObserver σ) :
    LiveObserver σ :=
  let (service, state) := observer.service.finishGracefully processor.recorded observer.state
  { observer with
      service := service, state := state, source := { observer.source with stopped := true } }

def poll (processor : EventProcessor ObservedInputEvent σ) (observer : LiveObserver σ)
    (lockFree : Bool) : LiveObserver σ :=
  if observer.service.isTerminal then observer
  else if observer.source.stopped then observer.exhaust processor
  else
    match observer.nextMappedEvent lockFree with
    | (observer, some event) => observer.deliver processor event
    | (observer, none) =>
      if observer.source.shutdownRequested then observer.exhaust processor else observer

def stopAcceptingEvents (observer : LiveObserver σ) : LiveObserver σ :=
  { observer with bridge := { observer.bridge with active := false } }

def step (processor : EventProcessor ObservedInputEvent σ) (observer : LiveObserver σ) :
    LiveStep → LiveObserver σ
  | .callback message virtualKey flags lockFree =>
    observer.lowLevelKeyboardProc message virtualKey flags lockFree
  | .poll lockFree => observer.poll processor lockFree
  | .quit =>
    let observer := observer.stopAcceptingEvents
    { observer with source := { observer.source with shutdownRequested := true } }
  | .messageError =>
    if observer.service.isTerminal then observer
    else
      let observer := observer.stopAcceptingEvents
      { observer with
          source := { observer.source with stopped := true }
          service := { observer.service with
            status := .failed
            report := { observer.service.report with
              sourceFailures := observer.service.report.sourceFailures + 1 } } }

section Turns
variable {processor : EventProcessor ObservedInputEvent σ}

variable (processor) in
theorem deliver_idle {observer : LiveObserver σ} (event : ObservedInputEvent)
    (idle : observer.service.queue.events = [])
    (unmarked : observer.service.queue.discontinuityPending = false) :
    (observer.deliver processor event).bridge = observer.bridge ∧
    (observer.deliver processor event).lost = observer.lost ∧
    (observer.deliver processor event).state.1 = observer.state.1 ++ [.process event] ∧
    (observer.deliver processor event).service.queue.events = [] ∧
    (observer.deliver processor event).service.queue.discontinuityPending = false := by
  have room : ¬ 0 = observer.service.queue.capacity := Nat.ne_of_lt observer.service.queue.positive
  simp [deliver, ObserveService.receive, ObserveQueue.tryEnqueue, ObserveService.processOne,
    ObserveQueue.tryDequeue, EventProcessor.recorded, idle, unmarked, room]

variable (processor) in
theorem exhaust_idle {observer : LiveObserver σ} (idle : observer.service.queue.events = []) :
    (observer.exhaust processor).bridge = observer.bridge ∧
    (observer.exhaust processor).lost = observer.lost ∧
    (observer.exhaust processor).state = observer.state ∧
    (observer.exhaust processor).service.queue = observer.service.queue := by
  simp [exhaust, ObserveService.finishGracefully, ObserveService.drain, idle,
    ObserveService.processOne, ObserveQueue.tryDequeue]

theorem mapNativeEvent_sequence {native : NativeKeyboardEvent} {tracker next : ModifierTracker}
    {event : ObservedInputEvent} (mapped : mapNativeEvent native tracker = some (event, next)) :
    event.sequence.value = native.sequence := by
  unfold mapNativeEvent at mapped
  simp only [Option.bind_eq_bind, Option.bind_eq_some_iff] at mapped
  obtain ⟨kind, _, key, _, sequence, made, eq⟩ := mapped
  cases eq
  unfold EventSequence.new at made
  split at made
  · cases made
    rfl
  · cases made

end Turns

section Losses

def delivered (observer : LiveObserver σ) : List Nat :=
  (observer.state.1.filterMap ProcessorCall.processed?).map fun event => event.sequence.value

def numbers (observer : LiveObserver σ) : List Nat :=
  observer.delivered ++ observer.bridge.events.map NativeKeyboardEvent.sequence

/-- The service never falls behind, so its queue stays idle and unmarked, and
the bridge numbers what it keeps and what it loses from one counter. -/
structure Sound (observer : LiveObserver σ) : Prop where
  idle : observer.service.queue.events = []
  unmarked : observer.service.queue.discontinuityPending = false
  no_reset : .reset ∉ observer.state.1
  ordered : observer.numbers.Pairwise (· < ·)
  below : ∀ n ∈ observer.numbers ++ observer.lost, n ≤ observer.bridge.sequence
  apart : ∀ n ∈ observer.lost, n ∉ observer.numbers

theorem start_sound (state : σ) : Sound (start state) := by
  constructor <;> simp [start, numbers, delivered, BridgeState.new, ObserveService.new,
    ObserveQueue.default]

theorem Sound.congr {observer next : LiveObserver σ} (h : Sound observer)
    (queue : next.service.queue = observer.service.queue) (state : next.state.1 = observer.state.1)
    (events : next.bridge.events = observer.bridge.events)
    (sequence : next.bridge.sequence = observer.bridge.sequence)
    (lost : next.lost = observer.lost) : Sound next := by
  have numbers : next.numbers = observer.numbers := by
    rw [LiveObserver.numbers, LiveObserver.numbers, delivered, delivered, state, events]
  constructor
  · rw [queue]
    exact h.idle
  · rw [queue]
    exact h.unmarked
  · rw [state]
    exact h.no_reset
  · rw [numbers]
    exact h.ordered
  · rw [numbers, lost, sequence]
    exact h.below
  · rw [numbers, lost]
    exact h.apart

theorem callback_sound {observer : LiveObserver σ} (h : Sound observer)
    (message virtualKey flags : UInt32) (lockFree : Bool) :
    Sound (observer.lowLevelKeyboardProc message virtualKey flags lockFree) := by
  unfold lowLevelKeyboardProc
  split
  · unfold checkedSucc
    by_cases more : observer.bridge.sequence < u64Max
    · rw [if_pos more]
      by_cases full : 256 ≤ observer.bridge.events.length
      · simp only [BridgeState.push, full, if_true]
        refine ⟨h.idle, h.unmarked, h.no_reset, h.ordered, fun n mem => ?_, fun n mem => ?_⟩
        · rw [← List.append_assoc, List.mem_append, List.mem_singleton] at mem
          rcases mem with old | rfl
          · exact Nat.le_succ_of_le (h.below n old)
          · exact Nat.le_refl _
        · rw [List.mem_append, List.mem_singleton] at mem
          rcases mem with old | rfl
          · exact h.apart n old
          · intro among
            have := h.below _ (List.mem_append_left _ among)
            omega
      · simp only [BridgeState.push, full, if_false]
        have grown : observer.delivered ++ (observer.bridge.events ++
            [NativeKeyboardEvent.mk message virtualKey flags (observer.bridge.sequence + 1)]).map
              NativeKeyboardEvent.sequence = observer.numbers ++ [observer.bridge.sequence + 1] := by
          rw [List.map_append, ← List.append_assoc, numbers]
          rfl
        refine ⟨h.idle, h.unmarked, h.no_reset, ?_, fun n mem => ?_, fun n mem => ?_⟩
        · change (observer.delivered ++ _).Pairwise _
          rw [grown, List.pairwise_append]
          refine ⟨h.ordered, List.pairwise_singleton .., fun n old m new => ?_⟩
          have := h.below n (List.mem_append_left _ old)
          rw [List.mem_singleton] at new
          omega
        · change n ∈ (observer.delivered ++ _) ++ _ at mem
          rw [grown, List.mem_append, List.mem_append, List.mem_singleton] at mem
          change n ≤ observer.bridge.sequence + 1
          rcases mem with (old | new) | gone
          · exact Nat.le_succ_of_le (h.below n (List.mem_append_left _ old))
          · exact Nat.le_of_eq new
          · exact Nat.le_succ_of_le (h.below n (List.mem_append_right _ gone))
        · change n ∉ observer.delivered ++ _
          have := h.below n (List.mem_append_right _ mem)
          rw [grown, List.mem_append, List.mem_singleton]
          rintro (old | new)
          · exact h.apart n mem old
          · omega
    · rw [if_neg more]
      exact h.congr rfl rfl rfl rfl rfl
  · exact h

theorem Sound.popped {observer : LiveObserver σ} (h : Sound observer)
    {native : NativeKeyboardEvent} {rest : List NativeKeyboardEvent}
    (events : observer.bridge.events = native :: rest) :
    Sound { observer with bridge := { observer.bridge with events := rest } } := by
  have sub : ({ observer with bridge := { observer.bridge with events := rest } } :
      LiveObserver σ).numbers.Sublist observer.numbers := by
    unfold numbers
    rw [events, List.map_cons]
    exact (List.Sublist.refl _).append (List.sublist_cons_self _ _)
  refine ⟨h.idle, h.unmarked, h.no_reset, h.ordered.sublist sub, fun n mem => ?_, fun n mem => ?_⟩
  · rw [List.mem_append] at mem
    exact h.below n (List.mem_append.mpr (mem.imp_left fun kept => sub.mem kept))
  · exact fun among => h.apart n mem (sub.mem among)

theorem Sound.deliver_spec {observer : LiveObserver σ} (h : Sound observer)
    (processor : EventProcessor ObservedInputEvent σ) {native : NativeKeyboardEvent}
    {rest : List NativeKeyboardEvent} {tracker : ModifierTracker} {event : ObservedInputEvent}
    (mapped : mapNativeEvent native observer.source.tracker = some (event, tracker)) :
    let popped : LiveObserver σ := { observer with
      bridge := { observer.bridge with events := rest }
      source := { observer.source with tracker := tracker } }
    let next := popped.deliver processor event
    next.bridge = popped.bridge ∧ next.lost = observer.lost ∧
      next.state.1 = observer.state.1 ++ [.process event] ∧
      next.delivered = observer.delivered ++ [native.sequence] ∧
      next.service.queue.events = [] ∧ next.service.queue.discontinuityPending = false := by
  intro popped next
  obtain ⟨bridge, lost, log, idle, unmarked⟩ :=
    @deliver_idle _ processor popped event h.idle h.unmarked
  refine ⟨bridge, lost, log, ?_, idle, unmarked⟩
  unfold LiveObserver.delivered
  rw [log, List.filterMap_append, List.map_append, ← mapNativeEvent_sequence mapped]
  rfl

theorem Sound.delivered {observer : LiveObserver σ} (h : Sound observer)
    {processor : EventProcessor ObservedInputEvent σ} {native : NativeKeyboardEvent}
    {rest : List NativeKeyboardEvent} {tracker : ModifierTracker} {event : ObservedInputEvent}
    (events : observer.bridge.events = native :: rest)
    (mapped : mapNativeEvent native observer.source.tracker = some (event, tracker)) :
    Sound (LiveObserver.deliver processor
      { observer with
          bridge := { observer.bridge with events := rest }
          source := { observer.source with tracker := tracker } } event) := by
  obtain ⟨bridge, lost, log, grown, idle, unmarked⟩ := @Sound.deliver_spec _ _ h processor _ rest _ _ mapped
  generalize LiveObserver.deliver processor _ event = next at bridge lost log grown idle unmarked ⊢
  have same : next.numbers = observer.numbers := by
    unfold numbers
    rw [grown, bridge, events, List.append_assoc]
    rfl
  have sequence : next.bridge.sequence = observer.bridge.sequence := by rw [bridge]
  refine ⟨idle, unmarked, ?_, ?_, ?_, ?_⟩
  · rw [log, List.mem_append, List.mem_singleton]
    rintro (old | new)
    · exact h.no_reset old
    · cases new
  · rw [same]
    exact h.ordered
  · rw [same, lost, sequence]
    exact h.below
  · rw [same, lost]
    exact h.apart

theorem Sound.exhaust {observer : LiveObserver σ} (h : Sound observer)
    (processor : EventProcessor ObservedInputEvent σ) : Sound (observer.exhaust processor) := by
  obtain ⟨bridge, lost, state, queue⟩ := exhaust_idle processor h.idle
  exact h.congr queue (by rw [state]) (by rw [bridge]) (by rw [bridge]) lost

structure Delivers (observer : LiveObserver σ) (lockFree : Bool) (native : NativeKeyboardEvent) :
    Prop where
  running : observer.service.isTerminal = false
  polling : observer.source.stopped = false
  locked : lockFree = true
  first : observer.bridge.events.head? = some native
  mapped : (mapNativeEvent native observer.source.tracker).isSome

inductive Popped (observer : LiveObserver σ) : LiveObserver σ → Prop
  | same : Popped observer observer
  | first {native : NativeKeyboardEvent} {rest : List NativeKeyboardEvent}
      (events : observer.bridge.events = native :: rest) :
      Popped observer { observer with bridge := { observer.bridge with events := rest } }

/-- What one poll can do. -/
inductive Polled (processor : EventProcessor ObservedInputEvent σ) (observer : LiveObserver σ)
    (lockFree : Bool) : LiveObserver σ → Prop
  | quiet {next : LiveObserver σ} (popped : Popped observer next)
      (none : ∀ native, ¬ Delivers observer lockFree native) : Polled processor observer lockFree next
  | exhausted {next : LiveObserver σ} (popped : Popped observer next)
      (none : ∀ native, ¬ Delivers observer lockFree native) :
      Polled processor observer lockFree (next.exhaust processor)
  | delivered {native : NativeKeyboardEvent} {rest : List NativeKeyboardEvent}
      {tracker : ModifierTracker} {event : ObservedInputEvent}
      (delivers : Delivers observer lockFree native)
      (events : observer.bridge.events = native :: rest)
      (mapped : mapNativeEvent native observer.source.tracker = some (event, tracker)) :
      Polled processor observer lockFree (LiveObserver.deliver processor
        { observer with
            bridge := { observer.bridge with events := rest }
            source := { observer.source with tracker := tracker } } event)

theorem poll_polled (processor : EventProcessor ObservedInputEvent σ) (observer : LiveObserver σ)
    (lockFree : Bool) : Polled processor observer lockFree (observer.poll processor lockFree) := by
  unfold poll
  cases running : observer.service.isTerminal with
  | true =>
    rw [if_pos rfl]
    exact .quiet .same fun native delivers => by simp [delivers.running] at running
  | false =>
  rw [if_neg Bool.false_ne_true]
  cases polling : observer.source.stopped with
  | true =>
    rw [if_pos rfl]
    exact .exhausted .same fun native delivers => by simp [delivers.polling] at polling
  | false =>
  rw [if_neg Bool.false_ne_true]
  unfold nextMappedEvent
  cases lockFree with
  | false =>
    have none (native : NativeKeyboardEvent) : ¬ Delivers observer false native :=
      fun delivers => Bool.false_ne_true delivers.locked
    rw [if_neg Bool.false_ne_true]
    dsimp only
    split
    · exact .exhausted .same none
    · exact .quiet .same none
  | true =>
    rw [if_pos rfl]
    cases events : observer.bridge.events with
    | nil =>
      have none (native : NativeKeyboardEvent) : ¬ Delivers observer true native :=
        fun delivers => by simpa [events] using delivers.first
      dsimp only
      split
      · exact .exhausted .same none
      · exact .quiet .same none
    | cons native rest =>
      cases mapped : mapNativeEvent native observer.source.tracker with
      | none =>
        have none (other : NativeKeyboardEvent) : ¬ Delivers observer true other := by
          intro delivers
          have first := delivers.first
          have some_event := delivers.mapped
          rw [events, List.head?_cons, Option.some.injEq] at first
          rw [← first, mapped] at some_event
          cases some_event
        simp only [mapped]
        split
        · exact .exhausted (.first events) none
        · exact .quiet (.first events) none
      | some result =>
        simp only [mapped]
        exact .delivered ⟨running, polling, rfl, by rw [events, List.head?_cons], by simp [mapped]⟩
          events mapped

theorem Sound.of_popped {observer next : LiveObserver σ} (h : Sound observer)
    (popped : Popped observer next) : Sound next := by
  cases popped with
  | same => exact h
  | first events => exact h.popped events

theorem poll_sound {observer : LiveObserver σ} (h : Sound observer)
    (processor : EventProcessor ObservedInputEvent σ) (lockFree : Bool) :
    Sound (observer.poll processor lockFree) := by
  have polled := poll_polled processor observer lockFree
  generalize observer.poll processor lockFree = next at polled ⊢
  cases polled with
  | quiet popped => exact h.of_popped popped
  | exhausted popped => exact (h.of_popped popped).exhaust processor
  | delivered _ events mapped => exact h.delivered events mapped

theorem step_sound (processor : EventProcessor ObservedInputEvent σ) (observer : LiveObserver σ)
    (input : LiveStep) (h : Sound observer) : Sound (observer.step processor input) := by
  cases input with
  | callback message virtualKey flags lockFree =>
    exact callback_sound h message virtualKey flags lockFree
  | poll lockFree => exact poll_sound h processor lockFree
  | quit => exact h.congr rfl rfl rfl rfl rfl
  | messageError =>
    simp only [step]
    split
    · exact h
    · exact h.congr rfl rfl rfl rfl rfl

def Gapless (observer : LiveObserver σ) : Prop :=
  ¬ ∃ n ∈ observer.lost, (∃ m ∈ observer.delivered, m < n) ∧ ∃ m ∈ observer.delivered, n < m

/-- A poll delivers no event that a refused one was numbered in front of, once an event from before
the refused one has been delivered. -/
def GapFree (observer : LiveObserver σ) : LiveStep → Prop
  | .poll lockFree => ∀ native, Delivers observer lockFree native →
    ¬ ∃ n ∈ observer.lost, (∃ m ∈ observer.delivered, m < n) ∧ n < native.sequence
  | .callback .. | .quit | .messageError => True

theorem gapless_congr {observer next : LiveObserver σ} (lost : next.lost = observer.lost)
    (state : next.state.1 = observer.state.1) : Gapless next ↔ Gapless observer := by
  unfold Gapless LiveObserver.delivered
  rw [lost, state]

theorem callback_gapless {observer : LiveObserver σ} (h : Sound observer)
    (message virtualKey flags : UInt32) (lockFree : Bool) :
    Gapless (observer.lowLevelKeyboardProc message virtualKey flags lockFree) ↔
      Gapless observer := by
  unfold lowLevelKeyboardProc
  split
  · unfold checkedSucc
    by_cases more : observer.bridge.sequence < u64Max
    · rw [if_pos more]
      by_cases full : 256 ≤ observer.bridge.events.length
      · simp only [BridgeState.push, full, if_true]
        refine not_congr ⟨?_, ?_⟩
        · rintro ⟨n, lost, low, k, high, above⟩
          rcases List.mem_append.mp lost with old | new
          · exact ⟨n, old, low, k, high, above⟩
          · have last := h.below k (List.mem_append_left _ (List.mem_append_left _ high))
            rw [List.mem_singleton.mp new] at above
            omega
        · rintro ⟨n, lost, low, high⟩
          exact ⟨n, List.mem_append_left _ lost, low, high⟩
      · simp only [BridgeState.push, full, if_false]
        exact gapless_congr rfl rfl
    · rw [if_neg more]
      exact gapless_congr rfl rfl
  · exact Iff.rfl

theorem poll_gapless {observer : LiveObserver σ} (h : Sound observer)
    (processor : EventProcessor ObservedInputEvent σ) (lockFree : Bool) :
    Gapless (observer.poll processor lockFree) ↔
      Gapless observer ∧ GapFree observer (.poll lockFree) := by
  have polled := poll_polled processor observer lockFree
  generalize observer.poll processor lockFree = next at polled ⊢
  have quiet (none : ∀ native, ¬ Delivers observer lockFree native) :
      GapFree observer (.poll lockFree) := fun native delivers => absurd delivers (none native)
  cases polled with
  | quiet popped none =>
    rw [and_iff_left (quiet none)]
    cases popped <;> exact gapless_congr rfl rfl
  | @exhausted next popped none =>
    rw [and_iff_left (quiet none)]
    obtain ⟨_, lost, state, _⟩ := exhaust_idle processor (h.of_popped popped).idle
    rw [gapless_congr lost (by rw [state])]
    cases popped <;> exact gapless_congr rfl rfl
  | @delivered native rest tracker event delivers events mapped =>
    obtain ⟨_, lost, _, grown, _⟩ := @Sound.deliver_spec _ _ h processor _ rest _ _ mapped
    have later (m : Nat) (mem : m ∈ observer.delivered) : m < native.sequence := by
      have ordered := h.ordered
      rw [numbers, events] at ordered
      exact (List.pairwise_append.mp ordered).2.2 m mem _ List.mem_cons_self
    unfold Gapless
    rw [lost, grown]
    simp only [List.mem_append, List.mem_singleton]
    constructor
    · intro gapless
      refine ⟨?_, fun other otherDelivers => ?_⟩
      · rintro ⟨n, refused, ⟨m, low, below⟩, k, high, above⟩
        exact gapless ⟨n, refused, ⟨m, .inl low, below⟩, k, .inl high, above⟩
      · have first := otherDelivers.first
        rw [events, List.head?_cons, Option.some.injEq] at first
        rintro ⟨n, refused, ⟨m, low, below⟩, above⟩
        exact gapless ⟨n, refused, ⟨m, .inl low, below⟩, native.sequence, .inr rfl, first ▸ above⟩
    · rintro ⟨gapless, free⟩ ⟨n, refused, ⟨m, low | rfl, below⟩, k, high | rfl, above⟩
      · exact gapless ⟨n, refused, ⟨m, low, below⟩, k, high, above⟩
      · exact free native delivers ⟨n, refused, ⟨m, low, below⟩, above⟩
      · have := later k high
        omega
      · omega

theorem step_gapless (processor : EventProcessor ObservedInputEvent σ) {observer : LiveObserver σ}
    (input : LiveStep) (h : Sound observer) :
    Gapless (observer.step processor input) ↔ Gapless observer ∧ GapFree observer input := by
  cases input with
  | callback message virtualKey flags lockFree =>
    rw [GapFree, and_true]
    exact callback_gapless h message virtualKey flags lockFree
  | poll lockFree => exact poll_gapless h processor lockFree
  | quit =>
    rw [GapFree, and_true]
    exact gapless_congr rfl rfl
  | messageError =>
    rw [GapFree, and_true, step]
    split
    · exact Iff.rfl
    · exact gapless_congr rfl rfl

end Losses

section Boundary

/-- Between two events that the processor gets in a row and that a refused one
came between, the processor is reset. -/
def ResetAcrossBridgeLoss (lost : List Nat) (log : List (ProcessorCall ObservedInputEvent)) : Prop :=
  ∀ (before : List (ProcessorCall ObservedInputEvent)) (a : ObservedInputEvent)
    (between : List (ProcessorCall ObservedInputEvent)) (b : ObservedInputEvent)
    (rest : List (ProcessorCall ObservedInputEvent)),
    log = before ++ .process a :: between ++ .process b :: rest →
    (∀ call ∈ between, call.processed? = none) →
    (∃ n ∈ lost, a.sequence.value < n ∧ n < b.sequence.value) → .reset ∈ between

theorem exists_neighbours {xs : List ObservedInputEvent} {n : Nat}
    (ordered : (xs.map fun event => event.sequence.value).Pairwise (· < ·))
    (apart : n ∉ xs.map fun event => event.sequence.value)
    (lower : ∃ a ∈ xs, a.sequence.value < n) (upper : ∃ b ∈ xs, n < b.sequence.value) :
    ∃ before a b rest, xs = before ++ a :: b :: rest ∧
      a.sequence.value < n ∧ n < b.sequence.value := by
  induction xs with
  | nil =>
    obtain ⟨a, mem, _⟩ := lower
    cases mem
  | cons head tail ih =>
    rw [List.map_cons, List.pairwise_cons] at ordered
    rw [List.map_cons, List.mem_cons, not_or] at apart
    have headBelow : head.sequence.value < n := by
      obtain ⟨a, mem, small⟩ := lower
      rcases List.mem_cons.mp mem with rfl | later
      · exact small
      · have := ordered.1 a.sequence.value (List.mem_map_of_mem later)
        omega
    obtain ⟨b, mem, large⟩ := upper
    rcases List.mem_cons.mp mem with rfl | inTail
    · omega
    cases tail with
    | nil => cases inTail
    | cons next more =>
      by_cases beyond : n < next.sequence.value
      · exact ⟨[], head, next, more, rfl, headBelow, beyond⟩
      · have nextBelow : next.sequence.value < n := by
          have other : n ≠ next.sequence.value := fun eq => apart.2 (by simp [eq])
          omega
        obtain ⟨before, a, b, rest, eq, below, above⟩ :=
          ih ordered.2 apart.2 ⟨next, List.mem_cons_self .., nextBelow⟩ ⟨b, inTail, large⟩
        exact ⟨head :: before, a, b, rest, by rw [eq]; rfl, below, above⟩

/-- Without resets the boundary is kept only where no refused event lies
between two delivered ones. -/
theorem Sound.reset_iff {observer : LiveObserver σ} (h : Sound observer) :
    ResetAcrossBridgeLoss observer.lost observer.state.1 ↔ Gapless observer := by
  have log : observer.state.1 =
      (observer.state.1.filterMap ProcessorCall.processed?).map ProcessorCall.process := by
    have none := h.no_reset
    generalize observer.state.1 = calls at none ⊢
    induction calls with
    | nil => rfl
    | cons call rest ih =>
      rw [List.mem_cons, not_or] at none
      cases call with
      | reset => exact (none.1 rfl).elim
      | process event =>
        rw [List.filterMap_cons]
        exact congrArg _ (ih none.2)
  have ordered : observer.delivered.Pairwise (· < ·) :=
    (List.pairwise_append.mp h.ordered).1
  constructor
  · rintro kept ⟨n, lost, ⟨m, low, below⟩, k, high, above⟩
    have apart : n ∉ observer.delivered := fun mem => h.apart n lost (List.mem_append_left _ mem)
    obtain ⟨a, memA, rfl⟩ := List.mem_map.mp low
    obtain ⟨b, memB, rfl⟩ := List.mem_map.mp high
    obtain ⟨before, a, b, rest, eq, small, large⟩ :=
      exists_neighbours ordered apart ⟨a, memA, below⟩ ⟨b, memB, above⟩
    have split : observer.state.1 = before.map ProcessorCall.process ++ .process a :: [] ++
        .process b :: rest.map ProcessorCall.process := by
      rw [log, eq]
      simp
    have reset := kept _ a [] b _ split (by simp) ⟨n, lost, small, large⟩
    cases reset
  · intro harmless before a between b rest split _ ⟨n, lost, small, large⟩
    refine (harmless ⟨n, lost, ⟨_, List.mem_map_of_mem (a := a) ?_, small⟩,
      _, List.mem_map_of_mem (a := b) ?_, large⟩).elim
    · rw [split]
      simp [ProcessorCall.processed?]
    · rw [split]
      simp [ProcessorCall.processed?]

/-- A run keeps the boundary exactly when no poll delivers an event across a refused one. -/
theorem bridge_loss_reset_iff (processor : EventProcessor ObservedInputEvent σ) (state : σ)
    (steps : List LiveStep) :
    let final := run (step processor) (start state) steps
    ResetAcrossBridgeLoss final.lost final.state.1 ↔
      AllSteps (step processor) GapFree (start state) steps := by
  intro final
  have sound : Sound final := run_keeps Sound (step_sound processor) (start_sound state) steps
  rw [sound.reset_iff, run_iff_allSteps Sound (step_sound processor)
    (fun _ input h => step_gapless processor input h) (start_sound state)]
  refine and_iff_right ?_
  rintro ⟨n, refused, _⟩
  cases refused

section Burst
variable {processor : EventProcessor ObservedInputEvent σ}

structure Live (observer : LiveObserver σ) : Prop where
  active : observer.bridge.active = true
  running : observer.service.isTerminal = false
  polling : observer.source.stopped = false

theorem deliver_live {observer : LiveObserver σ} (idle : observer.service.queue.events = [])
    (unmarked : observer.service.queue.discontinuityPending = false) (live : Live observer)
    (event : ObservedInputEvent) : Live (observer.deliver processor event) := by
  have room : ¬ 0 = observer.service.queue.capacity := Nat.ne_of_lt observer.service.queue.positive
  have status : (observer.deliver processor event).service.status = observer.service.status := by
    simp [deliver, ObserveService.receive, ObserveQueue.tryEnqueue, ObserveService.processOne,
      ObserveQueue.tryDequeue, idle, unmarked, room]
  have running := live.running
  refine ⟨live.active, ?_, live.polling⟩
  unfold ObserveService.isTerminal at running ⊢
  rw [status]
  exact running

theorem run_callbacks (message virtualKey flags : UInt32) (count : Nat) (observer : LiveObserver σ)
    (active : observer.bridge.active = true) (room : observer.bridge.events.length + count ≤ 256)
    (small : observer.bridge.sequence + count ≤ u64Max) :
    run (step processor) observer
        (List.replicate count (.callback message virtualKey flags true)) =
      { observer with bridge := { observer.bridge with
          sequence := observer.bridge.sequence + count
          events := observer.bridge.events ++ (List.range count).map fun k =>
            ⟨message, virtualKey, flags, observer.bridge.sequence + k + 1⟩ } } := by
  induction count generalizing observer with
  | zero => simp
  | succ count ih =>
    have next : observer.step processor (.callback message virtualKey flags true) =
        { observer with bridge := { observer.bridge with
            sequence := observer.bridge.sequence + 1
            events := observer.bridge.events ++
              [⟨message, virtualKey, flags, observer.bridge.sequence + 1⟩] } } := by
      have more : observer.bridge.sequence < u64Max := by omega
      have open_ : ¬ 256 ≤ observer.bridge.events.length := by omega
      simp [step, lowLevelKeyboardProc, active, checkedSucc, more, BridgeState.push, open_]
    rw [List.replicate_succ, run_cons, next, ih]
    · simp [List.range_succ_eq_map, Nat.add_comm, Nat.add_left_comm]
    · exact active
    · simp
      omega
    · simp
      omega

theorem poll_mapped {observer : LiveObserver σ} (h : Sound observer) (live : Live observer)
    {native : NativeKeyboardEvent} {rest : List NativeKeyboardEvent}
    (events : observer.bridge.events = native :: rest)
    (mapped : (mapNativeEvent native observer.source.tracker).isSome) :
    let next := observer.poll processor true
    Live next ∧ next.lost = observer.lost ∧
      next.bridge = { observer.bridge with events := rest } ∧
      next.delivered = observer.delivered ++ [native.sequence] := by
  have delivers : Delivers observer true native :=
    ⟨live.running, live.polling, rfl, by rw [events, List.head?_cons], mapped⟩
  have polled := poll_polled processor observer true
  generalize observer.poll processor true = next at polled ⊢
  cases polled with
  | quiet _ none => exact absurd delivers (none native)
  | exhausted _ none => exact absurd delivers (none native)
  | @delivered other others tracker event _ split mapped =>
    rw [events, List.cons.injEq] at split
    obtain ⟨rfl, rfl⟩ := split
    obtain ⟨bridge, lost, _, grown, _⟩ := @Sound.deliver_spec _ _ h processor _ rest _ _ mapped
    refine ⟨deliver_live ?_ ?_ ?_ event, lost, bridge, grown⟩
    · exact h.idle
    · exact h.unmarked
    · exact ⟨live.active, live.running, live.polling⟩

theorem callback_full {observer : LiveObserver σ} (message virtualKey flags : UInt32)
    (active : observer.bridge.active = true) (small : observer.bridge.sequence < u64Max)
    (full : 256 ≤ observer.bridge.events.length) :
    observer.lowLevelKeyboardProc message virtualKey flags true =
      { observer with
          bridge := { observer.bridge with
            sequence := observer.bridge.sequence + 1
            dropped := saturatingSucc observer.bridge.dropped }
          lost := observer.lost ++ [observer.bridge.sequence + 1] } := by
  simp [lowLevelKeyboardProc, active, checkedSucc, small, BridgeState.push, full]

theorem run_polls {queued : List NativeKeyboardEvent} {observer : LiveObserver σ}
    (h : Sound observer) (live : Live observer) (events : observer.bridge.events = queued)
    (mapped : ∀ native ∈ queued, ∀ tracker, (mapNativeEvent native tracker).isSome) :
    let after := run (step processor) observer (List.replicate queued.length (.poll true))
    Live after ∧ after.lost = observer.lost ∧ after.bridge = { observer.bridge with events := [] } ∧
      after.delivered = observer.delivered ++ queued.map NativeKeyboardEvent.sequence := by
  induction queued generalizing observer with
  | nil =>
    refine ⟨live, rfl, ?_, by simp⟩
    change observer.bridge = _
    rw [← events]
  | cons native rest ih =>
    obtain ⟨liveNext, lost, bridge, grown⟩ :=
      @poll_mapped _ processor _ h live _ _ events (mapped native List.mem_cons_self _)
    obtain ⟨liveAfter, lostAfter, bridgeAfter, grownAfter⟩ :=
      ih (poll_sound h processor true) liveNext (by rw [bridge])
        fun other isOther => mapped other (List.mem_cons_of_mem _ isOther)
    rw [List.length_cons, List.replicate_succ, run_cons]
    refine ⟨liveAfter, lostAfter.trans lost, ?_, ?_⟩
    · rw [step, bridgeAfter, bridge]
    · rw [step, grownAfter, grown, List.map_cons, List.append_assoc, List.singleton_append]

theorem gap_of_refused {queued : List NativeKeyboardEvent} {observer : LiveObserver σ}
    (h : Sound observer) (live : Live observer) (events : observer.bridge.events = queued)
    (mapped : ∀ native ∈ queued, ∀ tracker, (mapNativeEvent native tracker).isSome)
    (refused : observer.bridge.sequence ∈ observer.lost)
    (earlier : ∃ native ∈ queued, native.sequence < observer.bridge.sequence)
    (small : observer.bridge.sequence < u64Max) {message virtualKey flags : UInt32}
    (more : ∀ tracker, (mapNativeEvent
      ⟨message, virtualKey, flags, observer.bridge.sequence + 1⟩ tracker).isSome) :
    ¬ Gapless (run (step processor) observer (List.replicate queued.length (.poll true) ++
      List.replicate 1 (.callback message virtualKey flags true) ++ [.poll true])) := by
  obtain ⟨liveAfter, lost, bridge, delivered⟩ := @run_polls _ processor _ _ h live events mapped
  have sound := run_keeps Sound (step_sound processor) h
    (List.replicate queued.length (.poll true) ++
      List.replicate 1 (.callback message virtualKey flags true))
  rw [run_append, run_append] at *
  generalize run (step processor) observer _ = polled at *
  have none : polled.bridge.events = [] := by rw [bridge]
  have numbered : polled.bridge.sequence = observer.bridge.sequence := by rw [bridge]
  rw [run_callbacks _ _ _ 1 polled liveAfter.active (by simp [none])
    (by rw [numbered]; exact small)] at sound ⊢
  obtain ⟨_, lostLast, _, deliveredLast⟩ := @poll_mapped _ processor _ sound
    ⟨liveAfter.active, liveAfter.running, liveAfter.polling⟩
    ⟨message, virtualKey, flags, observer.bridge.sequence + 1⟩ [] (by simp [none, numbered]) (more _)
  obtain ⟨native, isQueued, before⟩ := earlier
  rw [run_cons, run_nil, step, Gapless, not_not, lostLast, deliveredLast]
  refine ⟨observer.bridge.sequence, lost ▸ refused, ⟨native.sequence, List.mem_append_left _ ?_, before⟩,
    observer.bridge.sequence + 1, List.mem_append_right _ (List.mem_singleton_self _),
    Nat.lt_succ_self _⟩
  change native.sequence ∈ polled.delivered
  rw [delivered]
  exact List.mem_append_right _ (List.mem_map_of_mem isQueued)

end Burst

def idleProcessor : EventProcessor ObservedInputEvent Unit := ⟨id, fun state _ => (state, .observed)⟩

theorem down_mapped {number : Nat} (counted : number ≠ 0) (tracker : ModifierTracker) :
    (mapNativeEvent ⟨0x0100, 0x41, 0, number⟩ tracker).isSome := by
  have key : (mapKey 0x41).isSome := by decide
  obtain ⟨letter, mapped⟩ := Option.isSome_iff_exists.mp key
  simp [mapNativeEvent, kindOf, mapped, EventSequence.new, counted, Except.toOption]

def flood : List LiveStep :=
  List.replicate 256 (.callback 0x0100 0x41 0 true) ++ [.callback 0x0100 0x41 0 true]

def burst : List LiveStep :=
  flood ++ (List.replicate 256 (.poll true) ++
    List.replicate 1 (.callback 0x0100 0x41 0 true) ++ [.poll true])

theorem run_flood :
    let after := run (step idleProcessor) (start ()) flood
    Live after ∧ after.lost = [257] ∧ after.bridge.sequence = 257 ∧
      after.bridge.events = (List.range 256).map fun k => ⟨0x0100, 0x41, 0, k + 1⟩ := by
  have filled := @run_callbacks _ idleProcessor 0x0100 0x41 0 256 (start ()) rfl (by decide)
    (by decide)
  have events : (start ()).bridge.events = [] := rfl
  have sequence : (start ()).bridge.sequence = 0 := rfl
  simp only [events, sequence, List.nil_append, Nat.zero_add] at filled
  rw [flood, run_append, filled, run_cons, run_nil, step,
    callback_full _ _ _ rfl (by decide) (by simp)]
  exact ⟨⟨rfl, rfl, rfl⟩, rfl, rfl, rfl⟩

theorem burst_gap : ¬ Gapless (run (step idleProcessor) (start ()) burst) := by
  obtain ⟨live, lost, sequence, events⟩ := run_flood
  have sound : Sound (run (step idleProcessor) (start ()) flood) :=
    run_keeps Sound (step_sound idleProcessor) (start_sound ()) flood
  have gap := @gap_of_refused _ idleProcessor _ _ sound live events
  rw [List.length_map, List.length_range, sequence, lost] at gap
  rw [burst, run_append]
  refine gap ?_ (List.mem_singleton_self 257) ?_ (by decide) (down_mapped (by decide))
  · intro native isQueued tracker
    obtain ⟨k, _, rfl⟩ := List.mem_map.mp isQueued
    exact down_mapped (Nat.succ_ne_zero k) tracker
  · exact ⟨⟨0x0100, 0x41, 0, 1⟩,
      List.mem_map.mpr ⟨0, List.mem_range.mpr (by decide), rfl⟩, by decide⟩

theorem burst_not_reset :
    ¬ ∀ (steps : List LiveStep),
      ResetAcrossBridgeLoss (run (step idleProcessor) (start ()) steps).lost
        (run (step idleProcessor) (start ()) steps).state.1 := by
  intro claim
  have sound := run_keeps Sound (step_sound idleProcessor) (start_sound ()) burst
  exact burst_gap (sound.reset_iff.mp (claim burst))

end Boundary

end LiveObserver
end ZonKey.Native

import Mathlib.Logic.Function.Iterate
import ZonKey.ObserveQueue

set_option autoImplicit false

namespace ZonKey.Observe
open Runs

variable {ε σ : Type}

inductive ProcessorClassification where
  | ignored
  | observed
  | boundaryObserved
  | unsupported
  | invalid
  deriving DecidableEq

structure EventProcessor (ε σ : Type) where
  resetAfterDiscontinuity : σ → σ
  process : σ → ε → σ × ProcessorClassification

/-- What the loop meets next: an answer of `next_event`, or a stop request
that is seen before the source is polled again. -/
inductive SourceStep (ε : Type) where
  | event (event : ε)
  | exhausted
  | failed (error : ObserverError)
  | stopRequested

/-- The counters, taken as unbounded. -/
structure AggregateReport where
  received : Nat := 0
  accepted : Nat := 0
  dropped : Nat := 0
  processed : Nat := 0
  discontinuities : Nat := 0
  sourceFailures : Nat := 0
  unsupportedEvents : Nat := 0
  invalidEvents : Nat := 0
  deriving DecidableEq

def AggregateReport.classified (report : AggregateReport) :
    ProcessorClassification → AggregateReport
  | .unsupported => { report with unsupportedEvents := report.unsupportedEvents + 1 }
  | .invalid => { report with invalidEvents := report.invalidEvents + 1 }
  | .ignored | .observed | .boundaryObserved => report

structure ObserveService (ε : Type) where
  queue : ObserveQueue ε
  status : ObserverStatus
  stopRequested : Bool
  report : AggregateReport

namespace ObserveService

def new (queue : ObserveQueue ε) : ObserveService ε := ⟨queue, .starting, false, {}⟩

def isTerminal (service : ObserveService ε) : Bool :=
  service.status = .stopped || service.status = .failed

def requestStop (service : ObserveService ε) : ObserveService ε :=
  if service.isTerminal then service else { service with stopRequested := true }

/-- Takes one event off the queue; the last component says whether there was one. -/
def processOne (processor : EventProcessor ε σ) (service : ObserveService ε) (state : σ) :
    ObserveService ε × σ × Bool :=
  match service.queue.tryDequeue with
  | (_, .empty) => (service, state, false)
  | (queue, .event dequeued) =>
    let report := service.report
    let (state, report) :=
      if dequeued.discontinuityBeforeEvent then
        (processor.resetAfterDiscontinuity state,
          { report with discontinuities := report.discontinuities + 1 })
      else (state, report)
    let report := { report with processed := report.processed + 1 }
    let (state, classification) := processor.process state dequeued.event
    ({ service with queue := queue, report := report.classified classification }, state, true)

def drain (processor : EventProcessor ε σ) :
    Nat → ObserveService ε → σ → ObserveService ε × σ
  | 0, service, state => (service, state)
  | fuel + 1, service, state =>
    match service.processOne processor state with
    | (service, state, true) => drain processor fuel service state
    | (service, state, false) => (service, state)

def finishGracefully (processor : EventProcessor ε σ) (service : ObserveService ε) (state : σ) :
    ObserveService ε × σ :=
  let (service, state) := drain processor (service.queue.events.length + 1)
    { service with status := .stopping } state
  ({ service with status := .stopped }, state)

def receive (service : ObserveService ε) (event : ε) : ObserveService ε :=
  let report := { service.report with received := service.report.received + 1 }
  match service.queue.tryEnqueue event with
  | (queue, .enqueued) =>
    { service with queue := queue, report := { report with accepted := report.accepted + 1 } }
  | (queue, .droppedFull) =>
    { service with queue := queue, report := { report with dropped := report.dropped + 1 } }

/-- The loop of `run`; the steps that were not taken are handed back. -/
def runLoop (processor : EventProcessor ε σ) :
    ObserveService ε → σ → List (SourceStep ε) → ObserveService ε × σ × List (SourceStep ε)
  | service, state, [] =>
    let (service, state) := service.finishGracefully processor state
    (service, state, [])
  | service, state, step :: rest =>
    if service.stopRequested then
      let (service, state) := service.finishGracefully processor state
      (service, state, step :: rest)
    else
      match step with
      | .event event =>
        let (service, state, _) := (service.receive event).processOne processor state
        runLoop processor service state rest
      | .exhausted =>
        let (service, state) := service.finishGracefully processor state
        (service, state, rest)
      | .failed _ =>
        ({ service with
            status := .failed
            report := { service.report with sourceFailures := service.report.sourceFailures + 1 } },
          state, rest)
      | .stopRequested => runLoop processor service.requestStop state rest

def run (processor : EventProcessor ε σ) (service : ObserveService ε) (state : σ)
    (steps : List (SourceStep ε)) : ObserveService ε × σ × List (SourceStep ε) :=
  if service.isTerminal then (service, state, steps)
  else runLoop processor { service with status := .running } state steps

end ObserveService

inductive ProcessorCall (ε : Type) where
  | reset
  | process (event : ε)
  deriving DecidableEq

def ProcessorCall.processed? : ProcessorCall ε → Option ε
  | reset => none
  | process event => some event

namespace EventProcessor

def call (processor : EventProcessor ε σ) (state : σ) : ProcessorCall ε → σ
  | .reset => processor.resetAfterDiscontinuity state
  | .process event => (processor.process state event).1

def recorded (processor : EventProcessor ε σ) : EventProcessor ε (List (ProcessorCall ε) × σ) where
  resetAfterDiscontinuity
    | (log, state) => (log ++ [.reset], processor.resetAfterDiscontinuity state)
  process
    | (log, state), event =>
      let (state, classification) := processor.process state event
      ((log ++ [.process event], state), classification)

theorem recorded_call (processor : EventProcessor ε σ) (log : List (ProcessorCall ε)) (state : σ)
    (call : ProcessorCall ε) :
    processor.recorded.call (log, state) call = (log ++ [call], processor.call state call) := by
  cases call <;> rfl

theorem recorded_calls (processor : EventProcessor ε σ) (log : List (ProcessorCall ε)) (state : σ)
    (calls : List (ProcessorCall ε)) :
    calls.foldl processor.recorded.call (log, state) =
      (log ++ calls, calls.foldl processor.call state) := by
  induction calls generalizing log state with
  | nil => simp
  | cons call calls ih => rw [List.foldl_cons, recorded_call, ih]; simp

end EventProcessor

def QueueRecord.processorCalls : QueueRecord ε → List (ProcessorCall ε)
  | .dequeued d => (if d.discontinuityBeforeEvent then [.reset] else []) ++ [.process d.event]
  | .enqueued _ | .droppedFull _ | .empty => []

namespace ObserveService

section Follows
variable {processor : EventProcessor ε σ}

/-- The service and its processor after some queue calls, in terms of what
those calls answered. -/
structure Follows (processor : EventProcessor ε σ) (service : ObserveService ε) (state : σ)
    (ops : List (QueueOp ε)) (next : ObserveService ε) (nextState : σ) : Prop where
  queue : next.queue = service.queue.after ops
  state : nextState =
    ((service.queue.history ops).flatMap QueueRecord.processorCalls).foldl processor.call state
  accepted : next.report.accepted =
    service.report.accepted + ((service.queue.history ops).filterMap QueueRecord.accepted?).length
  dropped : next.report.dropped =
    service.report.dropped + (service.queue.history ops).countP QueueRecord.isDropped
  processed : next.report.processed =
    service.report.processed + ((service.queue.history ops).filterMap QueueRecord.dequeued?).length

theorem Follows.refl (service : ObserveService ε) (state : σ) :
    Follows processor service state [] service state :=
  ⟨rfl, rfl, rfl, rfl, rfl⟩

theorem Follows.trans {a b c : ObserveService ε} {s t u : σ} {xs ys : List (QueueOp ε)}
    (first : Follows processor a s xs b t) (second : Follows processor b t ys c u) :
    Follows processor a s (xs ++ ys) c u := by
  have queue := first.queue
  constructor
  · rw [second.queue, queue, ObserveQueue.after_append]
  · rw [second.state, first.state, queue, ObserveQueue.history_append, List.flatMap_append,
      List.foldl_append]
  · rw [second.accepted, first.accepted, queue, ObserveQueue.history_append,
      List.filterMap_append, List.length_append, Nat.add_assoc]
  · rw [second.dropped, first.dropped, queue, ObserveQueue.history_append, List.countP_append,
      Nat.add_assoc]
  · rw [second.processed, first.processed, queue, ObserveQueue.history_append,
      List.filterMap_append, List.length_append, Nat.add_assoc]

theorem Follows.congr {a a' b b' : ObserveService ε} {s t : σ} {ops : List (QueueOp ε)}
    (h : Follows processor a s ops b t) (queue : a'.queue = a.queue)
    (report : a'.report = a.report) (queue' : b'.queue = b.queue)
    (accepted : b'.report.accepted = b.report.accepted)
    (dropped : b'.report.dropped = b.report.dropped)
    (processed : b'.report.processed = b.report.processed) : Follows processor a' s ops b' t := by
  constructor
  · rw [queue', queue, h.queue]
  · rw [queue, h.state]
  · rw [accepted, queue, report, h.accepted]
  · rw [dropped, queue, report, h.dropped]
  · rw [processed, queue, report, h.processed]

/-- What `processOne` leaves alone. -/
structure SameLoop (service next : ObserveService ε) : Prop where
  status : next.status = service.status
  stopRequested : next.stopRequested = service.stopRequested
  received : next.report.received = service.report.received

theorem classified_counts (report : AggregateReport) (classification : ProcessorClassification) :
    (report.classified classification).received = report.received ∧
    (report.classified classification).accepted = report.accepted ∧
    (report.classified classification).dropped = report.dropped ∧
    (report.classified classification).processed = report.processed := by
  cases classification <;> exact ⟨rfl, rfl, rfl, rfl⟩

theorem processOne_nil {service : ObserveService ε} (none : service.queue.events = [])
    (state : σ) : service.processOne processor state = (service, state, false) := by
  simp [processOne, ObserveQueue.tryDequeue, none]

variable (processor) in
theorem processOne_cons {service : ObserveService ε} {event : ε} {rest : List ε}
    (events : service.queue.events = event :: rest) (state : σ) :
    (service.processOne processor state).2.2 = true ∧
    Follows processor service state [.tryDequeue] (service.processOne processor state).1
      (service.processOne processor state).2.1 ∧
    SameLoop service (service.processOne processor state).1 ∧
    (service.processOne processor state).1.queue.events = rest := by
  have record : service.queue.history [.tryDequeue] =
      [.dequeued ⟨event, service.queue.discontinuityPending⟩] := by
    simp [ObserveQueue.history, ObserveQueue.perform, ObserveQueue.tryDequeue, events]
  cases pending : service.queue.discontinuityPending with
  | false =>
    refine ⟨?_, ⟨?_, ?_, ?_, ?_, ?_⟩, ⟨?_, ?_, ?_⟩, ?_⟩ <;>
      simp [processOne, ObserveQueue.tryDequeue, events, pending, record, classified_counts,
        QueueRecord.processorCalls, EventProcessor.call, ObserveQueue.perform, List.filterMap_cons]
  | true =>
    refine ⟨?_, ⟨?_, ?_, ?_, ?_, ?_⟩, ⟨?_, ?_, ?_⟩, ?_⟩ <;>
      simp [processOne, ObserveQueue.tryDequeue, events, pending, record, classified_counts,
        QueueRecord.processorCalls, EventProcessor.call, ObserveQueue.perform, List.filterMap_cons]

variable (processor) in
theorem receive_follows (service : ObserveService ε) (state : σ) (event : ε) :
    Follows processor service state [.tryEnqueue event] (service.receive event) state ∧
      (service.receive event).report.received = service.report.received + 1 ∧
      (service.receive event).status = service.status ∧
      (service.receive event).stopRequested = service.stopRequested := by
  by_cases full : service.queue.events.length = service.queue.capacity
  · refine ⟨⟨?_, ?_, ?_, ?_, ?_⟩, ?_, ?_, ?_⟩ <;>
      simp [receive, ObserveQueue.tryEnqueue, ObserveQueue.history, ObserveQueue.perform, full,
        QueueRecord.processorCalls, List.filterMap_cons]
  · refine ⟨⟨?_, ?_, ?_, ?_, ?_⟩, ?_, ?_, ?_⟩ <;>
      simp [receive, ObserveQueue.tryEnqueue, ObserveQueue.history, ObserveQueue.perform, full,
        QueueRecord.processorCalls, List.filterMap_cons]

variable (processor) in
theorem drain_follows (service : ObserveService ε) (state : σ) :
    ∃ next nextState,
      drain processor (service.queue.events.length + 1) service state = (next, nextState) ∧
      Follows processor service state (List.replicate service.queue.events.length .tryDequeue)
        next nextState ∧ SameLoop service next ∧ next.queue.events = [] := by
  generalize count : service.queue.events.length = n
  induction n generalizing service state with
  | zero =>
    have none := List.length_eq_zero_iff.mp count
    refine ⟨service, state, ?_, .refl service state, ⟨rfl, rfl, rfl⟩, none⟩
    simp [drain, processOne_nil none]
  | succ n ih =>
    obtain ⟨event, rest, events⟩ := List.exists_cons_of_length_eq_add_one count
    obtain ⟨more, first, same, left⟩ := processOne_cons processor events state
    generalize eq : service.processOne processor state = result at more first same left
    obtain ⟨middle, middleState, flag⟩ := result
    dsimp only at more first same left
    have shorter : middle.queue.events.length = n := by
      rw [events, List.length_cons] at count
      rw [left]
      omega
    obtain ⟨next, nextState, drained, second, sameRest, none⟩ := ih middle middleState shorter
    refine ⟨next, nextState, ?_, first.trans second, ?_, none⟩
    · rw [drain, eq, more]
      exact drained
    · exact ⟨sameRest.status.trans same.status, sameRest.stopRequested.trans same.stopRequested,
        sameRest.received.trans same.received⟩

variable (processor) in
theorem finishGracefully_follows (service : ObserveService ε) (state : σ) :
    Follows processor service state (List.replicate service.queue.events.length .tryDequeue)
      (service.finishGracefully processor state).1 (service.finishGracefully processor state).2 ∧
    (service.finishGracefully processor state).1.status = .stopped ∧
    (service.finishGracefully processor state).1.queue.events = [] ∧
    (service.finishGracefully processor state).1.report.received = service.report.received := by
  obtain ⟨next, nextState, drained, follows, same, none⟩ :=
    drain_follows processor { service with status := .stopping } state
  have eq : service.finishGracefully processor state =
      ({ next with status := .stopped }, nextState) := by
    rw [finishGracefully, drained]
  rw [eq]
  exact ⟨follows.congr rfl rfl rfl rfl rfl rfl, rfl, none, same.received⟩

end Follows

section Loop
variable {processor : EventProcessor ε σ}

/-- The queue calls of one run. -/
def calls : Bool → ObserveQueue ε → List (SourceStep ε) → List (QueueOp ε)
  | false, queue, .event event :: rest =>
    .tryEnqueue event :: .tryDequeue ::
      calls false (queue.after [.tryEnqueue event, .tryDequeue]) rest
  | false, _, .failed _ :: _ => []
  | _, queue, _ => List.replicate queue.events.length .tryDequeue

def polled : Bool → List (SourceStep ε) → List ε
  | false, .event event :: rest => event :: polled false rest
  | _, _ => []

def failing : Bool → List (SourceStep ε) → Bool
  | false, .event _ :: rest => failing false rest
  | false, .failed _ :: _ => true
  | _, _ => false

theorem calls_stopped (queue : ObserveQueue ε) (steps : List (SourceStep ε)) :
    calls true queue steps = List.replicate queue.events.length .tryDequeue := by
  cases steps <;> rfl

theorem events_after_tryEnqueue (queue : ObserveQueue ε) (event : ε) :
    ∃ first rest, (queue.after [.tryEnqueue event]).events = first :: rest ∧
      rest.length < queue.capacity ∧ (queue.after [.tryEnqueue event]).capacity = queue.capacity := by
  have bounded := queue.bounded
  have positive := queue.positive
  have step := queue.perform_performed (.tryEnqueue event)
  rw [ObserveQueue.after_cons, ObserveQueue.after_nil]
  generalize (queue.perform (.tryEnqueue event)).1 = next,
    (queue.perform (.tryEnqueue event)).2 = record at step ⊢
  cases step with
  | enqueued _ _ room events capacity =>
    cases queued : queue.events with
    | nil => exact ⟨event, [], by rw [events, queued]; rfl, by simpa using positive, capacity⟩
    | cons first rest =>
      refine ⟨first, rest ++ [event], by rw [events, queued]; rfl, ?_, capacity⟩
      rw [queued, List.length_cons] at room
      rw [List.length_append, List.length_singleton]
      omega
  | droppedFull _ _ full events capacity =>
    cases queued : queue.events with
    | nil =>
      rw [queued, List.length_nil] at full
      omega
    | cons first rest =>
      refine ⟨first, rest, by rw [events, queued], ?_, capacity⟩
      rw [queued, List.length_cons] at full
      omega

structure Ended (failing : Bool) (next : ObserveService ε) : Prop where
  failed : failing = true → next.status = .failed
  stopped : failing = false → next.status = .stopped ∧ next.queue.events = []

variable (processor) in
theorem finishGracefully_ended (service : ObserveService ε) (state : σ) :
    Ended false (service.finishGracefully processor state).1 := by
  obtain ⟨_, status, none, _⟩ := finishGracefully_follows processor service state
  exact ⟨fun h => (Bool.false_ne_true h).elim, fun _ => ⟨status, none⟩⟩

variable (processor) in
theorem runLoop_follows (service : ObserveService ε) (state : σ) (steps : List (SourceStep ε))
    (alive : service.isTerminal = false) :
    Follows processor service state (calls service.stopRequested service.queue steps)
      (service.runLoop processor state steps).1 (service.runLoop processor state steps).2.1 ∧
    Ended (failing service.stopRequested steps) (service.runLoop processor state steps).1 ∧
    (service.runLoop processor state steps).1.report.received =
      service.report.received + (polled service.stopRequested steps).length := by
  induction steps generalizing service state with
  | nil =>
    obtain ⟨follows, _, _, received⟩ :=
      finishGracefully_follows processor service state
    have ended := finishGracefully_ended processor service state
    cases service.stopRequested <;> exact ⟨follows, ended, received⟩
  | cons step rest ih =>
    obtain ⟨follows, _, _, received⟩ :=
      finishGracefully_follows processor service state
    have ended := finishGracefully_ended processor service state
    unfold runLoop
    cases stop : service.stopRequested with
    | true =>
      rw [if_pos rfl, calls_stopped]
      exact ⟨follows, ended, received⟩
    | false =>
      rw [if_neg Bool.false_ne_true]
      cases step with
      | event event =>
        obtain ⟨first, count, status, stopped⟩ :=
          receive_follows processor service state event
        obtain ⟨oldest, others, events, _⟩ := events_after_tryEnqueue service.queue event
        rw [← first.queue] at events
        obtain ⟨_, second, same, _⟩ := processOne_cons processor events state
        have both := first.trans second
        have stillAlive :
            ((service.receive event).processOne processor state).1.isTerminal = false := by
          rw [isTerminal, same.status, status]
          exact alive
        obtain ⟨later, ending, total⟩ :=
          ih _ ((service.receive event).processOne processor state).2.1 stillAlive
        rw [same.stopRequested, stopped, stop] at later ending total
        rw [both.queue] at later
        refine ⟨both.trans later, ending, ?_⟩
        rw [total, same.received, count]
        simp only [polled, List.length_cons]
        omega
      | exhausted => exact ⟨follows, ended, received⟩
      | failed error =>
        exact ⟨(Follows.refl service state).congr rfl rfl rfl rfl rfl rfl,
          ⟨fun _ => rfl, fun h => (Bool.false_ne_true h.symm).elim⟩, rfl⟩
      | stopRequested =>
        have eq : service.requestStop = { service with stopRequested := true } := by
          rw [requestStop, if_neg (by rw [alive]; exact Bool.false_ne_true)]
        have next := ih service.requestStop state (by rw [eq]; exact alive)
        rw [eq, calls_stopped] at next
        rw [eq]
        obtain ⟨later, ending, total⟩ := next
        refine ⟨later.congr rfl rfl rfl rfl rfl rfl, ?_, ?_⟩
        · cases rest <;> exact ending
        · rw [total]
          cases rest <;> rfl

end Loop

section Calls

theorem turn_history (queue : ObserveQueue ε) (event : ε) :
    ∃ arrival d, queue.history [.tryEnqueue event, .tryDequeue] = [arrival, .dequeued d] ∧
      (arrival = .enqueued event ∨
        arrival = .droppedFull event ∧ queue.events.length = queue.capacity) ∧
      (queue.after [.tryEnqueue event, .tryDequeue]).events.length <
        (queue.after [.tryEnqueue event, .tryDequeue]).capacity := by
  obtain ⟨first, rest, events, room, capacity⟩ := events_after_tryEnqueue queue event
  have arrived := queue.perform_performed (.tryEnqueue event)
  have taken := (queue.after [.tryEnqueue event]).perform_performed .tryDequeue
  simp only [ObserveQueue.after_cons, ObserveQueue.after_nil] at events capacity taken
  simp only [ObserveQueue.history, ObserveQueue.after_cons, ObserveQueue.after_nil]
  generalize (queue.perform (.tryEnqueue event)).1 = middle,
    (queue.perform (.tryEnqueue event)).2 = arrival at arrived events capacity taken ⊢
  generalize (middle.perform .tryDequeue).1 = next,
    (middle.perform .tryDequeue).2 = record at taken ⊢
  cases taken with
  | dequeued oldest _ queued kept =>
    rw [events, List.cons.injEq] at queued
    refine ⟨arrival, _, rfl, ?_, ?_⟩
    · cases arrived with
      | enqueued => exact .inl rfl
      | droppedFull _ _ full => exact .inr ⟨rfl, full⟩
    · rw [← queued.2, kept, capacity]
      exact room
  | empty none =>
    rw [events] at none
    cases none

theorem history_calls_event (queue : ObserveQueue ε) (event : ε) (rest : List (SourceStep ε)) :
    queue.history (calls false queue (.event event :: rest)) =
      queue.history [.tryEnqueue event, .tryDequeue] ++
        (queue.after [.tryEnqueue event, .tryDequeue]).history
          (calls false (queue.after [.tryEnqueue event, .tryDequeue]) rest) := by
  rw [← ObserveQueue.history_append]
  rfl

theorem history_dequeues (queue : ObserveQueue ε) (n : Nat) :
    (queue.history (List.replicate n .tryDequeue)).filterMap QueueRecord.accepted? = [] ∧
      (queue.history (List.replicate n .tryDequeue)).countP QueueRecord.isDropped = 0 := by
  induction n generalizing queue with
  | zero => exact ⟨rfl, rfl⟩
  | succ n ih =>
    have step := queue.perform_performed .tryDequeue
    have rest := ih (queue.perform .tryDequeue).1
    rw [List.replicate_succ, ObserveQueue.history]
    generalize (queue.perform .tryDequeue).1 = next,
      (queue.perform .tryDequeue).2 = record at step rest ⊢
    cases step with
    | dequeued | empty => simpa [List.filterMap_cons] using rest

/-- What the calls of a run say about arrivals: every polled event is accepted
or lost, and only the first one can be lost, by a queue that was full. -/
theorem calls_arrivals (stopped : Bool) (queue : ObserveQueue ε) (steps : List (SourceStep ε)) :
    ((queue.history (calls stopped queue steps)).filterMap QueueRecord.accepted?).Sublist
      (polled stopped steps) ∧
    (polled stopped steps).length =
      ((queue.history (calls stopped queue steps)).filterMap QueueRecord.accepted?).length +
        (queue.history (calls stopped queue steps)).countP QueueRecord.isDropped ∧
    (queue.history (calls stopped queue steps)).countP QueueRecord.isDropped ≤
      if queue.events.length = queue.capacity then 1 else 0 := by
  induction steps generalizing stopped queue with
  | nil =>
    obtain ⟨accepted, dropped⟩ := history_dequeues queue queue.events.length
    cases stopped <;> simp [calls, polled, accepted, dropped]
  | cons step rest ih =>
    obtain ⟨accepted, dropped⟩ := history_dequeues queue queue.events.length
    cases stopped with
    | true => simp [calls, polled, accepted, dropped]
    | false =>
      cases step with
      | exhausted | stopRequested => simp [calls, polled, accepted, dropped]
      | failed => simp [calls, polled]
      | event event =>
        obtain ⟨arrival, d, turn, outcome, room⟩ := turn_history queue event
        obtain ⟨sublist, count, lost⟩ := ih false (queue.after [.tryEnqueue event, .tryDequeue])
        rw [if_neg (Nat.ne_of_lt room)] at lost
        rw [history_calls_event, turn, polled]
        rcases outcome with rfl | ⟨rfl, full⟩
        · simp only [List.cons_append, List.nil_append, List.filterMap_cons, List.countP_cons,
            QueueRecord.accepted?, QueueRecord.isDropped, List.length_cons, Bool.false_eq_true,
            if_false, List.cons_sublist_cons]
          exact ⟨sublist, by omega, by omega⟩
        · simp only [List.cons_append, List.nil_append, List.filterMap_cons, List.countP_cons,
            QueueRecord.accepted?, QueueRecord.isDropped, List.length_cons, Bool.false_eq_true,
            if_false, if_true, if_pos full]
          exact ⟨sublist.cons event, by omega, by omega⟩

theorem calls_failing (stopped : Bool) (queue : ObserveQueue ε) (steps : List (SourceStep ε))
    (fails : failing stopped steps = true) :
    ((queue.history (calls stopped queue steps)).filterMap QueueRecord.dequeued?).length =
      (polled stopped steps).length := by
  induction steps generalizing stopped queue with
  | nil => cases stopped <;> cases fails
  | cons step rest ih =>
    cases stopped with
    | true => cases fails
    | false =>
      cases step with
      | exhausted | stopRequested => cases fails
      | failed => rfl
      | event event =>
        obtain ⟨arrival, d, turn, outcome, room⟩ := turn_history queue event
        have later := ih false (queue.after [.tryEnqueue event, .tryDequeue]) fails
        rw [history_calls_event, turn, polled]
        rcases outcome with rfl | ⟨rfl, full⟩ <;>
          simpa [List.filterMap_cons] using later

end Calls

section Conservation
variable {processor : EventProcessor ε σ}

structure Conserved (queue : ObserveQueue ε) (polled accepted processed : List ε) (failing : Bool)
    (final : ObserveService ε) : Prop where
  polled_count : final.report.received = polled.length
  from_source : accepted.Sublist polled
  accepted_count : final.report.accepted = accepted.length
  received_eq : final.report.received = final.report.accepted + final.report.dropped
  processed_count : final.report.processed = processed.length
  is_prefix : processed <+: queue.events ++ accepted
  in_order : processed ++ final.queue.events = queue.events ++ accepted
  balance : queue.events.length + final.report.accepted =
    final.report.processed + final.queue.events.length
  one_loss : final.report.dropped ≤ 1
  loss_of_full : 0 < final.report.dropped → queue.events.length = queue.capacity
  failed : failing = true → final.status = .failed ∧ final.report.processed = polled.length
  stopped : failing = false → final.status = .stopped ∧ final.queue.events = []

theorem processed_calls (records : List (QueueRecord ε)) :
    (records.flatMap QueueRecord.processorCalls).filterMap ProcessorCall.processed? =
      records.filterMap QueueRecord.dequeued? := by
  induction records with
  | nil => rfl
  | cons record rest ih =>
    rw [List.flatMap_cons, List.filterMap_append, ih]
    cases record with
    | enqueued | droppedFull | empty => rfl
    | dequeued d =>
      cases marked : d.discontinuityBeforeEvent <;>
        simp [QueueRecord.processorCalls, marked, ProcessorCall.processed?, List.filterMap_cons]

theorem requestStop_iterate (queue : ObserveQueue ε) (stops : Nat) :
    requestStop^[stops] (new queue) = { new queue with stopRequested := decide (0 < stops) } := by
  induction stops with
  | zero => rfl
  | succ n ih =>
    rw [Function.iterate_succ_apply', ih]
    rfl

variable (processor) in
/-- The queue calls of a run account for its report and its processor. -/
theorem run_follows (queue : ObserveQueue ε) (stops : Nat) (state : σ)
    (steps : List (SourceStep ε)) :
    let start := requestStop^[stops] (new queue)
    Follows processor (new queue) state (calls (decide (0 < stops)) queue steps)
      (start.run processor state steps).1 (start.run processor state steps).2.1 ∧
    Ended (failing (decide (0 < stops)) steps) (start.run processor state steps).1 ∧
    (start.run processor state steps).1.report.received =
      (polled (decide (0 < stops)) steps).length := by
  intro start
  have eq : start = { new queue with stopRequested := decide (0 < stops) } :=
    requestStop_iterate queue stops
  obtain ⟨follows, ended, received⟩ := runLoop_follows processor
    { start with status := .running } state steps rfl
  have unfolded : start.run processor state steps =
      runLoop processor { start with status := .running } state steps := by
    rw [run, if_neg (by rw [eq]; exact Bool.false_ne_true)]
  rw [unfolded]
  rw [eq] at follows ended received ⊢
  refine ⟨follows.congr rfl rfl rfl rfl rfl rfl, ended, ?_⟩
  rw [received]
  exact Nat.zero_add _

theorem Ended.isTerminal {failing : Bool} {next : ObserveService ε} (h : Ended failing next) :
    next.isTerminal = true := by
  cases failing with
  | true => simp [ObserveService.isTerminal, h.failed rfl]
  | false => simp [ObserveService.isTerminal, (h.stopped rfl).1]

theorem run_terminal {service : ObserveService ε} (terminal : service.isTerminal = true)
    (state : σ) (steps : List (SourceStep ε)) :
    service.run processor state steps = (service, state, steps) := by
  rw [run, if_pos terminal]

theorem requestStop_terminal {service : ObserveService ε} (terminal : service.isTerminal = true) :
    service.requestStop = service := by
  rw [requestStop, if_pos terminal]

section Recording

theorem processOne_recorded (processor : EventProcessor ε σ) (service : ObserveService ε)
    (log : List (ProcessorCall ε)) (state : σ) :
    ∃ later, service.processOne processor.recorded (log, state) =
      ((service.processOne processor state).1,
        (later, (service.processOne processor state).2.1), (service.processOne processor state).2.2) := by
  cases events : service.queue.events with
  | nil => exact ⟨log, by rw [processOne_nil events, processOne_nil events]⟩
  | cons event rest =>
    cases pending : service.queue.discontinuityPending with
    | false =>
      refine ⟨log ++ [.process event], ?_⟩
      simp [processOne, ObserveQueue.tryDequeue, events, pending, EventProcessor.recorded]
    | true =>
      refine ⟨log ++ [.reset] ++ [.process event], ?_⟩
      simp [processOne, ObserveQueue.tryDequeue, events, pending, EventProcessor.recorded]

theorem drain_recorded (processor : EventProcessor ε σ) (fuel : Nat) (service : ObserveService ε)
    (log : List (ProcessorCall ε)) (state : σ) :
    ∃ later, drain processor.recorded fuel service (log, state) =
      ((drain processor fuel service state).1, (later, (drain processor fuel service state).2)) := by
  induction fuel generalizing service log state with
  | zero => exact ⟨log, rfl⟩
  | succ fuel ih =>
    obtain ⟨middle, eq⟩ := processOne_recorded processor service log state
    simp only [drain, eq]
    obtain ⟨next, nextState, more⟩ := service.processOne processor state
    cases more with
    | true => exact ih next middle nextState
    | false => exact ⟨middle, rfl⟩

theorem finishGracefully_recorded (processor : EventProcessor ε σ) (service : ObserveService ε)
    (log : List (ProcessorCall ε)) (state : σ) :
    ∃ later, service.finishGracefully processor.recorded (log, state) =
      ((service.finishGracefully processor state).1,
        (later, (service.finishGracefully processor state).2)) := by
  obtain ⟨later, eq⟩ := drain_recorded processor (service.queue.events.length + 1)
    { service with status := .stopping } log state
  exact ⟨later, by simp only [finishGracefully, eq]⟩

theorem runLoop_recorded (processor : EventProcessor ε σ) (service : ObserveService ε)
    (log : List (ProcessorCall ε)) (state : σ) (steps : List (SourceStep ε)) :
    ∃ later, service.runLoop processor.recorded (log, state) steps =
      ((service.runLoop processor state steps).1,
        (later, (service.runLoop processor state steps).2.1),
        (service.runLoop processor state steps).2.2) := by
  induction steps generalizing service log state with
  | nil =>
    obtain ⟨later, eq⟩ := finishGracefully_recorded processor service log state
    exact ⟨later, by simp only [runLoop, eq]⟩
  | cons step rest ih =>
    obtain ⟨later, eq⟩ := finishGracefully_recorded processor service log state
    unfold runLoop
    split
    · exact ⟨later, by simp only [eq]⟩
    · cases step with
      | event event =>
        obtain ⟨middle, turn⟩ := processOne_recorded processor (service.receive event) log state
        simp only [turn]
        exact ih _ _ _
      | exhausted => exact ⟨later, by simp only [eq]⟩
      | failed error => exact ⟨log, rfl⟩
      | stopRequested => exact ih _ _ _

theorem run_recorded (processor : EventProcessor ε σ) (service : ObserveService ε)
    (log : List (ProcessorCall ε)) (state : σ) (steps : List (SourceStep ε)) :
    ∃ later, service.run processor.recorded (log, state) steps =
      ((service.run processor state steps).1,
        (later, (service.run processor state steps).2.1), (service.run processor state steps).2.2) := by
  unfold run
  split
  · exact ⟨log, rfl⟩
  · exact runLoop_recorded processor _ log state steps

end Recording

/-- A run of the service, after any number of stop requests, conserves its
events and drains its queue, and the service is inert from then on. -/
theorem run_conserves (processor : EventProcessor ε σ) (queue : ObserveQueue ε) (stops : Nat)
    (state : σ) (steps : List (SourceStep ε)) :
    let outcome := (requestStop^[stops] (new queue)).run processor.recorded ([], state) steps
    let stopped := decide (0 < stops)
    (∃ accepted, Conserved queue (polled stopped steps) accepted
      (outcome.2.1.1.filterMap ProcessorCall.processed?) (failing stopped steps) outcome.1) ∧
    outcome.1.requestStop = outcome.1 ∧
    ∀ {τ : Type} (other : EventProcessor ε τ) (t : τ) (more : List (SourceStep ε)),
      outcome.1.run other t more = (outcome.1, t, more) := by
  intro outcome stopped
  obtain ⟨follows, ended, received⟩ :=
    run_follows processor.recorded queue stops ([], state) steps
  obtain ⟨sublist, count, lost⟩ := calls_arrivals stopped queue steps
  have fifo := queue.history_fifo (calls stopped queue steps)
  have final := follows.queue
  have log : outcome.2.1.1 =
      (queue.history (calls stopped queue steps)).flatMap QueueRecord.processorCalls := by
    have state := follows.state
    rw [EventProcessor.recorded_calls, List.nil_append] at state
    exact congrArg Prod.fst state
  have accepted : outcome.1.report.accepted =
      ((queue.history (calls stopped queue steps)).filterMap QueueRecord.accepted?).length :=
    follows.accepted.trans (Nat.zero_add _)
  have dropped : outcome.1.report.dropped =
      (queue.history (calls stopped queue steps)).countP QueueRecord.isDropped :=
    follows.dropped.trans (Nat.zero_add _)
  have processed : outcome.1.report.processed =
      ((queue.history (calls stopped queue steps)).filterMap QueueRecord.dequeued?).length :=
    follows.processed.trans (Nat.zero_add _)
  have order : outcome.2.1.1.filterMap ProcessorCall.processed? ++ outcome.1.queue.events =
      queue.events ++ (queue.history (calls stopped queue steps)).filterMap QueueRecord.accepted? := by
    rw [log, processed_calls, fifo]
    exact congrArg _ (congrArg _ final)
  have processed_count : outcome.1.report.processed =
      (outcome.2.1.1.filterMap ProcessorCall.processed?).length := by
    rw [log, processed_calls]
    exact processed
  refine ⟨⟨(queue.history (calls stopped queue steps)).filterMap QueueRecord.accepted?, ?_⟩,
    requestStop_terminal ended.isTerminal, fun other t more => run_terminal ended.isTerminal t more⟩
  constructor
  · exact received
  · exact sublist
  · exact accepted
  · rw [accepted, dropped]
    exact received.trans count
  · exact processed_count
  · exact ⟨_, order⟩
  · exact order
  · have lengths := congrArg List.length order
    rw [List.length_append, List.length_append] at lengths
    rw [accepted, processed_count]
    omega
  · rw [dropped]
    split at lost <;> omega
  · intro some
    rw [dropped] at some
    by_contra notFull
    rw [if_neg notFull] at lost
    omega
  · intro fails
    refine ⟨ended.failed fails, ?_⟩
    rw [processed]
    exact calls_failing stopped queue steps fails
  · exact ended.stopped

end Conservation

section Loss

/-- The second of two events dequeued in a row is marked if one that arrived
between them was lost. -/
def ResetAcrossLoss (records : List (QueueRecord (Nat × ε))) : Prop :=
  ∀ (before : List (QueueRecord (Nat × ε))) (a : DequeuedEvent (Nat × ε))
    (quiet : List (QueueRecord (Nat × ε))) (b : DequeuedEvent (Nat × ε))
    (rest : List (QueueRecord (Nat × ε))),
    records = before ++ .dequeued a :: quiet ++ .dequeued b :: rest →
    (∀ record ∈ quiet, record.isDequeued = false) →
    (∃ lost, .droppedFull lost ∈ records ∧ a.event.1 < lost.1 ∧ lost.1 < b.event.1) →
    b.discontinuityBeforeEvent = true

/-- The second of two events dequeued in a row is marked exactly if something
was lost between the two dequeues. If one that arrived between them was lost
before, the mark is on the first event dequeued after the loss, which is the
first of the two or was queued ahead of it. -/
def MarkedAtFirstDequeue (records : List (QueueRecord (Nat × ε))) : Prop :=
  ∀ (before : List (QueueRecord (Nat × ε))) (a : DequeuedEvent (Nat × ε))
    (quiet : List (QueueRecord (Nat × ε))) (b : DequeuedEvent (Nat × ε))
    (rest : List (QueueRecord (Nat × ε))),
    records = before ++ .dequeued a :: quiet ++ .dequeued b :: rest →
    (∀ record ∈ quiet, record.isDequeued = false) →
    (b.discontinuityBeforeEvent = true ↔ ∃ lost, .droppedFull lost ∈ quiet) ∧
    ∀ lost, .droppedFull lost ∈ records → a.event.1 < lost.1 → lost.1 < b.event.1 →
      b.discontinuityBeforeEvent = true ∨
      ∃ (earlier waiting : List (QueueRecord (Nat × ε))) (first : DequeuedEvent (Nat × ε))
        (later : List (QueueRecord (Nat × ε))),
        before ++ [.dequeued a] = earlier ++ .droppedFull lost :: waiting ++ .dequeued first :: later ∧
        (∀ record ∈ waiting, record.isDequeued = false) ∧ first.event.1 ≤ a.event.1 ∧
        first.discontinuityBeforeEvent = true

theorem exists_first_dequeue (records : List (QueueRecord ε)) (a : DequeuedEvent ε) :
    ∃ (waiting : List (QueueRecord ε)) (first : DequeuedEvent ε) (later : List (QueueRecord ε)),
      records ++ [.dequeued a] = waiting ++ .dequeued first :: later ∧
      ∀ record ∈ waiting, record.isDequeued = false := by
  induction records with
  | nil => exact ⟨[], a, [], rfl, by simp⟩
  | cons record rest ih =>
    obtain ⟨waiting, first, later, eq, quiet⟩ := ih
    cases found : record.isDequeued with
    | false =>
      refine ⟨record :: waiting, first, later, ?_, List.forall_mem_cons.mpr ⟨found, quiet⟩⟩
      rw [List.cons_append, eq]
      rfl
    | true =>
      cases record with
      | dequeued d => exact ⟨[], d, rest ++ [.dequeued a], rfl, by simp⟩
      | enqueued | droppedFull | empty => cases found

theorem markedAtFirstDequeue {queue : ObserveQueue (Nat × ε)} (empty : queue.events = [])
    (ops : List (QueueOp ε)) :
    MarkedAtFirstDequeue (queue.history (ObserveQueue.numbered 0 ops)) := by
  intro before a quiet b rest split none
  have start : ObserveQueue.Numbered 0 queue := by
    constructor <;> simp [empty]
  have marked := ObserveQueue.marked_iff_dropped_between split none
  refine ⟨marked, fun lost mem after_a before_b => ?_⟩
  have after_b := (ObserveQueue.number_lt_of_dequeued start split).1
  rw [split, List.append_assoc, List.mem_append, List.cons_append, List.mem_cons,
    List.mem_append, List.mem_cons] at mem
  rcases mem with old | eq | between | eq | later
  · right
    obtain ⟨earlier, waitingAll, eq⟩ := List.append_of_mem old
    obtain ⟨waiting, first, later, waited, quietly⟩ := exists_first_dequeue waitingAll a
    have whole : before ++ [.dequeued a] =
        earlier ++ .droppedFull lost :: waiting ++ .dequeued first :: later := by
      rw [eq, List.append_assoc, List.cons_append, waited, List.append_assoc, List.cons_append]
    have shape : queue.history (ObserveQueue.numbered 0 ops) =
        earlier ++ .droppedFull lost :: waiting ++
          .dequeued first :: (later ++ (quiet ++ .dequeued b :: rest)) := by
      have regroup : before ++ .dequeued a :: quiet ++ .dequeued b :: rest =
          before ++ [.dequeued a] ++ (quiet ++ .dequeued b :: rest) := by simp
      rw [split, regroup, whole, List.append_assoc, List.cons_append]
    refine ⟨earlier, waiting, first, later, whole, quietly, ?_,
      ObserveQueue.marked_of_dropped shape quietly⟩
    have last := congrArg List.getLast? whole
    rw [List.getLast?_concat, List.getLast?_append_cons] at last
    cases later with
    | nil =>
      rw [List.getLast?_singleton, Option.some.injEq, QueueRecord.dequeued.injEq] at last
      subst last
      exact Nat.le_refl _
    | cons record more =>
      have mem : QueueRecord.dequeued a ∈ record :: more := by
        rw [List.getLast?_cons_cons] at last
        exact List.mem_of_getLast? last.symm
      have ahead := (ObserveQueue.number_lt_of_dequeued start shape).2 a
        (List.mem_append_left _ mem)
      exact Nat.le_of_lt ahead
  · cases eq
  · exact .inl (marked.mpr ⟨lost, between⟩)
  · cases eq
  · have := after_b lost later
    omega

/-- A service run on what `content` made of a new queue goes on with the queue
calls of that run, and its processor gets what their dequeues answer. -/
theorem loss_marks_first_dequeue (capacity : Nat) (queue : ObserveQueue (Nat × ε))
    (made : ObserveQueue.new capacity = .ok queue) :
    (∀ ops, MarkedAtFirstDequeue (queue.history (ObserveQueue.numbered 0 ops))) ∧
    ∀ (processor : EventProcessor ε σ) (stops : Nat) (state : σ) (steps : List (SourceStep ε))
      (content : List (QueueOp ε)),
        let initial := (queue.map Prod.snd).after content
        let ops := calls (decide (0 < stops)) initial steps
        ((requestStop^[stops] (new initial)).run processor.recorded ([], state) steps).2.1.1 =
          (((queue.history (ObserveQueue.numbered 0 (content ++ ops))).map
            (QueueRecord.map Prod.snd)).drop content.length).flatMap QueueRecord.processorCalls := by
  have empty : queue.events = [] := by
    unfold ObserveQueue.new at made
    split at made
    · cases made
    · cases made
      rfl
  refine ⟨markedAtFirstDequeue empty, ?_⟩
  intro processor stops state steps content initial ops
  have follows := (run_follows processor.recorded initial stops ([], state) steps).1
  have state := follows.state
  rw [EventProcessor.recorded_calls, List.nil_append] at state
  rw [← ObserveQueue.history_map, ObserveQueue.map_numbered, ObserveQueue.history_append,
    List.drop_left' (ObserveQueue.length_history _ _)]
  exact congrArg Prod.fst state

/-- With one event in a full queue of one, an arrival is lost, the mark goes to
the event queued before it, and a service run resets its processor before that one. -/
theorem loss_marks_first_dequeue_one :
    let queue : ObserveQueue (Nat × Bool) := ⟨1, [], 0, false, by decide, by decide⟩
    let processor : EventProcessor Bool Unit := ⟨id, fun state _ => (state, .observed)⟩
    MarkedAtFirstDequeue
        (queue.history (ObserveQueue.numbered 0 [.tryEnqueue true, .tryEnqueue false, .tryDequeue])) ∧
      ((new ((queue.map Prod.snd).after [.tryEnqueue true])).run processor.recorded ([], ())
        [.event false]).2.1.1 = [.reset, .process true] := by
  intro queue processor
  have marks := loss_marks_first_dequeue (σ := Unit) 1 queue rfl
  exact ⟨marks.1 _, (marks.2 processor 0 () [.event false] [.tryEnqueue true]).trans rfl⟩

/-- The mark is spent on an older event: with room for one, `a` is queued, `s`
is lost, `a` comes out marked, and `d` comes out next without a mark. -/
theorem later_event_unmarked :
    ¬ ∀ (capacity : Nat) (queue : ObserveQueue (Nat × ObservedInputEvent))
      (ops : List (QueueOp ObservedInputEvent)), ObserveQueue.new capacity = .ok queue →
        ResetAcrossLoss (queue.history (ObserveQueue.numbered 0 ops)) := by
  intro claim
  let pressed (value : Char) (valid : isAsciiAlphabetic value) (n : Nat) : ObservedInputEvent :=
    .pressed ⟨.letter value, valid⟩ ⟨n + 1, Nat.succ_ne_zero n⟩
  let a := pressed 'a' (by decide) 0
  let s := pressed 's' (by decide) 1
  let d := pressed 'd' (by decide) 2
  have marked := claim 1 _ [.tryEnqueue a, .tryEnqueue s, .tryDequeue, .tryEnqueue d, .tryDequeue] rfl
    [.enqueued (0, a), .droppedFull (1, s)] ⟨(0, a), true⟩ [.enqueued (2, d)] ⟨(2, d), false⟩ []
    rfl (by simp) ⟨(1, s), by decide, by decide, by decide⟩
  cases marked

end Loss
end ObserveService
end ZonKey.Observe

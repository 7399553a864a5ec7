import ZonKey.ObservedInput
import ZonKey.Runs

set_option autoImplicit false

namespace ZonKey.Observe
open Runs

variable {ε ε' : Type}

structure QueueCapacityError where

inductive EnqueueOutcome where
  | enqueued
  | droppedFull
  deriving DecidableEq

structure DequeuedEvent (ε : Type) where
  event : ε
  discontinuityBeforeEvent : Bool
  deriving DecidableEq

inductive DequeueOutcome (ε : Type) where
  | event (dequeued : DequeuedEvent ε)
  | empty

structure ObserveQueue (ε : Type) where
  capacity : Nat
  events : List ε
  droppedEvents : Nat
  discontinuityPending : Bool
  positive : 0 < capacity
  bounded : events.length ≤ capacity

namespace ObserveQueue

def new (capacity : Nat) : Except QueueCapacityError (ObserveQueue ε) :=
  if zero : capacity = 0 then .error ⟨⟩
  else .ok ⟨capacity, [], 0, false, Nat.pos_of_ne_zero zero, Nat.zero_le _⟩

def defaultCapacity : Nat := 256

def default : ObserveQueue ε := ⟨defaultCapacity, [], 0, false, by decide, Nat.zero_le _⟩

def tryEnqueue (queue : ObserveQueue ε) (event : ε) : ObserveQueue ε × EnqueueOutcome :=
  if full : queue.events.length = queue.capacity then
    ({ queue with
        droppedEvents := saturatingSucc queue.droppedEvents
        discontinuityPending := true }, .droppedFull)
  else
    have room : (queue.events ++ [event]).length ≤ queue.capacity := by
      have := queue.bounded
      rw [List.length_append, List.length_singleton]
      omega
    ({ queue with events := queue.events ++ [event], bounded := room }, .enqueued)

def tryDequeue (queue : ObserveQueue ε) : ObserveQueue ε × DequeueOutcome ε :=
  match queue.events.head? with
  | none => (queue, .empty)
  | some event =>
    have room : queue.events.tail.length ≤ queue.capacity := by
      have := queue.bounded
      rw [List.length_tail]
      omega
    ({ queue with events := queue.events.tail, discontinuityPending := false, bounded := room },
      .event ⟨event, queue.discontinuityPending⟩)

end ObserveQueue

inductive QueueOp (ε : Type) where
  | tryEnqueue (event : ε)
  | tryDequeue

inductive QueueRecord (ε : Type) where
  | enqueued (event : ε)
  | droppedFull (event : ε)
  | dequeued (dequeued : DequeuedEvent ε)
  | empty
  deriving DecidableEq

namespace QueueRecord

@[simp] def isDropped : QueueRecord ε → Bool
  | droppedFull _ => true
  | enqueued _ | dequeued _ | empty => false

@[simp] def isDequeued : QueueRecord ε → Bool
  | dequeued _ => true
  | enqueued _ | droppedFull _ | empty => false

@[simp] def accepted? : QueueRecord ε → Option ε
  | enqueued event => some event
  | droppedFull _ | dequeued _ | empty => none

@[simp] def dequeued? : QueueRecord ε → Option ε
  | dequeued d => some d.event
  | enqueued _ | droppedFull _ | empty => none

def map (f : ε → ε') : QueueRecord ε → QueueRecord ε'
  | enqueued event => enqueued (f event)
  | droppedFull event => droppedFull (f event)
  | dequeued d => dequeued ⟨f d.event, d.discontinuityBeforeEvent⟩
  | empty => empty

end QueueRecord

def QueueOp.map (f : ε → ε') : QueueOp ε → QueueOp ε'
  | tryEnqueue event => tryEnqueue (f event)
  | tryDequeue => tryDequeue

namespace ObserveQueue

def perform (queue : ObserveQueue ε) : QueueOp ε → ObserveQueue ε × QueueRecord ε
  | .tryEnqueue event =>
    match queue.tryEnqueue event with
    | (next, .enqueued) => (next, .enqueued event)
    | (next, .droppedFull) => (next, .droppedFull event)
  | .tryDequeue =>
    match queue.tryDequeue with
    | (next, .event d) => (next, .dequeued d)
    | (next, .empty) => (next, .empty)

def after (queue : ObserveQueue ε) (ops : List (QueueOp ε)) : ObserveQueue ε :=
  run (fun q op => (q.perform op).1) queue ops

def history : ObserveQueue ε → List (QueueOp ε) → List (QueueRecord ε)
  | _, [] => []
  | queue, op :: ops => (queue.perform op).2 :: (queue.perform op).1.history ops

/-- Everything one call can do to the queue. -/
inductive Performed (queue : ObserveQueue ε) :
    QueueOp ε → ObserveQueue ε → QueueRecord ε → Prop where
  | enqueued (event : ε) (next : ObserveQueue ε) (room : queue.events.length < queue.capacity)
      (events : next.events = queue.events ++ [event]) (capacity : next.capacity = queue.capacity)
      (pending : next.discontinuityPending = queue.discontinuityPending) :
      Performed queue (.tryEnqueue event) next (.enqueued event)
  | droppedFull (event : ε) (next : ObserveQueue ε) (full : queue.events.length = queue.capacity)
      (events : next.events = queue.events) (capacity : next.capacity = queue.capacity)
      (pending : next.discontinuityPending = true) :
      Performed queue (.tryEnqueue event) next (.droppedFull event)
  | dequeued (event : ε) (next : ObserveQueue ε) (events : queue.events = event :: next.events)
      (capacity : next.capacity = queue.capacity) (pending : next.discontinuityPending = false) :
      Performed queue .tryDequeue next (.dequeued ⟨event, queue.discontinuityPending⟩)
  | empty (none : queue.events = []) : Performed queue .tryDequeue queue .empty

theorem perform_performed (queue : ObserveQueue ε) (op : QueueOp ε) :
    Performed queue op (queue.perform op).1 (queue.perform op).2 := by
  cases op with
  | tryEnqueue event =>
    by_cases full : queue.events.length = queue.capacity
    · have eq : queue.perform (.tryEnqueue event) = ((queue.tryEnqueue event).1, .droppedFull event) := by
        simp [perform, ObserveQueue.tryEnqueue, full]
      rw [eq]
      apply Performed.droppedFull
      · exact full
      all_goals simp [ObserveQueue.tryEnqueue, full]
    · have eq : queue.perform (.tryEnqueue event) = ((queue.tryEnqueue event).1, .enqueued event) := by
        simp [perform, ObserveQueue.tryEnqueue, full]
      rw [eq]
      apply Performed.enqueued
      · have := queue.bounded
        omega
      all_goals simp [ObserveQueue.tryEnqueue, full]
  | tryDequeue =>
    cases events : queue.events with
    | nil =>
      have eq : queue.perform .tryDequeue = (queue, .empty) := by
        simp [perform, ObserveQueue.tryDequeue, events]
      rw [eq]
      exact .empty events
    | cons event rest =>
      have eq : queue.perform .tryDequeue =
          ((queue.tryDequeue).1, .dequeued ⟨event, queue.discontinuityPending⟩) := by
        simp [perform, ObserveQueue.tryDequeue, events]
      rw [eq]
      apply Performed.dequeued
      all_goals simp [ObserveQueue.tryDequeue, events]

@[simp] theorem history_nil (queue : ObserveQueue ε) : queue.history [] = [] := rfl

@[simp] theorem after_nil (queue : ObserveQueue ε) : queue.after [] = queue := rfl

@[simp] theorem after_cons (queue : ObserveQueue ε) (op : QueueOp ε) (ops : List (QueueOp ε)) :
    queue.after (op :: ops) = (queue.perform op).1.after ops := rfl

theorem after_append (queue : ObserveQueue ε) (xs ys : List (QueueOp ε)) :
    queue.after (xs ++ ys) = (queue.after xs).after ys := run_append _ _ _

theorem history_append (queue : ObserveQueue ε) (xs ys : List (QueueOp ε)) :
    queue.history (xs ++ ys) = queue.history xs ++ (queue.after xs).history ys := by
  induction xs generalizing queue with
  | nil => rfl
  | cons op ops ih => simp only [List.cons_append, history, ih, after_cons]

@[simp] theorem length_history (queue : ObserveQueue ε) (ops : List (QueueOp ε)) :
    (queue.history ops).length = ops.length := by
  induction ops generalizing queue with
  | nil => rfl
  | cons op ops ih => simp only [history, List.length_cons, ih]

section Conservation

/-- First in, first out: what was queued, then accepted, comes out in order. -/
theorem history_fifo (queue : ObserveQueue ε) (ops : List (QueueOp ε)) :
    queue.events ++ (queue.history ops).filterMap QueueRecord.accepted? =
      (queue.history ops).filterMap QueueRecord.dequeued? ++ (queue.after ops).events := by
  induction ops generalizing queue with
  | nil => simp
  | cons op ops ih =>
    have rest := ih (queue.perform op).1
    have step := queue.perform_performed op
    rw [history, after_cons]
    generalize (queue.perform op).1 = next, (queue.perform op).2 = record at step rest ⊢
    cases step with
    | enqueued event next room events => simpa [List.filterMap_cons, events] using rest
    | droppedFull event next full events => simpa [List.filterMap_cons, events] using rest
    | dequeued event next events => simpa [List.filterMap_cons, events] using rest
    | empty => simpa [List.filterMap_cons] using rest

end Conservation

section Marks

def pendingAfter : Bool → List (QueueRecord ε) → Bool
  | pending, [] => pending
  | _, .droppedFull _ :: rest => pendingAfter true rest
  | _, .dequeued _ :: rest => pendingAfter false rest
  | pending, .enqueued _ :: rest => pendingAfter pending rest
  | pending, .empty :: rest => pendingAfter pending rest

theorem pendingAfter_append (pending : Bool) (xs ys : List (QueueRecord ε)) :
    pendingAfter pending (xs ++ ys) = pendingAfter (pendingAfter pending xs) ys := by
  induction xs generalizing pending with
  | nil => rfl
  | cons record rest ih => cases record <;> exact ih _

theorem pendingAfter_quiet {xs : List (QueueRecord ε)}
    (quiet : ∀ record ∈ xs, record.isDequeued = false) (pending : Bool) :
    pendingAfter pending xs = (pending || xs.any QueueRecord.isDropped) := by
  induction xs generalizing pending with
  | nil => simp [pendingAfter]
  | cons record rest ih =>
    have later := ih fun r mem => quiet r (List.mem_cons_of_mem _ mem)
    have head := quiet record (List.mem_cons_self ..)
    cases record with
    | droppedFull event => simp [pendingAfter, later]
    | enqueued event => simp [pendingAfter, later]
    | empty => simp [pendingAfter, later]
    | dequeued d => cases head

theorem perform_pending (queue : ObserveQueue ε) (op : QueueOp ε) :
    (queue.perform op).1.discontinuityPending =
      pendingAfter queue.discontinuityPending [(queue.perform op).2] := by
  have step := queue.perform_performed op
  generalize (queue.perform op).1 = next, (queue.perform op).2 = record at step ⊢
  cases step with
  | enqueued _ _ _ _ _ pending => exact pending
  | droppedFull _ _ _ _ _ pending => exact pending
  | dequeued _ _ _ _ pending => exact pending
  | empty => rfl

theorem mark_eq_pendingAfter {queue : ObserveQueue ε} {ops : List (QueueOp ε)}
    {before rest : List (QueueRecord ε)} {d : DequeuedEvent ε}
    (split : queue.history ops = before ++ .dequeued d :: rest) :
    d.discontinuityBeforeEvent = pendingAfter queue.discontinuityPending before := by
  induction before generalizing queue ops with
  | nil =>
    cases ops with
    | nil => cases split
    | cons op ops =>
      have step := queue.perform_performed op
      rw [history, List.nil_append, List.cons.injEq] at split
      rw [split.1] at step
      generalize (queue.perform op).1 = next at step
      cases step
      rfl
  | cons record before ih =>
    cases ops with
    | nil => cases split
    | cons op ops =>
      rw [history, List.cons_append, List.cons.injEq] at split
      rw [ih split.2, perform_pending, split.1]
      cases record <;> rfl

variable {queue : ObserveQueue ε} {ops : List (QueueOp ε)} {d : DequeuedEvent ε}
  {xs quiet rest : List (QueueRecord ε)}

theorem marked_of_dropped {lost : ε}
    (split : queue.history ops = xs ++ .droppedFull lost :: quiet ++ .dequeued d :: rest)
    (none : ∀ record ∈ quiet, record.isDequeued = false) :
    d.discontinuityBeforeEvent = true := by
  rw [mark_eq_pendingAfter split, pendingAfter_append]
  change pendingAfter true quiet = true
  rw [pendingAfter_quiet none, Bool.true_or]

/-- Of two events dequeued in a row, the second carries the mark exactly when
something was lost between the two dequeues. -/
theorem marked_iff_dropped_between {a : DequeuedEvent ε}
    (split : queue.history ops = xs ++ .dequeued a :: quiet ++ .dequeued d :: rest)
    (none : ∀ record ∈ quiet, record.isDequeued = false) :
    d.discontinuityBeforeEvent = true ↔ ∃ lost, .droppedFull lost ∈ quiet := by
  rw [mark_eq_pendingAfter split, pendingAfter_append]
  change pendingAfter false quiet = true ↔ _
  rw [pendingAfter_quiet none, Bool.false_or, List.any_eq_true]
  constructor
  · rintro ⟨record, mem, dropped⟩
    cases record with
    | droppedFull lost => exact ⟨lost, mem⟩
    | enqueued | dequeued | empty => cases dropped
  · rintro ⟨lost, mem⟩
    exact ⟨_, mem, rfl⟩

end Marks

section Arrivals

/-- The calls with every arriving event numbered in its order of arrival. -/
def numbered : Nat → List (QueueOp ε) → List (QueueOp (Nat × ε))
  | _, [] => []
  | n, .tryEnqueue event :: ops => .tryEnqueue (n, event) :: numbered (n + 1) ops
  | n, .tryDequeue :: ops => .tryDequeue :: numbered n ops

def map (f : ε → ε') (queue : ObserveQueue ε) : ObserveQueue ε' where
  capacity := queue.capacity
  events := queue.events.map f
  droppedEvents := queue.droppedEvents
  discontinuityPending := queue.discontinuityPending
  positive := queue.positive
  bounded := by
    rw [List.length_map]
    exact queue.bounded

theorem perform_map (f : ε → ε') (queue : ObserveQueue ε) (op : QueueOp ε) :
    (queue.map f).perform (op.map f) =
      ((queue.perform op).1.map f, (queue.perform op).2.map f) := by
  cases op with
  | tryEnqueue event =>
    by_cases full : queue.events.length = queue.capacity <;>
      simp [perform, ObserveQueue.tryEnqueue, map, QueueOp.map, QueueRecord.map, full]
  | tryDequeue =>
    cases events : queue.events <;>
      simp [perform, ObserveQueue.tryDequeue, map, QueueOp.map, QueueRecord.map, events]

theorem history_map (f : ε → ε') (queue : ObserveQueue ε) (ops : List (QueueOp ε)) :
    (queue.map f).history (ops.map (QueueOp.map f)) =
      (queue.history ops).map (QueueRecord.map f) := by
  induction ops generalizing queue with
  | nil => rfl
  | cons op ops ih => simp only [List.map_cons, history, perform_map, ih]

theorem map_numbered (n : Nat) (ops : List (QueueOp ε)) :
    (numbered n ops).map (QueueOp.map Prod.snd) = ops := by
  induction ops generalizing n with
  | nil => rfl
  | cons op ops ih => cases op <;> simp [numbered, QueueOp.map, ih]

/-- The queue holds numbers in order, all given out before `n`. -/
structure Numbered (n : Nat) (queue : ObserveQueue (Nat × ε)) : Prop where
  sorted : queue.events.Pairwise fun a b => a.1 < b.1
  below : ∀ event ∈ queue.events, event.1 < n

theorem Numbered.enqueued {n : Nat} {queue next : ObserveQueue (Nat × ε)} {event : ε}
    (h : Numbered n queue) (events : next.events = queue.events ++ [(n, event)]) :
    Numbered (n + 1) next := by
  constructor
  · rw [events, List.pairwise_append]
    refine ⟨h.sorted, List.pairwise_singleton .., fun a mem b eq => ?_⟩
    rw [List.mem_singleton] at eq
    subst eq
    exact h.below a mem
  · intro a mem
    rw [events, List.mem_append, List.mem_singleton] at mem
    rcases mem with old | rfl
    · have := h.below a old
      omega
    · exact Nat.lt_succ_self n

theorem Numbered.of_eq {n m : Nat} {queue next : ObserveQueue (Nat × ε)} (h : Numbered n queue)
    (le : n ≤ m) (events : next.events = queue.events) : Numbered m next := by
  constructor
  · rw [events]
    exact h.sorted
  · intro a mem
    rw [events] at mem
    exact Nat.lt_of_lt_of_le (h.below a mem) le

theorem Numbered.dequeued {n : Nat} {queue next : ObserveQueue (Nat × ε)} {event : Nat × ε}
    (h : Numbered n queue) (events : queue.events = event :: next.events) :
    Numbered n next ∧ event.1 < n ∧ ∀ later ∈ next.events, event.1 < later.1 := by
  have sorted := h.sorted
  rw [events, List.pairwise_cons] at sorted
  refine ⟨⟨sorted.2, fun a mem => h.below a ?_⟩, h.below event ?_, sorted.1⟩
  · rw [events]
    exact List.mem_cons_of_mem _ mem
  · rw [events]
    exact List.mem_cons_self ..

/-- What one numbered call does: `n` is the next number before it and `m` the next one after it. -/
structure NumberedStep (n m : Nat) (queue : ObserveQueue (Nat × ε))
    (record : QueueRecord (Nat × ε)) (next : ObserveQueue (Nat × ε)) : Prop where
  le : n ≤ m
  lost : ∀ event, record = .droppedFull event → n ≤ event.1
  taken : ∀ d, record = .dequeued d → queue.events = d.event :: next.events
  kept : ∀ event ∈ next.events, event ∈ queue.events ∨ n ≤ event.1
  numbered : Numbered n queue → Numbered m next

theorem numberedStep_enqueue (n : Nat) (queue : ObserveQueue (Nat × ε)) (event : ε) :
    NumberedStep n (n + 1) queue (queue.perform (.tryEnqueue (n, event))).2
      (queue.perform (.tryEnqueue (n, event))).1 := by
  have step := queue.perform_performed (.tryEnqueue (n, event))
  generalize (queue.perform (.tryEnqueue (n, event))).1 = next,
    (queue.perform (.tryEnqueue (n, event))).2 = record at step ⊢
  constructor
  · exact Nat.le_succ n
  · rintro lost rfl
    cases step
    exact Nat.le_refl n
  · rintro d rfl
    cases step
  · intro kept mem
    cases step with
    | enqueued _ _ room events =>
      rw [events, List.mem_append, List.mem_singleton] at mem
      rcases mem with old | rfl
      · exact .inl old
      · exact .inr (Nat.le_refl n)
    | droppedFull _ _ full events =>
      rw [events] at mem
      exact .inl mem
  · intro start
    cases step with
    | enqueued _ _ room events => exact start.enqueued events
    | droppedFull _ _ full events => exact start.of_eq (Nat.le_succ n) events

theorem numberedStep_dequeue (n : Nat) (queue : ObserveQueue (Nat × ε)) :
    NumberedStep n n queue (queue.perform .tryDequeue).2 (queue.perform .tryDequeue).1 := by
  have step := queue.perform_performed .tryDequeue
  generalize (queue.perform .tryDequeue).1 = next,
    (queue.perform .tryDequeue).2 = record at step ⊢
  constructor
  · exact Nat.le_refl n
  · rintro lost rfl
    cases step
  · rintro d rfl
    cases step with
    | dequeued event _ events => exact events
  · intro kept mem
    cases step with
    | dequeued event _ events =>
      rw [events]
      exact .inl (List.mem_cons_of_mem _ mem)
    | empty => exact .inl mem
  · intro start
    cases step with
    | dequeued event _ events => exact (start.dequeued events).1
    | empty => exact start

theorem exists_numberedStep (n : Nat) (queue : ObserveQueue (Nat × ε)) (op : QueueOp ε)
    (ops : List (QueueOp ε)) :
    ∃ m record next, queue.history (numbered n (op :: ops)) =
      record :: next.history (numbered m ops) ∧ NumberedStep n m queue record next := by
  cases op with
  | tryEnqueue event => exact ⟨n + 1, _, _, rfl, numberedStep_enqueue n queue event⟩
  | tryDequeue => exact ⟨n, _, _, rfl, numberedStep_dequeue n queue⟩

theorem number_of_later {queue : ObserveQueue (Nat × ε)} {n : Nat} {ops : List (QueueOp ε)} :
    (∀ lost, .droppedFull lost ∈ queue.history (numbered n ops) → n ≤ lost.1) ∧
    ∀ d, .dequeued d ∈ queue.history (numbered n ops) → d.event ∈ queue.events ∨ n ≤ d.event.1 := by
  induction ops generalizing queue n with
  | nil => simp [numbered]
  | cons op ops ih =>
    obtain ⟨m, record, next, history, step⟩ := exists_numberedStep n queue op ops
    obtain ⟨losses, dequeues⟩ := @ih next m
    rw [history]
    refine ⟨fun lost mem => ?_, fun d mem => ?_⟩
    · rcases List.mem_cons.mp mem with now | later
      · exact step.lost lost now.symm
      · exact Nat.le_trans step.le (losses lost later)
    · rcases List.mem_cons.mp mem with now | later
      · rw [step.taken d now.symm]
        exact .inl (List.mem_cons_self ..)
      · rcases dequeues d later with old | new
        · exact step.kept _ old
        · exact .inr (Nat.le_trans step.le new)

/-- Whatever follows a dequeue arrived after the dequeued event. -/
theorem number_lt_of_dequeued {queue : ObserveQueue (Nat × ε)} {n : Nat} {ops : List (QueueOp ε)}
    {before rest : List (QueueRecord (Nat × ε))} {d : DequeuedEvent (Nat × ε)}
    (start : Numbered n queue) (split : queue.history (numbered n ops) = before ++ .dequeued d :: rest) :
    (∀ lost, .droppedFull lost ∈ rest → d.event.1 < lost.1) ∧
    ∀ later, .dequeued later ∈ rest → d.event.1 < later.event.1 := by
  induction ops generalizing queue n before with
  | nil =>
    have lengths := congrArg List.length split
    simp [numbered] at lengths
  | cons op ops ih =>
    obtain ⟨m, record, next, history, step⟩ := exists_numberedStep n queue op ops
    rw [history] at split
    cases before with
    | nil =>
      rw [List.nil_append, List.cons.injEq] at split
      obtain ⟨_, below, ahead⟩ := start.dequeued (step.taken d split.1)
      have first := Nat.lt_of_lt_of_le below step.le
      rw [← split.2]
      refine ⟨fun lost mem => ?_, fun later mem => ?_⟩
      · exact Nat.lt_of_lt_of_le first (number_of_later.1 lost mem)
      · rcases number_of_later.2 later mem with old | new
        · exact ahead _ old
        · exact Nat.lt_of_lt_of_le first new
    | cons earlier before =>
      rw [List.cons_append, List.cons.injEq] at split
      exact ih (step.numbered start) split.2

end Arrivals

end ObserveQueue
end ZonKey.Observe

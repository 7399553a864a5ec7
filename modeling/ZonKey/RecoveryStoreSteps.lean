import ZonKey.RecoveryCodecRoundTrip
import ZonKey.RecoveryRegistrySteps
import ZonKey.RecoveryStore

set_option autoImplicit false

namespace ZonKey.Store
open ByteCursor RecoveryCodec Recovery WriteThrough Runs

inductive StoreCall where
  | block (sessionId uri expected replacement : String) (range : UInt64 × UInt64)
  | beginPending (descriptor : RecoveryDescriptor)
  | clearPending (requestId : String)
  | promotePending (sessionId requestId : String)
  | reconcile (sessionId uri expected : String) (documentEpoch : UInt64) (liveRangeText : String)
  | acknowledge (sessionId uri expected : String) (documentEpoch : UInt64)

inductive StoreReply where
  | blocked (evicted : Option String)
  | begun
  | cleared (removed : Bool)
  | promoted (promoted : Bool)
  | reconciled (verdict : RecoveryVerdict)
  | acknowledged

structure StoreStep where
  call : StoreCall
  durable : Bool

namespace StoreCall
open DurableRecoveryStore

def apply (c : StoreCall) (durable : Bool) (store : DurableRecoveryStore) :
    Except RecoveryStoreError StoreReply × DurableRecoveryStore :=
  match c with
  | block sessionId uri expected replacement range =>
    (store.block durable sessionId uri expected replacement range).map (.map .blocked) id
  | beginPending descriptor =>
    (store.beginPending durable descriptor).map (.map fun _ => .begun) id
  | clearPending requestId => (store.clearPending durable requestId).map (.map .cleared) id
  | promotePending sessionId requestId =>
    (store.promotePending durable sessionId requestId).map (.map .promoted) id
  | reconcile sessionId uri expected epoch live =>
    (store.reconcile durable sessionId uri expected epoch live).map (.map .reconciled) id
  | acknowledge sessionId uri expected epoch =>
    (store.acknowledge durable sessionId uri expected epoch).map (.map fun _ => .acknowledged) id

def operation : StoreCall → Operation StoreReply
  | block sessionId uri expected replacement range => fun live =>
    (onRegistry (·.block sessionId uri expected replacement range 0) live).map (.map .blocked) id
  | beginPending descriptor => fun live =>
    (beginPendingOperation descriptor live).map (.map fun _ => .begun) id
  | clearPending requestId => fun live => (clearPendingOperation requestId live).map (.map .cleared) id
  | promotePending sessionId requestId => fun live =>
    (promotePendingOperation sessionId requestId live).map (.map .promoted) id
  | reconcile sessionId uri expected epoch text => fun live =>
    (onRegistry (·.reconcile sessionId uri expected epoch text) live).map (.map .reconciled) id
  | acknowledge sessionId uri expected epoch => fun live =>
    (onRegistry (·.acknowledge sessionId uri expected epoch) live).map
      (.map fun _ => .acknowledged) id

end StoreCall

namespace DurableRecoveryStore
variable {store : DurableRecoveryStore}

def next (store : DurableRecoveryStore) (step : StoreStep) : DurableRecoveryStore :=
  (step.call.apply step.durable store).2

theorem mutateState_map {τ υ : Type} (durable : Bool) (operation : Operation τ) (f : τ → υ) :
    store.mutateState durable (fun live => (operation live).map (.map f) id) =
      (store.mutateState durable operation).map (.map f) id := by
  unfold mutateState
  cases store.poison with
  | some poison => rfl
  | none => simp only [mutate_map]; rfl

theorem mutateState_committed {τ : Type} {operation : Operation τ} {result : τ} {made : LiveState}
    {file : Bytes} (healthy : store.poison = none)
    (accepted : operation store.live = (.ok result, made))
    (encoded : encodeLive store.salt made = .ok file) :
    store.mutateState true operation = (.ok result, { store with
      registry := made.registry
      pending := made.pending
      directory := store.directory.replace file true }) := by
  simp only [mutateState, healthy, mutate_committed accepted encoded]

theorem apply_eq (c : StoreCall) (durable : Bool) :
    c.apply durable store = store.mutateState durable c.operation := by
  cases c with
  | clearPending requestId =>
    exact (mutateState_map durable (clearPendingOperation requestId) StoreReply.cleared).symm
  | block | beginPending | promotePending | reconcile | acknowledge =>
    exact (mutateState_map durable _ _).symm

theorem next_begin {d : RecoveryDescriptor} {file : Bytes} (healthy : store.poison = none)
    (absent : ∀ existing ∈ store.pending, existing.requestId ≠ d.requestId)
    (room : store.pending.length + store.registry.list.length < store.registry.capacity)
    (encoded : encodeLive store.salt ⟨store.registry, store.pending ++ [d]⟩ = .ok file) :
    store.next ⟨.beginPending d, true⟩ = { store with
      pending := store.pending ++ [d]
      directory := store.directory.replace file true } := by
  have unknown : store.pending.any (fun existing => existing.requestId = d.requestId) = false := by
    simpa using absent
  have accepted : (StoreCall.beginPending d).operation store.live =
      (.ok .begun, ⟨store.registry, store.pending ++ [d]⟩) := by
    simp only [StoreCall.operation, beginPendingOperation, live, unknown, Nat.not_le.mpr room]
    rfl
  rw [next, apply_eq, mutateState_committed healthy accepted encoded]

/-- What a mutation leaves behind: a poisoned store as it was, otherwise one
write-through outcome on the live values and the file. -/
inductive Effect (store : DurableRecoveryStore) (step : StoreStep) :
    Except RecoveryStoreError StoreReply → DurableRecoveryStore → Prop
  | poisoned {reason : RecoveryStoreError} (unreadable : store.poison = some reason) :
      Effect store step (.error reason) store
  | mutated {answer : Except RecoveryStoreError StoreReply} {live : LiveState}
      {directory : StateDirectory} (healthy : store.poison = none)
      (outcome : Outcome (encodeLive store.salt) RecoveryStoreError.registry .writeFailed
        step.durable step.call.operation store.live store.directory answer live directory) :
      Effect store step answer
        { store with registry := live.registry, pending := live.pending, directory }

theorem apply_effect (store : DurableRecoveryStore) (step : StoreStep) :
    Effect store step (step.call.apply step.durable store).1 (store.next step) := by
  have outcome := mutate_outcome (encodeLive store.salt) RecoveryStoreError.registry
    .writeFailed step.durable step.call.operation store.live store.directory
  unfold next
  rw [apply_eq]
  unfold mutateState
  split
  · rename_i unreadable
    exact .poisoned unreadable
  · rename_i healthy
    exact .mutated healthy outcome

theorem Effect.salt {step : StoreStep} {answer : Except RecoveryStoreError StoreReply}
    {after : DurableRecoveryStore} (h : Effect store step answer after) :
    after.salt = store.salt := by
  cases h <;> rfl

theorem Effect.poison {step : StoreStep} {answer : Except RecoveryStoreError StoreReply}
    {after : DurableRecoveryStore} (h : Effect store step answer after) :
    after.poison = store.poison := by
  cases h <;> rfl

@[simp] theorem next_salt (step : StoreStep) : (store.next step).salt = store.salt :=
  (apply_effect store step).salt

@[simp] theorem next_poison (step : StoreStep) : (store.next step).poison = store.poison :=
  (apply_effect store step).poison

theorem next_of_poisoned {reason : RecoveryStoreError} (unreadable : store.poison = some reason)
    (step : StoreStep) : store.next step = store := by
  have effect := apply_effect store step
  generalize (step.call.apply step.durable store).1 = answer at effect
  generalize store.next step = after at effect
  cases effect with
  | poisoned => rfl
  | mutated healthy => rw [healthy] at unreadable; cases unreadable

theorem run_poison (store : DurableRecoveryStore) (steps : List StoreStep) :
    (run next store steps).poison = store.poison :=
  run_keeps (fun s : DurableRecoveryStore => s.poison = store.poison)
    (fun _ step same => (next_poison step).trans same) rfl steps

theorem run_salt (store : DurableRecoveryStore) (steps : List StoreStep) :
    (run next store steps).salt = store.salt :=
  run_keeps (fun s : DurableRecoveryStore => s.salt = store.salt)
    (fun _ step same => (next_salt step).trans same) rfl steps

def snapshot (store : DurableRecoveryStore) : List PersistedTarget :=
  snapshotRecords store.registry store.pending store.salt

def Persisted (store : DurableRecoveryStore) : Prop :=
  Mirrored (encodeLive store.salt) store.live store.directory

theorem Effect.persisted {step : StoreStep} {answer : Except RecoveryStoreError StoreReply}
    {after : DurableRecoveryStore} (h : Effect store step answer after)
    (start : store.Persisted) : after.Persisted := by
  cases h with
  | poisoned => exact start
  | mutated healthy outcome => exact outcome.mirrored start

theorem Persisted.decodes (h : store.Persisted) : ∃ file, store.directory.content = some file ∧
    encode store.salt store.snapshot = .ok file ∧ decode file = .ok (store.salt, store.snapshot) := by
  obtain ⟨file, encoded, content⟩ := h
  exact ⟨file, content, encoded, decode_encode encoded⟩

/-- One call is all or nothing, in memory and on disk. -/
def Atomic (store : DurableRecoveryStore) (step : StoreStep) : Prop :=
  (∀ error, (step.call.apply step.durable store).1 = .error error →
    (store.next step).registry = store.registry ∧ (store.next step).pending = store.pending ∧
      (store.next step).directory.content = store.directory.content) ∧
  (∀ reply, (step.call.apply step.durable store).1 = .ok reply →
    ∃ file, encode (store.next step).salt (store.next step).snapshot = .ok file ∧
      (store.next step).directory.content = some file ∧
      decode file = .ok ((store.next step).salt, (store.next step).snapshot)) ∧
  (∀ reason, store.poison = some reason →
    (step.call.apply step.durable store).1 = .error reason ∧
      (store.next step).directory = store.directory)

theorem atomic (store : DurableRecoveryStore) (step : StoreStep) : Atomic store step := by
  have effect := apply_effect store step
  unfold Atomic
  generalize (step.call.apply step.durable store).1 = answer at effect ⊢
  generalize store.next step = after at effect ⊢
  cases effect with
  | poisoned unreadable =>
    refine ⟨fun _ _ => ⟨rfl, rfl, rfl⟩, (nomatch · , ·), ?_⟩
    intro reason known
    rw [unreadable] at known
    cases known
    exact ⟨rfl, rfl⟩
  | mutated healthy outcome =>
    refine ⟨?_, ?_, fun reason known => by rw [healthy] at known; cases known⟩
    · rintro error rfl
      obtain ⟨live, content⟩ := outcome.error_unchanged
      exact ⟨congrArg LiveState.registry live, congrArg LiveState.pending live, content⟩
    · rintro reply rfl
      obtain ⟨_, file, encoded, content⟩ := outcome.ok_written
      exact ⟨file, encoded, content, decode_encode encoded⟩

/-- Along any run every call is all or nothing, and a poisoned store neither
answers nor writes. -/
theorem run_atomic (store : DurableRecoveryStore) (steps : List StoreStep) :
    AllSteps next Atomic store steps := allSteps_of_forall atomic store steps

end DurableRecoveryStore
end ZonKey.Store

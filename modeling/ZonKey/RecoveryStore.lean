import ZonKey.RecoveryRegistry
import ZonKey.WriteThrough

set_option autoImplicit false

/-!
# The durable recovery store

`DurableRecoveryStore` of `recovery_store.rs`. The directory field stands for
the state file in it; `durable_write_user_only` is an atomic replacement whose
success is an argument of every mutation.
-/
namespace ZonKey.Store
open ByteCursor RecoveryCodec Recovery WriteThrough

inductive RecoveryStoreError where
  | stateUnreadable (error : RecoveryCodecError)
  | unavailable
  | writeFailed
  | registry (error : RecoveryError)
  deriving DecidableEq

/-- The state file, with the log of the writes attempted on it. -/
abbrev StateDirectory := LoggedFile Bytes

structure DurableRecoveryStore where
  registry : RecoveryRegistry
  pending : List RecoveryDescriptor
  directory : StateDirectory
  salt : Salt
  poison : Option RecoveryStoreError

def operatorRequestId : String := "operator"

/-- Plaintext is salted and hashed; a hashed text is reused verbatim. -/
def persistedHash (salt : Salt) : RecoveryText → Hash
  | .plain text => saltedHash salt text
  | .hashed hash => hash

def intoPersisted (salt : Salt) (requestId : String) (target : BlockedTarget) : PersistedTarget :=
  { uri := target.uri
    range := target.range
    expectedHash := persistedHash salt target.expected
    replacementHash := persistedHash salt target.replacement
    kind := .blocked (target.state.map Prod.fst)
    generation := target.generation
    documentEpoch := target.documentEpoch
    requestId }

def pendingRecord (salt : Salt) (descriptor : RecoveryDescriptor) : PersistedTarget :=
  { uri := descriptor.uri
    range := descriptor.range
    expectedHash := saltedHash salt descriptor.expected
    replacementHash := saltedHash salt descriptor.replacement
    kind := .pending
    generation := descriptor.generation
    documentEpoch := descriptor.documentEpoch
    requestId := descriptor.requestId }

structure OpenEnvironment where
  directoryReady : Bool
  readFault : Bool
  randomSalt : Option Salt
  durable : Bool

structure LiveState where
  registry : RecoveryRegistry
  pending : List RecoveryDescriptor

abbrev Operation (τ : Type) := LiveState → Except RecoveryError τ × LiveState

namespace DurableRecoveryStore

def snapshotRecords (registry : RecoveryRegistry) (pending : List RecoveryDescriptor)
    (salt : Salt) : List PersistedTarget :=
  registry.list.map (intoPersisted salt operatorRequestId) ++ pending.map (pendingRecord salt)

def poisoned (directory : StateDirectory) (capacity : Nat) (reason : RecoveryStoreError) :
    Option DurableRecoveryStore :=
  (RecoveryRegistry.new (max capacity 1)).toOption.map fun registry =>
    ⟨registry, [], directory, .replicate 16 0, some reason⟩

/-- `fs::read` of the state file; every error takes the same branch. -/
def readState (env : OpenEnvironment) (directory : StateDirectory) : Option Bytes :=
  if env.readFault then none else directory.content

/-- `none` is the panic of `expect` on a zero capacity. -/
def openIn (env : OpenEnvironment) (directory : StateDirectory) (capacity : Nat) :
    Option DurableRecoveryStore :=
  if ¬ env.directoryReady then poisoned directory capacity .unavailable
  else
    match readState env directory with
    | none =>
      match env.randomSalt with
      | none => poisoned directory capacity .unavailable
      | some salt =>
        (RecoveryRegistry.new capacity).toOption.map fun registry =>
          match encode salt [] with
          | .error _ => ⟨registry, [], directory, salt, some .unavailable⟩
          | .ok bytes => ⟨registry, [], directory.replace bytes env.durable, salt,
              if env.durable then none else some .unavailable⟩
    | some bytes =>
      if maxRecoveryStateBytes < bytes.length then
        poisoned directory capacity (.stateUnreadable .oversizedFile)
      else
        match decode bytes with
        | .error error => poisoned directory capacity (.stateUnreadable error)
        | .ok (salt, records) =>
          match RecoveryRegistry.restore capacity salt records with
          | .ok registry => some ⟨registry, [], directory, salt, none⟩
          | .error _ => poisoned directory capacity (.stateUnreadable .tooManyEntries)

variable (store : DurableRecoveryStore)

def live : LiveState := ⟨store.registry, store.pending⟩

def encodeLive (salt : Salt) (live : LiveState) : Except RecoveryCodecError Bytes :=
  encode salt (snapshotRecords live.registry live.pending salt)

def mutateState {τ : Type} (durable : Bool) (operation : Operation τ) :
    Except RecoveryStoreError τ × DurableRecoveryStore :=
  match store.poison with
  | some poison => (.error poison, store)
  | none =>
    let (result, live, directory) := mutate (encodeLive store.salt) .registry .writeFailed durable
      operation store.live store.directory
    (result, { store with registry := live.registry, pending := live.pending, directory })

def list : Except RecoveryStoreError (List BlockedTarget) :=
  match store.poison with
  | some poison => .error poison
  | none => .ok store.registry.list

def pendingLen : Nat := store.pending.length

def targetBlocked (uri expected : String) : Bool :=
  match store.poison with
  | some _ => true
  | none => store.registry.isBlocked uri expected

def beginPendingOperation (descriptor : RecoveryDescriptor) : Operation Unit := fun live =>
  if live.pending.any (fun existing => existing.requestId = descriptor.requestId) then (.ok (), live)
  else if live.registry.capacity ≤ live.pending.length + live.registry.list.length then
    (.error .registryFull, live)
  else (.ok (), { live with pending := live.pending ++ [descriptor] })

def beginPending (durable : Bool) (descriptor : RecoveryDescriptor) :
    Except RecoveryStoreError Unit × DurableRecoveryStore :=
  store.mutateState durable (beginPendingOperation descriptor)

def clearPendingOperation (requestId : String) : Operation Bool := fun live =>
  let kept := live.pending.filter fun existing => existing.requestId ≠ requestId
  (.ok (live.pending.length ≠ kept.length), { live with pending := kept })

def clearPending (durable : Bool) (requestId : String) :
    Except RecoveryStoreError Bool × DurableRecoveryStore :=
  store.mutateState durable (clearPendingOperation requestId)

/-- The intent leaves the list before the registry is asked, and a refusal of
the registry only changes the returned flag. -/
def promotePendingOperation (sessionId requestId : String) : Operation Bool := fun live =>
  let index := live.pending.findIdx fun existing => existing.requestId = requestId
  match live.pending[index]? with
  | none => (.ok false, live)
  | some descriptor =>
    let (blocked, registry) := live.registry.block sessionId descriptor.uri descriptor.expected
      descriptor.replacement descriptor.range descriptor.documentEpoch
    (.ok blocked.toBool, ⟨registry, live.pending.eraseIdx index⟩)

def promotePending (durable : Bool) (sessionId requestId : String) :
    Except RecoveryStoreError Bool × DurableRecoveryStore :=
  store.mutateState durable (promotePendingOperation sessionId requestId)

def onRegistry {τ : Type} (method : RecoveryRegistry → Except RecoveryError τ × RecoveryRegistry) :
    Operation τ := fun live =>
  let (result, registry) := method live.registry
  (result, { live with registry })

def block (durable : Bool) (sessionId uri expected replacement : String)
    (range : UInt64 × UInt64) : Except RecoveryStoreError (Option String) × DurableRecoveryStore :=
  store.mutateState durable (onRegistry fun registry =>
    registry.block sessionId uri expected replacement range 0)

def reconcile (durable : Bool) (sessionId uri expected : String) (documentEpoch : UInt64)
    (liveRangeText : String) : Except RecoveryStoreError RecoveryVerdict × DurableRecoveryStore :=
  store.mutateState durable (onRegistry fun registry =>
    registry.reconcile sessionId uri expected documentEpoch liveRangeText)

def acknowledge (durable : Bool) (sessionId uri expected : String) (documentEpoch : UInt64) :
    Except RecoveryStoreError Unit × DurableRecoveryStore :=
  store.mutateState durable (onRegistry fun registry =>
    registry.acknowledge sessionId uri expected documentEpoch)

end DurableRecoveryStore
end ZonKey.Store

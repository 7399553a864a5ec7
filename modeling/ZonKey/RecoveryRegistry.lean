import ZonKey.KeyedQueue
import ZonKey.RecoveryCodec

set_option autoImplicit false

/-!
# The recovery registry

`RecoveryRegistry` of `transport.rs`: blocked targets keyed by joined strings,
with reconciliation and acknowledgement. A method that takes `&mut self`
returns its result together with the registry it leaves behind.
-/
namespace ZonKey.Recovery
open ByteCursor Digest RecoveryCodec

inductive RecoveryText where
  | plain (text : String)
  | hashed (hash : Hash)
  deriving DecidableEq

/-- A hashed entry needs the file salt; without it the match fails closed. -/
def RecoveryText.matches (text : RecoveryText) (salt : Option Salt) (live : String) : Bool :=
  match text with
  | .plain text => text = live
  | .hashed hash =>
    match salt with
    | some salt => saltedHash salt live = hash
    | none => false

structure BlockedTarget where
  sessionId : String
  uri : String
  expected : RecoveryText
  replacement : RecoveryText
  range : UInt64 × UInt64
  state : Option (RecoveryVerdict × Bool)
  generation : UInt64
  documentEpoch : UInt64
  deriving DecidableEq

inductive RecoveryError where
  | unknownTarget
  | sessionMismatch
  | ackBeforeReconcile
  | registryFull
  | epochMismatch
  deriving DecidableEq

structure RecoveryDescriptor where
  requestId : String
  uri : String
  range : UInt64 × UInt64
  expected : String
  replacement : String
  generation : UInt64
  documentEpoch : UInt64
  deriving DecidableEq

structure LedgerCapacityError where
  deriving DecidableEq

structure RecoveryRegistry extends KeyedQueue String BlockedTarget where
  capacity : Nat
  capacity_pos : 0 < capacity
  salt : Option Salt

namespace RecoveryRegistry

def new (capacity : Nat) : Except LedgerCapacityError RecoveryRegistry :=
  if h : capacity = 0 then .error ⟨⟩
  else .ok ⟨KeyedQueue.empty, capacity, Nat.pos_of_ne_zero h, none⟩

def hex (bytes : Bytes) : String :=
  .ofList (bytes.flatMap fun byte =>
    [Nat.digitChar (byte.toNat / 16), Nat.digitChar (byte.toNat % 16)])

def key (uri expected : String) : String := uri ++ "\x00" ++ expected

def hashKey (uri : String) (hash : Hash) : String := key uri (hex hash.toList)

def recordKey (record : PersistedTarget) : String := hashKey record.uri record.expectedHash

/-- A surviving preflight intent reloads as blocked, with no verdict. -/
def restoredTarget (record : PersistedTarget) : BlockedTarget :=
  let verdict := match record.kind with
    | .blocked verdict => verdict
    | .pending => none
  { sessionId := ""
    uri := record.uri
    expected := .hashed record.expectedHash
    replacement := .hashed record.replacementHash
    range := record.range
    state := verdict.map fun verdict => (verdict, false)
    generation := record.generation
    documentEpoch := record.documentEpoch }

/-- Every record pushes its key, also when the key is already queued. -/
def restore (capacity : Nat) (salt : Salt) (records : List PersistedTarget) :
    Except LedgerCapacityError RecoveryRegistry :=
  if capacity = 0 ∨ capacity < records.length then .error ⟨⟩
  else do
    let registry ← new capacity
    let queue := (records.map fun record => (recordKey record, restoredTarget record)).foldl
      KeyedQueue.append registry.toKeyedQueue
    pure { registry with toKeyedQueue := queue, salt := some salt }

variable (r : RecoveryRegistry)

def list : List BlockedTarget := r.listed

/-- The plaintext key when present, otherwise the salted-hash key when the
salt is known. -/
def resolveKey (uri expected : String) : String :=
  let plain := key uri expected
  if r.contains plain then plain
  else
    match r.salt with
    | some salt => hashKey uri (saltedHash salt expected)
    | none => plain

def isBlocked (uri expected : String) : Bool := r.contains (r.resolveKey uri expected)

def setEntry (k : String) (target : BlockedTarget) : RecoveryRegistry :=
  { r with toKeyedQueue := r.toKeyedQueue.setEntry k target }

def put (k : String) (target : BlockedTarget) : RecoveryRegistry :=
  { r with toKeyedQueue := r.toKeyedQueue.put k target }

def remove (k : String) : RecoveryRegistry :=
  { r with toKeyedQueue := r.toKeyedQueue.remove k }

def freshTarget (sessionId uri expected replacement : String) (range : UInt64 × UInt64)
    (documentEpoch : UInt64) : BlockedTarget :=
  { sessionId
    uri
    expected := .plain expected
    replacement := .plain replacement
    range
    state := none
    generation := 0
    documentEpoch }

def block (sessionId uri expected replacement : String) (range : UInt64 × UInt64)
    (documentEpoch : UInt64) : Except RecoveryError (Option String) × RecoveryRegistry :=
  let k := r.resolveKey uri expected
  if ¬ r.contains k ∧ r.order.length = r.capacity then (.error .registryFull, r)
  else (.ok none, r.put k (freshTarget sessionId uri expected replacement range documentEpoch))

/-- The epoch gate: zero is unbound, otherwise exactly the recorded epoch. -/
def rebindAllowed (target : BlockedTarget) (documentEpoch : UInt64) : Bool :=
  target.documentEpoch = 0 || target.documentEpoch = documentEpoch

def bindSession (target : BlockedTarget) (sessionId : String) (documentEpoch : UInt64) :
    Except RecoveryError BlockedTarget :=
  if target.sessionId = "" then
    if rebindAllowed target documentEpoch then .ok { target with sessionId := sessionId }
    else .error .epochMismatch
  else if target.sessionId ≠ sessionId then .error .sessionMismatch
  else .ok target

def verdictOf (target : BlockedTarget) (liveRangeText : String) : RecoveryVerdict :=
  if target.replacement.matches r.salt liveRangeText then .appliedAcknowledged
  else if target.expected.matches r.salt liveRangeText then .notApplied
  else .conflictHumanReview

def reconcile (sessionId uri expected : String) (documentEpoch : UInt64) (liveRangeText : String) :
    Except RecoveryError RecoveryVerdict × RecoveryRegistry :=
  let k := r.resolveKey uri expected
  match r.entries k with
  | none => (.error .unknownTarget, r)
  | some target =>
    match bindSession target sessionId documentEpoch with
    | .error error => (.error error, r)
    | .ok bound =>
      match bound.state with
      | some (verdict, _) => (.ok verdict, r.setEntry k bound)
      | none =>
        let verdict := r.verdictOf bound liveRangeText
        (.ok verdict, r.setEntry k { bound with state := some (verdict, false) })

/-- A refusal for the missing verdict comes after the session was bound. -/
def acknowledge (sessionId uri expected : String) (documentEpoch : UInt64) :
    Except RecoveryError Unit × RecoveryRegistry :=
  let k := r.resolveKey uri expected
  match r.entries k with
  | none => (.error .unknownTarget, r)
  | some target =>
    match bindSession target sessionId documentEpoch with
    | .error error => (.error error, r)
    | .ok bound =>
      match bound.state with
      | none => (.error .ackBeforeReconcile, r.setEntry k bound)
      | some _ => (.ok (), r.remove k)

end RecoveryRegistry
end ZonKey.Recovery

import ZonKey.RecoveryRegistry

set_option autoImplicit false

namespace ZonKey.Transport
open ByteCursor Digest Recovery

def transportProtocolId : String := "zonkey.host-transport/1"
def maxFrameBytes : Nat := 64 * 1024
def frameHeaderBytes : Nat := 4

inductive FrameError where
  | emptyFrame
  | oversizedFrame
  | invalidUtf8
  deriving DecidableEq

def encodeFrame (payload : String) : Except FrameError Bytes :=
  let bytes := asBytes payload
  if bytes.length = 0 then .error .emptyFrame
  else if maxFrameBytes < bytes.length then .error .oversizedFrame
  else .ok (leBytes 4 bytes.length ++ bytes)

/-- The payload of the frame at the front of the buffer, and the bytes behind it. -/
def decodeFrame (buffer : Bytes) : Except FrameError (Option (String × Bytes)) :=
  if buffer.length < frameHeaderBytes then .ok none
  else
    let length := ofLeBytes (buffer.take frameHeaderBytes)
    if length = 0 then .error .emptyFrame
    else if maxFrameBytes < length then .error .oversizedFrame
    else
      let stop := frameHeaderBytes + length
      if buffer.length < stop then .ok none
      else
        match String.fromUTF8? ⟨((buffer.take stop).drop frameHeaderBytes).toArray⟩ with
        | none => .error .invalidUtf8
        | some payload => .ok (some (payload, buffer.drop stop))

inductive LedgerOutcome where
  | definite (text : String)
  | ambiguous (text : String)
  deriving DecidableEq

inductive RequestDisposition where
  | fresh
  | duplicate (recorded : LedgerOutcome)
  | conflict
  deriving DecidableEq

inductive RecordOutcome where
  | inserted
  | evicted (evicted : String)
  | alreadyPresent
  | rejectedLedgerFull
  deriving DecidableEq

/-- `recoveryBacked` marks an entry whose durable record outlives eviction. -/
structure LedgerEntry where
  canonical : String
  outcome : LedgerOutcome
  recoveryBacked : Bool
  deriving DecidableEq

structure BoundedRequestLedger extends KeyedQueue String LedgerEntry where
  capacity : Nat
  capacity_pos : 0 < capacity

namespace BoundedRequestLedger

def new (capacity : Nat) : Except LedgerCapacityError BoundedRequestLedger :=
  if h : capacity = 0 then .error ⟨⟩
  else .ok ⟨KeyedQueue.empty, capacity, Nat.pos_of_ne_zero h⟩

variable (ledger : BoundedRequestLedger)

def classify (requestId canonical : String) : RequestDisposition :=
  match ledger.entries requestId with
  | none => .fresh
  | some entry => if entry.canonical = canonical then .duplicate entry.outcome else .conflict

def evictable (id : String) : Bool :=
  match ledger.entries id with
  | some entry =>
    match entry.outcome with
    | .definite _ => true
    | .ambiguous _ => entry.recoveryBacked
  | none => true

def insert (requestId : String) (entry : LedgerEntry) : BoundedRequestLedger :=
  { ledger with toKeyedQueue := ledger.toKeyedQueue.append (requestId, entry) }

def evictAt (index : Nat) (oldest : String) : BoundedRequestLedger :=
  { ledger with toKeyedQueue :=
      ⟨ledger.order.eraseIdx index, Function.update ledger.entries oldest none⟩ }

def recordInner (requestId canonical : String) (outcome : LedgerOutcome) (recoveryBacked : Bool) :
    RecordOutcome × BoundedRequestLedger :=
  let entry : LedgerEntry := ⟨canonical, outcome, recoveryBacked⟩
  if ledger.contains requestId then (.alreadyPresent, ledger)
  else if ledger.order.length < ledger.capacity then (.inserted, ledger.insert requestId entry)
  else
    let index := ledger.order.findIdx ledger.evictable
    match ledger.order[index]? with
    | none => (.rejectedLedgerFull, ledger)
    | some oldest => (.evicted oldest, (ledger.evictAt index oldest).insert requestId entry)

def record (requestId canonical : String) (outcome : LedgerOutcome) :
    RecordOutcome × BoundedRequestLedger := ledger.recordInner requestId canonical outcome false

def recordWithRecovery (requestId canonical : String) (outcome : LedgerOutcome) :
    RecordOutcome × BoundedRequestLedger := ledger.recordInner requestId canonical outcome true

def invalidateAll : BoundedRequestLedger := { ledger with toKeyedQueue := KeyedQueue.empty }

end BoundedRequestLedger

inductive TransportError where
  | notEstablished
  | protocolMismatch
  | invalidHello
  | sessionMismatch
  deriving DecidableEq

structure HostTransportEndpoint where
  sessionId : Option String
  ledger : BoundedRequestLedger

namespace HostTransportEndpoint

def new (ledgerCapacity : Nat) : Except LedgerCapacityError HostTransportEndpoint := do
  let ledger ← BoundedRequestLedger.new ledgerCapacity
  pure ⟨none, ledger⟩

variable (endpoint : HostTransportEndpoint)

/-- A hello with another session id is a restart and clears the ledger. -/
def acceptHello (protocolId sessionId : String) :
    Except TransportError Bool × HostTransportEndpoint :=
  if protocolId = "" ∨ sessionId = "" then (.error .invalidHello, endpoint)
  else if protocolId ≠ transportProtocolId then (.error .protocolMismatch, endpoint)
  else
    let restart := endpoint.sessionId.any fun current => current ≠ sessionId
    let ledger := if restart then endpoint.ledger.invalidateAll else endpoint.ledger
    (.ok restart, ⟨some sessionId, ledger⟩)

def checkSession (sessionId : String) : Except TransportError Unit :=
  match endpoint.sessionId with
  | none => .error .notEstablished
  | some current => if current = sessionId then .ok () else .error .sessionMismatch

def classifyRequest (requestId canonical : String) : RequestDisposition :=
  endpoint.ledger.classify requestId canonical

def record (requestId canonical : String) (outcome : LedgerOutcome) :
    RecordOutcome × HostTransportEndpoint :=
  (endpoint.ledger.record requestId canonical outcome).map id fun ledger => { endpoint with ledger }

def recordWithRecovery (requestId canonical : String) (outcome : LedgerOutcome) :
    RecordOutcome × HostTransportEndpoint :=
  (endpoint.ledger.recordWithRecovery requestId canonical outcome).map id fun ledger =>
    { endpoint with ledger }

end HostTransportEndpoint

structure HandoffRequest where
  requestId : String
  renderedToken : String
  replacementToken : String
  renderedUnits : Nat
  replacementUnits : Nat
  generation : UInt64

end ZonKey.Transport

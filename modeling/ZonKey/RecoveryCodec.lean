import ZonKey.Digest

set_option autoImplicit false

/-!
# The durable recovery file format

`encode` and `decode` of `recovery_codec.rs`. All integers are little-endian:
magic(8) version(u32) salt(16) count(u32) payloadLen(u32) payload crc32(u32).
-/
namespace ZonKey.RecoveryCodec
open ByteCursor Digest

def recoveryStateMagic : Bytes := [0x5A, 0x4E, 0x4B, 0x59, 0x52, 0x45, 0x43, 0x31]
def recoveryStateVersion : UInt32 := 2
def maxRecoveryEntries : Nat := 128
def maxRecoveryStateBytes : Nat := 256 * 1024
def maxUriBytes : Nat := 1024
def maxRequestIdBytes : Nat := 256

abbrev Salt := List.Vector UInt8 16
abbrev Hash := List.Vector UInt8 32

inductive RecoveryVerdict where
  | appliedAcknowledged
  | notApplied
  | conflictHumanReview
  deriving DecidableEq

inductive PersistedKind where
  | blocked (verdict : Option RecoveryVerdict)
  | pending
  deriving DecidableEq

inductive RecoveryCodecError where
  | truncated
  | badMagic
  | unknownVersion
  | tooManyEntries
  | oversizedFile
  | oversizedRecord
  | malformed
  | checksumMismatch
  | encodeOverflow
  deriving DecidableEq

structure PersistedTarget where
  uri : String
  range : UInt64 × UInt64
  expectedHash : Hash
  replacementHash : Hash
  kind : PersistedKind
  generation : UInt64
  documentEpoch : UInt64
  requestId : String
  deriving DecidableEq

/-- `SHA-256(salt || utf8(token))`. -/
def saltedHash (salt : Salt) (text : String) : Hash := sha256 (salt.toList ++ asBytes text)

def pushU16 (value : UInt16) : Bytes := leBytes 2 value.toNat
def pushU32 (value : UInt32) : Bytes := leBytes 4 value.toNat
def pushU64 (value : UInt64) : Bytes := leBytes 8 value.toNat

/-- The `try_from` conversions of lengths; `limit` is one past the target's maximum. -/
def tryFrom (limit n : Nat) : Except RecoveryCodecError Nat :=
  if n < limit then .ok n else .error .encodeOverflow

def verdictCode : RecoveryVerdict → UInt8
  | .appliedAcknowledged => 0
  | .notApplied => 1
  | .conflictHumanReview => 2

def encodeKind : PersistedKind → Bytes
  | .blocked none => [0]
  | .blocked (some verdict) => [1, verdictCode verdict]
  | .pending => [2]

def encodeRecord (record : PersistedTarget) : Except RecoveryCodecError Bytes :=
  let uri := asBytes record.uri
  let requestId := asBytes record.requestId
  if uri.length = 0 ∨ maxUriBytes < uri.length then .error .encodeOverflow
  else if requestId.length = 0 ∨ maxRequestIdBytes < requestId.length then .error .encodeOverflow
  else if record.range.2 < record.range.1 then .error .encodeOverflow
  else do
    let uriLen ← tryFrom (2 ^ 16) uri.length
    let requestIdLen ← tryFrom (2 ^ 16) requestId.length
    pure (pushU16 (.ofNat uriLen) ++ uri ++ pushU64 record.range.1 ++ pushU64 record.range.2 ++
      record.expectedHash.toList ++ record.replacementHash.toList ++ encodeKind record.kind ++
      pushU64 record.generation ++ pushU64 record.documentEpoch ++
      pushU16 (.ofNat requestIdLen) ++ requestId)

def encodePayload : List PersistedTarget → Except RecoveryCodecError Bytes
  | [] => .ok []
  | record :: rest => do
    let bytes ← encodeRecord record
    let payload ← encodePayload rest
    pure (bytes ++ payload)

def encode (salt : Salt) (records : List PersistedTarget) : Except RecoveryCodecError Bytes :=
  if maxRecoveryEntries < records.length then .error .encodeOverflow
  else do
    let payload ← encodePayload records
    let count ← tryFrom (2 ^ 32) records.length
    let payloadLen ← tryFrom (2 ^ 32) payload.length
    let file := recoveryStateMagic ++ pushU32 recoveryStateVersion ++ salt.toList ++
      pushU32 (.ofNat count) ++ pushU32 (.ofNat payloadLen) ++ payload
    if maxRecoveryStateBytes < file.length + 4 then .error .encodeOverflow
    else .ok (file ++ pushU32 (crc32 file))

abbrev CodecReader := Reader RecoveryCodecError

/-- `read_fixed`: an overflowing end is `Malformed`, a missing byte `Truncated`. -/
def readBytes (n : Nat) (bytes : Bytes) : CodecReader (List.Vector UInt8 n) :=
  readFixed .malformed .truncated n bytes

def readU16 (bytes : Bytes) : CodecReader UInt16 := do
  let slice ← readBytes 2 bytes
  pure (.ofNat (ofLeBytes slice.toList))

def readU32 (bytes : Bytes) : CodecReader UInt32 := do
  let slice ← readBytes 4 bytes
  pure (.ofNat (ofLeBytes slice.toList))

def readU64 (bytes : Bytes) : CodecReader UInt64 := do
  let slice ← readBytes 8 bytes
  pure (.ofNat (ofLeBytes slice.toList))

/-- `payload.get(cursor)` followed by the cursor increment. -/
def readByte (bytes : Bytes) : CodecReader UInt8 := do
  let slice ← readBytes 1 bytes
  pure slice.head

def readText (n : Nat) (bytes : Bytes) : CodecReader String := do
  let slice ← readBytes n bytes
  match String.fromUTF8? ⟨slice.toList.toArray⟩ with
  | some text => pure text
  | none => throw .malformed

def decodeVerdict : UInt8 → CodecReader RecoveryVerdict
  | 0 => pure .appliedAcknowledged
  | 1 => pure .notApplied
  | 2 => pure .conflictHumanReview
  | _ => throw .malformed

def decodeKind (payload : Bytes) : CodecReader PersistedKind := do
  let state ← readByte payload
  match state with
  | 0 => pure (.blocked none)
  | 1 => do
    let code ← readByte payload
    let verdict ← decodeVerdict code
    pure (.blocked (some verdict))
  | 2 => pure .pending
  | _ => throw .malformed

/-- `usize::try_from` of the range ends never fails on a 64-bit target. -/
def decodeRecord (payload : Bytes) : CodecReader PersistedTarget := do
  let uriLen ← readU16 payload
  if uriLen.toNat = 0 ∨ maxUriBytes < uriLen.toNat then throw .oversizedRecord
  else do
    let uri ← readText uriLen.toNat payload
    let rangeStart ← readU64 payload
    let rangeEnd ← readU64 payload
    let expectedHash ← readBytes 32 payload
    let replacementHash ← readBytes 32 payload
    let kind ← decodeKind payload
    let generation ← readU64 payload
    let documentEpoch ← readU64 payload
    let requestIdLen ← readU16 payload
    if requestIdLen.toNat = 0 ∨ maxRequestIdBytes < requestIdLen.toNat then throw .oversizedRecord
    else do
      let requestId ← readText requestIdLen.toNat payload
      pure ⟨uri, (rangeStart, rangeEnd), expectedHash, replacementHash, kind, generation,
        documentEpoch, requestId⟩

def decodeHeader (bytes : Bytes) : CodecReader (Salt × Nat × Nat) := do
  let magic ← readBytes 8 bytes
  if magic.toList ≠ recoveryStateMagic then throw .badMagic
  else do
    let version ← readU32 bytes
    if version ≠ recoveryStateVersion then throw .unknownVersion
    else do
      let salt ← readBytes 16 bytes
      let count ← readU32 bytes
      if maxRecoveryEntries < count.toNat then throw .tooManyEntries
      else do
        let payloadLen ← readU32 bytes
        pure (salt, count.toNat, payloadLen.toNat)

def decodeBody (bytes : Bytes) (salt : Salt) (count payloadLen offset : Nat) :
    Except RecoveryCodecError (Salt × List PersistedTarget) :=
  match checkedAdd offset payloadLen with
  | none => .error .malformed
  | some payloadEnd =>
    match checkedAdd payloadEnd 4 with
    | none => .error .malformed
    | some fileEnd =>
      if bytes.length ≠ fileEnd then .error .malformed
      else do
        let (storedCrc, _) ← readU32 bytes payloadEnd
        if crc32 (bytes.take (bytes.length - 4)) ≠ storedCrc then .error .checksumMismatch
        else do
          let payload := (bytes.drop offset).take payloadLen
          let (records, cursor) ← readMany decodeRecord payload count 0
          if cursor ≠ payloadLen then .error .malformed else .ok (salt, records)

def decode (bytes : Bytes) : Except RecoveryCodecError (Salt × List PersistedTarget) :=
  if maxRecoveryStateBytes < bytes.length then .error .oversizedFile
  else do
    let ((salt, count, payloadLen), offset) ← decodeHeader bytes 0
    decodeBody bytes salt count payloadLen offset

end ZonKey.RecoveryCodec

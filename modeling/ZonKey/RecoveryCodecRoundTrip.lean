import ZonKey.RecoveryCodec

set_option autoImplicit false

namespace ZonKey.RecoveryCodec
open ByteCursor Digest

theorem reads_bytes {n : Nat} (bytes : Bytes) (size : bytes.length = n) :
    Reads (readBytes n) bytes ⟨bytes, size⟩ :=
  reads_fixed RecoveryCodecError.malformed .truncated (⟨bytes, size⟩ : List.Vector UInt8 n)

theorem reads_u16 (value : UInt16) : Reads readU16 (pushU16 value) value := by
  have h := (reads_bytes (pushU16 value) (leBytes_length 2 _)).map
    (fun slice => UInt16.ofNat (ofLeBytes slice.toList))
  have back : UInt16.ofNat (ofLeBytes (pushU16 value)) = value := by
    rw [pushU16, ofLeBytes_leBytes_of_lt value.toNat_lt, UInt16.ofNat_toNat]
  change Reads readU16 (pushU16 value) (UInt16.ofNat (ofLeBytes (pushU16 value))) at h
  rwa [back] at h

theorem reads_u32 (value : UInt32) : Reads readU32 (pushU32 value) value := by
  have h := (reads_bytes (pushU32 value) (leBytes_length 4 _)).map
    (fun slice => UInt32.ofNat (ofLeBytes slice.toList))
  have back : UInt32.ofNat (ofLeBytes (pushU32 value)) = value := by
    rw [pushU32, ofLeBytes_leBytes_of_lt value.toNat_lt, UInt32.ofNat_toNat]
  change Reads readU32 (pushU32 value) (UInt32.ofNat (ofLeBytes (pushU32 value))) at h
  rwa [back] at h

theorem reads_u64 (value : UInt64) : Reads readU64 (pushU64 value) value := by
  have h := (reads_bytes (pushU64 value) (leBytes_length 8 _)).map
    (fun slice => UInt64.ofNat (ofLeBytes slice.toList))
  have back : UInt64.ofNat (ofLeBytes (pushU64 value)) = value := by
    rw [pushU64, ofLeBytes_leBytes_of_lt value.toNat_lt, UInt64.ofNat_toNat]
  change Reads readU64 (pushU64 value) (UInt64.ofNat (ofLeBytes (pushU64 value))) at h
  rwa [back] at h

theorem reads_byte (byte : UInt8) : Reads readByte [byte] byte :=
  (reads_bytes [byte] rfl).map List.Vector.head

theorem reads_text (text : String) {n : Nat} (size : (asBytes text).length = n) :
    Reads (readText n) (asBytes text) text := by
  suffices h : Reads (readText n) (asBytes text ++ []) text by rwa [List.append_nil] at h
  refine (reads_bytes (asBytes text) size).bind ?_
  simp only [List.Vector.toList_mk, fromUTF8_asBytes]
  exact reads_pure text

theorem reads_kind (kind : PersistedKind) : Reads decodeKind (encodeKind kind) kind := by
  have bare : ∀ kind : PersistedKind, Reads (fun _ => (pure kind : CodecReader _)) [] kind :=
    reads_pure
  cases kind with
  | blocked verdict =>
    cases verdict with
    | none => exact (reads_byte 0).bind (bare _)
    | some verdict =>
      have code : Reads (fun _ => decodeVerdict (verdictCode verdict)) [] verdict := by
        cases verdict <;> exact reads_pure _
      exact (reads_byte 1).bind ((reads_byte (verdictCode verdict)).bind
        (code.map fun verdict => PersistedKind.blocked (some verdict)))
  | pending => exact (reads_byte 2).bind (bare _)

/-- The field bounds that `encode` enforces on one record. -/
structure ValidRecord (record : PersistedTarget) : Prop where
  uri_pos : 0 < (asBytes record.uri).length
  uri_le : (asBytes record.uri).length ≤ maxUriBytes
  requestId_pos : 0 < (asBytes record.requestId).length
  requestId_le : (asBytes record.requestId).length ≤ maxRequestIdBytes
  range_le : record.range.1 ≤ record.range.2

structure BoundedTexts (record : PersistedTarget) : Prop where
  uri_pos : 0 < (asBytes record.uri).length
  uri_le : (asBytes record.uri).length ≤ maxUriBytes
  requestId_pos : 0 < (asBytes record.requestId).length
  requestId_le : (asBytes record.requestId).length ≤ maxRequestIdBytes

theorem validRecord_iff {record : PersistedTarget} :
    ValidRecord record ↔ BoundedTexts record ∧ record.range.1 ≤ record.range.2 :=
  ⟨fun h => ⟨⟨h.uri_pos, h.uri_le, h.requestId_pos, h.requestId_le⟩, h.range_le⟩,
    fun ⟨h, range⟩ => ⟨h.uri_pos, h.uri_le, h.requestId_pos, h.requestId_le, range⟩⟩

theorem ValidRecord.bounded {record : PersistedTarget} (h : ValidRecord record) :
    BoundedTexts record := (validRecord_iff.mp h).1

def recordBytes (record : PersistedTarget) : Bytes :=
  pushU16 (.ofNat (asBytes record.uri).length) ++ (asBytes record.uri ++ (pushU64 record.range.1 ++
    (pushU64 record.range.2 ++ (record.expectedHash.toList ++ (record.replacementHash.toList ++
    (encodeKind record.kind ++ (pushU64 record.generation ++ (pushU64 record.documentEpoch ++
    (pushU16 (.ofNat (asBytes record.requestId).length) ++ asBytes record.requestId)))))))))

theorem tryFrom_of_lt {limit n : Nat} (h : n < limit) : tryFrom limit n = .ok n := by
  simp [tryFrom, h]

theorem encodeRecord_of_valid {record : PersistedTarget} (h : ValidRecord record) :
    encodeRecord record = .ok (recordBytes record) := by
  obtain ⟨uriPos, uriLe, idPos, idLe, range⟩ := h
  have uriOk : ¬ ((asBytes record.uri).length = 0 ∨ maxUriBytes < (asBytes record.uri).length) := by
    omega
  have idOk : ¬ ((asBytes record.requestId).length = 0 ∨
      maxRequestIdBytes < (asBytes record.requestId).length) := by omega
  have rangeOk : ¬ record.range.2 < record.range.1 := by simpa using range
  have uriSmall : (asBytes record.uri).length < 2 ^ 16 := by
    unfold maxUriBytes at uriLe
    omega
  have idSmall : (asBytes record.requestId).length < 2 ^ 16 := by
    unfold maxRequestIdBytes at idLe
    omega
  simp only [encodeRecord, uriOk, idOk, rangeOk, ↓reduceIte, tryFrom_of_lt uriSmall,
    tryFrom_of_lt idSmall, recordBytes, List.append_assoc]
  rfl

theorem valid_of_encodeRecord {record : PersistedTarget} {bytes : Bytes}
    (h : encodeRecord record = .ok bytes) : ValidRecord record := by
  simp only [encodeRecord] at h
  split_ifs at h with uriBad idBad rangeBad
  exact ⟨by omega, by omega, by omega, by omega, by simpa using rangeBad⟩

theorem encodeRecord_ok_iff {record : PersistedTarget} {bytes : Bytes} :
    encodeRecord record = .ok bytes ↔ ValidRecord record ∧ bytes = recordBytes record := by
  constructor
  · intro h
    have valid := valid_of_encodeRecord h
    rw [encodeRecord_of_valid valid] at h
    exact ⟨valid, (Except.ok.inj h).symm⟩
  · rintro ⟨valid, rfl⟩
    exact encodeRecord_of_valid valid

theorem reads_record {record : PersistedTarget} (h : BoundedTexts record) :
    Reads decodeRecord (recordBytes record) record := by
  have uriSmall : (asBytes record.uri).length < 2 ^ 16 :=
    Nat.lt_of_le_of_lt h.uri_le (by decide)
  have idSmall : (asBytes record.requestId).length < 2 ^ 16 :=
    Nat.lt_of_le_of_lt h.requestId_le (by decide)
  have uriLen : (UInt16.ofNat (asBytes record.uri).length).toNat = (asBytes record.uri).length :=
    UInt16.toNat_ofNat_of_lt uriSmall
  have idLen : (UInt16.ofNat (asBytes record.requestId).length).toNat =
      (asBytes record.requestId).length := UInt16.toNat_ofNat_of_lt idSmall
  have uriPos := h.uri_pos
  have uriLe := h.uri_le
  have idPos := h.requestId_pos
  have idLe := h.requestId_le
  unfold decodeRecord recordBytes
  apply (reads_u16 _).bind
  apply Reads.guard _ (by rw [uriLen]; omega)
  apply (reads_text record.uri uriLen.symm).bind
  apply (reads_u64 record.range.1).bind
  apply (reads_u64 record.range.2).bind
  apply (reads_bytes record.expectedHash.toList record.expectedHash.toList_length).bind
  apply (reads_bytes record.replacementHash.toList record.replacementHash.toList_length).bind
  apply (reads_kind record.kind).bind
  apply (reads_u64 record.generation).bind
  apply (reads_u64 record.documentEpoch).bind
  apply (reads_u16 _).bind
  apply Reads.guard _ (by rw [idLen]; omega)
  exact (reads_text record.requestId idLen.symm).map _

theorem encodePayload_ok_iff {records : List PersistedTarget} {payload : Bytes} :
    encodePayload records = .ok payload ↔
      (∀ record ∈ records, ValidRecord record) ∧ payload = records.flatMap recordBytes := by
  induction records generalizing payload with
  | nil => simp [encodePayload, eq_comm]
  | cons record rest ih =>
    constructor
    · intro h
      simp only [encodePayload, bind, Except.bind] at h
      split at h
      · cases h
      · rename_i bytes first
        split at h
        · cases h
        · rename_i tail rests
          obtain ⟨valid, rfl⟩ := encodeRecord_ok_iff.mp first
          obtain ⟨valids, rfl⟩ := ih.mp rests
          exact ⟨List.forall_mem_cons.mpr ⟨valid, valids⟩, (Except.ok.inj h).symm⟩
    · rintro ⟨valids, rfl⟩
      obtain ⟨valid, rest⟩ := List.forall_mem_cons.mp valids
      simp only [encodePayload, encodeRecord_of_valid valid, ih.mpr ⟨rest, rfl⟩]
      rfl

def headerBytes (salt : Salt) (count payloadLen : Nat) : Bytes :=
  recoveryStateMagic ++ (pushU32 recoveryStateVersion ++ (salt.toList ++
    (pushU32 (.ofNat count) ++ pushU32 (.ofNat payloadLen))))

def payloadBytes (records : List PersistedTarget) : Bytes := records.flatMap recordBytes

def unsealedBytes (salt : Salt) (records : List PersistedTarget) : Bytes :=
  headerBytes salt records.length (payloadBytes records).length ++ payloadBytes records

def fileBytes (salt : Salt) (records : List PersistedTarget) : Bytes :=
  unsealedBytes salt records ++ pushU32 (crc32 (unsealedBytes salt records))

theorem headerBytes_length (salt : Salt) (count payloadLen : Nat) :
    (headerBytes salt count payloadLen).length = 36 := by
  simp [headerBytes, recoveryStateMagic, pushU32, leBytes_length]

theorem recordBytes_length_le {record : PersistedTarget} (h : BoundedTexts record) :
    (recordBytes record).length ≤ 1382 := by
  have uriLe := h.uri_le
  have idLe := h.requestId_le
  have kind : (encodeKind record.kind).length ≤ 2 := by
    rcases record.kind with (_ | _) | _ <;> simp [encodeKind]
  unfold maxUriBytes at uriLe
  unfold maxRequestIdBytes at idLe
  simp only [recordBytes, List.length_append, pushU16, pushU64, leBytes_length,
    List.Vector.toList_length]
  omega

theorem payloadBytes_length_le {records : List PersistedTarget}
    (h : ∀ record ∈ records, BoundedTexts record) :
    (payloadBytes records).length ≤ 1382 * records.length := by
  induction records with
  | nil => simp [payloadBytes]
  | cons record rest ih =>
    obtain ⟨valid, valids⟩ := List.forall_mem_cons.mp h
    have first := recordBytes_length_le valid
    have tail := ih valids
    simp only [payloadBytes, List.flatMap_cons, List.length_append, List.length_cons] at tail ⊢
    omega

theorem fileBytes_length (salt : Salt) (records : List PersistedTarget) :
    (fileBytes salt records).length = 36 + (payloadBytes records).length + 4 := by
  simp [fileBytes, unsealedBytes, headerBytes_length, pushU32, leBytes_length, Nat.add_assoc]

theorem fileBytes_length_le (salt : Salt) {records : List PersistedTarget}
    (count : records.length ≤ maxRecoveryEntries) (h : ∀ record ∈ records, BoundedTexts record) :
    (fileBytes salt records).length ≤ maxRecoveryStateBytes := by
  have payload := payloadBytes_length_le h
  rw [fileBytes_length]
  unfold maxRecoveryEntries at count
  unfold maxRecoveryStateBytes
  omega

/-- The size and conversion checks of `encode` cannot fail: only the record
count and the field bounds decide. -/
theorem encode_ok_iff {salt : Salt} {records : List PersistedTarget} {file : Bytes} :
    encode salt records = .ok file ↔ records.length ≤ maxRecoveryEntries ∧
      (∀ record ∈ records, ValidRecord record) ∧ file = fileBytes salt records := by
  by_cases count : records.length ≤ maxRecoveryEntries
  · have few : ¬ maxRecoveryEntries < records.length := by omega
    by_cases valid : ∀ record ∈ records, ValidRecord record
    · have payload : encodePayload records = .ok (payloadBytes records) :=
        encodePayload_ok_iff.mpr ⟨valid, rfl⟩
      have small := payloadBytes_length_le fun record h => (valid record h).bounded
      have whole := fileBytes_length_le salt count fun record h => (valid record h).bounded
      rw [fileBytes_length] at whole
      have countSmall : records.length < 2 ^ 32 := by
        unfold maxRecoveryEntries at count
        omega
      have payloadSmall : (payloadBytes records).length < 2 ^ 32 := by
        unfold maxRecoveryEntries at count
        omega
      have header := headerBytes_length salt records.length (payloadBytes records).length
      have size : ¬ maxRecoveryStateBytes < (unsealedBytes salt records).length + 4 := by
        simp only [unsealedBytes, List.length_append, header]
        omega
      have result : encode salt records = .ok (fileBytes salt records) := by
        simp only [unsealedBytes, headerBytes, List.append_assoc] at size
        simp only [encode, few, ↓reduceIte, payload, tryFrom_of_lt countSmall,
          tryFrom_of_lt payloadSmall, bind, Except.bind, List.append_assoc, size, fileBytes,
          unsealedBytes, headerBytes]
      rw [result]
      exact ⟨fun h => ⟨count, valid, (Except.ok.inj h).symm⟩, fun ⟨_, _, h⟩ => by rw [h]⟩
    · refine ⟨fun h => absurd ?_ valid, fun h => absurd h.2.1 valid⟩
      simp only [encode, few, ↓reduceIte, bind, Except.bind] at h
      split at h
      · cases h
      · rename_i payload eq
        exact (encodePayload_ok_iff.mp eq).1
  · refine ⟨fun h => ?_, fun h => absurd h.1 count⟩
    have many : maxRecoveryEntries < records.length := by omega
    simp [encode, many] at h

theorem encode_length_le {salt : Salt} {records : List PersistedTarget} {file : Bytes}
    (h : encode salt records = .ok file) : file.length ≤ maxRecoveryStateBytes := by
  obtain ⟨few, valid, rfl⟩ := encode_ok_iff.mp h
  exact fileBytes_length_le salt few fun record mem => (valid record mem).bounded

theorem reads_header (salt : Salt) {count payloadLen : Nat} (few : count ≤ maxRecoveryEntries)
    (small : payloadLen < 2 ^ 32) :
    Reads decodeHeader (headerBytes salt count payloadLen) (salt, count, payloadLen) := by
  have countLen : (UInt32.ofNat count).toNat = count :=
    UInt32.toNat_ofNat_of_lt (Nat.lt_of_le_of_lt few (by decide))
  have payloadLenEq : (UInt32.ofNat payloadLen).toNat = payloadLen :=
    UInt32.toNat_ofNat_of_lt small
  unfold decodeHeader headerBytes
  apply (reads_bytes recoveryStateMagic rfl).bind
  apply Reads.guard _ (fun bad => bad rfl)
  apply (reads_u32 recoveryStateVersion).bind
  apply Reads.guard _ (fun bad => bad rfl)
  apply (reads_bytes salt.toList salt.toList_length).bind
  apply (reads_u32 (.ofNat count)).bind
  apply Reads.guard _ (by rw [countLen]; omega)
  have last := (reads_u32 (.ofNat payloadLen)).map
    (fun len => (salt, (UInt32.ofNat count).toNat, len.toNat))
  rw [countLen, payloadLenEq] at last
  rw [countLen]
  exact last

theorem decodeBody_file (salt : Salt) {records : List PersistedTarget}
    (few : records.length ≤ maxRecoveryEntries) (valid : ∀ record ∈ records, BoundedTexts record) :
    decodeBody (fileBytes salt records) salt records.length (payloadBytes records).length 36 =
      .ok (salt, records) := by
  have whole := fileBytes_length_le salt few valid
  have size := fileBytes_length salt records
  have limit : maxRecoveryStateBytes < usizeLimit := by decide
  have header := headerBytes_length salt records.length (payloadBytes records).length
  have unsealed : (unsealedBytes salt records).length = 36 + (payloadBytes records).length := by
    simp [unsealedBytes, header]
  have payloadEnd : checkedAdd 36 (payloadBytes records).length =
      some (36 + (payloadBytes records).length) := checkedAdd_of_lt (by omega)
  have fileEnd : checkedAdd (36 + (payloadBytes records).length) 4 =
      some (36 + (payloadBytes records).length + 4) := checkedAdd_of_lt (by omega)
  have stored : readU32 (fileBytes salt records) (36 + (payloadBytes records).length) =
      .ok (crc32 (unsealedBytes salt records), 36 + (payloadBytes records).length + 4) := by
    have h := reads_u32 (crc32 (unsealedBytes salt records)) (unsealedBytes salt records) []
      (by rw [List.append_nil]; exact Nat.lt_of_le_of_lt whole limit)
    rw [List.append_nil, unsealed, pushU32, leBytes_length] at h
    exact h
  have prefixed : (fileBytes salt records).take ((fileBytes salt records).length - 4) =
      unsealedBytes salt records := by
    rw [size, Nat.add_sub_cancel, fileBytes, List.take_left' unsealed]
  have payload : ((fileBytes salt records).drop 36).take (payloadBytes records).length =
      payloadBytes records := by
    rw [fileBytes, unsealedBytes, List.append_assoc, List.drop_left' header, List.take_left]
  have rows : readMany decodeRecord (payloadBytes records) records.length 0 =
      .ok (records, (payloadBytes records).length) :=
    (reads_many records fun record h => reads_record (valid record h)).whole
      (Nat.lt_trans (by rw [← payloadBytes]; omega) limit)
  simp only [decodeBody, payloadEnd, fileEnd, size, ne_eq, not_true_eq_false, ↓reduceIte, stored,
    bind, Except.bind]
  rw [← size, prefixed, payload, rows]
  simp

theorem decode_file (salt : Salt) {records : List PersistedTarget}
    (few : records.length ≤ maxRecoveryEntries) (valid : ∀ record ∈ records, BoundedTexts record) :
    decode (fileBytes salt records) = .ok (salt, records) := by
  have whole := fileBytes_length_le salt few valid
  have limit : maxRecoveryStateBytes < usizeLimit := by decide
  have fits : ¬ maxRecoveryStateBytes < (fileBytes salt records).length := by omega
  have small : (payloadBytes records).length < 2 ^ 32 := by
    have payload := payloadBytes_length_le valid
    unfold maxRecoveryEntries at few
    omega
  have header : decodeHeader (fileBytes salt records) 0 =
      .ok ((salt, records.length, (payloadBytes records).length), 36) := by
    have split : [] ++ headerBytes salt records.length (payloadBytes records).length ++
        (payloadBytes records ++ pushU32 (crc32 (unsealedBytes salt records))) =
        fileBytes salt records := by
      simp [fileBytes, unsealedBytes]
    have read := reads_header salt few small [] (payloadBytes records ++
      pushU32 (crc32 (unsealedBytes salt records)))
      (by rw [split]; exact Nat.lt_of_le_of_lt whole limit)
    rw [split, headerBytes_length] at read
    exact read
  simp only [decode, fits, ↓reduceIte, header, bind, Except.bind]
  exact decodeBody_file salt few valid

theorem decode_encode {salt : Salt} {records : List PersistedTarget} {file : Bytes}
    (h : encode salt records = .ok file) : decode file = .ok (salt, records) := by
  obtain ⟨few, valid, rfl⟩ := encode_ok_iff.mp h
  exact decode_file salt few fun record mem => (valid record mem).bounded

/-- The total size and the integer conversions never decide; what is encoded
is read back as it was. -/
theorem encode_roundTrip (salt : Salt) (records : List PersistedTarget) :
    ((∃ file, encode salt records = .ok file) ↔ records.length ≤ 128 ∧
      ∀ record ∈ records, 1 ≤ (asBytes record.uri).length ∧ (asBytes record.uri).length ≤ 1024 ∧
        1 ≤ (asBytes record.requestId).length ∧ (asBytes record.requestId).length ≤ 256 ∧
        record.range.1 ≤ record.range.2) ∧
    ∀ file, encode salt records = .ok file → decode file = .ok (salt, records) := by
  refine ⟨⟨?_, ?_⟩, fun file written => decode_encode written⟩
  · intro ⟨file, written⟩
    obtain ⟨few, valid, -⟩ := encode_ok_iff.mp written
    refine ⟨few, fun record mem => ?_⟩
    have h := valid record mem
    exact ⟨h.uri_pos, h.uri_le, h.requestId_pos, h.requestId_le, h.range_le⟩
  · intro ⟨few, valid⟩
    refine ⟨fileBytes salt records, encode_ok_iff.mpr ⟨few, fun record mem => ?_, rfl⟩⟩
    obtain ⟨uriPos, uriLe, idPos, idLe, range⟩ := valid record mem
    exact ⟨uriPos, uriLe, idPos, idLe, range⟩

end ZonKey.RecoveryCodec

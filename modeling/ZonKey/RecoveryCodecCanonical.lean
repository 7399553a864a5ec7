import ZonKey.RecoveryCodecRoundTrip

set_option autoImplicit false

namespace ZonKey.RecoveryCodec
open ByteCursor Digest

theorem accepts_bytes (n : Nat) : Accepts (readBytes n) fun v enc => enc = v.toList :=
  accepts_fixed RecoveryCodecError.malformed .truncated n

theorem accepts_word {α : Type} {width : Nat} {toNat : α → Nat} {ofNat : Nat → α}
    (back : ∀ n, n < 256 ^ width → toNat (ofNat n) = n) :
    Accepts (fun bytes => readBytes width bytes >>= fun slice =>
      (pure (ofNat (ofLeBytes slice.toList)) : CodecReader α))
      fun value enc => enc = leBytes width (toNat value) := by
  apply (accepts_bytes width).bind
  rintro v _ rfl
  apply accepts_pure
  have bound := ofLeBytes_lt v.toList
  have same := leBytes_ofLeBytes v.toList
  rw [v.toList_length] at bound same
  rw [List.append_nil, back _ bound, same]

theorem accepts_u16 : Accepts readU16 fun value enc => enc = pushU16 value :=
  accepts_word fun _ small => UInt16.toNat_ofNat_of_lt small

theorem accepts_u32 : Accepts readU32 fun value enc => enc = pushU32 value :=
  accepts_word fun _ small => UInt32.toNat_ofNat_of_lt small

theorem accepts_u64 : Accepts readU64 fun value enc => enc = pushU64 value :=
  accepts_word fun _ small => UInt64.toNat_ofNat_of_lt small

theorem accepts_byte : Accepts readByte fun byte enc => enc = [byte] := by
  apply (accepts_bytes 1).bind
  rintro v _ rfl
  apply accepts_pure
  obtain ⟨bytes, size⟩ := v
  obtain ⟨byte, rfl⟩ := List.length_eq_one_iff.mp size
  rfl

theorem accepts_text (n : Nat) :
    Accepts (readText n) fun text enc => enc = asBytes text ∧ enc.length = n := by
  apply (accepts_bytes n).bind
  rintro v _ rfl
  cases valid : String.fromUTF8? ⟨v.toList.toArray⟩ with
  | none => exact accepts_throw _
  | some text =>
    apply accepts_pure
    rw [List.append_nil]
    exact ⟨(asBytes_of_fromUTF8 valid).symm, v.toList_length⟩

theorem accepts_verdict (code : UInt8) :
    Accepts (fun _ => decodeVerdict code) fun verdict enc => enc = [] ∧ code = verdictCode verdict := by
  unfold decodeVerdict
  split
  · exact accepts_pure _ ⟨rfl, rfl⟩
  · exact accepts_pure _ ⟨rfl, rfl⟩
  · exact accepts_pure _ ⟨rfl, rfl⟩
  · exact accepts_throw _

theorem accepts_kind : Accepts decodeKind fun kind enc => enc = encodeKind kind := by
  apply accepts_byte.bind
  rintro state _ rfl
  split
  · exact accepts_pure _ rfl
  · apply accepts_byte.bind
    rintro code _ rfl
    apply (accepts_verdict code).bind
    rintro verdict _ ⟨rfl, rfl⟩
    exact accepts_pure _ rfl
  · exact accepts_pure _ rfl
  · exact accepts_throw _

theorem accepts_record :
    Accepts decodeRecord fun record enc => enc = recordBytes record ∧ BoundedTexts record := by
  apply accepts_u16.bind
  rintro uriLen _ rfl
  apply Accepts.guard
  intro uriOk
  apply (accepts_text uriLen.toNat).bind
  rintro uri _ ⟨rfl, uriSize⟩
  apply accepts_u64.bind
  rintro rangeStart _ rfl
  apply accepts_u64.bind
  rintro rangeEnd _ rfl
  apply (accepts_bytes 32).bind
  rintro expectedHash _ rfl
  apply (accepts_bytes 32).bind
  rintro replacementHash _ rfl
  apply accepts_kind.bind
  rintro kind _ rfl
  apply accepts_u64.bind
  rintro generation _ rfl
  apply accepts_u64.bind
  rintro documentEpoch _ rfl
  apply accepts_u16.bind
  rintro requestIdLen _ rfl
  apply Accepts.guard
  intro idOk
  apply (accepts_text requestIdLen.toNat).bind
  rintro requestId _ ⟨rfl, idSize⟩
  apply accepts_pure
  have bounds : 0 < (asBytes uri).length ∧ (asBytes uri).length ≤ maxUriBytes ∧
      0 < (asBytes requestId).length ∧ (asBytes requestId).length ≤ maxRequestIdBytes := by omega
  refine ⟨?_, bounds.1, bounds.2.1, bounds.2.2.1, bounds.2.2.2⟩
  simp only [recordBytes, uriSize, idSize, UInt16.ofNat_toNat, List.append_nil]

theorem accepts_header : Accepts decodeHeader fun header enc =>
    enc = headerBytes header.1 header.2.1 header.2.2 ∧ header.2.1 ≤ maxRecoveryEntries := by
  apply (accepts_bytes 8).bind
  rintro magic _ rfl
  apply Accepts.guard
  intro magicOk
  apply accepts_u32.bind
  rintro version _ rfl
  apply Accepts.guard
  intro versionOk
  apply (accepts_bytes 16).bind
  rintro salt _ rfl
  apply accepts_u32.bind
  rintro count _ rfl
  apply Accepts.guard
  intro few
  apply accepts_u32.bind
  rintro payloadLen _ rfl
  apply accepts_pure
  refine ⟨?_, Nat.le_of_not_lt few⟩
  simp only [not_not] at magicOk versionOk
  simp only [headerBytes, magicOk, versionOk, UInt32.ofNat_toNat, List.append_nil]

theorem checkedAdd_some {a b sum : Nat} (h : checkedAdd a b = some sum) : sum = a + b := by
  unfold checkedAdd at h
  split at h
  · exact (Option.some.inj h).symm
  · cases h

theorem decodeBody_checks {bytes : Bytes} {salt salt' : Salt} {count payloadLen offset : Nat}
    {records : List PersistedTarget}
    (h : decodeBody bytes salt count payloadLen offset = .ok (salt', records)) :
    salt' = salt ∧ bytes.length = offset + payloadLen + 4 ∧
      (∃ stop, readU32 bytes (offset + payloadLen) =
        .ok (crc32 (bytes.take (offset + payloadLen)), stop)) ∧
      readMany decodeRecord ((bytes.drop offset).take payloadLen) count 0 =
        .ok (records, payloadLen) := by
  unfold decodeBody at h
  split at h
  · cases h
  · rename_i payloadEnd first
    split at h
    · cases h
    · rename_i fileEnd second
      have inner := checkedAdd_some first
      have outer := checkedAdd_some second
      subst payloadEnd fileEnd
      split_ifs at h with wrong
      have size : bytes.length = offset + payloadLen + 4 := not_not.mp wrong
      cases stored : readU32 bytes (offset + payloadLen) with
      | error e => rw [stored] at h; cases h
      | ok p =>
        rw [stored] at h
        change (if crc32 (bytes.take (bytes.length - 4)) ≠ p.1 then _ else _) = _ at h
        rw [size, Nat.add_sub_cancel] at h
        split_ifs at h with unsealed
        cases rows : readMany decodeRecord ((bytes.drop offset).take payloadLen) count 0 with
        | error e => rw [rows] at h; cases h
        | ok q =>
          rw [rows] at h
          change (if q.2 ≠ payloadLen then _ else _) = _ at h
          split_ifs at h with rest
          have all : q.2 = payloadLen := not_not.mp rest
          cases h
          refine ⟨rfl, size, ⟨p.2, ?_⟩, ?_⟩
          · rw [not_not.mp unsealed]
          · rw [← all]

theorem decodeBody_ok {bytes : Bytes} {salt salt' : Salt} {count payloadLen offset : Nat}
    {records : List PersistedTarget}
    (h : decodeBody bytes salt count payloadLen offset = .ok (salt', records)) :
    salt' = salt ∧ records.length = count ∧ (∀ record ∈ records, BoundedTexts record) ∧
      (payloadBytes records).length = payloadLen ∧
      bytes = bytes.take offset ++ payloadBytes records ++
        pushU32 (crc32 (bytes.take offset ++ payloadBytes records)) := by
  obtain ⟨rfl, size, ⟨stop, stored⟩, rows⟩ := decodeBody_checks h
  have window : ((bytes.drop offset).take payloadLen).length = payloadLen := by
    rw [List.length_take, List.length_drop]
    omega
  obtain ⟨few, payload, valid⟩ :=
    (accepts_many accepts_record count).whole (by rw [window]; exact rows)
  rw [← payloadBytes] at payload
  have front : bytes.take (offset + payloadLen) = bytes.take offset ++ payloadBytes records := by
    rw [← payload, ← List.take_add]
  obtain ⟨crc, after, split, -, rfl⟩ := accepts_u32 bytes _ _ stop (by omega) stored
  have last : after = [] := by
    have lengths := congrArg List.length split
    rw [List.length_drop, List.length_append, pushU32, leBytes_length] at lengths
    exact List.length_eq_zero_iff.mp (by omega)
  refine ⟨rfl, few, valid, by rw [← payload, window], ?_⟩
  rw [last, List.append_nil] at split
  rw [← front, ← split, List.take_append_drop]

/-- The decoder accepts the layouts of at most 128 records with bounded texts. -/
theorem decode_ok_iff {bytes : Bytes} {salt : Salt} {records : List PersistedTarget} :
    decode bytes = .ok (salt, records) ↔ records.length ≤ maxRecoveryEntries ∧
      (∀ record ∈ records, BoundedTexts record) ∧ bytes = fileBytes salt records := by
  constructor
  · intro h
    unfold decode at h
    split_ifs at h with big
    cases header : decodeHeader bytes 0 with
    | error e => rw [header] at h; cases h
    | ok p =>
      obtain ⟨⟨found, count, payloadLen⟩, offset⟩ := p
      rw [header] at h
      obtain ⟨enc, after, split, rfl, rfl, few⟩ :=
        accepts_header bytes 0 _ offset (Nat.zero_le _) header
      obtain ⟨rfl, rfl, valid, rfl, same⟩ := decodeBody_ok h
      refine ⟨few, valid, ?_⟩
      rw [List.drop_zero] at split
      have front : bytes.take (0 + (headerBytes salt records.length
          (payloadBytes records).length).length) =
          headerBytes salt records.length (payloadBytes records).length := by
        rw [Nat.zero_add, split, List.take_left]
      rw [front] at same
      exact same
  · rintro ⟨few, valid, rfl⟩
    exact decode_file salt few valid

/-- The layout of a state that the encoder refuses only because the range of
some record starts behind its end. -/
def HasReversedRange (bytes : Bytes) : Prop :=
  ∃ salt records, bytes = fileBytes salt records ∧ records.length ≤ maxRecoveryEntries ∧
    (∀ record ∈ records, BoundedTexts record) ∧ ∃ record ∈ records, record.range.2 < record.range.1

/-- An accepted file is one that `encode` writes, unless it holds a reversed range. -/
theorem decode_canonical_iff (bytes : Bytes) :
    (∀ salt records, decode bytes = .ok (salt, records) → encode salt records = .ok bytes) ↔
      ¬ HasReversedRange bytes := by
  constructor
  · rintro canonical ⟨salt, records, rfl, few, valid, record, mem, reversed⟩
    have written := canonical salt records (decode_file salt few valid)
    obtain ⟨-, ordered, -⟩ := encode_ok_iff.mp written
    have range := (ordered record mem).range_le
    rw [UInt64.le_iff_toNat_le] at range
    rw [UInt64.lt_iff_toNat_lt] at reversed
    omega
  · intro ordered salt records read
    obtain ⟨few, valid, same⟩ := decode_ok_iff.mp read
    refine encode_ok_iff.mpr ⟨few, fun record mem => validRecord_iff.mpr ⟨valid record mem, ?_⟩, same⟩
    by_contra reversed
    exact ordered ⟨salt, records, same, few, valid, record, mem, UInt64.not_le.mp reversed⟩

def reversedTarget : PersistedTarget :=
  ⟨"file:///doc", (6, 0), List.Vector.replicate 32 0, List.Vector.replicate 32 0, .pending, 0, 0,
    "req-1"⟩

theorem decode_accepts_reversed :
    decode (fileBytes (List.Vector.replicate 16 0) [reversedTarget]) =
        .ok (List.Vector.replicate 16 0, [reversedTarget]) ∧
      encode (List.Vector.replicate 16 0) [reversedTarget] = .error .encodeOverflow := by
  refine ⟨decode_file _ (by decide) fun record mem => ?_, rfl⟩
  rw [List.mem_singleton.mp mem]
  exact ⟨by decide, by decide, by decide, by decide⟩

end ZonKey.RecoveryCodec

import ZonKey.FoldedChecksum
import ZonKey.RecoveryCodecCanonical

set_option autoImplicit false

namespace ZonKey.RecoveryCodec
open ByteCursor Digest FoldedChecksum

theorem crc32Bit_eq (crc : UInt32) :
    crc32Bit crc = (crc >>> 1) ^^^ (if crc.toNat % 2 = 1 then 0xEDB88320 else 0) := by
  have low : crc &&& 1 = if crc.toNat % 2 = 1 then 1 else 0 := by
    apply UInt32.toNat_inj.mp
    rw [UInt32.toNat_and, show (1 : UInt32).toNat = 1 from rfl, Nat.and_one_is_mod]
    split <;> rename_i parity
    · exact parity
    · change crc.toNat % 2 = 0
      omega
  simp only [crc32Bit, low]
  split <;> rfl

/-- The polynomial has the top bit set, so the bit shifted out stays readable. -/
theorem crc32Bit_injective : Function.Injective crc32Bit := by
  intro a b same
  have halves : ∀ c : UInt32, (c >>> 1).toNat = c.toNat / 2 := by
    intro c
    rw [UInt32.toNat_shiftRight, show (1 : UInt32).toNat % 32 = 1 from rfl, Nat.shiftRight_one]
  have small : ∀ c : UInt32, c.toNat / 2 < 2 ^ 31 := by
    intro c
    have := c.toNat_lt
    omega
  have top : ∀ c d : UInt32, ((c >>> 1) ^^^ (0xEDB88320 : UInt32)) ≠ d >>> 1 := by
    intro c d eq
    have poly : (c >>> 1) ^^^ (d >>> 1) = 0xEDB88320 := by
      rw [← eq, ← UInt32.xor_assoc, UInt32.xor_self, UInt32.zero_xor]
    have bound := Nat.xor_lt_two_pow (small c) (small d)
    rw [← halves, ← halves, ← UInt32.toNat_xor, poly] at bound
    exact absurd bound (by decide)
  rw [crc32Bit_eq, crc32Bit_eq] at same
  have halfEq : a >>> 1 = b >>> 1 ∧ a.toNat % 2 = b.toNat % 2 := by
    split at same <;> split at same
    · exact ⟨(UInt32.xor_left_inj _).mp same, by omega⟩
    · rw [UInt32.xor_zero] at same
      exact absurd same (top a b)
    · rw [UInt32.xor_zero] at same
      exact absurd same.symm (top b a)
    · exact ⟨(UInt32.xor_left_inj _).mp same, by omega⟩
  have quotient := congrArg UInt32.toNat halfEq.1
  rw [halves, halves] at quotient
  apply UInt32.toNat_inj.mp
  omega

theorem crc32Byte_injective_state (byte : UInt8) : Function.Injective (crc32Byte · byte) := by
  intro a b same
  have mixed := iterate_fold_injective crc32Bit_injective (List.range 8) same
  exact (UInt32.xor_left_inj _).mp mixed

theorem crc32Byte_injective_byte (crc : UInt32) : Function.Injective (crc32Byte crc) := by
  intro x y same
  have mixed := iterate_fold_injective crc32Bit_injective (List.range 8) same
  have widened : x.toUInt32 = y.toUInt32 := (UInt32.xor_right_inj _).mp mixed
  have value := congrArg UInt32.toNat widened
  rw [UInt8.toNat_toUInt32, UInt8.toNat_toUInt32] at value
  exact UInt8.toNat_inj.mp value

theorem crc32_ne (before after : Bytes) {x y : UInt8} (differ : x ≠ y) :
    crc32 (before ++ x :: after) ≠ crc32 (before ++ y :: after) := by
  intro same
  have folded := UInt32.not_inj.mp same
  exact foldl_ne crc32Byte_injective_state crc32Byte_injective_byte _ before after differ folded

theorem pushU32_injective : Function.Injective pushU32 := by
  intro a b same
  have values := congrArg ofLeBytes same
  rw [pushU32, pushU32, ofLeBytes_leBytes_of_lt a.toNat_lt, ofLeBytes_leBytes_of_lt b.toNat_lt]
    at values
  exact UInt32.toNat_inj.mp values

theorem headerBytes_payloadLen (salt : Salt) (count payloadLen : Nat) :
    (headerBytes salt count payloadLen).drop 32 = pushU32 (.ofNat payloadLen) := by
  have size : (recoveryStateMagic ++ (pushU32 recoveryStateVersion ++ (salt.toList ++
      pushU32 (.ofNat count)))).length = 32 := by
    simp [recoveryStateMagic, pushU32, leBytes_length]
  have split : headerBytes salt count payloadLen = (recoveryStateMagic ++
      (pushU32 recoveryStateVersion ++ (salt.toList ++ pushU32 (.ofNat count)))) ++
        pushU32 (.ofNat payloadLen) := by
    simp [headerBytes]
  rw [split, List.drop_left' size]

theorem fileBytes_header (salt : Salt) (records : List PersistedTarget) :
    (fileBytes salt records).take 36 =
      headerBytes salt records.length (payloadBytes records).length := by
  rw [fileBytes, unsealedBytes, List.append_assoc]
  exact List.take_left' (headerBytes_length salt records.length (payloadBytes records).length)

variable {salt salt' : Salt} {records records' : List PersistedTarget}

/-- No file is a proper prefix of another: the header fixes the length. -/
theorem fileBytes_prefixFree (small : (payloadBytes records).length < 2 ^ 32)
    (small' : (payloadBytes records').length < 2 ^ 32)
    (start : fileBytes salt records <+: fileBytes salt' records') :
    fileBytes salt records = fileBytes salt' records' := by
  have size := fileBytes_length salt records
  have size' := fileBytes_length salt' records'
  have header : (fileBytes salt records).take 36 = (fileBytes salt' records').take 36 := by
    obtain ⟨rest, eq⟩ := start
    rw [← eq, List.take_append_of_le_length (by omega)]
  rw [fileBytes_header, fileBytes_header] at header
  have field := congrArg (List.drop 32) header
  rw [headerBytes_payloadLen, headerBytes_payloadLen] at field
  have same := congrArg UInt32.toNat (pushU32_injective field)
  have payload : (payloadBytes records).length = (payloadBytes records').length := by
    rwa [UInt32.toNat_ofNat_of_lt' small, UInt32.toNat_ofNat_of_lt' small'] at same
  exact start.eq_of_length (by omega)

/-- A sealed message is told apart from every message that differs in one byte. -/
theorem sealed_ne {u v before after : Bytes} {x y : UInt8} (differ : y ≠ x)
    (first : u ++ pushU32 (crc32 u) = before ++ x :: after) :
    v ++ pushU32 (crc32 v) ≠ before ++ y :: after := by
  intro second
  have seals : ∀ w, (pushU32 (crc32 w)).length = 4 := fun w => leBytes_length 4 _
  have lengths := congrArg List.length first
  have lengths' := congrArg List.length second
  simp only [List.length_append, List.length_cons, seals] at lengths lengths'
  have fronts : u = (before ++ x :: after).take u.length := by rw [← first, List.take_left]
  have fronts' : v = (before ++ y :: after).take u.length := by
    rw [← second, List.take_left' (by omega)]
  have rests : pushU32 (crc32 u) = (before ++ x :: after).drop u.length := by
    rw [← first, List.drop_left]
  have rests' : pushU32 (crc32 v) = (before ++ y :: after).drop u.length := by
    rw [← second, List.drop_left' (by omega)]
  by_cases inside : before.length < u.length
  · -- the changed byte is covered by the checksum, whose four bytes stayed as they were
    obtain ⟨more, eq⟩ : ∃ more, u.length = before.length + (more + 1) :=
      ⟨u.length - before.length - 1, by omega⟩
    rw [eq, List.take_length_add_append, List.take_succ_cons] at fronts fronts'
    rw [eq, List.drop_length_add_append, List.drop_succ_cons] at rests rests'
    have same := pushU32_injective (rests.trans rests'.symm)
    rw [fronts, fronts'] at same
    exact crc32_ne before (after.take more) differ same.symm
  · -- the message is unchanged, so its checksum is
    rw [List.take_append_of_le_length (by omega)] at fronts fronts'
    have same : u = v := fronts.trans fronts'.symm
    rw [← same, first] at second
    have byte := List.append_cancel_left second
    exact differ (List.cons.inj byte).1.symm

theorem error_of_not_ok {α : Type} {result : Except RecoveryCodecError α}
    (h : ∀ a, result ≠ .ok a) : ∃ e, result = .error e := by
  cases result with
  | error e => exact ⟨e, rfl⟩
  | ok a => exact absurd rfl (h a)

theorem payload_small (few : records.length ≤ maxRecoveryEntries)
    (valid : ∀ record ∈ records, BoundedTexts record) :
    (payloadBytes records).length < 2 ^ 32 := by
  have bound := payloadBytes_length_le valid
  unfold maxRecoveryEntries at few
  omega

/-- A file that is cut, extended or changed in one byte does not decode. -/
theorem corrupted_file_fails_closed {file : Bytes} (written : encode salt records = .ok file) :
    (∀ cut, cut <+: file → cut ≠ file → ∃ e, decode cut = .error e) ∧
      (∀ extra, extra ≠ [] → ∃ e, decode (file ++ extra) = .error e) ∧
      ∀ before x after y, file = before ++ x :: after → y ≠ x →
        ∃ e, decode (before ++ y :: after) = .error e := by
  obtain ⟨few, ordered, rfl⟩ := encode_ok_iff.mp written
  have small := payload_small few fun record mem => (ordered record mem).bounded
  refine ⟨fun cut start proper => ?_, fun extra more => ?_, fun before x after y whole differ => ?_⟩
  all_goals
    refine error_of_not_ok fun p read => ?_
    obtain ⟨few', valid, same⟩ := decode_ok_iff.mp read
  · rw [same] at start proper
    exact proper (fileBytes_prefixFree (payload_small few' valid) small start)
  · have start : fileBytes salt records <+: fileBytes p.1 p.2 := ⟨extra, same⟩
    have equal := fileBytes_prefixFree small (payload_small few' valid) start
    rw [← same] at equal
    exact more (List.append_right_eq_self.mp equal.symm)
  · exact sealed_ne differ whole same.symm

def docTarget : PersistedTarget :=
  ⟨"file:///doc", (0, 6), List.Vector.replicate 32 0, List.Vector.replicate 32 0, .pending, 0, 0,
    "req-1"⟩

theorem corrupted_file_fails_closed_record :
    let file := fileBytes (List.Vector.replicate 16 0) [docTarget]
    (∃ e, decode (file.take 60) = .error e) ∧ (∃ e, decode (file ++ [0]) = .error e) ∧
      ∃ e, decode (file.take 60 ++ (file.getD 60 0 + 1) :: file.drop 61) = .error e := by
  intro file
  have written : encode (List.Vector.replicate 16 0) [docTarget] = .ok file := by
    refine encode_ok_iff.mpr ⟨by decide, ?_, rfl⟩
    intro record mem
    rw [List.mem_singleton.mp mem]
    exact validRecord_iff.mpr ⟨⟨by decide, by decide, by decide, by decide⟩, by decide⟩
  have size : file.length = 36 + (payloadBytes [docTarget]).length + 4 := fileBytes_length _ _
  have longer : 60 < file.length := by
    rw [size, payloadBytes, List.flatMap_singleton, recordBytes]
    simp only [List.length_append, pushU16, pushU64, leBytes_length, List.Vector.toList_length]
    omega
  obtain ⟨cut, extended, changed⟩ := corrupted_file_fails_closed written
  refine ⟨cut _ (List.take_prefix 60 file) ?_, extended [0] (List.cons_ne_nil _ _),
    changed _ (file.getD 60 0) _ _ ?_ ?_⟩
  · intro same
    have := congrArg List.length same
    rw [List.length_take] at this
    omega
  · rw [List.getD_eq_getElem?_getD, List.getElem?_eq_getElem longer, Option.getD_some, List.cons_getElem_drop_succ, List.take_append_drop]
  · simp

end ZonKey.RecoveryCodec

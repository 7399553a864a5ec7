import ZonKey.RecoveryRegistrySteps

set_option autoImplicit false

namespace ZonKey.Recovery.RecoveryRegistry
open ByteCursor RecoveryCodec

def hexDigits (bytes : Bytes) : List Char :=
  bytes.flatMap fun byte => [Nat.digitChar (byte.toNat / 16), Nat.digitChar (byte.toNat % 16)]

theorem hex_toList (bytes : Bytes) : (hex bytes).toList = hexDigits bytes := String.toList_ofList

theorem hexDigits_length (bytes : Bytes) : (hexDigits bytes).length = 2 * bytes.length := by
  induction bytes with
  | nil => rfl
  | cons byte rest ih =>
    rw [hexDigits, List.flatMap_cons, List.length_append, ← hexDigits, ih]
    simp only [List.length_cons, List.length_nil]
    omega

theorem digitChar_inj {a b : Nat} (ha : a < 16) (hb : b < 16)
    (h : Nat.digitChar a = Nat.digitChar b) : a = b := by
  have all : ∀ a b : Fin 16, Nat.digitChar a = Nat.digitChar b → a = b := by decide
  exact congrArg Fin.val (all ⟨a, ha⟩ ⟨b, hb⟩ h)

theorem hexDigits_inj {xs ys : Bytes} (h : hexDigits xs = hexDigits ys) : xs = ys := by
  induction xs generalizing ys with
  | nil =>
    have size := congrArg List.length h
    rw [hexDigits_length, hexDigits_length] at size
    exact (List.length_eq_zero_iff.mp (by simpa using size.symm)).symm
  | cons x rest ih =>
    cases ys with
    | nil => cases h
    | cons y others =>
      obtain ⟨high, low, tail⟩ : _ ∧ _ ∧ hexDigits rest = hexDigits others := by
        simpa [hexDigits] using h
      have hx := x.toNat_lt
      have hy := y.toNat_lt
      have div := digitChar_inj (by omega) (by omega) high
      have mod := digitChar_inj (by omega) (by omega) low
      have same : x = y := UInt8.toNat_inj.mp (by omega)
      rw [same, ih tail]

theorem key_toList (uri expected : String) :
    (key uri expected).toList = (uri.toList ++ ['\x00']) ++ expected.toList := by
  simp [key, String.toList_append]

theorem hashKey_inj {uri uri' : String} {hash hash' : Hash}
    (h : hashKey uri hash = hashKey uri' hash') : uri = uri' ∧ hash = hash' := by
  have chars := congrArg String.toList h
  rw [hashKey, hashKey, key_toList, key_toList, hex_toList, hex_toList] at chars
  have size : (hexDigits hash.toList).length = (hexDigits hash'.toList).length := by
    rw [hexDigits_length, hexDigits_length, hash.toList_length, hash'.toList_length]
  obtain ⟨uris, digits⟩ := List.append_inj' chars size
  exact ⟨String.toList_inj.mp (List.append_cancel_right uris),
    List.Vector.eq _ _ (hexDigits_inj digits)⟩

theorem hashKey_ne_key {uri expected : String} {hash : Hash} (short : expected.toList.length ≠ 64) :
    hashKey uri hash ≠ key uri expected := by
  intro h
  have chars := congrArg String.toList h
  rw [hashKey, key_toList, key_toList, hex_toList] at chars
  have size := congrArg List.length (List.append_cancel_left chars)
  rw [hexDigits_length, hash.toList_length] at size
  exact short size.symm

theorem recordKey_inj {a b : PersistedTarget} (h : recordKey a = recordKey b) :
    a.uri = b.uri ∧ a.expectedHash = b.expectedHash := hashKey_inj h

theorem restore_listed {capacity : Nat} {salt : Salt} {records : List PersistedTarget}
    {r : RecoveryRegistry} (h : restore capacity salt records = .ok r)
    (distinct : (records.map recordKey).Nodup) : r.list = records.map restoredTarget := by
  obtain ⟨_, _, _, _, queue⟩ := restore_ok h
  unfold list
  rw [queue, KeyedQueue.appends_listed _ (by rw [List.map_map]; exact distinct)]
  simp

theorem restore_one {capacity : Nat} {salt : Salt} {record : PersistedTarget}
    {r : RecoveryRegistry} (h : restore capacity salt [record] = .ok r) {expected : String}
    (is : record.expectedHash = saltedHash salt expected)
    (short : expected.toList.length ≠ 64) :
    r.resolveKey record.uri expected = recordKey record ∧
      r.entries (recordKey record) = some (restoredTarget record) := by
  obtain ⟨_, _, _, salted, queue⟩ := restore_ok h
  have found : r.entries (recordKey record) = some (restoredTarget record) := by
    rw [queue]
    exact KeyedQueue.setEntry_self _ _ _
  have absent : r.contains (key record.uri expected) = false := by
    cases known : r.entries (key record.uri expected) with
    | none => simp [KeyedQueue.contains, known]
    | some target =>
      obtain ⟨source, mem, keys, _⟩ := restore_entry h known
      cases List.mem_singleton.mp mem
      exact absurd keys (hashKey_ne_key short)
  refine ⟨?_, found⟩
  simp [resolveKey, absent, salted, recordKey, is]

@[mk_iff] structure RestoredAs (target : BlockedTarget) (record : PersistedTarget) : Prop where
  uri : target.uri = record.uri
  range : target.range = record.range
  documentEpoch : target.documentEpoch = record.documentEpoch
  expected : target.expected = .hashed record.expectedHash
  replacement : target.replacement = .hashed record.replacementHash

def AgreeOnTargets (records : List PersistedTarget) : Prop :=
  ∀ a ∈ records, ∀ b ∈ records, a.uri = b.uri → a.expectedHash = b.expectedHash →
    a.range = b.range ∧ a.documentEpoch = b.documentEpoch ∧ a.replacementHash = b.replacementHash

theorem entry_of_restoredAs {capacity : Nat} {salt : Salt} {records : List PersistedTarget}
    {r : RecoveryRegistry} (h : restore capacity salt records = .ok r) {target : BlockedTarget}
    {record : PersistedTarget} (mem : target ∈ r.list) (same : RestoredAs target record) :
    r.entries (recordKey record) = some target := by
  obtain ⟨k, found⟩ := (restore_coherent h).mem_listed.mp mem
  obtain ⟨source, _, rfl, rfl⟩ := restore_entry h found
  have keys : recordKey record = recordKey source := by
    have hashes := RecoveryText.hashed.inj same.expected
    rw [recordKey, recordKey, ← same.uri, ← hashes]
    rfl
  rw [keys]
  exact found

/-- Every record survives a restore exactly when no two of them disagree
about the target they name. -/
theorem restore_complete_iff {capacity : Nat} {salt : Salt} {records : List PersistedTarget}
    {r : RecoveryRegistry} (h : restore capacity salt records = .ok r) :
    (∀ record ∈ records, ∃ target ∈ r.list, RestoredAs target record) ↔ AgreeOnTargets records := by
  constructor
  · intro complete a aMem b bMem uris hashes
    obtain ⟨one, oneMem, oneAs⟩ := complete a aMem
    obtain ⟨two, twoMem, twoAs⟩ := complete b bMem
    have first := entry_of_restoredAs h oneMem oneAs
    have second := entry_of_restoredAs h twoMem twoAs
    rw [recordKey, uris, hashes, ← recordKey, second] at first
    cases first
    exact ⟨oneAs.range.symm.trans twoAs.range, oneAs.documentEpoch.symm.trans twoAs.documentEpoch,
      RecoveryText.hashed.inj (oneAs.replacement.symm.trans twoAs.replacement)⟩
  · intro agree record mem
    obtain ⟨target, found⟩ := Option.isSome_iff_exists.mp (restore_contains h mem)
    obtain ⟨source, sourceMem, keys, rfl⟩ := restore_entry h found
    obtain ⟨uris, hashes⟩ := recordKey_inj keys
    obtain ⟨range, epoch, replacement⟩ := agree source sourceMem record mem uris hashes
    refine ⟨_, (restore_coherent h).mem_listed.mpr ⟨_, found⟩, uris, range, epoch, ?_, ?_⟩
    · exact congrArg RecoveryText.hashed hashes
    · exact congrArg RecoveryText.hashed replacement

end ZonKey.Recovery.RecoveryRegistry

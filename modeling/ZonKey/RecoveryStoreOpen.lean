import ZonKey.RecoveryStoreSteps

set_option autoImplicit false

namespace ZonKey.Store
open ByteCursor Digest RecoveryCodec Recovery Runs WriteThrough
namespace DurableRecoveryStore

inductive Unreadable (bytes : Bytes) (capacity : Nat) : RecoveryCodecError → Prop
  | oversized (size : maxRecoveryStateBytes < bytes.length) : Unreadable bytes capacity .oversizedFile
  | undecodable {error : RecoveryCodecError} (failed : decode bytes = .error error) :
      Unreadable bytes capacity error
  | unrestorable {salt : Salt} {records : List PersistedTarget} {error : LedgerCapacityError}
      (decoded : decode bytes = .ok (salt, records))
      (failed : RecoveryRegistry.restore capacity salt records = .error error) :
      Unreadable bytes capacity .tooManyEntries

inductive Opening (env : OpenEnvironment) (directory : StateDirectory) (capacity : Nat) :
    DurableRecoveryStore → Prop
  | unavailable {registry : RecoveryRegistry} {size : Nat} {salt : Salt} {writes : List Bytes}
      (made : RecoveryRegistry.new size = .ok registry)
      (cause : env.directoryReady = false ∨ readState env directory = none ∧
        (env.randomSalt = none ∨ capacity ≠ 0 ∧ env.durable = false)) :
      Opening env directory capacity
        ⟨registry, [], ⟨directory.content, writes⟩, salt, some .unavailable⟩
  | unreadable {registry : RecoveryRegistry} {size : Nat} {salt : Salt} {bytes : Bytes}
      {error : RecoveryCodecError} (made : RecoveryRegistry.new size = .ok registry)
      (read : readState env directory = some bytes) (cause : Unreadable bytes capacity error) :
      Opening env directory capacity ⟨registry, [], directory, salt, some (.stateUnreadable error)⟩
  | fresh {registry : RecoveryRegistry} {salt : Salt} {bytes : Bytes} {writes : List Bytes}
      (ready : env.directoryReady = true) (unread : readState env directory = none)
      (random : env.randomSalt = some salt) (made : RecoveryRegistry.new capacity = .ok registry)
      (encoded : encode salt [] = .ok bytes) (written : env.durable = true) :
      Opening env directory capacity ⟨registry, [], ⟨some bytes, writes⟩, salt, none⟩
  | restored {registry : RecoveryRegistry} {salt : Salt} {bytes : Bytes}
      {records : List PersistedTarget} (ready : env.directoryReady = true)
      (read : readState env directory = some bytes) (decoded : decode bytes = .ok (salt, records))
      (made : RecoveryRegistry.restore capacity salt records = .ok registry) :
      Opening env directory capacity ⟨registry, [], directory, salt, none⟩

theorem content_of_read {env : OpenEnvironment} {directory : StateDirectory} {bytes : Bytes}
    (read : readState env directory = some bytes) : directory.content = some bytes := by
  unfold readState at read
  split at read
  · cases read
  · exact read

theorem encode_nil (salt : Salt) : encode salt [] = .ok (fileBytes salt []) :=
  encode_ok_iff.mpr ⟨Nat.zero_le _, by simp, rfl⟩

def freshStore (salt : Salt) (capacity : Nat) (positive : 0 < capacity) : DurableRecoveryStore :=
  ⟨⟨KeyedQueue.empty, capacity, positive, none⟩, [],
    ⟨some (fileBytes salt []), [fileBytes salt []]⟩, salt, none⟩

theorem openIn_freshStore (salt : Salt) {capacity : Nat} (positive : 0 < capacity) :
    openIn ⟨true, false, some salt, true⟩ ⟨none, []⟩ capacity =
      some (freshStore salt capacity positive) := by
  simp only [openIn, readState, RecoveryRegistry.new, encode_nil, dif_neg positive.ne']
  rfl

theorem validRecord_r1 {record : PersistedTarget} (uri : record.uri = "file:///a")
    (requestId : record.requestId = "r1") (ordered : record.range.1 ≤ record.range.2) :
    ValidRecord record := by
  have texts : (0 < (asBytes "file:///a").length ∧ (asBytes "file:///a").length ≤ maxUriBytes) ∧
      0 < (asBytes "r1").length ∧ (asBytes "r1").length ≤ maxRequestIdBytes := by decide
  rw [← uri, ← requestId] at texts
  exact ⟨texts.1.1, texts.1.2, texts.2.1, texts.2.2, ordered⟩

theorem run_begin_freshStore {salt : Salt} {capacity : Nat} (positive : 0 < capacity)
    {d : RecoveryDescriptor} (valid : ValidRecord (pendingRecord salt d)) :
    ∃ file, run next (freshStore salt capacity positive) [⟨.beginPending d, true⟩] =
      { freshStore salt capacity positive with
        pending := [d]
        directory := (freshStore salt capacity positive).directory.replace file true } := by
  have encoded : encodeLive salt ⟨(freshStore salt capacity positive).registry, [d]⟩ = .ok _ :=
    encode_ok_iff.mpr ⟨show 1 ≤ maxRecoveryEntries by decide, List.forall_mem_singleton.mpr valid, rfl⟩
  exact ⟨_, next_begin rfl (List.forall_mem_nil _) positive encoded⟩

theorem new_toOption {capacity : Nat} {registry : RecoveryRegistry} :
    (RecoveryRegistry.new capacity).toOption = some registry ↔
      RecoveryRegistry.new capacity = .ok registry := by
  cases RecoveryRegistry.new capacity <;> simp [Except.toOption]

theorem poisoned_eq {directory : StateDirectory} {capacity : Nat} {reason : RecoveryStoreError}
    {store : DurableRecoveryStore} (h : poisoned directory capacity reason = some store) :
    ∃ registry size, RecoveryRegistry.new size = .ok registry ∧
      store = ⟨registry, [], directory, .replicate 16 0, some reason⟩ := by
  obtain ⟨registry, made, rfl⟩ := Option.map_eq_some_iff.mp h
  exact ⟨registry, _, new_toOption.mp made, rfl⟩

theorem openIn_opening {env : OpenEnvironment} {directory : StateDirectory} {capacity : Nat}
    {store : DurableRecoveryStore} (h : openIn env directory capacity = some store) :
    Opening env directory capacity store := by
  unfold openIn at h
  split at h
  · rename_i missing
    obtain ⟨registry, size, made, rfl⟩ := poisoned_eq h
    exact .unavailable made (.inl (by simpa using missing))
  · rename_i ready
    rw [Bool.not_eq_true, Bool.not_eq_false] at ready
    split at h
    · rename_i unread
      split at h
      · rename_i unsalted
        obtain ⟨registry, size, made, rfl⟩ := poisoned_eq h
        exact .unavailable made (.inr ⟨unread, .inl unsalted⟩)
      · rename_i salt random
        obtain ⟨registry, some_made, rfl⟩ := Option.map_eq_some_iff.mp h
        have made := new_toOption.mp some_made
        rw [encode_nil]
        cases written : env.durable with
        | true => exact .fresh ready unread random made (encode_nil salt) written
        | false =>
          have positive : capacity ≠ 0 := by
            rintro rfl
            cases made
          exact .unavailable made (.inr ⟨unread, .inr ⟨positive, written⟩⟩)
    · rename_i bytes read
      split at h
      · rename_i size
        obtain ⟨registry, size', made, rfl⟩ := poisoned_eq h
        exact .unreadable made read (.oversized size)
      · split at h
        · rename_i failed
          obtain ⟨registry, size, made, rfl⟩ := poisoned_eq h
          exact .unreadable made read (.undecodable failed)
        · rename_i decoded
          split at h
          · rename_i made
            cases h
            exact .restored ready read decoded made
          · rename_i failed
            obtain ⟨registry, size, made, rfl⟩ := poisoned_eq h
            exact .unreadable made read (.unrestorable decoded failed)

theorem poisoned_isSome (directory : StateDirectory) (capacity : Nat)
    (reason : RecoveryStoreError) : (poisoned directory capacity reason).isSome := by
  have positive : max capacity 1 ≠ 0 := by omega
  simp [poisoned, RecoveryRegistry.new, positive, Except.toOption]

/-- Only the fresh branch can panic, and only on a zero capacity. -/
theorem openIn_isSome_iff (env : OpenEnvironment) (directory : StateDirectory) (capacity : Nat) :
    (openIn env directory capacity).isSome ↔ env.directoryReady = false ∨
      readState env directory ≠ none ∨ env.randomSalt = none ∨ capacity ≠ 0 := by
  unfold openIn
  cases ready : env.directoryReady with
  | false => simp [poisoned_isSome]
  | true =>
    cases read : readState env directory with
    | none =>
      cases random : env.randomSalt with
      | none => simp [poisoned_isSome]
      | some salt =>
        by_cases zero : capacity = 0 <;>
          simp [RecoveryRegistry.new, zero, Except.toOption]
    | some bytes =>
      simp only [not_true_eq_false, ↓reduceIte, ne_eq, reduceCtorEq, not_false_eq_true, true_or,
        or_true, iff_true]
      split
      · exact poisoned_isSome ..
      · cases decode bytes with
        | error error => exact poisoned_isSome ..
        | ok decoded =>
          cases made : RecoveryRegistry.restore capacity decoded.1 decoded.2 with
          | ok registry => simp [made]
          | error error => simpa [made] using poisoned_isSome ..

theorem openIn_of_decoded {env : OpenEnvironment} {directory : StateDirectory} {capacity : Nat}
    {bytes : Bytes} {salt : Salt} {records : List PersistedTarget}
    (ready : env.directoryReady = true) (read : readState env directory = some bytes)
    (size : bytes.length ≤ maxRecoveryStateBytes) (decoded : decode bytes = .ok (salt, records)) :
    openIn env directory capacity =
      match RecoveryRegistry.restore capacity salt records with
      | .ok registry => some ⟨registry, [], directory, salt, none⟩
      | .error _ => poisoned directory capacity (.stateUnreadable .tooManyEntries) := by
  have prepared : ¬ ¬ env.directoryReady = true := not_not.mpr ready
  have small : ¬ maxRecoveryStateBytes < bytes.length := Nat.not_lt.mpr size
  cases made : RecoveryRegistry.restore capacity salt records with
  | ok registry => simp only [openIn, if_neg prepared, read, if_neg small, decoded, made]
  | error error => simp only [openIn, if_neg prepared, read, if_neg small, decoded, made]

/-- The outcome promised for a present state file: the file is kept and the
store is poisoned or restored from it. -/
def OpensPresent (env : OpenEnvironment) (directory : StateDirectory) (capacity : Nat)
    (bytes : Bytes) : Prop :=
  ∃ store, openIn env directory capacity = some store ∧ store.directory.content = some bytes ∧
    (store.poison ≠ none ∨ ∃ salt records, decode bytes = .ok (salt, records) ∧
      RecoveryRegistry.restore capacity salt records = .ok store.registry)

/-- The read failed although the file is there, and nothing stopped the empty
state from taking its place. -/
def ReplacesUnread (env : OpenEnvironment) (capacity : Nat) : Prop :=
  env.directoryReady = true ∧ env.readFault = true ∧ env.randomSalt ≠ none ∧
    (capacity = 0 ∨ env.durable = true)

theorem not_opensPresent {env : OpenEnvironment} {directory : StateDirectory} {capacity : Nat}
    {bytes : Bytes} (replaced : ReplacesUnread env capacity) :
    ¬ OpensPresent env directory capacity bytes := by
  obtain ⟨ready, fault, salted, unguarded⟩ := replaced
  have unread : readState env directory = none := by simp [readState, fault]
  rintro ⟨store, opened, _, outcome⟩
  cases openIn_opening opened with
  | unavailable made cause =>
    rcases cause with missing | ⟨_, unsalted | ⟨positive, unwritten⟩⟩
    · rw [ready] at missing
      cases missing
    · exact salted unsalted
    · rcases unguarded with zero | written
      · exact positive zero
      · rw [written] at unwritten
        cases unwritten
  | unreadable _ read | restored _ read =>
    rw [unread] at read
    cases read
  | fresh ready unread random made =>
    -- A fresh registry has no salt, a restored one has.
    rcases outcome with poison | ⟨salt, records, _, restored⟩
    · exact poison rfl
    · have one := (RecoveryRegistry.new_ok made).2.2
      have two := (RecoveryRegistry.restore_ok restored).2.2.2.1
      rw [one] at two
      cases two

theorem opensPresent_of_not_replaces {env : OpenEnvironment} {directory : StateDirectory}
    {capacity : Nat} {bytes : Bytes} (present : directory.content = some bytes)
    (kept : ¬ ReplacesUnread env capacity) : OpensPresent env directory capacity bytes := by
  have opens : (openIn env directory capacity).isSome := by
    rw [openIn_isSome_iff]
    by_contra panics
    rw [not_or, not_or, not_or] at panics
    obtain ⟨ready, unread, salted, zero⟩ := panics
    have fault : env.readFault = true := by
      by_contra readable
      simp [readState, readable, present] at unread
    exact kept ⟨by simpa using ready, fault, salted, .inl (not_not.mp zero)⟩
  obtain ⟨store, opened⟩ := Option.isSome_iff_exists.mp opens
  refine ⟨store, opened, ?_⟩
  cases openIn_opening opened with
  | unavailable => exact ⟨present, .inl (by simp)⟩
  | unreadable => exact ⟨present, .inl (by simp)⟩
  | restored _ read decoded made =>
    cases present.symm.trans (content_of_read read)
    exact ⟨present, .inr ⟨_, _, decoded, made⟩⟩
  | fresh ready unread random made encoded written =>
    have fault : env.readFault = true := by
      by_contra readable
      simp [readState, readable, present] at unread
    exact absurd ⟨ready, fault, by simp [random], .inr written⟩ kept

/-- A present state file survives being opened exactly when the read succeeds
or something else stops the fresh branch. -/
theorem open_keeps_present_iff {env : OpenEnvironment} {directory : StateDirectory}
    {capacity : Nat} {bytes : Bytes} (present : directory.content = some bytes) :
    OpensPresent env directory capacity bytes ↔ ¬ ReplacesUnread env capacity :=
  ⟨fun opens replaced => not_opensPresent replaced opens, opensPresent_of_not_replaces present⟩

theorem open_keeps_present_garbage :
    OpensPresent ⟨true, false, some (.replicate 16 0), true⟩ ⟨some [1, 2, 3], []⟩ 4 [1, 2, 3] :=
  (open_keeps_present_iff rfl).mpr (by simp [ReplacesUnread])

/-- A state file with one blocked target that the process may not read is
replaced by an empty one. -/
theorem open_replaces_unread_file : ∃ env salt record file, encode salt [record] = .ok file ∧
    ¬ OpensPresent env ⟨some file, []⟩ 4 file ∧
    (openIn env ⟨some file, []⟩ 4).map (·.directory.content) =
      some (some (fileBytes salt [])) ∧ fileBytes salt [] ≠ file := by
  let salt : Salt := .replicate 16 0
  let record : PersistedTarget := ⟨"file:///a", (0, 6), saltedHash salt "resume",
    saltedHash salt "restored", .blocked none, 0, 7, "operator"⟩
  refine ⟨⟨true, true, some salt, true⟩, salt, record, fileBytes salt [record],
    encode_ok_iff.mpr ⟨by decide, ?_, rfl⟩, not_opensPresent ⟨rfl, rfl, by simp, .inr rfl⟩, ?_, ?_⟩
  · intro other mem
    cases List.mem_singleton.mp mem
    exact ⟨by decide, by decide, by decide, by decide, by decide⟩
  · simp only [openIn, readState, RecoveryRegistry.new, encode_nil]
    rfl
  · intro same
    have sizes := congrArg List.length same
    rw [fileBytes_length, fileBytes_length] at sizes
    revert sizes
    decide +kernel

end DurableRecoveryStore
end ZonKey.Store

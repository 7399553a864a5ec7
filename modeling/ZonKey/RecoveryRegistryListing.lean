import ZonKey.RecoveryRestore

set_option autoImplicit false

namespace ZonKey.Recovery.RecoveryRegistry
open RecoveryCodec Runs

structure QueueSound (r : RecoveryRegistry) : Prop where
  coherent : r.Coherent
  bounded : r.order.length ≤ r.capacity

structure Consistent (r : RecoveryRegistry) : Prop extends QueueSound r where
  nodup : r.order.Nodup
  once : r.ListsOnce

/-- What the key of a record spells. -/
def logicalTarget (record : PersistedTarget) : String × Hash := (record.uri, record.expectedHash)

variable {r : RecoveryRegistry} {capacity : Nat} {salt : Salt} {records : List PersistedTarget}

theorem QueueSound.consistent_iff (sound : r.QueueSound) : r.Consistent ↔ r.order.Nodup :=
  ⟨Consistent.nodup, fun nodup => ⟨sound, nodup, sound.coherent.listsOnce_iff.mpr nodup⟩⟩

theorem queueSound_next (r : RecoveryRegistry) (c : RegistryCall) (sound : r.QueueSound) :
    (r.next c).QueueSound where
  coherent := (apply_effect r c).coherent sound.coherent
  bounded := (apply_effect r c).bounded sound.bounded

theorem consistent_next (r : RecoveryRegistry) (c : RegistryCall) (held : r.Consistent) :
    (r.next c).Consistent := by
  have sound := queueSound_next r c held.toQueueSound
  exact sound.consistent_iff.mpr ((apply_effect r c).nodup held.coherent held.nodup)

theorem new_consistent (h : new capacity = .ok r) : r.Consistent := by
  have queue := (new_ok h).1
  have order : r.order = [] := by
    rw [queue]
    rfl
  have sound : r.QueueSound := ⟨new_coherent h, by simp [order]⟩
  exact sound.consistent_iff.mpr (by simp [order])

theorem restore_order (h : restore capacity salt records = .ok r) :
    r.order = records.map recordKey := by
  obtain ⟨_, _, _, _, queue⟩ := restore_ok h
  rw [queue, KeyedQueue.appends_order, List.map_map]
  rfl

theorem restore_queueSound (h : restore capacity salt records = .ok r) : r.QueueSound := by
  obtain ⟨_, size, cap, _⟩ := restore_ok h
  refine ⟨restore_coherent h, ?_⟩
  rw [restore_order h, List.length_map, cap]
  exact size

theorem recordKey_nodup_iff (records : List PersistedTarget) :
    (records.map recordKey).Nodup ↔ (records.map logicalTarget).Nodup := by
  have spelled : records.map recordKey =
      (records.map logicalTarget).map fun target => hashKey target.1 target.2 := by
    rw [List.map_map]
    rfl
  have inj : Function.Injective fun target : String × Hash => hashKey target.1 target.2 := by
    intro a b same
    obtain ⟨uris, hashes⟩ := hashKey_inj same
    exact Prod.ext uris hashes
  rw [spelled, List.nodup_map_iff inj]

theorem restore_consistent_iff (h : restore capacity salt records = .ok r) :
    r.Consistent ↔ (records.map logicalTarget).Nodup := by
  rw [(restore_queueSound h).consistent_iff, restore_order h, recordKey_nodup_iff]

/-- A registry that started empty is consistent in every run; a restored one
exactly when its records name distinct targets. Its queue agrees with its map,
within the capacity, whatever the records. -/
theorem run_consistent_iff :
    (∀ r, new capacity = .ok r → ∀ calls, (run next r calls).Consistent) ∧
      ∀ r, restore capacity salt records = .ok r →
        (∀ calls, (run next r calls).QueueSound) ∧
          ((∀ calls, (run next r calls).Consistent) ↔ (records.map logicalTarget).Nodup) := by
  refine ⟨fun r made => run_keeps _ consistent_next (new_consistent made), fun r restored => ?_⟩
  refine ⟨run_keeps _ queueSound_next (restore_queueSound restored), ?_⟩
  rw [← restore_consistent_iff restored]
  constructor
  · intro always
    exact always []
  · intro start
    exact run_keeps _ consistent_next start

theorem restore_lists_target_twice : ∃ salt first second r,
    restore 2 salt [first, second] = .ok r ∧ first.kind = .pending ∧ second.kind = .pending ∧
      r.list = [restoredTarget second, restoredTarget second] ∧ ¬ r.Consistent := by
  let salt : Salt := .replicate 16 0
  let first : PersistedTarget := ⟨"file:///a", (0, 6), saltedHash salt "resume",
    saltedHash salt "restored", .pending, 0, 7, "r1"⟩
  let second : PersistedTarget := ⟨"file:///a", (0, 6), saltedHash salt "resume",
    saltedHash salt "restored", .pending, 0, 7, "r2"⟩
  let queue := (KeyedQueue.empty.append (recordKey first, restoredTarget first)).append
    (recordKey second, restoredTarget second)
  let r : RecoveryRegistry := ⟨queue, 2, by decide, some salt⟩
  have restored : restore 2 salt [first, second] = .ok r := rfl
  have found : r.entries (recordKey second) = some (restoredTarget second) :=
    KeyedQueue.setEntry_self _ _ _
  have listed : r.list = [restoredTarget second, restoredTarget second] := by
    change [recordKey second, recordKey second].filterMap r.entries = _
    simp [found]
  refine ⟨salt, first, second, r, restored, rfl, rfl, listed, fun held => ?_⟩
  have distinct := (restore_consistent_iff restored).mp held
  exact absurd (show logicalTarget first = logicalTarget second from rfl) (by simpa using distinct)

theorem run_consistent_one_record : (∃ r, new 2 = .ok r ∧ ∀ calls, (run next r calls).Consistent) ∧
    ∃ salt record r, restore 2 salt [record] = .ok r ∧
      ∀ calls, (run next r calls).Consistent := by
  let salt : Salt := .replicate 16 0
  let record : PersistedTarget := ⟨"file:///a", (0, 6), saltedHash salt "resume",
    saltedHash salt "restored", .pending, 0, 7, "r1"⟩
  let queue := KeyedQueue.empty.append (recordKey record, restoredTarget record)
  let r : RecoveryRegistry := ⟨queue, 2, by decide, some salt⟩
  have restored : restore 2 salt [record] = .ok r := rfl
  have both := @run_consistent_iff 2 salt [record]
  have made : new 2 = .ok ⟨KeyedQueue.empty, 2, by decide, none⟩ := rfl
  refine ⟨⟨_, made, both.1 _ made⟩, salt, record, r, restored, ?_⟩
  exact (both.2 r restored).2.mpr (List.nodup_singleton _)

end ZonKey.Recovery.RecoveryRegistry

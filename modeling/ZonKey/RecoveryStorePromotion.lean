import ZonKey.RecoveryRegistryLifecycle
import ZonKey.RecoveryStoreInvariants

set_option autoImplicit false

namespace ZonKey.Store
open ByteCursor RecoveryCodec Recovery WriteThrough Runs
namespace DurableRecoveryStore
variable {store : DurableRecoveryStore}

def OnDisk (store : DurableRecoveryStore) (wanted : PersistedTarget → Prop) : Prop :=
  ∃ file records, store.directory.content = some file ∧ decode file = .ok (store.salt, records) ∧
    ∃ record ∈ records, wanted record

/-- The intent lives on, as a blocked target or as a pending intent, in memory
and on disk. -/
def Remembers (store : DurableRecoveryStore) (d : RecoveryDescriptor) : Prop :=
  (store.targetBlocked d.uri d.expected = true ∧
    store.OnDisk fun record => (∃ verdict, record.kind = .blocked verdict) ∧ record.uri = d.uri ∧
      record.expectedHash = saltedHash store.salt d.expected) ∨
  (d ∈ store.pending ∧ store.OnDisk fun record => record = pendingRecord store.salt d)

theorem Persisted.onDisk (h : store.Persisted) {wanted : PersistedTarget → Prop}
    {record : PersistedTarget} (mem : record ∈ store.snapshot) (ok : wanted record) :
    store.OnDisk wanted := by
  obtain ⟨file, content, _, decoded⟩ := h.decodes
  exact ⟨file, _, content, decoded, record, mem, ok⟩

theorem opened_capacity {env : OpenEnvironment} {directory : StateDirectory} {capacity : Nat}
    (opened : openIn env directory capacity = some store) (healthy : store.poison = none) :
    store.registry.capacity = capacity := by
  cases openIn_opening opened with
  | unavailable | unreadable => cases healthy
  | fresh _ _ _ made => exact (RecoveryRegistry.new_ok made).2.1
  | restored _ _ _ made => exact (RecoveryRegistry.restore_ok made).2.2.1

theorem run_capacity {env : OpenEnvironment} {directory : StateDirectory} {capacity : Nat}
    (opened : openIn env directory capacity = some store) (steps : List StoreStep)
    (healthy : (run next store steps).poison = none) :
    (run next store steps).registry.capacity = capacity := by
  have kept := run_keeps (fun s : DurableRecoveryStore =>
      s.live.registry.capacity = store.registry.capacity)
    (fun s step same => next_keeps (I := fun live => live.registry.capacity = _)
      (fun accepted size => accepted.capacity.trans size) step same) rfl steps
  exact kept.trans (opened_capacity opened ((run_poison store steps).symm.trans healthy))

theorem promoted_effect {durable : Bool} {sessionId requestId : String} {flag : Bool}
    {after : DurableRecoveryStore}
    (promoted : store.promotePending durable sessionId requestId = (.ok flag, after)) :
    after.poison = none ∧ after.salt = store.salt ∧ after.Persisted ∧
      Accepted store.live (.promotePending sessionId requestId) (.promoted flag) after.live := by
  have effect := apply_effect store ⟨.promotePending sessionId requestId, durable⟩
  have answered : StoreCall.apply (.promotePending sessionId requestId) durable store =
      (.ok (.promoted flag), after) := by
    simp only [StoreCall.apply, promoted, Prod.map, Except.map, id]
  unfold next at effect
  rw [answered] at effect
  obtain ⟨healthy, accepted, persisted⟩ := effect.healthy
  exact ⟨effect.poison.trans healthy, effect.salt, persisted, accepted⟩

/-- An accepted promotion of an open intent takes exactly that intent off the
list and asks the registry to block its target. -/
theorem promoted_live (sound : store.live.Sound) {d : RecoveryDescriptor}
    (intent : d ∈ store.pending) {durable : Bool} {sessionId : String} {flag : Bool}
    {after : DurableRecoveryStore}
    (promoted : store.promotePending durable sessionId d.requestId = (.ok flag, after)) :
    after.poison = none ∧ after.salt = store.salt ∧ after.Persisted ∧ after.live.Sound ∧
      (d ∉ after.pending ∧ after.pending ⊆ store.pending) ∧
      after.registry = store.registry.next (.block sessionId d.uri d.expected
        d.replacement d.range d.documentEpoch) := by
  obtain ⟨healthy, salt, persisted, accepted⟩ := promoted_effect promoted
  refine ⟨healthy, salt, persisted, accepted.sound sound, ?_⟩
  generalize made : after.live = live at accepted
  generalize StoreReply.promoted flag = reply at accepted
  cases accepted with
  | unknown unopened => exact absurd rfl (unopened d intent)
  | @promoted _ _ other before later split same =>
    have mem : other ∈ store.live.pending := by simp [split]
    cases List.inj_on_of_nodup_map sound.ids mem intent same
    have registry := congrArg LiveState.registry made
    have pending : after.pending = before ++ later := congrArg LiveState.pending made
    have known : store.pending = before ++ d :: later := split
    refine ⟨?_, registry⟩
    -- The ids are distinct, so the intent stood in the list once.
    have ids := sound.ids
    rw [split, List.map_append, List.map_cons, List.nodup_middle, ← List.map_append] at ids
    rw [pending, known]
    exact ⟨fun here => (List.nodup_cons.mp ids).1 (List.mem_map_of_mem here),
      (List.Sublist.refl before).append (List.sublist_cons_self d later) |>.subset⟩

theorem promoted_remembers_iff (sound : store.live.Sound) {d : RecoveryDescriptor}
    (intent : d ∈ store.pending) {durable : Bool} {sessionId : String} {flag : Bool}
    {after : DurableRecoveryStore}
    (promoted : store.promotePending durable sessionId d.requestId = (.ok flag, after)) :
    after.Remembers d ↔ store.registry.isBlocked d.uri d.expected = true ∨
      store.registry.list.length ≠ store.registry.capacity := by
  obtain ⟨healthy, salt, persisted, live, ⟨gone, _⟩, registry⟩ := promoted_live sound intent promoted
  have size : store.registry.list.length = store.registry.order.length :=
    sound.coherent.listed_length
  have memory : after.targetBlocked d.uri d.expected = after.registry.isBlocked d.uri d.expected := by
    simp only [targetBlocked, healthy]
  rw [size]
  by_cases room : store.registry.isBlocked d.uri d.expected = true ∨
      store.registry.order.length ≠ store.registry.capacity
  · refine iff_of_true (.inl ?_) room
    rw [RecoveryRegistry.next_block_of_room room] at registry
    have entry : after.registry.entries (store.registry.resolveKey d.uri d.expected) =
        some (RecoveryRegistry.freshTarget sessionId d.uri d.expected d.replacement d.range
          d.documentEpoch) := by
      rw [registry]
      exact KeyedQueue.put_self _ _ _
    refine ⟨?_, ?_⟩
    · rw [memory]
      refine RecoveryRegistry.isBlocked_of_contains (r := store.registry) (by rw [registry]; rfl) ?_
      simp [KeyedQueue.contains, entry]
    · exact persisted.onDisk (mem_snapshot_of_entry live.coherent entry) ⟨⟨_, rfl⟩, rfl, rfl⟩
  · refine iff_of_false ?_ room
    rw [not_or, not_not, Bool.not_eq_true] at room
    rw [RecoveryRegistry.next_block_of_full room.1 room.2] at registry
    rintro (⟨blocked, _⟩ | ⟨here, _⟩)
    · rw [memory, registry, room.1] at blocked
      cases blocked
    · exact gone here

/-- In every reachable store a promotion that succeeds keeps its intent, as a
block or as an intent, exactly when the target was blocked before or the
registry held fewer targets than its capacity. -/
theorem promotion_remembers_iff {env : OpenEnvironment} {directory : StateDirectory}
    {capacity : Nat} (opened : openIn env directory capacity = some store) (steps : List StoreStep)
    {d : RecoveryDescriptor} (intent : d ∈ (run next store steps).pending) {durable : Bool}
    {sessionId : String} {flag : Bool} {after : DurableRecoveryStore}
    (promoted : (run next store steps).promotePending durable sessionId d.requestId =
      (.ok flag, after)) :
    after.Remembers d ↔ (run next store steps).registry.isBlocked d.uri d.expected = true ∨
      (run next store steps).registry.list.length ≠ capacity := by
  have sound := run_sound opened steps
  have healthy : (run next store steps).poison = none := by
    have same : (run next store steps).next ⟨.promotePending sessionId d.requestId, durable⟩ =
        after := by
      simp only [next, StoreCall.apply, promoted, Prod.map, id]
    have kept : after.poison = (run next store steps).poison := by rw [← same, next_poison]
    rw [← kept]
    exact (promoted_live sound intent promoted).1
  rw [promoted_remembers_iff sound intent promoted, run_capacity opened steps healthy]

theorem promotion_remembers_lone_intent : ∃ store d after,
    openIn ⟨true, false, some (.replicate 16 0), true⟩ ⟨none, []⟩ 2 = some store ∧
    (run next store [⟨.beginPending d, true⟩]).promotePending true "s" d.requestId =
      (.ok true, after) ∧
    after.Remembers d := by
  let store := freshStore (.replicate 16 0) 2 (by decide)
  let d : RecoveryDescriptor := ⟨"r1", "file:///a", (0, 6), "resume", "restored", 0, 7⟩
  have opened : openIn ⟨true, false, some (.replicate 16 0), true⟩ ⟨none, []⟩ 2 = some store :=
    openIn_freshStore _ _
  have valid : ValidRecord (pendingRecord (.replicate 16 0) d) :=
    validRecord_r1 rfl rfl (by decide)
  obtain ⟨file, begun⟩ := run_begin_freshStore (show 0 < 2 by decide) valid
  have pending : (run next store [⟨.beginPending d, true⟩]).pending = [d] :=
    congrArg (·.pending) begun
  have intent : d ∈ (run next store [⟨.beginPending d, true⟩]).pending := by
    rw [pending]
    exact List.mem_singleton_self d
  have empty : (run next store [⟨.beginPending d, true⟩]).registry.list.length = 0 :=
    congrArg (·.registry.list.length) begun
  have room : (run next store [⟨.beginPending d, true⟩]).registry.list.length ≠ 2 := by omega
  have answered : ((run next store [⟨.beginPending d, true⟩]).promotePending true "s"
      d.requestId).1 = .ok true := by decide +kernel
  obtain ⟨after, promoted⟩ : ∃ after, (run next store [⟨.beginPending d, true⟩]).promotePending
      true "s" d.requestId = (.ok true, after) := ⟨_, by rw [← answered]⟩
  exact ⟨store, d, after, opened, promoted,
    (promotion_remembers_iff opened _ intent promoted).mpr (.inr room)⟩

/-- With capacity 1, blocking a second target leaves no room for the intent:
its promotion succeeds with the flag `false` and forgets it. -/
theorem promotion_forgets_intent : ∃ store steps d after,
    openIn ⟨true, false, some (.replicate 16 0), true⟩ ⟨none, []⟩ 1 = some store ∧
    d ∈ (run next store steps).pending ∧
    (run next store steps).promotePending true "s" d.requestId = (.ok false, after) ∧
    ¬ after.Remembers d := by
  let store := freshStore (.replicate 16 0) 1 (by decide)
  let d : RecoveryDescriptor := ⟨"r1", "file:///a", (0, 6), "resume", "restored", 0, 7⟩
  let steps : List StoreStep := [⟨.beginPending d, true⟩,
    ⟨.block "s" "file:///b" "draft" "final" (0, 5), true⟩]
  have opened : openIn ⟨true, false, some (.replicate 16 0), true⟩ ⟨none, []⟩ 1 = some store :=
    openIn_freshStore _ _
  have intent : d ∈ (run next store steps).pending := by decide +kernel
  have lost : ¬ ((run next store steps).registry.isBlocked d.uri d.expected = true ∨
      (run next store steps).registry.list.length ≠
        (run next store steps).registry.capacity) := by decide +kernel
  have answered : ((run next store steps).promotePending true "s" d.requestId).1 = .ok false := by
    decide +kernel
  obtain ⟨after, promoted⟩ : ∃ after, (run next store steps).promotePending true "s" d.requestId =
      (.ok false, after) := ⟨_, by rw [← answered]⟩
  exact ⟨store, steps, d, after, opened, intent, promoted,
    fun kept => lost ((promoted_remembers_iff (run_sound opened steps) intent promoted).mp kept)⟩

end DurableRecoveryStore
end ZonKey.Store

import ZonKey.RecoveryRestore
import ZonKey.RecoveryStoreBound
import ZonKey.RecoveryStorePromotion

set_option autoImplicit false

namespace ZonKey.Store
open ByteCursor RecoveryCodec Recovery WriteThrough Runs
namespace DurableRecoveryStore
variable {store : DurableRecoveryStore} {capacity : Nat}

def ReloadsBlocked (store : DurableRecoveryStore) (uri expected : String) : Prop :=
  ∀ env capacity reopened, env.readFault = false →
    openIn env store.directory capacity = some reopened →
    reopened.targetBlocked uri expected = true

/-- An accepted preflight has put this very intent on disk. -/
def PreflightRecorded (store : DurableRecoveryStore) (d : RecoveryDescriptor) : Prop :=
  ∀ durable after, store.beginPending durable d = (.ok (), after) →
    (after.OnDisk fun record => record = pendingRecord after.salt d) ∧
      after.ReloadsBlocked d.uri d.expected

theorem OnDisk.reloadsBlocked {uri expected : String} (h : store.OnDisk fun record =>
    record.uri = uri ∧ record.expectedHash = saltedHash store.salt expected) :
    store.ReloadsBlocked uri expected := by
  obtain ⟨file, records, content, decoded, record, mem, rfl, hash⟩ := h
  intro env capacity reopened readable opened
  have read : readState env store.directory = some file := by
    simp [readState, readable, content]
  cases openIn_opening opened with
  | unavailable | unreadable => rfl
  | fresh _ unread =>
    rw [read] at unread
    cases unread
  | restored _ found known made =>
    cases read.symm.trans found
    cases decoded.symm.trans known
    have held := RecoveryRegistry.restore_contains made mem
    have salted := (RecoveryRegistry.restore_ok made).2.2.2.1
    refine RecoveryRegistry.isBlocked_iff.mpr (.inr ⟨_, salted, ?_⟩)
    rwa [RecoveryRegistry.recordKey, hash] at held

/-- While an intent is open, the store is healthy and the file mirrors it. -/
def Intents (store : DurableRecoveryStore) : Prop :=
  store.pending ≠ [] → store.poison = none ∧ store.Persisted

theorem opened_intents {env : OpenEnvironment} {directory : StateDirectory}
    (opened : openIn env directory capacity = some store) : store.Intents := by
  intro held
  cases openIn_opening opened <;> exact absurd rfl held

theorem Intents.next (h : store.Intents) (step : StoreStep) : (store.next step).Intents := by
  have effect := apply_effect store step
  generalize (step.call.apply step.durable store).1 = answer at effect
  generalize store.next step = after at effect ⊢
  cases effect with
  | poisoned => exact h
  | mutated healthy outcome =>
    intro held
    refine ⟨healthy, ?_⟩
    cases outcome with
    | refused | unencodable | unwritten => exact (h held).2
    | committed accepted encoded => exact ⟨_, encoded, rfl⟩

theorem run_intents {env : OpenEnvironment} {directory : StateDirectory}
    (opened : openIn env directory capacity = some store) (steps : List StoreStep) :
    (run next store steps).Intents :=
  run_keeps Intents (fun _ step intents => intents.next step) (opened_intents opened) steps

theorem begun_effect {durable : Bool} {d : RecoveryDescriptor} {after : DurableRecoveryStore}
    (begun : store.beginPending durable d = (.ok (), after)) :
    after.salt = store.salt ∧ after.Persisted ∧
      Accepted store.live (.beginPending d) .begun after.live := by
  have effect := apply_effect store ⟨.beginPending d, durable⟩
  have answered : StoreCall.apply (.beginPending d) durable store = (.ok .begun, after) := by
    simp only [StoreCall.apply, begun, Prod.map, Except.map, id]
  unfold next at effect
  rw [answered] at effect
  obtain ⟨_, accepted, persisted⟩ := effect.healthy
  exact ⟨effect.salt, persisted, accepted⟩

theorem begin_known (healthy : store.poison = none) (persisted : store.Persisted)
    {d existing : RecoveryDescriptor} (mem : existing ∈ store.pending)
    (same : existing.requestId = d.requestId) :
    ∃ file, store.beginPending true d =
      (.ok (), { store with directory := store.directory.replace file true }) := by
  obtain ⟨file, encoded, _⟩ := persisted
  have known : store.pending.any (fun open_ => open_.requestId = d.requestId) = true :=
    List.any_eq_true.mpr ⟨existing, mem, by simpa using same⟩
  have accepted : beginPendingOperation d store.live = (.ok (), store.live) := if_pos known
  exact ⟨file, mutateState_committed healthy accepted encoded⟩

theorem Persisted.pending_of_onDisk (h : store.Persisted) {d : RecoveryDescriptor}
    (onDisk : store.OnDisk fun record => record = pendingRecord store.salt d) :
    ∃ open_ ∈ store.pending, pendingRecord store.salt open_ = pendingRecord store.salt d := by
  obtain ⟨file, records, content, decoded, record, mem, rfl⟩ := onDisk
  obtain ⟨file', content', _, decoded'⟩ := h.decodes
  cases content.symm.trans content'
  cases decoded.symm.trans decoded'
  rcases List.mem_append.mp mem with blocked | pending
  · obtain ⟨target, _, same⟩ := List.mem_map.mp blocked
    cases congrArg PersistedTarget.kind same
  · exact List.mem_map.mp pending

theorem preflight_recorded (sound : store.live.Sound) (intents : store.Intents)
    (d : RecoveryDescriptor) :
    store.PreflightRecorded d ↔ ∀ existing ∈ store.pending, existing.requestId = d.requestId →
      pendingRecord store.salt existing = pendingRecord store.salt d := by
  constructor
  · intro recorded existing mem same
    obtain ⟨healthy, persisted⟩ := intents (List.ne_nil_of_mem mem)
    obtain ⟨file, begun⟩ := begin_known healthy persisted mem same
    have after := (begun_effect begun).2.1
    obtain ⟨open_, here, matched⟩ := after.pending_of_onDisk (recorded true _ begun).1
    -- Request ids are unique, so the recorded intent is the one that was open before.
    have id : open_.requestId = existing.requestId :=
      (congrArg PersistedTarget.requestId matched).trans same.symm
    cases List.inj_on_of_nodup_map sound.ids here mem id
    exact matched
  · intro agrees durable after begun
    obtain ⟨salt, persisted, accepted⟩ := begun_effect begun
    have recorded : pendingRecord after.salt d ∈ after.snapshot := by
      refine List.mem_append_right _ ?_
      rw [salt]
      generalize made : after.live = live at accepted
      generalize StoreReply.begun = reply at accepted
      have pending : after.pending = live.pending := congrArg LiveState.pending made
      rw [pending]
      cases accepted with
      | known opened =>
        obtain ⟨existing, mem, same⟩ := opened
        rw [← agrees existing mem same]
        exact List.mem_map_of_mem mem
      | begun => exact List.mem_map_of_mem (List.mem_append_right _ (List.mem_singleton.mpr rfl))
    exact ⟨persisted.onDisk recorded rfl, (persisted.onDisk recorded ⟨rfl, rfl⟩).reloadsBlocked⟩

/-- In every reachable store an accepted preflight has put this very intent on
disk exactly when no intent of another content is open under its request id. -/
theorem preflight_recorded_iff {env : OpenEnvironment} {directory : StateDirectory}
    (opened : openIn env directory capacity = some store) (steps : List StoreStep)
    (d : RecoveryDescriptor) :
    (run next store steps).PreflightRecorded d ↔
      ∀ existing ∈ (run next store steps).pending, existing.requestId = d.requestId →
        pendingRecord (run next store steps).salt existing =
          pendingRecord (run next store steps).salt d :=
  preflight_recorded (run_sound opened steps) (run_intents opened steps) d

theorem preflight_recorded_again : ∃ store d,
    openIn ⟨true, false, some (.replicate 16 0), true⟩ ⟨none, []⟩ 2 = some store ∧
    (run next store [⟨.beginPending d, true⟩]).pending = [d] ∧
    (run next store [⟨.beginPending d, true⟩]).PreflightRecorded d := by
  let d : RecoveryDescriptor := ⟨"r1", "file:///a", (0, 6), "resume", "restored", 0, 7⟩
  have positive : 0 < 2 := by decide
  have valid : ValidRecord (pendingRecord (.replicate 16 0) d) :=
    validRecord_r1 rfl rfl (by decide)
  obtain ⟨file, made⟩ := run_begin_freshStore positive valid
  have opened := openIn_freshStore (.replicate 16 0) positive
  have pending : (run next (freshStore (.replicate 16 0) 2 positive)
      [⟨.beginPending d, true⟩]).pending = [d] := congrArg (·.pending) made
  refine ⟨_, d, opened, pending, (preflight_recorded_iff opened _ d).mpr ?_⟩
  rw [pending]
  intro existing mem _
  rw [List.mem_singleton.mp mem]

/-- An intent of `file:///b` under the request id of one of `file:///a` is
accepted and never written. -/
theorem preflight_drops_intent : ∃ store d other,
    openIn ⟨true, false, some (.replicate 16 0), true⟩ ⟨none, []⟩ 2 = some store ∧
    other.requestId = d.requestId ∧
    ¬ (run next store [⟨.beginPending d, true⟩]).PreflightRecorded other := by
  let d : RecoveryDescriptor := ⟨"r1", "file:///a", (0, 6), "resume", "restored", 0, 7⟩
  let other : RecoveryDescriptor := ⟨"r1", "file:///b", (0, 5), "draft", "final", 0, 7⟩
  have positive : 0 < 2 := by decide
  have valid : ValidRecord (pendingRecord (.replicate 16 0) d) :=
    validRecord_r1 rfl rfl (by decide)
  obtain ⟨file, made⟩ := run_begin_freshStore positive valid
  have opened := openIn_freshStore (.replicate 16 0) positive
  have pending : (run next (freshStore (.replicate 16 0) 2 positive)
      [⟨.beginPending d, true⟩]).pending = [d] := congrArg (·.pending) made
  refine ⟨_, d, other, opened, rfl, fun recorded => ?_⟩
  have agrees := (preflight_recorded (run_sound opened _) (run_intents opened _) other).mp recorded
  rw [pending] at agrees
  have uri := congrArg PersistedTarget.uri (agrees d (List.mem_singleton.mpr rfl) rfl)
  exact absurd (show "file:///a" = "file:///b" from uri) (by decide)

def reloadedTarget (env : OpenEnvironment) (directory : StateDirectory) (capacity : Nat)
    (record : PersistedTarget) : Option BlockedTarget :=
  (openIn env directory capacity).bind fun reopened =>
    reopened.registry.entries (RecoveryRegistry.recordKey record)

/-- Nothing else that is blocked or pending has the uri and the salted expected
text of the intent. -/
structure SoleTarget (store : DurableRecoveryStore) (d : RecoveryDescriptor) : Prop where
  unblocked : ∀ target ∈ store.registry.list, target.uri = d.uri →
    persistedHash store.salt target.expected ≠ saltedHash store.salt d.expected
  lone : ∀ other ∈ store.pending, other ≠ d → other.uri = d.uri →
    saltedHash store.salt other.expected ≠ saltedHash store.salt d.expected

/-- Every restart that reads the file finds one target for the intent, without
verdict or session, whether the crash came before the promotion or after it. -/
def SameTarget (capacity : Nat) (crashed promoted : DurableRecoveryStore)
    (d : RecoveryDescriptor) : Prop :=
  ∀ env, env.directoryReady = true → env.readFault = false →
    ∃ target, target.state = none ∧ target.sessionId = "" ∧
      reloadedTarget env crashed.directory capacity (pendingRecord crashed.salt d) = some target ∧
      reloadedTarget env promoted.directory capacity (pendingRecord crashed.salt d) = some target

def promotedRecord (salt : Salt) (sessionId : String) (d : RecoveryDescriptor) : PersistedTarget :=
  intoPersisted salt operatorRequestId (RecoveryRegistry.freshTarget sessionId d.uri d.expected
    d.replacement d.range d.documentEpoch)

theorem promotedRecord_restored (salt : Salt) (sessionId : String) (d : RecoveryDescriptor) :
    RecoveryRegistry.restoredTarget (promotedRecord salt sessionId d) =
      { RecoveryRegistry.restoredTarget (pendingRecord salt d) with generation := 0 } := rfl

section Reload
variable {env : OpenEnvironment}

theorem Persisted.reopens (h : store.Persisted) (ready : env.directoryReady = true)
    (readable : env.readFault = false) (capacity : Nat) :
    openIn env store.directory capacity =
      match RecoveryRegistry.restore capacity store.salt store.snapshot with
      | .ok registry => some ⟨registry, [], store.directory, store.salt, none⟩
      | .error _ => poisoned store.directory capacity (.stateUnreadable .tooManyEntries) := by
  obtain ⟨file, content, encoded, decoded⟩ := h.decodes
  have read : readState env store.directory = some file := by simp [readState, readable, content]
  exact openIn_of_decoded ready read (encode_length_le encoded) decoded

theorem Persisted.reloaded (h : store.Persisted) (ready : env.directoryReady = true)
    (readable : env.readFault = false) (positive : capacity ≠ 0)
    (fits : store.live.occupancy ≤ capacity) {record : PersistedTarget}
    (mem : record ∈ store.snapshot)
    (only : ∀ other ∈ store.snapshot, other.uri = record.uri →
      other.expectedHash = record.expectedHash → other = record) :
    reloadedTarget env store.directory capacity record =
      some (RecoveryRegistry.restoredTarget record) := by
  rw [← snapshot_length] at fits
  obtain ⟨registry, made⟩ := RecoveryRegistry.restore_isOk store.salt positive fits
  obtain ⟨target, found⟩ := Option.isSome_iff_exists.mp (RecoveryRegistry.restore_contains made mem)
  obtain ⟨other, here, keys, same⟩ := RecoveryRegistry.restore_entry made found
  obtain ⟨uri, hash⟩ := RecoveryRegistry.recordKey_inj keys
  rw [reloadedTarget, h.reopens ready readable, made, Option.bind_some, found, ← same,
    only other here uri hash]

theorem Persisted.unloaded (h : store.Persisted) (ready : env.directoryReady = true)
    (readable : env.readFault = false) (beyond : capacity < store.live.occupancy)
    (record : PersistedTarget) : reloadedTarget env store.directory capacity record = none := by
  rw [← snapshot_length] at beyond
  have refused : RecoveryRegistry.restore capacity store.salt store.snapshot = .error ⟨⟩ :=
    if_pos (.inr beyond)
  rw [reloadedTarget, h.reopens ready readable, refused]
  cases made : poisoned store.directory capacity (.stateUnreadable .tooManyEntries) with
  | none => rfl
  | some reopened =>
    obtain ⟨registry, size, fresh, rfl⟩ := poisoned_eq made
    change registry.entries _ = none
    rw [(RecoveryRegistry.new_ok fresh).1]
    rfl

end Reload

theorem SoleTarget.pending_eq {d : RecoveryDescriptor} (sole : store.SoleTarget d) :
    ∀ other ∈ store.snapshot, other.uri = d.uri →
      other.expectedHash = saltedHash store.salt d.expected →
      other = pendingRecord store.salt d := by
  intro record mem uri hash
  rcases List.mem_append.mp mem with blocked | pending
  · obtain ⟨target, here, rfl⟩ := List.mem_map.mp blocked
    exact absurd hash (sole.unblocked target here uri)
  · obtain ⟨other, here, rfl⟩ := List.mem_map.mp pending
    by_cases same : other = d
    · rw [same]
    · exact absurd hash (sole.lone other here same uri)

theorem SoleTarget.promoted_eq (sound : store.live.Sound) {d : RecoveryDescriptor}
    (sole : store.SoleTarget d) (intent : d ∈ store.pending)
    (room : store.registry.order.length ≠ store.registry.capacity)
    {durable : Bool} {sessionId : String} {flag : Bool} {after : DurableRecoveryStore}
    (promoted : store.promotePending durable sessionId d.requestId = (.ok flag, after)) :
    promotedRecord store.salt sessionId d ∈ after.snapshot ∧
      ∀ other ∈ after.snapshot, other.uri = d.uri →
        other.expectedHash = saltedHash store.salt d.expected →
        other = promotedRecord store.salt sessionId d := by
  obtain ⟨_, salt, _, live, ⟨gone, kept⟩, registry⟩ := promoted_live sound intent promoted
  rw [RecoveryRegistry.next_block_of_room (.inr room)] at registry
  let k := store.registry.resolveKey d.uri d.expected
  let fresh := RecoveryRegistry.freshTarget sessionId d.uri d.expected d.replacement d.range
    d.documentEpoch
  have entries : after.registry.entries = (store.registry.toKeyedQueue.put k fresh).entries :=
    congrArg (fun r : RecoveryRegistry => r.entries) registry
  have entry : after.registry.entries k = some fresh := by
    rw [entries]
    exact KeyedQueue.put_self _ _ _
  rw [← salt]
  refine ⟨mem_snapshot_of_entry live.coherent entry, fun record mem uri hash => ?_⟩
  rcases List.mem_append.mp mem with blocked | pending
  · obtain ⟨target, here, rfl⟩ := List.mem_map.mp blocked
    obtain ⟨j, found⟩ : ∃ j, after.registry.entries j = some target :=
      live.coherent.mem_listed.mp here
    by_cases same : j = k
    · rw [same, entry] at found
      cases found
      rfl
    · rw [entries, KeyedQueue.put_other _ _ same] at found
      have before := sound.coherent.mem_listed.mpr ⟨j, found⟩
      rw [salt] at hash
      exact absurd hash (sole.unblocked target before uri)
  · obtain ⟨other, here, rfl⟩ := List.mem_map.mp pending
    have apart : other ≠ d := by
      rintro rfl
      exact gone here
    rw [salt] at hash
    exact absurd hash (sole.lone other (kept here) apart uri)

theorem same_target (sound : store.live.Sound) (persisted : store.Persisted)
    (size : store.registry.capacity = capacity) {d : RecoveryDescriptor}
    (intent : d ∈ store.pending) (sole : store.SoleTarget d) {durable : Bool} {sessionId : String}
    {flag : Bool} {after : DurableRecoveryStore}
    (promoted : store.promotePending durable sessionId d.requestId = (.ok flag, after)) :
    SameTarget capacity store after d ↔ d.generation = 0 ∧ store.live.occupancy ≤ capacity := by
  have positive : capacity ≠ 0 := by
    have := store.registry.capacity_pos
    omega
  have recorded : pendingRecord store.salt d ∈ store.snapshot :=
    List.mem_append_right _ (List.mem_map_of_mem intent)
  by_cases fits : store.live.occupancy ≤ capacity
  · have room : store.registry.order.length ≠ store.registry.capacity := by
      have held := List.length_pos_of_mem intent
      have total : _ = store.pending.length + store.registry.order.length := sound.occupancy
      omega
    obtain ⟨_, _, after_persisted, _⟩ := promoted_live sound intent promoted
    obtain ⟨promoted_mem, promoted_only⟩ := sole.promoted_eq sound intent room promoted
    have after_fits : after.live.occupancy ≤ capacity :=
      (promoted_effect promoted).2.2.2.occupancy_le sound size fits (fun _ _ _ _ _ => nofun)
    have before : ∀ env : OpenEnvironment, env.directoryReady = true → env.readFault = false → _ :=
      fun env ready readable =>
        persisted.reloaded ready readable positive fits recorded sole.pending_eq
    have later : ∀ env : OpenEnvironment, env.directoryReady = true → env.readFault = false → _ :=
      fun env ready readable =>
        after_persisted.reloaded ready readable positive after_fits promoted_mem promoted_only
    refine ⟨fun found => ⟨?_, fits⟩, fun ⟨fresh, _⟩ env ready readable => ?_⟩
    · obtain ⟨target, _, _, one, two⟩ := found ⟨true, false, none, true⟩ rfl rfl
      have first := one.symm.trans (before _ rfl rfl)
      have second := two.symm.trans (later _ rfl rfl)
      have same := Option.some.inj (first.symm.trans second)
      exact congrArg BlockedTarget.generation same
    · refine ⟨_, rfl, rfl, before env ready readable, ?_⟩
      refine (later env ready readable).trans (congrArg some ?_)
      rw [promotedRecord_restored, ← fresh]
      rfl
  · refine iff_of_false (fun found => ?_) fun condition => fits condition.2
    obtain ⟨target, _, _, one, _⟩ := found ⟨true, false, none, true⟩ rfl rfl
    rw [persisted.unloaded rfl rfl (Nat.not_le.mp fits)] at one
    cases one

/-- In every reachable store the intent of a target that nothing else names
reloads the same before and after its promotion exactly when its generation is
zero and the store keeps the shared bound. -/
theorem same_target_iff {env : OpenEnvironment} {directory : StateDirectory}
    (opened : openIn env directory capacity = some store) (steps : List StoreStep)
    {d : RecoveryDescriptor} (intent : d ∈ (run next store steps).pending)
    (sole : (run next store steps).SoleTarget d) {durable : Bool} {sessionId : String}
    {flag : Bool} {after : DurableRecoveryStore}
    (promoted : (run next store steps).promotePending durable sessionId d.requestId =
      (.ok flag, after)) :
    SameTarget capacity (run next store steps) after d ↔
      d.generation = 0 ∧ (run next store steps).live.occupancy ≤ capacity := by
  obtain ⟨healthy, persisted⟩ := run_intents opened steps (List.ne_nil_of_mem intent)
  exact same_target (run_sound opened steps) persisted (run_capacity opened steps healthy) intent
    sole promoted

theorem promote_isOk (healthy : store.poison = none) (persisted : store.Persisted)
    (sound : store.live.Sound) (sessionId requestId : String) :
    ∃ flag after, store.promotePending true sessionId requestId = (.ok flag, after) := by
  obtain ⟨flag, made, performed⟩ : ∃ flag made,
      promotePendingOperation sessionId requestId store.live = (.ok flag, made) := by
    simp only [promotePendingOperation]
    split <;> exact ⟨_, _, rfl⟩
  have accepted : Accepted store.live (.promotePending sessionId requestId) (.promoted flag) made :=
    accepted_of_operation (by simp only [StoreCall.operation, performed, Prod.map, Except.map, id])
  obtain ⟨file, encoded⟩ := persisted.encodes_kept sound accepted id
  exact ⟨flag, _, mutateState_committed healthy performed encoded⟩

theorem promote_lone {salt : Salt} (positive : 0 < capacity) {d : RecoveryDescriptor}
    (valid : ValidRecord (pendingRecord salt d)) : ∃ steps flag after,
      d ∈ (run next (freshStore salt capacity positive) steps).pending ∧
      (run next (freshStore salt capacity positive) steps).SoleTarget d ∧
      (run next (freshStore salt capacity positive) steps).live.occupancy ≤ capacity ∧
      (run next (freshStore salt capacity positive) steps).promotePending true "s" d.requestId =
        (.ok flag, after) := by
  obtain ⟨file, made⟩ := run_begin_freshStore positive valid
  have opened := openIn_freshStore salt positive
  have sound := run_sound opened [⟨.beginPending d, true⟩]
  have intents := run_intents opened [⟨.beginPending d, true⟩]
  have intent : d ∈ (run next (freshStore salt capacity positive)
      [⟨.beginPending d, true⟩]).pending := by
    rw [made]
    exact List.mem_singleton.mpr rfl
  obtain ⟨healthy, persisted⟩ := intents (List.ne_nil_of_mem intent)
  obtain ⟨flag, after, promoted⟩ := promote_isOk healthy persisted sound "s" d.requestId
  refine ⟨_, flag, after, intent, ⟨?_, ?_⟩, ?_, promoted⟩
  · rw [made]
    intro target mem
    exact absurd mem List.not_mem_nil
  · rw [made]
    intro other mem apart
    exact absurd (List.mem_singleton.mp mem) apart
  · rw [made]
    exact positive

theorem same_target_resume : ∃ store steps d flag after,
    openIn ⟨true, false, some (.replicate 16 0), true⟩ ⟨none, []⟩ 2 = some store ∧
    d ∈ (run next store steps).pending ∧
    (run next store steps).promotePending true "s" d.requestId = (.ok flag, after) ∧
    SameTarget 2 (run next store steps) after d := by
  let d : RecoveryDescriptor := ⟨"r1", "file:///a", (0, 6), "resume", "restored", 0, 7⟩
  have positive : 0 < 2 := by decide
  have valid : ValidRecord (pendingRecord (.replicate 16 0) d) :=
    validRecord_r1 rfl rfl (by decide)
  obtain ⟨steps, flag, after, intent, sole, fits, promoted⟩ := promote_lone positive valid
  have opened := openIn_freshStore (.replicate 16 0) positive
  exact ⟨_, steps, d, flag, after, opened, intent, promoted,
    (same_target_iff opened steps intent sole promoted).mpr ⟨rfl, fits⟩⟩

theorem promotion_drops_generation : ∃ store steps d flag after,
    openIn ⟨true, false, some (.replicate 16 0), true⟩ ⟨none, []⟩ 2 = some store ∧
    d ∈ (run next store steps).pending ∧ (run next store steps).SoleTarget d ∧
    (run next store steps).promotePending true "s" d.requestId = (.ok flag, after) ∧
    ¬ SameTarget 2 (run next store steps) after d := by
  let d : RecoveryDescriptor := ⟨"r1", "file:///a", (0, 6), "resume", "restored", 3, 7⟩
  have positive : 0 < 2 := by decide
  have valid : ValidRecord (pendingRecord (.replicate 16 0) d) :=
    validRecord_r1 rfl rfl (by decide)
  obtain ⟨steps, flag, after, intent, sole, fits, promoted⟩ := promote_lone positive valid
  have opened := openIn_freshStore (.replicate 16 0) positive
  refine ⟨_, steps, d, flag, after, opened, intent, sole, promoted, fun same => ?_⟩
  obtain ⟨healthy, persisted⟩ := run_intents opened steps (List.ne_nil_of_mem intent)
  have condition := (same_target (run_sound opened steps) persisted
    (run_capacity opened steps healthy) intent sole promoted).mp same
  exact absurd condition.1 (by decide)

end DurableRecoveryStore
end ZonKey.Store

import ZonKey.RecoveryStoreInvariants

set_option autoImplicit false

namespace ZonKey.Recovery.RecoveryRegistry
variable {r : RecoveryRegistry}

theorem Effect.order_growth {c : RegistryCall} {answer : RegistryAnswer} {r' : RecoveryRegistry}
    (h : Effect r c answer r') : r'.order.length ≤ r.order.length ∨
      (r'.order.length = r.order.length + 1 ∧ ∃ s u e p g d, c = .block s u e p g d) := by
  cases h with
  | full | unreconciled | unacknowledged => exact .inl (Nat.le_refl _)
  | repeated | recorded | early => exact .inl (Nat.le_refl _)
  | acknowledged => exact .inl (List.length_filter_le _ _)
  | blocked =>
    rw [put_order_length]
    split
    · exact .inl (Nat.le_refl _)
    · exact .inr ⟨rfl, _, _, _, _, _, _, rfl⟩

theorem next_order_length_le (r : RecoveryRegistry) (c : RegistryCall) :
    (r.next c).order.length ≤ r.order.length + 1 := by
  have growth : (r.next c).order.length ≤ r.order.length ∨
      (r.next c).order.length = r.order.length + 1 ∧ _ := (apply_effect r c).order_growth
  omega

theorem next_order_length_of_not_block (r : RecoveryRegistry) {c : RegistryCall}
    (other : ∀ s u e p g d, c ≠ .block s u e p g d) :
    (r.next c).order.length ≤ r.order.length :=
  (apply_effect r c).order_growth.resolve_right
    fun ⟨_, s, u, e, p, g, d, eq⟩ => other s u e p g d eq

/-- A call lists no target that was not listed before, at its uri and range,
except the one it blocks. -/
theorem next_listed (coherent : r.Coherent) {c : RegistryCall} {target : BlockedTarget}
    (mem : target ∈ (r.next c).list) :
    (∃ old ∈ r.list, target.uri = old.uri ∧ target.range = old.range) ∨
      ∃ s e p g, c = .block s target.uri e p target.range g := by
  have effect := apply_effect r c
  obtain ⟨k, found⟩ := (effect.coherent coherent).mem_listed.mp mem
  by_cases here : k = c.key r
  · generalize (c.apply r).1 = answer at effect
    change Effect r c answer (r.next c) at effect
    change (r.next c).entries k = some target at found
    generalize r.next c = after at effect found
    rw [here] at found
    have listed := fun {old : BlockedTarget} {j : String} (known : r.entries j = some old) =>
      coherent.mem_listed.mpr ⟨j, known⟩
    cases effect with
    | full | unreconciled | unacknowledged => exact .inl ⟨target, listed found, rfl, rfl⟩
    | blocked =>
      cases (KeyedQueue.put_self r.toKeyedQueue _ _).symm.trans found
      exact .inr ⟨_, _, _, _, rfl⟩
    | repeated known gate | recorded known gate | early known gate =>
      cases (KeyedQueue.setEntry_self r.toKeyedQueue _ _).symm.trans found
      rcases bindSession_ok gate with ⟨_, _, rfl⟩ | ⟨_, _, rfl⟩ <;>
        exact .inl ⟨_, listed known, rfl, rfl⟩
    | acknowledged =>
      cases (KeyedQueue.remove_self r.toKeyedQueue _).symm.trans found
  · have old : r.entries k = some target := (effect.other here).symm.trans found
    exact .inl ⟨target, coherent.mem_listed.mpr ⟨k, old⟩, rfl, rfl⟩

end ZonKey.Recovery.RecoveryRegistry

namespace ZonKey.Store
open ByteCursor Digest RecoveryCodec Recovery WriteThrough Runs

def LiveState.occupancy (live : LiveState) : Nat := live.pending.length + live.registry.list.length

theorem LiveState.Sound.occupancy {live : LiveState} (sound : live.Sound) :
    live.occupancy = live.pending.length + live.registry.order.length :=
  congrArg (live.pending.length + ·) sound.coherent.listed_length

theorem LiveState.Sound.occupancy_put {live : LiveState} (sound : live.Sound) {key : String}
    {target : BlockedTarget} (absent : live.registry.contains key = false)
    (after : LiveState.Sound ⟨live.registry.put key target, live.pending⟩) :
    LiveState.occupancy ⟨live.registry.put key target, live.pending⟩ = live.occupancy + 1 := by
  have grown := RecoveryRegistry.put_order_length (r := live.registry) key target
  rw [absent, if_neg Bool.false_ne_true] at grown
  rw [after.occupancy, sound.occupancy, grown, Nat.add_assoc]

def StoreCall.AddsRecord : StoreCall → Prop
  | .block .. | .beginPending _ => True
  | .clearPending _ | .promotePending .. | .reconcile .. | .acknowledge .. => False

theorem Accepted.occupancy_kept {live made : LiveState} {c : StoreCall} {reply : StoreReply}
    (h : Accepted live c reply made) (sound : live.Sound) (adds : ¬ c.AddsRecord) :
    made.occupancy ≤ live.occupancy := by
  have after := h.sound sound
  rw [after.occupancy, sound.occupancy]
  cases h with
  | blocked | known | begun => exact absurd trivial adds
  | unknown => exact Nat.le_refl _
  | @cleared requestId =>
    have fewer := List.length_filter_le
      (fun existing : RecoveryDescriptor => decide (existing.requestId ≠ requestId)) live.pending
    exact Nat.add_le_add_right fewer _
  | @promoted sessionId requestId d before later split =>
    have grown := RecoveryRegistry.next_order_length_le live.registry
      (.block sessionId d.uri d.expected d.replacement d.range d.documentEpoch)
    have taken := congrArg List.length split
    rw [List.length_append, List.length_cons] at taken
    change (before ++ later).length + (RecoveryRegistry.next _ _).order.length ≤ _
    rw [List.length_append]
    omega
  | @reconciled sessionId uri expected epoch text =>
    have kept := RecoveryRegistry.next_order_length_of_not_block live.registry
      (c := .reconcile sessionId uri expected epoch text) nofun
    exact Nat.add_le_add_left kept _
  | @acknowledged sessionId uri expected epoch =>
    have kept := RecoveryRegistry.next_order_length_of_not_block live.registry
      (c := .acknowledge sessionId uri expected epoch) nofun
    exact Nat.add_le_add_left kept _

/-- Only blocking a new target can carry the occupancy past the capacity. -/
theorem Accepted.occupancy_le {live made : LiveState} {c : StoreCall} {reply : StoreReply}
    (h : Accepted live c reply made) (sound : live.Sound) {capacity : Nat}
    (size : live.registry.capacity = capacity) (bound : live.occupancy ≤ capacity)
    (fits : ∀ sessionId uri expected replacement range,
      c = .block sessionId uri expected replacement range →
      live.registry.isBlocked uri expected = true ∨ live.occupancy < capacity ∨
        live.registry.list.length = capacity) : made.occupancy ≤ capacity := by
  have after := h.sound sound
  have kept := h.occupancy_kept sound
  have listed : live.registry.list.length = live.registry.order.length :=
    sound.coherent.listed_length
  cases h with
  | known | unknown => exact bound
  | @blocked sessionId uri expected replacement range room =>
    have fit := fits sessionId uri expected replacement range rfl
    rw [sound.occupancy, listed] at fit
    rw [sound.occupancy] at bound
    rw [after.occupancy]
    change live.pending.length + (live.registry.put _ _).order.length ≤ capacity
    rw [RecoveryRegistry.put_order_length]
    split
    · exact bound
    · rename_i absent
      have other := room.resolve_left absent
      have fewer := fit.resolve_left absent
      omega
  | begun unopened room =>
    rw [after.occupancy]
    change live.pending.length + live.registry.list.length < live.registry.capacity at room
    change (live.pending ++ [_]).length + live.registry.order.length ≤ capacity
    rw [List.length_append, List.length_singleton]
    omega
  | cleared | promoted | reconciled | acknowledged => exact (kept id).trans bound

namespace DurableRecoveryStore
variable {store : DurableRecoveryStore} {capacity : Nat}

theorem snapshot_length (store : DurableRecoveryStore) :
    store.snapshot.length = store.live.occupancy := by
  simp [snapshot, snapshotRecords, LiveState.occupancy, live, Nat.add_comm]

theorem Rooted.capacity_pos (h : store.Rooted capacity) (healthy : store.poison = none) :
    capacity ≠ 0 := by
  have positive := store.registry.capacity_pos
  rw [h.bounded healthy] at positive
  omega

/-- No opening of the directory with this capacity finds the file unreadable. -/
def Reopens (capacity : Nat) (store : DurableRecoveryStore) : Prop :=
  ∀ env reopened, openIn env store.directory capacity = some reopened →
    ∀ error, reopened.poison ≠ some (.stateUnreadable error)

theorem Rooted.reopens (h : store.Rooted capacity) (bound : store.live.occupancy ≤ capacity) :
    store.Reopens capacity := by
  intro env reopened opened error
  cases openIn_opening opened with
  | unavailable | fresh | restored => simp
  | unreadable made read cause =>
    have content := content_of_read read
    have healthy : store.poison = none := by
      by_contra poisoned
      rw [(h.empty poisoned).1] at content
      cases content
    obtain ⟨file, same, encoded, decoded⟩ := (h.persisted healthy).decodes
    cases same.symm.trans content
    cases cause with
    | oversized size =>
      have fits := encode_length_le encoded
      omega
    | undecodable failed =>
      rw [decoded] at failed
      cases failed
    | unrestorable found failed =>
      rw [decoded] at found
      cases found
      obtain ⟨registry, made⟩ := RecoveryRegistry.restore_isOk store.salt (h.capacity_pos healthy)
        (by rw [snapshot_length]; exact bound)
      rw [made] at failed
      cases failed

theorem Rooted.not_reopens (h : store.Rooted capacity) (healthy : store.poison = none)
    (beyond : capacity < store.live.occupancy) : ¬ store.Reopens capacity := by
  intro reopens
  obtain ⟨file, content, encoded, decoded⟩ := (h.persisted healthy).decodes
  have refused : RecoveryRegistry.restore capacity store.salt store.snapshot =
      .error ⟨⟩ := by
    rw [RecoveryRegistry.restore, if_pos (.inr (by rw [snapshot_length]; exact beyond))]
  have poisons : openIn ⟨true, false, none, true⟩ store.directory capacity = _ :=
    openIn_of_decoded rfl content (encode_length_le encoded) decoded
  rw [refused] at poisons
  have opens := poisoned_isSome store.directory capacity (.stateUnreadable .tooManyEntries)
  obtain ⟨reopened, made⟩ := Option.isSome_iff_exists.mp opens
  obtain ⟨registry, size, _, rfl⟩ := poisoned_eq made
  exact reopens _ _ (poisons.trans made) _ rfl

/-- A block keeps the shared bound: its target is blocked already, there is
room for one more, or the block comes to nothing because the registry itself is
full, the write fails or the new state has no encoding. -/
def BlockFits (capacity : Nat) (store : DurableRecoveryStore) (step : StoreStep) : Prop :=
  match step.call with
  | .block _ uri expected _ range =>
    store.targetBlocked uri expected = true ∨ store.live.occupancy < capacity ∨
      store.registry.list.length = capacity ∨ step.durable = false ∨
      maxRecoveryEntries ≤ store.live.occupancy ∨
      ¬ (0 < (asBytes uri).length ∧ (asBytes uri).length ≤ maxUriBytes ∧ range.1 ≤ range.2)
  | _ => True

theorem block_operation {live : LiveState} (sessionId replacement : String)
    (range : UInt64 × UInt64) {uri expected : String} (room : live.registry.order.length ≠ live.registry.capacity) :
    (StoreCall.block sessionId uri expected replacement range).operation live =
      (.ok (.blocked none), ⟨live.registry.put (live.registry.resolveKey uri expected)
        (RecoveryRegistry.freshTarget sessionId uri expected replacement range 0),
        live.pending⟩) := by
  have accepted : ¬ (¬ live.registry.contains (live.registry.resolveKey uri expected) ∧
      live.registry.order.length = live.registry.capacity) := fun refused => room refused.2
  simp only [StoreCall.operation, onRegistry, RecoveryRegistry.block, if_neg accepted]
  rfl

theorem operatorRequestId_valid : 0 < (asBytes operatorRequestId).length ∧
    (asBytes operatorRequestId).length ≤ maxRequestIdBytes := by decide

theorem Persisted.encodes_block (h : store.Persisted) (sound : store.live.Sound)
    (k sessionId expected replacement : String) {uri : String} {range : UInt64 × UInt64}
    (few : store.live.occupancy < maxRecoveryEntries) (uriPos : 0 < (asBytes uri).length)
    (uriLe : (asBytes uri).length ≤ maxUriBytes) (ordered : range.1 ≤ range.2) :
    ∃ file, encodeLive store.salt ⟨store.registry.put k (RecoveryRegistry.freshTarget sessionId uri
      expected replacement range 0), store.pending⟩ = .ok file := by
  obtain ⟨_, encoded, _⟩ := h
  obtain ⟨_, valid, _⟩ := encode_ok_iff.mp encoded
  obtain ⟨idPos, idLe⟩ := operatorRequestId_valid
  have coherent := sound.coherent
  change store.registry.Coherent at coherent
  let fresh := RecoveryRegistry.freshTarget sessionId uri expected replacement range 0
  have put : (store.registry.put k fresh).Coherent := coherent.put k fresh
  refine ⟨_, encode_ok_iff.mpr ⟨?_, ?_, rfl⟩⟩
  · have listed : (store.registry.put k fresh).list.length = _ := put.listed_length
    have grown := RecoveryRegistry.put_order_length (r := store.registry) k fresh
    rw [sound.occupancy] at few
    change store.pending.length + store.registry.order.length < _ at few
    simp only [snapshotRecords, List.length_append, List.length_map]
    change (store.registry.put k fresh).list.length + store.pending.length ≤ _
    rw [listed, grown]
    split <;> omega
  · intro record mem
    rcases List.mem_append.mp mem with listed | pending
    · obtain ⟨target, here, rfl⟩ := List.mem_map.mp listed
      obtain ⟨j, found⟩ := put.mem_listed.mp here
      by_cases same : j = k
      · subst same
        cases (KeyedQueue.put_self store.registry.toKeyedQueue _ _).symm.trans found
        exact ⟨uriPos, uriLe, idPos, idLe, ordered⟩
      · have old := (KeyedQueue.put_other store.registry.toKeyedQueue fresh same).symm.trans found
        exact valid _ (mem_snapshot_of_entry coherent old)
    · exact valid record (List.mem_append_right _ pending)

theorem operatorRecord_valid {salt : Salt} {record : PersistedTarget} (valid : ValidRecord record)
    {target : BlockedTarget} (uri : target.uri = record.uri) (range : target.range = record.range) :
    ValidRecord (intoPersisted salt operatorRequestId target) := by
  obtain ⟨idPos, idLe⟩ := operatorRequestId_valid
  obtain ⟨uriPos, uriLe, _, _, ordered⟩ := valid
  rw [← uri] at uriPos uriLe
  rw [← range] at ordered
  exact ⟨uriPos, uriLe, idPos, idLe, ordered⟩

/-- A state that only takes records away, or rewrites them at their uri and
range, has an encoding. -/
theorem Persisted.encodes_kept (h : store.Persisted) (sound : store.live.Sound) {made : LiveState}
    {c : StoreCall} {reply : StoreReply} (accepted : Accepted store.live c reply made)
    (adds : ¬ c.AddsRecord) : ∃ file, encodeLive store.salt made = .ok file := by
  obtain ⟨file, encoded, _⟩ := h
  obtain ⟨few, valid, _⟩ := encode_ok_iff.mp encoded
  have size : ∀ live : LiveState,
      (snapshotRecords live.registry live.pending store.salt).length = live.occupancy := fun live =>
    by simp [snapshotRecords, LiveState.occupancy, Nat.add_comm]
  have rewritten : ∀ target : BlockedTarget, (∃ old ∈ store.live.registry.list,
      target.uri = old.uri ∧ target.range = old.range) →
      ValidRecord (intoPersisted store.salt operatorRequestId target) := by
    rintro target ⟨old, mem, uri, range⟩
    exact operatorRecord_valid (valid _ (List.mem_append_left _ (List.mem_map_of_mem mem))) uri range
  have pendingValid : ∀ d ∈ store.pending, ValidRecord (pendingRecord store.salt d) := fun d mem =>
    valid _ (List.mem_append_right _ (List.mem_map_of_mem mem))
  have targets : ∀ target ∈ made.registry.list,
      ValidRecord (intoPersisted store.salt operatorRequestId target) := by
    intro target mem
    cases accepted with
    | blocked | known | begun => exact absurd trivial adds
    | cleared | unknown => exact rewritten target ⟨target, mem, rfl, rfl⟩
    | reconciled | acknowledged =>
      rcases RecoveryRegistry.next_listed sound.coherent mem with old | ⟨_, _, _, _, call⟩
      · exact rewritten target old
      · cases call
    | @promoted sessionId requestId d before later split =>
      rcases RecoveryRegistry.next_listed sound.coherent mem with old | ⟨_, _, _, _, call⟩
      · exact rewritten target old
      · injection call with _ uri _ _ range
        have held : d ∈ store.live.pending := by simp [split]
        exact operatorRecord_valid (pendingValid d held) uri.symm range.symm
  have intents : made.pending ⊆ store.pending := by
    cases accepted with
    | blocked | known | begun => exact absurd trivial adds
    | unknown | reconciled | acknowledged => exact List.Subset.refl _
    | cleared => exact List.filter_subset_self _
    | promoted split =>
      have known : store.pending = _ := split
      rw [known]
      exact ((List.sublist_cons_self _ _).append_left _).subset
  refine ⟨_, encode_ok_iff.mpr ⟨?_, ?_, rfl⟩⟩
  · rw [size] at few ⊢
    exact (accepted.occupancy_kept sound adds).trans few
  · intro record mem
    rcases List.mem_append.mp mem with blocked | pending
    · obtain ⟨target, here, rfl⟩ := List.mem_map.mp blocked
      exact targets target here
    · obtain ⟨d, here, rfl⟩ := List.mem_map.mp pending
      exact pendingValid d (intents here)

theorem onRegistry_committed (healthy : store.poison = none) (h : store.Persisted)
    (sound : store.live.Sound) {τ : Type} {result : τ} {registry : RecoveryRegistry}
    {method : RecoveryRegistry → Except RecoveryError τ × RecoveryRegistry}
    (performed : onRegistry method store.live = (.ok result, { store.live with registry }))
    {c : StoreCall} {reply : StoreReply}
    (accepted : Accepted store.live c reply { store.live with registry })
    (adds : ¬ c.AddsRecord) :
    ∃ after, store.mutateState true (onRegistry method) = (.ok result, after) ∧
      after.poison = none ∧ after.Persisted ∧ after.live.Sound ∧ after.registry = registry := by
  obtain ⟨file, encoded⟩ := h.encodes_kept sound accepted adds
  exact ⟨_, mutateState_committed healthy performed encoded, healthy, ⟨file, encoded, rfl⟩,
    accepted.sound sound, rfl⟩

section Committed
variable {sessionId uri expected live : String} {epoch : UInt64} {registry : RecoveryRegistry}

theorem reconcile_committed (healthy : store.poison = none) (h : store.Persisted)
    (sound : store.live.Sound) {verdict : RecoveryVerdict}
    (reconciles : store.registry.reconcile sessionId uri expected epoch live =
      (.ok verdict, registry)) :
    ∃ after, store.reconcile true sessionId uri expected epoch live = (.ok verdict, after) ∧
      after.poison = none ∧ after.Persisted ∧ after.live.Sound ∧ after.registry = registry := by
  have performed : onRegistry (·.reconcile sessionId uri expected epoch live) store.live =
      (.ok verdict, { store.live with registry }) := by
    simp only [onRegistry, DurableRecoveryStore.live, reconciles]
  have accepted : Accepted store.live (.reconcile sessionId uri expected epoch live)
      (.reconciled verdict) { store.live with registry } :=
    accepted_of_operation (by simp only [StoreCall.operation, performed, Prod.map, Except.map, id])
  exact onRegistry_committed healthy h sound performed accepted id

theorem acknowledge_committed (healthy : store.poison = none) (h : store.Persisted)
    (sound : store.live.Sound)
    (acknowledges : store.registry.acknowledge sessionId uri expected epoch = (.ok (), registry)) :
    ∃ after, store.acknowledge true sessionId uri expected epoch = (.ok (), after) ∧
      after.poison = none ∧ after.Persisted ∧ after.live.Sound ∧ after.registry = registry := by
  have performed : onRegistry (·.acknowledge sessionId uri expected epoch) store.live =
      (.ok (), { store.live with registry }) := by
    simp only [onRegistry, DurableRecoveryStore.live, acknowledges]
  have accepted : Accepted store.live (.acknowledge sessionId uri expected epoch)
      .acknowledged { store.live with registry } :=
    accepted_of_operation (by simp only [StoreCall.operation, performed, Prod.map, Except.map, id])
  exact onRegistry_committed healthy h sound performed accepted id

end Committed

theorem encoded_block {sessionId k uri expected replacement : String} {range : UInt64 × UInt64}
    {file : Bytes} (sound : store.live.Sound)
    (encoded : encodeLive store.salt ⟨store.registry.put k (RecoveryRegistry.freshTarget sessionId
      uri expected replacement range 0), store.pending⟩ = .ok file) :
    (store.registry.contains k = true ∨ store.live.occupancy < maxRecoveryEntries) ∧
      0 < (asBytes uri).length ∧ (asBytes uri).length ≤ maxUriBytes ∧ range.1 ≤ range.2 := by
  obtain ⟨few, valid, _⟩ := encode_ok_iff.mp encoded
  let fresh := RecoveryRegistry.freshTarget sessionId uri expected replacement range 0
  have put : (store.registry.put k fresh).Coherent := KeyedQueue.Coherent.put sound.coherent k fresh
  constructor
  · have listed : (store.registry.put k fresh).list.length = _ := put.listed_length
    have grown := RecoveryRegistry.put_order_length (r := store.registry) k fresh
    simp only [snapshotRecords, List.length_append, List.length_map] at few
    change (store.registry.put k fresh).list.length + store.pending.length ≤ _ at few
    rw [listed, grown] at few
    rw [sound.occupancy]
    change _ ∨ store.pending.length + store.registry.order.length < _
    split at few
    · exact .inl ‹_›
    · right
      omega
  · have here : fresh ∈ (store.registry.put k fresh).list :=
      put.mem_listed.mpr ⟨k, KeyedQueue.put_self store.registry.toKeyedQueue k fresh⟩
    have record := valid _ (List.mem_append_left _ (List.mem_map_of_mem here))
    exact ⟨record.uri_pos, record.uri_le, record.range_le⟩

theorem bound_of_fits (h : store.Rooted capacity) (bound : store.live.occupancy ≤ capacity)
    {step : StoreStep} (fits : BlockFits capacity store step) :
    (store.next step).live.occupancy ≤ capacity := by
  have effect := apply_effect store step
  generalize (step.call.apply step.durable store).1 = answer at effect
  generalize store.next step = after at effect ⊢
  cases effect with
  | poisoned => exact bound
  | mutated healthy outcome =>
    cases outcome with
    | refused | unencodable | unwritten => exact bound
    | committed performed encoded written =>
      have accepted := accepted_of_operation performed
      refine accepted.occupancy_le h.sound (h.bounded healthy) bound ?_
      intro sessionId uri expected replacement range eq
      rw [eq] at accepted
      unfold BlockFits at fits
      rw [eq] at fits
      simp only [targetBlocked, healthy, written, Bool.true_eq_false, false_or] at fits
      cases accepted with
      | blocked room =>
        obtain ⟨few, valid⟩ := encoded_block h.sound encoded
        rcases fits with blocked | room | full | many | invalid
        · exact .inl blocked
        · exact .inr (.inl room)
        · exact .inr (.inr full)
        · exact .inl (few.resolve_right (by omega))
        · exact absurd valid invalid

theorem Rooted.fits_of_bound (h : store.Rooted capacity) {step : StoreStep}
    (bound : (store.next step).live.occupancy ≤ capacity) : BlockFits capacity store step := by
  by_contra unfit
  obtain ⟨call, durable⟩ := step
  cases call with
  | beginPending | clearPending | promotePending | reconcile | acknowledge => exact unfit trivial
  | block sessionId uri expected replacement range =>
    simp only [BlockFits, not_or, not_not, not_lt, not_le, Bool.not_eq_true,
      Bool.not_eq_false] at unfit
    obtain ⟨unblocked, beyond, unfull, written, few, uriPos, uriLe, ordered⟩ := unfit
    have healthy : store.poison = none := by
      cases poison : store.poison with
      | none => rfl
      | some reason => simp [targetBlocked, poison] at unblocked
    have size := h.bounded healthy
    have listed : store.registry.list.length = store.registry.order.length :=
      h.sound.coherent.listed_length
    have room : store.registry.order.length ≠ store.registry.capacity := by
      rw [← listed, size]
      exact unfull
    have performs : (StoreCall.block sessionId uri expected replacement range).operation
        store.live = _ := block_operation sessionId replacement range room
    obtain ⟨file, encodes⟩ := (h.persisted healthy).encodes_block h.sound
      (store.registry.resolveKey uri expected) sessionId expected replacement few uriPos uriLe
      ordered
    have effect := apply_effect store ⟨.block sessionId uri expected replacement range, durable⟩
    generalize (StoreCall.apply _ _ store).1 = answer at effect
    generalize store.next _ = after at effect bound
    cases effect with
    | poisoned unreadable => rw [healthy] at unreadable; cases unreadable
    | mutated _ outcome =>
      cases outcome with
      | refused rejected => rw [performs] at rejected; cases rejected
      | unencodable accepted failed =>
        rw [performs] at accepted
        cases accepted
        exact absurd (encodes.symm.trans failed) (by simp)
      | unwritten _ _ lost => rw [written] at lost; cases lost
      | committed accepted =>
        have after := (accepted_of_operation accepted).sound h.sound
        rw [performs] at accepted
        cases accepted
        have absent : store.registry.contains (store.registry.resolveKey uri expected) = false := by
          simpa only [targetBlocked, healthy, RecoveryRegistry.isBlocked] using unblocked
        have grown : _ = store.live.occupancy + 1 := h.sound.occupancy_put absent after
        have within := le_of_eq_of_le grown.symm bound
        omega

/-- Every state of a run from an empty directory keeps the shared bound and
leaves a file that opens again, exactly when every block of the run fits. -/
theorem bound_and_reopen_iff {env : OpenEnvironment} {directory : StateDirectory}
    (absent : directory.content = none) (opened : openIn env directory capacity = some store)
    (steps : List StoreStep) :
    (∀ before after, steps = before ++ after →
        (run next store before).live.occupancy ≤ capacity ∧
          (run next store before).Reopens capacity) ↔
      AllSteps next (BlockFits capacity) store steps := by
  constructor
  · intro bounded
    refine allSteps_of_split fun before step after split => ?_
    refine (run_rooted absent opened before).fits_of_bound ?_
    have reached := (bounded (before ++ [step]) after (by simpa using split)).1
    rwa [run_append] at reached
  · rintro fits before after rfl
    have start : store.live.occupancy ≤ capacity := by
      have rooted := opened_rooted absent opened
      cases openIn_opening opened with
      | unavailable | unreadable =>
        simp [LiveState.occupancy, live, (rooted.empty (by simp)).2.1]
      | fresh _ _ _ made =>
        simp [LiveState.occupancy, live, RecoveryRegistry.list, (RecoveryRegistry.new_ok made).1,
          KeyedQueue.listed, KeyedQueue.empty]
      | restored _ read =>
        rw [content_of_read read] at absent
        cases absent
    have reached := run_invariant (fun s => s.Rooted capacity ∧ s.live.occupancy ≤ capacity)
      (fun s step inv fit => ⟨inv.1.next step, bound_of_fits inv.1 inv.2 fit⟩)
      ⟨opened_rooted absent opened, start⟩ ((allSteps_append _ before after).mp fits).1
    exact ⟨reached.2, reached.1.reopens reached.2⟩

theorem bound_and_reopen_one_intent : ∃ store,
    openIn ⟨true, false, some (.replicate 16 0), true⟩ ⟨none, []⟩ 1 = some store ∧
    ((∀ before after,
        [⟨.beginPending ⟨"r1", "file:///a", (0, 6), "resume", "restored", 0, 7⟩, true⟩] =
          before ++ after → (run next store before).live.occupancy ≤ 1 ∧
            (run next store before).Reopens 1) ↔
      AllSteps next (BlockFits 1) store
        [⟨.beginPending ⟨"r1", "file:///a", (0, 6), "resume", "restored", 0, 7⟩, true⟩]) := by
  have opened := openIn_freshStore (.replicate 16 0) Nat.one_pos
  exact ⟨_, opened, bound_and_reopen_iff rfl opened _⟩

/-- With capacity 1, an intent and then a block of another target are two
records, and the file they make opens poisoned. -/
theorem block_passes_bound : ∃ store steps,
    openIn ⟨true, false, some (.replicate 16 0), true⟩ ⟨none, []⟩ 1 = some store ∧
    ¬ (run next store steps).live.occupancy ≤ 1 ∧ ¬ (run next store steps).Reopens 1 := by
  let store := freshStore (.replicate 16 0) 1 (by decide)
  let steps : List StoreStep :=
    [⟨.beginPending ⟨"r1", "file:///a", (0, 6), "resume", "restored", 0, 7⟩, true⟩,
      ⟨.block "s" "file:///b" "draft" "final" (0, 5), true⟩]
  have opened : openIn ⟨true, false, some (.replicate 16 0), true⟩ ⟨none, []⟩ 1 = some store :=
    openIn_freshStore _ _
  have beyond : 1 < (run next store steps).live.occupancy := by decide +kernel
  have healthy : (run next store steps).poison = none := run_poison store steps
  exact ⟨store, steps, opened, Nat.not_le.mpr beyond,
    (run_rooted rfl opened steps).not_reopens healthy beyond⟩

end DurableRecoveryStore
end ZonKey.Store

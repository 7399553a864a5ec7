import ZonKey.RecoveryRegistryKeys
import ZonKey.RecoveryStoreInvariants

set_option autoImplicit false

namespace ZonKey.Store
open RecoveryCodec Recovery WriteThrough Runs

def Spells (salt : Option Salt) (uri expected k : String) : Prop :=
  k = RecoveryRegistry.key uri expected ∨ k = RecoveryRegistry.namedKey salt uri expected

theorem resolveKey_spells (r : RecoveryRegistry) (uri expected : String) :
    Spells r.salt uri expected (r.resolveKey uri expected) := by
  cases plain : r.entries (RecoveryRegistry.key uri expected) with
  | none => exact .inr (RecoveryRegistry.resolveKey_of_absent plain)
  | some target => exact .inl (RecoveryRegistry.resolveKey_of_found plain)

theorem isBlocked_of_spells {r : RecoveryRegistry} {uri expected k : String}
    (spelled : Spells r.salt uri expected k) (held : r.contains k = true) :
    r.isBlocked uri expected = true := by
  rw [RecoveryRegistry.isBlocked_iff]
  rcases spelled with rfl | rfl
  · exact .inl held
  · cases salt : r.salt with
    | none => exact .inl (by simpa [salt, RecoveryRegistry.namedKey] using held)
    | some known => exact .inr ⟨known, rfl, by simpa [salt, RecoveryRegistry.namedKey] using held⟩

def Guarded (P : BlockedTarget → Prop) (live : LiveState) (uri expected : String) : Prop :=
  (∃ d ∈ live.pending, d.uri = uri ∧ d.expected = expected) ∨
    ∃ k target, Spells live.registry.salt uri expected k ∧
      live.registry.entries k = some target ∧ P target

/-- The intents outside `dropped` stay, and so do the entries of this kind at
the keys in `keys`. -/
structure Keeps (dropped : RecoveryDescriptor → Prop) (P : BlockedTarget → Prop)
    (keys : String → Prop) (before after : LiveState) : Prop where
  salt : after.registry.salt = before.registry.salt
  pending : ∀ d ∈ before.pending, ¬ dropped d → d ∈ after.pending
  entries : ∀ k target, keys k → before.registry.entries k = some target → P target →
    ∃ later, after.registry.entries k = some later ∧ P later

section Keeping
variable {dropped : RecoveryDescriptor → Prop} {P : BlockedTarget → Prop} {keys : String → Prop}
  {live made : LiveState}

theorem Keeps.guarded {uri expected : String}
    (h : Keeps dropped P (Spells live.registry.salt uri expected) live made)
    (stays : ∀ d ∈ live.pending, d.uri = uri → d.expected = expected → ¬ dropped d)
    (guarded : Guarded P live uri expected) : Guarded P made uri expected := by
  rcases guarded with ⟨d, mem, rfl, rfl⟩ | ⟨k, target, spelled, found, ok⟩
  · exact .inl ⟨d, h.pending d mem (stays d mem rfl rfl), rfl, rfl⟩
  · obtain ⟨later, found, ok⟩ := h.entries k target spelled found ok
    exact .inr ⟨k, later, by rw [h.salt]; exact spelled, found, ok⟩

theorem entry_of_block {r : RecoveryRegistry} {k : String} {target : BlockedTarget}
    (found : r.entries k = some target) (sessionId uri expected replacement : String)
    (range : UInt64 × UInt64) (epoch : UInt64) :
    ∃ later, (r.next (.block sessionId uri expected replacement range epoch)).entries k =
      some later ∧ (later = target ∨ later.state = none) := by
  by_cases room : r.contains (r.resolveKey uri expected) = true ∨ r.order.length ≠ r.capacity
  · rw [RecoveryRegistry.next_block_of_room room]
    by_cases here : k = r.resolveKey uri expected
    · subst here
      exact ⟨_, KeyedQueue.put_self _ _ _, .inr rfl⟩
    · exact ⟨target, (KeyedQueue.put_other _ _ here).trans found, .inl rfl⟩
  · rw [not_or, not_not, Bool.not_eq_true] at room
    rw [RecoveryRegistry.next_block_of_full room.1 room.2]
    exact ⟨target, found, .inl rfl⟩

theorem entry_of_reconcile {r : RecoveryRegistry} {uri expected : String} {target : BlockedTarget}
    (found : r.entries (r.resolveKey uri expected) = some target) (sessionId : String)
    (epoch : UInt64) (text : String) :
    ∃ later, (r.next (.reconcile sessionId uri expected epoch text)).entries
      (r.resolveKey uri expected) = some later := by
  have effect := RecoveryRegistry.apply_effect r (.reconcile sessionId uri expected epoch text)
  unfold RecoveryRegistry.next
  generalize (RegistryCall.apply (.reconcile sessionId uri expected epoch text) r).1 = answer at effect
  generalize (RegistryCall.apply (.reconcile sessionId uri expected epoch text) r).2 = after
    at effect ⊢
  cases effect with
  | unreconciled => exact ⟨target, found⟩
  | repeated | recorded => exact ⟨_, KeyedQueue.setEntry_self _ _ _⟩

theorem entry_of_early_acknowledge {r : RecoveryRegistry} {uri expected : String}
    {target : BlockedTarget} (found : r.entries (r.resolveKey uri expected) = some target)
    (awaiting : target.state = none) (sessionId : String) (epoch : UInt64) :
    ∃ later, (r.next (.acknowledge sessionId uri expected epoch)).entries
      (r.resolveKey uri expected) = some later ∧ later.state = none := by
  have effect := RecoveryRegistry.apply_effect r (.acknowledge sessionId uri expected epoch)
  unfold RecoveryRegistry.next
  generalize (RegistryCall.apply (.acknowledge sessionId uri expected epoch) r).1 = answer at effect
  generalize (RegistryCall.apply (.acknowledge sessionId uri expected epoch) r).2 = after
    at effect ⊢
  cases effect with
  | unacknowledged => exact ⟨target, found, awaiting⟩
  | early _ _ state => exact ⟨_, KeyedQueue.setEntry_self _ _ _, state⟩
  | acknowledged known gate recorded =>
    rw [found] at known
    cases known
    rw [RecoveryRegistry.bindSession_state gate, awaiting] at recorded
    cases recorded

def StoreCall.settles : StoreCall → Option RegistryCall
  | .reconcile sessionId uri expected epoch text =>
    some (.reconcile sessionId uri expected epoch text)
  | .acknowledge sessionId uri expected epoch => some (.acknowledge sessionId uri expected epoch)
  | _ => none

/-- Every call but a settling one keeps the entries of a kind that fresh
blocks belong to; only the named intents leave the list. -/
theorem Accepted.keeps {c : StoreCall} {reply : StoreReply} (h : Accepted live c reply made)
    (fresh : ∀ target : BlockedTarget, target.state = none → P target)
    (names : ∀ d ∈ live.pending, (∃ id, c = .clearPending id ∧ d.requestId = id) ∨
      (∃ sessionId id, c = .promotePending sessionId id ∧ d.requestId = id) → dropped d)
    (settled : ∀ k target, keys k → live.registry.entries k = some target → P target →
      ∀ d, c.settles = some d → ∃ later, (live.registry.next d).entries k = some later ∧ P later) :
    Keeps dropped P keys live made := by
  have renewed : ∀ k target, live.registry.entries k = some target → P target →
      ∀ sessionId uri expected replacement range epoch, ∃ later,
        (live.registry.next (.block sessionId uri expected replacement range epoch)).entries k =
          some later ∧ P later := by
    intro k target found ok sessionId uri expected replacement range epoch
    obtain ⟨later, there, same | state⟩ :=
      entry_of_block found sessionId uri expected replacement range epoch
    · exact ⟨later, there, same ▸ ok⟩
    · exact ⟨later, there, fresh later state⟩
  refine ⟨h.salt, ?_, ?_⟩
  · intro d mem kept
    cases h with
    | blocked | known | unknown | reconciled | acknowledged => exact mem
    | begun => exact List.mem_append_left _ mem
    | cleared =>
      refine List.mem_filter.mpr ⟨mem, ?_⟩
      simpa using fun same => kept (names d mem (.inl ⟨_, rfl, same⟩))
    | @promoted sessionId requestId descriptor before after split opened =>
      have other : d ≠ descriptor := by
        rintro rfl
        exact kept (names d mem (.inr ⟨_, _, rfl, opened⟩))
      rw [split, List.mem_append, List.mem_cons] at mem
      rw [List.mem_append]
      tauto
  · intro k target here found ok
    cases h with
    | known | begun | cleared | unknown => exact ⟨target, found, ok⟩
    | @blocked sessionId uri expected replacement range room =>
      have later := renewed k target found ok sessionId uri expected replacement range 0
      rw [RecoveryRegistry.next_block_of_room room] at later
      exact later
    | promoted => exact renewed k target found ok _ _ _ _ _ _
    | reconciled | acknowledged => exact settled k target here found ok _ rfl

end Keeping

namespace DurableRecoveryStore
variable {store : DurableRecoveryStore}

def Guards (P : BlockedTarget → Prop) (store : DurableRecoveryStore) (uri expected : String) : Prop :=
  store.poison ≠ none ∨ Guarded P store.live uri expected

theorem guards_next {P : BlockedTarget → Prop} {uri expected : String} (step : StoreStep)
    (kept : ∀ reply made, Accepted store.live step.call reply made →
      Guarded P store.live uri expected → Guarded P made uri expected)
    (start : store.Guards P uri expected) : (store.next step).Guards P uri expected := by
  unfold Guards
  rw [next_poison]
  refine start.imp id fun guarded => ?_
  rcases next_live store step with same | ⟨reply, accepted⟩
  · rw [same]
    exact guarded
  · exact kept reply _ accepted guarded

def Spares (store : DurableRecoveryStore) (c : StoreCall) (uri expected : String) : Prop :=
  match c with
  | .block .. | .beginPending _ => True
  | .clearPending requestId | .promotePending _ requestId =>
    ∀ d ∈ store.pending, d.uri = uri → d.expected = expected → d.requestId ≠ requestId
  | .reconcile _ named token _ _ | .acknowledge _ named token _ =>
    named = uri ∧ token = expected ∨
      ∀ target, store.registry.entries (store.registry.resolveKey named token) = some target →
        ¬ Spells store.registry.salt uri expected (store.registry.resolveKey named token)

theorem spares_settles {c : StoreCall} {d : RegistryCall} {uri expected : String}
    (spares : store.Spares c uri expected) (settles : c.settles = some d) :
    d.uri = uri ∧ d.expected = expected ∨
      ∀ target, store.registry.entries (d.key store.registry) = some target →
        ¬ Spells store.registry.salt uri expected (d.key store.registry) := by
  cases c with
  | reconcile | acknowledge =>
    cases settles
    exact spares
  | block | beginPending | clearPending | promotePending => cases settles

theorem guards_of_spares {P : BlockedTarget → Prop} {uri expected : String} {step : StoreStep}
    (fresh : ∀ target : BlockedTarget, target.state = none → P target)
    (spares : store.Spares step.call uri expected)
    (settled : ∀ d, step.call.settles = some d → d.uri = uri → d.expected = expected → ∀ target,
      store.registry.entries (d.key store.registry) = some target → P target →
      ∃ later, (store.registry.next d).entries (d.key store.registry) = some later ∧ P later)
    (start : store.Guards P uri expected) : (store.next step).Guards P uri expected := by
  refine guards_next step (fun reply made accepted guarded => ?_) start
  suffices kept : Keeps (fun d => ¬ (d.uri = uri ∧ d.expected = expected)) P
      (Spells store.registry.salt uri expected) store.live made from
    kept.guarded (fun d _ named token away => away ⟨named, token⟩) guarded
  refine accepted.keeps fresh ?_ ?_
  · obtain ⟨c, durable⟩ := step
    rintro d mem resolved ⟨named, token⟩
    rcases resolved with ⟨id, rfl, same⟩ | ⟨_, id, rfl, same⟩
    · exact spares d mem named token same
    · exact spares d mem named token same
  · intro k target spelled found ok d settles
    change store.registry.entries k = some target at found
    by_cases here : k = d.key store.registry
    · subst here
      rcases spares_settles spares settles with ⟨named, token⟩ | apart
      · exact settled d settles named token target found ok
      · exact absurd spelled (apart target found)
    · exact ⟨target, (RecoveryRegistry.next_other store.registry d here).trans found, ok⟩

theorem guards_of_error {P : BlockedTarget → Prop} {uri expected : String} {step : StoreStep}
    {error : RecoveryStoreError} (refused : (step.call.apply step.durable store).1 = .error error)
    (start : store.Guards P uri expected) : (store.next step).Guards P uri expected := by
  obtain ⟨registry, pending, _⟩ := (atomic store step).1 error refused
  unfold Guards at start ⊢
  rw [next_poison]
  simpa only [live, registry, pending] using start

abbrev Awaiting (store : DurableRecoveryStore) (uri expected : String) : Prop :=
  store.Guards (·.state = none) uri expected

abbrev Held (store : DurableRecoveryStore) (uri expected : String) : Prop :=
  store.Guards (fun _ => True) uri expected

theorem Awaiting.held {uri expected : String} (h : store.Awaiting uri expected) :
    store.Held uri expected := by
  refine h.imp id (Or.imp id ?_)
  rintro ⟨k, target, spelled, found, _⟩
  exact ⟨k, target, spelled, found, trivial⟩

theorem held_next {uri expected : String} (step : StoreStep)
    (spares : store.Spares step.call uri expected) (start : store.Held uri expected) :
    (store.next step).Held uri expected ∨
      ∃ sessionId epoch, step.call = .acknowledge sessionId uri expected epoch ∧
        (store.acknowledge step.durable sessionId uri expected epoch).1 = .ok () := by
  by_cases settles : ∃ sessionId epoch, step.call = .acknowledge sessionId uri expected epoch
  · obtain ⟨sessionId, epoch, call⟩ := settles
    cases answered : (store.acknowledge step.durable sessionId uri expected epoch).1 with
    | ok done => exact .inr ⟨sessionId, epoch, call, answered⟩
    | error error =>
      have refused : (step.call.apply step.durable store).1 = .error error := by
        simp only [call, StoreCall.apply, Prod.map, answered, Except.map]
      exact .inl (guards_of_error refused start)
  · refine .inl (guards_of_spares (fun _ _ => trivial) spares ?_ start)
    rintro d call rfl rfl target found _
    obtain ⟨c, durable⟩ := step
    cases c with
    | reconcile sessionId uri expected epoch text =>
      cases call
      obtain ⟨later, there⟩ := entry_of_reconcile found sessionId epoch text
      exact ⟨later, there, trivial⟩
    | acknowledge sessionId uri expected epoch =>
      cases call
      exact absurd ⟨sessionId, epoch, rfl⟩ settles
    | block | beginPending | clearPending | promotePending => cases call

theorem awaiting_next {uri expected : String} (step : StoreStep)
    (spares : store.Spares step.call uri expected) (start : store.Awaiting uri expected) :
    (store.next step).Awaiting uri expected ∨ (store.next step).Held uri expected ∧
      ∃ sessionId epoch text verdict, step.call = .reconcile sessionId uri expected epoch text ∧
        (store.reconcile step.durable sessionId uri expected epoch text).1 = .ok verdict := by
  by_cases settles : ∃ sessionId epoch text,
      step.call = .reconcile sessionId uri expected epoch text
  · obtain ⟨sessionId, epoch, text, call⟩ := settles
    cases answered : (store.reconcile step.durable sessionId uri expected epoch text).1 with
    | ok verdict =>
      refine .inr ⟨?_, sessionId, epoch, text, verdict, call, answered⟩
      refine (held_next step spares start.held).resolve_right ?_
      rintro ⟨_, _, other, _⟩
      rw [call] at other
      cases other
    | error error =>
      have refused : (step.call.apply step.durable store).1 = .error error := by
        simp only [call, StoreCall.apply, Prod.map, answered, Except.map]
      exact .inl (guards_of_error refused start)
  · refine .inl (guards_of_spares (fun _ => id) spares ?_ start)
    rintro d call rfl rfl target found awaiting
    obtain ⟨c, durable⟩ := step
    cases c with
    | reconcile sessionId uri expected epoch text =>
      cases call
      exact absurd ⟨sessionId, epoch, text, rfl⟩ settles
    | acknowledge sessionId uri expected epoch =>
      cases call
      exact entry_of_early_acknowledge found awaiting sessionId epoch
    | block | beginPending | clearPending | promotePending => cases call

theorem targetBlocked_of_guards {P : BlockedTarget → Prop} {uri expected : String}
    (guards : store.Guards P uri expected)
    (closed : ∀ d ∈ store.pending, ¬ (d.uri = uri ∧ d.expected = expected)) :
    store.targetBlocked uri expected = true := by
  unfold targetBlocked
  cases poison : store.poison with
  | some reason => rfl
  | none =>
    rcases guards with poisoned | ⟨d, mem, named⟩ | ⟨k, target, spelled, found, _⟩
    · exact absurd poison poisoned
    · exact absurd named (closed d mem)
    · refine isBlocked_of_spells spelled ?_
      change store.registry.entries k = some target at found
      simp [KeyedQueue.contains, found]

theorem mem_pending_of_begin {d e : RecoveryDescriptor} {durable : Bool}
    (mem : e ∈ (store.next ⟨.beginPending d, durable⟩).pending) : e ∈ store.pending ∨ e = d := by
  change e ∈ (store.next ⟨.beginPending d, durable⟩).live.pending at mem
  rcases next_live store ⟨.beginPending d, durable⟩ with same | ⟨reply, accepted⟩
  · rw [same] at mem
    exact .inl mem
  · generalize (store.next ⟨.beginPending d, durable⟩).live = made at accepted mem
    cases accepted with
    | known => exact .inl mem
    | begun => simpa [live] using mem

theorem beginPending_error {d : RecoveryDescriptor} {durable : Bool} {error : RecoveryStoreError}
    {after : DurableRecoveryStore} (h : store.beginPending durable d = (.error error, after)) :
    after.live = store.live ∧ after.poison = store.poison := by
  have answered : StoreCall.apply (.beginPending d) durable store = (.error error, after) := by
    simp only [StoreCall.apply, h, Prod.map, Except.map, id]
  have kept := atomic store ⟨.beginPending d, durable⟩
  have same : store.next ⟨.beginPending d, durable⟩ = after := by
    simp only [next, answered]
  rw [Atomic, same, answered] at kept
  obtain ⟨registry, pending, _⟩ := kept.1 error rfl
  refine ⟨by simp only [live, registry, pending], ?_⟩
  rw [← same, next_poison]

/-- A preflight under a new request id opens exactly this intent, with room
for the block it may become. -/
theorem beginPending_ok {d : RecoveryDescriptor} {durable : Bool} {after : DurableRecoveryStore}
    (h : store.beginPending durable d = (.ok (), after))
    (unopened : ∀ existing ∈ store.pending, existing.requestId ≠ d.requestId)
    (sound : store.live.Sound) : after.poison = none ∧ after.live.Sound ∧
      after.registry = store.registry ∧ after.pending = store.pending ++ [d] ∧
      store.registry.order.length < store.registry.capacity := by
  have effect := apply_effect store ⟨.beginPending d, durable⟩
  have answered : StoreCall.apply (.beginPending d) durable store = (.ok .begun, after) := by
    simp only [StoreCall.apply, h, Prod.map, Except.map, id]
  unfold next at effect
  rw [answered] at effect
  obtain ⟨healthy, accepted, _⟩ := effect.healthy
  have kept := accepted.sound sound
  refine ⟨effect.poison.trans healthy, kept, ?_⟩
  generalize made : after.live = live at accepted
  have listed : store.registry.list.length = store.registry.order.length :=
    sound.coherent.listed_length
  generalize StoreReply.begun = reply at accepted
  cases accepted with
  | known opened =>
    obtain ⟨existing, mem, same⟩ := opened
    exact absurd same (unopened existing mem)
  | begun fresh room =>
    change store.pending.length + store.registry.list.length < store.registry.capacity at room
    refine ⟨congrArg LiveState.registry made, congrArg LiveState.pending made, ?_⟩
    omega

theorem guards_of_promotion (sound : store.live.Sound) {d : RecoveryDescriptor}
    (intent : d ∈ store.pending)
    (room : store.registry.order.length < store.registry.capacity) (sessionId : String)
    (durable : Bool) : (store.next ⟨.promotePending sessionId d.requestId, durable⟩).Guards
      (·.state = none) d.uri d.expected := by
  right
  rcases next_live store ⟨.promotePending sessionId d.requestId, durable⟩ with same | ⟨_, accepted⟩
  · rw [same]
    exact .inl ⟨d, intent, rfl, rfl⟩
  · generalize (store.next ⟨.promotePending sessionId d.requestId, durable⟩).live = made
      at accepted ⊢
    cases accepted with
    | unknown unopened => exact absurd rfl (unopened d intent)
    | @promoted _ _ other before after split same =>
      have mem : other ∈ store.live.pending := by simp [split]
      cases List.inj_on_of_nodup_map sound.ids mem intent same
      have blocks : store.registry.next (.block sessionId d.uri d.expected d.replacement d.range
          d.documentEpoch) = _ := RecoveryRegistry.next_block_of_room (.inr (by omega))
      have entry := KeyedQueue.put_self store.registry.toKeyedQueue
        (store.registry.resolveKey d.uri d.expected) (RecoveryRegistry.freshTarget sessionId d.uri
          d.expected d.replacement d.range d.documentEpoch)
      unfold Guarded
      change _ ∨ ∃ k target, Spells (store.registry.next _).salt d.uri d.expected k ∧
        (store.registry.next _).entries k = some target ∧ target.state = none
      rw [blocks]
      exact .inr ⟨_, _, resolveKey_spells store.registry d.uri d.expected, entry, rfl⟩

end DurableRecoveryStore
end ZonKey.Store

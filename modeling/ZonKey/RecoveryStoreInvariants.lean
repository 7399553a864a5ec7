import ZonKey.RecoveryStoreOpen

set_option autoImplicit false

namespace ZonKey.Store
open ByteCursor RecoveryCodec Recovery WriteThrough Runs

theorem getElem_findIdx_some {α : Type} {p : α → Bool} {items : List α} {a : α}
    (h : items[items.findIdx p]? = some a) : ∃ before after, items = before ++ a :: after ∧
      p a = true ∧ (∀ b ∈ before, p b = false) ∧ items.eraseIdx (items.findIdx p) = before ++ after := by
  induction items with
  | nil => cases h
  | cons first rest ih =>
    cases here : p first with
    | true =>
      rw [List.findIdx_cons, here] at h ⊢
      cases h
      exact ⟨[], rest, rfl, here, by simp, rfl⟩
    | false =>
      rw [List.findIdx_cons, here] at h ⊢
      obtain ⟨before, after, split, found, earlier, erased⟩ := ih h
      refine ⟨first :: before, after, by rw [split]; rfl, found, ?_, congrArg (first :: ·) erased⟩
      exact List.forall_mem_cons.mpr ⟨here, earlier⟩

theorem getElem_findIdx_none {α : Type} {p : α → Bool} {items : List α}
    (h : items[items.findIdx p]? = none) : ∀ a ∈ items, p a = false := by
  rw [List.getElem?_eq_none_iff] at h
  intro a mem
  by_contra found
  have bound := List.findIdx_lt_length_of_exists ⟨a, mem, by simpa using found⟩
  omega

inductive Accepted (live : LiveState) : StoreCall → StoreReply → LiveState → Prop
  | blocked {sessionId uri expected replacement range}
      (room : live.registry.contains (live.registry.resolveKey uri expected) = true ∨
        live.registry.order.length ≠ live.registry.capacity) :
      Accepted live (.block sessionId uri expected replacement range) (.blocked none)
        ⟨live.registry.put (live.registry.resolveKey uri expected)
          (RecoveryRegistry.freshTarget sessionId uri expected replacement range 0), live.pending⟩
  | known {descriptor : RecoveryDescriptor}
      (opened : ∃ existing ∈ live.pending, existing.requestId = descriptor.requestId) :
      Accepted live (.beginPending descriptor) .begun live
  | begun {descriptor : RecoveryDescriptor}
      (unopened : ∀ existing ∈ live.pending, existing.requestId ≠ descriptor.requestId)
      (room : live.pending.length + live.registry.list.length < live.registry.capacity) :
      Accepted live (.beginPending descriptor) .begun
        { live with pending := live.pending ++ [descriptor] }
  | cleared {requestId removed} : Accepted live (.clearPending requestId) (.cleared removed)
      { live with pending := live.pending.filter fun existing => existing.requestId ≠ requestId }
  | unknown {sessionId requestId}
      (unopened : ∀ existing ∈ live.pending, existing.requestId ≠ requestId) :
      Accepted live (.promotePending sessionId requestId) (.promoted false) live
  | promoted {sessionId requestId} {descriptor : RecoveryDescriptor}
      {before after : List RecoveryDescriptor}
      (split : live.pending = before ++ descriptor :: after)
      (opened : descriptor.requestId = requestId) :
      Accepted live (.promotePending sessionId requestId)
        (.promoted (live.registry.block sessionId descriptor.uri descriptor.expected
          descriptor.replacement descriptor.range descriptor.documentEpoch).1.toBool)
        ⟨live.registry.next (.block sessionId descriptor.uri descriptor.expected
          descriptor.replacement descriptor.range descriptor.documentEpoch), before ++ after⟩
  | reconciled {sessionId uri expected epoch text verdict}
      (answered : (live.registry.reconcile sessionId uri expected epoch text).1 = .ok verdict) :
      Accepted live (.reconcile sessionId uri expected epoch text) (.reconciled verdict)
        { live with registry := live.registry.next (.reconcile sessionId uri expected epoch text) }
  | acknowledged {sessionId uri expected epoch}
      (answered : (live.registry.acknowledge sessionId uri expected epoch).1 = .ok ()) :
      Accepted live (.acknowledge sessionId uri expected epoch) .acknowledged
        { live with registry := live.registry.next (.acknowledge sessionId uri expected epoch) }

open DurableRecoveryStore in
theorem accepted_of_operation {live made : LiveState} {c : StoreCall} {reply : StoreReply}
    (h : c.operation live = (.ok reply, made)) : Accepted live c reply made := by
  cases c with
  | block sessionId uri expected replacement range =>
    simp only [StoreCall.operation, onRegistry, RecoveryRegistry.block] at h
    split at h
    · cases h
    · rename_i room
      cases h
      refine .blocked ?_
      by_cases known : live.registry.contains (live.registry.resolveKey uri expected) = true
      · exact .inl known
      · exact .inr fun size => room ⟨known, size⟩
  | beginPending descriptor =>
    simp only [StoreCall.operation, beginPendingOperation] at h
    split at h
    · rename_i opened
      cases h
      exact .known (by simpa using opened)
    · rename_i unopened
      split at h
      · cases h
      · rename_i room
        cases h
        exact .begun (by simpa using unopened) (by omega)
  | clearPending requestId =>
    cases h
    exact .cleared
  | promotePending sessionId requestId =>
    simp only [StoreCall.operation, promotePendingOperation] at h
    split at h
    · rename_i unopened
      cases h
      exact .unknown (by simpa using getElem_findIdx_none unopened)
    · rename_i descriptor found
      cases h
      obtain ⟨before, after, split, opened, _, erased⟩ := getElem_findIdx_some found
      simp only [erased]
      exact .promoted split (by simpa using opened)
  | reconcile sessionId uri expected epoch text =>
    simp only [StoreCall.operation, onRegistry] at h
    generalize eq : live.registry.reconcile sessionId uri expected epoch text = answer at h
    obtain ⟨error | verdict, after⟩ := answer
    · cases h
    · cases h
      have accepted : Accepted live (.reconcile sessionId uri expected epoch text) _ _ :=
        .reconciled (congrArg Prod.fst eq)
      simp only [RecoveryRegistry.next, RegistryCall.apply, eq] at accepted
      exact accepted
  | acknowledge sessionId uri expected epoch =>
    simp only [StoreCall.operation, onRegistry] at h
    generalize eq : live.registry.acknowledge sessionId uri expected epoch = answer at h
    obtain ⟨error | done, after⟩ := answer
    · cases h
    · cases h
      have accepted : Accepted live (.acknowledge sessionId uri expected epoch) _ _ :=
        .acknowledged (congrArg Prod.fst eq)
      simp only [RecoveryRegistry.next, RegistryCall.apply, eq] at accepted
      exact accepted

/-- Queue and map of the registry agree, and no two intents share a request id. -/
structure LiveState.Sound (live : LiveState) : Prop where
  coherent : live.registry.Coherent
  ids : (live.pending.map (·.requestId)).Nodup

theorem Accepted.sound {live made : LiveState} {c : StoreCall} {reply : StoreReply}
    (h : Accepted live c reply made) (start : live.Sound) : made.Sound := by
  obtain ⟨coherent, ids⟩ := start
  have registry : ∀ d, (live.registry.next d).Coherent := fun d =>
    (RecoveryRegistry.apply_effect live.registry d).coherent coherent
  cases h with
  | blocked => exact ⟨coherent.put _ _, ids⟩
  | known | unknown => exact ⟨coherent, ids⟩
  | begun unopened =>
    refine ⟨coherent, ?_⟩
    rw [List.map_append, List.nodup_append]
    refine ⟨ids, List.nodup_singleton _, ?_⟩
    intro id mem other single same
    obtain ⟨existing, here, rfl⟩ := List.mem_map.mp mem
    rw [List.map_singleton, List.mem_singleton] at single
    exact unopened existing here (same.trans single)
  | cleared => exact ⟨coherent, ids.sublist (List.filter_sublist.map _)⟩
  | promoted split =>
    refine ⟨registry _, ?_⟩
    rw [split] at ids
    exact ids.sublist (((List.sublist_cons_self _ _).append_left _).map _)
  | reconciled | acknowledged => exact ⟨registry _, ids⟩

theorem Accepted.capacity {live made : LiveState} {c : StoreCall} {reply : StoreReply}
    (h : Accepted live c reply made) : made.registry.capacity = live.registry.capacity := by
  cases h with
  | blocked | known | begun | cleared | unknown => rfl
  | promoted | reconciled | acknowledged => exact RecoveryRegistry.next_capacity _ _

theorem Accepted.salt {live made : LiveState} {c : StoreCall} {reply : StoreReply}
    (h : Accepted live c reply made) : made.registry.salt = live.registry.salt := by
  cases h with
  | blocked | known | begun | cleared | unknown => rfl
  | promoted | reconciled | acknowledged => exact RecoveryRegistry.next_salt _ _

namespace DurableRecoveryStore
variable {store : DurableRecoveryStore}

theorem next_live (store : DurableRecoveryStore) (step : StoreStep) :
    (store.next step).live = store.live ∨
      ∃ reply, Accepted store.live step.call reply (store.next step).live := by
  have effect := apply_effect store step
  generalize (step.call.apply step.durable store).1 = answer at effect
  generalize store.next step = after at effect ⊢
  cases effect with
  | poisoned => exact .inl rfl
  | mutated healthy outcome =>
    cases outcome with
    | refused | unencodable | unwritten => exact .inl rfl
    | committed performed => exact .inr ⟨_, accepted_of_operation performed⟩

theorem next_keeps {I : LiveState → Prop}
    (kept : ∀ {live made : LiveState} {c : StoreCall} {reply : StoreReply},
      Accepted live c reply made → I live → I made)
    (step : StoreStep) (start : I store.live) : I (store.next step).live := by
  rcases next_live store step with same | ⟨reply, accepted⟩
  · rw [same]
    exact start
  · exact kept accepted start

theorem Effect.healthy {step : StoreStep} {reply : StoreReply} {after : DurableRecoveryStore}
    (h : Effect store step (.ok reply) after) :
    store.poison = none ∧ Accepted store.live step.call reply after.live ∧ after.Persisted := by
  cases h with
  | mutated healthy outcome =>
    obtain ⟨performed, file, encoded, content⟩ := outcome.ok_written
    exact ⟨healthy, accepted_of_operation performed, file, encoded, content⟩

theorem mem_snapshot_of_entry (coherent : store.registry.Coherent) {k : String}
    {target : BlockedTarget} (found : store.registry.entries k = some target) :
    intoPersisted store.salt operatorRequestId target ∈ store.snapshot :=
  List.mem_append_left _ (List.mem_map_of_mem (coherent.mem_listed.mpr ⟨k, found⟩))

theorem opened_sound {env : OpenEnvironment} {directory : StateDirectory} {capacity : Nat}
    (opened : openIn env directory capacity = some store) : store.live.Sound := by
  cases openIn_opening opened with
  | unavailable made | unreadable made =>
    exact ⟨RecoveryRegistry.new_coherent made, List.nodup_nil⟩
  | fresh _ _ _ made => exact ⟨RecoveryRegistry.new_coherent made, List.nodup_nil⟩
  | restored _ _ _ made => exact ⟨RecoveryRegistry.restore_coherent made, List.nodup_nil⟩

theorem run_sound {env : OpenEnvironment} {directory : StateDirectory} {capacity : Nat}
    (opened : openIn env directory capacity = some store) (steps : List StoreStep) :
    (run next store steps).live.Sound :=
  run_keeps (fun s : DurableRecoveryStore => s.live.Sound)
    (fun _ step sound => next_keeps Accepted.sound step sound) (opened_sound opened) steps

/-- The invariants of a store that was opened on an empty directory. -/
structure Rooted (capacity : Nat) (store : DurableRecoveryStore) : Prop where
  sound : store.live.Sound
  unsalted : store.registry.salt = none
  bounded : store.poison = none → store.registry.capacity = capacity
  persisted : store.poison = none → store.Persisted
  empty : store.poison ≠ none →
    store.directory.content = none ∧ store.registry.list = [] ∧ store.pending = []

theorem opened_rooted {env : OpenEnvironment} {directory : StateDirectory} {capacity : Nat}
    (absent : directory.content = none) (opened : openIn env directory capacity = some store) :
    store.Rooted capacity := by
  have sound := opened_sound opened
  have unread : readState env directory = none := by
    unfold readState
    split
    · rfl
    · exact absent
  cases openIn_opening opened with
  | unavailable made =>
    obtain ⟨queue, _, salt⟩ := RecoveryRegistry.new_ok made
    refine ⟨sound, salt, nofun, nofun, fun _ => ⟨absent, ?_, rfl⟩⟩
    simp [RecoveryRegistry.list, queue, KeyedQueue.listed, KeyedQueue.empty]
  | fresh ready unread random made encoded written =>
    obtain ⟨queue, capacity, salt⟩ := RecoveryRegistry.new_ok made
    refine ⟨sound, salt, fun _ => capacity, fun _ => ⟨_, ?_, rfl⟩, fun poisoned => absurd rfl poisoned⟩
    simpa [encodeLive, live, snapshotRecords, RecoveryRegistry.list, queue, KeyedQueue.listed,
      KeyedQueue.empty] using encoded
  | unreadable _ read | restored _ read =>
    rw [unread] at read
    cases read

theorem Rooted.next {capacity : Nat} (h : store.Rooted capacity) (step : StoreStep) :
    (store.next step).Rooted capacity := by
  cases poison : store.poison with
  | some reason =>
    rw [next_of_poisoned poison]
    exact h
  | none =>
    have healthy : (store.next step).poison = none := by rw [next_poison, poison]
    refine ⟨next_keeps Accepted.sound step h.sound, ?_, fun _ => ?_, fun _ => ?_, ?_⟩
    · exact next_keeps (I := fun live => live.registry.salt = none)
        (fun accepted salt => accepted.salt.trans salt) step h.unsalted
    · exact next_keeps (I := fun live => live.registry.capacity = capacity)
        (fun accepted size => accepted.capacity.trans size) step (h.bounded poison)
    · exact (apply_effect store step).persisted (h.persisted poison)
    · exact fun poisoned => absurd healthy poisoned

theorem run_rooted {env : OpenEnvironment} {directory : StateDirectory} {capacity : Nat}
    (absent : directory.content = none) (opened : openIn env directory capacity = some store)
    (steps : List StoreStep) : (run DurableRecoveryStore.next store steps).Rooted capacity :=
  run_keeps (Rooted capacity) (fun _ step rooted => rooted.next step)
    (opened_rooted absent opened) steps

end DurableRecoveryStore
end ZonKey.Store

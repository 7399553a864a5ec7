import ZonKey.RecoveryRegistry
import ZonKey.Runs

set_option autoImplicit false

namespace ZonKey.Recovery
open RecoveryCodec

inductive RegistryCall where
  | block (sessionId uri expected replacement : String) (range : UInt64 × UInt64)
      (documentEpoch : UInt64)
  | reconcile (sessionId uri expected : String) (documentEpoch : UInt64) (liveRangeText : String)
  | acknowledge (sessionId uri expected : String) (documentEpoch : UInt64)

inductive RegistryAnswer where
  | block (result : Except RecoveryError (Option String))
  | reconcile (result : Except RecoveryError RecoveryVerdict)
  | acknowledge (result : Except RecoveryError Unit)
  deriving DecidableEq

namespace RegistryCall

def uri : RegistryCall → String
  | block _ uri _ _ _ _ | reconcile _ uri _ _ _ | acknowledge _ uri _ _ => uri

def expected : RegistryCall → String
  | block _ _ expected _ _ _ | reconcile _ _ expected _ _ | acknowledge _ _ expected _ => expected

def sessionId : RegistryCall → String
  | block sessionId _ _ _ _ _ | reconcile sessionId _ _ _ _ | acknowledge sessionId _ _ _ =>
    sessionId

def documentEpoch : RegistryCall → UInt64
  | block _ _ _ _ _ epoch | reconcile _ _ _ epoch _ | acknowledge _ _ _ epoch => epoch

def key (c : RegistryCall) (r : RecoveryRegistry) : String := r.resolveKey c.uri c.expected

def apply (c : RegistryCall) (r : RecoveryRegistry) : RegistryAnswer × RecoveryRegistry :=
  match c with
  | block sessionId uri expected replacement range epoch =>
    (r.block sessionId uri expected replacement range epoch).map .block id
  | reconcile sessionId uri expected epoch live =>
    (r.reconcile sessionId uri expected epoch live).map .reconcile id
  | acknowledge sessionId uri expected epoch =>
    (r.acknowledge sessionId uri expected epoch).map .acknowledge id

end RegistryCall

namespace RecoveryRegistry
variable {r : RecoveryRegistry}

def next (r : RecoveryRegistry) (c : RegistryCall) : RecoveryRegistry := (c.apply r).2

/-- The possible outcomes of a call, with the guard of each. -/
inductive Effect (r : RecoveryRegistry) : RegistryCall → RegistryAnswer → RecoveryRegistry → Prop
  | full {sessionId uri expected replacement range epoch}
      (absent : r.entries (r.resolveKey uri expected) = none)
      (size : r.order.length = r.capacity) :
      Effect r (.block sessionId uri expected replacement range epoch)
        (.block (.error .registryFull)) r
  | blocked {sessionId uri expected replacement range epoch}
      (room : r.contains (r.resolveKey uri expected) = true ∨ r.order.length ≠ r.capacity) :
      Effect r (.block sessionId uri expected replacement range epoch) (.block (.ok none))
        (r.put (r.resolveKey uri expected)
          (freshTarget sessionId uri expected replacement range epoch))
  | unreconciled {sessionId uri expected epoch live} (error : RecoveryError) :
      Effect r (.reconcile sessionId uri expected epoch live) (.reconcile (.error error)) r
  | repeated {sessionId uri expected epoch live} {target bound : BlockedTarget}
      {verdict : RecoveryVerdict} {acked : Bool}
      (found : r.entries (r.resolveKey uri expected) = some target)
      (gate : bindSession target sessionId epoch = .ok bound)
      (recorded : bound.state = some (verdict, acked)) :
      Effect r (.reconcile sessionId uri expected epoch live) (.reconcile (.ok verdict))
        (r.setEntry (r.resolveKey uri expected) bound)
  | recorded {sessionId uri expected epoch live} {target bound : BlockedTarget}
      (found : r.entries (r.resolveKey uri expected) = some target)
      (gate : bindSession target sessionId epoch = .ok bound) (awaiting : bound.state = none) :
      Effect r (.reconcile sessionId uri expected epoch live)
        (.reconcile (.ok (r.verdictOf bound live)))
        (r.setEntry (r.resolveKey uri expected)
          { bound with state := some (r.verdictOf bound live, false) })
  | unacknowledged {sessionId uri expected epoch} (error : RecoveryError) :
      Effect r (.acknowledge sessionId uri expected epoch) (.acknowledge (.error error)) r
  | early {sessionId uri expected epoch} {target bound : BlockedTarget}
      (found : r.entries (r.resolveKey uri expected) = some target)
      (gate : bindSession target sessionId epoch = .ok bound) (awaiting : bound.state = none) :
      Effect r (.acknowledge sessionId uri expected epoch)
        (.acknowledge (.error .ackBeforeReconcile))
        (r.setEntry (r.resolveKey uri expected) bound)
  | acknowledged {sessionId uri expected epoch} {target bound : BlockedTarget}
      {verdict : RecoveryVerdict × Bool}
      (found : r.entries (r.resolveKey uri expected) = some target)
      (gate : bindSession target sessionId epoch = .ok bound)
      (recorded : bound.state = some verdict) :
      Effect r (.acknowledge sessionId uri expected epoch) (.acknowledge (.ok ()))
        (r.remove (r.resolveKey uri expected))

theorem apply_effect (r : RecoveryRegistry) (c : RegistryCall) :
    Effect r c (c.apply r).1 (c.apply r).2 := by
  cases c with
  | block sessionId uri expected replacement range epoch =>
    simp only [RegistryCall.apply, block]
    split
    · rename_i refused
      exact .full (by simpa using refused.1) refused.2
    · rename_i room
      refine .blocked ?_
      by_cases known : r.contains (r.resolveKey uri expected) = true
      · exact .inl known
      · exact .inr fun size => room ⟨known, size⟩
  | reconcile sessionId uri expected epoch live =>
    simp only [RegistryCall.apply, reconcile]
    split
    · exact .unreconciled _
    · rename_i target found
      split
      · exact .unreconciled _
      · rename_i bound gate
        split
        · rename_i recorded
          exact .repeated found gate recorded
        · rename_i awaiting
          exact .recorded found gate awaiting
  | acknowledge sessionId uri expected epoch =>
    simp only [RegistryCall.apply, acknowledge]
    split
    · exact .unacknowledged _
    · rename_i target found
      split
      · exact .unacknowledged _
      · rename_i bound gate
        split
        · rename_i awaiting
          exact .early found gate awaiting
        · rename_i recorded
          exact .acknowledged found gate recorded

/-- Binding a session changes nothing but the session id. -/
theorem bindSession_ok {target bound : BlockedTarget} {sessionId : String} {epoch : UInt64}
    (h : bindSession target sessionId epoch = .ok bound) :
    (target.sessionId = "" ∧ rebindAllowed target epoch = true ∧
        bound = { target with sessionId := sessionId }) ∨
      (target.sessionId ≠ "" ∧ target.sessionId = sessionId ∧ bound = target) := by
  unfold bindSession at h
  split at h
  · rename_i unbound
    split at h
    · rename_i allowed
      exact .inl ⟨unbound, allowed, (Except.ok.inj h).symm⟩
    · cases h
  · rename_i bound
    split at h
    · cases h
    · rename_i same
      exact .inr ⟨bound, by simpa using same, (Except.ok.inj h).symm⟩

theorem bindSession_state {target bound : BlockedTarget} {sessionId : String} {epoch : UInt64}
    (h : bindSession target sessionId epoch = .ok bound) : bound.state = target.state := by
  rcases bindSession_ok h with ⟨_, _, rfl⟩ | ⟨_, _, rfl⟩ <;> rfl

@[simp] theorem setEntry_entries (k : String) (target : BlockedTarget) :
    (r.setEntry k target).entries = (r.toKeyedQueue.setEntry k target).entries := rfl

@[simp] theorem put_entries (k : String) (target : BlockedTarget) :
    (r.put k target).entries = (r.toKeyedQueue.put k target).entries := rfl

@[simp] theorem remove_entries (k : String) :
    (r.remove k).entries = (r.toKeyedQueue.remove k).entries := rfl

theorem put_order_length (k : String) (target : BlockedTarget) :
    (r.put k target).order.length =
      if r.contains k then r.order.length else r.order.length + 1 := by
  change (r.toKeyedQueue.put k target).order.length = _
  rw [KeyedQueue.put_order]
  split
  · rfl
  · exact List.length_append

section EffectOfCall
variable {c : RegistryCall} {answer : RegistryAnswer} {r' : RecoveryRegistry}

theorem Effect.capacity (h : Effect r c answer r') : r'.capacity = r.capacity := by
  cases h <;> rfl

theorem Effect.salt (h : Effect r c answer r') : r'.salt = r.salt := by
  cases h <;> rfl

theorem Effect.other (h : Effect r c answer r') {k : String} (ne : k ≠ c.key r) :
    r'.entries k = r.entries k := by
  cases h with
  | full | unreconciled | unacknowledged => rfl
  | blocked => exact KeyedQueue.put_other _ _ ne
  | repeated | recorded | early => exact KeyedQueue.setEntry_other _ _ ne
  | acknowledged => exact KeyedQueue.remove_other _ ne

theorem Effect.coherent (h : Effect r c answer r') (start : r.Coherent) : r'.Coherent := by
  cases h with
  | full | unreconciled | unacknowledged => exact start
  | blocked => exact start.put _ _
  | repeated found | recorded found | early found => exact start.setEntry _ (by simp [found])
  | acknowledged => exact start.remove _

theorem Effect.nodup (h : Effect r c answer r') (start : r.Coherent) (nodup : r.order.Nodup) :
    r'.order.Nodup := by
  cases h with
  | full | unreconciled | unacknowledged => exact nodup
  | blocked => exact KeyedQueue.put_nodup start nodup _ _
  | repeated | recorded | early => exact nodup
  | acknowledged => exact nodup.filter _

theorem Effect.bounded (h : Effect r c answer r') (start : r.order.length ≤ r.capacity) :
    r'.order.length ≤ r'.capacity := by
  rw [h.capacity]
  cases h with
  | full | unreconciled | unacknowledged => exact start
  | repeated | recorded | early => exact start
  | acknowledged => exact (List.length_filter_le _ _).trans start
  | blocked room =>
    rw [put_order_length]
    split
    · exact start
    · rename_i absent
      have free := room.resolve_left absent
      omega

end EffectOfCall

@[simp] theorem next_capacity (r : RecoveryRegistry) (c : RegistryCall) :
    (r.next c).capacity = r.capacity := (apply_effect r c).capacity

@[simp] theorem next_salt (r : RecoveryRegistry) (c : RegistryCall) :
    (r.next c).salt = r.salt := (apply_effect r c).salt

theorem next_other (r : RecoveryRegistry) (c : RegistryCall) {k : String} (h : k ≠ c.key r) :
    (r.next c).entries k = r.entries k := (apply_effect r c).other h

section BlockCall
variable {sessionId uri expected replacement : String} {range : UInt64 × UInt64} {epoch : UInt64}

theorem next_block_of_room (room : r.contains (r.resolveKey uri expected) = true ∨
    r.order.length ≠ r.capacity) :
    r.next (.block sessionId uri expected replacement range epoch) =
      r.put (r.resolveKey uri expected)
        (freshTarget sessionId uri expected replacement range epoch) := by
  have accepted : ¬ (¬ r.contains (r.resolveKey uri expected) ∧ r.order.length = r.capacity) := by
    rintro ⟨absent, full⟩
    exact room.elim absent fun size => size full
  simp only [next, RegistryCall.apply, block, if_neg accepted, Prod.map, id]

theorem next_block_of_full (absent : r.contains (r.resolveKey uri expected) = false)
    (full : r.order.length = r.capacity) :
    r.next (.block sessionId uri expected replacement range epoch) = r := by
  have refused : ¬ r.contains (r.resolveKey uri expected) ∧ r.order.length = r.capacity :=
    ⟨by simp [absent], full⟩
  simp only [next, RegistryCall.apply, block, if_pos refused, Prod.map, id]

end BlockCall

theorem new_ok {capacity : Nat} {r : RecoveryRegistry} (h : new capacity = .ok r) :
    r.toKeyedQueue = KeyedQueue.empty ∧ r.capacity = capacity ∧ r.salt = none := by
  unfold new at h
  split at h
  · cases h
  · cases h
    exact ⟨rfl, rfl, rfl⟩

theorem restore_ok {capacity : Nat} {salt : Salt} {records : List PersistedTarget}
    {r : RecoveryRegistry} (h : restore capacity salt records = .ok r) :
    capacity ≠ 0 ∧ records.length ≤ capacity ∧ r.capacity = capacity ∧ r.salt = some salt ∧
      r.toKeyedQueue = (records.map fun record => (recordKey record, restoredTarget record)).foldl
        KeyedQueue.append KeyedQueue.empty := by
  unfold restore at h
  split at h
  · cases h
  · rename_i size
    rw [not_or, not_lt] at size
    cases made : new capacity with
    | error e => rw [made] at h; cases h
    | ok base =>
      rw [made] at h
      obtain ⟨queue, cap, _⟩ := new_ok made
      cases h
      exact ⟨size.1, size.2, cap, rfl, by rw [queue]⟩

theorem restore_isOk {capacity : Nat} (salt : Salt) {records : List PersistedTarget}
    (positive : capacity ≠ 0) (size : records.length ≤ capacity) :
    ∃ r, restore capacity salt records = .ok r := by
  have fits : ¬ (capacity = 0 ∨ capacity < records.length) := by omega
  rw [restore, if_neg fits, new, dif_neg positive]
  exact ⟨_, rfl⟩

theorem new_coherent {capacity : Nat} (h : new capacity = .ok r) : r.Coherent := by
  have queue := (new_ok h).1
  rw [queue]
  exact KeyedQueue.coherent_empty

theorem restore_coherent {capacity : Nat} {salt : Salt} {records : List PersistedTarget}
    (h : restore capacity salt records = .ok r) : r.Coherent := by
  obtain ⟨_, _, _, _, queue⟩ := restore_ok h
  rw [queue]
  exact KeyedQueue.appends_coherent _ _ KeyedQueue.coherent_empty

theorem restore_entry {capacity : Nat} {salt : Salt} {records : List PersistedTarget}
    (h : restore capacity salt records = .ok r) {k : String} {target : BlockedTarget}
    (found : r.entries k = some target) :
    ∃ record ∈ records, recordKey record = k ∧ restoredTarget record = target := by
  obtain ⟨_, _, _, _, queue⟩ := restore_ok h
  rw [queue] at found
  rcases KeyedQueue.appends_entry _ _ found with mem | before
  · obtain ⟨record, here, eq⟩ := List.mem_map.mp mem
    exact ⟨record, here, congrArg Prod.fst eq, congrArg Prod.snd eq⟩
  · cases before

theorem restore_contains {capacity : Nat} {salt : Salt} {records : List PersistedTarget}
    (h : restore capacity salt records = .ok r) {record : PersistedTarget}
    (mem : record ∈ records) : r.contains (recordKey record) = true := by
  obtain ⟨_, _, _, _, queue⟩ := restore_ok h
  rw [queue]
  exact KeyedQueue.appends_mem _ _
    (List.mem_map_of_mem (f := fun record => (recordKey record, restoredTarget record)) mem)
    KeyedQueue.coherent_empty

end RecoveryRegistry
end ZonKey.Recovery

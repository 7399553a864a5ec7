import ZonKey.Runs
import ZonKey.Transport

set_option autoImplicit false

namespace ZonKey.Transport
open Runs

theorem findIdx_split {α : Type} {p : α → Bool} {xs : List α} {x : α}
    (h : xs[xs.findIdx p]? = some x) :
    ∃ before after, xs = before ++ x :: after ∧ (∀ y ∈ before, p y = false) ∧ p x = true ∧
      xs.eraseIdx (xs.findIdx p) = before ++ after := by
  induction xs with
  | nil => cases h
  | cons y rest ih =>
    rw [List.findIdx_cons] at h ⊢
    cases found : p y with
    | true =>
      rw [found] at h
      cases h
      exact ⟨[], rest, rfl, by simp, found, rfl⟩
    | false =>
      rw [found] at h
      obtain ⟨before, after, eq, skipped, hit, erased⟩ := ih h
      refine ⟨y :: before, after, by rw [eq, List.cons_append], ?_, hit, ?_⟩
      · exact List.forall_mem_cons.mpr ⟨found, skipped⟩
      · rw [cond_false, List.eraseIdx_cons_succ, erased, List.cons_append]

namespace BoundedRequestLedger

def Pinned (ledger : BoundedRequestLedger) (id : String) : Prop :=
  ∃ entry text, ledger.entries id = some entry ∧ entry.outcome = .ambiguous text ∧
    entry.recoveryBacked = false

theorem not_evictable_iff {ledger : BoundedRequestLedger} {id : String} :
    ledger.evictable id = false ↔ ledger.Pinned id := by
  unfold evictable Pinned
  cases ledger.entries id with
  | none => simp
  | some entry =>
    obtain ⟨canonical, outcome, backed⟩ := entry
    cases outcome <;> simp

/-- Every outcome of recording one entry, with its guard and the ledger it leaves. -/
inductive Recording (ledger : BoundedRequestLedger) (id : String) (entry : LedgerEntry) :
    RecordOutcome → BoundedRequestLedger → Prop where
  | alreadyPresent (known : ledger.contains id = true) : Recording ledger id entry .alreadyPresent ledger
  | inserted (fresh : ledger.entries id = none) (room : ledger.order.length < ledger.capacity) :
      Recording ledger id entry .inserted (ledger.insert id entry)
  | evicted (fresh : ledger.entries id = none) (full : ledger.capacity ≤ ledger.order.length)
      (before : List String) (oldest : String) (after : List String)
      (split : ledger.order = before ++ oldest :: after) (skipped : ∀ k ∈ before, ledger.Pinned k)
      (loose : ¬ ledger.Pinned oldest) (next : BoundedRequestLedger)
      (order : next.order = before ++ after ++ [id])
      (entries : next.entries =
        Function.update (Function.update ledger.entries oldest none) id (some entry))
      (capacity : next.capacity = ledger.capacity) :
      Recording ledger id entry (.evicted oldest) next
  | rejectedLedgerFull (fresh : ledger.entries id = none)
      (full : ledger.capacity ≤ ledger.order.length) (pinned : ∀ k ∈ ledger.order, ledger.Pinned k) :
      Recording ledger id entry .rejectedLedgerFull ledger

theorem recordInner_recording (ledger : BoundedRequestLedger) (id canonical : String)
    (outcome : LedgerOutcome) (backed : Bool) :
    Recording ledger id ⟨canonical, outcome, backed⟩
      (ledger.recordInner id canonical outcome backed).1
      (ledger.recordInner id canonical outcome backed).2 := by
  unfold recordInner
  split
  · rename_i known
    exact .alreadyPresent known
  · rename_i unknown
    rw [Bool.not_eq_true, KeyedQueue.contains_eq_false] at unknown
    split
    · rename_i room
      exact .inserted unknown room
    · rename_i full
      dsimp only
      split
      · rename_i missing
        refine .rejectedLedgerFull unknown (by omega) fun k mem => ?_
        rw [List.getElem?_eq_none_iff] at missing
        rw [← not_evictable_iff]
        simpa using List.findIdx_eq_length.mp
          (Nat.le_antisymm List.findIdx_le_length missing) k mem
      · rename_i oldest found
        obtain ⟨before, after, split, skipped, hit, erased⟩ := findIdx_split found
        refine .evicted unknown (by omega) before oldest after split
          (fun k mem => not_evictable_iff.mp (skipped k mem)) (fun pinned => ?_) _ ?_ rfl rfl
        · rw [← not_evictable_iff, hit] at pinned
          cases pinned
        · change ledger.order.eraseIdx _ ++ [id] = _
          rw [erased]

/-- The queue and the map name the same ids, each once, within the capacity. -/
structure Contract (ledger : BoundedRequestLedger) : Prop where
  coherent : ledger.Coherent
  nodup : ledger.order.Nodup
  bounded : ledger.order.length ≤ ledger.capacity

section Recordings
variable {ledger next : BoundedRequestLedger} {id : String} {entry : LedgerEntry}
  {answer : RecordOutcome}

theorem Recording.capacity_eq (h : Recording ledger id entry answer next) :
    next.capacity = ledger.capacity := by
  cases h with
  | alreadyPresent | rejectedLedgerFull | inserted => rfl
  | evicted _ _ _ _ _ _ _ _ _ _ _ capacity => exact capacity

theorem Recording.entries_other (h : Recording ledger id entry answer next) {k : String}
    (other : k ≠ id) (kept : answer ≠ .evicted k) : next.entries k = ledger.entries k := by
  cases h with
  | alreadyPresent | rejectedLedgerFull => rfl
  | inserted => exact KeyedQueue.setEntry_other _ _ other
  | evicted _ _ _ oldest _ _ _ _ _ _ entries =>
    have apart : k ≠ oldest := fun eq => kept (by rw [eq])
    rw [entries, Function.update_of_ne other, Function.update_of_ne apart]

theorem Recording.entries_known (h : Recording ledger id entry answer next)
    {before : LedgerEntry} (known : ledger.entries id = some before) :
    next.entries id = some before := by
  cases h with
  | alreadyPresent | rejectedLedgerFull => exact known
  | inserted fresh => rw [fresh] at known; cases known
  | evicted fresh => rw [fresh] at known; cases known

theorem Recording.entries_placed (h : Recording ledger id entry answer next)
    (placed : answer = .inserted ∨ ∃ k, answer = .evicted k) : next.entries id = some entry := by
  cases h with
  | alreadyPresent | rejectedLedgerFull => simp at placed
  | inserted => exact KeyedQueue.setEntry_self ..
  | evicted _ _ _ _ _ _ _ _ _ _ entries => rw [entries, Function.update_self]

theorem Recording.entries_new (h : Recording ledger id entry answer next) {k : String}
    {found : LedgerEntry} (now : next.entries k = some found)
    (was : ledger.entries k ≠ some found) :
    k = id ∧ found = entry ∧ (answer = .inserted ∨ ∃ j, answer = .evicted j) := by
  have placed : answer = .inserted ∨ ∃ j, answer = .evicted j := by
    cases h with
    | alreadyPresent | rejectedLedgerFull => exact absurd now was
    | inserted => exact .inl rfl
    | evicted _ _ _ oldest => exact .inr ⟨oldest, rfl⟩
  have same : k = id := by
    by_contra other
    by_cases gone : answer = .evicted k
    · subst answer
      cases h with
      | evicted _ _ _ _ _ _ _ _ _ _ entries =>
        rw [entries, Function.update_of_ne other, Function.update_self] at now
        cases now
    · rw [h.entries_other other gone] at now
      exact was now
  subst k
  rw [h.entries_placed placed] at now
  exact ⟨rfl, (Option.some.inj now).symm, placed⟩

theorem Recording.contract (h : Recording ledger id entry answer next) (held : Contract ledger) :
    Contract next := by
  have absent : ledger.entries id = none → id ∉ ledger.order := by
    intro fresh mem
    rw [held.coherent id, fresh] at mem
    cases mem
  cases h with
  | alreadyPresent | rejectedLedgerFull => exact held
  | inserted fresh room =>
    refine ⟨held.coherent.append (id, entry), ?_, ?_⟩
    · have longer := held.nodup.concat (absent fresh)
      rwa [List.concat_eq_append] at longer
    · change (ledger.order ++ [id]).length ≤ ledger.capacity
      rw [List.length_append, List.length_singleton]
      exact room
  | evicted fresh full before oldest after split _ _ _ order entries capacity =>
    have unique := held.nodup
    rw [split, List.nodup_middle, List.nodup_cons] at unique
    have apart : id ≠ oldest := by
      intro eq
      exact absent fresh (by rw [split, eq]; simp)
    have rest : ∀ k, k ∈ ledger.order ↔ k = oldest ∨ k ∈ before ++ after := by
      intro k
      rw [split]
      simp only [List.mem_append, List.mem_cons]
      tauto
    refine ⟨fun k => ?_, ?_, ?_⟩
    · rw [order, entries, List.mem_append, List.mem_singleton]
      by_cases new : k = id
      · subst k
        simp
      · rw [Function.update_of_ne new]
        by_cases gone : k = oldest
        · subst k
          simp [new, unique.1]
        · rw [Function.update_of_ne gone, ← held.coherent k, rest]
          simp [new, gone]
    · have new : id ∉ before ++ after := fun mem => absent fresh ((rest id).mpr (.inr mem))
      have longer := unique.2.concat new
      rwa [List.concat_eq_append, ← order] at longer
    · have size := held.bounded
      rw [split] at size
      rw [order, capacity]
      simp only [List.length_append, List.length_cons, List.length_nil] at size ⊢
      omega

theorem Recording.rejected_iff (h : Recording ledger id entry answer next) (held : Contract ledger) :
    answer = .rejectedLedgerFull ↔ ledger.entries id = none ∧
      ledger.order.length = ledger.capacity ∧ ∀ k ∈ ledger.order, ledger.Pinned k := by
  have size := held.bounded
  cases h with
  | alreadyPresent known =>
    refine ⟨nofun, fun ⟨fresh, _⟩ => ?_⟩
    rw [← KeyedQueue.contains_eq_false, known] at fresh
    cases fresh
  | inserted _ room => exact ⟨nofun, fun ⟨_, full, _⟩ => by omega⟩
  | evicted _ _ _ oldest _ split _ loose =>
    exact ⟨nofun, fun ⟨_, _, pinned⟩ => absurd (pinned oldest (by rw [split]; simp)) loose⟩
  | rejectedLedgerFull fresh full pinned => exact ⟨fun _ => ⟨fresh, by omega, pinned⟩, fun _ => rfl⟩

end Recordings
end BoundedRequestLedger

/-- The calls that change an endpoint. -/
inductive EndpointCall where
  | acceptHello (protocolId sessionId : String)
  | record (requestId canonical : String) (outcome : LedgerOutcome)
  | recordWithRecovery (requestId canonical : String) (outcome : LedgerOutcome)

def EndpointCall.entry : EndpointCall → Option (String × LedgerEntry)
  | .acceptHello _ _ => none
  | .record id canonical outcome => some (id, ⟨canonical, outcome, false⟩)
  | .recordWithRecovery id canonical outcome => some (id, ⟨canonical, outcome, true⟩)

namespace HostTransportEndpoint

def recorded (endpoint : HostTransportEndpoint) : EndpointCall → Option RecordOutcome
  | .acceptHello _ _ => none
  | .record id canonical outcome => some (endpoint.record id canonical outcome).1
  | .recordWithRecovery id canonical outcome =>
    some (endpoint.recordWithRecovery id canonical outcome).1

def next (endpoint : HostTransportEndpoint) : EndpointCall → HostTransportEndpoint
  | .acceptHello protocolId sessionId => (endpoint.acceptHello protocolId sessionId).2
  | .record id canonical outcome => (endpoint.record id canonical outcome).2
  | .recordWithRecovery id canonical outcome => (endpoint.recordWithRecovery id canonical outcome).2

/-- The call is a hello that replaces the session id by another one. -/
def Restarts (endpoint : HostTransportEndpoint) (call : EndpointCall) : Prop :=
  ∃ protocolId sessionId, call = .acceptHello protocolId sessionId ∧
    (endpoint.acceptHello protocolId sessionId).1 = .ok true

def Evicts (endpoint : HostTransportEndpoint) (call : EndpointCall) (id : String) : Prop :=
  endpoint.recorded call = some (.evicted id)

def Inserts (endpoint : HostTransportEndpoint) (call : EndpointCall) (id : String)
    (entry : LedgerEntry) : Prop :=
  call.entry = some (id, entry) ∧
    (endpoint.recorded call = some .inserted ∨ ∃ k, endpoint.recorded call = some (.evicted k))

open BoundedRequestLedger
variable {endpoint : HostTransportEndpoint} {call : EndpointCall} {id : String} {entry : LedgerEntry}

theorem hello_ledger (endpoint : HostTransportEndpoint) (protocolId sessionId : String) :
    (endpoint.acceptHello protocolId sessionId).2.ledger =
      if (endpoint.acceptHello protocolId sessionId).1 = .ok true then endpoint.ledger.invalidateAll
      else endpoint.ledger := by
  unfold acceptHello
  split
  · rfl
  · split
    · rfl
    · cases restart : endpoint.sessionId.any fun current => current ≠ sessionId <;> rfl

theorem next_cases (endpoint : HostTransportEndpoint) (call : EndpointCall) :
    (endpoint.Restarts call ∧ (endpoint.next call).ledger = endpoint.ledger.invalidateAll) ∨
    (¬ endpoint.Restarts call ∧ ∃ id entry answer, call.entry = some (id, entry) ∧
      endpoint.recorded call = some answer ∧
      Recording endpoint.ledger id entry answer (endpoint.next call).ledger) ∨
    (¬ endpoint.Restarts call ∧ endpoint.recorded call = none ∧
      (endpoint.next call).ledger = endpoint.ledger) := by
  cases call with
  | acceptHello protocolId sessionId =>
    have after := hello_ledger endpoint protocolId sessionId
    by_cases restart : (endpoint.acceptHello protocolId sessionId).1 = .ok true
    · rw [if_pos restart] at after
      exact .inl ⟨⟨protocolId, sessionId, rfl, restart⟩, after⟩
    · rw [if_neg restart] at after
      refine .inr (.inr ⟨?_, rfl, after⟩)
      rintro ⟨_, _, same, restarted⟩
      cases same
      exact restart restarted
  | record id canonical outcome =>
    exact .inr (.inl ⟨nofun, id, ⟨canonical, outcome, false⟩, _, rfl, rfl,
      recordInner_recording _ _ _ _ _⟩)
  | recordWithRecovery id canonical outcome =>
    exact .inr (.inl ⟨nofun, id, ⟨canonical, outcome, true⟩, _, rfl, rfl,
      recordInner_recording _ _ _ _ _⟩)

theorem recording_of_entry (endpoint : HostTransportEndpoint) (h : call.entry = some (id, entry)) :
    ∃ answer, endpoint.recorded call = some answer ∧
      Recording endpoint.ledger id entry answer (endpoint.next call).ledger := by
  cases call with
  | acceptHello => cases h
  | record | recordWithRecovery =>
    cases h
    exact ⟨_, rfl, recordInner_recording _ _ _ _ _⟩

theorem next_contract (held : Contract endpoint.ledger) (call : EndpointCall) :
    Contract (endpoint.next call).ledger ∧
      (endpoint.next call).ledger.capacity = endpoint.ledger.capacity := by
  obtain ⟨_, cleared⟩ | ⟨_, id, entry, answer, _, _, recording⟩ | ⟨_, _, same⟩ :=
    next_cases endpoint call
  · rw [cleared]
    exact ⟨⟨KeyedQueue.coherent_empty, List.nodup_nil, Nat.zero_le _⟩, rfl⟩
  · exact ⟨recording.contract held, recording.capacity_eq⟩
  · rw [same]
    exact ⟨held, rfl⟩

/-- An entry is lost to a restart or to its own eviction, and to nothing else. -/
theorem next_entries (known : endpoint.ledger.entries id = some entry) (call : EndpointCall) :
    (endpoint.next call).ledger.entries id =
      open Classical in if endpoint.Restarts call ∨ endpoint.Evicts call id then none else some entry := by
  unfold Evicts
  obtain ⟨restart, cleared⟩ | ⟨running, k, other, answer, _, asked, recording⟩ |
    ⟨running, silent, same⟩ := next_cases endpoint call
  · rw [cleared, if_pos (.inl restart)]
    rfl
  · rw [asked]
    by_cases gone : answer = .evicted id
    · rw [if_pos (.inr (by rw [gone]))]
      subst answer
      cases recording with
      | evicted fresh full before oldest after split skipped loose next order entries capacity =>
        have apart : id ≠ k := by
          intro eq
          rw [eq, fresh] at known
          cases known
        rw [entries, Function.update_of_ne apart, Function.update_self]
    · rw [if_neg (by simp [running, gone])]
      by_cases same : id = k
      · subst k
        exact recording.entries_known known
      · rw [recording.entries_other same gone, known]
  · rw [same, silent, if_neg (by simp [running])]
    exact known

theorem inserts_entry (h : endpoint.Inserts call id entry) :
    (endpoint.next call).ledger.entries id = some entry := by
  obtain ⟨asked, placed⟩ := h
  obtain ⟨answer, same, recording⟩ := endpoint.recording_of_entry asked
  rw [same] at placed
  exact recording.entries_placed (by simpa using placed)

theorem inserts_of_new (was : endpoint.ledger.entries id ≠ some entry)
    (now : (endpoint.next call).ledger.entries id = some entry) :
    endpoint.Inserts call id entry := by
  obtain ⟨_, cleared⟩ | ⟨_, k, other, answer, named, asked, recording⟩ | ⟨_, _, same⟩ :=
    next_cases endpoint call
  · rw [cleared] at now
    cases now
  · obtain ⟨rfl, rfl, placed⟩ := recording.entries_new now was
    exact ⟨named, by simpa [asked] using placed⟩
  · rw [same] at now
    exact absurd now was

/-- `id` was recorded as `entry` by some call, and is not forgotten since: no
hello replaced the session id and no recording evicted it. -/
def RecordedSince (start : HostTransportEndpoint) (calls : List EndpointCall) (id : String)
    (entry : LedgerEntry) : Prop :=
  ∃ before call after, calls = before ++ call :: after ∧
    (run next start before).Inserts call id entry ∧
    AllSteps next (fun e c => ¬ (e.Restarts c ∨ e.Evicts c id)) (next (run next start before) call)
      after

theorem run_entries_iff {start : HostTransportEndpoint} (empty : start.ledger.entries id = none)
    (calls : List EndpointCall) :
    (run next start calls).ledger.entries id = some entry ↔ RecordedSince start calls id entry := by
  constructor
  · intro final
    rcases last_established (fun e => e.ledger.entries id = some entry) start calls final with
      ⟨initial, _⟩ | ⟨before, call, after, eq, was, now, kept⟩
    · rw [empty] at initial
      cases initial
    · refine ⟨before, call, after, eq, inserts_of_new was now, ?_⟩
      refine kept.imp ?_
      intro e c ⟨held, still⟩ forgotten
      rw [next_entries held, if_pos forgotten] at still
      cases still
  · rintro ⟨before, call, after, rfl, inserted, kept⟩
    rw [run_append, run_cons]
    refine run_invariant (fun e => e.ledger.entries id = some entry) ?_ (inserts_entry inserted) kept
    intro e c held remembered
    rw [next_entries held, if_neg remembered]

theorem run_contract {start : HostTransportEndpoint} (held : Contract start.ledger)
    (calls : List EndpointCall) :
    Contract (run next start calls).ledger ∧
      (run next start calls).ledger.capacity = start.ledger.capacity := by
  refine run_keeps (fun e : HostTransportEndpoint => Contract e.ledger ∧ e.ledger.capacity = start.ledger.capacity)
    (fun e c kept => ?_) ⟨held, rfl⟩ calls
  obtain ⟨contract, capacity⟩ := next_contract kept.1 c
  exact ⟨contract, capacity.trans kept.2⟩

theorem pinned_not_evicted (pinned : endpoint.ledger.Pinned id) (call : EndpointCall) :
    ¬ endpoint.Evicts call id := by
  intro evicted
  unfold Evicts at evicted
  obtain ⟨⟨_, _, rfl, _⟩, _⟩ | ⟨_, k, other, answer, _, asked, recording⟩ | ⟨_, silent, _⟩ :=
    next_cases endpoint call
  · cases evicted
  · rw [asked, Option.some.injEq] at evicted
    subst answer
    cases recording with
    | evicted _ _ _ _ _ _ _ loose => exact loose pinned
  · rw [silent] at evicted
    cases evicted

theorem run_pinned (known : endpoint.ledger.entries id = some entry)
    (pinned : endpoint.ledger.Pinned id) {calls : List EndpointCall}
    (running : AllSteps next (fun e c => ¬ e.Restarts c) endpoint calls) :
    (run next endpoint calls).ledger.entries id = some entry := by
  obtain ⟨held, text, same, ambiguous, unbacked⟩ := pinned
  cases known.symm.trans same
  refine run_invariant (fun e => e.ledger.entries id = some entry) ?_ known running
  intro e c before still
  have fixed := pinned_not_evicted ⟨entry, text, before, ambiguous, unbacked⟩ c
  rw [next_entries before, if_neg (by simp [still, fixed])]

def EvictsOldest (endpoint : HostTransportEndpoint) (call : EndpointCall) (id oldest : String) :
    Prop :=
  ∃ before after, endpoint.ledger.order = before ++ oldest :: after ∧
    (∀ k ∈ before, endpoint.ledger.Pinned k) ∧ ¬ endpoint.ledger.Pinned oldest ∧
    (endpoint.next call).ledger.order = before ++ after ++ [id] ∧
    ∀ k, k ≠ oldest → k ≠ id →
      (endpoint.next call).ledger.entries k = endpoint.ledger.entries k

theorem evictsOldest_of_evicts (named : call.entry = some (id, entry)) {oldest : String}
    (evicted : endpoint.Evicts call oldest) : EvictsOldest endpoint call id oldest := by
  obtain ⟨answer, asked, recording⟩ := endpoint.recording_of_entry named
  unfold Evicts at evicted
  rw [asked, Option.some.injEq] at evicted
  subst answer
  have others : ∀ k, k ≠ oldest → k ≠ id →
      (endpoint.next call).ledger.entries k = endpoint.ledger.entries k := by
    intro k apart other
    exact recording.entries_other other fun same => apart (RecordOutcome.evicted.inj same).symm
  unfold EvictsOldest
  generalize (endpoint.next call).ledger = after at *
  cases recording with
  | evicted _ _ before _ rest split skipped loose _ order =>
    exact ⟨before, rest, split, skipped, loose, order, others⟩

theorem next_eq_of_refused (refused : endpoint.recorded call = some .rejectedLedgerFull ∨
    endpoint.recorded call = some .alreadyPresent) : endpoint.next call = endpoint := by
  have unchanged : ∀ {k entry answer after}, Recording endpoint.ledger k entry answer after →
      answer = .rejectedLedgerFull ∨ answer = .alreadyPresent → after = endpoint.ledger := by
    intro k entry answer after recording settled
    cases recording with
    | alreadyPresent | rejectedLedgerFull => rfl
    | inserted | evicted => simp at settled
  cases call with
  | acceptHello => simp [recorded] at refused
  | record k canonical outcome =>
    have same := unchanged (recordInner_recording endpoint.ledger k canonical outcome false)
      (refused.imp Option.some.inj Option.some.inj)
    exact congrArg (HostTransportEndpoint.mk endpoint.sessionId) same
  | recordWithRecovery k canonical outcome =>
    have same := unchanged (recordInner_recording endpoint.ledger k canonical outcome true)
      (refused.imp Option.some.inj Option.some.inj)
    exact congrArg (HostTransportEndpoint.mk endpoint.sessionId) same

theorem new_ok {capacity : Nat} {start : HostTransportEndpoint} (opened : new capacity = .ok start) :
    start.ledger.toKeyedQueue = KeyedQueue.empty ∧ start.ledger.capacity = capacity ∧
      start.sessionId = none := by
  unfold new BoundedRequestLedger.new at opened
  split at opened
  · cases opened
  · cases opened
    exact ⟨rfl, rfl, rfl⟩

/-- The contract of the endpoint in every state that hellos and recordings reach. -/
theorem endpoint_contract {capacity : Nat} {start : HostTransportEndpoint}
    (opened : new capacity = .ok start) (calls : List EndpointCall) :
    let e := run next start calls
    (e.ledger.order.Nodup ∧ (∀ id, id ∈ e.ledger.order ↔ (e.ledger.entries id).isSome) ∧
      e.ledger.order.length ≤ capacity) ∧
    (∀ id canonical outcome, e.classifyRequest id canonical = .duplicate outcome ↔
      ∃ backed, RecordedSince start calls id ⟨canonical, outcome, backed⟩) ∧
    (∀ id entry text later, e.ledger.entries id = some entry → entry.outcome = .ambiguous text →
      entry.recoveryBacked = false → AllSteps next (fun u c => ¬ u.Restarts c) e later →
        (run next e later).ledger.entries id = some entry) ∧
    ∀ call id entry, call.entry = some (id, entry) →
      (∀ oldest, e.Evicts call oldest → EvictsOldest e call id oldest) ∧
      (e.recorded call = some .rejectedLedgerFull ↔ e.ledger.entries id = none ∧
        e.ledger.order.length = capacity ∧ ∀ k ∈ e.ledger.order, e.ledger.Pinned k) ∧
      (e.recorded call = some .rejectedLedgerFull ∨ e.recorded call = some .alreadyPresent →
        e.next call = e) := by
  intro e
  obtain ⟨fresh, size, _⟩ := new_ok opened
  have held : Contract start.ledger := by
    refine ⟨?_, ?_, ?_⟩ <;> rw [fresh]
    · exact KeyedQueue.coherent_empty
    · exact List.nodup_nil
    · exact Nat.zero_le _
  obtain ⟨contract, capacityEq⟩ := run_contract held calls
  rw [size] at capacityEq
  refine ⟨⟨contract.nodup, contract.coherent, capacityEq ▸ contract.bounded⟩, ?_, ?_, ?_⟩
  · intro id canonical outcome
    have empty : start.ledger.entries id = none := by rw [fresh]; rfl
    simp only [← run_entries_iff empty]
    change e.ledger.classify id canonical = _ ↔ ∃ backed, e.ledger.entries id = _
    unfold BoundedRequestLedger.classify
    cases e.ledger.entries id with
    | none => simp
    | some entry =>
      obtain ⟨found, recorded, backed⟩ := entry
      by_cases same : found = canonical <;> simp [same]
  · intro id entry text later known ambiguous unbacked running
    exact run_pinned known ⟨entry, text, known, ambiguous, unbacked⟩ running
  · intro call id entry named
    refine ⟨fun oldest evicted => evictsOldest_of_evicts named evicted, ?_, next_eq_of_refused⟩
    obtain ⟨answer, asked, recording⟩ := e.recording_of_entry named
    rw [asked, Option.some.injEq, ← capacityEq]
    exact recording.rejected_iff contract

def oneEntry : HostTransportEndpoint := ⟨none, ⟨KeyedQueue.empty, 1, Nat.one_pos⟩⟩

def rerecorded : List EndpointCall :=
  [.record "r1" "c1" (.definite "applied"), .record "r2" "c" (.definite "applied"),
    .record "r1" "c2" (.definite "rejected")]

theorem endpoint_contract_rerecorded :
    (run next oneEntry rerecorded).ledger.order.length ≤ 1 ∧
      RecordedSince oneEntry rerecorded "r1" ⟨"c2", .definite "rejected", false⟩ := by
  have opened : new 1 = .ok oneEntry := rfl
  have contract := endpoint_contract opened rerecorded
  refine ⟨contract.1.2.2, ?_⟩
  obtain ⟨backed, since⟩ := (contract.2.1 "r1" "c2" (.definite "rejected")).mp (by decide)
  cases backed with
  | false => exact since
  | true =>
    have stands := (run_entries_iff rfl rerecorded).mpr since
    exact absurd stands (by decide)

theorem evicted_id_replays_later_outcome :
    oneEntry.recorded (.record "r1" "c1" (.definite "applied")) = some .inserted ∧
      ((run next oneEntry rerecorded).ledger.entries "r1").isSome = true ∧
      (run next oneEntry rerecorded).classifyRequest "r1" "c1" = .conflict ∧
      (run next oneEntry rerecorded).classifyRequest "r1" "c2" =
        .duplicate (.definite "rejected") := by
  decide

end HostTransportEndpoint
end ZonKey.Transport

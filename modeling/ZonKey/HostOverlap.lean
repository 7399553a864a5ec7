import Mathlib.Data.List.Dedup
import Mathlib.Data.List.Perm.Subperm
import ZonKey.HostAdapter
import ZonKey.Runs

set_option autoImplicit false

namespace ZonKey.Host
open Runs

inductive Phase where
  | editing (commit : Commit)
  | settled (result : HostResult)
  deriving DecidableEq

/-- A call of `apply` that has not returned. -/
structure Pending where
  number : Nat
  requestId : JsString
  canonical : JsString
  phase : Phase

structure Returned where
  requestId : JsString
  canonical : JsString
  result : HostResult
  deriving DecidableEq

/-- The adapter with its calls: `edits` lists the request of every call of `editor.edit`, and
`returned` what the finished calls have returned. -/
structure Overlap where
  ledger : Ledger
  pending : List Pending
  nextNumber : Nat
  edits : List JsString
  returned : List Returned

/-- What comes next: a call with the host as it is then, an edit of a waiting call that settles
with the document as it is then, or the end of a call. -/
inductive OverlapInput where
  | call (binding : HostBinding) (request : CompareAndReplaceRequest)
  | settle (number : Nat) (queued : Bool) (settled : EditSettled) (version : Nat) (text : JsString)
  | finish (number : Nat)

namespace Overlap

def new (capacity : Nat) (capacity_pos : 0 < capacity) : Overlap where
  ledger := ⟨[], capacity, capacity_pos⟩
  pending := []
  nextNumber := 0
  edits := []
  returned := []

def wait (adapter : Overlap) (requestId canonical : JsString) (phase : Phase) : Overlap :=
  { adapter with
    pending := adapter.pending ++ [⟨adapter.nextNumber, requestId, canonical, phase⟩]
    nextNumber := adapter.nextNumber + 1 }

def call (numberText : Rat → JsString) (adapter : Overlap) (binding : HostBinding)
    (request : CompareAndReplaceRequest) : Overlap :=
  let canonical := canonicalJson numberText request.toJs
  match begin numberText binding adapter.ledger request with
  | .answered result =>
    { adapter with returned := adapter.returned ++ [⟨request.requestId, canonical, result⟩] }
  | .rejected reason => adapter.wait request.requestId canonical (.settled (.rejected reason))
  | .editing commit =>
    { adapter with edits := adapter.edits ++ [request.requestId] }.wait request.requestId canonical
      (.editing commit)

/-- The call whose edit settles has its result, and records it when it goes on. -/
def settlePhase (queued : Bool) (settled : EditSettled) (version : Nat) (text : JsString) :
    Phase → Phase
  | .editing commit => .settled (commit.finish queued settled version text)
  | .settled result => .settled result

def settle (adapter : Overlap) (number : Nat) (queued : Bool) (settled : EditSettled)
    (version : Nat) (text : JsString) : Overlap :=
  { adapter with
    pending := adapter.pending.map fun waiting =>
      if waiting.number = number then
        { waiting with phase := settlePhase queued settled version text waiting.phase }
      else waiting }

def finish (adapter : Overlap) (number : Nat) : Overlap :=
  match adapter.pending.find? fun waiting => waiting.number = number with
  | none => adapter
  | some waiting =>
    match waiting.phase with
    | .editing _ => adapter
    | .settled result =>
      { adapter with
        ledger := adapter.ledger.remember waiting.requestId waiting.canonical result
        pending := adapter.pending.eraseP fun other => other.number = number
        returned := adapter.returned ++ [⟨waiting.requestId, waiting.canonical, result⟩] }

def step (numberText : Rat → JsString) (adapter : Overlap) : OverlapInput → Overlap
  | .call binding request => adapter.call numberText binding request
  | .settle number queued settled version text =>
    adapter.settle number queued settled version text
  | .finish number => adapter.finish number

/-- The ledger answers the call, or no call with its request id is waiting, except for exact
duplicates that have been rejected as this one is. -/
def Clear (pending : List Pending) (requestId canonical : JsString) : Begun → Prop
  | .answered _ => True
  | .rejected reason => ∀ waiting ∈ pending, waiting.requestId = requestId →
    waiting.canonical = canonical ∧ waiting.phase = .settled (.rejected reason)
  | .editing _ => ∀ waiting ∈ pending, waiting.requestId ≠ requestId

instance (pending : List Pending) (requestId canonical : JsString) (begun : Begun) :
    Decidable (Clear pending requestId canonical begun) :=
  match begun with
  | .answered _ => instDecidableTrue
  | .rejected reason => inferInstanceAs (Decidable (∀ waiting ∈ pending,
      waiting.requestId = requestId →
        waiting.canonical = canonical ∧ waiting.phase = .settled (.rejected reason)))
  | .editing _ => inferInstanceAs (Decidable (∀ waiting ∈ pending, waiting.requestId ≠ requestId))

def Timely (numberText : Rat → JsString) (adapter : Overlap) : OverlapInput → Prop
  | .call binding request =>
    Clear adapter.pending request.requestId (canonicalJson numberText request.toJs)
      (begin numberText binding adapter.ledger request)
  | .settle .. | .finish _ => True

instance (numberText : Rat → JsString) (adapter : Overlap) (input : OverlapInput) :
    Decidable (Timely numberText adapter input) :=
  match input with
  | .call binding request => inferInstanceAs (Decidable (Clear adapter.pending request.requestId
      (canonicalJson numberText request.toJs) (begin numberText binding adapter.ledger request)))
  | .settle .. | .finish _ => instDecidableTrue

/-- The request ids of the calls. -/
def requestIds : List OverlapInput → List JsString
  | [] => []
  | .call _ request :: rest => request.requestId :: requestIds rest
  | _ :: rest => requestIds rest

/-- No request has been edited twice, and calls with one request have returned one result. -/
structure OnceEach (adapter : Overlap) : Prop where
  edits : adapter.edits.Nodup
  results : ∀ first ∈ adapter.returned, ∀ second ∈ adapter.returned,
    first.requestId = second.requestId → first.canonical = second.canonical →
      first.result = second.result

/-- What is left of a call after it has begun, when nothing else gets in between. -/
def rest (adapter : Overlap) (environment : EditEnvironment) : Begun → List OverlapInput
  | .answered _ => []
  | .rejected _ => [.finish adapter.nextNumber]
  | .editing commit =>
    let edited := edit environment commit
    [.settle adapter.nextNumber edited.queued edited.settled edited.document.version
      edited.document.text, .finish adapter.nextNumber]

theorem run_alone (numberText : Rat → JsString) (adapter : Overlap) (idle : adapter.pending = [])
    (binding : HostBinding) (request : CompareAndReplaceRequest) (environment : EditEnvironment) :
    let alone := apply numberText binding adapter.ledger request environment
    let after := run (step numberText) adapter (.call binding request ::
      adapter.rest environment (begin numberText binding adapter.ledger request))
    after.ledger = alone.ledger ∧ after.pending = [] ∧
      after.returned = adapter.returned ++
        [⟨request.requestId, canonicalJson numberText request.toJs, alone.result⟩] := by
  cases begun : begin numberText binding adapter.ledger request with
  | answered result => simp [apply, rest, step, call, begun, idle]
  | rejected reason => simp [apply, rest, step, call, wait, finish, begun, idle]
  | editing commit =>
    simp [apply, rest, step, call, wait, settle, settlePhase, finish, begun, idle]

section Invariant
variable {numberText : Rat → JsString} {knownIds : List JsString}

def replay (ledger : Ledger) (requestId canonical : JsString) : Option HostResult :=
  if requestId.isEmpty then some (.rejected .malformedRequest)
  else (ledger.get requestId).map fun recorded =>
    if recorded.canonical = canonical then recorded.result else .rejected .requestIdReuse

theorem begin_eq (binding : HostBinding) (ledger : Ledger) (request : CompareAndReplaceRequest) :
    begin numberText binding ledger request =
      match replay ledger request.requestId (canonicalJson numberText request.toJs) with
      | some result => .answered result
      | none =>
        match validate numberText binding request with
        | .error reason => .rejected reason
        | .ok commit => .editing commit := by
  unfold begin replay
  by_cases empty : request.requestId.isEmpty
  · rw [if_pos empty, if_pos empty]
  · rw [if_neg empty, if_neg empty]
    cases ledger.get request.requestId <;> rfl

theorem replay_none {ledger : Ledger} {requestId canonical : JsString}
    (unanswered : replay ledger requestId canonical = none) :
    requestId ≠ [] ∧ ledger.get requestId = none := by
  unfold replay at unanswered
  split_ifs at unanswered with empty
  exact ⟨by simpa using empty, Option.map_eq_none_iff.mp unanswered⟩

theorem remember_entries {ledger : Ledger} {requestId : JsString} (canonical : JsString)
    (result : HostResult) (fresh : ledger.get requestId = none)
    (room : ledger.entries.length < ledger.capacity) :
    (ledger.remember requestId canonical result).entries =
      ledger.entries ++ [(requestId, ⟨canonical, result⟩)] := by
  have none_dropped : ledger.entries.length + 1 - ledger.capacity = 0 := by omega
  simp [Ledger.remember, fresh, none_dropped]

theorem remember_recorded {ledger : Ledger} {requestId : JsString} {recorded : LedgerEntry}
    (canonical : JsString) (result : HostResult) (found : ledger.get requestId = some recorded) :
    ledger.remember requestId canonical result = ledger := by
  simp [Ledger.remember, found]

theorem remember_get {ledger : Ledger} {requestId : JsString} (canonical : JsString)
    (result : HostResult)
    (room : ledger.get requestId = none → ledger.entries.length < ledger.capacity)
    (other : JsString) :
    (ledger.remember requestId canonical result).get other =
      if other = requestId then some ((ledger.get requestId).getD ⟨canonical, result⟩)
      else ledger.get other := by
  cases found : ledger.get requestId with
  | some recorded =>
    rw [remember_recorded canonical result found]
    split
    · rename_i same
      rw [same, found, Option.getD_some]
    · rfl
  | none =>
    have entries := remember_entries canonical result found (room found)
    unfold Ledger.get at found ⊢
    rw [entries, List.lookup_append]
    split
    · rename_i same
      simp [same, found]
    · rename_i different
      simp [List.lookup_cons, beq_eq_false_iff_ne.mpr different]

def ids (adapter : Overlap) : List JsString :=
  adapter.ledger.entries.map Prod.fst ++ adapter.pending.map Pending.requestId

def Agree (first second : Pending) : Prop :=
  first.canonical = second.canonical ∧ ∃ reason,
    first.phase = .settled (.rejected reason) ∧ second.phase = .settled (.rejected reason)

theorem Agree.symm {first second : Pending} : Agree first second → Agree second first := by
  rintro ⟨canonical, reason, one, other⟩
  exact ⟨canonical.symm, reason, other, one⟩

/-- There is room for every id; calls that wait under one id agree with each other and with the
ledger; an edited id waits or is recorded; every result that was returned is what the ledger still
answers. -/
structure Kept (knownIds : List JsString) (adapter : Overlap) : Prop where
  room : knownIds.dedup.length < adapter.ledger.capacity
  known : ids adapter ⊆ knownIds
  named : [] ∉ ids adapter
  keys : (adapter.ledger.entries.map Prod.fst).Nodup
  echoes : ∀ waiting ∈ adapter.pending, ∀ recorded,
    adapter.ledger.get waiting.requestId = some recorded →
      recorded.canonical = waiting.canonical ∧ waiting.phase = .settled recorded.result
  agree : adapter.pending.Pairwise fun first second =>
    first.requestId = second.requestId → Agree first second
  edits : adapter.edits.Nodup
  edited : adapter.edits ⊆ ids adapter
  returned : ∀ returned ∈ adapter.returned,
    replay adapter.ledger returned.requestId returned.canonical = some returned.result

theorem Kept.onceEach {adapter : Overlap} (kept : Kept knownIds adapter) : OnceEach adapter where
  edits := kept.edits
  results := by
    intro first isFirst second isSecond sameId sameCanonical
    have answer := kept.returned first isFirst
    rw [sameId, sameCanonical, kept.returned second isSecond] at answer
    exact (Option.some.inj answer).symm

theorem kept_new {capacity : Nat} (capacity_pos : 0 < capacity)
    (room : knownIds.dedup.length < capacity) : Kept knownIds (new capacity capacity_pos) where
  room := room
  known := by simp [ids, new]
  named := by simp [ids, new]
  keys := by simp [new]
  echoes := by simp [new]
  agree := by simp [new]
  edits := by simp [new]
  edited := by simp [new]
  returned := by simp [new]

theorem nodup_append_one {names : List JsString} {name : JsString} (nodup : names.Nodup)
    (fresh : name ∉ names) : (names ++ [name]).Nodup := by
  rw [← List.concat_eq_append]
  exact List.Nodup.concat fresh nodup

theorem Kept.length_lt {adapter : Overlap} (kept : Kept knownIds adapter) {requestId : JsString}
    (isId : requestId ∈ ids adapter) (fresh : adapter.ledger.get requestId = none) :
    adapter.ledger.entries.length < adapter.ledger.capacity := by
  have within : (adapter.ledger.entries.map Prod.fst ++ [requestId]) ⊆ knownIds.dedup := by
    intro id mem
    refine List.mem_dedup.mpr (kept.known ?_)
    rcases List.mem_append.mp mem with recorded | same
    · exact List.mem_append.mpr (.inl recorded)
    · exact List.mem_singleton.mp same ▸ isId
  have longer :=
    (List.Nodup.subperm (nodup_append_one kept.keys (Ledger.get_eq_none.mp fresh)) within).length_le
  have room := kept.room
  simp only [List.length_append, List.length_map, List.length_singleton] at longer
  omega

theorem ids_wait (adapter : Overlap) (requestId canonical : JsString) (phase : Phase) :
    ids (adapter.wait requestId canonical phase) = ids adapter ++ [requestId] := by
  simp [ids, wait]

theorem Kept.wait {adapter : Overlap} (kept : Kept knownIds adapter) {requestId : JsString}
    (isKnown : requestId ∈ knownIds) (isNamed : requestId ≠ [])
    (fresh : adapter.ledger.get requestId = none) {canonical : JsString} {phase : Phase}
    (agree : ∀ waiting ∈ adapter.pending, waiting.requestId = requestId →
      Agree waiting ⟨adapter.nextNumber, requestId, canonical, phase⟩)
    {edits : List JsString} (once : edits.Nodup) (edited : edits ⊆ ids adapter ++ [requestId]) :
    Kept knownIds ({ adapter with edits := edits }.wait requestId canonical phase) where
  room := kept.room
  known := by
    rw [ids_wait]
    exact List.append_subset.mpr ⟨kept.known, by simpa using isKnown⟩
  named := by
    rw [ids_wait, List.mem_append, not_or]
    exact ⟨kept.named, by simpa using isNamed.symm⟩
  keys := kept.keys
  echoes := by
    intro waiting isWaiting recorded found
    rcases List.mem_append.mp isWaiting with before | now
    · exact kept.echoes waiting before recorded found
    · cases List.mem_singleton.mp now
      exact absurd (fresh.symm.trans found) (by simp)
  agree := by
    refine List.pairwise_append.mpr ⟨kept.agree, List.pairwise_singleton .., ?_⟩
    intro waiting isWaiting other isOther
    cases List.mem_singleton.mp isOther
    exact agree waiting isWaiting
  edits := once
  edited := by
    rw [ids_wait]
    exact edited
  returned := kept.returned

theorem Kept.call {adapter : Overlap} (kept : Kept knownIds adapter) {binding : HostBinding}
    {request : CompareAndReplaceRequest} (isKnown : request.requestId ∈ knownIds)
    (timely : Timely numberText adapter (.call binding request)) :
    Kept knownIds (adapter.call numberText binding request) := by
  simp only [Timely] at timely
  unfold Overlap.call
  rw [begin_eq] at timely ⊢
  cases answer : replay adapter.ledger request.requestId
      (canonicalJson numberText request.toJs) with
  | some result =>
    refine { kept with returned := fun returned isReturned => ?_ }
    rcases List.mem_append.mp isReturned with before | now
    · exact kept.returned returned before
    · cases List.mem_singleton.mp now
      exact answer
  | none =>
    obtain ⟨isNamed, fresh⟩ := replay_none answer
    rw [answer] at timely
    cases valid : validate numberText binding request with
    | error reason =>
      rw [valid] at timely
      refine kept.wait isKnown isNamed fresh (fun waiting isWaiting same => ?_) kept.edits
        (List.subset_append_of_subset_left _ kept.edited)
      obtain ⟨canonical, phase⟩ := timely waiting isWaiting same
      exact ⟨canonical, reason, phase, rfl⟩
    | ok commit =>
      rw [valid] at timely
      have unedited : request.requestId ∉ adapter.edits := by
        intro isEdited
        rcases List.mem_append.mp (kept.edited isEdited) with recorded | isWaiting
        · exact Ledger.get_eq_none.mp fresh recorded
        · obtain ⟨waiting, isPending, same⟩ := List.mem_map.mp isWaiting
          exact timely waiting isPending same
      exact kept.wait isKnown isNamed fresh
        (fun waiting isWaiting same => absurd same (timely waiting isWaiting))
        (nodup_append_one kept.edits unedited)
        (List.append_subset.mpr ⟨List.subset_append_of_subset_left _ kept.edited,
          List.subset_append_right _ _⟩)

section Settle
variable {number : Nat} {queued : Bool} {settled : EditSettled} {version : Nat} {text : JsString}

theorem ids_settle (adapter : Overlap) :
    ids (adapter.settle number queued settled version text) = ids adapter := by
  simp only [ids, settle, List.map_map, List.append_cancel_left_eq]
  refine List.map_congr_left fun waiting _ => ?_
  simp only [Function.comp_apply]
  split <;> rfl

theorem settle_settled {waiting : Pending} {result : HostResult}
    (phase : waiting.phase = .settled result) :
    (if waiting.number = number then
      { waiting with phase := settlePhase queued settled version text waiting.phase }
    else waiting) = waiting := by
  split
  · rw [phase, settlePhase, ← phase]
  · rfl

theorem Kept.settle {adapter : Overlap} (kept : Kept knownIds adapter) :
    Kept knownIds (adapter.settle number queued settled version text) := by
  have same := @ids_settle number queued settled version text adapter
  constructor
  · exact kept.room
  · exact same ▸ kept.known
  · exact same ▸ kept.named
  · exact kept.keys
  · intro after isAfter recorded found
    obtain ⟨waiting, isWaiting, changed⟩ := List.mem_map.mp isAfter
    have sameId : after.requestId = waiting.requestId := by
      rw [← changed]
      split <;> rfl
    obtain ⟨canonical, phase⟩ := kept.echoes waiting isWaiting recorded (sameId ▸ found)
    rw [settle_settled phase] at changed
    exact changed ▸ ⟨canonical, phase⟩
  · refine List.pairwise_map.mpr (kept.agree.imp fun {first second} agree sameId => ?_)
    have agreed : Agree first second := agree (by split at sameId <;> split at sameId <;> exact sameId)
    obtain ⟨canonical, reason, one, other⟩ := agreed
    rw [settle_settled one, settle_settled other]
    exact ⟨canonical, reason, one, other⟩
  · exact kept.edits
  · exact same ▸ kept.edited
  · exact kept.returned

end Settle

theorem finish_cases (adapter : Overlap) (number : Nat) :
    adapter.finish number = adapter ∨
      ∃ before waiting after result, adapter.pending = before ++ waiting :: after ∧
        waiting.phase = .settled result ∧
        adapter.finish number = { adapter with
          ledger := adapter.ledger.remember waiting.requestId waiting.canonical result
          pending := before ++ after
          returned := adapter.returned ++ [⟨waiting.requestId, waiting.canonical, result⟩] } := by
  unfold Overlap.finish
  cases found : adapter.pending.find? fun waiting => waiting.number = number with
  | none => exact .inl rfl
  | some waiting =>
    obtain ⟨is_number, before, after, split, earlier⟩ := List.find?_eq_some_iff_append.mp found
    have erased : (adapter.pending.eraseP fun other => other.number = number) = before ++ after := by
      rw [split, List.eraseP_append_right _ (by simpa using earlier),
        List.eraseP_cons_of_pos (by exact is_number)]
    cases phase : waiting.phase with
    | editing commit => exact .inl (by simp only [phase])
    | settled result =>
      exact .inr ⟨before, waiting, after, result, split, phase, by simp only [phase, erased]⟩

structure Remembered (ledger after : Ledger) (requestId : JsString) (entry : LedgerEntry) :
    Prop where
  keys : (ledger.entries.map Prod.fst).Nodup → (after.entries.map Prod.fst).Nodup
  members : ∀ id, id ∈ after.entries.map Prod.fst ↔
    id = requestId ∨ id ∈ ledger.entries.map Prod.fst
  found : after.get requestId = some entry
  others : ∀ id ≠ requestId, after.get id = ledger.get id
  kept : ∀ id recorded, ledger.get id = some recorded → after.get id = some recorded

theorem remembered {ledger : Ledger} {requestId canonical : JsString} {result : HostResult}
    (room : ledger.get requestId = none → ledger.entries.length < ledger.capacity)
    (echo : ∀ recorded, ledger.get requestId = some recorded →
      recorded.canonical = canonical ∧ recorded.result = result) :
    Remembered ledger (ledger.remember requestId canonical result) requestId ⟨canonical, result⟩ := by
  cases found : ledger.get requestId with
  | some recorded =>
    obtain ⟨rfl, rfl⟩ := echo recorded found
    rw [remember_recorded _ _ found]
    have isKey : requestId ∈ ledger.entries.map Prod.fst := by
      by_contra absent
      exact absurd (found.symm.trans (Ledger.get_eq_none.mpr absent)) (by simp)
    refine ⟨id, fun other => ⟨.inr, ?_⟩, found, fun _ _ => rfl, fun _ _ is => is⟩
    rintro (rfl | is)
    · exact isKey
    · exact is
  | none =>
    have entries := remember_entries canonical result found (room found)
    have get := remember_get canonical result room
    constructor
    · intro nodup
      rw [entries, List.map_append]
      exact nodup_append_one nodup (Ledger.get_eq_none.mp found)
    · intro other
      simp [entries, or_comm]
    · rw [get, if_pos rfl, found, Option.getD_none]
    · intro other different
      rw [get, if_neg different]
    · intro other recorded is
      have different : other ≠ requestId := by
        rintro rfl
        exact absurd (found.symm.trans is) (by simp)
      rw [get, if_neg different, is]

theorem replay_kept {ledger after : Ledger} {requestId canonical : JsString} {result : HostResult}
    (kept : ∀ id recorded, ledger.get id = some recorded → after.get id = some recorded)
    (answer : replay ledger requestId canonical = some result) :
    replay after requestId canonical = some result := by
  unfold replay at answer ⊢
  split_ifs at answer ⊢
  · exact answer
  · obtain ⟨recorded, found, answered⟩ := Option.map_eq_some_iff.mp answer
    rw [kept requestId recorded found]
    exact congrArg some answered

theorem Kept.finish {adapter : Overlap} (kept : Kept knownIds adapter) (number : Nat) :
    Kept knownIds (adapter.finish number) := by
  rcases finish_cases adapter number with
    idle | ⟨before, waiting, after, result, split, phase, finished⟩
  · rw [idle]
    exact kept
  · have isWaiting : waiting ∈ adapter.pending := by simp [split]
    have isId : waiting.requestId ∈ ids adapter :=
      List.mem_append.mpr (.inr (List.mem_map_of_mem isWaiting))
    have isNamed : waiting.requestId ≠ [] := fun empty => kept.named (empty ▸ isId)
    have echo (recorded : LedgerEntry) (found : adapter.ledger.get waiting.requestId = some recorded) :
        recorded.canonical = waiting.canonical ∧ recorded.result = result := by
      obtain ⟨canonical, same⟩ := kept.echoes waiting isWaiting recorded found
      rw [phase] at same
      exact ⟨canonical, (Phase.settled.inj same).symm⟩
    have step := remembered (kept.length_lt isId) echo
    have agree := kept.agree
    rw [split, List.pairwise_append, List.pairwise_cons] at agree
    obtain ⟨front, ⟨behind, back⟩, across⟩ := agree
    -- Another call that waits under the same id was rejected alike.
    have others (other : Pending) (isOther : other ∈ before ++ after)
        (same : other.requestId = waiting.requestId) :
        waiting.canonical = other.canonical ∧ other.phase = .settled result := by
      have agreed : Agree waiting other := by
        rcases List.mem_append.mp isOther with earlier | later
        · exact (across other earlier waiting List.mem_cons_self same).symm
        · exact behind other later same.symm
      obtain ⟨canonical, reason, mine, its⟩ := agreed
      rw [phase] at mine
      cases mine
      exact ⟨canonical, its⟩
    have ids_iff (id : JsString) : id ∈ ids (adapter.finish number) ↔ id ∈ ids adapter := by
      rw [finished]
      simp only [ids, List.mem_append, step.members, split, List.map_append, List.map_cons,
        List.mem_cons]
      tauto
    have isOld {other : Pending} (isOther : other ∈ before ++ after) : other ∈ adapter.pending := by
      rw [split]
      rcases List.mem_append.mp isOther with earlier | later
      · exact List.mem_append_left _ earlier
      · exact List.mem_append_right _ (List.mem_cons_of_mem _ later)
    constructor
    · rw [finished, Ledger.remember_capacity]
      exact kept.room
    · exact fun id isKept => kept.known ((ids_iff id).mp isKept)
    · exact fun empty => kept.named ((ids_iff []).mp empty)
    · rw [finished]
      exact step.keys kept.keys
    · rw [finished]
      intro other isOther recorded found
      by_cases same : other.requestId = waiting.requestId
      · rw [same, step.found] at found
        cases found
        exact others other isOther same
      · rw [step.others _ same] at found
        exact kept.echoes other (isOld isOther) recorded found
    · rw [finished]
      refine List.pairwise_append.mpr ⟨front, back, fun first isFirst second isSecond => ?_⟩
      exact across first isFirst second (List.mem_cons_of_mem _ isSecond)
    · rw [finished]
      exact kept.edits
    · intro id isEdited
      rw [finished] at isEdited
      exact (ids_iff id).mpr (kept.edited isEdited)
    · rw [finished]
      intro returned isReturned
      rcases List.mem_append.mp isReturned with earlier | now
      · exact replay_kept step.kept (kept.returned returned earlier)
      · cases List.mem_singleton.mp now
        simp [replay, isNamed, step.found]

theorem Kept.step {adapter : Overlap} {input : OverlapInput} (kept : Kept knownIds adapter)
    (isKnown : requestIds [input] ⊆ knownIds) (timely : Timely numberText adapter input) :
    Kept knownIds (adapter.step numberText input) := by
  cases input with
  | call binding request => exact kept.call (isKnown (by simp [requestIds])) timely
  | settle number queued settled version text => exact kept.settle
  | finish number => exact kept.finish number

theorem requestIds_append (earlier later : List OverlapInput) :
    requestIds (earlier ++ later) = requestIds earlier ++ requestIds later := by
  induction earlier with
  | nil => rfl
  | cons input rest ih => cases input <;> simp [requestIds, ih]

theorem allSteps_known {start : Overlap} (inputs : List OverlapInput) :
    AllSteps (step numberText) (fun _ input => requestIds [input] ⊆ requestIds inputs) start
      inputs := by
  refine allSteps_of_split fun before input after is => ?_
  have apart : requestIds (input :: after) = requestIds [input] ++ requestIds after :=
    requestIds_append [input] after
  rw [is, requestIds_append, apart]
  exact fun id isId => List.mem_append.mpr (.inr (List.mem_append.mpr (.inl isId)))

end Invariant

/-- If no call is made with an id whose earlier call has not returned, but for duplicates that have
been rejected alike, and there are fewer ids than the ledger holds, then no id is edited twice and
equal requests get equal results. -/
theorem run_once_each (numberText : Rat → JsString) (capacity : Nat) (capacity_pos : 0 < capacity)
    (inputs : List OverlapInput) (room : (requestIds inputs).dedup.length < capacity)
    (timely : AllSteps (step numberText) (Timely numberText) (new capacity capacity_pos) inputs) :
    OnceEach (run (step numberText) (new capacity capacity_pos) inputs) := by
  have kept := run_invariant (Kept (requestIds inputs))
    (fun adapter input kept allowed => Kept.step kept allowed.1 allowed.2)
    (kept_new capacity_pos room) ((allSteps_known inputs).and timely)
  exact kept.onceEach

section Example

def replayedInputs : List OverlapInput :=
  [.call resumeBinding resumeRequest, .settle 0 true (.resolved true) 2 (js "restored"), .finish 0,
    .call resumeBinding resumeRequest]

def overlappingInputs : List OverlapInput :=
  [.call resumeBinding resumeRequest, .call resumeBinding resumeRequest]

end Example

theorem replayed_returned :
    (run (step wholeText) (new 256 (by decide)) replayedInputs).returned.map Returned.result =
      [.applied 2, .applied 2] := by
  have committed : resumeCommit.finish true (.resolved true) 2 (js "restored") = .applied 2 :=
    rfl
  have named : resumeRequest.requestId.isEmpty = false := rfl
  simp [replayedInputs, step, call, begin_eq, validate_resume, new, Ledger.get, wait, settle,
    settlePhase, committed, finish, Ledger.remember, replay, named]

theorem run_once_each_replayed :
    (run (step wholeText) (new 256 (by decide)) replayedInputs).returned.map Returned.result =
        [.applied 2, .applied 2] ∧
      OnceEach (run (step wholeText) (new 256 (by decide)) replayedInputs) :=
  ⟨replayed_returned, run_once_each wholeText 256 (by decide) replayedInputs (by decide)
    (by decide +kernel)⟩

theorem overlapping_edits : (run (step wholeText) (new 256 (by decide)) overlappingInputs).edits =
    [resumeRequest.requestId, resumeRequest.requestId] := by
  have named : resumeRequest.requestId.isEmpty = false := rfl
  simp [overlappingInputs, step, call, begin_eq, validate_resume, replay, named, new, Ledger.get, wait]

theorem overlap_edited_twice :
    ¬ ∀ inputs, (requestIds inputs).dedup.length < 256 →
      OnceEach (run (step wholeText) (new 256 (by decide)) inputs) := by
  intro once
  have edits := (once overlappingInputs (by decide)).edits
  rw [overlapping_edits] at edits
  simp at edits

end Overlap
end ZonKey.Host

import Mathlib.Data.List.DropRight
import ZonKey.HostAdapter
import ZonKey.Runs

set_option autoImplicit false

namespace ZonKey.Host
open Runs

/-- A call of `apply`, with the host as it is then and what happens around its edit. -/
structure AwaitedCall where
  binding : HostBinding
  request : CompareAndReplaceRequest
  environment : EditEnvironment

/-- A call that has returned: whether it invoked `editor.edit`, and whether its result was new. -/
structure AwaitedResult where
  requestId : JsString
  result : HostResult
  edited : Bool
  recorded : Bool
  deriving DecidableEq

structure Session where
  ledger : Ledger
  results : List AwaitedResult

def HostResult.isIndeterminate : HostResult → Bool
  | .indeterminate _ => true
  | _ => false

def Begun.edits : Begun → Bool
  | .editing _ => true
  | _ => false

def Begun.records : Begun → Bool
  | .answered _ => false
  | _ => true

namespace Session

/-- The adapter after `invalidateSession`. -/
def start (ledger : Ledger) : Session := ⟨ledger.invalidateSession, []⟩

def step (numberText : Rat → JsString) (session : Session) (call : AwaitedCall) : Session :=
  let begun := begin numberText call.binding session.ledger call.request
  let run := apply numberText call.binding session.ledger call.request call.environment
  { ledger := run.ledger
    results := session.results ++
      [⟨call.request.requestId, run.result, begun.edits, begun.records⟩] }

/-- No id is edited again once it has got `Indeterminate`. -/
def NeverRetried (session : Session) : Prop :=
  session.results.Pairwise fun earlier later =>
    earlier.requestId = later.requestId → earlier.result.isIndeterminate = true →
      later.edited = false

instance (session : Session) : Decidable session.NeverRetried :=
  inferInstanceAs (Decidable (session.results.Pairwise _))

def recordedIds (session : Session) : List JsString :=
  (session.results.filter (·.recorded)).map (·.requestId)

/-- An id that got `Indeterminate` comes back among the last ids recorded, as many as the ledger
holds, or with a request that fails a check. -/
def InWindow (numberText : Rat → JsString) (session : Session) (call : AwaitedCall) : Prop :=
  (∃ earlier ∈ session.results, earlier.requestId = call.request.requestId ∧
    earlier.result.isIndeterminate = true) →
      call.request.requestId ∈ session.recordedIds.rtake session.ledger.capacity ∨
        ¬ Accepted numberText call.binding call.request

end Session

section Window
variable {α : Type}

/-- Dropping the oldest when there are too many keeps the last ones. -/
theorem rtake_concat {items : List α} {capacity : Nat} (capacity_pos : 0 < capacity) (item : α) :
    (items ++ [item]).rtake capacity =
      (items.rtake capacity).drop ((items.rtake capacity).length + 1 - capacity) ++ [item] := by
  have length : (items.rtake capacity).length + 1 - capacity + (items.length - capacity) =
      items.length + 1 - capacity := by
    rw [List.rtake, List.length_drop]
    omega
  have within : items.length + 1 - capacity ≤ items.length := by omega
  calc (items ++ [item]).rtake capacity
      = (items ++ [item]).drop (items.length + 1 - capacity) := by simp [List.rtake]
    _ = items.drop (items.length + 1 - capacity) ++ [item] := List.drop_append_of_le_length within
    _ = _ := by rw [← length, List.rtake, List.drop_drop, Nat.add_comm]

end Window

namespace Session
variable {numberText : Rat → JsString}

/-- The ledger is the window of its capacity on the recorded ids, and the empty id is never
`Indeterminate`. -/
structure Windowed (session : Session) : Prop where
  entries : session.ledger.entries.map Prod.fst =
    session.recordedIds.rtake session.ledger.capacity
  named : ∀ result ∈ session.results, result.result.isIndeterminate = true → result.requestId ≠ []

theorem windowed_start (ledger : Ledger) : (start ledger).Windowed where
  entries := by simp [start, Ledger.invalidateSession, recordedIds, List.rtake]
  named := by simp [start]

theorem begin_edits {binding : HostBinding} {ledger : Ledger}
    {request : CompareAndReplaceRequest} :
    (begin numberText binding ledger request).edits = true ↔
      request.requestId ≠ [] ∧ request.requestId ∉ ledger.entries.map Prod.fst ∧
        Accepted numberText binding request := by
  rw [← Ledger.get_eq_none]
  constructor
  · intro edits
    cases begun : begin numberText binding ledger request with
    | editing commit =>
      obtain ⟨named, fresh, valid⟩ := begin_editing begun
      exact ⟨named, fresh, accepted_iff.mpr ⟨commit, valid⟩⟩
    | answered result | rejected reason =>
      rw [begun] at edits
      cases edits
  · rintro ⟨named, fresh, accepted⟩
    obtain ⟨commit, begun⟩ := begin_of_accepted fresh named accepted
    rw [begun]
    rfl

theorem begin_records {binding : HostBinding} {ledger : Ledger}
    {request : CompareAndReplaceRequest}
    (records : (begin numberText binding ledger request).records = true) :
    request.requestId ≠ [] ∧ ledger.get request.requestId = none := by
  unfold begin at records
  split at records
  · cases records
  · rename_i named
    cases fresh : ledger.get request.requestId with
    | none => exact ⟨by simpa using named, rfl⟩
    | some recorded =>
      rw [fresh] at records
      cases records

theorem apply_records {binding : HostBinding} {ledger : Ledger}
    {request : CompareAndReplaceRequest} (environment : EditEnvironment)
    (records : (begin numberText binding ledger request).records = true) :
    (apply numberText binding ledger request environment).ledger =
      ledger.remember request.requestId (canonicalJson numberText request.toJs)
        (apply numberText binding ledger request environment).result := by
  unfold apply
  cases begun : begin numberText binding ledger request with
  | answered result =>
    rw [begun] at records
    cases records
  | rejected reason | editing commit => rfl

theorem apply_replays {binding : HostBinding} {ledger : Ledger}
    {request : CompareAndReplaceRequest} (environment : EditEnvironment)
    (replays : (begin numberText binding ledger request).records = false) :
    (apply numberText binding ledger request environment).ledger = ledger := by
  unfold apply
  cases begun : begin numberText binding ledger request with
  | answered result => rfl
  | rejected reason | editing commit =>
    rw [begun] at replays
    cases replays

theorem remember_ids {ledger : Ledger} {requestId : JsString} (canonical : JsString)
    (result : HostResult) (fresh : ledger.get requestId = none) :
    (ledger.remember requestId canonical result).entries.map Prod.fst =
      (ledger.entries.map Prod.fst).drop
        ((ledger.entries.map Prod.fst).length + 1 - ledger.capacity) ++ [requestId] := by
  simp [Ledger.remember, fresh, List.map_drop]

theorem recordedIds_step (session : Session) (call : AwaitedCall) :
    (session.step numberText call).recordedIds =
      if (begin numberText call.binding session.ledger call.request).records then
        session.recordedIds ++ [call.request.requestId]
      else session.recordedIds := by
  simp only [recordedIds, step, List.filter_append, List.map_append]
  split <;> simp [*]

theorem apply_unnamed {binding : HostBinding} {ledger : Ledger}
    {request : CompareAndReplaceRequest} {environment : EditEnvironment}
    (unnamed : request.requestId = []) :
    (apply numberText binding ledger request environment).result = .rejected .malformedRequest := by
  simp [apply, begin, unnamed]

theorem Windowed.step {session : Session} (windowed : session.Windowed) (call : AwaitedCall) :
    (session.step numberText call).Windowed := by
  constructor
  · rw [recordedIds_step]
    cases records : (begin numberText call.binding session.ledger call.request).records with
    | false =>
      have same := apply_replays call.environment records
      simp only [Session.step, same]
      exact windowed.entries
    | true =>
      have remembered := apply_records call.environment records
      obtain ⟨_, fresh⟩ := begin_records records
      simp only [Session.step, remembered]
      rw [if_pos trivial, Ledger.remember_capacity, remember_ids _ _ fresh, windowed.entries,
        rtake_concat session.ledger.capacity_pos]
  · intro result isResult unclear
    rcases List.mem_append.mp isResult with before | now
    · exact windowed.named result before unclear
    · cases List.mem_singleton.mp now
      intro unnamed
      rw [apply_unnamed unnamed] at unclear
      cases unclear

theorem neverRetried_step {session : Session} (windowed : session.Windowed) (call : AwaitedCall) :
    (session.step numberText call).NeverRetried ↔
      session.NeverRetried ∧ session.InWindow numberText call := by
  have edited : (begin numberText call.binding session.ledger call.request).edits = false ↔
      (call.request.requestId = [] ∨
        call.request.requestId ∈ session.recordedIds.rtake session.ledger.capacity ∨
        ¬ Accepted numberText call.binding call.request) := by
    rw [← Bool.not_eq_true, begin_edits, windowed.entries]
    tauto
  simp only [NeverRetried, Session.step, List.pairwise_append, List.pairwise_singleton, true_and,
    List.mem_singleton, forall_eq]
  refine and_congr_right fun _ => ⟨fun kept => ?_, fun within earlier isEarlier same unclear => ?_⟩
  · rintro ⟨earlier, isEarlier, same, unclear⟩
    refine (edited.mp (kept earlier isEarlier same unclear)).resolve_left fun unnamed => ?_
    exact windowed.named earlier isEarlier unclear (same.trans unnamed)
  · exact edited.mpr (.inr (within ⟨earlier, isEarlier, same, unclear⟩))

end Session

/-- An id that got `Indeterminate` is never edited again exactly if it always comes back while its
last result is among the last ones recorded, as many as the ledger holds, or fails a check. -/
theorem run_never_retried_iff (numberText : Rat → JsString) (ledger : Ledger)
    (calls : List AwaitedCall) :
    (run (Session.step numberText) (Session.start ledger) calls).NeverRetried ↔
      AllSteps (Session.step numberText) (Session.InWindow numberText) (Session.start ledger)
        calls := by
  have start : (Session.start ledger).NeverRetried := List.Pairwise.nil
  rw [run_iff_allSteps (P := Session.InWindow numberText) Session.Windowed
    (fun _ call windowed => windowed.step call)
    (fun _ call windowed => Session.neverRetried_step windowed call) (Session.windowed_start ledger)]
  exact and_iff_right start

section Example
variable {numberText : Rat → JsString} {session : Session} {call : AwaitedCall}

theorem step_lost {commit : Commit} {carriedOut : Bool}
    (begun : begin numberText call.binding session.ledger call.request = .editing commit)
    (lost : call.environment.fate = .lost carriedOut) :
    session.step numberText call =
      { ledger := session.ledger.remember call.request.requestId
          (canonicalJson numberText call.request.toJs) (.indeterminate .editOutcomeLost)
        results := session.results ++
          [⟨call.request.requestId, .indeterminate .editOutcomeLost, true, true⟩] } := by
  unfold Session.step apply
  rw [begun]
  simp only [edit, lost]
  rfl

theorem step_idle (inactive : call.binding.activeEditor = none)
    (named : call.request.requestId.isEmpty = false)
    (fresh : session.ledger.get call.request.requestId = none) :
    session.step numberText call =
      { ledger := session.ledger.remember call.request.requestId
          (canonicalJson numberText call.request.toJs) (.rejected .targetIdentityMismatch)
        results := session.results ++
          [⟨call.request.requestId, .rejected .targetIdentityMismatch, false, true⟩] } := by
  have begun : begin numberText call.binding session.ledger call.request =
      .rejected .targetIdentityMismatch := by
    simp [begin, validate, named, fresh, inactive]
  unfold Session.step apply
  rw [begun]
  rfl

def lostCall : AwaitedCall :=
  ⟨resumeBinding, resumeRequest, { quietEnvironment with fate := .lost false }⟩

def idleCall : AwaitedCall :=
  ⟨{ resumeBinding with activeEditor := none }, { resumeRequest with requestId := js "req-2" },
    quietEnvironment⟩

def oneEntryLedger : Ledger := ⟨[], 1, Nat.one_pos⟩

end Example

theorem indeterminate_retried :
    ¬ ∀ (ledger : Ledger) (calls : List AwaitedCall),
      (run (Session.step wholeText) (Session.start ledger) calls).NeverRetried := by
  intro never
  have kept := never oneEntryLedger [lostCall, idleCall, lostCall]
  have ids : lostCall.request.requestId ≠ idleCall.request.requestId := by decide
  have named : idleCall.request.requestId.isEmpty = false := by decide
  have first := @step_lost wholeText (.start oneEntryLedger) lostCall _ _
    (begin_resume wholeText rfl) rfl
  have fresh : ((Session.start oneEntryLedger).step wholeText lostCall).ledger.get
      idleCall.request.requestId = none := by
    rw [first]
    simp [Session.start, Ledger.invalidateSession, Ledger.remember, Ledger.get, ids.symm]
  have second := @step_idle wholeText _ idleCall rfl named fresh
  have forgotten : (((Session.start oneEntryLedger).step wholeText lostCall).step wholeText
      idleCall).ledger.get lostCall.request.requestId = none := by
    rw [second, first]
    simp [Session.start, Ledger.invalidateSession, Ledger.remember, Ledger.get, oneEntryLedger, ids,
      ids.symm]
  have third := @step_lost wholeText _ lostCall _ _ (begin_resume wholeText forgotten) rfl
  rw [run_cons, run_cons, run_cons, third, second, first] at kept
  simp [Session.NeverRetried, Session.start, HostResult.isIndeterminate] at kept

end ZonKey.Host

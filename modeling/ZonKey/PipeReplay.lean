import ZonKey.PipeSessions

set_option autoImplicit false

namespace ZonKey.Pipe
open Transport Runs

theorem Execution.call_entry (x : Execution) :
    x.call.entry = some (x.requestId, ⟨x.canonical, x.outcome, x.descriptor.isSome⟩) := by
  unfold Execution.call
  cases x.descriptor <;> rfl

namespace PipeServer
variable {server : PipeServer} {a : Arrival}

theorem executed_inv {x : Execution} (ran : (server.report a).executed = some x) :
    ∃ r, frameRequest a.payload = some r ∧ server.sessionOk r.session = true ∧
      server.endpoint.classifyRequest r.requestId r.canonical = .fresh ∧
      x = r.execution a.env ∧ (server.next a).endpoint = server.endpoint.next x.call := by
  have handled := serveFrame_handled server a
  generalize answered : server.report a = report at handled ran
  generalize server.next a = after at handled ⊢
  cases handled with
  | malformed | welcomed | refused | queried | mismatched | replayed | reused | refusedFresh =>
    cases ran
  | executed r request own fresh _ _ endpoint =>
    cases ran
    exact ⟨r, request, own, fresh, rfl, endpoint⟩

theorem report_of_request {r : WireRequest} (request : frameRequest a.payload = some r)
    (own : server.sessionOk r.session = true) :
    (∃ recorded, server.endpoint.classifyRequest r.requestId r.canonical = .duplicate recorded ∧
      server.report a = answer a.env (outcomePayload recorded) none) ∨
    (server.endpoint.classifyRequest r.requestId r.canonical = .conflict ∧
      server.report a = answer a.env (outcomePayload (.definite "request_id_reuse")) none) ∨
    (server.endpoint.classifyRequest r.requestId r.canonical = .fresh ∧
      (r.descriptor ≠ none ∨ (server.report a).executed = some (r.execution a.env))) := by
  have handled := serveFrame_handled server a
  generalize server.report a = report at handled ⊢
  generalize server.next a = after at handled
  have same : ∀ {s}, frameRequest a.payload = some s → s = r := by
    intro s other
    rw [request] at other
    exact (Option.some.inj other).symm
  cases handled with
  | malformed bad => exact absurd (wellFormed_of_request request) bad
  | welcomed protocol body | refused protocol body =>
    rw [frameRequest_hello body] at request
    cases request
  | queried query =>
    rw [frameRequest_query query] at request
    cases request
  | mismatched s other foreign =>
    rw [same other, own] at foreign
    cases foreign
  | replayed s other _ recorded known =>
    rw [same other] at known
    exact .inl ⟨recorded, known, rfl⟩
  | reused s other _ conflict =>
    rw [same other] at conflict
    exact .inr (.inl ⟨conflict, rfl⟩)
  | refusedFresh s other _ fresh carried =>
    rw [same other] at fresh carried
    exact .inr (.inr ⟨fresh, .inl carried⟩)
  | executed s other _ fresh =>
    rw [same other] at fresh ⊢
    exact .inr (.inr ⟨fresh, .inr rfl⟩)

theorem executed_of_fresh {r : WireRequest} (request : frameRequest a.payload = some r)
    (own : server.sessionOk r.session = true)
    (fresh : server.endpoint.classifyRequest r.requestId r.canonical = .fresh)
    (plain : r.descriptor = none) : (server.report a).executed = some (r.execution a.env) := by
  rcases report_of_request request own with ⟨_, known, _⟩ | ⟨conflict, _⟩ | ⟨_, carried | ran⟩
  · rw [fresh] at known
    cases known
  · rw [fresh] at conflict
    cases conflict
  · exact absurd plain carried
  · exact ran

theorem classify_fresh_iff {endpoint : HostTransportEndpoint} {id canonical : String} :
    endpoint.classifyRequest id canonical = .fresh ↔ endpoint.ledger.entries id = none := by
  change endpoint.ledger.classify id canonical = _ ↔ _
  unfold BoundedRequestLedger.classify
  cases endpoint.ledger.entries id with
  | none => simp
  | some entry => by_cases same : entry.canonical = canonical <;> simp [same]

theorem frameRequest_of_call {c : EndpointCall} {id : String} {entry : LedgerEntry}
    (called : server.call a = some c) (recording : c.entry = some (id, entry)) :
    ∃ x, (server.report a).executed = some x ∧ c = x.call := by
  unfold call at called
  cases body : frameBody a.payload with
  | hello protocol =>
    rw [body] at called
    cases called
    cases recording
  | recovery | handoff | req | reqx | unknown =>
    rw [body] at called
    obtain ⟨x, ran, same⟩ := Option.map_eq_some_iff.mp called
    exact ⟨x, ran, same.symm⟩

theorem entry_executed {start : PipeServer} {id : String} {entry : LedgerEntry}
    (empty : start.endpoint.ledger.entries id = none) {arrivals : List Arrival}
    (known : (run next start arrivals).endpoint.ledger.entries id = some entry) :
    ∃ before c after x, arrivals = before ++ c :: after ∧
      ((run next start before).report c).executed = some x ∧ x.requestId = id ∧
      entry = ⟨x.canonical, x.outcome, x.descriptor.isSome⟩ := by
  rcases last_established (fun s : PipeServer => s.endpoint.ledger.entries id = some entry) start
      arrivals known with ⟨initial, _⟩ | ⟨before, c, after, eq, was, now, _⟩
  · rw [empty] at initial
    cases initial
  · have moved := (next_endpoint (run next start before) c).2
    cases called : (run next start before).call c with
    | none =>
      rw [called] at moved
      rw [moved] at now
      exact absurd now was
    | some d =>
      rw [called] at moved
      rw [moved] at now
      obtain ⟨named, _⟩ := HostTransportEndpoint.inserts_of_new was now
      obtain ⟨x, ran, rfl⟩ := frameRequest_of_call called named
      rw [x.call_entry] at named
      cases named
      exact ⟨before, c, after, x, eq, ran, rfl, rfl⟩

theorem pinned_kept {id : String} {entry : LedgerEntry} (established : server.Established)
    (known : server.endpoint.ledger.entries id = some entry)
    (pinned : server.endpoint.ledger.Pinned id) (later : List Arrival) :
    (run next server later).endpoint.ledger.entries id = some entry := by
  obtain ⟨calls, same, running⟩ := run_endpoint established later
  rw [same]
  exact HostTransportEndpoint.run_pinned known pinned running

end PipeServer

/-- Nothing can be recorded any more: full of pinned entries. -/
def Saturated (ledger : BoundedRequestLedger) : Prop :=
  ledger.capacity ≤ ledger.order.length ∧ ∀ id ∈ ledger.order, ledger.Pinned id

namespace PipeServer
variable {server : PipeServer} {a : Arrival}

theorem executed_recorded {x : Execution} (ran : (server.report a).executed = some x)
    (room : ¬ Saturated server.endpoint.ledger) :
    (server.next a).endpoint.ledger.entries x.requestId =
      some ⟨x.canonical, x.outcome, x.descriptor.isSome⟩ := by
  obtain ⟨r, _, _, fresh, same, moved⟩ := executed_inv ran
  rw [moved]
  obtain ⟨answer, _, recording⟩ := server.endpoint.recording_of_entry x.call_entry
  have unknown : server.endpoint.ledger.entries x.requestId = none := by
    rw [same]
    exact classify_fresh_iff.mp fresh
  refine recording.entries_placed ?_
  generalize (server.endpoint.next x.call).ledger = after at recording
  cases recording with
  | alreadyPresent present =>
    rw [← KeyedQueue.contains_eq_false, present] at unknown
    cases unknown
  | inserted => exact .inl rfl
  | evicted _ _ _ oldest => exact .inr ⟨oldest, rfl⟩
  | rejectedLedgerFull _ full pinned => exact absurd ⟨full, pinned⟩ room

theorem saturated_next {x : Execution} (ran : (server.report a).executed = some x)
    (full : Saturated server.endpoint.ledger) : (server.next a).endpoint = server.endpoint := by
  obtain ⟨r, _, _, fresh, same, moved⟩ := executed_inv ran
  rw [moved]
  obtain ⟨answer, asked, recording⟩ := server.endpoint.recording_of_entry x.call_entry
  have unknown : server.endpoint.ledger.entries x.requestId = none := by
    rw [same]
    exact classify_fresh_iff.mp fresh
  apply HostTransportEndpoint.next_eq_of_refused
  rw [asked]
  generalize (server.endpoint.next x.call).ledger = after at recording
  cases recording with
  | alreadyPresent => exact .inr rfl
  | rejectedLedgerFull => exact .inl rfl
  | inserted _ room => exact absurd full.1 (by omega)
  | evicted _ _ before oldest after split _ loose =>
    exact absurd (full.2 oldest (by rw [split]; simp)) loose

theorem new_established {capacity : Nat} {endpoint : HostTransportEndpoint}
    (opened : HostTransportEndpoint.new capacity = .ok endpoint) (sessionId : String)
    (recovery : Option Store.DurableRecoveryStore) :
    Established ⟨sessionId, endpoint, recovery⟩ :=
  .inl (HostTransportEndpoint.new_ok opened).2.2

/-- An `Ambiguous` outcome of a plain request protects its id for the rest of
the session exactly when the ledger was not saturated as the frame arrived. -/
theorem unresolved_request_never_reexecuted_iff {capacity : Nat} {endpoint : HostTransportEndpoint}
    (opened : HostTransportEndpoint.new capacity = .ok endpoint) (sessionId : String)
    (recovery : Option Store.DurableRecoveryStore) (before : List Arrival) (a : Arrival)
    (x : Execution) (text : String)
    (ran : ((run next ⟨sessionId, endpoint, recovery⟩ before).report a).executed = some x)
    (plain : x.descriptor = none) (ambiguous : x.outcome = .ambiguous text) :
    (∀ middle b y,
      ((run next ((run next ⟨sessionId, endpoint, recovery⟩ before).next a) middle).report b).executed =
        some y → y.descriptor = none → y.requestId ≠ x.requestId) ↔
    ¬ Saturated (run next ⟨sessionId, endpoint, recovery⟩ before).endpoint.ledger := by
  have established := run_established (new_established opened sessionId recovery) before
  generalize run next ⟨sessionId, endpoint, recovery⟩ before = server at ran established ⊢
  constructor
  · intro guarded full
    obtain ⟨r, request, own, fresh, same, _⟩ := executed_inv ran
    have still := saturated_next ran full
    have again : ((server.next a).report a).executed = some (r.execution a.env) := by
      refine executed_of_fresh request ?_ ?_ ?_
      · rw [sessionOk_iff, still, ← sessionOk_iff]
        exact own
      · rw [still]
        exact fresh
      · rw [same] at plain
        exact plain
    rw [← same] at again
    exact guarded [] a x again plain rfl
  · intro room middle b y later _ same
    have recorded := executed_recorded ran room
    have pinned : (server.next a).endpoint.ledger.Pinned x.requestId :=
      ⟨_, text, recorded, ambiguous, by rw [plain]; rfl⟩
    have kept := pinned_kept (established_next established).1 recorded pinned middle
    obtain ⟨r, _, _, fresh, eq, _⟩ := executed_inv later
    have unknown := classify_fresh_iff.mp fresh
    rw [eq] at same
    rw [← same] at kept
    exact nomatch unknown.symm.trans kept

def lossyFrame (payload : String) : Arrival :=
  ⟨⟨fun _ _ _ => .ambiguous "lost", none, true, true, true⟩, payload⟩

theorem unresolved_request_recorded :
    ¬ ∃ y, ((run next (smallServer 2 (by decide)) [lossyFrame "HELLO|zonkey.host-transport/1",
      lossyFrame "REQ|s1|r1|Inactive|c1", lossyFrame "REQ|s1|r2|Inactive|c2"]).report
        (lossyFrame "REQ|s1|r1|Inactive|c1")).executed = some y ∧ y.descriptor = none ∧
          y.requestId = "r1" := by
  have opened : HostTransportEndpoint.new 2 = .ok (smallServer 2 (by decide)).endpoint := rfl
  have ran : ((run next (smallServer 2 (by decide))
      [lossyFrame "HELLO|zonkey.host-transport/1"]).report
        (lossyFrame "REQ|s1|r1|Inactive|c1")).executed =
          some ⟨"r1", "Inactive", "c1", none, .ambiguous "lost"⟩ := by rfl
  rintro ⟨y, later, plain, same⟩
  refine (unresolved_request_never_reexecuted_iff opened "s1" none
    [lossyFrame "HELLO|zonkey.host-transport/1"] (lossyFrame "REQ|s1|r1|Inactive|c1") _ "lost" ran
      rfl rfl).mpr ?_ [lossyFrame "REQ|s1|r2|Inactive|c2"] _ y later plain same
  intro full
  exact absurd full.1 (by decide)

/-- Two plain requests are lost under a ledger of one entry: the second is not
recorded, its answer is given all the same, and sent again it runs again. -/
theorem unresolved_request_reexecuted :
    ((run next (smallServer 1 (by decide)) [lossyFrame "HELLO|zonkey.host-transport/1",
      lossyFrame "REQ|s1|r1|Inactive|c1"]).report (lossyFrame "REQ|s1|r2|Inactive|c2")).executed.map
        (fun x => (x.requestId, x.outcome)) = some ("r2", .ambiguous "lost") ∧
    ((run next (smallServer 1 (by decide)) [lossyFrame "HELLO|zonkey.host-transport/1",
      lossyFrame "REQ|s1|r1|Inactive|c1", lossyFrame "REQ|s1|r2|Inactive|c2"]).report
        (lossyFrame "REQ|s1|r2|Inactive|c2")).executed.map
          (fun x => (x.requestId, x.outcome)) = some ("r2", .ambiguous "lost") :=
  ⟨rfl, rfl⟩

theorem report_of_retained {r : WireRequest} {entry : LedgerEntry}
    (request : frameRequest a.payload = some r) (own : server.sessionOk r.session = true)
    (known : server.endpoint.ledger.entries r.requestId = some entry) :
    server.report a = answer a.env (outcomePayload (if entry.canonical = r.canonical
      then entry.outcome else .definite "request_id_reuse")) none := by
  have classified : server.endpoint.classifyRequest r.requestId r.canonical =
      if entry.canonical = r.canonical then .duplicate entry.outcome else .conflict := by
    change server.endpoint.ledger.classify r.requestId r.canonical = _
    unfold BoundedRequestLedger.classify
    rw [known]
  rcases report_of_request request own with ⟨recorded, same, eq⟩ | ⟨conflict, eq⟩ | ⟨fresh, _⟩
  · rw [classified] at same
    split_ifs at same ⊢
    cases same
    exact eq
  · rw [classified] at conflict
    split_ifs at conflict ⊢
    exact eq
  · rw [classified] at fresh
    split_ifs at fresh

/-- A duplicate replays the outcome of an earlier frame with the same id and
the same canonical tail; a retained id with another tail is refused. -/
theorem duplicates_share_canonical {capacity : Nat} {endpoint : HostTransportEndpoint}
    (opened : HostTransportEndpoint.new capacity = .ok endpoint) (sessionId : String)
    (recovery : Option Store.DurableRecoveryStore) (before : List Arrival) (b : Arrival)
    (r : WireRequest) (request : frameRequest b.payload = some r)
    (own : (run next ⟨sessionId, endpoint, recovery⟩ before).sessionOk r.session = true) :
    let s := run next ⟨sessionId, endpoint, recovery⟩ before
    (∀ outcome, s.endpoint.classifyRequest r.requestId r.canonical = .duplicate outcome →
      s.report b = answer b.env (outcomePayload outcome) none ∧
      ∃ first c rest e x, before = first ++ c :: rest ∧ frameRequest c.payload = some e ∧
        ((run next ⟨sessionId, endpoint, recovery⟩ first).report c).executed = some x ∧
        x.outcome = outcome ∧ e.requestId = r.requestId ∧ e.canonical = r.canonical) ∧
    ∀ entry, s.endpoint.ledger.entries r.requestId = some entry → entry.canonical ≠ r.canonical →
      s.report b = answer b.env (outcomePayload (.definite "request_id_reuse")) none := by
  intro s
  refine ⟨fun outcome duplicate => ?_, fun entry known other => ?_⟩
  · have empty : endpoint.ledger.entries r.requestId = none := by
      rw [(HostTransportEndpoint.new_ok opened).1]
      rfl
    cases known : s.endpoint.ledger.entries r.requestId with
    | none =>
      rw [classify_fresh_iff.mpr known] at duplicate
      cases duplicate
    | some entry =>
      change s.endpoint.ledger.classify r.requestId r.canonical = _ at duplicate
      unfold BoundedRequestLedger.classify at duplicate
      rw [known] at duplicate
      dsimp only at duplicate
      split at duplicate
      · rename_i same
        cases duplicate
        refine ⟨?_, ?_⟩
        · rw [report_of_retained request own known, if_pos same]
        · obtain ⟨first, c, rest, x, eq, ran, named, stands⟩ := entry_executed empty known
          obtain ⟨e, earlier, _, _, made, _⟩ := executed_inv ran
          refine ⟨first, c, rest, e, x, eq, earlier, ran, by rw [stands], ?_, ?_⟩
          · rw [made] at named
            exact named
          · rw [stands, made] at same
            exact same
      · cases duplicate
  · rw [report_of_retained request own known, if_neg other]

def appliedFrame (payload : String) : Arrival :=
  ⟨⟨fun _ _ _ => .definite "applied", none, true, true, true⟩, payload⟩

theorem duplicates_share_canonical_resent :
    ∃ first c rest e x, [appliedFrame "HELLO|zonkey.host-transport/1",
        appliedFrame "REQ|s1|r1|Inactive|c"] = first ++ c :: rest ∧
      frameRequest c.payload = some e ∧
      ((run next (smallServer 1 (by decide)) first).report c).executed = some x ∧
      x.outcome = .definite "applied" ∧ e.requestId = "r1" ∧ e.canonical = "c" := by
  have opened : HostTransportEndpoint.new 1 = .ok (smallServer 1 (by decide)).endpoint := rfl
  have request : frameRequest "REQ|s1|r1|Inactive|c" = some ⟨"s1", "r1", "Inactive", "c", none⟩ :=
    rfl
  exact ((duplicates_share_canonical opened "s1" none [appliedFrame "HELLO|zonkey.host-transport/1",
    appliedFrame "REQ|s1|r1|Inactive|c"] (appliedFrame "REQ|s1|r1|Inactive|c") _ request
      rfl).1 (.definite "applied") rfl).2

def replayServer (arrivals : List Arrival) : PipeServer :=
  run next (smallServer 1 (by decide)) (appliedFrame "HELLO|zonkey.host-transport/1" :: arrivals)

/-- A descriptor request that repeats id and tail of a plain one is answered
with the outcome of the plain one; and an evicted id runs again under another tail. -/
theorem different_requests_replayed :
    frameRequest "REQX|s1|r1|Active|file:///a|0|6|resume|restored|0|7|c" ≠
      frameRequest "REQ|s1|r1|Inactive|c" ∧
    ((replayServer [appliedFrame "REQ|s1|r1|Inactive|c"]).report
      (appliedFrame "REQX|s1|r1|Active|file:///a|0|6|resume|restored|0|7|c")).sent =
        some "RESULT|DEFINITE|applied" ∧
    ((replayServer [appliedFrame "REQ|s1|r1|Inactive|c"]).report
      (appliedFrame "REQX|s1|r1|Active|file:///a|0|6|resume|restored|0|7|c")).executed.isNone = true ∧
    ((replayServer [appliedFrame "REQ|s1|r1|Inactive|c", appliedFrame "REQ|s1|r2|Inactive|c"]).report
      (appliedFrame "REQ|s1|r1|Inactive|other")).executed.isSome = true := by
  decide +kernel

end PipeServer
end ZonKey.Pipe

import ZonKey.PipeReplay

set_option autoImplicit false

namespace ZonKey.Pipe
open Transport Runs Digest

def Fits (text : String) : Prop := (asBytes text).length ≤ maxFrameBytes

theorem writeFrame_iff {env : FrameEnvironment} (writes : env.delivery = true) {text : String}
    (nonempty : text ≠ "") : writeFrame env text = true ↔ Fits text := by
  have positive : (asBytes text).length ≠ 0 := by
    rw [ne_eq, List.length_eq_zero_iff, asBytes_eq_nil]
    exact nonempty
  unfold writeFrame encodeFrame Fits
  simp only [positive, ↓reduceIte]
  by_cases long : maxFrameBytes < (asBytes text).length
  · simp [long]
  · simp [long, writes, Nat.le_of_not_lt long]

theorem append_ne_empty {a b : String} (h : a ≠ "") : a ++ b ≠ "" := by
  intro empty
  rw [← asBytes_eq_nil, asBytes_append, List.append_eq_nil_iff] at empty
  exact h (asBytes_eq_nil.mp empty.1)

theorem outcomePayload_ne_empty (outcome : LedgerOutcome) : outcomePayload outcome ≠ "" := by
  cases outcome with
  | definite text => exact append_ne_empty (by decide)
  | ambiguous text => exact append_ne_empty (by decide)

def FrameReport.response (report : FrameReport) : Option String :=
  if report.delivered then report.sent else none

namespace PipeServer

def RefusedHello (server : PipeServer) (payload : String) : Prop :=
  ∃ protocol, frameBody payload = .hello protocol ∧
    (protocol ≠ transportProtocolId ∨ server.sessionId = "")

/-- The frame gets exactly one response and the connection goes on. -/
def Answers (server : PipeServer) (a : Arrival) : Prop :=
  WellFormed a.payload ∧ ¬ server.RefusedHello a.payload ∧
    ∃ text, (server.report a).response = some text

/-- The frame ends the connection: malformed or unknown and unanswered, a
refused hello with its one error response, or an answer beyond the frame limit. -/
def Closes (server : PipeServer) (a : Arrival) : Prop :=
  (¬ WellFormed a.payload ∧ (server.report a).response = none) ∨
  (server.RefusedHello a.payload ∧
    (server.report a).response = some "ERROR|protocol_mismatch") ∨
  ∃ text, (server.report a).sent = some text ∧ ¬ Fits text ∧ (server.report a).response = none

variable {server : PipeServer} {a : Arrival}

theorem answer_of_fits {env : FrameEnvironment} (writes : env.delivery = true) {text : String}
    (nonempty : text ≠ "") (fits : Fits text) (executed : Option Execution) :
    (answer env text executed).response = some text ∧
      (answer env text executed).keepsOpen = true := by
  have written := (writeFrame_iff writes nonempty).mpr fits
  simp [answer, FrameReport.response, written]

theorem answer_of_not_fits {env : FrameEnvironment} (writes : env.delivery = true) {text : String}
    (nonempty : text ≠ "") (long : ¬ Fits text) (executed : Option Execution) :
    (answer env text executed).response = none ∧
      (answer env text executed).keepsOpen = false := by
  rw [← writeFrame_iff writes nonempty, Bool.not_eq_true] at long
  simp [answer, FrameReport.response, long]

theorem acceptHello_ok_iff {endpoint : HostTransportEndpoint} {protocol session : String} :
    (∃ restart, (endpoint.acceptHello protocol session).1 = .ok restart) ↔
      protocol = transportProtocolId ∧ session ≠ "" := by
  unfold HostTransportEndpoint.acceptHello
  split
  · rename_i invalid
    refine ⟨nofun, fun ⟨same, named⟩ => ?_⟩
    rcases invalid with empty | unnamed
    · rw [empty] at same
      exact absurd same (by decide)
    · exact absurd unnamed named
  · rename_i valid
    split
    · rename_i other
      exact ⟨nofun, fun h => absurd h.1 other⟩
    · rename_i same
      exact ⟨fun _ => ⟨not_not.mp same, fun unnamed => valid (.inr unnamed)⟩, fun _ => ⟨_, rfl⟩⟩

theorem wellFormed_of_query {payload : String} (query : IsQuery payload) : WellFormed payload := by
  unfold WellFormed
  obtain ⟨_, body⟩ | ⟨_, body⟩ := query <;> simp [body]

theorem not_refused_of_request {payload : String} {r : WireRequest}
    (request : frameRequest payload = some r) : ¬ server.RefusedHello payload := by
  rintro ⟨protocol, body, _⟩
  rw [frameRequest_hello body] at request
  cases request

theorem not_refused_of_query {payload : String} (query : IsQuery payload) :
    ¬ server.RefusedHello payload := by
  rintro ⟨protocol, body, _⟩
  exact hello_of_query query protocol body

theorem answers_or_closes_of_answer (writes : a.env.delivery = true) {text : String}
    (nonempty : text ≠ "") (formed : WellFormed a.payload)
    (accepted : ¬ server.RefusedHello a.payload) {executed : Option Execution}
    (answered : server.report a = answer a.env text executed) :
    (server.Answers a ∧ (server.report a).keepsOpen = true) ∨
      (server.Closes a ∧ (server.report a).keepsOpen = false) := by
  unfold Answers Closes
  rw [answered]
  by_cases fits : Fits text
  · obtain ⟨response, stays⟩ := answer_of_fits writes nonempty fits executed
    exact .inl ⟨⟨formed, accepted, text, response⟩, stays⟩
  · obtain ⟨response, ends⟩ := answer_of_not_fits writes nonempty fits executed
    exact .inr ⟨.inr (.inr ⟨text, rfl, fits, response⟩), ends⟩

theorem answers_or_closes (writes : a.env.delivery = true) :
    (server.Answers a ∧ (server.report a).keepsOpen = true) ∨
      (server.Closes a ∧ (server.report a).keepsOpen = false) := by
  have handled := serveFrame_handled server a
  generalize answered : server.report a = report at handled
  rw [← answered]
  generalize server.next a = after at handled
  cases handled with
  | malformed bad =>
    rw [Closes, answered]
    exact .inr ⟨.inl ⟨bad, rfl⟩, rfl⟩
  | welcomed protocol body restart accepted =>
    have named := acceptHello_ok_iff.mp ⟨restart, accepted⟩
    refine answers_or_closes_of_answer writes (append_ne_empty (by decide))
      (by simp [WellFormed, body]) ?_ answered
    rintro ⟨other, same, refused⟩
    rw [body] at same
    cases same
    exact refused.elim (fun h => h named.1) named.2
  | refused protocol body error rejected =>
    have written : writeFrame a.env "ERROR|protocol_mismatch" = true :=
      (writeFrame_iff writes (by decide)).mpr (by unfold Fits; decide)
    rw [Closes, answered]
    refine .inr ⟨.inr (.inl ⟨⟨protocol, body, ?_⟩, ?_⟩), rfl⟩
    · by_contra valid
      rw [not_or, not_not] at valid
      obtain ⟨restart, accepted⟩ := acceptHello_ok_iff.mpr valid
      rw [rejected] at accepted
      cases accepted
    · simp [FrameReport.response, answer, written]
  | queried query text nonempty =>
    exact answers_or_closes_of_answer writes nonempty (wellFormed_of_query query)
      (not_refused_of_query query) answered
  | mismatched r request =>
    exact answers_or_closes_of_answer writes (by decide) (wellFormed_of_request request)
      (not_refused_of_request request) answered
  | replayed r request | reused r request | refusedFresh r request | executed r request =>
    exact answers_or_closes_of_answer writes (outcomePayload_ne_empty _)
      (wellFormed_of_request request) (not_refused_of_request request) answered

def reports (server : PipeServer) : List Arrival → List FrameReport
  | [] => []
  | a :: rest => server.report a :: (server.next a).reports rest

theorem serveConnection_cons (server : PipeServer) (a : Arrival) (rest : List Arrival) :
    server.serveConnection (a :: rest) =
      if (server.report a).keepsOpen then
        ((server.next a).serveConnection rest).map (server.report a :: ·) id
      else ([server.report a], server.next a) := rfl

theorem serveConnection_dialogue (server : PipeServer) {arrivals : List Arrival}
    (writes : ∀ a ∈ arrivals, a.env.delivery = true) :
    ∃ answered rest, arrivals = answered ++ rest ∧ AllSteps next Answers server answered ∧
      ((rest = [] ∧ server.serveConnection arrivals =
          (server.reports answered, run next server answered)) ∨
        ∃ a after, rest = a :: after ∧ (run next server answered).Closes a ∧
          server.serveConnection arrivals =
            (server.reports answered ++ [(run next server answered).report a],
              (run next server answered).next a)) := by
  induction arrivals generalizing server with
  | nil => exact ⟨[], [], rfl, trivial, .inl ⟨rfl, rfl⟩⟩
  | cons a rest ih =>
    obtain ⟨first, later⟩ := List.forall_mem_cons.mp writes
    rw [serveConnection_cons]
    rcases answers_or_closes first with ⟨answers, stays⟩ | ⟨closes, ends⟩
    · obtain ⟨answered, more, eq, all, served⟩ := ih (server.next a) later
      rw [if_pos stays]
      refine ⟨a :: answered, more, by rw [eq, List.cons_append], ⟨answers, all⟩, ?_⟩
      rcases served with ⟨done, result⟩ | ⟨b, after, split, closes, result⟩
      · exact .inl ⟨done, by rw [result]; rfl⟩
      · exact .inr ⟨b, after, split, closes, by rw [result]; rfl⟩
    · rw [if_neg (by rw [ends]; exact Bool.false_ne_true)]
      exact ⟨[], a :: rest, rfl, trivial, .inr ⟨a, rest, rfl, closes, rfl⟩⟩

theorem responses_of_answers {arrivals : List Arrival} (all : AllSteps next Answers server arrivals) :
    ((server.reports arrivals).filterMap FrameReport.response).length = arrivals.length := by
  induction arrivals generalizing server with
  | nil => rfl
  | cons a rest ih =>
    obtain ⟨⟨_, _, text, response⟩, later⟩ := all
    rw [reports, List.filterMap_cons_some response, List.length_cons, ih later, List.length_cons]

theorem executed_request {x : Execution} (ran : (server.report a).executed = some x) :
    ∃ r, frameRequest a.payload = some r ∧ x = r.execution a.env ∧
      server.endpoint.sessionId = some r.session := by
  have handled := serveFrame_handled server a
  generalize server.report a = report at handled ran
  generalize server.next a = after at handled
  cases handled with
  | malformed | welcomed | refused | queried | mismatched | replayed | reused | refusedFresh =>
    cases ran
  | executed r request own =>
    cases ran
    exact ⟨r, request, rfl, sessionOk_iff.mp own⟩

theorem report_of_executed {x : Execution} (ran : (server.report a).executed = some x) :
    server.report a = answer a.env (outcomePayload x.outcome) (some x) := by
  have handled := serveFrame_handled server a
  generalize server.report a = report at handled ran ⊢
  generalize server.next a = after at handled
  cases handled with
  | malformed | welcomed | refused | queried | mismatched | replayed | reused | refusedFresh =>
    cases ran
  | executed r request own =>
    cases ran
    rfl

theorem established_by_hello {start : PipeServer} (unbound : start.endpoint.sessionId = none)
    {arrivals : List Arrival} (bound : (run next start arrivals).endpoint.sessionId ≠ none) :
    ∃ hello ∈ arrivals, frameBody hello.payload = .hello transportProtocolId := by
  rcases last_established (fun s : PipeServer => s.endpoint.sessionId ≠ none) start arrivals bound
    with ⟨initial, _⟩ | ⟨before, c, after, eq, was, now, _⟩
  · exact absurd unbound initial
  · refine ⟨c, by rw [eq]; simp, ?_⟩
    have moved := (next_endpoint (run next start before) c).2
    rw [not_not] at was
    rw [moved] at now
    cases called : (run next start before).call c with
    | none =>
      rw [called] at now
      exact absurd was now
    | some d =>
      rw [called] at now
      unfold call at called
      cases body : frameBody c.payload with
      | hello protocol =>
        rw [body] at called
        cases called
        cases accepted : ((run next start before).endpoint.acceptHello protocol
            (run next start before).sessionId).1 with
        | ok restart => rw [(acceptHello_ok_iff.mp ⟨restart, accepted⟩).1]
        | error error =>
          refine absurd ?_ now
          simp only [Option.elim, HostTransportEndpoint.next, acceptHello_error accepted]
          exact was
      | recovery | handoff | req | reqx | unknown =>
        rw [body] at called
        obtain ⟨x, _, rfl⟩ := Option.map_eq_some_iff.mp called
        refine absurd ?_ now
        have same : ((run next start before).endpoint.next x.call).sessionId =
            (run next start before).endpoint.sessionId := by
          unfold Execution.call
          cases x.descriptor <;> rfl
        exact same.trans was

theorem ledger_kept (idle : IsQuery a.payload ∨ ∃ r, frameRequest a.payload = some r ∧
    server.sessionOk r.session = false) :
    (server.next a).endpoint.ledger = server.endpoint.ledger := by
  have handled := serveFrame_handled server a
  generalize server.report a = report at handled
  generalize server.next a = after at handled ⊢
  have foreign : ∀ {r}, frameRequest a.payload = some r → server.sessionOk r.session = false := by
    intro r request
    rcases idle with query | ⟨s, other, foreign⟩
    · rw [frameRequest_query query] at request
      cases request
    · rw [request] at other
      cases other
      exact foreign
  cases handled with
  | malformed | refused | mismatched | replayed | reused => rfl
  | queried _ _ _ _ _ endpoint | refusedFresh _ _ _ _ _ _ _ _ endpoint => rw [endpoint]
  | executed r request own =>
    rw [foreign request] at own
    cases own
  | welcomed protocol body =>
    rcases idle with query | ⟨r, request, _⟩
    · exact absurd body (hello_of_query query protocol)
    · rw [frameRequest_hello body] at request
      cases request

/-- The discipline of a connection whose endpoint has served any frames before. -/
theorem connection_discipline {capacity : Nat} {endpoint : HostTransportEndpoint}
    (opened : HostTransportEndpoint.new capacity = .ok endpoint) (sessionId : String)
    (recovery : Option Store.DurableRecoveryStore) (history arrivals : List Arrival)
    (writes : ∀ a ∈ arrivals, a.env.delivery = true) :
    let start := run next ⟨sessionId, endpoint, recovery⟩ history
    (∃ answered rest, arrivals = answered ++ rest ∧ AllSteps next Answers start answered ∧
      ((start.reports answered).filterMap FrameReport.response).length = answered.length ∧
      ((rest = [] ∧ start.serveConnection arrivals =
          (start.reports answered, run next start answered)) ∨
        ∃ a after, rest = a :: after ∧ (run next start answered).Closes a ∧
          start.serveConnection arrivals =
            (start.reports answered ++ [(run next start answered).report a],
              (run next start answered).next a))) ∧
    ∀ before a after, arrivals = before ++ a :: after →
      (∀ x, ((run next start before).report a).executed = some x →
        ∃ r, frameRequest a.payload = some r ∧ x = r.execution a.env ∧ r.session = sessionId ∧
          (run next start before).endpoint.sessionId = some r.session ∧
          ∃ hello ∈ history ++ before, frameBody hello.payload = .hello transportProtocolId) ∧
      ((IsQuery a.payload ∨ ∃ r, frameRequest a.payload = some r ∧
          (run next start before).sessionOk r.session = false) →
        ((run next start before).next a).endpoint.ledger =
          (run next start before).endpoint.ledger) := by
  intro start
  have unbound := (HostTransportEndpoint.new_ok opened).2.2
  refine ⟨?_, fun before a after eq => ⟨fun x ran => ?_, ledger_kept⟩⟩
  · obtain ⟨answered, rest, eq, all, served⟩ := start.serveConnection_dialogue writes
    exact ⟨answered, rest, eq, all, responses_of_answers all, served⟩
  · obtain ⟨r, request, made, bound⟩ := executed_request ran
    have joined : run next start before =
        run next ⟨sessionId, endpoint, recovery⟩ (history ++ before) := (run_append _ _ _).symm
    rw [joined] at bound ⊢
    have hello := established_by_hello unbound (by rw [bound]; exact Option.some_ne_none _)
    have own : r.session = sessionId := by
      have established := run_established (.inl unbound : Established ⟨sessionId, endpoint, recovery⟩)
        (history ++ before)
      have fixed : (run next ⟨sessionId, endpoint, recovery⟩ (history ++ before)).sessionId =
          sessionId := run_keeps (fun s : PipeServer => s.sessionId = sessionId)
            (fun s c same => (next_endpoint s c).1.trans same) rfl _
      rcases established with none | same
      · rw [bound] at none
        cases none
      · rw [bound, fixed] at same
        exact Option.some.inj same
    exact ⟨r, request, made, own, bound, hello⟩

theorem connection_discipline_one_request :
    ∃ hello ∈ [appliedFrame "HELLO|zonkey.host-transport/1"],
      frameBody hello.payload = .hello transportProtocolId := by
  have opened : HostTransportEndpoint.new 1 = .ok (smallServer 1 (by decide)).endpoint := rfl
  have writes : ∀ a ∈ [appliedFrame "HELLO|zonkey.host-transport/1",
      appliedFrame "REQ|s1|r1|Inactive|c"], a.env.delivery = true := by
    simp [appliedFrame]
  have ran : ((run next (smallServer 1 (by decide))
      [appliedFrame "HELLO|zonkey.host-transport/1"]).report
        (appliedFrame "REQ|s1|r1|Inactive|c")).executed =
          some ⟨"r1", "Inactive", "c", none, .definite "applied"⟩ := by rfl
  have discipline := connection_discipline opened "s1" none [] _ writes
  obtain ⟨_, _, _, _, _, hello⟩ :=
    (discipline.2 [appliedFrame "HELLO|zonkey.host-transport/1"] _ [] rfl).1 _ ran
  exact hello

def longText : Nat → String
  | 0 => "x"
  | n + 1 => longText n ++ longText n

theorem longText_length (n : Nat) : (asBytes (longText n)).length = 2 ^ n := by
  induction n with
  | zero => rfl
  | succ n ih =>
    rw [longText, asBytes_append, List.length_append, ih]
    omega

def longAnswer (payload : String) : Arrival :=
  ⟨⟨fun _ _ _ => .definite (longText 16), none, true, true, true⟩, payload⟩

/-- All writes succeed, but the answer does not fit into a frame: the request
has run, and the connection ends without a response to it. -/
theorem oversized_answer_unanswered :
    (frameRequest "REQ|s1|r1|Inactive|c").isSome = true ∧
      (longAnswer "REQ|s1|r1|Inactive|c").env.delivery = true ∧
      ((replayServer []).report (longAnswer "REQ|s1|r1|Inactive|c")).executed.isSome = true ∧
      ((replayServer []).report (longAnswer "REQ|s1|r1|Inactive|c")).response = none ∧
      ((replayServer []).report (longAnswer "REQ|s1|r1|Inactive|c")).keepsOpen = false := by
  have request : frameRequest "REQ|s1|r1|Inactive|c" = some ⟨"s1", "r1", "Inactive", "c", none⟩ :=
    rfl
  have ran : ((replayServer []).report (longAnswer "REQ|s1|r1|Inactive|c")).executed =
      some (WireRequest.execution _ (longAnswer "REQ|s1|r1|Inactive|c").env) :=
    executed_of_fresh request (by decide) (by decide) rfl
  have long : ¬ Fits (outcomePayload (.definite (longText 16))) := by
    unfold Fits outcomePayload
    rw [asBytes_append, List.length_append, longText_length]
    decide
  have started : ((replayServer []).report (longAnswer "REQ|s1|r1|Inactive|c")).executed.isSome =
      true := by
    rw [ran]
    rfl
  have writes : (longAnswer "REQ|s1|r1|Inactive|c").env.delivery = true := by
    unfold longAnswer
    rfl
  refine ⟨by rw [request]; rfl, writes, started, ?_⟩
  rw [report_of_executed ran]
  exact answer_of_not_fits writes (outcomePayload_ne_empty _) long _

end PipeServer
end ZonKey.Pipe

import ZonKey.LedgerContract
import ZonKey.PipeTransport

set_option autoImplicit false

namespace ZonKey.Pipe
open Transport Runs

/-- A request frame of either kind; a plain one carries no descriptor. -/
structure WireRequest where
  session : String
  requestId : String
  composition : String
  canonical : String
  descriptor : Option Recovery.RecoveryDescriptor
  deriving DecidableEq

def frameRequest (payload : String) : Option WireRequest :=
  match frameBody payload with
  | .req body => (parseRequest body).map fun r =>
      ⟨r.session, r.requestId, r.composition, r.canonical, none⟩
  | .reqx body => (parseDescriptorRequest body).map fun r =>
      ⟨r.session, r.descriptor.requestId, r.composition, r.canonical, some r.descriptor⟩
  | _ => none

def WellFormed (payload : String) : Prop :=
  match frameBody payload with
  | .hello _ | .recovery _ | .handoff _ => True
  | .req _ | .reqx _ => (frameRequest payload).isSome
  | .unknown => False

def IsQuery (payload : String) : Prop :=
  (∃ command, frameBody payload = .recovery command) ∨ ∃ session, frameBody payload = .handoff session

theorem frameRequest_hello {payload protocol : String} (body : frameBody payload = .hello protocol) :
    frameRequest payload = none := by
  simp [frameRequest, body]

theorem frameRequest_query {payload : String} (query : IsQuery payload) :
    frameRequest payload = none := by
  obtain ⟨_, body⟩ | ⟨_, body⟩ := query <;> simp [frameRequest, body]

theorem hello_of_query {payload : String} (query : IsQuery payload) (protocol : String) :
    frameBody payload ≠ .hello protocol := by
  intro body
  obtain ⟨_, other⟩ | ⟨_, other⟩ := query <;> rw [body] at other <;> cases other

theorem wellFormed_of_request {payload : String} {r : WireRequest}
    (request : frameRequest payload = some r) : WellFormed payload := by
  unfold WellFormed
  cases body : frameBody payload with
  | unknown => simp [frameRequest, body] at request
  | req | reqx => simp [request]
  | hello | recovery | handoff => trivial

namespace WireRequest

def execution (r : WireRequest) (env : FrameEnvironment) : Execution :=
  ⟨r.requestId, r.composition, r.canonical, r.descriptor,
    env.handler r.requestId r.composition r.canonical⟩

end WireRequest

/-- The recording that an execution asks of the endpoint. -/
def Execution.call (x : Execution) : EndpointCall :=
  match x.descriptor with
  | none => .record x.requestId x.canonical x.outcome
  | some _ => .recordWithRecovery x.requestId x.canonical x.outcome

namespace PipeServer

/-- All that one frame can lead to: the answer, the execution and the server after it. -/
inductive Handled (server : PipeServer) (env : FrameEnvironment) (payload : String) :
    FrameReport → PipeServer → Prop where
  | malformed (bad : ¬ WellFormed payload) : Handled server env payload dropped server
  | welcomed (protocol : String) (body : frameBody payload = .hello protocol) (restart : Bool)
      (accepted : (server.endpoint.acceptHello protocol server.sessionId).1 = .ok restart) :
      Handled server env payload (answer env ("WELCOME|" ++ server.sessionId) none)
        { server with endpoint := (server.endpoint.acceptHello protocol server.sessionId).2 }
  | refused (protocol : String) (body : frameBody payload = .hello protocol) (error : TransportError)
      (rejected : (server.endpoint.acceptHello protocol server.sessionId).1 = .error error) :
      Handled server env payload
        { answer env "ERROR|protocol_mismatch" none with keepsOpen := false } server
  | queried (query : IsQuery payload) (text : String) (nonempty : text ≠ "") (next : PipeServer)
      (session : next.sessionId = server.sessionId) (endpoint : next.endpoint = server.endpoint) :
      Handled server env payload (answer env text none) next
  | mismatched (r : WireRequest) (request : frameRequest payload = some r)
      (foreign : server.sessionOk r.session = false) :
      Handled server env payload (answer env "ERROR|session_mismatch" none) server
  | replayed (r : WireRequest) (request : frameRequest payload = some r)
      (own : server.sessionOk r.session = true) (recorded : LedgerOutcome)
      (known : server.endpoint.classifyRequest r.requestId r.canonical = .duplicate recorded) :
      Handled server env payload (answer env (outcomePayload recorded) none) server
  | reused (r : WireRequest) (request : frameRequest payload = some r)
      (own : server.sessionOk r.session = true)
      (conflict : server.endpoint.classifyRequest r.requestId r.canonical = .conflict) :
      Handled server env payload (answer env (outcomePayload (.definite "request_id_reuse")) none)
        server
  | refusedFresh (r : WireRequest) (request : frameRequest payload = some r)
      (own : server.sessionOk r.session = true)
      (fresh : server.endpoint.classifyRequest r.requestId r.canonical = .fresh)
      (carried : r.descriptor ≠ none) (reason : String) (next : PipeServer)
      (session : next.sessionId = server.sessionId) (endpoint : next.endpoint = server.endpoint) :
      Handled server env payload (answer env (outcomePayload (.definite reason)) none) next
  | executed (r : WireRequest) (request : frameRequest payload = some r)
      (own : server.sessionOk r.session = true)
      (fresh : server.endpoint.classifyRequest r.requestId r.canonical = .fresh) (next : PipeServer)
      (session : next.sessionId = server.sessionId)
      (endpoint : next.endpoint = server.endpoint.next (r.execution env).call) :
      Handled server env payload
        (answer env (outcomePayload (r.execution env).outcome) (some (r.execution env))) next

variable {server : PipeServer} {env : FrameEnvironment} {payload : String}

theorem acceptHello_error {endpoint : HostTransportEndpoint} {protocol session : String}
    {error : TransportError} (h : (endpoint.acceptHello protocol session).1 = .error error) :
    (endpoint.acceptHello protocol session).2 = endpoint := by
  unfold HostTransportEndpoint.acceptHello at h ⊢
  split
  · rfl
  · split
    · rfl
    · simp_all

theorem serveHello_handled {protocol : String} (body : frameBody payload = .hello protocol) :
    Handled server env payload (server.serveHello env protocol).1
      (server.serveHello env protocol).2 := by
  unfold serveHello
  split
  · rename_i restart endpoint eq
    have accepted := congrArg Prod.fst eq
    have after := congrArg Prod.snd eq
    dsimp only at accepted after
    rw [← after]
    exact .welcomed protocol body restart accepted
  · rename_i error endpoint eq
    have rejected := congrArg Prod.fst eq
    have after := congrArg Prod.snd eq
    dsimp only at rejected after
    rw [acceptHello_error rejected] at after
    rw [← after]
    exact .refused protocol body error rejected

theorem result_ne_empty (text : String) : "RESULT|DEFINITE|" ++ text ≠ "" := by
  intro empty
  have size := congrArg String.length empty
  rw [String.length_append] at size
  exact absurd size (by simp)

theorem handleRecoveryCommand_endpoint (env : FrameEnvironment) (server : PipeServer)
    (command : String) :
    (server.handleRecoveryCommand env command).2.sessionId = server.sessionId ∧
      (server.handleRecoveryCommand env command).2.endpoint = server.endpoint := by
  unfold handleRecoveryCommand
  split
  · exact ⟨rfl, rfl⟩
  · split
    · exact ⟨rfl, rfl⟩
    · split
      · exact ⟨rfl, rfl⟩
      · split <;> exact ⟨rfl, rfl⟩

theorem serveRecovery_handled {command : String} (body : frameBody payload = .recovery command) :
    Handled server env payload (server.serveRecovery env command).1
      (server.serveRecovery env command).2 := by
  obtain ⟨session, endpoint⟩ := handleRecoveryCommand_endpoint env server command
  exact .queried (.inl ⟨command, body⟩) _ (result_ne_empty _) _ session endpoint

theorem serveHandoff_handled {session : String} (body : frameBody payload = .handoff session) :
    Handled server env payload (server.serveHandoff env session) server := by
  unfold serveHandoff
  split
  · exact .queried (.inr ⟨session, body⟩) _ (by decide) _ rfl rfl
  · exact .queried (.inr ⟨session, body⟩) _ (result_ne_empty _) _ rfl rfl

theorem malformed_of_request {body : String} (family : frameBody payload = .req body ∨
    frameBody payload = .reqx body) (none : frameRequest payload = none) :
    ¬ WellFormed payload := by
  rcases family with family | family <;> simp [WellFormed, family, none]

theorem serveRequest_handled {body : String} (family : frameBody payload = .req body) :
    Handled server env payload (server.serveRequest env body).1 (server.serveRequest env body).2 := by
  unfold serveRequest
  split
  · rename_i unparsed
    exact .malformed (malformed_of_request (.inl family) (by simp [frameRequest, family, unparsed]))
  · rename_i request parsed
    have arrived : frameRequest payload = some
        ⟨request.session, request.requestId, request.composition, request.canonical, none⟩ := by
      simp [frameRequest, family, parsed]
    split
    · rename_i foreign
      exact .mismatched _ arrived (by simpa using foreign)
    · rename_i own
      have own : server.sessionOk request.session = true := by simpa using own
      split
      · rename_i recorded known
        exact .replayed _ arrived own recorded known
      · rename_i conflict
        exact .reused _ arrived own conflict
      · rename_i fresh
        exact .executed _ arrived own fresh _ rfl rfl

theorem serveFresh_eq {request : DescriptorRequest} {outcome : LedgerOutcome}
    {executed : Option Execution} {served : PipeServer}
    (answered : server.executeDescriptorRequest env request = (outcome, executed, served)) :
    ∃ next, server.serveFresh env request = (answer env (outcomePayload outcome) executed, next) ∧
      next.sessionId = served.sessionId ∧ next.endpoint = served.endpoint := by
  unfold serveFresh
  rw [answered]
  dsimp only
  split
  · exact ⟨_, rfl, rfl, rfl⟩
  · exact ⟨_, rfl, rfl, rfl⟩

theorem executeDescriptorRequest_cases (env : FrameEnvironment) (server : PipeServer)
    (request : DescriptorRequest) :
    (∃ reason served, server.executeDescriptorRequest env request =
        (.definite reason, none, served) ∧ served.sessionId = server.sessionId ∧
        served.endpoint = server.endpoint) ∨
    ∃ x served, server.executeDescriptorRequest env request = (x.outcome, some x, served) ∧
      x = ⟨request.descriptor.requestId, request.composition, request.canonical,
        some request.descriptor,
        env.handler request.descriptor.requestId request.composition request.canonical⟩ ∧
      served.sessionId = server.sessionId ∧ served.endpoint = server.endpoint.next x.call := by
  unfold executeDescriptorRequest
  split
  · exact .inl ⟨_, _, rfl, rfl, rfl⟩
  · dsimp only
    split
    · exact .inl ⟨_, _, rfl, rfl, rfl⟩
    · split
      · exact .inl ⟨_, _, rfl, rfl, rfl⟩
      · exact .inr ⟨⟨_, _, _, _, _⟩, _, rfl, rfl, rfl, rfl⟩

theorem serveDescriptorRequest_handled {body : String} (family : frameBody payload = .reqx body) :
    Handled server env payload (server.serveDescriptorRequest env body).1
      (server.serveDescriptorRequest env body).2 := by
  unfold serveDescriptorRequest
  split
  · rename_i unparsed
    exact .malformed (malformed_of_request (.inr family) (by simp [frameRequest, family, unparsed]))
  · rename_i request parsed
    have arrived : frameRequest payload = some ⟨request.session, request.descriptor.requestId,
        request.composition, request.canonical, some request.descriptor⟩ := by
      simp [frameRequest, family, parsed]
    split
    · rename_i foreign
      exact .mismatched _ arrived (by simpa using foreign)
    · rename_i own
      have own : server.sessionOk request.session = true := by simpa using own
      split
      · rename_i recorded known
        exact .replayed _ arrived own recorded known
      · rename_i conflict
        exact .reused _ arrived own conflict
      · rename_i fresh
        obtain ⟨reason, served, answered, session, endpoint⟩ |
          ⟨x, served, answered, rfl, session, endpoint⟩ :=
            executeDescriptorRequest_cases env server request
        · obtain ⟨next, eq, session', endpoint'⟩ := serveFresh_eq answered
          rw [eq]
          exact .refusedFresh _ arrived own fresh nofun reason next (session'.trans session)
            (endpoint'.trans endpoint)
        · obtain ⟨next, eq, session', endpoint'⟩ := serveFresh_eq answered
          rw [eq]
          exact .executed _ arrived own fresh next (session'.trans session)
            (endpoint'.trans endpoint)

theorem serveFrame_handled (server : PipeServer) (a : Arrival) :
    Handled server a.env a.payload (server.report a) (server.next a) := by
  unfold report next serveFrame
  cases body : frameBody a.payload with
  | hello protocol => exact serveHello_handled body
  | recovery command => exact serveRecovery_handled body
  | handoff session => exact serveHandoff_handled body
  | req request => exact serveRequest_handled body
  | reqx request => exact serveDescriptorRequest_handled body
  | unknown => exact .malformed (by simp [WellFormed, body])

theorem sessionOk_iff {session : String} :
    server.sessionOk session = true ↔ server.endpoint.sessionId = some session := by
  unfold sessionOk HostTransportEndpoint.checkSession
  cases server.endpoint.sessionId with
  | none => simp [Except.toBool]
  | some current => by_cases same : current = session <;> simp [same, Except.toBool]

/-- The call on the endpoint that a frame makes, if it makes one. -/
def call (server : PipeServer) (a : Arrival) : Option EndpointCall :=
  match frameBody a.payload with
  | .hello protocol => some (.acceptHello protocol server.sessionId)
  | _ => (server.report a).executed.map Execution.call

theorem call_of_request {a : Arrival} {r : WireRequest} (request : frameRequest a.payload = some r) :
    server.call a = (server.report a).executed.map Execution.call := by
  unfold call
  cases body : frameBody a.payload with
  | hello protocol => rw [frameRequest_hello body] at request; cases request
  | recovery | handoff | req | reqx | unknown => rfl

theorem call_of_query {a : Arrival} (query : IsQuery a.payload) :
    server.call a = (server.report a).executed.map Execution.call := by
  unfold call
  obtain ⟨_, body⟩ | ⟨_, body⟩ := query <;> rw [body]

theorem call_of_malformed {a : Arrival} (bad : ¬ WellFormed a.payload) :
    server.call a = (server.report a).executed.map Execution.call := by
  unfold call
  cases body : frameBody a.payload with
  | hello protocol => exact absurd (by simp [WellFormed, body]) bad
  | recovery | handoff | req | reqx | unknown => rfl

theorem next_endpoint (server : PipeServer) (a : Arrival) :
    (server.next a).sessionId = server.sessionId ∧
      (server.next a).endpoint = (server.call a).elim server.endpoint server.endpoint.next := by
  have handled := serveFrame_handled server a
  generalize answered : server.report a = report at handled
  generalize server.next a = after at handled ⊢
  cases handled with
  | malformed bad =>
    rw [call_of_malformed bad, answered]
    exact ⟨rfl, rfl⟩
  | welcomed protocol body restart accepted =>
    refine ⟨rfl, ?_⟩
    simp only [call, body]
    rfl
  | refused protocol body error rejected =>
    refine ⟨rfl, ?_⟩
    simp only [call, body]
    exact (acceptHello_error rejected).symm
  | queried query text nonempty _ session endpoint =>
    rw [call_of_query query, answered]
    exact ⟨session, endpoint⟩
  | mismatched r request | replayed r request | reused r request =>
    rw [call_of_request request, answered]
    exact ⟨rfl, rfl⟩
  | refusedFresh r request _ _ _ _ _ session endpoint | executed r request _ _ _ session endpoint =>
    rw [call_of_request request, answered]
    exact ⟨session, endpoint⟩

def Established (server : PipeServer) : Prop :=
  server.endpoint.sessionId = none ∨ server.endpoint.sessionId = some server.sessionId

theorem acceptHello_session (endpoint : HostTransportEndpoint) (protocol session : String) :
    (endpoint.acceptHello protocol session).2.sessionId = endpoint.sessionId ∨
      (endpoint.acceptHello protocol session).2.sessionId = some session := by
  unfold HostTransportEndpoint.acceptHello
  split
  · exact .inl rfl
  · split
    · exact .inl rfl
    · exact .inr rfl

theorem acceptHello_restart {endpoint : HostTransportEndpoint} {protocol session : String}
    (h : (endpoint.acceptHello protocol session).1 = .ok true) :
    ∃ current, endpoint.sessionId = some current ∧ current ≠ session := by
  unfold HostTransportEndpoint.acceptHello at h
  split at h
  · cases h
  · split at h
    · cases h
    · have replaced := Except.ok.inj h
      rw [Option.any_eq_true] at replaced
      obtain ⟨current, known, other⟩ := replaced
      exact ⟨current, known, of_decide_eq_true other⟩

/-- A hello can only name the server's session, so no frame restarts it. -/
theorem established_next {a : Arrival} (established : server.Established) :
    (server.next a).Established ∧ ∀ c, server.call a = some c → ¬ server.endpoint.Restarts c := by
  obtain ⟨session, endpoint⟩ := next_endpoint server a
  unfold Established at established ⊢
  rw [session, endpoint]
  have recording : ∀ x : Execution, ¬ server.endpoint.Restarts x.call ∧
      (server.endpoint.next x.call).sessionId = server.endpoint.sessionId := by
    intro x
    unfold Execution.call
    cases x.descriptor with
    | none => exact ⟨nofun, rfl⟩
    | some d => exact ⟨nofun, rfl⟩
  unfold call
  cases body : frameBody a.payload with
  | hello protocol =>
    constructor
    · rcases acceptHello_session server.endpoint protocol server.sessionId with same | own
      · simp only [Option.elim, HostTransportEndpoint.next, same]
        exact established
      · exact .inr own
    · rintro c known ⟨_, _, rfl, restarted⟩
      cases known
      obtain ⟨current, bound, other⟩ := acceptHello_restart restarted
      rcases established with none | own
      · rw [none] at bound
        cases bound
      · rw [own] at bound
        exact other (Option.some.inj bound).symm
  | recovery | handoff | req | reqx | unknown =>
    dsimp only
    cases (server.report a).executed with
    | none => exact ⟨established, nofun⟩
    | some x =>
      simp only [Option.map_some, Option.elim, (recording x).2]
      refine ⟨established, ?_⟩
      rintro c ⟨⟩
      exact (recording x).1

theorem run_established {start : PipeServer} (established : start.Established)
    (arrivals : List Arrival) : (run next start arrivals).Established :=
  run_keeps Established (fun _ _ held => (established_next held).1) established arrivals

/-- The server refines its endpoint: a run of frames is a run of hellos and
recordings, in which the session never restarts. -/
theorem run_endpoint {start : PipeServer} (established : start.Established)
    (arrivals : List Arrival) :
    ∃ calls, (run next start arrivals).endpoint =
        run HostTransportEndpoint.next start.endpoint calls ∧
      AllSteps HostTransportEndpoint.next (fun e c => ¬ e.Restarts c) start.endpoint calls := by
  induction arrivals generalizing start with
  | nil => exact ⟨[], rfl, trivial⟩
  | cons a rest ih =>
    obtain ⟨kept, running⟩ := established_next (a := a) established
    obtain ⟨calls, same, still⟩ := ih kept
    have moved := (next_endpoint start a).2
    cases called : start.call a with
    | none =>
      rw [called] at moved
      rw [moved] at same still
      exact ⟨calls, same, still⟩
    | some c =>
      rw [called] at moved
      rw [moved] at same still
      exact ⟨c :: calls, same, running c called, still⟩

def smallServer (capacity : Nat) (h : 0 < capacity) : PipeServer :=
  ⟨"s1", ⟨none, ⟨KeyedQueue.empty, capacity, h⟩⟩, none⟩

end PipeServer
end ZonKey.Pipe

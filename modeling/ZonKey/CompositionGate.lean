import ZonKey.PipeResend

set_option autoImplicit false

namespace ZonKey.Pipe
open Transport Runs

def compositionGateOutcome (composition : String) : LedgerOutcome :=
  match composition with
  | "Inactive" => .definite "rejected:ExecutionNotImplemented"
  | "Active" => .definite "rejected:CompositionActive"
  | _ => .definite "rejected:CompositionUnknown"

def compositionGateHandler (_requestId composition _canonical : String) : LedgerOutcome :=
  compositionGateOutcome composition

/-- A frame at the endpoint: only its handler is settled. -/
structure GateFrame where
  handoff : Option (Except String HandoffRequest)
  firstWrite : Bool
  secondWrite : Bool
  delivery : Bool
  payload : String

def GateFrame.arrival (f : GateFrame) : Arrival :=
  ⟨⟨compositionGateHandler, f.handoff, f.firstWrite, f.secondWrite, f.delivery⟩, f.payload⟩

/-- `spawn_dummy_host_server_with_handoff` as both endpoint runs call it. -/
def gateServer (sessionId : String) (recovery : Option Store.DurableRecoveryStore) : PipeServer :=
  ⟨sessionId, ⟨none, ⟨KeyedQueue.empty, 256, Nat.zero_lt_succ 255⟩⟩, recovery⟩

def Rejection (outcome : LedgerOutcome) : Prop :=
  ∃ reason, outcome = .definite ("rejected:" ++ reason)

theorem compositionGateOutcome_rejects (composition : String) :
    Rejection (compositionGateOutcome composition) := by
  unfold compositionGateOutcome
  split
  · exact ⟨"ExecutionNotImplemented", rfl⟩
  · exact ⟨"CompositionActive", rfl⟩
  · exact ⟨"CompositionUnknown", rfl⟩

theorem fits_short {text : String} (short : text.utf8ByteSize ≤ 1000) : Fits text := by
  have size : (Digest.asBytes text).length = text.utf8ByteSize := by simp [Digest.asBytes]
  unfold Fits
  rw [size, maxFrameBytes]
  omega

theorem gate_fits (composition : String) :
    Fits (outcomePayload (compositionGateOutcome composition)) := by
  apply fits_short
  unfold compositionGateOutcome
  split
  · exact Nat.le_of_ble_eq_true rfl
  · exact Nat.le_of_ble_eq_true rfl
  · exact Nat.le_of_ble_eq_true rfl

namespace PipeServer
variable {server : PipeServer}

theorem executeDescriptorRequest_rejects (env : FrameEnvironment) (server : PipeServer)
    (request : DescriptorRequest) :
    Rejection (server.executeDescriptorRequest env request).1 ∨
      (server.executeDescriptorRequest env request).1 =
        env.handler request.descriptor.requestId request.composition request.canonical := by
  unfold executeDescriptorRequest
  split
  · exact .inl ⟨"RecoveryUnavailable", rfl⟩
  · dsimp only
    split
    · exact .inl ⟨"TargetBlocked", rfl⟩
    · split
      · exact .inl ⟨"RecoveryPreflightFailed", rfl⟩
      · exact .inr rfl

structure Gated (server : PipeServer) : Prop where
  established : server.Established
  entries : ∀ id entry, server.endpoint.ledger.entries id = some entry →
    ∃ composition, entry.outcome = compositionGateOutcome composition
  room : 0 < server.endpoint.ledger.capacity

theorem gated_start (sessionId : String) (recovery : Option Store.DurableRecoveryStore) :
    (gateServer sessionId recovery).Gated :=
  ⟨.inl rfl, nofun, Nat.zero_lt_succ 255⟩

theorem outcome_of_executed {f : GateFrame} {x : Execution}
    (ran : (server.report f.arrival).executed = some x) :
    x.outcome = compositionGateOutcome x.composition := by
  obtain ⟨r, _, _, _, rfl, _⟩ := executed_inv ran
  rfl

theorem gated_next (gated : server.Gated) (f : GateFrame) : (server.next f.arrival).Gated := by
  refine ⟨(established_next gated.established).1, fun id entry known => ?_, ?_⟩
  · rcases next_ledger gated.established f.arrival with ⟨_, same⟩ | ⟨x, answer, ran, _, recording⟩
    · rw [same] at known
      exact gated.entries id entry known
    · by_cases old : server.endpoint.ledger.entries id = some entry
      · exact gated.entries id entry old
      · obtain ⟨_, rfl, _⟩ := recording.entries_new known old
        exact ⟨x.composition, outcome_of_executed ran⟩
  · rw [(order_grows gated.established f.arrival).1]
    exact gated.room

theorem run_gated (sessionId : String) (recovery : Option Store.DurableRecoveryStore)
    (frames : List GateFrame) :
    (run next (gateServer sessionId recovery) (frames.map GateFrame.arrival)).Gated := by
  unfold run
  rw [List.foldl_map]
  exact run_keeps Gated (fun _ (f : GateFrame) held => gated_next held f)
    (gated_start sessionId recovery) frames

theorem Gated.unpinned (gated : server.Gated) (id : String) :
    ¬ server.endpoint.ledger.Pinned id := by
  rintro ⟨entry, text, known, ambiguous, _⟩
  obtain ⟨composition, gate⟩ := gated.entries id entry known
  obtain ⟨reason, rejected⟩ := compositionGateOutcome_rejects composition
  rw [gate, rejected] at ambiguous
  cases ambiguous

theorem Gated.unsaturated (gated : server.Gated) : ¬ Saturated server.endpoint.ledger := by
  rintro ⟨full, pinned⟩
  have some_entry : server.endpoint.ledger.order ≠ [] := by
    intro none
    rw [none] at full
    exact absurd gated.room (Nat.not_lt.mpr full)
  obtain ⟨id, rest, order⟩ := List.exists_cons_of_ne_nil some_entry
  exact gated.unpinned id (pinned id (by rw [order]; exact List.mem_cons_self))

def Turned (outcome : LedgerOutcome) : Prop :=
  Rejection outcome ∨ outcome = .definite "request_id_reuse"

theorem Gated.recorded (gated : server.Gated) {id canonical : String} {recorded : LedgerOutcome}
    (known : server.endpoint.classifyRequest id canonical = .duplicate recorded) :
    Rejection recorded := by
  change server.endpoint.ledger.classify id canonical = _ at known
  unfold BoundedRequestLedger.classify at known
  cases entry : server.endpoint.ledger.entries id with
  | none => simp [entry] at known
  | some found =>
    simp only [entry] at known
    split_ifs at known
    cases known
    obtain ⟨composition, gate⟩ := gated.entries id found entry
    rw [gate]
    exact compositionGateOutcome_rejects composition

theorem serveFresh_sent (env : FrameEnvironment) (server : PipeServer) (request : DescriptorRequest) :
    (server.serveFresh env request).1.sent =
      some (outcomePayload (server.executeDescriptorRequest env request).1) := by
  unfold serveFresh
  dsimp only
  split <;> rfl

theorem fresh_descriptor {a : Arrival} {r : WireRequest}
    (request : frameRequest a.payload = some r) (own : server.sessionOk r.session = true)
    (fresh : server.endpoint.classifyRequest r.requestId r.canonical = .fresh)
    (carried : r.descriptor ≠ none) :
    ∃ d, server.report a = (server.serveFresh a.env d).1 := by
  unfold frameRequest at request
  unfold report serveFrame
  cases body : frameBody a.payload with
  | hello | recovery | handoff | unknown => simp [body] at request
  | req body' =>
    simp only [body, Option.map_eq_some_iff] at request
    obtain ⟨_, _, rfl⟩ := request
    exact absurd rfl carried
  | reqx body' =>
    simp only [body, Option.map_eq_some_iff] at request
    obtain ⟨d, parsed, rfl⟩ := request
    refine ⟨d, ?_⟩
    unfold serveDescriptorRequest
    simp only [parsed, own, not_true_eq_false, if_false]
    rw [fresh]

/-- Every request frame is answered with a rejection, the refusal of its id or
the refusal of its session, and with nothing else. -/
theorem Gated.request_turned (gated : server.Gated) (f : GateFrame) {r : WireRequest}
    (request : frameRequest f.payload = some r) :
    (server.sessionOk r.session = false ∧
      (server.report f.arrival).sent = some "ERROR|session_mismatch") ∨
    (server.sessionOk r.session = true ∧ ∃ outcome, Turned outcome ∧
      (server.report f.arrival).sent = some (outcomePayload outcome)) := by
  have handled := serveFrame_handled server f.arrival
  generalize answered : server.report f.arrival = report at handled
  generalize server.next f.arrival = after at handled
  have same : ∀ {s}, frameRequest f.payload = some s → s = r := by
    intro s other
    rw [request] at other
    exact (Option.some.inj other).symm
  cases handled with
  | malformed bad => exact absurd (wellFormed_of_request request) bad
  | welcomed protocol body | refused protocol body =>
    have none_asked : frameRequest f.payload = none := frameRequest_hello body
    rw [none_asked] at request
    cases request
  | queried query =>
    have none_asked : frameRequest f.payload = none := frameRequest_query query
    rw [none_asked] at request
    cases request
  | mismatched s other foreign => exact .inl ⟨same other ▸ foreign, rfl⟩
  | replayed s other own recorded known =>
    exact .inr ⟨same other ▸ own, recorded, .inl (gated.recorded known), rfl⟩
  | reused s other own => exact .inr ⟨same other ▸ own, _, .inr rfl, rfl⟩
  | executed s other own =>
    exact .inr ⟨same other ▸ own, _, .inl (compositionGateOutcome_rejects _), rfl⟩
  | refusedFresh s other own fresh carried reason =>
    obtain ⟨d, served⟩ := fresh_descriptor other own fresh carried
    refine .inr ⟨same other ▸ own, (server.executeDescriptorRequest f.arrival.env d).1, ?_, ?_⟩
    · left
      rcases executeDescriptorRequest_rejects f.arrival.env server d with rejected | gate
      · exact rejected
      · rw [gate]
        exact compositionGateOutcome_rejects _
    · rw [← answered, served]
      exact serveFresh_sent f.arrival.env server d

/-- A run of the endpoint turns down every request: no outcome is left open,
each one that its handler gave is on record when the next frame arrives, and no
request frame is answered with anything else than a rejection of it. -/
theorem gate_turns_down (sessionId : String) (recovery : Option Store.DurableRecoveryStore)
    (frames : List GateFrame) (f : GateFrame) :
    let server := run next (gateServer sessionId recovery) (frames.map GateFrame.arrival)
    (∀ id, ¬ server.endpoint.ledger.Pinned id) ∧
    (∀ x, (server.report f.arrival).executed = some x →
      x.outcome = compositionGateOutcome x.composition ∧
      (server.next f.arrival).endpoint.classifyRequest x.requestId x.canonical =
        .duplicate x.outcome) ∧
    ∀ r, frameRequest f.payload = some r →
      (server.sessionOk r.session = false ∧
        (server.report f.arrival).sent = some "ERROR|session_mismatch") ∨
      (server.sessionOk r.session = true ∧ ∃ outcome, Turned outcome ∧
        (server.report f.arrival).sent = some (outcomePayload outcome)) := by
  intro server
  have gated : server.Gated := run_gated sessionId recovery frames
  refine ⟨gated.unpinned, fun x ran => ⟨outcome_of_executed ran, ?_⟩,
    fun r request => gated.request_turned f request⟩
  have recorded := executed_recorded ran gated.unsaturated
  change (server.next f.arrival).endpoint.ledger.classify x.requestId x.canonical = _
  unfold BoundedRequestLedger.classify
  rw [recorded]
  simp

end PipeServer
end ZonKey.Pipe

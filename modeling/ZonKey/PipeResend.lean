import ZonKey.PipeConversation

set_option autoImplicit false

namespace ZonKey.Pipe
open Transport Runs StopAndWait

namespace PipeServer
variable {server : PipeServer} {a : Arrival} {arrivals : List Arrival}

def executions (server : PipeServer) (arrivals : List Arrival) : List Execution :=
  (server.reports arrivals).filterMap FrameReport.executed

@[simp] theorem executions_nil (server : PipeServer) : server.executions [] = [] := rfl

@[simp] theorem executions_cons (server : PipeServer) (a : Arrival) (rest : List Arrival) :
    server.executions (a :: rest) =
      (server.report a).executed.toList ++ (server.next a).executions rest := by
  unfold executions
  cases ran : (server.report a).executed with
  | none => rw [reports, List.filterMap_cons_none ran]; rfl
  | some x => rw [reports, List.filterMap_cons_some ran]; rfl

theorem executions_append (server : PipeServer) (xs ys : List Arrival) :
    server.executions (xs ++ ys) = server.executions xs ++ (run next server xs).executions ys := by
  induction xs generalizing server with
  | nil => rfl
  | cons a rest ih => simp [ih]

theorem next_ledger (established : server.Established) (a : Arrival) :
    ((server.report a).executed = none ∧ (server.next a).endpoint.ledger = server.endpoint.ledger) ∨
    ∃ x answer, (server.report a).executed = some x ∧
      server.endpoint.ledger.entries x.requestId = none ∧
      BoundedRequestLedger.Recording server.endpoint.ledger x.requestId
        ⟨x.canonical, x.outcome, x.descriptor.isSome⟩ answer (server.next a).endpoint.ledger := by
  cases ran : (server.report a).executed with
  | some x =>
    obtain ⟨r, _, _, fresh, same, moved⟩ := executed_inv ran
    obtain ⟨answer, _, recording⟩ := server.endpoint.recording_of_entry x.call_entry
    rw [← moved] at recording
    refine .inr ⟨x, answer, rfl, ?_, recording⟩
    rw [same]
    exact classify_fresh_iff.mp fresh
  | none =>
    refine .inl ⟨rfl, ?_⟩
    have handled := serveFrame_handled server a
    have steady := (established_next established (a := a)).2
    generalize server.report a = report at handled ran
    generalize server.next a = after at handled ⊢
    cases handled with
    | malformed | refused | mismatched | replayed | reused => rfl
    | queried _ _ _ _ _ endpoint | refusedFresh _ _ _ _ _ _ _ _ endpoint => rw [endpoint]
    | executed => cases ran
    | welcomed protocol body restart accepted =>
      dsimp only
      rw [HostTransportEndpoint.hello_ledger, if_neg]
      intro restarted
      refine steady (.acceptHello protocol server.sessionId) ?_ ⟨_, _, rfl, restarted⟩
      rw [call, body]

theorem order_grows (established : server.Established) (a : Arrival) :
    (server.next a).endpoint.ledger.capacity = server.endpoint.ledger.capacity ∧
      (server.next a).endpoint.ledger.order.length ≤
        server.endpoint.ledger.order.length + (server.report a).executed.toList.length := by
  rcases next_ledger established a with ⟨idle, same⟩ | ⟨x, answer, ran, _, recording⟩
  · rw [same, idle]
    exact ⟨rfl, Nat.le_refl _⟩
  · rw [ran]
    refine ⟨recording.capacity_eq, ?_⟩
    generalize (server.next a).endpoint.ledger = after at recording
    cases recording with
    | alreadyPresent | rejectedLedgerFull => exact Nat.le_succ _
    | inserted =>
      refine (List.length_append ..).le.trans (Nat.add_le_add_right ?_ 1)
      exact Nat.le_refl _
    | evicted _ _ before oldest rest split _ _ _ order =>
      rw [order, split]
      simp

def RoomFor (server : PipeServer) (arrivals : List Arrival) : Prop :=
  server.endpoint.ledger.order.length + (server.executions arrivals).length ≤
    server.endpoint.ledger.capacity

theorem roomFor_next (established : server.Established) {rest : List Arrival}
    (room : server.RoomFor (a :: rest)) : (server.next a).RoomFor rest := by
  obtain ⟨same, grown⟩ := order_grows established a
  unfold RoomFor at room ⊢
  rw [executions_cons, List.length_append] at room
  omega

theorem entries_next (established : server.Established) {rest : List Arrival}
    (room : server.RoomFor (a :: rest)) :
    (∀ id entry, server.endpoint.ledger.entries id = some entry →
      (server.next a).endpoint.ledger.entries id = some entry) ∧
    ∀ x, (server.report a).executed = some x →
      server.endpoint.ledger.entries x.requestId = none ∧
      (server.next a).endpoint.ledger.entries x.requestId =
        some ⟨x.canonical, x.outcome, x.descriptor.isSome⟩ := by
  rcases next_ledger established a with ⟨idle, same⟩ | ⟨x, answer, ran, fresh, recording⟩
  · rw [same, idle]
    exact ⟨fun _ _ known => known, nofun⟩
  · unfold RoomFor at room
    rw [executions_cons, ran, List.length_append, Option.toList_some, List.length_singleton] at room
    have inserted : answer = .inserted := by
      generalize (server.next a).endpoint.ledger = after at recording
      cases recording with
      | alreadyPresent known =>
        rw [← KeyedQueue.contains_eq_false, known] at fresh
        cases fresh
      | inserted => rfl
      | evicted _ full | rejectedLedgerFull _ full => omega
    refine ⟨fun id entry known => ?_, fun y same => ?_⟩
    · have other : id ≠ x.requestId := by
        rintro rfl
        rw [known] at fresh
        cases fresh
      rw [recording.entries_other other (by rw [inserted]; nofun)]
      exact known
    · rw [ran] at same
      cases same
      exact ⟨fresh, recording.entries_placed (.inl inserted)⟩

/-- With room for all executions to come, an entry stays. -/
theorem entry_retained (established : server.Established) {id : String} {entry : LedgerEntry}
    (known : server.endpoint.ledger.entries id = some entry) (room : server.RoomFor arrivals) :
    (run next server arrivals).endpoint.ledger.entries id = some entry := by
  induction arrivals generalizing server with
  | nil => exact known
  | cons a rest ih =>
    exact ih (established_next established).1 ((entries_next established room).1 id entry known)
      (roomFor_next established room)

theorem executions_nodup (established : server.Established) (room : server.RoomFor arrivals) :
    ((server.executions arrivals).map (·.requestId)).Nodup ∧
      ∀ x ∈ server.executions arrivals, server.endpoint.ledger.entries x.requestId = none := by
  induction arrivals generalizing server with
  | nil => simp
  | cons a rest ih =>
    obtain ⟨kept, added⟩ := entries_next established room
    obtain ⟨nodup, unknown⟩ := ih (established_next established).1 (roomFor_next established room)
    have later : ∀ x ∈ (server.next a).executions rest,
        server.endpoint.ledger.entries x.requestId = none := by
      intro x member
      cases known : server.endpoint.ledger.entries x.requestId with
      | none => rfl
      | some entry =>
        have still := kept _ entry known
        rw [unknown x member] at still
        cases still
    rw [executions_cons]
    cases ran : (server.report a).executed with
    | none => exact ⟨nodup, later⟩
    | some x =>
      obtain ⟨fresh, placed⟩ := added x ran
      refine ⟨List.nodup_cons.mpr ⟨?_, nodup⟩, ?_⟩
      · intro again
        obtain ⟨y, member, same⟩ := List.mem_map.mp again
        have same : y.requestId = x.requestId := same
        rw [← same, unknown y member] at placed
        cases placed
      · rintro y (_ | ⟨_, member⟩)
        · exact fresh
        · exact later y member

theorem bound_next (established : server.Established) {session : String}
    (bound : server.endpoint.sessionId = some session) (a : Arrival) :
    (server.next a).endpoint.sessionId = some session := by
  have own : server.sessionId = session := by
    rcases established with none | same
    · rw [bound] at none
      cases none
    · rw [bound] at same
      exact (Option.some.inj same).symm
  rw [(next_endpoint server a).2]
  unfold call
  cases body : frameBody a.payload with
  | hello protocol =>
    rcases acceptHello_session server.endpoint protocol server.sessionId with same | named
    · exact same.trans bound
    · exact named.trans (congrArg some own)
  | recovery | handoff | req | reqx | unknown =>
    dsimp only
    cases (server.report a).executed with
    | none => exact bound
    | some x =>
      rw [Option.map_some, Option.elim_some, ← bound]
      unfold Execution.call
      cases x.descriptor <;> rfl

theorem roomFor_run (established : server.Established) {xs ys : List Arrival}
    (room : server.RoomFor (xs ++ ys)) : (run next server xs).RoomFor ys := by
  induction xs generalizing server with
  | nil => exact room
  | cons a rest ih => exact ih (established_next established).1 (roomFor_next established room)

theorem own_of_outcome {r : WireRequest} (request : frameRequest a.payload = some r)
    {outcome : LedgerOutcome} (sent : (server.report a).sent = some (outcomePayload outcome)) :
    server.sessionOk r.session = true := by
  have handled := serveFrame_handled server a
  generalize server.report a = report at handled sent
  generalize server.next a = after at handled
  have same : ∀ {s}, frameRequest a.payload = some s → s = r := by
    intro s other
    rw [request] at other
    exact (Option.some.inj other).symm
  cases handled with
  | malformed bad => exact absurd (wellFormed_of_request request) bad
  | welcomed protocol body | refused protocol body =>
    rw [frameRequest_hello body] at request
    cases request
  | queried query =>
    rw [frameRequest_query query] at request
    cases request
  | mismatched s other foreign =>
    have read := parseOutcome_iff.mpr (Option.some.inj sent)
    cases read
  | replayed s other own | reused s other own | refusedFresh s other own | executed s other own =>
    exact same other ▸ own

theorem report_recorded (established : server.Established) {r : WireRequest}
    (request : frameRequest a.payload = some r) (own : server.sessionOk r.session = true)
    (plain : r.descriptor = none) {rest : List Arrival} (room : server.RoomFor (a :: rest)) :
    ∃ entry, (server.next a).endpoint.ledger.entries r.requestId = some entry ∧
      (server.report a).sent = some (outcomePayload (if entry.canonical = r.canonical
        then entry.outcome else .definite "request_id_reuse")) := by
  obtain ⟨kept, added⟩ := entries_next established room
  cases known : server.endpoint.ledger.entries r.requestId with
  | some entry =>
    exact ⟨entry, kept _ _ known, by rw [report_of_retained request own known]; rfl⟩
  | none =>
    have ran := executed_of_fresh request own (classify_fresh_iff.mpr known) plain
    refine ⟨_, (added _ ran).2, ?_⟩
    rw [report_of_executed ran]
    simp [WireRequest.execution, answer]

/-- A request that comes back after it was served is answered as it was then. -/
theorem answered_again (established : server.Established) {r s : WireRequest} {b : Arrival}
    (request : frameRequest a.payload = some r) (own : server.sessionOk r.session = true)
    (plain : r.descriptor = none) {middle after : List Arrival}
    (room : server.RoomFor (a :: (middle ++ b :: after))) (again : frameRequest b.payload = some s)
    (sameId : s.requestId = r.requestId) (sameTail : s.canonical = r.canonical)
    {outcome : LedgerOutcome}
    (sent : ((run next (server.next a) middle).report b).sent = some (outcomePayload outcome)) :
    (server.report a).sent = some (outcomePayload outcome) := by
  obtain ⟨entry, placed, answered⟩ := report_recorded established request own plain room
  have later : (server.next a).RoomFor middle := by
    have rest := roomFor_next established room
    unfold RoomFor at rest ⊢
    rw [executions_append, List.length_append] at rest
    omega
  have kept := entry_retained (established_next established (a := a)).1 placed later
  rw [← sameId] at kept
  rw [report_of_retained again (own_of_outcome again sent) kept, sameTail] at sent
  rw [answered]
  exact sent

end PipeServer

/-- As long as the ledger has room for every execution of the session, no
request id runs twice in a conversation, and a plain request that is sent again
after it was served, by whatever client, returns the answer that the server gave
to it the first time, whether or not that answer arrived. -/
theorem resend_answered {capacity : Nat} {endpoint : HostTransportEndpoint}
    (opened : HostTransportEndpoint.new capacity = .ok endpoint) (sessionId : String)
    (recovery : Option Store.DurableRecoveryStore) (moves : List PipeMove) :
    let start : PipeServer := ⟨sessionId, endpoint, recovery⟩
    let link := run pipeProtocol.step (.closed start) moves
    (start.executions (frames link.history)).length ≤ capacity →
      ((start.executions (frames link.history)).map (·.requestId)).Nodup ∧
      ∀ before x middle y after input r s outcome,
        link.history = before ++ x :: (middle ++ y :: after) →
        x.served = some input → frameRequest x.payload.payload = some r → r.descriptor = none →
        (run PipeServer.next start (frames before)).sessionOk r.session = true →
        frameRequest y.payload.payload = some s → s.requestId = r.requestId →
        s.canonical = r.canonical → y.result = some (outcomePayload outcome) →
        ((run PipeServer.next start (frames before)).report ⟨input.env, x.payload.payload⟩).sent =
          some (outcomePayload outcome) := by
  intro start link room
  have established : start.Established := PipeServer.new_established opened sessionId recovery
  have roomy : start.RoomFor (frames link.history) := by
    obtain ⟨queue, size, _⟩ := HostTransportEndpoint.new_ok opened
    have none_yet : endpoint.ledger.order = [] := by rw [queue]; rfl
    change endpoint.ledger.order.length + _ ≤ endpoint.ledger.capacity
    rw [none_yet, size, List.length_nil, Nat.zero_add]
    exact room
  refine ⟨(PipeServer.executions_nodup established roomy).1, ?_⟩
  intro before x middle y after input r s outcome made served request plain own again sameId sameTail
    returned
  have split : (run pipeProtocol.step (.closed start) moves).history =
      (before ++ x :: middle) ++ y :: after := by
    rw [made]
    simp
  obtain ⟨later, servedLater, sent⟩ := answer_sent split returned
  rw [made] at roomy
  have cut : frames (before ++ x :: (middle ++ y :: after)) = frames before ++
      ⟨input.env, x.payload.payload⟩ :: (frames middle ++
        ⟨later.env, y.payload.payload⟩ :: frames after) := by
    simp [frames, arrivals, served, servedLater]
  have path : frames (before ++ x :: middle) = frames before ++
      ⟨input.env, x.payload.payload⟩ :: frames middle := by
    simp [frames, arrivals, served]
  rw [cut] at roomy
  rw [path, run_append, run_cons] at sent
  have here := PipeServer.roomFor_run established roomy
  exact PipeServer.answered_again (a := ⟨input.env, x.payload.payload⟩)
    (b := ⟨later.env, y.payload.payload⟩) (PipeServer.run_established established (frames before))
    request own plain here again sameId sameTail sent

def connectMoves (frame : ServedFrame) : List PipeMove :=
  [.reopen, .call ⟨"", .connect⟩ true true, .serve frame, .receive 0]

def timedOutMoves : List PipeMove :=
  connectMoves appliedOnce ++
    [.call ⟨"s1", .request "r1" "Inactive" "c1"⟩ true true, .giveUp, .serve appliedOnce, .leave] ++
    connectMoves appliedOnce ++
    [.call ⟨"s1", .request "r1" "Inactive" "c1"⟩ true true, .serve appliedOnce, .receive 0]

def timedOutHistory : List PipeExchange :=
  [⟨⟨"", .connect⟩, some appliedOnce, some "WELCOME|s1"⟩,
    ⟨⟨"s1", .request "r1" "Inactive" "c1"⟩, some appliedOnce, none⟩,
    ⟨⟨"", .connect⟩, some appliedOnce, some "WELCOME|s1"⟩,
    ⟨⟨"s1", .request "r1" "Inactive" "c1"⟩, some appliedOnce, some "RESULT|DEFINITE|applied"⟩]

theorem resend_answered_after_timeout :
    ((run PipeServer.next (PipeServer.smallServer 2 (by decide))
      [⟨appliedOnce.env, "HELLO|zonkey.host-transport/1"⟩]).report
        ⟨appliedOnce.env, "REQ|s1|r1|Inactive|c1"⟩).sent = some "RESULT|DEFINITE|applied" := by
  have opened : HostTransportEndpoint.new 2 =
      .ok (PipeServer.smallServer 2 (by decide)).endpoint := rfl
  have made : (run pipeProtocol.step (.closed (PipeServer.smallServer 2 (by decide)))
      timedOutMoves).history = timedOutHistory := by rfl
  have room : ((PipeServer.smallServer 2 (by decide)).executions (frames timedOutHistory)).length ≤
      2 := by decide
  rw [← made] at room
  exact (resend_answered opened "s1" none timedOutMoves room).2 (timedOutHistory.take 1) _
    ((timedOutHistory.drop 2).take 1) _ [] appliedOnce ⟨"s1", "r1", "Inactive", "c1", none⟩
    ⟨"s1", "r1", "Inactive", "c1", none⟩ (.definite "applied") made rfl rfl rfl rfl rfl rfl rfl rfl

end ZonKey.Pipe

import ZonKey.PipeTransport
import ZonKey.RecoveryStoreGuard

set_option autoImplicit false

namespace ZonKey.Pipe
open RecoveryCodec Recovery Store Transport Runs DurableRecoveryStore

def RecoveryCommand.call (session : String) : RecoveryCommand → Option StoreCall
  | .list => none
  | .block uri expected replacement range => some (.block session uri expected replacement range)
  | .reconcile uri expected epoch live => some (.reconcile session uri expected epoch live)
  | .ack uri expected epoch => some (.acknowledge session uri expected epoch)

theorem performCommand_next (durable : Bool) (session : String) (store : DurableRecoveryStore)
    (command : RecoveryCommand) : (performCommand durable session store command).2 =
      ((command.call session).map fun c => store.next ⟨c, durable⟩).getD store := by
  cases command <;> rfl

namespace PipeServer
variable {server : PipeServer}

def freshRequest (server : PipeServer) (payload : String) : Option DescriptorRequest :=
  match frameBody payload with
  | .reqx body => (parseDescriptorRequest body).filter fun request =>
      server.sessionOk request.session ∧
        server.endpoint.classifyRequest request.descriptor.requestId request.canonical = .fresh
  | _ => none

def command (server : PipeServer) (payload : String) : Option (String × RecoveryCommand) :=
  match frameBody payload with
  | .recovery body =>
    match split body with
    | session :: fields =>
      if server.sessionOk session then (parseCommand fields).map (session, ·) else none
    | [] => none
  | _ => none

def Executes (server : PipeServer) (a : Arrival) (uri expected : String) : Prop :=
  ∃ x d, (server.report a).executed = some x ∧ x.descriptor = some d ∧ d.uri = uri ∧
    d.expected = expected

def Loses (server : PipeServer) (a : Arrival) (uri expected : String) : Prop :=
  ∃ x d, (server.report a).executed = some x ∧ x.descriptor = some d ∧ d.uri = uri ∧
    d.expected = expected ∧ (uncertain x.outcome = true ∨ (server.report a).delivered = false)

def Reconciles (server : PipeServer) (a : Arrival) (uri expected : String) : Prop :=
  ∃ store session epoch live verdict, server.recovery = some store ∧
    server.command a.payload = some (session, .reconcile uri expected epoch live) ∧
    (store.reconcile a.env.firstWrite session uri expected epoch live).1 = .ok verdict

def Acknowledges (server : PipeServer) (a : Arrival) (uri expected : String) : Prop :=
  ∃ store session epoch, server.recovery = some store ∧
    server.command a.payload = some (session, .ack uri expected epoch) ∧
    (store.acknowledge a.env.firstWrite session uri expected epoch).1 = .ok ()

def Settled (server : PipeServer) (arrivals : List Arrival) (uri expected : String) : Prop :=
  ∃ before c middle d after, arrivals = before ++ c :: (middle ++ d :: after) ∧
    (run next server before).Reconciles c uri expected ∧
    (run next (next (run next server before) c) middle).Acknowledges d uri expected

/-- After a lost execution on the target none follows before it is settled. -/
def RecoverySafe (server : PipeServer) (arrivals : List Arrival) (uri expected : String) : Prop :=
  ∀ before a middle b after, arrivals = before ++ a :: (middle ++ b :: after) →
    (run next server before).Loses a uri expected →
    (run next (next (run next server before) a) middle).Executes b uri expected →
    Settled (next (run next server before) a) middle uri expected

def Quiet (server : PipeServer) (result : FrameReport × PipeServer) : Prop :=
  (∀ x, result.1.executed = some x → x.descriptor = none) ∧ result.2.recovery = server.recovery

theorem quiet_of_none {report : FrameReport} {served : PipeServer}
    (idle : report.executed = none) (same : served.recovery = server.recovery) :
    Quiet server (report, served) := by
  refine ⟨fun x ran => ?_, same⟩
  change report.executed = some x at ran
  rw [idle] at ran
  cases ran

theorem serveHello_quiet (env : FrameEnvironment) (protocol : String) :
    Quiet server (server.serveHello env protocol) := by
  unfold serveHello
  split <;> exact quiet_of_none rfl rfl

theorem serveHandoff_quiet (env : FrameEnvironment) (session : String) :
    Quiet server (server.serveHandoff env session, server) := by
  refine quiet_of_none ?_ rfl
  unfold serveHandoff
  split <;> rfl

theorem serveRequest_quiet (env : FrameEnvironment) (body : String) :
    Quiet server (server.serveRequest env body) := by
  unfold serveRequest
  split
  · exact quiet_of_none rfl rfl
  · split
    · exact quiet_of_none rfl rfl
    · split
      · exact quiet_of_none rfl rfl
      · exact quiet_of_none rfl rfl
      · refine ⟨fun x ran => ?_, rfl⟩
        cases ran
        rfl

theorem serveRecovery_cases (server : PipeServer) (env : FrameEnvironment) (body : String) :
    (∃ session fields command store, split body = session :: fields ∧
      server.sessionOk session = true ∧ parseCommand fields = some command ∧
      server.recovery = some store ∧ (server.serveRecovery env body).1.executed = none ∧
      (server.serveRecovery env body).2.recovery =
        some (performCommand env.firstWrite session store command).2) ∨
    Quiet server (server.serveRecovery env body) := by
  unfold serveRecovery
  cases eq : split body with
  | nil => exact .inr (by simp only [handleRecoveryCommand, eq]; exact quiet_of_none rfl rfl)
  | cons session fields =>
    by_cases ok : server.sessionOk session = true
    · cases recovery : server.recovery with
      | none =>
        refine .inr ?_
        simp only [handleRecoveryCommand, eq, ok, not_true, ↓reduceIte, recovery]
        exact quiet_of_none rfl rfl
      | some store =>
        cases parsed : parseCommand fields with
        | none =>
          refine .inr ?_
          simp only [handleRecoveryCommand, eq, ok, not_true, ↓reduceIte, recovery, parsed]
          exact quiet_of_none rfl rfl
        | some command =>
          refine .inl ⟨session, fields, command, store, rfl, ok, parsed, rfl, ?_⟩
          simp only [handleRecoveryCommand, eq, ok, not_true, ↓reduceIte, recovery, parsed]
          exact ⟨rfl, rfl⟩
    · refine .inr ?_
      simp only [handleRecoveryCommand, eq, ok]
      exact quiet_of_none rfl rfl

theorem serveDescriptorRequest_cases (server : PipeServer) (env : FrameEnvironment) (body : String) :
    (∃ request, parseDescriptorRequest body = some request ∧
      server.sessionOk request.session = true ∧
      server.endpoint.classifyRequest request.descriptor.requestId request.canonical = .fresh ∧
      server.serveDescriptorRequest env body = server.serveFresh env request) ∨
    Quiet server (server.serveDescriptorRequest env body) := by
  unfold serveDescriptorRequest
  split
  · exact .inr (quiet_of_none rfl rfl)
  · rename_i request parsed
    split
    · exact .inr (quiet_of_none rfl rfl)
    · rename_i ok
      split
      · exact .inr (quiet_of_none rfl rfl)
      · exact .inr (quiet_of_none rfl rfl)
      · rename_i fresh
        exact .inl ⟨request, parsed, by simpa using ok, fresh, rfl⟩

theorem serveFrame_cases (server : PipeServer) (a : Arrival) :
    (∃ request, server.freshRequest a.payload = some request ∧
      server.serveFrame a.env a.payload = server.serveFresh a.env request) ∨
    (∃ session command store, server.command a.payload = some (session, command) ∧
      server.recovery = some store ∧ (server.report a).executed = none ∧
      (server.next a).recovery = some (performCommand a.env.firstWrite session store command).2) ∨
    Quiet server (server.serveFrame a.env a.payload) := by
  unfold report next freshRequest command serveFrame
  cases frameBody a.payload with
  | hello protocol => exact .inr (.inr (serveHello_quiet _ _))
  | handoff session => exact .inr (.inr (serveHandoff_quiet _ _))
  | req body => exact .inr (.inr (serveRequest_quiet _ _))
  | unknown => exact .inr (.inr (quiet_of_none rfl rfl))
  | recovery body =>
    rcases serveRecovery_cases server a.env body with
      ⟨session, fields, command, store, eq, ok, parsed, recovery, idle, after⟩ | quiet
    · refine .inr (.inl ⟨session, command, store, ?_, recovery, idle, after⟩)
      simp only [eq, ok, parsed, ↓reduceIte, Option.map_some]
    · exact .inr (.inr quiet)
  | reqx body =>
    rcases serveDescriptorRequest_cases server a.env body with
      ⟨request, parsed, ok, fresh, same⟩ | quiet
    · refine .inl ⟨request, ?_, same⟩
      simp [parsed, ok, fresh, Option.filter]
    · exact .inr (.inr quiet)

def Resolution (session requestId : String) (c : StoreCall) : Prop :=
  c = .clearPending requestId ∨ c = .promotePending session requestId

theorem serveFresh_resolves {env : FrameEnvironment} {request : DescriptorRequest}
    {outcome : LedgerOutcome} {executed : Option Execution} {served : PipeServer}
    {middle : DurableRecoveryStore}
    (answered : server.executeDescriptorRequest env request = (outcome, executed, served))
    (known : served.recovery = some middle) :
    (server.serveFresh env request).1.executed = executed ∧
      ∃ c, Resolution request.session request.descriptor.requestId c ∧
        (server.serveFresh env request).2.recovery = some (middle.next ⟨c, env.secondWrite⟩) ∧
        (uncertain outcome = true ∨ (server.serveFresh env request).1.delivered = false →
          c = .promotePending request.session request.descriptor.requestId) := by
  simp only [serveFresh, answered]
  generalize eq : answer env (outcomePayload outcome) executed = report
  have ran : report.executed = executed := by rw [← eq]; rfl
  cases delivered : report.delivered with
  | false =>
    refine ⟨ran, _, .inr rfl, ?_, fun _ => rfl⟩
    simp only [Bool.false_eq_true, ↓reduceIte, promoteAfterLoss, known]
    rfl
  | true =>
    refine ⟨ran, ?_⟩
    simp only [↓reduceIte, resolvePending, known, delivered, Bool.true_eq_false, or_false]
    cases uncertain outcome with
    | true => exact ⟨_, .inr rfl, rfl, fun _ => rfl⟩
    | false => exact ⟨_, .inl rfl, rfl, nofun⟩

theorem serveFresh_cases {store : DurableRecoveryStore} (recovery : server.recovery = some store)
    (env : FrameEnvironment) (request : DescriptorRequest) :
    ∃ c middle, Resolution request.session request.descriptor.requestId c ∧
      (server.serveFresh env request).2.recovery = some (middle.next ⟨c, env.secondWrite⟩) ∧
      ((server.serveFresh env request).1.executed = none ∧ middle.live = store.live ∧
          middle.poison = store.poison ∨
        ∃ x, (server.serveFresh env request).1.executed = some x ∧
          x.descriptor = some request.descriptor ∧
          store.targetBlocked request.descriptor.uri request.descriptor.expected = false ∧
          store.beginPending env.firstWrite request.descriptor = (.ok (), middle) ∧
          (uncertain x.outcome = true ∨ (server.serveFresh env request).1.delivered = false →
            c = .promotePending request.session request.descriptor.requestId)) := by
  cases free : store.targetBlocked request.descriptor.uri request.descriptor.expected with
  | true =>
    have answered : server.executeDescriptorRequest env request =
        (.definite "rejected:TargetBlocked", none, server) := by
      simp only [executeDescriptorRequest, recovery, free, ↓reduceIte]
    obtain ⟨ran, c, resolution, after, _⟩ := serveFresh_resolves answered recovery
    exact ⟨c, store, resolution, after, .inl ⟨ran, rfl, rfl⟩⟩
  | false =>
    cases opened : store.beginPending env.firstWrite request.descriptor with
    | mk result middle =>
      cases result with
      | error error =>
        have answered : server.executeDescriptorRequest env request =
            (.definite "rejected:RecoveryPreflightFailed", none,
              { server with recovery := some middle }) := by
          simp only [executeDescriptorRequest, recovery, free, opened, Bool.false_eq_true,
            ↓reduceIte]
        obtain ⟨ran, c, resolution, after, _⟩ := serveFresh_resolves answered rfl
        exact ⟨c, middle, resolution, after, .inl ⟨ran, beginPending_error opened⟩⟩
      | ok =>
        have answered : ∃ outcome served, server.executeDescriptorRequest env request =
            (outcome, some ⟨request.descriptor.requestId, request.composition, request.canonical,
              some request.descriptor, outcome⟩, served) ∧ served.recovery = some middle := by
          simp only [executeDescriptorRequest, recovery, free, opened, Bool.false_eq_true,
            ↓reduceIte]
          exact ⟨_, _, rfl, rfl⟩
        obtain ⟨outcome, served, answered, known⟩ := answered
        obtain ⟨ran, c, resolution, after, promotes⟩ := serveFresh_resolves answered known
        exact ⟨c, middle, resolution, after, .inr ⟨_, ran, rfl, rfl, rfl, promotes⟩⟩

theorem serveFresh_unavailable (recovery : server.recovery = none) (env : FrameEnvironment)
    (request : DescriptorRequest) : (server.serveFresh env request).1.executed = none ∧
      (server.serveFresh env request).2.recovery = none := by
  have answered : server.executeDescriptorRequest env request =
      (.definite "rejected:RecoveryUnavailable", none, server) := by
    simp only [executeDescriptorRequest, recovery]
  simp only [serveFresh, answered]
  split <;> simp [answer, resolvePending, promoteAfterLoss, recovery]

def Unopened (server : PipeServer) (a : Arrival) : Prop :=
  ∀ store request, server.recovery = some store → server.freshRequest a.payload = some request →
    ∀ e ∈ store.pending, e.requestId ≠ request.descriptor.requestId

/-- No fresh request resolves an intent on the target, none on the target
passes the block while an intent is open on it, and no command settles the
target in the name of another one. -/
def Spares (server : PipeServer) (a : Arrival) (uri expected : String) : Prop :=
  ∀ store, server.recovery = some store →
    (∀ request, server.freshRequest a.payload = some request →
      store.Spares (.clearPending request.descriptor.requestId) uri expected ∧
      (request.descriptor.uri = uri → request.descriptor.expected = expected →
        store.targetBlocked uri expected = false →
        ∀ e ∈ store.pending, ¬ (e.uri = uri ∧ e.expected = expected))) ∧
    (∀ session command c, server.command a.payload = some (session, command) →
      command.call session = some c → store.Spares c uri expected)

/-- A lost execution opens an intent of its own, and every frame after it
spares the target until it is settled. -/
def Undisturbed (server : PipeServer) (arrivals : List Arrival) (uri expected : String) : Prop :=
  ∀ before a middle b after, arrivals = before ++ a :: (middle ++ b :: after) →
    (run next server before).Loses a uri expected →
    ¬ Settled (next (run next server before) a) middle uri expected →
    (run next server before).Unopened a ∧
      (run next (next (run next server before) a) middle).Spares b uri expected

def Keeping (I : DurableRecoveryStore → Prop) (server : PipeServer) : Prop :=
  ∃ store, server.recovery = some store ∧ I store

def Sound (server : PipeServer) : Prop :=
  ∀ store, server.recovery = some store → store.live.Sound

theorem sound_next (sound : server.Sound) (a : Arrival) : (server.next a).Sound := by
  intro after known
  rcases serveFrame_cases server a with ⟨request, _, same⟩ |
      ⟨session, command, store, _, recovery, _, served⟩ | ⟨_, same⟩
  · unfold next at known
    rw [same] at known
    cases recovery : server.recovery with
    | none =>
      rw [(serveFresh_unavailable recovery a.env request).2] at known
      cases known
    | some store =>
      obtain ⟨c, middle, _, served, idle | ⟨_, _, _, _, opened, _⟩⟩ :=
        serveFresh_cases recovery a.env request
      · rw [served] at known
        cases known
        refine next_keeps Accepted.sound _ ?_
        rw [idle.2.1]
        exact sound store recovery
      · rw [served] at known
        cases known
        have begun : store.next ⟨.beginPending request.descriptor, a.env.firstWrite⟩ = middle :=
          congrArg Prod.snd opened
        rw [← begun]
        exact next_keeps Accepted.sound _ (next_keeps Accepted.sound _ (sound store recovery))
  · rw [served, performCommand_next] at known
    cases known
    cases command.call session with
    | none => exact sound store recovery
    | some c => exact next_keeps Accepted.sound _ (sound store recovery)
  · exact sound after (same ▸ known)

section Guard
variable {uri expected : String} {store : DurableRecoveryStore} {a : Arrival}

theorem guards_of_fresh {P : BlockedTarget → Prop}
    (fresh : ∀ target : BlockedTarget, target.state = none → P target)
    (recovery : server.recovery = some store) {request : DescriptorRequest}
    (arrived : server.freshRequest a.payload = some request)
    (spares : server.Spares a uri expected) (guards : store.Guards P uri expected) :
    (∃ after, (server.serveFresh a.env request).2.recovery = some after ∧
      after.Guards P uri expected) ∧
    ∀ x d, (server.serveFresh a.env request).1.executed = some x → x.descriptor = some d →
      ¬ (d.uri = uri ∧ d.expected = expected) := by
  obtain ⟨resolves, apart⟩ := (spares store recovery).1 request arrived
  obtain ⟨c, middle, resolution, served, rest⟩ := serveFresh_cases recovery a.env request
  have keeps : ∀ middle : DurableRecoveryStore, middle.Guards P uri expected →
      middle.Spares (.clearPending request.descriptor.requestId) uri expected →
      (middle.next ⟨c, a.env.secondWrite⟩).Guards P uri expected := by
    intro middle guards spares
    rcases resolution with rfl | rfl
    · exact guards_of_spares fresh spares nofun guards
    · exact guards_of_spares fresh spares nofun guards
  rcases rest with ⟨idle, live, poison⟩ | ⟨x, ran, named, free, opened, _⟩
  · refine ⟨⟨_, served, keeps middle ?_ ?_⟩, ?_⟩
    · unfold Guards at guards ⊢
      rw [live, poison]
      exact guards
    · have pending : middle.pending = store.pending := congrArg LiveState.pending live
      unfold DurableRecoveryStore.Spares
      rw [pending]
      exact resolves
    · intro x d ran
      rw [idle] at ran
      cases ran
  · have elsewhere : ¬ (request.descriptor.uri = uri ∧ request.descriptor.expected = expected) := by
      rintro ⟨rfl, rfl⟩
      have blocked := targetBlocked_of_guards guards (apart rfl rfl free)
      rw [free] at blocked
      cases blocked
    have begun : store.next ⟨.beginPending request.descriptor, a.env.firstWrite⟩ = middle :=
      congrArg Prod.snd opened
    refine ⟨⟨_, served, keeps middle ?_ ?_⟩, ?_⟩
    · rw [← begun]
      exact guards_of_spares fresh trivial nofun guards
    · intro e mem named_uri named_token
      rw [← begun] at mem
      rcases mem_pending_of_begin mem with before | rfl
      · exact resolves e before named_uri named_token
      · exact absurd ⟨named_uri, named_token⟩ elsewhere
    · intro y d again other
      rw [ran] at again
      cases again
      rw [named] at other
      cases other
      exact elsewhere

theorem awaiting_of_loses (sound : server.Sound) (unopened : server.Unopened a)
    (loses : server.Loses a uri expected) :
    (server.next a).Keeping (·.Awaiting uri expected) := by
  obtain ⟨x, d, ran, named, rfl, rfl, lost⟩ := loses
  unfold report at ran lost
  rcases serveFrame_cases server a with ⟨request, arrived, same⟩ | ⟨_, _, _, _, _, idle, _⟩ |
      ⟨idle, _⟩
  · unfold next
    rw [same] at ran lost ⊢
    cases recovery : server.recovery with
    | none =>
      rw [(serveFresh_unavailable recovery a.env request).1] at ran
      cases ran
    | some store =>
      obtain ⟨c, middle, _, served, ⟨idle, _⟩ | ⟨y, again, other, free, opened, promotes⟩⟩ :=
        serveFresh_cases recovery a.env request
      · rw [idle] at ran
        cases ran
      · rw [again] at ran
        cases ran
        rw [other] at named
        cases named
        obtain ⟨_, kept, registry, pending, room⟩ := beginPending_ok opened
          (unopened store request recovery arrived) (sound store recovery)
        refine ⟨_, served, ?_⟩
        rw [promotes lost]
        refine guards_of_promotion kept ?_ ?_ _ _
        · rw [pending]
          simp
        · rw [registry]
          exact room
  · unfold report at idle
    rw [idle] at ran
    cases ran
  · rw [idle x ran] at named
    cases named

theorem guards_or_call {P : BlockedTarget → Prop}
    (fresh : ∀ target : BlockedTarget, target.state = none → P target)
    (spares : server.Spares a uri expected) (recovery : server.recovery = some store)
    (guards : store.Guards P uri expected) :
    (server.next a).Keeping (·.Guards P uri expected) ∨
      ∃ session command c, server.command a.payload = some (session, command) ∧
        command.call session = some c ∧ store.Spares c uri expected ∧
        (server.next a).recovery = some (store.next ⟨c, a.env.firstWrite⟩) := by
  rcases serveFrame_cases server a with ⟨request, arrived, same⟩ |
      ⟨session, command, kept, commanded, known, _, served⟩ | ⟨_, same⟩
  · unfold next
    rw [same]
    exact .inl (guards_of_fresh fresh recovery arrived spares guards).1
  · rw [recovery] at known
    cases known
    rw [performCommand_next] at served
    cases call : command.call session with
    | none =>
      rw [call] at served
      exact .inl ⟨store, served, guards⟩
    | some c =>
      rw [call] at served
      have spared := (spares store recovery).2 session command c commanded call
      exact .inr ⟨session, command, c, commanded, call, spared, served⟩
  · exact .inl ⟨store, same.trans recovery, guards⟩

theorem awaiting_step (spares : server.Spares a uri expected)
    (start : server.Keeping (·.Awaiting uri expected)) :
    (server.next a).Keeping (·.Awaiting uri expected) ∨
      (server.next a).Keeping (·.Held uri expected) ∧ server.Reconciles a uri expected := by
  obtain ⟨store, recovery, awaiting⟩ := start
  rcases guards_or_call (fun _ => id) spares recovery awaiting with
    kept | ⟨session, command, c, commanded, call, spared, served⟩
  · exact .inl kept
  · rcases awaiting_next ⟨c, a.env.firstWrite⟩ spared awaiting with
      kept | ⟨held, _, epoch, text, verdict, rfl, answered⟩
    · exact .inl ⟨_, served, kept⟩
    · cases command with
      | reconcile =>
        cases call
        exact .inr ⟨⟨_, served, held⟩, store, session, epoch, text, verdict, recovery, commanded,
          answered⟩
      | list | block | ack => cases call

theorem held_step (spares : server.Spares a uri expected)
    (start : server.Keeping (·.Held uri expected)) :
    (server.next a).Keeping (·.Held uri expected) ∨ server.Acknowledges a uri expected := by
  obtain ⟨store, recovery, held⟩ := start
  rcases guards_or_call (fun _ _ => trivial) spares recovery held with
    kept | ⟨session, command, c, commanded, call, spared, served⟩
  · exact .inl kept
  · rcases held_next ⟨c, a.env.firstWrite⟩ spared held with kept | ⟨_, epoch, rfl, answered⟩
    · exact .inl ⟨_, served, kept⟩
    · cases command with
      | ack =>
        cases call
        exact .inr ⟨store, session, epoch, recovery, commanded, answered⟩
      | list | block | reconcile => cases call

theorem not_executes_of_held (spares : server.Spares a uri expected)
    (held : server.Keeping (·.Held uri expected)) : ¬ server.Executes a uri expected := by
  rintro ⟨x, d, ran, named, target⟩
  obtain ⟨store, recovery, held⟩ := held
  unfold report at ran
  rcases serveFrame_cases server a with ⟨request, arrived, same⟩ | ⟨_, _, _, _, _, idle, _⟩ |
      ⟨idle, _⟩
  · rw [same] at ran
    exact (guards_of_fresh (fun _ _ => trivial) recovery arrived spares held).2 x d ran named
      target
  · unfold report at idle
    rw [idle] at ran
    cases ran
  · rw [idle x ran] at named
    cases named

end Guard

def Serves (server : PipeServer) : Prop :=
  ∀ store, server.recovery = some store → ∃ env directory capacity opened steps,
    openIn env directory capacity = some opened ∧
      store = run DurableRecoveryStore.next opened steps

theorem Serves.sound (h : server.Serves) : server.Sound := by
  intro store recovery
  obtain ⟨env, directory, capacity, opened, steps, made, rfl⟩ := h store recovery
  exact run_sound made steps

theorem Settled.append {uri expected : String} {first : List Arrival}
    (h : server.Settled first uri expected) (rest : List Arrival) :
    server.Settled (first ++ rest) uri expected := by
  obtain ⟨before, c, middle, d, after, rfl, reconciles, acknowledges⟩ := h
  exact ⟨before, c, middle, d, after ++ rest, by simp, reconciles, acknowledges⟩

theorem settled_of_executes {uri expected : String} {middle : List Arrival} {b : Arrival}
    (start : server.Keeping (·.Awaiting uri expected))
    (along : AllSteps next (fun s c => s.Spares c uri expected) server middle)
    (last : (run next server middle).Spares b uri expected)
    (executes : (run next server middle).Executes b uri expected) :
    server.Settled middle uri expected := by
  -- The wait lasts until a reconciliation, and then the hold until an acknowledgement.
  rcases run_or_exit (Keeping (·.Awaiting uri expected))
      (fun s c => (s.next c).Keeping (·.Held uri expected) ∧ s.Reconciles c uri expected)
      (fun s c kept spared => awaiting_step spared kept) start along with
    ⟨store, recovery, waiting⟩ | ⟨before, c, rest, rfl, _, held, reconciles⟩
  · exact absurd executes (not_executes_of_held last ⟨store, recovery, waiting.held⟩)
  · obtain ⟨_, _, later⟩ := (allSteps_append server before _).mp along
    rcases run_or_exit (Keeping (·.Held uri expected)) (fun s d => s.Acknowledges d uri expected)
        (fun s d kept spared => held_step spared kept) held later with
      holding | ⟨between, d, after, rfl, _, acknowledges⟩
    · rw [run_append, run_cons] at executes last
      exact absurd executes (not_executes_of_held last holding)
    · exact ⟨before, c, between, d, after, rfl, reconciles, acknowledges⟩

/-- A run that leaves the guard of the target alone is safe for the target. -/
theorem recovery_safe_of_undisturbed (serves : server.Serves) (arrivals : List Arrival)
    (uri expected : String) (undisturbed : server.Undisturbed arrivals uri expected) :
    server.RecoverySafe arrivals uri expected := by
  intro before a middle b after split loses executes
  by_contra unsettled
  have sound : (run next server before).Sound :=
    run_keeps Sound (fun _ a sound => sound_next sound a) serves.sound before
  obtain ⟨unopened, last⟩ := undisturbed before a middle b after split loses unsettled
  have start := awaiting_of_loses sound unopened loses
  refine unsettled (settled_of_executes start (allSteps_of_split ?_) last executes)
  rintro first c rest rfl
  refine (undisturbed before a first c (rest ++ b :: after) ?_ loses fun settled => ?_).2
  · rw [split, List.append_assoc, List.cons_append]
  · exact unsettled (settled.append (c :: rest))

def AllResolved (server : PipeServer) (arrivals : List Arrival) : Prop :=
  AllSteps next (fun s a => s.recovery.all (·.pending.isEmpty) = true ∧
    (s.command a.payload).isNone = true) server arrivals

theorem AllResolved.undisturbed {arrivals : List Arrival} (h : server.AllResolved arrivals)
    (uri expected : String) : server.Undisturbed arrivals uri expected := by
  have closed : ∀ {s : PipeServer} {store : DurableRecoveryStore}, s.recovery = some store →
      s.recovery.all (·.pending.isEmpty) = true → store.pending = [] := by
    intro s store recovery resolved
    rw [recovery] at resolved
    simpa using resolved
  rintro before a middle b after rfl _ _
  have first := AllSteps.at h
  have last := AllSteps.at ((allSteps_append server before _).mp h).2.2
  refine ⟨?_, ?_⟩
  · intro store request recovery _ e mem
    rw [closed recovery first.1] at mem
    cases mem
  · intro store recovery
    have empty := closed recovery last.1
    refine ⟨fun request _ => ⟨?_, ?_⟩, ?_⟩
    · intro e mem
      rw [empty] at mem
      cases mem
    · intro _ _ _ e mem
      rw [empty] at mem
      cases mem
    · intro session command c commanded
      have none := last.2
      rw [commanded] at none
      cases none

def ranFor (server : PipeServer) (a : Arrival) : Option (String × String × Bool) :=
  (server.report a).executed.bind fun x =>
    x.descriptor.map fun d => (d.uri, d.expected, uncertain x.outcome)

theorem executes_of_ranFor {a : Arrival} {uri expected : String} {lost : Bool}
    (ran : server.ranFor a = some (uri, expected, lost)) :
    server.Executes a uri expected ∧ (lost = true → server.Loses a uri expected) := by
  obtain ⟨x, executed, target⟩ := Option.bind_eq_some_iff.mp ran
  obtain ⟨d, named, eq⟩ := Option.map_eq_some_iff.mp target
  cases eq
  exact ⟨⟨x, d, executed, named, rfl, rfl⟩, fun lost => ⟨x, d, executed, named, rfl, rfl, .inl lost⟩⟩

theorem recovery_safe_promoted : ∃ (server : PipeServer) (hello one two : Arrival),
    (run next server [hello]).Loses one "file:///a" "resume" ∧
    (run next server [hello, one]).freshRequest two.payload ≠ none ∧
    server.RecoverySafe [hello, one, two] "file:///a" "resume" := by
  let server : PipeServer := ⟨"s1", ⟨none, ⟨KeyedQueue.empty, 256, by decide⟩⟩,
    some (freshStore (.replicate 16 0) 4 (by decide))⟩
  let env : FrameEnvironment := ⟨fun _ _ _ => .ambiguous "lost", none, true, true, true⟩
  let hello : Arrival := ⟨env, "HELLO|zonkey.host-transport/1"⟩
  let one : Arrival := ⟨env, "REQX|s1|r1|comp|file:///a|0|6|resume|restored|0|7|canonical"⟩
  let two : Arrival := ⟨env, "REQX|s1|r2|comp|file:///a|0|6|resume|restored|0|7|canonical"⟩
  have facts : (run next server [hello]).ranFor one = some ("file:///a", "resume", true) ∧
      ((run next server [hello, one]).freshRequest two.payload).isSome = true ∧
      server.AllResolved [hello, one, two] := by
    unfold AllResolved
    decide +kernel
  obtain ⟨lost, fresh, resolved⟩ := facts
  refine ⟨server, hello, one, two, (executes_of_ranFor lost).2 rfl, ?_, ?_⟩
  · exact Option.isSome_iff_ne_none.mp fresh
  · refine recovery_safe_of_undisturbed ?_ _ _ _ (resolved.undisturbed _ _)
    rintro store ⟨⟩
    exact ⟨_, _, _, _, [], openIn_freshStore _ (by decide), rfl⟩

/-- The durable write that promotes the intent fails, the block check overlooks
the open intent, and a second request executes on the same target. -/
theorem reexecutes_open_intent : ∃ (server : PipeServer) (arrivals : List Arrival),
    server.Serves ∧ ¬ server.RecoverySafe arrivals "file:///a" "resume" := by
  let server : PipeServer := ⟨"s1", ⟨none, ⟨KeyedQueue.empty, 256, by decide⟩⟩,
    some (freshStore (.replicate 16 0) 4 (by decide))⟩
  let env : FrameEnvironment := ⟨fun _ _ _ => .ambiguous "lost", none, true, false, true⟩
  let hello : Arrival := ⟨env, "HELLO|zonkey.host-transport/1"⟩
  let one : Arrival := ⟨env, "REQX|s1|r1|comp|file:///a|0|6|resume|restored|0|7|canonical"⟩
  let two : Arrival := ⟨env, "REQX|s1|r2|comp|file:///a|0|6|resume|restored|0|7|canonical"⟩
  have serves : server.Serves := by
    rintro store ⟨⟩
    exact ⟨_, _, _, _, [], openIn_freshStore _ (by decide), rfl⟩
  have ran : (run next server [hello]).ranFor one = some ("file:///a", "resume", true) ∧
      (run next server [hello, one]).ranFor two = some ("file:///a", "resume", true) := by
    decide +kernel
  obtain ⟨lost, again⟩ := ran
  refine ⟨server, [hello, one, two], serves, fun safe => ?_⟩
  obtain ⟨before, c, middle, d, after, split, _⟩ := safe [hello] one [] two [] rfl
    ((executes_of_ranFor lost).2 rfl) (executes_of_ranFor again).1
  simp at split

end PipeServer
end ZonKey.Pipe

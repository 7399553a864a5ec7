import ZonKey.CompositionGate
import ZonKey.PipeRecoverySafety
import ZonKey.RecoveryStoreBound

set_option autoImplicit false

namespace ZonKey.Store.DurableRecoveryStore
open ByteCursor Recovery RecoveryCodec WriteThrough Runs

/-- The same live state, over a file that is as it was or holds that state. -/
structure Untouched (start store : DurableRecoveryStore) : Prop where
  live : store.live = start.live
  salt : store.salt = start.salt
  poison : store.poison = start.poison
  file : store.directory.content = start.directory.content ∨
    ∃ bytes, encodeLive start.salt start.live = .ok bytes ∧ store.directory.content = some bytes

variable {start store middle : DurableRecoveryStore}

theorem Untouched.refl (store : DurableRecoveryStore) : store.Untouched store :=
  ⟨rfl, rfl, rfl, .inl rfl⟩

theorem Untouched.trans (first : start.Untouched middle) (second : middle.Untouched store) :
    start.Untouched store := by
  refine ⟨second.live.trans first.live, second.salt.trans first.salt,
    second.poison.trans first.poison, ?_⟩
  rcases second.file with same | ⟨bytes, encoded, content⟩
  · rw [same]
    exact first.file
  · rw [first.salt, first.live] at encoded
    exact .inr ⟨bytes, encoded, content⟩

theorem untouched_next {step : StoreStep} (same : (store.next step).live = store.live) :
    store.Untouched (store.next step) := by
  refine ⟨same, next_salt step, next_poison step, ?_⟩
  have effect := apply_effect store step
  generalize (step.call.apply step.durable store).1 = answer at effect
  generalize store.next step = after at effect same ⊢
  cases effect with
  | poisoned => exact .inl rfl
  | mutated healthy outcome =>
    cases outcome with
    | refused | unencodable | unwritten => exact .inl rfl
    | @committed _ made bytes _ encoded =>
      refine .inr ⟨bytes, ?_, rfl⟩
      rw [← same]
      exact encoded

theorem untouched_resolution (step : StoreStep) {session requestId : String}
    (resolution : Pipe.PipeServer.Resolution session requestId step.call)
    (unopened : store.pending = []) : store.Untouched (store.next step) := by
  apply untouched_next
  rcases next_live store step with same | ⟨reply, accepted⟩
  · exact same
  · generalize (store.next step).live = made at accepted ⊢
    rcases resolution with call | call
    · rw [call] at accepted
      cases accepted
      simp [live, unopened]
    · rw [call] at accepted
      cases accepted with
      | unknown => rfl
      | promoted split => simp [live, unopened] at split

/-- The intent of a preflight is withdrawn again by a clearance that is written. -/
theorem untouched_begin_clear {d : RecoveryDescriptor} {durable : Bool}
    (sound : store.live.Sound) (unopened : store.pending = [])
    (begun : store.beginPending durable d = (.ok (), middle)) :
    store.Untouched (middle.next ⟨.clearPending d.requestId, true⟩) := by
  have answered : StoreCall.apply (.beginPending d) durable store = (.ok .begun, middle) := by
    simp only [StoreCall.apply, begun, Prod.map, Except.map, id]
  have effect := apply_effect store ⟨.beginPending d, durable⟩
  have same : store.next ⟨.beginPending d, durable⟩ = middle := congrArg Prod.snd answered
  rw [same, answered] at effect
  obtain ⟨healthy, accepted, persisted⟩ := effect.healthy
  have salt := effect.salt
  have poison := effect.poison
  have opened : middle.live = ⟨store.registry, [d]⟩ := by
    generalize middle.live = made at accepted
    cases accepted with
    | known opened =>
      obtain ⟨existing, mem, _⟩ := opened
      simp [live, unopened] at mem
    | begun => simp [live, unopened]
  have performed : (StoreCall.clearPending d.requestId).operation middle.live =
      (.ok (.cleared true), store.live) := by
    rw [opened]
    simp [StoreCall.operation, clearPendingOperation, live, unopened, Except.map]
  have sound' : middle.live.Sound := by
    rw [← same]
    exact next_keeps Accepted.sound _ sound
  obtain ⟨file, encoded⟩ := persisted.encodes_kept sound' (accepted_of_operation performed) id
  have committed : middle.next ⟨.clearPending d.requestId, true⟩ = { middle with
      registry := store.live.registry
      pending := store.live.pending
      directory := middle.directory.replace file true } := by
    rw [next, apply_eq, mutateState_committed (poison.trans healthy) performed encoded]
  rw [committed]
  rw [salt] at encoded
  exact ⟨rfl, salt, poison, .inr ⟨file, encoded, rfl⟩⟩

end ZonKey.Store.DurableRecoveryStore

namespace ZonKey.Pipe
open Transport Runs Store DurableRecoveryStore

/-- A frame of a client that only asks: no operator command, and both its
answer and the write behind it get through. -/
structure GateFrame.Asks (f : GateFrame) : Prop where
  query : ∀ command, frameBody f.payload ≠ .recovery command
  delivery : f.delivery = true
  written : f.secondWrite = true

theorem rejection_certain {outcome : LedgerOutcome} (rejected : Rejection outcome) :
    PipeServer.uncertain outcome = false := by
  obtain ⟨reason, rfl⟩ := rejected
  simp [PipeServer.uncertain, stripPrefix_append]

namespace PipeServer
variable {server : PipeServer}

theorem serveFresh_clears {env : FrameEnvironment} {request : DescriptorRequest}
    {outcome : LedgerOutcome} {executed : Option Execution} {served : PipeServer}
    {middle : DurableRecoveryStore}
    (answered : server.executeDescriptorRequest env request = (outcome, executed, served))
    (known : served.recovery = some middle) (certain : uncertain outcome = false)
    (delivered : writeFrame env (outcomePayload outcome) = true) :
    (server.serveFresh env request).2.recovery =
      some (middle.next ⟨.clearPending request.descriptor.requestId, env.secondWrite⟩) := by
  have written : (answer env (outcomePayload outcome) executed).delivered = true := delivered
  simp only [serveFresh, answered, written, ↓reduceIte, resolvePending, certain, known]
  rfl

theorem serveFresh_untouched {store : DurableRecoveryStore} {f : GateFrame} (asks : f.Asks)
    (recovery : server.recovery = some store) (sound : store.live.Sound)
    (unopened : store.pending = []) (request : DescriptorRequest) :
    ∃ after, (server.serveFresh f.arrival.env request).2.recovery = some after ∧
      store.Untouched after := by
  cases free : store.targetBlocked request.descriptor.uri request.descriptor.expected with
  | true =>
    have answered : server.executeDescriptorRequest f.arrival.env request =
        (.definite "rejected:TargetBlocked", none, server) := by
      simp only [executeDescriptorRequest, recovery, free, ↓reduceIte]
    obtain ⟨_, c, resolution, after, _⟩ := serveFresh_resolves answered recovery
    exact ⟨_, after, untouched_resolution ⟨c, _⟩ resolution unopened⟩
  | false =>
    cases begun : store.beginPending f.arrival.env.firstWrite request.descriptor with
    | mk result middle =>
      cases result with
      | error error =>
        have answered : server.executeDescriptorRequest f.arrival.env request =
            (.definite "rejected:RecoveryPreflightFailed", none,
              { server with recovery := some middle }) := by
          simp only [executeDescriptorRequest, recovery, free, begun, Bool.false_eq_true,
            ↓reduceIte]
        obtain ⟨_, c, resolution, after, _⟩ := serveFresh_resolves answered rfl
        have refused := (beginPending_error begun).1
        have same : store.next ⟨.beginPending request.descriptor, f.arrival.env.firstWrite⟩ =
            middle := congrArg Prod.snd begun
        have first : store.Untouched middle := by
          rw [← same] at refused ⊢
          exact untouched_next refused
        have still : middle.pending = [] :=
          (congrArg LiveState.pending refused).trans unopened
        exact ⟨_, after, first.trans (untouched_resolution ⟨c, _⟩ resolution still)⟩
      | ok =>
        have answered : ∃ served, server.executeDescriptorRequest f.arrival.env request =
            (compositionGateOutcome request.composition,
              some ⟨request.descriptor.requestId, request.composition, request.canonical,
                some request.descriptor, compositionGateOutcome request.composition⟩, served) ∧
            served.recovery = some middle := by
          simp only [executeDescriptorRequest, recovery, free, begun, Bool.false_eq_true,
            ↓reduceIte]
          exact ⟨_, rfl, rfl⟩
        obtain ⟨served, answered, known⟩ := answered
        have delivered : writeFrame f.arrival.env
            (outcomePayload (compositionGateOutcome request.composition)) = true :=
          (writeFrame_iff asks.delivery (outcomePayload_ne_empty _)).mpr (gate_fits _)
        have cleared := serveFresh_clears answered known
          (rejection_certain (compositionGateOutcome_rejects _)) delivered
        have written : f.arrival.env.secondWrite = true := asks.written
        rw [written] at cleared
        exact ⟨_, cleared, untouched_begin_clear sound unopened begun⟩

theorem next_untouched {store : DurableRecoveryStore} {f : GateFrame} (asks : f.Asks)
    (recovery : server.recovery = some store) (sound : store.live.Sound)
    (unopened : store.pending = []) :
    ∃ after, (server.next f.arrival).recovery = some after ∧ store.Untouched after := by
  rcases serveFrame_cases server f.arrival with ⟨request, _, same⟩ |
      ⟨session, command, _, commanded, _⟩ | ⟨_, same⟩
  · unfold next
    rw [same]
    exact serveFresh_untouched asks recovery sound unopened request
  · unfold PipeServer.command at commanded
    cases body : frameBody f.arrival.payload with
    | recovery command => exact absurd body (asks.query command)
    | hello | handoff | req | reqx | unknown => simp [body] at commanded
  · exact ⟨store, same.trans recovery, .refl store⟩

/-- A run of queries whose answers arrive leaves the recovery state as it was
opened: the blocked targets, the intents, and the file up to one rewriting. -/
theorem gate_leaves_no_trace {environment : OpenEnvironment} {directory : StateDirectory}
    {capacity : Nat} {opened : DurableRecoveryStore}
    (opens : openIn environment directory capacity = some opened) (sessionId : String)
    (frames : List GateFrame) (asks : ∀ f ∈ frames, f.Asks) :
    ∃ after, (run next (gateServer sessionId (some opened))
        (frames.map GateFrame.arrival)).recovery = some after ∧ opened.Untouched after := by
  have sound := opened_sound opens
  have unopened : opened.pending = [] := by
    cases openIn_opening opens with
    | unavailable | unreadable | fresh | restored => rfl
  have steady : ∀ (server : PipeServer), (∃ store, server.recovery = some store ∧
      opened.Untouched store) → ∃ after, (run next server
        (frames.map GateFrame.arrival)).recovery = some after ∧ opened.Untouched after := by
    induction frames with
    | nil => exact fun _ start => start
    | cons f rest ih =>
      rintro server ⟨store, recovery, same⟩
      obtain ⟨after, served, untouched⟩ := next_untouched (asks f List.mem_cons_self) recovery
        (same.live ▸ sound) ((congrArg LiveState.pending same.live).trans unopened)
      exact ih (fun g mem => asks g (List.mem_cons_of_mem f mem)) _
        ⟨after, served, same.trans untouched⟩
  exact steady _ ⟨opened, rfl, .refl opened⟩

theorem gate_leaves_no_trace_after_request :
    let opened := freshStore (.replicate 16 0) 4 (by decide)
    let frames : List GateFrame := [⟨none, true, true, true, "HELLO|" ++ transportProtocolId⟩,
      ⟨none, true, true, true,
        "REQX|" ++ "s1|r1|Active|file:///a|0|6|resume|restored|0|7|canonical"⟩]
    ∃ after, (run next (gateServer "s1" (some opened)) (frames.map GateFrame.arrival)).recovery =
      some after ∧ opened.Untouched after := by
  intro opened frames
  refine gate_leaves_no_trace (openIn_freshStore _ (by decide)) "s1" frames ?_
  intro f mem
  rcases List.mem_pair.mp mem with rfl | rfl
  · refine ⟨fun command => ?_, rfl, rfl⟩
    simp [frameBody, stripPrefix_append]
  · refine ⟨fun command => ?_, rfl, rfl⟩
    rw [frameBody_reqx]
    exact FrameBody.noConfusion

end PipeServer
end ZonKey.Pipe

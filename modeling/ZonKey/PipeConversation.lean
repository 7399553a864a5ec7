import ZonKey.PipeNativeClient
import ZonKey.StopAndWait

set_option autoImplicit false

namespace ZonKey.Pipe
open Transport Recovery Runs StopAndWait

inductive ClientCall where
  | connect
  | request (requestId composition canonical : String)
  | requestWithDescriptor (descriptor : RecoveryDescriptor) (composition canonical : String)
  | handoffQuery
  | recoveryCommand (command : String)

namespace ClientCall

def payload (session : String) : ClientCall → String
  | connect => PipeClient.helloPayload
  | request requestId composition canonical =>
    PipeClient.requestPayload session requestId composition canonical
  | requestWithDescriptor descriptor composition canonical =>
    PipeClient.descriptorPayload session descriptor composition canonical
  | handoffQuery => "HANDOFF|" ++ session
  | recoveryCommand command => "RECOVERY|" ++ session ++ "|" ++ command

/-- The answers after which the connection is still used: a failed `connect` closes it. -/
def keeps (text : String) : ClientCall → Bool
  | connect => (stripPrefix "ERROR|" text).isNone && (stripPrefix "WELCOME|" text).isSome
  | request .. | requestWithDescriptor .. =>
    (stripPrefix "ERROR|" text).isSome || (parseOutcome text).toBool
  | handoffQuery | recoveryCommand _ =>
    (stripPrefix "ERROR|" text).isSome || (stripPrefix "RESULT|DEFINITE|" text).isSome

def usable (client : PipeClient) (env : CallEnvironment) : ClientCall → Bool
  | connect => (PipeClient.connect true env).toBool
  | request requestId composition canonical =>
    ! (client.request env requestId composition canonical).2.broken
  | requestWithDescriptor descriptor composition canonical =>
    ! (client.requestWithDescriptor env descriptor composition canonical).2.broken
  | handoffQuery => ! (client.handoffQuery env).2.broken
  | recoveryCommand command => ! (client.recoveryCommand env command).2.broken

end ClientCall

structure SessionCall where
  session : String
  call : ClientCall

def SessionCall.payload (c : SessionCall) : String := c.call.payload c.session

/-- A failed write may have put the whole frame into the pipe all the same. -/
structure ServedFrame where
  env : FrameEnvironment
  leaks : Bool

def answerOf (input : ServedFrame) (report : FrameReport) : Option String :=
  if report.delivered then report.sent
  else if input.leaks then report.sent.filter fun text => (encodeFrame text).toBool
  else none

/-- The listener's connection loop and the native client over one pipe. -/
def pipeProtocol : Protocol PipeServer ServedFrame SessionCall String where
  serve server input c :=
    let (report, next) := server.serveFrame input.env c.payload
    ⟨answerOf input report, report.keepsOpen, next⟩
  keep c text := c.call.keeps text

abbrev PipeLink := Link PipeServer ServedFrame SessionCall String

abbrev PipeMove := Move ServedFrame SessionCall

abbrev PipeExchange := Exchange ServedFrame SessionCall String

/-- The frames that the server read, in the order of the calls. -/
def frames (history : List PipeExchange) : List Arrival :=
  (arrivals history).map fun (input, c) => ⟨input.env, c.payload⟩

/-- The pipe during one call: the write, the server's moves up to the read, and
how the read fails unless an answer is there. -/
structure CallTrace where
  writes : Bool
  reached : Bool
  during : List (Option ServedFrame)
  failure : Option PipeError
  extra : Nat

namespace CallTrace

def serverMove : Option ServedFrame → PipeMove
  | some input => .serve input
  | none => .leave

def moves (trace : CallTrace) (c : SessionCall) : List PipeMove :=
  .call c true trace.reached :: trace.during.map serverMove

def perform (trace : CallTrace) (link : PipeLink) (c : SessionCall) : PipeLink × CallEnvironment :=
  let env : CallEnvironment := ⟨trace.writes, .error .connectionLost⟩
  if ¬ (env.write c.payload).toBool then
    (run pipeProtocol.step link [.call c false trace.reached], env)
  else
    let asked := run pipeProtocol.step link (trace.moves c)
    match trace.failure, asked.outbound with
    | none, (_, text) :: _ =>
      (pipeProtocol.step asked (.receive trace.extra), ⟨trace.writes, .ok text⟩)
    | failure, _ =>
      (pipeProtocol.step asked .giveUp, ⟨trace.writes, .error (failure.getD .timeout)⟩)

end CallTrace

namespace ClientCall

theorem toBool_iff {α β : Type} {x : Except α β} : x.toBool = true ↔ ∃ b, x = .ok b := by
  cases x <;> simp [Except.toBool]

theorem readable_outcome (text : String) :
    PipeClient.Readable parseOutcome text ↔
      ((stripPrefix "ERROR|" text).isSome || (parseOutcome text).toBool) = true := by
  rw [Bool.or_eq_true, toBool_iff]
  rfl

theorem readable_definite (expected text : String) :
    PipeClient.Readable (PipeClient.parseDefinite expected) text ↔
      ((stripPrefix "ERROR|" text).isSome || (stripPrefix "RESULT|DEFINITE|" text).isSome) = true := by
  unfold PipeClient.Readable PipeClient.parseDefinite
  rw [Bool.or_eq_true]
  cases stripPrefix "RESULT|DEFINITE|" text <;> simp

theorem usable_iff {client : PipeClient} (fresh : client.broken = false) (env : CallEnvironment)
    (call : ClientCall) :
    call.usable client env = true ↔ (env.write (call.payload client.sessionId)).toBool = true ∧
      ∃ text, env.read = .ok text ∧ call.keeps text = true := by
  have exchanged : ∀ {τ : Type} (payload : String) (parse : String → Except PipeError τ),
      (! (client.exchange env payload parse).2.broken) = true ↔
        (env.write payload).toBool = true ∧
          ∃ text, env.read = .ok text ∧ PipeClient.Readable parse text := by
    intro τ payload parse
    rw [Bool.not_eq_true', PipeClient.exchange_usable_iff]
    simp only [fresh, true_and]
  cases call with
  | connect =>
    unfold usable keeps
    simp only [toBool_iff, PipeClient.connect_ok_iff, Bool.and_eq_true, Option.isNone_iff_eq_none,
      Option.isSome_iff_exists]
    constructor
    · rintro ⟨connected, written, text, read, accepted, welcomed, _⟩
      exact ⟨written, text, read, accepted, connected.sessionId, welcomed⟩
    · rintro ⟨written, text, read, accepted, session, welcomed⟩
      exact ⟨⟨session, false⟩, written, text, read, accepted, welcomed, rfl⟩
  | request requestId composition canonical =>
    unfold usable keeps PipeClient.request
    simp only [exchanged, readable_outcome]
    rfl
  | requestWithDescriptor descriptor composition canonical =>
    unfold usable keeps PipeClient.requestWithDescriptor
    simp only [exchanged, readable_outcome]
    rfl
  | handoffQuery =>
    unfold usable keeps PipeClient.handoffQuery
    simp only [exchanged, readable_definite]
    rfl
  | recoveryCommand command =>
    unfold usable keeps PipeClient.recoveryCommand
    simp only [exchanged, readable_definite]
    rfl

end ClientCall

variable {server : PipeServer}

theorem run_frames (server : PipeServer) (history : List PipeExchange) :
    run pipeProtocol.next server (arrivals history) = run PipeServer.next server (frames history) := by
  unfold frames
  generalize arrivals history = read
  induction read generalizing server with
  | nil => rfl
  | cons first rest ih => exact ih _

theorem sent_of_answer {input : ServedFrame} {report : FrameReport} {text : String}
    (answered : answerOf input report = some text) : report.sent = some text := by
  unfold answerOf at answered
  split at answered
  · exact answered
  · split at answered
    · exact (Option.filter_eq_some_iff.mp answered).1
    · cases answered

theorem answer_sent {server : PipeServer} {moves : List PipeMove} {before after : List PipeExchange}
    {x : PipeExchange} {text : String}
    (made : (run pipeProtocol.step (.closed server) moves).history = before ++ x :: after)
    (returned : x.result = some text) :
    ∃ input, x.served = some input ∧
      ((run PipeServer.next server (frames before)).report
        ⟨input.env, x.payload.payload⟩).sent = some text := by
  have sequential : pipeProtocol.Sequential server
      (run pipeProtocol.step (.closed server) moves).history
      (run pipeProtocol.step (.closed server) moves).server :=
    Protocol.run_sequential server moves
  rw [made] at sequential
  obtain ⟨input, served, answered⟩ := sequential.answered returned
  rw [run_frames] at answered
  exact ⟨input, served, sent_of_answer answered⟩

/-- However calls, time-outs, losses and reconnections interleave, the server has
read the frames of some of the calls, in their order, and a call that returned
an answer returned the one that the server sent to its own frame. -/
theorem conversation_sequential (server : PipeServer) (moves : List PipeMove) :
    let link := run pipeProtocol.step (.closed server) moves
    link.server = run PipeServer.next server (frames link.history) ∧
      ∀ before x after text, link.history = before ++ x :: after → x.result = some text →
        ∃ input, x.served = some input ∧
          ((run PipeServer.next server (frames before)).report
            ⟨input.env, x.payload.payload⟩).sent = some text := by
  intro link
  have sequential : pipeProtocol.Sequential server link.history link.server :=
    Protocol.run_sequential server moves
  refine ⟨sequential.run_arrivals.trans (run_frames server _), ?_⟩
  intro before x after text made returned
  exact answer_sent made returned

namespace CallTrace

theorem waiting_during {link : PipeLink} {before : List PipeExchange} {c : SessionCall}
    {served : Option ServedFrame} (underWay : pipeProtocol.UnderWay server link)
    (waiting : Protocol.Waiting link before c served) (during : List (Option ServedFrame)) :
    pipeProtocol.UnderWay server (run pipeProtocol.step link (during.map serverMove)) ∧
      ∃ served, Protocol.Waiting (run pipeProtocol.step link (during.map serverMove)) before c
        served := by
  induction during generalizing link served with
  | nil => exact ⟨underWay, served, waiting⟩
  | cons move rest ih =>
    have kept := Protocol.underWay_step underWay (serverMove move)
    cases move with
    | none =>
      have still : Protocol.Waiting (pipeProtocol.step link (serverMove none)) before c served :=
        ⟨waiting.phase, waiting.history⟩
      exact ih kept still
    | some input =>
      obtain ⟨served, still⟩ := waiting.serve underWay input
      exact ih kept still

theorem perform_cases (trace : CallTrace) (link : PipeLink) (c : SessionCall) :
    let asked := run pipeProtocol.step link (trace.moves c)
    let written (read : Except PipeError String) : Bool :=
      ((⟨trace.writes, read⟩ : CallEnvironment).write c.payload).toBool
    (∃ read, written read = false ∧ read.toOption = none ∧
      trace.perform link c = (run pipeProtocol.step link [.call c false trace.reached],
        ⟨trace.writes, read⟩)) ∨
    (∃ tag text rest, written (.ok text) = true ∧ asked.outbound = (tag, text) :: rest ∧
      trace.perform link c = (pipeProtocol.step asked (.receive trace.extra),
        ⟨trace.writes, .ok text⟩)) ∨
    ∃ error, written (.error error) = true ∧
      trace.perform link c = (pipeProtocol.step asked .giveUp, ⟨trace.writes, .error error⟩) := by
  intro asked written
  unfold perform
  cases possible : written (.error .connectionLost) with
  | false =>
    refine .inl ⟨_, possible, rfl, if_pos ?_⟩
    exact Bool.eq_false_iff.mp possible
  | true =>
    right
    dsimp only
    rw [if_neg (not_not.mpr possible)]
    split
    · rename_i tag text rest _ outbound
      exact .inl ⟨tag, text, rest, possible, outbound, rfl⟩
    · exact .inr ⟨trace.failure.getD .timeout, possible, rfl⟩

/-- A blocking call is a run of moves: it adds one exchange, whose answer is the
one that the client's code reads, and leaves the link open exactly if that code
leaves the client usable. -/
theorem perform_refines (trace : CallTrace) (client : PipeClient) (fresh : client.broken = false)
    (call : ClientCall) {link : PipeLink} (underWay : pipeProtocol.UnderWay server link)
    (idle : link.phase = .idle) :
    let performed := trace.perform link ⟨client.sessionId, call⟩
    (∃ moves, performed.1 = run pipeProtocol.step link moves) ∧
      (∃ served, performed.1.history =
        link.history ++ [⟨⟨client.sessionId, call⟩, served, performed.2.read.toOption⟩]) ∧
      performed.1.phase = if call.usable client performed.2 then .idle else .gone := by
  intro performed
  have usable := ClientCall.usable_iff fresh performed.2 call
  obtain ⟨_, served, waiting⟩ := waiting_during
    (Protocol.underWay_call underWay ⟨client.sessionId, call⟩ true trace.reached)
    (Protocol.waiting_call idle _ trace.reached) trace.during
  rcases trace.perform_cases link ⟨client.sessionId, call⟩ with ⟨read, stopped, unread, eq⟩ |
    ⟨tag, text, rest, written, outbound, eq⟩ | ⟨error, written, eq⟩
  · have unusable : call.usable client performed.2 = false := by
      rw [← Bool.not_eq_true, usable]
      rintro ⟨written, _⟩
      rw [show performed.2 = ⟨trace.writes, read⟩ from congrArg Prod.snd eq] at written
      exact absurd (written.symm.trans stopped) nofun
    rw [unusable, show performed = _ from eq]
    refine ⟨⟨_, rfl⟩, ⟨none, ?_⟩, ?_⟩
    · simp [Protocol.step, Protocol.call, idle, unread]
    · simp [Protocol.step, Protocol.call, idle]
  · obtain ⟨history, phase⟩ := waiting.receive outbound trace.extra
    have keeps : call.usable client performed.2 = call.keeps text := by
      rw [Bool.eq_iff_iff, usable, show performed.2 = _ from congrArg Prod.snd eq]
      constructor
      · rintro ⟨_, _, ⟨⟩, kept⟩
        exact kept
      · exact fun kept => ⟨written, text, rfl, kept⟩
    rw [keeps, show performed = _ from eq]
    exact ⟨⟨trace.moves _ ++ [.receive trace.extra], by rw [run_append]; rfl⟩, ⟨served, history⟩, phase⟩
  · obtain ⟨history, phase⟩ := waiting.giveUp
    have unusable : call.usable client performed.2 = false := by
      rw [← Bool.not_eq_true, usable, show performed.2 = _ from congrArg Prod.snd eq]
      rintro ⟨_, _, ⟨⟩, _⟩
    rw [unusable, show performed = _ from eq]
    exact ⟨⟨trace.moves _ ++ [.giveUp], by rw [run_append]; rfl⟩, ⟨served, history⟩, phase⟩

end CallTrace

def appliedOnce : ServedFrame := ⟨⟨fun _ _ _ => .definite "applied", none, true, true, true⟩, false⟩

theorem CallTrace.perform_refines_connect :
    ((⟨true, true, [some appliedOnce], none, 0⟩ : CallTrace).perform
      (Protocol.reopen (.closed (PipeServer.smallServer 2 (by decide)))) ⟨"", .connect⟩).1.phase =
        .idle :=
  (CallTrace.perform_refines ⟨true, true, [some appliedOnce], none, 0⟩ ⟨"", false⟩ rfl .connect
    (Protocol.underWay_reopen (Protocol.underWay_closed _)) rfl).2.2.trans (by rfl)

end ZonKey.Pipe

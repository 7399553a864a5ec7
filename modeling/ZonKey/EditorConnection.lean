import ZonKey.CompositionGate
import ZonKey.DiscoveryLifecycle
import ZonKey.OperatorChecks
import ZonKey.PipeRecoveryCommands
import Mathlib.Data.Nat.Digits.Defs

set_option autoImplicit false

namespace ZonKey.Host
open Pipe Transport Discovery ByteCursor Digest Runs

/-- `next_session_id`, with the counter and the nonce that it finds. -/
def nextSessionId (counter : UInt64) (nonce : List.Vector UInt8 16) : String :=
  "sess-" ++ toString counter ++ "-" ++ Recovery.RecoveryRegistry.hex nonce.toList

inductive ConnectError where
  | connectTimeout
  | failed (error : PipeClientError)
  deriving DecidableEq

/-- What `connect` makes of the frame it waits for. -/
def welcomed (payload : String) : Except PipeClientError JsString :=
  match stripPrefix "ERROR|" payload with
  | some reason =>
    if reason = "protocol_mismatch" then .error .protocolMismatch else .error .sessionMismatch
  | none =>
    let session := (utf16 payload).drop (js "WELCOME|").length
    if session.length = 0 then .error (.invalidPayload "empty session") else .ok session

/-- One attempt: whether the socket opens in time, the chunks that come in while
the client waits, and whether it is closed before the timer. -/
structure Connecting where
  opened : Bool
  chunks : List Bytes
  lost : Bool

/-- `NamedPipeClient.connect`, up to the session of the client. -/
def connect (attempt : Connecting) : Except ConnectError JsString :=
  if ¬ attempt.opened then .error .connectTimeout
  else
    let client := run NamedPipeClient.onData .fresh attempt.chunks
    match client.delivered with
    | frame :: _ => (welcomed frame).mapError .failed
    | [] =>
      if client.closed || attempt.lost then .error (.failed .connectionLost)
      else .error (.failed .timeout)

/-- A stream in chunks of the given sizes; what is behind them does not come in time. -/
def cut : List Nat → Bytes → List Bytes
  | [], _ => []
  | size :: sizes, stream => stream.take size :: cut sizes (stream.drop size)

section Welcome
variable {text : String} {frame : Bytes}

theorem flatten_cut (sizes : List Nat) (stream : Bytes) :
    (cut sizes stream).flatten = stream.take sizes.sum := by
  induction sizes generalizing stream with
  | nil => rfl
  | cons size sizes ih =>
    rw [cut, List.flatten_cons, ih, List.sum_cons, ← List.take_add]

theorem run_part (encoded : encodeFrame text = .ok frame) {n : Nat} (part : n < frame.length) :
    frameCutter.run (frame.take n) = ([], .leftover (frame.take n)) := by
  obtain ⟨some_byte, fits, rfl⟩ := encodeFrame_shape encoded
  have header : (leBytes frameHeaderBytes (asBytes text).length).length = frameHeaderBytes :=
    leBytes_length _ _
  have size : (leBytes frameHeaderBytes (asBytes text).length ++ asBytes text).length =
      frameHeaderBytes + (asBytes text).length := by
    rw [List.length_append, header]
  rw [size] at part
  have taken :
      ((leBytes frameHeaderBytes (asBytes text).length ++ asBytes text).take n).length = n := by
    rw [List.length_take, size]
    omega
  refine FrontDecoder.run_waiting ?_
  rw [frameCutter_decode]
  unfold cutFrame
  rw [taken]
  by_cases short : n < frameHeaderBytes
  · rw [if_pos short]
  · have small : (asBytes text).length < 256 ^ frameHeaderBytes := by
      unfold maxFrameBytes at fits
      unfold frameHeaderBytes
      omega
    have length : ofLeBytes (((leBytes frameHeaderBytes (asBytes text).length ++
        asBytes text).take n).take frameHeaderBytes) = (asBytes text).length := by
      rw [List.take_take, min_eq_left (Nat.le_of_not_lt short), List.take_left' header]
      exact ofLeBytes_leBytes_of_lt small
    rw [if_neg short]
    simp only [length]
    rw [if_neg (mt List.length_eq_zero_iff.mp some_byte), if_neg (Nat.not_lt.mpr fits), if_pos part]

theorem encodeFrame_length (encoded : encodeFrame text = .ok frame) :
    frame.length ≤ frameHeaderBytes + maxFrameBytes := by
  obtain ⟨_, fits, rfl⟩ := encodeFrame_shape encoded
  rw [List.length_append, leBytes_length]
  exact Nat.add_le_add_left fits _

theorem run_whole (encoded : encodeFrame text = .ok frame) :
    frameCutter.run frame = ([asBytes text], .leftover []) := by
  obtain ⟨some_byte, fits, rfl⟩ := encodeFrame_shape encoded
  have taken := cutFrame_frame some_byte fits []
  rw [List.append_nil, ← frameCutter_decode] at taken
  rw [FrontDecoder.run_item taken, FrontDecoder.run_waiting rfl]
  rfl

theorem toStringUtf8_asBytes (text : String) : toStringUtf8 (asBytes text) = text := by
  unfold toStringUtf8
  rw [fromUTF8_asBytes]

/-- Of one frame in chunks, the client is handed the text once all of it came in. -/
theorem delivered_cut (encoded : encodeFrame text = .ok frame) (sizes : List Nat) :
    (run NamedPipeClient.onData .fresh (cut sizes frame)).delivered =
      if frame.length ≤ sizes.sum then [text] else [] := by
  have nothing : frameCutter.run [] = ([], .leftover []) := FrontDecoder.run_waiting rfl
  have none_yet : (frameCutter.run []).2 = .leftover NamedPipeClient.fresh.receiveBuffer := by
    rw [nothing]
    rfl
  have none_delivered : NamedPipeClient.fresh.delivered = (rawFrames []).map toStringUtf8 := by
    rw [rawFrames, nothing]
    rfl
  have arrived := (NamedPipeClient.run_delivered rfl none_yet none_delivered (cut sizes frame)).1
  have ending : frameCutter.run ([] ++ (cut sizes frame).flatten) =
      if frame.length ≤ sizes.sum then ([asBytes text], .leftover [])
      else ([], .leftover (frame.take sizes.sum)) := by
    rw [List.nil_append, flatten_cut]
    split_ifs with whole
    · rw [List.take_of_length_le whole, run_whole encoded]
    · exact run_part encoded (Nat.lt_of_not_le whole)
  have good : badHeader ([] ++ (cut sizes frame).flatten) = false := by
    unfold badHeader
    rw [ending]
    split_ifs <;> rfl
  rw [arrived, intact_of_good good, rawFrames, ending]
  split_ifs
  · rw [List.map_singleton, toStringUtf8_asBytes]
  · rfl

theorem delivered_silent (sizes : List Nat) :
    (run NamedPipeClient.onData .fresh (cut sizes [])).delivered = [] := by
  have nothing : ∀ size, NamedPipeClient.fresh.onData (([] : Bytes).take size) = .fresh := by
    intro size
    simp [NamedPipeClient.onData, NamedPipeClient.decodeFrames, NamedPipeClient.decodeFramesFrom,
      NamedPipeClient.fresh]
  induction sizes with
  | nil => rfl
  | cons size sizes ih => rw [cut, run_cons, nothing, List.drop_nil, ih]

theorem welcomed_session {session : String} (nonempty : session ≠ "") :
    welcomed ("WELCOME|" ++ session) = .ok (utf16 session) := by
  have other : stripPrefix "ERROR|" ("WELCOME|" ++ session) = none := by
    rw [stripPrefix, String.toList_append]
    rfl
  have title : (utf16 "WELCOME|").length = (js "WELCOME|").length := rfl
  have behind : (utf16 ("WELCOME|" ++ session)).drop (js "WELCOME|").length = utf16 session := by
    rw [utf16_append, ← title, List.drop_left]
  have some_unit : utf16 session ≠ [] :=
    utf16_ne_nil fun chars => nonempty (String.toList_eq_nil_iff.mp chars)
  unfold welcomed
  rw [other]
  simp only [behind, List.length_eq_zero_iff, some_unit, if_false]

/-- The welcome is understood exactly if the socket opens and all of its frame comes in. -/
theorem connect_welcome {session : String} (nonempty : session ≠ "")
    (encoded : encodeFrame ("WELCOME|" ++ session) = .ok frame) (opened lost : Bool)
    (sizes : List Nat) (found : JsString) :
    connect ⟨opened, cut sizes frame, lost⟩ = .ok found ↔
      opened = true ∧ frame.length ≤ sizes.sum ∧ found = utf16 session := by
  unfold connect
  cases opened with
  | false => simp
  | true =>
    simp only [not_true_eq_false, if_false, delivered_cut encoded, true_and]
    by_cases whole : frame.length ≤ sizes.sum
    · simp only [whole, if_true, true_and, welcomed_session nonempty, Except.mapError]
      exact ⟨fun same => (Except.ok.inj same).symm, fun same => by rw [same]⟩
    · simp only [whole, if_false, false_and, iff_false]
      split_ifs <;> simp

end Welcome

section Sessions
variable {server : PipeServer} {session : String}

def IsSession (session : String) : Prop := ∃ counter nonce, session = nextSessionId counter nonce

theorem IsSession.ne_empty (drawn : IsSession session) : session ≠ "" := by
  obtain ⟨counter, nonce, rfl⟩ := drawn
  unfold nextSessionId
  rw [String.append_assoc, String.append_assoc]
  exact append_ne_empty (by decide)

theorem utf8ByteSize_le (text : String) : text.utf8ByteSize ≤ 4 * text.toList.length := by
  have chars : ∀ chars : List Char, (String.ofList chars).utf8ByteSize ≤ 4 * chars.length := by
    intro chars
    induction chars with
    | nil => exact Nat.le_refl 0
    | cons c rest ih =>
      have front : String.ofList (c :: rest) = String.singleton c ++ String.ofList rest := by
        apply String.toList_injective
        simp
      have one := c.utf8Size_le_four
      rw [front, String.utf8ByteSize_append, String.utf8ByteSize_singleton, List.length_cons]
      omega
  have whole := chars text.toList
  rwa [String.ofList_toList] at whole

theorem IsSession.encodes (drawn : IsSession session) :
    ∃ frame, encodeFrame ("WELCOME|" ++ session) = .ok frame := by
  obtain ⟨counter, nonce, rfl⟩ := drawn
  refine (encodeFrame_iff (append_ne_empty (by decide))).mpr (fits_short ?_)
  have digits : (toString counter).toList.length ≤ 20 := by
    have small := counter.toNat_lt
    rw [toList_toString]
    exact Nat.toDigits_length 10 _ 20 (by omega) (by omega)
  have hex : (Recovery.RecoveryRegistry.hex nonce.toList).toList.length = 32 := by
    rw [Recovery.RecoveryRegistry.hex_toList, Recovery.RecoveryRegistry.hexDigits_length,
      nonce.toList_length]
  have size := utf8ByteSize_le ("WELCOME|" ++ nextSessionId counter nonce)
  have title : "WELCOME|".toList.length = 8 := rfl
  have start : "sess-".toList.length = 5 := rfl
  have dash : "-".toList.length = 1 := rfl
  unfold nextSessionId at size ⊢
  simp only [String.toList_append, List.length_append] at size
  omega

theorem serve_hello (some_session : server.sessionId ≠ "") (env : FrameEnvironment) :
    (server.serveFrame env PipeClient.helloPayload).1.sent =
        some ("WELCOME|" ++ server.sessionId) ∧
      (server.serveFrame env PipeClient.helloPayload).2.sessionId = server.sessionId ∧
      (server.serveFrame env PipeClient.helloPayload).2.endpoint.sessionId =
        some server.sessionId := by
  have body : frameBody PipeClient.helloPayload = .hello transportProtocolId := by
    rw [frameBody, PipeClient.helloPayload, stripPrefix_append]
  have named : ¬ (transportProtocolId = "" ∨ server.sessionId = "") := by
    rw [not_or]
    exact ⟨by decide, some_session⟩
  unfold PipeServer.serveFrame
  rw [body]
  dsimp only
  unfold PipeServer.serveHello HostTransportEndpoint.acceptHello
  rw [if_neg named, if_neg (not_not.mpr rfl)]
  exact ⟨rfl, rfl, rfl⟩

theorem IsSession.clean (drawn : IsSession session) : '|' ∉ session.toList := by
  obtain ⟨counter, nonce, rfl⟩ := drawn
  unfold nextSessionId
  simp only [String.toList_append, List.mem_append, not_or]
  exact ⟨⟨⟨by decide, toString_clean counter⟩, by decide⟩, not_mem_hex (by decide) nonce.toList⟩

theorem parseRequest_session {rest : String} {request : Request} (clean : '|' ∉ session.toList)
    (read : parseRequest (session ++ "|" ++ rest) = some request) : request.session = session := by
  have plain : ∀ c ∈ session.toList, decide (c ≠ '|') = true := fun c member =>
    decide_eq_true fun same => clean (same ▸ member)
  have front : (session ++ "|" ++ rest).toList.span (· ≠ '|') =
      (session.toList, '|' :: rest.toList) := by
    have chars : (session ++ "|" ++ rest).toList = session.toList ++ '|' :: rest.toList := by
      simp [String.toList_append]
    rw [chars, List.span_eq_takeWhile_dropWhile, List.takeWhile_append_of_pos plain,
      List.dropWhile_append_of_pos plain]
    simp
  have pieces : splitn 4 (session ++ "|" ++ rest) =
      session :: (splitnChars 3 rest.toList).map String.ofList := by
    rw [splitn, splitnChars, front, List.map_cons, String.ofList_toList]
  unfold parseRequest at read
  rw [pieces] at read
  split at read
  · rename_i shape
    split_ifs at read
    cases read
    exact (List.cons.inj shape).1.symm
  · cases read

theorem result_ne_mismatch (front : String) (head : front.toList.head? = some 'R') (text : String) :
    front ++ text ≠ "ERROR|session_mismatch" := by
  intro same
  have first := congrArg (fun text => text.toList.head?) same
  simp [String.toList_append, List.head?_append, head] at first

theorem outcomePayload_ne_mismatch (outcome : LedgerOutcome) :
    outcomePayload outcome ≠ "ERROR|session_mismatch" := by
  cases outcome with
  | definite text => exact result_ne_mismatch "RESULT|DEFINITE|" rfl text
  | ambiguous text => exact result_ne_mismatch "RESULT|AMBIGUOUS|" rfl text

/-- No refusal of the session is sent. The session error of a recovery command
can only be the store's own, about a target that the command names. -/
def TakenUp (server : PipeServer) (env : FrameEnvironment) (session : String) (kind : CallKind) :
    Prop :=
  let sent := (server.serveFrame env (kind.payload session)).1.sent
  sent ≠ some "ERROR|session_mismatch" ∧
    ∀ command, kind = .recoveryCommand command →
      sent = some "RESULT|DEFINITE|recovery-error:SessionMismatch" →
      ∃ store parsed, server.recovery = some store ∧ parseCommand (split command) = some parsed ∧
        (performCommand env.firstWrite session store parsed).1 = "recovery-error:SessionMismatch"

theorem handle_named (clean : '|' ∉ session.toList) (own : server.sessionOk session = true)
    (env : FrameEnvironment) (command : String)
    (refused : (server.handleRecoveryCommand env (session ++ "|" ++ command)).1 =
      "recovery-error:SessionMismatch") :
    ∃ store parsed, server.recovery = some store ∧ parseCommand (split command) = some parsed ∧
      (performCommand env.firstWrite session store parsed).1 = "recovery-error:SessionMismatch" := by
  unfold PipeServer.handleRecoveryCommand at refused
  rw [split_field clean] at refused
  simp only [own, not_true_eq_false, if_false] at refused
  cases recovery : server.recovery with
  | none =>
    simp only [recovery] at refused
    exact absurd refused (by decide)
  | some store =>
    rw [recovery] at refused
    cases parsed : parseCommand (split command) with
    | none =>
      simp only [parsed] at refused
      exact absurd refused (by decide)
    | some named =>
      simp only [parsed] at refused
      exact ⟨store, named, rfl, rfl, refused⟩

theorem serve_named (clean : '|' ∉ session.toList) (own : server.sessionOk session = true)
    (env : FrameEnvironment) (kind : CallKind) : TakenUp server env session kind := by
  unfold TakenUp PipeServer.serveFrame
  cases kind with
  | handoffQuery =>
    have body : frameBody (CallKind.handoffQuery.payload session) = .handoff session :=
      frameBody_handoff session
    rw [body]
    simp only [PipeServer.serveHandoff, own, not_true_eq_false, if_false]
    refine ⟨fun same => result_ne_mismatch "RESULT|DEFINITE|" rfl _ (Option.some.inj same), ?_⟩
    intro command other
    cases other
  | recoveryCommand command =>
    have body : frameBody ((CallKind.recoveryCommand command).payload session) =
        .recovery (session ++ "|" ++ command) := by
      have payload : (CallKind.recoveryCommand command).payload session =
          "RECOVERY|" ++ (session ++ "|" ++ command) := by
        simp only [CallKind.payload, String.append_assoc]
      have foreign : stripPrefix "HELLO|" ("RECOVERY|" ++ (session ++ "|" ++ command)) = none := by
        simp [stripPrefix, List.isPrefixOf?]
      rw [payload, frameBody, foreign, stripPrefix_append]
    rw [body]
    change some ("RESULT|DEFINITE|" ++ _) ≠ _ ∧ ∀ _, _ → some ("RESULT|DEFINITE|" ++ _) = _ → _
    refine ⟨fun same => result_ne_mismatch "RESULT|DEFINITE|" rfl _ (Option.some.inj same), ?_⟩
    rintro _ ⟨⟩ refused
    have whole : "RESULT|DEFINITE|recovery-error:SessionMismatch" =
        "RESULT|DEFINITE|" ++ "recovery-error:SessionMismatch" := by decide
    rw [whole, Option.some.injEq, String.append_right_inj] at refused
    exact handle_named clean own env command refused
  | request requestId composition canonical =>
    have payload : (CallKind.request requestId composition canonical).payload session =
        "REQ|" ++ (session ++ "|" ++ (requestId ++ "|" ++ composition ++ "|" ++ canonical)) := by
      simp only [CallKind.payload, String.append_assoc]
    rw [payload, frameBody_req]
    dsimp only
    refine ⟨?_, fun command other => by cases other⟩
    unfold PipeServer.serveRequest
    cases read : parseRequest
      (session ++ "|" ++ (requestId ++ "|" ++ composition ++ "|" ++ canonical)) with
    | none => exact fun same => by cases same
    | some request =>
      have named := parseRequest_session clean read
      simp only [named, own, not_true_eq_false, if_false]
      split <;> exact fun same => outcomePayload_ne_mismatch _ (Option.some.inj same)

end Sessions

end ZonKey.Host

import ZonKey.PipeDialogue
import ZonKey.PipeWire

set_option autoImplicit false

namespace ZonKey.Pipe
open Transport Recovery

inductive PipeError where
  | connectTimeout
  | pipeSecurity (text : String)
  | handshakeRefused (reason : String)
  | protocolMismatch
  | sessionMismatch
  | timeout
  | connectionLost
  | frame (error : FrameError)
  | invalidPayload (text : String)
  deriving DecidableEq

def parseOutcome (payload : String) : Except PipeError LedgerOutcome :=
  match splitn 3 payload with
  | ["RESULT", "DEFINITE", text] => .ok (.definite text)
  | ["RESULT", "AMBIGUOUS", text] => .ok (.ambiguous text)
  | _ => .error (.invalidPayload "malformed result")

/-- The handle is open from `connect` on until the client is given away. -/
structure PipeClient where
  sessionId : String
  broken : Bool

structure CallEnvironment where
  writes : Bool
  read : Except PipeError String

/-- `write_frame`: the frame check comes before the pipe. -/
def CallEnvironment.write (env : CallEnvironment) (payload : String) : Except PipeError Unit :=
  match encodeFrame payload with
  | .error error => .error (.frame error)
  | .ok _ => if env.writes then .ok () else .error .connectionLost

namespace PipeClient

def helloPayload : String := "HELLO|" ++ transportProtocolId

/-- Without an opened handle the deadline has passed. -/
def connect (opened : Bool) (env : CallEnvironment) : Except PipeError PipeClient :=
  if ¬ opened then .error .connectTimeout
  else do
    env.write helloPayload
    let reply ← env.read
    match stripPrefix "ERROR|" reply with
    | some "protocol_mismatch" => throw .protocolMismatch
    | some reason => throw (.handshakeRefused reason)
    | none =>
      match stripPrefix "WELCOME|" reply with
      | some session => pure ⟨session, false⟩
      | none => throw (.invalidPayload "expected welcome")

/-- The body that the four calls share: only an answer leaves the client usable. -/
def exchange {τ : Type} (client : PipeClient) (env : CallEnvironment) (payload : String)
    (parse : String → Except PipeError τ) : Except PipeError τ × PipeClient :=
  if client.broken then (.error .connectionLost, client)
  else if ¬ (env.write payload).toBool then (.error .connectionLost, { client with broken := true })
  else
    match env.read with
    | .ok text =>
      match stripPrefix "ERROR|" text with
      | some "session_mismatch" => (.error .sessionMismatch, client)
      | some reason => (.error (.handshakeRefused reason), client)
      | none =>
        match parse text with
        | .ok result => (.ok result, client)
        | .error error => (.error error, { client with broken := true })
    | .error .timeout | .error .connectionLost => (.error .timeout, { client with broken := true })
    | .error error => (.error error, { client with broken := true })

def request (client : PipeClient) (env : CallEnvironment) (requestId composition canonical : String) :
    Except PipeError LedgerOutcome × PipeClient :=
  client.exchange env (requestPayload client.sessionId requestId composition canonical) parseOutcome

def requestWithDescriptor (client : PipeClient) (env : CallEnvironment)
    (descriptor : RecoveryDescriptor) (composition canonical : String) :
    Except PipeError LedgerOutcome × PipeClient :=
  client.exchange env (descriptorPayload client.sessionId descriptor composition canonical)
    parseOutcome

def parseDefinite (expected payload : String) : Except PipeError String :=
  match stripPrefix "RESULT|DEFINITE|" payload with
  | some text => .ok text
  | none => .error (.invalidPayload expected)

def handoffQuery (client : PipeClient) (env : CallEnvironment) :
    Except PipeError String × PipeClient :=
  client.exchange env ("HANDOFF|" ++ client.sessionId) (parseDefinite "expected handoff result")

def recoveryCommand (client : PipeClient) (env : CallEnvironment) (command : String) :
    Except PipeError String × PipeClient :=
  client.exchange env ("RECOVERY|" ++ client.sessionId ++ "|" ++ command)
    (parseDefinite "expected recovery result")

end PipeClient

theorem splitnChars_ne_nil (count : Nat) (chars : List Char) : splitnChars (count + 1) chars ≠ [] := by
  cases count with
  | zero => simp [splitnChars]
  | succ count =>
    rw [splitnChars]
    split <;> simp

theorem intercalate_splitnChars (count : Nat) (chars : List Char) :
    ['|'].intercalate (splitnChars (count + 1) chars) = chars := by
  induction count generalizing chars with
  | zero => simp [splitnChars]
  | succ count ih =>
    have whole := List.takeWhile_append_dropWhile (p := fun c => decide (c ≠ '|')) (l := chars)
    rw [splitnChars, List.span_eq_takeWhile_dropWhile]
    cases cut : chars.dropWhile fun c => decide (c ≠ '|') with
    | nil =>
      rw [cut, List.append_nil] at whole
      exact (List.intercalate_singleton ..).trans whole
    | cons c rest =>
      have bar : c = '|' := by
        have stopped := List.head_dropWhile_not (p := fun c => decide (c ≠ '|')) (l := chars)
          (by rw [cut]; exact List.cons_ne_nil _ _)
        simpa only [cut, List.head_cons, decide_eq_false_iff_not, not_not] using stopped
      rw [cut, bar] at whole
      change ['|'].intercalate (_ :: splitnChars (count + 1) rest) = chars
      rw [List.intercalate_cons_of_ne_nil (splitnChars_ne_nil count rest), ih, List.append_assoc]
      exact whole

theorem intercalate_splitn (count : Nat) (text : String) :
    "|".intercalate (splitn (count + 1) text) = text := by
  apply String.toList_inj.mp
  rw [String.toList_intercalate, splitn, List.map_map]
  simpa [Function.comp_def] using intercalate_splitnChars count text.toList

theorem result_joined (kind text : String) :
    "|".intercalate (["RESULT", kind] ++ [text]) = "RESULT|" ++ kind ++ "|" ++ text := by
  simp [String.intercalate_cons_cons, ← String.append_assoc]

theorem parseOutcome_iff {payload : String} {outcome : LedgerOutcome} :
    parseOutcome payload = .ok outcome ↔ payload = outcomePayload outcome := by
  constructor
  · intro parsed
    have joined := intercalate_splitn 2 payload
    unfold parseOutcome at parsed
    split at parsed
    · rename_i text cut
      cases parsed
      rw [← joined, cut]
      exact result_joined "DEFINITE" text
    · rename_i text cut
      cases parsed
      rw [← joined, cut]
      exact result_joined "AMBIGUOUS" text
    · cases parsed
  · rintro rfl
    have cut : ∀ kind text, '|' ∉ kind.toList →
        splitn 3 ("RESULT|" ++ kind ++ "|" ++ text) = ["RESULT", kind, text] := by
      intro kind text clean
      have named : ∀ field ∈ ["RESULT", kind], '|' ∉ field.toList := by simpa using clean
      have apart := splitn_clean named text
      rw [result_joined] at apart
      exact apart
    cases outcome with
    | definite text =>
      change parseOutcome ("RESULT|" ++ "DEFINITE" ++ "|" ++ text) = _
      rw [parseOutcome, cut "DEFINITE" text (by decide)]
      rfl
    | ambiguous text =>
      change parseOutcome ("RESULT|" ++ "AMBIGUOUS" ++ "|" ++ text) = _
      rw [parseOutcome, cut "AMBIGUOUS" text (by decide)]
      rfl

namespace PipeClient
variable {τ : Type} {client : PipeClient} {env : CallEnvironment} {payload : String}
  {parse : String → Except PipeError τ}

theorem connect_ok_iff {connected : PipeClient} :
    connect true env = .ok connected ↔ (env.write helloPayload).toBool = true ∧
      ∃ text, env.read = .ok text ∧ stripPrefix "ERROR|" text = none ∧
        stripPrefix "WELCOME|" text = some connected.sessionId ∧ connected.broken = false := by
  unfold connect
  simp only [not_true_eq_false, ↓reduceIte]
  cases env.write helloPayload with
  | error error => simp [Except.toBool, bind, Except.bind]
  | ok _ =>
    cases env.read with
    | error error => simp [bind, Except.bind]
    | ok reply =>
      simp only [bind, Except.bind, Except.toBool, true_and, Except.ok.injEq, exists_eq_left']
      split
      · rename_i refused
        simp [refused, throw, throwThe, MonadExceptOf.throw]
      · rename_i refused
        simp [refused, throw, throwThe, MonadExceptOf.throw]
      · rename_i accepted
        cases stripPrefix "WELCOME|" reply with
        | none => simp [throw, throwThe, MonadExceptOf.throw]
        | some session =>
          obtain ⟨sessionId, broken⟩ := connected
          simp [pure, Except.pure, accepted, eq_comm]

def Readable (parse : String → Except PipeError τ) (text : String) : Prop :=
  (stripPrefix "ERROR|" text).isSome ∨ ∃ result, parse text = .ok result

theorem exchange_usable_iff :
    (client.exchange env payload parse).2.broken = false ↔
      client.broken = false ∧ (env.write payload).toBool = true ∧
        ∃ text, env.read = .ok text ∧ Readable parse text := by
  unfold exchange Readable
  cases usable : client.broken with
  | true => simp [usable]
  | false =>
    cases (env.write payload).toBool with
    | false => simp
    | true =>
      simp only [Bool.false_eq_true, ↓reduceIte, not_true_eq_false, true_and]
      split
      · rename_i text read
        split
        · rename_i refused
          simp [read, refused, usable]
        · rename_i refused
          simp [read, refused, usable]
        · rename_i accepted
          cases parsed : parse text <;> simp [read, accepted, parsed, usable]
      · rename_i read
        simp [read]
      · rename_i read
        simp [read]
      · rename_i read
        simp [read]

end PipeClient
end ZonKey.Pipe

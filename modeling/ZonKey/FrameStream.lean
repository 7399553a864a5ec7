import ZonKey.IncrementalDecoder
import ZonKey.Transport

set_option autoImplicit false

namespace ZonKey.Transport
open ByteCursor Digest

section Decoder

/-- A frame is taken off by its header, with the payload not looked at. -/
def cutFrame (buffer : Bytes) : Except FrameError (Option (Bytes × Bytes)) :=
  if buffer.length < frameHeaderBytes then .ok none
  else
    let length := ofLeBytes (buffer.take frameHeaderBytes)
    if length = 0 then .error .emptyFrame
    else if maxFrameBytes < length then .error .oversizedFrame
    else if buffer.length < frameHeaderBytes + length then .ok none
    else
      .ok (some ((buffer.drop frameHeaderBytes).take length,
        buffer.drop (frameHeaderBytes + length)))

def payloadText (payload : Bytes) : Except FrameError String :=
  match String.fromUTF8? ⟨payload.toArray⟩ with
  | none => .error .invalidUtf8
  | some text => .ok text

theorem payloadText_asBytes (text : String) : payloadText (asBytes text) = .ok text := by
  simp [payloadText, fromUTF8_asBytes]

variable {buffer rest payload : Bytes} {error : FrameError}

theorem cutFrame_frame (some_byte : payload ≠ []) (fits : payload.length ≤ maxFrameBytes)
    (rest : Bytes) :
    cutFrame (leBytes frameHeaderBytes payload.length ++ payload ++ rest) =
      .ok (some (payload, rest)) := by
  have header : (leBytes frameHeaderBytes payload.length).length = frameHeaderBytes :=
    leBytes_length _ _
  have positive : payload.length ≠ 0 := by simpa using some_byte
  have small : payload.length < 256 ^ frameHeaderBytes := by
    unfold maxFrameBytes at fits
    unfold frameHeaderBytes
    omega
  have length : ofLeBytes ((leBytes frameHeaderBytes payload.length ++ payload ++ rest).take
      frameHeaderBytes) = payload.length := by
    rw [List.append_assoc, List.take_left' header, ofLeBytes_leBytes_of_lt small]
  have behind : (leBytes frameHeaderBytes payload.length ++ payload ++ rest).drop
      frameHeaderBytes = payload ++ rest := by
    rw [List.append_assoc, List.drop_left' header]
  have size : (leBytes frameHeaderBytes payload.length ++ payload ++ rest).length =
      frameHeaderBytes + payload.length + rest.length := by
    simp only [List.length_append, header]
  unfold cutFrame
  simp only [length]
  rw [size, if_neg (by omega), if_neg positive, if_neg (by omega), if_neg (by omega),
    ← List.drop_drop, behind, List.take_left, List.drop_left]

theorem cutFrame_item (taken : cutFrame buffer = .ok (some (payload, rest))) :
    payload ≠ [] ∧ payload.length ≤ maxFrameBytes ∧
      buffer = leBytes frameHeaderBytes payload.length ++ payload ++ rest := by
  simp only [cutFrame] at taken
  split_ifs at taken with short empty long cut <;> cases taken
  have header : (buffer.take frameHeaderBytes).length = frameHeaderBytes := by
    rw [List.length_take]
    omega
  have size : ((buffer.drop frameHeaderBytes).take
      (ofLeBytes (buffer.take frameHeaderBytes))).length =
      ofLeBytes (buffer.take frameHeaderBytes) := by
    rw [List.length_take, List.length_drop]
    omega
  have same := leBytes_ofLeBytes (buffer.take frameHeaderBytes)
  rw [header] at same
  refine ⟨?_, by omega, ?_⟩
  · rw [← List.length_pos_iff]
    omega
  · rw [size, same, ← List.drop_drop, List.append_assoc, List.take_append_drop,
      List.take_append_drop]

theorem cutFrame_error (failed : cutFrame buffer = .error error) (more : Bytes) :
    cutFrame (buffer ++ more) = .error error := by
  simp only [cutFrame] at failed
  split_ifs at failed with short empty long cut
  all_goals
    cases failed
    have header : (buffer ++ more).take frameHeaderBytes = buffer.take frameHeaderBytes :=
      List.take_append_of_le_length (by omega)
    have enough : ¬ (buffer ++ more).length < frameHeaderBytes := by
      rw [List.length_append]
      omega
    unfold cutFrame
    simp only [header, enough, empty, if_false, if_true]
  simp only [long, if_true]

theorem cutFrame_waiting (waiting : cutFrame buffer = .ok none) :
    buffer.length < frameHeaderBytes + maxFrameBytes := by
  simp only [cutFrame] at waiting
  split_ifs at waiting with short empty long cut
  · omega
  · omega
  · cases waiting

def frameCutter : FrontDecoder UInt8 Bytes FrameError where
  decode := cutFrame
  consumes := by
    intro buffer payload rest taken
    obtain ⟨some_byte, -, rfl⟩ := cutFrame_item taken
    have positive := List.length_pos_iff.mpr some_byte
    simp only [List.length_append]
    omega
  item_append := by
    intro buffer payload rest more taken
    obtain ⟨some_byte, fits, rfl⟩ := cutFrame_item taken
    rw [List.append_assoc]
    exact cutFrame_frame some_byte fits (rest ++ more)
  error_append := by
    intro buffer error more failed
    exact cutFrame_error failed more

theorem frameCutter_decode (buffer : Bytes) : frameCutter.decode buffer = cutFrame buffer := rfl

/-- `decode_frame`, which `decodeFrame_eq` says this is. -/
def frameDecoder : FrontDecoder UInt8 String FrameError := frameCutter.refine payloadText

theorem decodeFrame_eq (buffer : Bytes) : decodeFrame buffer = frameDecoder.decode buffer := by
  unfold decodeFrame frameDecoder FrontDecoder.refine frameCutter cutFrame payloadText
  simp only [List.drop_take]
  split_ifs with short empty long cut
  all_goals try rfl
  simp only [Nat.add_sub_cancel_left]
  cases String.fromUTF8? ⟨((buffer.drop frameHeaderBytes).take
    (ofLeBytes (buffer.take frameHeaderBytes))).toArray⟩ <;> rfl

theorem decodeFrame_waiting (waiting : decodeFrame buffer = .ok none) :
    buffer.length < frameHeaderBytes + maxFrameBytes := by
  rw [decodeFrame_eq] at waiting
  exact cutFrame_waiting (FrontDecoder.refine_waiting.mp waiting)

/-- What goes out for a text is its length and its bytes, and the length is in bounds. -/
theorem encodeFrame_shape {text : String} {frame : Bytes} (encoded : encodeFrame text = .ok frame) :
    asBytes text ≠ [] ∧ (asBytes text).length ≤ maxFrameBytes ∧
      frame = leBytes frameHeaderBytes (asBytes text).length ++ asBytes text := by
  simp only [encodeFrame] at encoded
  split_ifs at encoded with empty long
  cases encoded
  exact ⟨fun none => empty (List.length_eq_zero_iff.mpr none), Nat.le_of_not_lt long, rfl⟩

theorem decode_encodeFrame {text : String} {frame : Bytes} (encoded : encodeFrame text = .ok frame)
    (rest : Bytes) : frameDecoder.decode (frame ++ rest) = .ok (some (text, rest)) := by
  obtain ⟨some_byte, fits, rfl⟩ := encodeFrame_shape encoded
  have taken := cutFrame_frame some_byte fits rest
  rw [← frameCutter_decode] at taken
  exact FrontDecoder.refine_item taken (payloadText_asBytes text)

end Decoder
end ZonKey.Transport

namespace ZonKey.Pipe
open ByteCursor Digest Transport

def readChunk : Nat := 4096

/-- What one `ReadFile` delivers. -/
structure Chunk where
  bytes : Bytes
  nonempty : bytes ≠ []
  bounded : bytes.length ≤ readChunk

/-- One look at the pipe; only `read_frame_stop_aware` finds it idle. -/
inductive Poll where
  | idle
  | chunk (c : Chunk)

def Poll.bytes : Poll → Bytes
  | .idle => []
  | .chunk c => c.bytes

def streamOf (polls : List Poll) : Bytes := polls.flatMap Poll.bytes

inductive ReadOutcome where
  | frame (payload : String)
  | failed (error : FrameError)
  | closed

/-- A call of `read_frame_blocking` or `read_frame_stop_aware`, with the bytes it
leaves in the buffer and the polls it did not make. -/
def readFrame (buffer : Bytes) (polls : List Poll) : ReadOutcome × Bytes × List Poll :=
  match decodeFrame buffer with
  | .error error => (.failed error, buffer, polls)
  | .ok (some (payload, rest)) => (.frame payload, rest, polls)
  | .ok none =>
    match polls with
    | [] => (.closed, buffer, [])
    | poll :: later => readFrame (buffer ++ poll.bytes) later

/-- The read loop of a connection. Behind the upcoming polls the pipe is lost, or
the server stops. -/
structure StreamReader where
  buffer : Bytes
  upcoming : List Poll
  payloads : List String
  ending : Option (StreamEnd UInt8 FrameError)

namespace StreamReader

def start (polls : List Poll) : StreamReader := ⟨[], polls, [], none⟩

/-- One round of the loop; a round that returns a frame is followed by the next call. -/
def turn (r : StreamReader) : StreamReader :=
  match r.ending with
  | some _ => r
  | none =>
    match decodeFrame r.buffer with
    | .error error => { r with ending := some (.failed error) }
    | .ok (some (payload, rest)) =>
      { r with buffer := rest, payloads := r.payloads ++ [payload] }
    | .ok none =>
      match r.upcoming with
      | [] => { r with ending := some (.leftover r.buffer) }
      | poll :: later => { r with buffer := r.buffer ++ poll.bytes, upcoming := later }

inductive Round (r : StreamReader) : StreamReader → Prop where
  | ended (ending : StreamEnd UInt8 FrameError) (was : r.ending = some ending) : Round r r
  | failed (error : FrameError) (reading : r.ending = none)
      (answer : frameDecoder.decode r.buffer = .error error) :
      Round r { r with ending := some (.failed error) }
  | taken (payload : String) (rest : Bytes) (reading : r.ending = none)
      (answer : frameDecoder.decode r.buffer = .ok (some (payload, rest))) :
      Round r { r with buffer := rest, payloads := r.payloads ++ [payload] }
  | starved (reading : r.ending = none) (answer : frameDecoder.decode r.buffer = .ok none)
      (nothing : r.upcoming = []) : Round r { r with ending := some (.leftover r.buffer) }
  | polled (poll : Poll) (later : List Poll) (reading : r.ending = none)
      (answer : frameDecoder.decode r.buffer = .ok none) (upcoming : r.upcoming = poll :: later) :
      Round r { r with buffer := r.buffer ++ poll.bytes, upcoming := later }

theorem turn_round (r : StreamReader) : Round r r.turn := by
  unfold turn
  split
  · rename_i ending was
    exact Round.ended ending was
  · rename_i reading
    split
    · rename_i error answer
      exact Round.failed error reading ((decodeFrame_eq _).symm.trans answer)
    · rename_i payload rest answer
      exact Round.taken payload rest reading ((decodeFrame_eq _).symm.trans answer)
    · rename_i answer
      split
      · rename_i nothing
        exact Round.starved reading ((decodeFrame_eq _).symm.trans answer) nothing
      · rename_i poll later upcoming
        exact Round.polled poll later reading ((decodeFrame_eq _).symm.trans answer) upcoming

def returned (r : StreamReader) : ReadOutcome × Bytes × List Poll → StreamReader
  | (.frame payload, buffer, upcoming) => ⟨buffer, upcoming, r.payloads ++ [payload], none⟩
  | (.failed error, buffer, upcoming) => ⟨buffer, upcoming, r.payloads, some (.failed error)⟩
  | (.closed, buffer, upcoming) => ⟨buffer, upcoming, r.payloads, some (.leftover buffer)⟩

theorem readFrame_rounds (buffer : Bytes) (polls : List Poll) (payloads : List String) :
    ∃ rounds, turn^[rounds + 1] ⟨buffer, polls, payloads, none⟩ =
      returned ⟨buffer, polls, payloads, none⟩ (readFrame buffer polls) := by
  induction polls generalizing buffer with
  | nil =>
    refine ⟨0, ?_⟩
    rw [readFrame]
    cases answer : decodeFrame buffer with
    | error e => simp [turn, answer, returned]
    | ok next => cases next <;> simp [turn, answer, returned]
  | cons poll later ih =>
    rw [readFrame]
    cases answer : decodeFrame buffer with
    | error e => exact ⟨0, by simp [turn, answer, returned]⟩
    | ok next =>
      cases next with
      | some taken => exact ⟨0, by simp [turn, answer, returned]⟩
      | none =>
        obtain ⟨rounds, same⟩ := ih (buffer ++ poll.bytes)
        have first : turn ⟨buffer, poll :: later, payloads, none⟩ =
            ⟨buffer ++ poll.bytes, later, payloads, none⟩ := by
          simp [turn, answer]
        refine ⟨rounds + 1, ?_⟩
        rw [Function.iterate_succ_apply, first, same]
        rfl

/-- What is to come out in the end, at any point of the loop. -/
def outcome (r : StreamReader) : List String × StreamEnd UInt8 FrameError :=
  match r.ending with
  | some ending => (r.payloads, ending)
  | none => (frameDecoder.run (r.buffer ++ streamOf r.upcoming)).map (r.payloads ++ ·) id

theorem Round.outcome_eq {r next : StreamReader} (round : Round r next) :
    next.outcome = r.outcome := by
  cases round with
  | ended => rfl
  | failed error reading answer =>
    have failed := FrontDecoder.run_error (frameDecoder.error_append (streamOf r.upcoming) answer)
    simp [outcome, reading, failed]
  | taken payload rest reading answer =>
    have taken := FrontDecoder.run_item (frameDecoder.item_append (streamOf r.upcoming) answer)
    simp [outcome, reading, taken]
    rfl
  | starved reading answer nothing =>
    have waiting := FrontDecoder.run_waiting answer
    simp [outcome, reading, nothing, streamOf, waiting]
  | polled poll later reading answer upcoming =>
    simp [outcome, reading, upcoming, streamOf]

def work (r : StreamReader) : Nat :=
  r.buffer.length + (streamOf r.upcoming).length + r.upcoming.length

theorem Round.work_lt {r next : StreamReader} (round : Round r next) (reading : r.ending = none) :
    next.ending ≠ none ∨ next.work < r.work := by
  cases round with
  | ended ending was =>
    rw [reading] at was
    cases was
  | failed => exact Or.inl (by simp)
  | taken payload rest _ answer =>
    have shorter := frameDecoder.consumes answer
    refine Or.inr ?_
    simp only [work]
    omega
  | starved => exact Or.inl (by simp)
  | polled poll later _ answer upcoming =>
    refine Or.inr ?_
    simp only [work, upcoming, streamOf, List.flatMap_cons, List.length_append, List.length_cons]
    omega

theorem turn_of_ended {r : StreamReader} (ended : r.ending ≠ none) : r.turn = r := by
  unfold turn
  split
  · rfl
  · contradiction

theorem ends (r : StreamReader) : ∃ turns, (turn^[turns] r).ending ≠ none := by
  induction size : r.work using Nat.strongRecOn generalizing r with
  | ind n ih =>
    by_cases reading : r.ending = none
    · cases r.turn_round.work_lt reading with
      | inl ended => exact ⟨1, ended⟩
      | inr less =>
        obtain ⟨turns, ended⟩ := ih _ (size ▸ less) r.turn rfl
        exact ⟨turns + 1, ended⟩
    · exact ⟨0, reading⟩

theorem iterate_of_ended {r : StreamReader} (ended : r.ending ≠ none) (more : Nat) :
    turn^[more] r = r := Function.iterate_fixed (turn_of_ended ended) more

theorem iterate_outcome (r : StreamReader) (turns : Nat) : (turn^[turns] r).outcome = r.outcome := by
  induction turns with
  | zero => rfl
  | succ turns ih => rw [Function.iterate_succ_apply', (turn_round _).outcome_eq, ih]

theorem reads_stream (polls : List Poll) : ∃ turns, ∀ more,
    (turn^[more + turns] (start polls)).payloads = (frameDecoder.run (streamOf polls)).1 ∧
      (turn^[more + turns] (start polls)).ending =
        some (frameDecoder.run (streamOf polls)).2 := by
  obtain ⟨turns, ended⟩ := ends (start polls)
  refine ⟨turns, fun more => ?_⟩
  rw [Function.iterate_add_apply, iterate_of_ended ended]
  have same := iterate_outcome (start polls) turns
  have first : (start polls).outcome = frameDecoder.run (streamOf polls) := by
    simp [outcome, start]
    rfl
  rw [first, outcome] at same
  cases ending : (turn^[turns] (start polls)).ending with
  | none => exact absurd ending ended
  | some e =>
    rw [ending] at same
    rw [← same]
    exact ⟨rfl, rfl⟩

theorem Round.buffer_le {r next : StreamReader} (round : Round r next)
    (bound : r.buffer.length ≤ frameHeaderBytes + maxFrameBytes - 1 + readChunk) :
    next.buffer.length ≤ frameHeaderBytes + maxFrameBytes - 1 + readChunk := by
  cases round with
  | ended | failed | starved => exact bound
  | taken payload rest _ answer =>
    exact Nat.le_trans (Nat.le_of_lt (frameDecoder.consumes answer)) bound
  | polled poll later _ answer upcoming =>
    have incomplete : r.buffer.length < frameHeaderBytes + maxFrameBytes :=
      decodeFrame_waiting ((decodeFrame_eq _).trans answer)
    have small : poll.bytes.length ≤ readChunk := by
      cases poll with
      | idle => exact Nat.zero_le _
      | chunk c => exact c.bounded
    simp only [List.length_append]
    omega

theorem iterate_buffer (polls : List Poll) (turns : Nat) :
    (turn^[turns] (start polls)).buffer.length ≤
      frameHeaderBytes + maxFrameBytes - 1 + readChunk := by
  induction turns with
  | zero => exact Nat.zero_le _
  | succ turns ih =>
    rw [Function.iterate_succ_apply']
    exact (turn_round _).buffer_le ih

end StreamReader

theorem run_encoded {texts : List String} {frames : List Bytes}
    (encoded : List.Forall₂ (fun text frame => encodeFrame text = .ok frame) texts frames) :
    frameDecoder.run frames.flatten = (texts, .leftover []) := by
  induction encoded with
  | nil =>
    refine FrontDecoder.run_waiting ?_
    rw [← decodeFrame_eq]
    rfl
  | cons first _ ih =>
    rw [List.flatten_cons, FrontDecoder.run_item (decode_encodeFrame first _), ih]
    rfl

/-- However a stream arrives, the loop delivers the payloads of the whole stream and
ends as it ends; encoded frames come out as they went in; and the buffer is bounded. -/
theorem StreamReader.chunking_independent :
    (∀ polls, ∃ turns, ∀ more,
      (turn^[more + turns] (start polls)).payloads = (frameDecoder.run (streamOf polls)).1 ∧
        (turn^[more + turns] (start polls)).ending =
          some (frameDecoder.run (streamOf polls)).2) ∧
      (∀ polls texts frames,
        List.Forall₂ (fun text frame => encodeFrame text = .ok frame) texts frames →
        streamOf polls = frames.flatten →
        ∃ turns, ∀ more, (turn^[more + turns] (start polls)).payloads = texts ∧
          (turn^[more + turns] (start polls)).ending = some (.leftover [])) ∧
      ∀ polls turns, (turn^[turns] (start polls)).buffer.length ≤
        frameHeaderBytes + maxFrameBytes - 1 + readChunk := by
  refine ⟨reads_stream, ?_, iterate_buffer⟩
  intro polls texts frames encoded same
  obtain ⟨turns, result⟩ := reads_stream polls
  rw [same, run_encoded encoded] at result
  exact ⟨turns, result⟩

theorem StreamReader.chunking_independent_cut_twice : ∃ turns, ∀ more,
    (turn^[more + turns] (start [.chunk ⟨[1, 0, 0], by decide, by decide⟩, .idle,
      .chunk ⟨[0, 97, 2, 0, 0, 0, 98], by decide, by decide⟩,
      .chunk ⟨[99], by decide, by decide⟩])).payloads = ["a", "bc"] ∧
    (turn^[more + turns] (start [.chunk ⟨[1, 0, 0], by decide, by decide⟩, .idle,
      .chunk ⟨[0, 97, 2, 0, 0, 0, 98], by decide, by decide⟩,
      .chunk ⟨[99], by decide, by decide⟩])).ending = some (.leftover []) := by
  have first : encodeFrame "a" = .ok [1, 0, 0, 0, 97] := rfl
  have second : encodeFrame "bc" = .ok [2, 0, 0, 0, 98, 99] := rfl
  exact chunking_independent.2.1 _ _ [[1, 0, 0, 0, 97], [2, 0, 0, 0, 98, 99]]
    (.cons first (.cons second .nil)) rfl

end ZonKey.Pipe

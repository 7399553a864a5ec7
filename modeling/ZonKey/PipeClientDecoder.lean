import ZonKey.FrameStream
import ZonKey.Runs

set_option autoImplicit false

namespace ZonKey.Pipe
open ByteCursor Digest Transport Runs

section Text

def continues (lead second : UInt8) : Bool :=
  if lead = 0xE0 then 0xA0 ≤ second && second ≤ 0xBF
  else if lead = 0xED then 0x80 ≤ second && second ≤ 0x9F
  else if lead = 0xF0 then 0x90 ≤ second && second ≤ 0xBF
  else if lead = 0xF4 then 0x80 ≤ second && second ≤ 0x8F
  else 0xE1 ≤ lead && lead ≤ 0xF3 && 0x80 ≤ second && second ≤ 0xBF

/-- The bytes in front that start a character which is never completed. -/
def invalidRun : Bytes → Nat
  | lead :: second :: rest =>
    if continues lead second then
      match rest with
      | third :: _ => if 0xF0 ≤ lead ∧ 0x80 ≤ third ∧ third ≤ 0xBF then 3 else 2
      | [] => 2
    else 1
  | _ => 1

def replaceInvalid : Nat → Bytes → List Char
  | 0, _ => []
  | _, [] => []
  | fuel + 1, bytes =>
    match ByteArray.utf8DecodeChar? ⟨bytes.toArray⟩ 0 with
    | some c => c :: replaceInvalid fuel (bytes.drop c.utf8Size)
    | none => '\uFFFD' :: replaceInvalid fuel (bytes.drop (invalidRun bytes))

/-- `Buffer.toString("utf8")`: invalid bytes are replaced, valid text is kept. -/
def toStringUtf8 (bytes : Bytes) : String :=
  match String.fromUTF8? ⟨bytes.toArray⟩ with
  | some text => text
  | none => .ofList (replaceInvalid bytes.length bytes)

example : toStringUtf8 [0x61, 0xE2, 0x82, 0x62, 0xFF] = "a\uFFFDb\uFFFD" := by decide +kernel

end Text

structure NamedPipeClient where
  receiveBuffer : Bytes
  delivered : List String
  closed : Bool

namespace NamedPipeClient

def maxFrameBytes : Nat := 64 * 1024

/-- The loop of `decodeFrames` from an offset on; the error is thrown. -/
def decodeFramesFrom (buffer : Bytes) (offset : Nat) (frames : List String) :
    Except String (List String × Bytes) :=
  if offset + 4 ≤ buffer.length then
    let length := ofLeBytes ((buffer.drop offset).take 4)
    if length = 0 ∨ maxFrameBytes < length then .error "frame length out of bounds"
    else if buffer.length < offset + 4 + length then .ok (frames, buffer.drop offset)
    else
      decodeFramesFrom buffer (offset + 4 + length)
        (frames ++ [toStringUtf8 ((buffer.drop (offset + 4)).take length)])
  else .ok (frames, buffer.drop offset)
termination_by buffer.length - offset

def decodeFrames (buffer : Bytes) : Except String (List String × Bytes) :=
  decodeFramesFrom buffer 0 []

def fresh : NamedPipeClient := ⟨[], [], false⟩

/-- The handler of a `data` event; a destroyed socket emits none. -/
def onData (client : NamedPipeClient) (chunk : Bytes) : NamedPipeClient :=
  if client.closed then client
  else
    let buffer := client.receiveBuffer ++ chunk
    match decodeFrames buffer with
    | .ok (frames, rest) =>
      { client with receiveBuffer := rest, delivered := client.delivered ++ frames }
    | .error _ => { client with receiveBuffer := buffer, closed := true }

theorem cutFrame_drop {buffer : Bytes} {offset : Nat} (enough : offset + 4 ≤ buffer.length) :
    cutFrame (buffer.drop offset) =
      if ofLeBytes ((buffer.drop offset).take 4) = 0 then .error .emptyFrame
      else if maxFrameBytes < ofLeBytes ((buffer.drop offset).take 4) then .error .oversizedFrame
      else if buffer.length < offset + 4 + ofLeBytes ((buffer.drop offset).take 4) then .ok none
      else
        .ok (some ((buffer.drop (offset + 4)).take (ofLeBytes ((buffer.drop offset).take 4)),
          buffer.drop (offset + 4 + ofLeBytes ((buffer.drop offset).take 4)))) := by
  have header : ¬ (buffer.drop offset).length < frameHeaderBytes := by
    rw [List.length_drop]
    unfold frameHeaderBytes
    omega
  have short : ∀ length, (buffer.drop offset).length < frameHeaderBytes + length ↔
      buffer.length < offset + 4 + length := by
    intro length
    rw [List.length_drop]
    unfold frameHeaderBytes
    omega
  simp only [cutFrame]
  rw [if_neg header]
  simp only [short, List.drop_drop]
  simp only [frameHeaderBytes, Nat.add_assoc]
  rfl

/-- The loop cuts the buffer the way the headers do. -/
theorem decodeFramesFrom_eq (buffer : Bytes) (offset : Nat) (frames : List String) :
    decodeFramesFrom buffer offset frames =
      match frameCutter.run (buffer.drop offset) with
      | (_, .failed _) => .error "frame length out of bounds"
      | (payloads, .leftover rest) => .ok (frames ++ payloads.map toStringUtf8, rest) := by
  fun_induction decodeFramesFrom buffer offset frames with
  | case1 offset frames enough length bad =>
    have failed : ∃ error, frameCutter.decode (buffer.drop offset) = .error error := by
      have front := cutFrame_drop enough
      by_cases empty : length = 0
      · rw [if_pos empty] at front
        exact ⟨_, front⟩
      · rw [if_neg empty, if_pos (bad.resolve_left empty)] at front
        exact ⟨_, front⟩
    obtain ⟨error, answer⟩ := failed
    rw [FrontDecoder.run_error answer]
  | case2 offset frames enough length good short =>
    rw [not_or] at good
    have front := cutFrame_drop enough
    rw [if_neg good.1, if_neg good.2, if_pos short] at front
    have answer : frameCutter.decode (buffer.drop offset) = .ok none := front
    rw [FrontDecoder.run_waiting answer]
    simp
  | case3 offset frames enough length good complete ih =>
    rw [not_or] at good
    have front := cutFrame_drop enough
    rw [if_neg good.1, if_neg good.2, if_neg complete] at front
    have answer : frameCutter.decode (buffer.drop offset) =
        .ok (some ((buffer.drop (offset + 4)).take length,
          buffer.drop (offset + 4 + length))) := front
    rw [ih, FrontDecoder.run_item answer]
    cases frameCutter.run (buffer.drop (offset + 4 + length)) with
    | mk payloads ending => cases ending <;> simp
  | case4 offset frames short =>
    have answer : frameCutter.decode (buffer.drop offset) = .ok none := by
      change cutFrame (buffer.drop offset) = _
      simp only [cutFrame]
      rw [if_pos (by rw [List.length_drop]; unfold frameHeaderBytes; omega)]
    rw [FrontDecoder.run_waiting answer]
    simp

theorem onData_closed {client : NamedPipeClient} (closed : client.closed = true) (chunk : Bytes) :
    client.onData chunk = client := by
  simp [onData, closed]

end NamedPipeClient

section Stream

def rawFrames (stream : Bytes) : List Bytes := (frameCutter.run stream).1

def badHeader (stream : Bytes) : Bool :=
  match (frameCutter.run stream).2 with
  | .failed _ => true
  | .leftover _ => false

def validText (payload : Bytes) : Bool := (String.fromUTF8? ⟨payload.toArray⟩).isSome

/-- The part of the stream before the chunk that completes a bad header. -/
def intact : Bytes → List Bytes → Bytes
  | seen, [] => seen
  | seen, chunk :: rest => if badHeader (seen ++ chunk) then seen else intact (seen ++ chunk) rest

theorem badHeader_append {stream : Bytes} (bad : badHeader stream = true) (more : Bytes) :
    frameCutter.run (stream ++ more) = frameCutter.run stream := by
  unfold badHeader at bad
  split at bad
  · rename_i error ending
    exact FrontDecoder.run_append_failed more ending
  · cases bad

theorem rawFrames_isPrefix {stream : Bytes} (good : badHeader stream = false) (more : Bytes) :
    rawFrames stream <+: rawFrames (stream ++ more) := by
  unfold badHeader at good
  split at good
  · cases good
  · rename_i rest ending
    unfold rawFrames
    rw [FrontDecoder.run_append more ending]
    exact List.prefix_append _ _

theorem rawFrames_intact_isPrefix {seen : Bytes} (good : badHeader seen = false) (chunks : List Bytes) :
    rawFrames (intact seen chunks) <+: rawFrames (seen ++ chunks.flatten) := by
  induction chunks generalizing seen with
  | nil => simp [intact]
  | cons chunk rest ih =>
    rw [intact, List.flatten_cons]
    split
    · exact rawFrames_isPrefix good _
    · rename_i still
      rw [← List.append_assoc]
      exact ih (by simpa using still)

theorem intact_of_good {seen : Bytes} {chunks : List Bytes}
    (good : badHeader (seen ++ chunks.flatten) = false) :
    intact seen chunks = seen ++ chunks.flatten := by
  induction chunks generalizing seen with
  | nil => simp [intact]
  | cons chunk rest ih =>
    rw [List.flatten_cons, ← List.append_assoc] at good ⊢
    have front : badHeader (seen ++ chunk) = false := by
      by_contra bad
      rw [Bool.not_eq_false] at bad
      have same := badHeader_append bad rest.flatten
      unfold badHeader at good bad
      rw [same, bad] at good
      cases good
    rw [intact, if_neg (by simp [front])]
    exact ih good

theorem checkAll_payloadText (payloads : List Bytes) (ending : StreamEnd UInt8 FrameError) :
    FrontDecoder.checkAll payloadText payloads ending =
      ((payloads.takeWhile validText).map toStringUtf8,
        if payloads.all validText then ending else .failed .invalidUtf8) := by
  induction payloads with
  | nil => rfl
  | cons payload rest ih =>
    cases read : String.fromUTF8? ⟨payload.toArray⟩ with
    | none => simp [FrontDecoder.checkAll, payloadText, validText, read]
    | some text =>
      simp [FrontDecoder.checkAll, payloadText, validText, toStringUtf8, read, ih]

theorem run_frameDecoder (stream : Bytes) :
    frameDecoder.run stream = (((rawFrames stream).takeWhile validText).map toStringUtf8,
      if (rawFrames stream).all validText then (frameCutter.run stream).2
      else .failed .invalidUtf8) := by
  rw [frameDecoder, FrontDecoder.run_refine]
  exact checkAll_payloadText _ _

end Stream

namespace NamedPipeClient

theorem onData_step {client : NamedPipeClient} {stream : Bytes} (live : client.closed = false)
    (so_far : (frameCutter.run stream).2 = .leftover client.receiveBuffer)
    (delivered : client.delivered = (rawFrames stream).map toStringUtf8) (chunk : Bytes) :
    (badHeader (stream ++ chunk) = true ∧ (client.onData chunk).closed = true ∧
        (client.onData chunk).delivered = (rawFrames stream).map toStringUtf8) ∨
      (badHeader (stream ++ chunk) = false ∧ (client.onData chunk).closed = false ∧
        (frameCutter.run (stream ++ chunk)).2 = .leftover (client.onData chunk).receiveBuffer ∧
        (client.onData chunk).delivered = (rawFrames (stream ++ chunk)).map toStringUtf8) := by
  have both := FrontDecoder.run_append chunk so_far
  have batch := decodeFramesFrom_eq (client.receiveBuffer ++ chunk) 0 []
  rw [List.drop_zero] at batch
  unfold rawFrames badHeader at *
  cases answer : frameCutter.run (client.receiveBuffer ++ chunk) with
  | mk payloads last =>
    rw [answer] at both batch
    rw [both]
    cases last with
    | failed error => simp [onData, live, decodeFrames, batch, delivered]
    | leftover rest => simp [onData, live, decodeFrames, batch, delivered]

theorem run_closed {client : NamedPipeClient} (closed : client.closed = true) (chunks : List Bytes) :
    run onData client chunks = client := by
  induction chunks with
  | nil => rfl
  | cons chunk rest ih => rw [run_cons, onData_closed closed, ih]

theorem run_delivered {client : NamedPipeClient} {stream : Bytes} (live : client.closed = false)
    (so_far : (frameCutter.run stream).2 = .leftover client.receiveBuffer)
    (delivered : client.delivered = (rawFrames stream).map toStringUtf8) (chunks : List Bytes) :
    (run onData client chunks).delivered = (rawFrames (intact stream chunks)).map toStringUtf8 ∧
      (run onData client chunks).closed = badHeader (stream ++ chunks.flatten) := by
  induction chunks generalizing client stream with
  | nil =>
    have good : badHeader stream = false := by simp [badHeader, so_far]
    simp [intact, live, delivered, good]
  | cons chunk rest ih =>
    rw [run_cons, intact, List.flatten_cons, ← List.append_assoc]
    cases onData_step live so_far delivered chunk with
    | inl failed =>
      obtain ⟨bad, closed, kept⟩ := failed
      have same := badHeader_append bad rest.flatten
      rw [run_closed closed, if_pos bad]
      refine ⟨kept, ?_⟩
      unfold badHeader at bad ⊢
      rw [same, bad, closed]
    | inr goes_on =>
      obtain ⟨good, still, later, more⟩ := goes_on
      rw [if_neg (by simp [good])]
      exact ih still later more

theorem map_prefix_inj {payloads first second : List Bytes} (one : first <+: payloads)
    (two : second <+: payloads) (same : first.map toStringUtf8 = second.map toStringUtf8) :
    first = second := by
  have size : first.length = second.length := by simpa using congrArg List.length same
  rw [List.prefix_iff_eq_take.mp one, List.prefix_iff_eq_take.mp two, size]

theorem agrees_iff (chunks : List Bytes) :
    ((run onData fresh chunks).delivered = (frameDecoder.run chunks.flatten).1 ∧
        ((run onData fresh chunks).closed = true ↔
          ∃ error, (frameDecoder.run chunks.flatten).2 = .failed error)) ↔
      rawFrames (intact [] chunks) = (rawFrames chunks.flatten).takeWhile validText := by
  have nothing : frameCutter.run [] = ([], .leftover []) := FrontDecoder.run_waiting rfl
  have none_yet : (frameCutter.run []).2 = .leftover fresh.receiveBuffer := by
    rw [nothing]
    rfl
  have none_delivered : fresh.delivered = (rawFrames []).map toStringUtf8 := by
    rw [rawFrames, nothing]
    rfl
  obtain ⟨delivered, closed⟩ := run_delivered rfl none_yet none_delivered chunks
  rw [List.nil_append] at closed
  rw [delivered, closed, run_frameDecoder]
  constructor
  · rintro ⟨same, -⟩
    exact map_prefix_inj (rawFrames_intact_isPrefix (by simp [badHeader, nothing]) chunks)
      (List.takeWhile_prefix _) same
  · intro same
    refine ⟨congrArg _ same, ?_⟩
    by_cases valid : (rawFrames chunks.flatten).all validText = true
    · simp only [valid, if_true]
      unfold badHeader
      cases (frameCutter.run chunks.flatten).2 <;> simp
    · simp only [valid]
      -- with every header good, the client has read a frame that the service refuses
      have bad : badHeader chunks.flatten = true := by
        by_contra good
        rw [Bool.not_eq_true] at good
        rw [intact_of_good good, List.nil_append] at same
        apply valid
        rw [same]
        exact List.all_takeWhile
      simp [bad]

/-- The client and the read loop agree on a stream exactly when the frames complete
before the event with a bad header are the ones in front that are valid text. -/
theorem agrees_with_reader_iff (chunks : List Bytes) (polls : List Poll)
    (same_stream : streamOf polls = chunks.flatten) : ∃ turns, ∀ more,
    (StreamReader.turn^[more + turns] (StreamReader.start polls)).ending ≠ none ∧
    (((run onData fresh chunks).delivered =
        (StreamReader.turn^[more + turns] (StreamReader.start polls)).payloads ∧
      ((run onData fresh chunks).closed = true ↔ ∃ error,
        (StreamReader.turn^[more + turns] (StreamReader.start polls)).ending =
          some (.failed error))) ↔
      rawFrames (intact [] chunks) = (rawFrames chunks.flatten).takeWhile validText) := by
  obtain ⟨turns, result⟩ := StreamReader.reads_stream polls
  refine ⟨turns, fun more => ?_⟩
  obtain ⟨payloads, ending⟩ := result more
  rw [payloads, ending, same_stream]
  refine ⟨by simp, ?_⟩
  simp only [Option.some.injEq]
  exact agrees_iff chunks

theorem agrees_with_reader_one_frame : ∃ turns, ∀ more,
    (run onData fresh [[1, 0, 0, 0, 97], [2, 0]]).delivered =
        (StreamReader.turn^[more + turns] (StreamReader.start
          [.chunk ⟨[1, 0, 0], by decide, by decide⟩,
            .chunk ⟨[0, 97, 2, 0], by decide, by decide⟩])).payloads := by
  have good : rawFrames (intact [] [[1, 0, 0, 0, 97], [2, 0]]) =
      (rawFrames [1, 0, 0, 0, 97, 2, 0]).takeWhile validText := by decide +kernel
  obtain ⟨turns, agreed⟩ := agrees_with_reader_iff [[1, 0, 0, 0, 97], [2, 0]]
    [.chunk ⟨[1, 0, 0], by decide, by decide⟩, .chunk ⟨[0, 97, 2, 0], by decide, by decide⟩] rfl
  exact ⟨turns, fun more => ((agreed more).2.mpr good).1⟩

/-- A frame that is not valid text, and a good frame with a bad header right behind. -/
theorem decoders_differ :
    ((run onData fresh [[1, 0, 0, 0, 0xFF]]).delivered = ["\uFFFD"] ∧
      (run onData fresh [[1, 0, 0, 0, 0xFF]]).closed = false ∧
      (StreamReader.turn^[3] (StreamReader.start
        [.chunk ⟨[1, 0, 0, 0, 0xFF], by decide, by decide⟩])).payloads = [] ∧
      (StreamReader.turn^[3] (StreamReader.start
        [.chunk ⟨[1, 0, 0, 0, 0xFF], by decide, by decide⟩])).ending =
          some (.failed .invalidUtf8)) ∧
    (run onData fresh [[1, 0, 0, 0, 97, 0, 0, 0, 0]]).delivered = [] ∧
      (run onData fresh [[1, 0, 0, 0, 97, 0, 0, 0, 0]]).closed = true ∧
      (StreamReader.turn^[3] (StreamReader.start
        [.chunk ⟨[1, 0, 0, 0, 97, 0, 0, 0, 0], by decide, by decide⟩])).payloads = ["a"] ∧
      (StreamReader.turn^[3] (StreamReader.start
        [.chunk ⟨[1, 0, 0, 0, 97, 0, 0, 0, 0], by decide, by decide⟩])).ending =
          some (.failed .emptyFrame) := by
  decide +kernel

end NamedPipeClient
end ZonKey.Pipe

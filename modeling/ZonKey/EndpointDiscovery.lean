import ZonKey.JsDecimalText

set_option autoImplicit false

/-!
# The discovery record

`endpoint_discovery.rs` writes the record of a running endpoint and reads it
back; `endpoint.ts` reads the same file. Both cut the text into lines and the
lines at their first `=`. What Node decodes from UTF-8 has no lone surrogates,
so the characters of the text stand for its units.
-/
namespace ZonKey.Discovery
open Host Pipe

def endpointProtocol : String := "zonkey.host-transport/1"

structure EndpointRecord where
  protocol : String
  pipe : String
  pid : UInt32
  startedUnixMs : UInt64
  deriving DecidableEq

def render (record : EndpointRecord) : String :=
  "protocol=" ++ record.protocol ++ "\r\npipe=" ++ record.pipe ++ "\r\npid=" ++
    toString record.pid ++ "\r\nstarted_unix_ms=" ++ toString record.startedUnixMs ++ "\r\n"

section Lines

def dropReturn (line : List Char) : List Char :=
  if line.getLast? = some '\r' then line.dropLast else line

/-- `str::lines` on the pieces between line feeds: an empty last piece is no line. -/
def rustLines : List (List Char) → List (List Char)
  | [] => []
  | [last] => if last = [] then [] else [last]
  | line :: rest => dropReturn line :: rustLines rest

/-- `split(/\r?\n/)` on the pieces between line feeds. -/
def jsLines : List (List Char) → List (List Char)
  | [] => []
  | [last] => [last]
  | line :: rest => dropReturn line :: jsLines rest

/-- Key and value at the first `=`. -/
def splitOnce (line : List Char) : Option (String × String) :=
  match line.span (· ≠ '=') with
  | (_, []) => none
  | (key, _ :: value) => some (.ofList key, .ofList value)

end Lines

/-- `str::parse` at `u32`. -/
def parseU32 (text : String) : Option UInt32 :=
  (parseU64 text).bind fun value => if value.toNat < 2 ^ 32 then some value.toUInt32 else none

structure RecordFields where
  protocol : Option String
  pipe : Option String
  pid : Option UInt32
  started : Option UInt64

def setField (fields : RecordFields) (line : List Char) : Option RecordFields := do
  let (key, value) ← splitOnce line
  match key with
  | "protocol" => some { fields with protocol := some value }
  | "pipe" => some { fields with pipe := some value }
  | "pid" => some { fields with pid := parseU32 value }
  | "started_unix_ms" => some { fields with started := parseU64 value }
  | _ => none

/-- The last value of a key counts, and an unknown key spoils the record. -/
def parse (text : String) : Option EndpointRecord := do
  let fields ← (rustLines (text.toList.splitOn '\n')).foldlM setField ⟨none, none, none, none⟩
  let record : EndpointRecord :=
    ⟨← fields.protocol, ← fields.pipe, ← fields.pid, ← fields.started⟩
  if record.protocol = endpointProtocol then some record else none

/-- The record as `endpoint.ts` has it: its numbers are safe integers. -/
structure HostRecord where
  protocol : String
  pipe : String
  pid : Nat
  startedUnixMs : Nat
  deriving DecidableEq

/-- `Map.set` for a line; empty lines are skipped, and unknown keys are kept. -/
def setEntry (fields : String → Option String) (line : List Char) :
    Option (String → Option String) :=
  if line = [] then some fields
  else do
    let (key, value) ← splitOnce line
    if key = "" then none else some (Function.update fields key (some value))

def pipePrefix : String := "\\\\.\\pipe\\"

def parseRecord (text : String) : Option HostRecord := do
  let fields ← (jsLines (text.toList.splitOn '\n')).foldlM setEntry fun _ => none
  let pid ← (fields "pid").bind fun value => positiveSafeInteger (utf16 value)
  let startedUnixMs ← (fields "started_unix_ms").bind fun value => positiveSafeInteger (utf16 value)
  let pipe ← fields "pipe"
  if fields "protocol" = some endpointProtocol ∧ pipePrefix.toList.isPrefixOf pipe.toList then
    some ⟨endpointProtocol, pipe, pid, startedUnixMs⟩
  else none

structure Agrees (fields : RecordFields) (entries : String → Option String) : Prop where
  protocol : entries "protocol" = fields.protocol
  pipe : entries "pipe" = fields.pipe
  pid : (entries "pid").bind parseU32 = fields.pid
  started : (entries "started_unix_ms").bind parseU64 = fields.started

section Agreement
variable {fields next : RecordFields} {entries : String → Option String}

theorem setEntry_agrees (agrees : Agrees fields entries) {line : List Char}
    (read : setField fields line = some next) :
    ∃ others, setEntry entries line = some others ∧ Agrees next others := by
  unfold setField at read
  cases cut : splitOnce line with
  | none => simp [cut] at read
  | some pair =>
    obtain ⟨key, value⟩ := pair
    have some_line : line ≠ [] := by
      rintro rfl
      cases cut
    have entered (named : key ≠ "") :
        setEntry entries line = some (Function.update entries key (some value)) := by
      simp [setEntry, some_line, cut, named]
    simp only [cut, Option.bind_eq_bind, Option.bind_some] at read
    split at read
    · cases read
      exact ⟨_, entered (by decide), ⟨by simp, by simpa using agrees.pipe,
        by simpa using agrees.pid, by simpa using agrees.started⟩⟩
    · cases read
      exact ⟨_, entered (by decide), ⟨by simpa using agrees.protocol, by simp,
        by simpa using agrees.pid, by simpa using agrees.started⟩⟩
    · cases read
      exact ⟨_, entered (by decide), ⟨by simpa using agrees.protocol, by simpa using agrees.pipe,
        by simp, by simpa using agrees.started⟩⟩
    · cases read
      exact ⟨_, entered (by decide), ⟨by simpa using agrees.protocol, by simpa using agrees.pipe,
        by simpa using agrees.pid, by simp⟩⟩
    · cases read

theorem setEntries_agree (agrees : Agrees fields entries) {lines : List (List Char)}
    (read : lines.foldlM setField fields = some next) :
    ∃ others, lines.foldlM setEntry entries = some others ∧ Agrees next others := by
  induction lines generalizing fields entries with
  | nil =>
    cases read
    exact ⟨entries, rfl, agrees⟩
  | cons line rest ih =>
    rw [List.foldlM_cons, Option.bind_eq_bind, Option.bind_eq_some_iff] at read
    obtain ⟨middle, first, later⟩ := read
    obtain ⟨others, entered, still⟩ := setEntry_agrees agrees first
    obtain ⟨final, folded, done⟩ := ih still later
    exact ⟨final, by rw [List.foldlM_cons, entered]; exact folded, done⟩

theorem foldlM_jsLines (entries : String → Option String) (pieces : List (List Char)) :
    (jsLines pieces).foldlM setEntry entries = (rustLines pieces).foldlM setEntry entries := by
  induction pieces generalizing entries with
  | nil => rfl
  | cons piece rest ih =>
    cases rest with
    | nil => by_cases empty : piece = [] <;> simp [jsLines, rustLines, empty, setEntry]
    | cons second others =>
      simp only [jsLines, rustLines, List.foldlM_cons, ih]

theorem positiveSafeInteger_of_parse32 {text : String} {n : UInt32}
    (parsed : parseU32 text = some n) :
    positiveSafeInteger (utf16 text) = if 0 < n.toNat then some n.toNat else none := by
  obtain ⟨value, read, small⟩ := Option.bind_eq_some_iff.mp parsed
  split_ifs at small with bound
  cases small
  have same : value.toUInt32.toNat = value.toNat := by
    rw [UInt64.toNat_toUInt32]
    exact Nat.mod_eq_of_lt bound
  have safe : value.toNat ≤ JsNumber.maxSafeInteger := by
    have limit : JsNumber.maxSafeInteger = 9007199254740991 := rfl
    omega
  rw [positiveSafeInteger_of_parse read, same]
  simp [safe]

def EndpointRecord.forHost (record : EndpointRecord) : Option HostRecord :=
  if pipePrefix.toList.isPrefixOf record.pipe.toList ∧ 0 < record.pid.toNat ∧
      0 < record.startedUnixMs.toNat ∧ record.startedUnixMs.toNat ≤ JsNumber.maxSafeInteger then
    some ⟨record.protocol, record.pipe, record.pid.toNat, record.startedUnixMs.toNat⟩
  else none

theorem parseRecord_of_parse {text : String} {record : EndpointRecord}
    (read : parse text = some record) : parseRecord text = record.forHost := by
  unfold parse at read
  simp only [Option.bind_eq_bind, Option.bind_eq_some_iff] at read
  obtain ⟨fields, folded, protocol, named, pipe, piped, pid, numbered, started, timed, valid⟩ := read
  split_ifs at valid with known
  cases valid
  have blank : Agrees ⟨none, none, none, none⟩ fun _ => none := ⟨rfl, rfl, rfl, rfl⟩
  obtain ⟨entries, entered, agrees⟩ := setEntries_agree blank folded
  rw [← agrees.pid] at numbered
  rw [← agrees.started] at timed
  obtain ⟨pidText, pidEntry, pidRead⟩ := Option.bind_eq_some_iff.mp numbered
  obtain ⟨startedText, startedEntry, startedRead⟩ := Option.bind_eq_some_iff.mp timed
  have protocolEntry := agrees.protocol.trans named
  have pipeEntry := agrees.pipe.trans piped
  unfold parseRecord EndpointRecord.forHost
  rw [foldlM_jsLines, entered]
  simp only [Option.bind_eq_bind, Option.bind_some, pidEntry, startedEntry, pipeEntry, protocolEntry,
    positiveSafeInteger_of_parse32 pidRead, positiveSafeInteger_of_parse startedRead]
  by_cases positive : 0 < pid.toNat
  · by_cases safe : 0 < started.toNat ∧ started.toNat ≤ JsNumber.maxSafeInteger
    · simp [positive, safe, known]
    · simp [positive, safe]
  · simp [positive]

/-- Wherever the service reads a record, the host reads the same one, or none
if the pipe is no local pipe or a number is zero or no safe integer. -/
theorem readers_agree {text : String} {record : EndpointRecord} (read : parse text = some record) :
    parseRecord text =
      if pipePrefix.toList.isPrefixOf record.pipe.toList ∧ 0 < record.pid.toNat ∧
          0 < record.startedUnixMs.toNat ∧ record.startedUnixMs.toNat ≤ JsNumber.maxSafeInteger then
        some ⟨record.protocol, record.pipe, record.pid.toNat, record.startedUnixMs.toNat⟩
      else none :=
  parseRecord_of_parse read

end Agreement

section RoundTrip

theorem dropReturn_append (line : List Char) : dropReturn (line ++ ['\r']) = line := by
  simp [dropReturn]

theorem rustLines_terminated (lines : List (List Char)) :
    rustLines (lines.map (· ++ ['\r']) ++ [[]]) = lines := by
  induction lines with
  | nil => rfl
  | cons line rest ih =>
    have more : rest.map (· ++ ['\r']) ++ [[]] ≠ [] := by simp
    obtain ⟨second, others, eq⟩ := List.exists_cons_of_ne_nil more
    rw [eq] at ih
    rw [List.map_cons, List.cons_append, eq, rustLines, dropReturn_append, ih]
    exact nofun

theorem splitOnce_field {key : String} (clean : '=' ∉ key.toList) (value : String) :
    splitOnce (key ++ "=" ++ value).toList = some (key, value) := by
  have plain : ∀ c ∈ key.toList, decide (c ≠ '=') = true := by
    intro c mem
    exact decide_eq_true fun same => clean (same ▸ mem)
  have cut : (key ++ "=" ++ value).toList.span (· ≠ '=') = (key.toList, '=' :: value.toList) := by
    rw [String.toList_append, String.toList_append, List.append_assoc,
      List.span_eq_takeWhile_dropWhile, List.takeWhile_append_of_pos plain,
      List.dropWhile_append_of_pos plain]
    simp
  rw [splitOnce, cut]
  simp

theorem parseU32_toString (n : UInt32) : parseU32 (toString n) = some n := by
  have same : toString n = toString n.toUInt64 := by
    change toString n.toNat = toString n.toUInt64.toNat
    rw [UInt32.toNat_toUInt64]
  have small : n.toUInt64.toNat < 2 ^ 32 := by
    rw [UInt32.toNat_toUInt64]
    exact n.toNat_lt
  rw [parseU32, same, parseU64_toString, Option.bind_some, if_pos small]
  simp

def recordLines (record : EndpointRecord) : List (List Char) :=
  [("protocol" ++ "=" ++ record.protocol).toList, ("pipe" ++ "=" ++ record.pipe).toList,
    ("pid" ++ "=" ++ toString record.pid).toList,
    ("started_unix_ms" ++ "=" ++ toString record.startedUnixMs).toList]

theorem feed_not_mem_toString (n : UInt64) : '\n' ∉ (toString n).toList := by
  intro mem
  exact absurd (isDigit_toString mem) (by decide)

theorem rustLines_render {record : EndpointRecord} (protocol : '\n' ∉ record.protocol.toList)
    (pipe : '\n' ∉ record.pipe.toList) :
    rustLines ((render record).toList.splitOn '\n') = recordLines record := by
  have pid : '\n' ∉ (toString record.pid).toList := by
    have same : toString record.pid = toString record.pid.toUInt64 := by
      change toString record.pid.toNat = toString record.pid.toUInt64.toNat
      rw [UInt32.toNat_toUInt64]
    rw [same]
    exact feed_not_mem_toString _
  have started := feed_not_mem_toString record.startedUnixMs
  have pieces : (render record).toList.splitOn '\n' =
      (recordLines record).map (· ++ ['\r']) ++ [[]] := by
    have joined : (render record).toList =
        ['\n'].intercalate ((recordLines record).map (· ++ ['\r']) ++ [[]]) := by
      have protocol : "protocol=".toList = "protocol".toList ++ "=".toList := rfl
      have pipe : "\r\npipe=".toList = '\r' :: '\n' :: ("pipe".toList ++ "=".toList) := rfl
      have pid : "\r\npid=".toList = '\r' :: '\n' :: ("pid".toList ++ "=".toList) := rfl
      have started : "\r\nstarted_unix_ms=".toList =
          '\r' :: '\n' :: ("started_unix_ms".toList ++ "=".toList) := rfl
      have stop : "\r\n".toList = ['\r', '\n'] := rfl
      change ("protocol=" ++ record.protocol ++ "\r\npipe=" ++ record.pipe ++ "\r\npid=" ++
        toString record.pid ++ "\r\nstarted_unix_ms=" ++ toString record.startedUnixMs ++
        "\r\n").toList = _
      simp only [recordLines, String.toList_append, protocol, pipe, pid, started, stop,
        List.map_cons, List.map_nil, List.cons_append, List.nil_append, List.intercalate_cons_cons,
        List.intercalate_singleton, List.append_assoc, List.append_nil]
    rw [joined, List.splitOn_intercalate]
    · simp [recordLines, protocol, pipe, pid, started]
    · simp
  rw [pieces, rustLines_terminated]

theorem parse_render {record : EndpointRecord} (protocol : record.protocol = endpointProtocol)
    (pipe : '\n' ∉ record.pipe.toList) : parse (render record) = some record := by
  have clean : '\n' ∉ record.protocol.toList := by rw [protocol]; decide
  rw [parse, rustLines_render clean pipe]
  simp only [recordLines, List.foldlM_cons, List.foldlM_nil, setField,
    splitOnce_field (show '=' ∉ "protocol".toList by decide),
    splitOnce_field (show '=' ∉ "pipe".toList by decide),
    splitOnce_field (show '=' ∉ "pid".toList by decide),
    splitOnce_field (show '=' ∉ "started_unix_ms".toList by decide), Option.bind_eq_bind,
    Option.bind_some, parseU32_toString, parseU64_toString, pure]
  rw [if_pos protocol]

theorem mem_of_splitOnce {line : List Char} {key value : String}
    (cut : splitOnce line = some (key, value)) {c : Char} (mem : c ∈ value.toList) : c ∈ line := by
  have whole := List.takeWhile_append_dropWhile (p := fun c => decide (c ≠ '=')) (l := line)
  unfold splitOnce at cut
  rw [List.span_eq_takeWhile_dropWhile] at cut
  cases found : line.dropWhile fun c => decide (c ≠ '=') with
  | nil =>
    rw [found] at cut
    cases cut
  | cons first rest =>
    rw [found] at cut whole
    cases cut
    rw [← whole]
    exact List.mem_append_right _ (List.mem_cons_of_mem _ (by simpa using mem))

theorem mem_dropReturn {line : List Char} {c : Char} (mem : c ∈ dropReturn line) : c ∈ line := by
  unfold dropReturn at mem
  split at mem
  · exact List.mem_of_mem_dropLast mem
  · exact mem

theorem mem_of_mem_rustLines {pieces : List (List Char)} {line : List Char}
    (member : line ∈ rustLines pieces) {c : Char} (mem : c ∈ line) : ∃ piece ∈ pieces, c ∈ piece := by
  induction pieces with
  | nil => cases member
  | cons piece rest ih =>
    cases rest with
    | nil =>
      unfold rustLines at member
      split at member
      · cases member
      · exact ⟨line, member, mem⟩
    | cons second others =>
      rcases List.mem_cons.mp member with rfl | later
      · exact ⟨piece, List.mem_cons_self, mem_dropReturn mem⟩
      · obtain ⟨found, inside, there⟩ := ih later
        exact ⟨found, List.mem_cons_of_mem _ inside, there⟩

theorem feed_not_mem_line {text line : List Char}
    (member : line ∈ rustLines (text.splitOn '\n')) : '\n' ∉ line := by
  intro mem
  obtain ⟨piece, inside, there⟩ := mem_of_mem_rustLines member mem
  exact DelimitedText.not_mem_splitOn inside there

theorem foldlM_keeps {σ α : Type} {f : σ → α → Option σ} (I : σ → Prop) {inputs : List α}
    (kept : ∀ s a t, a ∈ inputs → I s → f s a = some t → I t) {start final : σ} (held : I start)
    (folded : inputs.foldlM f start = some final) : I final := by
  induction inputs generalizing start with
  | nil =>
    cases folded
    exact held
  | cons a rest ih =>
    rw [List.foldlM_cons, Option.bind_eq_bind, Option.bind_eq_some_iff] at folded
    obtain ⟨middle, first, later⟩ := folded
    exact ih (fun s b t mem => kept s b t (List.mem_cons_of_mem _ mem))
      (kept start a middle List.mem_cons_self held first) later

theorem feed_not_mem_parsed {text : String} {record : EndpointRecord}
    (read : parse text = some record) : '\n' ∉ record.pipe.toList := by
  unfold parse at read
  simp only [Option.bind_eq_bind, Option.bind_eq_some_iff] at read
  obtain ⟨fields, folded, protocol, _, pipe, piped, pid, _, started, _, valid⟩ := read
  split_ifs at valid
  cases valid
  refine foldlM_keeps (fun f : RecordFields => ∀ p, f.pipe = some p → '\n' ∉ p.toList) ?_ (by simp)
    folded pipe piped
  intro f line g member held set p named
  unfold setField at set
  cases cut : splitOnce line with
  | none => simp [cut] at set
  | some pair =>
    obtain ⟨key, value⟩ := pair
    simp only [cut, Option.bind_eq_bind, Option.bind_some] at set
    split at set
    · cases set
      exact held p named
    · cases set
      cases named
      exact fun mem => feed_not_mem_line member (mem_of_splitOnce cut mem)
    · cases set
      exact held p named
    · cases set
      exact held p named
    · cases set

theorem feed_not_mem_parsedRecord {text : String} {record : HostRecord}
    (read : parseRecord text = some record) :
    record.protocol = endpointProtocol ∧ '\n' ∉ record.pipe.toList := by
  unfold parseRecord at read
  rw [foldlM_jsLines] at read
  simp only [Option.bind_eq_bind, Option.bind_eq_some_iff] at read
  obtain ⟨entries, folded, pid, _, started, _, pipe, piped, valid⟩ := read
  split_ifs at valid
  cases valid
  refine ⟨rfl, foldlM_keeps (fun g : String → Option String =>
    ∀ key p, g key = some p → '\n' ∉ p.toList) ?_ (by simp) folded "pipe" pipe piped⟩
  intro f line g member held set key p named
  unfold setEntry at set
  split_ifs at set with empty
  · cases set
    exact held key p named
  · cases cut : splitOnce line with
    | none => simp [cut] at set
    | some pair =>
      obtain ⟨found, value⟩ := pair
      simp only [cut, Option.bind_eq_bind, Option.bind_some] at set
      split_ifs at set
      cases set
      by_cases same : key = found
      · rw [same, Function.update_self] at named
        cases named
        exact fun mem => feed_not_mem_line member (mem_of_splitOnce cut mem)
      · rw [Function.update_of_ne same] at named
        exact held key p named

/-- The record of an endpoint comes back from its file exactly if it names the
protocol and a pipe on one line; the host reads it as well exactly if the pipe
is local and its numbers are positive safe integers. -/
theorem record_round_trip (record : EndpointRecord) :
    (parse (render record) = some record ↔
      record.protocol = endpointProtocol ∧ '\n' ∉ record.pipe.toList) ∧
    (parseRecord (render record) =
        some ⟨record.protocol, record.pipe, record.pid.toNat, record.startedUnixMs.toNat⟩ ↔
      (record.protocol = endpointProtocol ∧ '\n' ∉ record.pipe.toList) ∧
        pipePrefix.toList.isPrefixOf record.pipe.toList ∧ 0 < record.pid.toNat ∧
        0 < record.startedUnixMs.toNat ∧
        record.startedUnixMs.toNat ≤ JsNumber.maxSafeInteger) := by
  have back : record.protocol = endpointProtocol ∧ '\n' ∉ record.pipe.toList →
      parse (render record) = some record := fun clean => parse_render clean.1 clean.2
  refine ⟨⟨fun read => ⟨?_, feed_not_mem_parsed read⟩, back⟩, fun read => ?_, ?_⟩
  · unfold parse at read
    simp only [Option.bind_eq_bind, Option.bind_eq_some_iff] at read
    obtain ⟨_, _, _, _, _, _, _, _, _, _, valid⟩ := read
    split_ifs at valid with known
    cases valid
    exact known
  · have clean := feed_not_mem_parsedRecord read
    refine ⟨clean, ?_⟩
    rw [parseRecord_of_parse (back clean), EndpointRecord.forHost] at read
    split_ifs at read with good
    exact good
  · rintro ⟨clean, good⟩
    rw [parseRecord_of_parse (back clean), EndpointRecord.forHost, if_pos good]

end RoundTrip

def handwritten : String :=
  "pid=7\npipe=\\\\.\\pipe\\a=b\r\nprotocol=zonkey.host-transport/1\npid=+012\r\nstarted_unix_ms=05"

theorem readers_agree_handwritten :
    parseRecord handwritten = some ⟨endpointProtocol, "\\\\.\\pipe\\a=b", 12, 5⟩ := by
  have read : parse handwritten = some ⟨endpointProtocol, "\\\\.\\pipe\\a=b", 12, 5⟩ := by rfl
  exact (readers_agree read).trans (if_pos (by decide))

end ZonKey.Discovery

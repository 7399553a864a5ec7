import ZonKey.DelimitedText
import ZonKey.PipeTransport

set_option autoImplicit false

namespace ZonKey.Pipe
open Recovery DelimitedText

section Pieces

/-- The fields of a payload, each cut at every separator in it. -/
def wirePieces (fields : List String) : List String := fields.flatMap split

theorem wirePieces_eq (fields : List String) :
    wirePieces fields = (pieces '|' (fields.map String.toList)).map String.ofList := by
  simp only [wirePieces, pieces, List.flatMap_map, List.map_flatMap]
  rfl

theorem not_mem_wirePieces {fields : List String} {piece : String}
    (member : piece ∈ wirePieces fields) : '|' ∉ piece.toList := by
  rw [wirePieces_eq, List.mem_map] at member
  obtain ⟨chars, cut, rfl⟩ := member
  simpa using not_mem_pieces cut

theorem length_le_wirePieces (fields : List String) : fields.length ≤ (wirePieces fields).length := by
  simpa [wirePieces_eq] using length_le_length_pieces '|' (fields.map String.toList)

theorem length_lt_wirePieces {fields : List String} {field : String} (member : field ∈ fields)
    (dirty : '|' ∈ field.toList) : fields.length < (wirePieces fields).length := by
  simpa [wirePieces_eq] using
    length_lt_length_pieces (List.mem_map_of_mem member) dirty

theorem intercalate_wirePieces (fields : List String) :
    "|".intercalate (wirePieces fields) = "|".intercalate fields := by
  rw [← String.toList_inj, String.toList_intercalate, String.toList_intercalate, wirePieces_eq,
    List.map_map]
  simpa [Function.comp_def] using intercalate_pieces '|' (fields.map String.toList)

theorem splitnChars_intercalate (first : List (List Char)) (last : List Char)
    (clean : ∀ piece ∈ first, '|' ∉ piece) :
    splitnChars (first.length + 1) (['|'].intercalate (first ++ [last])) = first ++ [last] := by
  induction first with
  | nil => simp [splitnChars]
  | cons piece rest ih =>
    have cut : (piece ++ '|' :: ['|'].intercalate (rest ++ [last])).span (· ≠ '|') =
        (piece, '|' :: ['|'].intercalate (rest ++ [last])) := by
      have plain : ∀ c ∈ piece, decide (c ≠ '|') = true := by
        intro c member
        have := clean piece List.mem_cons_self
        exact decide_eq_true fun same => this (same ▸ member)
      rw [List.span_eq_takeWhile_dropWhile, List.takeWhile_append_of_pos plain,
        List.dropWhile_append_of_pos plain]
      simp
    have joined : ['|'].intercalate (piece :: (rest ++ [last])) =
        piece ++ '|' :: ['|'].intercalate (rest ++ [last]) := by
      simp [List.intercalate_cons_of_ne_nil]
    have later := ih fun other member => clean other (List.mem_cons_of_mem _ member)
    rw [List.length_cons, List.cons_append, joined, splitnChars, cut]
    exact congrArg (piece :: ·) later

theorem splitn_clean {first : List String} (clean : ∀ field ∈ first, '|' ∉ field.toList)
    (last : String) :
    splitn (first.length + 1) ("|".intercalate (first ++ [last])) = first ++ [last] := by
  have cut := splitnChars_intercalate (first.map String.toList) last.toList (by simpa using clean)
  have joined : ("|".intercalate (first ++ [last])).toList =
      ['|'].intercalate (first.map String.toList ++ [last.toList]) := by
    rw [String.toList_intercalate, List.map_append]
    rfl
  rw [List.length_map] at cut
  rw [splitn, joined, cut, List.map_append, List.map_map]
  simp only [Function.comp_def, String.ofList_toList, List.map_id', List.map_cons, List.map_nil]

theorem intercalate_ne_empty {fields : List String} (two : 1 < fields.length) :
    "|".intercalate fields ≠ "" := by
  match fields with
  | first :: second :: rest =>
    intro empty
    have chars := congrArg String.toList empty
    simp [String.intercalate_cons_cons] at chars

theorem splitn_intercalate (count : Nat) {fields : List String} (enough : count < fields.length) :
    splitn (count + 1) ("|".intercalate fields) =
      (wirePieces fields).take count ++ ["|".intercalate ((wirePieces fields).drop count)] := by
  have more := length_le_wirePieces fields
  have size : ((wirePieces fields).take count).length = count := by
    rw [List.length_take]
    omega
  have some_last : (wirePieces fields).drop count ≠ [] := by
    rw [Ne, List.drop_eq_nil_iff]
    omega
  have joined : ("|".intercalate fields).toList = ['|'].intercalate
      (((wirePieces fields).take count).map String.toList ++
        [("|".intercalate ((wirePieces fields).drop count)).toList]) := by
    rw [← intercalate_wirePieces, String.toList_intercalate, String.toList_intercalate]
    change _ = ['|'].intercalate (_ ++ [['|'].intercalate _])
    rw [intercalate_intercalate _ (by simpa using some_last), ← List.map_append,
      List.take_append_drop]
    rfl
  have cut := splitnChars_intercalate (((wirePieces fields).take count).map String.toList)
    ("|".intercalate ((wirePieces fields).drop count)).toList (by
      intro chars member
      obtain ⟨piece, taken, rfl⟩ := List.mem_map.mp member
      exact not_mem_wirePieces (List.mem_of_mem_take taken))
  rw [List.length_map, size] at cut
  rw [splitn, joined, cut, List.map_append, List.map_map]
  simp only [Function.comp_def, String.ofList_toList, List.map_id', List.map_cons, List.map_nil]

end Pieces

theorem stripPrefix_append (start rest : String) : stripPrefix start (start ++ rest) = some rest := by
  have cut : ∀ chars : List Char, chars.isPrefixOf? (chars ++ rest.toList) = some rest.toList := by
    intro chars
    induction chars with
    | nil => simp [List.isPrefixOf?]
    | cons c chars ih => simp [List.isPrefixOf?, ih]
  rw [stripPrefix, String.toList_append, cut, Option.map_some, String.ofList_toList]

theorem frameBody_req (body : String) : frameBody ("REQ|" ++ body) = .req body := by
  have foreign : ∀ start ∈ ["HELLO|", "RECOVERY|", "HANDOFF|"],
      stripPrefix start ("REQ|" ++ body) = none := by
    simp [stripPrefix, List.isPrefixOf?]
  simp only [List.forall_mem_cons] at foreign
  rw [frameBody, foreign.1, foreign.2.1, foreign.2.2.1, stripPrefix_append]

theorem frameBody_reqx (body : String) : frameBody ("REQX|" ++ body) = .reqx body := by
  have foreign : ∀ start ∈ ["HELLO|", "RECOVERY|", "HANDOFF|", "REQ|"],
      stripPrefix start ("REQX|" ++ body) = none := by
    simp [stripPrefix, List.isPrefixOf?]
  simp only [List.forall_mem_cons] at foreign
  rw [frameBody, foreign.1, foreign.2.1, foreign.2.2.1, foreign.2.2.2.1, stripPrefix_append]

section Numerals

theorem toList_toString (n : UInt64) : (toString n).toList = Nat.toDigits 10 n.toNat :=
  Nat.toList_repr

theorem isDigit_toString {n : UInt64} {c : Char} (member : c ∈ (toString n).toList) :
    c.isDigit = true := by
  rw [toList_toString] at member
  exact Nat.isDigit_of_mem_toDigits (by omega) (by omega) member

theorem toString_clean (n : UInt64) : '|' ∉ (toString n).toList := by
  intro member
  exact absurd (isDigit_toString member) (by decide)

theorem parseU64_toString (n : UInt64) : parseU64 (toString n) = some n := by
  have all : (toString n).toList.all (·.isDigit) = true := by
    rw [List.all_eq_true]
    exact fun c member => isDigit_toString member
  have some_digit : (toString n).toList ≠ [] := by
    rw [toList_toString]
    exact Nat.toDigits_ne_nil
  have value : (toString n).toList.foldl
      (fun acc digit => 10 * acc + (digit.toNat - '0'.toNat)) 0 = n.toNat := by
    rw [toList_toString, ← Nat.ofDigitChars_eq_foldl, Nat.ofDigitChars_ten_toDigits]
  have small : n.toNat < 2 ^ 64 := n.toNat_lt
  unfold parseU64
  split
  · rename_i rest signed
    have plus : '+' ∈ (toString n).toList := by simp [signed]
    exact absurd (isDigit_toString plus) (by decide)
  · simp only [some_digit, all, value, small, false_or, not_true_eq_false, if_false, if_true,
      UInt64.ofNat_toNat]

end Numerals

namespace PipeClient

/-- The payload that `request_on` sends. -/
def requestPayload (session requestId composition canonical : String) : String :=
  "REQ|" ++ session ++ "|" ++ requestId ++ "|" ++ composition ++ "|" ++ canonical

/-- The payload that `request_with_descriptor` sends. -/
def descriptorPayload (session : String) (descriptor : RecoveryDescriptor)
    (composition canonical : String) : String :=
  "REQX|" ++ session ++ "|" ++ descriptor.requestId ++ "|" ++ composition ++ "|" ++
    descriptor.uri ++ "|" ++ toString descriptor.range.1 ++ "|" ++ toString descriptor.range.2 ++
    "|" ++ descriptor.expected ++ "|" ++ descriptor.replacement ++ "|" ++
    toString descriptor.generation ++ "|" ++ toString descriptor.documentEpoch ++ "|" ++ canonical

end PipeClient

namespace Request

def payload (r : Request) : String :=
  PipeClient.requestPayload r.session r.requestId r.composition r.canonical

def fields (r : Request) : List String := [r.session, r.requestId, r.composition, r.canonical]

theorem payload_eq (r : Request) : r.payload = "REQ|" ++ "|".intercalate r.fields := by
  unfold payload PipeClient.requestPayload fields
  simp only [String.intercalate_cons_cons, String.intercalate_singleton, String.append_assoc]

end Request

attribute [ext] RecoveryDescriptor DescriptorRequest

namespace DescriptorRequest

def payload (r : DescriptorRequest) : String :=
  PipeClient.descriptorPayload r.session r.descriptor r.composition r.canonical

def fields (r : DescriptorRequest) : List String :=
  [r.session, r.descriptor.requestId, r.composition, r.descriptor.uri,
    toString r.descriptor.range.1, toString r.descriptor.range.2, r.descriptor.expected,
    r.descriptor.replacement, toString r.descriptor.generation,
    toString r.descriptor.documentEpoch, r.canonical]

theorem payload_eq (r : DescriptorRequest) : r.payload = "REQX|" ++ "|".intercalate r.fields := by
  unfold payload PipeClient.descriptorPayload fields
  simp only [String.intercalate_cons_cons, String.intercalate_singleton, String.append_assoc]

end DescriptorRequest

section Parsers

theorem parseRequest_iff {payload : String} {r : Request} :
    parseRequest payload = some r ↔
      splitn 4 payload = [r.session, r.requestId, r.composition, r.canonical] ∧
        r.session ≠ "" ∧ r.requestId ≠ "" ∧ r.canonical ≠ "" := by
  unfold parseRequest
  split
  · rename_i session requestId composition canonical cut
    split
    · grind
    · grind [cases Request]
  · rename_i other
    constructor
    · intro none
      cases none
    · rintro ⟨cut, -⟩
      exact absurd cut (other _ _ _ _)

theorem parseDescriptorRequest_iff {payload : String} {r : DescriptorRequest} :
    parseDescriptorRequest payload = some r ↔
      ∃ start stop generation documentEpoch,
        splitn 11 payload = [r.session, r.descriptor.requestId, r.composition, r.descriptor.uri,
          start, stop, r.descriptor.expected, r.descriptor.replacement, generation, documentEpoch,
          r.canonical] ∧
        parseU64 start = some r.descriptor.range.1 ∧ parseU64 stop = some r.descriptor.range.2 ∧
        parseU64 generation = some r.descriptor.generation ∧
        parseU64 documentEpoch = some r.descriptor.documentEpoch ∧
        r.session ≠ "" ∧ r.descriptor.requestId ≠ "" ∧ r.composition ≠ "" ∧
        r.descriptor.uri ≠ "" ∧ r.descriptor.expected ≠ "" ∧ r.descriptor.replacement ≠ "" ∧
        r.canonical ≠ "" ∧ r.descriptor.range.1 ≤ r.descriptor.range.2 := by
  unfold parseDescriptorRequest
  split
  · rename_i session requestId composition uri start stop expected replacement generation
      documentEpoch canonical cut
    simp only [Option.bind_eq_bind, Option.bind_eq_some_iff]
    constructor
    · rintro ⟨first, readFirst, last, readLast, number, readNumber, epoch, readEpoch, checked⟩
      split at checked
      · cases checked
      · rename_i complete
        cases checked
        exact ⟨start, stop, generation, documentEpoch, cut, readFirst, readLast, readNumber,
          readEpoch, by grind⟩
    · rintro ⟨_, _, _, _, same, readFirst, readLast, readNumber, readEpoch, complete⟩
      rw [cut] at same
      simp only [List.cons.injEq, and_true] at same
      obtain ⟨rfl, rfl, rfl, rfl, rfl, rfl, rfl, rfl, rfl, rfl, rfl⟩ := same
      refine ⟨_, readFirst, _, readLast, _, readNumber, _, readEpoch, ?_⟩
      rw [if_neg (by grind)]
  · rename_i other
    constructor
    · intro none
      cases none
    · rintro ⟨_, _, _, _, cut, -⟩
      exact absurd cut (other _ _ _ _ _ _ _ _ _ _ _)

end Parsers

/-- What the checks of `parse_request` ask of the pieces cut off first. -/
def ReadableRequest : List String → Prop
  | session :: requestId :: _ => session ≠ "" ∧ requestId ≠ ""
  | _ => False

/-- What the checks of `parse_descriptor_request` ask of the ten pieces cut off first. -/
def ReadableDescriptor : List String → Prop
  | session :: requestId :: composition :: uri :: start :: stop :: expected :: replacement ::
      generation :: documentEpoch :: _ =>
    session ≠ "" ∧ requestId ≠ "" ∧ composition ≠ "" ∧ uri ≠ "" ∧ expected ≠ "" ∧
      replacement ≠ "" ∧ (parseU64 generation).isSome ∧ (parseU64 documentEpoch).isSome ∧
      ∃ first last, parseU64 start = some first ∧ parseU64 stop = some last ∧ first ≤ last
  | _ => False

theorem clean_or_unreadable {faithful clean readable : Prop} (of_clean : clean → faithful)
    (to_clean : faithful → readable → clean) (of_unreadable : ¬ readable → faithful) :
    faithful ↔ clean ∨ ¬ readable := by
  constructor
  · intro holds
    by_cases reads : readable
    · exact Or.inl (to_clean holds reads)
    · exact Or.inr reads
  · intro condition
    cases condition with
    | inl plain => exact of_clean plain
    | inr unread => exact of_unreadable unread

namespace Request

/-- Behind its prefix, the payload is parsed to what was sent or to nothing. -/
def ReadBack (r : Request) : Prop :=
  ∃ body, stripPrefix "REQ|" r.payload = some body ∧ ∀ read, parseRequest body = some read → read = r

def Clean (r : Request) : Prop :=
  ∀ field ∈ [r.session, r.requestId, r.composition], '|' ∉ field.toList

theorem readBack_iff (r : Request) :
    r.ReadBack ↔ ∀ read, parseRequest ("|".intercalate r.fields) = some read → read = r := by
  simp [ReadBack, payload_eq, stripPrefix_append]

theorem splitn_fields (r : Request) : ∃ session requestId composition rest,
    wirePieces r.fields = session :: requestId :: composition :: rest ∧
      splitn 4 ("|".intercalate r.fields) =
        [session, requestId, composition, "|".intercalate rest] := by
  have enough := length_le_wirePieces r.fields
  have four : 3 < r.fields.length := Nat.lt_succ_self 3
  have cut := splitn_intercalate 3 four
  match shape : wirePieces r.fields with
  | session :: requestId :: composition :: rest =>
    exact ⟨session, requestId, composition, rest, rfl, by rw [cut, shape]; rfl⟩
  | [] | [_] | [_, _] =>
    rw [shape] at enough
    simp [fields] at enough

theorem readBack_of_clean {r : Request} (clean : r.Clean) : r.ReadBack := by
  rw [readBack_iff]
  intro read parsed
  have cut := splitn_clean clean r.canonical
  obtain ⟨same, -⟩ := parseRequest_iff.mp parsed
  have fields_eq := same.symm.trans cut
  cases read
  simp only [List.cons_append, List.nil_append, List.cons.injEq, and_true] at fields_eq
  obtain ⟨rfl, rfl, rfl, rfl⟩ := fields_eq
  rfl

theorem readable_of_parse {r read : Request}
    (parsed : parseRequest ("|".intercalate r.fields) = some read) :
    ReadableRequest (wirePieces r.fields) := by
  obtain ⟨session, requestId, composition, rest, shape, cut⟩ := r.splitn_fields
  obtain ⟨same, complete⟩ := parseRequest_iff.mp parsed
  rw [cut] at same
  simp only [List.cons.injEq, and_true] at same
  rw [shape]
  exact ⟨same.1 ▸ complete.1, same.2.1 ▸ complete.2.1⟩

theorem clean_of_readBack {r : Request} (faithful : r.ReadBack)
    (readable : ReadableRequest (wirePieces r.fields)) : r.Clean := by
  by_contra dirty
  simp only [Clean, not_forall, not_not] at dirty
  obtain ⟨field, member, separator⟩ := dirty
  obtain ⟨session, requestId, composition, rest, shape, cut⟩ := r.splitn_fields
  have more : r.fields.length < (wirePieces r.fields).length :=
    length_lt_wirePieces (List.mem_append_left [_] member) separator
  have tail : "|".intercalate rest ≠ "" := intercalate_ne_empty (by
    rw [shape] at more
    simp [fields] at more
    omega)
  rw [shape] at readable
  have read : parseRequest ("|".intercalate r.fields) =
      some ⟨session, requestId, composition, "|".intercalate rest⟩ :=
    parseRequest_iff.mpr ⟨cut, readable.1, readable.2, tail⟩
  have sent := (readBack_iff r).mp faithful _ read
  have cut_off : field ∈ wirePieces r.fields := by
    rw [shape]
    rw [← sent] at member
    grind
  exact not_mem_wirePieces cut_off separator

/-- Without separators in its fields, a complete request reaches the server as it was sent. -/
theorem arrives {r : Request} (clean : r.Clean) (session : r.session ≠ "")
    (requestId : r.requestId ≠ "") (canonical : r.canonical ≠ "") :
    ∃ body, frameBody r.payload = .req body ∧ parseRequest body = some r := by
  refine ⟨_, ?_, parseRequest_iff.mpr ⟨splitn_clean clean r.canonical, session, requestId, canonical⟩⟩
  rw [payload_eq]
  exact frameBody_req _

theorem readBack_iff_clean (r : Request) :
    r.ReadBack ↔ r.Clean ∨ ¬ ReadableRequest (wirePieces r.fields) :=
  clean_or_unreadable readBack_of_clean clean_of_readBack fun unreadable => by
    rw [readBack_iff]
    intro read parsed
    exact absurd (readable_of_parse parsed) unreadable

end Request

namespace DescriptorRequest

def ReadBack (r : DescriptorRequest) : Prop :=
  ∃ body, stripPrefix "REQX|" r.payload = some body ∧
    ∀ read, parseDescriptorRequest body = some read → read = r

def Clean (r : DescriptorRequest) : Prop :=
  ∀ field ∈ [r.session, r.descriptor.requestId, r.composition, r.descriptor.uri,
    r.descriptor.expected, r.descriptor.replacement], '|' ∉ field.toList

theorem readBack_iff (r : DescriptorRequest) :
    r.ReadBack ↔ ∀ read, parseDescriptorRequest ("|".intercalate r.fields) = some read → read = r := by
  simp [ReadBack, payload_eq, stripPrefix_append]

theorem splitn_fields (r : DescriptorRequest) :
    ∃ session requestId composition uri start stop expected replacement generation documentEpoch
      rest, wirePieces r.fields = session :: requestId :: composition :: uri :: start :: stop ::
          expected :: replacement :: generation :: documentEpoch :: rest ∧
        splitn 11 ("|".intercalate r.fields) = [session, requestId, composition, uri, start, stop,
          expected, replacement, generation, documentEpoch, "|".intercalate rest] := by
  have enough := length_le_wirePieces r.fields
  have eleven : 10 < r.fields.length := Nat.lt_succ_self 10
  have cut := splitn_intercalate 10 eleven
  match shape : wirePieces r.fields with
  | a :: b :: c :: d :: e :: f :: g :: h :: i :: j :: rest =>
    exact ⟨a, b, c, d, e, f, g, h, i, j, rest, rfl, by rw [cut, shape]; rfl⟩
  | [] | [_] | [_, _] | [_, _, _] | [_, _, _, _] | [_, _, _, _, _] | [_, _, _, _, _, _] |
    [_, _, _, _, _, _, _] | [_, _, _, _, _, _, _, _] | [_, _, _, _, _, _, _, _, _] =>
    rw [shape] at enough
    simp [fields] at enough

theorem Clean.splitn_fields {r : DescriptorRequest} (clean : r.Clean) :
    splitn 11 ("|".intercalate r.fields) = r.fields := by
  have spared : ∀ field ∈ [r.session, r.descriptor.requestId, r.composition, r.descriptor.uri,
      toString r.descriptor.range.1, toString r.descriptor.range.2, r.descriptor.expected,
      r.descriptor.replacement, toString r.descriptor.generation,
      toString r.descriptor.documentEpoch], '|' ∉ field.toList := by
    simp only [Clean, List.forall_mem_cons] at clean ⊢
    obtain ⟨session, requestId, composition, uri, expected, replacement, none⟩ := clean
    exact ⟨session, requestId, composition, uri, toString_clean _, toString_clean _, expected,
      replacement, toString_clean _, toString_clean _, none⟩
  exact splitn_clean spared r.canonical

theorem readBack_of_clean {r : DescriptorRequest} (clean : r.Clean) : r.ReadBack := by
  rw [readBack_iff]
  intro read parsed
  obtain ⟨start, stop, generation, documentEpoch, cut, first, last, number, epoch, -⟩ :=
    parseDescriptorRequest_iff.mp parsed
  rw [clean.splitn_fields, fields] at cut
  simp only [List.cons.injEq, and_true] at cut
  obtain ⟨session, requestId, composition, uri, rfl, rfl, expected, replacement, rfl, rfl,
    canonical⟩ := cut
  rw [parseU64_toString, Option.some.injEq] at first last number epoch
  have descriptor : r.descriptor = read.descriptor :=
    RecoveryDescriptor.ext requestId uri (Prod.ext first last) expected replacement number epoch
  exact (DescriptorRequest.ext session descriptor composition canonical).symm

theorem readable_of_parse {r read : DescriptorRequest}
    (parsed : parseDescriptorRequest ("|".intercalate r.fields) = some read) :
    ReadableDescriptor (wirePieces r.fields) := by
  obtain ⟨_, _, _, _, _, _, _, _, _, _, rest, shape, cut⟩ := r.splitn_fields
  obtain ⟨start, stop, generation, documentEpoch, same, first, last, number, epoch, complete⟩ :=
    parseDescriptorRequest_iff.mp parsed
  rw [cut] at same
  simp only [List.cons.injEq, and_true] at same
  obtain ⟨rfl, rfl, rfl, rfl, rfl, rfl, rfl, rfl, rfl, rfl, -⟩ := same
  obtain ⟨session, requestId, composition, uri, expected, replacement, -, ordered⟩ := complete
  rw [shape]
  exact ⟨session, requestId, composition, uri, expected, replacement,
    Option.isSome_of_mem number, Option.isSome_of_mem epoch, _, _, first, last, ordered⟩

theorem clean_of_readBack {r : DescriptorRequest} (faithful : r.ReadBack)
    (readable : ReadableDescriptor (wirePieces r.fields)) : r.Clean := by
  by_contra dirty
  simp only [Clean, not_forall, not_not] at dirty
  obtain ⟨field, member, separator⟩ := dirty
  obtain ⟨session, requestId, composition, uri, start, stop, expected, replacement, generation,
    documentEpoch, rest, shape, cut⟩ := r.splitn_fields
  have sent_field : field ∈ r.fields := by
    rw [fields]
    grind
  have more := length_lt_wirePieces sent_field separator
  have tail : "|".intercalate rest ≠ "" := intercalate_ne_empty (by
    rw [shape] at more
    simp [fields] at more
    omega)
  rw [shape] at readable
  obtain ⟨session_some, requestId_some, composition_some, uri_some, expected_some,
    replacement_some, number, epoch, first, last, readFirst, readLast, ordered⟩ := readable
  obtain ⟨number, readNumber⟩ := Option.isSome_iff_exists.mp number
  obtain ⟨epoch, readEpoch⟩ := Option.isSome_iff_exists.mp epoch
  have read : parseDescriptorRequest ("|".intercalate r.fields) =
      some ⟨session, ⟨requestId, uri, (first, last), expected, replacement, number, epoch⟩,
        composition, "|".intercalate rest⟩ :=
    parseDescriptorRequest_iff.mpr ⟨start, stop, generation, documentEpoch, cut, readFirst,
      readLast, readNumber, readEpoch, session_some, requestId_some, composition_some, uri_some,
      expected_some, replacement_some, tail, ordered⟩
  have sent := (readBack_iff r).mp faithful _ read
  have cut_off : field ∈ wirePieces r.fields := by
    rw [shape]
    rw [← sent] at member
    grind
  exact not_mem_wirePieces cut_off separator

theorem arrives {r : DescriptorRequest} (clean : r.Clean)
    (complete : r.session ≠ "" ∧ r.descriptor.requestId ≠ "" ∧ r.composition ≠ "" ∧
      r.descriptor.uri ≠ "" ∧ r.descriptor.expected ≠ "" ∧ r.descriptor.replacement ≠ "" ∧
      r.canonical ≠ "" ∧ r.descriptor.range.1 ≤ r.descriptor.range.2) :
    ∃ body, frameBody r.payload = .reqx body ∧ parseDescriptorRequest body = some r := by
  refine ⟨"|".intercalate r.fields, ?_, parseDescriptorRequest_iff.mpr ⟨_, _, _, _,
    clean.splitn_fields, parseU64_toString _, parseU64_toString _, parseU64_toString _,
    parseU64_toString _, complete⟩⟩
  rw [payload_eq]
  exact frameBody_reqx _

theorem readBack_iff_clean (r : DescriptorRequest) :
    r.ReadBack ↔ r.Clean ∨ ¬ ReadableDescriptor (wirePieces r.fields) :=
  clean_or_unreadable readBack_of_clean clean_of_readBack fun unreadable => by
    rw [readBack_iff]
    intro read parsed
    exact absurd (readable_of_parse parsed) unreadable

end DescriptorRequest

/-- The payload of a request misleads the parser exactly when a field contains
a separator and the shifted pieces still pass the checks. -/
theorem PipeClient.request_read_back_iff (plain : Request) (full : DescriptorRequest) :
    (plain.ReadBack ↔ plain.Clean ∨ ¬ ReadableRequest (wirePieces plain.fields)) ∧
      (full.ReadBack ↔ full.Clean ∨ ¬ ReadableDescriptor (wirePieces full.fields)) :=
  ⟨plain.readBack_iff_clean, full.readBack_iff_clean⟩

/-- A replacement with a separator in it: the parser reads the numeral behind
it as the generation, and the generation as the document epoch. -/
theorem PipeClient.replacement_read_as_epoch :
    parseDescriptorRequest "s1|r1|comp|file:///a|0|5|total|total|12|3|7|canonical" =
        some ⟨"s1", ⟨"r1", "file:///a", (0, 5), "total", "total", 12, 3⟩, "comp", "7|canonical"⟩ ∧
      ¬ DescriptorRequest.ReadBack
        ⟨"s1", ⟨"r1", "file:///a", (0, 5), "total", "total|12", 3, 7⟩, "comp", "canonical"⟩ := by
  have read : parseDescriptorRequest "s1|r1|comp|file:///a|0|5|total|total|12|3|7|canonical" =
      some ⟨"s1", ⟨"r1", "file:///a", (0, 5), "total", "total", 12, 3⟩, "comp", "7|canonical"⟩ :=
    parseDescriptorRequest_iff.mpr ⟨"0", "5", "12", "3", rfl, rfl, rfl, rfl, rfl, by decide⟩
  refine ⟨read, ?_⟩
  rintro ⟨body, stripped, faithful⟩
  have same : body = "s1|r1|comp|file:///a|0|5|total|total|12|3|7|canonical" :=
    Option.some.inj (stripped.symm.trans rfl)
  have other := faithful _ (same ▸ read)
  exact absurd (congrArg (·.canonical) other) (by decide)

end ZonKey.Pipe

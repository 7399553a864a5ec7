import ZonKey.CanonicalJson
import ZonKey.Utf16

set_option autoImplicit false

namespace ZonKey.Host
open Utf16

/-- `Buffer.from(text, "utf8")`, as the text that the bytes encode. -/
def utf8Text (text : JsString) : String :=
  String.ofList ((decodeUtf16 text).map fun unit => unit.toOption.getD '\uFFFD')

def Paired (text : JsString) : Prop := ∃ chars : List Char, text = chars.flatMap encodeUtf16

section Paired
variable {text left right : JsString}

theorem Paired.nil : Paired [] := ⟨[], rfl⟩

theorem Paired.append (front : Paired left) (back : Paired right) : Paired (left ++ right) := by
  obtain ⟨chars, rfl⟩ := front
  obtain ⟨others, rfl⟩ := back
  exact ⟨chars ++ others, List.flatMap_append.symm⟩

theorem Paired.single {unit : UInt16} (not_high : isHighSurrogate unit = false)
    (not_low : isLowSurrogate unit = false) : Paired [unit] :=
  ⟨[Char.ofNat unit.toNat], by
    rw [List.flatMap_singleton, encodeUtf16_ofNat_single not_high not_low]⟩

theorem Paired.pair {high low : UInt16} (is_high : isHighSurrogate high = true)
    (is_low : isLowSurrogate low = true) : Paired [high, low] :=
  ⟨[_], by rw [List.flatMap_singleton, encodeUtf16_ofNat_pair is_high is_low]⟩

theorem Paired.narrow (small : ∀ unit ∈ text, unit.toNat < 0xd800) : Paired text := by
  induction text with
  | nil => exact .nil
  | cons unit rest ih =>
    have below := small unit List.mem_cons_self
    have not_high := isHighSurrogate_unit (n := unit.toNat) (by omega)
    have not_low := isLowSurrogate_unit (n := unit.toNat) (by omega)
    rw [UInt16.ofNat_toNat] at not_high not_low
    refine (Paired.single ?_ ?_).append (ih fun other mem => small other (List.mem_cons_of_mem _ mem))
    · rw [Bool.eq_false_iff, ne_eq, not_high]
      omega
    · rw [Bool.eq_false_iff, ne_eq, not_low]
      omega

theorem Paired.literal (below : text.all (fun unit => Nat.blt unit.toNat 0xd800) = true) :
    Paired text :=
  .narrow fun unit mem => Nat.blt_eq.mp (List.all_eq_true.mp below unit mem)

theorem Paired.intercalate {separator : JsString} (between : Paired separator)
    {pieces : List JsString} (all : ∀ piece ∈ pieces, Paired piece) :
    Paired (separator.intercalate pieces) := by
  induction pieces with
  | nil => exact .nil
  | cons piece rest ih =>
    cases rest with
    | nil => simpa [List.intercalate] using all piece List.mem_cons_self
    | cons next rest =>
      have tail := ih fun other mem => all other (List.mem_cons_of_mem _ mem)
      have whole := ((all piece List.mem_cons_self).append between).append tail
      simpa [List.intercalate, List.append_assoc] using whole

theorem utf8Text_flatMap (chars : List Char) :
    utf8Text (chars.flatMap encodeUtf16) = String.ofList chars := by
  rw [utf8Text, decodeUtf16_encode, List.map_map]
  exact congrArg String.ofList (List.map_id'' (fun _ => rfl) chars)

theorem Paired.utf8Text_inj (front : Paired left) (back : Paired right)
    (same : utf8Text left = utf8Text right) : left = right := by
  obtain ⟨chars, rfl⟩ := front
  obtain ⟨others, rfl⟩ := back
  rw [utf8Text_flatMap, utf8Text_flatMap, String.ofList_inj] at same
  rw [same]

theorem Paired.utf8Text_eq_empty (paired : Paired text) (empty : utf8Text text = "") :
    text = [] := by
  refine paired.utf8Text_inj .nil ?_
  rw [empty]
  rfl

end Paired

section Stringify

theorem paired_unicodeEscape (unit : UInt16) : Paired (unicodeEscape unit) := by
  have small (value : Nat) (digit : value < 16) : (hexDigit value).toNat < 0xd800 := by
    have all : ∀ value < 16, (hexDigit value).toNat < 0xd800 := by decide
    exact all value digit
  have size := unit.toNat_lt
  refine Paired.append (.literal rfl) (.narrow ?_)
  intro digit mem
  simp only [List.mem_cons, List.not_mem_nil, or_false] at mem
  rcases mem with rfl | rfl | rfl | rfl <;> exact small _ (by omega)

theorem paired_escapeUnit {unit : UInt16} (not_high : isHighSurrogate unit = false)
    (not_low : isLowSurrogate unit = false) : Paired (escapeUnit unit) := by
  unfold escapeUnit
  repeat' split
  all_goals first
    | exact .literal rfl
    | exact paired_unicodeEscape unit
    | exact .single not_high not_low

theorem paired_quoteUnits (units : JsString) : Paired (quoteUnits units) := by
  fun_induction quoteUnits units with
  | case1 => exact .nil
  | case2 unit surrogate => exact paired_unicodeEscape unit
  | case3 unit single =>
    rw [Bool.or_eq_true, not_or, Bool.not_eq_true, Bool.not_eq_true] at single
    exact paired_escapeUnit single.1 single.2
  | case4 unit next units pair ih =>
    rw [Bool.and_eq_true] at pair
    exact (Paired.pair pair.1 pair.2).append ih
  | case5 unit next units _ surrogate ih => exact (paired_unicodeEscape unit).append ih
  | case6 unit next units _ single ih =>
    rw [Bool.or_eq_true, not_or, Bool.not_eq_true, Bool.not_eq_true] at single
    exact (paired_escapeUnit single.1 single.2).append ih

theorem paired_quote (text : JsString) : Paired (quote text) :=
  Paired.append (Paired.append (.literal rfl) (paired_quoteUnits text)) (.literal rfl)

variable {numberText : Rat → JsString}

theorem paired_numberText (standard : StandardNumbers numberText) {value : Rat}
    (double : IsDouble value) : Paired (numberText value) := by
  refine .narrow fun unit mem => ?_
  have digits := standard.units value double unit mem
  simp only [isNumberUnit, isDecimalDigit, Bool.or_eq_true, Bool.and_eq_true, decide_eq_true_eq,
    UInt16.le_iff_toNat_le] at digits
  have nine : (0x39 : UInt16).toNat = 0x39 := rfl
  rcases digits with (((⟨_, high⟩ | rfl) | rfl) | rfl) | rfl
  · omega
  all_goals decide

theorem paired_canonicalJson (standard : StandardNumbers numberText) {value : JsValue}
    (plain : Plain value) : Paired (canonicalJson numberText value) := by
  induction plain with
  | null =>
    rw [canonicalJson]
    exact .literal rfl
  | bool value =>
    rw [canonicalJson]
    cases value <;> exact .literal rfl
  | number double => exact paired_numberText standard double
  | string value => exact paired_quote value
  | @array items all ih =>
    rw [canonicalJson, canonicalItems_eq]
    refine Paired.append (Paired.append (.literal rfl)
      (Paired.intercalate (.literal rfl) ?_)) (.literal rfl)
    intro piece mem
    obtain ⟨item, inside, rfl⟩ := List.mem_map.mp mem
    exact ih item inside
  | @object entries distinct all ih =>
    rw [canonicalJson]
    refine Paired.append (Paired.append (.literal rfl)
      (Paired.intercalate (.literal rfl) ?_)) (.literal rfl)
    intro piece mem
    obtain ⟨⟨key, text⟩, inside, rfl⟩ := List.mem_map.mp mem
    obtain ⟨value, written, defined, rfl⟩ :=
      mem_canonicalEntries.mp ((sortEntries_perm _).mem_iff.mp inside)
    exact ((paired_quote key).append (.literal rfl)).append (ih _ written defined)

/-- On the wire as in the editor, one canonical text is one request. -/
theorem utf8Text_canonicalJson_inj (standard : StandardNumbers numberText)
    {first second : CompareAndReplaceRequest} (plain : Plain first.toJs)
    (other : Plain second.toJs)
    (same : utf8Text (canonicalJson numberText first.toJs) =
      utf8Text (canonicalJson numberText second.toJs)) : first = second :=
  request_eq ((canonicalJson_eq_iff standard plain other).mp
    ((paired_canonicalJson standard plain).utf8Text_inj (paired_canonicalJson standard other) same))

end Stringify

end ZonKey.Host

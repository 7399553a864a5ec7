import ZonKey.HandoffPayload

set_option autoImplicit false

namespace ZonKey.Utf16
open ZonKey.Host (isHighSurrogate isLowSurrogate encodeUtf16 utf16 toNat_unit isHighSurrogate_unit
  isLowSurrogate_unit)

section Cuts
variable {α β : Type*} {encode : α → List β} {joined : β → β → Prop}

theorem exists_cut (inside : ∀ a front back x y, encode a = front ++ x :: y :: back → joined x y)
    {pieces : List α} {front back : List β} (whole : pieces.flatMap encode = front ++ back)
    (apart : ∀ x y, front.getLast? = some x → back.head? = some y → ¬ joined x y) :
    ∃ left right, pieces = left ++ right ∧ left.flatMap encode = front ∧
      right.flatMap encode = back := by
  induction pieces generalizing front with
  | nil =>
    obtain ⟨rfl, rfl⟩ := List.append_eq_nil_iff.mp whole.symm
    exact ⟨[], [], rfl, rfl, rfl⟩
  | cons piece pieces ih =>
    rw [List.flatMap_cons] at whole
    rcases List.append_eq_append_iff.mp whole with ⟨more, rfl, rest⟩ | ⟨more, first, rfl⟩
    · obtain ⟨left, right, rfl, rfl, rfl⟩ := ih rest fun x y at_last at_head =>
        apart x y (by rw [List.getLast?_append, at_last, Option.some_or]) at_head
      exact ⟨piece :: left, right, rfl, List.flatMap_cons, rfl⟩
    · rcases List.eq_nil_or_concat' front with rfl | ⟨before, x, rfl⟩
      · exact ⟨[], piece :: pieces, rfl, rfl, by rw [List.flatMap_cons, first, List.nil_append]⟩
      · cases more with
        | nil =>
          refine ⟨[piece], pieces, rfl, ?_, rfl⟩
          rw [List.flatMap_singleton, first, List.append_nil]
        | cons y after =>
          -- the cut would fall inside this piece
          rw [List.append_assoc] at first
          exact absurd (inside piece before after x y first)
            (apart x y List.getLast?_concat rfl)

end Cuts

/-- `char::decode_utf16`: a surrogate without its other half is handed back as an error. -/
def decodeUtf16 : List UInt16 → List (Except UInt16 Char)
  | [] => []
  | [unit] =>
    if isHighSurrogate unit || isLowSurrogate unit then [.error unit]
    else [.ok (Char.ofNat unit.toNat)]
  | unit :: next :: rest =>
    if !(isHighSurrogate unit || isLowSurrogate unit) then
      .ok (Char.ofNat unit.toNat) :: decodeUtf16 (next :: rest)
    else if isLowSurrogate unit then .error unit :: decodeUtf16 (next :: rest)
    else if !isLowSurrogate next then .error unit :: decodeUtf16 (next :: rest)
    else
      .ok (Char.ofNat ((unit.toNat % 0x400 * 0x400 + next.toNat % 0x400) + 0x10000)) ::
        decodeUtf16 rest

def isWellFormedUtf16 (text : List UInt16) : Bool := (decodeUtf16 text).all Except.isOk

section Units

theorem encodeUtf16_cases (c : Char) :
    (∃ unit, encodeUtf16 c = [unit] ∧ isHighSurrogate unit = false ∧ isLowSurrogate unit = false ∧
      Char.ofNat unit.toNat = c) ∨
    (∃ high low, encodeUtf16 c = [high, low] ∧ isHighSurrogate high = true ∧
      isLowSurrogate low = true ∧ isLowSurrogate high = false ∧
      Char.ofNat ((high.toNat % 0x400 * 0x400 + low.toNat % 0x400) + 0x10000) = c) := by
  have valid := c.valid
  have value : c.val.toNat = c.toNat := rfl
  simp only [UInt32.isValidChar, Nat.isValidChar, value] at valid
  unfold encodeUtf16
  split
  · rename_i narrow
    refine .inl ⟨_, rfl, ?_, ?_, ?_⟩
    · rw [Bool.eq_false_iff, ne_eq, isHighSurrogate_unit narrow]
      omega
    · rw [Bool.eq_false_iff, ne_eq, isLowSurrogate_unit narrow]
      omega
    · rw [toNat_unit narrow, Char.ofNat_toNat]
  · refine .inr ⟨_, _, rfl, ?_, ?_, ?_, ?_⟩
    · rw [isHighSurrogate_unit (by omega)]
      omega
    · rw [isLowSurrogate_unit (by omega)]
      omega
    · rw [Bool.eq_false_iff, ne_eq, isLowSurrogate_unit (by omega)]
      omega
    · rw [toNat_unit (by omega), toNat_unit (by omega)]
      have same : (0xd800 + (c.toNat - 0x10000) / 0x400) % 0x400 * 0x400 +
          (0xdc00 + (c.toNat - 0x10000) % 0x400) % 0x400 + 0x10000 = c.toNat := by omega
      rw [same, Char.ofNat_toNat]

theorem decodeUtf16_single {unit : UInt16} (not_high : isHighSurrogate unit = false)
    (not_low : isLowSurrogate unit = false) (rest : List UInt16) :
    decodeUtf16 (unit :: rest) = .ok (Char.ofNat unit.toNat) :: decodeUtf16 rest := by
  cases rest <;> simp [decodeUtf16, not_high, not_low]

theorem decodeUtf16_pair {high low : UInt16} (is_high : isHighSurrogate high = true)
    (not_low : isLowSurrogate high = false) (is_low : isLowSurrogate low = true)
    (rest : List UInt16) :
    decodeUtf16 (high :: low :: rest) =
      .ok (Char.ofNat ((high.toNat % 0x400 * 0x400 + low.toNat % 0x400) + 0x10000)) ::
        decodeUtf16 rest := by
  simp [decodeUtf16, is_high, not_low, is_low]

theorem decodeUtf16_encode (chars : List Char) :
    decodeUtf16 (chars.flatMap encodeUtf16) = chars.map .ok := by
  induction chars with
  | nil => rfl
  | cons c chars ih =>
    rw [List.flatMap_cons, List.map_cons, ← ih]
    rcases encodeUtf16_cases c with ⟨unit, units, high, low, same⟩ |
      ⟨high, low, units, is_high, is_low, not_low, same⟩
    · rw [units, List.singleton_append, decodeUtf16_single high low, same]
    · rw [units, List.cons_append, List.singleton_append, decodeUtf16_pair is_high not_low is_low,
        same]

theorem flatMap_encodeUtf16_inj {left right : List Char}
    (same : left.flatMap encodeUtf16 = right.flatMap encodeUtf16) : left = right := by
  have decoded := congrArg decodeUtf16 same
  rw [decodeUtf16_encode, decodeUtf16_encode] at decoded
  exact List.map_injective_iff.mpr (fun _ _ => Except.ok.inj) decoded

theorem toNat_charOfNat {n : Nat} (valid : n.isValidChar) : (Char.ofNat n).toNat = n := by
  rw [Char.ofNat, dif_pos valid]
  rfl

theorem encodeUtf16_ofNat_single {unit : UInt16} (not_high : isHighSurrogate unit = false)
    (not_low : isLowSurrogate unit = false) : encodeUtf16 (Char.ofNat unit.toNat) = [unit] := by
  have small : unit.toNat < 0x10000 := unit.toNat_lt
  have same : UInt16.ofNat unit.toNat = unit := UInt16.ofNat_toNat
  have high := isHighSurrogate_unit small
  have low := isLowSurrogate_unit small
  rw [same, not_high] at high
  rw [same, not_low] at low
  have value : (Char.ofNat unit.toNat).toNat = unit.toNat := by
    refine toNat_charOfNat ?_
    simp only [Bool.false_eq_true, false_iff] at high low
    simp only [Nat.isValidChar]
    omega
  rw [encodeUtf16, value, if_pos small, same]

theorem encodeUtf16_ofNat_pair {high low : UInt16} (is_high : isHighSurrogate high = true)
    (is_low : isLowSurrogate low = true) :
    encodeUtf16 (Char.ofNat ((high.toNat % 0x400 * 0x400 + low.toNat % 0x400) + 0x10000)) =
      [high, low] := by
  have small_high : high.toNat < 0x10000 := high.toNat_lt
  have small_low : low.toNat < 0x10000 := low.toNat_lt
  have same_high : UInt16.ofNat high.toNat = high := UInt16.ofNat_toNat
  have same_low : UInt16.ofNat low.toNat = low := UInt16.ofNat_toNat
  have high_range := (isHighSurrogate_unit small_high).mp (by rwa [same_high])
  have low_range := (isLowSurrogate_unit small_low).mp (by rwa [same_low])
  have valid : (high.toNat % 0x400 * 0x400 + low.toNat % 0x400 + 0x10000).isValidChar := by
    simp only [Nat.isValidChar]
    omega
  have value := toNat_charOfNat valid
  rw [encodeUtf16, value, if_neg (by omega)]
  have front : 0xd800 + (high.toNat % 0x400 * 0x400 + low.toNat % 0x400 + 0x10000 - 0x10000) /
      0x400 = high.toNat := by omega
  have back : 0xdc00 + (high.toNat % 0x400 * 0x400 + low.toNat % 0x400 + 0x10000 - 0x10000) %
      0x400 = low.toNat := by omega
  dsimp only
  rw [front, back, same_high, same_low]

theorem isWellFormedUtf16_iff (text : List UInt16) :
    isWellFormedUtf16 text ↔ ∃ chars : List Char, text = chars.flatMap encodeUtf16 := by
  constructor
  · unfold isWellFormedUtf16
    fun_induction decodeUtf16 text with
    | case1 => exact fun _ => ⟨[], rfl⟩
    | case2 unit surrogate => exact nofun
    | case3 unit single =>
      rw [Bool.or_eq_true, not_or, Bool.not_eq_true, Bool.not_eq_true] at single
      intro _
      refine ⟨[Char.ofNat unit.toNat], ?_⟩
      rw [List.flatMap_singleton, encodeUtf16_ofNat_single single.1 single.2]
    | case4 unit next rest single ih =>
      rw [Bool.not_eq_true', Bool.or_eq_false_iff] at single
      intro all
      obtain ⟨chars, text⟩ := ih all
      refine ⟨Char.ofNat unit.toNat :: chars, ?_⟩
      rw [List.flatMap_cons, ← text, encodeUtf16_ofNat_single single.1 single.2]
      rfl
    | case5 unit next rest _ _ ih => exact nofun
    | case6 unit next rest _ _ _ ih => exact nofun
    | case7 unit next rest surrogate not_low low ih =>
      have is_low : isLowSurrogate next = true := by simpa using low
      have is_high : isHighSurrogate unit = true := by simpa [not_low] using surrogate
      intro all
      obtain ⟨chars, rfl⟩ := ih all
      refine ⟨Char.ofNat ((unit.toNat % 0x400 * 0x400 + next.toNat % 0x400) + 0x10000) :: chars,
        ?_⟩
      rw [List.flatMap_cons, encodeUtf16_ofNat_pair is_high is_low]
      rfl
  · rintro ⟨chars, rfl⟩
    rw [isWellFormedUtf16, decodeUtf16_encode, List.all_map]
    exact List.all_eq_true.mpr fun _ _ => rfl

def SurrogatePair (before after : UInt16) : Prop :=
  isHighSurrogate before = true ∧ isLowSurrogate after = true

theorem encodeUtf16_inside (c : Char) (front back : List UInt16) (x y : UInt16)
    (units : encodeUtf16 c = front ++ x :: y :: back) : SurrogatePair x y := by
  rcases encodeUtf16_cases c with ⟨unit, single, _⟩ | ⟨high, low, pair, is_high, is_low, _⟩
  · have length := congrArg List.length units
    simp only [single, List.length_cons, List.length_nil, List.length_append] at length
    omega
  · have length := congrArg List.length units
    rw [pair, List.length_append] at length
    have front_nil : front = [] := List.length_eq_zero_iff.mp (by simp at length; omega)
    rw [pair, front_nil] at units
    cases units
    exact ⟨is_high, is_low⟩

theorem head_not_low {chars : List Char} {unit : UInt16}
    (first : (chars.flatMap encodeUtf16).head? = some unit) : isLowSurrogate unit = false := by
  cases chars with
  | nil => cases first
  | cons c chars =>
    rw [List.flatMap_cons] at first
    rcases encodeUtf16_cases c with ⟨single, units, _, not_low, _⟩ |
      ⟨high, low, units, _, _, not_low, _⟩
    · rw [units] at first
      cases first
      exact not_low
    · rw [units] at first
      cases first
      exact not_low

theorem cut_text {chars : List Char} {front back : List UInt16}
    (whole : chars.flatMap encodeUtf16 = front ++ back)
    (apart : ∀ x y, front.getLast? = some x → back.head? = some y → ¬ SurrogatePair x y) :
    ∃ left right, chars = left ++ right ∧ left.flatMap encodeUtf16 = front ∧
      right.flatMap encodeUtf16 = back :=
  exists_cut encodeUtf16_inside whole apart

theorem suffix_text {chars expected : List Char} {front : List UInt16}
    (whole : chars.flatMap encodeUtf16 = front ++ expected.flatMap encodeUtf16) :
    ∃ left, chars = left ++ expected ∧ left.flatMap encodeUtf16 = front := by
  obtain ⟨left, right, rfl, units, rest⟩ := cut_text whole fun x y _ first joined => by
    rw [SurrogatePair, head_not_low first] at joined
    exact absurd joined.2 Bool.false_ne_true
  exact ⟨left, by rw [flatMap_encodeUtf16_inj rest], units⟩

end Units
end ZonKey.Utf16

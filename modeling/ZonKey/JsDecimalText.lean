import ZonKey.HandoffPayload

set_option autoImplicit false

namespace ZonKey.Host
open Pipe

namespace JsNumber

theorem nearest_unsafe {n : Nat} (large : maxSafeInteger < n) : (nearest false n 1).safeNat = none := by
  have one : Nat.log2 1 = 0 := by decide
  have nonzero : n ≠ 0 := by omega
  have least : 2 ^ 53 ≤ n := large
  have bits : 53 ≤ Nat.log2 n := (Nat.le_log2 nonzero).mpr least
  have below : 2 ^ Nat.log2 n ≤ n := Nat.log2_self_le nonzero
  have exact_bits : binaryExponent n 1 = Nat.log2 n := by
    unfold binaryExponent
    simp only [one]
    rw [if_pos (by simpa using below)]
    simp
  obtain ⟨shift, eq⟩ : ∃ shift : Nat, Nat.log2 n = 52 + shift := ⟨Nat.log2 n - 52, by omega⟩
  have exponent : binaryExponent n 1 - 52 = (shift : Int) := by
    rw [exact_bits, eq]
    omega
  have scaled : 2 ^ 52 ≤ divideToEven n (2 ^ shift) := by
    have quotient : 2 ^ 52 ≤ n / 2 ^ shift := by
      rw [Nat.le_div_iff_mul_le (Nat.two_pow_pos shift), ← Nat.pow_add, ← eq]
      exact below
    unfold divideToEven
    dsimp only
    split_ifs <;> omega
  have numerator : maxSafeInteger < divideToEven n (2 ^ shift) * 2 ^ shift := by
    have two : 2 ≤ 2 ^ shift := by
      calc 2 = 2 ^ 1 := rfl
        _ ≤ 2 ^ shift := Nat.pow_le_pow_right (by decide) (by omega)
    calc maxSafeInteger < 2 ^ 52 * 2 := by decide
      _ ≤ divideToEven n (2 ^ shift) * 2 ^ shift := Nat.mul_le_mul scaled two
  have no_minimum : ¬ ((shift : Int) < -1074) := by omega
  simp only [nearest, exponent, no_minimum, if_false, Int.toNat_natCast, Int.toNat_neg_natCast,
    Nat.pow_zero, Nat.mul_one, Nat.one_mul]
  split
  · rfl
  · have whole : mkRat ((divideToEven n (2 ^ shift) * 2 ^ shift : Nat) : Int) 1 =
        ((divideToEven n (2 ^ shift) * 2 ^ shift : Nat) : Rat) := Rat.mkRat_one _
    simp only [Bool.false_eq_true, if_false]
    rw [whole]
    cases safe : safeNat (.finite ((divideToEven n (2 ^ shift) * 2 ^ shift : Nat) : Rat)) with
    | none => rfl
    | some m =>
      obtain ⟨same, small⟩ := safeNat_eq_some_iff.mp safe
      rw [ofNat, JsNumber.finite.injEq, Rat.natCast_inj] at same
      omega

def DigitText (text : JsString) : Prop := ∀ unit ∈ text, ∃ value, DigitUnit unit value

theorem DigitText.trimSpace {text : JsString} (digits : DigitText text) : trimSpace text = text := by
  have kept : ∀ text : JsString, (∀ unit ∈ text, isSpaceUnit unit = false) →
      text.dropWhile isSpaceUnit = text := by
    intro text plain
    rw [List.dropWhile_eq_self_iff]
    intro some_unit
    simp [plain _ (List.getElem_mem some_unit)]
  have plain : ∀ unit ∈ text, isSpaceUnit unit = false := by
    intro unit mem
    obtain ⟨_, digit⟩ := digits unit mem
    exact digit.space
  rw [Host.trimSpace, kept _ plain, kept _ (by simpa using plain), List.reverse_reverse]

theorem DigitText.readDecimal {text : JsString} (digits : DigitText text) {n : Nat}
    (value : readDigits 10 text = some n) : readDecimal false text = some (nearest false n 1) := by
  have decimal : ∀ unit ∈ text, isDecimalDigit unit = true := by
    intro unit mem
    obtain ⟨_, digit⟩ := digits unit mem
    exact digit.decimal
  have whole : text.takeWhile isDecimalDigit = text := List.takeWhile_eq_self_iff.mpr decimal
  have rest : text.dropWhile isDecimalDigit = [] := List.dropWhile_eq_nil_iff.mpr decimal
  simp only [JsNumber.readDecimal, whole, rest, splitFraction, List.append_nil, value, readExponent]
  simp

theorem DigitText.ofText {text : JsString} (digits : DigitText text) {n : Nat}
    (value : readDigits 10 text = some n) :
    JsNumber.ofText text = nearest false n 1 ∧
      JsNumber.ofText (0x2b :: text) = nearest false n 1 := by
  have some_text : text ≠ [] := by
    rintro rfl
    cases value
  have finite : text ≠ js "Infinity" := by
    intro same
    obtain ⟨_, digit⟩ := digits 0x49 (by rw [same]; decide)
    exact absurd digit.decimal (by decide)
  have plus_space : isSpaceUnit 0x2b = false := by decide
  have trimmed : Host.trimSpace (0x2b :: text) = 0x2b :: text := by
    unfold Host.trimSpace
    rw [List.dropWhile_cons_of_neg (by simp [plus_space]), List.reverse_cons]
    have last : ((text.reverse ++ [0x2b]).dropWhile isSpaceUnit) = text.reverse ++ [0x2b] := by
      rw [List.dropWhile_eq_self_iff]
      intro _
      have head : (text.reverse ++ [0x2b]).head (by simp) ∈ text := by
        rw [List.head_append_of_ne_nil (by simp [some_text])]
        simp
      obtain ⟨_, digit⟩ := digits _ head
      simpa [List.getElem_zero] using digit.space
    rw [last]
    simp
  obtain ⟨first, rest, rfl⟩ := List.exists_cons_of_ne_nil some_text
  obtain ⟨_, digit⟩ := digits first List.mem_cons_self
  have unsigned : splitSign (first :: rest) = (false, first :: rest) := by
    simp [splitSign, digit.minus, digit.plus]
  have no_radix : splitRadix (first :: rest) = none := by
    cases rest with
    | nil => rfl
    | cons mark others =>
      obtain ⟨_, second⟩ := digits mark (by simp)
      simp [splitRadix, second.radix]
  have signed : splitSign (0x2b :: first :: rest) = (false, first :: rest) := by
    simp [splitSign]
  have signed_radix : splitRadix (0x2b :: first :: rest) = none := by
    simp [splitRadix]
  constructor
  · simp [JsNumber.ofText, digits.trimSpace, no_radix, unsigned, finite, digits.readDecimal value]
  · simp [JsNumber.ofText, trimmed, signed_radix, signed, finite, digits.readDecimal value]

theorem digitText_map {chars : List Char} (digits : chars.all (·.isDigit) = true) :
    DigitText (chars.map fun c => UInt16.ofNat c.toNat) := by
  intro unit mem
  obtain ⟨c, inside, rfl⟩ := List.mem_map.mp mem
  exact ⟨_, digitUnit (List.all_eq_true.mp digits c inside)⟩

theorem readDigits_map {chars : List Char} (some_digit : chars ≠ [])
    (digits : chars.all (·.isDigit) = true) :
    readDigits 10 (chars.map fun c => UInt16.ofNat c.toNat) =
      some (chars.foldl (fun acc digit => 10 * acc + (digit.toNat - '0'.toNat)) 0) := by
  have small : (chars.map fun c => UInt16.ofNat c.toNat).all (digitValue · < 10) = true := by
    rw [List.all_eq_true]
    intro unit mem
    obtain ⟨_, digit⟩ := digitText_map digits unit mem
    simp [digit.reads, digit.small]
  rw [readDigits, if_neg (by simp [some_digit, small]), List.foldl_map]
  refine congrArg some (List.foldl_ext _ _ _ fun value c mem => ?_)
  rw [(digitUnit (List.all_eq_true.mp digits c mem)).reads]

end JsNumber

def digitsValue (digits : List Char) : Nat :=
  digits.foldl (fun acc digit => 10 * acc + (digit.toNat - '0'.toNat)) 0

theorem digits_of_parse {text : String} {n : UInt64} (parsed : parseU64 text = some n) :
    ∃ digits, (text.toList = digits ∨ text.toList = '+' :: digits) ∧ digits ≠ [] ∧
      digits.all (·.isDigit) = true ∧ digitsValue digits = n.toNat := by
  obtain ⟨digits, shape, cut⟩ : ∃ digits, (text.toList = digits ∨ text.toList = '+' :: digits) ∧
      parseU64 text = if digits = [] ∨ ¬ digits.all (·.isDigit) then none
        else if digitsValue digits < 2 ^ 64 then some (.ofNat (digitsValue digits)) else none := by
    unfold parseU64 digitsValue
    split
    · rename_i digits signed
      exact ⟨digits, .inr signed, rfl⟩
    · exact ⟨text.toList, .inl rfl, rfl⟩
  rw [cut] at parsed
  split_ifs at parsed with bad small
  cases parsed
  rw [not_or, not_not] at bad
  refine ⟨digits, shape, bad.1, bad.2, ?_⟩
  rw [UInt64.toNat_ofNat']
  exact (Nat.mod_eq_of_lt small).symm

/-- What `str::parse` reads as an integer, `Number` reads as the same safe
positive integer, unless it is zero or too large. -/
theorem positiveSafeInteger_of_parse {text : String} {n : UInt64} (parsed : parseU64 text = some n) :
    positiveSafeInteger (utf16 text) =
      if 0 < n.toNat ∧ n.toNat ≤ JsNumber.maxSafeInteger then some n.toNat else none := by
  obtain ⟨digits, shape, some_digit, all, value⟩ := digits_of_parse parsed
  have narrow : ∀ c ∈ digits, c.toNat < 0x10000 := by
    intro c mem
    have most := (Char.isDigit_iff_toNat.mp (List.all_eq_true.mp all c mem)).2
    have nine : '9'.toNat = 0x39 := rfl
    omega
  have reads := JsNumber.readDigits_map some_digit all
  have number : JsNumber.ofText (utf16 text) = JsNumber.nearest false n.toNat 1 := by
    obtain ⟨plain, signed⟩ := (JsNumber.digitText_map all).ofText reads
    rw [← value]
    rcases shape with eq | eq
    · rw [utf16_narrow (by rw [eq]; exact narrow), js, eq]
      exact plain
    · rw [utf16_narrow (by rw [eq]; exact List.forall_mem_cons.mpr ⟨by decide, narrow⟩), js, eq]
      exact signed
  unfold positiveSafeInteger
  rw [number]
  by_cases safe : n.toNat ≤ JsNumber.maxSafeInteger
  · rw [JsNumber.nearest_exact safe, JsNumber.safeNat_eq_some_iff.mpr ⟨rfl, safe⟩]
    simp [Option.filter, safe]
  · rw [JsNumber.nearest_unsafe (Nat.lt_of_not_le safe)]
    simp [safe]

end ZonKey.Host

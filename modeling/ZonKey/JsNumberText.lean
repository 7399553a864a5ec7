import Mathlib.Algebra.Ring.Nat
import Mathlib.Data.List.TakeWhile
import ZonKey.JsValues

set_option autoImplicit false

/-!
# Numbers read from text

`Number(text)`: the string is trimmed and read as a literal, and the value of
the literal is rounded to the nearest double. Minus zero is zero.
-/
namespace ZonKey.Host

section Literals

def isSpaceUnit (unit : UInt16) : Bool :=
  (0x09 ≤ unit && unit ≤ 0x0d) || unit = 0x20 || unit = 0xa0 || unit = 0x1680 ||
    (0x2000 ≤ unit && unit ≤ 0x200a) || unit = 0x2028 || unit = 0x2029 || unit = 0x202f ||
    unit = 0x205f || unit = 0x3000 || unit = 0xfeff

def trimSpace (text : JsString) : JsString :=
  ((text.dropWhile isSpaceUnit).reverse.dropWhile isSpaceUnit).reverse

def isDecimalDigit (unit : UInt16) : Bool := 0x30 ≤ unit && unit ≤ 0x39

/-- The value of a digit up to `f`, and 16 for every other unit. -/
def digitValue (unit : UInt16) : Nat :=
  if isDecimalDigit unit then unit.toNat - 0x30
  else if 0x41 ≤ unit && unit ≤ 0x46 then unit.toNat - 0x41 + 10
  else if 0x61 ≤ unit && unit ≤ 0x66 then unit.toNat - 0x61 + 10
  else 16

def readDigits (radix : Nat) (digits : JsString) : Option Nat :=
  if digits = [] ∨ ¬ digits.all (digitValue · < radix) then none
  else some (digits.foldl (fun value digit => radix * value + digitValue digit) 0)

def radixOf (mark : UInt16) : Option Nat :=
  if mark = 0x62 ∨ mark = 0x42 then some 2
  else if mark = 0x6f ∨ mark = 0x4f then some 8
  else if mark = 0x78 ∨ mark = 0x58 then some 16
  else none

/-- The digits behind `0b`, `0o` or `0x`. -/
def splitRadix : JsString → Option (Nat × JsString)
  | zero :: mark :: digits => if zero = 0x30 then (radixOf mark).map (·, digits) else none
  | _ => none

def splitSign : JsString → Bool × JsString
  | [] => (false, [])
  | sign :: rest =>
    if sign = 0x2d then (true, rest)
    else if sign = 0x2b then (false, rest)
    else (false, sign :: rest)

def splitFraction : JsString → JsString × JsString
  | [] => ([], [])
  | point :: rest =>
    if point = 0x2e then (rest.takeWhile isDecimalDigit, rest.dropWhile isDecimalDigit)
    else ([], point :: rest)

def readExponent : JsString → Option Int
  | [] => some 0
  | mark :: text =>
    if mark = 0x65 ∨ mark = 0x45 then
      let (negative, digits) := splitSign text
      (readDigits 10 digits).map fun value => if negative then -value else value
    else none

end Literals

namespace JsNumber

section Rounding

/-- The integer nearest to `num / den`, ties to even. -/
def divideToEven (num den : Nat) : Nat :=
  let quotient := num / den
  let rest := 2 * (num % den)
  if rest < den then quotient else if den < rest then quotient + 1 else quotient + quotient % 2

/-- The binary exponent of the first significant bit of `num / den`. -/
def binaryExponent (num den : Nat) : Int :=
  let guess : Int := (Nat.log2 num : Int) - Nat.log2 den
  if den * 2 ^ guess.toNat ≤ num * 2 ^ (-guess).toNat then guess else guess - 1

/-- The double nearest to `num / den`: 53 significant bits, fewer from the least exponent on. -/
def nearest (negative : Bool) (num den : Nat) : JsNumber :=
  let wanted := binaryExponent num den - 52
  let exponent := if wanted < -1074 then -1074 else wanted
  let scaled := divideToEven (num * 2 ^ (-exponent).toNat) (den * 2 ^ exponent.toNat)
  let numerator := scaled * 2 ^ exponent.toNat
  let denominator := 2 ^ (-exponent).toNat
  if 2 ^ 1024 * denominator ≤ numerator then .infinite negative
  else .finite (mkRat (if negative then -numerator else numerator) denominator)

def readDecimal (negative : Bool) (text : JsString) : Option JsNumber := do
  let whole := text.takeWhile isDecimalDigit
  let (fraction, rest) := splitFraction (text.dropWhile isDecimalDigit)
  let digits ← readDigits 10 (whole ++ fraction)
  let exponent ← readExponent rest
  let scale := exponent - fraction.length
  some (nearest negative (digits * 10 ^ scale.toNat) (10 ^ (-scale).toNat))

/-- `Number(text)`. -/
def ofText (text : JsString) : JsNumber :=
  let text := trimSpace text
  if text = [] then ofNat 0
  else
    match splitRadix text with
    | some (radix, digits) => (readDigits radix digits).elim .nan (nearest false · 1)
    | none =>
      let (negative, body) := splitSign text
      if body = js "Infinity" then .infinite negative else (readDecimal negative body).getD .nan

theorem divideToEven_one (n : Nat) : divideToEven n 1 = n := by
  simp [divideToEven, Nat.mod_one]

theorem binaryExponent_small {n : Nat} (small : n ≤ maxSafeInteger) : binaryExponent n 1 ≤ 52 := by
  have bits : Nat.log2 n ≤ 52 := by
    by_cases zero : n = 0
    · simp [zero]
    · have below : n < 2 ^ 53 := Nat.lt_of_le_of_lt small (by decide)
      exact Nat.le_of_lt_succ ((Nat.log2_lt zero).mpr below)
  have one : Nat.log2 1 = 0 := by decide
  simp only [binaryExponent, one]
  split <;> omega

theorem maxSafeInteger_lt {bits : Nat} (enough : 53 ≤ bits) : maxSafeInteger < 2 ^ bits :=
  calc
    maxSafeInteger < 2 ^ 53 := by decide
    _ ≤ 2 ^ bits := Nat.pow_le_pow_right (by decide) enough

theorem nearest_exact {n : Nat} (small : n ≤ maxSafeInteger) : nearest false n 1 = ofNat n := by
  have least := binaryExponent_small small
  obtain ⟨shift, exponent⟩ : ∃ shift : Nat, (if binaryExponent n 1 - 52 < -1074 then -1074
      else binaryExponent n 1 - 52) = -(shift : Int) := by
    split
    · exact ⟨1074, rfl⟩
    · exact ⟨(52 - binaryExponent n 1).toNat, by omega⟩
  have positive : 0 < 2 ^ shift := Nat.two_pow_pos shift
  have finite : ¬ 2 ^ 1024 * 2 ^ shift ≤ n * 2 ^ shift := by
    intro huge
    have most := Nat.le_of_mul_le_mul_right huge positive
    exact Nat.not_le.mpr (maxSafeInteger_lt (by decide)) (most.trans small)
  have value : mkRat ((n * 2 ^ shift : Nat) : Int) (2 ^ shift) = n := by
    have cancel : mkRat ((n : Int) * (2 ^ shift : Nat)) (1 * 2 ^ shift) = mkRat n 1 :=
      Rat.mkRat_mul_right (Nat.ne_of_gt positive)
    rw [Nat.one_mul] at cancel
    rw [Int.natCast_mul, cancel]
    exact Rat.mkRat_one n
  simp only [nearest, exponent, neg_neg, Int.toNat_natCast, Int.toNat_neg_natCast, Nat.pow_zero,
    Nat.mul_one, divideToEven_one, if_neg finite]
  exact congrArg JsNumber.finite value

end Rounding

section Numerals

def numeral (n : Nat) : JsString := js (toString n)

theorem numeral_eq (n : Nat) :
    numeral n = (Nat.toDigits 10 n).map fun c => UInt16.ofNat c.toNat :=
  congrArg (List.map _) Nat.toList_repr

theorem numeral_ne_nil (n : Nat) : numeral n ≠ [] := by
  rw [numeral_eq]
  exact mt List.map_eq_nil_iff.mp Nat.toDigits_ne_nil

structure DigitUnit (unit : UInt16) (value : Nat) : Prop where
  decimal : isDecimalDigit unit = true
  reads : digitValue unit = value
  small : value < 10
  space : isSpaceUnit unit = false
  minus : unit ≠ 0x2d
  plus : unit ≠ 0x2b
  bar : unit ≠ 0x7c
  radix : radixOf unit = none

theorem digitUnit {c : Char} (digit : c.isDigit = true) :
    DigitUnit (UInt16.ofNat c.toNat) (c.toNat - '0'.toNat) := by
  have all : ∀ k < 10, isDecimalDigit (UInt16.ofNat (48 + k)) = true ∧
      digitValue (UInt16.ofNat (48 + k)) = k ∧ isSpaceUnit (UInt16.ofNat (48 + k)) = false ∧
      UInt16.ofNat (48 + k) ≠ 0x2d ∧ UInt16.ofNat (48 + k) ≠ 0x2b ∧
      UInt16.ofNat (48 + k) ≠ 0x7c ∧ radixOf (UInt16.ofNat (48 + k)) = none := by decide
  have low : 48 ≤ c.toNat := (Char.isDigit_iff_toNat.mp digit).1
  have high : c.toNat ≤ 57 := (Char.isDigit_iff_toNat.mp digit).2
  have zero : '0'.toNat = 48 := rfl
  obtain ⟨decimal, value, space, minus, plus, bar, radix⟩ := all (c.toNat - 48) (by omega)
  rw [Nat.add_sub_cancel' low] at decimal value space minus plus bar radix
  rw [zero]
  exact ⟨decimal, value, by omega, space, minus, plus, bar, radix⟩

theorem numeral_digit {n : Nat} {unit : UInt16} (mem : unit ∈ numeral n) :
    ∃ value, DigitUnit unit value := by
  rw [numeral_eq] at mem
  obtain ⟨c, digit, rfl⟩ := List.mem_map.mp mem
  exact ⟨_, digitUnit (Nat.isDigit_of_mem_toDigits (by omega) (by omega) digit)⟩

theorem trimSpace_numeral (n : Nat) : trimSpace (numeral n) = numeral n := by
  have kept : ∀ text : JsString, (∀ unit ∈ text, isSpaceUnit unit = false) →
      text.dropWhile isSpaceUnit = text := by
    intro text plain
    rw [List.dropWhile_eq_self_iff]
    intro some_unit
    simp [plain _ (List.getElem_mem some_unit)]
  have plain : ∀ unit ∈ numeral n, isSpaceUnit unit = false := by
    intro unit mem
    obtain ⟨_, digit⟩ := numeral_digit mem
    exact digit.space
  rw [trimSpace, kept _ plain, kept _ (by simpa using plain), List.reverse_reverse]

theorem splitRadix_numeral (n : Nat) : splitRadix (numeral n) = none := by
  have digits := fun unit (mem : unit ∈ numeral n) => numeral_digit mem
  generalize numeral n = text at digits
  match text with
  | [] | [_] => rfl
  | first :: mark :: rest =>
    obtain ⟨_, digit⟩ := digits mark (by simp)
    simp [splitRadix, digit.radix]

theorem splitSign_numeral (n : Nat) : splitSign (numeral n) = (false, numeral n) := by
  have digits := fun unit (mem : unit ∈ numeral n) => numeral_digit mem
  generalize numeral n = text at digits
  cases text with
  | nil => rfl
  | cons first rest =>
    obtain ⟨_, digit⟩ := digits first (by simp)
    simp [splitSign, digit.minus, digit.plus]

theorem readDigits_numeral (n : Nat) : readDigits 10 (numeral n) = some n := by
  have small : (numeral n).all (digitValue · < 10) = true := by
    rw [List.all_eq_true]
    intro unit mem
    obtain ⟨_, digit⟩ := numeral_digit mem
    simp [digit.reads, digit.small]
  have value : (numeral n).foldl (fun value digit => 10 * value + digitValue digit) 0 = n := by
    rw [numeral_eq, List.foldl_map]
    calc
      _ = (Nat.toDigits 10 n).foldl (fun value c => 10 * value + (c.toNat - '0'.toNat)) 0 := by
        refine List.foldl_ext _ _ _ fun value c mem => ?_
        have digit := Nat.isDigit_of_mem_toDigits (by omega) (by omega) mem
        rw [(digitUnit digit).reads]
      _ = n := by rw [← Nat.ofDigitChars_eq_foldl, Nat.ofDigitChars_ten_toDigits]
  simp only [readDigits, numeral_ne_nil, small, value, false_or, not_true_eq_false, if_false]

theorem readDecimal_numeral (n : Nat) :
    readDecimal false (numeral n) = some (nearest false n 1) := by
  have decimal : ∀ unit ∈ numeral n, isDecimalDigit unit = true := by
    intro unit mem
    obtain ⟨_, digit⟩ := numeral_digit mem
    exact digit.decimal
  have whole : (numeral n).takeWhile isDecimalDigit = numeral n :=
    List.takeWhile_eq_self_iff.mpr decimal
  have rest : (numeral n).dropWhile isDecimalDigit = [] := List.dropWhile_eq_nil_iff.mpr decimal
  simp only [readDecimal, whole, rest, splitFraction, List.append_nil, readDigits_numeral,
    readExponent]
  simp

theorem ofText_numeral {n : Nat} (small : n ≤ maxSafeInteger) : ofText (numeral n) = ofNat n := by
  have finite : numeral n ≠ js "Infinity" := by
    intro same
    have mem : 0x49 ∈ numeral n := by
      rw [same]
      decide
    obtain ⟨_, digit⟩ := numeral_digit mem
    exact absurd digit.decimal (by decide)
  simp only [ofText, trimSpace_numeral, numeral_ne_nil, splitRadix_numeral, splitSign_numeral,
    finite, readDecimal_numeral, nearest_exact small, if_false, Option.getD_some]

end Numerals

end JsNumber
end ZonKey.Host

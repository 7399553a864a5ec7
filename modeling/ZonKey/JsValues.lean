import Mathlib.Algebra.Ring.Int.Defs
import Mathlib.Data.List.Basic

set_option autoImplicit false

/-!
# JavaScript values

Strings are lists of UTF-16 code units and numbers are rationals, NaN or an
infinity. `canonicalJson` of `contract.ts` serialises a value with its keys
sorted; how a finite number is written is a parameter.
-/
namespace ZonKey.Host

abbrev JsString := List UInt16

def js (text : String) : JsString := text.toList.map fun c => UInt16.ofNat c.toNat

inductive JsNumber where
  | finite (value : Rat)
  | nan
  | infinite (negative : Bool)
  deriving DecidableEq

namespace JsNumber

def ofNat (n : Nat) : JsNumber := .finite n

/-- `Number.MAX_SAFE_INTEGER`. -/
def maxSafeInteger : Nat := 9007199254740991

/-- `===` on numbers. -/
def strictEq : JsNumber → JsNumber → Bool
  | .finite a, .finite b => a = b
  | .infinite a, .infinite b => a = b
  | _, _ => false

/-- A number that `Number.isSafeInteger` accepts and that is not negative. -/
def safeNat : JsNumber → Option Nat
  | .finite value =>
    if value.den = 1 ∧ 0 ≤ value.num ∧ value.num ≤ 2 ^ 53 - 1 then some value.num.toNat else none
  | .nan | .infinite _ => none

theorem strictEq_ofNat {number : JsNumber} {n : Nat} :
    number.strictEq (ofNat n) = true ↔ number = ofNat n := by
  cases number <;> simp [strictEq, ofNat]

theorem safeNat_eq_some_iff {number : JsNumber} {n : Nat} :
    number.safeNat = some n ↔ number = ofNat n ∧ n ≤ maxSafeInteger := by
  have large : (maxSafeInteger : Int) = 2 ^ 53 - 1 := rfl
  constructor
  · intro safe
    cases number with
    | finite value =>
      simp only [safeNat] at safe
      split at safe
      · rename_i whole
        cases safe
        refine ⟨?_, by omega⟩
        rw [ofNat, JsNumber.finite.injEq]
        apply Rat.ext
        · simpa using (Int.toNat_of_nonneg whole.2.1).symm
        · simpa using whole.1
      · cases safe
    | nan | infinite _ => cases safe
  · rintro ⟨rfl, small⟩
    have whole : ((n : Rat).den = 1 ∧ 0 ≤ (n : Rat).num ∧ (n : Rat).num ≤ 2 ^ 53 - 1) := by
      refine ⟨Rat.den_natCast n, ?_, ?_⟩
      · simp
      · rw [Rat.num_natCast]
        omega
    have same : (n : Rat).num.toNat = n := by simp
    exact (if_pos whole).trans (congrArg some same)

theorem safeNat_some {number : JsNumber} {n : Nat} (some : number.safeNat = some n) :
    number = ofNat n :=
  (safeNat_eq_some_iff.mp some).1

end JsNumber

/-- Values as JSON knows them, with `undefined` for an absent field. -/
inductive JsValue where
  | undefined
  | null
  | bool (value : Bool)
  | number (value : JsNumber)
  | string (value : JsString)
  | array (items : List JsValue)
  | object (entries : List (JsString × JsValue))

section Stringify

def isHighSurrogate (unit : UInt16) : Bool := 0xd800 ≤ unit && unit ≤ 0xdbff

def isLowSurrogate (unit : UInt16) : Bool := 0xdc00 ≤ unit && unit ≤ 0xdfff

def hexDigit (value : Nat) : UInt16 :=
  UInt16.ofNat (if value < 10 then value + '0'.toNat else value - 10 + 'a'.toNat)

def unicodeEscape (unit : UInt16) : JsString :=
  let value := unit.toNat
  js "\\u" ++ [hexDigit (value / 4096), hexDigit (value / 256 % 16), hexDigit (value / 16 % 16),
    hexDigit (value % 16)]

def escapeUnit (unit : UInt16) : JsString :=
  if unit = 0x22 then js "\\\""
  else if unit = 0x5c then js "\\\\"
  else if unit = 0x08 then js "\\b"
  else if unit = 0x0c then js "\\f"
  else if unit = 0x0a then js "\\n"
  else if unit = 0x0d then js "\\r"
  else if unit = 0x09 then js "\\t"
  else if unit < 0x20 then unicodeEscape unit
  else [unit]

def quoteUnits : JsString → JsString
  | [] => []
  | [unit] =>
    if isHighSurrogate unit || isLowSurrogate unit then unicodeEscape unit else escapeUnit unit
  | unit :: next :: rest =>
    if isHighSurrogate unit && isLowSurrogate next then unit :: next :: quoteUnits rest
    else if isHighSurrogate unit || isLowSurrogate unit then
      unicodeEscape unit ++ quoteUnits (next :: rest)
    else escapeUnit unit ++ quoteUnits (next :: rest)

/-- `JSON.stringify` of a string. -/
def quote (text : JsString) : JsString := js "\"" ++ quoteUnits text ++ js "\""

variable (numberText : Rat → JsString)

/-- `JSON.stringify` of a number. -/
def stringifyNumber : JsNumber → JsString
  | .finite value => numberText value
  | .nan | .infinite _ => js "null"

/-- `<` on strings: by code units. -/
def jsLess : JsString → JsString → Bool
  | _, [] => false
  | [], _ :: _ => true
  | a :: left, b :: right => a < b || (a = b && jsLess left right)

def insertEntry (entry : JsString × JsString) :
    List (JsString × JsString) → List (JsString × JsString)
  | [] => [entry]
  | first :: rest =>
    if jsLess entry.1 first.1 then entry :: first :: rest else first :: insertEntry entry rest

def sortEntries (entries : List (JsString × JsString)) : List (JsString × JsString) :=
  entries.foldl (fun sorted entry => insertEntry entry sorted) []

def joinComma (pieces : List JsString) : JsString := (js ",").intercalate pieces

mutual

/-- `canonicalJson`; an `undefined` item of an array leaves an empty piece. -/
def canonicalJson : JsValue → JsString
  | .undefined => []
  | .null => js "null"
  | .bool value => if value then js "true" else js "false"
  | .number value => stringifyNumber numberText value
  | .string value => quote value
  | .array items => js "[" ++ joinComma (canonicalItems items) ++ js "]"
  | .object entries =>
    js "\x7b" ++
      joinComma ((sortEntries (canonicalEntries entries)).map fun (key, text) =>
        quote key ++ js ":" ++ text) ++
      js "\x7d"

def canonicalItems : List JsValue → List JsString
  | [] => []
  | item :: rest => canonicalJson item :: canonicalItems rest

/-- The entries that are not `undefined`. -/
def canonicalEntries : List (JsString × JsValue) → List (JsString × JsString)
  | [] => []
  | (_, .undefined) :: rest => canonicalEntries rest
  | (key, value) :: rest => (key, canonicalJson value) :: canonicalEntries rest

end

end Stringify

/-- True when the index splits a surrogate pair. -/
def splitsSurrogate (text : JsString) (index : Nat) : Bool :=
  if index = 0 ∨ text.length ≤ index then false
  else
    match text[index - 1]?, text[index]? with
    | some previous, some current => isHighSurrogate previous && isLowSurrogate current
    | _, _ => false

/-- `text.slice(start, end)` with `start ≤ end`. -/
def slice (text : JsString) (start stop : Nat) : JsString := (text.take stop).drop start

example : canonicalJson (fun _ => js "1") (.object [(js "b", .number (.finite 1)),
    (js "a", .undefined)]) = js "\x7b\"b\":1\x7d" := by decide

end ZonKey.Host

import Mathlib.Data.List.Infix
import ZonKey.ObservedInput

set_option autoImplicit false

/-!
# Never-transform tokens

`patterns.rs`: the structured tokens that recovery must not rewrite. Lengths are
UTF-8 lengths. The classifier asks about ASCII tokens only, and on those
`char::is_alphabetic` and `char::is_whitespace` are the ASCII tests.
-/
namespace ZonKey.Detect
open ZonKey.Observe

inductive NeverTransformKind where
  | url
  | email
  | path
  | domain
  | ipAddress
  | commandOption
  | identifier
  | semanticVersion
  | uuid
  | hexOrHash
  | secretLike
  deriving DecidableEq, Repr

section Text

def utf8Length (text : List Char) : Nat := (text.map Char.utf8Size).sum

def containsText (text part : List Char) : Bool := decide (part <:+: text)

def startsWith (text start : List Char) : Bool := start.isPrefixOf text

def stripPrefix (start text : List Char) : Option (List Char) :=
  if startsWith text start then some (text.drop start.length) else none

def splitOnce (separator : Char) (text : List Char) : Option (List Char × List Char) :=
  if separator ∈ text then
    some (text.takeWhile (· ≠ separator), (text.dropWhile (· ≠ separator)).drop 1)
  else none

def toAsciiLowercaseText (text : List Char) : List Char := text.map toAsciiLowercase

/-- ASCII white space of `char::is_whitespace`. -/
def isWhitespace (c : Char) : Bool := c = ' ' || ('\t' ≤ c && c ≤ '\r')

end Text

/-- `label.starts_with('-')`, `label.ends_with('-')` and the characters of a label. -/
def isDomainLabel (label : List Char) : Bool :=
  !label.isEmpty && label.head? ≠ some '-' && label.getLast? ≠ some '-' &&
    label.all fun c => isAsciiAlphanumeric c || c = '-'

def looksLikeDomain (token : List Char) : Bool :=
  let labels := token.splitOn '.'
  decide (2 ≤ labels.length) && labels.all isDomainLabel &&
    labels.getLast?.any fun label => label.any isAsciiAlphabetic

def looksLikeEmail (token : List Char) : Bool :=
  match splitOnce '@' token with
  | none => false
  | some (front, domain) => !front.isEmpty && looksLikeDomain domain

def looksLikeWindowsPath (token : List Char) : Bool :=
  match token with
  | drive :: colon :: slash :: _ =>
    isAsciiAlphabetic drive && colon = ':' && (slash = '\\' || slash = '/')
  | _ => false

/-- `str::parse::<u8>`: decimal digits after an optional plus sign, at most 255. -/
def parsesAsU8 (text : List Char) : Bool :=
  let digits := (stripPrefix ['+'] text).getD text
  !digits.isEmpty && digits.all isAsciiDigit &&
    decide (digits.foldl (fun value c => value * 10 + (c.toNat - '0'.toNat)) 0 ≤ 255)

def looksLikeIpv4 (token : List Char) : Bool :=
  let parts := token.splitOn '.'
  decide (parts.length = 4) && parts.all fun part => !part.isEmpty && parsesAsU8 part

def looksLikeIpv6 (token : List Char) : Bool :=
  decide (':' ∈ token) && token.all (fun c => isAsciiHexdigit c || c = ':') &&
    decide (2 ≤ token.count ':')

def looksLikeSemver (token : List Char) : Bool :=
  let value := (stripPrefix ['v'] token).getD token
  let core := value.takeWhile fun c => c ≠ '-' && c ≠ '+'
  let parts := core.splitOn '.'
  decide (parts.length = 3) && parts.all fun part => !part.isEmpty && part.all isAsciiDigit

def looksLikeUuid (token : List Char) : Bool :=
  let parts := token.splitOn '-'
  decide (parts.map utf8Length = [8, 4, 4, 4, 12]) && parts.all fun part => part.all isAsciiHexdigit

def looksLikeHexOrHash (token : List Char) : Bool :=
  let value := (stripPrefix ['0', 'x'] token).getD token
  decide (8 ≤ utf8Length value) && value.all isAsciiHexdigit &&
    (startsWith token ['0', 'x'] || value.any isAsciiDigit)

def hasInternalUppercase (token : List Char) : Bool :=
  token.any isAsciiLowercase && (token.drop 1).any isAsciiUppercase

def secretClasses (token : List Char) : List Bool :=
  [token.any isAsciiLowercase, token.any isAsciiUppercase, token.any isAsciiDigit,
    token.any fun c => !isAsciiAlphanumeric c]

def looksLikeSecret (token : List Char) : Bool :=
  if startsWith token ['A', 'K', 'I', 'A'] && decide (16 ≤ utf8Length token) then true
  else
    decide (24 ≤ utf8Length token) && token.all isAscii && !token.any isWhitespace &&
      decide (3 ≤ (secretClasses token).count true)

def classifyNeverTransform (token : List Char) : Option NeverTransformKind :=
  let lower := toAsciiLowercaseText token
  if token.isEmpty then none
  else if containsText lower [':', '/', '/'] || startsWith lower "mailto:".toList ||
      startsWith lower "urn:".toList then some .url
  else if looksLikeEmail token then some .email
  else if startsWith token ['-'] ||
      (startsWith token ['/'] && '/' ∉ token.drop 1 && '\\' ∉ token.drop 1) then
    some .commandOption
  else if looksLikeWindowsPath token || startsWith token ['/'] || startsWith token ['.', '/'] ||
      startsWith token ['.', '.', '/'] || startsWith token ['\\', '\\'] || '\\' ∈ token then
    some .path
  else if looksLikeIpv4 token || looksLikeIpv6 token then some .ipAddress
  else if looksLikeSemver token then some .semanticVersion
  else if looksLikeUuid token then some .uuid
  else if looksLikeHexOrHash token then some .hexOrHash
  else if looksLikeSecret token then some .secretLike
  else if looksLikeDomain token then some .domain
  else if '_' ∈ token || ('-' ∈ token && token.any isAsciiAlphabetic) ||
      hasInternalUppercase token then
    some .identifier
  else none

theorem toAsciiLowercaseText_eq_self {text : List Char}
    (lowered : ∀ c ∈ text, isAsciiUppercase c = false) : toAsciiLowercaseText text = text := by
  have same : ∀ c ∈ text, toAsciiLowercase c = id c := by
    intro c mem
    simp [toAsciiLowercase, lowered c mem]
  rw [toAsciiLowercaseText, List.map_congr_left same, List.map_id]

section Unclassified

theorem ite_some_eq_none {κ : Type} {matches_ : Bool} {kind : κ} {rest : Option κ} :
    (if matches_ then some kind else rest) = none ↔ matches_ = false ∧ rest = none := by
  cases matches_ <;> simp

theorem startsWith_false_of_not_mem {token start : List Char} {c : Char} (mem : c ∈ start)
    (absent : c ∉ token) : startsWith token start = false := by
  cases starts : startsWith token start with
  | false => rfl
  | true => exact absurd ((List.isPrefixOf_iff_prefix.mp starts).subset mem) absent

/-- No pattern matches a token that is not classified. -/
theorem classifyNeverTransform_none_iff {token : List Char} (nonempty : token ≠ []) :
    classifyNeverTransform token = none ↔
      (containsText (toAsciiLowercaseText token) [':', '/', '/'] = false ∧
        startsWith (toAsciiLowercaseText token) "mailto:".toList = false ∧
        startsWith (toAsciiLowercaseText token) "urn:".toList = false) ∧
      looksLikeEmail token = false ∧
      (startsWith token ['-'] = false ∧ startsWith token ['/'] = false ∧
        startsWith token ['.', '/'] = false ∧ startsWith token ['.', '.', '/'] = false ∧
        looksLikeWindowsPath token = false ∧ '\\' ∉ token) ∧
      (looksLikeIpv4 token = false ∧ looksLikeIpv6 token = false) ∧
      looksLikeSemver token = false ∧ looksLikeUuid token = false ∧
      looksLikeHexOrHash token = false ∧ looksLikeSecret token = false ∧
      looksLikeDomain token = false ∧
      ('_' ∉ token ∧ ('-' ∈ token → token.any isAsciiAlphabetic = false) ∧
        hasInternalUppercase token = false) := by
  have some_token : token.isEmpty = false := List.isEmpty_eq_false_iff.mpr nonempty
  simp only [classifyNeverTransform, some_token, Bool.false_eq_true, if_false, ite_some_eq_none,
    Bool.or_eq_false_iff, Bool.and_eq_false_iff, decide_eq_false_iff_not, and_true]
  constructor
  · rintro ⟨⟨⟨url, mailto⟩, urn⟩, email, ⟨hyphen, _⟩, ⟨⟨⟨⟨⟨drive, slash⟩, dot⟩, dots⟩, _⟩, backslash⟩,
      address, semver, uuid, hash, secret, domain, ⟨underscore, hyphens⟩, upper⟩
    refine ⟨⟨url, mailto, urn⟩, email, ⟨hyphen, slash, dot, dots, drive, backslash⟩, address, semver,
      uuid, hash, secret, domain, underscore, fun mem => ?_, upper⟩
    exact hyphens.resolve_left (not_not_intro mem)
  · rintro ⟨⟨url, mailto, urn⟩, email, ⟨hyphen, slash, dot, dots, drive, backslash⟩, address, semver,
      uuid, hash, secret, domain, underscore, hyphens, upper⟩
    have unc : startsWith token ['\\', '\\'] = false :=
      startsWith_false_of_not_mem List.mem_cons_self backslash
    refine ⟨⟨⟨url, mailto⟩, urn⟩, email, ⟨hyphen, .inl (.inl slash)⟩,
      ⟨⟨⟨⟨⟨drive, slash⟩, dot⟩, dots⟩, unc⟩, backslash⟩, address, semver, uuid, hash, secret, domain,
      ⟨underscore, ?_⟩, upper⟩
    by_cases mem : '-' ∈ token
    · exact .inr (hyphens mem)
    · exact .inl mem

end Unclassified

example : classifyNeverTransform "server.local".toList = some .domain := by decide
example : classifyNeverTransform "/resume".toList = some .commandOption := by decide
example : classifyNeverTransform "resume".toList = none := by decide

end ZonKey.Detect

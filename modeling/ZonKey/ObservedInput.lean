import Mathlib.Algebra.Ring.Nat
import Mathlib.Data.List.Basic

set_option autoImplicit false

namespace ZonKey.Observe

section Ascii

def isAsciiUppercase (c : Char) : Bool := 'A' ≤ c && c ≤ 'Z'

def isAsciiLowercase (c : Char) : Bool := 'a' ≤ c && c ≤ 'z'

def isAsciiAlphabetic (c : Char) : Bool := isAsciiUppercase c || isAsciiLowercase c

def isAsciiDigit (c : Char) : Bool := '0' ≤ c && c ≤ '9'

def isAsciiAlphanumeric (c : Char) : Bool := isAsciiAlphabetic c || isAsciiDigit c

def isAsciiHexdigit (c : Char) : Bool :=
  isAsciiDigit c || ('A' ≤ c && c ≤ 'F') || ('a' ≤ c && c ≤ 'f')

def isAsciiPunctuation (c : Char) : Bool :=
  ('!' ≤ c && c ≤ '/') || (':' ≤ c && c ≤ '@') || ('[' ≤ c && c ≤ '\x60') ||
    ('\x7b' ≤ c && c ≤ '~')

def isAscii (c : Char) : Bool := c.toNat < 128

def toAsciiLowercase (c : Char) : Char :=
  if isAsciiUppercase c then Char.ofNat (c.toNat + 32) else c

theorem forall_ascii {P : Char → Prop} (all : ∀ n < 128, P (Char.ofNat n)) {c : Char}
    (ascii : isAscii c) : P c := by
  rw [← c.ofNat_toNat]
  exact all c.toNat (of_decide_eq_true ascii)

theorem isAscii_of_alphanumeric {c : Char} (h : isAsciiAlphanumeric c) : isAscii c := by
  simp only [isAsciiAlphanumeric, isAsciiAlphabetic, isAsciiUppercase, isAsciiLowercase,
    isAsciiDigit, Bool.or_eq_true, Bool.and_eq_true, decide_eq_true_eq, Char.le_def,
    UInt32.le_iff_toNat_le] at h
  simp only [isAscii, decide_eq_true_eq, Char.toNat]
  rcases h with ((⟨_, high⟩ | ⟨_, high⟩) | ⟨_, high⟩)
  · exact Nat.lt_of_le_of_lt high (by decide)
  · exact Nat.lt_of_le_of_lt high (by decide)
  · exact Nat.lt_of_le_of_lt high (by decide)

end Ascii

def u64Max : Nat := 2 ^ 64 - 1

/-- `checked_add(1)` of a `u64`. -/
def checkedSucc (n : Nat) : Option Nat := if n < u64Max then some (n + 1) else none

/-- `saturating_add(1)` of a `u64`. -/
def saturatingSucc (n : Nat) : Nat := if n < u64Max then n + 1 else n

inductive KeyEventKind where
  | keyDown
  | keyUp
  | systemKeyDown
  | systemKeyUp
  deriving DecidableEq, Repr

def KeyEventKind.isUp : KeyEventKind → Bool
  | keyUp | systemKeyUp => true
  | keyDown | systemKeyDown => false

inductive ModifierKey where
  | shift
  | control
  | alt
  | metaKey
  deriving DecidableEq, Repr

inductive ObservedKeyError where
  | invalidLetter
  | invalidDigit
  | invalidPunctuation
  deriving DecidableEq, Repr

inductive ObservedKeyKind where
  | letter (value : Char)
  | digit (value : Nat)
  | space
  | enter
  | tab
  | backspace
  | escape
  | punctuation (value : Char)
  | modifier (value : ModifierKey)
  | other
  deriving DecidableEq, Repr

def ObservedKeyKind.Valid : ObservedKeyKind → Prop
  | letter value => isAsciiAlphabetic value
  | digit value => value ≤ 9
  | punctuation value => isAsciiPunctuation value
  | space | enter | tab | backspace | escape | modifier _ | other => True

structure ObservedKey where
  kind : ObservedKeyKind
  valid : kind.Valid
  deriving DecidableEq

namespace ObservedKey

def letter (value : Char) : Except ObservedKeyError ObservedKey :=
  if valid : isAsciiAlphabetic value then .ok ⟨.letter value, valid⟩ else .error .invalidLetter

def digit (value : Nat) : Except ObservedKeyError ObservedKey :=
  if valid : value ≤ 9 then .ok ⟨.digit value, valid⟩ else .error .invalidDigit

def punctuation (value : Char) : Except ObservedKeyError ObservedKey :=
  if valid : isAsciiPunctuation value then .ok ⟨.punctuation value, valid⟩
  else .error .invalidPunctuation

def space : ObservedKey := ⟨.space, trivial⟩
def enter : ObservedKey := ⟨.enter, trivial⟩
def tab : ObservedKey := ⟨.tab, trivial⟩
def backspace : ObservedKey := ⟨.backspace, trivial⟩
def escape : ObservedKey := ⟨.escape, trivial⟩
def modifier (value : ModifierKey) : ObservedKey := ⟨.modifier value, trivial⟩
def other : ObservedKey := ⟨.other, trivial⟩

def letterValue (key : ObservedKey) : Option Char :=
  match key.kind with
  | .letter value => some value
  | _ => none

def digitValue (key : ObservedKey) : Option Nat :=
  match key.kind with
  | .digit value => some value
  | _ => none

def punctuationValue (key : ObservedKey) : Option Char :=
  match key.kind with
  | .punctuation value => some value
  | _ => none

def modifierValue (key : ObservedKey) : Option ModifierKey :=
  match key.kind with
  | .modifier value => some value
  | _ => none

def isSpace (key : ObservedKey) : Bool := key.kind = .space
def isEnter (key : ObservedKey) : Bool := key.kind = .enter
def isTab (key : ObservedKey) : Bool := key.kind = .tab
def isBackspace (key : ObservedKey) : Bool := key.kind = .backspace
def isEscape (key : ObservedKey) : Bool := key.kind = .escape

end ObservedKey

structure ModifierState where
  shift : Bool
  control : Bool
  alt : Bool
  metaKey : Bool
  deriving DecidableEq, Repr

def ModifierState.new : ModifierState := ⟨false, false, false, false⟩

inductive InjectionOrigin where
  | unknown
  | physicalOrUnmarked
  | markedInjected
  | lowerIntegrityInjected
  deriving DecidableEq, Repr

structure EventSequenceError where

structure EventSequence where
  value : Nat
  nonzero : value ≠ 0
  deriving DecidableEq

def EventSequence.new (value : Nat) : Except EventSequenceError EventSequence :=
  if nonzero : value ≠ 0 then .ok ⟨value, nonzero⟩ else .error ⟨⟩

structure ObservedInputEvent where
  key : ObservedKey
  kind : KeyEventKind
  modifiers : ModifierState
  injectionOrigin : InjectionOrigin
  sequence : EventSequence
  deriving DecidableEq

def ObservedInputEvent.pressed (key : ObservedKey) (sequence : EventSequence) :
    ObservedInputEvent :=
  ⟨key, .keyDown, .new, .physicalOrUnmarked, sequence⟩

inductive ObserverStatus where
  | starting
  | running
  | stopping
  | stopped
  | failed
  deriving DecidableEq, Repr

inductive ObserverError where
  | notSupported
  | startupFailed
  | eventSourceClosed
  | queueOverflow
  | invalidEvent
  | shutdownFailed
  | internal
  deriving DecidableEq, Repr

end ZonKey.Observe

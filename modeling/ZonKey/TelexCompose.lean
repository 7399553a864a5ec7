import Mathlib.Data.List.Induction
import ZonKey.TokenState

set_option autoImplicit false

namespace ZonKey.Telex
open ZonKey.Observe

inductive Tone where
  | none
  | grave
  | acute
  | hook
  | tilde
  | dot
  deriving DecidableEq, Repr

def Tone.index : Tone → Fin 6
  | none => 0
  | grave => 1
  | acute => 2
  | hook => 3
  | tilde => 4
  | dot => 5

inductive VowelShape where
  | a
  | abreve
  | acirc
  | e
  | ecirc
  | i
  | o
  | ocirc
  | ohorn
  | u
  | uhorn
  | y
  deriving DecidableEq, Repr

inductive ShapeTransition where
  | replace (next : VowelShape)
  | undo (next : VowelShape)
  deriving DecidableEq, Repr

def vowels : Vector (Vector Char 6) 12 := #v[
  #v['a', 'à', 'á', 'ả', 'ã', 'ạ'],
  #v['ă', 'ằ', 'ắ', 'ẳ', 'ẵ', 'ặ'],
  #v['â', 'ầ', 'ấ', 'ẩ', 'ẫ', 'ậ'],
  #v['e', 'è', 'é', 'ẻ', 'ẽ', 'ẹ'],
  #v['ê', 'ề', 'ế', 'ể', 'ễ', 'ệ'],
  #v['i', 'ì', 'í', 'ỉ', 'ĩ', 'ị'],
  #v['o', 'ò', 'ó', 'ỏ', 'õ', 'ọ'],
  #v['ô', 'ồ', 'ố', 'ổ', 'ỗ', 'ộ'],
  #v['ơ', 'ờ', 'ớ', 'ở', 'ỡ', 'ợ'],
  #v['u', 'ù', 'ú', 'ủ', 'ũ', 'ụ'],
  #v['ư', 'ừ', 'ứ', 'ử', 'ữ', 'ự'],
  #v['y', 'ỳ', 'ý', 'ỷ', 'ỹ', 'ỵ']]

def shapes : List VowelShape :=
  [.a, .abreve, .acirc, .e, .ecirc, .i, .o, .ocirc, .ohorn, .u, .uhorn, .y]

def VowelShape.row (shape : VowelShape) : Fin 12 :=
  ⟨shapes.idxOf shape, by cases shape <;> decide⟩

def encodeVowel (shape : VowelShape) (tone : Tone) : Char := vowels[shape.row][tone.index]

def toneAt : Nat → Option Tone
  | 0 => some .none
  | 1 => some .grave
  | 2 => some .acute
  | 3 => some .hook
  | 4 => some .tilde
  | 5 => some .dot
  | _ => none

/-- The first row that has the character, with its column. -/
def decodeVowel (character : Char) : Option (VowelShape × Tone) :=
  (shapes.zip vowels.toList).findSome? fun (shape, row) =>
    match row.toList.idxOf? character with
    | some column => (toneAt column).map fun tone => (shape, tone)
    | none => none

theorem decodeVowel_encodeVowel (shape : VowelShape) (tone : Tone) :
    decodeVowel (encodeVowel shape tone) = some (shape, tone) := by
  cases shape <;> cases tone <;> decide

def shapeTransition (key : Char) (shape : VowelShape) : Option ShapeTransition :=
  match key, shape with
  | 'a', .a => some (.replace .acirc)
  | 'a', .acirc => some (.undo .a)
  | 'w', .abreve => some (.undo .a)
  | 'e', .e => some (.replace .ecirc)
  | 'e', .ecirc => some (.undo .e)
  | 'o', .o => some (.replace .ocirc)
  | 'o', .ocirc => some (.undo .o)
  | 'w', .ohorn => some (.undo .o)
  | 'w', .a => some (.replace .abreve)
  | 'w', .o => some (.replace .ohorn)
  | 'w', .u => some (.replace .uhorn)
  | 'w', .uhorn => some (.undo .u)
  | _, _ => none

/-- `*output.last_mut() = character` on a non-empty output. -/
def setLast (output : List Char) (character : Char) : List Char := output.dropLast ++ [character]

def tryShapeTransform (output : List Char) (key : Char) : List Char × Bool :=
  match output.getLast? with
  | none => (output, false)
  | some last =>
    if key = 'd' ∧ last = 'd' then (setLast output 'đ', true)
    else if key = 'd' ∧ last = 'đ' then (setLast output 'd' ++ ['d'], true)
    else
      match decodeVowel last with
      | none => (output, false)
      | some (shape, tone) =>
        match shapeTransition key shape with
        | none => (output, false)
        | some (.replace next) => (setLast output (encodeVowel next tone), true)
        | some (.undo next) => (setLast output (encodeVowel next tone) ++ [key], true)

def requestedTone (key : Char) : Option Tone :=
  match key with
  | 'f' => some .grave
  | 's' => some .acute
  | 'r' => some .hook
  | 'x' => some .tilde
  | 'j' => some .dot
  | _ => none

def lastVowel (output : List Char) : Option (Nat × VowelShape × Tone) :=
  match output.reverse.findIdx? (fun character => (decodeVowel character).isSome) with
  | none => none
  | some fromEnd =>
    let index := output.length - 1 - fromEnd
    (output[index]?.bind decodeVowel).map fun (shape, tone) => (index, shape, tone)

def tryTone (output : List Char) (key : Char) : List Char × Bool :=
  match requestedTone key with
  | none => (output, false)
  | some requested =>
    match lastVowel output with
    | none => (output, false)
    | some (index, shape, current) =>
      if current = requested then (output.set index (encodeVowel shape .none), false)
      else (output.set index (encodeVowel shape requested), true)

def composeKey (output : List Char) (key : Char) : List Char :=
  let (output, shaped) := tryShapeTransform output key
  if shaped then output
  else
    let (output, toned) := tryTone output key
    if toned then output else output ++ [key]

def composeFrom (output : List Char) : List Char → Except UnsupportedBehavior (List Char)
  | [] => .ok output
  | character :: rest =>
    if !isAscii character then .error (.nonAsciiInput character)
    else composeFrom (composeKey output character) rest

def compose (raw : List Char) : Except UnsupportedBehavior (List Char) := composeFrom [] raw

example : compose "tieengs".toList = .ok "tiếng".toList := by decide
example : compose "ass".toList = .ok "as".toList := by decide

section Compose

def composed (raw : List Char) : List Char := raw.foldl composeKey []

theorem composeFrom_ascii (output : List Char) {raw : List Char}
    (ascii : ∀ character ∈ raw, isAscii character) :
    composeFrom output raw = .ok (raw.foldl composeKey output) := by
  induction raw generalizing output with
  | nil => rfl
  | cons character rest ih =>
    have first : isAscii character = true := ascii character List.mem_cons_self
    rw [composeFrom, first]
    exact ih _ fun other mem => ascii other (List.mem_cons_of_mem _ mem)

theorem compose_ascii {raw : List Char} (ascii : ∀ character ∈ raw, isAscii character) :
    compose raw = .ok (composed raw) := composeFrom_ascii [] ascii

theorem composeFrom_ok {output raw rendered : List Char}
    (ok : composeFrom output raw = .ok rendered) : rendered = raw.foldl composeKey output := by
  induction raw generalizing output with
  | nil =>
    cases ok
    rfl
  | cons character rest ih =>
    rw [composeFrom] at ok
    split at ok
    · cases ok
    · exact ih ok

theorem compose_ok {raw rendered : List Char} (ok : compose raw = .ok rendered) :
    rendered = composed raw := composeFrom_ok ok

@[simp] theorem composed_nil : composed [] = [] := rfl

theorem composed_concat (raw : List Char) (key : Char) :
    composed (raw ++ [key]) = composeKey (composed raw) key := by
  rw [composed, List.foldl_append]
  rfl

theorem setLast_ne_nil (output : List Char) (character : Char) : setLast output character ≠ [] := by
  simp [setLast]

theorem tryShapeTransform_ne_nil {output : List Char} {key : Char}
    (shaped : (tryShapeTransform output key).2 = true) : (tryShapeTransform output key).1 ≠ [] := by
  revert shaped
  unfold tryShapeTransform
  split
  · simp
  · split
    · exact fun _ => setLast_ne_nil _ _
    · split
      · simp
      · split
        · simp
        · split
          · simp
          · exact fun _ => setLast_ne_nil _ _
          · simp

theorem tryTone_ne_nil {output : List Char} {key : Char}
    (toned : (tryTone output key).2 = true) : (tryTone output key).1 ≠ [] := by
  rintro gone
  have empty : output = [] := by
    unfold tryTone at gone
    split at gone
    · exact gone
    · split at gone
      · exact gone
      · split at gone <;> simpa using gone
  rw [empty] at toned
  unfold tryTone at toned
  split at toned
  · cases toned
  · cases toned

theorem composeKey_ne_nil (output : List Char) (key : Char) : composeKey output key ≠ [] := by
  simp only [composeKey]
  split
  · rename_i shaped
    exact tryShapeTransform_ne_nil shaped
  · split
    · rename_i toned
      exact tryTone_ne_nil toned
    · simp

theorem composed_ne_nil {raw : List Char} (some_raw : raw ≠ []) : composed raw ≠ [] := by
  obtain ⟨front, key, rfl⟩ := (List.eq_nil_or_concat' raw).resolve_left some_raw
  rw [composed_concat]
  exact composeKey_ne_nil _ _

def IsVowel (character : Char) : Prop := (decodeVowel character).isSome

/-- What `compose` can put out: the typed characters, the vowel table and đ. -/
def Composable (character : Char) : Prop :=
  isAscii character ∨ IsVowel character ∨ character = 'đ'

theorem isVowel_encodeVowel (shape : VowelShape) (tone : Tone) :
    IsVowel (encodeVowel shape tone) := by
  rw [IsVowel, decodeVowel_encodeVowel]
  rfl

structure Letters (P : Char → Prop) : Prop where
  vowel : ∀ shape tone, P (encodeVowel shape tone)
  stroke : P 'đ'
  plain : P 'd'

variable {P : Char → Prop}

theorem all_setLast {output : List Char} {character : Char}
    (all : ∀ letter ∈ output, P letter) (new : P character) :
    ∀ letter ∈ setLast output character, P letter := by
  intro letter mem
  rcases List.mem_append.mp mem with kept | added
  · exact all letter (List.dropLast_subset output kept)
  · rw [List.mem_singleton.mp added]
    exact new

theorem all_concat {output : List Char} {character : Char}
    (all : ∀ letter ∈ output, P letter) (new : P character) :
    ∀ letter ∈ output ++ [character], P letter := by
  intro letter mem
  rcases List.mem_append.mp mem with kept | added
  · exact all letter kept
  · rw [List.mem_singleton.mp added]
    exact new

theorem tryShapeTransform_all (letters : Letters P) {output : List Char} {key : Char}
    (all : ∀ letter ∈ output, P letter) (typed : P key) :
    ∀ letter ∈ (tryShapeTransform output key).1, P letter := by
  unfold tryShapeTransform
  split
  · exact all
  · split
    · exact all_setLast all letters.stroke
    · split
      · exact all_concat (all_setLast all letters.plain) letters.plain
      · split
        · exact all
        · split
          · exact all
          · exact all_setLast all (letters.vowel _ _)
          · exact all_concat (all_setLast all (letters.vowel _ _)) typed

theorem tryTone_all (letters : Letters P) {output : List Char} {key : Char}
    (all : ∀ letter ∈ output, P letter) : ∀ letter ∈ (tryTone output key).1, P letter := by
  have placed (index : Nat) (shape : VowelShape) (tone : Tone) :
      ∀ letter ∈ output.set index (encodeVowel shape tone), P letter := by
    intro letter mem
    rcases List.mem_or_eq_of_mem_set mem with kept | added
    · exact all letter kept
    · rw [added]
      exact letters.vowel shape tone
  unfold tryTone
  split
  · exact all
  · split
    · exact all
    · split
      · exact placed _ _ _
      · exact placed _ _ _

theorem composeKey_all (letters : Letters P) {output : List Char} {key : Char}
    (all : ∀ letter ∈ output, P letter) (typed : P key) :
    ∀ letter ∈ composeKey output key, P letter := by
  have shaped := tryShapeTransform_all letters all typed
  have toned : ∀ letter ∈ (tryTone (tryShapeTransform output key).1 key).1, P letter :=
    tryTone_all letters shaped
  simp only [composeKey]
  split
  · exact shaped
  · split
    · exact toned
    · exact all_concat toned typed

theorem composed_all (letters : Letters P) {raw : List Char} (typed : ∀ key ∈ raw, P key) :
    ∀ letter ∈ composed raw, P letter := by
  induction raw using List.reverseRecOn with
  | nil => simp
  | append_singleton raw key ih =>
    rw [composed_concat]
    exact composeKey_all letters (ih fun other mem => typed other (List.mem_append_left _ mem))
      (typed key (List.mem_append_right _ (List.mem_singleton_self key)))

theorem not_mem_composed {mark : Char} (letters : Letters (· ≠ mark)) {raw : List Char}
    (absent : mark ∉ raw) : mark ∉ composed raw := by
  intro mem
  refine composed_all letters (fun key typed => ?_) mark mem rfl
  rintro rfl
  exact absent typed

theorem composable_letters : Letters Composable where
  vowel shape tone := .inr (.inl (isVowel_encodeVowel shape tone))
  stroke := .inr (.inr rfl)
  plain := .inl rfl

theorem composed_composable {raw : List Char} (ascii : ∀ key ∈ raw, isAscii key) :
    ∀ letter ∈ composed raw, Composable letter :=
  composed_all composable_letters fun key mem => .inl (ascii key mem)

end Compose
end ZonKey.Telex

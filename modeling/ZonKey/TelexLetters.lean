import ZonKey.RecoveryPolicy
import ZonKey.TelexCompose

set_option autoImplicit false

namespace ZonKey.Telex
open ZonKey.Observe ZonKey.Detect

section Deletions
variable {α : Type*} {p : α → Prop} {xs ys : List α} {x : α}

/-- `ys` is `xs` without some of its elements, each of them one with `p`. -/
inductive DeletesOnly (p : α → Prop) : List α → List α → Prop
  | nil : DeletesOnly p [] []
  | keep {xs ys : List α} (x : α) (rest : DeletesOnly p xs ys) : DeletesOnly p (x :: xs) (x :: ys)
  | delete {xs ys : List α} {x : α} (deletable : p x) (rest : DeletesOnly p xs ys) :
      DeletesOnly p (x :: xs) ys

theorem DeletesOnly.keep_last (rest : DeletesOnly p xs ys) (x : α) :
    DeletesOnly p (xs ++ [x]) (ys ++ [x]) := by
  induction rest with
  | nil => exact .keep x .nil
  | keep first _ ih => exact .keep first ih
  | delete deletable _ ih => exact .delete deletable ih

theorem DeletesOnly.delete_last (rest : DeletesOnly p xs ys) (deletable : p x) :
    DeletesOnly p (xs ++ [x]) ys := by
  induction rest with
  | nil => exact .delete deletable .nil
  | keep first _ ih => exact .keep first ih
  | delete earlier _ ih => exact .delete earlier ih

theorem DeletesOnly.sublist (rest : DeletesOnly p xs ys) : ys.Sublist xs := by
  induction rest with
  | nil => exact .slnil
  | keep first _ ih => exact ih.cons_cons first
  | delete _ _ ih => exact ih.cons _

end Deletions

section Letters

/-- The ASCII letter under the marks. -/
def VowelShape.plain : VowelShape → Char
  | .a | .abreve | .acirc => 'a'
  | .e | .ecirc => 'e'
  | .i => 'i'
  | .o | .ocirc | .ohorn => 'o'
  | .u | .uhorn => 'u'
  | .y => 'y'

def baseLetter (character : Char) : Char :=
  match decodeVowel character with
  | some (shape, _) => shape.plain
  | none => if character = 'đ' then 'd' else character

/-- The text with every accented vowel and đ as its plain letter. -/
def base (text : List Char) : List Char := text.map baseLetter

/-- The keys that can be used up by a shape or a tone. -/
def transformKeys : List Char := ['a', 'e', 'o', 'w', 'd', 'f', 's', 'r', 'x', 'j']

theorem toneAt_some {column : Nat} {tone : Tone} (some_tone : toneAt column = some tone) :
    column = tone.index := by
  unfold toneAt at some_tone
  split at some_tone <;> cases some_tone <;> rfl

theorem vowels_row : ∀ entry ∈ shapes.zip vowels.toList, ∀ tone : Tone,
    entry.2.get tone.index = encodeVowel entry.1 tone := by
  intro entry mem tone
  revert entry
  cases tone <;> decide

theorem encodeVowel_decodeVowel {character : Char} {shape : VowelShape} {tone : Tone}
    (vowel : decodeVowel character = some (shape, tone)) : encodeVowel shape tone = character := by
  obtain ⟨⟨row_shape, row⟩, mem, found⟩ := List.exists_of_findSome?_eq_some vowel
  simp only at found
  split at found
  · rename_i column at_column
    obtain ⟨row_tone, some_tone, same⟩ := Option.map_eq_some_iff.mp found
    cases same
    obtain ⟨bound, here, _⟩ := List.idxOf?_eq_some_iff.mp at_column
    cases toneAt_some some_tone
    exact (vowels_row _ mem tone).symm.trans here
  · cases found

theorem encodeVowel_ascii {shape : VowelShape} {tone : Tone}
    (ascii : isAscii (encodeVowel shape tone)) : encodeVowel shape tone = shape.plain := by
  revert ascii
  cases shape <;> cases tone <;> decide

theorem encodeVowel_vietnamese (shape : VowelShape) (tone : Tone) :
    isVietnameseLetter (encodeVowel shape tone) = !isAscii (encodeVowel shape tone) := by
  cases shape <;> cases tone <;> decide

theorem baseLetter_encodeVowel (shape : VowelShape) (tone : Tone) :
    baseLetter (encodeVowel shape tone) = shape.plain := by
  rw [baseLetter, decodeVowel_encodeVowel]

theorem baseLetter_ascii {character : Char} (ascii : isAscii character) :
    baseLetter character = character := by
  rw [baseLetter]
  split
  · rename_i shape tone vowel
    rw [← encodeVowel_decodeVowel vowel] at ascii ⊢
    exact (encodeVowel_ascii ascii).symm
  · refine if_neg ?_
    rintro rfl
    exact absurd ascii (by decide)

theorem isVietnameseLetter_ascii {character : Char} (ascii : isAscii character) :
    isVietnameseLetter character = false := by
  have small : character.toNat < 128 := of_decide_eq_true ascii
  simp only [isVietnameseLetter, Bool.or_eq_false_iff, decide_eq_false_iff_not]
  omega

theorem Composable.vietnamese {character : Char} (composable : Composable character) :
    isVietnameseLetter character = !isAscii character := by
  rcases composable with ascii | vowel | rfl
  · rw [isVietnameseLetter_ascii ascii, ascii]
    rfl
  · obtain ⟨⟨shape, tone⟩, decoded⟩ := Option.isSome_iff_exists.mp vowel
    rw [← encodeVowel_decodeVowel decoded]
    exact encodeVowel_vietnamese shape tone
  · decide

@[simp] theorem base_append (front back : List Char) :
    base (front ++ back) = base front ++ base back := List.map_append

@[simp] theorem base_length (text : List Char) : (base text).length = text.length :=
  List.length_map _

theorem base_setLast {output : List Char} {last letter : Char}
    (at_last : output.getLast? = some last) (same : baseLetter letter = baseLetter last) :
    base (setLast output letter) = base output := by
  obtain ⟨front, rfl⟩ := List.getLast?_eq_some_iff.mp at_last
  simp [setLast, base, same]

theorem map_set_same {β : Type*} {f : Char → β} {output : List Char} {index : Nat}
    {old letter : Char} (here : output[index]? = some old) (same : f letter = f old) :
    (output.set index letter).map f = output.map f := by
  obtain ⟨bound, rfl⟩ := List.getElem?_eq_some_iff.mp here
  have inside : index < (output.map f).length := by simpa using bound
  have kept : (output.map f).set index (output.map f)[index] = output.map f :=
    List.set_getElem_self _
  rw [List.getElem_map, ← same, ← List.map_set] at kept
  exact kept

theorem lastVowel_some {output : List Char} {index : Nat} {shape : VowelShape} {tone : Tone}
    (found : lastVowel output = some (index, shape, tone)) :
    output[index]? = some (encodeVowel shape tone) := by
  unfold lastVowel at found
  split at found
  · cases found
  · obtain ⟨⟨row, column⟩, vowel, same⟩ := Option.map_eq_some_iff.mp found
    obtain ⟨letter, here, decoded⟩ := Option.bind_eq_some_iff.mp vowel
    cases same
    rw [here, encodeVowel_decodeVowel decoded]

theorem requestedTone_transform {key : Char} {tone : Tone}
    (tone_key : requestedTone key = some tone) : key ∈ transformKeys := by
  unfold requestedTone at tone_key
  split at tone_key
  · decide
  · decide
  · decide
  · decide
  · decide
  · cases tone_key

/-- The shape a transition leads to. -/
def ShapeTransition.next : ShapeTransition → VowelShape
  | .replace next => next
  | .undo next => next

section Transitions
variable {key : Char} {shape next : VowelShape} {transition : ShapeTransition}

theorem shapeTransition_key (acts : shapeTransition key shape = some transition) :
    key ∈ ['a', 'e', 'o', 'w'] := by
  unfold shapeTransition at acts
  split at acts <;> cases acts <;> decide

theorem shapeTransition_plain (acts : shapeTransition key shape = some transition) :
    transition.next.plain = shape.plain := by
  unfold shapeTransition at acts
  split at acts <;> cases acts <;> rfl

theorem shapeTransition_undo (acts : shapeTransition key shape = some (.replace next)) :
    shapeTransition key next = some (.undo shape) := by
  unfold shapeTransition at acts
  split at acts <;> cases acts <;> rfl

theorem shape_key_transform (shape_key : key ∈ ['a', 'e', 'o', 'w']) : key ∈ transformKeys :=
  List.mem_append_left ['d', 'f', 's', 'r', 'x', 'j'] shape_key

end Transitions

theorem baseLetter_vowel {character : Char} {shape next : VowelShape} {tone new_tone : Tone}
    (vowel : decodeVowel character = some (shape, tone)) (same : next.plain = shape.plain) :
    baseLetter (encodeVowel next new_tone) = baseLetter character := by
  rw [← encodeVowel_decodeVowel vowel, baseLetter_encodeVowel, baseLetter_encodeVowel, same]

theorem base_tryShapeTransform (output : List Char) (key : Char) :
    (tryShapeTransform output key = (output, false)) ∨
      (tryShapeTransform output key).2 = true ∧
        (key ∈ transformKeys ∧ base (tryShapeTransform output key).1 = base output ∨
          base (tryShapeTransform output key).1 = base output ++ [baseLetter key]) := by
  unfold tryShapeTransform
  split
  · exact .inl rfl
  · rename_i last at_last
    split
    · rename_i stroke
      obtain ⟨rfl, rfl⟩ := stroke
      exact .inr ⟨rfl, .inl ⟨by decide, base_setLast at_last (by decide)⟩⟩
    · split
      · rename_i taken_back
        obtain ⟨rfl, rfl⟩ := taken_back
        refine .inr ⟨rfl, .inr ?_⟩
        rw [base_append, base_setLast at_last (by decide)]
        rfl
      · split
        · exact .inl rfl
        · rename_i shape tone vowel
          split
          · exact .inl rfl
          · rename_i next acts
            have same : next.plain = shape.plain := shapeTransition_plain acts
            exact .inr ⟨rfl, .inl ⟨shape_key_transform (shapeTransition_key acts),
              base_setLast at_last (baseLetter_vowel vowel same)⟩⟩
          · rename_i next acts
            have same : next.plain = shape.plain := shapeTransition_plain acts
            refine .inr ⟨rfl, .inr ?_⟩
            rw [base_append, base_setLast at_last (baseLetter_vowel vowel same)]
            rfl

theorem base_tryTone (output : List Char) (key : Char) :
    base (tryTone output key).1 = base output ∧
      ((tryTone output key).2 = true → key ∈ transformKeys) := by
  unfold tryTone
  split
  · exact ⟨rfl, nofun⟩
  · rename_i requested tone_key
    split
    · exact ⟨rfl, nofun⟩
    · rename_i index shape current found
      have same (tone : Tone) :
          base (output.set index (encodeVowel shape tone)) = base output := by
        refine map_set_same (lastVowel_some found) ?_
        rw [baseLetter_encodeVowel, baseLetter_encodeVowel]
      split
      · exact ⟨same _, nofun⟩
      · exact ⟨same _, fun _ => requestedTone_transform tone_key⟩

theorem base_composeKey (output : List Char) (key : Char) :
    key ∈ transformKeys ∧ base (composeKey output key) = base output ∨
      base (composeKey output key) = base output ++ [baseLetter key] := by
  simp only [composeKey]
  rcases base_tryShapeTransform output key with untouched | ⟨shaped, letters⟩
  · rw [untouched]
    obtain ⟨same, transform⟩ := base_tryTone output key
    simp only [Bool.false_eq_true, if_false]
    split
    · rename_i toned
      exact .inl ⟨transform toned, same⟩
    · right
      rw [base_append, same]
      rfl
  · rw [if_pos shaped]
    exact letters

theorem base_composed {raw : List Char} (ascii : ∀ key ∈ raw, isAscii key) :
    DeletesOnly (· ∈ transformKeys) raw (base (composed raw)) := by
  induction raw using List.reverseRecOn with
  | nil => exact .nil
  | append_singleton raw key ih =>
    have before := ih fun other mem => ascii other (List.mem_append_left _ mem)
    have typed : isAscii key = true := ascii key (List.mem_append_right _ List.mem_cons_self)
    rw [composed_concat]
    rcases base_composeKey (composed raw) key with ⟨transform, same⟩ | added
    · rw [same]
      exact before.delete_last transform
    · rw [added, baseLetter_ascii typed]
      exact before.keep_last key

theorem isVietnameseCandidate_composed {raw : List Char} (ascii : ∀ key ∈ raw, isAscii key) :
    isVietnameseCandidate (composed raw) ↔ ¬ ∀ letter ∈ composed raw, isAscii letter := by
  rw [isVietnameseCandidate, List.any_eq_true]
  constructor
  · rintro ⟨letter, mem, vietnamese⟩ all
    rw [(composed_composable ascii letter mem).vietnamese, all letter mem] at vietnamese
    cases vietnamese
  · intro not_all
    obtain ⟨letter, mem, not_ascii⟩ : ∃ letter ∈ composed raw, ¬ isAscii letter := by
      simpa using not_all
    refine ⟨letter, mem, ?_⟩
    rw [(composed_composable ascii letter mem).vietnamese]
    simpa using not_ascii

/-- Composing keeps the typed letters in their order, up to marks and used-up keys. -/
theorem compose_keeps_letters {raw : List Char} (ascii : ∀ key ∈ raw, isAscii key) :
    ∃ rendered, compose raw = .ok rendered ∧
      (∀ letter ∈ rendered, Composable letter) ∧
      rendered.length ≤ raw.length ∧
      DeletesOnly (· ∈ transformKeys) raw (base rendered) ∧
      (isVietnameseCandidate rendered ↔ ¬ ∀ letter ∈ rendered, isAscii letter) := by
  have letters := base_composed ascii
  refine ⟨composed raw, compose_ascii ascii, composed_composable ascii, ?_, letters,
    isVietnameseCandidate_composed ascii⟩
  rw [← base_length]
  exact letters.sublist.length_le

theorem compose_keeps_letters_dduwowcj :
    ∃ rendered, compose ['d', 'd', 'u', 'w', 'o', 'w', 'c', 'j'] = .ok rendered ∧
      (∀ letter ∈ rendered, Composable letter) ∧
      rendered.length ≤ 8 ∧
      DeletesOnly (· ∈ transformKeys) ['d', 'd', 'u', 'w', 'o', 'w', 'c', 'j'] (base rendered) ∧
      (isVietnameseCandidate rendered ↔ ¬ ∀ letter ∈ rendered, isAscii letter) :=
  compose_keeps_letters (by simp [isAscii])

end Letters

section Undo
variable {output : List Char} {key last : Char}

theorem setLast_length {output : List Char} {last : Char} (at_last : output.getLast? = some last)
    (letter : Char) : (setLast output letter).length = output.length := by
  obtain ⟨front, rfl⟩ := List.getLast?_eq_some_iff.mp at_last
  simp [setLast]

theorem setLast_setLast {output : List Char} {last : Char} (at_last : output.getLast? = some last)
    (letter : Char) : setLast (setLast output letter) last = output := by
  obtain ⟨front, rfl⟩ := List.getLast?_eq_some_iff.mp at_last
  simp [setLast]

theorem getLast?_setLast (output : List Char) (letter : Char) :
    (setLast output letter).getLast? = some letter := by
  simp [setLast]

theorem tryShapeTransform_undo {shape next : VowelShape} {tone : Tone}
    (at_last : output.getLast? = some (encodeVowel shape tone))
    (acts : shapeTransition key shape = some (.undo next)) :
    tryShapeTransform output key = (setLast output (encodeVowel next tone) ++ [key], true) := by
  have not_stroke : key ≠ 'd' := by
    rintro rfl
    exact absurd (shapeTransition_key acts) (by decide)
  unfold tryShapeTransform
  simp only [at_last, not_stroke, false_and, if_false, decodeVowel_encodeVowel, acts]

theorem tryShapeTransform_stroke_undo (at_last : output.getLast? = some 'đ') :
    tryShapeTransform output 'd' = (setLast output 'd' ++ ['d'], true) := by
  unfold tryShapeTransform
  simp only [at_last]
  rfl

theorem tryShapeTransform_tone {tone : Tone} (tone_key : requestedTone key = some tone) :
    tryShapeTransform output key = (output, false) := by
  have no_tone : ∀ shape_key ∈ ['a', 'e', 'o', 'w', 'd'], requestedTone shape_key = none := by
    simp [requestedTone]
  have no_shape : key ∉ ['a', 'e', 'o', 'w', 'd'] := by
    intro shape_key
    rw [no_tone key shape_key] at tone_key
    cases tone_key
  have not_stroke : key ≠ 'd' := by
    rintro rfl
    exact no_shape (by decide)
  have no_transition (shape : VowelShape) : shapeTransition key shape = none := by
    rw [Option.eq_none_iff_forall_ne_some]
    intro transition acts
    exact no_shape (List.mem_append_left ['d'] (shapeTransition_key acts))
  unfold tryShapeTransform
  split
  · rfl
  · simp only [not_stroke, false_and, if_false, no_transition]
    split <;> rfl

theorem composeKey_shape_undo (shaped : (tryShapeTransform output key).2 = true)
    (same : (tryShapeTransform output key).1.length = output.length) :
    composeKey (tryShapeTransform output key).1 key = output ++ [key] := by
  revert shaped same
  unfold tryShapeTransform
  split
  · exact nofun
  · rename_i last at_last
    split
    · rename_i stroke
      obtain ⟨rfl, rfl⟩ := stroke
      intro _ _
      rw [composeKey, tryShapeTransform_stroke_undo (getLast?_setLast output 'đ'),
        setLast_setLast at_last]
      rfl
    · split
      · intro _ same
        simp [setLast_length at_last] at same
      · split
        · exact nofun
        · rename_i shape tone vowel
          split
          · exact nofun
          · rename_i next acts
            intro _ _
            have undo := tryShapeTransform_undo (getLast?_setLast output (encodeVowel next tone))
              (shapeTransition_undo acts)
            rw [encodeVowel_decodeVowel vowel, setLast_setLast at_last] at undo
            rw [composeKey, undo]
            rfl
          · intro _ same
            simp [setLast_length at_last] at same

/-- Where the last vowel stands depends only on which letters are vowels. -/
theorem lastVowel_set {index : Nat} {shape : VowelShape} {current : Tone}
    (found : lastVowel output = some (index, shape, current)) (tone : Tone) :
    lastVowel (output.set index (encodeVowel shape tone)) = some (index, shape, tone) := by
  let isVowel : Char → Bool := fun letter => (decodeVowel letter).isSome
  have here := lastVowel_some found
  have kept : (output.set index (encodeVowel shape tone)).map isVowel = output.map isVowel := by
    refine map_set_same here ?_
    simp only [isVowel, decodeVowel_encodeVowel]
    rfl
  have same_place : (output.set index (encodeVowel shape tone)).reverse.findIdx? isVowel =
      output.reverse.findIdx? isVowel := by
    have flags := congrArg (fun flags => flags.reverse.findIdx? id) kept
    simpa only [← List.map_reverse, List.findIdx?_map, Function.id_comp] using flags
  unfold lastVowel at found
  split at found
  · cases found
  · rename_i fromEnd place
    obtain ⟨⟨_, _⟩, vowel, same⟩ := Option.map_eq_some_iff.mp found
    cases same
    have bound := (List.getElem?_eq_some_iff.mp here).1
    unfold lastVowel
    rw [same_place.trans place]
    simp only [List.length_set, List.getElem?_set_self bound, Option.bind_some,
      decodeVowel_encodeVowel, Option.map_some]

theorem composeKey_tone_undo {requested : Tone} {index : Nat} {shape : VowelShape}
    (tone_key : requestedTone key = some requested)
    (found : lastVowel output = some (index, shape, .none)) :
    composeKey (output.set index (encodeVowel shape requested)) key = output ++ [key] := by
  have back : (output.set index (encodeVowel shape requested)).set index
      (encodeVowel shape .none) = output := by
    obtain ⟨bound, here⟩ := List.getElem?_eq_some_iff.mp (lastVowel_some found)
    rw [List.set_set, ← here, List.set_getElem_self]
  have toned : tryTone (output.set index (encodeVowel shape requested)) key = (output, false) := by
    unfold tryTone
    simp only [tone_key, lastVowel_set found, if_true, back]
  rw [composeKey, tryShapeTransform_tone tone_key]
  simp only [toned]
  rfl

theorem composeFrom_append (output front back : List Char) :
    composeFrom output (front ++ back) =
      (composeFrom output front).bind fun output => composeFrom output back := by
  induction front generalizing output with
  | nil => rfl
  | cons character front ih =>
    rw [List.cons_append, composeFrom, composeFrom]
    split
    · rfl
    · exact ih _

/-- A key that added no letter was a shape key, or set the tone of the last vowel. -/
theorem composeKey_same_length (same : (composeKey output key).length = output.length) :
    (tryShapeTransform output key).2 = true ∧
        composeKey output key = (tryShapeTransform output key).1 ∨
      ∃ requested index shape current, requestedTone key = some requested ∧
        lastVowel output = some (index, shape, current) ∧ current ≠ requested ∧
        composeKey output key = output.set index (encodeVowel shape requested) := by
  by_cases shaped : (tryShapeTransform output key).2 = true
  · refine .inl ⟨shaped, ?_⟩
    rw [composeKey]
    exact if_pos shaped
  · have untouched := (base_tryShapeTransform output key).resolve_right fun used => shaped used.1
    right
    rw [composeKey, untouched] at same ⊢
    simp only [Bool.false_eq_true, if_false] at same ⊢
    unfold tryTone at same ⊢
    split at same
    · simp at same
    · rename_i requested tone_key
      split at same
      · simp at same
      · rename_i index shape current found
        split at same
        · simp at same
        · rename_i other
          refine ⟨requested, index, shape, current, tone_key, found, other, ?_⟩
          simp only [other, if_false, if_true]

/-- A key that only changed a letter, and no letter with a tone already, is undone by itself. -/
theorem compose_doubled_key {raw before after : List Char} {key : Char}
    (shown : compose raw = .ok before) (keyed : compose (raw ++ [key]) = .ok after)
    (acted : after.length = before.length)
    (toneless : (requestedTone key).isSome → ∀ (index : Nat) (letter : Char),
      before[index]? = some letter → after[index]? ≠ some letter →
        ∃ shape, decodeVowel letter = some (shape, .none)) :
    compose (raw ++ [key, key]) = .ok (before ++ [key]) := by
  have compose_more (back : List Char) : compose (raw ++ back) = composeFrom before back := by
    rw [compose, composeFrom_append, ← compose, shown]
    rfl
  rw [compose_more] at keyed ⊢
  by_cases ascii : isAscii key = true
  · simp only [composeFrom, ascii, Bool.not_true, Bool.false_eq_true, if_false] at keyed ⊢
    cases keyed
    refine congrArg Except.ok ?_
    rcases composeKey_same_length acted with
      ⟨shaped, result⟩ | ⟨requested, index, shape, current, tone_key, found, other, result⟩
    · rw [result] at acted ⊢
      exact composeKey_shape_undo shaped acted
    · have here := lastVowel_some found
      have bound := (List.getElem?_eq_some_iff.mp here).1
      have changed : (composeKey before key)[index]? ≠ some (encodeVowel shape current) := by
        rw [result, List.getElem?_set_self bound]
        intro same
        have same_letter := congrArg decodeVowel (Option.some.inj same)
        rw [decodeVowel_encodeVowel, decodeVowel_encodeVowel] at same_letter
        cases same_letter
        exact other rfl
      obtain ⟨_, no_tone⟩ := toneless (by rw [tone_key]; rfl) index _ here changed
      rw [decodeVowel_encodeVowel] at no_tone
      cases no_tone
      rw [result]
      exact composeKey_tone_undo tone_key found
  · simp only [composeFrom, ascii] at keyed
    cases keyed

theorem compose_doubled_key_tans :
    compose (['t', 'a', 'n'] ++ ['s', 's']) = .ok (['t', 'a', 'n'] ++ ['s']) := by
  refine @compose_doubled_key _ _ ['t', 'á', 'n'] 's' (by decide) (by decide) rfl ?_
  intro _ index letter here changed
  rcases index with _ | _ | _ | index
  · exact absurd here changed
  · cases here
    exact ⟨.a, by decide⟩
  · exact absurd here changed
  · cases here

end Undo
end ZonKey.Telex

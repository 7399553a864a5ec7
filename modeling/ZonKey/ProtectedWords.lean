import Mathlib.Data.List.DropRight
import ZonKey.DelimitedText
import ZonKey.RecoveryPolicy

set_option autoImplicit false

namespace ZonKey.Detect
open ZonKey.Observe

section Lists
variable {α : Type*} {front back start part : List α} {last : α}

theorem prefix_of_prefix_append (is_start : start ++ [last] <+: front ++ back)
    (outside : last ∉ back) : start ++ [last] <+: front := by
  rcases List.prefix_or_prefix_of_prefix is_start (List.prefix_append front back) with
    inside | ⟨more, longer⟩
  · exact inside
  · rw [← longer, List.prefix_append_right_inj] at is_start
    rcases List.eq_nil_or_concat' more with rfl | ⟨rest, final, rfl⟩
    · rw [← longer, List.append_nil]
    · have same : final = last := by
        rw [← List.append_assoc] at longer
        exact (List.append_inj_right' longer rfl |> List.singleton_inj.mp)
      exact absurd (is_start.subset (by simp [same])) outside

theorem infix_of_infix_append (is_part : part ++ [last] <:+: front ++ back)
    (outside : last ∉ back) : part ++ [last] <:+: front := by
  obtain ⟨before, after, split⟩ := is_part
  have is_start : before ++ part ++ [last] <+: front ++ back :=
    ⟨after, by simpa using split⟩
  obtain ⟨rest, ends⟩ := prefix_of_prefix_append is_start outside
  exact ⟨before, rest, by simpa using ends⟩

end Lists

section Words

/-- What was typed in front of a token, and the token: lower-case letters of which one is not a
hexadecimal digit, right after a character that is neither letter nor digit. -/
structure WordParts (before token : List Char) : Prop where
  lower : ∀ c ∈ token, isAsciiLowercase c
  letter : ∃ c ∈ token, isAsciiHexdigit c = false
  ascii : ∀ c ∈ before, isAscii c ∧ isWhitespace c = false ∧ isAsciiUppercase c = false
  ends : ∀ some_before : before ≠ [], isAsciiAlphanumeric (before.getLast some_before) = false

def Dotted (text : List Char) : Prop :=
  ∃ front, text = front ++ ['.'] ∧ (front.splitOn '.').all isDomainLabel

/-- The text in front of a token that makes the whole word a protected one. -/
inductive Protecting (before token : List Char) : Prop
  | hyphen (mem : '-' ∈ before)
  | underscore (mem : '_' ∈ before)
  | backslash (mem : '\\' ∈ before)
  | rooted (slash : startsWith before ['/'] ∨ startsWith before ['.', '/'] ∨
      startsWith before ['.', '.', '/'])
  | drive (windows : looksLikeWindowsPath before)
  | url (scheme : containsText before [':', '/', '/'] ∨ startsWith before "mailto:".toList ∨
      startsWith before "urn:".toList)
  | address (front domain : List Char) (cut : splitOnce '@' before = some (front, domain))
    (named : front ≠ []) (dotted : Dotted domain)
  | release (plus : '+' ∈ before) (version : looksLikeSemver before)
  | secret (long : 24 ≤ before.length + token.length) (digit : before.any isAsciiDigit)
  | domain (dotted : Dotted before)

variable {before token : List Char}

theorem WordParts.not_mem (h : WordParts before token) {c : Char}
    (other : isAsciiLowercase c = false) : c ∉ token := by
  intro mem
  rw [h.lower c mem] at other
  cases other

theorem WordParts.mem_word_iff (h : WordParts before token) {c : Char}
    (other : isAsciiLowercase c = false) : c ∈ before ++ token ↔ c ∈ before := by
  rw [List.mem_append, or_iff_left (h.not_mem other)]

theorem WordParts.startsWith_word (h : WordParts before token) (start : List Char) {c : Char}
    (other : isAsciiLowercase c = false) :
    startsWith (before ++ token) (start ++ [c]) = startsWith before (start ++ [c]) := by
  rw [Bool.eq_iff_iff]
  simp only [startsWith, List.isPrefixOf_iff_prefix]
  exact ⟨fun is_start => prefix_of_prefix_append is_start (h.not_mem other),
    List.prefix_append_of_prefix⟩

theorem WordParts.containsText_word (h : WordParts before token) (part : List Char) {c : Char}
    (other : isAsciiLowercase c = false) :
    containsText (before ++ token) (part ++ [c]) = containsText before (part ++ [c]) := by
  simp only [containsText, decide_eq_decide]
  exact ⟨fun is_part => infix_of_infix_append is_part (h.not_mem other),
    fun inside => inside.trans (List.prefix_append before token).isInfix⟩

theorem lowercase_ascii {c : Char} (lower : isAsciiLowercase c) :
    isAscii c ∧ isWhitespace c = false ∧ isAsciiUppercase c = false ∧ isAsciiDigit c = false ∧
      isAsciiAlphanumeric c := by
  have alphanumeric : isAsciiAlphanumeric c := by
    simp [isAsciiAlphanumeric, isAsciiAlphabetic, lower]
  have all : ∀ n < 128, isAsciiLowercase (Char.ofNat n) →
      isWhitespace (Char.ofNat n) = false ∧ isAsciiUppercase (Char.ofNat n) = false ∧
        isAsciiDigit (Char.ofNat n) = false := by decide
  have ascii := isAscii_of_alphanumeric alphanumeric
  obtain ⟨space, upper, digit⟩ := forall_ascii (P := fun c => isAsciiLowercase c →
    isWhitespace c = false ∧ isAsciiUppercase c = false ∧ isAsciiDigit c = false) all ascii lower
  exact ⟨ascii, space, upper, digit, alphanumeric⟩

theorem WordParts.word_ascii (h : WordParts before token) :
    ∀ c ∈ before ++ token, isAscii c ∧ isWhitespace c = false ∧ isAsciiUppercase c = false := by
  intro c mem
  rcases List.mem_append.mp mem with front | back
  · exact h.ascii c front
  · obtain ⟨ascii, space, upper, _⟩ := lowercase_ascii (h.lower c back)
    exact ⟨ascii, space, upper⟩

theorem WordParts.lowered (h : WordParts before token) :
    toAsciiLowercaseText (before ++ token) = before ++ token :=
  toAsciiLowercaseText_eq_self fun c mem => (h.word_ascii c mem).2.2

theorem looksLikeWindowsPath_slash {text : List Char} (windows : looksLikeWindowsPath text) :
    text[2]? = some '\\' ∨ text[2]? = some '/' := by
  unfold looksLikeWindowsPath at windows
  split at windows
  · simp only [Bool.and_eq_true, Bool.or_eq_true, decide_eq_true_eq] at windows
    rcases windows.2 with rfl | rfl
    · exact .inl rfl
    · exact .inr rfl
  · cases windows

theorem WordParts.windowsPath_word (h : WordParts before token) :
    looksLikeWindowsPath (before ++ token) = looksLikeWindowsPath before := by
  match split : before with
  | _ :: _ :: _ :: _ => rfl
  | [] | [_] | [_, _] =>
    rw [← split] at h ⊢
    have few : before.length ≤ 2 := by simp [split]
    have long : looksLikeWindowsPath before = false := by rw [split]; rfl
    rw [long, Bool.eq_false_iff]
    intro windows
    have third := looksLikeWindowsPath_slash windows
    rw [List.getElem?_append_right few] at third
    rcases third with slash | slash
    · exact h.not_mem (by decide) (List.mem_of_getElem? slash)
    · exact h.not_mem (by decide) (List.mem_of_getElem? slash)

theorem WordParts.letter_piece (h : WordParts before token) (separator : Char)
    (other : isAsciiLowercase separator = false) :
    ∃ piece ∈ (before ++ token).splitOn separator,
      ∃ c ∈ piece, isAsciiLowercase c ∧ isAsciiHexdigit c = false := by
  obtain ⟨c, mem, letter⟩ := h.letter
  have apart : c ≠ separator := by
    rintro rfl
    exact h.not_mem other mem
  obtain ⟨piece, is_piece, inside⟩ :=
    DelimitedText.exists_mem_splitOn (List.mem_append_right before mem) apart
  exact ⟨piece, is_piece, c, inside, h.lower c mem, letter⟩

theorem parsesAsU8_digits {text : List Char} (number : parsesAsU8 text) {c : Char}
    (mem : c ∈ text) (sign : c ≠ '+') : isAsciiDigit c := by
  simp only [parsesAsU8, Bool.and_eq_true, List.all_eq_true] at number
  refine number.1.2 c ?_
  unfold stripPrefix
  split
  · rename_i starts
    obtain ⟨rest, rfl⟩ := List.isPrefixOf_iff_prefix.mp starts
    simpa [sign] using mem
  · exact mem

theorem not_digit_of_not_hexdigit {c : Char} (letter : isAsciiHexdigit c = false) :
    isAsciiDigit c = false := by
  simp only [isAsciiHexdigit, Bool.or_eq_false_iff] at letter
  exact letter.1.1

theorem WordParts.ipv4_false (h : WordParts before token) :
    looksLikeIpv4 (before ++ token) = false := by
  rw [Bool.eq_false_iff]
  intro matched
  obtain ⟨piece, is_piece, c, inside, lower, letter⟩ := h.letter_piece '.' rfl
  simp only [looksLikeIpv4, Bool.and_eq_true, List.all_eq_true] at matched
  have digit := parsesAsU8_digits (matched.2 piece is_piece).2 inside (by rintro rfl; cases lower)
  rw [not_digit_of_not_hexdigit letter] at digit
  cases digit

theorem WordParts.ipv6_false (h : WordParts before token) :
    looksLikeIpv6 (before ++ token) = false := by
  rw [Bool.eq_false_iff]
  intro matched
  obtain ⟨c, mem, letter⟩ := h.letter
  simp only [looksLikeIpv6, Bool.and_eq_true, List.all_eq_true, Bool.or_eq_true,
    decide_eq_true_eq] at matched
  rcases matched.1.2 c (List.mem_append_right before mem) with digit | rfl
  · rw [letter] at digit
    cases digit
  · exact h.not_mem rfl mem

theorem WordParts.uuid_false (h : WordParts before token) :
    looksLikeUuid (before ++ token) = false := by
  rw [Bool.eq_false_iff]
  intro matched
  obtain ⟨piece, is_piece, c, inside, _, letter⟩ := h.letter_piece '-' rfl
  simp only [looksLikeUuid, Bool.and_eq_true, List.all_eq_true] at matched
  have digit := matched.2 piece is_piece c inside
  rw [letter] at digit
  cases digit

theorem WordParts.internalUppercase_false (h : WordParts before token) :
    hasInternalUppercase (before ++ token) = false := by
  rw [Bool.eq_false_iff]
  intro matched
  simp only [hasInternalUppercase, Bool.and_eq_true, List.any_eq_true] at matched
  obtain ⟨c, mem, upper⟩ := matched.2
  rw [(h.word_ascii c (List.mem_of_mem_drop mem)).2.2] at upper
  cases upper

theorem utf8Length_ascii {text : List Char} (ascii : ∀ c ∈ text, isAscii c) :
    utf8Length text = text.length := by
  have all : ∀ n < 128, (Char.ofNat n).utf8Size = 1 := by decide
  induction text with
  | nil => rfl
  | cons c rest ih =>
    have one : c.utf8Size = 1 :=
      forall_ascii (P := fun c => c.utf8Size = 1) all (ascii c List.mem_cons_self)
    have others := ih fun other mem => ascii other (List.mem_cons_of_mem _ mem)
    simp only [utf8Length, List.map_cons, List.sum_cons, one, List.length_cons] at others ⊢
    omega

theorem WordParts.token_ne_nil (h : WordParts before token) : token ≠ [] := by
  rintro rfl
  obtain ⟨_, mem, _⟩ := h.letter
  cases mem

theorem WordParts.ends_other (h : WordParts before token) (some_before : before ≠ []) :
    ∃ front c, before = front ++ [c] ∧ isAsciiAlphanumeric c = false :=
  ⟨before.dropLast, before.getLast some_before, (List.dropLast_append_getLast some_before).symm,
    h.ends some_before⟩

theorem WordParts.secretClasses_word (h : WordParts before token) (some_before : before ≠ []) :
    secretClasses (before ++ token) = [true, false, before.any isAsciiDigit, true] := by
  obtain ⟨c, mem, _⟩ := h.letter
  obtain ⟨front, mark, split, other⟩ := h.ends_other some_before
  have lower : (before ++ token).any isAsciiLowercase = true :=
    List.any_eq_true.mpr ⟨c, List.mem_append_right _ mem, h.lower c mem⟩
  have upper : (before ++ token).any isAsciiUppercase = false := by
    rw [List.any_eq_false]
    intro c mem
    simp [(h.word_ascii c mem).2.2]
  have digit : (before ++ token).any isAsciiDigit = before.any isAsciiDigit := by
    have none : token.any isAsciiDigit = false := by
      rw [List.any_eq_false]
      intro c mem
      simp [(lowercase_ascii (h.lower c mem)).2.2.2.1]
    rw [List.any_append, none, Bool.or_false]
  have marked : ((before ++ token).any fun c => !isAsciiAlphanumeric c) = true :=
    List.any_eq_true.mpr ⟨mark, by simp [split], by simp [other]⟩
  rw [secretClasses, lower, upper, digit, marked]

theorem WordParts.secret_iff (h : WordParts before token) (some_before : before ≠ []) :
    looksLikeSecret (before ++ token) ↔
      24 ≤ before.length + token.length ∧ before.any isAsciiDigit := by
  have key : startsWith (before ++ token) ['A', 'K', 'I', 'A'] = false := by
    refine startsWith_false_of_not_mem List.mem_cons_self fun mem => ?_
    exact absurd (h.word_ascii 'A' mem).2.2 (by decide)
  have ascii : (before ++ token).all isAscii = true :=
    List.all_eq_true.mpr fun c mem => (h.word_ascii c mem).1
  have spaces : (before ++ token).any isWhitespace = false := by
    rw [List.any_eq_false]
    intro c mem
    simp [(h.word_ascii c mem).2.1]
  have length : utf8Length (before ++ token) = before.length + token.length := by
    rw [utf8Length_ascii fun c mem => (h.word_ascii c mem).1, List.length_append]
  simp only [looksLikeSecret, key, ascii, spaces, length, h.secretClasses_word some_before]
  cases before.any isAsciiDigit <;> simp

theorem mem_stripPrefix {start text : List Char} {c : Char} (mem : c ∈ text) (other : c ∉ start) :
    c ∈ (stripPrefix start text).getD text := by
  unfold stripPrefix
  split
  · rename_i starts
    obtain ⟨rest, rfl⟩ := List.isPrefixOf_iff_prefix.mp starts
    rw [List.drop_left]
    exact (List.mem_append.mp mem).resolve_left other
  · exact mem

theorem WordParts.hexOrHash_false (h : WordParts before token) (some_before : before ≠ []) :
    looksLikeHexOrHash (before ++ token) = false := by
  rw [Bool.eq_false_iff]
  intro matched
  obtain ⟨front, mark, split, other⟩ := h.ends_other some_before
  have inside : mark ∈ (stripPrefix ['0', 'x'] (before ++ token)).getD (before ++ token) := by
    refine mem_stripPrefix (by simp [split]) ?_
    simp only [List.mem_cons, List.not_mem_nil, or_false]
    rintro (rfl | rfl) <;> cases other
  simp only [looksLikeHexOrHash, Bool.and_eq_true, List.all_eq_true] at matched
  have hex := matched.1.2 mark inside
  have all : ∀ n < 128, isAsciiHexdigit (Char.ofNat n) → isAsciiAlphanumeric (Char.ofNat n) := by
    decide
  have ascii := (h.ascii mark (by simp [split])).1
  have letter := forall_ascii (P := fun c => isAsciiHexdigit c → isAsciiAlphanumeric c) all ascii hex
  rw [other] at letter
  cases letter

theorem stripPrefix_subset (start text : List Char) : (stripPrefix start text).getD text ⊆ text := by
  unfold stripPrefix
  split
  · exact List.drop_subset _ _
  · exact List.Subset.refl text

def isCoreCharacter (c : Char) : Bool := c ≠ '-' && c ≠ '+'

theorem looksLikeSemver_core (text : List Char) :
    looksLikeSemver text =
      let parts := (((stripPrefix ['v'] text).getD text).takeWhile isCoreCharacter).splitOn '.'
      decide (parts.length = 3) && parts.all fun part => !part.isEmpty && part.all isAsciiDigit :=
  rfl

theorem stripPrefix_append {text rest : List Char} {c : Char} (some_text : text ≠ []) :
    (stripPrefix [c] (text ++ rest)).getD (text ++ rest) =
      (stripPrefix [c] text).getD text ++ rest := by
  obtain ⟨first, others, rfl⟩ := List.exists_cons_of_ne_nil some_text
  unfold stripPrefix startsWith
  by_cases same : c = first
  · simp [List.isPrefixOf, same]
  · simp [List.isPrefixOf, same]

theorem takeWhile_append_stop (p : Char → Bool) {text : List Char} (rest : List Char) {stop : Char}
    (mem : stop ∈ text) (stops : p stop = false) :
    (text ++ rest).takeWhile p = text.takeWhile p := by
  induction text with
  | nil => cases mem
  | cons c text ih =>
    rw [List.cons_append, List.takeWhile_cons, List.takeWhile_cons]
    split
    · rename_i passes
      have later : stop ∈ text := by
        rcases List.mem_cons.mp mem with rfl | later
        · rw [stops] at passes
          cases passes
        · exact later
      rw [ih later]
    · rfl

theorem dropWhile_append_stop (p : Char → Bool) {text : List Char} (rest : List Char) {stop : Char}
    (mem : stop ∈ text) (stops : p stop = false) :
    (text ++ rest).dropWhile p = text.dropWhile p ++ rest := by
  induction text with
  | nil => cases mem
  | cons c text ih =>
    rw [List.cons_append, List.dropWhile_cons, List.dropWhile_cons]
    split
    · rename_i passes
      have later : stop ∈ text := by
        rcases List.mem_cons.mp mem with rfl | later
        · rw [stops] at passes
          cases passes
        · exact later
      rw [ih later]
    · rfl

theorem WordParts.semver_iff (h : WordParts before token) (plain : '-' ∉ before) :
    looksLikeSemver (before ++ token) ↔ '+' ∈ before ∧ looksLikeSemver before := by
  by_cases plus : '+' ∈ before
  · have some_before : before ≠ [] := List.ne_nil_of_mem plus
    have stop : '+' ∈ (stripPrefix ['v'] before).getD before := mem_stripPrefix plus (by decide)
    rw [and_iff_right plus, looksLikeSemver_core, looksLikeSemver_core,
      stripPrefix_append some_before, takeWhile_append_stop isCoreCharacter token stop rfl]
  · refine ⟨fun matched => ?_, fun both => absurd both.1 plus⟩
    -- the whole word is the core, so its letters stand among the numbers
    rw [looksLikeSemver_core] at matched
    have core : ∀ c ∈ (stripPrefix ['v'] (before ++ token)).getD (before ++ token),
        isCoreCharacter c := by
      intro c mem
      have inside := stripPrefix_subset _ _ mem
      simp only [isCoreCharacter, Bool.and_eq_true, decide_eq_true_eq]
      constructor <;> rintro rfl
      · exact plain ((h.mem_word_iff rfl).mp inside)
      · exact plus ((h.mem_word_iff rfl).mp inside)
    rw [List.takeWhile_eq_self_iff.mpr core] at matched
    simp only [Bool.and_eq_true, decide_eq_true_eq, List.all_eq_true] at matched
    by_cases some_before : before = []
    · subst some_before
      have dotless : '.' ∉ (stripPrefix ['v'] ([] ++ token)).getD ([] ++ token) := fun mem =>
        h.not_mem rfl (stripPrefix_subset _ _ mem)
      have single := matched.1
      rw [List.splitOn_eq_singleton dotless] at single
      cases single
    · obtain ⟨c, mem, letter⟩ := h.letter
      have apart : c ≠ '.' := by
        rintro rfl
        exact h.not_mem rfl mem
      rw [stripPrefix_append some_before] at matched
      obtain ⟨part, is_part, inside⟩ := DelimitedText.exists_mem_splitOn
        (List.mem_append_right ((stripPrefix ['v'] before).getD before) mem) apart
      have digit := (matched.2 part is_part).2 c inside
      rw [not_digit_of_not_hexdigit letter] at digit
      cases digit

theorem isDomainLabel_token (h : WordParts before token) : isDomainLabel token := by
  have hyphen : '-' ∉ token := h.not_mem rfl
  have first : token.head? ≠ some '-' := fun is => hyphen (List.mem_of_head? is)
  have last : token.getLast? ≠ some '-' := fun is => hyphen (List.mem_of_getLast? is)
  have all : ∀ c ∈ token, isAsciiAlphanumeric c := fun c mem =>
    (lowercase_ascii (h.lower c mem)).2.2.2.2
  simp only [isDomainLabel, List.isEmpty_eq_false_iff.mpr h.token_ne_nil, Bool.not_false,
    Bool.true_and, Bool.and_eq_true, decide_eq_true_eq, List.all_eq_true, Bool.or_eq_true]
  exact ⟨⟨first, last⟩, fun c mem => .inl (all c mem)⟩

theorem WordParts.splitOn_dot (h : WordParts before token) (front : List Char) :
    (front ++ ['.'] ++ token).splitOn '.' = front.splitOn '.' ++ [token] := by
  rw [List.append_assoc, List.singleton_append, List.splitOn_append_cons_self,
    List.splitOn_eq_singleton (h.not_mem rfl)]

theorem WordParts.domain_iff (h : WordParts before token) (plain : '-' ∉ before) :
    looksLikeDomain (before ++ token) ↔ Dotted before := by
  constructor
  · intro matched
    simp only [looksLikeDomain, Bool.and_eq_true, decide_eq_true_eq] at matched
    rcases List.eq_nil_or_concat' before with rfl | ⟨front, mark, rfl⟩
    · have single : token.splitOn '.' = [token] := List.splitOn_eq_singleton (h.not_mem rfl)
      rw [List.nil_append, single] at matched
      simp at matched
    · have other : isAsciiAlphanumeric mark = false := by simpa using h.ends (by simp)
      have dot : mark = '.' := by
        by_contra apart
        obtain ⟨label, is_label, inside⟩ := DelimitedText.exists_mem_splitOn
          (List.mem_append_left token (List.mem_append_right front (List.mem_singleton_self mark))) apart
        have valid := List.all_eq_true.mp matched.1.2 label is_label
        simp only [isDomainLabel, Bool.and_eq_true, List.all_eq_true, Bool.or_eq_true,
          decide_eq_true_eq] at valid
        rcases valid.2 mark inside with letter | rfl
        · rw [other] at letter
          cases letter
        · simp at plain
      subst dot
      rw [h.splitOn_dot, List.all_append] at matched
      exact ⟨front, rfl, ((Bool.and_eq_true _ _).mp matched.1.2).1⟩
  · rintro ⟨front, rfl, labels⟩
    obtain ⟨c, mem, _⟩ := h.letter
    have letters : token.any isAsciiAlphabetic = true :=
      List.any_eq_true.mpr ⟨c, mem, by simp [isAsciiAlphabetic, h.lower c mem]⟩
    have some_label := List.length_pos_of_ne_nil (List.splitOn_ne_nil '.' front)
    simp only [looksLikeDomain, h.splitOn_dot, List.all_append, labels, List.all_cons, List.all_nil,
      isDomainLabel_token h, List.length_append, List.length_singleton, List.getLast?_concat,
      Option.any_some, letters, Bool.and_true, decide_eq_true_eq]
    omega

theorem WordParts.of_suffix (h : WordParts before token) {rest : List Char}
    (is_suffix : rest <:+ before) : WordParts rest token where
  lower := h.lower
  letter := h.letter
  ascii c mem := h.ascii c (is_suffix.subset mem)
  ends some_rest := by
    obtain ⟨front, rfl⟩ := is_suffix
    have last := h.ends (List.append_ne_nil_of_right_ne_nil front some_rest)
    rwa [List.getLast_append_of_ne_nil _ some_rest] at last

theorem splitOnce_append {separator : Char} {text rest : List Char} (mem : separator ∈ text) :
    splitOnce separator (text ++ rest) =
      (splitOnce separator text).map fun halves => (halves.1, halves.2 ++ rest) := by
  have stops : (fun c => decide (c ≠ separator)) separator = false := by simp
  have some_rest : 1 ≤ (text.dropWhile fun c => decide (c ≠ separator)).length := by
    rw [Nat.one_le_iff_ne_zero, Ne, List.length_eq_zero_iff, List.dropWhile_eq_nil_iff]
    intro all
    exact Bool.false_ne_true (stops.symm.trans (all separator mem))
  have taken := takeWhile_append_stop (fun c => decide (c ≠ separator)) rest mem stops
  have dropped := dropWhile_append_stop (fun c => decide (c ≠ separator)) rest mem stops
  simp only [splitOnce, mem, List.mem_append_left, if_true, Option.map_some, taken, dropped,
    List.drop_append_of_le_length some_rest]

theorem splitOnce_suffix {separator : Char} {text front rest : List Char}
    (cut : splitOnce separator text = some (front, rest)) : rest <:+ text := by
  unfold splitOnce at cut
  split at cut
  · cases cut
    exact (List.drop_suffix 1 _).trans (List.dropWhile_suffix _)
  · cases cut

theorem WordParts.email_iff (h : WordParts before token) (plain : '-' ∉ before) :
    looksLikeEmail (before ++ token) ↔ ∃ front domain, splitOnce '@' before = some (front, domain) ∧
      front ≠ [] ∧ Dotted domain := by
  by_cases mem : '@' ∈ before
  · rw [looksLikeEmail, splitOnce_append mem]
    cases cut : splitOnce '@' before with
    | none => simp
    | some halves =>
      obtain ⟨front, domain⟩ := halves
      have is_suffix := splitOnce_suffix cut
      have dotted := (h.of_suffix is_suffix).domain_iff fun hyphen =>
        plain (is_suffix.subset hyphen)
      simp [dotted]
  · have outside : '@' ∉ before ++ token := fun inside => mem ((h.mem_word_iff rfl).mp inside)
    simp [looksLikeEmail, splitOnce, mem, outside]

theorem protecting_nil (token : List Char) : ¬ Protecting [] token := by
  intro protecting
  cases protecting with
  | hyphen mem => cases mem
  | underscore mem => cases mem
  | backslash mem => cases mem
  | rooted slash => rcases slash with is | is | is <;> cases is
  | drive windows => cases windows
  | url scheme => rcases scheme with is | is | is <;> revert is <;> decide
  | address front domain cut => cases cut
  | release plus => cases plus
  | secret _ digit => cases digit
  | domain dotted =>
    obtain ⟨front, split, _⟩ := dotted
    simp at split

/-- A word is unprotected exactly if its token is and nothing in front of the token protects it. -/
theorem WordParts.unprotected_iff (h : WordParts before token)
    (plain : classifyNeverTransform token = none) :
    classifyNeverTransform (before ++ token) = none ↔ ¬ Protecting before token := by
  by_cases some_before : before = []
  · subst some_before
    simpa [protecting_nil] using plain
  · have letters : (before ++ token).any isAsciiAlphabetic = true := by
      obtain ⟨c, mem, _⟩ := h.letter
      exact List.any_eq_true.mpr
        ⟨c, List.mem_append_right _ mem, by simp [isAsciiAlphabetic, h.lower c mem]⟩
    have url : containsText (before ++ token) [':', '/', '/'] =
        containsText before [':', '/', '/'] := h.containsText_word [':', '/'] rfl
    have mailto : startsWith (before ++ token) "mailto:".toList =
        startsWith before "mailto:".toList := h.startsWith_word "mailto".toList rfl
    have urn : startsWith (before ++ token) "urn:".toList =
        startsWith before "urn:".toList := h.startsWith_word "urn".toList rfl
    have hyphen : startsWith (before ++ token) ['-'] = startsWith before ['-'] :=
      h.startsWith_word [] rfl
    have slash : startsWith (before ++ token) ['/'] = startsWith before ['/'] :=
      h.startsWith_word [] rfl
    have dot : startsWith (before ++ token) ['.', '/'] = startsWith before ['.', '/'] :=
      h.startsWith_word ['.'] rfl
    have dots : startsWith (before ++ token) ['.', '.', '/'] = startsWith before ['.', '.', '/'] :=
      h.startsWith_word ['.', '.'] rfl
    rw [classifyNeverTransform_none_iff (List.append_ne_nil_of_left_ne_nil some_before token),
      h.lowered, h.windowsPath_word, url, mailto, urn, hyphen, slash, dot, dots,
      h.mem_word_iff (c := '\\') rfl, h.mem_word_iff (c := '_') rfl, h.mem_word_iff (c := '-') rfl,
      letters]
    constructor
    · rintro ⟨⟨no_url, no_mailto, no_urn⟩, no_email, ⟨_, no_slash, no_dot, no_dots, no_drive,
        no_backslash⟩, _, no_semver, _, _, no_secret, no_domain, no_underscore, no_hyphen, _⟩
      have plain_before : '-' ∉ before := fun mem => Bool.false_ne_true (no_hyphen mem).symm
      intro protecting
      cases protecting with
      | hyphen mem => exact plain_before mem
      | underscore mem => exact no_underscore mem
      | backslash mem => exact no_backslash mem
      | rooted rooted => simp [no_slash, no_dot, no_dots] at rooted
      | drive windows => exact Bool.false_ne_true (no_drive.symm.trans windows)
      | url scheme =>
        rw [no_url, no_mailto, no_urn] at scheme
        simp at scheme
      | address front domain cut named dotted =>
        exact Bool.false_ne_true (no_email.symm.trans
          ((h.email_iff plain_before).mpr ⟨front, domain, cut, named, dotted⟩))
      | release plus version =>
        exact Bool.false_ne_true (no_semver.symm.trans
          ((h.semver_iff plain_before).mpr ⟨plus, version⟩))
      | secret long digit =>
        exact Bool.false_ne_true (no_secret.symm.trans
          ((h.secret_iff some_before).mpr ⟨long, digit⟩))
      | domain dotted =>
        exact Bool.false_ne_true (no_domain.symm.trans ((h.domain_iff plain_before).mpr dotted))
    · intro free
      have plain_before : '-' ∉ before := fun mem => free (.hyphen mem)
      have option : startsWith before ['-'] = false :=
        startsWith_false_of_not_mem List.mem_cons_self plain_before
      refine ⟨⟨?_, ?_, ?_⟩, ?_, ⟨option, ?_, ?_, ?_, ?_, ?_⟩, ⟨h.ipv4_false, h.ipv6_false⟩, ?_,
        h.uuid_false, h.hexOrHash_false some_before, ?_, ?_, ?_, fun mem => absurd mem plain_before,
        h.internalUppercase_false⟩
      · exact Bool.eq_false_iff.mpr fun is => free (.url (.inl is))
      · exact Bool.eq_false_iff.mpr fun is => free (.url (.inr (.inl is)))
      · exact Bool.eq_false_iff.mpr fun is => free (.url (.inr (.inr is)))
      · refine Bool.eq_false_iff.mpr fun is => ?_
        obtain ⟨front, domain, cut, named, dotted⟩ := (h.email_iff plain_before).mp is
        exact free (.address front domain cut named dotted)
      · exact Bool.eq_false_iff.mpr fun is => free (.rooted (.inl is))
      · exact Bool.eq_false_iff.mpr fun is => free (.rooted (.inr (.inl is)))
      · exact Bool.eq_false_iff.mpr fun is => free (.rooted (.inr (.inr is)))
      · exact Bool.eq_false_iff.mpr fun is => free (.drive is)
      · exact fun mem => free (.backslash mem)
      · refine Bool.eq_false_iff.mpr fun is => ?_
        obtain ⟨plus, version⟩ := (h.semver_iff plain_before).mp is
        exact free (.release plus version)
      · refine Bool.eq_false_iff.mpr fun is => ?_
        obtain ⟨long, digit⟩ := (h.secret_iff some_before).mp is
        exact free (.secret long digit)
      · exact Bool.eq_false_iff.mpr fun is => free (.domain ((h.domain_iff plain_before).mp is))
      · exact fun mem => free (.underscore mem)

end Words
end ZonKey.Detect

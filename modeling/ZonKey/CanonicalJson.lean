import Mathlib.Data.List.Induction
import Mathlib.Data.List.Nodup
import ZonKey.HostAdapter
import ZonKey.JsonReading

set_option autoImplicit false

namespace ZonKey.Host

def isDefined : JsValue → Bool
  | .undefined => false
  | _ => true

/-- The keys of an object whose value is not `undefined`. -/
def definedKeys (entries : List (JsString × JsValue)) : List JsString :=
  (entries.filter fun entry => isDefined entry.2).map Prod.fst

def IsDouble (value : Rat) : Prop :=
  ∃ (significand : Int) (exponent : Nat), significand.natAbs < 2 ^ 53 ∧
    (exponent ≤ 971 ∧ value = ((significand * (2 ^ exponent : Nat) : Int) : Rat) ∨
      exponent ≤ 1074 ∧ value = mkRat significand (2 ^ exponent))

/-- Strings, booleans, `null`, finite numbers, arrays of plain values, and objects whose defined
values are plain. -/
inductive Plain : JsValue → Prop
  | null : Plain .null
  | bool (value : Bool) : Plain (.bool value)
  | number {value : Rat} (double : IsDouble value) : Plain (.number (.finite value))
  | string (value : JsString) : Plain (.string value)
  | array {items : List JsValue} (all : ∀ item ∈ items, Plain item) : Plain (.array items)
  | object {entries : List (JsString × JsValue)} (distinct : (entries.map Prod.fst).Nodup)
      (all : ∀ entry ∈ entries, isDefined entry.2 → Plain entry.2) : Plain (.object entries)

/-- Equal up to the order of keys and keys that are `undefined`. -/
inductive Same : JsValue → JsValue → Prop
  | null : Same .null .null
  | bool (value : Bool) : Same (.bool value) (.bool value)
  | number (value : JsNumber) : Same (.number value) (.number value)
  | string (value : JsString) : Same (.string value) (.string value)
  | array {left right : List JsValue} (length : left.length = right.length)
      (items : ∀ (i : Nat) (a b : JsValue), left[i]? = some a → right[i]? = some b → Same a b) :
      Same (.array left) (.array right)
  | object {left right : List (JsString × JsValue)}
      (keys : ∀ key, key ∈ definedKeys left ↔ key ∈ definedKeys right)
      (values : ∀ (key : JsString) (a b : JsValue), (key, a) ∈ left → (key, b) ∈ right →
        isDefined a → isDefined b → Same a b) :
      Same (.object left) (.object right)

inductive Announced where
  | null
  | yes
  | no
  | number
  | string
  | array
  | object
  | nothing
  deriving DecidableEq, Repr

def isNumberUnit (unit : UInt16) : Bool :=
  isDecimalDigit unit || unit = 0x2d || unit = 0x2b || unit = 0x2e || unit = 0x65

/-- What the standard says of the text of a number: digits, signs, a point and an exponent, and
another number has another text. -/
structure StandardNumbers (numberText : Rat → JsString) : Prop where
  apart : ∀ a b, IsDouble a → IsDouble b → numberText a = numberText b → a = b
  nonempty : ∀ a, IsDouble a → numberText a ≠ []
  units : ∀ a, IsDouble a → ∀ unit ∈ numberText a, isNumberUnit unit

section Values

theorem JsValue.induct {P : JsValue → Prop} (undefined : P .undefined) (null : P .null)
    (bool : ∀ value, P (.bool value)) (number : ∀ value, P (.number value))
    (string : ∀ value, P (.string value))
    (array : ∀ items, (∀ item ∈ items, P item) → P (.array items))
    (object : ∀ entries : List (JsString × JsValue), (∀ entry ∈ entries, P entry.2) →
      P (.object entries)) (value : JsValue) : P value :=
  @JsValue.rec P (fun items => ∀ item ∈ items, P item)
    (fun entries => ∀ entry ∈ entries, P entry.2) (fun entry => P entry.2)
    undefined null bool number string array object (fun _ mem => nomatch mem)
    (fun _ _ first rest _ mem => by
      rcases List.mem_cons.mp mem with rfl | later
      · exact first
      · exact rest _ later)
    (fun _ mem => nomatch mem)
    (fun _ _ first rest _ mem => by
      rcases List.mem_cons.mp mem with rfl | later
      · exact first
      · exact rest _ later)
    (fun _ _ second => second) value

variable {numberText : Rat → JsString}

theorem canonicalItems_eq (items : List JsValue) :
    canonicalItems numberText items = items.map (canonicalJson numberText) := by
  induction items with
  | nil => rfl
  | cons item rest ih => rw [canonicalItems, ih, List.map_cons]

theorem canonicalEntries_eq (entries : List (JsString × JsValue)) :
    canonicalEntries numberText entries =
      (entries.filter fun entry => isDefined entry.2).map fun entry =>
        (entry.1, canonicalJson numberText entry.2) := by
  induction entries with
  | nil => rfl
  | cons entry rest ih =>
    obtain ⟨key, value⟩ := entry
    cases value <;> rw [canonicalEntries, ih] <;> first | rfl | simp

theorem mem_canonicalEntries {entries : List (JsString × JsValue)} {key text : JsString} :
    (key, text) ∈ canonicalEntries numberText entries ↔
      ∃ value, (key, value) ∈ entries ∧ isDefined value ∧
        text = canonicalJson numberText value := by
  rw [canonicalEntries_eq]
  constructor
  · intro mem
    obtain ⟨⟨_, value⟩, kept, same⟩ := List.mem_map.mp mem
    cases same
    obtain ⟨here, defined⟩ := List.mem_filter.mp kept
    exact ⟨value, here, defined, rfl⟩
  · rintro ⟨value, here, defined, rfl⟩
    exact List.mem_map.mpr ⟨(key, value), List.mem_filter.mpr ⟨here, defined⟩, rfl⟩

theorem canonicalEntries_keys (entries : List (JsString × JsValue)) :
    (canonicalEntries numberText entries).map Prod.fst = definedKeys entries := by
  rw [canonicalEntries_eq, definedKeys, List.map_map]
  rfl

end Values

section Sorting

theorem jsLess_irrefl (a : JsString) : jsLess a a = false := by
  induction a with
  | nil => rfl
  | cons unit rest ih => simp [jsLess, ih]

theorem jsLess_trans {a b c : JsString} (first : jsLess a b = true) (second : jsLess b c = true) :
    jsLess a c = true := by
  induction a generalizing b c with
  | nil =>
    cases c with
    | nil => cases b <;> cases second
    | cons => rfl
  | cons x a ih =>
    cases b with
    | nil => cases first
    | cons y b =>
      cases c with
      | nil => cases second
      | cons z c =>
        simp only [jsLess, Bool.or_eq_true, decide_eq_true_eq, Bool.and_eq_true] at first second ⊢
        rcases first with less | ⟨rfl, less⟩
        · rcases second with more | ⟨rfl, _⟩
          · exact .inl (UInt16.lt_trans less more)
          · exact .inl less
        · rcases second with more | ⟨rfl, more⟩
          · exact .inl more
          · exact .inr ⟨rfl, ih less more⟩

theorem jsLess_trichotomy (a b : JsString) : a = b ∨ jsLess a b = true ∨ jsLess b a = true := by
  induction a generalizing b with
  | nil =>
    cases b with
    | nil => exact .inl rfl
    | cons => exact .inr (.inl rfl)
  | cons x a ih =>
    cases b with
    | nil => exact .inr (.inr rfl)
    | cons y b =>
      simp only [jsLess, Bool.or_eq_true, decide_eq_true_eq, Bool.and_eq_true]
      rcases Nat.lt_trichotomy x.toNat y.toNat with less | same | more
      · exact .inr (.inl (.inl (UInt16.lt_iff_toNat_lt.mpr less)))
      · cases UInt16.toNat_inj.mp same
        rcases ih b with rfl | less | more
        · exact .inl rfl
        · exact .inr (.inl (.inr ⟨rfl, less⟩))
        · exact .inr (.inr (.inr ⟨rfl, more⟩))
      · exact .inr (.inr (.inl (UInt16.lt_iff_toNat_lt.mpr more)))

theorem insertEntry_perm (entry : JsString × JsString) (entries : List (JsString × JsString)) :
    (insertEntry entry entries).Perm (entry :: entries) := by
  induction entries with
  | nil => exact .refl _
  | cons first rest ih =>
    rw [insertEntry]
    split
    · exact .refl _
    · exact (ih.cons first).trans (.swap entry first rest)

def InOrder (entries : List (JsString × JsString)) : Prop :=
  entries.Pairwise fun a b => jsLess b.1 a.1 = false

theorem insertEntry_inOrder {entries : List (JsString × JsString)} (ordered : InOrder entries)
    (entry : JsString × JsString) : InOrder (insertEntry entry entries) := by
  induction entries with
  | nil => exact List.pairwise_singleton ..
  | cons first rest ih =>
    obtain ⟨above, later⟩ := List.pairwise_cons.mp ordered
    rw [insertEntry]
    split
    · rename_i less
      refine List.pairwise_cons.mpr ⟨fun b mem => ?_, ordered⟩
      rcases List.mem_cons.mp mem with rfl | mem
      · by_contra greater
        rw [Bool.not_eq_false] at greater
        have := jsLess_trans less greater
        rw [jsLess_irrefl] at this
        cases this
      · by_contra greater
        rw [Bool.not_eq_false] at greater
        have := jsLess_trans greater less
        rw [above b mem] at this
        cases this
    · rename_i not_less
      refine List.pairwise_cons.mpr ⟨fun b mem => ?_, ih later⟩
      rcases List.mem_cons.mp ((insertEntry_perm entry rest).mem_iff.mp mem) with rfl | mem
      · exact Bool.eq_false_iff.mpr not_less
      · exact above b mem

theorem sortEntries_concat (entries : List (JsString × JsString)) (entry : JsString × JsString) :
    sortEntries (entries ++ [entry]) = insertEntry entry (sortEntries entries) := by
  rw [sortEntries, List.foldl_append]
  rfl

theorem sortEntries_perm (entries : List (JsString × JsString)) :
    (sortEntries entries).Perm entries := by
  induction entries using List.reverseRecOn with
  | nil => exact .refl _
  | append_singleton entries entry ih =>
    rw [sortEntries_concat]
    exact ((insertEntry_perm entry _).trans (ih.cons entry)).trans
      (List.perm_append_singleton entry entries).symm

theorem sortEntries_inOrder (entries : List (JsString × JsString)) :
    InOrder (sortEntries entries) := by
  induction entries using List.reverseRecOn with
  | nil => exact .nil
  | append_singleton entries entry ih =>
    rw [sortEntries_concat]
    exact insertEntry_inOrder ih entry

theorem sortEntries_congr {left right : List (JsString × JsString)} (perm : left.Perm right)
    (distinct : (left.map Prod.fst).Nodup) : sortEntries left = sortEntries right := by
  refine List.Perm.eq_of_pairwise ?_ (sortEntries_inOrder left) (sortEntries_inOrder right)
    (((sortEntries_perm left).trans perm).trans (sortEntries_perm right).symm)
  intro a b in_left in_right not_less not_greater
  have same_key : a.1 = b.1 := by
    rcases jsLess_trichotomy a.1 b.1 with same | less | greater
    · exact same
    · rw [less] at not_greater
      cases not_greater
    · rw [greater] at not_less
      cases not_less
  have a_mem := (sortEntries_perm left).mem_iff.mp in_left
  have b_mem := perm.mem_iff.mpr ((sortEntries_perm right).mem_iff.mp in_right)
  exact List.inj_on_of_nodup_map distinct a_mem b_mem same_key

end Sorting

section Reading
variable {numberText : Rat → JsString}

def announced (unit : UInt16) : Announced :=
  if unit = 0x6e then .null
  else if unit = 0x74 then .yes
  else if unit = 0x66 then .no
  else if unit = 0x22 then .string
  else if unit = 0x5b then .array
  else if unit = 0x7b then .object
  else if isNumberUnit unit then .number
  else .nothing

def JsValue.kind : JsValue → Announced
  | .undefined => .nothing
  | .null => .null
  | .bool value => if value then .yes else .no
  | .number _ => .number
  | .string _ => .string
  | .array _ => .array
  | .object _ => .object

theorem announced_number {unit : UInt16} (is_number : isNumberUnit unit = true) :
    announced unit = .number := by
  have apart : ∀ other ∈ [0x6e, 0x74, 0x66, 0x22, 0x5b, 0x7b], unit ≠ other := by
    rintro other mem rfl
    revert is_number
    revert unit
    simp [isNumberUnit, isDecimalDigit]
  simp only [List.mem_cons, List.not_mem_nil, or_false, forall_eq_or_imp, forall_eq] at apart
  simp [announced, apart, is_number]

theorem canonicalJson_starts (standard : StandardNumbers numberText) {value : JsValue}
    (plain : Plain value) :
    ∃ unit rest, canonicalJson numberText value = unit :: rest ∧ announced unit = value.kind := by
  cases plain with
  | null => exact ⟨_, _, rfl, rfl⟩
  | bool value => cases value <;> exact ⟨_, _, rfl, rfl⟩
  | @number value double =>
    obtain ⟨unit, rest, text⟩ := List.exists_cons_of_ne_nil (standard.nonempty value double)
    refine ⟨unit, rest, text, announced_number (standard.units value double unit ?_)⟩
    rw [text]
    exact List.mem_cons_self
  | string value => exact ⟨_, _, rfl, rfl⟩
  | array all => exact ⟨_, _, rfl, rfl⟩
  | object distinct all => exact ⟨_, _, rfl, rfl⟩

theorem canonicalJson_not_ends (standard : StandardNumbers numberText) {value : JsValue}
    (plain : Plain value) (rest : JsString) : ¬ Ends (canonicalJson numberText value ++ rest) := by
  obtain ⟨unit, more, text, is⟩ := canonicalJson_starts standard plain
  rw [text]
  intro ends
  have other : value.kind ≠ .nothing := by
    cases plain with
    | bool value => cases value <;> nofun
    | _ => nofun
  rcases ends unit _ rfl with rfl | rfl | rfl <;> exact other is.symm

theorem kind_eq (standard : StandardNumbers numberText) {left right : JsValue}
    (plain : Plain left) (other : Plain right) {rest more : JsString}
    (same : canonicalJson numberText left ++ rest = canonicalJson numberText right ++ more) :
    left.kind = right.kind := by
  obtain ⟨unit, _, text, is⟩ := canonicalJson_starts standard plain
  obtain ⟨unit', _, text', is'⟩ := canonicalJson_starts standard other
  rw [text, text'] at same
  rw [← is, ← is', (List.cons.inj same).1]

theorem ends_nil : Ends [] := nofun

theorem Ends.not_number {rest : JsString} (ends : Ends rest) {unit : UInt16} {more : JsString}
    (starts : rest = unit :: more) : isNumberUnit unit = false := by
  rcases ends unit more starts with rfl | rfl | rfl <;> decide

def ReadsAs (numberText : Rat → JsString) (left : JsValue) : Prop :=
  Plain left → ∀ right, Plain right → ∀ rest more, Ends rest → Ends more →
    canonicalJson numberText left ++ rest = canonicalJson numberText right ++ more →
      Same left right ∧ rest = more

theorem ReadsAs.same {left right : JsValue} (reads : ReadsAs numberText left) (plain : Plain left)
    (other : Plain right) (same : canonicalJson numberText left = canonicalJson numberText right) :
    Same left right :=
  (reads plain right other [] [] ends_nil ends_nil (by rw [same])).1

theorem ReadsAs.text {left right : JsValue} (reads : ReadsAs numberText left) (plain : Plain left)
    (other : Plain right) {rest more : JsString} (ends : Ends rest) (stops : Ends more)
    (same : canonicalJson numberText left ++ rest = canonicalJson numberText right ++ more) :
    canonicalJson numberText left = canonicalJson numberText right ∧ rest = more := by
  obtain ⟨_, rfl⟩ := reads plain right other rest more ends stops same
  exact ⟨List.append_cancel_right same, rfl⟩

theorem array_reads (standard : StandardNumbers numberText) {items : List JsValue}
    (each : ∀ item ∈ items, ReadsAs numberText item) : ReadsAs numberText (.array items) := by
  intro plain right other rest more ends stops same
  have kinds := kind_eq standard plain other same
  cases plain with
  | array all =>
    cases other with
    | @array others others_plain =>
      have bracket : js "]" = [0x5d] := by decide
      have inside : joinComma ((items.map (canonicalJson numberText)).map id) ++ 0x5d :: rest =
          joinComma ((others.map (canonicalJson numberText)).map id) ++ 0x5d :: more := by
        simp only [canonicalJson, canonicalItems_eq, List.append_assoc, bracket,
          List.singleton_append] at same
        rw [List.map_id, List.map_id]
        exact List.append_cancel_left same
      have apart : ∀ x ∈ items.map (canonicalJson numberText),
          ∀ y ∈ others.map (canonicalJson numberText), ∀ a b, Ends a → Ends b →
            id x ++ a = id y ++ b → x = y ∧ a = b := by
        intro x x_mem y y_mem a b ends stops same
        obtain ⟨item, here, rfl⟩ := List.mem_map.mp x_mem
        obtain ⟨item', there, rfl⟩ := List.mem_map.mp y_mem
        exact (each item here).text (all item here) (others_plain item' there) ends stops same
      have starts : ∀ x ∈ items.map (canonicalJson numberText) ++
          others.map (canonicalJson numberText), ∀ rest, ¬ Ends (id x ++ rest) := by
        intro x mem rest
        rw [← List.map_append] at mem
        obtain ⟨item, either, rfl⟩ := List.mem_map.mp mem
        rcases List.mem_append.mp either with here | there
        · exact canonicalJson_not_ends standard (all item here) rest
        · exact canonicalJson_not_ends standard (others_plain item there) rest
      obtain ⟨texts, after⟩ := joinComma_inj (.inl rfl) apart starts inside
      refine ⟨.array (by simpa using congrArg List.length texts) fun i a b at_left at_right => ?_,
        after⟩
      have same_text := congrArg (·[i]?) texts
      simp only [List.getElem?_map, at_left, at_right, Option.map_some, Option.some.injEq]
        at same_text
      have in_left := List.mem_of_getElem? at_left
      exact (each a in_left).same (all a in_left) (others_plain b (List.mem_of_getElem? at_right))
        same_text
    | bool value => cases value <;> cases kinds
    | _ => cases kinds

def entryText (entry : JsString × JsString) : JsString := quote entry.1 ++ js ":" ++ entry.2

theorem object_entries_reads {left right : List (JsString × JsValue)}
    (each : ∀ entry ∈ left, isDefined entry.2 → ReadsAs numberText entry.2 ∧ Plain entry.2)
    (others : ∀ entry ∈ right, isDefined entry.2 → Plain entry.2) {rest more : JsString}
    (same : canonicalJson numberText (.object left) ++ rest =
      canonicalJson numberText (.object right) ++ more) :
    sortEntries (canonicalEntries numberText left) =
      sortEntries (canonicalEntries numberText right) ∧ rest = more := by
  have brace : js "\x7d" = [0x7d] := by decide
  have colon : js ":" = [0x3a] := by decide
  have braced (entries : List (JsString × JsValue)) (rest : JsString) :
      canonicalJson numberText (.object entries) ++ rest = js "\x7b" ++
        (joinComma ((sortEntries (canonicalEntries numberText entries)).map entryText) ++
          0x7d :: rest) := by
    rw [canonicalJson, brace, List.append_assoc, List.append_assoc]
    rfl
  rw [braced, braced] at same
  have quoted (entry : JsString × JsString) (rest : JsString) :
      ¬ Ends (entryText entry ++ rest) := by
    intro ends
    rcases ends 0x22 _ rfl with is | is | is <;> exact absurd is (by decide)
  refine joinComma_inj (.inr rfl) (fun x x_mem y y_mem a b ends stops same => ?_)
    (fun x _ rest => quoted x rest) (List.append_cancel_left same)
  obtain ⟨key, text⟩ := x
  obtain ⟨key', text'⟩ := y
  obtain ⟨value, mem, defined, rfl⟩ :=
    mem_canonicalEntries.mp ((sortEntries_perm _).mem_iff.mp x_mem)
  obtain ⟨value', mem', defined', rfl⟩ :=
    mem_canonicalEntries.mp ((sortEntries_perm _).mem_iff.mp y_mem)
  simp only [entryText, List.append_assoc, colon, List.singleton_append] at same
  obtain ⟨rfl, tails⟩ := quote_inj same
  obtain ⟨reads, plain⟩ := each _ mem defined
  obtain ⟨texts, after⟩ := reads.text plain (others _ mem' defined') ends stops
    (List.cons.inj tails).2
  exact ⟨by rw [texts], after⟩

theorem object_reads (standard : StandardNumbers numberText)
    {entries : List (JsString × JsValue)} (each : ∀ entry ∈ entries, ReadsAs numberText entry.2) :
    ReadsAs numberText (.object entries) := by
  intro plain right other rest more ends stops same
  have kinds := kind_eq standard plain other same
  cases plain with
  | object distinct all =>
    cases other with
    | @object others others_distinct others_plain =>
      obtain ⟨sorted, after⟩ := object_entries_reads
        (fun entry mem defined => ⟨each entry mem, all entry mem defined⟩) others_plain same
      have perm : (canonicalEntries numberText entries).Perm
          (canonicalEntries numberText others) :=
        ((sortEntries_perm _).symm.trans (sorted ▸ .refl _)).trans (sortEntries_perm _)
      refine ⟨.object (fun key => ?_) fun key a b at_left at_right defined defined' => ?_, after⟩
      · have keys := (perm.map Prod.fst).mem_iff (a := key)
        rwa [canonicalEntries_keys, canonicalEntries_keys] at keys
      · have listed := perm.mem_iff.mp (mem_canonicalEntries.mpr ⟨a, at_left, defined, rfl⟩)
        obtain ⟨b', at_right', _, text⟩ := mem_canonicalEntries.mp listed
        have value := List.inj_on_of_nodup_map others_distinct at_right' at_right rfl
        cases value
        exact (each _ at_left).same (all _ at_left defined) (others_plain _ at_right defined') text
    | bool value => cases value <;> cases kinds
    | _ => cases kinds

theorem canonicalJson_reads (standard : StandardNumbers numberText) (value : JsValue) :
    ReadsAs numberText value := by
  induction value using JsValue.induct with
  | undefined => exact nofun
  | null =>
    intro plain right other rest more ends stops same
    have kinds := kind_eq standard plain other same
    cases other with
    | null => exact ⟨.null, List.append_cancel_left same⟩
    | bool value => cases value <;> cases kinds
    | _ => cases kinds
  | bool value =>
    intro plain right other rest more ends stops same
    have kinds := kind_eq standard plain other same
    cases other with
    | bool value' =>
      have values : value = value' := by
        cases value <;> cases value' <;> first | rfl | cases kinds
      subst values
      exact ⟨.bool value, List.append_cancel_left same⟩
    | _ => cases value <;> cases kinds
  | number value =>
    intro plain right other rest more ends stops same
    have kinds := kind_eq standard plain other same
    cases plain with
    | @number value double =>
      cases other with
      | @number value' double' =>
        obtain ⟨text, after⟩ := run_inj (standard.units _ double) (standard.units _ double')
          (fun _ _ => ends.not_number) (fun _ _ => stops.not_number) same
        rw [standard.apart _ _ double double' text]
        exact ⟨.number _, after⟩
      | bool value => cases value <;> cases kinds
      | _ => cases kinds
  | string value =>
    intro plain right other rest more ends stops same
    have kinds := kind_eq standard plain other same
    cases other with
    | string value' =>
      obtain ⟨rfl, after⟩ := quote_inj same
      exact ⟨.string _, after⟩
    | bool value => cases value <;> cases kinds
    | _ => cases kinds
  | array items each => exact array_reads standard each
  | object entries each => exact object_reads standard each

theorem mem_definedKeys {entries : List (JsString × JsValue)} {key : JsString} :
    key ∈ definedKeys entries ↔ ∃ value, (key, value) ∈ entries ∧ isDefined value := by
  rw [definedKeys, List.mem_map]
  constructor
  · rintro ⟨⟨_, value⟩, kept, rfl⟩
    obtain ⟨here, defined⟩ := List.mem_filter.mp kept
    exact ⟨value, here, defined⟩
  · rintro ⟨value, here, defined⟩
    exact ⟨(key, value), List.mem_filter.mpr ⟨here, defined⟩, rfl⟩

theorem definedKeys_nodup {entries : List (JsString × JsValue)}
    (distinct : (entries.map Prod.fst).Nodup) : (definedKeys entries).Nodup :=
  distinct.sublist (List.filter_sublist.map Prod.fst)

theorem canonicalEntries_perm {left right : List (JsString × JsValue)}
    (distinct : (left.map Prod.fst).Nodup) (others_distinct : (right.map Prod.fst).Nodup)
    (keys : ∀ key, key ∈ definedKeys left ↔ key ∈ definedKeys right)
    (texts : ∀ key a b, (key, a) ∈ left → (key, b) ∈ right → isDefined a → isDefined b →
      canonicalJson numberText a = canonicalJson numberText b) :
    (canonicalEntries numberText left).Perm (canonicalEntries numberText right) := by
  have nodup {entries : List (JsString × JsValue)} (distinct : (entries.map Prod.fst).Nodup) :
      (canonicalEntries numberText entries).Nodup := by
    have keys := definedKeys_nodup distinct
    rw [← @canonicalEntries_keys numberText] at keys
    exact keys.of_map
  refine (List.perm_ext_iff_of_nodup (nodup distinct) (nodup others_distinct)).mpr ?_
  rintro ⟨key, text⟩
  constructor
  · intro mem
    obtain ⟨a, here, defined, rfl⟩ := mem_canonicalEntries.mp mem
    obtain ⟨b, there, defined'⟩ := mem_definedKeys.mp
      ((keys key).mp (mem_definedKeys.mpr ⟨a, here, defined⟩))
    exact mem_canonicalEntries.mpr ⟨b, there, defined', texts key a b here there defined defined'⟩
  · intro mem
    obtain ⟨b, there, defined, rfl⟩ := mem_canonicalEntries.mp mem
    obtain ⟨a, here, defined'⟩ := mem_definedKeys.mp
      ((keys key).mpr (mem_definedKeys.mpr ⟨b, there, defined⟩))
    exact mem_canonicalEntries.mpr
      ⟨a, here, defined', (texts key a b here there defined' defined).symm⟩

theorem Same.text {left right : JsValue} (same : Same left right) (plain : Plain left)
    (other : Plain right) :
    canonicalJson numberText left = canonicalJson numberText right := by
  induction same with
  | null | bool | number | string => rfl
  | @array left right length items ih =>
    cases plain with
    | array all =>
      cases other with
      | array others =>
        have texts : left.map (canonicalJson numberText) =
            right.map (canonicalJson numberText) := by
          refine List.ext_getElem (by simpa using length) fun i in_left in_right => ?_
          rw [List.length_map] at in_left in_right
          rw [List.getElem_map, List.getElem_map]
          exact ih i _ _ (List.getElem?_eq_getElem in_left) (List.getElem?_eq_getElem in_right)
            (all _ (List.getElem_mem in_left)) (others _ (List.getElem_mem in_right))
        rw [canonicalJson, canonicalJson, canonicalItems_eq, canonicalItems_eq, texts]
  | @object left right keys values ih =>
    cases plain with
    | object distinct all =>
      cases other with
      | object others_distinct others =>
        have perm : (canonicalEntries numberText left).Perm (canonicalEntries numberText right) :=
          canonicalEntries_perm distinct others_distinct keys fun key a b here there defined
            defined' => ih key a b here there defined defined' (all _ here defined)
              (others _ there defined')
        have sorted := sortEntries_congr perm (by
          rw [canonicalEntries_keys]
          exact definedKeys_nodup distinct)
        rw [canonicalJson, canonicalJson, sorted]

theorem canonicalJson_eq_iff (standard : StandardNumbers numberText) {left right : JsValue}
    (plain : Plain left) (other : Plain right) :
    canonicalJson numberText left = canonicalJson numberText right ↔ Same left right :=
  ⟨(canonicalJson_reads standard left).same plain other, fun same => same.text plain other⟩

end Reading
section Numbers

def fractionText (value : Rat) : JsString :=
  (if value.num < 0 then [0x2d] else []) ++
    (JsNumber.numeral value.num.natAbs ++
      if value.den = 1 then [] else 0x2e :: JsNumber.numeral value.den)

theorem numeral_decimal {n : Nat} : ∀ unit ∈ JsNumber.numeral n, isDecimalDigit unit := by
  intro unit mem
  obtain ⟨_, digit⟩ := JsNumber.numeral_digit mem
  exact digit.decimal

theorem numeral_inj {n m : Nat} (same : JsNumber.numeral n = JsNumber.numeral m) : n = m := by
  have read := JsNumber.readDigits_numeral n
  rw [same, JsNumber.readDigits_numeral] at read
  exact (Option.some.inj read).symm

theorem fraction_inj {n m d e : Nat}
    (same : (JsNumber.numeral n ++ if d = 1 then [] else 0x2e :: JsNumber.numeral d) =
      JsNumber.numeral m ++ if e = 1 then [] else 0x2e :: JsNumber.numeral e) :
    n = m ∧ d = e := by
  have stops (d : Nat) (unit : UInt16) (tail : JsString)
      (starts : (if d = 1 then [] else 0x2e :: JsNumber.numeral d) = unit :: tail) :
      isDecimalDigit unit = false := by
    split at starts
    · cases starts
    · cases starts
      decide
  obtain ⟨first, second⟩ := run_inj numeral_decimal numeral_decimal (stops d) (stops e) same
  refine ⟨numeral_inj first, ?_⟩
  split at second
  · split at second
    · omega
    · cases second
  · split at second
    · cases second
    · exact numeral_inj (List.cons.inj second).2

theorem fractionText_inj {a b : Rat} (same : fractionText a = fractionText b) : a = b := by
  have unsigned (n : Nat) (rest tail : JsString) : JsNumber.numeral n ++ rest ≠ 0x2d :: tail := by
    intro starts
    obtain ⟨unit, digits, text⟩ := List.exists_cons_of_ne_nil (JsNumber.numeral_ne_nil n)
    obtain ⟨_, digit⟩ := @JsNumber.numeral_digit n unit (by rw [text]; exact List.mem_cons_self)
    rw [text] at starts
    exact digit.minus (List.cons.inj starts).1
  unfold fractionText at same
  by_cases negative : a.num < 0
  · by_cases negative' : b.num < 0
    · rw [if_pos negative, if_pos negative'] at same
      obtain ⟨num, den⟩ := fraction_inj (List.append_cancel_left same)
      exact Rat.ext (by omega) den
    · rw [if_pos negative, if_neg negative'] at same
      exact absurd same.symm (unsigned _ _ _)
  · by_cases negative' : b.num < 0
    · rw [if_neg negative, if_pos negative'] at same
      exact absurd same (unsigned _ _ _)
    · rw [if_neg negative, if_neg negative'] at same
      obtain ⟨num, den⟩ := fraction_inj (List.append_cancel_left same)
      exact Rat.ext (by omega) den

theorem fractionText_standard : StandardNumbers fractionText where
  apart _ _ _ _ same := fractionText_inj same
  nonempty a _ := by
    unfold fractionText
    simp [JsNumber.numeral_ne_nil]
  units a _ unit mem := by
    have digit {n : Nat} (mem : unit ∈ JsNumber.numeral n) : isNumberUnit unit = true := by
      simp [isNumberUnit, numeral_decimal unit mem]
    unfold fractionText at mem
    rcases List.mem_append.mp mem with sign | mem
    · split at sign
      · rw [List.mem_singleton.mp sign]
        decide
      · cases sign
    · rcases List.mem_append.mp mem with num | den
      · exact digit num
      · split at den
        · cases den
        · rcases List.mem_cons.mp den with rfl | den
          · decide
          · exact digit den

end Numbers

section Requests

theorem Same.at {left right : List (JsString × JsValue)}
    (same : Same (.object left) (.object right)) (i : Nat) {key : JsString} {a b : JsValue}
    (at_left : left[i]? = some (key, a)) (at_right : right[i]? = some (key, b))
    (defined : isDefined a) (defined' : isDefined b) :
    Same a b := by
  cases same with
  | object _ values =>
    exact values key a b (List.mem_of_getElem? at_left) (List.mem_of_getElem? at_right) defined
      defined'

theorem Same.string_eq {a b : JsString} (same : Same (.string a) (.string b)) : a = b := by
  cases same
  rfl

theorem Same.number_eq {a b : JsNumber} (same : Same (.number a) (.number b)) : a = b := by
  cases same
  rfl

theorem Same.bool_eq {a b : Bool} (same : Same (.bool a) (.bool b)) : a = b := by
  cases same
  rfl

theorem identity_eq {a b : TargetIdentity} (same : Same a.toJs b.toJs) : a = b := by
  have uri := (same.at 0 rfl rfl rfl rfl).string_eq
  have epoch := (same.at 1 rfl rfl rfl rfl).number_eq
  have editor := (same.at 2 rfl rfl rfl rfl).number_eq
  cases a
  cases b
  cases uri
  cases epoch
  cases editor
  rfl

theorem range_eq {a b : TextRange} (same : Same a.toJs b.toJs) : a = b := by
  have schema := (same.at 0 rfl rfl rfl rfl).number_eq
  have start := (same.at 1 rfl rfl rfl rfl).number_eq
  have stop := (same.at 2 rfl rfl rfl rfl).number_eq
  cases a
  cases b
  cases schema
  cases start
  cases stop
  rfl

theorem capabilities_eq {a b : Capabilities} (same : Same a.toJs b.toJs) : a = b := by
  have flags := (same.at 0 rfl rfl rfl rfl).number_eq
  have schema := (same.at 1 rfl rfl rfl rfl).number_eq
  cases a
  cases b
  cases flags
  cases schema
  rfl

theorem selection_eq {a b : SelectionState} (same : Same a.toJs b.toJs) : a = b := by
  cases a with
  | empty =>
    cases b with
    | empty => rfl
    | range start stop => exact absurd (same.at 0 rfl rfl rfl rfl).string_eq (by decide)
  | range start stop =>
    cases b with
    | empty => exact absurd (same.at 0 rfl rfl rfl rfl).string_eq (by decide)
    | range start' stop' =>
      rw [(same.at 1 rfl rfl rfl rfl).number_eq, (same.at 2 rfl rfl rfl rfl).number_eq]

theorem secureState_name_inj {a b : SecureState} (same : a.name = b.name) : a = b := by
  revert same
  cases a <;> cases b <;> decide

theorem compositionState_name_inj {a b : CompositionState} (same : a.name = b.name) : a = b := by
  revert same
  cases a <;> cases b <;> decide

theorem sessionState_name_inj {a b : SessionState} (same : a.name = b.name) : a = b := by
  revert same
  cases a <;> cases b <;> decide

theorem request_eq {a b : CompareAndReplaceRequest} (same : Same a.toJs b.toJs) : a = b := by
  have protocol := (same.at 0 rfl rfl rfl rfl).string_eq
  have authenticated := (same.at 1 rfl rfl rfl rfl).bool_eq
  have host := (same.at 2 rfl rfl rfl rfl).string_eq
  have session_id := (same.at 3 rfl rfl rfl rfl).string_eq
  have request_id := (same.at 4 rfl rfl rfl rfl).string_eq
  have identity := identity_eq (same.at 5 rfl rfl rfl rfl)
  have revision := (same.at 6 rfl rfl rfl rfl).number_eq
  have range := range_eq (same.at 7 rfl rfl rfl rfl)
  have expected := (same.at 8 rfl rfl rfl rfl).string_eq
  have replacement := (same.at 9 rfl rfl rfl rfl).string_eq
  have caret := (same.at 10 rfl rfl rfl rfl).number_eq
  have selection : a.selection = b.selection := by
    refine selection_eq (same.at 11 rfl rfl ?_ ?_)
    · cases a.selection <;> rfl
    · cases b.selection <;> rfl
  have secure := secureState_name_inj (same.at 12 rfl rfl rfl rfl).string_eq
  have composition := compositionState_name_inj (same.at 13 rfl rfl rfl rfl).string_eq
  have session := sessionState_name_inj (same.at 14 rfl rfl rfl rfl).string_eq
  have capabilities := capabilities_eq (same.at 15 rfl rfl rfl rfl)
  cases a
  cases b
  simp only [CompareAndReplaceRequest.mk.injEq]
  exact ⟨protocol, authenticated, host, session_id, request_id, identity, revision, range,
    expected, replacement, caret, selection, secure, composition, session, capabilities⟩

/-- One canonical text is one value, and one request, identity or set of capabilities. -/
theorem canonicalJson_identifies {numberText : Rat → JsString}
    (standard : StandardNumbers numberText) :
    (∀ left right : JsValue, Plain left → Plain right →
      (canonicalJson numberText left = canonicalJson numberText right ↔ Same left right)) ∧
    (∀ a b : CompareAndReplaceRequest, Plain a.toJs → Plain b.toJs →
      (canonicalJson numberText a.toJs = canonicalJson numberText b.toJs ↔ a = b)) ∧
    (∀ a b : TargetIdentity, Plain a.toJs → Plain b.toJs →
      (canonicalJson numberText a.toJs = canonicalJson numberText b.toJs ↔ a = b)) ∧
    (∀ a b : Capabilities, Plain a.toJs → Plain b.toJs →
      (canonicalJson numberText a.toJs = canonicalJson numberText b.toJs ↔ a = b)) := by
  refine ⟨fun left right plain other => canonicalJson_eq_iff standard plain other,
    fun a b plain other => ?_, fun a b plain other => ?_, fun a b plain other => ?_⟩
  · exact ⟨fun text => request_eq ((canonicalJson_eq_iff standard plain other).mp text),
      fun same => by rw [same]⟩
  · exact ⟨fun text => identity_eq ((canonicalJson_eq_iff standard plain other).mp text),
      fun same => by rw [same]⟩
  · exact ⟨fun text => capabilities_eq ((canonicalJson_eq_iff standard plain other).mp text),
      fun same => by rw [same]⟩

theorem canonicalJson_identifies_reordered :
    canonicalJson fractionText (.object [(js "b", .number (.finite 1)), (js "a", .array [.null])]) =
      canonicalJson fractionText (.object [(js "a", .array [.null]), (js "c", .undefined),
        (js "b", .number (.finite 1))]) ↔
    Same (.object [(js "b", .number (.finite 1)), (js "a", .array [.null])])
      (.object [(js "a", .array [.null]), (js "c", .undefined),
        (js "b", .number (.finite 1))]) := by
  have one : Plain (.number (.finite 1)) :=
    .number ⟨1, 0, by decide, .inl ⟨by decide, by simp⟩⟩
  have list : Plain (.array [.null]) := .array fun item mem => by
    rw [List.mem_singleton.mp mem]
    exact .null
  refine (canonicalJson_identifies fractionText_standard).1 _ _ (.object (by decide) ?_)
    (.object (by decide) ?_)
  · intro entry mem defined
    rcases List.mem_cons.mp mem with rfl | mem
    · exact one
    · rw [List.mem_singleton.mp mem]
      exact list
  · intro entry mem defined
    rcases List.mem_cons.mp mem with rfl | mem
    · exact list
    · rcases List.mem_cons.mp mem with rfl | mem
      · cases defined
      · rw [List.mem_singleton.mp mem]
        exact one

end Requests

end ZonKey.Host

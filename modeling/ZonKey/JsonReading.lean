import ZonKey.JsNumberText

set_option autoImplicit false

namespace ZonKey.Host

def shortEscapes : List (UInt16 × UInt16) :=
  [(0x22, 0x22), (0x5c, 0x5c), (0x08, 0x62), (0x0c, 0x66), (0x0a, 0x6e), (0x0d, 0x72),
    (0x09, 0x74)]

inductive Reads : JsString → JsString → JsString → Prop
  | close (rest : JsString) : Reads (0x22 :: rest) [] rest
  | plain {unit : UInt16} {text units rest : JsString} (quote : unit ≠ 0x22)
      (backslash : unit ≠ 0x5c) (more : Reads text units rest) :
      Reads (unit :: text) (unit :: units) rest
  | short {mark unit : UInt16} {text units rest : JsString} (listed : (unit, mark) ∈ shortEscapes)
      (more : Reads text units rest) :
      Reads (0x5c :: mark :: text) (unit :: units) rest
  | long {a b c d unit : UInt16} {text units rest : JsString}
      (value : unit.toNat = ((digitValue a * 16 + digitValue b) * 16 + digitValue c) * 16 +
        digitValue d) (more : Reads text units rest) :
      Reads (0x5c :: 0x75 :: a :: b :: c :: d :: text) (unit :: units) rest

section Quotes

theorem shortEscapes_inj : ∀ first ∈ shortEscapes, ∀ second ∈ shortEscapes,
    first.2 = second.2 → first.1 = second.1 := by simp [shortEscapes]

theorem shortEscapes_mark : ∀ entry ∈ shortEscapes, entry.2 ≠ 0x75 := by simp [shortEscapes]

theorem Reads.unique {text units others rest more : JsString} (first : Reads text units rest)
    (second : Reads text others more) : units = others ∧ rest = more := by
  induction first generalizing others with
  | close rest =>
    cases second with
    | close => exact ⟨rfl, rfl⟩
    | plain quote => exact absurd rfl quote
  | plain quote backslash _ ih =>
    cases second with
    | close => exact absurd rfl quote
    | plain _ _ tail =>
      obtain ⟨rfl, rfl⟩ := ih tail
      exact ⟨rfl, rfl⟩
    | short => exact absurd rfl backslash
    | long => exact absurd rfl backslash
  | short listed _ ih =>
    cases second with
    | plain _ backslash => exact absurd rfl backslash
    | short other tail =>
      obtain ⟨rfl, rfl⟩ := ih tail
      have same := shortEscapes_inj _ listed _ other rfl
      exact ⟨congrArg (· :: _) same, rfl⟩
    | long => exact absurd rfl (shortEscapes_mark _ listed)
  | long value _ ih =>
    cases second with
    | plain _ backslash => exact absurd rfl backslash
    | short listed => exact absurd rfl (shortEscapes_mark _ listed)
    | long same tail =>
      obtain ⟨rfl, rfl⟩ := ih tail
      exact ⟨by rw [UInt16.toNat_inj.mp (value.trans same.symm)], rfl⟩

theorem digitValue_hexDigit {value : Nat} (small : value < 16) :
    digitValue (hexDigit value) = value := by
  have all : ∀ value < 16, digitValue (hexDigit value) = value := by decide
  exact all value small

theorem Reads.escape {unit : UInt16} {text units rest : JsString} (more : Reads text units rest) :
    Reads (unicodeEscape unit ++ text) (unit :: units) rest := by
  refine .long ?_ more
  have small : unit.toNat < 65536 := unit.toNat_lt
  rw [digitValue_hexDigit (by omega), digitValue_hexDigit (by omega),
    digitValue_hexDigit (by omega), digitValue_hexDigit (by omega)]
  omega

theorem Reads.unit {unit : UInt16} {text units rest : JsString} (more : Reads text units rest) :
    Reads (escapeUnit unit ++ text) (unit :: units) rest := by
  by_cases quote : unit = 0x22
  · exact quote ▸ .short (by decide) more
  by_cases backslash : unit = 0x5c
  · exact backslash ▸ .short (by decide) more
  by_cases backspace : unit = 0x08
  · exact backspace ▸ .short (by decide) more
  by_cases feed : unit = 0x0c
  · exact feed ▸ .short (by decide) more
  by_cases newline : unit = 0x0a
  · exact newline ▸ .short (by decide) more
  by_cases carriage : unit = 0x0d
  · exact carriage ▸ .short (by decide) more
  by_cases tab : unit = 0x09
  · exact tab ▸ .short (by decide) more
  rw [escapeUnit, if_neg quote, if_neg backslash, if_neg backspace, if_neg feed, if_neg newline,
    if_neg carriage, if_neg tab]
  split
  · exact more.escape
  · exact .plain quote backslash more

theorem surrogate_plain {unit : UInt16} (surrogate : isHighSurrogate unit ∨ isLowSurrogate unit) :
    unit ≠ 0x22 ∧ unit ≠ 0x5c := by
  constructor
  · rintro rfl
    exact absurd surrogate (by decide)
  · rintro rfl
    exact absurd surrogate (by decide)

theorem reads_quoteUnits (units rest : JsString) :
    Reads (quoteUnits units ++ 0x22 :: rest) units rest := by
  fun_induction quoteUnits units with
  | case1 => exact .close rest
  | case2 unit surrogate => exact Reads.escape (.close rest)
  | case3 unit single => exact Reads.unit (.close rest)
  | case4 unit next units pair ih =>
    rw [Bool.and_eq_true] at pair
    obtain ⟨quote, backslash⟩ := surrogate_plain (.inl pair.1)
    obtain ⟨next_quote, next_backslash⟩ := surrogate_plain (.inr pair.2)
    exact .plain quote backslash (.plain next_quote next_backslash ih)
  | case5 unit next units _ surrogate ih =>
    rw [List.append_assoc]
    exact Reads.escape ih
  | case6 unit next units _ single ih =>
    rw [List.append_assoc]
    exact Reads.unit ih

theorem quote_inj {units others rest more : JsString}
    (same : quote units ++ rest = quote others ++ more) : units = others ∧ rest = more := by
  have mark : js "\"" = [0x22] := by decide
  simp only [quote, mark, List.append_assoc, List.cons_append, List.nil_append,
    List.cons.injEq, true_and] at same
  have first := reads_quoteUnits units rest
  rw [same] at first
  exact first.unique (reads_quoteUnits others more)

end Quotes

section Lists

/-- Runs of units with a property, each up to where the property stops, are the same run. -/
theorem run_inj {p : UInt16 → Bool} {left right rest more : JsString}
    (units : ∀ unit ∈ left, p unit) (others : ∀ unit ∈ right, p unit)
    (ends : ∀ unit tail, rest = unit :: tail → p unit = false)
    (stops : ∀ unit tail, more = unit :: tail → p unit = false)
    (same : left ++ rest = right ++ more) : left = right ∧ rest = more := by
  have taken {run after : JsString} (all : ∀ unit ∈ run, p unit)
      (stop : ∀ unit tail, after = unit :: tail → p unit = false) :
      (run ++ after).takeWhile p = run ∧ (run ++ after).dropWhile p = after := by
    have nothing : after.takeWhile p = [] ∧ after.dropWhile p = after := by
      cases after with
      | nil => exact ⟨rfl, rfl⟩
      | cons unit tail => simp [List.takeWhile, List.dropWhile, stop unit tail rfl]
    rw [List.takeWhile_append_of_pos all, List.dropWhile_append_of_pos all, nothing.1, nothing.2]
    exact ⟨List.append_nil run, rfl⟩
  have first := taken units ends
  rw [same] at first
  have second := taken others stops
  exact ⟨first.1.symm.trans second.1, first.2.symm.trans second.2⟩

def Ends (rest : JsString) : Prop :=
  ∀ unit more, rest = unit :: more → unit = 0x2c ∨ unit = 0x5d ∨ unit = 0x7d

variable {α : Type*} {encode : α → JsString} {close : UInt16}

def listTail (encode : α → JsString) (close : UInt16) : List α → JsString → JsString
  | [], rest => close :: rest
  | x :: xs, rest => 0x2c :: (encode x ++ listTail encode close xs rest)

theorem listTail_ends (closes : close = 0x5d ∨ close = 0x7d) (xs : List α) (rest : JsString) :
    Ends (listTail encode close xs rest) := by
  intro unit more starts
  cases xs with
  | nil =>
    cases starts
    exact .inr closes
  | cons x xs =>
    cases starts
    exact .inl rfl

theorem joinComma_cons (x : α) (xs : List α) (rest : JsString) :
    joinComma ((x :: xs).map encode) ++ close :: rest =
      encode x ++ listTail encode close xs rest := by
  induction xs generalizing x with
  | nil => simp [joinComma, listTail]
  | cons y ys ih =>
    have comma : js "," = [0x2c] := by decide
    rw [List.map_cons, List.map_cons, joinComma, List.intercalate_cons_cons, ← List.map_cons,
      ← joinComma, List.append_assoc, List.append_assoc, ih, comma, listTail]
    rfl

theorem listTail_inj (closes : close = 0x5d ∨ close = 0x7d) {xs ys : List α}
    (apart : ∀ x ∈ xs, ∀ y ∈ ys, ∀ rest more, Ends rest → Ends more →
      encode x ++ rest = encode y ++ more → x = y ∧ rest = more) {rest more : JsString}
    (same : listTail encode close xs rest = listTail encode close ys more) :
    xs = ys ∧ rest = more := by
  have not_comma : close ≠ 0x2c := by
    rcases closes with rfl | rfl <;> decide
  induction xs generalizing ys with
  | nil =>
    cases ys with
    | nil =>
      cases same
      exact ⟨rfl, rfl⟩
    | cons y ys => exact absurd (List.cons.inj same).1 not_comma
  | cons x xs ih =>
    cases ys with
    | nil => exact absurd (List.cons.inj same).1.symm not_comma
    | cons y ys =>
      obtain ⟨rfl, tails⟩ := apart x List.mem_cons_self y List.mem_cons_self _ _
        (listTail_ends closes xs rest) (listTail_ends closes ys more) (List.cons.inj same).2
      obtain ⟨rfl, rfl⟩ := ih (fun a mem b others => apart a (List.mem_cons_of_mem _ mem) b
        (List.mem_cons_of_mem _ others)) tails
      exact ⟨rfl, rfl⟩

theorem joinComma_inj (closes : close = 0x5d ∨ close = 0x7d) {xs ys : List α}
    (apart : ∀ x ∈ xs, ∀ y ∈ ys, ∀ rest more, Ends rest → Ends more →
      encode x ++ rest = encode y ++ more → x = y ∧ rest = more)
    (starts : ∀ x ∈ xs ++ ys, ∀ rest, ¬ Ends (encode x ++ rest)) {rest more : JsString}
    (same : joinComma (xs.map encode) ++ close :: rest =
      joinComma (ys.map encode) ++ close :: more) : xs = ys ∧ rest = more := by
  have closed (rest : JsString) : Ends (close :: rest) := @listTail_ends _ encode _ closes [] rest
  cases xs with
  | nil =>
    cases ys with
    | nil =>
      cases same
      exact ⟨rfl, rfl⟩
    | cons y ys =>
      rw [joinComma_cons] at same
      have ends : Ends (encode y ++ listTail encode close ys more) :=
        same.symm.trans rfl ▸ closed rest
      exact absurd ends (starts y List.mem_cons_self _)
  | cons x xs =>
    cases ys with
    | nil =>
      rw [joinComma_cons] at same
      have ends : Ends (encode x ++ listTail encode close xs rest) :=
        same.trans rfl ▸ closed more
      exact absurd ends (starts x List.mem_cons_self _)
    | cons y ys =>
      rw [joinComma_cons, joinComma_cons] at same
      obtain ⟨rfl, tails⟩ := apart x List.mem_cons_self y List.mem_cons_self _ _
        (listTail_ends closes xs rest) (listTail_ends closes ys more) same
      obtain ⟨rfl, rfl⟩ := listTail_inj closes (fun a mem b others =>
        apart a (List.mem_cons_of_mem _ mem) b (List.mem_cons_of_mem _ others)) tails
      exact ⟨rfl, rfl⟩

end Lists
end ZonKey.Host

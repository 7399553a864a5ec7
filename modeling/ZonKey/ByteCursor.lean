import Mathlib.Data.Vector.Basic
import Mathlib.Data.Nat.Digits.Defs

set_option autoImplicit false

namespace ZonKey.ByteCursor

abbrev Bytes := List UInt8

/-- One past the largest `usize` of a 64-bit target. -/
def usizeLimit : Nat := 2 ^ 64

def checkedAdd (a b : Nat) : Option Nat := if a + b < usizeLimit then some (a + b) else none

theorem checkedAdd_of_lt {a b : Nat} (h : a + b < usizeLimit) : checkedAdd a b = some (a + b) := by
  simp [checkedAdd, h]

abbrev Reader (ε α : Type) := StateT Nat (Except ε) α

variable {ε α β : Type}

def leBytes : Nat → Nat → Bytes
  | 0, _ => []
  | width + 1, value => UInt8.ofNat value :: leBytes width (value / 256)

def ofLeBytes (bytes : Bytes) : Nat := Nat.ofDigits 256 (bytes.map UInt8.toNat)

theorem leBytes_length (width value : Nat) : (leBytes width value).length = width := by
  induction width generalizing value with
  | zero => rfl
  | succ width ih => simp [leBytes, ih]

theorem ofLeBytes_leBytes (width value : Nat) :
    ofLeBytes (leBytes width value) = value % 256 ^ width := by
  induction width generalizing value with
  | zero => simp [leBytes, ofLeBytes, Nat.mod_one]
  | succ width ih =>
    have tail := ih (value / 256)
    unfold ofLeBytes at tail ⊢
    have split : value % 256 ^ (width + 1) = value % 256 + 256 * (value / 256 % 256 ^ width) := by
      rw [Nat.pow_succ', Nat.mod_mul]
    rw [leBytes, List.map_cons, Nat.ofDigits_cons, tail, UInt8.toNat_ofNat', split]

theorem ofLeBytes_leBytes_of_lt {width value : Nat} (h : value < 256 ^ width) :
    ofLeBytes (leBytes width value) = value := by
  rw [ofLeBytes_leBytes, Nat.mod_eq_of_lt h]

theorem ofLeBytes_lt (bytes : Bytes) : ofLeBytes bytes < 256 ^ bytes.length := by
  have digits : ∀ d ∈ bytes.map UInt8.toNat, d < 256 := by
    intro d mem
    obtain ⟨byte, _, rfl⟩ := List.mem_map.mp mem
    exact byte.toNat_lt
  have bound := Nat.ofDigits_lt_base_pow_length (by omega) digits
  rwa [List.length_map] at bound

theorem leBytes_ofLeBytes (bytes : Bytes) : leBytes bytes.length (ofLeBytes bytes) = bytes := by
  induction bytes with
  | nil => rfl
  | cons byte rest ih =>
    have split : ofLeBytes (byte :: rest) = byte.toNat + 256 * ofLeBytes rest := Nat.ofDigits_cons ..
    have small := byte.toNat_lt
    have low : UInt8.ofNat (byte.toNat + 256 * ofLeBytes rest) = byte := by
      apply UInt8.toNat_inj.mp
      rw [UInt8.toNat_ofNat']
      omega
    have high : (byte.toNat + 256 * ofLeBytes rest) / 256 = ofLeBytes rest := by omega
    rw [List.length_cons, leBytes, split, low, high, ih]

/-- Takes the next `n` bytes; the end of the slice is computed with an
overflow check before the bounds are looked at. -/
def readFixed (overflow short : ε) (n : Nat) (bytes : Bytes) : Reader ε (List.Vector UInt8 n) :=
  fun offset =>
    if offset + n < usizeLimit then
      if h : offset + n ≤ bytes.length then
        .ok (⟨(bytes.drop offset).take n, by simp; omega⟩, offset + n)
      else .error short
    else .error overflow

def readMany (r : Bytes → Reader ε α) (bytes : Bytes) : Nat → Reader ε (List α)
  | 0 => pure []
  | count + 1 => do
    let first ← r bytes
    let rest ← readMany r bytes count
    pure (first :: rest)

def Reads (r : Bytes → Reader ε α) (enc : Bytes) (a : α) : Prop :=
  ∀ before after, (before ++ enc ++ after).length < usizeLimit →
    r (before ++ enc ++ after) before.length = .ok (a, before.length + enc.length)

theorem Reads.whole {r : Bytes → Reader ε α} {enc : Bytes} {a : α} (h : Reads r enc a)
    (fits : enc.length < usizeLimit) : r enc 0 = .ok (a, enc.length) := by
  simpa using h [] [] (by simpa using fits)

theorem reads_pure (a : α) : Reads (fun _ => (pure a : Reader ε α)) [] a := by
  intro before after _
  rfl

theorem Reads.bind {r : Bytes → Reader ε α} {k : α → Bytes → Reader ε β} {enc rest : Bytes}
    {a : α} {b : β} (first : Reads r enc a) (next : Reads (k a) rest b) :
    Reads (fun bytes => r bytes >>= fun x => k x bytes) (enc ++ rest) b := by
  intro before after fits
  have one := first before (rest ++ after) (by simpa [Nat.add_assoc] using fits)
  have two := next (before ++ enc) after (by simpa [Nat.add_assoc] using fits)
  simp only [List.append_assoc, List.length_append] at one two ⊢
  change (r _ before.length >>= fun p => k p.1 _ p.2) = _
  rw [one]
  change k a _ (before.length + enc.length) = _
  rw [two, Nat.add_assoc]

theorem Reads.map {r : Bytes → Reader ε α} {enc : Bytes} {a : α} (f : α → β)
    (h : Reads r enc a) : Reads (fun bytes => r bytes >>= fun x => pure (f x)) enc (f a) := by
  have both := h.bind (k := fun x _ => pure (f x)) (reads_pure (f a))
  rwa [List.append_nil] at both

theorem reads_fixed (overflow short : ε) {n : Nat} (v : List.Vector UInt8 n) :
    Reads (readFixed overflow short n) v.toList v := by
  intro before after fits
  have size : v.toList.length = n := v.toList_length
  simp only [List.length_append, size] at fits
  have bound : before.length + n ≤ (before ++ v.toList ++ after).length := by
    simp only [List.length_append, size]
    omega
  have small : before.length + n < usizeLimit := by omega
  simp only [readFixed, small, bound, ↓reduceIte, ↓reduceDIte, size]
  congr 2
  apply List.Vector.eq
  change ((before ++ v.toList ++ after).drop before.length).take n = v.toList
  rw [List.append_assoc, List.drop_left, List.take_left' size]

theorem Reads.guard {r : Bytes → Reader ε α} {enc : Bytes} {a : α} {c : Prop} [Decidable c]
    (e : ε) (passed : ¬ c) (h : Reads r enc a) :
    Reads (fun bytes => if c then throw e else r bytes) enc a := by
  simpa only [passed, ↓reduceIte] using h

theorem reads_many {r : Bytes → Reader ε α} {encode : α → Bytes} (items : List α)
    (each : ∀ a ∈ items, Reads r (encode a) a) :
    Reads (fun bytes => readMany r bytes items.length) (items.flatMap encode) items := by
  induction items with
  | nil => exact reads_pure []
  | cons a rest ih =>
    have tail := ih fun b hb => each b (List.mem_cons_of_mem _ hb)
    have all := (each a List.mem_cons_self).bind
      (k := fun x bytes => readMany r bytes rest.length >>= fun xs => pure (x :: xs))
      (tail.bind (k := fun xs _ => pure (a :: xs)) (reads_pure (a :: rest)))
    rw [List.append_nil] at all
    exact all

/-- Whatever `r` returns, the bytes it consumed stand in `R` to the value. -/
def Accepts (r : Bytes → Reader ε α) (R : α → Bytes → Prop) : Prop :=
  ∀ bytes offset a next, offset ≤ bytes.length → r bytes offset = .ok (a, next) →
    ∃ enc after, bytes.drop offset = enc ++ after ∧ next = offset + enc.length ∧ R a enc

theorem bind_ok {r : Reader ε α} {k : α → Reader ε β} {offset next : Nat} {b : β}
    (h : (r >>= k) offset = .ok (b, next)) :
    ∃ a mid, r offset = .ok (a, mid) ∧ k a mid = .ok (b, next) := by
  change (r offset >>= fun p => k p.1 p.2) = _ at h
  cases first : r offset with
  | error e => rw [first] at h; cases h
  | ok p =>
    rw [first] at h
    exact ⟨p.1, p.2, rfl, h⟩

theorem Accepts.whole {r : Bytes → Reader ε α} {R : α → Bytes → Prop} (h : Accepts r R)
    {bytes : Bytes} {a : α} (read : r bytes 0 = .ok (a, bytes.length)) : R a bytes := by
  obtain ⟨enc, after, split, next, rel⟩ := h bytes 0 a bytes.length (Nat.zero_le _) read
  rw [List.drop_zero] at split
  have none : after = [] := by
    have size := congrArg List.length split
    rw [List.length_append] at size
    exact List.length_eq_zero_iff.mp (by omega)
  rw [split, none, List.append_nil]
  exact rel

theorem accepts_pure {R : α → Bytes → Prop} (a : α) (h : R a []) :
    Accepts (fun _ => (pure a : Reader ε α)) R := by
  intro bytes offset b next _ read
  cases read
  exact ⟨[], bytes.drop offset, rfl, rfl, h⟩

theorem accepts_throw {R : α → Bytes → Prop} (e : ε) :
    Accepts (fun _ => (throw e : Reader ε α)) R := by
  intro bytes offset a next _ read
  cases read

/-- The continuation is examined behind the bytes that the first reader took. -/
theorem Accepts.bind {r : Bytes → Reader ε α} {k : α → Bytes → Reader ε β}
    {R : α → Bytes → Prop} {S : β → Bytes → Prop} (first : Accepts r R)
    (next : ∀ a enc, R a enc → Accepts (k a) fun b rest => S b (enc ++ rest)) :
    Accepts (fun bytes => r bytes >>= fun x => k x bytes) S := by
  intro bytes offset b stop bound read
  obtain ⟨a, mid, one, two⟩ := bind_ok read
  obtain ⟨enc, after, split, eq, rel⟩ := first bytes offset a mid bound one
  have size := congrArg List.length split
  rw [List.length_drop, List.length_append] at size
  obtain ⟨rest, last, split', eq', rel'⟩ := next a enc rel bytes mid b stop (by omega) two
  refine ⟨enc ++ rest, last, ?_, ?_, rel'⟩
  · have tail : bytes.drop mid = after := by
      rw [eq, ← List.drop_drop, split, List.drop_left]
    rw [split, List.append_assoc, ← split', tail]
  · rw [eq', eq, List.length_append, Nat.add_assoc]

theorem Accepts.guard {r : Bytes → Reader ε α} {R : α → Bytes → Prop} {c : Prop} [Decidable c]
    (e : ε) (passed : ¬ c → Accepts r R) : Accepts (fun bytes => if c then throw e else r bytes) R := by
  by_cases bad : c
  · simp only [bad, ↓reduceIte]
    exact accepts_throw e
  · simp only [bad, ↓reduceIte]
    exact passed bad

theorem accepts_fixed (overflow short : ε) (n : Nat) :
    Accepts (readFixed overflow short n) fun v enc => enc = v.toList := by
  intro bytes offset v next _ read
  unfold readFixed at read
  split_ifs at read with small inside
  cases read
  refine ⟨(bytes.drop offset).take n, (bytes.drop offset).drop n, ?_, ?_, rfl⟩
  · rw [List.take_append_drop]
  · rw [List.length_take, List.length_drop]
    omega

theorem accepts_many {r : Bytes → Reader ε α} {encode : α → Bytes} {P : α → Prop}
    (each : Accepts r fun a enc => enc = encode a ∧ P a) (count : Nat) :
    Accepts (fun bytes => readMany r bytes count) fun items enc =>
      items.length = count ∧ enc = items.flatMap encode ∧ ∀ a ∈ items, P a := by
  induction count with
  | zero => exact accepts_pure [] ⟨rfl, rfl, by simp⟩
  | succ count ih =>
    apply each.bind
    rintro a _ ⟨rfl, valid⟩
    apply ih.bind
    rintro items _ ⟨size, rfl, valids⟩
    apply accepts_pure
    refine ⟨by rw [List.length_cons, size], by simp, ?_⟩
    exact List.forall_mem_cons.mpr ⟨valid, valids⟩

end ZonKey.ByteCursor

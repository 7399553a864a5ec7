import Mathlib.Data.List.Basic

set_option autoImplicit false

/-!
# Incremental decoders

A front decoder takes one item off the front of a buffer, waits for more input,
or fails. Input behind an answer never changes it, so what the decoder makes of
a stream does not depend on where the stream is cut.
-/
namespace ZonKey

variable {β ι κ ε : Type*}

structure FrontDecoder (β ι ε : Type*) where
  decode : List β → Except ε (Option (ι × List β))
  consumes : ∀ {buffer item rest}, decode buffer = .ok (some (item, rest)) →
    rest.length < buffer.length
  item_append : ∀ {buffer item rest} more, decode buffer = .ok (some (item, rest)) →
    decode (buffer ++ more) = .ok (some (item, rest ++ more))
  error_append : ∀ {buffer error} more, decode buffer = .error error →
    decode (buffer ++ more) = .error error

inductive StreamEnd (β ε : Type*) where
  | failed (error : ε)
  | leftover (rest : List β)
  deriving DecidableEq

namespace FrontDecoder
variable (d : FrontDecoder β ι ε)

def run (stream : List β) : List ι × StreamEnd β ε :=
  match answer : d.decode stream with
  | .error error => ([], .failed error)
  | .ok none => ([], .leftover stream)
  | .ok (some (item, rest)) =>
    have := d.consumes answer
    (run rest).map (item :: ·) id
termination_by stream.length

variable {d} {stream rest : List β} {item : ι} {error : ε}

theorem run_error (answer : d.decode stream = .error error) : d.run stream = ([], .failed error) := by
  rw [run]
  split <;> simp_all

theorem run_waiting (answer : d.decode stream = .ok none) : d.run stream = ([], .leftover stream) := by
  rw [run]
  split <;> simp_all

theorem run_item (answer : d.decode stream = .ok (some (item, rest))) :
    d.run stream = (d.run rest).map (item :: ·) id := by
  rw [run]
  split <;> simp_all

variable (d) in
theorem stream_induction {motive : List β → Prop}
    (failed : ∀ stream error, d.decode stream = .error error → motive stream)
    (waiting : ∀ stream, d.decode stream = .ok none → motive stream)
    (item : ∀ stream item rest, d.decode stream = .ok (some (item, rest)) → motive rest →
      motive stream) (stream : List β) : motive stream := by
  induction size : stream.length using Nat.strongRecOn generalizing stream with
  | ind n ih =>
    cases answer : d.decode stream with
    | error e => exact failed stream e answer
    | ok next =>
      cases next with
      | none => exact waiting stream answer
      | some taken =>
        have shorter := d.consumes answer
        exact item stream taken.1 taken.2 answer (ih _ (size ▸ shorter) _ rfl)

theorem run_append_failed (more : List β) (ending : (d.run stream).2 = .failed error) :
    d.run (stream ++ more) = d.run stream := by
  induction stream using d.stream_induction with
  | failed stream e answer => rw [run_error answer, run_error (d.error_append more answer)]
  | waiting stream answer =>
    rw [run_waiting answer] at ending
    cases ending
  | item stream i rest answer ih =>
    rw [run_item answer] at ending
    rw [run_item answer, run_item (d.item_append more answer), ih ending]

/-- What a stream left over is decoded together with the input behind it. -/
theorem run_append (more : List β) (ending : (d.run stream).2 = .leftover rest) :
    d.run (stream ++ more) = (d.run (rest ++ more)).map ((d.run stream).1 ++ ·) id := by
  induction stream using d.stream_induction with
  | failed stream e answer =>
    rw [run_error answer] at ending
    cases ending
  | waiting stream answer =>
    rw [run_waiting answer] at ending ⊢
    cases ending
    rfl
  | item stream i later answer ih =>
    rw [run_item answer] at ending
    rw [run_item answer, run_item (d.item_append more answer), ih ending]
    rfl

section Refine

def refine (d : FrontDecoder β ι ε) (check : ι → Except ε κ) : FrontDecoder β κ ε where
  decode buffer :=
    match d.decode buffer with
    | .error error => .error error
    | .ok none => .ok none
    | .ok (some (item, rest)) => (check item).map fun checked => some (checked, rest)
  consumes := by
    intro buffer checked rest answer
    split at answer
    · cases answer
    · cases answer
    · rename_i item later taken
      cases verdict : check item <;> rw [verdict] at answer <;> cases answer
      exact d.consumes taken
  item_append := by
    intro buffer checked rest more answer
    split at answer
    · cases answer
    · cases answer
    · rename_i item later taken
      rw [d.item_append more taken]
      cases verdict : check item <;> rw [verdict] at answer <;> cases answer
      simp [verdict, Except.map]
  error_append := by
    intro buffer error more answer
    split at answer
    · rename_i e failed
      rw [d.error_append more failed]
      exact answer
    · cases answer
    · rename_i item later taken
      rw [d.item_append more taken]
      cases verdict : check item <;> rw [verdict] at answer <;> cases answer
      simp [verdict, Except.map]

variable {check : ι → Except ε κ} {checked : κ}

theorem refine_error (answer : d.decode stream = .error error) :
    (d.refine check).decode stream = .error error := by
  simp [refine, answer]

theorem refine_refused (answer : d.decode stream = .ok (some (item, rest)))
    (verdict : check item = .error error) : (d.refine check).decode stream = .error error := by
  simp [refine, answer, verdict, Except.map]

theorem refine_item (answer : d.decode stream = .ok (some (item, rest)))
    (verdict : check item = .ok checked) :
    (d.refine check).decode stream = .ok (some (checked, rest)) := by
  simp [refine, answer, verdict, Except.map]

theorem refine_waiting :
    (d.refine check).decode stream = .ok none ↔ d.decode stream = .ok none := by
  constructor
  · intro waiting
    cases answer : d.decode stream with
    | error e =>
      rw [refine_error answer] at waiting
      cases waiting
    | ok next =>
      cases next with
      | none => rfl
      | some taken =>
        cases verdict : check taken.1 with
        | error e =>
          rw [refine_refused answer verdict] at waiting
          cases waiting
        | ok checked =>
          rw [refine_item answer verdict] at waiting
          cases waiting
  · intro answer
    simp [refine, answer]

def checkAll (check : ι → Except ε κ) : List ι → StreamEnd β ε → List κ × StreamEnd β ε
  | [], ending => ([], ending)
  | item :: rest, ending =>
    match check item with
    | .error error => ([], .failed error)
    | .ok checked => (checkAll check rest ending).map (checked :: ·) id

theorem run_refine (stream : List β) :
    (d.refine check).run stream = checkAll check (d.run stream).1 (d.run stream).2 := by
  induction stream using d.stream_induction with
  | failed stream e answer =>
    rw [run_error answer, run_error (refine_error answer)]
    rfl
  | waiting stream answer =>
    rw [run_waiting answer, run_waiting (refine_waiting.mpr answer)]
    rfl
  | item stream i rest answer ih =>
    rw [run_item answer]
    cases verdict : check i with
    | error e =>
      rw [run_error (refine_refused answer verdict)]
      simp [checkAll, verdict]
    | ok checked =>
      rw [run_item (refine_item answer verdict), ih]
      simp [checkAll, verdict]

end Refine
end FrontDecoder
end ZonKey

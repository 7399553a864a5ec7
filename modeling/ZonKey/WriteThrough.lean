import ZonKey.Runs

set_option autoImplicit false

namespace ZonKey.WriteThrough

variable {σ α β δ ε φ : Type*}

structure LoggedFile (β : Type*) where
  content : Option β
  writes : List β

def LoggedFile.replace (file : LoggedFile β) (bytes : β) (durable : Bool) : LoggedFile β :=
  ⟨if durable then some bytes else file.content, file.writes ++ [bytes]⟩

def mutate (encode : σ → Except δ β) (refusal : ε → φ) (unwritten : φ) (durable : Bool)
    (operation : σ → Except ε α × σ) (live : σ) (file : LoggedFile β) :
    Except φ α × σ × LoggedFile β :=
  match operation live with
  | (.error error, _) => (.error (refusal error), live, file)
  | (.ok result, next) =>
    match encode next with
    | .error _ => (.error unwritten, live, file)
    | .ok bytes =>
      if durable then (.ok result, next, file.replace bytes durable)
      else (.error unwritten, live, file.replace bytes durable)

/-- The possible outcomes of a mutation, with the guard of each. -/
inductive Outcome (encode : σ → Except δ β) (refusal : ε → φ) (unwritten : φ) (durable : Bool)
    (operation : σ → Except ε α × σ) (live : σ) (file : LoggedFile β) :
    Except φ α → σ → LoggedFile β → Prop
  | refused {error : ε} {next : σ} (rejected : operation live = (.error error, next)) :
      Outcome encode refusal unwritten durable operation live file (.error (refusal error)) live file
  | unencodable {result : α} {next : σ} {error : δ} (accepted : operation live = (.ok result, next))
      (failed : encode next = .error error) :
      Outcome encode refusal unwritten durable operation live file (.error unwritten) live file
  | unwritten {result : α} {next : σ} {bytes : β} (accepted : operation live = (.ok result, next))
      (encoded : encode next = .ok bytes) (lost : durable = false) :
      Outcome encode refusal unwritten durable operation live file (.error unwritten) live
        ⟨file.content, file.writes ++ [bytes]⟩
  | committed {result : α} {next : σ} {bytes : β} (accepted : operation live = (.ok result, next))
      (encoded : encode next = .ok bytes) (written : durable = true) :
      Outcome encode refusal unwritten durable operation live file (.ok result) next
        ⟨some bytes, file.writes ++ [bytes]⟩

section Mutation
variable (encode : σ → Except δ β) (refusal : ε → φ) (unwritten : φ) (durable : Bool)
  (operation : σ → Except ε α × σ) (live : σ) (file : LoggedFile β)

theorem mutate_outcome :
    Outcome encode refusal unwritten durable operation live file
      (mutate encode refusal unwritten durable operation live file).1
      (mutate encode refusal unwritten durable operation live file).2.1
      (mutate encode refusal unwritten durable operation live file).2.2 := by
  unfold mutate
  split
  · rename_i rejected
    exact .refused rejected
  · rename_i accepted
    split
    · rename_i failed
      exact .unencodable accepted failed
    · rename_i encoded
      cases durable with
      | true => exact .committed accepted encoded rfl
      | false => exact .unwritten accepted encoded rfl

theorem mutate_map {γ : Type*} (f : α → γ) :
    mutate encode refusal unwritten durable (fun s => (operation s).map (Except.map f) id) live file =
      (mutate encode refusal unwritten durable operation live file).map (Except.map f) id := by
  unfold mutate
  cases performed : operation live with
  | mk result next =>
    cases result with
    | error error => simp only [performed, Prod.map, Except.map, id]
    | ok result =>
      simp only [performed, Prod.map, Except.map, id]
      cases encode next with
      | error error => rfl
      | ok bytes => cases durable <;> rfl

end Mutation

variable {encode : σ → Except δ β} {refusal : ε → φ} {unwritten : φ} {durable : Bool}
  {operation : σ → Except ε α × σ} {live next : σ} {file after : LoggedFile β}

theorem mutate_committed {result : α} {bytes : β} (accepted : operation live = (.ok result, next))
    (encoded : encode next = .ok bytes) :
    mutate encode refusal unwritten true operation live file =
      (.ok result, next, file.replace bytes true) := by
  simp only [mutate, accepted, encoded, if_pos]

theorem Outcome.error_unchanged {error : φ}
    (h : Outcome encode refusal unwritten durable operation live file (.error error) next after) :
    next = live ∧ after.content = file.content := by
  cases h <;> exact ⟨rfl, rfl⟩

theorem Outcome.ok_written {result : α}
    (h : Outcome encode refusal unwritten durable operation live file (.ok result) next after) :
    operation live = (.ok result, next) ∧ ∃ bytes, encode next = .ok bytes ∧
      after.content = some bytes := by
  cases h with
  | committed accepted encoded => exact ⟨accepted, _, encoded, rfl⟩

def Mirrored (encode : σ → Except δ β) (live : σ) (file : LoggedFile β) : Prop :=
  ∃ bytes, encode live = .ok bytes ∧ file.content = some bytes

theorem Outcome.mirrored {answer : Except φ α}
    (h : Outcome encode refusal unwritten durable operation live file answer next after)
    (start : Mirrored encode live file) : Mirrored encode next after := by
  cases h with
  | refused | unencodable => exact start
  | unwritten => exact start
  | committed accepted encoded => exact ⟨_, encoded, rfl⟩

end ZonKey.WriteThrough

import ZonKey.RecoveryRegistrySteps

set_option autoImplicit false

namespace ZonKey.Recovery
open RecoveryCodec Runs

namespace RegistryCall

/-- The call is an acknowledgement that removes the entry at `k`. -/
def Releases (c : RegistryCall) (r : RecoveryRegistry) (k : String) : Prop :=
  (c.apply r).1 = .acknowledge (.ok ()) ∧ c.key r = k

def Blocks (c : RegistryCall) (r : RecoveryRegistry) (k : String) : Prop :=
  (c.apply r).1 = .block (.ok none) ∧ c.key r = k

instance (c : RegistryCall) (r : RecoveryRegistry) (k : String) : Decidable (c.Releases r k) :=
  inferInstanceAs (Decidable (_ ∧ _))

instance (c : RegistryCall) (r : RecoveryRegistry) (k : String) : Decidable (c.Blocks r k) :=
  inferInstanceAs (Decidable (_ ∧ _))

end RegistryCall

namespace RecoveryRegistry
variable {r : RecoveryRegistry}

theorem isBlocked_iff {uri expected : String} : r.isBlocked uri expected = true ↔
    r.contains (key uri expected) = true ∨
      ∃ salt, r.salt = some salt ∧ r.contains (hashKey uri (saltedHash salt expected)) = true := by
  unfold isBlocked resolveKey
  by_cases plain : r.contains (key uri expected) = true
  · simp [plain]
  · cases salt : r.salt <;> simp [plain]

theorem resolveKey_cases (r : RecoveryRegistry) (uri expected : String) :
    r.resolveKey uri expected = key uri expected ∨
      ∃ salt, r.salt = some salt ∧
        r.resolveKey uri expected = hashKey uri (saltedHash salt expected) := by
  unfold resolveKey
  by_cases plain : r.contains (key uri expected) = true
  · exact .inl (by simp [plain])
  · cases salt : r.salt with
    | none => exact .inl (by simp [plain])
    | some known => exact .inr ⟨known, rfl, by simp [plain]⟩

theorem isBlocked_of_contains {r' : RecoveryRegistry} {uri expected : String}
    (salt : r'.salt = r.salt) (held : r'.contains (r.resolveKey uri expected) = true) :
    r'.isBlocked uri expected = true := by
  rw [isBlocked_iff]
  rcases r.resolveKey_cases uri expected with plain | ⟨known, eq, hashed⟩
  · rw [plain] at held
    exact .inl held
  · rw [hashed] at held
    exact .inr ⟨known, by rw [salt, eq], held⟩

theorem Effect.contains {c : RegistryCall} {answer : RegistryAnswer} {r' : RecoveryRegistry}
    (h : Effect r c answer r') {k : String} (held : r.contains k = true)
    (kept : ¬ (answer = .acknowledge (.ok ()) ∧ c.key r = k)) : r'.contains k = true := by
  by_cases here : k = c.key r
  · cases h with
    | full | unreconciled | unacknowledged => exact held
    | blocked | repeated | recorded | early =>
      simp [KeyedQueue.contains, here, RegistryCall.key, RegistryCall.uri, RegistryCall.expected]
    | acknowledged => exact absurd ⟨rfl, here.symm⟩ kept
  · unfold KeyedQueue.contains
    rw [h.other here]
    exact held

theorem contains_next {k : String} (held : r.contains k = true) {c : RegistryCall}
    (kept : ¬ c.Releases r k) : (r.next c).contains k = true :=
  (apply_effect r c).contains held kept

theorem isBlocked_next {uri expected : String} (held : r.isBlocked uri expected = true)
    {c : RegistryCall} (kept : ¬ c.Releases r (r.resolveKey uri expected)) :
    (r.next c).isBlocked uri expected = true :=
  isBlocked_of_contains (next_salt r c) (contains_next held kept)

def Carries (r : RecoveryRegistry) (k : String) (verdict : RecoveryVerdict) : Prop :=
  ∃ target acked, r.entries k = some target ∧ target.state = some (verdict, acked)

/-- A reconciliation that finds the entry at `k` without a verdict and records one. -/
def Records (c : RegistryCall) (r : RecoveryRegistry) (k : String)
    (verdict : RecoveryVerdict) : Prop :=
  (c.apply r).1 = .reconcile (.ok verdict) ∧ c.key r = k ∧
    (∃ target, r.entries k = some target ∧ target.state = none) ∧ Carries (r.next c) k verdict

theorem Effect.carries_after_block {c : RegistryCall} {answer : RegistryAnswer}
    {r' : RecoveryRegistry} (h : Effect r c answer r') {k : String} {verdict : RecoveryVerdict}
    (carried : Carries r' k verdict) : ¬ (answer = .block (.ok none) ∧ c.key r = k) := by
  rintro ⟨blocked, rfl⟩
  obtain ⟨target, acked, found, state⟩ := carried
  cases h <;> cases blocked
  have fresh : some (freshTarget _ _ _ _ _ _) = some target :=
    (KeyedQueue.put_self r.toKeyedQueue _ _).symm.trans found
  cases fresh
  cases state

theorem Effect.records {c : RegistryCall} {answer : RegistryAnswer} {r' : RecoveryRegistry}
    (h : Effect r c answer r') {k : String} {verdict : RecoveryVerdict}
    (before : ¬ Carries r k verdict) (after : Carries r' k verdict) :
    answer = .reconcile (.ok verdict) ∧ c.key r = k ∧
      ∃ target, r.entries k = some target ∧ target.state = none := by
  have here : c.key r = k := by
    by_contra ne
    obtain ⟨target, acked, found, state⟩ := after
    rw [h.other (Ne.symm ne)] at found
    exact before ⟨target, acked, found, state⟩
  subst here
  have carried := after
  obtain ⟨target, acked, found, state⟩ := after
  cases h with
  | full | unreconciled | unacknowledged => exact absurd carried before
  | blocked => exact absurd ⟨rfl, rfl⟩ ((Effect.blocked ‹_›).carries_after_block carried)
  | repeated known gate recorded =>
    have same := (KeyedQueue.setEntry_self r.toKeyedQueue _ _).symm.trans found
    cases same
    rw [bindSession_state gate] at state
    exact absurd ⟨_, _, known, state⟩ before
  | recorded known gate awaiting =>
    have same := (KeyedQueue.setEntry_self r.toKeyedQueue _ _).symm.trans found
    cases same
    cases state
    exact ⟨rfl, rfl, _, known, (bindSession_state gate).symm.trans awaiting⟩
  | early known gate awaiting =>
    have same := (KeyedQueue.setEntry_self r.toKeyedQueue _ _).symm.trans found
    cases same
    rw [awaiting] at state
    cases state
  | acknowledged =>
    have gone := (KeyedQueue.remove_self r.toKeyedQueue _).symm.trans found
    cases gone

theorem Effect.carries_of_acknowledged {c : RegistryCall} {r' : RecoveryRegistry}
    (h : Effect r c (.acknowledge (.ok ())) r') : ∃ verdict, Carries r (c.key r) verdict := by
  cases h with
  | @acknowledged _ _ _ _ target bound verdict found gate recorded =>
    rw [bindSession_state gate] at recorded
    exact ⟨verdict.1, target, verdict.2, found, recorded⟩

theorem Effect.rejected {c : RegistryCall} {error : RecoveryError} {r' : RecoveryRegistry}
    (h : Effect r c (.block (.error error)) r') : r' = r := by
  cases h
  rfl

def Built (r : RecoveryRegistry) : Prop :=
  (∃ capacity, new capacity = .ok r) ∨
    ∃ capacity salt records, restore capacity salt records = .ok r

/-- The record behind the entry at `k` was persisted with this verdict. -/
def RestoredWith (r : RecoveryRegistry) (k : String) (verdict : RecoveryVerdict) : Prop :=
  ∃ capacity salt records, restore capacity salt records = .ok r ∧
    ∃ record ∈ records, recordKey record = k ∧ record.kind = .blocked (some verdict)

theorem restoredWith_of_carries (built : Built r) {k : String} {verdict : RecoveryVerdict}
    (h : Carries r k verdict) : RestoredWith r k verdict := by
  obtain ⟨target, acked, found, state⟩ := h
  rcases built with ⟨capacity, made⟩ | ⟨capacity, salt, records, made⟩
  · rw [(new_ok made).1] at found
    cases found
  · obtain ⟨record, mem, eq, rfl⟩ := restore_entry made found
    refine ⟨capacity, salt, records, made, record, mem, eq, ?_⟩
    cases kind : record.kind with
    | blocked recorded =>
      cases recorded <;> simp_all [restoredTarget]
    | pending => simp [restoredTarget, kind] at state

/-- The verdict an acknowledgement at `k` relies on was recorded since the
entry was last blocked, or came with the restored record. -/
def VerdictSince (r : RecoveryRegistry) (calls : List RegistryCall) (k : String) : Prop :=
  ∃ verdict,
    (∃ before c after, calls = before ++ c :: after ∧ Records c (run next r before) k verdict ∧
      AllSteps next (fun s d => ¬ d.Blocks s k) (run next r (before ++ [c])) after) ∨
    (RestoredWith r k verdict ∧ AllSteps next (fun s d => ¬ d.Blocks s k) r calls)

theorem allSteps_not_blocks {s : RecoveryRegistry} {calls : List RegistryCall} {k : String}
    {verdict : RecoveryVerdict}
    (h : AllSteps next (fun u d => Carries u k verdict ∧ Carries (u.next d) k verdict) s calls) :
    AllSteps next (fun u d => ¬ d.Blocks u k) s calls :=
  h.imp fun u d both => (apply_effect u d).carries_after_block both.2

theorem verdictSince_of_carries (built : Built r) {calls : List RegistryCall} {k : String}
    {verdict : RecoveryVerdict} (h : Carries (run next r calls) k verdict) :
    VerdictSince r calls k := by
  rcases last_established (fun s => Carries s k verdict) r calls h with
    ⟨start, kept⟩ | ⟨before, c, after, eq, was, made, kept⟩
  · exact ⟨verdict, .inr ⟨restoredWith_of_carries built start, allSteps_not_blocks kept⟩⟩
  · obtain ⟨answered, here, awaiting⟩ := (apply_effect _ c).records was made
    refine ⟨verdict, .inl ⟨before, c, after, eq, ⟨answered, here, awaiting, made⟩, ?_⟩⟩
    rw [run_append]
    exact allSteps_not_blocks kept

/-- No unresolved block is forgotten. From any state of a run a blocked target
stays blocked until an acknowledgement resolves to its key, both as the key
stands at each call and as it stood at the start; an acknowledgement needs a
verdict recorded since the last block; a rejected block changes nothing. -/
theorem block_lifecycle (built : Built r) (calls : List RegistryCall) :
    (∀ before after uri expected, calls = before ++ after →
      (run next r before).isBlocked uri expected = true →
      (AllSteps next (fun s c => ¬ c.Releases s (s.resolveKey uri expected))
          (run next r before) after ∨
        AllSteps next (fun s c => ¬ c.Releases s ((run next r before).resolveKey uri expected))
          (run next r before) after) →
      (run next r calls).isBlocked uri expected = true) ∧
    (∀ before c after, calls = before ++ c :: after →
      (c.apply (run next r before)).1 = .acknowledge (.ok ()) →
      VerdictSince r before (c.key (run next r before))) ∧
    (∀ before c after error, calls = before ++ c :: after →
      (c.apply (run next r before)).1 = .block (.error error) →
      run next r (before ++ [c]) = run next r before) := by
  refine ⟨?_, ?_, ?_⟩
  · rintro before after uri expected rfl held unreleased
    rw [run_append]
    rcases unreleased with atEach | atStart
    · exact run_invariant (fun s => s.isBlocked uri expected = true)
        (fun s c blocked kept => isBlocked_next blocked kept) held atEach
    · -- Here the key found at the start is the invariant, and the salt with it.
      have kept := run_invariant (fun s => s.salt = (run next r before).salt ∧
          s.contains ((run next r before).resolveKey uri expected) = true)
        (fun s c start unreleased =>
          ⟨(next_salt s c).trans start.1, contains_next start.2 unreleased⟩)
        ⟨rfl, held⟩ atStart
      exact isBlocked_of_contains kept.1 kept.2
  · rintro before c after rfl answered
    have effect := apply_effect (run next r before) c
    rw [answered] at effect
    obtain ⟨verdict, carried⟩ := effect.carries_of_acknowledged
    exact verdictSince_of_carries built carried
  · rintro before c after error rfl answered
    rw [run_append]
    have effect := apply_effect (run next r before) c
    rw [answered] at effect
    exact effect.rejected

theorem block_lifecycle_early_ack : ∃ r, new 2 = .ok r ∧
    (run next r [.block "s" "file:///a" "resume" "restored" (0, 6) 0,
      .acknowledge "s" "file:///a" "resume" 0]).isBlocked "file:///a" "resume" = true :=
  ⟨⟨KeyedQueue.empty, 2, by decide, none⟩, rfl,
    (block_lifecycle (.inl ⟨2, rfl⟩) _).1
      [.block "s" "file:///a" "resume" "restored" (0, 6) 0]
      [.acknowledge "s" "file:///a" "resume" 0] "file:///a" "resume" rfl (by decide)
      (.inl (by decide))⟩

end RecoveryRegistry
end ZonKey.Recovery

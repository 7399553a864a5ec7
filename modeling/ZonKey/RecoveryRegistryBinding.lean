import ZonKey.RecoveryRestore

set_option autoImplicit false

namespace ZonKey.Recovery
open RecoveryCodec Runs
namespace RecoveryRegistry

/-- A target as `restore` builds it that no session has claimed yet. -/
def RestoredUnbound (target : BlockedTarget) : Prop :=
  target.sessionId = "" ∧ (∃ hash, target.expected = .hashed hash) ∧
    ∃ hash, target.replacement = .hashed hash

def KeepsBinding (target later : BlockedTarget) : Prop :=
  later.sessionId = target.sessionId ∧ later.documentEpoch = target.documentEpoch ∧
    later.expected = target.expected ∧ later.replacement = target.replacement ∧
    later.state = target.state

/-- Over every stretch of the run: an epoch-bound restored target keeps its
binding while no call for it supplies its epoch, and a target bound to a
session is untouched while no call for it comes from that session. -/
def BindingRespected (r : RecoveryRegistry) (calls : List RegistryCall) : Prop :=
  ∀ before during after, calls = before ++ during ++ after →
    ∀ k target, (run next r before).entries k = some target →
      (RestoredUnbound target → target.documentEpoch ≠ 0 →
        AllSteps next (fun s c => ¬ (c.key s = k ∧ c.documentEpoch = target.documentEpoch))
          (run next r before) during →
        ∃ later, (run next r (before ++ during)).entries k = some later ∧
          KeepsBinding target later) ∧
      (target.sessionId ≠ "" →
        AllSteps next (fun s c => ¬ (c.key s = k ∧ c.sessionId = target.sessionId))
          (run next r before) during →
        (run next r (before ++ during)).entries k = some target)

/-- The gate of the sibling calls, asked of a `block` that meets an entry. -/
def BlockGated (r : RecoveryRegistry) : RegistryCall → Prop
  | .block sessionId uri expected _ _ epoch =>
    ∀ target, r.entries (r.resolveKey uri expected) = some target →
      (RestoredUnbound target → target.documentEpoch ≠ 0 → epoch = target.documentEpoch) ∧
      (target.sessionId ≠ "" → sessionId = target.sessionId)
  | _ => True

theorem bindSession_gate {target bound : BlockedTarget} {sessionId : String} {epoch : UInt64}
    (h : bindSession target sessionId epoch = .ok bound) :
    (target.sessionId = "" → target.documentEpoch ≠ 0 → epoch = target.documentEpoch) ∧
      (target.sessionId ≠ "" → sessionId = target.sessionId) := by
  rcases bindSession_ok h with ⟨unbound, allowed, _⟩ | ⟨owned, same, _⟩
  · refine ⟨fun _ nonzero => ?_, fun owned => absurd unbound owned⟩
    have eq : target.documentEpoch = epoch := by
      simpa [rebindAllowed, nonzero] using allowed
    exact eq.symm
  · exact ⟨fun unbound => absurd unbound owned, fun _ => same.symm⟩

theorem Effect.gated {r r' : RecoveryRegistry} {c : RegistryCall} {answer : RegistryAnswer}
    (h : Effect r c answer r') (gated : BlockGated r c) {target : BlockedTarget}
    (found : r.entries (c.key r) = some target) :
    r'.entries (c.key r) = some target ∨
      ((RestoredUnbound target → target.documentEpoch ≠ 0 →
          c.documentEpoch = target.documentEpoch) ∧
        (target.sessionId ≠ "" → c.sessionId = target.sessionId)) := by
  cases h with
  | full | unreconciled | unacknowledged => exact .inl found
  | blocked => exact .inr (gated target found)
  | repeated known gate | recorded known gate | early known gate | acknowledged known gate =>
    cases found.symm.trans known
    obtain ⟨epoch, session⟩ := bindSession_gate gate
    exact .inr ⟨fun restored => epoch restored.1, session⟩

theorem restored_kept {r : RecoveryRegistry} {k : String} {target : BlockedTarget}
    (restored : RestoredUnbound target) (nonzero : target.documentEpoch ≠ 0)
    {calls : List RegistryCall} (found : r.entries k = some target)
    (allowed : AllSteps next (fun s c => BlockGated s c ∧
      ¬ (c.key s = k ∧ c.documentEpoch = target.documentEpoch)) r calls) :
    (run next r calls).entries k = some target := by
  refine run_invariant (fun s => s.entries k = some target) ?_ found allowed
  rintro s c here ⟨gated, silent⟩
  by_cases same : c.key s = k
  · subst same
    rcases (apply_effect s c).gated gated here with kept | ⟨epoch, _⟩
    · exact kept
    · exact absurd ⟨rfl, epoch restored nonzero⟩ silent
  · exact (next_other s c (Ne.symm same)).trans here

theorem owned_kept {r : RecoveryRegistry} {k : String} {target : BlockedTarget}
    (owned : target.sessionId ≠ "") {calls : List RegistryCall}
    (found : r.entries k = some target)
    (allowed : AllSteps next (fun s c => BlockGated s c ∧
      ¬ (c.key s = k ∧ c.sessionId = target.sessionId)) r calls) :
    (run next r calls).entries k = some target := by
  refine run_invariant (fun s => s.entries k = some target) ?_ found allowed
  rintro s c here ⟨gated, silent⟩
  by_cases same : c.key s = k
  · subst same
    rcases (apply_effect s c).gated gated here with kept | ⟨_, session⟩
    · exact kept
    · exact absurd ⟨rfl, session owned⟩ silent
  · exact (next_other s c (Ne.symm same)).trans here

theorem respected_of_gated {r : RecoveryRegistry} {calls : List RegistryCall}
    (h : AllSteps next BlockGated r calls) : BindingRespected r calls := by
  rintro before during after rfl k target found
  have gated := ((allSteps_append r before during).mp ((allSteps_append r _ after).mp h).1).2
  rw [run_append]
  constructor
  · intro restored nonzero silent
    exact ⟨target, restored_kept restored nonzero found (gated.and silent), rfl, rfl, rfl, rfl, rfl⟩
  · intro owned silent
    exact owned_kept owned found (gated.and silent)

theorem block_replaces {r : RecoveryRegistry} {uri expected : String} {target : BlockedTarget}
    (sessionId replacement : String) (range : UInt64 × UInt64) (epoch : UInt64)
    (found : r.entries (r.resolveKey uri expected) = some target) :
    (r.next (.block sessionId uri expected replacement range epoch)).entries
        (r.resolveKey uri expected) =
      some (freshTarget sessionId uri expected replacement range epoch) := by
  rw [next_block_of_room (.inl (by simp [KeyedQueue.contains, found]))]
  exact KeyedQueue.put_self _ _ _

theorem gated_of_respected {r : RecoveryRegistry} {calls : List RegistryCall}
    (h : BindingRespected r calls) : AllSteps next BlockGated r calls := by
  apply allSteps_of_split
  intro before c after eq
  cases c with
  | reconcile | acknowledge => trivial
  | block sessionId uri expected replacement range epoch =>
    intro target found
    obtain ⟨restoredKept, ownedKept⟩ := h before [.block sessionId uri expected replacement range
      epoch] after (by simpa using eq) _ target found
    rw [run_append] at restoredKept ownedKept
    have replaced := block_replaces sessionId replacement range epoch found
    refine ⟨fun restored nonzero => ?_, fun owned => ?_⟩
    · by_contra other
      obtain ⟨later, here, _, _, text, _⟩ :=
        restoredKept restored nonzero ⟨fun both => other both.2, trivial⟩
      cases replaced.symm.trans here
      obtain ⟨hash, hashed⟩ := restored.2.1
      rw [hashed] at text
      cases text
    · by_contra other
      have here := ownedKept owned ⟨fun both => other both.2, trivial⟩
      cases replaced.symm.trans here
      exact other rfl

/-- Bindings are respected along a run exactly when every `block` that meets an
entry passes the gate of the sibling calls. -/
theorem bindingRespected_iff (r : RecoveryRegistry) (calls : List RegistryCall) :
    BindingRespected r calls ↔ AllSteps next BlockGated r calls :=
  ⟨gated_of_respected, respected_of_gated⟩

/-- A restored target bound to epoch 7 loses its epoch and hashes to a block
that supplies epoch 0. -/
theorem block_unbinds_restored_target : ∃ salt record r, restore 4 salt [record] = .ok r ∧
    record.documentEpoch = 7 ∧
    ¬ BindingRespected r [.block "other" "file:///a" "resume" "restored" (0, 6) 0] := by
  let salt : Salt := .replicate 16 0
  let record : PersistedTarget := ⟨"file:///a", (0, 6), saltedHash salt "resume",
    saltedHash salt "restored", .blocked (some .conflictHumanReview), 0, 7, "operator"⟩
  let queue := KeyedQueue.empty.append (recordKey record, restoredTarget record)
  let r : RecoveryRegistry := ⟨queue, 4, by decide, some salt⟩
  have restored : restore 4 salt [record] = .ok r := rfl
  have short : "resume".toList.length ≠ 64 := by decide
  obtain ⟨addressed, found⟩ := restore_one restored rfl short
  refine ⟨salt, record, r, restored, rfl, fun respected => ?_⟩
  have gate := (gated_of_respected respected).1 (restoredTarget record)
    ((congrArg r.entries addressed).trans found)
  have epoch := gate.1 ⟨rfl, ⟨_, rfl⟩, ⟨_, rfl⟩⟩ (by decide)
  exact absurd epoch (by decide)

end RecoveryRegistry
end ZonKey.Recovery

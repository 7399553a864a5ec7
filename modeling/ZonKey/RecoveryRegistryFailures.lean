import ZonKey.RecoveryRestore

set_option autoImplicit false

namespace ZonKey.Recovery
open RecoveryCodec Runs

def RegistryAnswer.isError : RegistryAnswer → Bool
  | .block (.error _) | .reconcile (.error _) | .acknowledge (.error _) => true
  | _ => false

namespace RecoveryRegistry
variable {r : RecoveryRegistry}

def FailureUnchanged (r : RecoveryRegistry) (c : RegistryCall) : Prop :=
  (c.apply r).1.isError = true → r.next c = r

/-- An acknowledgement of a restored target that is still unbound and has no verdict, from a session
and with an epoch that may bind it. -/
def BindsEarly (r : RecoveryRegistry) : RegistryCall → Prop
  | .acknowledge sessionId uri expected epoch => sessionId ≠ "" ∧
    ∃ target, r.entries (r.resolveKey uri expected) = some target ∧ target.sessionId = "" ∧
      target.state = none ∧ rebindAllowed target epoch = true
  | _ => False

theorem setEntry_same {k : String} {target : BlockedTarget} (found : r.entries k = some target) :
    r.setEntry k target = r := by
  have same : Function.update r.entries k (some target) = r.entries := by
    rw [← found, Function.update_eq_self]
  simp [setEntry, KeyedQueue.setEntry, same]

theorem acknowledge_bindsEarly (sessionId : String) {uri expected : String} {epoch : UInt64}
    {target : BlockedTarget} (found : r.entries (r.resolveKey uri expected) = some target)
    (unbound : target.sessionId = "") (awaiting : target.state = none)
    (allowed : rebindAllowed target epoch = true) :
    r.acknowledge sessionId uri expected epoch = (.error .ackBeforeReconcile,
      r.setEntry (r.resolveKey uri expected) { target with sessionId := sessionId }) := by
  simp [acknowledge, found, bindSession, unbound, allowed, awaiting]

theorem failureUnchanged_iff (r : RecoveryRegistry) (c : RegistryCall) :
    FailureUnchanged r c ↔ ¬ BindsEarly r c := by
  constructor
  · intro unchanged early
    cases c with
    | block | reconcile => exact early
    | acknowledge sessionId uri expected epoch =>
      obtain ⟨named, target, found, unbound, awaiting, allowed⟩ := early
      have refused := acknowledge_bindsEarly sessionId found unbound awaiting allowed
      have same : r.setEntry (r.resolveKey uri expected) { target with sessionId := sessionId } =
          r := by
        have kept := unchanged (by simp [RegistryCall.apply, refused, RegistryAnswer.isError])
        simpa [next, RegistryCall.apply, refused] using kept
      have entry := congrArg (fun s => s.entries (r.resolveKey uri expected)) same
      simp only [setEntry_entries, KeyedQueue.setEntry_self, found, Option.some.injEq] at entry
      exact named ((congrArg BlockedTarget.sessionId entry).trans unbound)
  · intro late failed
    have effect := apply_effect r c
    unfold next
    generalize (c.apply r).1 = answer at effect failed
    generalize (c.apply r).2 = after at effect ⊢
    cases effect with
    | full | unreconciled | unacknowledged => rfl
    | blocked | repeated | recorded | acknowledged => cases failed
    | @early sessionId uri expected epoch target bound found gate awaiting =>
      have same : bound = target := by
        rcases bindSession_ok gate with ⟨unbound, allowed, rfl⟩ | ⟨_, _, rfl⟩
        · have unnamed : sessionId = "" := by
            by_contra named
            exact late ⟨named, target, found, unbound, awaiting, allowed⟩
          rw [unnamed, ← unbound]
        · rfl
      rw [same]
      exact setEntry_same found

/-- Along a run every refused call leaves the registry as it was exactly when no acknowledgement
binds a restored target that has no verdict. -/
theorem run_failures_unchanged_iff (r : RecoveryRegistry) (calls : List RegistryCall) :
    AllSteps next FailureUnchanged r calls ↔
      AllSteps next (fun s c => ¬ BindsEarly s c) r calls := by
  constructor
  · exact AllSteps.imp fun s c => (failureUnchanged_iff s c).mp
  · exact AllSteps.imp fun s c => (failureUnchanged_iff s c).mpr

theorem refused_ack_binds : ∃ salt record r, restore 4 salt [record] = .ok r ∧
    ¬ AllSteps next FailureUnchanged r [.acknowledge "other" "file:///a" "resume" 0] := by
  let salt : Salt := .replicate 16 0
  let record : PersistedTarget := ⟨"file:///a", (0, 6), saltedHash salt "resume",
    saltedHash salt "restored", .blocked none, 0, 0, "operator"⟩
  let queue := KeyedQueue.empty.append (recordKey record, restoredTarget record)
  let r : RecoveryRegistry := ⟨queue, 4, by decide, some salt⟩
  have restored : restore 4 salt [record] = .ok r := rfl
  have short : "resume".toList.length ≠ 64 := by decide
  obtain ⟨addressed, found⟩ := restore_one restored rfl short
  refine ⟨salt, record, r, restored, fun unchanged => ?_⟩
  refine (failureUnchanged_iff r _).mp unchanged.1 ⟨by decide, restoredTarget record, ?_, rfl, rfl, rfl⟩
  exact (congrArg r.entries addressed).trans found

end RecoveryRegistry
end ZonKey.Recovery

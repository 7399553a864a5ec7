import ZonKey.RecoveryRegistryLifecycle

set_option autoImplicit false

namespace ZonKey.Recovery
open RecoveryCodec Runs

inductive RegistryAccess where
  | isBlocked (uri expected : String)
  | call (c : RegistryCall)

namespace RegistryAccess

def uri : RegistryAccess → String
  | isBlocked uri _ => uri
  | call c => c.uri

def expected : RegistryAccess → String
  | isBlocked _ expected => expected
  | call c => c.expected

def key (a : RegistryAccess) (r : RecoveryRegistry) : String := r.resolveKey a.uri a.expected

def perform (a : RegistryAccess) (r : RecoveryRegistry) :
    (Bool ⊕ RegistryAnswer) × RecoveryRegistry :=
  match a with
  | isBlocked uri expected => (.inl (r.isBlocked uri expected), r)
  | call c => (c.apply r).map .inr id

end RegistryAccess

namespace RecoveryRegistry
variable {r : RecoveryRegistry}

def visit (r : RecoveryRegistry) (a : RegistryAccess) : RecoveryRegistry := (a.perform r).2

def withEntry (r : RecoveryRegistry) (k : String) (entry : Option BlockedTarget) :
    RecoveryRegistry := { r with entries := Function.update r.entries k entry }

/-- The access changes the entry at `k`, or its answer depends on that entry. -/
def Depends (a : RegistryAccess) (r : RecoveryRegistry) (k : String) : Prop :=
  (r.visit a).entries k ≠ r.entries k ∨ ∃ entry, (a.perform (r.withEntry k entry)).1 ≠ (a.perform r).1

theorem withEntry_other {k j : String} (ne : j ≠ k) (entry : Option BlockedTarget) :
    (r.withEntry k entry).entries j = r.entries j := Function.update_of_ne ne _ _

theorem resolveKey_withEntry {k uri expected : String} {target : BlockedTarget}
    (found : r.entries k = some target) (ne : k ≠ r.resolveKey uri expected)
    (entry : Option BlockedTarget) :
    (r.withEntry k entry).resolveKey uri expected = r.resolveKey uri expected := by
  have apart : key uri expected ≠ k := by
    rintro rfl
    apply ne
    have known : r.contains (key uri expected) = true := by
      simp [KeyedQueue.contains, found]
    simp only [resolveKey, known, ↓reduceIte]
  have lookup : (r.withEntry k entry).contains (key uri expected) =
      r.contains (key uri expected) := congrArg Option.isSome (withEntry_other apart entry)
  simp only [resolveKey, lookup]
  rfl

theorem apply_answer {s : RecoveryRegistry} (c : RegistryCall) (order : s.order = r.order)
    (capacity : s.capacity = r.capacity) (salt : s.salt = r.salt) (address : c.key s = c.key r)
    (entry : s.entries (c.key r) = r.entries (c.key r)) : (c.apply s).1 = (c.apply r).1 := by
  cases c with
  | block sessionId uri expected replacement range epoch =>
    change s.resolveKey uri expected = r.resolveKey uri expected at address
    have known : s.contains (r.resolveKey uri expected) = r.contains (r.resolveKey uri expected) :=
      congrArg Option.isSome entry
    simp only [RegistryCall.apply, block, address, known, order, capacity]
    split <;> rfl
  | reconcile sessionId uri expected epoch live =>
    change s.resolveKey uri expected = r.resolveKey uri expected at address
    change s.entries (r.resolveKey uri expected) = r.entries (r.resolveKey uri expected) at entry
    have verdict : ∀ target, s.verdictOf target live = r.verdictOf target live := by
      intro target
      simp only [verdictOf, salt]
    simp only [RegistryCall.apply, reconcile, address, entry, verdict]
    cases r.entries (r.resolveKey uri expected) with
    | none => rfl
    | some target =>
      cases gate : bindSession target sessionId epoch with
      | error e => simp only [gate]; rfl
      | ok bound => simp only [gate]; split <;> rfl
  | acknowledge sessionId uri expected epoch =>
    change s.resolveKey uri expected = r.resolveKey uri expected at address
    change s.entries (r.resolveKey uri expected) = r.entries (r.resolveKey uri expected) at entry
    simp only [RegistryCall.apply, acknowledge, address, entry]
    cases r.entries (r.resolveKey uri expected) with
    | none => rfl
    | some target =>
      cases gate : bindSession target sessionId epoch with
      | error e => simp only [gate]; rfl
      | ok bound => simp only [gate]; split <;> rfl

theorem not_depends {a : RegistryAccess} {k : String} {target : BlockedTarget}
    (found : r.entries k = some target) (ne : k ≠ a.key r) : ¬ Depends a r k := by
  rintro (changed | ⟨entry, answered⟩)
  · cases a with
    | isBlocked => exact changed rfl
    | call c => exact changed (next_other r c ne)
  · apply answered
    have address := resolveKey_withEntry found ne entry
    have here : (r.withEntry k entry).entries (a.key r) = r.entries (a.key r) :=
      withEntry_other ne.symm entry
    cases a with
    | isBlocked uri expected =>
      refine congrArg Sum.inl ?_
      unfold isBlocked
      rw [show (r.withEntry k entry).resolveKey uri expected = _ from address]
      exact congrArg Option.isSome here
    | call c => exact congrArg Sum.inr (apply_answer c rfl rfl rfl address here)

def Names (salt : Option Salt) (target : BlockedTarget) (uri expected : String) : Prop :=
  target.uri = uri ∧ (target.expected = .plain expected ∨
    ∃ known, salt = some known ∧ target.expected = .hashed (saltedHash known expected))

/-- Every target that the access addresses or depends on is the named one. -/
def ReachesOnlyNamed (r : RecoveryRegistry) (a : RegistryAccess) : Prop :=
  ∀ k target, r.entries k = some target → k = a.key r ∨ Depends a r k →
    Names r.salt target a.uri a.expected

def namedKey (salt : Option Salt) (uri expected : String) : String :=
  match salt with
  | some known => hashKey uri (saltedHash known expected)
  | none => key uri expected

def filedKey (salt : Option Salt) (target : BlockedTarget) : String :=
  match target.expected with
  | .plain text => namedKey salt target.uri text
  | .hashed hash => hashKey target.uri hash

/-- No retained target but the named one spells a key of these arguments. -/
def SpelledApart (r : RecoveryRegistry) (a : RegistryAccess) : Prop :=
  ∀ k target, r.entries k = some target → ¬ Names r.salt target a.uri a.expected →
    filedKey r.salt target ≠ key a.uri a.expected ∧
      filedKey r.salt target ≠ namedKey r.salt a.uri a.expected

def Filed (r : RecoveryRegistry) : Prop :=
  ∀ k target, r.entries k = some target → k = filedKey r.salt target

theorem filedKey_of_names {salt : Option Salt} {target : BlockedTarget} {uri expected : String}
    (h : Names salt target uri expected) : filedKey salt target = namedKey salt uri expected := by
  obtain ⟨rfl, plain | ⟨known, rfl, hashed⟩⟩ := h
  · simp [filedKey, plain]
  · simp [filedKey, hashed, namedKey]

theorem resolveKey_of_absent {uri expected : String}
    (absent : r.entries (key uri expected) = none) :
    r.resolveKey uri expected = namedKey r.salt uri expected := by
  have unknown : r.contains (key uri expected) = false := by simpa using absent
  simp only [resolveKey, unknown, namedKey]
  cases r.salt <;> rfl

theorem resolveKey_of_found {uri expected : String} {target : BlockedTarget}
    (found : r.entries (key uri expected) = some target) :
    r.resolveKey uri expected = key uri expected := by
  have known : r.contains (key uri expected) = true := by simp [KeyedQueue.contains, found]
  simp only [resolveKey, known, ↓reduceIte]

theorem reachesOnlyNamed_iff (filed : Filed r) (a : RegistryAccess) :
    ReachesOnlyNamed r a ↔ SpelledApart r a := by
  constructor
  · intro disciplined k target found unnamed
    have here := filed k target found
    rw [← here]
    refine ⟨fun same => ?_, fun same => ?_⟩
    · subst same
      exact unnamed (disciplined _ target found (.inl (resolveKey_of_found found).symm))
    · cases plain : r.entries (key a.uri a.expected) with
      | none =>
        have address : k = a.key r := same.trans (resolveKey_of_absent plain).symm
        exact unnamed (disciplined k target found (.inl address))
      | some other =>
        -- The plain key is taken by a target of the same name, filed elsewhere.
        have named := disciplined _ other plain (.inl (resolveKey_of_found plain).symm)
        have both : key a.uri a.expected = k :=
          (filed _ other plain).trans ((filedKey_of_names named).trans same.symm)
        rw [both, found] at plain
        cases plain
        exact unnamed named
  · intro apart k target found reached
    by_contra unnamed
    obtain ⟨plain, named⟩ := apart k target found unnamed
    rw [← filed k target found] at plain named
    have away : k ≠ a.key r := by
      intro here
      cases known : r.entries (key a.uri a.expected) with
      | none => exact named (here.trans (resolveKey_of_absent known))
      | some other => exact plain (here.trans (resolveKey_of_found known))
    exact reached.elim away (not_depends found away)

theorem Effect.filed {c : RegistryCall} {answer : RegistryAnswer} {r' : RecoveryRegistry}
    (h : Effect r c answer r') (filed : Filed r)
    (disciplined : ReachesOnlyNamed r (.call c)) : Filed r' := by
  intro k target found
  rw [h.salt]
  by_cases here : k = c.key r
  · subst here
    cases h with
    | full | unreconciled | unacknowledged => exact filed _ _ found
    | @blocked sessionId uri expected replacement range epoch =>
      cases (KeyedQueue.put_self r.toKeyedQueue _ _).symm.trans found
      change r.resolveKey uri expected = namedKey r.salt uri expected
      cases before : r.entries (r.resolveKey uri expected) with
      | some old =>
        have named := disciplined _ old before (.inl rfl)
        exact (filed _ old before).trans (filedKey_of_names named)
      | none =>
        apply resolveKey_of_absent
        by_contra plain
        obtain ⟨other, known⟩ := Option.ne_none_iff_exists'.mp plain
        rw [resolveKey_of_found known, known] at before
        cases before
    | repeated known gate | recorded known gate | early known gate =>
      cases (KeyedQueue.setEntry_self r.toKeyedQueue _ _).symm.trans found
      have old := filed _ _ known
      rcases bindSession_ok gate with ⟨_, _, rfl⟩ | ⟨_, _, rfl⟩ <;> exact old
    | acknowledged =>
      cases (KeyedQueue.remove_self r.toKeyedQueue _).symm.trans found
  · rw [h.other here] at found
    exact filed k target found

theorem filed_visit (filed : Filed r) {a : RegistryAccess} (disciplined : ReachesOnlyNamed r a) :
    Filed (r.visit a) := by
  cases a with
  | isBlocked => exact filed
  | call c => exact (apply_effect r c).filed filed disciplined

theorem filed_of_built (built : Built r) : Filed r := by
  intro k target found
  rcases built with ⟨capacity, made⟩ | ⟨capacity, salt, records, made⟩
  · rw [(new_ok made).1] at found
    cases found
  · obtain ⟨record, _, rfl, rfl⟩ := restore_entry made found
    rfl

/-- Along a run every access reaches only the target it names exactly when no
other retained target spells a key of its arguments. -/
theorem accesses_named_iff (built : Built r) (accesses : List RegistryAccess) :
    AllSteps visit ReachesOnlyNamed r accesses ↔ AllSteps visit SpelledApart r accesses := by
  constructor
  · exact allSteps_of_invariant Filed (fun s a filed ok => filed_visit filed ok)
      (fun s a filed => (reachesOnlyNamed_iff filed a).mp) (filed_of_built built)
  · exact allSteps_of_invariant Filed
      (fun s a filed apart => filed_visit filed ((reachesOnlyNamed_iff filed a).mpr apart))
      (fun s a filed => (reachesOnlyNamed_iff filed a).mpr) (filed_of_built built)

theorem accesses_named_other_uri : ∃ r, new 2 = .ok r ∧
    (AllSteps visit ReachesOnlyNamed r
        [.call (.block "s" "file:///a" "resume" "restored" (0, 6) 0),
          .isBlocked "file:///b" "resume"] ↔
      AllSteps visit SpelledApart r
        [.call (.block "s" "file:///a" "resume" "restored" (0, 6) 0),
          .isBlocked "file:///b" "resume"]) :=
  ⟨⟨KeyedQueue.empty, 2, by decide, none⟩, rfl, accesses_named_iff (.inl ⟨2, rfl⟩) _⟩

/-- The hex text of a stored hash addresses the hashed target, and a zero
character moves the border between uri and token. -/
theorem spelled_keys_collide :
    (∃ salt record r, restore 4 salt [record] = .ok r ∧ ¬ AllSteps visit ReachesOnlyNamed r
      [.call (.reconcile "s" record.uri (hex record.expectedHash.toList) 0 "resume")]) ∧
    (∃ r, new 2 = .ok r ∧ ¬ AllSteps visit ReachesOnlyNamed r
      [.call (.block "s" "file:///a" "b\x00c" "d" (0, 3) 0), .isBlocked "file:///a\x00b" "c"]) := by
  constructor
  · let salt : Salt := .replicate 16 0
    let record : PersistedTarget := ⟨"file:///a", (0, 6), saltedHash salt "resume",
      saltedHash salt "restored", .pending, 0, 0, "r1"⟩
    let queue := KeyedQueue.empty.append (recordKey record, restoredTarget record)
    let r : RecoveryRegistry := ⟨queue, 4, by decide, some salt⟩
    have found : r.entries (recordKey record) = some (restoredTarget record) :=
      KeyedQueue.setEntry_self _ _ _
    refine ⟨salt, record, r, rfl, fun disciplined => ?_⟩
    have named := (disciplined.1 _ _ found (.inl (resolveKey_of_found found).symm)).2
    rcases named with plain | ⟨known, same, hashed⟩
    · cases plain
    · cases same
      exact absurd (RecoveryText.hashed.inj hashed) (by decide +kernel)
  · let r : RecoveryRegistry := ⟨KeyedQueue.empty, 2, by decide, none⟩
    let target := freshTarget "s" "file:///a" "b\x00c" "d" (0, 3) 0
    let later := r.visit (.call (.block "s" "file:///a" "b\x00c" "d" (0, 3) 0))
    refine ⟨r, rfl, fun disciplined => ?_⟩
    have found : later.entries (key "file:///a\x00b" "c") = some target := by decide +kernel
    have named := disciplined.2.1 _ target found (.inl (resolveKey_of_found found).symm)
    exact absurd named.1 (by decide)

end RecoveryRegistry
end ZonKey.Recovery

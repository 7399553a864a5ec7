import ZonKey.RecoveryRestore
import ZonKey.RecoveryStore

set_option autoImplicit false

namespace ZonKey.Recovery
open RecoveryCodec Runs Store
namespace RecoveryRegistry
variable {r : RecoveryRegistry}

structure PlainKeyed (r : RecoveryRegistry) : Prop where
  unsalted : r.salt = none
  coherent : r.Coherent
  nodup : r.order.Nodup
  entry : ∀ k target, r.entries k = some target → ∃ expected replacement,
    target.expected = .plain expected ∧ target.replacement = .plain replacement ∧
      k = key target.uri expected

theorem resolveKey_of_unsalted (unsalted : r.salt = none) (uri expected : String) :
    r.resolveKey uri expected = key uri expected := by
  simp only [resolveKey, unsalted, ite_self]

theorem new_plainKeyed {capacity : Nat} (h : new capacity = .ok r) : r.PlainKeyed := by
  obtain ⟨queue, _, salt⟩ := new_ok h
  refine ⟨salt, new_coherent h, ?_, ?_⟩
  · rw [queue]
    exact List.nodup_nil
  · intro k target found
    rw [queue] at found
    cases found

theorem Effect.plainKeyed {c : RegistryCall} {answer : RegistryAnswer} {r' : RecoveryRegistry}
    (h : Effect r c answer r') (start : r.PlainKeyed) : r'.PlainKeyed := by
  refine ⟨h.salt.trans start.unsalted, h.coherent start.coherent,
    h.nodup start.coherent start.nodup, ?_⟩
  intro k target found
  by_cases here : k = c.key r
  · subst here
    cases h with
    | full | unreconciled | unacknowledged => exact start.entry _ _ found
    | @blocked sessionId uri expected replacement =>
      cases (KeyedQueue.put_self r.toKeyedQueue _ _).symm.trans found
      exact ⟨expected, replacement, rfl, rfl, resolveKey_of_unsalted start.unsalted uri expected⟩
    | repeated known gate | recorded known gate | early known gate =>
      cases (KeyedQueue.setEntry_self r.toKeyedQueue _ _).symm.trans found
      have old := start.entry _ _ known
      rcases bindSession_ok gate with ⟨_, _, rfl⟩ | ⟨_, _, rfl⟩ <;> exact old
    | acknowledged =>
      cases (KeyedQueue.remove_self r.toKeyedQueue _).symm.trans found
  · rw [h.other here] at found
    exact start.entry k target found

theorem run_plainKeyed {capacity : Nat} (h : new capacity = .ok r) (calls : List RegistryCall) :
    (run next r calls).PlainKeyed :=
  run_keeps PlainKeyed (fun s c plain => (apply_effect s c).plainKeyed plain) (new_plainKeyed h) calls

def tokens (r : RecoveryRegistry) : Set String :=
  {text | ∃ target ∈ r.list, target.expected = .plain text ∨ target.replacement = .plain text}

theorem PlainKeyed.listed (h : r.PlainKeyed) {target : BlockedTarget} (mem : target ∈ r.list) :
    ∃ expected ∈ r.tokens, ∃ replacement ∈ r.tokens, target.expected = .plain expected ∧
      target.replacement = .plain replacement ∧
      r.entries (key target.uri expected) = some target := by
  obtain ⟨k, found⟩ := h.coherent.mem_listed.mp mem
  obtain ⟨expected, replacement, plain, intended, rfl⟩ := h.entry k target found
  exact ⟨expected, ⟨target, mem, .inl plain⟩, replacement, ⟨target, mem, .inr intended⟩,
    plain, intended, found⟩

theorem PlainKeyed.list_nodup (h : r.PlainKeyed) : r.list.Nodup := by
  refine List.Nodup.filterMap ?_ h.nodup
  intro k j target one two
  obtain ⟨text, _, plain, _, rfl⟩ := h.entry k target one
  obtain ⟨other, _, same, _, rfl⟩ := h.entry j target two
  rw [plain] at same
  cases same
  rfl

theorem PlainKeyed.recordKeys_nodup (h : r.PlainKeyed) {salt : Salt}
    (inj : Set.InjOn (saltedHash salt) r.tokens) (requestId : String) :
    ((r.list.map (intoPersisted salt requestId)).map recordKey).Nodup := by
  rw [List.map_map]
  refine h.list_nodup.map_on ?_
  intro a aMem b bMem same
  obtain ⟨expected, eMem, _, _, plain, _, found⟩ := h.listed aMem
  obtain ⟨other, oMem, _, _, plain', _, found'⟩ := h.listed bMem
  obtain ⟨uris, hashes⟩ := recordKey_inj same
  change a.uri = b.uri at uris
  change persistedHash salt a.expected = persistedHash salt b.expected at hashes
  rw [plain, plain'] at hashes
  have texts : expected = other := inj eMem oMem hashes
  rw [uris, texts, found'] at found
  exact (Option.some.inj found).symm

theorem matches_hashed {salt : Salt} {texts : Set String} (inj : Set.InjOn (saltedHash salt) texts)
    {text live : String} (known : text ∈ texts) (read : live ∈ texts) :
    (RecoveryText.hashed (saltedHash salt text)).matches (some salt) live =
      (RecoveryText.plain text).matches none live := by
  simp only [RecoveryText.matches, decide_eq_decide]
  constructor
  · intro same
    exact (inj read known same).symm
  · rintro rfl
    rfl

/-- What the restored target at one place shares with the live one. -/
structure SameTarget (r r' : RecoveryRegistry) (readbacks : Set String)
    (target restored : BlockedTarget) : Prop where
  uri : restored.uri = target.uri
  range : restored.range = target.range
  generation : restored.generation = target.generation
  documentEpoch : restored.documentEpoch = target.documentEpoch
  verdict : restored.state.map Prod.fst = target.state.map Prod.fst
  replacement : ∀ live ∈ readbacks,
    restored.replacement.matches r'.salt live = target.replacement.matches r.salt live
  expected : ∀ live ∈ readbacks,
    restored.expected.matches r'.salt live = target.expected.matches r.salt live
  verdictOf : ∀ live ∈ readbacks, r'.verdictOf restored live = r.verdictOf target live

theorem restoredTarget_intoPersisted (salt : Salt) (requestId : String) (target : BlockedTarget) :
    restoredTarget (intoPersisted salt requestId target) =
      { target with
        sessionId := ""
        expected := .hashed (persistedHash salt target.expected)
        replacement := .hashed (persistedHash salt target.replacement)
        state := target.state.map fun state => (state.1, false) } := by
  cases state : target.state <;> simp [restoredTarget, intoPersisted, state]

/-- A registry built from scratch, persisted under a salt that separates its
tokens and the readbacks, restores to the same list of targets, and every
comparison with a readback comes out the same. -/
theorem restart_transparent {capacity : Nat} (made : new capacity = .ok r)
    (calls : List RegistryCall) {salt : Salt} {readbacks : Set String}
    (inj : Set.InjOn (saltedHash salt) ((run next r calls).tokens ∪ readbacks))
    (requestId : String) {size : Nat} (fits : (run next r calls).list.length ≤ size) :
    (size ≠ 0 → ∃ r', restore size salt
      ((run next r calls).list.map (intoPersisted salt requestId)) = .ok r') ∧
    ∀ r', restore size salt ((run next r calls).list.map (intoPersisted salt requestId)) = .ok r' →
      List.Forall₂ (SameTarget (run next r calls) r' readbacks)
        (run next r calls).list r'.list := by
  have plain := run_plainKeyed made calls
  generalize run next r calls = s at inj fits plain ⊢
  refine ⟨fun positive => restore_isOk salt positive (by simpa using fits), fun r' restored => ?_⟩
  have salted : r'.salt = some salt := (restore_ok restored).2.2.2.1
  have listed := restore_listed restored
    (plain.recordKeys_nodup (inj.mono Set.subset_union_left) requestId)
  rw [List.map_map] at listed
  rw [listed, List.forall₂_map_right_iff, List.forall₂_same]
  intro target mem
  obtain ⟨expected, eMem, replacement, pMem, isExpected, isReplacement, _⟩ := plain.listed mem
  have eMatches : ∀ live ∈ readbacks, (RecoveryText.hashed (saltedHash salt expected)).matches
      r'.salt live = target.expected.matches s.salt live := by
    intro live read
    rw [salted, plain.unsalted, isExpected]
    exact matches_hashed inj (.inl eMem) (.inr read)
  have pMatches : ∀ live ∈ readbacks, (RecoveryText.hashed (saltedHash salt replacement)).matches
      r'.salt live = target.replacement.matches s.salt live := by
    intro live read
    rw [salted, plain.unsalted, isReplacement]
    exact matches_hashed inj (.inl pMem) (.inr read)
  simp only [Function.comp_apply, restoredTarget_intoPersisted, isExpected, isReplacement,
    persistedHash]
  refine ⟨rfl, rfl, rfl, rfl, ?_, pMatches, eMatches, ?_⟩
  · rw [Option.map_map]
    rfl
  · intro live read
    simp only [verdictOf, pMatches live read, eMatches live read]

theorem restart_transparent_two_targets : ∃ r r', new 4 = .ok r ∧
    List.Forall₂ (SameTarget (run next r
        [.block "s" "file:///a" "resume" "restored" (0, 6) 0,
          .block "s" "file:///b" "resume" "restored" (0, 6) 7,
          .reconcile "s" "file:///a" "resume" 0 "restored"]) r' {"resume", "restored", "draft"})
      (run next r
        [.block "s" "file:///a" "resume" "restored" (0, 6) 0,
          .block "s" "file:///b" "resume" "restored" (0, 6) 7,
          .reconcile "s" "file:///a" "resume" 0 "restored"]).list r'.list := by
  let salt : Salt := .replicate 16 0
  let r : RecoveryRegistry := ⟨KeyedQueue.empty, 4, by decide, none⟩
  let calls : List RegistryCall := [.block "s" "file:///a" "resume" "restored" (0, 6) 0,
    .block "s" "file:///b" "resume" "restored" (0, 6) 7,
    .reconcile "s" "file:///a" "resume" 0 "restored"]
  have listed : (run next r calls).list =
      [{ freshTarget "s" "file:///a" "resume" "restored" (0, 6) 0 with
          state := some (.appliedAcknowledged, false) },
        freshTarget "s" "file:///b" "resume" "restored" (0, 6) 7] := by decide +kernel
  have known : ∀ text ∈ (run next r calls).tokens ∪ {"resume", "restored", "draft"},
      text ∈ ["resume", "restored", "draft"] := by
    rintro text (⟨target, mem, token⟩ | read)
    · rw [listed] at mem
      rcases List.mem_pair.mp mem with rfl | rfl <;> rcases token with token | token <;>
        cases token <;> decide
    · simpa using read
  have apart : ∀ a ∈ ["resume", "restored", "draft"], ∀ b ∈ ["resume", "restored", "draft"],
      saltedHash salt a = saltedHash salt b → a = b := by decide +kernel
  have inj : Set.InjOn (saltedHash salt)
      ((run next r calls).tokens ∪ {"resume", "restored", "draft"}) :=
    fun a aMem b bMem same => apart a (known a aMem) b (known b bMem) same
  have made : new 4 = .ok r := rfl
  have fits : (run next r calls).list.length ≤ 2 := by
    rw [listed]
    decide
  obtain ⟨restores, same⟩ := restart_transparent made calls inj "operator" fits
  obtain ⟨r', restored⟩ := restores (by decide)
  exact ⟨r, r', rfl, same r' restored⟩

end RecoveryRegistry
end ZonKey.Recovery

import ZonKey.RecoveryRestore
import ZonKey.RecoveryStoreBound

set_option autoImplicit false

namespace ZonKey.Store
open ByteCursor RecoveryCodec Recovery WriteThrough Runs
namespace DurableRecoveryStore
variable {store : DurableRecoveryStore} {capacity : Nat}

/-- The reopened store is poisoned, or lists a target for every intent and
every blocked target of the crashed one. -/
def CrashComplete (store reopened : DurableRecoveryStore) : Prop :=
  reopened.poison ≠ none ∨
    (∀ d ∈ store.pending, ∃ target ∈ reopened.registry.list,
      target.uri = d.uri ∧ target.range = d.range ∧ target.documentEpoch = d.documentEpoch ∧
        target.expected = .hashed (saltedHash store.salt d.expected) ∧
        target.replacement = .hashed (saltedHash store.salt d.replacement)) ∧
    ∀ blocked ∈ store.registry.list, ∃ target ∈ reopened.registry.list,
      target.uri = blocked.uri ∧ target.range = blocked.range ∧
        target.documentEpoch = blocked.documentEpoch ∧
        target.expected = .hashed (persistedHash store.salt blocked.expected) ∧
        target.replacement = .hashed (persistedHash store.salt blocked.replacement)

theorem crashComplete_iff_snapshot (reopened : DurableRecoveryStore) :
    CrashComplete store reopened ↔ reopened.poison ≠ none ∨ ∀ record ∈ store.snapshot,
      ∃ target ∈ reopened.registry.list, RecoveryRegistry.RestoredAs target record := by
  refine or_congr_right ?_
  simp only [snapshot, snapshotRecords, List.forall_mem_append, List.forall_mem_map,
    RecoveryRegistry.restoredAs_iff]
  exact and_comm

/-- The reopening cannot read the file and starts afresh over records, or it
reads records that disagree about one target and are few enough to restore. -/
def LosesTargets (env : OpenEnvironment) (capacity : Nat) (records : List PersistedTarget) : Prop :=
  env.directoryReady = true ∧
    if env.readFault then env.randomSalt ≠ none ∧ env.durable = true ∧ records ≠ []
    else records.length ≤ capacity ∧ ¬ RecoveryRegistry.AgreeOnTargets records

theorem agreeOnTargets_nil : RecoveryRegistry.AgreeOnTargets [] := nofun

theorem Rooted.snapshot_of_absent (h : store.Rooted capacity)
    (absent : store.directory.content = none) : store.snapshot = [] := by
  have poisoned : store.poison ≠ none := by
    intro healthy
    obtain ⟨file, content, _⟩ := (h.persisted healthy).decodes
    rw [absent] at content
    cases content
  obtain ⟨_, list, pending⟩ := h.empty poisoned
  simp [snapshot, snapshotRecords, list, pending]

theorem Rooted.snapshot_of_unread (h : store.Rooted capacity) {env : OpenEnvironment}
    (unread : readState env store.directory = none) (readable : env.readFault = false) :
    store.snapshot = [] := by
  apply h.snapshot_of_absent
  simpa [readState, readable] using unread

theorem readable_of_read {env : OpenEnvironment} {directory : StateDirectory} {bytes : Bytes}
    (read : readState env directory = some bytes) : env.readFault = false := by
  by_contra fault
  simp [readState, fault] at read

theorem Rooted.kept_of_unavailable (h : store.Rooted capacity) {env : OpenEnvironment}
    (cause : env.directoryReady = false ∨ readState env store.directory = none ∧
      (env.randomSalt = none ∨ capacity ≠ 0 ∧ env.durable = false)) :
    ¬ LosesTargets env capacity store.snapshot := by
  rintro ⟨ready, loss⟩
  rcases cause with missing | ⟨unread, unsalted⟩
  · rw [ready] at missing
    cases missing
  · cases fault : env.readFault with
    | true =>
      rw [if_pos fault] at loss
      rcases unsalted with none | ⟨_, unwritten⟩
      · exact loss.1 none
      · rw [loss.2.1] at unwritten
        cases unwritten
    | false =>
      rw [fault, if_neg Bool.false_ne_true, h.snapshot_of_unread unread fault] at loss
      exact loss.2 agreeOnTargets_nil

theorem Rooted.complete_iff (h : store.Rooted capacity) {env : OpenEnvironment}
    {reopened : DurableRecoveryStore}
    (opened : openIn env store.directory capacity = some reopened) :
    CrashComplete store reopened ↔ ¬ LosesTargets env capacity store.snapshot := by
  rw [crashComplete_iff_snapshot]
  cases openIn_opening opened with
  | unavailable made cause => exact iff_of_true (.inl (by simp)) (h.kept_of_unavailable cause)
  | unreadable made read cause =>
    refine iff_of_true (.inl (by simp)) ?_
    rintro ⟨_, loss⟩
    have readable := readable_of_read read
    rw [readable, if_neg Bool.false_ne_true, snapshot_length] at loss
    exact h.reopens loss.1 env _ opened _ rfl
  | @fresh registry _ _ _ ready unread random made _ written =>
    have nothing : registry.list = [] := by
      unfold RecoveryRegistry.list
      rw [(RecoveryRegistry.new_ok made).1]
      rfl
    have complete : (∀ record ∈ store.snapshot, ∃ target ∈ registry.list,
        RecoveryRegistry.RestoredAs target record) ↔ store.snapshot = [] := by
      simp [nothing, List.eq_nil_iff_forall_not_mem]
    simp only [ne_eq, not_true_eq_false, false_or, complete, LosesTargets, ready, true_and]
    cases fault : env.readFault with
    | true => simp [random, written]
    | false => simp [h.snapshot_of_unread unread fault, agreeOnTargets_nil]
  | restored ready read decoded made =>
    have readable := readable_of_read read
    have healthy : store.poison = none := by
      by_contra poisoned
      have content := content_of_read read
      rw [(h.empty poisoned).1] at content
      cases content
    obtain ⟨file, content, _, known⟩ := (h.persisted healthy).decodes
    cases content.symm.trans (content_of_read read)
    rw [known] at decoded
    cases decoded
    have few := (RecoveryRegistry.restore_ok made).2.1
    simp only [ne_eq, not_true_eq_false, false_or, RecoveryRegistry.restore_complete_iff made,
      LosesTargets, ready, readable, Bool.false_eq_true, ↓reduceIte, few, true_and, not_not]

/-- Whatever an emptily opened store went through, a crash and a reopening lose
nothing exactly when the file is read and its records agree on every target, or
the reopened store is poisoned. -/
theorem crash_complete_iff {env : OpenEnvironment} {directory : StateDirectory}
    (absent : directory.content = none) (opened : openIn env directory capacity = some store)
    (steps : List StoreStep) {later : OpenEnvironment} {reopened : DurableRecoveryStore}
    (crashed : openIn later (run next store steps).directory capacity = some reopened) :
    CrashComplete (run next store steps) reopened ↔
      ¬ LosesTargets later capacity (run next store steps).snapshot :=
  (run_rooted absent opened steps).complete_iff crashed

theorem crash_keeps_lone_intent : ∃ store reopened,
    openIn ⟨true, false, some (.replicate 16 0), true⟩ ⟨none, []⟩ 4 = some store ∧
    openIn ⟨true, false, none, true⟩ (run next store [⟨.beginPending
      ⟨"r1", "file:///a", (0, 6), "resume", "restored", 0, 7⟩, true⟩]).directory 4 =
        some reopened ∧
    CrashComplete (run next store [⟨.beginPending
      ⟨"r1", "file:///a", (0, 6), "resume", "restored", 0, 7⟩, true⟩]) reopened := by
  let store := freshStore (.replicate 16 0) 4 (by decide)
  let steps : List StoreStep :=
    [⟨.beginPending ⟨"r1", "file:///a", (0, 6), "resume", "restored", 0, 7⟩, true⟩]
  have opened : openIn ⟨true, false, some (.replicate 16 0), true⟩ ⟨none, []⟩ 4 = some store :=
    openIn_freshStore _ _
  obtain ⟨reopened, crashed⟩ := Option.isSome_iff_exists.mp
    ((openIn_isSome_iff ⟨true, false, none, true⟩ (run next store steps).directory 4).mpr
      (.inr (.inr (.inr (by decide)))))
  have valid : ValidRecord (pendingRecord (.replicate 16 0)
      ⟨"r1", "file:///a", (0, 6), "resume", "restored", 0, 7⟩) :=
    validRecord_r1 rfl rfl (by decide)
  obtain ⟨file, begun⟩ := run_begin_freshStore (show 0 < 4 by decide) valid
  have single : (run next store steps).snapshot.length = 1 :=
    congrArg (·.snapshot.length) begun
  obtain ⟨record, lone⟩ := List.length_eq_one_iff.mp single
  refine ⟨store, reopened, opened, crashed, (crash_complete_iff rfl opened steps crashed).mpr ?_⟩
  rintro ⟨_, _, disagree⟩
  apply disagree
  rw [lone]
  intro a aMem b bMem _ _
  rw [List.mem_singleton.mp aMem, List.mem_singleton.mp bMem]
  exact ⟨rfl, rfl, rfl⟩

/-- Two intents on one target with different replacements: after a crash one of
the replacements is gone. -/
theorem crash_merges_intents : ∃ store steps reopened,
    openIn ⟨true, false, some (.replicate 16 0), true⟩ ⟨none, []⟩ 4 = some store ∧
    openIn ⟨true, false, none, true⟩ (run next store steps).directory 4 = some reopened ∧
    ¬ CrashComplete (run next store steps) reopened := by
  let salt : Salt := .replicate 16 0
  let store := freshStore (.replicate 16 0) 4 (by decide)
  let one : RecoveryDescriptor := ⟨"r1", "file:///a", (0, 6), "resume", "restored", 0, 7⟩
  let two : RecoveryDescriptor := ⟨"r2", "file:///a", (0, 6), "resume", "rewritten", 0, 7⟩
  let steps : List StoreStep := [⟨.beginPending one, true⟩, ⟨.beginPending two, true⟩]
  have opened : openIn ⟨true, false, some salt, true⟩ ⟨none, []⟩ 4 = some store :=
    openIn_freshStore _ _
  obtain ⟨reopened, crashed⟩ := Option.isSome_iff_exists.mp
    ((openIn_isSome_iff ⟨true, false, none, true⟩ (run next store steps).directory 4).mpr
      (.inr (.inr (.inr (by decide)))))
  have validOne : ValidRecord (pendingRecord salt one) :=
    validRecord_r1 rfl rfl (by decide)
  have validTwo : ValidRecord (pendingRecord salt two) :=
    ⟨by decide, by decide, by decide, by decide, by decide⟩
  have encoded : encodeLive salt ⟨store.registry, [one, two]⟩ = .ok _ :=
    encode_ok_iff.mpr ⟨show 2 ≤ maxRecoveryEntries by decide,
      List.forall_mem_cons.mpr ⟨validOne, List.forall_mem_singleton.mpr validTwo⟩, rfl⟩
  obtain ⟨file, first⟩ := run_begin_freshStore (show 0 < 4 by decide) validOne
  have both : run next store steps = _ :=
    (congrArg (next · ⟨.beginPending two, true⟩) first).trans
      (next_begin rfl (by simp [one, two]) (show 1 < 4 by decide) encoded)
  have pending : (run next store steps).pending = [one, two] := congrArg (·.pending) both
  have few : (run next store steps).live.occupancy ≤ 4 := by
    have occupied : (run next store steps).live.occupancy = 2 := congrArg (·.live.occupancy) both
    omega
  have recorded : ∀ d ∈ [one, two], pendingRecord salt d ∈ (run next store steps).snapshot := by
    intro d mem
    rw [← pending] at mem
    have here := List.mem_map_of_mem (f := pendingRecord (run next store steps).salt) mem
    rw [run_salt] at here
    unfold snapshot snapshotRecords
    rw [run_salt]
    exact List.mem_append_right _ here
  refine ⟨store, steps, reopened, opened, crashed, fun complete => ?_⟩
  refine ((run_rooted rfl opened steps).complete_iff crashed).mp complete ⟨rfl, ?_⟩
  refine ⟨by rw [snapshot_length]; exact few, fun agree => ?_⟩
  have same := (agree _ (recorded one (by simp)) _ (recorded two (by simp)) rfl rfl).2.2
  have apart : saltedHash salt "restored" ≠ saltedHash salt "rewritten" := by decide +kernel
  exact apart same

end DurableRecoveryStore
end ZonKey.Store

import Mathlib.Data.List.Induction
import ZonKey.RecoveryStoreInvariants

set_option autoImplicit false

/-!
# Stores that share a directory

Every endpoint opens the durable store of the one state directory of its user
and keeps what it read in memory. No call reads the file again, so endpoints
that run at the same time do not see each other's records, and the file is
always the work of the last one that wrote it.
-/
namespace ZonKey.Store
open ByteCursor RecoveryCodec Recovery Runs WriteThrough DurableRecoveryStore

variable {ι : Type} [DecidableEq ι]

structure SharedStores (ι : Type) where
  directory : StateDirectory
  stores : ι → Option DurableRecoveryStore

/-- What a process does with its store; an exit may be a crash. -/
inductive StoreMove where
  | opens (env : OpenEnvironment) (capacity : Nat)
  | call (step : StoreStep)
  | exit

def StoreMove.step : StoreMove → Option StoreStep
  | call step => some step
  | opens _ _ | exit => none

/-- The same store up to what is in its directory. -/
structure Same (a b : DurableRecoveryStore) : Prop where
  live : a.live = b.live
  salt : a.salt = b.salt
  poison : a.poison = b.poison

theorem Same.snapshot {a b : DurableRecoveryStore} (h : Same a b) : a.snapshot = b.snapshot := by
  have registry : a.registry = b.registry := congrArg LiveState.registry h.live
  have pending : a.pending = b.pending := congrArg LiveState.pending h.live
  rw [DurableRecoveryStore.snapshot, DurableRecoveryStore.snapshot, registry, pending, h.salt]

/-- What a call answers and leaves in memory does not depend on the file. -/
theorem Same.apply {a b : DurableRecoveryStore} (h : Same a b) (step : StoreStep) :
    (step.call.apply step.durable a).1 = (step.call.apply step.durable b).1 ∧
      Same (a.next step) (b.next step) := by
  unfold next
  rw [apply_eq, apply_eq, mutateState, mutateState, h.poison]
  cases b.poison with
  | some reason => exact ⟨rfl, h⟩
  | none =>
    rw [h.live, h.salt]
    unfold mutate
    cases step.call.operation b.live with
    | mk result next =>
      cases result with
      | error error => exact ⟨rfl, rfl, rfl, rfl⟩
      | ok reply =>
        dsimp only
        cases encodeLive b.salt next with
        | error error => exact ⟨rfl, rfl, rfl, rfl⟩
        | ok bytes =>
          cases step.durable with
          | false => exact ⟨rfl, rfl, rfl, rfl⟩
          | true => exact ⟨rfl, rfl, rfl, rfl⟩

namespace SharedStores

def quiet (directory : StateDirectory) : SharedStores ι := ⟨directory, fun _ => none⟩

/-- A panic of `open_in` ends the process. -/
def step (s : SharedStores ι) : ι × StoreMove → SharedStores ι
  | (i, .opens env capacity) =>
    match openIn env s.directory capacity with
    | none => { s with stores := Function.update s.stores i none }
    | some store => ⟨store.directory, Function.update s.stores i (some store)⟩
  | (i, .call step) =>
    match s.stores i with
    | none => s
    | some store =>
      let after := { store with directory := s.directory }.next step
      ⟨after.directory, Function.update s.stores i (some after)⟩
  | (i, .exit) => { s with stores := Function.update s.stores i none }

/-- What a move can do. -/
inductive Effect (s : SharedStores ι) (i : ι) : StoreMove → SharedStores ι → Prop
  | panicked {env : OpenEnvironment} {capacity : Nat}
      (found : openIn env s.directory capacity = none) :
      Effect s i (.opens env capacity) { s with stores := Function.update s.stores i none }
  | opened {env : OpenEnvironment} {capacity : Nat} {store : DurableRecoveryStore}
      (found : openIn env s.directory capacity = some store) :
      Effect s i (.opens env capacity)
        ⟨store.directory, Function.update s.stores i (some store)⟩
  | unopened {step : StoreStep} (absent : s.stores i = none) : Effect s i (.call step) s
  | called {step : StoreStep} {store : DurableRecoveryStore} (running : s.stores i = some store) :
      Effect s i (.call step)
        ⟨({ store with directory := s.directory }.next step).directory,
          Function.update s.stores i (some ({ store with directory := s.directory }.next step))⟩
  | exited : Effect s i .exit { s with stores := Function.update s.stores i none }

theorem step_effect (s : SharedStores ι) (i : ι) (move : StoreMove) :
    Effect s i move (s.step (i, move)) := by
  unfold step
  cases move with
  | opens env capacity =>
    dsimp only
    cases found : openIn env s.directory capacity with
    | none => exact .panicked found
    | some store => exact .opened found
  | call step =>
    dsimp only
    cases running : s.stores i with
    | none => exact .unopened running
    | some store => exact .called running
  | exit => exact .exited

theorem Effect.other {s after : SharedStores ι} {i j : ι} {move : StoreMove}
    (h : Effect s j move after) (apart : i ≠ j) : after.stores i = s.stores i := by
  cases h with
  | unopened => rfl
  | panicked | opened | called | exited => exact Function.update_of_ne apart _ _

def Writes (s : SharedStores ι) : ι × StoreMove → Prop
  | (_, .opens env capacity) => readState env s.directory = none ∧
      ∃ store, openIn env s.directory capacity = some store ∧ store.poison = none
  | (i, .call step) => ∃ store reply, s.stores i = some store ∧
      (step.call.apply step.durable { store with directory := s.directory }).1 = .ok reply
  | (_, .exit) => False

def ownCalls (i : ι) (moves : List (ι × StoreMove)) : List StoreStep :=
  moves.filterMap fun m => if m.1 = i then m.2.step else none

def Serving (start : StateDirectory) (moves : List (ι × StoreMove)) (i : ι)
    (opened : DurableRecoveryStore) (calls : List StoreStep) : Prop :=
  ∃ before env capacity rest, moves = before ++ (i, .opens env capacity) :: rest ∧
    openIn env (run step (quiet start) before).directory capacity = some opened ∧
    (∀ m ∈ rest, m.1 = i → ∃ step, m.2 = .call step) ∧ ownCalls i rest = calls

section Processes
variable {start : StateDirectory} {moves : List (ι × StoreMove)} {i : ι}
  {opened : DurableRecoveryStore} {calls : List StoreStep}

theorem Serving.step (h : Serving start moves i opened calls) {m : ι × StoreMove}
    (stays : m.1 = i → ∃ step, m.2 = .call step) :
    Serving start (moves ++ [m]) i opened (calls ++ ownCalls i [m]) := by
  obtain ⟨before, env, capacity, rest, rfl, found, only, rfl⟩ := h
  refine ⟨before, env, capacity, rest ++ [m], by simp, found, ?_, ?_⟩
  · intro other mem
    rcases List.mem_append.mp mem with old | new
    · exact only other old
    · rw [List.mem_singleton] at new
      rw [new]
      exact stays
  · rw [ownCalls, ownCalls, ownCalls, List.filterMap_append]

theorem run_serving (start : StateDirectory) (moves : List (ι × StoreMove)) :
    ∀ i store, (run step (quiet start) moves).stores i = some store →
      ∃ opened calls, Serving start moves i opened calls ∧ Same store (run next opened calls) := by
  induction moves using List.reverseRecOn with
  | nil =>
    intro i store running
    cases running
  | append_singleton moves m ih =>
    intro i store running
    obtain ⟨j, move⟩ := m
    rw [run_append, run_cons, run_nil] at running
    have effect := step_effect (run SharedStores.step (quiet start) moves) j move
    generalize (run SharedStores.step (quiet start) moves).step (j, move) = after at effect running
    by_cases mine : i = j
    · subst mine
      cases effect with
      | panicked | exited =>
        dsimp only at running
        rw [Function.update_self] at running
        cases running
      | @opened env capacity fresh found =>
        dsimp only at running
        rw [Function.update_self] at running
        cases running
        exact ⟨store, [], ⟨moves, env, capacity, [], rfl, found, by simp, rfl⟩, ⟨rfl, rfl, rfl⟩⟩
      | unopened absent =>
        rw [absent] at running
        cases running
      | @called step old before =>
        dsimp only at running
        rw [Function.update_self] at running
        cases running
        obtain ⟨opened, calls, serving, same⟩ := ih i old before
        have own : ownCalls i [(i, .call step)] = [step] := by simp [ownCalls, StoreMove.step]
        refine ⟨opened, calls ++ [step], ?_, ?_⟩
        · rw [← own]
          exact serving.step fun _ => ⟨step, rfl⟩
        · rw [run_append, run_cons, run_nil]
          have mirrored : Same { old with
              directory := (run SharedStores.step (quiet start) moves).directory }
              (run next opened calls) := ⟨same.live, same.salt, same.poison⟩
          exact (mirrored.apply step).2
    · rw [effect.other mine] at running
      obtain ⟨opened, calls, serving, same⟩ := ih i store running
      refine ⟨opened, calls, ?_, same⟩
      have silent : ownCalls i [(j, move)] = [] := by simp [ownCalls, Ne.symm mine]
      rw [← List.append_nil calls, ← silent]
      exact serving.step fun own => absurd own.symm mine

theorem step_content (s : SharedStores ι) (i : ι) (move : StoreMove) :
    (s.Writes (i, move) ∧ ∃ store, (s.step (i, move)).stores i = some store ∧
      store.directory = (s.step (i, move)).directory ∧ store.Persisted) ∨
    (¬ s.Writes (i, move) ∧ (s.step (i, move)).directory.content = s.directory.content) := by
  have effect := step_effect s i move
  generalize s.step (i, move) = after at effect ⊢
  cases effect with
  | panicked found =>
    refine .inr ⟨?_, rfl⟩
    rintro ⟨_, store, opened, _⟩
    rw [found] at opened
    cases opened
  | @opened env capacity store found =>
    have silent (stays : readState env s.directory ≠ none ∨ store.poison ≠ none) :
        ¬ s.Writes (i, .opens env capacity) := by
      rintro ⟨unread, other, again, healthy⟩
      cases found.symm.trans again
      rcases stays with read | poisoned
      · exact read unread
      · exact poisoned healthy
    have opening := openIn_opening found
    cases opening with
    | unavailable => exact .inr ⟨silent (.inr (by simp)), rfl⟩
    | unreadable => exact .inr ⟨silent (.inr (by simp)), rfl⟩
    | restored _ read => exact .inr ⟨silent (.inl (by rw [read]; simp)), rfl⟩
    | fresh ready unread random made encoded written =>
      refine .inl ⟨⟨unread, _, found, rfl⟩, _, Function.update_self .., rfl, _, ?_, rfl⟩
      simpa [encodeLive, DurableRecoveryStore.live, snapshotRecords, RecoveryRegistry.list,
        (RecoveryRegistry.new_ok made).1, KeyedQueue.listed, KeyedQueue.empty] using encoded
  | unopened absent =>
    refine .inr ⟨?_, rfl⟩
    rintro ⟨store, _, running, _⟩
    rw [absent] at running
    cases running
  | @called step store running =>
    have effect := apply_effect { store with directory := s.directory } step
    have atomic := (DurableRecoveryStore.atomic { store with directory := s.directory } step).1
    cases answer : (step.call.apply step.durable { store with directory := s.directory }).1 with
    | ok reply =>
      rw [answer] at effect
      exact .inl ⟨⟨store, reply, running, answer⟩, _, Function.update_self .., rfl,
        effect.healthy.2.2⟩
    | error error =>
      refine .inr ⟨?_, (atomic error answer).2.2⟩
      rintro ⟨other, reply, again, accepted⟩
      cases running.symm.trans again
      rw [answer] at accepted
      cases accepted
  | exited => exact .inr ⟨id, rfl⟩

/-- However the processes interleave, whatever fails and whenever they end, the file has the
records of the last process that wrote it, and these are what its own calls made of what it had
opened: of what any other process wrote since then nothing is left. -/
theorem last_writer_wins (start : StateDirectory) (moves : List (ι × StoreMove)) :
    let s := run step (quiet start) moves
    (AllSteps step (fun s m => ¬ s.Writes m) (quiet start) moves ∧
      s.directory.content = start.content) ∨
    ∃ before i move after opened calls, moves = before ++ (i, move) :: after ∧
      (run step (quiet start) before).Writes (i, move) ∧
      AllSteps step (fun s m => ¬ s.Writes m)
        (run step (quiet start) (before ++ [(i, move)])) after ∧
      Serving start (before ++ [(i, move)]) i opened calls ∧
      ∃ file, s.directory.content = some file ∧
        decode file = .ok (opened.salt, (run next opened calls).snapshot) := by
  induction moves using List.reverseRecOn with
  | nil => exact .inl ⟨trivial, rfl⟩
  | append_singleton moves m ih =>
    obtain ⟨i, move⟩ := m
    have last : run SharedStores.step (quiet start) (moves ++ [(i, move)]) =
        (run SharedStores.step (quiet start) moves).step (i, move) := run_append _ moves [(i, move)]
    rcases step_content (run SharedStores.step (quiet start) moves) i move with
      ⟨writes, store, running, there, persisted⟩ | ⟨silent, same⟩
    · rw [← last] at running there
      obtain ⟨opened, calls, serving, own⟩ := run_serving start _ i store running
      obtain ⟨file, content, _, decoded⟩ := persisted.decodes
      refine .inr ⟨moves, i, move, [], opened, calls, rfl, writes, trivial, serving, file, ?_, ?_⟩
      · rw [← there]
        exact content
      · rw [decoded, own.snapshot, own.salt, run_salt]
    · dsimp only
      rw [last, same]
      rcases ih with ⟨never, content⟩ | ⟨before, j, wrote, after, opened, calls, rfl, writes, quiet_since,
        serving, content⟩
      · refine .inl ⟨(allSteps_append _ moves [(i, move)]).mpr ⟨never, silent, trivial⟩, content⟩
      · refine .inr ⟨before, j, wrote, after ++ [(i, move)], opened, calls, by simp, writes, ?_,
          serving, content⟩
        rw [allSteps_append]
        refine ⟨quiet_since, ?_, trivial⟩
        rw [← run_append, List.append_assoc]
        exact silent

end Processes

end SharedStores
end ZonKey.Store

import ZonKey.ByteCursor
import ZonKey.Runs
import ZonKey.WriteThrough

set_option autoImplicit false

/-!
# Durable replacement

`durable_write_user_only` writes a temporary file and moves it over its target.
The temporary file has one name in a directory, whatever the target: the store
and the discovery record of every process write through it.
-/
namespace ZonKey.Durable
open ByteCursor Runs WriteThrough

variable {ι : Type} [DecidableEq ι]

/-- Where a writer is in `durable_write_user_only`. -/
inductive Stage where
  | idle
  | writing (path : String) (bytes : Bytes) (written : Nat)
  | closing (path : String) (bytes : Bytes) (written : Bool)
  | moving (path : String) (bytes : Bytes)
  deriving DecidableEq

def Stage.argument : Stage → Option (String × Bytes)
  | idle => none
  | writing path bytes _ | closing path bytes _ | moving path bytes => some (path, bytes)

/-- A directory with its temporary file and who has it open, and its writers. -/
structure Disk (ι : Type) where
  temp : Option Bytes
  handle : Option ι
  files : String → Option Bytes
  stage : ι → Stage

/-- A call of the system with its result; a crash is the end of the writer's process. -/
inductive DiskCall where
  | create (path : String) (bytes : Bytes) (ok : Bool)
  | write (transferred : Option Nat)
  | flush (ok : Bool)
  | close (ok : Bool)
  | move (ok : Bool)
  | crash

namespace Disk

def goTo (s : Disk ι) (w : ι) (stage : Stage) : Disk ι :=
  { s with stage := Function.update s.stage w stage }

/-- `CreateFileW` and `MoveFileExW` fail on a file that is open without sharing. -/
def step (s : Disk ι) : ι × DiskCall → Disk ι
  | (w, .create path bytes ok) =>
    match s.stage w with
    | .idle =>
      if ok ∧ s.handle = none then
        { s with temp := some [], handle := some w }.goTo w (.writing path bytes 0)
      else s
    | _ => s
  | (w, .write transferred) =>
    match s.stage w with
    | .writing path bytes written =>
      if written < bytes.length then
        match transferred with
        | some (n + 1) =>
          { s with temp := s.temp.map (· ++ (bytes.drop written).take (n + 1)) }.goTo w
            (.writing path bytes (written + (n + 1)))
        | _ => s.goTo w (.closing path bytes false)
      else s
    | _ => s
  | (w, .flush ok) =>
    match s.stage w with
    | .writing path bytes written =>
      if written < bytes.length then s else s.goTo w (.closing path bytes ok)
    | _ => s
  | (w, .close ok) =>
    match s.stage w with
    | .closing path bytes written =>
      { s with handle := if ok then none else s.handle }.goTo w
        (if written && ok then .moving path bytes else .idle)
    | _ => s
  | (w, .move ok) =>
    match s.stage w with
    | .moving path _ =>
      match s.temp with
      | some content =>
        if ok ∧ s.handle = none then
          { s with temp := none, files := Function.update s.files path (some content) }.goTo w .idle
        else s.goTo w .idle
      | none => s.goTo w .idle
    | _ => s
  | (w, .crash) =>
    { s with handle := if s.handle = some w then none else s.handle }.goTo w .idle

/-- The content that a move puts on a file. -/
def lands (s : Disk ι) : ι × DiskCall → Option (String × Bytes)
  | (w, .move ok) =>
    match s.stage w with
    | .moving path _ => if ok ∧ s.handle = none then s.temp.map (path, ·) else none
    | _ => none
  | _ => none

/-- The answer of `durable_write_user_only`, at the call that decides it. -/
def answer (s : Disk ι) : ι × DiskCall → Option Bool
  | (w, .create _ _ ok) =>
    match s.stage w with
    | .idle => if ok ∧ s.handle = none then none else some false
    | _ => none
  | (w, .close ok) =>
    match s.stage w with
    | .closing _ _ written => if written && ok then none else some false
    | _ => none
  | (w, .move ok) =>
    match s.stage w with
    | .moving _ _ => some (s.lands (w, .move ok)).isSome
    | _ => none
  | (_, .write _) | (_, .flush _) | (_, .crash) => none

end Disk

structure Creation (ι : Type) where
  writer : ι
  path : String
  bytes : Bytes

namespace Disk

def creates (s : Disk ι) : ι × DiskCall → Option (Creation ι)
  | (w, .create path bytes ok) =>
    if s.stage w = .idle ∧ ok ∧ s.handle = none then some ⟨w, path, bytes⟩ else none
  | _ => none

def traced (t : Disk ι × Option (Creation ι)) (m : ι × DiskCall) : Disk ι × Option (Creation ι) :=
  (t.1.step m, (t.1.creates m).or t.2)

def lastCreation (s : Disk ι) (moves : List (ι × DiskCall)) : Option (Creation ι) :=
  (run traced (s, none) moves).2

/-- What a call can do. -/
inductive Effect (s : Disk ι) (w : ι) : DiskCall → Disk ι → Prop
  | nothing {call : DiskCall} (quiet : ∀ content, s.lands (w, call) ≠ some content)
      (old : s.creates (w, call) = none) : Effect s w call s
  | created {path : String} {bytes : Bytes} {ok : Bool} (idle : s.stage w = .idle)
      (granted : ok = true) (free : s.handle = none) :
      Effect s w (.create path bytes ok)
        ({ s with temp := some [], handle := some w }.goTo w (.writing path bytes 0))
  | wrote {path : String} {bytes : Bytes} {written n : Nat}
      (writing : s.stage w = .writing path bytes written) :
      Effect s w (.write (some n))
        ({ s with temp := s.temp.map (· ++ (bytes.drop written).take n) }.goTo w
          (.writing path bytes (written + n)))
  | failed {path : String} {bytes : Bytes} {written : Nat} {transferred : Option Nat}
      (writing : s.stage w = .writing path bytes written) :
      Effect s w (.write transferred) (s.goTo w (.closing path bytes false))
  | flushed {path : String} {bytes : Bytes} {written : Nat} {ok : Bool}
      (writing : s.stage w = .writing path bytes written) (whole : bytes.length ≤ written) :
      Effect s w (.flush ok) (s.goTo w (.closing path bytes ok))
  | closed {path : String} {bytes : Bytes} {written ok : Bool}
      (closing : s.stage w = .closing path bytes written) :
      Effect s w (.close ok)
        ({ s with handle := if ok then none else s.handle }.goTo w
          (if written && ok then .moving path bytes else .idle))
  | landed {path : String} {bytes content : Bytes} {ok : Bool}
      (moving : s.stage w = .moving path bytes) (granted : ok = true) (free : s.handle = none)
      (there : s.temp = some content) :
      Effect s w (.move ok)
        ({ s with temp := none, files := Function.update s.files path (some content) }.goTo w .idle)
  | refused {path : String} {bytes : Bytes} {ok : Bool} (moving : s.stage w = .moving path bytes)
      (stays : s.lands (w, .move ok) = none) : Effect s w (.move ok) (s.goTo w .idle)
  | crashed : Effect s w .crash
      ({ s with handle := if s.handle = some w then none else s.handle }.goTo w .idle)

theorem step_effect (s : Disk ι) (w : ι) (call : DiskCall) :
    Effect s w call (s.step (w, call)) := by
  cases call with
  | create path bytes ok =>
    unfold step
    dsimp only
    cases stage : s.stage w with
    | idle =>
      dsimp only
      by_cases can : ok = true ∧ s.handle = none
      · rw [if_pos can]
        exact .created stage can.1 can.2
      · rw [if_neg can]
        exact .nothing (fun _ => by simp [lands]) (if_neg fun all => can all.2)
    | writing | closing | moving =>
      exact .nothing (fun _ => by simp [lands]) (if_neg (by simp [stage]))
  | write transferred =>
    unfold step
    dsimp only
    cases stage : s.stage w with
    | writing path bytes written =>
      dsimp only
      by_cases more : written < bytes.length
      · rw [if_pos more]
        cases transferred with
        | none => exact .failed stage
        | some n =>
          cases n with
          | zero => exact .failed stage
          | succ n => exact .wrote stage
      · rw [if_neg more]
        exact .nothing (fun _ => by simp [lands]) rfl
    | idle | closing | moving => exact .nothing (fun _ => by simp [lands]) rfl
  | flush ok =>
    unfold step
    dsimp only
    cases stage : s.stage w with
    | writing path bytes written =>
      dsimp only
      by_cases more : written < bytes.length
      · rw [if_pos more]
        exact .nothing (fun _ => by simp [lands]) rfl
      · rw [if_neg more]
        exact .flushed stage (Nat.le_of_not_lt more)
    | idle | closing | moving => exact .nothing (fun _ => by simp [lands]) rfl
  | close ok =>
    unfold step
    dsimp only
    cases stage : s.stage w with
    | closing path bytes written => exact .closed stage
    | idle | writing | moving => exact .nothing (fun _ => by simp [lands]) rfl
  | move ok =>
    unfold step
    dsimp only
    cases stage : s.stage w with
    | moving path bytes =>
      dsimp only
      cases there : s.temp with
      | none => exact .refused stage (by simp [lands, stage, there])
      | some content =>
        dsimp only
        by_cases can : ok = true ∧ s.handle = none
        · rw [if_pos can]
          exact .landed stage can.1 can.2 there
        · rw [if_neg can]
          exact .refused stage (by simp [lands, stage, can])
    | idle | writing | closing => exact .nothing (fun _ => by simp [lands, stage]) rfl
  | crash => exact .crashed

section Traces
variable {s after : Disk ι} {last : Option (Creation ι)} {v w : ι} {call : DiskCall}

theorem goTo_stage (s : Disk ι) (w : ι) (stage : Stage) : (s.goTo w stage).stage w = stage := by
  simp [goTo]

theorem goTo_stage_other (s : Disk ι) (stage : Stage) (apart : v ≠ w) :
    (s.goTo w stage).stage v = s.stage v := by
  simp [goTo, apart]

def StageFits (s : Disk ι) (last : Option (Creation ι)) (w : ι) : Stage → Prop
  | .idle => True
  | .writing path bytes written =>
    last = some ⟨w, path, bytes⟩ ∧ s.handle = some w ∧ s.temp = some (bytes.take written)
  | .closing path bytes written =>
    last = some ⟨w, path, bytes⟩ ∧ s.handle = some w ∧
      ∃ content, s.temp = some content ∧ (written = true → content = bytes)
  | .moving path bytes =>
    ∃ c, last = some c ∧
      (c.writer = w → c = ⟨w, path, bytes⟩ ∧ (s.temp = none ∨ s.temp = some bytes))

structure Traced (s : Disk ι) (last : Option (Creation ι)) : Prop where
  fits : ∀ w, s.StageFits last w (s.stage w)
  start : ∀ c content, last = some c → s.temp = some content → content <+: c.bytes

omit [DecidableEq ι] in
theorem Traced.fits_at (h : s.Traced last) {stage : Stage} (at_w : s.stage w = stage) :
    s.StageFits last w stage := at_w ▸ h.fits w

omit [DecidableEq ι] in
theorem StageFits.other {stage : Stage} {now : Option (Creation ι)} {c : Creation ι}
    (fits : s.StageFits last v stage) (closed : s.handle ≠ some v) (made : now = some c)
    (apart : c.writer ≠ v) : after.StageFits now v stage := by
  cases stage with
  | idle => trivial
  | writing | closing => exact absurd fits.2.1 closed
  | moving => exact ⟨c, made, fun same => absurd same apart⟩

/-- What the holder of the temporary file does leaves the others where they are. -/
theorem Traced.held (h : s.Traced last) {path : String} {bytes : Bytes} {stage : Stage}
    {temp : Option Bytes} {handle : Option ι} (closed : ∀ v, v ≠ w → s.handle ≠ some v)
    (own : StageFits { s with temp := temp, handle := handle } (some ⟨w, path, bytes⟩) w stage)
    (start : ∀ content, temp = some content → content <+: bytes) :
    Traced ({ s with temp := temp, handle := handle }.goTo w stage) (some ⟨w, path, bytes⟩) := by
  refine ⟨fun v => ?_, fun c content made there => ?_⟩
  · by_cases same : v = w
    · subst same
      rw [goTo_stage]
      cases stage <;> exact own
    · rw [goTo_stage_other _ _ same]
      exact (h.fits v).other (closed v same) rfl (Ne.symm same)
  · cases made
    exact start content there

theorem Traced.done (h : s.Traced last) {handle : Option ι}
    (others : ∀ v, v ≠ w → s.handle = some v → handle = some v) :
    Traced ({ s with handle := handle }.goTo w .idle) last := by
  refine ⟨fun v => ?_, h.start⟩
  by_cases same : v = w
  · subst same
    rw [goTo_stage]
    trivial
  · rw [goTo_stage_other _ _ same]
    have fits := h.fits v
    cases stage : s.stage v with
    | idle => trivial
    | writing | closing =>
      rw [stage] at fits
      exact ⟨fits.1, others v same fits.2.1, fits.2.2⟩
    | moving =>
      rw [stage] at fits
      exact fits

theorem Traced.effect (h : s.Traced last) (effect : Effect s w call after) :
    after.Traced ((s.creates (w, call)).or last) := by
  cases effect with
  | nothing _ old => rw [old]; exact h
  | @created path bytes ok idle granted free =>
    have made : s.creates (w, .create path bytes ok) = some ⟨w, path, bytes⟩ :=
      if_pos ⟨idle, granted, free⟩
    rw [made]
    refine h.held (fun v _ => by rw [free]; simp) ⟨rfl, rfl, rfl⟩ fun content there => ?_
    cases there
    exact List.nil_prefix
  | @wrote path bytes written n writing =>
    obtain ⟨made, holds, temp⟩ := h.fits_at writing
    have grown : s.temp.map (· ++ (bytes.drop written).take n) =
        some (bytes.take (written + n)) := by
      rw [temp, Option.map_some, List.take_add]
    rw [grown, made]
    refine h.held (fun v apart => by rw [holds]; simpa using apart.symm) ⟨rfl, holds, rfl⟩
      fun content there => ?_
    cases there
    exact List.take_prefix _ _
  | @failed path bytes written _ writing =>
    obtain ⟨made, holds, temp⟩ := h.fits_at writing
    rw [made]
    refine h.held (fun v apart => by rw [holds]; simpa using apart.symm)
      ⟨rfl, holds, _, temp, Bool.noConfusion⟩ fun content there => ?_
    exact h.start _ content made there
  | @flushed path bytes written ok writing whole =>
    obtain ⟨made, holds, temp⟩ := h.fits_at writing
    rw [List.take_of_length_le whole] at temp
    rw [made]
    refine h.held (fun v apart => by rw [holds]; simpa using apart.symm)
      ⟨rfl, holds, _, temp, fun _ => rfl⟩ fun content there => ?_
    exact h.start _ content made there
  | @closed path bytes written ok closing =>
    obtain ⟨made, holds, content, temp, complete⟩ := h.fits_at closing
    rw [made]
    refine h.held (fun v apart => by rw [holds]; simpa using apart.symm) ?_ fun content there => ?_
    · cases both : written && ok with
      | false => trivial
      | true =>
        rw [Bool.and_eq_true] at both
        refine ⟨_, rfl, fun _ => ⟨rfl, .inr ?_⟩⟩
        rw [← complete both.1]
        exact temp
    · exact h.start _ content made there
  | @landed path bytes content ok moving granted free there =>
    refine ⟨fun v => ?_, fun c content made there => ?_⟩
    · by_cases same : v = w
      · subst same
        rw [goTo_stage]
        trivial
      · rw [goTo_stage_other _ _ same]
        have fits := h.fits v
        cases stage : s.stage v with
        | idle => trivial
        | writing | closing =>
          rw [stage] at fits
          have holds := fits.2.1
          rw [free] at holds
          cases holds
        | moving =>
          rw [stage] at fits
          obtain ⟨c, made, own⟩ := fits
          exact ⟨c, made, fun mine => ⟨(own mine).1, .inl rfl⟩⟩
    · cases there
  | refused moving => exact h.done fun _ _ holds => holds
  | crashed =>
    refine h.done fun v apart holds => ?_
    rw [holds, if_neg (by simpa using apart)]

theorem run_traced (start : Disk ι) (quiet : ∀ w, start.stage w = .idle)
    (moves : List (ι × DiskCall)) :
    (run step start moves).Traced (start.lastCreation moves) := by
  have kept (t : Disk ι × Option (Creation ι)) (m : ι × DiskCall) (h : t.1.Traced t.2) :
      (traced t m).1.Traced (traced t m).2 := h.effect (step_effect t.1 m.1 m.2)
  have first : start.Traced none :=
    ⟨fun w => by rw [quiet w]; trivial, fun _ _ made => by cases made⟩
  have both := @run_keeps _ _ traced
    (fun t : Disk ι × Option (Creation ι) => t.1.Traced t.2) kept (start, none) first moves
  have same : (run traced (start, none) moves).1 = run step start moves :=
    run_simulates
      (fun (t : Disk ι × Option (Creation ι)) (s : Disk ι) => t.1 = s)
      (fun _ _ m eq => congrArg (step · m) eq) rfl moves
  rw [same] at both
  exact both

omit [DecidableEq ι] in
theorem lands_move {path : String} {content : Bytes} {ok : Bool}
    (landed : s.lands (w, .move ok) = some (path, content)) :
    (∃ bytes, s.stage w = .moving path bytes) ∧ ok = true ∧ s.handle = none ∧
      s.temp = some content := by
  unfold lands at landed
  dsimp only at landed
  cases stage : s.stage w with
  | moving target bytes =>
    rw [stage] at landed
    dsimp only at landed
    split at landed
    · rename_i can
      obtain ⟨taken, there, same⟩ := Option.map_eq_some_iff.mp landed
      cases same
      exact ⟨⟨bytes, rfl⟩, can.1, can.2, there⟩
    · cases landed
  | idle | writing | closing =>
    rw [stage] at landed
    cases landed

theorem step_files {m : ι × DiskCall} (stays : s.lands m = none) :
    (s.step m).files = s.files := by
  obtain ⟨w, call⟩ := m
  have effect := step_effect s w call
  generalize s.step (w, call) = after at effect
  cases effect with
  | landed moving granted free there =>
    simp [lands, moving, granted, free, there] at stays
  | nothing | created | wrote | failed | flushed | closed | refused | crashed => rfl

theorem step_lands {path : String} {content : Bytes} {ok : Bool}
    (landed : s.lands (w, .move ok) = some (path, content)) :
    (s.step (w, .move ok)).files = Function.update s.files path (some content) := by
  obtain ⟨⟨bytes, moving⟩, granted, free, there⟩ := lands_move landed
  unfold step
  dsimp only
  simp only [moving, there, granted, free, and_self, if_true]
  rfl

end Traces

/-- In any interleaving of writers, with any failures and crashes, a file changes only when a
move lands on it, and what lands is what the last creator of the temporary file wrote: a part of
its bytes, all of them if it is ready to move, and the mover's own if the mover created last. -/
theorem lands_last (start : Disk ι) (quiet : ∀ w, start.stage w = .idle)
    (moves : List (ι × DiskCall)) :
    let s := run step start moves
    (∀ m, s.lands m = none → (s.step m).files = s.files) ∧
      ∀ w ok path content, s.lands (w, .move ok) = some (path, content) →
        (s.step (w, .move ok)).files = Function.update s.files path (some content) ∧
        ∃ c bytes, start.lastCreation moves = some c ∧ s.stage w = .moving path bytes ∧
          content <+: c.bytes ∧ (s.stage c.writer = .moving c.path c.bytes → content = c.bytes) ∧
          (c.writer = w → content = bytes) := by
  intro s
  have traced : s.Traced (start.lastCreation moves) := run_traced start quiet moves
  refine ⟨fun m stays => step_files stays, fun w ok path content landed => ⟨step_lands landed, ?_⟩⟩
  obtain ⟨⟨bytes, moving⟩, _, _, there⟩ := lands_move landed
  obtain ⟨c, made, own⟩ := traced.fits_at moving
  have whole {stored : Bytes} (held : s.temp = none ∨ s.temp = some stored) : content = stored := by
    rw [there] at held
    rcases held with gone | same
    · cases gone
    · exact Option.some.inj same
  refine ⟨c, bytes, made, moving, traced.start c content made there, fun waits => ?_, fun mine => ?_⟩
  · obtain ⟨d, again, theirs⟩ := traced.fits_at waits
    cases made.symm.trans again
    exact whole (theirs rfl).2
  · exact whole (own mine).2

def blank : Disk ι := ⟨none, none, fun _ => none, fun _ => .idle⟩

/-- The calls of one write that meet no failure, up to the move. -/
def written (w : ι) (path : String) (bytes : Bytes) : List (ι × DiskCall) :=
  [(w, .create path bytes true), (w, .write (some bytes.length)), (w, .flush true), (w, .close true)]

theorem lands_last_misplaced :
    let s := run step (blank : Disk Bool)
      (written false "recovery-state.bin" [1, 2] ++ written true "endpoint.txt" [3])
    s.stage false = .moving "recovery-state.bin" [1, 2] ∧
      (s.step (false, .move true)).files "recovery-state.bin" = some [3] := by
  have landed := ((lands_last (blank : Disk Bool) (fun _ => rfl)
    (written false "recovery-state.bin" [1, 2] ++ written true "endpoint.txt" [3])).2
      false true "recovery-state.bin" [3] rfl).1
  refine ⟨rfl, ?_⟩
  rw [landed]
  exact Function.update_self ..

/-- A writer creates the temporary file only while no other is at work. -/
def Exclusive (s : Disk ι) : ι × DiskCall → Prop
  | (w, .create _ _ _) => ∀ v, v ≠ w → s.stage v = .idle
  | (_, .write _) | (_, .flush _) | (_, .close _) | (_, .move _) | (_, .crash) => True

/-- What a call of `durable_write_user_only` was made with. -/
def argument (s : Disk ι) : ι × DiskCall → Option (String × Bytes)
  | (_, .create path bytes _) => some (path, bytes)
  | (w, .write _) | (w, .flush _) | (w, .close _) | (w, .move _) | (w, .crash) =>
    (s.stage w).argument

/-- Files change where a write is answered, and there as an atomic replacement changes them. -/
def Atomic (s : Disk ι) (m : ι × DiskCall) : Prop :=
  match s.answer m with
  | none => (s.step m).files = s.files
  | some durable => ∃ path bytes, s.argument m = some (path, bytes) ∧
      (s.step m).files = Function.update s.files path
        (LoggedFile.replace ⟨s.files path, []⟩ bytes durable).content

section Exclusive
variable {s after : Disk ι} {last : Option (Creation ι)} {w : ι} {call : DiskCall}

/-- One writer is at work, and what it is about to move is its own. -/
structure Sole (s : Disk ι) (last : Option (Creation ι)) : Prop where
  traced : s.Traced last
  alone : ∀ v w, s.stage v ≠ .idle → s.stage w ≠ .idle → v = w
  whole : ∀ w path bytes, s.stage w = .moving path bytes → s.temp = some bytes

omit [DecidableEq ι] in
theorem Sole.others (h : s.Sole last) (busy : s.stage w ≠ .idle) {v : ι} (apart : v ≠ w) :
    s.stage v = .idle := by
  by_contra too
  exact apart (h.alone v w too busy)

theorem sole_of_others (w : ι) {now : Option (Creation ι)} (traced : after.Traced now)
    (others : ∀ v, v ≠ w → after.stage v = .idle)
    (whole : ∀ path bytes, after.stage w = .moving path bytes → after.temp = some bytes) :
    after.Sole now := by
  have mine (v : ι) (busy : after.stage v ≠ .idle) : v = w := by
    by_contra apart
    exact busy (others v apart)
  refine ⟨traced, fun v u v_busy u_busy => (mine v v_busy).trans (mine u u_busy).symm, ?_⟩
  intro v path bytes moving
  have same : v = w := mine v (by rw [moving]; exact Stage.noConfusion)
  subst same
  exact whole path bytes moving

theorem Sole.effect (h : s.Sole last) (effect : Effect s w call after)
    (exclusive : s.Exclusive (w, call)) : after.Sole ((s.creates (w, call)).or last) := by
  have traced := h.traced.effect effect
  have others {target : Disk ι} (same : ∀ v, v ≠ w → target.stage v = s.stage v)
      (busy : s.stage w ≠ .idle) (v : ι) (apart : v ≠ w) : target.stage v = .idle :=
    (same v apart).trans (h.others busy apart)
  cases effect with
  | nothing _ old =>
    rw [old]
    exact h
  | created =>
    refine sole_of_others w traced (fun v apart => ?_) fun path bytes moving => ?_
    · rw [goTo_stage_other _ _ apart]
      exact exclusive v apart
    · rw [goTo_stage] at moving
      cases moving
  | wrote writing | failed writing | flushed writing =>
    refine sole_of_others w traced
      (others (fun v apart => goTo_stage_other _ _ apart) (by rw [writing]; exact Stage.noConfusion))
      fun path bytes moving => ?_
    rw [goTo_stage] at moving
    cases moving
  | @closed path bytes done ok closing =>
    refine sole_of_others w traced
      (others (fun v apart => goTo_stage_other _ _ apart) (by rw [closing]; exact Stage.noConfusion))
      fun target stored moving => ?_
    obtain ⟨_, _, content, temp, complete⟩ := h.traced.fits_at closing
    rw [goTo_stage] at moving
    cases both : done && ok with
    | false =>
      rw [both] at moving
      cases moving
    | true =>
      rw [both] at moving
      cases moving
      rw [← complete (((Bool.and_eq_true _ _).mp both).1)]
      exact temp
  | landed moving | refused moving =>
    refine sole_of_others w traced
      (others (fun v apart => goTo_stage_other _ _ apart) (by rw [moving]; exact Stage.noConfusion))
      fun path bytes again => ?_
    rw [goTo_stage] at again
    cases again
  | crashed =>
    have before {v : ι} (busy : (goTo { s with
        handle := if s.handle = some w then none else s.handle } w .idle).stage v ≠ .idle) :
        v ≠ w := by
      rintro rfl
      rw [goTo_stage] at busy
      exact busy rfl
    refine ⟨traced, fun v u v_busy u_busy => ?_, fun v path bytes moving => ?_⟩
    · have v_apart := before v_busy
      have u_apart := before u_busy
      rw [goTo_stage_other _ _ v_apart] at v_busy
      rw [goTo_stage_other _ _ u_apart] at u_busy
      exact h.alone v u v_busy u_busy
    · have apart := before (by rw [moving]; exact Stage.noConfusion)
      rw [goTo_stage_other _ _ apart] at moving
      exact h.whole v path bytes moving

theorem Sole.atomic (h : s.Sole last) (m : ι × DiskCall) : s.Atomic m := by
  obtain ⟨w, call⟩ := m
  have failed {path : String} {bytes : Bytes} (stays : s.lands (w, call) = none)
      (argument : s.argument (w, call) = some (path, bytes)) :
      ∃ path bytes, s.argument (w, call) = some (path, bytes) ∧
        (s.step (w, call)).files = Function.update s.files path
          (LoggedFile.replace ⟨s.files path, []⟩ bytes false).content :=
    ⟨path, bytes, argument, (step_files stays).trans (Function.update_eq_self path s.files).symm⟩
  unfold Atomic
  cases call with
  | create path bytes ok =>
    cases answered : s.answer (w, .create path bytes ok) with
    | none => exact step_files rfl
    | some durable =>
      have refused : durable = false := by
        unfold answer at answered
        dsimp only at answered
        split at answered
        · split at answered
          · cases answered
          · cases answered
            rfl
        · cases answered
      subst refused
      exact failed rfl rfl
  | write | flush | crash => exact step_files rfl
  | close ok =>
    cases answered : s.answer (w, .close ok) with
    | none => exact step_files rfl
    | some durable =>
      unfold answer at answered
      dsimp only at answered
      split at answered
      · rename_i path bytes done closing
        split at answered
        · cases answered
        · cases answered
          exact failed rfl (by rw [argument, closing]; rfl)
      · cases answered
  | move ok =>
    cases answered : s.answer (w, .move ok) with
    | none =>
      refine step_files ?_
      unfold answer at answered
      unfold lands
      dsimp only at answered ⊢
      split at answered
      · cases answered
      · rfl
    | some durable =>
      unfold answer at answered
      dsimp only at answered
      split at answered
      · rename_i path bytes moving
        have given : s.argument (w, .move ok) = some (path, bytes) := by
          rw [argument, moving]
          rfl
        cases landed : s.lands (w, .move ok) with
        | none =>
          rw [landed] at answered
          cases answered
          exact failed landed given
        | some put =>
          obtain ⟨target, content⟩ := put
          rw [landed] at answered
          cases answered
          obtain ⟨⟨stored, again⟩, _, _, there⟩ := lands_move landed
          cases moving.symm.trans again
          cases there.symm.trans (h.whole w _ _ moving)
          exact ⟨_, _, given, step_lands landed⟩
      · cases answered

end Exclusive

/-- While only one writer is at work, whatever calls fail and whoever crashes wherever, each call
of `durable_write_user_only` is an atomic replacement: its answer says whether the file now holds
exactly its bytes, and apart from that no file changes. -/
theorem exclusive_writes_atomic (start : Disk ι) (quiet : ∀ w, start.stage w = .idle)
    (moves : List (ι × DiskCall)) (exclusive : AllSteps step Exclusive start moves) :
    AllSteps step Atomic start moves := by
  have first : start.Sole none :=
    ⟨run_traced start quiet [], fun v w busy => absurd (quiet v) busy,
      fun w path bytes moving => by rw [quiet w] at moving; cases moving⟩
  refine allSteps_of_invariant (fun s : Disk ι => ∃ last, s.Sole last) ?_ ?_ ⟨none, first⟩ exclusive
  · rintro s m ⟨last, sole⟩ allowed
    exact ⟨_, sole.effect (step_effect s m.1 m.2) allowed⟩
  · rintro s m ⟨last, sole⟩ _
    exact sole.atomic m

theorem exclusive_writes_atomic_two :
    AllSteps step Atomic (blank : Disk Bool)
      (written false "recovery-state.bin" [1, 2] ++ [(false, .move true)] ++
        (written true "endpoint.txt" [3] ++ [(true, .move true)])) := by
  refine exclusive_writes_atomic blank (fun _ => rfl) _
    ⟨fun _ _ => rfl, trivial, trivial, trivial, trivial, fun v apart => ?_, trivial, trivial,
      trivial, trivial, trivial⟩
  cases v with
  | false => rfl
  | true => exact absurd rfl apart

end Disk
end ZonKey.Durable

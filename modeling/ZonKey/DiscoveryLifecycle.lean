import ZonKey.EndpointDiscovery
import ZonKey.RecoveryRestore
import ZonKey.Runs

set_option autoImplicit false

/-!
# Endpoints that come and go

Each endpoint replaces the discovery file with its own record at its start. At
a clean shutdown it reads the file and removes it if it still names its pipe;
the two are separate accesses, and other endpoints may start in between. A
crash is a shutdown that never comes.
-/
namespace ZonKey.Discovery
open Runs Recovery Host

def generatePipeName (start : String) (nonce : List UInt8) : Except String String :=
  if start = "" ∨ ¬ start.toList.all (fun c => c.isAlphanum || c = '-') then
    .error "pipe name prefix must be non-empty ASCII alphanumerics or dashes"
  else .ok (pipePrefix ++ "zonkey-" ++ start ++ "-" ++ RecoveryRegistry.hex nonce)

/-- What an endpoint run finds at its start: a nonce or none, its process id,
the clock (none before the epoch) and whether the record can be written. -/
structure EndpointStart where
  nonce : Option (List UInt8)
  pid : UInt32
  clockMs : Option Nat
  writes : Bool

def startedMs (clockMs : Option Nat) : UInt64 :=
  match clockMs with
  | none => 0
  | some ms => if ms < 2 ^ 64 then .ofNat ms else .ofNat (2 ^ 64 - 1)

/-- The pipe name, whether it was registered, and the file afterwards. -/
def resolveEndpointPipe (requested : String) (start : EndpointStart) (file : Option String) :
    Except String (String × Bool) × Option String :=
  if requested ≠ "auto" then
    if ¬ pipePrefix.toList.isPrefixOf requested.toList then
      (.error "pipe name must be a local named pipe path", file)
    else (.ok (requested, false), file)
  else
    match start.nonce with
    | none => (.error "pipe name generation failed", file)
    | some nonce =>
      match generatePipeName "svc" nonce with
      | .error error => (.error ("pipe name generation failed: " ++ error), file)
      | .ok generated =>
        if start.writes then
          (.ok (generated, true),
            some (render ⟨endpointProtocol, generated, start.pid, startedMs start.clockMs⟩))
        else (.error "endpoint discovery record could not be written", file)

def readRecordIn (file : Option String) : Option EndpointRecord := file.bind parse

/-- The answer of `remove_record_in` and the file afterwards, when nothing comes in between. -/
def removeRecordIn (file : Option String) (pipe : String) (removed : Bool) : Bool × Option String :=
  match readRecordIn file with
  | some record =>
    if record.pipe = pipe then (removed, if removed then none else file) else (true, file)
  | none => (true, file)

/-- The file, and the pipes whose shutdown has found its own record in it. -/
structure DiscoveryState where
  file : Option String
  leaving : List String

inductive DiscoveryMove where
  | start (record : EndpointRecord) (written : Bool)
  | check (pipe : String)
  | remove (pipe : String) (removed : Bool)

namespace DiscoveryState

def names (s : DiscoveryState) (pipe : String) : Prop :=
  ∃ record, readRecordIn s.file = some record ∧ record.pipe = pipe

def step (s : DiscoveryState) : DiscoveryMove → DiscoveryState
  | .start record written => if written then { s with file := some (render record) } else s
  | .check pipe =>
    match readRecordIn s.file with
    | some record => if record.pipe = pipe then { s with leaving := pipe :: s.leaving } else s
    | none => s
  | .remove pipe removed =>
    if pipe ∈ s.leaving ∧ removed = true then { s with file := none } else s

variable {s : DiscoveryState} {record : EndpointRecord}

theorem names_of_render (protocol : record.protocol = endpointProtocol)
    (pipe : '\n' ∉ record.pipe.toList) (here : s.file = some (render record)) {name : String} :
    s.names name ↔ record.pipe = name := by
  have read : readRecordIn s.file = some record := by
    rw [readRecordIn, here, Option.bind_some, parse_render protocol pipe]
  unfold names
  rw [read]
  simp

theorem step_check (s : DiscoveryState) (pipe : String) :
    (s.names pipe ∧ s.step (.check pipe) = { s with leaving := pipe :: s.leaving }) ∨
      (¬ s.names pipe ∧ s.step (.check pipe) = s) := by
  unfold names step
  cases readRecordIn s.file with
  | none => exact .inr ⟨by simp, rfl⟩
  | some record =>
    by_cases same : record.pipe = pipe
    · exact .inl ⟨⟨record, rfl, same⟩, if_pos same⟩
    · exact .inr ⟨by simp [same], if_neg same⟩

theorem step_remove_record (pipe : String) (removed : Bool) (fresh : pipe ∉ s.leaving) :
    (run step s [.check pipe, .remove pipe removed]).file =
      (removeRecordIn s.file pipe removed).2 := by
  rw [run_cons, run_cons, run_nil]
  unfold removeRecordIn
  rcases s.step_check pipe with ⟨⟨record, read, same⟩, eq⟩ | ⟨other, eq⟩
  · rw [eq, read]
    cases removed <;> simp [step, same]
  · rw [eq]
    have kept : s.step (.remove pipe removed) = s := if_neg fun both => fresh both.1
    rw [kept]
    cases read : readRecordIn s.file with
    | none => rfl
    | some record =>
      have apart : record.pipe ≠ pipe := fun same => other ⟨record, read, same⟩
      simp [apart]

theorem leaving_start (s : DiscoveryState) (record : EndpointRecord) (written : Bool) :
    (s.step (.start record written)).leaving = s.leaving := by
  cases written <;> rfl

theorem leaving_remove (s : DiscoveryState) (pipe : String) (removed : Bool) :
    (s.step (.remove pipe removed)).leaving = s.leaving := by
  unfold step
  dsimp only
  split <;> rfl

theorem leaving_of_check {pipe : String} {moves : List DiscoveryMove}
    (leaving : pipe ∈ (run step s moves).leaving) (fresh : pipe ∉ s.leaving) :
    ∃ before after, moves = before ++ .check pipe :: after ∧ (run step s before).names pipe := by
  rcases last_established (fun t : DiscoveryState => pipe ∈ t.leaving) s moves leaving with
    ⟨initial, _⟩ | ⟨before, move, after, eq, was, now, _⟩
  · exact absurd initial fresh
  · refine ⟨before, after, ?_, ?_⟩ <;> cases move with
    | start other written =>
      rw [leaving_start] at now
      exact absurd now was
    | remove other removed =>
      rw [leaving_remove] at now
      exact absurd now was
    | check other =>
      rcases (run step s before).step_check other with ⟨named, checked⟩ | ⟨_, checked⟩
      · rw [checked, List.mem_cons] at now
        rcases now with rfl | old
        · first | exact eq | exact named
        · exact absurd old was
      · rw [checked] at now
        exact absurd now was

/-- Nothing but a start brings a removed file back. -/
theorem file_none (gone : s.file = none) {moves : List DiscoveryMove}
    (quiet : ∀ other, .start other true ∉ moves) : (run step s moves).file = none := by
  refine run_invariant (P := fun _ move => ∀ other, move ≠ .start other true)
    (fun t : DiscoveryState => t.file = none) ?_ gone ?_
  · intro t move held allowed
    cases move with
    | start other written =>
      cases written with
      | true => exact absurd rfl (allowed other)
      | false => exact held
    | check pipe => rcases t.step_check pipe with ⟨_, eq⟩ | ⟨_, eq⟩ <;> rw [eq] <;> exact held
    | remove pipe removed =>
      unfold step
      dsimp only
      split
      · rfl
      · exact held
  · refine allSteps_of_split fun before move after eq other same => quiet other ?_
    rw [eq, same]
    simp

def Removal (leaving : List String) (own : String) (moves : List DiscoveryMove) : Prop :=
  ∃ before name after, moves = before ++ .remove name true :: after ∧
    (name ∈ leaving ∨ name = own ∧ .check name ∈ before)

theorem removal_cons_iff {leaving : List String} {own : String} {move : DiscoveryMove}
    {rest : List DiscoveryMove} (removes : ∀ name, move = .remove name true → name ∉ leaving)
    (checks : ∀ name, move = .check name → name ≠ own) :
    Removal leaving own rest ↔ Removal leaving own (move :: rest) := by
  constructor
  · rintro ⟨before, name, after, rfl, why⟩
    refine ⟨move :: before, name, after, rfl, why.imp_right fun ⟨same, mem⟩ => ⟨same, ?_⟩⟩
    exact List.mem_cons_of_mem _ mem
  · rintro ⟨before, name, after, eq, why⟩
    cases before with
    | nil =>
      cases eq
      rcases why with mem | ⟨_, mem⟩
      · exact absurd mem (removes name rfl)
      · cases mem
    | cons first before =>
      cases eq
      refine ⟨before, name, after, rfl, why.imp_right fun ⟨same, mem⟩ => ⟨same, ?_⟩⟩
      rcases List.mem_cons.mp mem with here | there
      · exact absurd same (checks name here.symm)
      · exact there

theorem removal_check_iff {leaving : List String} {own : String} {rest : List DiscoveryMove} :
    Removal (own :: leaving) own rest ↔ Removal leaving own (.check own :: rest) := by
  constructor
  · rintro ⟨before, name, after, rfl, why⟩
    refine ⟨.check own :: before, name, after, rfl, ?_⟩
    rcases why with mem | ⟨same, _⟩
    · rcases List.mem_cons.mp mem with same | old
      · exact .inr ⟨same, by rw [same]; exact List.mem_cons_self⟩
      · exact .inl old
    · exact .inr ⟨same, by rw [same]; exact List.mem_cons_self⟩
  · rintro ⟨before, name, after, eq, why⟩
    cases before with
    | nil => cases eq
    | cons first before =>
      cases eq
      refine ⟨before, name, after, rfl, .inl ?_⟩
      rcases why with old | ⟨same, _⟩
      · exact List.mem_cons_of_mem _ old
      · exact List.mem_cons.mpr (.inl same)

/-- While no other endpoint starts, a record stays until a removal by an
endpoint that was already leaving, or by its own after its check. -/
theorem record_removed_iff (protocol : record.protocol = endpointProtocol)
    (pipe : '\n' ∉ record.pipe.toList) (here : s.file = some (render record))
    {moves : List DiscoveryMove} (quiet : ∀ other, .start other true ∉ moves) :
    ((run step s moves).file = none ∨ (run step s moves).file = some (render record)) ∧
    ((run step s moves).file = none ↔ Removal s.leaving record.pipe moves) := by
  induction moves generalizing s with
  | nil =>
    refine ⟨.inr here, fun gone => ?_, ?_⟩
    · rw [run_nil, here] at gone
      cases gone
    · rintro ⟨before, name, after, eq, _⟩
      simp at eq
  | cons move rest ih =>
    have later : ∀ other, .start other true ∉ rest :=
      fun other mem => quiet other (List.mem_cons_of_mem _ mem)
    cases move with
    | start other written =>
      cases written with
      | true => exact absurd List.mem_cons_self (quiet other)
      | false =>
        obtain ⟨either, exact_⟩ := ih here later
        exact ⟨either, exact_.trans (removal_cons_iff (by simp) (by simp))⟩
    | check pipe' =>
      rcases s.step_check pipe' with ⟨named, eq⟩ | ⟨other, eq⟩
      · have own := (names_of_render protocol pipe here).mp named
        rw [run_cons, eq]
        obtain ⟨either, exact_⟩ := ih (s := { s with leaving := pipe' :: s.leaving }) here later
        subst own
        exact ⟨either, exact_.trans removal_check_iff⟩
      · rw [run_cons, eq]
        obtain ⟨either, exact_⟩ := ih here later
        refine ⟨either, exact_.trans (removal_cons_iff (by simp) ?_)⟩
        intro name same
        cases same
        rintro rfl
        exact other ((names_of_render protocol pipe here).mpr rfl)
    | remove name removed =>
      by_cases fires : name ∈ s.leaving ∧ removed = true
      · have gone : (s.step (.remove name removed)).file = none := by rw [step, if_pos fires]
        have still := file_none gone later
        refine ⟨.inl still, fun _ => ⟨[], name, rest, ?_, .inl fires.1⟩, fun _ => still⟩
        rw [fires.2]
        rfl
      · have kept : s.step (.remove name removed) = s := if_neg fires
        rw [run_cons, kept]
        obtain ⟨either, exact_⟩ := ih here later
        refine ⟨either, exact_.trans (removal_cons_iff ?_ (by simp))⟩
        intro other same
        cases same
        exact fun leaving => fires ⟨leaving, rfl⟩

end DiscoveryState

section Generated

theorem not_mem_hex {c : Char} (other : ∀ value < 16, Nat.digitChar value ≠ c) (nonce : List UInt8) :
    c ∉ (RecoveryRegistry.hex nonce).toList := by
  rw [RecoveryRegistry.hex_toList]
  intro mem
  obtain ⟨byte, _, digit⟩ := List.mem_flatMap.mp mem
  have small := byte.toNat_lt
  rcases List.mem_cons.mp digit with high | low
  · exact other (byte.toNat / 16) (by omega) high.symm
  · exact other (byte.toNat % 16) (by omega) (List.mem_singleton.mp low).symm

theorem generatePipeName_svc (nonce : List UInt8) :
    generatePipeName "svc" nonce =
      .ok (pipePrefix ++ "zonkey-" ++ "svc" ++ "-" ++ RecoveryRegistry.hex nonce) :=
  if_neg (by decide)

theorem feed_not_mem_generated {nonce : List UInt8} {pipe : String}
    (generated : generatePipeName "svc" nonce = .ok pipe) :
    '\n' ∉ pipe.toList ∧ pipePrefix.toList.isPrefixOf pipe.toList = true := by
  rw [generatePipeName_svc] at generated
  cases generated
  simp only [String.toList_append, List.append_assoc]
  constructor
  · simp only [List.mem_append, not_or]
    exact ⟨by decide, by decide, by decide, by decide, not_mem_hex (by decide) nonce⟩
  · exact List.isPrefixOf_iff_prefix.mpr (List.prefix_append _ _)

theorem registered {start : EndpointStart} {file after : Option String} {pipe : String}
    (resolved : resolveEndpointPipe "auto" start file = (.ok (pipe, true), after)) :
    (∃ nonce, generatePipeName "svc" nonce = .ok pipe) ∧
      after = some (render ⟨endpointProtocol, pipe, start.pid, startedMs start.clockMs⟩) := by
  unfold resolveEndpointPipe at resolved
  rw [if_neg (not_not.mpr rfl)] at resolved
  cases nonce : start.nonce with
  | none => simp [nonce] at resolved
  | some bytes =>
    rw [nonce] at resolved
    dsimp only at resolved
    rw [generatePipeName_svc] at resolved
    dsimp only at resolved
    split_ifs at resolved
    · cases resolved
      exact ⟨⟨bytes, generatePipeName_svc bytes⟩, rfl⟩
    · cases resolved

theorem startedMs_safe {clockMs : Option Nat} {ms : Nat} (clock : clockMs = some ms)
    (small : ms ≤ JsNumber.maxSafeInteger) : (startedMs clockMs).toNat = ms := by
  have limit : JsNumber.maxSafeInteger < 2 ^ 64 := by decide
  have bound : ms < 2 ^ 64 := by omega
  rw [clock, startedMs, if_pos bound, UInt64.toNat_ofNat']
  exact Nat.mod_eq_of_lt bound

theorem startedMs_iff (clockMs : Option Nat) :
    (0 < (startedMs clockMs).toNat ∧ (startedMs clockMs).toNat ≤ JsNumber.maxSafeInteger) ↔
      ∃ ms, clockMs = some ms ∧ 0 < ms ∧ ms ≤ JsNumber.maxSafeInteger := by
  constructor
  · rintro ⟨positive, small⟩
    cases clockMs with
    | none => exact absurd positive (by decide)
    | some ms =>
      refine ⟨ms, rfl, ?_⟩
      unfold startedMs at positive small
      dsimp only at positive small
      split_ifs at positive small with bound
      · rw [UInt64.toNat_ofNat', Nat.mod_eq_of_lt bound] at positive small
        exact ⟨positive, small⟩
      · exact absurd small (by decide)
  · rintro ⟨ms, clock, positive, small⟩
    rw [startedMs_safe clock small]
    exact ⟨positive, small⟩

end Generated

namespace DiscoveryState

/-- The record of an endpoint is lost, while none starts after it, exactly if
the endpoint itself deregisters it or an older one removes the file on a check
made before the start. While it is there the service reads it, and the host
does exactly if the process id is positive and the clock stood after the epoch. -/
theorem newest_deregistered_iff (before after : List DiscoveryMove) (start : EndpointStart)
    (pipe : String) (file : Option String)
    (resolved : resolveEndpointPipe "auto" start (run step ⟨none, []⟩ before).file =
      (.ok (pipe, true), file)) (quiet : ∀ other, .start other true ∉ after) :
    let s := run step ⟨none, []⟩ before
    let t := run step { s with file := file } after
    (t.file = none ↔ ∃ early name late, after = early ++ .remove name true :: late ∧
      (name ∈ s.leaving ∨ name = pipe ∧ .check name ∈ early)) ∧
    (∀ name ∈ s.leaving, ∃ earlier later, before = earlier ++ .check name :: later ∧
      (run step ⟨none, []⟩ earlier).names name) ∧
    (t.file ≠ none →
      readRecordIn t.file = some ⟨endpointProtocol, pipe, start.pid, startedMs start.clockMs⟩ ∧
      ((t.file.bind parseRecord).isSome ↔ 0 < start.pid.toNat ∧
        ∃ ms, start.clockMs = some ms ∧ 0 < ms ∧ ms ≤ JsNumber.maxSafeInteger)) := by
  intro s t
  obtain ⟨⟨nonce, generated⟩, written⟩ := registered resolved
  obtain ⟨line, isLocal⟩ := feed_not_mem_generated generated
  let record : EndpointRecord := ⟨endpointProtocol, pipe, start.pid, startedMs start.clockMs⟩
  have clean : '\n' ∉ record.pipe.toList := line
  obtain ⟨either, removed⟩ := record_removed_iff rfl clean
    (s := { s with file := file }) written quiet
  refine ⟨removed, fun name mem => leaving_of_check mem List.not_mem_nil, fun present => ?_⟩
  have here := either.resolve_left present
  change t.file = _ at here
  have back : parse (render record) = some record := parse_render rfl clean
  rw [here, readRecordIn, Option.bind_some, Option.bind_some, back, parseRecord_of_parse back,
    EndpointRecord.forHost, ← startedMs_iff]
  refine ⟨rfl, ?_⟩
  split_ifs with good
  · exact ⟨fun _ => good.2, fun _ => rfl⟩
  · exact ⟨fun unread => absurd unread Bool.false_ne_true, fun fine => absurd ⟨isLocal, fine⟩ good⟩

def olderPipe : String := "\\\\.\\pipe\\zonkey-svc-0a"

def newerPipe : String := "\\\\.\\pipe\\zonkey-svc-0b"

def olderLeaving : List DiscoveryMove :=
  [.start ⟨endpointProtocol, olderPipe, 7, 5⟩ true, .check olderPipe]

theorem newest_deregistered_by_older :
    (run step { run step ⟨none, []⟩ olderLeaving with
      file := some (render ⟨endpointProtocol, newerPipe, 8, 6⟩) } [.remove olderPipe true]).file =
        none := by
  have leaving : olderPipe ∈ (run step ⟨none, []⟩ olderLeaving).leaving := by
    refine List.mem_of_getElem? (i := 0) ?_
    rfl
  exact (newest_deregistered_iff olderLeaving [.remove olderPipe true] ⟨some [0x0b], 8, some 6, true⟩
    newerPipe _ rfl (by simp)).1.mpr ⟨[], olderPipe, [], rfl, .inl leaving⟩

end DiscoveryState
end ZonKey.Discovery

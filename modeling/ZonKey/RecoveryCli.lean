import ZonKey.EndpointDiscovery
import ZonKey.PipeRecoveryCommands

set_option autoImplicit false

namespace ZonKey.Pipe
open Recovery Store Discovery Host

/-- The value of the last `--pipe` and the other arguments. -/
def takePipe : List String → Option String × List String
  | "--pipe" :: name :: rest =>
    let (later, others) := takePipe rest
    (later.or (some name), others)
  | argument :: rest =>
    let (pipe, others) := takePipe rest
    (pipe, argument :: others)
  | [] => (none, [])

def commandText : List String → Except String String
  | ["list"] => .ok "LIST"
  | ["block", uri, expected, replacement, start, stop] =>
    if (parseU64 start).isNone ∨ (parseU64 stop).isNone then .error "range must be integers"
    else
      .ok ("BLOCK|" ++ uri ++ "|" ++ expected ++ "|" ++ replacement ++ "|" ++ start ++ "|" ++ stop)
  | ["reconcile", uri, expected, epoch, live] =>
    if (parseU64 epoch).isNone then .error "document epoch must be an integer"
    else .ok ("RECONCILE|" ++ uri ++ "|" ++ expected ++ "|" ++ epoch ++ "|" ++ live)
  | ["ack", uri, expected, epoch] =>
    if (parseU64 epoch).isNone then .error "document epoch must be an integer"
    else .ok ("ACK|" ++ uri ++ "|" ++ expected ++ "|" ++ epoch)
  | _ => .error "unknown recovery command"

/-- The pipe and the command text of `run_recovery_command`. -/
def recoveryCommand (arguments : List String) : Except String (String × String) :=
  match (takePipe arguments).1 with
  | none => .error "pipe name is required"
  | some pipe =>
    if pipe ≠ "auto" ∧ ¬ pipePrefix.toList.isPrefixOf pipe.toList then
      .error "pipe name must be a local named pipe path or auto"
    else (commandText (takePipe arguments).2).map fun text => (pipe, text)

/-- The command that the arguments name. -/
def named : List String → Option RecoveryCommand
  | ["list"] => some .list
  | ["block", uri, expected, replacement, start, stop] =>
    (parseU64 start).bind fun start => (parseU64 stop).map fun stop =>
      .block uri expected replacement (start, stop)
  | ["reconcile", uri, expected, epoch, live] =>
    (parseU64 epoch).map fun epoch => .reconcile uri expected epoch live
  | ["ack", uri, expected, epoch] => (parseU64 epoch).map fun epoch => .ack uri expected epoch
  | _ => none

namespace RecoveryCommand

/-- The texts of a command that the server reads up to the next separator. -/
def texts : RecoveryCommand → List String
  | list => []
  | block uri expected replacement _ => [uri, expected, replacement]
  | reconcile uri expected _ _ | ack uri expected _ => [uri, expected]

def Rejected : RecoveryCommand → Prop
  | reconcile uri expected _ live => ReconcileRejects uri expected live
  | list | block _ _ _ _ | ack _ _ _ => False

/-- A command arrives as it was given. -/
def Carried (command : RecoveryCommand) : Prop :=
  (∀ text ∈ command.texts, '|' ∉ text.toList) ∧ ¬ command.Rejected

end RecoveryCommand

section Texts

theorem clean_of_parse {text : String} {n : UInt64} (parsed : parseU64 text = some n) :
    '|' ∉ text.toList := by
  obtain ⟨digits, shape, _, all, _⟩ := digits_of_parse parsed
  have clean : '|' ∉ digits := fun mem => absurd (List.all_eq_true.mp all _ mem) (by decide)
  rcases shape with eq | eq
  · rw [eq]
    exact clean
  · rw [eq, List.mem_cons, not_or]
    exact ⟨by decide, clean⟩

theorem texts_of_parse {fields : List String} {command : RecoveryCommand}
    (parsed : parseCommand fields = some command) : ∀ text ∈ command.texts, text ∈ fields := by
  unfold parseCommand at parsed
  split at parsed
  · cases parsed
    simp [RecoveryCommand.texts]
  · simp only [Option.bind_eq_bind, Option.bind_eq_some_iff, Option.some.injEq] at parsed
    obtain ⟨_, _, _, _, rfl⟩ := parsed
    simp [RecoveryCommand.texts]
  · unfold parseReconcile at parsed
    split at parsed
    · simp only [Option.bind_eq_bind, Option.bind_eq_some_iff] at parsed
      obtain ⟨_, _, made⟩ := parsed
      split at made
      · cases made
      · cases made
        simp [RecoveryCommand.texts]
    · cases parsed
  · simp only [Option.bind_eq_bind, Option.bind_eq_some_iff, Option.some.injEq] at parsed
    obtain ⟨_, _, rfl⟩ := parsed
    simp [RecoveryCommand.texts]
  · cases parsed

theorem split_list : split "LIST" = ["LIST"] := split_clean (by decide)

theorem split_block {uri expected replacement start stop : String}
    (clean : ∀ text ∈ [uri, expected, replacement, start, stop], '|' ∉ text.toList) :
    split ("BLOCK|" ++ uri ++ "|" ++ expected ++ "|" ++ replacement ++ "|" ++ start ++ "|" ++ stop) =
      ["BLOCK", uri, expected, replacement, start, stop] := by
  have tagged : "BLOCK|" = "BLOCK" ++ "|" := by decide
  have tag : '|' ∉ "BLOCK".toList := by decide
  simp only [List.forall_mem_cons] at clean
  obtain ⟨uriClean, expectedClean, replacementClean, startClean, stopClean, _⟩ := clean
  have fields : "BLOCK|" ++ uri ++ "|" ++ expected ++ "|" ++ replacement ++ "|" ++ start ++ "|" ++
      stop = "BLOCK" ++ "|" ++ (uri ++ "|" ++ (expected ++ "|" ++ (replacement ++ "|" ++
        (start ++ "|" ++ stop)))) := by
    simp only [tagged, String.append_assoc]
  rw [fields, split_field tag, split_field uriClean, split_field expectedClean,
    split_field replacementClean, split_field startClean, split_clean stopClean]

theorem split_reconcile_text {uri expected epoch : String}
    (clean : ∀ text ∈ [uri, expected, epoch], '|' ∉ text.toList) (live : String) :
    split ("RECONCILE|" ++ uri ++ "|" ++ expected ++ "|" ++ epoch ++ "|" ++ live) =
      "RECONCILE" :: uri :: expected :: epoch :: split live := by
  have tagged : "RECONCILE|" = "RECONCILE" ++ "|" := by decide
  have tag : '|' ∉ "RECONCILE".toList := by decide
  simp only [List.forall_mem_cons] at clean
  obtain ⟨uriClean, expectedClean, epochClean, _⟩ := clean
  have fields : "RECONCILE|" ++ uri ++ "|" ++ expected ++ "|" ++ epoch ++ "|" ++ live =
      "RECONCILE" ++ "|" ++ (uri ++ "|" ++ (expected ++ "|" ++ (epoch ++ "|" ++ live))) := by
    simp only [tagged, String.append_assoc]
  rw [fields, split_field tag, split_field uriClean, split_field expectedClean,
    split_field epochClean]

theorem split_ack_text {uri expected epoch : String}
    (clean : ∀ text ∈ [uri, expected, epoch], '|' ∉ text.toList) :
    split ("ACK|" ++ uri ++ "|" ++ expected ++ "|" ++ epoch) = ["ACK", uri, expected, epoch] := by
  have tagged : "ACK|" = "ACK" ++ "|" := by decide
  have tag : '|' ∉ "ACK".toList := by decide
  simp only [List.forall_mem_cons] at clean
  obtain ⟨uriClean, expectedClean, epochClean, _⟩ := clean
  have fields : "ACK|" ++ uri ++ "|" ++ expected ++ "|" ++ epoch =
      "ACK" ++ "|" ++ (uri ++ "|" ++ (expected ++ "|" ++ epoch)) := by
    simp only [tagged, String.append_assoc]
  rw [fields, split_field tag, split_field uriClean, split_field expectedClean,
    split_clean epochClean]

end Texts

section Commands
variable {text : String} {command : RecoveryCommand}

inductive Written : List String → String → RecoveryCommand → Prop
  | list : Written ["list"] "LIST" .list
  | block {uri expected replacement start stop : String} {first last : UInt64}
      (starts : parseU64 start = some first) (stops : parseU64 stop = some last) :
      Written ["block", uri, expected, replacement, start, stop]
        ("BLOCK|" ++ uri ++ "|" ++ expected ++ "|" ++ replacement ++ "|" ++ start ++ "|" ++ stop)
        (.block uri expected replacement (first, last))
  | reconcile {uri expected epoch live : String} {number : UInt64}
      (numbered : parseU64 epoch = some number) :
      Written ["reconcile", uri, expected, epoch, live]
        ("RECONCILE|" ++ uri ++ "|" ++ expected ++ "|" ++ epoch ++ "|" ++ live)
        (.reconcile uri expected number live)
  | ack {uri expected epoch : String} {number : UInt64} (numbered : parseU64 epoch = some number) :
      Written ["ack", uri, expected, epoch] ("ACK|" ++ uri ++ "|" ++ expected ++ "|" ++ epoch)
        (.ack uri expected number)

theorem written_of_commandText {arguments : List String} (made : commandText arguments = .ok text) :
    ∃ command, named arguments = some command ∧ Written arguments text command := by
  unfold commandText at made
  split at made
  · cases made
    exact ⟨.list, rfl, .list⟩
  · rename_i uri expected replacement start stop
    cases starts : parseU64 start with
    | none => simp [starts] at made
    | some first =>
      cases stops : parseU64 stop with
      | none => simp [stops] at made
      | some last =>
        simp only [starts, stops, Option.isNone_some, Bool.false_eq_true, or_self, if_false,
          Except.ok.injEq] at made
        subst made
        exact ⟨_, by simp only [named, starts, stops, Option.bind_some, Option.map_some],
          .block starts stops⟩
  · rename_i uri expected epoch live
    cases numbered : parseU64 epoch with
    | none => simp [numbered] at made
    | some number =>
      simp only [numbered, Option.isNone_some, Bool.false_eq_true, if_false,
        Except.ok.injEq] at made
      subst made
      exact ⟨_, by simp only [named, numbered, Option.map_some], .reconcile numbered⟩
  · rename_i uri expected epoch
    cases numbered : parseU64 epoch with
    | none => simp [numbered] at made
    | some number =>
      simp only [numbered, Option.isNone_some, Bool.false_eq_true, if_false,
        Except.ok.injEq] at made
      subst made
      exact ⟨_, by simp only [named, numbered, Option.map_some], .ack numbered⟩
  · cases made

theorem parse_reconcile_text {uri expected epoch : String} {number : UInt64}
    (numbered : parseU64 epoch = some number) (uriClean : '|' ∉ uri.toList)
    (expectedClean : '|' ∉ expected.toList) (live : String) :
    parseCommand (split ("RECONCILE|" ++ uri ++ "|" ++ expected ++ "|" ++ epoch ++ "|" ++ live)) =
        some (.reconcile uri expected number live) ↔ ¬ ReconcileRejects uri expected live := by
  obtain ⟨first, tail, cut⟩ := List.exists_cons_of_ne_nil (split_ne_nil live)
  have joined := intercalate_split live
  rw [cut] at joined
  have rejoined : (if tail.isEmpty then first else first ++ "|" ++ String.intercalate "|" tail) =
      live := by
    cases tail with
    | nil => simpa using joined
    | cons second others => simpa [String.intercalate_cons_cons] using joined
  have rejects : (uri = "" ∨ expected = "" ∨ first = "") ↔ ReconcileRejects uri expected live :=
    or_congr_right (or_congr_right (split_head_empty_iff cut))
  have clean : ∀ text ∈ [uri, expected, epoch], '|' ∉ text.toList := by
    simp only [List.forall_mem_cons]
    exact ⟨uriClean, expectedClean, clean_of_parse numbered, List.forall_mem_nil _⟩
  have parsed : parseCommand
      (split ("RECONCILE|" ++ uri ++ "|" ++ expected ++ "|" ++ epoch ++ "|" ++ live)) =
      if uri = "" ∨ expected = "" ∨ first = "" then none
      else some (.reconcile uri expected number live) := by
    simp only [split_reconcile_text clean, cut, parseCommand, parseReconcile, numbered, rejoined]
    rfl
  rw [parsed, ← rejects]
  split
  · rename_i empty
    exact iff_of_false (by simp) (not_not_intro empty)
  · rename_i kept
    exact iff_of_true rfl kept

theorem Written.parses_iff {arguments : List String} (written : Written arguments text command) :
    parseCommand (split text) = some command ↔ command.Carried := by
  have cleanly (parsed : parseCommand (split text) = some command) :
      ∀ field ∈ command.texts, '|' ∉ field.toList :=
    fun field mem => not_mem_split (texts_of_parse parsed field mem)
  cases written with
  | list =>
    rw [split_list]
    exact iff_of_true rfl ⟨List.forall_mem_nil _, id⟩
  | @block uri expected replacement start stop first last starts stops =>
    refine ⟨fun parsed => ⟨cleanly parsed, id⟩, fun carried => ?_⟩
    have clean : ∀ field ∈ [uri, expected, replacement, start, stop], '|' ∉ field.toList := by
      have three := carried.1
      simp only [RecoveryCommand.texts, List.forall_mem_cons] at three ⊢
      exact ⟨three.1, three.2.1, three.2.2.1, clean_of_parse starts, clean_of_parse stops,
        List.forall_mem_nil _⟩
    rw [split_block clean]
    simp only [parseCommand, starts, stops]
    rfl
  | @reconcile uri expected epoch live number numbered =>
    constructor
    · intro parsed
      have clean := cleanly parsed
      simp only [RecoveryCommand.texts, List.forall_mem_cons] at clean
      exact ⟨cleanly parsed,
        (parse_reconcile_text numbered clean.1 clean.2.1 live).mp parsed⟩
    · rintro ⟨clean, kept⟩
      simp only [RecoveryCommand.texts, List.forall_mem_cons] at clean
      exact (parse_reconcile_text numbered clean.1 clean.2.1 live).mpr kept
  | @ack uri expected epoch number numbered =>
    refine ⟨fun parsed => ⟨cleanly parsed, id⟩, fun carried => ?_⟩
    have clean : ∀ field ∈ [uri, expected, epoch], '|' ∉ field.toList := by
      have two := carried.1
      simp only [RecoveryCommand.texts, List.forall_mem_cons] at two ⊢
      exact ⟨two.1, two.2.1, clean_of_parse numbered, List.forall_mem_nil _⟩
    rw [split_ack_text clean]
    simp only [parseCommand, numbered]
    rfl

/-- Whatever the operator types, what is sent names a command. The server reads exactly this
command if and only if the command is carried, and then it performs it on its store. -/
theorem operator_command_arrives (arguments : List String) (pipe text : String)
    (sent : recoveryCommand arguments = .ok (pipe, text)) :
    ∃ command, named (takePipe arguments).2 = some command ∧
      (parseCommand (split text) = some command ↔ command.Carried) ∧
      ∀ (env : FrameEnvironment) (server : PipeServer) session store,
        server.sessionOk session = true → '|' ∉ session.toList →
        server.recovery = some store → command.Carried →
        server.handleRecoveryCommand env (session ++ "|" ++ text) =
          ((performCommand env.firstWrite session store command).1,
            { server with recovery := some (performCommand env.firstWrite session store command).2 }) := by
  have made : commandText (takePipe arguments).2 = .ok text := by
    unfold recoveryCommand at sent
    split at sent
    · cases sent
    · split at sent
      · cases sent
      · cases built : commandText (takePipe arguments).2 with
        | error message =>
          rw [built] at sent
          cases sent
        | ok words =>
          rw [built] at sent
          cases sent
          rfl
  obtain ⟨command, means, written⟩ := written_of_commandText made
  refine ⟨command, means, written.parses_iff, ?_⟩
  intro env server session store own clean recovery carried
  exact handle_parsed env server (split_field clean text) own recovery
    (written.parses_iff.mpr carried)

theorem operator_command_arrives_block :
    parseCommand (split "BLOCK|file:///a|resume|restored|0|6") =
      some (.block "file:///a" "resume" "restored" (0, 6)) := by
  obtain ⟨command, means, reads, _⟩ := operator_command_arrives
    ["--pipe", "\\\\.\\pipe\\zonkey", "block", "file:///a", "resume", "restored", "0", "6"]
    "\\\\.\\pipe\\zonkey" "BLOCK|file:///a|resume|restored|0|6" rfl
  cases means
  exact reads.mpr ⟨by decide, id⟩

end Commands

end ZonKey.Pipe

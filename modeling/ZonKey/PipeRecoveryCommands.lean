import ZonKey.PipeWire
import ZonKey.RecoveryRegistryLifecycle
import ZonKey.RecoveryStoreBound

set_option autoImplicit false

namespace ZonKey.Recovery.RecoveryRegistry
open RecoveryCodec
variable {r : RecoveryRegistry} {uri expected : String}

/-- The registry holds the target under its plaintext and, apart from that,
under its salted hash. -/
def TwiceFiled (r : RecoveryRegistry) (uri expected : String) : Prop :=
  r.contains (key uri expected) = true ∧ ∃ salt, r.salt = some salt ∧
    hashKey uri (saltedHash salt expected) ≠ key uri expected ∧
    r.contains (hashKey uri (saltedHash salt expected)) = true

theorem resolveKey_plain (plain : r.contains (key uri expected) = true) :
    r.resolveKey uri expected = key uri expected := if_pos plain

theorem resolveKey_hashed {salt : Salt} (salted : r.salt = some salt)
    (absent : ¬ r.contains (key uri expected) = true) :
    r.resolveKey uri expected = hashKey uri (saltedHash salt expected) := by
  simp [resolveKey, absent, salted]

theorem resolveKey_congr {r' : RecoveryRegistry} (salt : r'.salt = r.salt)
    (plain : r'.contains (key uri expected) = r.contains (key uri expected)) :
    r'.resolveKey uri expected = r.resolveKey uri expected := by
  simp only [resolveKey, salt, plain]

theorem put_contains (k : String) (target : BlockedTarget) {j : String} (ne : j ≠ k) :
    (r.put k target).contains j = r.contains j :=
  congrArg Option.isSome (KeyedQueue.put_other r.toKeyedQueue target ne)

theorem setEntry_contains {k : String} (held : r.contains k = true) (target : BlockedTarget)
    (j : String) : (r.setEntry k target).contains j = r.contains j := by
  by_cases same : j = k
  · subst same
    simp [KeyedQueue.contains] at held ⊢
    exact held
  · exact congrArg Option.isSome (KeyedQueue.setEntry_other r.toKeyedQueue target same)

theorem resolveKey_put (r : RecoveryRegistry) (uri expected : String) (target : BlockedTarget) :
    (r.put (r.resolveKey uri expected) target).resolveKey uri expected =
      r.resolveKey uri expected := by
  by_cases plain : key uri expected = r.resolveKey uri expected
  · rw [← plain]
    exact resolveKey_plain (by simp [KeyedQueue.contains])
  · exact resolveKey_congr rfl (put_contains _ _ plain)

theorem bindSession_fresh (sessionId uri expected replacement : String) (range : UInt64 × UInt64)
    (epoch : UInt64) : bindSession (freshTarget sessionId uri expected replacement range 0)
      sessionId epoch = .ok (freshTarget sessionId uri expected replacement range 0) := by
  by_cases unbound : sessionId = "" <;> simp [bindSession, freshTarget, rebindAllowed, unbound]

theorem block_reconcile_ack (r : RecoveryRegistry)
    (sessionId uri expected replacement : String) (range : UInt64 × UInt64)
    (epoch ackEpoch : UInt64) (live : String) :
    ∃ verdict reconciled cleared,
      (r.put (r.resolveKey uri expected)
        (freshTarget sessionId uri expected replacement range 0)).reconcile sessionId uri expected
          epoch live = (.ok verdict, reconciled) ∧
      reconciled.acknowledge sessionId uri expected ackEpoch = (.ok (), cleared) ∧
      cleared.salt = r.salt ∧ ∀ j, cleared.contains j = true ↔
        j ≠ r.resolveKey uri expected ∧ r.contains j = true := by
  let k := r.resolveKey uri expected
  let fresh := freshTarget sessionId uri expected replacement range 0
  let blocked := r.put k fresh
  let target := { fresh with state := some (blocked.verdictOf fresh live, false) }
  have address : blocked.resolveKey uri expected = k := resolveKey_put r uri expected fresh
  have found : blocked.entries k = some fresh := KeyedQueue.put_self _ _ _
  have held : blocked.contains k = true := by simp [KeyedQueue.contains, found]
  have reconciles : blocked.reconcile sessionId uri expected epoch live =
      (.ok (blocked.verdictOf fresh live), blocked.setEntry k target) := by
    simp only [reconcile, address, found, fresh, bindSession_fresh]
    rfl
  have salted : (blocked.setEntry k target).salt = blocked.salt := rfl
  have address' : (blocked.setEntry k target).resolveKey uri expected = k :=
    (resolveKey_congr salted (setEntry_contains held target _)).trans address
  have found' : (blocked.setEntry k target).entries k = some target := KeyedQueue.setEntry_self _ _ _
  have gate : bindSession target sessionId ackEpoch = .ok target := by
    by_cases unbound : sessionId = "" <;>
      simp [bindSession, target, fresh, freshTarget, rebindAllowed, unbound]
  have acknowledges : (blocked.setEntry k target).acknowledge sessionId uri expected ackEpoch =
      (.ok (), (blocked.setEntry k target).remove k) := by
    simp only [acknowledge, address', found', gate]
    rfl
  refine ⟨_, _, _, reconciles, acknowledges, rfl, fun j => ?_⟩
  by_cases same : j = k
  · rw [same]
    simp [KeyedQueue.contains, k]
  · have removed : ((blocked.setEntry k target).remove k).contains j = r.contains j := by
      refine (congrArg Option.isSome (KeyedQueue.remove_other _ same)).trans ?_
      exact (setEntry_contains held target j).trans (put_contains k fresh same)
    rw [removed]
    exact (and_iff_right same).symm

theorem isBlocked_cleared {cleared : RecoveryRegistry} (salt : cleared.salt = r.salt)
    (left : ∀ j, cleared.contains j = true ↔
      j ≠ r.resolveKey uri expected ∧ r.contains j = true) :
    cleared.isBlocked uri expected = true ↔ r.TwiceFiled uri expected := by
  rw [isBlocked_iff, salt]
  simp only [left]
  constructor
  · rintro (⟨apart, plain⟩ | ⟨known, salted, apart, hashed⟩)
    · exact absurd (resolveKey_plain plain).symm apart
    · by_cases plain : r.contains (key uri expected) = true
      · rw [resolveKey_plain plain] at apart
        exact ⟨plain, known, salted, apart, hashed⟩
      · exact absurd (resolveKey_hashed salted plain).symm apart
  · rintro ⟨plain, known, salted, apart, hashed⟩
    rw [resolveKey_plain plain]
    exact .inr ⟨known, salted, apart, hashed⟩

end ZonKey.Recovery.RecoveryRegistry

namespace ZonKey.Pipe
open RecoveryCodec Recovery Store Runs

/-- The text of a `reconcile` behind `RECOVERY|<session>|`. -/
def reconcileText (uri expected : String) (epoch : UInt64) (live : String) : String :=
  "RECONCILE|" ++ uri ++ "|" ++ expected ++ "|" ++ toString epoch ++ "|" ++ live

def ackText (uri expected : String) (epoch : UInt64) : String :=
  "ACK|" ++ uri ++ "|" ++ expected ++ "|" ++ toString epoch

section Split

theorem split_ne_nil (text : String) : split text ≠ [] := by
  simp [split, List.splitOn_ne_nil]

theorem split_clean {text : String} (clean : '|' ∉ text.toList) : split text = [text] := by
  rw [split, List.splitOn_eq_singleton clean, List.map_singleton, String.ofList_toList]

theorem split_field {field : String} (clean : '|' ∉ field.toList) (rest : String) :
    split (field ++ "|" ++ rest) = field :: split rest := by
  have chars : (field ++ "|" ++ rest).toList = field.toList ++ '|' :: rest.toList := by
    simp [String.toList_append]
  rw [split, chars, List.splitOn_append_cons_self_of_not_mem clean, List.map_cons,
    String.ofList_toList, split]

theorem not_mem_split {text piece : String} (mem : piece ∈ split text) : '|' ∉ piece.toList := by
  obtain ⟨chars, cut, rfl⟩ := List.mem_map.mp mem
  rw [String.toList_ofList]
  exact DelimitedText.not_mem_splitOn cut

theorem intercalate_split (text : String) : "|".intercalate (split text) = text := by
  rw [← String.toList_inj, String.toList_intercalate, split, List.map_map]
  simp [Function.comp_def, List.intercalate_splitOn]

theorem split_head_empty_iff {text first : String} {tail : List String}
    (cut : split text = first :: tail) :
    first = "" ↔ text = "" ∨ ∃ rest, text = "|" ++ rest := by
  have joined := intercalate_split text
  rw [cut] at joined
  constructor
  · rintro rfl
    cases tail with
    | nil =>
      rw [String.intercalate_singleton] at joined
      exact .inl joined.symm
    | cons second others =>
      rw [String.intercalate_cons_cons, String.empty_append] at joined
      exact .inr ⟨_, joined.symm⟩
  · rintro (rfl | ⟨rest, rfl⟩)
    · exact (List.cons.inj (cut.symm.trans (split_clean List.not_mem_nil))).1
    · have empty : '|' ∉ "".toList := List.not_mem_nil
      have cleanly := split_field empty rest
      rw [String.empty_append] at cleanly
      exact (List.cons.inj (cut.symm.trans cleanly)).1

end Split

section Parse
variable {uri expected : String} {epoch : UInt64}

theorem split_reconcile (uriClean : '|' ∉ uri.toList) (expectedClean : '|' ∉ expected.toList)
    (epoch : UInt64) (live : String) : split (reconcileText uri expected epoch live) =
      "RECONCILE" :: uri :: expected :: toString epoch :: split live := by
  have tagged : "RECONCILE|" = "RECONCILE" ++ "|" := by decide
  have tag : '|' ∉ "RECONCILE".toList := by decide
  have fields : reconcileText uri expected epoch live =
      "RECONCILE" ++ "|" ++ (uri ++ "|" ++ (expected ++ "|" ++ (toString epoch ++ "|" ++ live))) := by
    unfold reconcileText
    simp only [tagged, String.append_assoc]
  rw [fields, split_field tag, split_field uriClean, split_field expectedClean,
    split_field (toString_clean epoch)]

theorem split_ack (uriClean : '|' ∉ uri.toList) (expectedClean : '|' ∉ expected.toList)
    (epoch : UInt64) : split (ackText uri expected epoch) =
      ["ACK", uri, expected, toString epoch] := by
  have tagged : "ACK|" = "ACK" ++ "|" := by decide
  have tag : '|' ∉ "ACK".toList := by decide
  have fields : ackText uri expected epoch =
      "ACK" ++ "|" ++ (uri ++ "|" ++ (expected ++ "|" ++ toString epoch)) := by
    unfold ackText
    simp only [tagged, String.append_assoc]
  rw [fields, split_field tag, split_field uriClean, split_field expectedClean,
    split_clean (toString_clean epoch)]

/-- What the parser of `RECONCILE` rejects although the fields are clean. -/
def ReconcileRejects (uri expected live : String) : Prop :=
  uri = "" ∨ expected = "" ∨ live = "" ∨ ∃ rest, live = "|" ++ rest

theorem parse_reconcile (uriClean : '|' ∉ uri.toList) (expectedClean : '|' ∉ expected.toList)
    (epoch : UInt64) (live : String) :
    (ReconcileRejects uri expected live ∧
      parseCommand (split (reconcileText uri expected epoch live)) = none) ∨
    (¬ ReconcileRejects uri expected live ∧
      parseCommand (split (reconcileText uri expected epoch live)) =
        some (.reconcile uri expected epoch live)) := by
  obtain ⟨first, tail, cut⟩ := List.exists_cons_of_ne_nil (split_ne_nil live)
  have joined := intercalate_split live
  rw [cut] at joined
  have rejoined : (if tail.isEmpty then first else first ++ "|" ++ String.intercalate "|" tail) =
      live := by
    cases tail with
    | nil => simpa using joined
    | cons second others => simpa [String.intercalate_cons_cons] using joined
  have rejects : (uri = "" ∨ expected = "" ∨ first = "") ↔ ReconcileRejects uri expected live :=
    or_congr_right (or_congr_right (split_head_empty_iff cut))
  have parsed : parseCommand (split (reconcileText uri expected epoch live)) =
      if uri = "" ∨ expected = "" ∨ first = "" then none
      else some (.reconcile uri expected epoch live) := by
    simp only [split_reconcile uriClean expectedClean, cut, parseCommand, parseReconcile,
      parseU64_toString, rejoined]
    rfl
  rw [parsed]
  by_cases rejected : ReconcileRejects uri expected live
  · exact .inl ⟨rejected, if_pos (rejects.mpr rejected)⟩
  · exact .inr ⟨rejected, if_neg (mt rejects.mp rejected)⟩

/-- A live text with separators anywhere comes back whole exactly when it does
not start with one. -/
theorem reconcile_verbatim_iff (uriSome : uri ≠ "") (uriClean : '|' ∉ uri.toList)
    (expectedSome : expected ≠ "") (expectedClean : '|' ∉ expected.toList) (epoch : UInt64)
    {live : String} (liveSome : live ≠ "") :
    parseCommand (split (reconcileText uri expected epoch live)) =
        some (.reconcile uri expected epoch live) ↔
      ¬ ∃ rest, live = "|" ++ rest := by
  have condition : ReconcileRejects uri expected live ↔ ∃ rest, live = "|" ++ rest := by
    simp [ReconcileRejects, uriSome, expectedSome, liveSome]
  rw [← condition]
  rcases parse_reconcile uriClean expectedClean epoch live with ⟨rejected, none⟩ | ⟨kept, whole⟩
  · exact iff_of_false (by simp [none]) (not_not.mpr rejected)
  · exact iff_of_true whole kept

theorem reconcile_verbatim_pipes :
    parseCommand (split (reconcileText "file:///b" "t2" 0 "zz|with||pipes|")) =
      some (.reconcile "file:///b" "t2" 0 "zz|with||pipes|") := by
  refine (reconcile_verbatim_iff (by decide) (by decide) (by decide) (by decide) 0
    (by decide)).mpr ?_
  rintro ⟨rest, leading⟩
  have chars := congrArg String.toList leading
  simp [String.toList_append] at chars

theorem reconcile_rejects_leading_pipe :
    parseCommand (split (reconcileText "file:///b" "t2" 0 "|x")) ≠
      some (.reconcile "file:///b" "t2" 0 "|x") := by
  have parsed := @parse_reconcile "file:///b" "t2" (by decide) (by decide) 0 "|x"
  rcases parsed with ⟨_, none⟩ | ⟨kept, _⟩
  · simp [none]
  · exact absurd (.inr (.inr (.inr ⟨"x", rfl⟩))) kept

end Parse

section Serve
variable {env : FrameEnvironment} {server : PipeServer} {session : String}

theorem mapStoreError_tagged (error : RecoveryStoreError) :
    ∃ reason, mapStoreError error = "recovery-error:" ++ reason := by
  cases error with
  | stateUnreadable code =>
    refine ⟨"StateUnreadable:" ++ codecErrorName code, ?_⟩
    have tagged : "recovery-error:StateUnreadable:" = "recovery-error:" ++ "StateUnreadable:" := by
      decide
    change "recovery-error:StateUnreadable:" ++ codecErrorName code = _
    rw [tagged, String.append_assoc]
  | unavailable => exact ⟨"StateUnavailable", by decide⟩
  | writeFailed => exact ⟨"StateWriteFailed", by decide⟩
  | registry reason => exact ⟨_, rfl⟩

theorem replyText_ok {τ : Type} {ok : τ → String} {result : Except RecoveryStoreError τ}
    {answer : String} (answered : replyText ok result = answer)
    (other : stripPrefix "recovery-error:" answer = none) :
    ∃ value, result = .ok value ∧ ok value = answer := by
  cases result with
  | error error =>
    obtain ⟨reason, tagged⟩ := mapStoreError_tagged error
    rw [← answered, replyText, tagged, stripPrefix_append] at other
    cases other
  | ok value => exact ⟨value, rfl, answered⟩

theorem handle_parsed (env : FrameEnvironment) (server : PipeServer) {command : String}
    {fields : List String} {store : DurableRecoveryStore} {parsed : RecoveryCommand}
    (cut : split command = session :: fields) (session_ok : server.sessionOk session = true)
    (recovery : server.recovery = some store) (known : parseCommand fields = some parsed) :
    server.handleRecoveryCommand env command =
      ((performCommand env.firstWrite session store parsed).1,
        { server with recovery := some (performCommand env.firstWrite session store parsed).2 }) := by
  simp only [PipeServer.handleRecoveryCommand, cut, session_ok, recovery, known, not_true, if_false]
  rfl

theorem handle_malformed (env : FrameEnvironment) (server : PipeServer) {command : String}
    {fields : List String} {store : DurableRecoveryStore} (cut : split command = session :: fields)
    (session_ok : server.sessionOk session = true) (recovery : server.recovery = some store)
    (unknown : parseCommand fields = none) :
    server.handleRecoveryCommand env command = ("recovery-error:MalformedCommand", server) := by
  simp only [PipeServer.handleRecoveryCommand, cut, session_ok, recovery, unknown, not_true, if_false]

/-- The server took a `BLOCK` in its session and reported it done. -/
structure Blocks (env : FrameEnvironment) (server : PipeServer) (command session uri expected : String)
    (store : DurableRecoveryStore) : Prop where
  recovery : server.recovery = some store
  durable : env.firstWrite = true
  parsed : ∃ fields replacement range, split command = session :: fields ∧
    parseCommand fields = some (.block uri expected replacement range)
  answered : (server.handleRecoveryCommand env command).1 = "recovery-blocked"

/-- Some `RECONCILE` is answered with a verdict, and some `ACK` after it is
answered `recovery-acked` and leaves the target unblocked. -/
def ClearsOverWire (env : FrameEnvironment) (server : PipeServer) (session uri expected : String) :
    Prop :=
  ∃ epoch live ackEpoch,
    let reconciled := server.handleRecoveryCommand env
      (session ++ "|" ++ reconcileText uri expected epoch live)
    let acked := reconciled.2.handleRecoveryCommand env
      (session ++ "|" ++ ackText uri expected ackEpoch)
    (∃ verdict, reconciled.1 = "recovery-verdict:" ++ verdictName verdict) ∧
      acked.1 = "recovery-acked" ∧
      ∃ store, acked.2.recovery = some store ∧ store.targetBlocked uri expected = false

theorem Blocks.stored {command uri expected : String} {store : DurableRecoveryStore}
    (h : Blocks env server command session uri expected store) (sound : store.live.Sound) :
    server.sessionOk session = true ∧ ∃ replacement range blocked,
      (server.handleRecoveryCommand env command).2 = { server with recovery := some blocked } ∧
      blocked.poison = none ∧ blocked.Persisted ∧ blocked.live.Sound ∧
      blocked.registry = store.registry.put (store.registry.resolveKey uri expected)
        (RecoveryRegistry.freshTarget session uri expected replacement range 0) := by
  obtain ⟨fields, replacement, range, cut, parsed⟩ := h.parsed
  have session_ok : server.sessionOk session = true := by
    by_contra other
    have answered := h.answered
    simp only [PipeServer.handleRecoveryCommand, cut, other, not_false_eq_true, if_true] at answered
    exact absurd answered (by decide)
  have handled := handle_parsed env server cut session_ok h.recovery parsed
  have answered := h.answered
  rw [handled, h.durable] at answered
  obtain ⟨evicted, result⟩ : ∃ evicted,
      (store.block true session uri expected replacement range).1 = .ok evicted := by
    obtain ⟨evicted, result, _⟩ := replyText_ok answered (by decide)
    exact ⟨evicted, result⟩
  have effect := DurableRecoveryStore.apply_effect store
    ⟨.block session uri expected replacement range, true⟩
  let blocked := (store.block true session uri expected replacement range).2
  have next : (StoreCall.block session uri expected replacement range).apply true store =
      (.ok (.blocked evicted), blocked) := by
    simp only [StoreCall.apply, Prod.map, result, Except.map, blocked, id]
  unfold DurableRecoveryStore.next at effect
  rw [next] at effect
  obtain ⟨healthy, accepted, persisted⟩ := effect.healthy
  refine ⟨session_ok, replacement, range, blocked, ?_, effect.poison.trans healthy, persisted,
    accepted.sound sound, ?_⟩
  · rw [handled, h.durable]
    rfl
  · generalize made : blocked.live = live at accepted
    generalize StoreReply.blocked evicted = reply at accepted
    cases accepted with
    | blocked => exact congrArg LiveState.registry made

theorem mem_of_parse_block {fields : List String} {uri expected replacement : String}
    {range : UInt64 × UInt64}
    (h : parseCommand fields = some (.block uri expected replacement range)) :
    uri ∈ fields ∧ expected ∈ fields := by
  unfold parseCommand at h
  split at h
  · cases h
  · simp only [Option.bind_eq_bind, Option.bind_eq_some_iff, Option.some.injEq,
      RecoveryCommand.block.injEq] at h
    obtain ⟨_, _, _, _, rfl, rfl, _⟩ := h
    simp
  · unfold parseReconcile at h
    split at h
    · simp only [Option.bind_eq_bind, Option.bind_eq_some_iff] at h
      obtain ⟨_, _, made⟩ := h
      split at made <;> cases made
    · cases h
  · simp only [Option.bind_eq_bind, Option.bind_eq_some_iff] at h
    obtain ⟨_, _, made⟩ := h
    cases made
  · cases h

theorem Blocks.clean {command uri expected : String} {store : DurableRecoveryStore}
    (h : Blocks env server command session uri expected store) :
    '|' ∉ session.toList ∧ '|' ∉ uri.toList ∧ '|' ∉ expected.toList := by
  obtain ⟨fields, replacement, range, cut, parsed⟩ := h.parsed
  obtain ⟨hasUri, hasExpected⟩ := mem_of_parse_block parsed
  have piece : ∀ field ∈ session :: fields, '|' ∉ field.toList := by
    rw [← cut]
    exact fun _ => not_mem_split
  exact ⟨piece _ List.mem_cons_self, piece _ (List.mem_cons_of_mem _ hasUri),
    piece _ (List.mem_cons_of_mem _ hasExpected)⟩

theorem Blocks.cleared {command uri expected : String} {store : DurableRecoveryStore}
    (h : Blocks env server command session uri expected store) (sound : store.live.Sound)
    {live : String} (parses : ¬ ReconcileRejects uri expected live) (epoch ackEpoch : UInt64) :
    ∃ verdict reconciled acked final,
      (server.handleRecoveryCommand env command).2.handleRecoveryCommand env
        (session ++ "|" ++ reconcileText uri expected epoch live) =
          ("recovery-verdict:" ++ verdictName verdict, reconciled) ∧
      reconciled.handleRecoveryCommand env
        (session ++ "|" ++ ackText uri expected ackEpoch) =
          ("recovery-acked", acked) ∧
      acked.recovery = some final ∧
      (final.targetBlocked uri expected = true ↔ store.registry.TwiceFiled uri expected) := by
  obtain ⟨sessionClean, uriClean, expectedClean⟩ := h.clean
  obtain ⟨session_ok, replacement, range, blocked, handled, healthy, persisted, after, registry⟩ :=
    h.stored sound
  obtain ⟨verdict, reconciledRegistry, clearedRegistry, reconciles, acknowledges, salt, left⟩ :=
    RecoveryRegistry.block_reconcile_ack store.registry session uri expected replacement range
      epoch ackEpoch live
  rw [← registry] at reconciles
  obtain ⟨second, reconciled, healthy', persisted', sound', rfl⟩ :=
    DurableRecoveryStore.reconcile_committed healthy persisted after reconciles
  obtain ⟨third, acked, healthy'', _, _, rfl⟩ :=
    DurableRecoveryStore.acknowledge_committed healthy' persisted' sound' acknowledges
  have parsed := (parse_reconcile uriClean expectedClean epoch live).resolve_left
    fun rejected => parses rejected.1
  have cut : split (session ++ "|" ++ reconcileText uri expected epoch live) =
      session :: _ := split_field sessionClean _
  have cut' : split (session ++ "|" ++ ackText uri expected ackEpoch) =
      session :: _ := split_field sessionClean _
  have parsed' : parseCommand (split (ackText uri expected ackEpoch)) =
      some (.ack uri expected ackEpoch) := by
    rw [split_ack uriClean expectedClean]
    simp only [parseCommand, parseU64_toString]
    rfl
  have one := handle_parsed env { server with recovery := some blocked } cut session_ok rfl parsed.2
  have two := handle_parsed env { server with recovery := some second } cut' session_ok rfl parsed'
  refine ⟨verdict, { server with recovery := some second }, { server with recovery := some third },
    third, ?_, ?_, rfl, ?_⟩
  · rw [handled, one, h.durable]
    simp only [performCommand, reconciled, Prod.map, replyText, id]
  · rw [two, h.durable]
    simp only [performCommand, acked, Prod.map, replyText, id]
  · rw [DurableRecoveryStore.targetBlocked, healthy'']
    exact RecoveryRegistry.isBlocked_cleared salt left

theorem Blocks.malformed {command uri expected : String} {store : DurableRecoveryStore}
    (h : Blocks env server command session uri expected store) (sound : store.live.Sound)
    {epoch : UInt64} {live : String} (rejects : ReconcileRejects uri expected live) :
    ((server.handleRecoveryCommand env command).2.handleRecoveryCommand env
      (session ++ "|" ++ reconcileText uri expected epoch live)).1 =
        "recovery-error:MalformedCommand" := by
  obtain ⟨sessionClean, uriClean, expectedClean⟩ := h.clean
  obtain ⟨session_ok, _, _, blocked, handled, _⟩ := h.stored sound
  have unparsed := (parse_reconcile uriClean expectedClean epoch live).resolve_right
    fun kept => kept.1 rejects
  have cut : split (session ++ "|" ++ reconcileText uri expected epoch live) =
      session :: _ := split_field sessionClean _
  rw [handled, handle_malformed env { server with recovery := some blocked } cut session_ok rfl
    unparsed.2]

theorem Blocks.uri_ne_empty {command uri expected : String} {store : DurableRecoveryStore}
    (h : Blocks env server command session uri expected store) (sound : store.live.Sound) :
    uri ≠ "" := by
  obtain ⟨_, replacement, range, blocked, _, _, persisted, after, registry⟩ := h.stored sound
  have entry : blocked.registry.entries (store.registry.resolveKey uri expected) =
      some (RecoveryRegistry.freshTarget session uri expected replacement range 0) := by
    rw [registry]
    exact KeyedQueue.put_self _ _ _
  obtain ⟨file, encoded, _⟩ := persisted
  have record := (encode_ok_iff.mp encoded).2.1 _
    (DurableRecoveryStore.mem_snapshot_of_entry after.coherent entry)
  rintro rfl
  have empty : ¬ 0 < (Digest.asBytes "").length := by decide
  exact empty record.uri_pos

theorem verdict_ne_malformed (verdict : RecoveryVerdict) :
    "recovery-error:MalformedCommand" ≠ "recovery-verdict:" ++ verdictName verdict := by
  cases verdict <;> decide

/-- A block that was accepted over the wire can be cleared over the wire
exactly when its expected text is not empty and the registry did not hold its
target under two keys. -/
theorem block_clears_iff {environment : OpenEnvironment} {directory : StateDirectory}
    {capacity : Nat} {start : DurableRecoveryStore}
    (opened : DurableRecoveryStore.openIn environment directory capacity = some start)
    (steps : List StoreStep) {command uri expected : String}
    (blocks : Blocks env server command session uri expected
      (run DurableRecoveryStore.next start steps)) :
    ClearsOverWire env (server.handleRecoveryCommand env command).2 session uri expected ↔
      expected ≠ "" ∧
        ¬ (run DurableRecoveryStore.next start steps).registry.TwiceFiled uri expected := by
  have sound := DurableRecoveryStore.run_sound opened steps
  constructor
  · rintro ⟨epoch, live, ackEpoch, ⟨verdict, answered⟩, _, store, recovery, unblocked⟩
    have parses : ¬ ReconcileRejects uri expected live := by
      intro rejects
      rw [blocks.malformed sound rejects] at answered
      exact verdict_ne_malformed verdict answered
    obtain ⟨_, reconciled, acked, final, first, second, known, left⟩ :=
      blocks.cleared sound parses epoch ackEpoch
    rw [first, second, known] at recovery
    cases recovery
    refine ⟨fun empty => parses (.inr (.inl empty)), fun twice => ?_⟩
    rw [left.mpr twice] at unblocked
    cases unblocked
  · rintro ⟨expectedSome, once⟩
    have parses : ¬ ReconcileRejects uri expected "x" := by
      rintro (empty | empty | empty | ⟨rest, leading⟩)
      · exact blocks.uri_ne_empty sound empty
      · exact expectedSome empty
      · exact absurd empty (by decide)
      · have chars := congrArg String.toList leading
        simp [String.toList_append] at chars
    obtain ⟨verdict, reconciled, acked, final, first, second, known, left⟩ :=
      blocks.cleared sound parses 0 0
    refine ⟨0, "x", 0, ⟨verdict, congrArg Prod.fst first⟩, ?_⟩
    rw [first, second]
    exact ⟨rfl, final, known, Bool.eq_false_iff.mpr (mt left.mp once)⟩

theorem blocks_fresh {salt : Salt} {capacity : Nat} {positive : 0 < capacity}
    (recovery : server.recovery = some (DurableRecoveryStore.freshStore salt capacity positive))
    (durable : env.firstWrite = true) (session_ok : server.sessionOk session = true)
    {command uri expected replacement : String} {fields : List String} {range : UInt64 × UInt64}
    (cut : split command = session :: fields)
    (parsed : parseCommand fields = some (.block uri expected replacement range))
    (uriPos : 0 < (Digest.asBytes uri).length) (uriLe : (Digest.asBytes uri).length ≤ maxUriBytes)
    (ordered : range.1 ≤ range.2) :
    Blocks env server command session uri expected
      (DurableRecoveryStore.freshStore salt capacity positive) := by
  let store := DurableRecoveryStore.freshStore salt capacity positive
  have persisted : store.Persisted := ⟨_, DurableRecoveryStore.encode_nil salt, rfl⟩
  have sound := DurableRecoveryStore.opened_sound
    (DurableRecoveryStore.openIn_freshStore salt positive)
  obtain ⟨file, encoded⟩ := persisted.encodes_block sound
    (store.registry.resolveKey uri expected) session expected replacement
    (show 0 < maxRecoveryEntries by decide) uriPos uriLe ordered
  have room : ¬ (¬ store.registry.contains (store.registry.resolveKey uri expected) ∧
      store.registry.order.length = store.registry.capacity) := fun full => positive.ne full.2
  have taken : store.registry.block session uri expected replacement range 0 = (.ok none, _) :=
    if_neg room
  have accepted : DurableRecoveryStore.onRegistry
      (·.block session uri expected replacement range 0) store.live = (.ok none, _) :=
    congrArg (fun r => (r.1, (⟨r.2, store.pending⟩ : LiveState))) taken
  have blocked : store.block true session uri expected replacement range = (.ok none, _) :=
    DurableRecoveryStore.mutateState_committed rfl accepted encoded
  refine ⟨recovery, durable, ⟨fields, replacement, range, cut, parsed⟩, ?_⟩
  rw [handle_parsed env server cut session_ok recovery parsed, durable]
  exact congrArg (fun result => replyText (fun _ => "recovery-blocked") result.1) blocked

def blockServer : PipeServer :=
  ⟨"s1", ⟨some "s1", ⟨KeyedQueue.empty, 1, Nat.one_pos⟩⟩,
    some (DurableRecoveryStore.freshStore (.replicate 16 0) 1 Nat.one_pos)⟩

def durableEnv : FrameEnvironment := ⟨fun _ _ _ => .definite "", none, true, true, true⟩

theorem block_clears_resume :
    ClearsOverWire durableEnv (blockServer.handleRecoveryCommand durableEnv
      "s1|BLOCK|file:///a|resume|restored|0|6").2 "s1" "file:///a" "resume" := by
  have opened := DurableRecoveryStore.openIn_freshStore (.replicate 16 0) Nat.one_pos
  have cut : split "s1|BLOCK|file:///a|resume|restored|0|6" =
      "s1" :: ["BLOCK", "file:///a", "resume", "restored", "0", "6"] := rfl
  have blocks : Blocks durableEnv blockServer "s1|BLOCK|file:///a|resume|restored|0|6" "s1"
      "file:///a" "resume" (run DurableRecoveryStore.next _ []) :=
    blocks_fresh rfl rfl rfl cut rfl (by decide) (by decide) (by decide)
  refine (block_clears_iff opened [] blocks).mpr ⟨by decide, ?_⟩
  rintro ⟨plain, _⟩
  cases plain

/-- `BLOCK|file:///a||restored|0|6` is accepted, and every `RECONCILE` of the
target it blocks is malformed. -/
theorem empty_block_stuck :
    (blockServer.handleRecoveryCommand durableEnv "s1|BLOCK|file:///a||restored|0|6").1 =
      "recovery-blocked" ∧
    ¬ ClearsOverWire durableEnv (blockServer.handleRecoveryCommand durableEnv
      "s1|BLOCK|file:///a||restored|0|6").2 "s1" "file:///a" "" := by
  have opened := DurableRecoveryStore.openIn_freshStore (.replicate 16 0) Nat.one_pos
  have cut : split "s1|BLOCK|file:///a||restored|0|6" =
      "s1" :: ["BLOCK", "file:///a", "", "restored", "0", "6"] := rfl
  have blocks : Blocks durableEnv blockServer "s1|BLOCK|file:///a||restored|0|6" "s1"
      "file:///a" "" (DurableRecoveryStore.freshStore (.replicate 16 0) 1 Nat.one_pos) :=
    blocks_fresh rfl rfl rfl cut rfl (by decide) (by decide) (by decide)
  refine ⟨blocks.answered, ?_⟩
  rintro ⟨epoch, live, ackEpoch, ⟨verdict, answered⟩, _⟩
  rw [blocks.malformed (DurableRecoveryStore.opened_sound opened) (.inr (.inl rfl))] at answered
  exact verdict_ne_malformed verdict answered

end Serve

end ZonKey.Pipe

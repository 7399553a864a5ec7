import ZonKey.EditorConnection

set_option autoImplicit false

namespace ZonKey.Host
open Pipe Transport Discovery ByteCursor Runs

inductive EndpointState where
  | disabled
  | noRecord
  | connectFailed (pipe : String)
  | connected (pipe : String) (session : JsString)
  deriving DecidableEq

structure EditorClient where
  pipe : String
  session : JsString
  closed : Bool
  deriving DecidableEq

/-- The discovery file, the listeners, and the extension: the pipes that its
connects under way have read from the record, its clients, and `endpointState`. -/
structure Workplace where
  discovery : DiscoveryState
  listeners : String → Option PipeServer
  connecting : List (Option String)
  clients : List EditorClient
  held : Option Nat
  last : EndpointState

/-- What a connect meets: whether the socket opens in time, the listener's round
on the hello, the sizes of the chunks that come in, and whether the socket closes. -/
structure Attempt where
  opened : Bool
  served : Option FrameEnvironment
  sizes : List Nat
  lost : Bool

inductive WorkplaceMove where
  | discovery (move : DiscoveryMove)
  | listen (pipe : String) (counter : UInt64) (nonce : List.Vector UInt8 16)
      (recovery : Option Store.DurableRecoveryStore)
  | frame (pipe : String) (a : Arrival)
  | leave (pipe : String)
  | lose (client : Nat)
  | connect
  | connected (connecting : Nat) (met : Attempt)
  | deactivate

namespace Workplace

def start : Workplace := ⟨⟨none, []⟩, fun _ => none, [], [], none, .noRecord⟩

def closeWhere (w : Workplace) (p : Nat → EditorClient → Bool) : Workplace :=
  { w with clients := w.clients.mapIdx fun i c => if p i c then { c with closed := true } else c }

/-- `endpointState.client?.destroy()`, and no client from then on. -/
def dropHeld (w : Workplace) : Workplace :=
  { w.closeWhere (fun i _ => w.held = some i) with held := none }

def setListener (w : Workplace) (pipe : String) (server : Option PipeServer) : Workplace :=
  { w with listeners := Function.update w.listeners pipe server }

@[simp] theorem setListener_self (w : Workplace) (pipe : String) (server : Option PipeServer) :
    (w.setListener pipe server).listeners pipe = server := Function.update_self _ _ _

theorem setListener_other (w : Workplace) {pipe other : String} (apart : other ≠ pipe)
    (server : Option PipeServer) :
    (w.setListener pipe server).listeners other = w.listeners other :=
  Function.update_of_ne apart _ _

def hello (w : Workplace) (pipe : String) (met : Attempt) : Bytes × Workplace :=
  match w.listeners pipe, met.served with
  | some server, some env =>
    if met.opened then
      let (report, next) := server.serveFrame env PipeClient.helloPayload
      ((report.sent.bind fun text => (encodeFrame text).toOption).getD [],
        w.setListener pipe (some next))
    else ([], w)
  | _, _ => ([], w)

/-- `connectDiscoveredEndpoint` for the pipe that was read, and what `connect` makes of it. -/
def finish (w : Workplace) (found : Option String) (met : Attempt) : Workplace :=
  match found with
  | none => { w with last := .noRecord, held := none }
  | some pipe =>
    let opened := met.opened && (w.listeners pipe).isSome
    let (stream, w) := w.hello pipe met
    match Host.connect ⟨opened, cut met.sizes stream, met.lost⟩ with
    | .ok session =>
      { w with
          clients := w.clients ++ [⟨pipe, session, false⟩]
          held := some w.clients.length
          last := .connected pipe session }
    | .error _ => { w with last := .connectFailed pipe, held := none }

/-- The end of a listener closes the sockets on its pipe; a pipe has one listener. -/
def step (w : Workplace) : WorkplaceMove → Workplace
  | .discovery move => { w with discovery := w.discovery.step move }
  | .listen pipe counter nonce recovery =>
    if (w.listeners pipe).isSome then w
    else w.setListener pipe (some (gateServer (nextSessionId counter nonce) recovery))
  | .frame pipe a => w.setListener pipe ((w.listeners pipe).map (·.next a))
  | .leave pipe => (w.closeWhere fun _ c => c.pipe = pipe).setListener pipe none
  | .lose client => w.closeWhere fun i _ => i = client
  | .connect =>
    { w.dropHeld with
        connecting := w.connecting ++ [(w.discovery.file.bind parseRecord).map (·.pipe)] }
  | .connected i met =>
    match w.connecting[i]? with
    | none => w
    | some found => { w with connecting := w.connecting.eraseIdx i }.finish found met
  | .deactivate => w.dropHeld

section Closing
variable {w : Workplace} {p : Nat → EditorClient → Bool} {i : Nat} {c : EditorClient}

theorem getElem?_closeWhere (w : Workplace) (p : Nat → EditorClient → Bool) (i : Nat) :
    (w.closeWhere p).clients[i]? =
      w.clients[i]?.map fun c => if p i c then { c with closed := true } else c :=
  List.getElem?_mapIdx

theorem closeWhere_open (found : (w.closeWhere p).clients[i]? = some c) (live : c.closed = false) :
    w.clients[i]? = some c ∧ p i c = false := by
  rw [getElem?_closeWhere, Option.map_eq_some_iff] at found
  obtain ⟨d, known, same⟩ := found
  cases chosen : p i d with
  | true =>
    rw [chosen, if_pos rfl] at same
    rw [← same] at live
    cases live
  | false =>
    rw [chosen] at same
    change d = c at same
    rw [← same]
    exact ⟨known, chosen⟩

theorem closeWhere_known (known : w.clients[i]? = some c) :
    ∃ d, (w.closeWhere p).clients[i]? = some d ∧ d.pipe = c.pipe ∧ d.session = c.session := by
  rw [getElem?_closeWhere, known, Option.map_some]
  refine ⟨_, rfl, ?_⟩
  split <;> exact ⟨rfl, rfl⟩

end Closing

section Sound
variable {w : Workplace} {pipe : String} {server : PipeServer}

/-- Every listener has drawn its session, every open client has that of the
listener on its pipe, and the held client is the one that was reported last. -/
structure Sound (w : Workplace) : Prop where
  listeners : ∀ pipe server, w.listeners pipe = some server →
    server.Established ∧ IsSession server.sessionId
  clients : ∀ (i : Nat) c, w.clients[i]? = some c → c.closed = false →
    ∃ server, w.listeners c.pipe = some server ∧
      server.endpoint.sessionId = some server.sessionId ∧ c.session = utf16 server.sessionId
  held : ∀ i, w.held = some i →
    ∃ c, w.clients[i]? = some c ∧ w.last = .connected c.pipe c.session

theorem sound_start : start.Sound where
  listeners := fun _ _ none => by cases none
  clients := fun _ _ none => by simp [start] at none
  held := fun _ none => by cases none

theorem Sound.others (sound : w.Sound) (connecting : List (Option String)) :
    Sound { w with connecting := connecting } :=
  ⟨sound.listeners, sound.clients, sound.held⟩

theorem Sound.closeWhere (sound : w.Sound) (p : Nat → EditorClient → Bool) :
    (w.closeWhere p).Sound where
  listeners := sound.listeners
  clients := fun i c found live => sound.clients i c (closeWhere_open found live).1 live
  held := by
    intro i held
    obtain ⟨c, known, last⟩ := sound.held i held
    obtain ⟨d, found, pipe, session⟩ := closeWhere_known (p := p) known
    refine ⟨d, found, ?_⟩
    rw [pipe, session]
    exact last

theorem Sound.dropHeld (sound : w.Sound) : w.dropHeld.Sound where
  listeners := sound.listeners
  clients := (sound.closeWhere fun i _ => w.held = some i).clients
  held := fun _ none => by cases none

theorem Sound.setListener (sound : w.Sound) {next : Option PipeServer}
    (good : ∀ server, next = some server → server.Established ∧ IsSession server.sessionId)
    (kept : ∀ (i : Nat) c, w.clients[i]? = some c → c.closed = false → c.pipe = pipe →
      ∃ server, next = some server ∧ server.endpoint.sessionId = some server.sessionId ∧
        c.session = utf16 server.sessionId) :
    (w.setListener pipe next).Sound where
  listeners := by
    intro other server found
    by_cases same : other = pipe
    · rw [same, setListener_self] at found
      exact good server found
    · rw [setListener_other w same] at found
      exact sound.listeners other server found
  clients := by
    intro i c known live
    by_cases same : c.pipe = pipe
    · rw [same, setListener_self]
      exact kept i c known live same
    · rw [setListener_other w same]
      exact sound.clients i c known live
  held := sound.held

/-- A frame leaves the session of a listener as it is. -/
theorem Sound.serve (sound : w.Sound) (here : w.listeners pipe = some server) (a : Arrival) :
    (w.setListener pipe (some (server.next a))).Sound := by
  obtain ⟨established, drawn⟩ := sound.listeners pipe server here
  have session := (PipeServer.next_endpoint server a).1
  refine sound.setListener ?_ ?_
  · rintro _ ⟨⟩
    exact ⟨(PipeServer.established_next established).1, session ▸ drawn⟩
  · rintro i c known live rfl
    obtain ⟨found, listening, bound, own⟩ := sound.clients i c known live
    rw [here] at listening
    cases listening
    refine ⟨_, rfl, ?_, own.trans (congrArg utf16 session.symm)⟩
    rw [session]
    exact PipeServer.bound_next established bound a

theorem hello_cases (w : Workplace) (pipe : String) (met : Attempt) :
    (w.hello pipe met).2 = w ∨ ∃ server env, w.listeners pipe = some server ∧
      (w.hello pipe met).2 =
        w.setListener pipe (some (server.next ⟨env, PipeClient.helloPayload⟩)) := by
  unfold hello
  split
  · rename_i server env here served
    split_ifs
    · exact .inr ⟨server, env, here, rfl⟩
    · exact .inl rfl
  · exact .inl rfl

theorem Sound.hello (sound : w.Sound) (pipe : String) (met : Attempt) :
    (w.hello pipe met).2.Sound := by
  rcases hello_cases w pipe met with same | ⟨server, env, here, next⟩
  · rw [same]
    exact sound
  · rw [next]
    exact sound.serve here _

theorem hello_clients (w : Workplace) (pipe : String) (met : Attempt) :
    (w.hello pipe met).2.clients = w.clients := by
  rcases hello_cases w pipe met with same | ⟨server, env, _, next⟩
  · rw [same]
  · rw [next]
    rfl

theorem hello_connecting (w : Workplace) (pipe : String) (met : Attempt) :
    (w.hello pipe met).2.connecting = w.connecting := by
  rcases hello_cases w pipe met with same | ⟨server, env, _, next⟩
  · rw [same]
  · rw [next]
    rfl

theorem step_connected {i : Nat} {found : Option String} (begun : w.connecting[i]? = some found)
    (met : Attempt) :
    w.step (.connected i met) =
      { w with connecting := w.connecting.eraseIdx i }.finish found met := by
  rw [step, begun]

end Sound

section Finish
variable {w : Workplace} {found : Option String}

/-- A listener on the pipe has served the hello, and its whole welcome came in. -/
def Welcomed (w : Workplace) (pipe : String) (met : Attempt) (session : JsString) : Prop :=
  ∃ server env frame, w.listeners pipe = some server ∧ met.opened = true ∧
    met.served = some env ∧ encodeFrame ("WELCOME|" ++ server.sessionId) = .ok frame ∧
    frame.length ≤ met.sizes.sum ∧ session = utf16 server.sessionId

theorem connect_hello (sound : w.Sound) (pipe : String) (met : Attempt) (session : JsString) :
    Host.connect ⟨met.opened && (w.listeners pipe).isSome, cut met.sizes (w.hello pipe met).1,
      met.lost⟩ = .ok session ↔ w.Welcomed pipe met session := by
  unfold Welcomed
  cases opened : met.opened with
  | false => simp [Host.connect]
  | true =>
    cases here : w.listeners pipe with
    | none => simp [Host.connect]
    | some server =>
      obtain ⟨_, drawn⟩ := sound.listeners pipe server here
      obtain ⟨frame, encoded⟩ := drawn.encodes
      cases served : met.served with
      | none =>
        have silent : (w.hello pipe met).1 = [] := by
          unfold hello
          rw [here, served]
        have unread : Host.connect ⟨true && (some server).isSome, cut met.sizes [], met.lost⟩ ≠
            .ok session := by
          unfold Host.connect
          simp only [Option.isSome_some, Bool.and_self, not_true_eq_false, if_false,
            delivered_silent]
          split_ifs <;> simp
        rw [silent]
        refine ⟨fun read => absurd read unread, ?_⟩
        rintro ⟨_, _, _, _, _, unserved, _⟩
        cases unserved
      | some env =>
        obtain ⟨sent, _⟩ := serve_hello drawn.ne_empty env
        have stream : (w.hello pipe met).1 = frame := by
          unfold hello
          rw [here, served]
          simp only [opened, if_true, sent, Option.bind_some, encoded, Except.toOption,
            Option.getD_some]
        rw [stream, Option.isSome_some, Bool.and_self, connect_welcome drawn.ne_empty encoded]
        constructor
        · rintro ⟨_, whole, own⟩
          exact ⟨server, env, frame, rfl, rfl, rfl, encoded, whole, own⟩
        · rintro ⟨_, _, other, ⟨⟩, _, _, same, whole, own⟩
          rw [encoded] at same
          cases same
          exact ⟨rfl, whole, own⟩

theorem finish_cases (sound : w.Sound) (found : Option String) (met : Attempt) :
    (found = none ∧ w.finish found met = { w with last := .noRecord, held := none }) ∨
    (∃ pipe session, found = some pipe ∧ w.Welcomed pipe met session ∧
      w.finish found met = { (w.hello pipe met).2 with
        clients := w.clients ++ [⟨pipe, session, false⟩]
        held := some w.clients.length
        last := .connected pipe session }) ∨
    ∃ pipe, found = some pipe ∧ (∀ session, ¬ w.Welcomed pipe met session) ∧
      w.finish found met =
        { (w.hello pipe met).2 with last := .connectFailed pipe, held := none } := by
  cases found with
  | none => exact .inl ⟨rfl, rfl⟩
  | some pipe =>
    have understood := connect_hello sound pipe met
    have same := hello_clients w pipe met
    unfold finish
    dsimp only
    cases read : Host.connect ⟨met.opened && (w.listeners pipe).isSome,
      cut met.sizes (w.hello pipe met).1, met.lost⟩ with
    | ok session =>
      refine .inr (.inl ⟨pipe, session, rfl, (understood session).mp read, ?_⟩)
      rw [same]
    | error error =>
      refine .inr (.inr ⟨pipe, rfl, fun session welcomed => ?_, rfl⟩)
      have ok := (understood session).mpr welcomed
      rw [read] at ok
      cases ok

theorem finish_spec (sound : w.Sound) (found : Option String) (met : Attempt) :
    ((w.finish found met).last = .noRecord ↔ found = none) ∧
    (∀ pipe session, (w.finish found met).last = .connected pipe session ↔
      found = some pipe ∧ w.Welcomed pipe met session) ∧
    ((w.finish found met).held.isSome ↔
      ∃ pipe session, (w.finish found met).last = .connected pipe session) ∧
    (w.finish found met).connecting = w.connecting := by
  rcases finish_cases sound found met with
    ⟨rfl, next⟩ | ⟨pipe, session, rfl, welcomed, next⟩ | ⟨pipe, rfl, refused, next⟩
  · rw [next]
    simp
  · have under_way := hello_connecting w pipe met
    rw [next]
    refine ⟨by simp, fun other theirs => ?_, by simp, under_way⟩
    constructor
    · rintro ⟨⟩
      exact ⟨rfl, welcomed⟩
    · rintro ⟨⟨⟩, _, _, _, here, _, _, _, _, own⟩
      obtain ⟨_, _, _, there, _, _, _, _, same⟩ := welcomed
      rw [here] at there
      cases there
      rw [own, same]
  · have under_way := hello_connecting w pipe met
    rw [next]
    refine ⟨by simp, fun other theirs => ?_, by simp, under_way⟩
    constructor
    · intro same
      cases same
    · rintro ⟨⟨⟩, welcomed⟩
      exact absurd welcomed (refused theirs)

theorem Sound.finish (sound : w.Sound) (found : Option String) (met : Attempt) :
    (w.finish found met).Sound := by
  rcases finish_cases sound found met with
    ⟨_, next⟩ | ⟨pipe, session, _, welcomed, next⟩ | ⟨pipe, _, _, next⟩
  · rw [next]
    exact ⟨sound.listeners, sound.clients, fun _ none => by cases none⟩
  · obtain ⟨server, env, frame, here, opened, served, _, _, own⟩ := welcomed
    have after := sound.hello pipe met
    obtain ⟨_, drawn⟩ := sound.listeners pipe server here
    obtain ⟨_, named, bound⟩ := serve_hello drawn.ne_empty env
    have listening : (w.hello pipe met).2.listeners pipe =
        some (server.serveFrame env PipeClient.helloPayload).2 := by
      unfold Workplace.hello
      rw [here, served]
      simp only [opened, if_true, setListener_self]
    rw [next]
    refine ⟨after.listeners, ?_, ?_⟩
    · intro i c known live
      change (w.clients ++ [⟨pipe, session, false⟩])[i]? = some c at known
      rcases Nat.lt_or_ge i w.clients.length with old | new
      · rw [List.getElem?_append_left old, ← hello_clients w pipe met] at known
        exact after.clients i c known live
      · rw [List.getElem?_append_right new] at known
        have single := List.mem_singleton.mp (List.mem_of_getElem? known)
        rw [single]
        exact ⟨_, listening, bound.trans (congrArg some named.symm),
          own.trans (congrArg utf16 named.symm)⟩
    · intro i held
      cases held
      exact ⟨⟨pipe, session, false⟩, List.getElem?_concat_length, rfl⟩
  · have after := sound.hello pipe met
    rw [next]
    exact ⟨after.listeners, after.clients, fun _ none => by cases none⟩

theorem Sound.step (sound : w.Sound) (move : WorkplaceMove) : (w.step move).Sound := by
  cases move with
  | discovery move => exact ⟨sound.listeners, sound.clients, sound.held⟩
  | listen pipe counter nonce recovery =>
    unfold Workplace.step
    dsimp only
    split_ifs with taken
    · exact sound
    · refine sound.setListener ?_ ?_
      · rintro _ ⟨⟩
        exact ⟨.inl rfl, counter, nonce, rfl⟩
      · rintro i c known live rfl
        obtain ⟨server, here, _⟩ := sound.clients i c known live
        rw [here] at taken
        exact absurd rfl taken
  | frame pipe a =>
    unfold Workplace.step
    cases here : w.listeners pipe with
    | none =>
      simp only [here]
      refine sound.setListener (fun _ none => by cases none) ?_
      rintro i c known live rfl
      obtain ⟨server, listening, _⟩ := sound.clients i c known live
      rw [here] at listening
      cases listening
    | some server =>
      simp only [here]
      exact sound.serve here a
  | leave pipe =>
    refine (sound.closeWhere fun _ c => c.pipe = pipe).setListener (fun _ none => by cases none) ?_
    intro i c known live same
    have apart := (closeWhere_open known live).2
    exact absurd same (of_decide_eq_false apart)
  | lose client => exact sound.closeWhere _
  | connect => exact sound.dropHeld.others _
  | connected i met =>
    unfold Workplace.step
    dsimp only
    split
    · exact sound
    · exact (sound.others _).finish _ met
  | deactivate => exact sound.dropHeld

theorem finish_failed (sound : w.Sound) {met : Attempt} (failed : (w.finish found met).held = none) :
    (w.finish found met).clients = w.clients := by
  rcases finish_cases sound found met with
    ⟨_, next⟩ | ⟨pipe, session, _, _, next⟩ | ⟨pipe, _, _, next⟩
  · rw [next]
  · rw [next] at failed
    cases failed
  · rw [next]
    exact hello_clients w pipe met

theorem finish_welcomed (sound : w.Sound) {met : Attempt}
    (welcomed : (w.finish found met).held.isSome) :
    ∃ c, (w.finish found met).clients = w.clients ++ [c] ∧ c.closed = false ∧
      (w.finish found met).last = .connected c.pipe c.session := by
  rcases finish_cases sound found met with
    ⟨_, next⟩ | ⟨pipe, session, _, _, next⟩ | ⟨pipe, _, _, next⟩
  · rw [next] at welcomed
    cases welcomed
  · rw [next]
    exact ⟨⟨pipe, session, false⟩, rfl, rfl, rfl⟩
  · rw [next] at welcomed
    cases welcomed

theorem finish_unopened (sound : w.Sound) (found : Option String) {met : Attempt}
    (unopened : met.opened = false) : (w.finish found met).held = none := by
  rcases finish_cases sound found met with
    ⟨_, next⟩ | ⟨pipe, session, _, welcomed, _⟩ | ⟨pipe, _, _, next⟩
  · rw [next]
  · obtain ⟨_, _, _, _, opened, _⟩ := welcomed
    rw [unopened] at opened
    cases opened
  · rw [next]

theorem connecting_connected (sound : w.Sound) (begun : w.connecting = [found]) (met : Attempt) :
    (w.step (.connected 0 met)).connecting = [] := by
  have first : w.connecting[0]? = some found := by rw [begun, List.getElem?_cons_zero]
  rw [step_connected first met, (finish_spec (sound.others _) found met).2.2.2, begun]
  rfl

theorem run_sound (moves : List WorkplaceMove) : (run step start moves).Sound :=
  run_keeps Sound (fun _ move sound => sound.step move) sound_start moves

end Finish

section Editor
variable {w : Workplace}

theorem utf8Text_utf16 (text : String) : utf8Text (utf16 text) = text := by
  rw [utf16, utf8Text_flatMap, String.ofList_toList]

/-- However endpoints, records, connects and losses interleave, an open client is
on a pipe whose listener knows its session and turns none of its calls down for
it; the client that is held is the one that was last reported connected. -/
theorem open_client_accepted (moves : List WorkplaceMove) :
    let w := run step start moves
    (∀ (i : Nat) c, w.clients[i]? = some c → c.closed = false →
      ∃ server, w.listeners c.pipe = some server ∧ utf8Text c.session = server.sessionId ∧
        server.sessionOk (utf8Text c.session) = true ∧
        ∀ env kind, TakenUp server env (utf8Text c.session) kind) ∧
    ∀ i, w.held = some i →
      ∃ c, w.clients[i]? = some c ∧ w.last = .connected c.pipe c.session := by
  intro w
  have sound : w.Sound := run_sound moves
  refine ⟨?_, sound.held⟩
  intro i c known live
  obtain ⟨server, here, bound, own⟩ := sound.clients i c known live
  have drawn := (sound.listeners c.pipe server here).2
  have named : utf8Text c.session = server.sessionId := by rw [own, utf8Text_utf16]
  have accepted : server.sessionOk (utf8Text c.session) = true := by
    rw [named]
    exact PipeServer.sessionOk_iff.mpr bound
  refine ⟨server, here, named, accepted, fun env kind => ?_⟩
  exact serve_named (named ▸ drawn.clean) accepted env kind

/-- Where a connect under way is after a move, unless the move is its end. -/
def place (i : Nat) : WorkplaceMove → Option Nat
  | .connected j _ => if j = i then none else some (if j < i then i - 1 else i)
  | .discovery _ | .listen .. | .frame .. | .leave _ | .lose _ | .connect | .deactivate => some i

theorem connecting_step (sound : w.Sound) {i k : Nat} {found : Option String} {move : WorkplaceMove}
    (begun : w.connecting[i]? = some found) (still : place i move = some k) :
    (w.step move).connecting[k]? = some found := by
  have bound := (List.getElem?_eq_some_iff.mp begun).1
  cases move with
  | discovery | frame | leave | lose | deactivate =>
    cases still
    exact begun
  | listen pipe counter nonce recovery =>
    cases still
    unfold step
    dsimp only
    split_ifs <;> exact begun
  | connect =>
    cases still
    change (w.connecting ++ [_])[i]? = some found
    rw [List.getElem?_append_left bound]
    exact begun
  | connected j met =>
    change (if j = i then none else some (if j < i then i - 1 else i)) = some k at still
    split_ifs at still with same earlier
    · cases still
      obtain ⟨ended, there⟩ : ∃ ended, w.connecting[j]? = some ended :=
        ⟨_, List.getElem?_eq_getElem (Nat.lt_trans earlier bound)⟩
      rw [step_connected there, (finish_spec (sound.others _) ended met).2.2.2,
        List.getElem?_eraseIdx, if_neg (by omega), Nat.sub_add_cancel (by omega)]
      exact begun
    · cases still
      cases there : w.connecting[j]? with
      | none =>
        rw [step, there]
        exact begun
      | some ended =>
        rw [step_connected there, (finish_spec (sound.others _) ended met).2.2.2,
          List.getElem?_eraseIdx, if_pos (by omega)]
        exact begun

theorem connecting_run (sound : w.Sound) {i k : Nat} {found : Option String}
    (begun : w.connecting[i]? = some found) {moves : List WorkplaceMove}
    (still : moves.foldlM place i = some k) : (run step w moves).connecting[k]? = some found := by
  induction moves generalizing w i with
  | nil =>
    cases still
    exact begun
  | cons move moves ih =>
    obtain ⟨m, moved, later⟩ := Option.bind_eq_some_iff.mp still
    exact ih (sound.step move) (connecting_step sound begun moved) later

/-- What the operator is told of a connect is so, whatever happens between its
start and its end: there was no record that the host reads at the start, or the
listener on its pipe has welcomed the client and the session is the listener's; a
client is held exactly after a welcome. -/
theorem connect_reports (moves later : List WorkplaceMove) (i : Nat) (met : Attempt)
    (still : later.foldlM place (run step start moves).connecting.length = some i) :
    let w := run step start moves
    let u := run step w (.connect :: later)
    let v := u.step (.connected i met)
    (v.last = .noRecord ↔ w.discovery.file.bind parseRecord = none) ∧
    (∀ pipe session, v.last = .connected pipe session ↔
      (∃ record, w.discovery.file.bind parseRecord = some record ∧ record.pipe = pipe) ∧
        u.Welcomed pipe met session) ∧
    (v.held.isSome ↔ ∃ pipe session, v.last = .connected pipe session) ∧
    v.connecting = u.connecting.eraseIdx i := by
  intro w u v
  have sound : w.Sound := run_sound moves
  have begun : (w.step .connect).connecting[w.connecting.length]? =
      some ((w.discovery.file.bind parseRecord).map (·.pipe)) := List.getElem?_concat_length
  have under_way := connecting_run (sound.step .connect) begun still
  have reached : u.Sound := by
    have whole := run_sound (moves ++ .connect :: later)
    rw [run_append] at whole
    exact whole
  have ended : v = finish { u with connecting := u.connecting.eraseIdx i }
      ((w.discovery.file.bind parseRecord).map (·.pipe)) met := step_connected under_way met
  obtain ⟨unread, connected, held, connecting⟩ := finish_spec (reached.others _)
    ((w.discovery.file.bind parseRecord).map (·.pipe)) met
  rw [ended]
  refine ⟨unread.trans Option.map_eq_none_iff, fun pipe session => ?_, held, connecting⟩
  rw [connected, Option.map_eq_some_iff]
  rfl

theorem connect_reports_too_late :
    (run step start [.connect, .discovery (.start ⟨endpointProtocol, "p", 7, 5⟩ true),
      .connected 0 ⟨true, none, [], false⟩]).last = .noRecord :=
  (connect_reports [] [.discovery (.start ⟨endpointProtocol, "p", 7, 5⟩ true)] 0
    ⟨true, none, [], false⟩ rfl).1.mpr rfl

def OnlyHeldOpen (w : Workplace) : Prop :=
  ∀ (i : Nat) c, w.clients[i]? = some c → c.closed = false → w.held = some i

/-- No two connects are under way, and no client is held while one is. -/
structure Tended (w : Workplace) : Prop where
  sound : w.Sound
  one : w.connecting.length ≤ 1
  none_held : w.connecting ≠ [] → w.held = none
  open_held : w.OnlyHeldOpen

theorem Tended.closed (tended : w.Tended) (none_held : w.held = none) {i : Nat} {c : EditorClient}
    (known : w.clients[i]? = some c) (live : c.closed = false) : False := by
  have held := tended.open_held i c known live
  rw [none_held] at held
  cases held

theorem Tended.dropHeld (tended : w.Tended) {i : Nat} {c : EditorClient}
    (known : w.dropHeld.clients[i]? = some c) (live : c.closed = false) : False := by
  obtain ⟨was, apart⟩ := closeWhere_open known live
  exact of_decide_eq_false apart (tended.open_held i c was live)

theorem Tended.finish (tended : w.Tended) (none_held : w.held = none) (found : Option String)
    (met : Attempt) {i : Nat} {c : EditorClient}
    (known : (w.finish found met).clients[i]? = some c) (live : c.closed = false) :
    (w.finish found met).held = some i := by
  rcases finish_cases tended.sound found met with
    ⟨_, next⟩ | ⟨pipe, session, _, _, next⟩ | ⟨pipe, _, _, next⟩
  · rw [next] at known
    exact (tended.closed none_held known live).elim
  · rw [next] at known ⊢
    change (w.clients ++ [⟨pipe, session, false⟩])[i]? = some c at known
    rcases Nat.lt_or_ge i w.clients.length with old | new
    · rw [List.getElem?_append_left old] at known
      exact (tended.closed none_held known live).elim
    · have bound := (List.getElem?_eq_some_iff.mp known).1
      rw [List.length_append, List.length_singleton] at bound
      exact congrArg some (Nat.le_antisymm new (Nat.lt_succ_iff.mp bound))
  · rw [next] at known
    change (w.hello pipe met).2.clients[i]? = some c at known
    rw [hello_clients] at known
    exact (tended.closed none_held known live).elim

theorem Tended.step (tended : w.Tended) {move : WorkplaceMove}
    (alone : move = .connect → w.connecting = []) : (w.step move).Tended := by
  have sound := tended.sound.step move
  cases move with
  | discovery move => exact ⟨sound, tended.one, tended.none_held, tended.open_held⟩
  | listen pipe counter nonce recovery =>
    unfold Workplace.step at sound ⊢
    dsimp only at sound ⊢
    split_ifs at sound ⊢
    · exact tended
    · exact ⟨sound, tended.one, tended.none_held, tended.open_held⟩
  | frame pipe a => exact ⟨sound, tended.one, tended.none_held, tended.open_held⟩
  | leave pipe =>
    exact ⟨sound, tended.one, tended.none_held, fun i c known live =>
      tended.open_held i c (closeWhere_open known live).1 live⟩
  | lose client =>
    exact ⟨sound, tended.one, tended.none_held, fun i c known live =>
      tended.open_held i c (closeWhere_open known live).1 live⟩
  | connect =>
    refine ⟨sound, ?_, fun _ => rfl, fun i c known live => (tended.dropHeld known live).elim⟩
    change (w.connecting ++ [_]).length ≤ 1
    rw [alone rfl]
    exact Nat.le_refl 1
  | connected i met =>
    unfold Workplace.step at sound ⊢
    dsimp only at sound ⊢
    cases begun : w.connecting[i]? with
    | none =>
      simp only [begun] at sound ⊢
      exact tended
    | some found =>
      simp only [begun] at sound ⊢
      have bound := (List.getElem?_eq_some_iff.mp begun).1
      have none_held := tended.none_held (List.ne_nil_of_length_pos (by omega))
      have emptied : w.connecting.eraseIdx i = [] := by
        have one := tended.one
        rw [← List.length_eq_zero_iff, List.length_eraseIdx_of_lt bound]
        omega
      have rest : Tended { w with connecting := w.connecting.eraseIdx i } := by
        refine ⟨tended.sound.others _, ?_, fun _ => none_held, tended.open_held⟩
        rw [emptied]
        exact Nat.zero_le 1
      have done : ({ w with connecting := w.connecting.eraseIdx i }.finish found met).connecting =
          [] :=
        (finish_spec rest.sound found met).2.2.2.trans emptied
      refine ⟨sound, ?_, fun more => absurd done more, fun i c known live =>
        rest.finish none_held found met known live⟩
      rw [done]
      exact Nat.zero_le 1
  | deactivate =>
    exact ⟨sound, tended.one, fun _ => rfl, fun i c known live => (tended.dropHeld known live).elim⟩

/-- As long as no connect starts while another is under way, every open client
is the one that is held, so no socket is left on a pipe that nobody closes. -/
theorem no_client_forgotten (moves : List WorkplaceMove)
    (alone : AllSteps step (fun w move => move = .connect → w.connecting = []) start moves) :
    (run step start moves).OnlyHeldOpen := by
  have tended : start.Tended :=
    ⟨sound_start, Nat.zero_le 1, fun _ => rfl, fun _ _ none => by simp [start] at none⟩
  exact (run_invariant Tended (fun _ _ held alone => held.step alone) tended alone).open_held

def deskRecord : EndpointRecord := ⟨endpointProtocol, "\\\\.\\pipe\\zonkey-svc-0a", 7, 5⟩

def deskMoves (record : EndpointRecord) : List WorkplaceMove :=
  [.discovery (.start record true), .listen record.pipe 1 (.replicate 16 0) none, .connect]

def deskAttempt : Attempt :=
  ⟨true, some ⟨compositionGateHandler, none, true, true, true⟩, [3, 65537], false⟩

theorem no_client_forgotten_reconnect :
    (run step start (deskMoves deskRecord ++ [.connected 0 deskAttempt, .connect])).OnlyHeldOpen := by
  refine no_client_forgotten _ ((allSteps_append _ _ _).mpr ⟨⟨?_, ?_, fun _ => rfl, trivial⟩,
    ?_, fun _ => ?_, trivial⟩)
  · exact fun other => by cases other
  · exact fun other => by cases other
  · exact fun other => by cases other
  · exact connecting_connected (run_sound (deskMoves deskRecord)) rfl deskAttempt

theorem forgotten_step (sound : w.Sound) (i j : Nat) (first second : Attempt)
    (begun : w.held = none) (welcomed : (w.step (.connected i first)).held.isSome)
    (failed : ((w.step (.connected i first)).step (.connected j second)).held = none) :
    ∃ c, (w.step (.connected i first)).last = .connected c.pipe c.session ∧
      ((w.step (.connected i first)).step (.connected j second)).clients[w.clients.length]? =
        some c ∧ c.closed = false := by
  have between := sound.step (.connected i first)
  cases one : w.connecting[i]? with
  | none =>
    have same : w.step (.connected i first) = w := by rw [step, one]
    rw [same, begun] at welcomed
    cases welcomed
  | some found =>
    have next := step_connected one first
    rw [next] at welcomed
    obtain ⟨c, added, live, last⟩ := finish_welcomed (sound.others _) welcomed
    rw [← next] at welcomed added last
    generalize w.step (.connected i first) = v at *
    refine ⟨c, last, ?_, live⟩
    cases two : v.connecting[j]? with
    | none =>
      have same : v.step (.connected j second) = v := by rw [step, two]
      rw [same] at failed
      rw [failed] at welcomed
      cases welcomed
    | some other =>
      rw [step_connected two second] at failed ⊢
      rw [finish_failed (between.others _) failed]
      change v.clients[w.clients.length]? = some c
      rw [added]
      exact List.getElem?_concat_length

/-- A connect that fails behind one that overlapped it and got its welcome leaves
the client of that one open and lets go of it. -/
theorem overlap_forgets (moves : List WorkplaceMove) (i j : Nat) (first second : Attempt)
    (welcomed : ((run step start moves).step (.connected i first)).held.isSome)
    (begun : (run step start moves).held = none)
    (failed : (run step start (moves ++ [.connected i first, .connected j second])).held = none) :
    let w := run step start moves
    let v := run step start (moves ++ [.connected i first, .connected j second])
    ∃ c, (w.step (.connected i first)).last = .connected c.pipe c.session ∧
      v.clients[w.clients.length]? = some c ∧ c.closed = false ∧ v.held = none ∧
      ¬ v.OnlyHeldOpen := by
  intro w v
  have split : v = (w.step (.connected i first)).step (.connected j second) :=
    run_append start moves _
  obtain ⟨c, last, known, live⟩ :=
    forgotten_step (run_sound moves) i j first second begun welcomed (split ▸ failed)
  rw [← split] at known
  refine ⟨c, last, known, live, failed, fun only => ?_⟩
  have held := only _ c known live
  rw [failed] at held
  cases held

theorem overlap_forgets_busy :
    let v := run step start ((deskMoves deskRecord ++ [.connect]) ++
      [.connected 0 deskAttempt, .connected 0 ⟨false, none, [], false⟩])
    ∃ c, v.clients[0]? = some c ∧ c.closed = false ∧ v.held = none ∧ ¬ v.OnlyHeldOpen := by
  have read : (parseRecord (render deskRecord)).map (·.pipe) = some deskRecord.pipe := by
    have parsed : parse (render deskRecord) = some deskRecord := parse_render rfl (by decide)
    rw [parseRecord_of_parse parsed, EndpointRecord.forHost, if_pos (by decide), Option.map_some]
  -- what the record says beyond its pipe plays no part from here on
  generalize deskRecord = record at read ⊢
  have sound := run_sound (deskMoves record ++ [.connect])
  have both : (run step start (deskMoves record ++ [.connect])).connecting =
      [((some (render record)).bind parseRecord).map (·.pipe),
        ((some (render record)).bind parseRecord).map (·.pipe)] := rfl
  have listening : (run step start (deskMoves record ++ [.connect])).listeners record.pipe =
      some (gateServer (nextSessionId 1 (.replicate 16 0)) none) :=
    setListener_self (start.step (.discovery (.start record true))) record.pipe _
  have none_held : (run step start (deskMoves record ++ [.connect])).held = none := rfl
  have both_ends : ((run step start (deskMoves record ++ [.connect])).step
        (.connected 0 deskAttempt)).held.isSome = true ∧
      (run step (run step start (deskMoves record ++ [.connect]))
        [.connected 0 deskAttempt, .connected 0 ⟨false, none, [], false⟩]).held = none := by
    generalize run step start (deskMoves record ++ [.connect]) = w at *
    rw [Option.bind_some, read] at both
    obtain ⟨frame, encoded⟩ := (sound.listeners _ _ listening).2.encodes
    have first : w.connecting[0]? = some (some record.pipe) := by
      rw [both, List.getElem?_cons_zero]
    have after := finish_spec (sound.others (w.connecting.eraseIdx 0)) (some record.pipe) deskAttempt
    have second : (w.step (.connected 0 deskAttempt)).connecting[0]? = some (some record.pipe) := by
      rw [step_connected first, after.2.2.2, both, List.eraseIdx_zero, List.tail_cons,
        List.getElem?_cons_zero]
    constructor
    · have sizes : deskAttempt.sizes.sum = frameHeaderBytes + maxFrameBytes := rfl
      have welcomed : Welcomed { w with connecting := w.connecting.eraseIdx 0 } record.pipe
          deskAttempt (utf16 (gateServer (nextSessionId 1 (.replicate 16 0)) none).sessionId) :=
        ⟨_, _, frame, listening, rfl, rfl, encoded, sizes ▸ encodeFrame_length encoded, rfl⟩
      rw [step_connected first]
      exact after.2.2.1.mpr ⟨record.pipe, _, (after.2.1 record.pipe _).mpr ⟨rfl, welcomed⟩⟩
    · rw [run_cons, run_cons, run_nil, step_connected second]
      exact finish_unopened ((sound.step _).others _) _ rfl
  rw [← run_append] at both_ends
  obtain ⟨c, _, forgotten⟩ := overlap_forgets _ 0 0 _ _ both_ends.1 none_held both_ends.2
  exact ⟨c, forgotten⟩

end Editor

end Workplace

end ZonKey.Host

import ZonKey.PipeClientDecoder
import ZonKey.PipeTransport

set_option autoImplicit false

/-!
# Calls of the editor's client

The waiters of `NamedPipeClient`: a call writes its request and waits in line
for a frame, a timer takes its waiter out of the line again, and a frame goes
to whichever waiter is first. The server answers request `n` of the connection
with `answers n`, in order and once.
-/
namespace ZonKey.Pipe
open Runs Transport

inductive PipeClientError where
  | protocolMismatch
  | sessionMismatch
  | timeout
  | connectionLost
  | invalidPayload (detail : String)
  deriving DecidableEq

inductive CallKind where
  | request (requestId composition canonical : String)
  | handoffQuery
  | recoveryCommand (command : String)
  deriving DecidableEq

namespace CallKind

/-- The request that the call writes. -/
def payload (session : String) : CallKind → String
  | request requestId composition canonical =>
    "REQ|" ++ session ++ "|" ++ requestId ++ "|" ++ composition ++ "|" ++ canonical
  | handoffQuery => "HANDOFF|" ++ session
  | recoveryCommand command => "RECOVERY|" ++ session ++ "|" ++ command

def resultPrefix : CallKind → String
  | request .. => "RESULT|"
  | handoffQuery | recoveryCommand _ => "RESULT|DEFINITE|"

def expectation : CallKind → String
  | request .. => "expected result"
  | handoffQuery => "expected handoff result"
  | recoveryCommand _ => "expected recovery result"

def settle (kind : CallKind) (payload : String) : Except PipeClientError String :=
  match stripPrefix "ERROR|" payload with
  | some reason =>
    if reason = "session_mismatch" then .error .sessionMismatch else .error (.invalidPayload reason)
  | none =>
    match stripPrefix kind.resultPrefix payload with
    | some result => .ok result
    | none => .error (.invalidPayload kind.expectation)

end CallKind

structure Waiter where
  number : Nat
  kind : CallKind
  deriving DecidableEq

/-- How a call ended; a delivered frame is known by the request it answers. -/
inductive Settlement where
  | delivered (answer : Nat) (result : Except PipeClientError String)
  | timedOut
  | connectionLost
  deriving DecidableEq

/-- The client between two events: `written` counts its requests, `arrived` the
frames that came in. -/
structure ClientCalls where
  session : String
  pending : List Waiter := []
  closed : Bool := false
  written : Nat := 0
  arrived : Nat := 0
  settled : List (Nat × Settlement) := []

inductive ClientEvent where
  | call (kind : CallKind)
  | timer (number : Nat)
  | frame
  | connectionLost
  | destroy
  deriving DecidableEq

namespace ClientCalls

def step (answers : Nat → String) (client : ClientCalls) : ClientEvent → ClientCalls
  | .call kind =>
    if client.closed then client
    else
      match encodeFrame (kind.payload client.session) with
      | .error _ => client
      | .ok _ =>
        { client with
            pending := client.pending ++ [⟨client.written, kind⟩]
            written := client.written + 1 }
  | .timer number =>
    if client.pending.any (·.number = number) then
      { client with
          pending := client.pending.eraseP (·.number = number)
          settled := client.settled ++ [(number, .timedOut)] }
    else client
  | .frame =>
    -- a frame is on the wire only for a written request, and a closed socket emits none
    if client.closed ∨ client.written ≤ client.arrived then client
    else
      match client.pending with
      | [] => { client with arrived := client.arrived + 1 }
      | waiter :: rest =>
        { client with
            pending := rest
            arrived := client.arrived + 1
            settled := client.settled ++
              [(waiter.number,
                .delivered client.arrived (waiter.kind.settle (answers client.arrived)))] }
  | .connectionLost =>
    { client with
        closed := true
        pending := []
        settled := client.settled ++ client.pending.map fun waiter => (waiter.number, .connectionLost) }
  | .destroy => { client with closed := true }

/-- Every frame that a call was given, whatever the call made of it, answers that call. -/
def MatchedResponses (client : ClientCalls) : Prop :=
  ∀ number answer result, (number, .delivered answer result) ∈ client.settled → answer = number

/-- A frame comes in for a call that still waits, or when no call waits. -/
def TimelyAnswer (client : ClientCalls) (event : ClientEvent) : Prop :=
  event = .frame → client.closed = false → client.arrived < client.written →
    (∃ waiter ∈ client.pending, waiter.number = client.arrived) ∨ client.pending = []

section Line

/-- The waiters in line answer to numbers from `k` on, each one later than its place. -/
def InLine : Nat → List Waiter → Prop
  | _, [] => True
  | k, waiter :: rest => k ≤ waiter.number ∧ InLine (k + 1) rest

theorem InLine.mono {k m : Nat} {waiters : List Waiter} (h : InLine m waiters) (le : k ≤ m) :
    InLine k waiters := by
  induction waiters generalizing k m with
  | nil => trivial
  | cons waiter rest ih => exact ⟨Nat.le_trans le h.1, ih h.2 (Nat.succ_le_succ le)⟩

theorem InLine.concat {k : Nat} {waiters : List Waiter} {waiter : Waiter} (h : InLine k waiters)
    (after : k + waiters.length ≤ waiter.number) : InLine k (waiters ++ [waiter]) := by
  induction waiters generalizing k with
  | nil => exact ⟨after, trivial⟩
  | cons first rest ih =>
    refine ⟨h.1, ih h.2 ?_⟩
    rw [List.length_cons] at after
    omega

theorem InLine.eraseP {k : Nat} {waiters : List Waiter} (h : InLine k waiters) (p : Waiter → Bool) :
    InLine k (waiters.eraseP p) := by
  induction waiters generalizing k with
  | nil => trivial
  | cons waiter rest ih =>
    cases found : p waiter with
    | true =>
      rw [List.eraseP_cons_of_pos found]
      exact h.2.mono (Nat.le_succ k)
    | false =>
      rw [List.eraseP_cons_of_neg (by rw [found]; exact Bool.false_ne_true)]
      exact ⟨h.1, ih h.2⟩

theorem InLine.first {k : Nat} {waiters : List Waiter} {waiter : Waiter} (h : InLine k waiters)
    (mem : waiter ∈ waiters) (next : waiter.number = k) : waiters.head? = some waiter := by
  have later : ∀ (m : Nat) (rest : List Waiter), InLine m rest → ∀ w ∈ rest, m ≤ w.number := by
    intro m rest line
    induction rest generalizing m with
    | nil => simp
    | cons first others ih =>
      intro w inList
      rcases List.mem_cons.mp inList with rfl | inOthers
      · exact line.1
      · exact Nat.le_of_succ_le (ih (m + 1) line.2 w inOthers)
  cases waiters with
  | nil => cases mem
  | cons first rest =>
    rcases List.mem_cons.mp mem with rfl | inRest
    · rfl
    · have := later (k + 1) rest h.2 waiter inRest
      omega

end Line

section Matching
variable {answers : Nat → String}

/-- The line is ahead of the frames, and there are no more waiters than frames to come. -/
structure Ordered (client : ClientCalls) : Prop where
  line : InLine client.arrived client.pending
  room : client.arrived + client.pending.length ≤ client.written

theorem start_ordered (session : String) : Ordered { session := session } :=
  ⟨trivial, Nat.le_refl 0⟩

theorem step_ordered (client : ClientCalls) (event : ClientEvent) (h : Ordered client) :
    Ordered (client.step answers event) := by
  have room := h.room
  cases event with
  | call kind =>
    simp only [step]
    split
    · exact h
    split
    · exact h
    · refine ⟨h.line.concat room, ?_⟩
      dsimp only
      rw [List.length_append, List.length_singleton]
      omega
  | timer number =>
    simp only [step]
    split
    · refine ⟨h.line.eraseP _, ?_⟩
      have := List.length_eraseP_le (p := fun w => decide (w.number = number)) (l := client.pending)
      dsimp only
      omega
    · exact h
  | frame =>
    simp only [step]
    split
    · exact h
    · rename_i coming
      rw [not_or] at coming
      cases pending : client.pending with
      | nil => exact ⟨trivial, by dsimp only [List.length_nil]; omega⟩
      | cons waiter rest =>
        have line := h.line
        rw [pending] at line room
        refine ⟨line.2, ?_⟩
        rw [List.length_cons] at room
        dsimp only
        omega
  | connectionLost => exact ⟨trivial, by simp only [step, List.length_nil]; omega⟩
  | destroy => exact ⟨h.line, h.room⟩

theorem step_delivered {client : ClientCalls} {event : ClientEvent} {number answer : Nat}
    {result : Except PipeClientError String}
    (mem : (number, .delivered answer result) ∈ (client.step answers event).settled) :
    (number, .delivered answer result) ∈ client.settled ∨
      event = .frame ∧ client.closed = false ∧ client.arrived < client.written ∧
        answer = client.arrived ∧ ∃ waiter, client.pending.head? = some waiter ∧
          waiter.number = number ∧ waiter.kind.settle (answers client.arrived) = result := by
  cases event with
  | call kind =>
    simp only [step] at mem
    split at mem
    · exact .inl mem
    split at mem <;> exact .inl mem
  | timer n =>
    simp only [step] at mem
    split at mem
    · rw [List.mem_append, List.mem_singleton] at mem
      rcases mem with old | new
      · exact .inl old
      · cases new
    · exact .inl mem
  | frame =>
    simp only [step] at mem
    split at mem
    · exact .inl mem
    · rename_i coming
      rw [not_or, Bool.not_eq_true] at coming
      cases pending : client.pending with
      | nil =>
        rw [pending] at mem
        exact .inl mem
      | cons waiter rest =>
        simp only [pending, List.mem_append, List.mem_singleton] at mem
        rcases mem with old | new
        · exact .inl old
        · cases new
          exact .inr ⟨rfl, coming.1, by omega, rfl, waiter, rfl, rfl, rfl⟩
  | connectionLost =>
    simp only [step, List.mem_append, List.mem_map] at mem
    rcases mem with old | ⟨waiter, _, eq⟩
    · exact .inl old
    · cases eq
  | destroy => exact .inl mem

theorem settled_step (client : ClientCalls) (event : ClientEvent) :
    client.settled ⊆ (client.step answers event).settled := by
  intro entry mem
  cases event with
  | call kind =>
    simp only [step]
    split
    · exact mem
    split <;> exact mem
  | timer n =>
    simp only [step]
    split
    · exact List.mem_append_left _ mem
    · exact mem
  | frame =>
    simp only [step]
    split
    · exact mem
    cases client.pending with
    | nil => exact mem
    | cons waiter rest => exact List.mem_append_left _ mem
  | connectionLost => exact List.mem_append_left _ mem
  | destroy => exact mem

variable (answers) in
theorem step_frame {client : ClientCalls} {waiter : Waiter} {rest : List Waiter}
    (isOpen : client.closed = false) (coming : client.arrived < client.written)
    (line : client.pending = waiter :: rest) :
    (waiter.number,
        .delivered client.arrived (waiter.kind.settle (answers client.arrived))) ∈
      (client.step answers .frame).settled := by
  have guard : ¬ (client.closed = true ∨ client.written ≤ client.arrived) := by
    rw [isOpen, not_or]
    exact ⟨Bool.false_ne_true, Nat.not_le.mpr coming⟩
  simp only [step, if_neg guard, line]
  exact List.mem_append_right _ (List.mem_singleton_self _)

/-- One step keeps the matching exactly when its frame is timely. -/
theorem matched_step_iff {client : ClientCalls} {event : ClientEvent} (ordered : Ordered client) :
    MatchedResponses (client.step answers event) ↔
      MatchedResponses client ∧ TimelyAnswer client event := by
  constructor
  · intro next
    refine ⟨fun number answer result mem => next number answer result (settled_step _ _ mem), ?_⟩
    rintro rfl isOpen coming
    cases line : client.pending with
    | nil => exact .inr rfl
    | cons waiter rest =>
      have given := next _ _ _ (step_frame answers isOpen coming line)
      exact .inl ⟨waiter, List.mem_cons_self .., given.symm⟩
  · rintro ⟨matched, timely⟩ number answer result mem
    rcases step_delivered mem with old | ⟨frame, isOpen, coming, rfl, waiter, first, rfl, _⟩
    · exact matched number answer result old
    · rcases timely frame isOpen coming with ⟨own, waiting, eq⟩ | none
      · rw [ordered.line.first waiting eq, Option.some.injEq] at first
        rw [← first, eq]
      · rw [none] at first
        cases first

/-- Along a run every frame went to the call that it answers exactly when every frame was timely. -/
theorem matched_iff_timely (answers : Nat → String) (session : String) (events : List ClientEvent) :
    MatchedResponses (run (step answers) { session := session } events) ↔
      AllSteps (step answers) TimelyAnswer { session := session } events := by
  rw [run_iff_allSteps Ordered step_ordered (fun _ _ ordered => matched_step_iff ordered)
    (start_ordered session)]
  exact and_iff_right fun number answer result mem => by cases mem

def lateAnswers (n : Nat) : String :=
  if n = 0 then "RESULT|DEFINITE|handoff-rejected:NoCurrentPlan"
  else "RESULT|DEFINITE|rejected:CompositionUnknown"

theorem lateAnswers_settled : (run (step lateAnswers) { session := "s" }
    [.call .handoffQuery, .timer 0, .call (.request "r" "Unknown" "c"), .frame]).settled =
      [(0, .timedOut), (1, .delivered 0 (.ok "DEFINITE|handoff-rejected:NoCurrentPlan"))] := rfl

/-- A handoff query times out, a request is written, and the answer to the
query resolves the request. -/
theorem late_answer_mismatched :
    ¬ ∀ (answers : Nat → String) (session : String) (events : List ClientEvent),
      MatchedResponses (run (step answers) { session := session } events) := by
  intro claim
  have resolved : (1, Settlement.delivered 0 (.ok "DEFINITE|handoff-rejected:NoCurrentPlan")) ∈
      (run (step lateAnswers) { session := "s" }
        [.call .handoffQuery, .timer 0, .call (.request "r" "Unknown" "c"), .frame]).settled := by
    rw [lateAnswers_settled]
    exact List.mem_cons_of_mem _ List.mem_cons_self
  have matched := claim lateAnswers "s" _ 1 0 _ resolved
  cases matched

end Matching

end ClientCalls
end ZonKey.Pipe

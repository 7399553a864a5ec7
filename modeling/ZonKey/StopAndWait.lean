import ZonKey.Runs

set_option autoImplicit false

/-!
# One call at a time over a lossy link

A client writes a request and waits for its answer before the next one. The
server reads the requests of a link in order and may answer each with one
message. Writes fail, waits are given up, links are left and reopened. A client
that never touches a link again after giving up on a call gets the effect of
calls made one after the other: every answer that it receives is the answer to
the call that receives it, and no call is served twice.
-/
namespace ZonKey.StopAndWait
open Runs

variable {σ ε ρ τ : Type*}

structure Served (σ τ : Type*) where
  answer : Option τ
  stays : Bool
  next : σ

structure Exchange (ε ρ τ : Type*) where
  payload : ρ
  served : Option ε
  result : Option τ

inductive Phase where
  | idle
  | waiting (call : Nat)
  | gone
  deriving DecidableEq

/-- A link with the calls made so far; messages carry the number of their call. -/
structure Link (σ ε ρ τ : Type*) where
  server : σ
  serving : Bool
  phase : Phase
  inbound : List (Nat × ρ)
  outbound : List (Nat × τ)
  history : List (Exchange ε ρ τ)

inductive Move (ε ρ : Type*) where
  | reopen
  | call (payload : ρ) (written reached : Bool)
  | serve (input : ε)
  | leave
  | receive (extra : Nat)
  | giveUp
  | hangUp

def Link.closed (server : σ) : Link σ ε ρ τ := ⟨server, false, .gone, [], [], []⟩

structure Protocol (σ ε ρ τ : Type*) where
  serve : σ → ε → ρ → Served σ τ
  keep : ρ → τ → Bool

namespace Protocol
variable (protocol : Protocol σ ε ρ τ)

def next (server : σ) (arrival : ε × ρ) : σ := (protocol.serve server arrival.1 arrival.2).next

def reopen (link : Link σ ε ρ τ) : Link σ ε ρ τ :=
  if link.serving then link
  else { link with serving := true, phase := .idle, inbound := [], outbound := [] }

/-- A failed write gives the link up, whether or not the request arrives. -/
def call (link : Link σ ε ρ τ) (payload : ρ) (written reached : Bool) : Link σ ε ρ τ :=
  match link.phase with
  | .idle =>
    { link with
      phase := if written then .waiting link.history.length else .gone
      inbound := if reached then link.inbound ++ [(link.history.length, payload)] else link.inbound
      history := link.history ++ [⟨payload, none, none⟩] }
  | .waiting _ | .gone => link

def serveNext (link : Link σ ε ρ τ) (input : ε) : Link σ ε ρ τ :=
  match link.serving, link.inbound with
  | true, (number, payload) :: rest =>
    let served := protocol.serve link.server input payload
    { link with
      server := served.next
      serving := served.stays
      inbound := rest
      outbound := link.outbound ++ served.answer.toList.map (number, ·)
      history := link.history.modify number fun exchange => { exchange with served := some input } }
  | _, _ => link

/-- The answer goes to the call that waits, and what was read past it is lost. -/
def receive (link : Link σ ε ρ τ) (extra : Nat) : Link σ ε ρ τ :=
  match link.phase, link.outbound with
  | .waiting number, (_, answer) :: rest =>
    { link with
      phase :=
        if (link.history[number]?).any fun exchange => protocol.keep exchange.payload answer
        then .idle else .gone
      outbound := rest.drop extra
      history := link.history.modify number fun exchange => { exchange with result := some answer } }
  | _, _ => link

def giveUp (link : Link σ ε ρ τ) : Link σ ε ρ τ :=
  match link.phase with
  | .waiting _ => { link with phase := .gone }
  | .idle | .gone => link

def step (link : Link σ ε ρ τ) : Move ε ρ → Link σ ε ρ τ
  | .reopen => reopen link
  | .call payload written reached => call link payload written reached
  | .serve input => protocol.serveNext link input
  | .leave => { link with serving := false }
  | .receive extra => protocol.receive link extra
  | .giveUp => giveUp link
  | .hangUp => { link with phase := .gone }

/-- The calls one after the other: each is served once or never, in the order in
which they were made, and returns the answer that the server gave to it, or nothing. -/
def Sequential (server : σ) : List (Exchange ε ρ τ) → σ → Prop
  | [], final => server = final
  | exchange :: rest, final =>
    match exchange.served with
    | none => exchange.result = none ∧ Sequential server rest final
    | some input =>
      (∀ answer, exchange.result = some answer →
        (protocol.serve server input exchange.payload).answer = some answer) ∧
      Sequential (protocol.serve server input exchange.payload).next rest final

end Protocol

theorem modify_last {α : Type*} (f : α → α) (before : List α) (last : α) :
    (before ++ [last]).modify before.length f = before ++ [f last] := by
  induction before with
  | nil => rfl
  | cons a rest ih => simp [ih]

/-- The requests that the server read, in the order of the calls. -/
def arrivals (history : List (Exchange ε ρ τ)) : List (ε × ρ) :=
  history.filterMap fun exchange => exchange.served.map (·, exchange.payload)

namespace Protocol
variable {protocol : Protocol σ ε ρ τ}

theorem sequential_append {server final : σ} {before after : List (Exchange ε ρ τ)} :
    protocol.Sequential server (before ++ after) final ↔
      ∃ middle, protocol.Sequential server before middle ∧
        protocol.Sequential middle after final := by
  induction before generalizing server with
  | nil => simp [Sequential]
  | cons exchange rest ih =>
    simp only [List.cons_append, Sequential]
    cases exchange.served with
    | none => simp only [ih, and_assoc, exists_and_left]
    | some input => simp only [ih, and_assoc, exists_and_left]

theorem Sequential.run_arrivals {server final : σ} {history : List (Exchange ε ρ τ)}
    (sequential : protocol.Sequential server history final) :
    final = run protocol.next server (arrivals history) := by
  induction history generalizing server with
  | nil => exact sequential.symm
  | cons exchange rest ih =>
    unfold Sequential at sequential
    cases served : exchange.served with
    | none =>
      simp only [served] at sequential
      simpa [arrivals, served] using ih sequential.2
    | some input =>
      simp only [served] at sequential
      simpa [arrivals, served, next] using ih sequential.2

/-- What a call returned is the server's answer to it, in the state that the
earlier calls left. -/
theorem Sequential.answered {server final : σ} {before after : List (Exchange ε ρ τ)}
    {exchange : Exchange ε ρ τ} {answer : τ}
    (sequential : protocol.Sequential server (before ++ exchange :: after) final)
    (returned : exchange.result = some answer) :
    ∃ input, exchange.served = some input ∧
      (protocol.serve (run protocol.next server (arrivals before)) input
        exchange.payload).answer = some answer := by
  obtain ⟨middle, first, rest⟩ := sequential_append.mp sequential
  rw [← first.run_arrivals]
  unfold Sequential at rest
  cases served : exchange.served with
  | none =>
    simp only [served] at rest
    rw [rest.1] at returned
    cases returned
  | some input =>
    simp only [served] at rest
    exact ⟨input, rfl, rest.1 answer returned⟩

/-- What is under way on a link: nothing, the last request, or its answer. -/
inductive UnderWay (protocol : Protocol σ ε ρ τ) (start : σ) (link : Link σ ε ρ τ) : Prop where
  | nothing (inbound : link.inbound = []) (outbound : link.outbound = [])
      (sequential : protocol.Sequential start link.history link.server)
  | asked (before : List (Exchange ε ρ τ)) (payload : ρ) (busy : link.phase ≠ .idle)
      (waits : ∀ number, link.phase = .waiting number → before.length = number)
      (inbound : link.inbound = [(before.length, payload)]) (outbound : link.outbound = [])
      (history : link.history = before ++ [⟨payload, none, none⟩])
      (sequential : protocol.Sequential start before link.server)
  | answered (before : List (Exchange ε ρ τ)) (payload : ρ) (input : ε) (answer : τ) (server : σ)
      (busy : link.phase ≠ .idle)
      (waits : ∀ number, link.phase = .waiting number → before.length = number)
      (inbound : link.inbound = []) (outbound : link.outbound = [(before.length, answer)])
      (history : link.history = before ++ [⟨payload, some input, none⟩])
      (sequential : protocol.Sequential start before server)
      (next : link.server = (protocol.serve server input payload).next)
      (served : (protocol.serve server input payload).answer = some answer)

variable {start : σ} {link : Link σ ε ρ τ}

theorem UnderWay.sequential (underWay : protocol.UnderWay start link) :
    protocol.Sequential start link.history link.server := by
  cases underWay with
  | nothing _ _ sequential => exact sequential
  | asked before payload _ _ _ _ history sequential =>
    rw [history]
    exact sequential_append.mpr ⟨_, sequential, by simp [Sequential]⟩
  | answered before payload input answer server _ _ _ _ history sequential next =>
    rw [history]
    exact sequential_append.mpr ⟨_, sequential, by simp [Sequential, next]⟩

theorem underWay_closed (server : σ) : protocol.UnderWay server (.closed server) :=
  .nothing rfl rfl rfl

theorem underWay_reopen (underWay : protocol.UnderWay start link) :
    protocol.UnderWay start (reopen link) := by
  unfold reopen
  split
  · exact underWay
  · exact .nothing rfl rfl underWay.sequential

theorem underWay_gone (underWay : protocol.UnderWay start link) :
    protocol.UnderWay start { link with phase := .gone } := by
  cases underWay with
  | nothing inbound outbound sequential => exact .nothing inbound outbound sequential
  | asked before payload _ _ inbound outbound history sequential =>
    exact .asked before payload nofun nofun inbound outbound history sequential
  | answered before payload input answer server _ _ inbound outbound history sequential next served =>
    exact .answered before payload input answer server nofun nofun inbound outbound history
      sequential next served

theorem underWay_leave (underWay : protocol.UnderWay start link) :
    protocol.UnderWay start { link with serving := false } := by
  cases underWay with
  | nothing inbound outbound sequential => exact .nothing inbound outbound sequential
  | asked before payload busy waits inbound outbound history sequential =>
    exact .asked before payload busy waits inbound outbound history sequential
  | answered before payload input answer server busy waits inbound outbound history sequential =>
    exact .answered before payload input answer server busy waits inbound outbound history sequential
      ‹_› ‹_›

theorem underWay_call (underWay : protocol.UnderWay start link) (payload : ρ)
    (written reached : Bool) : protocol.UnderWay start (call link payload written reached) := by
  unfold call
  split
  · rename_i idle
    cases underWay with
    | asked _ _ busy => exact absurd idle busy
    | answered _ _ _ _ _ busy => exact absurd idle busy
    | nothing inbound outbound sequential =>
      cases reached with
      | false =>
        refine .nothing inbound outbound ?_
        exact sequential_append.mpr ⟨_, sequential, by simp [Sequential]⟩
      | true =>
        refine .asked link.history payload ?_ ?_ (by simp [inbound]) outbound rfl sequential
        · cases written <;> simp
        · cases written <;> simp
  · exact underWay
  · exact underWay

theorem underWay_serve (underWay : protocol.UnderWay start link) (input : ε) :
    protocol.UnderWay start (protocol.serveNext link input) := by
  unfold serveNext
  split
  · rename_i number payload rest _ read
    cases underWay with
    | nothing inbound => rw [inbound] at read; cases read
    | answered _ _ _ _ _ _ _ inbound => rw [inbound] at read; cases read
    | asked before asked busy waits inbound outbound history sequential =>
      rw [inbound] at read
      cases read
      have marked : link.history.modify before.length (fun exchange =>
          { exchange with served := some input }) = before ++ [⟨payload, some input, none⟩] := by
        rw [history, modify_last]
      cases answered : (protocol.serve link.server input payload).answer with
      | none =>
        refine .nothing rfl (by simp [outbound, answered]) ?_
        dsimp only
        rw [marked]
        exact sequential_append.mpr ⟨_, sequential, by simp [Sequential]⟩
      | some answer =>
        exact .answered before payload input answer link.server busy waits rfl
          (by simp [outbound, answered]) marked sequential rfl answered
  · exact underWay

theorem underWay_receive (underWay : protocol.UnderWay start link) (extra : Nat) :
    protocol.UnderWay start (protocol.receive link extra) := by
  unfold receive
  split
  · rename_i number tag answer rest waiting arrived
    cases underWay with
    | nothing _ outbound => rw [outbound] at arrived; cases arrived
    | asked _ _ _ _ _ outbound => rw [outbound] at arrived; cases arrived
    | answered before payload input answer server busy waits inbound outbound history sequential
        next served =>
      rw [outbound] at arrived
      cases arrived
      refine .nothing inbound (by simp) ?_
      have own : number = before.length := (waits number waiting).symm
      have marked : link.history.modify number (fun exchange =>
          { exchange with result := some answer }) = before ++ [⟨payload, some input, some answer⟩] := by
        rw [history, own, modify_last]
      dsimp only
      rw [marked]
      exact sequential_append.mpr ⟨_, sequential, by simp [Sequential, served, next]⟩
  · exact underWay

theorem underWay_step (underWay : protocol.UnderWay start link) (move : Move ε ρ) :
    protocol.UnderWay start (protocol.step link move) := by
  cases move with
  | reopen => exact underWay_reopen underWay
  | call payload written reached => exact underWay_call underWay payload written reached
  | serve input => exact underWay_serve underWay input
  | leave => exact underWay_leave underWay
  | receive extra => exact underWay_receive underWay extra
  | giveUp =>
    change protocol.UnderWay start (giveUp link)
    unfold giveUp
    split
    · exact underWay_gone underWay
    · exact underWay
    · exact underWay
  | hangUp => exact underWay_gone underWay

/-- However calls, answers, losses and reconnections interleave, the calls are
sequential, each served at most once. -/
theorem run_sequential (start : σ) (moves : List (Move ε ρ)) :
    let link := run protocol.step (.closed start) moves
    protocol.Sequential start link.history link.server :=
  (run_keeps (protocol.UnderWay start) (fun _ move held => underWay_step held move)
    (underWay_closed start) moves).sequential

structure Waiting (link : Link σ ε ρ τ) (before : List (Exchange ε ρ τ)) (payload : ρ)
    (served : Option ε) : Prop where
  phase : link.phase = .waiting before.length
  history : link.history = before ++ [⟨payload, served, none⟩]

variable {before : List (Exchange ε ρ τ)} {payload : ρ} {served : Option ε}

theorem waiting_call (idle : link.phase = .idle) (payload : ρ) (reached : Bool) :
    Waiting (call link payload true reached) link.history payload none := by
  unfold call
  rw [idle]
  exact ⟨rfl, rfl⟩

theorem Waiting.serve (waiting : Waiting link before payload served)
    (underWay : protocol.UnderWay start link) (input : ε) :
    ∃ served, Waiting (protocol.serveNext link input) before payload served := by
  unfold serveNext
  split
  · rename_i number asked rest _ read
    cases underWay with
    | nothing inbound => rw [inbound] at read; cases read
    | answered _ _ _ _ _ _ _ inbound => rw [inbound] at read; cases read
    | asked first other busy waits inbound =>
      rw [inbound] at read
      cases read
      have own : first.length = before.length := waits _ waiting.phase
      refine ⟨some input, waiting.phase, ?_⟩
      dsimp only
      rw [waiting.history, own, modify_last]
  · exact ⟨served, waiting⟩

theorem Waiting.receive (waiting : Waiting link before payload served) {tag : Nat} {answer : τ}
    {rest : List (Nat × τ)} (arrived : link.outbound = (tag, answer) :: rest) (extra : Nat) :
    (protocol.receive link extra).history = before ++ [⟨payload, served, some answer⟩] ∧
      (protocol.receive link extra).phase =
        if protocol.keep payload answer then .idle else .gone := by
  unfold Protocol.receive
  rw [waiting.phase, arrived]
  dsimp only
  rw [waiting.history, modify_last]
  simp

theorem Waiting.giveUp (waiting : Waiting link before payload served) :
    (Protocol.giveUp link).history = before ++ [⟨payload, served, none⟩] ∧
      (Protocol.giveUp link).phase = .gone := by
  unfold Protocol.giveUp
  rw [waiting.phase]
  exact ⟨waiting.history, rfl⟩

end Protocol
end ZonKey.StopAndWait

import BaseAgent.Async.Pool
import BaseAgent.Flows.Repository

/-!
# The awaits of the Flow code

`FlowOp` lists what a Flow coordinator awaits: the operations of the repository,
the calls of the Agent transport, and the two sources of values that are not
determined by the program, the clock and `uuid4`.  Each is one atomic step.

A read of a Flow Run names the method that makes it.  The repository ignores the
name; it lets a statement about an interleaving say at which read a coordinator
stands.

The invoker, the clocks and the identifiers are oracles: what they answer may
depend on everything that happened before, and so on the number of the step.
-/

namespace BaseAgent
namespace Flows

open Async

/-- The methods that read a Flow Run: a client's own `get`, the methods of the
sequential strategy that call `get`, and the operations of `FlowLifecycle`. -/
inductive Reader where
  | get | resumeWaiting | cancel | terminalAfterRace | reachBudgetLimit
  | recordCancellationPropagationFailure | start | beginInvocation | settleInvocation
  | resumeInvocation | complete | terminate
  deriving DecidableEq, Repr

/-- What awaiting an Agent transport can end in. -/
inductive Transported where
  | result (result : AgentInvocationResult)
  | timeout
  | cancelled
  | raised (typeName message : String)

inductive FlowOp where
  | create (state : FlowRunState) (drafts : List FlowEventDraft)
  | get (reader : Reader) (runId : UUID)
  | commit (state : FlowRunState) (expectedRevision : Nat) (drafts : List FlowEventDraft)
      (token : Option UUID)
  | appendEvents (runId : UUID) (expectedRevision : Nat) (drafts : List FlowEventDraft)
      (token : Option UUID)
  | listEvents (runId : UUID)
  | acquireExecution (runId : UUID) (ownerId : String) (ttlSeconds : ℚ)
  | renewExecution (lease : FlowExecutionLease) (ttlSeconds : ℚ)
  | releaseExecution (lease : FlowExecutionLease)
  | clock
  | uuid4
  -- `remaining` is the timeout the transport is awaited under
  | invoke (request : AgentInvocationRequest) (remaining : Option ℚ)
  | resume (request : AgentInvocationResume) (remaining : Option ℚ)
  | cancel (request : AgentInvocationCancel)

namespace FlowOp

def Ret : FlowOp → Type
  | create .. | commit .. | appendEvents .. | listEvents .. => Except FlowError (List RuntimeEvent)
  | get .. => Except FlowError FlowRunState
  | acquireExecution .. | renewExecution .. => Except FlowError FlowExecutionLease
  | releaseExecution .. => Except FlowError Unit
  | clock => Time
  | uuid4 => UUID
  | invoke .. | resume .. => Transported
  -- `none` when the transport accepted the cancellation, else the exception
  | cancel .. => Option FlowError

end FlowOp

abbrev FlowProg (α : Type) := Prog FlowOp FlowOp.Ret FlowError α

def uuid4 : FlowProg UUID := .call .uuid4 .ret

/-- The answers of everything outside the Flow code, by the number of the step. -/
structure FlowEnv where
  clock : Nat → Time
  repositoryClock : Nat → Time
  uuid4 : Nat → UUID
  invoke : Nat → AgentInvocationRequest → Option ℚ → Transported
  resume : Nat → AgentInvocationResume → Option ℚ → Transported
  cancel : Nat → AgentInvocationCancel → Option FlowError

structure FlowWorld where
  repo : InMemoryFlowRepository := {}
  steps : Nat := 0

namespace FlowEnv

def reply (env : FlowEnv) (n : Nat) (r : InMemoryFlowRepository) :
    (o : FlowOp) → o.Ret × InMemoryFlowRepository
  | .create state drafts => r.create state drafts
  | .get _ runId => r.get runId
  | .commit state expected drafts token =>
    r.commit (env.repositoryClock n) state expected drafts token
  | .appendEvents runId expected drafts token =>
    r.appendEvents (env.repositoryClock n) runId expected drafts token
  | .listEvents runId => r.listEvents runId
  | .acquireExecution runId ownerId ttl =>
    r.acquireExecution (env.repositoryClock n) (env.uuid4 n) runId ownerId ttl
  | .renewExecution lease ttl => r.renewExecution (env.repositoryClock n) lease ttl
  | .releaseExecution lease => r.releaseExecution lease
  | .clock => (env.clock n, r)
  | .uuid4 => (env.uuid4 n, r)
  | .invoke request remaining => (env.invoke n request remaining, r)
  | .resume request remaining => (env.resume n request remaining, r)
  | .cancel request => (env.cancel n request, r)

def exec (env : FlowEnv) (o : FlowOp) (w : FlowWorld) : o.Ret × FlowWorld :=
  ((env.reply w.steps w.repo o).1, ⟨(env.reply w.steps w.repo o).2, w.steps + 1⟩)

variable {env : FlowEnv} {w : FlowWorld} {runId : UUID}

theorem exec_get {s : FlowRunState} (h : w.repo.states runId = some s) (reader : Reader) :
    env.exec (.get reader runId) w = (.ok s, ⟨w.repo, w.steps + 1⟩) := by
  show ((w.repo.get runId).1, (⟨(w.repo.get runId).2, w.steps + 1⟩ : FlowWorld)) = _
  simp only [InMemoryFlowRepository.get, h]
  rfl

theorem exec_get_none (h : w.repo.states runId = none) (reader : Reader) :
    env.exec (.get reader runId) w =
      (.error (InMemoryFlowRepository.notFound runId), ⟨w.repo, w.steps + 1⟩) := by
  show ((w.repo.get runId).1, (⟨(w.repo.get runId).2, w.steps + 1⟩ : FlowWorld)) = _
  simp only [InMemoryFlowRepository.get, h]
  rfl

theorem exec_get_repo (reader : Reader) (runId : UUID) (w : FlowWorld) :
    (env.exec (.get reader runId) w).2.repo = w.repo := by
  cases h : w.repo.states runId with
  | none => rw [exec_get_none h]
  | some s => rw [exec_get h]

theorem exec_append_states (runId : UUID) (expected : Nat) (drafts : List FlowEventDraft)
    (token : Option UUID) (w : FlowWorld) :
    (env.exec (.appendEvents runId expected drafts token) w).2.repo.states = w.repo.states := by
  show (w.repo.appendEvents _ runId expected drafts token).2.states = w.repo.states
  rcases w.repo.appendEvents_cases (env.repositoryClock w.steps) runId expected drafts token with
    ⟨e, he⟩ | ⟨current, -, -, -, -, hok⟩
  · rw [he]
  · rw [hok]
    rfl

end FlowEnv

end Flows
end BaseAgent

import BaseAgent.Flows.Protocol

/-!
# Durable lifecycle transitions

`FlowLifecycle` pairs every transition of the aggregate with the events that
describe it and commits both at once.  All of its operations read the Run, compute
the replacement and its events, and commit against the revision that was read;
`transact` is that shape, and an operation differs only in the transition it
computes.  Another coordinator can run between the read and the commit.
-/

namespace BaseAgent
namespace Flows

open Async

structure FlowLifecycle where
  executionLease : Option FlowExecutionLease := none

/-- A computed replacement, the events to commit with it, and the Run whose lease
token the commit presents. -/
structure Transition where
  state : FlowRunState
  drafts : List FlowEventDraft
  leaseRun : UUID

/-- `_INVOCATION_RESULT_EVENTS`. -/
def invocationResultEvent : AgentResultStatus → EventType
  | .completed => .agentInvocationCompleted
  | .failed => .agentInvocationFailed
  | .cancelled => .agentInvocationCancelled
  | .interrupted => .agentInvocationInterrupted
  | .limitReached => .agentInvocationLimitReached
  | .waiting => .agentInvocationWaiting

/-- The four operations that end a Flow unsuccessfully. -/
inductive Termination where
  | fail | cancel | interrupt | reachLimit
  deriving DecidableEq, Repr

namespace Termination

def status : Termination → RunStatus
  | fail => .failed
  | cancel => .cancelled
  | interrupt => .interrupted
  | reachLimit => .limitReached

/-- `_FLOW_TERMINAL_EVENTS`. -/
def flowEvent : Termination → EventType
  | fail => .flowFailed
  | cancel => .flowCancelled
  | interrupt => .flowInterrupted
  | reachLimit => .flowLimitReached

/-- `_INVOCATION_TERMINAL_EVENTS`. -/
def invocationEvent : Termination → EventType
  | fail => .agentInvocationFailed
  | cancel => .agentInvocationCancelled
  | interrupt => .agentInvocationInterrupted
  | reachLimit => .agentInvocationLimitReached

end Termination

def invocationData (inv : AgentInvocation) : List (String × JsonValue) :=
  [("invocation_id", .uuid inv.id), ("invocation_sequence", .int inv.sequence),
    ("agent_key", .str inv.agentKey), ("definition_id", .str inv.definitionId),
    ("definition_version", .str inv.definitionVersion),
    ("definition_fingerprint", .str inv.definitionFingerprint)]

def optionalInt : Option Nat → JsonValue
  | some n => .int n
  | none => .null

/-- `budget.model_dump(mode="json")`. -/
def FlowBudget.dump (b : FlowBudget) : JsonValue :=
  .obj [("schema_version", .str "1"), ("max_invocations", .int b.maxInvocations),
    ("max_input_tokens", optionalInt b.maxInputTokens),
    ("max_output_tokens", optionalInt b.maxOutputTokens),
    ("max_total_tokens", optionalInt b.maxTotalTokens),
    ("max_model_calls", optionalInt b.maxModelCalls),
    ("max_tool_calls", optionalInt b.maxToolCalls),
    ("timeout_seconds", match b.timeoutSeconds with
      | some t => .float t
      | none => .null)]

def revisionField (s : FlowRunState) : String × JsonValue := ("revision", .int s.revision)

def createdDraft (s : FlowRunState) : FlowEventDraft :=
  { type := .flowCreated
    data := [("definition_id", .str s.definitionId),
      ("definition_version", .str s.definitionVersion),
      ("definition_fingerprint", .str s.definitionFingerprint), ("budget", s.budget.dump),
      ("deadline_at", match s.deadlineAt with
        | some t => .time t
        | none => .null),
      revisionField s] }

def propagationFailureDraft (invocation : AgentInvocation) (errorType : String)
    (current : FlowRunState) : FlowEventDraft :=
  { type := .agentInvocationCancellationPropagationFailed
    data := invocationData invocation ++
      [("flow_status", .str current.status.value), ("error_type", .str errorType),
        revisionField current] }

/-! ## What each operation computes from the state it read -/

def startTransition (current : FlowRunState) : Except FlowError Transition := do
  let state ← current.start
  return ⟨state, [⟨.flowStarted, [revisionField state]⟩], state.runId⟩

def beginTransition (request : AgentInvocationRequest) (definition : FlowDefinition)
    (current : FlowRunState) : Except FlowError Transition := do
  let state ← current.beginInvocation request definition
  let invocation ← orRaise state.activeInvocation .assertion
  return ⟨state, [⟨.agentInvocationStarted, invocationData invocation ++ [revisionField state]⟩],
    state.runId⟩

def settleTransition (runId : UUID) (result : AgentInvocationResult) (current : FlowRunState) :
    Except FlowError Transition := do
  let state ← current.settleInvocation result
  let settled ← orRaise state.invocations.getLast? (.other "IndexError" "tuple index out of range")
  let settledDraft : FlowEventDraft :=
    { type := invocationResultEvent result.status
      data := invocationData settled ++
        [revisionField state, ("input_tokens", .int result.usage.inputTokens),
          ("output_tokens", .int result.usage.outputTokens),
          ("artifact_count", .int result.artifacts.length)] }
  let waitingDraft : FlowEventDraft :=
    ⟨.flowWaiting, [("invocation_id", .uuid settled.id), revisionField state]⟩
  return ⟨state, if result.status = .waiting then [settledDraft, waitingDraft] else [settledDraft],
    runId⟩

def resumeTransition (runId invocationId : UUID) (current : FlowRunState) :
    Except FlowError Transition := do
  let state ← current.resumeInvocation invocationId
  let invocation ← orRaise state.activeInvocation .assertion
  return ⟨state,
    [⟨.agentInvocationResumed, invocationData invocation ++ [revisionField state]⟩,
      ⟨.flowResumed, [("invocation_id", .uuid invocation.id), revisionField state]⟩], runId⟩

def completeTransition (output : String) (current : FlowRunState) :
    Except FlowError Transition := do
  let state ← current.complete output
  return ⟨state,
    [⟨.flowCompleted,
      [revisionField state, ("invocation_count", .int state.invocations.length),
        ("input_tokens", .int state.usage.inputTokens),
        ("output_tokens", .int state.usage.outputTokens),
        ("model_calls", .int state.modelCallCount),
        ("tool_calls", .int state.toolCallCount)]⟩], state.runId⟩

/-- The event of the invocation that a termination of `current` ended, if any. -/
def terminatedDrafts (ending : Termination) (current state : FlowRunState) :
    Except FlowError (List FlowEventDraft) :=
  match current.activeInvocation with
  | none => .ok []
  | some active => do
    let terminated ← orRaise (state.invocations.find? fun inv => inv.id == active.id)
      (.other "RuntimeError" "coroutine raised StopIteration")
    return [⟨ending.invocationEvent, invocationData terminated ++ [revisionField state]⟩]

def terminateTransition (runId : UUID) (ending : Termination) (error : String)
    (metadata : List (String × JsonValue)) (current : FlowRunState) :
    Except FlowError Transition := do
  let state ← current.terminate ending.status error
  let drafts ← terminatedDrafts ending current state
  let flowDraft : FlowEventDraft :=
    ⟨ending.flowEvent,
      [revisionField state, ("invocation_count", .int state.invocations.length)] ++ metadata⟩
  return ⟨state, drafts ++ [flowDraft], runId⟩

namespace FlowLifecycle

variable (lc : FlowLifecycle)

def executionTokenFor (runId : UUID) : Except FlowError (Option UUID) :=
  match lc.executionLease with
  | none => .ok none
  | some lease =>
    if lease.runId ≠ runId then
      .error (.value (s!"execution lease belongs to Flow Run " ++
        s!"'{uuidText lease.runId}', not '{uuidText runId}'"))
    else .ok (some lease.token)

def read (reader : Reader) (runId : UUID) : FlowProg FlowRunState :=
  .call (.get reader runId) Prog.ofExcept

def transact (reader : Reader) (runId : UUID)
    (transition : FlowRunState → Except FlowError Transition) : FlowProg FlowRunState := do
  let current ← read reader runId
  let t ← Prog.ofExcept (transition current)
  let token ← Prog.ofExcept (lc.executionTokenFor t.leaseRun)
  .call (.commit t.state current.revision t.drafts token) fun r => do
    let _ ← Prog.ofExcept r
    return t.state

/-- `FlowRunState.create` draws the UUID when it has the deadline. -/
def create (definition : FlowDefinition) (runId : Option UUID) (now : Time) :
    FlowProg FlowRunState := do
  let deadlineAt ← Prog.ofExcept (definition.budget.deadline now)
  let runId ← match runId with
    | some runId => pure runId
    | none => uuid4
  let state := FlowRunState.initial definition runId now deadlineAt
  .call (.create state [createdDraft state]) fun r => do
    let _ ← Prog.ofExcept r
    return state

def get (runId : UUID) (reader : Reader := .get) : FlowProg FlowRunState := read reader runId

def recordCancellationPropagationFailure (runId : UUID) (invocation : AgentInvocation)
    (errorType : String) : FlowProg Unit := do
  let current ← read .recordCancellationPropagationFailure runId
  let token ← Prog.ofExcept (lc.executionTokenFor runId)
  let draft := propagationFailureDraft invocation errorType current
  .call (.appendEvents runId current.revision [draft] token) fun r => do
    let _ ← Prog.ofExcept r
    return ()

def start (runId : UUID) : FlowProg FlowRunState := lc.transact .start runId startTransition

def beginInvocation (runId : UUID) (request : AgentInvocationRequest)
    (definition : FlowDefinition) : FlowProg FlowRunState :=
  lc.transact .beginInvocation runId (beginTransition request definition)

def settleInvocation (runId : UUID) (result : AgentInvocationResult) : FlowProg FlowRunState :=
  lc.transact .settleInvocation runId (settleTransition runId result)

def resumeInvocation (runId invocationId : UUID) : FlowProg FlowRunState :=
  lc.transact .resumeInvocation runId (resumeTransition runId invocationId)

def complete (runId : UUID) (output : String) : FlowProg FlowRunState :=
  lc.transact .complete runId (completeTransition output)

def terminate (runId : UUID) (ending : Termination) (error : String)
    (metadata : List (String × JsonValue)) : FlowProg FlowRunState :=
  lc.transact .terminate runId (terminateTransition runId ending error metadata)

def fail (runId : UUID) (error : String) : FlowProg FlowRunState :=
  lc.terminate runId .fail error []

def cancel (runId : UUID) (error : String := "Flow Run cancellation requested") :
    FlowProg FlowRunState :=
  lc.terminate runId .cancel error []

def interrupt (runId : UUID) (error : String := "Flow Run interrupted") :
    FlowProg FlowRunState :=
  lc.terminate runId .interrupt error []

def reachLimit (runId : UUID) (error : String := "Flow Run invocation limit reached")
    (metadata : List (String × JsonValue) := []) : FlowProg FlowRunState :=
  lc.terminate runId .reachLimit error metadata

end FlowLifecycle

end Flows
end BaseAgent

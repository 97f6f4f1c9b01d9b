import BaseAgent.Flows.Budget
import BaseAgent.Flows.Service

/-!
# Sequential Flow execution

`SequentialFlowStrategy` invokes the bound Agents once each, in declaration order.
The methods below are its methods, await by await.

The loop of `_advance` runs while the Flow has fewer invocations than Agents.  It is
written here with a bound on its iterations, which callers set to the number of
Agents: the list of invocations never gets shorter and each iteration begins one.
-/

namespace BaseAgent
namespace Flows

open Async

structure SequentialFlowStrategy where
  lifecycle : FlowLifecycle := {}
  -- `isinstance(invoker, CancellableAgentInvoker)`
  cancellable : Bool := true

def handoff (result : Option AgentInvocationResult) : Option AgentHandoff :=
  result.map fun r =>
    { sourceAgentKey := r.agentKey
      summary := match r.output with
        | none | some "" => "Agent completed without textual output."
        | some text => text
      data := r.metadata
      artifacts := r.artifacts }

def flowResult (s : FlowRunState) : Except FlowError FlowResult := do
  let waiting ← if s.status = .waiting then do
      let active ← orRaise s.activeInvocation .assertion
      let result ← orRaise active.result .assertion
      pure (some active.id, result.pendingInput)
    else pure (none, none)
  FlowResult.validate
    { runId := s.runId
      status := s.status
      output := s.output
      usage := s.usage
      artifacts := s.artifacts
      invocationCount := s.invocations.length
      modelCallCount := s.modelCallCount
      toolCallCount := s.toolCallCount
      waitingInvocationId := waiting.1
      pendingInput := waiting.2
      error := s.error }

def terminationOf : AgentResultStatus → Termination
  | .failed => .fail
  | .cancelled => .cancel
  | .interrupted => .interrupt
  | _ => .reachLimit

namespace SequentialFlowStrategy

variable (st : SequentialFlowStrategy)

def requireSupported (definition : FlowDefinition) : Except FlowError Unit :=
  raiseIf (definition.strategy ≠ "sequential") (.unsupportedStrategy
    (s!"SequentialFlowStrategy cannot execute strategy " ++ s!"'{definition.strategy}'"))

def requireDefinition (s : FlowRunState) (definition : FlowDefinition) : Except FlowError Unit :=
  raiseIf (s.matchesDefinition definition = false)
    (.value "FlowDefinition does not match this Flow Run")

def clock : FlowProg Time := .call .clock .ret

/-- `_flow_result` of the state an operation returned. -/
def resultOf (p : FlowProg FlowRunState) : FlowProg FlowResult := do
  let state ← p
  Prog.ofExcept (flowResult state)

def terminalAfterRace (runId : UUID) : FlowProg (Option FlowResult) := do
  let current ← FlowLifecycle.get runId .terminalAfterRace
  if current.status.terminal then do
    let result ← Prog.ofExcept (flowResult current)
    return some result
  else return none

def propagateCancellation (invocation : AgentInvocation) (reason : String) : FlowProg Unit :=
  let request : AgentInvocationCancel :=
    { flowRunId := invocation.flowRunId
      invocationId := invocation.id
      agentKey := invocation.agentKey
      reason := reason }
  if st.cancellable then
    .call (.cancel request) fun
      | none => .ret ()
      | some .cancelled => .raise .cancelled
      | some e => st.lifecycle.recordCancellationPropagationFailure invocation.flowRunId
          invocation e.typeName
  else
    st.lifecycle.recordCancellationPropagationFailure invocation.flowRunId invocation
      "CancellationNotSupported"

/-- Propagate to the invocation that was active, if it is one of the `wanted`. -/
def propagateIf (active : Option AgentInvocation) (wanted : AgentInvocation → Bool)
    (reason : String) : FlowProg Unit :=
  match active with
  | some invocation =>
    if wanted invocation then st.propagateCancellation invocation reason else .ret ()
  | none => .ret ()

def reachBudgetLimit (runId : UUID) (violation : FlowBudgetExceeded) : FlowProg FlowResult := do
  let current ← FlowLifecycle.get runId .reachBudgetLimit
  if current.status.terminal then Prog.ofExcept (flowResult current)
  else do
    let limited ← st.lifecycle.reachLimit runId violation.message [("budget", violation.dump)]
    st.propagateIf current.activeInvocation (fun active => active.status = .waiting)
      violation.message
    Prog.ofExcept (flowResult limited)

def timeoutLimit (s : FlowRunState) : FlowProg FlowResult := do
  let now ← clock
  let c ← Prog.ofExcept (FlowBudgetPolicy.consumption s now)
  let limit ← Prog.ofExcept (orRaise s.budget.timeoutSeconds .assertion)
  st.reachBudgetLimit s.runId ⟨.timeoutSeconds, limit, max limit c.elapsedSeconds⟩

def transportFailure (runId : UUID) (agentKey operation : String) (errorType error : String) :
    FlowProg FlowResult := do
  match ← terminalAfterRace runId with
  | some terminal => return terminal
  | none =>
    let message := s!"Agent '{agentKey}' {operation} raised " ++ s!"{errorType}: {error}"
    resultOf (st.lifecycle.fail runId message)

def handleOutcome (s : FlowRunState) (result : AgentInvocationResult) :
    FlowProg (Option FlowResult) :=
  match result.status with
  | .completed => return none
  | .waiting => do
    let waiting ← Prog.ofExcept (flowResult s)
    return some waiting
  | status => do
    let error := match result.error with
      | none | some "" => s!"Agent '{result.agentKey}' did not complete"
      | some e => e
    let terminal ← resultOf (st.lifecycle.terminate s.runId (terminationOf status) error [])
    return some terminal

/-- What follows a settlement that raised: a terminal Flow wins the race, and a result
that does not fit the invocation fails the Flow. -/
def settleFailed (runId : UUID) (agentKey operation : String) : FlowError → FlowProg FlowResult
  | .invalidTransition message => do
    match ← terminalAfterRace runId with
    | some terminal => return terminal
    | none => .raise (.invalidTransition message)
  | e =>
    if e.isValueError then
      st.transportFailure runId agentKey s!"{operation} returned an invalid result" e.typeName
        e.text
    else .raise e

/-- What follows a settlement: the budget, then the outcome of the Agent.  `continueWith`
goes on with the Flow when the Agent completed. -/
def afterSettled (settled : FlowRunState) (result : AgentInvocationResult)
    (continueWith : FlowRunState → AgentInvocationResult → FlowProg FlowResult) :
    FlowProg FlowResult := do
  let now ← clock
  match ← Prog.ofExcept (FlowBudgetPolicy.afterTransport settled now) with
  | some violation => st.reachBudgetLimit settled.runId violation
  | none =>
    match ← st.handleOutcome settled result with
    | some terminal => return terminal
    | none => continueWith settled result

/-- What follows the transport, which `_advance` and `_resume_waiting` both spell out.
`state` is the one the deadline was taken from. -/
def afterTransport (state : FlowRunState) (runId : UUID) (agentKey operation interrupted : String)
    (continueWith : FlowRunState → AgentInvocationResult → FlowProg FlowResult) :
    Transported → FlowProg FlowResult
  | .timeout => st.timeoutLimit state
  | .cancelled => do
    let _ ← st.lifecycle.interrupt runId interrupted
    .raise .cancelled
  | .raised errorType message => st.transportFailure runId agentKey operation errorType message
  | .result result => do
    match ← (st.lifecycle.settleInvocation runId result).attempt with
    | .error e => st.settleFailed runId agentKey operation e
    | .ok settled => st.afterSettled settled result continueWith

def requestFor (s : FlowRunState) (input : FlowInput)
    (previous : Option AgentInvocationResult) (binding : FlowAgent) (invocationId : UUID) :
    AgentInvocationRequest :=
  { flowRunId := s.runId
    invocationId := invocationId
    sequence := s.invocations.length + 1
    agentKey := binding.key
    definitionId := binding.definition.id
    definitionVersion := binding.definition.version
    definitionFingerprint := binding.definition.fingerprint
    input :=
      { prompt := input.prompt
        handoff := handoff previous
        attachments := input.attachments } }

/-- `_advance`, for at most `fuel` iterations. -/
def advance (definition : FlowDefinition) (input : FlowInput) :
    Nat → FlowRunState → Option AgentInvocationResult → FlowProg FlowResult
  | fuel, state, previous =>
    match definition.agents[state.invocations.length]? with
    | none => do
      let previous ← Prog.ofExcept (orRaise previous .assertion)
      resultOf (st.lifecycle.complete state.runId (previous.output.getD ""))
    | some binding =>
      match fuel with
      | 0 => .raise .assertion
      | fuel + 1 => do
        let now ← clock
        match ← Prog.ofExcept (FlowBudgetPolicy.beforeTransport state now true) with
        | some violation => st.reachBudgetLimit state.runId violation
        | none =>
          let id ← uuid4
          let request ← Prog.ofExcept
            (requestFor state input previous binding id).validate
          let begun ← st.lifecycle.beginInvocation state.runId request definition
          let now ← clock
          .call (.invoke request (FlowBudgetPolicy.remainingSeconds begun now)) fun outcome =>
            st.afterTransport begun begun.runId binding.key "invoke"
              "Sequential Flow execution cancelled"
              (fun settled result => advance definition input fuel settled (some result)) outcome

def run (definition : FlowDefinition) (input : FlowInput) (runId : Option UUID) :
    FlowProg FlowResult := do
  Prog.ofExcept (requireSupported definition)
  let now ← clock
  let created ← FlowLifecycle.create definition runId now
  let started ← st.lifecycle.start created.runId
  st.advance definition input definition.agents.length started none

def resumeWaiting (definition : FlowDefinition) (runId : UUID) (userInput : Option String)
    (confirmation : Option ToolConfirmation) : FlowProg FlowResult := do
  Prog.ofExcept (requireSupported definition)
  let waiting ← FlowLifecycle.get runId .resumeWaiting
  Prog.ofExcept (requireDefinition waiting definition)
  let now ← clock
  match ← Prog.ofExcept (FlowBudgetPolicy.beforeTransport waiting now false) with
  | some violation => st.reachBudgetLimit waiting.runId violation
  | none =>
    let active ← Prog.ofExcept
      (orRaise waiting.activeInvocation (.value "Flow Run has no waiting AgentInvocation"))
    let input : FlowInput := { prompt := active.input.prompt, attachments := active.input.attachments }
    let _ ← st.lifecycle.resumeInvocation runId active.id
    let request ← Prog.ofExcept (AgentInvocationResume.validate
      { flowRunId := runId
        invocationId := active.id
        agentKey := active.agentKey
        userInput := userInput
        confirmation := confirmation })
    let now ← clock
    .call (.resume request (FlowBudgetPolicy.remainingSeconds waiting now)) fun outcome =>
      st.afterTransport waiting runId active.agentKey "resume" "Sequential Flow resume cancelled"
        (fun settled result =>
          st.advance definition input definition.agents.length settled (some result)) outcome

def resume (definition : FlowDefinition) (runId : UUID) (userInput : String) :
    FlowProg FlowResult :=
  st.resumeWaiting definition runId (some userInput) none

def confirm (definition : FlowDefinition) (runId : UUID) (confirmation : ToolConfirmation) :
    FlowProg FlowResult :=
  st.resumeWaiting definition runId none (some confirmation)

def cancel (runId : UUID) (reason : String := "Flow cancellation requested") :
    FlowProg FlowResult := do
  Prog.ofExcept (raiseIf (isBlank reason = true)
    (.value "Flow cancellation reason must not be blank"))
  Prog.ofExcept (raiseIf (reason.length > 1000)
    (.value "Flow cancellation reason must not exceed 1000 characters"))
  let current ← FlowLifecycle.get runId .cancel
  if current.status = .cancelled then Prog.ofExcept (flowResult current)
  else if current.status.terminal then
    .raise (.invalidTransition s!"cannot cancel Flow Run in state '{current.status.value}'")
  else do
    let cancelled ← st.lifecycle.cancel runId reason
    st.propagateIf current.activeInvocation (fun _ => true) reason
    Prog.ofExcept (flowResult cancelled)

end SequentialFlowStrategy

inductive FlowCall where
  | run (definition : FlowDefinition) (input : FlowInput) (runId : Option UUID)
  | resume (definition : FlowDefinition) (runId : UUID) (userInput : String)
  | confirm (definition : FlowDefinition) (runId : UUID) (confirmation : ToolConfirmation)
  | cancel (runId : UUID) (reason : String)

def FlowCall.prog (st : SequentialFlowStrategy) : FlowCall → FlowProg FlowResult
  | run definition input runId => st.run definition input runId
  | resume definition runId userInput => st.resume definition runId userInput
  | confirm definition runId confirmation => st.confirm definition runId confirmation
  | cancel runId reason => st.cancel runId reason

end Flows
end BaseAgent

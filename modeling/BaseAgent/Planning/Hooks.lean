import BaseAgent.Runtime.Strategy

/-!
# The methods a strategy overrides

`ModelToolStrategy` calls methods that its subclasses override.  `Hooks` is the record of
them, and the turn of the strategy is written here over any such record.  With the methods of
`ModelToolStrategy` itself it is the turn of `Runtime/Strategy.lean`.
-/

namespace BaseAgent
namespace Runtime

open Async

/-- What overridden methods do.  What they put into their events is left out. -/
structure Hooks where
  toolDefinitions : RuntimeContext → Except RuntimeError (List String)
  beforeModelRequest : RuntimeContext → ContextProg RuntimeContext
  onActionBatchSelected : RuntimeContext → ContextProg Unit
  onObservationBatchRecorded : RuntimeContext → ContextProg Unit
  onIterationCompleted : RuntimeContext → ContextProg Unit
  completeResponse : RuntimeContext → String → ContextProg RuntimeContext
  failExecution : RuntimeContext → String → ContextProg RuntimeContext
  waitForInput : RuntimeContext → ContextProg RuntimeContext

namespace Hooks

variable (hooks : Hooks) (agent : Agent)

def recordBatch (context : RuntimeContext) : ContextProg RuntimeContext := do
  hooks.onObservationBatchRecorded context
  hooks.onIterationCompleted context
  saveContextSnapshot context
  return context

def suspend (context : RuntimeContext) (call : ToolCall) (remaining : List ToolCall)
    (observations : List (ToolCall × ToolResult)) (response : ModelResponse)
    (result : ToolResult) : ContextProg RuntimeContext := do
  let batch : SuspendedActionBatch :=
    { waitingCall := call
      remainingCalls := remaining
      observations := observations
      response := response }
  let context :=
    { context with supervision := { context.supervision with suspendedActionBatch := some batch } }
  match waitPrompt result with
  | none => hooks.failExecution context s!"tool '{call.name}' returned an invalid input request"
  | some prompt => do
    let metadata := waitMetadata result
    let pending : PendingInput :=
      { toolCallId := call.id, toolName := call.name, prompt := prompt, metadata := metadata }
    let context ← transitionTo { context with pendingInput := some pending } .waiting
    ModelToolStrategy.requestConfirmation context metadata
    emit context .toolWaiting
    let context ← hooks.waitForInput context
    saveContextSnapshot context
    return context

def executeToolBatch (response : ModelResponse)
    (confirmations : Option (String × ToolConfirmation)) :
    List ToolCall → List (ToolCall × ToolResult) → RuntimeContext → ContextProg RuntimeContext
  | [], _, context => hooks.recordBatch context
  | call :: rest, observations, context => do
    match ← ModelToolStrategy.cancelIfRequested context with
    | some cancelled => return cancelled
    | none =>
      let confirmation := ModelToolStrategy.confirmationFor confirmations call
      let (context, goOn) ← ModelToolStrategy.admitCall context call rest.length confirmation
      if goOn then do
        let (result, acquired) ← ToolExecutor.execute agent context call rest.length confirmation
        let context := { context with acquired := context.acquired ++ acquired }
        ModelToolStrategy.emitAcquired context acquired
        match result with
        | none => .raise (.cancelled, context)
        | some result =>
          if result.status = .waiting then
            hooks.suspend context call rest observations response result
          else do
            let (context, goOn) ← ModelToolStrategy.observe context call result rest.length
            if goOn then
              executeToolBatch response confirmations rest (observations ++ [(call, result)]) context
            else return context
      else return context

/-- `_resume_action_batch`, when a batch is suspended. -/
def resumeActionBatch (batch : SuspendedActionBatch) (context : RuntimeContext) :
    ContextProg RuntimeContext :=
  let confirmation := context.supervision.toolConfirmationDecision
  let context :=
    { context with
      supervision := { context.supervision with
        suspendedActionBatch := none
        toolConfirmationDecision := none } }
  match confirmation.filter (·.decision = .approve) with
  | some confirmation =>
    hooks.executeToolBatch agent batch.response (some (batch.waitingCall.id, confirmation))
      (batch.waitingCall :: batch.remainingCalls) batch.observations context
  | none =>
    match ModelToolStrategy.findToolResult context.messages batch.waitingCall.id with
    | none =>
      hooks.failExecution context ("invalid suspended action batch: " ++
        s!"missing resumed ToolResult for call '{batch.waitingCall.id}'")
    | some result =>
      let observations := batch.observations ++ [(batch.waitingCall, result)]
      match batch.remainingCalls with
      | [] => hooks.recordBatch context
      | remaining => hooks.executeToolBatch agent batch.response none remaining observations context

def respond (context : RuntimeContext) (response : ModelResponse) :
    ContextProg RuntimeContext := do
  emit context .modelResponded
  let context :=
    { context with
      responses := context.responses ++ [response]
      usage := context.usage + response.usage
      messages := context.messages ++ [response.toAssistantMessage] }
  saveContextSnapshot context
  match ← ModelToolStrategy.cancelIfRequested context with
  | some cancelled => return cancelled
  | none =>
    if response.toolCalls.isEmpty then do
      hooks.onIterationCompleted context
      hooks.completeResponse context (response.content.getD "")
    else do
      hooks.onActionBatchSelected context
      hooks.executeToolBatch agent response none response.toolCalls [] context

/-- `advance` of `ModelToolStrategy`. -/
def advance (context : RuntimeContext) : ContextProg RuntimeContext :=
  match context.supervision.suspendedActionBatch with
  | some batch => hooks.resumeActionBatch agent batch context
  | none => do
    let context ← hooks.beforeModelRequest { context with stepCount := context.stepCount + 1 }
    let definitions ← lift context (hooks.toolDefinitions context)
    let request : ModelRequest := { messages := context.messages, tools := definitions }
    emit context .modelRequested
    .call (.complete context.runId request) fun
      | .ok response => hooks.respond agent context response
      | .error .cancelled => .raise (.cancelled, context)
      | .error (.raised _ message) =>
        hooks.failExecution context s!"model provider '{agent.providerName}' failed: {message}"

end Hooks

namespace ModelToolStrategy

/-- The methods of `ModelToolStrategy` itself. -/
def hooks (agent : Agent) : Hooks where
  toolDefinitions := toolDefinitions agent
  beforeModelRequest := .ret
  onActionBatchSelected := fun _ => .ret ()
  onObservationBatchRecorded := fun _ => .ret ()
  onIterationCompleted := fun _ => .ret ()
  completeResponse := fun context content =>
    transitionTo { context with output := some content } .completed
  failExecution := failExecution
  waitForInput := .ret

variable (agent : Agent)

theorem hooks_executeToolBatch (response : ModelResponse)
    (confirmations : Option (String × ToolConfirmation)) (calls : List ToolCall)
    (observations : List (ToolCall × ToolResult)) (context : RuntimeContext) :
    (hooks agent).executeToolBatch agent response confirmations calls observations context =
      executeToolBatch agent response confirmations calls observations context := by
  induction calls generalizing observations context with
  | nil => rfl
  | cons call rest ih =>
    unfold Hooks.executeToolBatch executeToolBatch
    simp only [ih]
    rfl

/-- The turn over the methods of `ModelToolStrategy` is its turn. -/
theorem hooks_advance (context : RuntimeContext) :
    (hooks agent).advance agent context = advance agent context := by
  unfold Hooks.advance advance
  cases hbatch : context.supervision.suspendedActionBatch with
  | some batch =>
    simp only [Hooks.resumeActionBatch, resumeActionBatch, hooks_executeToolBatch]
    rfl
  | none =>
    have hrespond : ∀ c response,
        (hooks agent).respond agent c response = respond agent c response := by
      intro c response
      unfold Hooks.respond respond
      simp only [hooks_executeToolBatch]
      rfl
    simp only [hrespond]
    rfl

end ModelToolStrategy

end Runtime
end BaseAgent

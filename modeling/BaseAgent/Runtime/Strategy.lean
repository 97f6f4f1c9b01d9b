import BaseAgent.Runtime.Tools

/-!
# The model and Tool loop

`ModelToolStrategy.advance` makes one bounded turn: it asks the model and executes the
Tool calls of the response, or it finishes the batch that a waiting Tool suspended.  The
methods below are its methods, await by await; each takes the context and returns the
context it leaves.

The hooks that subclasses override (`_before_model_request`, `_on_iteration_completed` and
the like) do nothing in this strategy and are left out.
-/

namespace BaseAgent
namespace Runtime

open Async

def lift {α : Type} (context : RuntimeContext) : Except RuntimeError α → ContextProg α
  | .ok a => .ret a
  | .error e => .raise (e, context)

def emit (context : RuntimeContext) (type : EventType) : ContextProg Unit :=
  .call (.emit context.runId type) .ret

def getRun (context : RuntimeContext) : ContextProg Run :=
  .call (.getRun context.runId) (lift context)

def saveContextSnapshot (context : RuntimeContext) : ContextProg Unit := do
  let existing ← getRun context
  .call (.saveRun (context.snapshot existing)) (lift context)

def transitionTo (context : RuntimeContext) (target : RunStatus) : ContextProg RuntimeContext :=
  lift context (context.transitionTo target)

/-- The state after an intervention: a stop ends the Run. -/
def stopFor (context : RuntimeContext) : SupervisionDecision → ContextProg RuntimeContext
  | .stop reason _ status => transitionTo { context with error := some reason } status.runStatus
  | _ => .ret context

/-- `if decision.message: context.messages.append(Message.system(decision.message))`. -/
def withMessage (context : RuntimeContext) : SupervisionDecision → RuntimeContext
  | .redirect _ message => context.append (.system message)
  | .stop _ (some message) _ => if message = "" then context else context.append (.system message)
  | _ => context

def applySupervisionDecision (context : RuntimeContext) (decision : SupervisionDecision)
    (appendMessage : Bool) : ContextProg RuntimeContext := do
  emit context .supervisorIntervened
  stopFor (if appendMessage then withMessage context decision else context) decision

def hooked (context : RuntimeContext) :
    Hook → ContextProg (SupervisionDecision × RuntimeContext)
  | .ok (decision, policies) =>
    .ret (decision, { context with supervision := { context.supervision with policies := policies } })
  | .error e => .raise (e.error, context)

/-- `metadata.get("kind") == "tool_confirmation"`. -/
def isConfirmation (metadata : List (String × JsonValue)) : Bool :=
  match JsonValue.lookup metadata "kind" with
  | some (.str kind) => kind == "tool_confirmation"
  | _ => false

/-- The prompt of a waiting result, when it is a text that is not blank. -/
def waitPrompt (result : ToolResult) : Option String :=
  match result.data with
  | .obj fields =>
    match JsonValue.lookup fields "prompt" with
    | some (.str prompt) => if isBlank prompt then none else some prompt
    | _ => none
  | _ => none

/-- The metadata of a waiting result, empty unless it is an object. -/
def waitMetadata (result : ToolResult) : List (String × JsonValue) :=
  match result.data with
  | .obj fields =>
    match JsonValue.lookup fields "metadata" with
    | some (.obj metadata) => metadata
    | _ => []
  | _ => []

namespace ModelToolStrategy

variable (agent : Agent)

/-- `_cancel_if_requested`: the cancelled context, if a cancellation was requested. -/
def cancelIfRequested (context : RuntimeContext) : ContextProg (Option RuntimeContext) := do
  let run ← getRun context
  if run.cancelRequested then do
    let cancelled ← transitionTo { context with error := some "run cancellation requested" }
      .cancelled
    return some cancelled
  else return none

def failExecution (context : RuntimeContext) (error : String) : ContextProg RuntimeContext :=
  let failed := { context with error := some error }
  if failed.state = .running then transitionTo failed .failed else .ret failed

def emitAcquired (context : RuntimeContext) : List String → ContextProg Unit
  | [] => .ret ()
  | _ :: rest => do
    emit context .resourceAcquired
    emitAcquired context rest

/-- The supervisor stepped in before the call: a stop leaves at once, a redirection
answers the call with a denial. -/
def blockCall (context : RuntimeContext) (call : ToolCall) (decision : SupervisionDecision) :
    ContextProg RuntimeContext := do
  let context ← applySupervisionDecision context decision false
  match decision with
  | .redirect reason _ => do
    let blocked := ToolExecutor.refused call .denied "supervisor_intervention" reason
    let context := { context with toolCallCount := context.toolCallCount + 1 }
    let context := withMessage (context.append (.tool blocked call.id)) decision
    emit context .toolFailed
    saveContextSnapshot context
    return context
  | _ => return context

def requestConfirmation (context : RuntimeContext) (metadata : List (String × JsonValue)) :
    ContextProg Unit :=
  if isConfirmation metadata then emit context .toolConfirmationRequested else .ret ()

def suspend (context : RuntimeContext) (call : ToolCall) (remaining : List ToolCall)
    (observations : List (ToolCall × ToolResult)) (response : ModelResponse)
    (result : ToolResult) : ContextProg RuntimeContext := do
  let batch : SuspendedActionBatch :=
    { waitingCall := call
      remainingCalls := remaining
      observations := observations
      response := response }
  let context :=
    { context with supervision := { context.supervision with suspendedActionBatch := some batch } }
  match waitPrompt result with
  | none => failExecution context s!"tool '{call.name}' returned an invalid input request"
  | some prompt => do
    let metadata := waitMetadata result
    let pending : PendingInput :=
      { toolCallId := call.id, toolName := call.name, prompt := prompt, metadata := metadata }
    let context ← transitionTo { context with pendingInput := some pending } .waiting
    requestConfirmation context metadata
    emit context .toolWaiting
    saveContextSnapshot context
    return context

/-- The confirmation resumed for this call, matched by the identifier of the call. -/
def confirmationFor (confirmations : Option (String × ToolConfirmation)) (call : ToolCall) :
    Option ToolConfirmation :=
  match confirmations with
  | some (id, confirmation) => if id = call.id then some confirmation else none
  | none => none

/-- What precedes the execution of a call that brings no confirmation: the supervisor, and
the count.  The second component says that the batch goes on. -/
def announce (context : RuntimeContext) (call : ToolCall) (remaining : Nat) :
    ContextProg (RuntimeContext × Bool) := do
  emit context .toolRequested
  .call (.beforeTool context call remaining) fun reply => do
    let (decision, context) ← hooked context reply
    if decision.intervenes then do
      let context ← blockCall context call decision
      return (context, false)
    else do
      let context := { context with toolCallCount := context.toolCallCount + 1 }
      saveContextSnapshot context
      emit context .toolStarted
      return (context, true)

/-- A confirmed call was announced before the batch was suspended. -/
def admitCall (context : RuntimeContext) (call : ToolCall) (remaining : Nat) :
    Option ToolConfirmation → ContextProg (RuntimeContext × Bool)
  | some _ => .ret (context, true)
  | none => announce context call remaining

/-- The result enters the messages, and the supervisor looks at it. -/
def observe (context : RuntimeContext) (call : ToolCall) (result : ToolResult) (remaining : Nat) :
    ContextProg (RuntimeContext × Bool) := do
  emit context (if result.status = .success then .toolCompleted else .toolFailed)
  let context := context.append (.tool result call.id)
  .call (.afterTool context call result remaining) fun reply => do
    let (decision, context) ← hooked context reply
    if decision.intervenes then do
      let context ← applySupervisionDecision context decision true
      saveContextSnapshot context
      return (context, false)
    else do
      match ← cancelIfRequested context with
      | some cancelled => return (cancelled, false)
      | none => return (context, true)

def executeToolBatch (response : ModelResponse)
    (confirmations : Option (String × ToolConfirmation)) :
    List ToolCall → List (ToolCall × ToolResult) → RuntimeContext → ContextProg RuntimeContext
  | [], _, context => do
    saveContextSnapshot context
    return context
  | call :: rest, observations, context => do
    match ← cancelIfRequested context with
    | some cancelled => return cancelled
    | none =>
      let confirmation := confirmationFor confirmations call
      let (context, goOn) ← admitCall context call rest.length confirmation
      if goOn then do
        let (result, acquired) ← ToolExecutor.execute agent context call rest.length confirmation
        let context := { context with acquired := context.acquired ++ acquired }
        emitAcquired context acquired
        match result with
        | none => .raise (.cancelled, context)
        | some result =>
          if result.status = .waiting then
            suspend context call rest observations response result
          else do
            let (context, goOn) ← observe context call result rest.length
            if goOn then
              executeToolBatch response confirmations rest (observations ++ [(call, result)]) context
            else return context
      else return context

/-- `_find_tool_result`, the last message that answers the call. -/
def findToolResult (messages : List Message) (toolCallId : String) : Option ToolResult :=
  messages.reverse.findSome? fun message =>
    match message.content with
    | some (.result result) =>
      if message.toolCallId = some toolCallId then some result else none
    | _ => none

/-- `_resume_action_batch`, when a batch is suspended.  The batch and the decision are taken
out of the context. -/
def resumeActionBatch (batch : SuspendedActionBatch) (context : RuntimeContext) :
    ContextProg RuntimeContext :=
  let confirmation := context.supervision.toolConfirmationDecision
  let context :=
    { context with
      supervision := { context.supervision with
        suspendedActionBatch := none
        toolConfirmationDecision := none } }
  match confirmation.filter (·.decision = .approve) with
  | some confirmation =>
    executeToolBatch agent batch.response (some (batch.waitingCall.id, confirmation))
      (batch.waitingCall :: batch.remainingCalls) batch.observations context
  | none =>
    match findToolResult context.messages batch.waitingCall.id with
    | none =>
      failExecution context ("invalid suspended action batch: " ++
        s!"missing resumed ToolResult for call '{batch.waitingCall.id}'")
    | some result =>
      let observations := batch.observations ++ [(batch.waitingCall, result)]
      match batch.remainingCalls with
      | [] => do
        saveContextSnapshot context
        return context
      | remaining => executeToolBatch agent batch.response none remaining observations context

def toolDefinitions (context : RuntimeContext) : Except RuntimeError (List String) :=
  (ToolExecutor.require agent context.enabledToolNames).map (List.map (·.name))

def respond (context : RuntimeContext) (response : ModelResponse) :
    ContextProg RuntimeContext := do
  emit context .modelResponded
  let context :=
    { context with
      responses := context.responses ++ [response]
      usage := context.usage + response.usage
      messages := context.messages ++ [response.toAssistantMessage] }
  saveContextSnapshot context
  match ← cancelIfRequested context with
  | some cancelled => return cancelled
  | none =>
    if response.toolCalls.isEmpty then
      -- `_complete_response`
      transitionTo { context with output := some (response.content.getD "") } .completed
    else executeToolBatch agent response none response.toolCalls [] context

def advance (context : RuntimeContext) : ContextProg RuntimeContext :=
  match context.supervision.suspendedActionBatch with
  | some batch => resumeActionBatch agent batch context
  | none => do
    let context := { context with stepCount := context.stepCount + 1 }
    let definitions ← lift context (toolDefinitions agent context)
    let request : ModelRequest := { messages := context.messages, tools := definitions }
    emit context .modelRequested
    .call (.complete context.runId request) fun
      | .ok response => respond agent context response
      | .error .cancelled => .raise (.cancelled, context)
      | .error (.raised _ message) =>
        failExecution context s!"model provider '{agent.providerName}' failed: {message}"

end ModelToolStrategy

end Runtime
end BaseAgent

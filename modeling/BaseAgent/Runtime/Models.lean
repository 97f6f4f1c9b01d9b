import BaseAgent.Models.Plan

/-!
# Runs, messages and the context of an execution

The records of one Agent Run: the messages exchanged with the model, the results of
Tools, the stored Run, the mutable context of an execution and the checkpoint a waiting
Run leaves behind.

A Tool message holds the JSON text of a `ToolResult`, and a suspended batch is stored as
JSON.  Both are read back by the code that wrote them, so they are kept here as the
values they stand for.
-/

namespace BaseAgent
namespace Runtime

/-- What the modelled Run code raises.  `exhausted` is no exception of the program: it
marks a loop that was followed for as many iterations as asked for and is still running. -/
inductive RuntimeError where
  | cancelled
  | invalidTransition (message : String)
  | value (message : String)
  | toolNotFound (message : String)
  | runNotFound (message : String)
  | runAlreadyExists (message : String)
  | runNotCancellable (message : String)
  | checkpointNotFound (message : String)
  | assertion
  | other (typeName message : String)
  | exhausted
  deriving DecidableEq, Repr

namespace RuntimeError

/-- `str(error)`. -/
def text : RuntimeError → String
  | invalidTransition m | value m | toolNotFound m | runNotFound m | runAlreadyExists m
  | runNotCancellable m | checkpointNotFound m | other _ m => m
  | cancelled | assertion | exhausted => ""

end RuntimeError

/-- What code outside the models raises: the interruption of the task, or an exception of
any other type. -/
inductive Failure where
  | cancelled
  | raised (typeName message : String)
  deriving DecidableEq, Repr

def Failure.error : Failure → RuntimeError
  | cancelled => .cancelled
  | raised typeName message => .other typeName message

structure ToolCall where
  id : String
  name : String
  arguments : List (String × JsonValue) := []

inductive ToolResultStatus where
  | success | invalidArguments | notFound | denied | timeout | error | waiting
  deriving DecidableEq, Repr

def ToolResultStatus.value : ToolResultStatus → String
  | success => "success"
  | invalidArguments => "invalid_arguments"
  | notFound => "not_found"
  | denied => "denied"
  | timeout => "timeout"
  | error => "error"
  | waiting => "waiting"

structure ToolResult where
  toolName : String
  status : ToolResultStatus
  data : JsonValue := .null
  errorCode : Option String := none
  message : Option String := none

inductive MessageRole where
  | system | user | assistant | tool
  deriving DecidableEq, Repr

/-- The text of a message, or the result whose JSON text it is. -/
inductive Content where
  | text (text : String)
  | result (result : ToolResult)

structure Message where
  role : MessageRole
  content : Option Content := none
  toolCalls : List ToolCall := []
  toolCallId : Option String := none

namespace Message

def system (content : String) : Message := { role := .system, content := some (.text content) }

def user (content : String) : Message := { role := .user, content := some (.text content) }

def assistant (content : Option String) (toolCalls : List ToolCall := []) : Message :=
  { role := .assistant, content := content.map .text, toolCalls := toolCalls }

/-- `Message.tool(result.model_dump_json(), tool_call_id=...)`. -/
def tool (result : ToolResult) (toolCallId : String) : Message :=
  { role := .tool, content := some (.result result), toolCallId := some toolCallId }

end Message

/-- A validated model response: it has content or Tool calls. -/
structure ModelResponse where
  content : Option String := none
  toolCalls : List ToolCall := []
  usage : TokenUsage := {}
  valid : content ≠ none ∨ toolCalls ≠ []

theorem ModelResponse.done_valid : (some "Done." : Option String) ≠ none ∨ ([] : List ToolCall) ≠ [] :=
  .inl (by simp)

def ModelResponse.toAssistantMessage (response : ModelResponse) : Message :=
  .assistant response.content response.toolCalls

structure ModelRequest where
  messages : List Message
  -- the names of the offered Tool definitions
  tools : List String

structure AgentProfile where
  id : String
  instructions : String
  tools : List String := []
  permissions : List String := []
  maxSteps : Nat := 10
  maxToolCalls : Nat := 50
  duplicateToolCallThreshold : Nat := 3
  maxConsecutiveToolFailures : Nat := 3
  maxToolResultBytes : Nat := 262144
  valid : 1 ≤ maxSteps ∧ 1 ≤ maxToolCalls ∧ 2 ≤ duplicateToolCallThreshold ∧
    1 ≤ maxConsecutiveToolFailures ∧ 512 ≤ maxToolResultBytes := by decide
  deriving DecidableEq, Repr

/-- The Tool calls of a response that a waiting Tool left undone. -/
structure SuspendedActionBatch where
  waitingCall : ToolCall
  remainingCalls : List ToolCall
  observations : List (ToolCall × ToolResult)
  response : ModelResponse

/-- What the built-in policies keep in `supervision_data`. -/
structure PolicyData where
  duplicateFingerprint : Option String := none
  duplicateCount : Nat := 0
  consecutiveToolFailures : Nat := 0
  deriving DecidableEq, Repr

inductive PlanningPhase where
  | planning | executing | updating | summarizing
  deriving DecidableEq, Repr

/-- The iterations of the step that is executed by ReAct. -/
structure ReActState where
  stepId : String
  iteration : Nat
  deriving DecidableEq, Repr

/-- What `PlanningStrategy` keeps in `supervision_data`. -/
structure PlanningState where
  phase : PlanningPhase
  promptAdded : Bool := false
  completedStepId : Option String := none
  react : Option ReActState := none
  deriving DecidableEq, Repr

/-- `supervision_data`, one field for each key. -/
structure SupervisionData where
  suspendedActionBatch : Option SuspendedActionBatch := none
  toolConfirmationDecision : Option ToolConfirmation := none
  policies : PolicyData := {}
  planning : Option PlanningState := none

/-- A selected Skill with the fields of its manifest. -/
structure Skill where
  name : String
  version : String
  description : String
  instructions : String
  allowedTools : List String
  deriving DecidableEq, Repr

structure RuntimeContext where
  runId : UUID
  profile : AgentProfile
  messages : List Message
  conversationId : Option UUID := none
  skills : List Skill := []
  enabledToolNames : List String := []
  state : RunStatus := .created
  stepCount : Nat := 0
  toolCallCount : Nat := 0
  usage : TokenUsage := {}
  responses : List ModelResponse := []
  output : Option String := none
  error : Option String := none
  supervision : SupervisionData := {}
  pendingInput : Option PendingInput := none
  plan : Option ExecutionPlan := none
  planningRequested : Bool := false
  inputText : String := ""
  memoryInitialized : Bool := false
  memoryError : Option String := none
  -- the names of the resources acquired in this execution, in order
  acquired : List String := []

/-- The stored Run.  `pendingInput`, `plan` and `modelCalls` are entries of its metadata, and
`interrupted` says that the metadata records an interruption. -/
structure Run where
  id : UUID
  profileId : String
  conversationId : Option UUID := none
  status : RunStatus := .created
  stepCount : Nat := 0
  toolCallCount : Nat := 0
  usage : TokenUsage := {}
  output : Option String := none
  error : Option String := none
  cancelRequested : Bool := false
  pendingInput : Option PendingInput := none
  plan : Option ExecutionPlan := none
  modelCalls : Nat := 0
  interrupted : Bool := false

/-- A checkpoint is made of a waiting context with pending input. -/
structure RuntimeCheckpoint where
  runId : UUID
  profile : AgentProfile
  messages : List Message
  conversationId : Option UUID := none
  skills : List Skill := []
  enabledToolNames : List String := []
  stepCount : Nat := 0
  toolCallCount : Nat := 0
  usage : TokenUsage := {}
  responses : List ModelResponse := []
  output : Option String := none
  error : Option String := none
  supervision : SupervisionData := {}
  pendingInput : PendingInput
  plan : Option ExecutionPlan := none
  planningRequested : Bool := false
  inputText : String := ""
  memoryInitialized : Bool := false
  memoryError : Option String := none

namespace RuntimeContext

/-- `_ALLOWED_TRANSITIONS`. -/
def allowed : RunStatus → RunStatus → Bool
  | .created, target => target ∈ [.running, .cancelled, .failed, .interrupted]
  | .running, target =>
    target ∈ [.completed, .failed, .cancelled, .interrupted, .limitReached, .waiting]
  | .waiting, target => target ∈ [.running, .cancelled, .failed, .interrupted]
  | _, _ => false

def transitionTo (context : RuntimeContext) (target : RunStatus) :
    Except RuntimeError RuntimeContext :=
  if allowed context.state target then .ok { context with state := target }
  else .error (.invalidTransition
    s!"invalid runtime transition: {context.state.value} -> {target.value}")

def append (context : RuntimeContext) (message : Message) : RuntimeContext :=
  { context with messages := context.messages ++ [message] }

/-- The Run that `save_context_snapshot` stores in place of `existing`. -/
def snapshot (context : RuntimeContext) (existing : Run) : Run :=
  { existing with
    status := context.state
    stepCount := context.stepCount
    toolCallCount := context.toolCallCount
    usage := context.usage
    output := context.output
    error := context.error
    pendingInput := context.pendingInput
    plan := context.plan
    modelCalls := context.responses.length
    interrupted := existing.interrupted || context.state = .interrupted }

end RuntimeContext

namespace RuntimeCheckpoint

def fromContext (context : RuntimeContext) : Except RuntimeError RuntimeCheckpoint :=
  match context.state, context.pendingInput with
  | .waiting, some pending =>
    .ok
      { runId := context.runId
        profile := context.profile
        messages := context.messages
        conversationId := context.conversationId
        skills := context.skills
        enabledToolNames := context.enabledToolNames
        stepCount := context.stepCount
        toolCallCount := context.toolCallCount
        usage := context.usage
        responses := context.responses
        output := context.output
        error := context.error
        supervision := context.supervision
        pendingInput := pending
        plan := context.plan
        planningRequested := context.planningRequested
        inputText := context.inputText
        memoryInitialized := context.memoryInitialized
        memoryError := context.memoryError }
  | _, _ =>
    .error (.value "only a waiting context with pending input can be checkpointed")

def restore (checkpoint : RuntimeCheckpoint) : RuntimeContext :=
  { runId := checkpoint.runId
    profile := checkpoint.profile
    messages := checkpoint.messages
    conversationId := checkpoint.conversationId
    skills := checkpoint.skills
    enabledToolNames := checkpoint.enabledToolNames
    state := .waiting
    stepCount := checkpoint.stepCount
    toolCallCount := checkpoint.toolCallCount
    usage := checkpoint.usage
    responses := checkpoint.responses
    output := checkpoint.output
    error := checkpoint.error
    supervision := checkpoint.supervision
    pendingInput := some checkpoint.pendingInput
    plan := checkpoint.plan
    planningRequested := checkpoint.planningRequested
    inputText := checkpoint.inputText
    memoryInitialized := checkpoint.memoryInitialized
    memoryError := checkpoint.memoryError }

/-- A checkpoint restores the context it was made from, without the resources. -/
theorem fromContext_ok {context : RuntimeContext} {checkpoint : RuntimeCheckpoint}
    (h : fromContext context = .ok checkpoint) :
    context.pendingInput = some checkpoint.pendingInput ∧
      checkpoint.restore = { context with acquired := [] } := by
  unfold fromContext at h
  split at h
  · rename_i pending hstate hpending
    cases h
    exact ⟨hpending, by simp [restore, hstate, hpending]⟩
  · cases h

end RuntimeCheckpoint

end Runtime
end BaseAgent

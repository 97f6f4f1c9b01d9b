import BaseAgent.Models.Run

/-!
# Flow definitions, handoffs and invocation payloads

The payloads a Flow strategy exchanges with its invoker.  A validated model is a
structure whose last field is what its validator established, so a value that
would have been rejected cannot be built.  Where the source builds a model from
values that may fail the validation, the constructor here returns `Except` with
the error the validation raises.
-/

namespace BaseAgent
namespace Flows

/-- What the modelled Flow code raises.  `other` is any exception of an invoker
that is neither a timeout nor a task cancellation. -/
inductive FlowError where
  | invalidTransition (message : String)
  | value (message : String)
  | validation (model field message : String)
  | unsupportedStrategy (message : String)
  | key (message : String)
  | revisionConflict (message : String)
  | alreadyExists (message : String)
  | notFound (message : String)
  | leaseLost (message : String)
  | leaseUnavailable (message : String)
  | workDeliveryLost (message : String)
  | workNotFound (message : String)
  | workBlocked (reasonCode : String)
  | workIdempotencyConflict (message : String)
  | workReviewConflict (message : String)
  | workReviewState (message : String)
  | definitionNotFound (message : String)
  | assertion
  | cancelled
  | other (typeName message : String)
  deriving DecidableEq, Repr

namespace FlowError

def typeName : FlowError → String
  | invalidTransition _ => "InvalidFlowTransitionError"
  | value _ => "ValueError"
  | validation _ _ _ => "ValidationError"
  | unsupportedStrategy _ => "UnsupportedFlowStrategyError"
  | key _ => "KeyError"
  | revisionConflict _ => "FlowRevisionConflictError"
  | alreadyExists _ => "FlowRunAlreadyExistsError"
  | notFound _ => "FlowRunNotFoundError"
  | leaseLost _ => "FlowLeaseLostError"
  | leaseUnavailable _ => "FlowLeaseUnavailableError"
  | workDeliveryLost _ => "FlowWorkDeliveryLostError"
  | workNotFound _ => "FlowWorkNotFoundError"
  | workBlocked _ => "FlowWorkBlockedError"
  | workIdempotencyConflict _ => "FlowWorkIdempotencyConflictError"
  | workReviewConflict _ => "FlowWorkReviewConflictError"
  | workReviewState _ => "FlowWorkReviewStateError"
  | definitionNotFound _ => "FlowDefinitionNotFoundError"
  | assertion => "AssertionError"
  | cancelled => "CancelledError"
  | other name _ => name

def text : FlowError → String
  | invalidTransition m | value m | unsupportedStrategy m | key m | revisionConflict m
  | alreadyExists m | notFound m | leaseLost m | leaseUnavailable m | workDeliveryLost m
  | workNotFound m | workBlocked m | workIdempotencyConflict m | workReviewConflict m
  | workReviewState m | definitionNotFound m | other _ m => m
  | validation model field m => s!"{model}.{field}: {m}"
  | assertion | cancelled => ""

-- `except ValueError`: validation errors and the unsupported strategy are subclasses.
def isValueError : FlowError → Bool
  | value _ | validation _ _ _ | unsupportedStrategy _ => true
  | _ => false

end FlowError

def keyStart (c : Char) : Bool := c.isAlphanum

def keyRest (c : Char) : Bool := c.isAlphanum || c == '_' || c == '.' || c == '-'

def validKey (key : String) : Bool :=
  match key.toList with
  | [] => false
  | c :: rest => keyStart c && rest.all keyRest && rest.length < 128

structure AgentDefinition where
  id : String
  version : String
  -- the SHA-256 digest of the definition's canonical JSON
  fingerprint : String
  deriving DecidableEq, Repr

structure FlowAgent where
  key : String
  definition : AgentDefinition
  deriving DecidableEq, Repr

structure FlowBudget where
  maxInvocations : Nat := 20
  maxInputTokens : Option Nat := none
  maxOutputTokens : Option Nat := none
  maxTotalTokens : Option Nat := none
  maxModelCalls : Option Nat := none
  maxToolCalls : Option Nat := none
  timeoutSeconds : Option ℚ := none
  deriving DecidableEq, Repr

def FlowBudget.Valid (b : FlowBudget) : Prop :=
  1 ≤ b.maxInvocations ∧ (∀ n ∈ b.maxInputTokens, 1 ≤ n) ∧ (∀ n ∈ b.maxOutputTokens, 1 ≤ n) ∧
    (∀ n ∈ b.maxTotalTokens, 1 ≤ n) ∧ (∀ n ∈ b.maxModelCalls, 1 ≤ n) ∧
    (∀ n ∈ b.maxToolCalls, 1 ≤ n) ∧ ∀ t ∈ b.timeoutSeconds, 0 < t

/-- A validated Flow definition: at least one Agent, and unique keys that fit the
key pattern. -/
structure FlowDefinition where
  id : String
  version : String
  agents : List FlowAgent
  strategy : String
  budget : FlowBudget := {}
  fingerprint : String
  valid : agents ≠ [] ∧ (agents.map (·.key)).Nodup ∧ (∀ a ∈ agents, validKey a.key = true) ∧
    budget.Valid

def soloDefinition : FlowDefinition :=
  { id := "flow", version := "1", agents := [⟨"writer", ⟨"writer", "1", ""⟩⟩]
    strategy := "sequential", fingerprint := ""
    valid := by
      refine ⟨by simp, by simp, ?_, ?_⟩
      · decide
      · simp [FlowBudget.Valid] }

def duoDefinition : FlowDefinition :=
  { id := "flow", version := "1"
    agents := [⟨"writer", ⟨"writer", "1", ""⟩⟩, ⟨"editor", ⟨"editor", "1", ""⟩⟩]
    strategy := "sequential", fingerprint := ""
    valid := by
      refine ⟨by simp, by simp, ?_, ?_⟩
      · decide
      · simp [FlowBudget.Valid] }

namespace FlowDefinition

def agent (d : FlowDefinition) (key : String) : Except FlowError AgentDefinition :=
  match d.agents.find? fun a => a.key == key with
  | some a => .ok a.definition
  | none => .error (.key s!"Flow '{d.id}' has no Agent named '{key}'")

end FlowDefinition

structure AgentHandoff where
  sourceAgentKey : String
  summary : String
  data : List (String × JsonValue) := []
  artifacts : List Artifact := []
  deriving Repr

structure AgentInvocationInput where
  prompt : String
  handoff : Option AgentHandoff := none
  attachments : List Attachment := []
  deriving Repr

structure FlowInput where
  prompt : String
  attachments : List Attachment := []
  deriving Repr

structure AgentInvocationRequest where
  flowRunId : UUID
  invocationId : UUID
  sequence : Nat
  agentKey : String
  definitionId : String
  definitionVersion : String
  definitionFingerprint : String
  input : AgentInvocationInput
  deriving Repr

/-- Build a request.  The Agent definition's own identifier pattern admits a
leading `_`, `.` or `-`, which the request's pattern rejects. -/
def AgentInvocationRequest.validate (r : AgentInvocationRequest) :
    Except FlowError AgentInvocationRequest :=
  if !validKey r.agentKey then
    .error (.validation "AgentInvocationRequest" "agent_key" "String should match pattern")
  else if !validKey r.definitionId then
    .error (.validation "AgentInvocationRequest" "definition_id" "String should match pattern")
  else .ok r

theorem AgentInvocationRequest.validate_ok {request checked : AgentInvocationRequest}
    (h : request.validate = .ok checked) : checked = request := by
  unfold AgentInvocationRequest.validate at h
  split at h
  · cases h
  · split at h
    · cases h
    · exact (Except.ok.inj h).symm

structure AgentInvocationResume where
  flowRunId : UUID
  invocationId : UUID
  agentKey : String
  userInput : Option String := none
  confirmation : Option ToolConfirmation := none
  deriving Repr

def AgentInvocationResume.validate (r : AgentInvocationResume) :
    Except FlowError AgentInvocationResume :=
  if r.userInput = some "" then
    .error (.validation "AgentInvocationResume" "user_input"
      "String should have at least 1 character")
  else if r.userInput.isNone = r.confirmation.isNone then
    .error (.validation "AgentInvocationResume" ""
      "AgentInvocationResume requires exactly one of user_input or confirmation")
  else .ok r

theorem AgentInvocationResume.validate_ok {request checked : AgentInvocationResume}
    (h : request.validate = .ok checked) : checked = request := by
  unfold AgentInvocationResume.validate at h
  split at h
  · cases h
  · split at h
    · cases h
    · exact (Except.ok.inj h).symm

structure AgentInvocationCancel where
  flowRunId : UUID
  invocationId : UUID
  agentKey : String
  reason : String
  deriving DecidableEq, Repr

structure AgentInvocationResult.Valid (status : AgentResultStatus) (artifacts : List Artifact)
    (pendingInput : Option PendingInput) (error : Option String) : Prop where
  unique : (artifacts.map (·.id)).Nodup
  pending : pendingInput.isSome = true ↔ status = .waiting
  explained : status.unsuccessful = true → ∃ e, error = some e ∧ e ≠ ""
  clean : status = .completed → error = none

theorem AgentInvocationResult.completed_valid : Valid .completed [] none none :=
  ⟨by simp, by simp, by simp [AgentResultStatus.unsuccessful], by simp⟩

theorem AgentInvocationResult.asking_valid :
    Valid .waiting [] (some { toolCallId := "call", toolName := "ask", prompt := "Which one?" })
      none :=
  ⟨by simp, by simp, by simp [AgentResultStatus.unsuccessful], by simp⟩

structure AgentInvocationResult where
  flowRunId : UUID
  invocationId : UUID
  agentKey : String
  status : AgentResultStatus
  output : Option String := none
  usage : TokenUsage := {}
  artifacts : List Artifact := []
  pendingInput : Option PendingInput := none
  error : Option String := none
  metadata : List (String × JsonValue) := []
  valid : AgentInvocationResult.Valid status artifacts pendingInput error

namespace AgentInvocationResult

/-- `_result_count`: an integer that is not a boolean, else zero. -/
def count (r : AgentInvocationResult) (key : String) : Int :=
  match JsonValue.lookup r.metadata key with
  | some (.int n) => n
  | _ => 0

end AgentInvocationResult

structure FlowResult where
  runId : UUID
  status : RunStatus
  output : Option String := none
  usage : TokenUsage := {}
  artifacts : List Artifact := []
  invocationCount : Nat
  modelCallCount : Int := 0
  toolCallCount : Int := 0
  waitingInvocationId : Option UUID := none
  pendingInput : Option PendingInput := none
  error : Option String := none
  deriving Repr

/-- The checks of `FlowResult`, in the order of its fields and its validator. -/
def FlowResult.validate (r : FlowResult) : Except FlowError FlowResult :=
  if r.modelCallCount < 0 then
    .error (.validation "FlowResult" "model_call_count"
      "Input should be greater than or equal to 0")
  else if r.toolCallCount < 0 then
    .error (.validation "FlowResult" "tool_call_count"
      "Input should be greater than or equal to 0")
  else if r.status = .waiting ∧ (r.waitingInvocationId.isNone ∨ r.pendingInput.isNone) then
    .error (.validation "FlowResult" ""
      "a waiting Flow result requires an invocation id and pending input")
  else if r.status ≠ .waiting ∧ (r.waitingInvocationId.isSome ∨ r.pendingInput.isSome) then
    .error (.validation "FlowResult" "" "only a waiting Flow result may include pending input")
  else if r.status.errorStatus = true ∧ r.error.getD "" = "" then
    .error (.validation "FlowResult" ""
      s!"a Flow result with status '{r.status.value}' requires an error")
  else if r.status = .completed ∧ r.error.isSome then
    .error (.validation "FlowResult" "" "a completed Flow result cannot include an error")
  else .ok r

theorem FlowResult.validate_ok {r checked : FlowResult} (h : r.validate = .ok checked) :
    checked = r := by
  unfold FlowResult.validate at h
  repeat (split at h; · cases h)
  exact (Except.ok.inj h).symm

end Flows
end BaseAgent

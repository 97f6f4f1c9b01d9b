import BaseAgent.Runtime.Protocol
import Mathlib.Data.List.Sort

/-!
# The Tool executor

`ToolExecutor.execute` checks that the call is allowed, that its Tool is registered and
its permissions are granted, validates the arguments, asks for the confirmation the
declared policy requires, brackets the call with the side-effect recorder, awaits the
function and turns whatever happens into a result.
-/

namespace BaseAgent
namespace Runtime

open Async

/-- An Agent, as far as its Runs read it.  The functions stand for library code: the
version-5 UUID of a confirmation request, the validation of a stored request (its
identifier when it is valid), the length of a result's JSON text and the canonical JSON
text of arguments. -/
structure Agent where
  profile : AgentProfile
  -- `model.name`
  providerName : String
  tools : List Tool
  -- `tool_registry.require(profile.tools)`
  registered : ∀ name ∈ profile.tools, ∃ tool ∈ tools, tool.name = name
  requestId : UUID → ToolCall → UUID
  validateRequest : JsonValue → Option UUID
  sizeBytes : ToolResult → Nat
  -- `side_effect_recorder is not None`
  recorder : Bool := false
  eagerResources : List String := []
  -- `some required` when a memory retriever is configured
  memory : Option Bool := none
  conversationHistoryLimit : Nat := 40

namespace ToolExecutor

variable (agent : Agent)

def get (name : String) : Option Tool := agent.tools.find? fun tool => tool.name == name

def require : List String → Except RuntimeError (List Tool)
  | [] => .ok []
  | name :: rest =>
    match get agent name with
    | none => .error (.toolNotFound s!"tool '{name}' is not registered")
    | some tool => (require rest).map (tool :: ·)

def enforce (result : ToolResult) : ToolResult :=
  let size := agent.sizeBytes result
  if size ≤ agent.profile.maxToolResultBytes then result
  else
    { toolName := result.toolName
      status := .error
      data := .obj [("original_size_bytes", .int size),
        ("limit_bytes", .int agent.profile.maxToolResultBytes),
        ("original_status", .str result.status.value), ("overflow_action", .str "rejected")]
      errorCode := some "tool_result_too_large"
      message := some "Tool result exceeded the configured size limit" }

def refused (call : ToolCall) (status : ToolResultStatus) (errorCode message : String) :
    ToolResult :=
  { toolName := call.name, status := status, errorCode := some errorCode, message := some message }

def failureResult (tool : Tool) (call : ToolCall) : ToolFailure → ToolResult
  | .invalidArguments message => refused call .invalidArguments "invalid_arguments" message
  | .replayUnsafe =>
    refused call .denied "side_effect_replay_unsafe" "Tool replay requires operator review"
  | .recorder =>
    refused call .error "side_effect_evidence_error"
      "Tool side-effect evidence could not be recorded"
  | .timeout =>
    refused call .timeout "tool_timeout"
      s!"tool exceeded timeout of {formatG tool.timeoutSeconds} seconds"
  | .other message => refused call .error "tool_execution_error" message

/-- The result of `WaitForInput`. -/
def waitingResult (call : ToolCall) (prompt : String) (metadata : List (String × JsonValue)) :
    ToolResult :=
  { toolName := call.name
    status := .waiting
    data := .obj [("prompt", .str prompt), ("metadata", .obj metadata)]
    message := some prompt }

def confirmationPrompt (call : ToolCall) : String := s!"Approve execution of Tool '{call.name}'?"

def confirmationMetadata (runId : UUID) (tool : Tool) (call : ToolCall) :
    List (String × JsonValue) :=
  [("kind", .str "tool_confirmation"),
    ("request", .obj [("id", .uuid (agent.requestId runId call)), ("tool_call_id", .str call.id),
      ("tool_name", .str call.name), ("side_effect_mode", .str tool.sideEffectMode.value),
      ("prompt", .str (confirmationPrompt call))])]

/-- The result that stands in the way of a call that needs a confirmation, if any. -/
def confirmationGate (runId : UUID) (tool : Tool) (call : ToolCall)
    (confirmation : Option ToolConfirmation) : Option ToolResult :=
  if tool.confirmationRequired then
    match confirmation with
    | none =>
      some (waitingResult call (confirmationPrompt call)
        (confirmationMetadata agent runId tool call))
    | some confirmation =>
      if confirmation.requestId ≠ agent.requestId runId call then
        some (refused call .denied "tool_confirmation_mismatch"
          "Tool confirmation targets another request")
      else if confirmation.decision = .reject then
        some (refused call .denied "tool_confirmation_rejected" "Tool execution was rejected")
      else none
  else none

def missingPermissions (tool : Tool) : List String :=
  (tool.permissions.dedup.filter (· ∉ agent.profile.permissions)).insertionSort (· ≤ ·)

/-- The checks before the `try` block. -/
def precheck (context : RuntimeContext) (call : ToolCall) : Except ToolResult Tool :=
  if call.name ∉ context.enabledToolNames then
    .error (refused call .denied "tool_not_allowed"
      s!"tool '{call.name}' is not allowed in this execution")
  else
    match get agent call.name with
    | none =>
      .error (refused call .notFound "tool_not_found" s!"tool '{call.name}' is not registered")
    | some tool =>
      let missing := missingPermissions agent tool
      if missing.isEmpty then .ok tool
      else .error (refused call .denied "permission_denied"
        ("missing tool permissions: " ++ String.intercalate ", " missing))

def governed (tool : Tool) : Bool :=
  agent.recorder && (tool.sideEffectMode = .unsafeEffect || tool.sideEffectMode = .idempotent)

/-- A result, or nothing when the task was interrupted, with the resources acquired. -/
abbrev Executed := Option ToolResult × List String

/-- The receipt of a governed call is confirmed before its value is serialized. -/
def confirmReceipt (context : RuntimeContext) (tool : Tool) (call : ToolCall)
    (result : ToolResult) (acquired : List String) : ContextProg Executed :=
  if governed agent tool then
    .call (.recorderConfirm context.runId call) fun
      | .receipt => .ret (some result, acquired)
      | .raised failure => .ret (some (failureResult tool call failure), acquired)
      | .interrupted => .ret (none, acquired)
  else .ret (some result, acquired)

def invoke (context : RuntimeContext) (remaining : Nat) (tool : Tool) (call : ToolCall)
    (arguments : List (String × JsonValue)) (confirmation : Option ToolConfirmation) :
    ContextProg Executed :=
  let place : Occurrence := ⟨context.runId, context.responses.length, remaining⟩
  .call (.invoke place tool call arguments confirmation) fun invocation =>
    match invocation.outcome with
    | .value data =>
      confirmReceipt agent context tool call
        { toolName := call.name, status := .success, data := data } invocation.acquired
    | .unserializable message =>
      confirmReceipt agent context tool call (failureResult tool call (.other message))
        invocation.acquired
    | .waitForInput prompt metadata =>
      .ret (some (waitingResult call prompt metadata), invocation.acquired)
    | .raised failure => .ret (some (failureResult tool call failure), invocation.acquired)
    | .interrupted => .ret (none, invocation.acquired)

def bracket (context : RuntimeContext) (remaining : Nat) (tool : Tool) (call : ToolCall)
    (arguments : List (String × JsonValue)) (confirmation : Option ToolConfirmation) :
    ContextProg Executed :=
  if governed agent tool then
    if tool.sideEffectMode = .idempotent ∧ tool.contextual = false then
      .ret (some (failureResult tool call .recorder), [])
    else
      .call (.recorderStart context.runId call tool.sideEffectMode) fun
        | .receipt => invoke agent context remaining tool call arguments confirmation
        | .raised failure => .ret (some (failureResult tool call failure), [])
        | .interrupted => .ret (none, [])
  else invoke agent context remaining tool call arguments confirmation

def executeUnbounded (context : RuntimeContext) (call : ToolCall) (remaining : Nat)
    (confirmation : Option ToolConfirmation) : ContextProg Executed :=
  match precheck agent context call with
  | .error result => .ret (some result, [])
  | .ok tool =>
    match tool.validateArguments call.arguments with
    | .error failure => .ret (some (failureResult tool call failure), [])
    | .ok arguments =>
      match confirmationGate agent context.runId tool call confirmation with
      | some result => .ret (some result, [])
      | none => bracket agent context remaining tool call arguments confirmation

def execute (context : RuntimeContext) (call : ToolCall) (remaining : Nat)
    (confirmation : Option ToolConfirmation) : ContextProg Executed :=
  (executeUnbounded agent context call remaining confirmation).bind fun executed =>
    .ret (executed.1.map (enforce agent), executed.2)

end ToolExecutor

end Runtime
end BaseAgent

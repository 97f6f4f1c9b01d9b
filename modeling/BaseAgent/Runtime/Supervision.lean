import BaseAgent.Runtime.Models

/-!
# Supervision

A supervisor decides at three hooks of an execution whether it continues, is redirected
with a message to the model, or stops.  The built-in policies keep their data in the
context, and `defaultSupervisor` asks them in order and takes the first intervention.
-/

namespace BaseAgent
namespace Runtime

inductive StopStatus where
  | failed | cancelled | limitReached
  deriving DecidableEq, Repr

def StopStatus.runStatus : StopStatus → RunStatus
  | failed => .failed
  | cancelled => .cancelled
  | limitReached => .limitReached

inductive SupervisionDecision where
  | continue_
  | redirect (reason message : String)
  | stop (reason : String) (message : Option String) (status : StopStatus)
  deriving DecidableEq, Repr

namespace SupervisionDecision

/-- `action is not SupervisionAction.CONTINUE`. -/
def intervenes : SupervisionDecision → Bool
  | continue_ => false
  | _ => true

/-- `action is SupervisionAction.STOP`. -/
def stops : SupervisionDecision → Bool
  | stop _ _ _ => true
  | _ => false

theorem eq_continue_of_intervenes {d : SupervisionDecision} (h : d.intervenes = false) :
    d = continue_ := by
  cases d with
  | continue_ => rfl
  | redirect reason message => cases h
  | stop reason message status => cases h

theorem eq_redirect_of_intervenes {d : SupervisionDecision} (h : d.intervenes = true)
    (hs : d.stops = false) : ∃ reason message, d = redirect reason message := by
  cases d with
  | continue_ => cases h
  | redirect reason message => exact ⟨reason, message, rfl⟩
  | stop reason message status => cases hs

end SupervisionDecision

/-- What a hook returns: the decision, and the policies' data it leaves in the context. -/
abbrev Hook := Except Failure (SupervisionDecision × PolicyData)

/-- A supervisor.  Its answers may depend on everything that happened before, and so on
the number of the step. -/
structure Supervisor where
  beforeModel : Nat → RuntimeContext → Hook
  beforeTool : Nat → RuntimeContext → ToolCall → Hook
  afterTool : Nat → RuntimeContext → ToolCall → ToolResult → Hook

namespace ExecutionBudget

def beforeModel (context : RuntimeContext) : SupervisionDecision :=
  if context.stepCount ≥ context.profile.maxSteps then
    .stop s!"maximum model steps reached ({context.profile.maxSteps})" none .limitReached
  else .continue_

def beforeTool (context : RuntimeContext) : SupervisionDecision :=
  if context.toolCallCount ≥ context.profile.maxToolCalls then
    .stop s!"maximum tool calls reached ({context.profile.maxToolCalls})" none .limitReached
  else .continue_

end ExecutionBudget

namespace DuplicateToolCallDetector

def message : String :=
  "The same tool call has been repeated without enough progress. " ++
    "Do not repeat it again; inspect prior observations and choose a new strategy."

/-- The count of the call `fingerprint` identifies is kept as long as no other call comes
between. -/
def beforeTool (context : RuntimeContext) (fingerprint : String) :
    SupervisionDecision × PolicyData :=
  let data := context.supervision.policies
  let count := if data.duplicateFingerprint = some fingerprint then data.duplicateCount + 1 else 1
  let updated := { data with duplicateFingerprint := some fingerprint, duplicateCount := count }
  if count ≥ context.profile.duplicateToolCallThreshold then
    (.redirect s!"repeated identical tool call detected ({count} times)" message, updated)
  else (.continue_, updated)

end DuplicateToolCallDetector

namespace NoProgressDetector

def message : String :=
  "Multiple tool attempts have failed. Review the error observations, " ++
    "change the approach, and avoid issuing another equivalent call."

def afterTool (context : RuntimeContext) (result : ToolResult) :
    SupervisionDecision × PolicyData :=
  let data := context.supervision.policies
  if result.status = .success then (.continue_, { data with consecutiveToolFailures := 0 })
  else
    let count := data.consecutiveToolFailures + 1
    let updated := { data with consecutiveToolFailures := count }
    if count ≥ context.profile.maxConsecutiveToolFailures then
      (.redirect s!"consecutive tool failures detected ({count})" message, updated)
    else (.continue_, updated)

end NoProgressDetector

/-- `build_default_supervisor`.  `dumps` is the canonical JSON text of a call's
arguments. -/
def defaultSupervisor (dumps : List (String × JsonValue) → String) : Supervisor where
  beforeModel _ context := .ok (ExecutionBudget.beforeModel context, context.supervision.policies)
  beforeTool _ context call :=
    match ExecutionBudget.beforeTool context with
    | .continue_ =>
      .ok (DuplicateToolCallDetector.beforeTool context s!"{call.name}:{dumps call.arguments}")
    | decision => .ok (decision, context.supervision.policies)
  afterTool _ context _ result := .ok (NoProgressDetector.afterTool context result)

end Runtime
end BaseAgent

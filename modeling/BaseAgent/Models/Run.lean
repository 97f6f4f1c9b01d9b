import BaseAgent.Models.Python

/-!
# Statuses, events and payloads shared by Runs and Flows
-/

namespace BaseAgent

inductive RunStatus where
  | created | running | completed | failed | cancelled | interrupted | limitReached | waiting
  deriving DecidableEq, Repr

namespace RunStatus

def value : RunStatus → String
  | created => "created"
  | running => "running"
  | completed => "completed"
  | failed => "failed"
  | cancelled => "cancelled"
  | interrupted => "interrupted"
  | limitReached => "limit_reached"
  | waiting => "waiting"

/-- Membership in the sets of terminal statuses, which every module declares
with the same five members. -/
def terminal : RunStatus → Bool
  | completed | failed | cancelled | interrupted | limitReached => true
  | created | running | waiting => false

/-- The terminal statuses other than `completed`. -/
def errorStatus : RunStatus → Bool
  | failed | cancelled | interrupted | limitReached => true
  | created | running | completed | waiting => false

theorem terminal_of_errorStatus {s : RunStatus} (h : s.errorStatus = true) :
    s.terminal = true := by
  cases s <;> simp_all [errorStatus, terminal]

end RunStatus

inductive AgentResultStatus where
  | completed | failed | cancelled | interrupted | limitReached | waiting
  deriving DecidableEq, Repr

namespace AgentResultStatus

/-- `_RESULT_TO_RUN_STATUS`. -/
def toRunStatus : AgentResultStatus → RunStatus
  | completed => .completed
  | failed => .failed
  | cancelled => .cancelled
  | interrupted => .interrupted
  | limitReached => .limitReached
  | waiting => .waiting

def value (s : AgentResultStatus) : String := s.toRunStatus.value

def unsuccessful : AgentResultStatus → Bool
  | failed | cancelled | interrupted | limitReached => true
  | completed | waiting => false

theorem toRunStatus_waiting {s : AgentResultStatus} :
    s.toRunStatus = .waiting ↔ s = .waiting := by
  cases s <;> simp [toRunStatus]

end AgentResultStatus

/-- Provider-reported usage.  `total_tokens` is always the sum of the two. -/
structure TokenUsage where
  inputTokens : Nat := 0
  outputTokens : Nat := 0
  deriving DecidableEq, Repr

namespace TokenUsage

def totalTokens (u : TokenUsage) : Nat := u.inputTokens + u.outputTokens

instance : Add TokenUsage where
  add a b := ⟨a.inputTokens + b.inputTokens, a.outputTokens + b.outputTokens⟩

end TokenUsage

/-- A JSON value.  A string that is the text of a UUID or of a `datetime` is kept as
that UUID or point in time. -/
inductive JsonValue where
  | null
  | bool (value : Bool)
  | int (value : Int)
  | float (value : ℚ)
  | str (value : String)
  | uuid (value : UUID)
  | time (value : Time)
  | list (items : List JsonValue)
  | obj (fields : List (String × JsonValue))
  deriving Repr

namespace JsonValue

/-- `fields.get(key)` of a dictionary. -/
def lookup (fields : List (String × JsonValue)) (key : String) : Option JsonValue :=
  (fields.find? fun field => field.1 == key).map (·.2)

/-- The number a value is equal to, where it is one: `True == 1 == 1.0`. -/
def number : JsonValue → Option ℚ
  | bool value => some (if value then 1 else 0)
  | int value => some value
  | float value => some value
  | _ => none

mutual

/-- `a == b`.  Dictionaries are equal in any order of their keys. -/
def equal : JsonValue → JsonValue → Bool
  | null, null => true
  | str a, str b => a == b
  | uuid a, uuid b => a == b
  | time a, time b => a == b
  | list a, list b => equalItems a b
  | obj a, obj b => a.length == b.length && equalFields a b
  | a, b => a.number.isSome && a.number == b.number

def equalItems : List JsonValue → List JsonValue → Bool
  | [], [] => true
  | a :: as, b :: bs => equal a b && equalItems as bs
  | _, _ => false

def equalFields : List (String × JsonValue) → List (String × JsonValue) → Bool
  | [], _ => true
  | (key, a) :: rest, fields =>
    (match lookup fields key with
      | some b => equal a b
      | none => false) && equalFields rest fields

end

end JsonValue

inductive EventType where
  | flowCreated | flowStarted | flowResumed | flowWaiting
  | flowCompleted | flowFailed | flowCancelled | flowInterrupted | flowLimitReached
  | agentInvocationStarted | agentInvocationResumed | agentInvocationWaiting
  | agentInvocationCompleted | agentInvocationFailed | agentInvocationCancelled
  | agentInvocationInterrupted | agentInvocationLimitReached
  | agentInvocationCancellationPropagationFailed
  | runCreated | runStarted | runResumed
  | skillSelected | skillLoaded
  | modelRequested | modelResponded
  | toolRequested | toolStarted | toolCompleted | toolFailed | toolWaiting
  | toolConfirmationRequested | toolConfirmationDecided
  | inputReceived
  | planCreated | planReviewed | planUpdated
  | stepStarted | stepResumed | stepWaiting | stepCompleted | stepFailed | stepCancelled
  | stepSkipped
  | reactIterationStarted | reactActionBatchSelected | reactObservationBatchRecorded
  | reactIterationCompleted
  | resourceAcquired | resourceReleased | resourceFailed
  | attachmentAdded | artifactCreated
  | memoryRetrieved | memoryFailed
  | supervisorIntervened
  | runCompleted | runFailed | runCancelled | runInterrupted | runLimitReached | runWaiting
  deriving DecidableEq, Repr

/-- A produced file, known to the models by its identity. -/
structure Artifact where
  id : UUID
  name : String := ""
  deriving DecidableEq, Repr

/-- A supplied file, known to the models by its identity. -/
structure Attachment where
  id : UUID
  name : String := ""
  deriving DecidableEq, Repr

/-- The Tool call that must be completed when a Run resumes. -/
structure PendingInput where
  toolCallId : String
  toolName : String
  prompt : String
  metadata : List (String × JsonValue) := []
  deriving Repr

inductive ToolConfirmationDecision where
  | approve | reject
  deriving DecidableEq, Repr

/-- The host's decision on one confirmation request. -/
structure ToolConfirmation where
  requestId : UUID
  decision : ToolConfirmationDecision
  subjectId : String
  reasonCode : String
  decidedAt : Time := 0
  deriving DecidableEq, Repr

end BaseAgent

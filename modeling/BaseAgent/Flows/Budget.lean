import BaseAgent.Flows.Lifecycle

/-!
# Flow-wide budgets

The policy measures the persisted consumption of a Flow and says whether a limit
was reached.  The measurement is a validated model of its own: a negative count in
an Agent's metadata makes it raise.
-/

namespace BaseAgent
namespace Flows

inductive FlowBudgetKind where
  | invocations | inputTokens | outputTokens | totalTokens | modelCalls | toolCalls
  | timeoutSeconds
  deriving DecidableEq, Repr

def FlowBudgetKind.value : FlowBudgetKind → String
  | invocations => "invocations"
  | inputTokens => "input_tokens"
  | outputTokens => "output_tokens"
  | totalTokens => "total_tokens"
  | modelCalls => "model_calls"
  | toolCalls => "tool_calls"
  | timeoutSeconds => "timeout_seconds"

structure FlowConsumption where
  invocations : Nat
  inputTokens : Nat
  outputTokens : Nat
  totalTokens : Nat
  modelCalls : Int
  toolCalls : Int
  elapsedSeconds : ℚ
  deriving DecidableEq, Repr

structure FlowBudgetExceeded where
  kind : FlowBudgetKind
  limit : ℚ
  actual : ℚ
  deriving DecidableEq, Repr

namespace FlowBudgetExceeded

def message (v : FlowBudgetExceeded) : String :=
  s!"Flow budget '{v.kind.value}' reached: " ++
    s!"limit={formatG v.limit}, actual={formatG v.actual}"

def dump (v : FlowBudgetExceeded) : JsonValue :=
  .obj [("kind", .str v.kind.value), ("limit", .float v.limit), ("actual", .float v.actual)]

end FlowBudgetExceeded

namespace FlowBudgetPolicy

def consumption (s : FlowRunState) (now : Time) : Except FlowError FlowConsumption := do
  raiseIf (s.modelCallCount < 0) (.validation "FlowConsumption" "model_calls"
    "Input should be greater than or equal to 0")
  raiseIf (s.toolCallCount < 0) (.validation "FlowConsumption" "tool_calls"
    "Input should be greater than or equal to 0")
  return {
    invocations := s.invocations.length
    inputTokens := s.usage.inputTokens
    outputTokens := s.usage.outputTokens
    totalTokens := s.usage.totalTokens
    modelCalls := s.modelCallCount
    toolCalls := s.toolCallCount
    elapsedSeconds := max 0 (totalSeconds (now - s.createdAt)) }

def timeoutViolation (s : FlowRunState) (c : FlowConsumption) :
    Except FlowError (Option FlowBudgetExceeded) := do
  let limit ← orRaise s.budget.timeoutSeconds .assertion
  return some ⟨.timeoutSeconds, limit, c.elapsedSeconds⟩

/-- The configured limits with what they bound, in the order they are checked. -/
def configured (s : FlowRunState) (c : FlowConsumption) :
    List (FlowBudgetKind × Option Nat × Int) :=
  [(.inputTokens, s.budget.maxInputTokens, c.inputTokens),
    (.outputTokens, s.budget.maxOutputTokens, c.outputTokens),
    (.totalTokens, s.budget.maxTotalTokens, c.totalTokens),
    (.modelCalls, s.budget.maxModelCalls, c.modelCalls),
    (.toolCalls, s.budget.maxToolCalls, c.toolCalls)]

/-- `_cumulative_violation`: the first limit that is reached, or exceeded when the
comparison is not inclusive. -/
def cumulativeViolation (s : FlowRunState) (c : FlowConsumption) (inclusive : Bool) :
    Option FlowBudgetExceeded :=
  (configured s c).findSome? fun (kind, limit, actual) =>
    match limit with
    | none => none
    | some limit =>
      if if inclusive then (limit : Int) ≤ actual else (limit : Int) < actual then
        some ⟨kind, limit, actual⟩
      else none

def pastDeadline (s : FlowRunState) (now : Time) : Bool :=
  match s.deadlineAt with
  | some deadline => decide (deadline ≤ now)
  | none => false

def beforeTransport (s : FlowRunState) (now : Time) (newInvocation : Bool) :
    Except FlowError (Option FlowBudgetExceeded) := do
  let c ← consumption s now
  if pastDeadline s now then timeoutViolation s c
  else if newInvocation ∧ s.budget.maxInvocations ≤ c.invocations then
    return some ⟨.invocations, s.budget.maxInvocations, c.invocations⟩
  else return cumulativeViolation s c true

def afterTransport (s : FlowRunState) (now : Time) :
    Except FlowError (Option FlowBudgetExceeded) := do
  let c ← consumption s now
  if pastDeadline s now then timeoutViolation s c
  else return cumulativeViolation s c false

def remainingSeconds (s : FlowRunState) (now : Time) : Option ℚ :=
  s.deadlineAt.map fun deadline => max 0 (totalSeconds (deadline - now))

end FlowBudgetPolicy

end Flows
end BaseAgent

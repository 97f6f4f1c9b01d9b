import BaseAgent.Planning.Strategy
import BaseAgent.Runtime.Handle

/-!
# Executing a Run with either strategy

`AgentRuntime` picks the strategy of an execution by its context: a context with a plan, or
one that asks for planning, goes to the planning strategy if there is one.  An execution by
`PlanningStrategy` settles its plan once more when the loop has ended.

The functions below are those of `Runtime/Engine.lean` and `Runtime/Handle.lean`, with the
strategy as a parameter and with the plan of the Run.
-/

namespace BaseAgent
namespace Runtime

open Async

inductive OrchestrationStrategy where
  | modelTool
  | planning (strategy : PlanningStrategy)

namespace OrchestrationStrategy

variable (agent : Agent)

def advance (context : RuntimeContext) : OrchestrationStrategy → ContextProg RuntimeContext
  | modelTool => ModelToolStrategy.advance agent context
  | planning strategy => strategy.advance agent context

/-- `if isinstance(active_strategy, PlanningStrategy): await active_strategy.settle(...)`. -/
def settle (context : RuntimeContext) : OrchestrationStrategy → ContextProg RuntimeContext
  | modelTool => .ret context
  | planning _ => PlanningStrategy.settleTerminalPlan context

end OrchestrationStrategy

structure PlanningAgent where
  agent : Agent
  strategy : OrchestrationStrategy
  planningStrategy : Option OrchestrationStrategy

namespace PlanningAgent

variable (p : PlanningAgent)

/-- `active_strategy`. -/
def active (context : RuntimeContext) : OrchestrationStrategy :=
  if context.plan.isSome || context.planningRequested then p.planningStrategy.getD p.strategy
  else p.strategy

/-- The loop of `execute`. -/
def loop (strategy : OrchestrationStrategy) : Nat → RuntimeContext → ContextProg RuntimeContext
  | 0, context => if context.state = .running then .raise (.exhausted, context) else .ret context
  | fuel + 1, context =>
    if context.state = .running then do
      match ← ModelToolStrategy.cancelIfRequested context with
      | some cancelled => return cancelled
      | none =>
        .call (.beforeModel context) fun reply => do
          let (decision, context) ← hooked context reply
          let context ← AgentRuntime.supervised context decision
          if context.state = .running then
            (strategy.advance p.agent context).bind (loop strategy fuel)
          else return context
    else return context

/-- The `try` block. -/
def body (strategy : OrchestrationStrategy) (fuel : Nat) (context : RuntimeContext) :
    ContextProg RuntimeContext := do
  let context ← AgentRuntime.startResources p.agent.eagerResources context
  let context ← AgentRuntime.initializeMemory p.agent context
  p.loop strategy fuel context

/-- What follows the `try` statement. -/
def conclude (strategy : OrchestrationStrategy) (context : RuntimeContext) (interrupted : Bool) :
    RuntimeProg AgentResult :=
  (uncontexted (strategy.settle context)).bind fun context =>
    AgentRuntime.conclude context interrupted

/-- The `try` statement. -/
def guarded (strategy : OrchestrationStrategy) (fuel : Nat) (context : RuntimeContext) :
    RuntimeProg AgentResult :=
  (p.body strategy fuel context).attempt.bind fun
    | .ok context => AgentRuntime.closing context (conclude strategy context false)
    | .error (e, context) =>
      (AgentRuntime.recover context e).attempt.bind fun
        | .ok context => AgentRuntime.closing context (conclude strategy context (e = .cancelled))
        | .error (e, context) =>
          if e = .exhausted then .raise .exhausted else AgentRuntime.closing context (.raise e)

/-- `_create_run`, which announces the plan after the Skills. -/
def createRun (context : RuntimeContext) : ContextProg Unit := do
  AgentRuntime.createRun context
  if context.plan.isSome then emit context .planCreated else .ret ()

def started (context : RuntimeContext) : ContextProg RuntimeContext :=
  if context.state = .created then transitionTo context .running else .ret context

def start (context : RuntimeContext) : ContextProg RuntimeContext := do
  createRun context
  let context ← started context
  saveContextSnapshot context
  emit context .runStarted
  return context

/-- What `execute` does before its `try` statement. -/
def enter (context : RuntimeContext) (resumeInput : Option String)
    (confirmation : Option ToolConfirmation) : ContextProg RuntimeContext :=
  match context.state with
  | .created | .running => start context
  | .waiting => AgentRuntime.prepareResume p.agent context resumeInput confirmation
  | state =>
    .raise (.invalidTransition s!"cannot execute context in state {state.value}", context)

/-- `AgentRuntime.execute`.  The strategy is picked before the execution starts. -/
def execute (fuel : Nat) (context : RuntimeContext) (resumeInput : Option String)
    (confirmation : Option ToolConfirmation) : RuntimeProg AgentResult :=
  (uncontexted (p.enter context resumeInput confirmation)).bind
    (p.guarded (p.active context) fuel)

/-- `create_context` with a plan or a request for one. -/
def createContext (prompt : String) (runId : UUID) (conversationId : Option UUID)
    (history : List Message) (skills : List Skill) (plan : Option ExecutionPlan)
    (planning : Bool) : Except RuntimeError RuntimeContext :=
  if isBlank prompt then .error (.value "prompt must not be empty")
  else if plan.isSome && planning then
    .error (.value "plan and planning_requested cannot be used together")
  else
    (p.agent.createContext prompt runId conversationId history skills).map fun context =>
      { context with plan := plan, planningRequested := planning }

end PlanningAgent

/-! ## A small planner -/

def plainPlanner : PlanningStrategy where
  codec :=
    { loads := fun _ => .error (.invalid "no JSON")
      planFields := fun _ => .error (.invalid "no plan")
      stepFields := fun _ => .error (.invalid "no step")
      reactFields := fun _ => .error (.invalid "no result")
      explain := fun message => message
      toInt := fun _ => .ok 0
      toStr := fun _ => ""
      dumps := fun _ => ""
      dumpPlan := fun _ => ""
      dumpStep := fun _ => ""
      description := fun _ => "" }
  summarize := false
  replanAfterStep := false

/-- An Agent that executes plans by `plainPlanner`. -/
def planningAgent (tools : List Tool) : PlanningAgent where
  agent := plainAgent tools
  strategy := .modelTool
  planningStrategy := some (.planning plainPlanner)

def twoSteps : ExecutionPlan where
  id := "trip"
  title := "Trip"
  steps :=
    [{ id := "book", description := "Book." },
      { id := "pack", description := "Pack.", dependencies := ["book"] }]

/-- The context of a Run that executes `twoSteps`. -/
def tripContext (tools : List Tool) : RuntimeContext where
  runId := 0
  profile := (plainAgent tools).profile
  messages := [.system "Answer.", .user "Go."]
  enabledToolNames := tools.map (·.name)
  plan := some twoSteps
  inputText := "Go."

end Runtime
end BaseAgent

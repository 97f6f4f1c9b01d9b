import BaseAgent.Planning.Hooks
import BaseAgent.Planning.Plans

/-!
# The planning strategy

`PlanningStrategy` executes a plan: the model writes the plan, executes it step by step, may
rewrite the steps that are left after each one, and sums up the results.  The phase in
`supervision_data` says which of these its next response is read as.

`PlanCodec` stands for library code: JSON, the field validation of the plan models, and the
conversions to text and to integers.  The validators that the source declares itself run on
what the field validation lets through.
-/

namespace BaseAgent
namespace Runtime

open Async

/-- What reading a response as a plan raises: an error the strategy catches, or one it does
not. -/
inductive PlanFault where
  | invalid (message : String)
  | escaped (typeName message : String)
  deriving DecidableEq, Repr

structure ReActResult where
  success : Bool
  result : String
  attachments : List String := []
  deriving DecidableEq, Repr

structure PlanCodec where
  -- `json.loads`
  loads : String → Except PlanFault JsonValue
  -- the fields of `ExecutionPlan`, `PlanStep` and `ReActResult`
  planFields : List (String × JsonValue) → Except PlanFault ExecutionPlan
  stepFields : JsonValue → Except PlanFault PlanStep
  reactFields : List (String × JsonValue) → Except PlanFault ReActResult
  -- the text of the validation error with a validator's message
  explain : String → String
  -- `int(value)` and `str(value)`
  toInt : JsonValue → Except PlanFault Int
  toStr : JsonValue → String
  -- `json.dumps(value, ensure_ascii=False, default=str)` and `model_dump_json`
  dumps : JsonValue → String
  dumpPlan : ExecutionPlan → String
  dumpStep : PlanStep → String
  -- the description of a registered Tool
  description : String → String

theorem maxReactIterations_positive : 1 ≤ 20 := by decide

structure PlanningStrategy where
  codec : PlanCodec
  summarize : Bool := true
  replanAfterStep : Bool := true
  maxReactIterationsPerStep : Nat := 20
  positive : 1 ≤ maxReactIterationsPerStep := by
    first | exact maxReactIterations_positive | decide

def planRaise : PlanError → RuntimeError
  | .invalidTransition message => .other "InvalidPlanTransitionError" message
  | .value message => .value message
  | .unknownStep message => .other "KeyError" s!"\"{message}\""

def liftPlan (context : RuntimeContext) : Except PlanError ExecutionPlan →
    ContextProg ExecutionPlan
  | .ok plan => .ret plan
  | .error e => .raise (planRaise e, context)

/-! ## Replacing the plan of a context -/

def stepEvent (previous : ExecutionPlan) (step : PlanStep) : Option EventType :=
  match previous.statusOf step.id with
  | none => none
  | some old =>
    if old = step.status then none
    else
      match old, step.status with
      | .waiting, .running => some .stepResumed
      | _, .running => some .stepStarted
      | _, .waiting => some .stepWaiting
      | _, .completed => some .stepCompleted
      | _, .failed => some .stepFailed
      | _, .cancelled => some .stepCancelled
      | _, .skipped => some .stepSkipped
      | _, .pending => none

def emitSteps (context : RuntimeContext) (previous : ExecutionPlan) :
    List PlanStep → ContextProg Unit
  | [] => .ret ()
  | step :: rest =>
    match stepEvent previous step with
    | none => emitSteps context previous rest
    | some type => do
      emit context type
      emitSteps context previous rest

def emitPlan (context : RuntimeContext) (previous plan : ExecutionPlan) (emitPlanUpdated : Bool) :
    ContextProg Unit :=
  if emitPlanUpdated then do
    emit context .planUpdated
    emitSteps context previous plan.steps
  else emitSteps context previous plan.steps

def updateExecutionPlan (context : RuntimeContext) (plan : ExecutionPlan)
    (emitPlanUpdated : Bool) : ContextProg RuntimeContext :=
  match context.plan with
  | none => do
    let context := { context with plan := some plan }
    saveContextSnapshot context
    emit context .planCreated
    return context
  | some previous =>
    if previous.id ≠ plan.id then
      .raise (.value "a running context cannot replace its plan identity", context)
    else if plan.revision ≤ previous.revision then
      .raise (.value "an updated plan must have a newer revision", context)
    else do
      let context := { context with plan := some plan }
      saveContextSnapshot context
      emitPlan context previous plan emitPlanUpdated
      return context

def replacePlan (context : RuntimeContext) (plan : Except PlanError ExecutionPlan) :
    ContextProg RuntimeContext := do
  let plan ← liftPlan context plan
  updateExecutionPlan context plan false

namespace PlanningStrategy

variable (strategy : PlanningStrategy) (agent : Agent)

/-! ## Reading responses -/

def jsonText (content : String) : String :=
  let candidate := strip content
  if startsWith candidate "```" then
    let lines := splitlines candidate
    if 3 ≤ lines.length ∧ strip (lines.getLastD "") = "```" then
      let inner := String.intercalate "\n" lines.tail.dropLast
      if startsWith (lstrip inner) "json" then
        lstrip (String.ofList ((lstrip inner).toList.drop 4))
      else inner
    else candidate
  else candidate

def parseJsonObject (content : String) : Except PlanFault (List (String × JsonValue)) :=
  match strategy.codec.loads (jsonText content) with
  | .ok (.obj payload) => .ok payload
  | .ok _ => .error (.invalid "model response must be a JSON object")
  | .error e => .error e

/-- A declared validator, whose message the validation error reports. -/
def validator : Except String Unit → Except PlanFault Unit
  | .ok () => .ok ()
  | .error message => .error (.invalid (strategy.codec.explain message))

def validateSteps : List PlanStep → Except PlanFault Unit
  | [] => .ok ()
  | step :: rest =>
    (strategy.validator step.validateDependenciesAndFailure).bind fun _ => validateSteps rest

def modelValidate (payload : List (String × JsonValue)) : Except PlanFault ExecutionPlan :=
  (strategy.codec.planFields payload).bind fun plan =>
    (strategy.validateSteps plan.steps).bind fun _ =>
      (strategy.validator plan.validateGraph).bind fun _ => .ok plan

def parseGeneratedPlan (content providerName : String) : Except PlanFault ExecutionPlan :=
  (strategy.parseJsonObject content).bind fun payload =>
    (strategy.modelValidate payload).bind fun plan =>
      if plan.status ≠ .created then
        .error (.invalid "generated plan must start in created status")
      else if plan.steps.any fun step => step.status ≠ .pending then
        .error (.invalid "generated plan steps must start in pending status")
      else .ok
        { plan with
          metadata := dictMerge plan.metadata
            [("generated", .bool true), ("provider", .str providerName)] }

def parseSteps : List JsonValue → Except PlanFault (List PlanStep)
  | [] => .ok []
  | raw :: rest =>
    (strategy.codec.stepFields raw).bind fun step =>
      (strategy.validator step.validateDependenciesAndFailure).bind fun _ =>
        (parseSteps rest).map (step :: ·)

def parseReplannedSteps (content : String) : Except PlanFault (List PlanStep) :=
  (strategy.parseJsonObject content).bind fun payload =>
    match JsonValue.lookup payload "steps" with
    | some (.list raw) =>
      (strategy.parseSteps raw).bind fun steps =>
        if steps.any fun step => step.status ≠ .pending then
          .error (.invalid "updated plan steps must start in pending status")
        else .ok steps
    | _ => .error (.invalid "updated plan response must contain a JSON steps array")

def parseReactResult (content : String) : Except PlanFault ReActResult :=
  (strategy.parseJsonObject content).bind strategy.codec.reactFields

def validateExecutors (plan : ExecutionPlan) : Except String Unit :=
  let names := (plan.steps.filterMap (·.executor)).filter fun name =>
    name ≠ "model" ∧ name ≠ "react"
  if names.isEmpty then .ok ()
  else .error ("unsupported plan step executors: " ++
    String.intercalate ", " (names.dedup.insertionSort (· ≤ ·)) ++
    "; built-in PlanningStrategy supports 'model' or 'react'")

def supported (plan : ExecutionPlan) : Except PlanFault ExecutionPlan :=
  match validateExecutors plan with
  | .ok () => .ok plan
  | .error message => .error (.invalid message)

def futureStepsUnchanged (plan : ExecutionPlan) (futureSteps : List PlanStep) : Bool :=
  let current := plan.steps.filter fun step => step.status = .pending
  current.length == futureSteps.length &&
    (current.zip futureSteps).all fun pair => pair.1.equal pair.2

/-- `_merge_replanned_steps`.  The validation keeps the steps it is given, so the comparison
of every settled step with the retained one finds no difference. -/
def mergeReplannedSteps (plan : ExecutionPlan) (futureSteps : List PlanStep) :
    Except PlanFault ExecutionPlan :=
  if plan.history.any fun step => step.status = .completed then
    (strategy.codec.toInt ((JsonValue.lookup plan.metadata "replan_count").getD (.int 0))).bind
      fun count =>
        let updated := plan.merged futureSteps count
        (strategy.validator updated.validateGraph).bind fun _ => .ok updated
  else .error (.invalid "updated plan requires at least one completed historical step")

def replanned (plan : ExecutionPlan) (content : String) :
    Except PlanFault (ExecutionPlan × Bool) :=
  (strategy.parseReplannedSteps content).bind fun futureSteps =>
    if futureStepsUnchanged plan futureSteps then
      (supported plan).map fun plan => (plan, false)
    else
      (strategy.mergeReplannedSteps plan futureSteps).bind fun updated =>
        (supported updated).map fun updated => (updated, true)

/-! ## Prompts -/

def lines (texts : List String) : String := String.intercalate "\n" texts

def capabilities (context : RuntimeContext) : Except RuntimeError String :=
  (ModelToolStrategy.toolDefinitions agent context).map fun names =>
    strategy.codec.dumps (.list (names.map fun name =>
      .obj [("name", .str name), ("description", .str (strategy.codec.description name))]))

def dependencyResults (plan : ExecutionPlan) (step : PlanStep) : String :=
  let dependencies := plan.steps.filter fun item => item.id ∈ step.dependencies
  if dependencies.isEmpty then "Completed dependency results: none"
  else
    "Completed dependency results: " ++ strategy.codec.dumps (.list (dependencies.map fun item =>
      .obj [("id", .str item.id), ("description", .str item.description),
        ("result", item.result)]))

def stepPrompt (context : RuntimeContext) (plan : ExecutionPlan) (step : PlanStep) : String :=
  lines
    ["Execute exactly one step from the active plan.",
      s!"Original task: {context.inputText}",
      s!"Plan: {plan.title}",
      s!"Current step [{step.id}]: {step.description}",
      strategy.dependencyResults plan step,
      "Use the available tools when needed. Finish this step only, then return its concrete " ++
        "result."]

def reactStepPrompt (context : RuntimeContext) (plan : ExecutionPlan) (step : PlanStep) :
    String :=
  lines
    ["Execute one plan step with a ReAct loop.",
      s!"Original task: {context.inputText}",
      s!"Plan: {plan.title}",
      s!"Current step [{step.id}]: {step.description}",
      strategy.dependencyResults plan step,
      "Analyze the current state, select the tool actions needed, observe their results, and " ++
        "iterate until this step is complete. Independent tool calls may be selected in one " ++
        "action batch; dependent calls must wait for a later iteration.",
      "Do not reveal private chain-of-thought. Tool calls communicate actions. When complete, " ++
        "return JSON only as " ++
        "\x7b\"success\":true,\"result\":\"concrete step result\",\"attachments\":[]\x7d."]

def planningPrompt (context : RuntimeContext) (tools : String) : String :=
  lines
    ["Create a concise execution plan for the original user task.",
      s!"Original task: {context.inputText}",
      s!"Available tools: {tools}",
      "Return JSON only with this shape: " ++
        "\x7b\"id\":\"plan-id\",\"title\":\"title\",\"steps\":[" ++
        "\x7b\"id\":\"step-id\",\"description\":\"atomic action\"," ++
        "\"executor\":\"react\",\"dependencies\":[]\x7d]\x7d",
      "Use stable alphanumeric step ids. Steps must be atomic, executable through the " ++
        "available tools, dependency-ordered, and free of cycles. Use executor 'react' for " ++
        "steps that may need tools or iterative observation, and 'model' for direct tool-free " ++
        "generation. Use one step when decomposition is unnecessary."]

def replanningPrompt (context : RuntimeContext) (plan : ExecutionPlan)
    (completedStep : PlanStep) (tools : String) : String :=
  lines
    ["Update the execution plan after one completed step.",
      s!"Original task: {context.inputText}",
      s!"Current plan: {strategy.codec.dumpPlan plan}",
      s!"Just completed step: {strategy.codec.dumpStep completedStep}",
      s!"Available tools: {tools}",
      "Return JSON only as \x7b\"steps\":[...]\x7d. The steps array represents all remaining " ++
        "work and replaces every not-yet-executed step.",
      "Do not include completed, failed, cancelled, or skipped steps; the runtime preserves " ++
        "that immutable history. Return an empty steps array when the original task is complete.",
      "Each new step must use pending status, have a unique stable id, and may depend on " ++
        "preserved historical step ids. Dependencies must be valid and acyclic. Use executor " ++
        "'react' for steps that may need tools or iterative observation, and 'model' for direct " ++
        "tool-free generation."]

/-- The lines of `_bounded_results` while `remaining` characters are left. -/
def boundedLines : Nat → List PlanStep → List String
  | _, [] => []
  | remaining, step :: rest =>
    let value := match step.result with
      | .null => ""
      | result => strategy.codec.toStr result
    let line := s!"- [{step.id}] {step.description}: {value}"
    let line :=
      if remaining < line.length then
        String.ofList (line.toList.take (remaining - 1)) ++ "…"
      else line
    if remaining ≤ line.length then [line]
    else line :: boundedLines (remaining - line.length) rest

def boundedResults (plan : ExecutionPlan) : String :=
  lines (strategy.boundedLines 12000 plan.steps)

def summaryPrompt (context : RuntimeContext) (plan : ExecutionPlan) : String :=
  lines
    ["The execution plan is complete. Deliver the final result to the user.",
      s!"Original task: {context.inputText}",
      s!"Plan: {plan.title}",
      s!"Step results:\n{strategy.boundedResults plan}",
      "Synthesize the completed work into one clear final answer. Do not return a todo list " ++
        "or another plan."]

def deterministicSummary (plan : ExecutionPlan) : String :=
  s!"{plan.title}\n\n{strategy.boundedResults plan}"

/-! ## The methods -/

/-- `context.supervision_data["built_in_planning"] = state`. -/
def setPlanning (context : RuntimeContext) (state : PlanningState) : RuntimeContext :=
  { context with supervision := { context.supervision with planning := some state } }

def requirePlan (context : RuntimeContext) : ContextProg ExecutionPlan :=
  lift context (orRaise context.plan (.value "PlanningStrategy requires an ExecutionPlan"))

def activeReactStep (context : RuntimeContext) : Option PlanStep :=
  match context.supervision.planning, context.plan with
  | some state, some plan =>
    if state.phase = .executing then
      (plan.stepWithStatus .running).filter fun step => step.executor = some "react"
    else none
  | _, _ => none

def emitReact (type : EventType) (context : RuntimeContext) : ContextProg Unit :=
  match activeReactStep context with
  | none => .ret ()
  | some _ => emit context type

/-- The iterations after one more has begun at `step`. -/
def nextIteration (step : PlanStep) : Option ReActState → ReActState
  | some react =>
    if react.stepId = step.id then { react with iteration := react.iteration + 1 }
    else ⟨step.id, 1⟩
  | none => ⟨step.id, 1⟩

def beforeModelRequest (context : RuntimeContext) : ContextProg RuntimeContext :=
  match activeReactStep context, context.supervision.planning with
  | some step, some state => do
    let context := setPlanning context { state with react := some (nextIteration step state.react) }
    emit context .reactIterationStarted
    return context
  | _, _ => .ret context

def toolDefinitions (context : RuntimeContext) : Except RuntimeError (List String) :=
  match context.supervision.planning.map PlanningState.phase with
  | some .planning | some .updating | some .summarizing => .ok []
  | _ => ModelToolStrategy.toolDefinitions agent context

def failExecution (context : RuntimeContext) (error : String) : ContextProg RuntimeContext :=
  match context.plan with
  | none => ModelToolStrategy.failExecution context error
  | some plan =>
    if plan.status = .failed ∨ plan.status = .cancelled then
      ModelToolStrategy.failExecution context error
    else do
      let context ← replacePlan context (plan.fail error)
      ModelToolStrategy.failExecution context error

def waitForInput (context : RuntimeContext) : ContextProg RuntimeContext := do
  let plan ← requirePlan context
  match plan.stepWithStatus .running with
  | none => failExecution context "planning strategy cannot suspend without an active step"
  | some running => replacePlan context (plan.waitStep running.id)

/-- `context.error or default`. -/
def errorOr (context : RuntimeContext) (default : String) : String :=
  match context.error with
  | none => default
  | some error => if error = "" then default else error

def settleTerminalPlan (context : RuntimeContext) : ContextProg RuntimeContext :=
  match context.plan with
  | none => .ret context
  | some plan =>
    if plan.status.terminal then .ret context
    else
      match context.state with
      | .cancelled => replacePlan context (plan.cancel (errorOr context "run cancelled"))
      | .failed | .interrupted | .limitReached =>
        replacePlan context (plan.fail (errorOr context s!"run ended with {context.state.value}"))
      | _ => .ret context

def finishPlan (context : RuntimeContext) (plan : ExecutionPlan) : ContextProg RuntimeContext :=
  if strategy.summarize then do
    let context := (setPlanning context { phase := .summarizing }).append
      (.user (strategy.summaryPrompt context plan))
    saveContextSnapshot context
    return context
  else transitionTo { context with output := some (strategy.deterministicSummary plan) } .completed

/-- A response that could not be read fails the execution; what the strategy does not catch
goes on. -/
def faulty (context : RuntimeContext) (what : String) : PlanFault → ContextProg RuntimeContext
  | .invalid message => failExecution context s!"model generated an invalid {what}: {message}"
  | .escaped typeName message => .raise (.other typeName message, context)

def completePlanning (context : RuntimeContext) (state : PlanningState) (content : String) :
    ContextProg RuntimeContext :=
  match (strategy.parseGeneratedPlan content agent.providerName).bind supported with
  | .error fault => faulty context "execution plan" fault
  | .ok plan => do
    let context ← updateExecutionPlan context plan true
    return setPlanning context { state with phase := .executing }

def reviewed (context : RuntimeContext) (updated : ExecutionPlan) (changed : Bool) :
    ContextProg RuntimeContext :=
  if changed then updateExecutionPlan context updated true else .ret context

/-- The response of the updating phase is the list of the steps that are left. -/
def completeUpdating (context : RuntimeContext) (state : PlanningState) (content : String) :
    ContextProg RuntimeContext := do
  let plan ← requirePlan context
  match strategy.replanned plan content with
  | .error fault => faulty context "updated execution plan" fault
  | .ok (updated, changed) => do
    emit context .planReviewed
    let context ← reviewed context updated changed
    let context := setPlanning context { state with phase := .executing, completedStepId := none }
    if updated.status = .completed then strategy.finishPlan context updated else .ret context

def afterStep (context : RuntimeContext) (state : PlanningState) (completed : ExecutionPlan)
    (stepId : String) : ContextProg RuntimeContext :=
  if strategy.replanAfterStep then
    let context :=
      setPlanning context { state with phase := .updating, completedStepId := some stepId }
    match completed.steps.find? fun step => step.id == stepId with
    | none => .raise (.other "RuntimeError" "coroutine raised StopIteration", context)
    | some step => do
      let tools ← lift context (strategy.capabilities agent context)
      let context := context.append (.user (strategy.replanningPrompt context completed step tools))
      saveContextSnapshot context
      return context
  else if completed.status = .completed then strategy.finishPlan context completed
  else .ret context

def completeWith (context : RuntimeContext) (state : PlanningState) (stepId : String)
    (completed : Except PlanError ExecutionPlan) : ContextProg RuntimeContext := do
  let completed ← liftPlan context completed
  let context := setPlanning context state
  let context ← updateExecutionPlan context completed false
  strategy.afterStep agent context state completed stepId

/-- The response of the executing phase is the result of the running step. -/
def completeExecuting (context : RuntimeContext) (state : PlanningState) (content : String) :
    ContextProg RuntimeContext := do
  let plan ← requirePlan context
  match plan.stepWithStatus .running with
  | none =>
    failExecution context "planning strategy received a step result without an active step"
  | some running =>
    if running.executor = some "react" then
      match strategy.parseReactResult content with
      | .error fault => faulty context "ReAct step result" fault
      | .ok react =>
        let iterations := (state.react.map (·.iteration)).getD 0
        strategy.completeWith agent context { state with react := none } running.id
          (plan.completeStep running.id (.str react.result) (some react.success) react.attachments
            [("react_iterations", .int iterations)])
    else
      strategy.completeWith agent context state running.id
        (plan.completeStep running.id (.str content))

def completeResponse (context : RuntimeContext) (content : String) : ContextProg RuntimeContext :=
  let state := context.supervision.planning.getD { phase := .executing }
  let context := setPlanning context state
  match state.phase with
  | .planning => strategy.completePlanning agent context state content
  | .updating => strategy.completeUpdating context state content
  | .summarizing => transitionTo { context with output := some content } .completed
  | .executing => strategy.completeExecuting agent context state content

def hooks : Hooks where
  toolDefinitions := toolDefinitions agent
  beforeModelRequest := beforeModelRequest
  onActionBatchSelected := emitReact .reactActionBatchSelected
  onObservationBatchRecorded := emitReact .reactObservationBatchRecorded
  onIterationCompleted := emitReact .reactIterationCompleted
  completeResponse := strategy.completeResponse agent
  failExecution := failExecution
  waitForInput := waitForInput

/-! ## The turn -/

/-- `super().advance` and `_settle_terminal_plan`. -/
def turn (context : RuntimeContext) : ContextProg RuntimeContext := do
  let context ← (strategy.hooks agent).advance agent context
  settleTerminalPlan context

def addPrompt (context : RuntimeContext) (state : PlanningState) : ContextProg RuntimeContext :=
  if state.promptAdded then .ret context
  else do
    let tools ← lift context (strategy.capabilities agent context)
    let context := context.append (.user (planningPrompt context tools))
    let context := setPlanning context { state with promptAdded := true }
    saveContextSnapshot context
    return context

def advanceUnplanned (context : RuntimeContext) (state : PlanningState) :
    ContextProg RuntimeContext :=
  if context.planningRequested = false then
    .raise (.value "PlanningStrategy requires an ExecutionPlan", context)
  else if state.phase ≠ .planning then
    failExecution context "planning state is inconsistent with the missing plan"
  else do
    let context ← strategy.addPrompt agent context state
    strategy.turn agent context

def handleNoReadyStep (context : RuntimeContext) (plan : ExecutionPlan) :
    ContextProg RuntimeContext :=
  if plan.status = .completed then strategy.finishPlan context plan
  else failExecution context "execution plan has no ready or active step"

/-- The turn of a running step.  A ReAct step has a limited number of iterations, which does
not keep a suspended batch from being finished. -/
def advanceStep (context : RuntimeContext) (running : PlanStep) : ContextProg RuntimeContext :=
  let iteration :=
    ((context.supervision.planning.bind (·.react)).map (·.iteration)).getD 0
  if running.executor = some "react" ∧ strategy.maxReactIterationsPerStep ≤ iteration ∧
      context.supervision.suspendedActionBatch.isNone then
    failExecution context
      ("ReAct iteration limit reached for " ++
        s!"step '{running.id}' ({strategy.maxReactIterationsPerStep})")
  else strategy.turn agent context

def startReady (context : RuntimeContext) (plan : ExecutionPlan) (step : PlanStep) :
    ContextProg RuntimeContext := do
  let started ← liftPlan context (plan.startStep step.id)
  let context ← updateExecutionPlan context started false
  let prompt :=
    if step.executor = some "react" then strategy.reactStepPrompt context started step
    else strategy.stepPrompt context started step
  let context := context.append (.user prompt)
  saveContextSnapshot context
  strategy.advanceStep agent context step

/-- The turn of a plan that is being executed, once no step is waiting. -/
def advanceReady (context : RuntimeContext) (plan : ExecutionPlan) :
    ContextProg RuntimeContext :=
  match plan.stepWithStatus .running with
  | some running => strategy.advanceStep agent context running
  | none =>
    match plan.readySteps with
    | [] => strategy.handleNoReadyStep context plan
    | step :: _ => strategy.startReady agent context plan step

/-- The turn of a plan that is being executed: a waiting step is resumed first. -/
def advancePlan (context : RuntimeContext) (plan : ExecutionPlan) : ContextProg RuntimeContext :=
  match plan.stepWithStatus .waiting with
  | none => strategy.advanceReady agent context plan
  | some waiting => do
    let resumed ← liftPlan context (plan.resumeStep waiting.id)
    let context ← updateExecutionPlan context resumed false
    strategy.advanceReady agent context resumed

def advance (context : RuntimeContext) : ContextProg RuntimeContext :=
  let state := context.supervision.planning.getD
    { phase := if context.plan.isNone && context.planningRequested then .planning else .executing }
  let context := setPlanning context state
  match context.plan with
  | none => strategy.advanceUnplanned agent context state
  | some plan =>
    match validateExecutors plan with
    | .error message => .raise (.value message, context)
    | .ok () =>
      match state.phase with
      | .summarizing | .updating => strategy.turn agent context
      | _ => strategy.advancePlan agent context plan

end PlanningStrategy

end Runtime
end BaseAgent

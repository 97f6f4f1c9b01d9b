import BaseAgent.Runtime.Strategy

/-!
# The Run lifecycle

`AgentRuntime.execute` brings a fresh or a waiting context to RUNNING, acquires the eager
resources, loops over the turns of the strategy, releases the resources whatever happened,
and leaves the checkpoint, the Conversation Turn, the stored Run and its closing event.

The loop is followed for `fuel` iterations.  A loop that is still running then ends in
`exhausted`, which no handler of the program catches.
-/

namespace BaseAgent
namespace Runtime

open Async

structure AgentResult where
  status : AgentResultStatus
  output : Option String
  messages : List Message
  usage : TokenUsage
  error : Option String
  pendingInput : Option PendingInput
  steps : Nat
  toolCalls : Nat
  modelCalls : Nat

def uncontexted {α : Type} (p : ContextProg α) : RuntimeProg α :=
  p.attempt.bind fun
    | .ok a => .ret a
    | .error (e, _) => .raise e

namespace AgentRuntime

variable (agent : Agent)

def acquire (context : RuntimeContext) (name : String) : ContextProg RuntimeContext :=
  .call (.aenter name) fun
    | .ok () => do
      let context := { context with acquired := context.acquired ++ [name] }
      emit context .resourceAcquired
      return context
    | .error .cancelled => .raise (.cancelled, context)
    | .error (.raised _ message) => do
      emit context .resourceFailed
      .raise (.other "ResourceAcquisitionError"
        s!"failed to acquire resource '{name}': {message}", context)

/-- `resources.start` on the names of the eager resources. -/
def startResources : List String → RuntimeContext → ContextProg RuntimeContext
  | [], context => .ret context
  | name :: rest, context => (acquire context name).bind (startResources rest)

/-- `memories.initialize`. -/
def initializeMemory (context : RuntimeContext) : ContextProg RuntimeContext :=
  if context.memoryInitialized then .ret context
  else
    let context := { context with memoryInitialized := true }
    match agent.memory with
    | none => .ret context
    | some required =>
      .call (.retrieve context.runId) fun
        | .ok () => do
          emit context .memoryRetrieved
          return { context with memoryError := none }
        | .error .cancelled => .raise (.cancelled, context)
        | .error (.raised typeName message) => do
          emit context .memoryFailed
          let context := { context with memoryError := some message }
          if required then .raise (.other typeName message, context) else .ret context

/-- What the loop does with the answer of `before_model`. -/
def supervised (context : RuntimeContext) (decision : SupervisionDecision) :
    ContextProg RuntimeContext :=
  if decision.intervenes then applySupervisionDecision context decision true else .ret context

/-- The loop of `execute`. -/
def loop : Nat → RuntimeContext → ContextProg RuntimeContext
  | 0, context => if context.state = .running then .raise (.exhausted, context) else .ret context
  | fuel + 1, context =>
    if context.state = .running then do
      match ← ModelToolStrategy.cancelIfRequested context with
      | some cancelled => return cancelled
      | none =>
        .call (.beforeModel context) fun reply => do
          let (decision, context) ← hooked context reply
          let context ← supervised context decision
          if context.state = .running then
            (ModelToolStrategy.advance agent context).bind (loop fuel)
          else return context
    else return context

/-- The `try` block. -/
def body (fuel : Nat) (context : RuntimeContext) : ContextProg RuntimeContext := do
  let context ← startResources agent.eagerResources context
  let context ← initializeMemory agent context
  loop agent fuel context

/-- `context.state in {CREATED, RUNNING, WAITING}` decides whether the interruption ends the
Run. -/
def interrupt (context : RuntimeContext) (error : String) (status : RunStatus) :
    ContextProg RuntimeContext :=
  let context := { context with error := some error }
  if context.state.terminal then .ret context else transitionTo context status

/-- The `except` clauses. -/
def recover (context : RuntimeContext) : RuntimeError → ContextProg RuntimeContext
  | .exhausted => .raise (.exhausted, context)
  | .cancelled => do
    let run ← getRun context
    if run.cancelRequested then interrupt context "run cancellation requested" .cancelled
    else interrupt context "runtime task interrupted" .interrupted
  | e => ModelToolStrategy.failExecution context s!"orchestration failed: {e.text}"

/-- `resources.close`, on the acquired names, the last one first. -/
def close (runId : UUID) : List String → RuntimeProg Unit
  | [] => .ret ()
  | name :: rest =>
    .call (.aexit name) fun
      | .ok () => .call (.emit runId .resourceReleased) fun _ => close runId rest
      | .error .cancelled => .raise .cancelled
      | .error (.raised _ _) => .call (.emit runId .resourceFailed) fun _ => close runId rest

def buildResult (context : RuntimeContext) : Except RuntimeError AgentResult :=
  let result (status : AgentResultStatus) : AgentResult :=
    { status := status
      output := context.output
      messages := context.messages
      usage := context.usage
      error := context.error
      pendingInput := context.pendingInput
      steps := context.stepCount
      toolCalls := context.toolCallCount
      modelCalls := context.responses.length }
  match context.state with
  | .completed => .ok (result .completed)
  | .failed => .ok (result .failed)
  | .cancelled => .ok (result .cancelled)
  | .interrupted => .ok (result .interrupted)
  | .limitReached => .ok (result .limitReached)
  | .waiting => .ok (result .waiting)
  | state => .error (.invalidTransition s!"cannot build a result from state {state.value}")

/-- `terminal_events`. -/
def terminalEvent : RunStatus → Option EventType
  | .completed => some .runCompleted
  | .failed => some .runFailed
  | .cancelled => some .runCancelled
  | .interrupted => some .runInterrupted
  | .limitReached => some .runLimitReached
  | .waiting => some .runWaiting
  | .created | .running => none

def finalizeRun (context : RuntimeContext) : ContextProg Unit := do
  saveContextSnapshot context
  let type ← lift context (orRaise (terminalEvent context.state)
    (.invalidTransition s!"cannot finalize state {context.state.value}"))
  emit context type

def settleCheckpoint (context : RuntimeContext) : RuntimeProg Unit :=
  if context.state = .waiting then
    (Prog.ofExcept (RuntimeCheckpoint.fromContext context)).bind fun checkpoint =>
      .call (.saveCheckpoint checkpoint) .ret
  else .call (.deleteCheckpoint context.runId) .ret

def finishTurn (conversationId : Option UUID) (runId : UUID) (status : RunStatus) :
    RuntimeProg Unit :=
  match conversationId with
  | none => .ret ()
  | some conversationId =>
    .call (.finishTurn conversationId runId status) fun
      | .ok () => .ret ()
      | .error e => .raise e.error

/-- What follows the `try` statement. -/
def conclude (context : RuntimeContext) (interrupted : Bool) : RuntimeProg AgentResult := do
  let result ← Prog.ofExcept (buildResult context)
  settleCheckpoint context
  finishTurn context.conversationId context.runId context.state
  uncontexted (finalizeRun context)
  if interrupted then .raise .cancelled else return result

def closing (context : RuntimeContext) (next : RuntimeProg AgentResult) :
    RuntimeProg AgentResult :=
  (close context.runId context.acquired.reverse).bind fun _ => next

/-- The `try` statement: what the block raised is recovered from, and the resources are
closed on every way out. -/
def guarded (fuel : Nat) (context : RuntimeContext) : RuntimeProg AgentResult :=
  (body agent fuel context).attempt.bind fun
    | .ok context => closing context (conclude context false)
    | .error (e, context) =>
      (recover context e).attempt.bind fun
        | .ok context => closing context (conclude context (e = .cancelled))
        | .error (e, context) =>
          if e = .exhausted then .raise .exhausted else closing context (.raise e)

def emitSkills (context : RuntimeContext) : List Skill → ContextProg Unit
  | [] => .ret ()
  | _ :: rest => do
    emit context .skillSelected
    emit context .skillLoaded
    emitSkills context rest

def newRun (context : RuntimeContext) : Run :=
  { id := context.runId
    profileId := context.profile.id
    conversationId := context.conversationId }

def createRun (context : RuntimeContext) : ContextProg Unit :=
  .call (.createRun (newRun context)) fun
    | .error e => .raise (e, context)
    | .ok () => do
      emit context .runCreated
      emitSkills context context.skills

def start (context : RuntimeContext) : ContextProg RuntimeContext := do
  createRun context
  let context ←
    if context.state = .created then transitionTo context .running else .ret context
  saveContextSnapshot context
  emit context .runStarted
  return context

def rejectedResult (pending : PendingInput) : ToolResult :=
  { toolName := pending.toolName
    status := .denied
    errorCode := some "tool_confirmation_rejected"
    message := some "Tool execution was rejected" }

def inputResult (pending : PendingInput) (input : String) : ToolResult :=
  { toolName := pending.toolName, status := .success, data := .obj [("input", .str input)] }

def decide (context : RuntimeContext) (pending : PendingInput) (resumeInput : Option String)
    (confirmation : Option ToolConfirmation) : Except RuntimeError RuntimeContext :=
  match resumeInput, confirmation with
  | some _, _ => .error (.value "pending Tool confirmation requires Agent.confirm()")
  | none, none => .error (.value "Tool confirmation decision is required")
  | none, some confirmation =>
    match (JsonValue.lookup pending.metadata "request").bind agent.validateRequest with
    | none => .error (.invalidTransition "pending Tool confirmation metadata is invalid")
    | some requestId =>
      if confirmation.requestId ≠ requestId then
        .error (.value "Tool confirmation targets another request")
      else
        let context :=
          { context with
            supervision := { context.supervision with
              toolConfirmationDecision := some confirmation } }
        if confirmation.decision = .reject then
          .ok (context.append (.tool (rejectedResult pending) pending.toolCallId))
        else .ok context

def receive (context : RuntimeContext) (pending : PendingInput) (resumeInput : Option String)
    (confirmation : Option ToolConfirmation) : Except RuntimeError RuntimeContext :=
  match confirmation, resumeInput with
  | some _, _ => .error (.value "pending input does not accept a Tool confirmation")
  | none, none => .error (.value "resume input must not be empty")
  | none, some input =>
    if isBlank input then .error (.value "resume input must not be empty")
    else .ok (context.append (.tool (inputResult pending input) pending.toolCallId))

def answer (context : RuntimeContext) (resumeInput : Option String)
    (confirmation : Option ToolConfirmation) : Except RuntimeError RuntimeContext :=
  match context.pendingInput with
  | none => .error (.invalidTransition "waiting context has no pending input")
  | some pending =>
    if isConfirmation pending.metadata then
      decide agent context pending resumeInput confirmation
    else receive context pending resumeInput confirmation

/-- The context with the decision of a confirmation in it, answered by a rejection. -/
def decided (context : RuntimeContext) (pending : PendingInput) (d : ToolConfirmation) :
    RuntimeContext :=
  { context with
    supervision := { context.supervision with toolConfirmationDecision := some d }
    messages :=
      if d.decision = .reject then
        context.messages ++ [.tool (rejectedResult pending) pending.toolCallId]
      else context.messages }

theorem decide_ok {context c' : RuntimeContext} {pending : PendingInput} {input : Option String}
    {confirmation : Option ToolConfirmation}
    (h : decide agent context pending input confirmation = .ok c') :
    ∃ d, input = none ∧ confirmation = some d ∧
      (JsonValue.lookup pending.metadata "request").bind agent.validateRequest =
        some d.requestId ∧ c' = decided context pending d := by
  unfold decide at h
  split at h
  · cases h
  · cases h
  · rename_i d
    split at h
    · cases h
    · rename_i requestId hrequest
      split at h
      · cases h
      · rename_i hid
        have hid : d.requestId = requestId := by simpa using hid
        refine ⟨d, rfl, rfl, by rw [hrequest, hid], ?_⟩
        simp only at h
        split at h
        · rename_i hd
          cases h
          simp [decided, hd, RuntimeContext.append]
        · rename_i hd
          cases h
          simp [decided, hd]

theorem receive_ok {context c' : RuntimeContext} {pending : PendingInput} {input : Option String}
    {confirmation : Option ToolConfirmation}
    (h : receive context pending input confirmation = .ok c') :
    ∃ text, confirmation = none ∧ input = some text ∧
      c' = context.append (.tool (inputResult pending text) pending.toolCallId) := by
  unfold receive at h
  split at h
  · cases h
  · cases h
  · rename_i text
    split at h
    · cases h
    · cases h
      exact ⟨text, rfl, rfl, rfl⟩

/-- How a waiting context is answered: its confirmation is decided, or its input is
received. -/
theorem answer_ok {context c' : RuntimeContext} {input : Option String}
    {confirmation : Option ToolConfirmation}
    (h : answer agent context input confirmation = .ok c') :
    ∃ pending, context.pendingInput = some pending ∧
      ((isConfirmation pending.metadata = true ∧ ∃ d, confirmation = some d ∧
          (JsonValue.lookup pending.metadata "request").bind agent.validateRequest =
            some d.requestId ∧ c' = decided context pending d) ∨
        (isConfirmation pending.metadata = false ∧ confirmation = none ∧ ∃ text,
          c' = context.append (.tool (inputResult pending text) pending.toolCallId))) := by
  unfold answer at h
  split at h
  · cases h
  · rename_i pending hpending
    split at h
    · rename_i hkind
      obtain ⟨d, -, hd, hrequest, hc⟩ := decide_ok agent h
      exact ⟨pending, hpending, .inl ⟨hkind, d, hd, hrequest, hc⟩⟩
    · rename_i hkind
      obtain ⟨text, hnone, -, hc⟩ := receive_ok h
      exact ⟨pending, hpending, .inr ⟨by simpa using hkind, hnone, text, hc⟩⟩

def emitAnswer (context : RuntimeContext) (confirmation : Option ToolConfirmation) :
    ContextProg Unit :=
  match confirmation with
  | none => emit context .inputReceived
  | some confirmation => do
    emit context .toolConfirmationDecided
    if confirmation.decision = .reject then emit context .toolFailed else .ret ()

def prepareResume (context : RuntimeContext) (resumeInput : Option String)
    (confirmation : Option ToolConfirmation) : ContextProg RuntimeContext := do
  let context ← lift context (answer agent context resumeInput confirmation)
  let context ← transitionTo { context with pendingInput := none, output := none, error := none }
    .running
  saveContextSnapshot context
  emitAnswer context confirmation
  emit context .runResumed
  return context

/-- What `execute` does before its `try` statement. -/
def enter (context : RuntimeContext) (resumeInput : Option String)
    (confirmation : Option ToolConfirmation) : ContextProg RuntimeContext :=
  match context.state with
  | .created | .running => start context
  | .waiting => prepareResume agent context resumeInput confirmation
  | state =>
    .raise (.invalidTransition s!"cannot execute context in state {state.value}", context)

def execute (fuel : Nat) (context : RuntimeContext) (resumeInput : Option String)
    (confirmation : Option ToolConfirmation) : RuntimeProg AgentResult :=
  (uncontexted (enter agent context resumeInput confirmation)).bind (guarded agent fuel)

end AgentRuntime

end Runtime
end BaseAgent

import BaseAgent.Async.Pool
import BaseAgent.Runtime.Supervision

/-!
# The awaits of the Run code

`RuntimeOp` lists what the code of a Run awaits: the operations of the Run, event and
checkpoint stores, each one atomic step, and everything outside these stores, the model
provider, Tools, supervisors, resources, memory and conversations.  Their answers are
oracles.

An await outside the stores is where a task can be interrupted.  The interruption is the
answer `cancelled` there.
-/

namespace BaseAgent
namespace Runtime

open Async

inductive ToolSideEffectMode where
  | unspecified | readOnly | unsafeEffect | idempotent
  deriving DecidableEq, Repr

def ToolSideEffectMode.value : ToolSideEffectMode → String
  | unspecified => "unspecified"
  | readOnly => "read_only"
  | unsafeEffect => "unsafe"
  | idempotent => "idempotent"

inductive ToolFailure where
  | invalidArguments (message : String)
  | replayUnsafe
  | recorder
  | timeout
  | other (message : String)
  deriving DecidableEq, Repr

structure Tool where
  name : String
  permissions : List String := []
  timeoutSeconds : ℚ := 30
  sideEffectMode : ToolSideEffectMode := .unspecified
  confirmationRequired : Bool := false
  -- `isinstance(tool, ContextualTool)`
  contextual : Bool := true
  validateArguments : List (String × JsonValue) → Except ToolFailure (List (String × JsonValue)) :=
    .ok

/-- How the awaited function of a Tool ends.  `unserializable` is a value that has no JSON
form. -/
inductive ToolOutcome where
  | value (data : JsonValue)
  | unserializable (message : String)
  | waitForInput (prompt : String) (metadata : List (String × JsonValue))
  | raised (failure : ToolFailure)
  | interrupted

/-- The outcome, and the resources the function acquired on its way. -/
structure Invocation where
  outcome : ToolOutcome
  acquired : List String := []

/-- What the awaits of the side-effect recorder end in. -/
inductive RecorderReply where
  | receipt
  | raised (failure : ToolFailure)
  | interrupted
  deriving DecidableEq, Repr

/-- Where a Tool call stands: its Run, the number of the response that made it and the
number of calls of its batch after it.  No code outside the models sees it. -/
structure Occurrence where
  runId : UUID
  response : Nat
  remaining : Nat
  deriving DecidableEq, Repr

inductive RuntimeOp where
  | createRun (run : Run)
  | getRun (runId : UUID)
  | saveRun (run : Run)
  | requestCancel (runId : UUID)
  | emit (runId : UUID) (type : EventType)
  | saveCheckpoint (checkpoint : RuntimeCheckpoint)
  | loadCheckpoint (runId : UUID)
  | claimCheckpoint (runId : UUID)
  | deleteCheckpoint (runId : UUID)
  | beginTurn (conversationId runId : UUID) (prompt : String)
  | finishTurn (conversationId runId : UUID) (status : RunStatus)
  | beforeModel (context : RuntimeContext)
  -- `remaining` as in `Occurrence`
  | beforeTool (context : RuntimeContext) (call : ToolCall) (remaining : Nat)
  | afterTool (context : RuntimeContext) (call : ToolCall) (result : ToolResult) (remaining : Nat)
  | complete (runId : UUID) (request : ModelRequest)
  | invoke (place : Occurrence) (tool : Tool) (call : ToolCall)
      (arguments : List (String × JsonValue)) (confirmation : Option ToolConfirmation)
  | recorderStart (runId : UUID) (call : ToolCall) (mode : ToolSideEffectMode)
  | recorderConfirm (runId : UUID) (call : ToolCall)
  | aenter (name : String)
  | aexit (name : String)
  | retrieve (runId : UUID)

namespace RuntimeOp

def Ret : RuntimeOp → Type
  | createRun .. | saveRun .. => Except RuntimeError Unit
  | finishTurn .. | aenter .. | aexit .. | retrieve .. => Except Failure Unit
  | getRun .. | requestCancel .. => Except RuntimeError Run
  | emit .. | saveCheckpoint .. | deleteCheckpoint .. => Unit
  | loadCheckpoint .. | claimCheckpoint .. => Except RuntimeError RuntimeCheckpoint
  -- the user and assistant texts of the conversation's completed turns
  | beginTurn .. => Except Failure (List (String × String))
  | beforeModel .. | beforeTool .. | afterTool .. => Hook
  | complete .. => Except Failure ModelResponse
  | invoke .. => Invocation
  | recorderStart .. | recorderConfirm .. => RecorderReply

end RuntimeOp

/-- An asynchronous function of the Run code that is handed a context and may leave it
changed when it raises. -/
abbrev ContextProg (α : Type) := Prog RuntimeOp RuntimeOp.Ret (RuntimeError × RuntimeContext) α

abbrev RuntimeProg (α : Type) := Prog RuntimeOp RuntimeOp.Ret RuntimeError α

/-- The answers of everything outside the stores, by the number of the step. -/
structure RuntimeEnv where
  supervisor : Supervisor
  complete : Nat → ModelRequest → Except Failure ModelResponse
  invoke : Nat → ToolCall → List (String × JsonValue) → Invocation
  recorderStart : Nat → ToolCall → RecorderReply
  recorderConfirm : Nat → ToolCall → RecorderReply
  aenter : Nat → String → Except Failure Unit
  aexit : Nat → String → Except Failure Unit
  retrieve : Nat → Except Failure Unit
  beginTurn : Nat → UUID → Except Failure (List (String × String))
  finishTurn : Nat → UUID → RunStatus → Except Failure Unit

/-- The in-memory stores, and the number of steps taken. -/
structure RuntimeWorld where
  runs : UUID → Option Run := fun _ => none
  events : UUID → List EventType := fun _ => []
  checkpoints : UUID → Option RuntimeCheckpoint := fun _ => none
  steps : Nat := 0

namespace RuntimeWorld

variable (w : RuntimeWorld)

def runNotFound (runId : UUID) : RuntimeError :=
  .runNotFound s!"run '{uuidText runId}' was not found"

def createRun (run : Run) : Except RuntimeError Unit × RuntimeWorld :=
  match w.runs run.id with
  | some _ => (.error (.runAlreadyExists s!"run '{uuidText run.id}' already exists"), w)
  | none => (.ok (), { w with runs := Function.update w.runs run.id (some run) })

def getRun (runId : UUID) : Except RuntimeError Run :=
  match w.runs runId with
  | some run => .ok run
  | none => .error (runNotFound runId)

/-- `InMemoryRunStore.save`: an accepted cancellation request is kept, also when the
snapshot was built from a read that predates it. -/
def saveRun (run : Run) : Except RuntimeError Unit × RuntimeWorld :=
  match w.runs run.id with
  | none => (.error (runNotFound run.id), w)
  | some current =>
    let updated := { run with cancelRequested := run.cancelRequested || current.cancelRequested }
    (.ok (), { w with runs := Function.update w.runs run.id (some updated) })

def requestCancel (runId : UUID) : Except RuntimeError Run × RuntimeWorld :=
  match w.runs runId with
  | none => (.error (runNotFound runId), w)
  | some run =>
    if run.status.terminal then
      (.error (.runNotCancellable
        s!"run '{uuidText runId}' in state '{run.status.value}' cannot be cancelled"), w)
    else
      let updated := { run with cancelRequested := true }
      (.ok updated, { w with runs := Function.update w.runs runId (some updated) })

def emit (runId : UUID) (type : EventType) : RuntimeWorld :=
  { w with events := Function.update w.events runId (w.events runId ++ [type]) }

def setCheckpoint (runId : UUID) (checkpoint : Option RuntimeCheckpoint) : RuntimeWorld :=
  { w with checkpoints := Function.update w.checkpoints runId checkpoint }

def checkpointNotFound (runId : UUID) (suffix : String) : RuntimeError :=
  .checkpointNotFound s!"checkpoint for run '{uuidText runId}' was not found{suffix}"

def loadCheckpoint (runId : UUID) : Except RuntimeError RuntimeCheckpoint :=
  orRaise (w.checkpoints runId) (checkpointNotFound runId "")

def claimCheckpoint (runId : UUID) : Except RuntimeError RuntimeCheckpoint × RuntimeWorld :=
  match w.checkpoints runId with
  | some checkpoint => (.ok checkpoint, w.setCheckpoint runId none)
  | none => (.error (checkpointNotFound runId " or was already claimed"), w)

end RuntimeWorld

namespace RuntimeEnv

/-- What one awaited operation answers and leaves, the step count apart. -/
def reply (env : RuntimeEnv) (w : RuntimeWorld) : (o : RuntimeOp) → o.Ret × RuntimeWorld
  | .createRun run => w.createRun run
  | .getRun runId => (w.getRun runId, w)
  | .saveRun run => w.saveRun run
  | .requestCancel runId => w.requestCancel runId
  | .emit runId type => ((), w.emit runId type)
  | .saveCheckpoint checkpoint => ((), w.setCheckpoint checkpoint.runId (some checkpoint))
  | .loadCheckpoint runId => (w.loadCheckpoint runId, w)
  | .claimCheckpoint runId => w.claimCheckpoint runId
  | .deleteCheckpoint runId => ((), w.setCheckpoint runId none)
  | .beginTurn conversationId _ _ => (env.beginTurn w.steps conversationId, w)
  | .finishTurn conversationId _ status => (env.finishTurn w.steps conversationId status, w)
  | .beforeModel context => (env.supervisor.beforeModel w.steps context, w)
  | .beforeTool context call _ => (env.supervisor.beforeTool w.steps context call, w)
  | .afterTool context call result _ =>
    (env.supervisor.afterTool w.steps context call result, w)
  | .complete _ request => (env.complete w.steps request, w)
  | .invoke _ _ call arguments _ => (env.invoke w.steps call arguments, w)
  | .recorderStart _ call _ => (env.recorderStart w.steps call, w)
  | .recorderConfirm _ call => (env.recorderConfirm w.steps call, w)
  | .aenter name => (env.aenter w.steps name, w)
  | .aexit name => (env.aexit w.steps name, w)
  | .retrieve _ => (env.retrieve w.steps, w)

def exec (env : RuntimeEnv) (o : RuntimeOp) (w : RuntimeWorld) : o.Ret × RuntimeWorld :=
  ((env.reply w o).1, { (env.reply w o).2 with steps := w.steps + 1 })

end RuntimeEnv

end Runtime
end BaseAgent

import BaseAgent.Planning.Engine

/-!
# The operations on a Run

The calls of `Runtime/Handle.lean` for an Agent that executes plans too, and the stores that a
sequence of them leaves when each one is finished before the next begins.
-/

namespace BaseAgent
namespace Runtime

open Async

namespace PlanningAgent

variable (p : PlanningAgent)

def launch (fuel : Nat) (prompt : String) (runId : UUID) (conversationId : Option UUID)
    (history : List Message) (skills : List Skill) (plan : Option ExecutionPlan)
    (planning : Bool) : RuntimeProg AgentResult :=
  (Prog.ofExcept (p.createContext prompt runId conversationId history skills plan planning)).bind
    fun context => p.execute fuel context none none

/-- `run`, with the Skills already selected and validated. -/
def run (fuel : Nat) (prompt : String) (runId : UUID) (conversationId : Option UUID)
    (skills : List Skill) (plan : Option ExecutionPlan) (planning : Bool) :
    RuntimeProg AgentResult :=
  match conversationId with
  | none => Agent.handled runId none (p.launch fuel prompt runId none [] skills plan planning)
  | some conversation =>
    .call (.beginTurn conversation runId prompt) fun
      | .error e => Agent.handle runId none e.error
      | .ok turns =>
        Agent.handled runId (some conversation)
          (p.launch fuel prompt runId (some conversation) (p.agent.conversationHistory turns) skills
            plan planning)

/-- What becomes of the exception of an execution that was resumed from a checkpoint. -/
def putBack (runId : UUID) (checkpoint : RuntimeCheckpoint) :
    RuntimeError → RuntimeProg AgentResult
  | .exhausted => .raise .exhausted
  | .cancelled => (Agent.settleTaskInterruption runId).bind fun _ => .raise .cancelled
  | e => .call (.saveCheckpoint checkpoint) fun _ => .raise e

/-- The claimed checkpoint is restored and executed.  An exception puts it back. -/
def restored (fuel : Nat) (runId : UUID) (resumeInput : Option String)
    (confirmation : Option ToolConfirmation) (checkpoint : RuntimeCheckpoint) :
    RuntimeProg AgentResult :=
  (p.execute fuel checkpoint.restore resumeInput confirmation).attempt.bind fun
    | .ok result => .ret result
    | .error e => putBack runId checkpoint e

def continueWaiting (fuel : Nat) (runId : UUID) (resumeInput : Option String)
    (confirmation : Option ToolConfirmation) : RuntimeProg AgentResult :=
  .call (.getRun runId) fun
    | .error e => .raise e
    | .ok run =>
      if run.status = .waiting then
        .call (.loadCheckpoint runId) fun loaded =>
          (Prog.ofExcept (loaded.bind (p.agent.admitCheckpoint runId))).bind fun _ =>
            .call (.claimCheckpoint runId) fun
              | .error e => .raise e
              | .ok checkpoint => p.restored fuel runId resumeInput confirmation checkpoint
      else .raise (.value s!"run '{uuidText runId}' is not waiting for input")

def resume (fuel : Nat) (runId : UUID) (input : String) : RuntimeProg AgentResult :=
  if isBlank input then .raise (.value "resume input must not be empty")
  else p.continueWaiting fuel runId (some input) none

def confirm (fuel : Nat) (runId : UUID) (confirmation : ToolConfirmation) :
    RuntimeProg AgentResult :=
  p.continueWaiting fuel runId none (some confirmation)

end PlanningAgent

inductive Operation where
  | run (prompt : String) (runId : UUID) (conversationId : Option UUID) (skills : List Skill)
      (plan : Option ExecutionPlan) (planning : Bool)
  | resume (runId : UUID) (input : String)
  | confirm (runId : UUID) (confirmation : ToolConfirmation)
  | cancel (runId : UUID)
  | finalize (runId : UUID)

namespace Operation

/-- What an operation does.  What it returns is of no further use. -/
def task (p : PlanningAgent) (fuel : Nat) : Operation → RuntimeProg Unit
  | run prompt runId conversationId skills plan planning =>
    (p.run fuel prompt runId conversationId skills plan planning).bind fun _ => .ret ()
  | resume runId input => (p.resume fuel runId input).bind fun _ => .ret ()
  | confirm runId confirmation => (p.confirm fuel runId confirmation).bind fun _ => .ret ()
  | cancel runId => (requestCancellation runId).bind fun _ => .ret ()
  | finalize runId => (finalizeTaskInterruption runId).bind fun _ => .ret ()

/-- How the operation ends when nothing else is under way, and the stores it leaves. -/
def serve (p : PlanningAgent) (env : RuntimeEnv) (fuel : Nat) (operation : Operation)
    (w : RuntimeWorld) : Except RuntimeError Unit × RuntimeWorld :=
  (operation.task p fuel).eval env.exec w

end Operation

/-- The stores after a sequence of operations, each of which was `Fit` for the stores it found
and has ended.  An operation that has used up its fuel is still in progress. -/
inductive Served (p : PlanningAgent) (env : RuntimeEnv)
    (Fit : Nat → Operation → RuntimeWorld → Prop) : RuntimeWorld → Prop
  | start : Served p env Fit {}
  | next {w : RuntimeWorld} (h : Served p env Fit w) (fuel : Nat) (operation : Operation)
      (hfit : Fit fuel operation w)
      (hended : (operation.serve p env fuel w).1 ≠ .error .exhausted) :
      Served p env Fit (operation.serve p env fuel w).2

end Runtime
end BaseAgent

import BaseAgent.Runtime.Engine
import BaseAgent.Runtime.Stores

/-!
# The calls on a Run

The entry points of an Agent and of a Run handle: starting a Run, answering a waiting one,
requesting a cancellation, and finalizing the interruption of a task.  A `Call` is one of
them, and a pool of calls is any number of tasks over the same stores.
-/

namespace BaseAgent
namespace Runtime

open Async

/-- What ends a request of `finalize_task_interruption`. -/
def finalizedRun (existing : Run) : Run :=
  if existing.cancelRequested then
    { existing with status := .cancelled, error := some "run cancellation requested" }
  else
    { existing with
      status := .interrupted
      error := some "runtime task interrupted"
      interrupted := true }

/-- Store the ended Run, drop its checkpoint and emit its event. -/
def endRun (run : Run) (runId : UUID) (type : EventType) : RuntimeProg Unit :=
  .call (.saveRun run) fun
    | .error e => .raise e
    | .ok () =>
      .call (.deleteCheckpoint runId) fun _ =>
        .call (.emit runId type) fun _ => .ret ()

def finalizeTaskInterruption (runId : UUID) : RuntimeProg (Option Run) :=
  .call (.getRun runId) fun
    | .error (.runNotFound _) => .ret none
    | .error e => .raise e
    | .ok existing =>
      if existing.status.terminal then .ret (some existing)
      else do
        let finalized := finalizedRun existing
        AgentRuntime.finishTurn finalized.conversationId runId finalized.status
        endRun finalized runId
          (if existing.cancelRequested then .runCancelled else .runInterrupted)
        return some finalized

/-- The Run that `request_cancellation` leaves in place of a waiting one. -/
def cancelledRun (requested : Run) : Run :=
  { requested with
    status := .cancelled
    error := some "run cancellation requested while waiting for input" }

def requestCancellation (runId : UUID) : RuntimeProg Run :=
  .call (.getRun runId) fun
    | .error e => .raise e
    | .ok existing =>
      .call (.requestCancel runId) fun
        | .error e => .raise e
        | .ok requested =>
          if existing.status = .waiting then do
            let cancelled := cancelledRun requested
            AgentRuntime.finishTurn cancelled.conversationId runId .cancelled
            endRun cancelled runId .runCancelled
            return cancelled
          else return requested

namespace Agent

variable (agent : Agent)

/-- `_settle_task_interruption`: what the finalization raises is noted only. -/
def settleTaskInterruption (runId : UUID) : RuntimeProg (Option Run) :=
  (finalizeTaskInterruption runId).attempt.bind fun
    | .ok finalized => .ret finalized
    | .error .cancelled => .raise .cancelled
    | .error _ => .ret none

def composeInstructions (skills : List Skill) : String :=
  let sections := skills.map fun skill =>
    String.intercalate "\n"
      [s!"## Skill: {skill.name} ({skill.version})", skill.description, skill.instructions]
  String.intercalate "\n\n" (strip agent.profile.instructions :: sections)

def enabledTools (skills : List Skill) : List String :=
  if skills.isEmpty then agent.profile.tools
  else agent.profile.tools.filter (· ∈ skills.flatMap (·.allowedTools))

/-- The messages of the completed turns, as many as the limit admits. -/
def conversationHistory (turns : List (String × String)) : List Message :=
  let messages := turns.flatMap fun turn => [.user turn.1, .assistant (some turn.2)]
  messages.drop (messages.length - agent.conversationHistoryLimit)

def createContext (prompt : String) (runId : UUID) (conversationId : Option UUID)
    (history : List Message) (skills : List Skill) : Except RuntimeError RuntimeContext :=
  if isBlank prompt then .error (.value "prompt must not be empty")
  else .ok
    { runId := runId
      profile := agent.profile
      messages := .system (agent.composeInstructions skills) :: history ++ [.user prompt]
      conversationId := conversationId
      skills := skills
      enabledToolNames := agent.enabledTools skills
      inputText := prompt }

def launch (fuel : Nat) (prompt : String) (runId : UUID) (conversationId : Option UUID)
    (history : List Message) (skills : List Skill) : RuntimeProg AgentResult :=
  (Prog.ofExcept (agent.createContext prompt runId conversationId history skills)).bind
    fun context => AgentRuntime.execute agent fuel context none none

/-- Release the Conversation Turn of a Run that raised `e`, then raise it again.  A failure
to release the turn is noted only. -/
def release (conversationId : Option UUID) (runId : UUID) (e : RuntimeError) :
    RuntimeProg AgentResult :=
  let status := if e = .cancelled then .interrupted else .failed
  (AgentRuntime.finishTurn conversationId runId status).attempt.bind fun
    | .error .cancelled => .raise .cancelled
    | _ => .raise e

/-- The handler of `_execute`.  `turn` is the conversation whose turn has begun. -/
def handle (runId : UUID) (turn : Option UUID) : RuntimeError → RuntimeProg AgentResult
  | .exhausted => .raise .exhausted
  | .cancelled =>
    (settleTaskInterruption runId).bind fun
      | some _ => .raise .cancelled
      | none => release turn runId .cancelled
  | e => release turn runId e

def handled (runId : UUID) (turn : Option UUID) (p : RuntimeProg AgentResult) :
    RuntimeProg AgentResult :=
  p.attempt.bind fun
    | .ok result => .ret result
    | .error e => handle runId turn e

/-- `run`, with the Skills already selected and validated. -/
def run (fuel : Nat) (prompt : String) (runId : UUID) (conversationId : Option UUID)
    (skills : List Skill) : RuntimeProg AgentResult :=
  match conversationId with
  | none => handled runId none (agent.launch fuel prompt runId none [] skills)
  | some conversation =>
    .call (.beginTurn conversation runId prompt) fun
      | .error e => handle runId none e.error
      | .ok turns =>
        handled runId (some conversation)
          (agent.launch fuel prompt runId (some conversation) (agent.conversationHistory turns)
            skills)

def admitCheckpoint (runId : UUID) (checkpoint : RuntimeCheckpoint) : Except RuntimeError Unit := do
  raiseIf (checkpoint.profile.id ≠ agent.profile.id)
    (.value (s!"run '{uuidText runId}' belongs to profile '{checkpoint.profile.id}', " ++
      s!"not '{agent.profile.id}'"))
  (ToolExecutor.require agent checkpoint.enabledToolNames).map fun _ => ()

/-- The claimed checkpoint is restored and executed.  An exception puts it back. -/
def restored (fuel : Nat) (runId : UUID) (resumeInput : Option String)
    (confirmation : Option ToolConfirmation) (checkpoint : RuntimeCheckpoint) :
    RuntimeProg AgentResult :=
  (AgentRuntime.execute agent fuel checkpoint.restore resumeInput confirmation).attempt.bind fun
    | .ok result => .ret result
    | .error .exhausted => .raise .exhausted
    | .error .cancelled => (settleTaskInterruption runId).bind fun _ => .raise .cancelled
    | .error e => .call (.saveCheckpoint checkpoint) fun _ => .raise e

def continueWaiting (fuel : Nat) (runId : UUID) (resumeInput : Option String)
    (confirmation : Option ToolConfirmation) : RuntimeProg AgentResult :=
  .call (.getRun runId) fun
    | .error e => .raise e
    | .ok run =>
      if run.status = .waiting then
        .call (.loadCheckpoint runId) fun loaded =>
          (Prog.ofExcept (loaded.bind (agent.admitCheckpoint runId))).bind fun _ =>
            .call (.claimCheckpoint runId) fun
              | .error e => .raise e
              | .ok checkpoint => agent.restored fuel runId resumeInput confirmation checkpoint
      else .raise (.value s!"run '{uuidText runId}' is not waiting for input")

def resume (fuel : Nat) (runId : UUID) (input : String) : RuntimeProg AgentResult :=
  if isBlank input then .raise (.value "resume input must not be empty")
  else agent.continueWaiting fuel runId (some input) none

def confirm (fuel : Nat) (runId : UUID) (confirmation : ToolConfirmation) :
    RuntimeProg AgentResult :=
  agent.continueWaiting fuel runId none (some confirmation)

end Agent

inductive Call where
  | run (prompt : String) (runId : UUID) (conversationId : Option UUID) (skills : List Skill)
  | resume (runId : UUID) (input : String)
  | confirm (runId : UUID) (confirmation : ToolConfirmation)
  | cancel (runId : UUID)
  | finalize (runId : UUID)

namespace Call

def task (agent : Agent) (fuel : Nat) : Call → RuntimeProg Unit
  | run prompt runId conversationId skills =>
    (agent.run fuel prompt runId conversationId skills).bind fun _ => .ret ()
  | resume runId input => (agent.resume fuel runId input).bind fun _ => .ret ()
  | confirm runId confirmation => (agent.confirm fuel runId confirmation).bind fun _ => .ret ()
  | cancel runId => (requestCancellation runId).bind fun _ => .ret ()
  | finalize runId => (finalizeTaskInterruption runId).bind fun _ => .ret ()

end Call

abbrev RuntimePool (ι : Type) := Pool ι RuntimeOp RuntimeOp.Ret RuntimeError Unit RuntimeWorld

abbrev RuntimeEntry (ι : Type) := Entry ι RuntimeOp RuntimeOp.Ret

/-- The tasks of `calls` over the stores `world`, before their first step. -/
def startCalls {ι : Type} (agent : Agent) (fuel : Nat) (calls : ι → Call) (world : RuntimeWorld) :
    RuntimePool ι :=
  { shared := world, tasks := fun i => (calls i).task agent fuel }

def bookkeeping : RuntimeOp → Prop
  | .getRun _ | .requestCancel _ | .finishTurn .. | .saveRun _ | .deleteCheckpoint _ | .emit .. =>
    True
  | _ => False

theorem finishTurn_only (conversationId : Option UUID) (runId : UUID) (status : RunStatus) :
    (AgentRuntime.finishTurn conversationId runId status).Only bookkeeping := by
  cases conversationId with
  | none => trivial
  | some conversationId => exact ⟨trivial, fun r => by cases r <;> trivial⟩

theorem endRun_only (run : Run) (runId : UUID) (type : EventType) :
    (endRun run runId type).Only bookkeeping := by
  refine ⟨trivial, fun saved => ?_⟩
  cases saved with
  | error e => trivial
  | ok u => exact ⟨trivial, fun _ => ⟨trivial, fun _ => trivial⟩⟩

theorem finalizeTaskInterruption_only (runId : UUID) :
    (finalizeTaskInterruption runId).Only bookkeeping := by
  refine ⟨trivial, fun found => ?_⟩
  cases found with
  | error e => cases e <;> trivial
  | ok existing =>
    simp only
    split
    · trivial
    · refine (finishTurn_only _ _ _).bind fun _ => ?_
      exact (endRun_only _ _ _).bind fun _ => trivial

theorem requestCancellation_only (runId : UUID) :
    (requestCancellation runId).Only bookkeeping := by
  refine ⟨trivial, fun found => ?_⟩
  cases found with
  | error e => trivial
  | ok existing =>
    refine ⟨trivial, fun requested => ?_⟩
    cases requested with
    | error e => trivial
    | ok requested =>
      simp only
      split
      · refine (finishTurn_only _ _ _).bind fun _ => ?_
        exact (endRun_only _ _ _).bind fun _ => trivial
      · trivial

theorem settleTaskInterruption_only (runId : UUID) :
    (Agent.settleTaskInterruption runId).Only bookkeeping := by
  refine (finalizeTaskInterruption_only runId).attempt.bind fun outcome => ?_
  split <;> trivial

/-! ## What the bookkeeping raises -/

theorem finishTurn_throws (conversationId : Option UUID) (runId : UUID) (status : RunStatus) :
    (AgentRuntime.finishTurn conversationId runId status).Throws RuntimeEnv.Plain
      (· ≠ .exhausted) := by
  cases conversationId with
  | none => trivial
  | some conversationId =>
    intro reply _
    cases reply with
    | ok u => trivial
    | error failure => cases failure <;> simp [Prog.Throws, Failure.error]

theorem endRun_throws (run : Run) (runId : UUID) (type : EventType) :
    (endRun run runId type).Throws RuntimeEnv.Plain (· ≠ .exhausted) := by
  intro saved hsaved
  cases saved with
  | error e => exact hsaved
  | ok u => exact fun _ _ _ _ => trivial

theorem finalizeTaskInterruption_throws (runId : UUID) :
    (finalizeTaskInterruption runId).Throws RuntimeEnv.Plain (· ≠ .exhausted) := by
  intro found hfound
  cases found with
  | error e => cases e <;> trivial
  | ok existing =>
    simp only
    split
    · trivial
    · refine (finishTurn_throws _ _ _).bind fun _ => ?_
      exact (endRun_throws _ _ _).bind fun _ => trivial

theorem requestCancellation_throws (runId : UUID) :
    (requestCancellation runId).Throws RuntimeEnv.Plain (· ≠ .exhausted) := by
  intro found hfound
  cases found with
  | error e => exact hfound
  | ok existing =>
    intro requested hrequested
    cases requested with
    | error e => exact hrequested
    | ok requested =>
      simp only
      split
      · refine (finishTurn_throws _ _ _).bind fun _ => ?_
        exact (endRun_throws _ _ _).bind fun _ => trivial
      · trivial

theorem settleTaskInterruption_throws (runId : UUID) :
    (Agent.settleTaskInterruption runId).Throws RuntimeEnv.Plain (· ≠ .exhausted) := by
  refine (Prog.attempt_throws _).bind fun outcome => ?_
  split
  · trivial
  · simp [Prog.Throws]
  · trivial

/-! ## A small Agent -/

theorem maxToolCalls_positive : 1 ≤ 50 := by decide

def plainAgent (tools : List Tool) (maxToolCalls : Nat := 50)
    (h : 1 ≤ maxToolCalls := by first | exact maxToolCalls_positive | decide) :
    Agent where
  profile :=
    { id := "assistant"
      instructions := "Answer."
      tools := tools.map (·.name)
      maxToolCalls := maxToolCalls
      valid := ⟨by decide, h, by decide, by decide, by decide⟩ }
  providerName := "scripted"
  tools := tools
  registered := by
    intro name hname
    obtain ⟨tool, htool, hname⟩ := List.mem_map.mp hname
    exact ⟨tool, htool, hname⟩
  requestId := fun _ _ => 0
  validateRequest := fun _ => some 0
  sizeBytes := fun _ => 0

/-- Surroundings in which nothing fails: the model answers as `complete` says, and Tools as
`invoke` says. -/
def plainEnv (complete : ModelRequest → ModelResponse) (invoke : ToolCall → ToolOutcome) :
    RuntimeEnv where
  supervisor := defaultSupervisor fun _ => ""
  complete := fun _ request => .ok (complete request)
  invoke := fun _ call _ => { outcome := invoke call }
  recorderStart := fun _ _ => .receipt
  recorderConfirm := fun _ _ => .receipt
  aenter := fun _ _ => .ok ()
  aexit := fun _ _ => .ok ()
  retrieve := fun _ => .ok ()
  beginTurn := fun _ _ => .ok []
  finishTurn := fun _ _ _ => .ok ()

def payTool : Tool := { name := "pay", confirmationRequired := true }

/-- A model that makes the calls of `response` and is content with what they answer. -/
def onceEnv (response : ModelResponse) : RuntimeEnv :=
  plainEnv
    (fun request =>
      if request.messages.any (·.role = .assistant) then
        { content := some "Done.", valid := ModelResponse.done_valid }
      else response)
    fun _ => .value .null

def approvedCalls : Bool → Call
  | false => .run "Pay the bill." 0 none []
  | true => .confirm 0 ⟨0, .approve, "user", "approved", 0⟩

end Runtime
end BaseAgent

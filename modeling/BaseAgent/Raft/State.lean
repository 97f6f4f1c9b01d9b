import BaseAgent.Async.Pool
import BaseAgent.Raft.Parser

/-!
# The journal of the Raft worker, and what the worker awaits

The worker keeps its journal in memory and writes it to a file as a whole.  An `Edit` is one
change of the journal in memory, as the code makes it; a `save` copies memory to the file.

`RaftOp` lists what the worker does to the world: the two files, the journal, the Raft CLI and the
Agent.  Each is one step, so a process can stop between any two of them.  A read of the journal
names the place in the code that reads, and an operation of the CLI or the Agent names the message
that is being processed; nothing depends on these names, and a statement about a run can refer to
them.

The answers of everything outside are oracles, which may depend on the number of the step.  The
Agent is told whether its store already has the Run.
-/

namespace BaseAgent
namespace Raft

open Async

structure WorkerState where
  completedIds : List String := []
  claimedIds : List String := []
  repliedIds : List String := []
  cachedReplies : String → Option CachedReply := fun _ => none
  waitingRuns : String → Option String := fun _ => none
  openTasks : String → Option OpenTask := fun _ => none

inductive Edit where
  | claimed (messageId : String)
  | replied (messageId : String)
  | cached (messageId : String) (reply : CachedReply)
  | waiting (key : String) (runId : String)
  | resumed (key : String)
  | opened (key : String) (task : OpenTask)
  | closed (key : String)
  -- `mark_completed` up to its `save`
  | completed (messageId : String)
  deriving DecidableEq, Repr

namespace WorkerState

/-- The part of `mark_completed` that keeps the list of completed messages. -/
def complete (limit : Nat) (messageId : String) (completedIds : List String) : List String :=
  if messageId ∈ completedIds then completedIds
  else
    let appended := completedIds ++ [messageId]
    appended.drop (appended.length - limit)

/-- `completed_limit` is `limit`. -/
def edit (limit : Nat) (s : WorkerState) : Edit → WorkerState
  | .claimed messageId => { s with claimedIds := s.claimedIds.insert messageId }
  | .replied messageId => { s with repliedIds := s.repliedIds.insert messageId }
  | .cached messageId reply =>
    { s with cachedReplies := Function.update s.cachedReplies messageId (some reply) }
  | .waiting key runId => { s with waitingRuns := Function.update s.waitingRuns key (some runId) }
  | .resumed key => { s with waitingRuns := Function.update s.waitingRuns key none }
  | .opened key task => { s with openTasks := Function.update s.openTasks key (some task) }
  | .closed key => { s with openTasks := Function.update s.openTasks key none }
  | .completed messageId =>
    { s with
      completedIds := complete limit messageId s.completedIds
      claimedIds := s.claimedIds.filter (· ≠ messageId)
      repliedIds := s.repliedIds.filter (· ≠ messageId)
      cachedReplies := Function.update s.cachedReplies messageId none }

end WorkerState

inductive Reader where
  | isCompleted | shouldHandle | claimIfNeeded | cachedReply | waitingRun | openTask | isReplied
  deriving DecidableEq, Repr

inductive RaftOp where
  | readSpool
  | writeSpool (raw : String)
  | clearSpool
  | read (reader : Reader) (message : RaftMessage)
  | edit (change : Edit)
  | save
  -- `raft message check`, which acknowledges what it prints
  | messageCheck
  | sendMessage (messageId target content : String)
  | claimTask (messageId target : String) (number : Nat)
  | updateTask (messageId target : String) (number : Nat) (status : String)
  | run (messageId prompt : String) (runId : UUID) (skills : List String)
  | resume (messageId : String) (runId : UUID) (userInput : String)

namespace RaftOp

def Ret : RaftOp → Type
  | readSpool => Except RaftError (Option String)
  | read .. => WorkerState
  | edit _ => Unit
  | messageCheck => Except RaftError String
  | writeSpool _ | clearSpool | save | sendMessage .. | claimTask .. | updateTask .. =>
    Except RaftError Unit
  | run .. | resume .. => Except RaftError AgentResult

end RaftOp

abbrev RaftProg (α : Type) := Prog RaftOp RaftOp.Ret RaftError α

structure RaftEnv where
  /-- Whether an operation on a file goes through. -/
  file : Nat → Bool := fun _ => true
  check : Nat → Except RaftError String
  send : Nat → String → String → Except RaftError Unit
  claim : Nat → String → Nat → Except RaftError Unit
  update : Nat → String → Nat → String → Except RaftError Unit
  /-- The flag says that the store has the Run. -/
  run : Nat → Bool → String → UUID → List String → Except RaftError AgentResult
  /-- Whether a call of `run` comes to store the Run. -/
  creates : Nat → Bool := fun _ => true
  resume : Nat → UUID → String → Except RaftError AgentResult

/-- What `newlines` leaves of a text.  A line feed after a carriage return is left out. -/
def newlinesFrom (afterReturn : Bool) : List Char → List Char
  | [] => []
  | c :: rest =>
    if c = '\r' then '\n' :: newlinesFrom true rest
    else if c = '\n' && afterReturn then newlinesFrom false rest
    else c :: newlinesFrom false rest

/-- A text as `read_text` reads it from a file: CR and CRLF are read as LF. -/
def newlines (text : String) : String := String.ofList (newlinesFrom false text.toList)

theorem newlinesFrom_of_no_return {text : List Char} (h : '\r' ∉ text) :
    newlinesFrom false text = text := by
  induction text with
  | nil => rfl
  | cons c rest ih =>
    rw [List.mem_cons, not_or] at h
    rw [newlinesFrom, if_neg (Ne.symm h.1), if_neg (by simp), ih h.2]

theorem newlines_of_no_return {text : String} (h : '\r' ∉ text.toList) : newlines text = text := by
  unfold newlines
  rw [newlinesFrom_of_no_return h, String.ofList_toList]

/-- The journal in memory, the two files and the Runs of the Agent's store. -/
structure RaftWorld where
  memory : WorkerState := {}
  disk : Option WorkerState := none
  spool : Option String := none
  runs : List UUID := []
  steps : Nat := 0

namespace RaftEnv

variable (env : RaftEnv) (limit : Nat)

/-- A file operation that leaves the world `w` when it goes through. -/
def onFile (n : Nat) (w w' : RaftWorld) (message : String) : Except RaftError Unit × RaftWorld :=
  if env.file n then (.ok (), w') else (.error (.state message), w)

def reply (w : RaftWorld) : (o : RaftOp) → o.Ret × RaftWorld
  | .readSpool =>
    if env.file w.steps then (.ok (w.spool.map newlines), w)
    else (.error (.state "failed to read Raft inbox spool"), w)
  | .writeSpool raw =>
    env.onFile w.steps w { w with spool := some raw } "failed to persist Raft state"
  | .clearSpool =>
    env.onFile w.steps w { w with spool := none } "failed to remove Raft inbox spool"
  | .read _ _ => (w.memory, w)
  | .edit change => ((), { w with memory := w.memory.edit limit change })
  | .save => env.onFile w.steps w { w with disk := some w.memory } "failed to persist Raft state"
  | .messageCheck => (env.check w.steps, w)
  | .sendMessage _ target content => (env.send w.steps target content, w)
  | .claimTask _ target number => (env.claim w.steps target number, w)
  | .updateTask _ target number status => (env.update w.steps target number status, w)
  | .run _ prompt runId skills =>
    (env.run w.steps (w.runs.contains runId) prompt runId skills,
      if env.creates w.steps then { w with runs := w.runs.insert runId } else w)
  | .resume _ runId userInput => (env.resume w.steps runId userInput, w)

def exec (o : RaftOp) (w : RaftWorld) : o.Ret × RaftWorld :=
  ((env.reply limit w o).1, { (env.reply limit w o).2 with steps := w.steps + 1 })

end RaftEnv

def RaftWorld.restart (w : RaftWorld) : RaftWorld := { w with memory := w.disk.getD {} }

end Raft
end BaseAgent

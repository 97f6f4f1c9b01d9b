import BaseAgent.Raft.State

/-!
# The Raft worker

`run_once` replays the spooled inbox, or drains a new one and spools it, and processes its
messages one after the other.  A message is marked completed when it is not addressed to the
Agent, when the claim of its task is refused, or when its reply has been sent and its task has
moved.  The drain lock makes the calls of `run_once` follow each other, so a process is a sequence
of calls, each of which may raise (`serve`).
-/

namespace BaseAgent
namespace Raft

open Async

structure RaftWorker where
  config : RaftWorkerConfig
  skills : List String := []
  lib : Library

def raftRunNamespace : UUID := 0x97fb75bcff5a41fca4c331fb69cf6d17

namespace RaftWorker

/-! ## The journal -/

def read (reader : Reader) (message : RaftMessage) : RaftProg WorkerState :=
  .call (.read reader message) .ret

def edit (change : Edit) : RaftProg Unit := .call (.edit change) .ret

def save : RaftProg Unit := .call .save Prog.ofExcept

def markCompleted (messageId : String) : RaftProg Unit := do
  edit (.completed messageId)
  save

variable (worker : RaftWorker)

/-! ## Which messages are handled -/

def casefold (text : String) : List Char := text.toList.flatMap worker.lib.casefold

/-- `[\w-]`. -/
def wordOrHyphen (c : Char) : Bool := worker.lib.isWord c || c == '-'

/-- `@handle(?![\w-])`, ignoring case. -/
def mentionAt : List Char → Bool
  | '@' :: rest =>
    let handle := worker.config.handle.toList
    let name := rest.take handle.length
    name.length == handle.length && (name.zip handle).all (fun p => worker.lib.sameLetter p.1 p.2) &&
      (rest.drop handle.length).head?.all fun c => !worker.wordOrHyphen c
  | _ => false

/-- `_mention.search`; `before` is the character in front of the text. -/
def mention (before : Option Char) : List Char → Bool
  | [] => false
  | c :: rest =>
    (before.all (fun b => !worker.wordOrHyphen b) && worker.mentionAt (c :: rest)) ||
      mention (some c) rest

def shouldHandle (message : RaftMessage) (state : WorkerState) : Bool :=
  let agentId := uuidText worker.config.agentId
  if worker.casefold message.senderHandle = worker.casefold worker.config.handle then false
  else if message.senderType = "system" ∨ message.senderType = "third_party_app" then false
  else if message.taskStatus = some "done" ∨ message.taskStatus = some "closed" then false
  else if message.taskAssigneeId.isSome ∧ message.taskAssigneeId ≠ some agentId then false
  else if (state.waitingRuns message.conversationKey).isSome then true
  else if message.isDirectMessage then true
  else if message.taskAssigneeId = some agentId then true
  else worker.mention none message.content.toList

def taskForMessage (message : RaftMessage) (state : WorkerState) : Option OpenTask :=
  match message.taskNumber with
  | some number => some ⟨taskTarget message.target, number⟩
  | none => state.openTasks message.conversationKey

def claimedBySelf (message : RaftMessage) : Bool :=
  message.taskStatus == some "in_progress" &&
    message.taskAssigneeId == some (uuidText worker.config.agentId)

/-- `_claim_if_needed`, for a message with a task. -/
def claimIfNeeded (message : RaftMessage) (number : Nat) : RaftProg Bool := do
  let state ← read .claimIfNeeded message
  if message.messageId ∈ state.claimedIds then return true
  else if worker.claimedBySelf message then do
    edit (.claimed message.messageId)
    save
    return true
  else
    .call (.claimTask message.messageId (taskTarget message.target) number) fun
      | .ok _ => do
        edit (.claimed message.messageId)
        save
        return true
      | .error e => if e.isCommand then .ret false else .raise e

def claim (message : RaftMessage) : RaftProg Bool :=
  match message.taskNumber with
  | some number => worker.claimIfNeeded message number
  | none => .ret true

/-! ## Execution -/

/-- The Run of a message is named after it. -/
def runId (messageId : String) : UUID :=
  worker.lib.uuid5 raftRunNamespace s!"{uuidText worker.config.agentId}:{messageId}"

/-- The result of resuming, or nothing when the Run cannot be resumed. -/
def resumeRun (message : RaftMessage) (waitingRun : String) : RaftProg (Option AgentResult) :=
  match worker.lib.uuid waitingRun with
  | none => .ret none
  | some runId =>
    .call (.resume message.messageId runId message.content) fun
      | .ok result => .ret (some result)
      | .error e => if e.gone then .ret none else .raise e

def startRun (message : RaftMessage) : RaftProg AgentResult :=
  .call (.run message.messageId message.buildPrompt (worker.runId message.messageId) worker.skills)
    Prog.ofExcept

def execute (message : RaftMessage) : RaftProg AgentResult := do
  let state ← read .waitingRun message
  match state.waitingRuns message.conversationKey with
  | none => worker.startRun message
  | some waitingRun =>
    match ← worker.resumeRun message waitingRun with
    | some result => return result
    | none =>
      edit (.resumed message.conversationKey)
      edit (.closed message.conversationKey)
      save
      worker.startRun message

def keepWaiting (message : RaftMessage) (result : AgentResult) (openTask : Option OpenTask) :
    RaftProg Unit :=
  if result.status = .waiting then do
    let runId ← Prog.ofExcept (orRaise result.runId (.key "'run_id'"))
    edit (.waiting message.conversationKey runId)
    match openTask with
    | some task => edit (.opened message.conversationKey task)
    | none => return ()
  else edit (.resumed message.conversationKey)

def replyFor (message : RaftMessage) (result : AgentResult) (openTask : Option OpenTask) :
    CachedReply :=
  { target := replyTarget message openTask
    content := boundedReply result worker.config.maxReplyChars
    moveTaskToReview := result.status = .completed && openTask.isSome
    taskTarget := openTask.map (·.target)
    taskNumber := openTask.map (·.number) }

def cacheReply (message : RaftMessage) (result : AgentResult) (openTask : Option OpenTask) :
    RaftProg CachedReply := do
  keepWaiting message result openTask
  edit (.cached message.messageId (worker.replyFor message result openTask))
  save
  return worker.replyFor message result openTask

def obtainReply (message : RaftMessage) : RaftProg CachedReply := do
  let state ← read .cachedReply message
  match state.cachedReplies message.messageId with
  | some cached => return cached
  | none =>
    let result ← worker.execute message
    let state ← read .openTask message
    worker.cacheReply message result (taskForMessage message state)

def sendReply (message : RaftMessage) (cached : CachedReply) : RaftProg Unit := do
  let state ← read .isReplied message
  if message.messageId ∈ state.repliedIds then return ()
  else
    .call (.sendMessage message.messageId cached.target cached.content) fun
      | .ok _ => do
        edit (.replied message.messageId)
        save
      | .error e => .raise e

def moveTask (message : RaftMessage) (cached : CachedReply) : RaftProg Unit :=
  match cached.moveTaskToReview, cached.taskTarget, cached.taskNumber with
  | true, some target, some number =>
    .call (.updateTask message.messageId target number "in_review") fun
      | .ok _ => do
        edit (.closed message.conversationKey)
        edit (.resumed message.conversationKey)
        save
      | .error e => .raise e
  | _, _, _ => .ret ()

/-- `_process_message`.  The first lookup of the open task is not used. -/
def processMessage (message : RaftMessage) : RaftProg Bool := do
  let state ← read .shouldHandle message
  if worker.shouldHandle message state then do
    if ← worker.claim message then do
      let cached ← worker.obtainReply message
      sendReply message cached
      moveTask message cached
      markCompleted message.messageId
      return true
    else do
      markCompleted message.messageId
      return false
  else do
    markCompleted message.messageId
    return false

/-! ## Draining -/

/-- The loop of `run_once`: the messages handled and skipped. -/
def processMessages (handled skipped : Nat) : List RaftMessage → RaftProg (Nat × Nat)
  | [] => .ret (handled, skipped)
  | message :: rest => do
    let state ← read .isCompleted message
    if message.messageId ∈ state.completedIds then
      processMessages handled (skipped + 1) rest
    else if ← worker.processMessage message then
      processMessages (handled + 1) skipped rest
    else processMessages handled (skipped + 1) rest

def drain (messages : List RaftMessage) : RaftProg RaftDrainResult := do
  let (handled, skipped) ← worker.processMessages 0 0 messages
  .call .clearSpool fun r => do
    let _ ← Prog.ofExcept r
    return ⟨messages.length, handled, skipped⟩

def checkMessages : RaftProg RaftInboxBatch :=
  .call .messageCheck fun r => do
    let raw ← Prog.ofExcept r
    let messages ← Prog.ofExcept (parseRaftMessages worker.lib raw)
    return ⟨raw, messages⟩

def runOnce : RaftProg RaftDrainResult :=
  .call .readSpool fun r => do
    match ← Prog.ofExcept r with
    | some raw => do
      let messages ← Prog.ofExcept (parseRaftMessages worker.lib raw)
      worker.drain messages
    | none => do
      let batch ← worker.checkMessages
      if batch.messages.isEmpty then return ⟨0, 0, 0⟩
      else .call (.writeSpool batch.raw) fun r => do
        let _ ← Prog.ofExcept r
        worker.drain batch.messages

/-- Calls of `run_once`, whatever each one ends in. -/
def serve : Nat → RaftProg Unit
  | 0 => .ret ()
  | n + 1 => worker.runOnce.attempt.bind fun _ => serve n

end RaftWorker

/-- One process, which calls `run_once` so many times. -/
abbrev RaftPool := Pool Unit RaftOp RaftOp.Ret RaftError Unit RaftWorld

abbrev RaftEntry := Entry Unit RaftOp RaftOp.Ret

def RaftWorker.pool (worker : RaftWorker) (calls : Nat) : RaftPool :=
  { shared := {}, tasks := fun _ => worker.serve calls }

def RaftWorker.exec (worker : RaftWorker) (env : RaftEnv) :
    (o : RaftOp) → RaftWorld → o.Ret × RaftWorld :=
  env.exec worker.config.processedMessageLimit

/-! ## Calls that run alone -/

namespace RaftWorker

variable {worker : RaftWorker} {env : RaftEnv} {w : RaftWorld} {raw : String}
variable {messages : List RaftMessage}

def spooled (w : RaftWorld) (raw : String) (steps : Nat) : RaftWorld :=
  { w with spool := some raw, steps := w.steps + steps }

theorem exec_readSpool (hfile : env.file w.steps = true) (hspool : w.spool = some raw) :
    worker.exec env .readSpool w = (.ok (some (newlines raw)), spooled w raw 1) := by
  simp only [RaftWorker.exec, RaftEnv.exec, RaftEnv.reply, hfile, if_true, hspool, Option.map_some]
  rw [spooled, ← hspool]

theorem runOnce_spooled (hfile : env.file w.steps = true) (hspool : w.spool = some raw)
    (hparse : parseRaftMessages worker.lib (newlines raw) = .ok messages) :
    worker.runOnce.eval (worker.exec env) w =
        (worker.drain messages).eval (worker.exec env) (spooled w raw 1) ∧
      worker.runOnce.history (worker.exec env) w =
        ⟨(), .readSpool, .ok (some (newlines raw))⟩ ::
          (worker.drain messages).history (worker.exec env) (spooled w raw 1) := by
  unfold runOnce
  rw [Prog.eval_call (exec_readSpool hfile hspool), Prog.history_call (exec_readSpool hfile hspool)]
  simp only [Prog.bind_eq, Prog.ofExcept_ok, Prog.ret_bind, hparse]
  exact ⟨trivial, trivial⟩

theorem along_spooled {A : RaftWorld → RaftOp → Prop} (hfile : env.file w.steps = true)
    (hspool : w.spool = some raw)
    (hparse : parseRaftMessages worker.lib (newlines raw) = .ok messages)
    (hread : A w .readSpool) :
    worker.runOnce.Along (worker.exec env) A w ↔
      (worker.drain messages).Along (worker.exec env) A (spooled w raw 1) := by
  unfold runOnce
  rw [Prog.along_call (exec_readSpool hfile hspool)]
  simp only [Prog.bind_eq, Prog.ofExcept_ok, Prog.ret_bind, hparse]
  exact and_iff_right hread

theorem runOnce_unreadable {e : RaftError} (hfile : env.file w.steps = true)
    (hspool : w.spool = some raw) (hparse : parseRaftMessages worker.lib (newlines raw) = .error e) :
    (worker.runOnce.eval (worker.exec env) w).1 = .error e := by
  unfold runOnce
  rw [Prog.eval_call (exec_readSpool hfile hspool)]
  simp only [Prog.bind_eq, Prog.ofExcept_ok, Prog.ret_bind, hparse]
  rfl

theorem runOnce_drained (hread : env.file w.steps = true) (hspool : w.spool = none)
    (hcheck : env.check (w.steps + 1) = .ok raw) (hwrite : env.file (w.steps + 2) = true)
    (hparse : parseRaftMessages worker.lib raw = .ok messages) (hsome : messages ≠ []) :
    worker.runOnce.eval (worker.exec env) w =
        (worker.drain messages).eval (worker.exec env) (spooled w raw 3) ∧
      worker.runOnce.history (worker.exec env) w =
        [⟨(), .readSpool, .ok none⟩, ⟨(), .messageCheck, .ok raw⟩,
          ⟨(), .writeSpool raw, .ok ()⟩] ++
          (worker.drain messages).history (worker.exec env) (spooled w raw 3) := by
  have hempty : messages.isEmpty = false := by simpa using hsome
  have hfirst : worker.exec env .readSpool w = (.ok none, { w with steps := w.steps + 1 }) := by
    simp only [RaftWorker.exec, RaftEnv.exec, RaftEnv.reply, hread, if_true, hspool, Option.map_none]
  have hsecond : worker.exec env .messageCheck { w with steps := w.steps + 1 } =
      (.ok raw, { w with steps := w.steps + 2 }) := by
    simp only [RaftWorker.exec, RaftEnv.exec, RaftEnv.reply, hcheck]
  have hthird : worker.exec env (.writeSpool raw) { w with steps := w.steps + 2 } =
      (.ok (), spooled w raw 3) := by
    simp only [RaftWorker.exec, RaftEnv.exec, RaftEnv.reply, RaftEnv.onFile, hwrite, if_true]
    rfl
  unfold runOnce checkMessages
  rw [Prog.eval_call hfirst, Prog.history_call hfirst]
  simp only [Prog.bind_eq, Prog.ofExcept_ok, Prog.ret_bind, Prog.call_bind]
  rw [Prog.eval_call hsecond, Prog.history_call hsecond]
  simp only [Prog.ofExcept_ok, Prog.ret_bind, hparse, Prog.pure_eq, hempty, Bool.false_eq_true,
    if_false]
  rw [Prog.eval_call hthird, Prog.history_call hthird]
  exact ⟨rfl, rfl⟩

theorem serve_succ (n : Nat) :
    (worker.serve (n + 1)).history (worker.exec env) w =
      worker.runOnce.history (worker.exec env) w ++
        (worker.serve n).history (worker.exec env) (worker.runOnce.eval (worker.exec env) w).2 := by
  have heval : (worker.runOnce.attempt : RaftProg (Except RaftError RaftDrainResult)).eval
      (worker.exec env) w = (.ok (worker.runOnce.eval (worker.exec env) w).1,
        (worker.runOnce.eval (worker.exec env) w).2) := Prog.eval_attempt _ _
  rw [serve, Prog.history_bind_ok heval, Prog.history_attempt]

end RaftWorker

end Raft
end BaseAgent

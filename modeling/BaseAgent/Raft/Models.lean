import BaseAgent.Models.Run
import BaseAgent.Models.Unicode

/-!
# The data of the Raft worker

Messages, the configuration, the journal of the worker and what it reads of an Agent's result.
The paths of the two files, logging and the wake bridge are left out.

`Library` is what the code takes from the interpreter and what depends on its tables: the Unicode
database, `uuid5` and the parser of `UUID`.  The fields with proofs say what the tables hold for
ASCII.
-/

namespace BaseAgent
namespace Raft

structure Library where
  /-- `str.casefold` folds character by character. -/
  casefold : Char → List Char
  /-- `\w`. -/
  isWord : Char → Bool
  /-- Two characters that a pattern with `re.IGNORECASE` does not tell apart. -/
  sameLetter : Char → Char → Bool
  /-- `\d`, and the digit that `int` reads. -/
  decimal : Char → Option Nat
  uuid5 : UUID → String → UUID
  /-- `UUID(text)`, which raises `ValueError` on other texts. -/
  uuid : String → Option UUID
  casefold_ascii : ∀ c : Char, c.toNat < 128 → casefold c = [c.toLower]
  word_ascii : ∀ c : Char, c.toNat < 128 → isWord c = (c.isAlphanum || c == '_')
  letter_ascii : ∀ a b : Char, a.toNat < 128 → b.toNat < 128 →
    sameLetter a b = (a.toLower == b.toLower)
  decimal_ascii : ∀ c : Char, c.toNat < 128 →
    decimal c = if c.isDigit then some (c.toNat - '0'.toNat) else none

def hexDigit (c : Char) : Option Nat :=
  if c.isDigit then some (c.toNat - '0'.toNat)
  else if 'a' ≤ c ∧ c ≤ 'f' then some (c.toNat - 'a'.toNat + 10)
  else none

/-- The tables cut down to ASCII, and identifiers that spell out the name. -/
def asciiLibrary : Library where
  casefold c := [c.toLower]
  isWord c := c.isAlphanum || c == '_'
  sameLetter a b := a.toLower == b.toLower
  decimal c := if c.isDigit then some (c.toNat - '0'.toNat) else none
  uuid5 _ name := name.toList.foldl (fun n c => 128 * n + c.toNat) 1 % 2 ^ 128
  uuid text := ((text.toList.filter (· ≠ '-')).mapM hexDigit).map
    (List.foldl (fun n d => 16 * n + d) 0)
  casefold_ascii := Unicode.ascii.casefold_ascii
  word_ascii _ _ := rfl
  letter_ascii _ _ _ _ := rfl
  decimal_ascii _ _ := rfl

/-- Exceptions that the worker raises, passes on or catches. -/
inductive RaftError where
  /-- `RaftCliCommandError`. -/
  | command (command : String) (returncode : Int) (stderr : String)
  /-- `RaftCliNotFoundError`, `RaftCliTimeoutError` and `RaftCliOutputLimitError`. -/
  | cli (typeName message : String)
  | protocol (message : String)
  | state (message : String)
  | runNotFound (message : String)
  /-- A subclass of `ValueError`. -/
  | runAlreadyExists (message : String)
  | value (message : String)
  | key (message : String)
  | other (typeName message : String)
  deriving DecidableEq, Repr

namespace RaftError

/-- The exceptions of `resume` after which the worker starts a new Run. -/
def gone : RaftError → Bool
  | runNotFound _ | runAlreadyExists _ | value _ => true
  | _ => false

def isCommand : RaftError → Bool
  | command .. => true
  | _ => false

end RaftError

structure RaftMessage where
  target : String
  messageId : String
  timestamp : String
  senderType : String
  senderHandle : String
  content : String
  taskNumber : Option Nat := none
  taskStatus : Option String := none
  taskAssigneeType : Option String := none
  taskAssigneeId : Option String := none
  deriving DecidableEq, Repr

namespace RaftMessage

def isDirectMessage (m : RaftMessage) : Bool := startsWith m.target "dm:@"

def isThread (m : RaftMessage) : Bool :=
  if startsWith m.target "dm:@" then 2 ≤ m.target.toList.count ':'
  else startsWith m.target "#" && m.target.toList.contains ':'

def conversationKey (m : RaftMessage) : String :=
  if m.isDirectMessage || m.isThread then m.target else s!"{m.target}:{m.messageId}"

def buildPrompt (m : RaftMessage) : String :=
  let taskContext := match m.taskNumber with
    | some number =>
      let status := m.taskStatus.getD "None"
      s!"Raft task #{number} ({status}).\n"
    | none => ""
  "You are responding through a Raft External Agent Worker. " ++
    "Do not invoke Raft CLI commands or attempt to send the response yourself; " ++
    "the Worker owns task claims, transport, and status updates.\n" ++
    s!"Sender: @{m.senderHandle}\nSource: {m.target}\n" ++ taskContext ++ "Request:\n" ++ m.content

end RaftMessage

structure RaftInboxBatch where
  raw : String
  messages : List RaftMessage

structure RaftDrainResult where
  received : Nat
  handled : Nat
  skipped : Nat
  deriving DecidableEq, Repr

/-- The settings that the worker reads, as `__post_init__` leaves them. -/
structure RaftWorkerConfig where
  agentId : UUID
  handle : String
  maxReplyChars : Nat := 8000
  processedMessageLimit : Nat := 5000
  valid : handle ≠ "" ∧ handle.toList.all (fun c => !isSpace c) = true ∧ 256 ≤ maxReplyChars ∧
    100 ≤ processedMessageLimit

structure OpenTask where
  target : String
  number : Nat
  deriving DecidableEq, Repr

structure CachedReply where
  target : String
  content : String
  moveTaskToReview : Bool := false
  taskTarget : Option String := none
  taskNumber : Option Nat := none
  deriving DecidableEq, Repr

/-- What the worker reads of an `AgentResult`; `runId` is the text of `metadata["run_id"]`. -/
structure AgentResult where
  status : AgentResultStatus
  output : Option String := none
  error : Option String := none
  runId : Option String := none
  deriving DecidableEq, Repr

/-- `text or fallback`. -/
def orElseText (text : Option String) (fallback : String) : String :=
  match text with
  | some t => if t = "" then fallback else t
  | none => fallback

def boundedReply (result : AgentResult) (limit : Nat) : String :=
  let text := match result.status with
    | .completed => orElseText result.output "已完成，但没有文本输出。"
    | .waiting => orElseText result.output "需要更多信息才能继续，请在当前线程回复。"
    | status =>
      let detail := orElseText result.error (orElseText result.output status.value)
      s!"处理未完成（{status.value}）：{detail}"
  let marker := "\n\n[结果已截断；完整内容保留在本地 Run/Artifact 中。]"
  if text.length ≤ limit then text
  else String.ofList (text.toList.take (limit - marker.length)) ++ marker

def taskTarget (target : String) : String :=
  if startsWith target "#" && target.toList.contains ':' then
    String.ofList (target.toList.takeWhile (· ≠ ':'))
  else target

def replyTarget (m : RaftMessage) (openTask : Option OpenTask) : String :=
  if openTask.isSome && startsWith m.target "#" && !m.isThread then s!"{m.target}:{m.messageId}"
  else m.target

end Raft
end BaseAgent

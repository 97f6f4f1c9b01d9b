import BaseAgent.Raft.Models

/-!
# The parser of `raft message check`

The three patterns of the parser are written out as functions on lists of characters.  Each
repetition in them stops at a character that what follows it cannot begin with, so a match needs
no backtracking; the one lazy repetition, the timestamp, is a search for the first place at which
the rest of the header fits.

A header stands at the start of a line and does not reach over its end, so `finditer` finds at
most one header in a line, and the body of an envelope is the rest of that line with the lines up
to the next header.
-/

namespace BaseAgent
namespace Raft

section Text

def literal (expected : String) (text : List Char) : Option (List Char) :=
  if expected.toList.isPrefixOf text then some (text.drop expected.length) else none

/-- `[class]+`: the longest run of the characters, which is not empty, and the text after it. -/
def someOf (accepts : Char → Bool) (text : List Char) : Option (List Char × List Char) :=
  if (text.takeWhile accepts).isEmpty then none
  else some (text.takeWhile accepts, text.dropWhile accepts)

def rstrip (text : List Char) : List Char := (text.reverse.dropWhile isSpace).reverse

/-- The lines of a text, without the line feeds that separate them. -/
def lines : List Char → List (List Char)
  | [] => [[]]
  | c :: rest =>
    if c = '\n' then [] :: lines rest
    else match lines rest with
      | [] => [[c]]
      | line :: others => (c :: line) :: others

def joinLines (ls : List (List Char)) : List Char := List.intercalate ['\n'] ls

end Text

/-! ## The header -/

structure Header where
  target : String
  messageId : String
  timestamp : String
  senderType : String
  deriving DecidableEq, Repr

/-- ` type=(?P<sender_type>[^\]\s]+)\] `. -/
def headerType (text : List Char) : Option (List Char × List Char) := do
  let text ← literal " type=" text
  let (senderType, text) ← someOf (fun c => c ≠ ']' && !isSpace c) text
  let text ← literal "] " text
  return (senderType, text)

/-- `(?P<timestamp>.*?) type=...\] `: the first place at which the rest fits. -/
def headerTime : List Char → Option (List Char × List Char × List Char)
  | [] => none
  | c :: rest =>
    match headerType (c :: rest) with
    | some (senderType, after) => some ([], senderType, after)
    | none => (headerTime rest).map fun (timestamp, senderType, after) =>
        (c :: timestamp, senderType, after)

/-- `_HEADER`, at the start of a line, and the rest of the line. -/
def header (line : List Char) : Option (Header × List Char) := do
  let text ← literal "[target=" line
  let (target, text) ← someOf (fun c => !isSpace c) text
  let text ← literal " msg=" text
  let (messageId, text) ← someOf (fun c => !isSpace c) text
  let text ← literal " time=" text
  let (timestamp, senderType, text) ← headerTime text
  return ({ target := String.ofList target
            messageId := String.ofList messageId
            timestamp := String.ofList timestamp
            senderType := String.ofList senderType }, text)

def envelopes : List (List Char) → List (Header × List Char)
  | [] => []
  | line :: rest =>
    match header line with
    | some (h, tail) =>
      (h, rstrip (joinLines (tail :: rest.takeWhile fun l => (header l).isNone))) :: envelopes rest
    | none => envelopes rest

/-! ## The body -/

/-- `_SENDER`: the handle and the content. -/
def sender (body : List Char) : Option (List Char × List Char) := do
  let text ← literal "@" body
  let (handle, text) ← someOf (fun c => !isSpace c && c ≠ ':') text
  let text := match literal " — " text with
    | some titled => titled.dropWhile fun c => c ≠ ':' && c ≠ '\n'
    | none => text
  let content ← literal ": " text
  return (handle, content)

structure TaskTag where
  digits : List Char
  status : String
  assignee : Option (String × String) := none
  deriving DecidableEq, Repr

def isKeyword (c : Char) : Bool := c.isLower || c == '_'

/-- ` assignee=(?P<assignee_type>[a-z_]+):(?P<assignee_id>[^\]\s]+)`. -/
def taskAssignee (text : List Char) : Option ((String × String) × List Char) := do
  let text ← literal " assignee=" text
  let (kind, text) ← someOf isKeyword text
  let text ← literal ":" text
  let (id, text) ← someOf (fun c => c ≠ ']' && !isSpace c) text
  return ((String.ofList kind, String.ofList id), text)

variable (lib : Library)

/-- `_TASK` behind its white space.  Only white space follows the tag. -/
def taskTag (text : List Char) : Option TaskTag := do
  let text ← literal "[task #" text
  let (digits, text) ← someOf (fun c => (lib.decimal c).isSome) text
  let text ← literal " status=" text
  let (status, text) ← someOf isKeyword text
  let (assignee, text) := match taskAssignee text with
    | some (assignee, rest) => (some assignee, rest)
    | none => (none, text)
  let text ← literal "]" text
  if text.all isSpace then
    return { digits, status := String.ofList status, assignee }
  else none

/-- `_TASK.search(content)`: the text before the match, and the tag. -/
def taskSearch : List Char → Option (List Char × TaskTag)
  | [] => none
  | c :: rest =>
    match if isSpace c then taskTag lib ((c :: rest).dropWhile isSpace) else none with
    | some tag => some ([], tag)
    | none => (taskSearch rest).map fun (before, tag) => (c :: before, tag)

/-- `int(digits)`, which refuses more than 4300 digits. -/
def readInt (digits : List Char) : Except RaftError Nat :=
  if 4300 < digits.length then
    .error (.value ("Exceeds the limit (4300 digits) for integer string conversion: value has " ++
      s!"{digits.length} digits; use sys.set_int_max_str_digits() to increase the limit"))
  else .ok (digits.foldl (fun n c => 10 * n + (lib.decimal c).getD 0) 0)

def parseEnvelope (h : Header) (body : List Char) : Except RaftError RaftMessage := do
  let (handle, content) ← orRaise (sender body) (RaftError.protocol
    "raft message check returned a message with an unsupported sender envelope")
  let content := rstrip content
  let (content, number, tag) ← match taskSearch lib content with
    | some (before, tag) => do
      let number ← readInt lib tag.digits
      pure (rstrip before, some number, some tag)
    | none => pure (content, none, none)
  raiseIf (h.messageId = "-") (RaftError.protocol "raft message envelope is missing its message id")
  return { target := h.target
           messageId := h.messageId
           timestamp := h.timestamp
           senderType := h.senderType
           senderHandle := String.ofList handle
           content := String.ofList content
           taskNumber := number
           taskStatus := tag.map (·.status)
           taskAssigneeType := tag.bind fun t => t.assignee.map (·.1)
           taskAssigneeId := tag.bind fun t => t.assignee.map (·.2) }

def drainSuffixes : List String :=
  ["\nNo more new messages.", "\nMore messages are pending. Run `raft message check` again."]

def dropSuffix (text : List Char) : List String → List Char
  | [] => text
  | suffix :: rest =>
    if suffix.toList.isSuffixOf text then rstrip (text.take (text.length - suffix.length))
    else dropSuffix text rest

def normalized (output : String) : List Char :=
  let text := rstrip output.toList
  if text = [] ∨ text = "No new messages.".toList then text else dropSuffix text drainSuffixes

def parseRaftMessages (output : String) : Except RaftError (List RaftMessage) :=
  let text := normalized output
  if text = [] ∨ text = "No new messages.".toList then .ok []
  else if envelopes (lines text) = [] then
    .error (.protocol "raft message check returned output without a recognized message envelope")
  else (envelopes (lines text)).mapM fun (h, body) => parseEnvelope lib h body

end Raft
end BaseAgent

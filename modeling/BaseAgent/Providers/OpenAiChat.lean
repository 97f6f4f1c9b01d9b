import BaseAgent.Models.JsonReading
import BaseAgent.Providers.Cli
import BaseAgent.Runtime.Issued

/-!
# The adapter of OpenAI-compatible services

`messageToOpenai` makes the payload of a message, and `responseFromOpenai` reads a completion.
The arguments of a Tool call travel as a JSON text.  A response that the adapter accepts can be
sent back to the service, and a service that repeats it is read as the same response
(`accepted_repeats`).  In every Run that uses the adapter, a request can be sent unless it carries
attachments or memories (`requests_sendable`).
-/

namespace BaseAgent
namespace Providers

open Async BaseAgent.Runtime

/-! ## What the adapter and the service exchange -/

/-- What the adapter raises.  `foreign` is no exception of the program: it marks arguments with a
value that is no `JsonValue`. -/
inductive OpenAiError where
  | unsupportedAttachment (message : String)
  | unsupportedMemory (message : String)
  | invalidResponse (message : String)
  /-- `ValidationError`, with what it is about. -/
  | validation (errors : List String)
  /-- `TypeError`, for a value that has no JSON text. -/
  | type
  /-- `ValueError`, for an integer of too many digits. -/
  | digits
  | foreign
  | transport (failure : Failure)
  deriving DecidableEq, Repr

inductive Attribute where
  | absent
  | none
  | text (value : String)
  deriving DecidableEq, Repr

/-- `str(getattr(object, name, ""))`. -/
def Attribute.str : Attribute → String
  | absent => ""
  | none => "None"
  | text value => value

/-- `getattr(function, "arguments", "{}") or "{}"`. -/
def Attribute.arguments : Attribute → String
  | absent | none => "\x7b\x7d"
  | text value => if value = "" then "\x7b\x7d" else value

structure OpenAiFunction where
  name : Attribute
  arguments : Attribute

structure OpenAiToolCall where
  id : Attribute
  function : Option OpenAiFunction

structure OpenAiMessage where
  content : Option String := .none
  refusal : Option String := .none
  toolCalls : List OpenAiToolCall := []

structure OpenAiChoice where
  message : Option OpenAiMessage
  finishReason : Option String := .none

/-- The counts of a completion, where they are given. -/
structure OpenAiUsage where
  promptTokens : Option Int := .none
  completionTokens : Option Int := .none
  totalTokens : Option Int := .none

structure OpenAiCompletion where
  choices : List OpenAiChoice
  usage : Option OpenAiUsage := .none
  id : Option String := .none
  model : Option String := .none
  requestId : Option String := .none
  systemFingerprint : Option String := .none

/-- An entry of `tool_calls` in a payload. -/
structure SentToolCall where
  id : String
  type : String := "function"
  name : String
  arguments : String
  deriving DecidableEq, Repr

/-- The payload of a message.  A key that is absent is `none`. -/
structure SentMessage where
  role : String
  content : Option String
  toolCalls : Option (List SentToolCall) := .none
  toolCallId : Option String := .none
  deriving DecidableEq, Repr

structure ToolDefinition where
  name : String
  description : String
  inputSchema : List (String × JsonValue)

/-- A model request with all that the adapter reads of it. -/
structure ChatRequest where
  messages : List Message
  tools : List ToolDefinition := []
  toolChoice : ToolChoice := .auto
  model : Option String := .none
  attachments : List Attachment := []
  memories : List String := []

/-- The keyword arguments of `create`. -/
structure Parameters where
  model : String
  messages : List SentMessage
  tools : Option (List ToolDefinition) := .none
  toolChoice : Option ToolChoice := .none
  temperature : Option ℚ := .none
  maxCompletionTokens : Option Int := .none

/-- A model response, with what only the caller of the adapter reads of it. -/
structure ChatResponse extends ModelResponse where
  finishReason : Option String
  providerMetadata : List (String × String)

/-! ## Checks of Tool calls -/

/-- `^[A-Za-z0-9_.-]+$`, with at most 128 characters. -/
def validName (name : String) : Bool :=
  name.toList.all (fun c => c.isAlphanum || c == '_' || c == '.' || c == '-') &&
    !name.toList.isEmpty && name.length ≤ 128

/-- What `ToolCall` checks of its fields. -/
def ValidCall (call : ToolCall) : Prop := call.id ≠ "" ∧ validName call.name = true

instance (call : ToolCall) : Decidable (ValidCall call) :=
  inferInstanceAs (Decidable (call.id ≠ "" ∧ validName call.name = true))

/-- `ToolCall(id=..., name=..., arguments=...)`. -/
def validateCall (call : ToolCall) : Except OpenAiError ToolCall :=
  let errors := (if call.id = "" then ["id"] else []) ++
    if validName call.name = true then [] else ["name"]
  if errors = [] then .ok call else .error (.validation errors)

theorem validateCall_ok {call found : ToolCall} :
    validateCall call = .ok found ↔ found = call ∧ ValidCall call := by
  unfold validateCall ValidCall
  by_cases hid : call.id = ""
  · simp [hid]
  · by_cases hname : validName call.name = true
    · simp [hid, hname, eq_comm]
    · simp [hid, hname]

/-! ## From a message to its payload -/

section Sending

variable (p : Printing) (render : ToolResult → String)

/-- An entry of `tool_calls`. -/
def callToOpenai (call : ToolCall) : Except OpenAiError SentToolCall :=
  match JsonValue.dumps p (.obj call.arguments) with
  | .ok text => .ok { id := call.id, name := call.name, arguments := String.ofList text }
  | .error .type => .error .type
  | .error .digits => .error .digits

def callsToOpenai : List ToolCall → Except OpenAiError (List SentToolCall)
  | [] => .ok []
  | call :: rest => do
    let sent ← callToOpenai p call
    let others ← callsToOpenai rest
    return sent :: others

/-- The text of a message.  `render` is `ToolResult.model_dump_json`. -/
def contentText : Content → String
  | .text text => text
  | .result result => render result

def messageToOpenai (message : Message) : Except OpenAiError SentMessage :=
  let content := message.content.map (contentText render)
  match message.role with
  | .assistant =>
    if message.toolCalls.isEmpty then .ok { role := "assistant", content := content }
    else do
      let calls ← callsToOpenai p message.toolCalls
      return { role := "assistant", content := content, toolCalls := some calls }
  | .tool => .ok { role := "tool", content := content, toolCallId := message.toolCallId }
  | .system => .ok { role := "system", content := content }
  | .user => .ok { role := "user", content := content }

def messagesToOpenai : List Message → Except OpenAiError (List SentMessage)
  | [] => .ok []
  | message :: rest => do
    let sent ← messageToOpenai p render message
    let others ← messagesToOpenai rest
    return sent :: others

end Sending

/-! ## From a completion to a response -/

section Receiving

variable (float : FloatReading)

def toolCallFromOpenai (call : OpenAiToolCall) : Except OpenAiError ToolCall :=
  match call.function with
  | .none => .error (.invalidResponse "tool call has no function payload")
  | some function =>
    match JsonValue.loads float function.arguments.arguments.toList with
    | .ok (.obj arguments) =>
      validateCall { id := call.id.str, name := function.name.str, arguments := arguments }
    | .ok _ => .error (.invalidResponse "tool call arguments must decode to a JSON object")
    | .error .decode =>
      .error (.invalidResponse s!"tool call '{call.id.str}' contains invalid JSON arguments")
    | .error .digits => .error .digits
    | .error .foreign => .error .foreign

def toolCallsFromOpenai : List OpenAiToolCall → Except OpenAiError (List ToolCall)
  | [] => .ok []
  | call :: rest => do
    let found ← toolCallFromOpenai float call
    let others ← toolCallsFromOpenai rest
    return found :: others

/-- `TokenUsage(...)`: the sum is checked before the counts are. -/
def validateUsage (input output total : Int) : Except OpenAiError TokenUsage :=
  if total ≠ 0 ∧ total ≠ input + output then
    .error (.validation ["total_tokens must equal input_tokens + output_tokens"])
  else
    let errors := (if input < 0 then ["input_tokens"] else []) ++
      (if output < 0 then ["output_tokens"] else []) ++
        if input + output < 0 then ["total_tokens"] else []
    if errors = [] then .ok ⟨input.toNat, output.toNat⟩ else .error (.validation errors)

def usageFromOpenai : Option OpenAiUsage → Except OpenAiError TokenUsage
  | .none => .ok {}
  | some usage => validateUsage (usage.promptTokens.getD 0) (usage.completionTokens.getD 0)
      (usage.totalTokens.getD 0)

def compactMapping (values : List (String × Option String)) : List (String × String) :=
  values.filterMap fun entry => entry.2.map fun value => (entry.1, value)

def responseFromOpenai (completion : OpenAiCompletion) : Except OpenAiError ChatResponse :=
  match completion.choices with
  | [] => .error (.invalidResponse "OpenAI-compatible response has no choices")
  | choice :: _ =>
    match choice.message with
    | .none => .error (.invalidResponse "OpenAI-compatible response choice has no message")
    | some message => do
      let toolCalls ← toolCallsFromOpenai float message.toolCalls
      let content := message.content.or message.refusal
      if h : content ≠ .none ∨ toolCalls ≠ [] then
        let usage ← usageFromOpenai completion.usage
        return {
          content := content
          toolCalls := toolCalls
          usage := usage
          valid := h
          finishReason := choice.finishReason
          providerMetadata := compactMapping [("id", completion.id), ("model", completion.model),
            ("request_id", completion.requestId),
            ("system_fingerprint", completion.systemFingerprint), ("refusal", message.refusal)] }
      else .error (.invalidResponse
        "OpenAI-compatible response message has neither content nor tool_calls")

end Receiving

/-! ## A request -/

structure OpenAiChatProvider where
  model : String
  temperature : Option ℚ := .none
  maxCompletionTokens : Option Int := .none

namespace OpenAiChatProvider

variable (provider : OpenAiChatProvider) (p : Printing) (render : ToolResult → String)

/-- The keyword arguments that `complete` gives to the client. -/
def parameters (request : ChatRequest) : Except OpenAiError Parameters :=
  if request.attachments ≠ [] then
    .error (.unsupportedAttachment ("OpenAIChatProvider does not map attachments; use an " ++
      "attachment-capable Provider or process them through Tools"))
  else if request.memories ≠ [] then
    .error (.unsupportedMemory ("OpenAIChatProvider does not map retrieved memories; use a " ++
      "memory-capable Provider or retrieve them through Tools"))
  else do
    let messages ← messagesToOpenai p render request.messages
    return {
      model := (request.model.filter (· ≠ "")).getD provider.model
      messages := messages
      tools := if request.tools.isEmpty then .none else some request.tools
      toolChoice :=
        if !request.tools.isEmpty then some request.toolChoice
        else if request.toolChoice = .none then some .none else .none
      temperature := provider.temperature
      maxCompletionTokens := provider.maxCompletionTokens }

/-- `complete`.  `create` is what the client answers. -/
def complete (float : FloatReading) (create : Parameters → Except Failure OpenAiCompletion)
    (request : ChatRequest) : Except OpenAiError ChatResponse := do
  let parameters ← provider.parameters p render request
  let completion ← (create parameters).mapError .transport
  responseFromOpenai float completion

end OpenAiChatProvider

/-! ## What the service sends back -/

def SentToolCall.received (sent : SentToolCall) : OpenAiToolCall where
  id := .text sent.id
  function := some { name := .text sent.name, arguments := .text sent.arguments }

def SentMessage.completion (sent : SentMessage) : OpenAiCompletion where
  choices := [{
    message := some {
      content := sent.content
      toolCalls := (sent.toolCalls.getD []).map (·.received) } }]

/-- A Tool call that can be sent, and is read back as it was. -/
structure Sendable (p : Printing) (float : FloatReading) (call : ToolCall) : Prop where
  valid : ValidCall call
  readable : JsonValue.Readable p float (.obj call.arguments)
  dumps : JsonValue.dumpsFault (.obj call.arguments) = none

section Calls

variable {p : Printing} {float : FloatReading} {call : ToolCall}

def sentCall (p : Printing) (call : ToolCall) : SentToolCall where
  id := call.id
  name := call.name
  arguments := String.ofList (JsonValue.compact p (.obj call.arguments))

theorem callToOpenai_sent (h : JsonValue.dumpsFault (.obj call.arguments) = none) :
    callToOpenai p call = .ok (sentCall p call) := by
  have hdumps : JsonValue.dumps p (.obj call.arguments) =
      .ok (JsonValue.compact p (.obj call.arguments)) := by
    unfold JsonValue.dumps
    rw [h]
  unfold callToOpenai
  rw [hdumps]
  rfl

theorem callsToOpenai_sent {calls : List ToolCall}
    (h : ∀ call ∈ calls, JsonValue.dumpsFault (.obj call.arguments) = none) :
    callsToOpenai p calls = .ok (calls.map (sentCall p)) := by
  induction calls with
  | nil => rfl
  | cons call rest ih =>
    rw [List.forall_mem_cons] at h
    rw [callsToOpenai, callToOpenai_sent h.1, ih h.2]
    rfl

theorem Sendable.received (h : Sendable p float call) :
    toolCallFromOpenai float (sentCall p call).received = .ok call := by
  have hne : (sentCall p call).arguments ≠ "" := by
    intro hempty
    have hlist := congrArg String.toList hempty
    rw [sentCall, String.toList_ofList, JsonValue.compact] at hlist
    cases hlist
  have htext : (Attribute.text (sentCall p call).arguments).arguments.toList =
      JsonValue.compact p (.obj call.arguments) := by
    rw [Attribute.arguments, if_neg hne, sentCall, String.toList_ofList]
  have hloads : JsonValue.loads float (Attribute.text (sentCall p call).arguments).arguments.toList =
      .ok (.obj call.arguments) := by
    rw [htext, JsonValue.loads_compact h.readable, JsonValue.texts_of_dumps h.dumps]
  unfold toolCallFromOpenai
  simp only [SentToolCall.received, hloads]
  exact validateCall_ok.mpr ⟨rfl, h.valid⟩

theorem toolCalls_received {calls : List ToolCall} (h : ∀ call ∈ calls, Sendable p float call) :
    toolCallsFromOpenai float ((calls.map (sentCall p)).map (·.received)) = .ok calls := by
  induction calls with
  | nil => rfl
  | cons call rest ih =>
    rw [List.forall_mem_cons] at h
    rw [List.map_cons, List.map_cons, toolCallsFromOpenai, h.1.received, ih h.2]
    rfl

theorem sendable_of_accepted (hprint : p.Repeats float) {received : OpenAiToolCall}
    (h : toolCallFromOpenai float received = .ok call) : Sendable p float call := by
  unfold toolCallFromOpenai at h
  split at h
  · cases h
  · split at h
    · rename_i arguments hloads
      obtain ⟨rfl, hvalid⟩ := validateCall_ok.mp h
      obtain ⟨hreadable, hdumps⟩ := JsonValue.loads_readable hprint hloads
      exact ⟨hvalid, hreadable, hdumps⟩
    all_goals cases h

theorem sendable_of_acceptedAll (hprint : p.Repeats float) {received : List OpenAiToolCall}
    {calls : List ToolCall} (h : toolCallsFromOpenai float received = .ok calls) :
    ∀ call ∈ calls, Sendable p float call := by
  induction received generalizing calls with
  | nil =>
    cases h
    exact fun _ hmem => absurd hmem List.not_mem_nil
  | cons first rest ih =>
    obtain ⟨found, hfound, h⟩ := Except.bind_ok.mp h
    obtain ⟨others, hothers, h⟩ := Except.bind_ok.mp h
    cases h
    exact List.forall_mem_cons.mpr ⟨sendable_of_accepted hprint hfound, ih hothers⟩

end Calls

section Responses

variable {p : Printing} {float : FloatReading}

def sentReply (p : Printing) (response : ModelResponse) : SentMessage where
  role := "assistant"
  content := response.content
  toolCalls :=
    if response.toolCalls.isEmpty then none else some (response.toolCalls.map (sentCall p))

theorem messageToOpenai_reply (render : ToolResult → String) {response : ModelResponse}
    (h : ∀ call ∈ response.toolCalls, Sendable p float call) :
    messageToOpenai p render response.toAssistantMessage = .ok (sentReply p response) := by
  have hcontent : (response.content.map Content.text).map (contentText render) =
      response.content := by
    cases response.content <;> rfl
  have hsent := callsToOpenai_sent (p := p) fun call hcall => (h call hcall).dumps
  simp only [messageToOpenai, ModelResponse.toAssistantMessage, Message.assistant, hcontent]
  by_cases hempty : response.toolCalls.isEmpty = true
  · rw [if_pos hempty, sentReply, if_pos hempty]
  · rw [if_neg hempty, hsent, sentReply, if_neg hempty]
    rfl

/-- A response whose Tool calls can be sent goes to the service and back. -/
theorem reply_received (response : ModelResponse)
    (h : ∀ call ∈ response.toolCalls, Sendable p float call) :
    ∃ again, responseFromOpenai float (sentReply p response).completion = .ok again ∧
      again.content = response.content ∧ again.toolCalls = response.toolCalls := by
  have hcalls : ((sentReply p response).toolCalls.getD []) = response.toolCalls.map (sentCall p) := by
    unfold sentReply
    by_cases hempty : response.toolCalls.isEmpty = true
    · rw [if_pos hempty, List.isEmpty_iff.mp hempty]
      rfl
    · rw [if_neg hempty]
      rfl
  have hcontent : response.content.or none = response.content := by simp
  have hvalid : response.content.or none ≠ none ∨ response.toolCalls ≠ [] := by
    rw [hcontent]
    exact response.valid
  have hread : toolCallsFromOpenai float
      (((sentReply p response).toolCalls.getD []).map (·.received)) = .ok response.toolCalls := by
    rw [hcalls]
    exact toolCalls_received h
  simp only [responseFromOpenai, SentMessage.completion, hread]
  show ∃ again, (if h : response.content.or none ≠ none ∨ response.toolCalls ≠ [] then _
    else _) = Except.ok again ∧ _
  rw [dif_pos hvalid]
  exact ⟨_, rfl, hcontent, rfl⟩

theorem sendable_of_response (hprint : p.Repeats float) {completion : OpenAiCompletion}
    {response : ChatResponse} (h : responseFromOpenai float completion = .ok response) :
    ∀ call ∈ response.toolCalls, Sendable p float call := by
  unfold responseFromOpenai at h
  split at h
  · cases h
  · split at h
    · cases h
    · obtain ⟨calls, hcalls, h⟩ := Except.bind_ok.mp h
      simp only at h
      split at h
      · obtain ⟨usage, -, h⟩ := Except.bind_ok.mp h
        cases h
        exact sendable_of_acceptedAll hprint hcalls
      · cases h

/-- A response that the adapter accepts can be sent back to the service, and a service that
repeats it is read as the same response. -/
theorem accepted_repeats (hprint : p.Repeats float) (render : ToolResult → String)
    (completion : OpenAiCompletion) (response : ChatResponse)
    (h : responseFromOpenai float completion = .ok response) :
    ∃ sent again, messageToOpenai p render response.toAssistantMessage = .ok sent ∧
      responseFromOpenai float sent.completion = .ok again ∧
      again.content = response.content ∧ again.toolCalls = response.toolCalls := by
  have hsendable := sendable_of_response hprint h
  obtain ⟨again, hagain, hsame⟩ := reply_received response.toModelResponse hsendable
  exact ⟨_, again, messageToOpenai_reply render hsendable, hagain, hsame⟩

/-- The one `float` that is read below, and its text. -/
def halfPrinting : Printing where
  float _ := String.ofList ['0', '.', '5']
  time _ := ""

def readHalf : FloatReading := fun literal =>
  if literal = ['0', '.', '5'] then some (1 / 2) else none

theorem halfPrinting_repeats : halfPrinting.Repeats readHalf := by
  intro literal x hx
  have hhalf : x = 1 / 2 := by
    unfold readHalf at hx
    split at hx
    · exact (Option.some.inj hx).symm
    · cases hx
  have hnumber : halfPrinting.style.number (.float x) = ['0', '.', '5'] := by
    have htext : halfPrinting.float x = String.ofList ['0', '.', '5'] := rfl
    show (halfPrinting.float x).toList = _
    rw [htext, String.toList_ofList]
  unfold Text.Json.Style.Counts
  rw [hnumber, hhalf]
  exact ⟨List.all_eq_true.mp (by decide), by decide, rfl⟩

def paymentReply : ModelResponse where
  toolCalls := [{ id := "call-1", name := "pay", arguments := [("amount", .float (1 / 2))] }]
  valid := .inr (List.cons_ne_nil _ _)

theorem paymentReply_sendable :
    ∀ call ∈ paymentReply.toolCalls, Sendable halfPrinting readHalf call := by
  intro call hcall
  rw [List.mem_singleton.mp hcall]
  refine ⟨⟨by decide, by decide⟩, .obj (List.nodup_singleton _) fun field hfield => ?_, rfl⟩
  rw [List.mem_singleton.mp hfield]
  exact .float (halfPrinting_repeats ['0', '.', '5'] _ rfl)

theorem accepted_repeats_payment :
    ∃ response,
      responseFromOpenai readHalf (sentReply halfPrinting paymentReply).completion = .ok response ∧
      ∃ sent again, messageToOpenai halfPrinting (fun _ => "") response.toAssistantMessage =
          .ok sent ∧ responseFromOpenai readHalf sent.completion = .ok again ∧
        again.content = response.content ∧ again.toolCalls = response.toolCalls := by
  obtain ⟨response, hresponse, -, -⟩ := reply_received paymentReply paymentReply_sendable
  exact ⟨response, hresponse,
    accepted_repeats halfPrinting_repeats (fun _ => "") _ response hresponse⟩

end Responses

/-! ## Runs -/

def OpenAiError.failure : OpenAiError → Failure
  | unsupportedAttachment message => .raised "UnsupportedAttachmentError" message
  | unsupportedMemory message => .raised "UnsupportedMemoryError" message
  | invalidResponse message => .raised "InvalidProviderResponseError" message
  | validation errors => .raised "ValidationError" (", ".intercalate errors)
  | type => .raised "TypeError" "Object is not JSON serializable"
  | digits => .raised "ValueError" "Exceeds the limit (4300 digits) for integer string conversion"
  | foreign => .raised "foreign" ""
  | transport failure => failure

/-- What the context of a Run adds to a model request. -/
structure Carried where
  model : Option String := .none
  attachments : List Attachment := []
  memories : List String := []

/-- The request as the adapter gets it.  `definition` is the registered Tool. -/
def chatRequest (definition : String → ToolDefinition) (carried : Carried) (request : ModelRequest) :
    ChatRequest where
  messages := request.messages
  tools := request.tools.map definition
  model := carried.model
  attachments := carried.attachments
  memories := carried.memories

/-- Surroundings whose model is an OpenAI-compatible one.  `create` is what the service answers. -/
def openAiEnv (env : RuntimeEnv) (provider : OpenAiChatProvider) (p : Printing)
    (render : ToolResult → String) (float : FloatReading) (definition : String → ToolDefinition)
    (carried : Nat → Carried) (create : Nat → Parameters → Except Failure OpenAiCompletion) :
    RuntimeEnv :=
  { env with
    complete := fun step request =>
      ((provider.complete p render float (create step)
        (chatRequest definition (carried step) request)).map
          (·.toModelResponse)).mapError (·.failure) }

section Runs

variable {env : RuntimeEnv} {provider : OpenAiChatProvider} {p : Printing}
variable {render : ToolResult → String} {float : FloatReading}
variable {definition : String → ToolDefinition} {carried : Nat → Carried}
variable {create : Nat → Parameters → Except Failure OpenAiCompletion}

theorem openAiEnv_complete (hprint : p.Repeats float) {step : Nat} {request : ModelRequest}
    {response : ModelResponse}
    (h : (openAiEnv env provider p render float definition carried create).complete step request =
      .ok response) : ∀ call ∈ response.toolCalls, Sendable p float call := by
  have hmapped : ((provider.complete p render float (create step)
      (chatRequest definition (carried step) request)).map
        (·.toModelResponse)).mapError (·.failure) = .ok response := h
  cases hcomplete : provider.complete p render float (create step)
      (chatRequest definition (carried step) request) with
  | error e =>
    rw [hcomplete] at hmapped
    cases hmapped
  | ok found =>
    rw [hcomplete] at hmapped
    cases hmapped
    obtain ⟨parameters, -, hcomplete⟩ := Except.bind_ok.mp hcomplete
    obtain ⟨completion, -, hcomplete⟩ := Except.bind_ok.mp hcomplete
    exact sendable_of_response hprint hcomplete

theorem messageToOpenai_sent {message : Message}
    (h : ∀ call ∈ message.toolCalls, Sendable p float call) :
    ∃ sent, messageToOpenai p render message = .ok sent := by
  have hsent := callsToOpenai_sent (p := p) fun call hcall => (h call hcall).dumps
  unfold messageToOpenai
  cases message.role with
  | assistant =>
    simp only
    by_cases hempty : message.toolCalls.isEmpty = true
    · rw [if_pos hempty]
      exact ⟨_, rfl⟩
    · rw [if_neg hempty, hsent]
      exact ⟨_, rfl⟩
  | tool => exact ⟨_, rfl⟩
  | system => exact ⟨_, rfl⟩
  | user => exact ⟨_, rfl⟩

theorem messagesToOpenai_sent {messages : List Message} (h : Issued (Sendable p float) messages) :
    ∃ sent, messagesToOpenai p render messages = .ok sent ∧ sent.length = messages.length := by
  induction messages with
  | nil => exact ⟨[], rfl, rfl⟩
  | cons message rest ih =>
    obtain ⟨first, hfirst⟩ : ∃ sent, messageToOpenai p render message = .ok sent :=
      messageToOpenai_sent (h message List.mem_cons_self)
    obtain ⟨others, hothers, hlength⟩ := ih fun m hm => h m (List.mem_cons_of_mem _ hm)
    refine ⟨first :: others, ?_, by rw [List.length_cons, List.length_cons, hlength]⟩
    rw [messagesToOpenai, hfirst, hothers]
    rfl

/-- A request whose messages can be sent is refused for attachments and memories only. -/
theorem parameters_ok_iff {messages : List Message} (h : Issued (Sendable p float) messages)
    {request : ChatRequest} (hmessages : request.messages = messages) :
    (∃ parameters, provider.parameters p render request = .ok parameters ∧
        parameters.messages.length = messages.length) ↔
      request.attachments = [] ∧ request.memories = [] := by
  obtain ⟨sent, hsent, hlength⟩ := messagesToOpenai_sent h
  unfold OpenAiChatProvider.parameters
  by_cases hattachments : request.attachments = []
  · by_cases hmemories : request.memories = []
    · rw [if_neg (not_not.mpr hattachments), if_neg (not_not.mpr hmemories), hmessages, hsent]
      exact ⟨fun _ => ⟨hattachments, hmemories⟩, fun _ => ⟨_, rfl, hlength⟩⟩
    · rw [if_neg (not_not.mpr hattachments), if_pos hmemories]
      simp [hmemories]
  · rw [if_pos hattachments]
    simp [hattachments]

end Runs

/-- Along every run of any calls of an Agent whose model is an OpenAI-compatible service, whatever
the service answers, the adapter can send every message list that the Agent asks with.  It refuses a
request for its attachments or memories only, and the service can read every Tool call back. -/
theorem requests_sendable {ι : Type} [DecidableEq ι] (env : RuntimeEnv)
    (provider : OpenAiChatProvider) (p : Printing) (render : ToolResult → String)
    (float : FloatReading) (definition : String → ToolDefinition) (carried : Nat → Carried)
    (create : Nat → Parameters → Except Failure OpenAiCompletion) (hprint : p.Repeats float)
    (agent : Agent) (fuel : Nat) (calls : ι → Call) (world : RuntimeWorld) (schedule : List ι)
    (hworld : ∀ r, world.checkpoints r = none) :
    ∀ messages ∈ ((startCalls agent fuel calls world).run
        (openAiEnv env provider p render float definition carried create).exec
          schedule).log.filterMap asked,
      (∃ sent, messagesToOpenai p render messages = .ok sent ∧ sent.length = messages.length) ∧
      (∀ request : ChatRequest, request.messages = messages →
        ((∃ parameters, provider.parameters p render request = .ok parameters ∧
            parameters.messages.length = messages.length) ↔
          request.attachments = [] ∧ request.memories = [])) ∧
      ∀ message ∈ messages, ∀ call ∈ message.toolCalls,
        toolCallFromOpenai float (sentCall p call).received = .ok call := by
  intro messages hmessages
  have hissued : Issued (Sendable p float) messages :=
    requests_issued (fun _ _ _ hresponse => openAiEnv_complete hprint hresponse) agent fuel calls
      world schedule hworld messages hmessages
  exact ⟨messagesToOpenai_sent hissued, fun _ hrequest => parameters_ok_iff hissued hrequest,
    fun message hmessage call hcall => (hissued message hmessage call hcall).received⟩

def paymentRun (steps : Nat) : RuntimePool Unit :=
  (startCalls (plainAgent []) 5 (fun _ => .run "Pay Ann." 0 none []) {}).run
    (openAiEnv (onceEnv paymentReply) { model := "chat" } halfPrinting (fun _ => "") readHalf
      (fun name => ⟨name, "Pays.", []⟩) (fun _ => {})
      fun _ _ => .ok (sentReply halfPrinting paymentReply).completion).exec
    (List.replicate steps ())

theorem requests_sendable_payment :
    ((paymentRun 9).log.filterMap asked).map (·.length) = [2] ∧
      ∀ messages ∈ (paymentRun 60).log.filterMap asked,
        (∃ sent, messagesToOpenai halfPrinting (fun _ => "") messages = .ok sent ∧
          sent.length = messages.length) ∧
        (∀ request : ChatRequest, request.messages = messages →
          ((∃ parameters, OpenAiChatProvider.parameters { model := "chat" } halfPrinting
              (fun _ => "") request = .ok parameters ∧
              parameters.messages.length = messages.length) ↔
            request.attachments = [] ∧ request.memories = [])) ∧
        ∀ message ∈ messages, ∀ call ∈ message.toolCalls,
          toolCallFromOpenai readHalf (sentCall halfPrinting call).received = .ok call := by
  refine ⟨by decide, ?_⟩
  exact requests_sendable (onceEnv paymentReply) { model := "chat" } halfPrinting (fun _ => "")
    readHalf (fun name => ⟨name, "Pays.", []⟩) (fun _ => {})
    (fun _ _ => .ok (sentReply halfPrinting paymentReply).completion) halfPrinting_repeats
    (plainAgent []) 5 (fun _ => .run "Pay Ann." 0 none []) {} (List.replicate 60 ()) fun _ => rfl

end Providers
end BaseAgent

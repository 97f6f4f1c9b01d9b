import Mathlib
import BaseAgent.Flows.ToolEffects
import BaseAgent.Runtime.Handle

/-!
# The command-line provider

The parser of a command-line model numbers the Tool calls of each response from one.  The
recorder of side effects derives the identity of an effect from that number, the Flow Run and
the invocation alone.
-/

namespace BaseAgent
namespace Providers

open Async BaseAgent.Runtime

inductive ToolChoice where
  | auto | none | required
  deriving DecidableEq, Repr

def invalidResponse (message : String) : Failure :=
  .raised "InvalidProviderResponseError" message

/-- The identifier of a Tool call, by its place in the response. -/
def callId (index : Nat) : String := s!"cli-call-{index}"

/-- One round of the loop over `raw_calls`.  `loads` is `json.loads`, and `none` its
`JSONDecodeError`. -/
def toolCall (loads : String → Option JsonValue) (allowedToolNames : List String) (index : Nat)
    (rawCall : JsonValue) : Except Failure ToolCall :=
  match rawCall with
  | .obj fields =>
    match JsonValue.lookup fields "name", JsonValue.lookup fields "arguments_json" with
    | some (.str name), some (.str argumentsJson) =>
      match loads argumentsJson with
      | none =>
        .error (invalidResponse s!"CLI tool call '{name}' contains invalid arguments_json")
      | some (.obj arguments) =>
        if name ∈ allowedToolNames then
          .ok { id := callId index, name := name, arguments := arguments }
        else .error (invalidResponse s!"CLI returned undeclared tool call '{name}'")
      | some _ =>
        .error (invalidResponse
          s!"CLI tool call '{name}' arguments_json must decode to an object")
    | _, _ =>
      .error (invalidResponse "CLI tool call requires string name and arguments_json")
  | _ => .error (invalidResponse "CLI tool call must be an object")

/-- The loop over `raw_calls`, from the number of the first one. -/
def toolCalls (loads : String → Option JsonValue) (allowedToolNames : List String) :
    Nat → List JsonValue → Except Failure (List ToolCall)
  | _, [] => .ok []
  | index, rawCall :: rawCalls => do
    let call ← toolCall loads allowedToolNames index rawCall
    let calls ← toolCalls loads allowedToolNames (index + 1) rawCalls
    return call :: calls

def contentValue (payload : List (String × JsonValue)) : Except Failure (Option String) :=
  match JsonValue.lookup payload "content" with
  | none | some .null => .ok none
  | some (.str content) => .ok (some content)
  | some _ => .error (invalidResponse "CLI response content must be a string or null")

/-- `raw_calls`, as the choice of the request allows them. -/
def rawCalls (toolChoice : ToolChoice) (payload : List (String × JsonValue)) :
    Except Failure (List JsonValue) :=
  match JsonValue.lookup payload "tool_calls" with
  | some (.list calls) =>
    if toolChoice = .none ∧ calls ≠ [] then
      .error (invalidResponse "CLI returned tool calls when tool_choice='none'")
    else if toolChoice = .required ∧ calls = [] then
      .error (invalidResponse "CLI returned no tool calls when tool_choice='required'")
    else .ok calls
  | _ => .error (invalidResponse "CLI response tool_calls must be an array")

def validated (content : Option String) (calls : List ToolCall) (usage : TokenUsage) :
    Except Failure ModelResponse :=
  if h : content ≠ none ∨ calls ≠ [] then
    .ok { content := content, toolCalls := calls, usage := usage, valid := h }
  else .error (.raised "ValidationError" "model responses require content or tool_calls")

def modelResponse (loads : String → Option JsonValue) (toolChoice : ToolChoice)
    (allowedToolNames : List String) (payload : List (String × JsonValue)) (usage : TokenUsage) :
    Except Failure ModelResponse := do
  let content ← contentValue payload
  let raw ← rawCalls toolChoice payload
  let calls ← toolCalls loads allowedToolNames 1 raw
  validated content calls usage

/-- Surroundings whose model is a command-line one.  `output` is what its process wrote, as
the adapter of the command reads it. -/
def cliEnv (env : RuntimeEnv) (loads : String → Option JsonValue)
    (output : Nat → ModelRequest → Except Failure (List (String × JsonValue) × TokenUsage)) :
    RuntimeEnv :=
  { env with
    complete := fun step request => do
      let (payload, usage) ← output step request
      modelResponse loads .auto request.tools payload usage }

/-! ## The identifiers of one response -/

section Parser

variable {loads : String → Option JsonValue} {allowedToolNames : List String}

theorem toolCall_id {index : Nat} {rawCall : JsonValue} {call : ToolCall}
    (h : toolCall loads allowedToolNames index rawCall = .ok call) : call.id = callId index := by
  unfold toolCall at h
  repeat' split at h
  all_goals cases h
  rfl

theorem toolCalls_ids {index : Nat} {raw : List JsonValue} {calls : List ToolCall}
    (h : toolCalls loads allowedToolNames index raw = .ok calls) :
    calls.map (·.id) = (List.range' index calls.length).map callId := by
  induction raw generalizing index calls with
  | nil =>
    cases h
    rfl
  | cons rawCall raw ih =>
    obtain ⟨call, hcall, h⟩ := Except.bind_ok.mp h
    obtain ⟨rest, hrest, h⟩ := Except.bind_ok.mp h
    cases h
    rw [List.map_cons, toolCall_id hcall, ih hrest, List.length_cons, List.range'_succ,
      List.map_cons]

theorem modelResponse_ids {toolChoice : ToolChoice} {payload : List (String × JsonValue)}
    {usage : TokenUsage} {response : ModelResponse}
    (h : modelResponse loads toolChoice allowedToolNames payload usage = .ok response) :
    response.toolCalls.map (·.id) = (List.range' 1 response.toolCalls.length).map callId := by
  obtain ⟨content, -, h⟩ := Except.bind_ok.mp h
  obtain ⟨raw, -, h⟩ := Except.bind_ok.mp h
  obtain ⟨calls, hcalls, h⟩ := Except.bind_ok.mp h
  unfold validated at h
  split at h
  · cases h
    exact toolCalls_ids hcalls
  · cases h

end Parser

theorem callId_injective : Function.Injective callId := by
  intro i j h
  have hrepr : Nat.repr i = Nat.repr j := by
    have happend : "cli-call-" ++ Nat.repr i = "cli-call-" ++ Nat.repr j := by
      simpa [callId] using h
    exact (String.append_right_inj _).mp happend
  exact Nat.repr_inj.mp hrepr

/-! ## The identities of a Run's effects -/

variable {ι : Type}

def responseOf (runId : UUID) (e : RuntimeEntry ι) : Option ModelResponse :=
  match e with
  | ⟨_, .complete id _, .ok response⟩ => if id = runId then some response else none
  | _ => none

/-- The responses of the model along a Run, over all its suspensions. -/
def responses (runId : UUID) (log : List (RuntimeEntry ι)) : List ModelResponse :=
  log.filterMap (responseOf runId)

def issuedCalls (responses : List ModelResponse) : List ToolCall :=
  responses.flatMap (·.toolCalls)

/-- No two of the calls have the same operation key or the same idempotency key. -/
def DistinctIdentities (digest : String → String) (flowRunId invocationId : UUID)
    (calls : List ToolCall) : Prop :=
  (calls.map fun call => Flows.FlowToolSideEffectRecorder.operationKey digest call.id).Nodup ∧
  (calls.map fun call =>
    Flows.FlowToolSideEffectRecorder.idempotencyKey digest flowRunId invocationId call.id).Nodup

def NumberedCalls (response : ModelResponse) : Prop :=
  response.toolCalls.map (·.id) = (List.range' 1 response.toolCalls.length).map callId

theorem cliEnv_complete {env : RuntimeEnv} {loads : String → Option JsonValue}
    {output : Nat → ModelRequest → Except Failure (List (String × JsonValue) × TokenUsage)}
    {step : Nat} {request : ModelRequest} {response : ModelResponse}
    (h : (cliEnv env loads output).complete step request = .ok response) :
    NumberedCalls response := by
  obtain ⟨parsed, -, h⟩ := Except.bind_ok.mp h
  exact modelResponse_ids h

theorem responses_numbered [DecidableEq ι] (env : RuntimeEnv) (loads : String → Option JsonValue)
    (output : Nat → ModelRequest → Except Failure (List (String × JsonValue) × TokenUsage))
    (agent : Agent) (fuel : Nat) (calls : ι → Call) (world : RuntimeWorld) (schedule : List ι)
    (runId : UUID) :
    ∀ response ∈ responses runId ((startCalls agent fuel calls world).run
      (cliEnv env loads output).exec schedule).log, NumberedCalls response := by
  intro response hresponse
  obtain ⟨e, he, hof⟩ := List.mem_filterMap.mp hresponse
  rw [Pool.run_log] at he
  obtain ⟨w, hreply⟩ := Pool.reply_of_mem_trace _ he
  unfold responseOf at hof
  split at hof
  · rename_i request _
    split at hof
    · cases hof
      have hcomplete : (cliEnv env loads output).complete w.steps request = .ok response :=
        hreply.symm
      exact cliEnv_complete hcomplete
    · cases hof
  · cases hof

theorem mem_callId_one {response : ModelResponse} (h : NumberedCalls response)
    (hcalls : response.toolCalls ≠ []) : callId 1 ∈ response.toolCalls.map (·.id) := by
  rw [h]
  have hlength : 0 < response.toolCalls.length := List.length_pos_iff.mpr hcalls
  exact List.mem_map_of_mem (List.mem_range'_1.mpr ⟨Nat.le_refl 1, by omega⟩)

/-- Numbers are repeated as soon as a second response has calls. -/
theorem nodup_ids_iff {responses : List ModelResponse}
    (h : ∀ response ∈ responses, NumberedCalls response) :
    ((issuedCalls responses).map (·.id)).Nodup ↔
      (responses.filter (·.toolCalls ≠ [])).length ≤ 1 := by
  induction responses with
  | nil => simp [issuedCalls]
  | cons response rest ih =>
    have hrest : ∀ r ∈ rest, NumberedCalls r := fun r hr => h r (List.mem_cons_of_mem _ hr)
    have hfirst := h response List.mem_cons_self
    have hsplit : (issuedCalls (response :: rest)).map (·.id) =
        response.toolCalls.map (·.id) ++ (issuedCalls rest).map (·.id) := by
      simp [issuedCalls]
    rw [hsplit]
    by_cases hcalls : response.toolCalls = []
    · have hfilter : (response :: rest).filter (·.toolCalls ≠ []) =
          rest.filter (·.toolCalls ≠ []) := List.filter_cons_of_neg (by simp [hcalls])
      rw [hfilter, hcalls]
      exact ih hrest
    · have hfilter : (response :: rest).filter (·.toolCalls ≠ []) =
          response :: rest.filter (·.toolCalls ≠ []) := List.filter_cons_of_pos (by simp [hcalls])
      rw [hfilter, List.length_cons]
      constructor
      · intro hnodup
        -- a second response with calls would repeat the first number
        have hnone : rest.filter (·.toolCalls ≠ []) = [] := by
          apply List.filter_eq_nil_iff.mpr
          intro r hr hnonempty
          have hmem := mem_callId_one (hrest r hr) (by simpa using hnonempty)
          obtain ⟨call, hcall, hid⟩ := List.mem_map.mp hmem
          have hlater : callId 1 ∈ (issuedCalls rest).map (·.id) :=
            List.mem_map.mpr ⟨call, List.mem_flatMap.mpr ⟨r, hr, hcall⟩, hid⟩
          exact (List.disjoint_of_nodup_append hnodup) (mem_callId_one hfirst hcalls) hlater
        rw [hnone, List.length_nil]
      · intro hlength
        have hnone : rest.filter (·.toolCalls ≠ []) = [] :=
          List.eq_nil_of_length_eq_zero (by omega)
        have hempty : issuedCalls rest = [] := by
          apply List.flatMap_eq_nil_iff.mpr
          intro r hr
          have hno := List.filter_eq_nil_iff.mp hnone r hr
          simpa using hno
        rw [hempty, List.map_nil, List.append_nil, hfirst]
        exact List.Nodup.map callId_injective List.nodup_range'

theorem operationKey_inj (digest : String → String) (a b : String) :
    Flows.FlowToolSideEffectRecorder.operationKey digest a =
      Flows.FlowToolSideEffectRecorder.operationKey digest b ↔ digest a = digest b := by
  unfold Flows.FlowToolSideEffectRecorder.operationKey
  constructor
  · intro h
    exact (String.append_right_inj _).mp h
  · intro h
    rw [h]

theorem idempotencyKey_inj (digest : String → String) (flowRunId invocationId : UUID)
    (a b : String) :
    Flows.FlowToolSideEffectRecorder.idempotencyKey digest flowRunId invocationId a =
      Flows.FlowToolSideEffectRecorder.idempotencyKey digest flowRunId invocationId b ↔
      digest a = digest b := by
  unfold Flows.FlowToolSideEffectRecorder.idempotencyKey
  constructor
  · intro h
    exact (String.append_right_inj _).mp h
  · intro h
    rw [h]

/-- Keys that tell two identifiers apart as far as their digests do. -/
theorem nodup_keys_iff {digest key : String → String}
    (hkey : ∀ a b, key a = key b ↔ digest a = digest b) {calls : List ToolCall}
    (hdigest : ∀ a ∈ calls, ∀ b ∈ calls, digest a.id = digest b.id → a.id = b.id) :
    (calls.map fun call => key call.id).Nodup ↔ (calls.map (·.id)).Nodup := by
  have hmap : (calls.map fun call => key call.id) = (calls.map (·.id)).map key := by
    rw [List.map_map]
    rfl
  rw [hmap]
  constructor
  · exact List.Nodup.of_map key
  · apply List.Nodup.map_on
    intro x hx y hy hxy
    obtain ⟨a, ha, rfl⟩ := List.mem_map.mp hx
    obtain ⟨b, hb, rfl⟩ := List.mem_map.mp hy
    exact hdigest a ha b hb ((hkey a.id b.id).mp hxy)

/-- Along every run of any calls on the same stores, the Tool calls that a command-line model
issues in a Run have distinct effect identities exactly when no two of its responses have Tool
calls.  The digest does not collide on their identifiers. -/
theorem cli_effect_identities [DecidableEq ι] (env : RuntimeEnv)
    (loads : String → Option JsonValue)
    (output : Nat → ModelRequest → Except Failure (List (String × JsonValue) × TokenUsage))
    (agent : Agent) (fuel : Nat) (calls : ι → Call) (world : RuntimeWorld) (schedule : List ι)
    (runId flowRunId invocationId : UUID) (digest : String → String)
    (hdigest : ∀ a ∈ issuedCalls (responses runId ((startCalls agent fuel calls world).run
        (cliEnv env loads output).exec schedule).log),
      ∀ b ∈ issuedCalls (responses runId ((startCalls agent fuel calls world).run
        (cliEnv env loads output).exec schedule).log),
      digest a.id = digest b.id → a.id = b.id) :
    DistinctIdentities digest flowRunId invocationId
        (issuedCalls (responses runId ((startCalls agent fuel calls world).run
          (cliEnv env loads output).exec schedule).log)) ↔
      ((responses runId ((startCalls agent fuel calls world).run
        (cliEnv env loads output).exec schedule).log).filter (·.toolCalls ≠ [])).length ≤ 1 := by
  have hnumbered := responses_numbered env loads output agent fuel calls world schedule runId
  rw [← nodup_ids_iff hnumbered]
  have hoperation := nodup_keys_iff (operationKey_inj digest) hdigest
  have hidempotency := nodup_keys_iff (idempotencyKey_inj digest flowRunId invocationId) hdigest
  unfold DistinctIdentities
  rw [hoperation, hidempotency, and_self]

/-! ## Two payments -/

def cliDigest (value : String) : String :=
  if value = "cli-call-1" then
    "5a858e968f3b72c84b4745c357829b821d9cc1072f84cfb79556eb7049cd596f"
  else
    "69fd3b66e1cfc6480588986dbbabc577fff949dc7b3d6d6ed631ae320b3413a2"

def paymentLoads (text : String) : Option JsonValue :=
  if text = "\x7b\"amount\": 1\x7d" then some (.obj [("amount", .int 1)])
  else some (.obj [("amount", .int 2)])

def paymentCall (text : String) : JsonValue :=
  .obj [("name", .str "pay"), ("arguments_json", .str text)]

def firstPayment : JsonValue := paymentCall "\x7b\"amount\": 1\x7d"

def secondPayment : JsonValue := paymentCall "\x7b\"amount\": 2\x7d"

/-- A model that makes the calls of `rounds`, one list after the other, and then answers. -/
def paymentOutput (rounds : List (List JsonValue)) (_ : Nat) (request : ModelRequest) :
    Except Failure (List (String × JsonValue) × TokenUsage) :=
  match rounds[request.messages.countP (·.role = .assistant)]? with
  | some calls => .ok ([("content", .null), ("tool_calls", .list calls)], {})
  | none => .ok ([("content", .str "Done."), ("tool_calls", .list [])], {})

def paymentTool : Tool := { name := "pay", sideEffectMode := .unsafeEffect }

def paymentEnv (rounds : List (List JsonValue)) : RuntimeEnv :=
  cliEnv (plainEnv (fun _ => { content := some "", valid := .inl (by simp) })
    fun _ => .value .null) paymentLoads (paymentOutput rounds)

def paymentCalls (rounds : List (List JsonValue)) : List ToolCall :=
  issuedCalls (responses 0 ((startCalls (plainAgent [paymentTool]) 5
    (fun _ => .run "Pay both bills." 0 none []) {}).run (paymentEnv rounds).exec
      (List.replicate 80 ())).log)

set_option maxRecDepth 20000 in
/-- Both payments in one response. -/
theorem cli_effect_identities_one_response :
    (paymentCalls [[firstPayment, secondPayment]]).map (·.id) = ["cli-call-1", "cli-call-2"] ∧
    DistinctIdentities cliDigest 7 8 (paymentCalls [[firstPayment, secondPayment]]) := by
  refine ⟨by decide, ?_⟩
  refine (cli_effect_identities _ _ _ _ _ _ _ _ 0 7 8 cliDigest ?_).mpr (by decide)
  decide

def paymentStarts (calls : List ToolCall) : Bool → Flows.EffectCall
  | false => .start 1 (calls.headD ⟨"", "", []⟩) "pay" .unsafeEffect ⟨some 7, some 8⟩
  | true => .start 2 (calls.tail.headD ⟨"", "", []⟩) "pay" .unsafeEffect ⟨some 7, some 8⟩

set_option maxRecDepth 20000 in
/-- One payment in each of two responses: both calls get the same identity, and the recorder
refuses the second as a replay of the first. -/
theorem second_response_repeats_identity :
    (paymentCalls [[firstPayment], [secondPayment]]).map (fun call => (call.id, call.name)) =
      [("cli-call-1", "pay"), ("cli-call-1", "pay")] ∧
    ¬ DistinctIdentities cliDigest 7 8 (paymentCalls [[firstPayment], [secondPayment]]) ∧
    (((Flows.startEffects cliDigest 3
      (paymentStarts (paymentCalls [[firstPayment], [secondPayment]]))).run Flows.LedgerOp.exec
        [false, false, true]).tasks true).raised =
      some (.replayUnsafe "unprotected side effect may already have executed") := by
  refine ⟨by decide, ?_, by decide⟩
  unfold DistinctIdentities
  decide

end Providers
end BaseAgent

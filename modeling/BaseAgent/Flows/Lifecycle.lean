import BaseAgent.Flows.Models

/-!
# Lifecycle state of one Flow Run

`FlowRunState` and `AgentInvocation` are immutable; each transition checks the
state it starts from and returns the replacement with the next revision.  The
timestamps that no transition reads are left out.
-/

namespace BaseAgent
namespace Flows

open AgentResultStatus (toRunStatus)

structure AgentInvocation where
  id : UUID
  flowRunId : UUID
  sequence : Nat
  agentKey : String
  definitionId : String
  definitionVersion : String
  definitionFingerprint : String
  input : AgentInvocationInput
  status : RunStatus := .running
  result : Option AgentInvocationResult := none

/-- `_RUN_TO_RESULT_STATUS` on the error statuses. -/
def errorResultStatus : RunStatus → Option AgentResultStatus
  | .failed => some .failed
  | .cancelled => some .cancelled
  | .interrupted => some .interrupted
  | .limitReached => some .limitReached
  | .created | .running | .completed | .waiting => none

theorem errorResultStatus_isSome {s : RunStatus} :
    (errorResultStatus s).isSome = s.errorStatus := by
  cases s <;> rfl

theorem errorResultStatus_unsuccessful {s : RunStatus} {r : AgentResultStatus}
    (h : errorResultStatus s = some r) : r.unsuccessful = true ∧ r.toRunStatus = s := by
  cases s <;> simp [errorResultStatus] at h <;> subst h <;> exact ⟨rfl, rfl⟩

namespace AgentInvocation

def usage (inv : AgentInvocation) : TokenUsage :=
  match inv.result with
  | some r => r.usage
  | none => {}

def resultCount (inv : AgentInvocation) (key : String) : Int :=
  match inv.result with
  | some r => r.count key
  | none => 0

def artifacts (inv : AgentInvocation) : List Artifact :=
  match inv.result with
  | some r => r.artifacts
  | none => []

def settle (inv : AgentInvocation) (result : AgentInvocationResult) :
    Except FlowError AgentInvocation :=
  if inv.status ≠ .running ∧ inv.status ≠ .waiting then
    .error (.invalidTransition s!"cannot settle AgentInvocation in state '{inv.status.value}'")
  else if result.flowRunId ≠ inv.flowRunId then
    .error (.value "AgentInvocation result flow_run_id does not match")
  else if result.invocationId ≠ inv.id then
    .error (.value "AgentInvocation result invocation_id does not match")
  else if result.agentKey ≠ inv.agentKey then
    .error (.value "AgentInvocation result agent_key does not match")
  else .ok { inv with status := toRunStatus result.status, result := some result }

def resume (inv : AgentInvocation) : Except FlowError AgentInvocation :=
  if inv.status ≠ .waiting then
    .error (.invalidTransition s!"cannot resume AgentInvocation in state '{inv.status.value}'")
  else .ok { inv with status := .running }

theorem artifacts_unique (inv : AgentInvocation) : (inv.artifacts.map (·.id)).Nodup := by
  unfold artifacts
  cases inv.result with
  | none => exact List.nodup_nil
  | some r => exact r.valid.unique

theorem terminated_valid (inv : AgentInvocation) {status : RunStatus} {r : AgentResultStatus}
    (h : errorResultStatus status = some r) {error : String} (he : isBlank error = false) :
    AgentInvocationResult.Valid r inv.artifacts none (some error) := by
  have hr := errorResultStatus_unsuccessful h
  refine ⟨inv.artifacts_unique, ?_, ?_, ?_⟩
  · cases r <;> simp [AgentResultStatus.unsuccessful] at hr ⊢
  · intro _
    refine ⟨error, rfl, ?_⟩
    rintro rfl
    exact absurd he (by simp [isBlank])
  · rintro rfl
    simp [AgentResultStatus.unsuccessful] at hr

def terminate (inv : AgentInvocation) (status : RunStatus) (error : String) :
    Except FlowError AgentInvocation :=
  match hs : errorResultStatus status with
  | none => .error (.value "AgentInvocation termination requires an error status")
  | some r =>
    if he : isBlank error = false then
      if inv.status.terminal then
        .error (.invalidTransition
          s!"cannot terminate AgentInvocation in state '{inv.status.value}'")
      else
        .ok { inv with
          status := status
          result := some
            { flowRunId := inv.flowRunId
              invocationId := inv.id
              agentKey := inv.agentKey
              status := r
              usage := inv.usage
              artifacts := inv.artifacts
              error := some error
              valid := terminated_valid inv hs he } }
    else .error (.value "AgentInvocation termination requires an error")

theorem settle_ok {inv settled : AgentInvocation} {result : AgentInvocationResult}
    (h : inv.settle result = .ok settled) :
    (inv.status = .running ∨ inv.status = .waiting) ∧ result.flowRunId = inv.flowRunId ∧
      result.invocationId = inv.id ∧ result.agentKey = inv.agentKey ∧
      settled = { inv with status := toRunStatus result.status, result := some result } := by
  unfold settle at h
  split at h
  · cases h
  · split at h
    · cases h
    · split at h
      · cases h
      · split at h
        · cases h
        · rename_i h₁ h₂ h₃ h₄
          simp only [not_not] at h₂ h₃ h₄
          exact ⟨by tauto, h₂, h₃, h₄, (Except.ok.inj h).symm⟩

theorem resume_ok {inv resumed : AgentInvocation} (h : inv.resume = .ok resumed) :
    inv.status = .waiting ∧ resumed = { inv with status := .running } := by
  unfold resume at h
  split at h
  · cases h
  · rename_i hs
    exact ⟨by simpa using hs, (Except.ok.inj h).symm⟩

theorem terminate_ok {inv terminated : AgentInvocation} {status : RunStatus} {error : String}
    (h : inv.terminate status error = .ok terminated) :
    inv.status.terminal = false ∧ terminated.id = inv.id ∧ terminated.status = status := by
  unfold terminate at h
  split at h
  · cases h
  · split at h
    · split at h
      · cases h
      · rename_i hterm
        obtain rfl := Except.ok.inj h
        exact ⟨by simpa using hterm, rfl, rfl⟩
    · cases h

end AgentInvocation

structure FlowRunState where
  runId : UUID
  definitionId : String
  definitionVersion : String
  definitionFingerprint : String
  budget : FlowBudget
  deadlineAt : Option Time := none
  revision : Nat := 1
  status : RunStatus := .created
  invocations : List AgentInvocation := []
  activeInvocationId : Option UUID := none
  output : Option String := none
  error : Option String := none
  createdAt : Time

/-- The deadline of a Run that is created now. -/
def FlowBudget.deadline (b : FlowBudget) (now : Time) : Except FlowError (Option Time) :=
  match b.timeoutSeconds with
  | none => .ok none
  | some seconds =>
    match addSeconds now seconds with
    | .error message => .error (.other "OverflowError" message)
    | .ok deadline => .ok (some deadline)

namespace FlowRunState

def initial (definition : FlowDefinition) (runId : UUID) (now : Time) (deadlineAt : Option Time) :
    FlowRunState :=
  { runId := runId
    definitionId := definition.id
    definitionVersion := definition.version
    definitionFingerprint := definition.fingerprint
    budget := definition.budget
    deadlineAt := deadlineAt
    createdAt := now }

@[simp] theorem initial_runId (definition : FlowDefinition) (runId : UUID) (now : Time)
    (deadlineAt : Option Time) : (initial definition runId now deadlineAt).runId = runId := rfl

def create (definition : FlowDefinition) (runId : UUID) (now : Time) :
    Except FlowError FlowRunState := do
  let deadlineAt ← definition.budget.deadline now
  return initial definition runId now deadlineAt

def activeInvocation (s : FlowRunState) : Option AgentInvocation :=
  match s.activeInvocationId with
  | none => none
  | some id => s.invocations.find? fun inv => inv.id == id

def usage (s : FlowRunState) : TokenUsage :=
  s.invocations.foldl (fun total inv => total + inv.usage) {}

def modelCallCount (s : FlowRunState) : Int :=
  (s.invocations.map (·.resultCount "model_calls")).sum

def toolCallCount (s : FlowRunState) : Int :=
  (s.invocations.map (·.resultCount "tool_calls")).sum

def artifacts (s : FlowRunState) : List Artifact := s.invocations.flatMap (·.artifacts)

def evolve (s : FlowRunState) : FlowRunState := { s with revision := s.revision + 1 }

def replaceInvocation (s : FlowRunState) (inv : AgentInvocation) : List AgentInvocation :=
  s.invocations.map fun other => if other.id = inv.id then inv else other

def matchesDefinition (s : FlowRunState) (definition : FlowDefinition) : Bool :=
  definition.id == s.definitionId && definition.version == s.definitionVersion &&
    definition.fingerprint == s.definitionFingerprint

def start (s : FlowRunState) : Except FlowError FlowRunState :=
  if s.status ≠ .created then
    .error (.invalidTransition s!"cannot start Flow Run in state '{s.status.value}'")
  else .ok { s.evolve with status := .running }

def begunInvocation (s : FlowRunState) (request : AgentInvocationRequest) : AgentInvocation :=
  { id := request.invocationId
    flowRunId := s.runId
    sequence := request.sequence
    agentKey := request.agentKey
    definitionId := request.definitionId
    definitionVersion := request.definitionVersion
    definitionFingerprint := request.definitionFingerprint
    input := request.input }

def beginInvocation (s : FlowRunState) (request : AgentInvocationRequest)
    (definition : FlowDefinition) : Except FlowError FlowRunState := do
  raiseIf (s.status ≠ .running)
    (.invalidTransition s!"cannot invoke an Agent while Flow Run is '{s.status.value}'")
  raiseIf (s.activeInvocationId.isSome = true)
    (.invalidTransition "Flow Run already has an active AgentInvocation")
  raiseIf (s.matchesDefinition definition = false)
    (.value "FlowDefinition does not match this Flow Run")
  raiseIf (request.flowRunId ≠ s.runId)
    (.value "AgentInvocation request belongs to another Flow Run")
  let expected := s.invocations.length + 1
  raiseIf (request.sequence ≠ expected)
    (.value s!"AgentInvocation sequence must be {expected}, got {request.sequence}")
  raiseIf (expected > s.budget.maxInvocations)
    (.invalidTransition s!"Flow Run invocation limit reached ({s.budget.maxInvocations})")
  let agentDefinition ← definition.agent request.agentKey
  raiseIf (request.definitionId ≠ agentDefinition.id ∨
      request.definitionVersion ≠ agentDefinition.version ∨
      request.definitionFingerprint ≠ agentDefinition.fingerprint)
    (.value "AgentInvocation request definition does not match FlowDefinition")
  return { s.evolve with
    invocations := s.invocations ++ [s.begunInvocation request]
    activeInvocationId := some request.invocationId }

/-- `active_invocation`, when its absence is an invalid transition. -/
def requireActive (s : FlowRunState) : Except FlowError AgentInvocation :=
  orRaise s.activeInvocation (.invalidTransition "Flow Run has no active AgentInvocation")

def settleInvocation (s : FlowRunState) (result : AgentInvocationResult) :
    Except FlowError FlowRunState := do
  raiseIf (s.status ≠ .running ∧ s.status ≠ .waiting)
    (.invalidTransition s!"cannot settle an invocation while Flow Run is '{s.status.value}'")
  let active ← s.requireActive
  let settled ← active.settle result
  let waiting := settled.status = .waiting
  return { s.evolve with
    status := if waiting then .waiting else .running
    invocations := s.replaceInvocation settled
    activeInvocationId := if waiting then some settled.id else none }

def resumeInvocation (s : FlowRunState) (invocationId : UUID) :
    Except FlowError FlowRunState := do
  raiseIf (s.status ≠ .waiting)
    (.invalidTransition s!"cannot resume an invocation while Flow Run is '{s.status.value}'")
  let active ← s.requireActive
  raiseIf (active.id ≠ invocationId) (.value "invocation_id does not match the waiting invocation")
  let resumed ← active.resume
  return { s.evolve with
    status := .running
    invocations := s.replaceInvocation resumed }

def complete (s : FlowRunState) (output : String) : Except FlowError FlowRunState :=
  if s.status ≠ .running then
    .error (.invalidTransition s!"cannot complete Flow Run in state '{s.status.value}'")
  else if s.activeInvocationId.isSome then
    .error (.invalidTransition "cannot complete Flow Run with an active AgentInvocation")
  else if s.invocations.isEmpty then
    .error (.invalidTransition "cannot complete Flow Run without an AgentInvocation")
  else if s.invocations.any fun inv => inv.status ≠ .completed then
    .error (.invalidTransition
      "cannot complete Flow Run with an unsuccessful AgentInvocation")
  else .ok { s.evolve with status := .completed, output := some output, error := none }

def terminateActive (s : FlowRunState) (status : RunStatus) (error : String) :
    Except FlowError (List AgentInvocation) :=
  match s.activeInvocation with
  | none => .ok s.invocations
  | some active => do
    let terminated ← active.terminate status error
    return s.replaceInvocation terminated

/-- `_terminate`, which `fail`, `cancel`, `interrupt` and `reach_limit` call. -/
def terminate (s : FlowRunState) (status : RunStatus) (error : String) :
    Except FlowError FlowRunState := do
  raiseIf (s.status.terminal = true)
    (.invalidTransition s!"cannot terminate Flow Run in state '{s.status.value}'")
  raiseIf (isBlank error = true) (.value "Flow Run termination requires an error")
  let invocations ← s.terminateActive status error
  return { s.evolve with
    status := status
    invocations := invocations
    activeInvocationId := none
    error := some error }

/-! ## What a transition that succeeds has checked and done -/

theorem activeInvocation_id {s : FlowRunState} {active : AgentInvocation}
    (h : s.activeInvocation = some active) :
    s.activeInvocationId = some active.id ∧ active ∈ s.invocations := by
  unfold activeInvocation at h
  cases ha : s.activeInvocationId with
  | none => simp [ha] at h
  | some id =>
    simp only [ha] at h
    have hid := List.find?_some h
    simp only [beq_iff_eq] at hid
    exact ⟨by rw [hid], List.mem_of_find?_eq_some h⟩

theorem requireActive_ok {s : FlowRunState} {active : AgentInvocation} :
    s.requireActive = .ok active ↔ s.activeInvocation = some active :=
  orRaise_ok

theorem start_ok {s s' : FlowRunState} (h : s.start = .ok s') :
    s.status = .created ∧ s' = { s.evolve with status := .running } := by
  unfold start at h
  split at h
  · cases h
  · rename_i hs
    exact ⟨by simpa using hs, (Except.ok.inj h).symm⟩

theorem beginInvocation_ok {s s' : FlowRunState} {request : AgentInvocationRequest}
    {definition : FlowDefinition} (h : s.beginInvocation request definition = .ok s') :
    s.status = .running ∧ s.activeInvocationId = none ∧
      s.matchesDefinition definition = true ∧ request.flowRunId = s.runId ∧
      request.sequence = s.invocations.length + 1 ∧
      s.invocations.length + 1 ≤ s.budget.maxInvocations ∧
      s' = { s.evolve with
        invocations := s.invocations ++ [s.begunInvocation request]
        activeInvocationId := some request.invocationId } := by
  simp only [beginInvocation, Except.bind_ok, raiseIf_ok] at h
  obtain ⟨-, h₁, -, h₂, -, h₃, -, h₄, -, h₅, -, h₆, _, -, -, -, h₇⟩ := h
  refine ⟨by simpa using h₁, by simpa using h₂, by simpa using h₃, by simpa using h₄,
    by simpa using h₅, by simpa using h₆, ?_⟩
  exact (Except.ok.inj h₇).symm

theorem settleInvocation_ok {s s' : FlowRunState} {result : AgentInvocationResult}
    (h : s.settleInvocation result = .ok s') :
    (s.status = .running ∨ s.status = .waiting) ∧ ∃ active settled,
      s.activeInvocation = some active ∧ active.settle result = .ok settled ∧
      s' = { s.evolve with
        status := if settled.status = .waiting then .waiting else .running
        invocations := s.replaceInvocation settled
        activeInvocationId := if settled.status = .waiting then some settled.id else none } := by
  simp only [settleInvocation, Except.bind_ok, raiseIf_ok, requireActive_ok] at h
  obtain ⟨-, h₁, active, h₂, settled, h₃, h₄⟩ := h
  refine ⟨by tauto, active, settled, h₂, h₃, ?_⟩
  exact (Except.ok.inj h₄).symm

theorem resumeInvocation_ok {s s' : FlowRunState} {invocationId : UUID}
    (h : s.resumeInvocation invocationId = .ok s') :
    s.status = .waiting ∧ ∃ active resumed, s.activeInvocation = some active ∧
      active.id = invocationId ∧ active.resume = .ok resumed ∧
      s' = { s.evolve with
        status := .running
        invocations := s.replaceInvocation resumed } := by
  simp only [resumeInvocation, Except.bind_ok, raiseIf_ok, requireActive_ok] at h
  obtain ⟨-, h₁, active, h₂, -, h₃, resumed, h₄, h₅⟩ := h
  refine ⟨by simpa using h₁, active, resumed, h₂, by simpa using h₃, h₄, ?_⟩
  exact (Except.ok.inj h₅).symm

theorem complete_ok {s s' : FlowRunState} {output : String} (h : s.complete output = .ok s') :
    s.status = .running ∧ s.activeInvocationId = none ∧
      s' = { s.evolve with status := .completed, output := some output, error := none } := by
  unfold complete at h
  split at h
  · cases h
  · split at h
    · cases h
    · split at h
      · cases h
      · split at h
        · cases h
        · rename_i h₁ h₂ _ _
          exact ⟨by simpa using h₁, by simpa using h₂, (Except.ok.inj h).symm⟩

theorem terminate_ok {s s' : FlowRunState} {status : RunStatus} {error : String}
    (h : s.terminate status error = .ok s') :
    s.status.terminal = false ∧ isBlank error = false ∧ ∃ invocations,
      s.terminateActive status error = .ok invocations ∧
      s' = { s.evolve with
        status := status
        invocations := invocations
        activeInvocationId := none
        error := some error } := by
  simp only [terminate, Except.bind_ok, raiseIf_ok] at h
  obtain ⟨-, h₁, -, h₂, invocations, h₃, h₄⟩ := h
  refine ⟨by simpa using h₁, by simpa using h₂, invocations, h₃, ?_⟩
  exact (Except.ok.inj h₄).symm

end FlowRunState

end Flows
end BaseAgent

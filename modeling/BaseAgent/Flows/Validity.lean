import BaseAgent.Flows.Service
import Mathlib.Data.List.Nodup

/-!
# Validity of the aggregate

Every transition copies the state it starts from, and a copy is not validated.  The validators of
`AgentInvocation` and `FlowRunState` run only when a stored state is loaded again.  They accept
what the transitions make, as long as an invocation begins under an identifier of its own:
`begin_invocation` does not look at the identifiers that are taken.
-/

namespace BaseAgent
namespace Flows

open AgentResultStatus (toRunStatus)

namespace AgentInvocation

variable (inv : AgentInvocation)

def validateResultIdentity (result : AgentInvocationResult) : Except FlowError Unit := do
  raiseIf (result.flowRunId ≠ inv.flowRunId)
    (.value "AgentInvocation result flow_run_id does not match")
  raiseIf (result.invocationId ≠ inv.id)
    (.value "AgentInvocation result invocation_id does not match")
  raiseIf (result.agentKey ≠ inv.agentKey)
    (.value "AgentInvocation result agent_key does not match")

def validateResult : Except FlowError Unit :=
  match inv.status, inv.result with
  | .created, some _ => .error (.value "a created AgentInvocation cannot include a result")
  | .created, none => .ok ()
  | .running, some result => do
    raiseIf (result.status ≠ .waiting)
      (.value "a resumed AgentInvocation may only retain its waiting result")
    inv.validateResultIdentity result
  | .running, none => .ok ()
  | _, none => .error (.value "a settled AgentInvocation requires a result")
  | status, some result => do
    inv.validateResultIdentity result
    raiseIf (status ≠ toRunStatus result.status)
      (.value "AgentInvocation status does not match its result")

structure Owns (result : AgentInvocationResult) : Prop where
  flowRun : result.flowRunId = inv.flowRunId
  invocation : result.invocationId = inv.id
  agent : result.agentKey = inv.agentKey

/-- What `validate_result` accepts. -/
@[mk_iff valid_iff]
structure Valid : Prop where
  owned : ∀ result, inv.result = some result → inv.Owns result
  created : inv.status = .created → inv.result = none
  resumed : inv.status = .running → ∀ result, inv.result = some result → result.status = .waiting
  settled : inv.status ≠ .created → inv.status ≠ .running →
    ∃ result, inv.result = some result ∧ toRunStatus result.status = inv.status

variable {inv}

/-- A check that returns nothing has passed, and so has the next one. -/
theorem checked_ok {check next : Except FlowError Unit} :
    (check >>= fun _ => next) = .ok () ↔ check = .ok () ∧ next = .ok () := by
  cases check with
  | error e => simp [bind, Except.bind]
  | ok u => simp [bind, Except.bind]

theorem validateResultIdentity_ok {result : AgentInvocationResult} :
    inv.validateResultIdentity result = .ok () ↔ inv.Owns result := by
  unfold validateResultIdentity
  simp only [checked_ok, raiseIf_ok, not_not]
  exact ⟨fun h => ⟨h.1, h.2.1, h.2.2⟩, fun h => ⟨h.flowRun, h.invocation, h.agent⟩⟩

theorem validateResult_ok : inv.validateResult = .ok () ↔ inv.Valid := by
  unfold validateResult
  cases hresult : inv.result with
  | none =>
    cases hstatus : inv.status <;> simp [valid_iff, hresult, hstatus]
  | some result =>
    cases hstatus : inv.status <;>
      simp [valid_iff, hresult, hstatus, checked_ok, validateResultIdentity_ok] <;> grind

theorem settle_valid {settled : AgentInvocation} {result : AgentInvocationResult}
    (h : inv.settle result = .ok settled) : settled.Valid := by
  obtain ⟨-, hflow, hid, hkey, rfl⟩ := settle_ok h
  constructor
  · intro other hother
    cases hother
    exact ⟨hflow, hid, hkey⟩
  · intro hstatus
    cases hresult : result.status <;> simp [hresult, toRunStatus] at hstatus
  · intro hstatus
    cases hresult : result.status <;> simp [hresult, toRunStatus] at hstatus
  · exact fun _ _ => ⟨result, rfl, rfl⟩

theorem resume_valid {resumed : AgentInvocation} (hvalid : inv.Valid)
    (h : inv.resume = .ok resumed) : resumed.Valid := by
  obtain ⟨hstatus, rfl⟩ := resume_ok h
  obtain ⟨result, hresult, hwaiting⟩ := hvalid.settled (by simp [hstatus]) (by simp [hstatus])
  constructor
  · intro other hother
    have hown := hvalid.owned other hother
    exact ⟨hown.flowRun, hown.invocation, hown.agent⟩
  · exact fun hcreated => nomatch hcreated
  · intro _ other hother
    have hsame : inv.result = some other := hother
    rw [hresult] at hsame
    cases hsame
    exact AgentResultStatus.toRunStatus_waiting.mp (hwaiting.trans hstatus)
  · exact fun _ hnot => absurd rfl hnot

theorem terminate_record {terminated : AgentInvocation} {status : RunStatus} {error : String}
    (h : inv.terminate status error = .ok terminated) :
    ∃ result, terminated = { inv with status := status, result := some result } ∧
      inv.Owns result ∧ toRunStatus result.status = status ∧ status.errorStatus = true ∧
      result.usage = inv.usage ∧ result.metadata = [] := by
  unfold terminate at h
  split at h
  · cases h
  · rename_i r hr
    obtain ⟨-, hstatus⟩ := errorResultStatus_unsuccessful hr
    split at h
    · split at h
      · cases h
      · cases h
        refine ⟨_, rfl, ⟨rfl, rfl, rfl⟩, hstatus, ?_, rfl, rfl⟩
        rw [← errorResultStatus_isSome, hr]
        rfl
    · cases h

theorem terminate_isOk {status : RunStatus} {error : String} (hstatus : status.errorStatus = true)
    (herror : isBlank error = false) (hlive : inv.status.terminal = false) :
    ∃ terminated, inv.terminate status error = .ok terminated := by
  unfold terminate
  split
  · rename_i hnone
    rw [← errorResultStatus_isSome, hnone] at hstatus
    cases hstatus
  · simp [herror, hlive]

theorem terminate_valid {terminated : AgentInvocation} {status : RunStatus} {error : String}
    (h : inv.terminate status error = .ok terminated) : terminated.Valid := by
  obtain ⟨result, rfl, hown, hstatus, herror, -⟩ := terminate_record h
  constructor
  · intro other hother
    cases hother
    exact ⟨hown.flowRun, hown.invocation, hown.agent⟩
  · intro hcreated
    have heq : status = .created := hcreated
    rw [heq] at herror
    cases herror
  · intro hrunning
    have heq : status = .running := hrunning
    rw [heq] at herror
    cases herror
  · exact fun _ _ => ⟨result, rfl, hstatus⟩

end AgentInvocation

namespace FlowRunState

variable (s : FlowRunState)

def validateState : Except FlowError Unit := do
  raiseIf (¬ (s.invocations.map (·.id)).Nodup) (.value "Flow AgentInvocation ids must be unique")
  raiseIf (s.invocations.map (·.sequence) ≠ List.range' 1 s.invocations.length)
    (.value "Flow AgentInvocation sequences must be contiguous")
  raiseIf (s.budget.maxInvocations < s.invocations.length)
    (.value "Flow invocation count exceeds max_invocations")
  raiseIf (s.budget.timeoutSeconds.isNone ≠ s.deadlineAt.isNone)
    (.value "Flow deadline must match its timeout budget")
  raiseIf (s.invocations.any (·.flowRunId ≠ s.runId) = true)
    (.value "AgentInvocation belongs to another Flow Run")
  raiseIf (s.activeInvocationId.isSome = true ∧ s.activeInvocation.isNone = true)
    (.value "active_invocation_id does not identify an invocation")
  raiseIf (s.status = .created ∧ s.invocations.isEmpty = false)
    (.value "a created Flow Run cannot contain invocations")
  raiseIf (s.status = .waiting ∧ s.activeInvocation.map (·.status) ≠ some .waiting)
    (.value "a waiting Flow Run requires one waiting invocation")
  raiseIf (s.status = .running ∧ s.activeInvocation.any (·.status ≠ .running) = true)
    (.value "an active running Flow requires a running invocation")
  raiseIf (s.status.terminal = true ∧ s.activeInvocation.isSome = true)
    (.value "a terminal Flow Run cannot retain an active invocation")
  raiseIf (s.status = .completed ∧ s.output = none)
    (.value "a completed Flow Run requires output")
  raiseIf (s.status = .completed ∧ s.error ≠ none)
    (.value "a completed Flow Run cannot include an error")
  raiseIf (s.status.errorStatus = true ∧ s.error.getD "" = "")
    (.value s!"a Flow Run with status '{s.status.value}' requires an error")

/-- The state is accepted when it is loaded: `validate_state`, and `validate_result` of each of its
invocations. -/
def Loads : Prop :=
  s.validateState = .ok () ∧ ∀ inv ∈ s.invocations, inv.validateResult = .ok ()

/-- What holds of the active invocation and of what the Run has returned, by its status. -/
structure Agrees : Prop where
  identified : s.activeInvocationId.isSome = true → s.activeInvocation.isSome = true
  created : s.status = .created → s.invocations = []
  waiting : s.status = .waiting → ∃ active, s.activeInvocation = some active ∧
    active.status = .waiting
  running : s.status = .running → ∀ active, s.activeInvocation = some active →
    active.status = .running
  ended : s.status.terminal = true → s.activeInvocation = none
  completed : s.status = .completed → s.output ≠ none ∧ s.error = none
  explained : s.status.errorStatus = true → ∃ e, s.error = some e ∧ e ≠ ""

/-- What `validate_state` and `validate_result` accept. -/
structure Valid : Prop where
  unique : (s.invocations.map (·.id)).Nodup
  contiguous : s.invocations.map (·.sequence) = List.range' 1 s.invocations.length
  bounded : s.invocations.length ≤ s.budget.maxInvocations
  deadline : s.budget.timeoutSeconds.isNone = s.deadlineAt.isNone
  owned : ∀ inv ∈ s.invocations, inv.flowRunId = s.runId
  agrees : s.Agrees
  settled : ∀ inv ∈ s.invocations, inv.Valid

variable {s}

/-- The checks of `validate_state` that read the active invocation. -/
theorem agrees_of_checks
    (hidentified : ¬ (s.activeInvocationId.isSome = true ∧ s.activeInvocation.isNone = true))
    (hcreated : ¬ (s.status = .created ∧ s.invocations.isEmpty = false))
    (hwaiting : ¬ (s.status = .waiting ∧ s.activeInvocation.map (·.status) ≠ some .waiting))
    (hrunning : ¬ (s.status = .running ∧ s.activeInvocation.any (·.status ≠ .running) = true))
    (hended : ¬ (s.status.terminal = true ∧ s.activeInvocation.isSome = true))
    (houtput : ¬ (s.status = .completed ∧ s.output = none))
    (hclean : ¬ (s.status = .completed ∧ s.error ≠ none))
    (hexplained : ¬ (s.status.errorStatus = true ∧ s.error.getD "" = "")) : s.Agrees where
  identified := by
    cases hactive : s.activeInvocation <;> simp_all
  created := by
    cases hinvocations : s.invocations <;> simp_all
  waiting := by
    cases hactive : s.activeInvocation <;> simp_all
  running := by
    cases hactive : s.activeInvocation <;> simp_all
  ended := by
    cases hactive : s.activeInvocation <;> simp_all
  completed := by
    intro hstatus
    exact ⟨fun hnone => houtput ⟨hstatus, hnone⟩, by_contra fun hsome => hclean ⟨hstatus, hsome⟩⟩
  explained := by
    cases herror : s.error <;> simp_all

theorem checks_of_agrees (h : s.Agrees) :
    ¬ (s.activeInvocationId.isSome = true ∧ s.activeInvocation.isNone = true) ∧
      ¬ (s.status = .created ∧ s.invocations.isEmpty = false) ∧
      ¬ (s.status = .waiting ∧ s.activeInvocation.map (·.status) ≠ some .waiting) ∧
      ¬ (s.status = .running ∧ s.activeInvocation.any (·.status ≠ .running) = true) ∧
      ¬ (s.status.terminal = true ∧ s.activeInvocation.isSome = true) ∧
      ¬ (s.status = .completed ∧ s.output = none) ∧
      ¬ (s.status = .completed ∧ s.error ≠ none) ∧
      ¬ (s.status.errorStatus = true ∧ s.error.getD "" = "") := by
  obtain ⟨hidentified, hcreated, hwaiting, hrunning, hended, hcompleted, hexplained⟩ := h
  refine ⟨?_, ?_, ?_, ?_, ?_, ?_, ?_, ?_⟩
  · intro h
    have := hidentified h.1
    simp_all
  · intro h
    have := hcreated h.1
    simp_all
  · intro h
    obtain ⟨active, hactive, hstatus⟩ := hwaiting h.1
    simp_all
  · intro h
    cases hactive : s.activeInvocation <;> simp_all
  · intro h
    have := hended h.1
    simp_all
  · exact fun h => (hcompleted h.1).1 h.2
  · exact fun h => h.2 (hcompleted h.1).2
  · intro h
    obtain ⟨e, he, hne⟩ := hexplained h.1
    simp_all

theorem loads_iff : s.Loads ↔ s.Valid := by
  unfold Loads validateState
  simp only [AgentInvocation.checked_ok, raiseIf_ok, AgentInvocation.validateResult_ok]
  constructor
  · intro h
    obtain ⟨⟨h₁, h₂, h₃, h₄, h₅, h₆, h₇, h₈, h₉, h₁₀, h₁₁, h₁₂, h₁₃⟩, hsettled⟩ := h
    exact ⟨by simpa using h₁, by simpa using h₂, by simpa using h₃, by simpa using h₄,
      by simpa using h₅, agrees_of_checks h₆ h₇ h₈ h₉ h₁₀ h₁₁ h₁₂ h₁₃, hsettled⟩
  · intro h
    exact ⟨⟨by simpa using h.unique, by simpa using h.contiguous, by simpa using h.bounded,
      by simpa using h.deadline, by simpa using h.owned, checks_of_agrees h.agrees⟩, h.settled⟩

/-! ## The record of the active invocation is replaced -/

section Replacement

variable {active inv : AgentInvocation}

/-- The active invocation is the only one with its identifier. -/
theorem active_unique (hunique : (s.invocations.map (·.id)).Nodup)
    (hactive : s.activeInvocation = some active) {other : AgentInvocation}
    (hother : other ∈ s.invocations) (hid : other.id = active.id) : other = active :=
  List.inj_on_of_nodup_map hunique hother (activeInvocation_id hactive).2 hid

/-- A replacement that agrees with the active invocation leaves what they agree on. -/
theorem map_replaceInvocation {β : Type} (f : AgentInvocation → β)
    (hunique : (s.invocations.map (·.id)).Nodup) (hactive : s.activeInvocation = some active)
    (hid : inv.id = active.id) (hf : f inv = f active) :
    (s.replaceInvocation inv).map f = s.invocations.map f := by
  unfold replaceInvocation
  rw [List.map_map]
  apply List.map_congr_left
  intro other hother
  by_cases heq : other.id = inv.id
  · have hsame : other = active := active_unique hunique hactive hother (heq.trans hid)
    simp [hsame, ← hid, hf]
  · simp [heq]

theorem mem_replaceInvocation {other : AgentInvocation} (h : other ∈ s.replaceInvocation inv) :
    other = inv ∨ other ∈ s.invocations := by
  obtain ⟨old, hold, heq⟩ := List.mem_map.mp h
  by_cases hid : old.id = inv.id
  · rw [if_pos hid] at heq
    exact .inl heq.symm
  · rw [if_neg hid] at heq
    rw [← heq]
    exact .inr hold

theorem find_replaceInvocation (h : inv.id ∈ s.invocations.map (·.id)) :
    (s.replaceInvocation inv).find? (fun other => other.id == inv.id) = some inv := by
  unfold replaceInvocation
  generalize s.invocations = l at h
  induction l with
  | nil => cases h
  | cons head rest ih =>
    by_cases hid : head.id = inv.id
    · simp [hid]
    · have hrest : inv.id ∈ rest.map (·.id) := by
        simp only [List.map_cons, List.mem_cons] at h
        exact h.resolve_left fun heq => hid heq.symm
      rw [List.map_cons, if_neg hid, List.find?_cons_of_neg (by simpa using hid)]
      exact ih hrest

/-- A Run in which only the active record, the status and the outcome have changed. -/
theorem Valid.replaced {s' : FlowRunState} (h : s.Valid) (inv : AgentInvocation)
    (hactive : s.activeInvocation = some active)
    (hid : inv.id = active.id) (hsequence : inv.sequence = active.sequence)
    (hflow : inv.flowRunId = active.flowRunId) (hinv : inv.Valid)
    (hinvocations : s'.invocations = s.replaceInvocation inv) (hrunId : s'.runId = s.runId)
    (hbudget : s'.budget = s.budget) (hdeadline : s'.deadlineAt = s.deadlineAt)
    (hagrees : s'.Agrees) : s'.Valid where
  unique := by
    rw [hinvocations, map_replaceInvocation _ h.unique hactive hid hid]
    exact h.unique
  contiguous := by
    have hlength : (s.replaceInvocation inv).length = s.invocations.length := List.length_map _
    rw [hinvocations, map_replaceInvocation _ h.unique hactive hid hsequence, hlength]
    exact h.contiguous
  bounded := by
    have hlength : (s.replaceInvocation inv).length = s.invocations.length := List.length_map _
    rw [hinvocations, hbudget, hlength]
    exact h.bounded
  deadline := by
    rw [hbudget, hdeadline]
    exact h.deadline
  owned := by
    intro other hother
    rw [hinvocations] at hother
    rw [hrunId]
    cases mem_replaceInvocation hother with
    | inl heq =>
      rw [heq, hflow]
      exact h.owned active (activeInvocation_id hactive).2
    | inr hmem => exact h.owned other hmem
  agrees := hagrees
  settled := by
    intro other hother
    rw [hinvocations] at hother
    cases mem_replaceInvocation hother with
    | inl heq =>
      rw [heq]
      exact hinv
    | inr hmem => exact h.settled other hmem

end Replacement

end FlowRunState

/-! ## Transitions -/

/-- One transition of the aggregate. -/
inductive LifecycleStep where
  | start
  | beginInvocation (request : AgentInvocationRequest) (definition : FlowDefinition)
  | settleInvocation (result : AgentInvocationResult)
  | resumeInvocation (invocationId : UUID)
  | complete (output : String)
  | terminate (ending : Termination) (error : String)

namespace LifecycleStep

def apply (s : FlowRunState) : LifecycleStep → Except FlowError FlowRunState
  | start => s.start
  | beginInvocation request definition => s.beginInvocation request definition
  | settleInvocation result => s.settleInvocation result
  | resumeInvocation invocationId => s.resumeInvocation invocationId
  | complete output => s.complete output
  | terminate ending error => s.terminate ending.status error

/-- An invocation begins under an identifier that no other invocation of the Run has. -/
def Fresh (s : FlowRunState) : LifecycleStep → Prop
  | beginInvocation request _ => request.invocationId ∉ s.invocations.map (·.id)
  | _ => True

end LifecycleStep

/-- The states reached from `create` by transitions that succeed and are `Fit` for the state they
start from. -/
inductive Reached (Fit : FlowRunState → LifecycleStep → Prop) : FlowRunState → Prop
  | create {s : FlowRunState} (definition : FlowDefinition) (runId : UUID) (now : Time)
      (hcreate : FlowRunState.create definition runId now = .ok s) : Reached Fit s
  | next {s s' : FlowRunState} (h : Reached Fit s) (step : LifecycleStep) (hfit : Fit s step)
      (hstep : step.apply s = .ok s') : Reached Fit s'

namespace FlowRunState

variable {s s' : FlowRunState}

theorem deadline_isNone {b : FlowBudget} {now : Time} {deadlineAt : Option Time}
    (h : b.deadline now = .ok deadlineAt) : b.timeoutSeconds.isNone = deadlineAt.isNone := by
  unfold FlowBudget.deadline at h
  cases htimeout : b.timeoutSeconds with
  | none =>
    rw [htimeout] at h
    cases h
    rfl
  | some seconds =>
    rw [htimeout] at h
    cases hadd : addSeconds now seconds with
    | error message =>
      simp only [hadd] at h
      cases h
    | ok deadline =>
      simp only [hadd] at h
      cases h
      rfl

theorem initial_valid {definition : FlowDefinition} {now : Time} {deadlineAt : Option Time}
    (h : definition.budget.deadline now = .ok deadlineAt) (runId : UUID) :
    (initial definition runId now deadlineAt).Valid where
  unique := List.nodup_nil
  contiguous := rfl
  bounded := Nat.zero_le _
  deadline := deadline_isNone h
  owned := fun _ hmem => nomatch hmem
  agrees := by
    constructor <;> intro h <;> first | rfl | cases h
  settled := fun _ hmem => nomatch hmem

theorem create_ok {definition : FlowDefinition} {runId : UUID} {now : Time}
    (h : create definition runId now = .ok s) : ∃ deadlineAt,
      definition.budget.deadline now = .ok deadlineAt ∧
        s = initial definition runId now deadlineAt := by
  simp only [create, Except.bind_ok] at h
  obtain ⟨deadlineAt, hdeadline, hs⟩ := h
  exact ⟨deadlineAt, hdeadline, (Except.ok.inj hs).symm⟩

/-! ## One transition -/

theorem activeInvocation_none (h : s.activeInvocationId = none) : s.activeInvocation = none := by
  unfold activeInvocation
  rw [h]

theorem start_valid (h : s.Valid) (hstep : s.start = .ok s') : s'.Valid := by
  obtain ⟨hstatus, rfl⟩ := start_ok hstep
  have hnone : s.activeInvocation = none := by
    have hempty := h.agrees.created hstatus
    unfold activeInvocation
    cases s.activeInvocationId with
    | none => rfl
    | some id => simp [hempty]
  refine ⟨h.unique, h.contiguous, h.bounded, h.deadline, h.owned, ?_, h.settled⟩
  constructor
  · exact h.agrees.identified
  · exact fun hcreated => nomatch hcreated
  · exact fun hwaiting => nomatch hwaiting
  · intro _ active hactive
    have hsome : s.activeInvocation = some active := hactive
    rw [hnone] at hsome
    cases hsome
  · exact fun hended => nomatch hended
  · exact fun hcompleted => nomatch hcompleted
  · exact fun hfailed => nomatch hfailed

theorem begun_active {request : AgentInvocationRequest}
    (hfresh : request.invocationId ∉ s.invocations.map (·.id))
    (hinvocations : s'.invocations = s.invocations ++ [s.begunInvocation request])
    (hactive : s'.activeInvocationId = some request.invocationId) :
    s'.activeInvocation = some (s.begunInvocation request) := by
  have hothers : s.invocations.find? (fun inv => inv.id == request.invocationId) = none := by
    apply List.find?_eq_none.mpr
    intro inv hmem heq
    exact hfresh (List.mem_map.mpr ⟨inv, hmem, by simpa using heq⟩)
  unfold activeInvocation
  rw [hactive]
  simp [hinvocations, List.find?_append, hothers, begunInvocation]

theorem beginInvocation_valid {request : AgentInvocationRequest} {definition : FlowDefinition}
    (h : s.Valid) (hstep : s.beginInvocation request definition = .ok s')
    (hfresh : request.invocationId ∉ s.invocations.map (·.id)) : s'.Valid := by
  obtain ⟨hstatus, -, -, hflow, hsequence, hbound, rfl⟩ := beginInvocation_ok hstep
  constructor
  · show ((s.invocations ++ [s.begunInvocation request]).map (·.id)).Nodup
    rw [List.map_append, List.nodup_append]
    refine ⟨h.unique, List.nodup_singleton _, ?_⟩
    intro id hid other hother heq
    have hbegun : other = request.invocationId := List.mem_singleton.mp hother
    rw [heq, hbegun] at hid
    exact hfresh hid
  · show (s.invocations ++ [s.begunInvocation request]).map (·.sequence) =
      List.range' 1 (s.invocations ++ [s.begunInvocation request]).length
    have hlast : (s.begunInvocation request).sequence = 1 + s.invocations.length := by
      show request.sequence = _
      omega
    rw [List.map_append, h.contiguous, List.length_append, List.length_singleton, List.range'_1_concat]
    simp [hlast]
  · show (s.invocations ++ [s.begunInvocation request]).length ≤ s.budget.maxInvocations
    rw [List.length_append, List.length_singleton]
    exact hbound
  · exact h.deadline
  · intro inv hinv
    cases List.mem_append.mp hinv with
    | inl hold => exact h.owned inv hold
    | inr hnew =>
      rw [List.mem_singleton.mp hnew]
      rfl
  · have hactive : activeInvocation { s.evolve with
        invocations := s.invocations ++ [s.begunInvocation request]
        activeInvocationId := some request.invocationId } = some (s.begunInvocation request) :=
      begun_active hfresh rfl rfl
    have hrunning : s.evolve.status = .running := hstatus
    constructor
    · intro _
      rw [hactive]
      rfl
    · simp [hrunning]
    · simp [hrunning]
    · intro _ active hsome
      rw [hactive] at hsome
      cases hsome
      rfl
    · simp [hrunning, RunStatus.terminal]
    · simp [hrunning]
    · simp [hrunning, RunStatus.errorStatus]
  · intro inv hinv
    cases List.mem_append.mp hinv with
    | inl hold => exact h.settled inv hold
    | inr hnew =>
      rw [List.mem_singleton.mp hnew]
      constructor
      · intro _ hnone
        cases hnone
      · exact fun _ => rfl
      · intro _ _ hnone
        cases hnone
      · exact fun _ hnot => absurd rfl hnot

theorem replaced_active {active inv : AgentInvocation} (hactive : s.activeInvocation = some active)
    (hid : inv.id = active.id) (hinvocations : s'.invocations = s.replaceInvocation inv)
    (hactive' : s'.activeInvocationId = some inv.id) : s'.activeInvocation = some inv := by
  unfold activeInvocation
  rw [hactive', hinvocations]
  apply find_replaceInvocation
  rw [hid]
  exact List.mem_map_of_mem (activeInvocation_id hactive).2

theorem settleInvocation_valid {result : AgentInvocationResult} (h : s.Valid)
    (hstep : s.settleInvocation result = .ok s') : s'.Valid := by
  obtain ⟨-, active, settled, hactive, hsettle, rfl⟩ := settleInvocation_ok hstep
  have hvalid := AgentInvocation.settle_valid hsettle
  obtain ⟨-, -, -, -, hsettled⟩ := AgentInvocation.settle_ok hsettle
  refine h.replaced settled hactive (by rw [hsettled]) (by rw [hsettled])
    (by rw [hsettled]) hvalid rfl rfl rfl rfl ?_
  by_cases hwaiting : settled.status = .waiting
  · simp only [hwaiting, if_true]
    have hfound : activeInvocation { s.evolve with
        status := .waiting
        invocations := s.replaceInvocation settled
        activeInvocationId := some settled.id } = some settled :=
      replaced_active hactive (by rw [hsettled]) rfl rfl
    constructor
    · intro _
      rw [hfound]
      rfl
    · exact fun hcreated => nomatch hcreated
    · exact fun _ => ⟨settled, hfound, hwaiting⟩
    · exact fun hrunning => nomatch hrunning
    · exact fun hended => nomatch hended
    · exact fun hcompleted => nomatch hcompleted
    · exact fun hfailed => nomatch hfailed
  · simp only [hwaiting, if_false]
    constructor
    · exact fun hsome => nomatch hsome
    · exact fun hcreated => nomatch hcreated
    · exact fun hstatus => nomatch hstatus
    · exact fun _ _ hsome => nomatch hsome
    · exact fun hended => nomatch hended
    · exact fun hcompleted => nomatch hcompleted
    · exact fun hfailed => nomatch hfailed

theorem resumeInvocation_valid {invocationId : UUID} (h : s.Valid)
    (hstep : s.resumeInvocation invocationId = .ok s') : s'.Valid := by
  obtain ⟨-, active, resumed, hactive, -, hresume, rfl⟩ := resumeInvocation_ok hstep
  have hmem := (activeInvocation_id hactive).2
  have hvalid := AgentInvocation.resume_valid (h.settled active hmem) hresume
  obtain ⟨-, hresumed⟩ := AgentInvocation.resume_ok hresume
  refine h.replaced resumed hactive (by rw [hresumed]) (by rw [hresumed])
    (by rw [hresumed]) hvalid rfl rfl rfl rfl ?_
  have hfound : activeInvocation { s.evolve with
      status := .running
      invocations := s.replaceInvocation resumed } = some resumed := by
    refine replaced_active hactive (by rw [hresumed]) rfl ?_
    rw [hresumed]
    exact (activeInvocation_id hactive).1
  constructor
  · intro _
    rw [hfound]
    rfl
  · exact fun hcreated => nomatch hcreated
  · exact fun hwaiting => nomatch hwaiting
  · intro _ other hother
    rw [hfound] at hother
    cases hother
    rw [hresumed]
  · exact fun hended => nomatch hended
  · exact fun hcompleted => nomatch hcompleted
  · exact fun hfailed => nomatch hfailed

theorem complete_valid {output : String} (h : s.Valid) (hstep : s.complete output = .ok s') :
    s'.Valid := by
  obtain ⟨-, hactive, rfl⟩ := complete_ok hstep
  refine ⟨h.unique, h.contiguous, h.bounded, h.deadline, h.owned, ?_, h.settled⟩
  have hnone : activeInvocation { s.evolve with
      status := .completed, output := some output, error := none } = none :=
    activeInvocation_none hactive
  constructor
  · intro hsome
    have hnot : s.activeInvocationId.isSome = true := hsome
    rw [hactive] at hnot
    cases hnot
  · exact fun hcreated => nomatch hcreated
  · exact fun hwaiting => nomatch hwaiting
  · exact fun hrunning => nomatch hrunning
  · exact fun _ => hnone
  · exact fun _ => ⟨by simp, rfl⟩
  · exact fun hfailed => nomatch hfailed

/-- An ended Run agrees with its error, whatever its records are. -/
theorem terminated_agrees {status : RunStatus} {error : String} (hstatus : status.errorStatus = true)
    (herror : isBlank error = false) (hs' : s'.status = status)
    (hactive : s'.activeInvocationId = none) (hs'error : s'.error = some error) : s'.Agrees := by
  constructor
  · simp [hactive]
  · intro hcreated
    rw [hs'] at hcreated
    rw [hcreated] at hstatus
    cases hstatus
  · intro hwaiting
    rw [hs'] at hwaiting
    rw [hwaiting] at hstatus
    cases hstatus
  · intro _ active hsome
    rw [activeInvocation_none hactive] at hsome
    cases hsome
  · exact fun _ => activeInvocation_none hactive
  · intro hcompleted
    rw [hs'] at hcompleted
    rw [hcompleted] at hstatus
    cases hstatus
  · refine fun _ => ⟨error, hs'error, ?_⟩
    intro hempty
    rw [hempty] at herror
    cases herror

theorem terminate_valid {status : RunStatus} {error : String} (h : s.Valid)
    (hstatus : status.errorStatus = true) (hstep : s.terminate status error = .ok s') :
    s'.Valid := by
  obtain ⟨-, herror, invocations, hactive, rfl⟩ := terminate_ok hstep
  have hagrees : Agrees { s.evolve with
      status := status, invocations := invocations, activeInvocationId := none
      error := some error } := terminated_agrees hstatus herror rfl rfl rfl
  unfold terminateActive at hactive
  cases hsome : s.activeInvocation with
  | none =>
    rw [hsome] at hactive
    cases hactive
    exact ⟨h.unique, h.contiguous, h.bounded, h.deadline, h.owned, hagrees, h.settled⟩
  | some active =>
    simp only [hsome, Except.bind_ok] at hactive
    obtain ⟨terminated, hterminate, hinvocations⟩ := hactive
    have hvalid := AgentInvocation.terminate_valid hterminate
    obtain ⟨result, hrecord, -⟩ := AgentInvocation.terminate_record hterminate
    exact h.replaced terminated hsome (by rw [hrecord]) (by rw [hrecord])
      (by rw [hrecord]) hvalid (Except.ok.inj hinvocations).symm rfl rfl rfl hagrees

theorem step_valid {step : LifecycleStep} (h : s.Valid) (hfresh : step.Fresh s)
    (hstep : step.apply s = .ok s') : s'.Valid := by
  cases step with
  | start => exact start_valid h hstep
  | beginInvocation request definition => exact beginInvocation_valid h hstep hfresh
  | settleInvocation result => exact settleInvocation_valid h hstep
  | resumeInvocation invocationId => exact resumeInvocation_valid h hstep
  | complete output => exact complete_valid h hstep
  | terminate ending error =>
    refine terminate_valid h ?_ hstep
    cases ending <;> rfl

/-- An invocation that begins under a taken identifier makes the state invalid. -/
theorem fresh_of_valid {step : LifecycleStep} (hstep : step.apply s = .ok s') (h : s'.Valid) :
    step.Fresh s := by
  cases step with
  | beginInvocation request definition =>
    obtain ⟨-, -, -, -, -, -, rfl⟩ := beginInvocation_ok hstep
    intro htaken
    have hunique : ((s.invocations ++ [s.begunInvocation request]).map (·.id)).Nodup := h.unique
    rw [List.map_append, List.nodup_append] at hunique
    exact hunique.2.2 _ htaken request.invocationId (List.mem_singleton.mpr rfl) rfl
  | _ => trivial

/-- Every state reached by transitions that begin invocations under identifiers of their own is
valid, and it stays so in a further transition exactly when that one does too. -/
theorem reached_loads (h : Reached (fun s step => step.Fresh s) s) :
    s.Loads ∧ ∀ step s', LifecycleStep.apply s step = .ok s' → (s'.Loads ↔ step.Fresh s) := by
  have hvalid : s.Valid := by
    induction h with
    | create definition runId now hcreate =>
      obtain ⟨deadlineAt, hdeadline, rfl⟩ := create_ok hcreate
      exact initial_valid hdeadline runId
    | next _ step hfit hstep ih => exact step_valid ih hfit hstep
  refine ⟨loads_iff.mpr hvalid, fun step s' hstep => ?_⟩
  constructor
  · intro hloads
    exact fresh_of_valid hstep (loads_iff.mp hloads)
  · intro hfresh
    exact loads_iff.mpr (step_valid hvalid hfresh hstep)

/-- A request of the smallest Flow, whose Run has the identifier zero. -/
def soloRequest (invocationId : UUID) (sequence : Nat) : AgentInvocationRequest :=
  { flowRunId := 0
    invocationId := invocationId
    sequence := sequence
    agentKey := "writer"
    definitionId := "writer"
    definitionVersion := "1"
    definitionFingerprint := ""
    input := { prompt := "Go." } }

def soloResult (invocationId : UUID) : AgentInvocationResult :=
  { flowRunId := 0
    invocationId := invocationId
    agentKey := "writer"
    status := .completed
    output := some "Done."
    valid := AgentInvocationResult.completed_valid }

theorem solo_started (Fit : FlowRunState → LifecycleStep → Prop)
    (hfit : Fit (initial soloDefinition 0 0 none) .start) :
    Reached Fit { (initial soloDefinition 0 0 none).evolve with status := .running } :=
  .next (.create soloDefinition 0 0 rfl) .start hfit rfl

def soloSettled : FlowRunState :=
  { (initial soloDefinition 0 0 none).evolve.evolve.evolve with
    status := .running
    invocations :=
      [{ (initial soloDefinition 0 0 none).begunInvocation (soloRequest 1 1) with
          status := .completed, result := some (soloResult 1) }] }

theorem solo_settled (Fit : FlowRunState → LifecycleStep → Prop) (hfit : ∀ s, Fit s .start)
    (hbegin : ∀ s, s.invocations = [] →
      Fit s (.beginInvocation (soloRequest 1 1) soloDefinition))
    (hsettle : ∀ s, Fit s (.settleInvocation (soloResult 1))) : Reached Fit soloSettled :=
  .next (.next (solo_started Fit (hfit _)) (.beginInvocation (soloRequest 1 1) soloDefinition)
    (hbegin _ rfl) rfl) (.settleInvocation (soloResult 1)) (hsettle _) rfl

/-- The identifier of the first invocation is given to the second one. -/
theorem reached_repeats : ¬ ∀ s, Reached (fun _ _ => True) s → s.Loads := by
  intro hloads
  have hreached : Reached (fun _ _ => True) _ :=
    .next (solo_settled _ (fun _ => trivial) (fun _ _ => trivial) fun _ => trivial)
      (.beginInvocation (soloRequest 1 2) soloDefinition) trivial rfl
  have hunique := (loads_iff.mp (hloads _ hreached)).unique
  exact absurd hunique (by decide)

theorem reached_solo : soloSettled.Loads ∧
    ∀ step s', LifecycleStep.apply soloSettled step = .ok s' →
      (s'.Loads ↔ step.Fresh soloSettled) := by
  apply reached_loads
  apply solo_settled
  · exact fun _ => trivial
  · intro s hempty
    show (soloRequest 1 1).invocationId ∉ s.invocations.map (·.id)
    rw [hempty]
    exact List.not_mem_nil
  · exact fun _ => trivial

end FlowRunState

end Flows
end BaseAgent

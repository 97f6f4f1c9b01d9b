import BaseAgent.Flows.Validity

/-!
# What a termination does to the accounts

The totals of a Flow Run are folded over the results of its invocations.  A termination writes a
result of its own for the active invocation: it copies the usage and the Artifacts of the result
that a suspended invocation has kept, and leaves its metadata, where the calls are counted.
-/

namespace BaseAgent
namespace Flows
namespace FlowRunState

variable {s s' : FlowRunState}

/-- Every invocation but the active one has ended, and the active one was begun last. -/
def Ordered (s : FlowRunState) : Prop :=
  match s.activeInvocationId with
  | none => ∀ inv ∈ s.invocations, inv.status.terminal = true
  | some id => ∃ init last, s.invocations = init ++ [last] ∧ last.id = id ∧
      ∀ inv ∈ init, inv.status.terminal = true

section Ordered

variable {init : List AgentInvocation} {active inv : AgentInvocation}

theorem ordered_none (h : s.activeInvocationId = none) :
    s.Ordered ↔ ∀ inv ∈ s.invocations, inv.status.terminal = true := by
  unfold Ordered
  rw [h]

theorem ordered_last (init : List AgentInvocation) (inv : AgentInvocation)
    (hinvocations : s.invocations = init ++ [inv])
    (hactive : s.activeInvocationId = some inv.id)
    (hinit : ∀ other ∈ init, other.status.terminal = true) : s.Ordered := by
  unfold Ordered
  rw [hactive]
  exact ⟨init, inv, hinvocations, rfl, hinit⟩

theorem Ordered.active_last (h : s.Ordered) (hactive : s.activeInvocation = some active)
    (hlive : active.status.terminal = false) :
    ∃ init, s.invocations = init ++ [active] ∧
      ∀ inv ∈ init, inv.status.terminal = true ∧ inv.id ≠ active.id := by
  obtain ⟨hid, -⟩ := activeInvocation_id hactive
  unfold Ordered at h
  rw [hid] at h
  obtain ⟨init, last, hinvocations, hlast, hinit⟩ := h
  have hfind : (init ++ [last]).find? (fun inv => inv.id == active.id) = some active := by
    have hfound := hactive
    unfold activeInvocation at hfound
    rw [hid, hinvocations] at hfound
    exact hfound
  rw [List.find?_append] at hfind
  cases hearly : init.find? (fun inv => inv.id == active.id) with
  | some early =>
    -- the one that is found has ended, so it is not the active one
    rw [hearly] at hfind
    have hsame : early = active := Option.some.inj hfind
    have hended := hinit early (List.mem_of_find?_eq_some hearly)
    rw [hsame, hlive] at hended
    cases hended
  | none =>
    rw [hearly] at hfind
    have hsame : last = active := by simpa [hlast] using hfind
    rw [hsame] at hinvocations
    refine ⟨init, hinvocations, fun inv hinv => ⟨hinit inv hinv, fun heq => ?_⟩⟩
    exact List.find?_eq_none.mp hearly inv hinv (by simpa using heq)

theorem replaceInvocation_last (hinvocations : s.invocations = init ++ [active])
    (hinit : ∀ inv ∈ init, inv.id ≠ active.id) (hid : inv.id = active.id) :
    s.replaceInvocation inv = init ++ [inv] := by
  have hothers : init.map (fun other => if other.id = inv.id then inv else other) = init := by
    calc init.map (fun other => if other.id = inv.id then inv else other)
      _ = init.map id := by
          apply List.map_congr_left
          intro other hother
          rw [hid, if_neg (hinit other hother), id]
      _ = init := List.map_id init
  unfold replaceInvocation
  rw [hinvocations, List.map_append, hothers, List.map_singleton, if_pos hid.symm]

theorem Ordered.terminateActive_last (h : s.Ordered) {status : RunStatus} {error : String}
    (hactive : s.activeInvocation = some active) {invocations : List AgentInvocation}
    (hok : s.terminateActive status error = .ok invocations) :
    ∃ init terminated, active.terminate status error = .ok terminated ∧
      s.invocations = init ++ [active] ∧ invocations = init ++ [terminated] ∧
      ∀ inv ∈ init, inv.status.terminal = true := by
  unfold terminateActive at hok
  simp only [hactive, Except.bind_ok] at hok
  obtain ⟨terminated, hterminate, hinvocations⟩ := hok
  obtain ⟨hlive, hid, -⟩ := AgentInvocation.terminate_ok hterminate
  obtain ⟨init, hlist, hinit⟩ := h.active_last hactive hlive
  refine ⟨init, terminated, hterminate, hlist, ?_, fun inv hinv => (hinit inv hinv).1⟩
  rw [← replaceInvocation_last hlist (fun inv hinv => (hinit inv hinv).2) hid]
  exact (Except.ok.inj hinvocations).symm

end Ordered

/-! ## Transitions keep the order -/

theorem settleInvocation_ordered {result : AgentInvocationResult} (h : s.Ordered)
    (hstep : s.settleInvocation result = .ok s') : s'.Ordered := by
  obtain ⟨-, active, settled, hactive, hsettle, rfl⟩ := settleInvocation_ok hstep
  obtain ⟨hstatus, -, -, -, hsettled⟩ := AgentInvocation.settle_ok hsettle
  have hlive : active.status.terminal = false := by
    cases hstatus with
    | inl hrunning => rw [hrunning]; rfl
    | inr hwaiting => rw [hwaiting]; rfl
  obtain ⟨init, hlist, hinit⟩ := h.active_last hactive hlive
  have hreplaced : s.replaceInvocation settled = init ++ [settled] :=
    replaceInvocation_last hlist (fun inv hinv => (hinit inv hinv).2) (by rw [hsettled])
  by_cases hwaiting : settled.status = .waiting
  · apply ordered_last init settled hreplaced
    · simp [hwaiting]
    · exact fun other hother => (hinit other hother).1
  · rw [ordered_none (by simp [hwaiting])]
    intro inv hinv
    have hmem : inv ∈ init ++ [settled] := by
      rw [← hreplaced]
      exact hinv
    cases List.mem_append.mp hmem with
    | inl hold => exact (hinit inv hold).1
    | inr hnew =>
      rw [List.mem_singleton.mp hnew]
      rw [hsettled] at hwaiting ⊢
      cases hresult : result.status <;> simp_all [AgentResultStatus.toRunStatus, RunStatus.terminal]

theorem resumeInvocation_ordered {invocationId : UUID} (h : s.Ordered)
    (hstep : s.resumeInvocation invocationId = .ok s') : s'.Ordered := by
  obtain ⟨-, active, resumed, hactive, -, hresume, rfl⟩ := resumeInvocation_ok hstep
  obtain ⟨hstatus, hresumed⟩ := AgentInvocation.resume_ok hresume
  obtain ⟨init, hlist, hinit⟩ := h.active_last hactive (by rw [hstatus]; rfl)
  apply ordered_last init resumed
  · exact replaceInvocation_last hlist (fun inv hinv => (hinit inv hinv).2) (by rw [hresumed])
  · rw [hresumed]
    exact (activeInvocation_id hactive).1
  · exact fun other hother => (hinit other hother).1

theorem terminate_ordered {status : RunStatus} {error : String} (h : s.Ordered)
    (hstep : s.terminate status error = .ok s') : s'.Ordered := by
  obtain ⟨-, -, invocations, hinvocations, rfl⟩ := terminate_ok hstep
  rw [ordered_none rfl]
  intro inv hinv
  have hmem : inv ∈ invocations := hinv
  cases hactive : s.activeInvocation with
  | none =>
    have hid : s.activeInvocationId = none := by
      cases hsome : s.activeInvocationId with
      | none => rfl
      | some id =>
        unfold Ordered at h
        rw [hsome] at h
        obtain ⟨init, last, hlist, hlast, -⟩ := h
        have hnone := hactive
        unfold activeInvocation at hnone
        rw [hsome] at hnone
        have hnot := List.find?_eq_none.mp hnone last (by rw [hlist]; simp)
        exact absurd hlast (by simpa using hnot)
    have hsame : s.invocations = invocations := by
      have hok := hinvocations
      unfold terminateActive at hok
      rw [hactive] at hok
      exact Except.ok.inj hok
    rw [ordered_none hid] at h
    rw [← hsame] at hmem
    exact h inv hmem
  | some active =>
    obtain ⟨init, terminated, hterminate, -, hlist, hinit⟩ :=
      h.terminateActive_last hactive hinvocations
    rw [hlist] at hmem
    cases List.mem_append.mp hmem with
    | inl hold => exact hinit inv hold
    | inr hnew =>
      obtain ⟨result, hrecord, -, -, herror, -⟩ := AgentInvocation.terminate_record hterminate
      rw [List.mem_singleton.mp hnew, hrecord]
      exact RunStatus.terminal_of_errorStatus herror

theorem step_ordered {step : LifecycleStep} (h : s.Ordered) (hstep : step.apply s = .ok s') :
    s'.Ordered := by
  cases step with
  | start =>
    obtain ⟨-, rfl⟩ := start_ok hstep
    exact h
  | beginInvocation request definition =>
    obtain ⟨-, hactive, -, -, -, -, rfl⟩ := beginInvocation_ok hstep
    rw [ordered_none hactive] at h
    exact ordered_last _ _ rfl rfl h
  | settleInvocation result => exact settleInvocation_ordered h hstep
  | resumeInvocation invocationId => exact resumeInvocation_ordered h hstep
  | complete output =>
    obtain ⟨-, -, rfl⟩ := complete_ok hstep
    exact h
  | terminate ending error => exact terminate_ordered h hstep

theorem reached_ordered {Fit : FlowRunState → LifecycleStep → Prop} (h : Reached Fit s) :
    s.Ordered := by
  induction h with
  | create definition runId now hcreate =>
    obtain ⟨deadlineAt, -, rfl⟩ := create_ok hcreate
    rw [ordered_none rfl]
    exact fun _ hmem => nomatch hmem
  | next _ step _ hstep ih => exact step_ordered ih hstep

/-! ## The totals -/

/-- The Run has the totals of another one. -/
structure SameAccounts (s s' : FlowRunState) : Prop where
  usage : s'.usage = s.usage
  modelCalls : s'.modelCallCount = s.modelCallCount
  toolCalls : s'.toolCallCount = s.toolCallCount

section Totals

variable {init : List AgentInvocation} {a b : AgentInvocation}

theorem usage_last (h : s.invocations = init ++ [a]) (h' : s'.invocations = init ++ [b])
    (hab : b.usage = a.usage) : s'.usage = s.usage := by
  unfold usage
  rw [h, h', List.foldl_append, List.foldl_append]
  show _ + b.usage = _ + a.usage
  rw [hab]

theorem modelCallCount_last (h : s.invocations = init ++ [a]) (h' : s'.invocations = init ++ [b]) :
    s'.modelCallCount = s.modelCallCount ↔
      b.resultCount "model_calls" = a.resultCount "model_calls" := by
  unfold modelCallCount
  rw [h, h', List.map_append, List.map_append, List.sum_append, List.sum_append]
  simp

theorem toolCallCount_last (h : s.invocations = init ++ [a]) (h' : s'.invocations = init ++ [b]) :
    s'.toolCallCount = s.toolCallCount ↔
      b.resultCount "tool_calls" = a.resultCount "tool_calls" := by
  unfold toolCallCount
  rw [h, h', List.map_append, List.map_append, List.sum_append, List.sum_append]
  simp

end Totals

theorem terminated_counts {inv terminated : AgentInvocation} {status : RunStatus} {error : String}
    (h : inv.terminate status error = .ok terminated) :
    terminated.usage = inv.usage ∧ ∀ key, terminated.resultCount key = 0 := by
  obtain ⟨result, rfl, -, -, -, husage, hmetadata⟩ := AgentInvocation.terminate_record h
  refine ⟨husage, fun key => ?_⟩
  show result.count key = 0
  unfold AgentInvocationResult.count
  rw [hmetadata]
  rfl

/-- An active invocation has not ended, and no call is counted in the result it has kept. -/
def Uncounted (s : FlowRunState) : Prop :=
  ∀ active, s.activeInvocation = some active → active.status.terminal = false ∧
    active.resultCount "model_calls" = 0 ∧ active.resultCount "tool_calls" = 0

theorem terminate_accounts {status : RunStatus} {error : String} (h : s.Ordered)
    (hstep : s.terminate status error = .ok s') : s.SameAccounts s' ↔ s.Uncounted := by
  obtain ⟨-, -, invocations, hinvocations, hs'⟩ := terminate_ok hstep
  have hlist' : s'.invocations = invocations := by rw [hs']
  cases hactive : s.activeInvocation with
  | none =>
    have hsame : s'.invocations = s.invocations := by
      unfold terminateActive at hinvocations
      rw [hactive] at hinvocations
      rw [hlist']
      exact (Except.ok.inj hinvocations).symm
    constructor
    · intro _ active hsome
      rw [hactive] at hsome
      cases hsome
    · intro _
      constructor
      · simp only [usage, hsame]
      · simp only [modelCallCount, hsame]
      · simp only [toolCallCount, hsame]
  | some active =>
    obtain ⟨init, terminated, hterminate, hlist, hinit, -⟩ :=
      h.terminateActive_last hactive hinvocations
    rw [hinit] at hlist'
    obtain ⟨hlive, -⟩ := AgentInvocation.terminate_ok hterminate
    obtain ⟨husage, hcounts⟩ := terminated_counts hterminate
    have hmodel := modelCallCount_last hlist hlist'
    have htool := toolCallCount_last hlist hlist'
    rw [hcounts] at hmodel htool
    constructor
    · intro hsame other hother
      rw [hactive] at hother
      cases hother
      exact ⟨hlive, (hmodel.mp hsame.modelCalls).symm, (htool.mp hsame.toolCalls).symm⟩
    · intro huncounted
      obtain ⟨-, hmodelCalls, htoolCalls⟩ := huncounted active hactive
      exact ⟨usage_last hlist hlist' husage, hmodel.mpr hmodelCalls.symm, htool.mpr htoolCalls.symm⟩

theorem terminate_isOk (hlive : s.status.terminal = false) {status : RunStatus} {error : String}
    (hstatus : status.errorStatus = true) (herror : isBlank error = false)
    (hactive : ∀ active, s.activeInvocation = some active → active.status.terminal = false) :
    ∃ s', s.terminate status error = .ok s' := by
  have hinvocations : ∃ invocations, s.terminateActive status error = .ok invocations := by
    unfold terminateActive
    cases hsome : s.activeInvocation with
    | none => exact ⟨s.invocations, rfl⟩
    | some active =>
      obtain ⟨terminated, hterminated⟩ : ∃ terminated, active.terminate status error =
          .ok terminated := AgentInvocation.terminate_isOk hstatus herror (hactive active hsome)
      simp only [hterminated]
      exact ⟨_, rfl⟩
  obtain ⟨invocations, hok⟩ := hinvocations
  simp only [terminate, Except.bind_ok, raiseIf_ok]
  exact ⟨_, (), by simp [hlive], (), by simp [herror], invocations, hok, rfl⟩

/-- A termination keeps the accounts of a Run exactly when nothing is counted in what its active
invocation has kept. -/
theorem terminate_keeps_accounts (h : Reached (fun _ _ => True) s)
    (hlive : s.status.terminal = false) (ending : Termination) {error : String}
    (herror : isBlank error = false) :
    (∃ s', s.terminate ending.status error = .ok s' ∧ s.SameAccounts s') ↔ s.Uncounted := by
  have hordered := reached_ordered h
  constructor
  · intro hkept
    obtain ⟨s', hstep, hsame⟩ := hkept
    exact (terminate_accounts hordered hstep).mp hsame
  · intro huncounted
    have hstatus : ending.status.errorStatus = true := by cases ending <;> rfl
    obtain ⟨s', hstep⟩ := terminate_isOk hlive hstatus herror
      fun active hactive => (huncounted active hactive).1
    exact ⟨s', hstep, (terminate_accounts hordered hstep).mpr huncounted⟩

def waitingResult (metadata : List (String × JsonValue)) : AgentInvocationResult :=
  { flowRunId := 0
    invocationId := 1
    agentKey := "writer"
    status := .waiting
    usage := ⟨30, 12⟩
    pendingInput := some { toolCallId := "call", toolName := "ask", prompt := "Which one?" }
    metadata := metadata
    valid := AgentInvocationResult.asking_valid }

def soloWaiting (metadata : List (String × JsonValue)) : FlowRunState :=
  { (initial soloDefinition 0 0 none).evolve.evolve.evolve with
    status := .waiting
    invocations :=
      [{ (initial soloDefinition 0 0 none).begunInvocation (soloRequest 1 1) with
          status := .waiting, result := some (waitingResult metadata) }]
    activeInvocationId := some 1 }

theorem soloWaiting_reached (metadata : List (String × JsonValue)) :
    Reached (fun _ _ => True) (soloWaiting metadata) :=
  .next (.next (solo_started _ trivial) (.beginInvocation (soloRequest 1 1) soloDefinition) trivial
    rfl) (.settleInvocation (waitingResult metadata)) trivial rfl

/-- The calls that a waiting Agent has made are lost when its Flow is cancelled. -/
theorem terminate_loses_calls :
    ¬ ∀ (s : FlowRunState) (ending : Termination) (error : String),
      Reached (fun _ _ => True) s → s.status.terminal = false → isBlank error = false →
        ∃ s', s.terminate ending.status error = .ok s' ∧ s.SameAccounts s' := by
  intro hkeeps
  obtain ⟨s', hstep, hsame⟩ := hkeeps (soloWaiting [("model_calls", .int 2)]) .cancel "stop"
    (soloWaiting_reached _) rfl (by decide)
  have hcalls := hsame.modelCalls
  cases hstep
  exact absurd hcalls (by decide)

theorem terminate_keeps_waiting :
    (soloWaiting []).Uncounted ∧ ∃ s', (soloWaiting []).terminate Termination.cancel.status "stop" =
      .ok s' ∧ (soloWaiting []).SameAccounts s' := by
  have huncounted : (soloWaiting []).Uncounted := by
    intro active hactive
    cases hactive
    exact ⟨rfl, rfl, rfl⟩
  exact ⟨huncounted,
    (terminate_keeps_accounts (soloWaiting_reached []) rfl .cancel (by decide)).mpr huncounted⟩

end FlowRunState
end Flows
end BaseAgent

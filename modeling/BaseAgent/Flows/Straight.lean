import BaseAgent.Flows.Settlement

/-!
# The straight course of a sequential Flow

What a Flow asks of its Agents and reports is determined by its definition, its input and the final
results of its Agents.  The Run of a Flow keeps to this course through every transition, whether an
Agent is suspended on the way or not.
-/

namespace BaseAgent
namespace Flows

open Async Prog

/-! ## The straight course of a Flow -/

/-- A result without the identifiers of its Run and its invocation. -/
def AgentInvocationResult.anonymous (r : AgentInvocationResult) : AgentInvocationResult :=
  { r with flowRunId := 0, invocationId := 0 }

/-- A request without the identifiers of its Run and its invocation. -/
def AgentInvocationRequest.anonymous (r : AgentInvocationRequest) : AgentInvocationRequest :=
  { r with flowRunId := 0, invocationId := 0 }

abbrev Finals := String → AgentInvocationResult

structure HandedOn (result : AgentInvocationResult) (h : AgentHandoff) : Prop where
  source : h.sourceAgentKey = result.agentKey
  spoken : ∀ text, result.output = some text → text ≠ "" → h.summary = text
  silent : result.output = none ∨ result.output = some "" →
    h.summary = "Agent completed without textual output."
  data : h.data = result.metadata
  artifacts : h.artifacts = result.artifacts

section Straight

variable (definition : FlowDefinition) (input : FlowInput) (finals : Finals)

def preceding : Nat → Option AgentInvocationResult
  | 0 => none
  | k + 1 => definition.agents[k]?.map fun binding => finals binding.key

def planned : List AgentInvocationRequest :=
  definition.agents.mapIdx fun k binding =>
    { flowRunId := 0
      invocationId := 0
      sequence := k + 1
      agentKey := binding.key
      definitionId := binding.definition.id
      definitionVersion := binding.definition.version
      definitionFingerprint := binding.definition.fingerprint
      input :=
        { prompt := input.prompt
          handoff := handoff (preceding definition finals k)
          attachments := input.attachments } }

/-- The Agents that are started: those up to the first that does not complete. -/
def startedAgents : List FlowAgent → List FlowAgent
  | [] => []
  | binding :: rest =>
    if (finals binding.key).status = .completed then binding :: startedAgents rest else [binding]

/-- What a Flow result says of the work that was done. -/
structure FlowReport where
  status : RunStatus
  output : Option String
  error : Option String
  usage : TokenUsage
  artifacts : List Artifact
  invocationCount : Nat
  modelCallCount : Int
  toolCallCount : Int

def FlowResult.report (r : FlowResult) : FlowReport :=
  { status := r.status
    output := r.output
    error := r.error
    usage := r.usage
    artifacts := r.artifacts
    invocationCount := r.invocationCount
    modelCallCount := r.modelCallCount
    toolCallCount := r.toolCallCount }

def failureText (r : AgentInvocationResult) : String :=
  match r.error with
  | none | some "" => s!"Agent '{r.agentKey}' did not complete"
  | some e => e

/-- The report on the final results of the Agents that were started.  The last of them decides how
the Flow ends. -/
def reportOf (results : List AgentInvocationResult) (last : AgentInvocationResult) : FlowReport :=
  { status := if last.status = .completed then .completed else (terminationOf last.status).status
    output := if last.status = .completed then some (last.output.getD "") else none
    error := if last.status = .completed then none else some (failureText last)
    usage := results.foldl (fun total r => total + r.usage) {}
    artifacts := results.flatMap (·.artifacts)
    invocationCount := results.length
    modelCallCount := (results.map (·.count "model_calls")).sum
    toolCallCount := (results.map (·.count "tool_calls")).sum }

def straightReport : Option FlowReport :=
  let results := (startedAgents finals definition.agents).map fun binding => finals binding.key
  results.getLast?.map (reportOf results)

end Straight

/-! ## What the straight course says -/

section Said

variable {definition : FlowDefinition} {input : FlowInput} {finals : Finals}

theorem planned_get {i : Nat} {request : AgentInvocationRequest}
    (h : (planned definition input finals)[i]? = some request) :
    ∃ binding, definition.agents[i]? = some binding ∧ request.agentKey = binding.key ∧
      request.input.handoff = handoff (preceding definition finals i) := by
  unfold planned at h
  rw [List.getElem?_mapIdx] at h
  cases hbinding : definition.agents[i]? with
  | none =>
    rw [hbinding] at h
    cases h
  | some binding =>
    rw [hbinding] at h
    cases h
    exact ⟨binding, rfl, rfl, rfl⟩

theorem planned_keys : (planned definition input finals).map (·.agentKey) =
    definition.agents.map (·.key) := by
  apply List.ext_getElem?
  intro i
  unfold planned
  rw [List.getElem?_map, List.getElem?_mapIdx, List.getElem?_map, Option.map_map]
  rfl

theorem handedOn_handoff (result : AgentInvocationResult) :
    ∃ h, handoff (some result) = some h ∧ HandedOn result h := by
  refine ⟨_, rfl, rfl, ?_, ?_, rfl, rfl⟩
  · intro text htext hne
    simp [htext]
  · intro hsilent
    cases hsilent with
    | inl hnone => simp [hnone]
    | inr hempty => simp [hempty]

theorem planned_handoff {i : Nat} {request next : AgentInvocationRequest}
    (h : (planned definition input finals)[i]? = some request)
    (hnext : (planned definition input finals)[i + 1]? = some next) :
    ∃ h, next.input.handoff = some h ∧ HandedOn (finals request.agentKey) h := by
  obtain ⟨binding, hbinding, hkey, -⟩ := planned_get h
  obtain ⟨-, -, -, hhandoff⟩ := planned_get hnext
  have hbefore : preceding definition finals (i + 1) =
      definition.agents[i]?.map fun binding => finals binding.key := rfl
  rw [hhandoff, hkey, hbefore, hbinding]
  exact handedOn_handoff (finals binding.key)

theorem startedAgents_ends (finals : Finals) {bindings : List FlowAgent} (h : bindings ≠ []) :
    ∃ last, (startedAgents finals bindings).getLast? = some last ∧
      ((finals last.key).status = .completed ↔
        ∀ binding ∈ bindings, (finals binding.key).status = .completed) ∧
      ((finals last.key).status = .completed → bindings.getLast? = some last) := by
  induction bindings with
  | nil => exact absurd rfl h
  | cons binding rest ih =>
    unfold startedAgents
    by_cases hbinding : (finals binding.key).status = .completed
    · rw [if_pos hbinding]
      by_cases hrest : rest = []
      · rw [hrest]
        exact ⟨binding, rfl, by simp, fun _ => rfl⟩
      · obtain ⟨last, hlast, hcompleted, hend⟩ := ih hrest
        refine ⟨last, ?_, ?_, ?_⟩
        · rw [List.getLast?_cons, hlast]
          rfl
        · rw [hcompleted]
          simp [hbinding]
        · intro hstatus
          rw [List.getLast?_cons, hend hstatus]
          rfl
    · rw [if_neg hbinding]
      refine ⟨binding, rfl, ?_, fun hstatus => absurd hstatus hbinding⟩
      simp [hbinding]

/-- A Flow completes when all of its Agents do, with the output of the last one. -/
theorem straightReport_completed {report : FlowReport}
    (h : straightReport definition finals = some report) :
    (report.status = .completed ↔
      ∀ binding ∈ definition.agents, (finals binding.key).status = .completed) ∧
      (report.status = .completed → ∃ last, definition.agents.getLast? = some last ∧
        report.output = some ((finals last.key).output.getD "")) := by
  obtain ⟨last, hlast, hcompleted, hend⟩ := startedAgents_ends finals definition.valid.1
  unfold straightReport at h
  simp only [List.getLast?_map, hlast, Option.map_some, Option.some.injEq] at h
  have hstatus : report.status = .completed ↔ (finals last.key).status = .completed := by
    rw [← h]
    unfold reportOf
    by_cases hfinal : (finals last.key).status = .completed
    · simp [hfinal]
    · simp only [iff_false, hfinal]
      cases (finals last.key).status <;> simp [terminationOf, Termination.status]
  refine ⟨hstatus.trans hcompleted, fun hended => ⟨last, hend (hstatus.mp hended), ?_⟩⟩
  rw [← h]
  unfold reportOf
  rw [if_pos (hstatus.mp hended), if_pos (hstatus.mp hended)]

end Said

/-! ## The state of a Flow on its course -/

structure Course where
  definition : FlowDefinition
  input : FlowInput
  finals : Finals
  waits : Prop

namespace Course

variable (c : Course)

/-- The Agents before a place have completed, with the results that the invocations have. -/
structure Done (k : Nat) (invocations : List AgentInvocation) : Prop where
  within : k ≤ c.definition.agents.length
  results : invocations.map (fun inv => inv.result.map (·.anonymous)) =
    (c.definition.agents.take k).map fun binding => some (c.finals binding.key).anonymous
  completed : ∀ binding ∈ c.definition.agents.take k, (c.finals binding.key).status = .completed

structure Ready (k : Nat) (s : FlowRunState) : Prop where
  ordered : s.Ordered
  matching : s.matchesDefinition c.definition = true
  idle : s.activeInvocationId = none
  running : s.status = .running
  silent : s.output = none
  done : c.Done k s.invocations

structure Asks (k : Nat) (s : FlowRunState) (active : AgentInvocation) : Prop where
  agent : ∃ binding, c.definition.agents[k]? = some binding ∧ active.agentKey = binding.key
  owner : active.flowRunId = s.runId
  prompt : active.input.prompt = c.input.prompt
  attachments : active.input.attachments = c.input.attachments

structure Busy (k : Nat) (s : FlowRunState) (active : AgentInvocation) : Prop where
  ordered : s.Ordered
  matching : s.matchesDefinition c.definition = true
  live : s.status.terminal = false
  silent : s.output = none
  last : ∃ init, s.invocations = init ++ [active] ∧ c.Done k init
  asks : c.Asks k s active

def Handed (k : Nat) (previous : Option AgentInvocationResult) : Prop :=
  previous.map (·.anonymous) = (preceding c.definition c.finals k).map (·.anonymous)

variable {c} {k : Nat} {s s' : FlowRunState} {invocations init : List AgentInvocation}
variable {active found : AgentInvocation}

theorem Done.length (h : c.Done k invocations) : invocations.length = k := by
  have hlength := congrArg List.length h.results
  rw [List.length_map, List.length_map, List.length_take] at hlength
  have hwithin := h.within
  omega

theorem Done.snoc (h : c.Done k init) {binding : FlowAgent}
    (hbinding : c.definition.agents[k]? = some binding) {result : AgentInvocationResult}
    (hresult : active.result = some result)
    (hfinal : result.anonymous = (c.finals binding.key).anonymous)
    (hcompleted : (c.finals binding.key).status = .completed) : c.Done (k + 1) (init ++ [active]) := by
  have hbound : k < c.definition.agents.length := (List.getElem?_eq_some_iff.mp hbinding).1
  have htake : c.definition.agents.take (k + 1) = c.definition.agents.take k ++ [binding] := by
    rw [List.take_add_one, hbinding]
    rfl
  refine ⟨hbound, ?_, ?_⟩
  · rw [htake, List.map_append, List.map_append, h.results]
    simp [hresult, hfinal]
  · intro other hother
    rw [htake] at hother
    cases List.mem_append.mp hother with
    | inl hold => exact h.completed other hold
    | inr hnew =>
      rw [List.mem_singleton.mp hnew]
      exact hcompleted

/-- An active invocation that is found and has not ended is the one at the place. -/
theorem Busy.active_found (h : c.Busy k s active) (hfound : s.activeInvocation = some found)
    (hlive : found.status.terminal = false) :
    found = active ∧ ∃ init, s.invocations = init ++ [active] ∧ c.Done k init ∧
      ∀ inv ∈ init, inv.id ≠ active.id := by
  obtain ⟨init, hlist, hdone⟩ := h.last
  obtain ⟨init', hlist', hinit⟩ := h.ordered.active_last hfound hlive
  have hsame := List.append_inj' (hlist.symm.trans hlist') rfl
  have hactive : active = found := List.singleton_inj.mp hsame.2
  rw [← hactive] at hlist' hinit
  rw [hsame.1] at hdone
  exact ⟨hactive.symm, init', hlist', hdone, fun inv hinv => (hinit inv hinv).2⟩

/-! ## Transitions along the course -/

theorem started (c : Course) {now : Time} {deadlineAt : Option Time} {runId : UUID} {t : Transition}
    (h : startTransition (.initial c.definition runId now deadlineAt) = .ok t) : c.Ready 0 t.state := by
  have ht : t.state = { (FlowRunState.initial c.definition runId now deadlineAt).evolve with
      status := .running } := by
    cases h
    rfl
  rw [ht]
  refine ⟨?_, ?_, rfl, rfl, rfl, ⟨Nat.zero_le _, rfl, fun _ hmem => nomatch hmem⟩⟩
  · rw [FlowRunState.ordered_none rfl]
    exact fun _ hmem => nomatch hmem
  · simp [FlowRunState.matchesDefinition, FlowRunState.evolve, FlowRunState.initial]

theorem Ready.begun (h : c.Ready k s) {request : AgentInvocationRequest} {t : Transition}
    (ht : beginTransition request c.definition s = .ok t) {binding : FlowAgent}
    (hbinding : c.definition.agents[k]? = some binding) (hkey : request.agentKey = binding.key)
    (hprompt : request.input.prompt = c.input.prompt)
    (hattachments : request.input.attachments = c.input.attachments) :
    c.Busy k t.state (s.begunInvocation request) ∧ t.state.runId = s.runId ∧
      t.state.status = .running := by
  simp only [beginTransition, Except.bind_ok] at ht
  obtain ⟨state, hbegin, _, -, ht⟩ := ht
  cases ht
  obtain ⟨-, -, -, -, -, -, hstate⟩ := FlowRunState.beginInvocation_ok hbegin
  have hstep : (LifecycleStep.beginInvocation request c.definition).apply s = .ok state := hbegin
  have hordered := FlowRunState.step_ordered h.ordered hstep
  rw [hstate] at hordered ⊢
  refine ⟨⟨hordered, h.matching, ?_, h.silent, ⟨s.invocations, rfl, h.done⟩,
    ⟨binding, hbinding, hkey⟩, rfl, hprompt, hattachments⟩, rfl, h.running⟩
  show s.status.terminal = false
  rw [h.running]
  rfl

/-- What a settlement of the invocation at a place stores. -/
structure Settled (c : Course) (k : Nat) (s s' : FlowRunState) (result : AgentInvocationResult)
    (init : List AgentInvocation) (settled : AgentInvocation) : Prop where
  ordered : s'.Ordered
  matching : s'.matchesDefinition c.definition = true
  own : s'.runId = s.runId
  silent : s'.output = none
  list : s'.invocations = init ++ [settled]
  done : c.Done k init
  asks : c.Asks k s' settled
  recorded : settled.result = some result
  agent : result.agentKey = settled.agentKey
  status : s'.status = if result.status = .waiting then .waiting else .running
  idle : result.status ≠ .waiting → s'.activeInvocationId = none

theorem waiting_of_toRunStatus {status : AgentResultStatus} :
    status.toRunStatus = .waiting ↔ status = .waiting := by
  cases status <;> simp [AgentResultStatus.toRunStatus]

theorem Busy.settled (h : c.Busy k s active) {result : AgentInvocationResult}
    (hstep : s.settleInvocation result = .ok s') :
    ∃ init settled, Settled c k s s' result init settled := by
  have hordered := FlowRunState.settleInvocation_ordered h.ordered hstep
  obtain ⟨-, found, settled, hfound, hsettle, hs'⟩ := FlowRunState.settleInvocation_ok hstep
  obtain ⟨hstatus, -, -, hkey, hsettled⟩ := AgentInvocation.settle_ok hsettle
  have hlive : found.status.terminal = false := by
    cases hstatus with
    | inl hrunning => rw [hrunning]; rfl
    | inr hwaiting => rw [hwaiting]; rfl
  obtain ⟨hsame, init, hlist, hdone, hothers⟩ := h.active_found hfound hlive
  rw [hsame] at hkey hsettled
  have hwaiting : settled.status = .waiting ↔ result.status = .waiting := by
    rw [hsettled]
    exact waiting_of_toRunStatus
  refine ⟨init, settled, hordered, ?_, ?_, ?_, ?_, hdone, ?_, ?_, ?_, ?_, ?_⟩
  · rw [hs']
    exact h.matching
  · rw [hs']
    rfl
  · rw [hs']
    exact h.silent
  · rw [hs']
    exact FlowRunState.replaceInvocation_last hlist hothers (by rw [hsettled])
  · rw [hsettled, hs']
    exact ⟨h.asks.agent, h.asks.owner, h.asks.prompt, h.asks.attachments⟩
  · rw [hsettled]
  · rw [hsettled]
    exact hkey
  · rw [hs']
    simp only [hwaiting]
  · intro hnot
    rw [hs']
    simp only [hwaiting, if_neg hnot]

theorem Settled.busy {result : AgentInvocationResult} {settled : AgentInvocation}
    (h : Settled c k s s' result init settled) (hwaiting : result.status = .waiting) :
    c.Busy k s' settled ∧ s'.status = .waiting := by
  have hstatus : s'.status = .waiting := by
    rw [h.status, if_pos hwaiting]
  refine ⟨⟨h.ordered, h.matching, ?_, h.silent, ⟨init, h.list, h.done⟩, h.asks⟩, hstatus⟩
  rw [hstatus]
  rfl

theorem Settled.ready {result : AgentInvocationResult} {settled : AgentInvocation}
    (h : Settled c k s s' result init settled) (hcompleted : result.status = .completed)
    (hfinal : result.anonymous = (c.finals settled.agentKey).anonymous) :
    c.Ready (k + 1) s' ∧ c.Handed (k + 1) (some result) := by
  obtain ⟨binding, hbinding, hkey⟩ := h.asks.agent
  rw [hkey] at hfinal
  have hnot : result.status ≠ .waiting := by simp [hcompleted]
  have hstatus : (c.finals binding.key).status = .completed := by
    rw [← hcompleted]
    exact (congrArg AgentInvocationResult.status hfinal).symm
  refine ⟨⟨h.ordered, h.matching, h.idle hnot, ?_, h.silent, ?_⟩, ?_⟩
  · rw [h.status, if_neg hnot]
  · rw [h.list]
    exact h.done.snoc hbinding h.recorded hfinal hstatus
  · show some result.anonymous =
      (c.definition.agents[k]?.map fun binding => c.finals binding.key).map (·.anonymous)
    rw [hbinding, hfinal]
    rfl

/-- A result for the invocation at the place is not refused for what it says. -/
theorem Busy.unsettled (h : c.Busy k s active) {result : AgentInvocationResult}
    (hrun : result.flowRunId = s.runId) (hid : result.invocationId = active.id)
    (hkey : result.agentKey = active.agentKey) {e : FlowError}
    (he : s.settleInvocation result = .error e) : e.isValueError = false := by
  unfold FlowRunState.settleInvocation at he
  by_cases hstatus : s.status ≠ .running ∧ s.status ≠ .waiting
  · rw [raiseIf, if_pos hstatus] at he
    cases he
    rfl
  · rw [raiseIf, if_neg hstatus] at he
    have he : (s.requireActive.bind fun found => (found.settle result).bind fun settled => _) =
      .error e := he
    unfold FlowRunState.requireActive at he
    cases hfound : s.activeInvocation with
    | none =>
      rw [hfound] at he
      cases he
      rfl
    | some found =>
      rw [hfound] at he
      have he : ((found.settle result).bind fun settled => _) = .error e := he
      cases hsettle : found.settle result with
      | ok settled =>
        rw [hsettle] at he
        cases he
      | error refusal =>
        rw [hsettle] at he
        cases he
        unfold AgentInvocation.settle at hsettle
        split at hsettle
        · cases hsettle
          rfl
        · rename_i hopen
          have hlive : found.status.terminal = false := by
            cases hcase : found.status <;> simp_all [RunStatus.terminal]
          obtain ⟨hsame, -⟩ := h.active_found hfound hlive
          rw [hsame, if_neg (by simp [hrun, h.asks.owner]), if_neg (by simp [hid]),
            if_neg (by simp [hkey])] at hsettle
          cases hsettle

theorem Busy.resumed (h : c.Busy k s active) {runId invocationId : UUID} {t : Transition}
    (hfound : s.activeInvocation = some found)
    (ht : resumeTransition runId invocationId s = .ok t) :
    found = active ∧ c.Busy k t.state { active with status := .running } ∧
      t.state.runId = s.runId ∧ t.state.status = .running := by
  simp only [resumeTransition, Except.bind_ok] at ht
  obtain ⟨state, hresume, _, -, ht⟩ := ht
  cases ht
  have hordered := FlowRunState.resumeInvocation_ordered h.ordered hresume
  obtain ⟨-, other, resumed, hother, -, hrecord, hstate⟩ := FlowRunState.resumeInvocation_ok hresume
  obtain ⟨hwaiting, hresumed⟩ := AgentInvocation.resume_ok hrecord
  have hsame : other = found := Option.some.inj (hother.symm.trans hfound)
  rw [hsame] at hwaiting hresumed
  obtain ⟨hactive, init, hlist, hdone, hothers⟩ := h.active_found hfound (by rw [hwaiting]; rfl)
  rw [hactive] at hresumed
  rw [hresumed] at hstate
  rw [hstate] at hordered ⊢
  refine ⟨hactive, ⟨hordered, h.matching, rfl, h.silent, ⟨init, ?_, hdone⟩, h.asks.agent,
    h.asks.owner, h.asks.prompt, h.asks.attachments⟩, rfl, rfl⟩
  exact FlowRunState.replaceInvocation_last hlist hothers rfl

/-! ## What is reported -/

theorem flowResult_report {result : FlowResult} (h : flowResult s = .ok result) :
    result.runId = s.runId ∧ result.report =
      { status := s.status
        output := s.output
        error := s.error
        usage := s.usage
        artifacts := s.artifacts
        invocationCount := s.invocations.length
        modelCallCount := s.modelCallCount
        toolCallCount := s.toolCallCount } := by
  unfold flowResult at h
  split at h
  · simp only [Except.bind_ok] at h
    obtain ⟨active, -, last, -, waiting, -, hresult⟩ := h
    rw [FlowResult.validate_ok hresult]
    exact ⟨rfl, rfl⟩
  · simp only [Except.bind_ok] at h
    obtain ⟨waiting, -, hresult⟩ := h
    rw [FlowResult.validate_ok hresult]
    exact ⟨rfl, rfl⟩

section Spent

variable {bindings : List FlowAgent}

/-- What the invocations have used is what the final results say. -/
theorem spent (h : s.invocations.map (fun inv => inv.result.map (·.anonymous)) =
      bindings.map fun binding => some (c.finals binding.key).anonymous) :
    s.usage = (bindings.map fun binding => c.finals binding.key).foldl
        (fun total r => total + r.usage) {} ∧
      s.artifacts = (bindings.map fun binding => c.finals binding.key).flatMap (·.artifacts) ∧
      s.invocations.length = (bindings.map fun binding => c.finals binding.key).length ∧
      ∀ key, (s.invocations.map (·.resultCount key)).sum =
        ((bindings.map fun binding => c.finals binding.key).map (·.count key)).sum := by
  have hmap : ∀ {β : Type} (f : AgentInvocation → β) (g : Option AgentInvocationResult → β),
      (∀ inv, f inv = g (inv.result.map (·.anonymous))) →
      s.invocations.map f = bindings.map fun binding => g (some (c.finals binding.key).anonymous) := by
    intro β f g hfg
    calc s.invocations.map f
      _ = (s.invocations.map fun inv => inv.result.map (·.anonymous)).map g := by
          rw [List.map_map]
          exact List.map_congr_left fun inv _ => hfg inv
      _ = _ := by
          rw [h, List.map_map]
          rfl
  have husage := hmap (·.usage) (fun r => (r.map (·.usage)).getD {}) (by
    intro inv
    unfold AgentInvocation.usage
    cases inv.result <;> rfl)
  have hartifacts := hmap (·.artifacts) (fun r => (r.map (·.artifacts)).getD []) (by
    intro inv
    unfold AgentInvocation.artifacts
    cases inv.result <;> rfl)
  refine ⟨?_, ?_, ?_, ?_⟩
  · calc s.usage
      _ = (s.invocations.map (·.usage)).foldl (· + ·) {} := by
          rw [List.foldl_map]
          rfl
      _ = _ := by
          rw [husage, List.foldl_map, List.foldl_map]
          rfl
  · calc s.artifacts
      _ = (s.invocations.map (·.artifacts)).flatten := rfl
      _ = _ := by
          rw [hartifacts, List.flatMap_map]
          rfl
  · have hlength := congrArg List.length h
    rw [List.length_map, List.length_map] at hlength
    rw [hlength, List.length_map]
  · intro key
    rw [hmap (·.resultCount key) (fun r => (r.map (·.count key)).getD 0) (by
      intro inv
      unfold AgentInvocation.resultCount
      cases inv.result <;> rfl), List.map_map]
    rfl

end Spent

/-! ## How the course ends -/

theorem startedAgents_completed {finals : Finals} {bindings : List FlowAgent}
    (h : ∀ binding ∈ bindings, (finals binding.key).status = .completed) :
    startedAgents finals bindings = bindings := by
  induction bindings with
  | nil => rfl
  | cons binding rest ih =>
    unfold startedAgents
    rw [if_pos (h binding List.mem_cons_self), ih]
    exact fun other hother => h other (List.mem_cons_of_mem _ hother)

theorem startedAgents_failed {finals : Finals} {before rest : List FlowAgent} {binding : FlowAgent}
    (hbefore : ∀ other ∈ before, (finals other.key).status = .completed)
    (hbinding : (finals binding.key).status ≠ .completed) :
    startedAgents finals (before ++ binding :: rest) = before ++ [binding] := by
  induction before with
  | nil =>
    show startedAgents finals (binding :: rest) = [binding]
    unfold startedAgents
    rw [if_neg hbinding]
  | cons other before ih =>
    show startedAgents finals (other :: (before ++ binding :: rest)) = other :: (before ++ [binding])
    unfold startedAgents
    rw [if_pos (hbefore other List.mem_cons_self), ih]
    exact fun inner hinner => hbefore inner (List.mem_cons_of_mem _ hinner)

/-- The result of the state is the one of the straight course, which starts `m` Agents. -/
def Straight (c : Course) (m : Nat) (s : FlowRunState) : Prop :=
  ∀ result, flowResult s = .ok result →
    straightReport c.definition c.finals = some result.report ∧
      (startedAgents c.finals c.definition.agents).length = m ∧ result.status ≠ .waiting

theorem Ready.completes (h : c.Ready k s) (hlast : c.definition.agents[k]? = none)
    {previous : AgentInvocationResult} (hhanded : c.Handed k (some previous)) {t : Transition}
    (ht : completeTransition (previous.output.getD "") s = .ok t) : c.Straight k t.state := by
  intro result hresult
  simp only [completeTransition, Except.bind_ok] at ht
  obtain ⟨state, hcomplete, ht⟩ := ht
  cases ht
  obtain ⟨-, -, hstate⟩ := FlowRunState.complete_ok hcomplete
  obtain ⟨-, hreport⟩ := flowResult_report hresult
  have hbound : c.definition.agents.length ≤ k := List.getElem?_eq_none_iff.mp hlast
  have hk : k = c.definition.agents.length := le_antisymm h.done.within hbound
  have hall : c.definition.agents.take k = c.definition.agents := by
    rw [hk]
    exact List.take_length
  have hcompleted := h.done.completed
  rw [hall] at hcompleted
  have hresults := h.done.results
  rw [hall] at hresults
  obtain ⟨husage, hartifacts, hlength, hcounts⟩ := spent hresults
  -- the last result that was handed on is the one of the last Agent
  obtain ⟨binding, hbinding, hsame⟩ : ∃ binding, c.definition.agents.getLast? = some binding ∧
      previous.anonymous = (c.finals binding.key).anonymous := by
    cases hcase : k with
    | zero =>
      rw [hcase] at hhanded
      cases hhanded
    | succ j =>
      rw [hcase] at hhanded
      have hhanded : some previous.anonymous =
          (c.definition.agents[j]?.map fun binding => c.finals binding.key).map (·.anonymous) :=
        hhanded
      rw [List.getLast?_eq_getElem?, ← hk, hcase, Nat.add_sub_cancel]
      cases hj : c.definition.agents[j]? with
      | none =>
        rw [hj] at hhanded
        cases hhanded
      | some binding =>
        rw [hj] at hhanded
        exact ⟨binding, rfl, Option.some.inj hhanded⟩
  have hfinal : (c.finals binding.key).status = .completed :=
    hcompleted binding (List.mem_of_getLast? hbinding)
  have houtput : (c.finals binding.key).output = previous.output :=
    (congrArg AgentInvocationResult.output hsame).symm
  have hstatus : result.status = .completed := by
    have hreported := congrArg FlowReport.status hreport
    rw [hstate] at hreported
    exact hreported
  refine ⟨?_, by rw [startedAgents_completed hcompleted, hk], by simp [hstatus]⟩
  unfold straightReport
  rw [startedAgents_completed hcompleted]
  simp only [List.getLast?_map, hbinding, Option.map_some]
  rw [hreport, hstate]
  unfold reportOf
  rw [if_pos hfinal, if_pos hfinal, if_pos hfinal, houtput, ← husage, ← hartifacts, ← hlength,
    ← hcounts, ← hcounts]
  rfl

theorem Settled.fails {result : AgentInvocationResult} {settled : AgentInvocation}
    (h : Settled c k s s' result init settled) (hwaiting : result.status ≠ .waiting)
    (hcompleted : result.status ≠ .completed)
    (hfinal : result.anonymous = (c.finals settled.agentKey).anonymous) {runId : UUID}
    {t : Transition}
    (ht : terminateTransition runId (terminationOf result.status) (failureText result) [] s' =
      .ok t) : c.Straight (k + 1) t.state := by
  intro flow hflow
  simp only [terminateTransition, Except.bind_ok] at ht
  obtain ⟨state, hterminate, _, -, ht⟩ := ht
  cases ht
  obtain ⟨-, -, invocations, hinvocations, hstate⟩ := FlowRunState.terminate_ok hterminate
  have hlist : invocations = s'.invocations := by
    unfold FlowRunState.terminateActive at hinvocations
    rw [FlowRunState.activeInvocation_none (h.idle hwaiting)] at hinvocations
    exact (Except.ok.inj hinvocations).symm
  obtain ⟨-, hreport⟩ := flowResult_report hflow
  obtain ⟨binding, hbinding, hkey⟩ := h.asks.agent
  rw [hkey] at hfinal
  have hstatus : (c.finals binding.key).status = result.status :=
    (congrArg AgentInvocationResult.status hfinal).symm
  have hnot : (c.finals binding.key).status ≠ .completed := by
    rw [hstatus]
    exact hcompleted
  have htext : failureText (c.finals binding.key) = failureText result :=
    (congrArg failureText hfinal).symm
  have hagents : startedAgents c.finals c.definition.agents =
      c.definition.agents.take k ++ [binding] := by
    have hsplit : c.definition.agents =
        c.definition.agents.take k ++ binding :: c.definition.agents.drop (k + 1) := by
      obtain ⟨hbound, hget⟩ := List.getElem?_eq_some_iff.mp hbinding
      rw [← hget, ← List.drop_eq_getElem_cons, List.take_append_drop]
    have hfailed : startedAgents c.finals
        (c.definition.agents.take k ++ binding :: c.definition.agents.drop (k + 1)) =
          c.definition.agents.take k ++ [binding] :=
      startedAgents_failed h.done.completed hnot
    rw [← hsplit] at hfailed
    exact hfailed
  have hresults : s'.invocations.map (fun inv => inv.result.map (·.anonymous)) =
      (c.definition.agents.take k ++ [binding]).map
        fun binding => some (c.finals binding.key).anonymous := by
    rw [h.list, List.map_append, List.map_append, h.done.results]
    simp [h.recorded, hfinal]
  obtain ⟨husage, hartifacts, hlength, hcounts⟩ := spent hresults
  have hended : flow.status ≠ .waiting := by
    have hreported := congrArg FlowReport.status hreport
    rw [hstate] at hreported
    have hflow : flow.status = (terminationOf result.status).status := hreported
    rw [hflow]
    cases result.status <;> simp [terminationOf, Termination.status]
  have htaken : (c.definition.agents.take k ++ [binding]).length = k + 1 := by
    have hwithin := h.done.within
    rw [List.length_append, List.length_take, List.length_singleton]
    omega
  refine ⟨?_, by rw [hagents, htaken], hended⟩
  unfold straightReport
  rw [hagents]
  simp only [List.getLast?_map, List.getLast?_concat, Option.map_some]
  rw [hreport, hstate, hlist]
  unfold reportOf
  rw [if_neg hnot, if_neg hnot, if_neg hnot, hstatus, htext, ← husage, ← hartifacts, ← hlength,
    ← hcounts, ← hcounts]
  apply congrArg some
  rw [FlowReport.mk.injEq]
  exact ⟨rfl, h.silent.symm, rfl, rfl, rfl, rfl, rfl, rfl⟩

end Course

end Flows
end BaseAgent

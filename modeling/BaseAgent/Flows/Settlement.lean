import BaseAgent.Flows.Accounting
import BaseAgent.Flows.Sequential

/-!
# A sequential Flow settles

With one client and no cancelled task, a call of the strategy returns the result of the state it
leaves, and that state waits or has ended, as long as the invoker answers within limits that the
code relies on without checking them: a timeout comes only under a timeout budget, the counts in
the metadata do not sum up below zero, and the error of an unsuccessful Agent is not blank.  The
request for an Agent is also refused when its definition's identifier does not fit the pattern of
the request.

A call runs alone here (`Prog.eval`).  The conditions are stated over the operations that it
performs, in the state each one finds (`Prog.Along`).
-/

namespace BaseAgent
namespace Flows

open Async Prog
open InMemoryFlowRepository (SameIdentity)

/-- No task is cancelled, and `uuid4` does not repeat itself. -/
structure Undisturbed (env : FlowEnv) : Prop where
  invoke : ∀ n request remaining, env.invoke n request remaining ≠ .cancelled
  resume : ∀ n request remaining, env.resume n request remaining ≠ .cancelled
  cancel : ∀ n request, env.cancel n request ≠ some .cancelled
  distinct : Function.Injective env.uuid4

/-- The calls counted over the results do not sum up below zero. -/
def Counted (invocations : List AgentInvocation) : Prop :=
  0 ≤ (invocations.map (·.resultCount "model_calls")).sum ∧
    0 ≤ (invocations.map (·.resultCount "tool_calls")).sum

/-- A call has returned what is stored, and what is stored waits or has ended. -/
def Settles (runId : UUID) (outcome : Except FlowError FlowResult × FlowWorld) : Prop :=
  ∃ result s, outcome.1 = .ok result ∧ outcome.2.repo.states runId = some s ∧
    flowResult s = .ok result ∧ (s.status = .waiting ∨ s.status.terminal = true)

/-- An answer of the invoker that the strategy can settle.  `now` is the time at which the budget
is looked at once the answer is stored. -/
def Answerable (s : FlowRunState) (now : Time) : Transported → Prop
  | .timeout => s.budget.timeoutSeconds.isSome = true
  | .cancelled => False
  | .raised _ _ => True
  | .result result => ∀ settled, s.settleInvocation result = .ok settled →
      Counted settled.invocations ∧
        (result.status.unsuccessful = true → FlowBudgetPolicy.afterTransport settled now = .ok none →
          isBlank (result.error.getD "") = false)

/-- What has to hold of an operation: an answer can be settled, and the Agent whose turn it is when
an invocation gets its identifier can be asked. -/
def Proper (env : FlowEnv) (definition : FlowDefinition) (runId : UUID) (w : FlowWorld) :
    FlowOp → Prop
  | .invoke request remaining => ∀ s, w.repo.states runId = some s →
      Answerable s (env.clock (w.steps + 3)) (env.invoke w.steps request remaining)
  | .resume request remaining => ∀ s, w.repo.states runId = some s →
      Answerable s (env.clock (w.steps + 3)) (env.resume w.steps request remaining)
  | .uuid4 => ∀ s binding, w.repo.states runId = some s →
      definition.agents[s.invocations.length]? = some binding →
        validKey binding.definition.id = true
  | _ => True

/-! ## Programs that go through -/

section Programs

variable {env : FlowEnv} {definition : FlowDefinition} {runId : UUID} {α β : Type}
variable {w w' : FlowWorld} {s : FlowRunState}

/-- The program returns `a`, and its operations are proper. -/
structure Runs (env : FlowEnv) (definition : FlowDefinition) (runId : UUID) (p : FlowProg α)
    (w : FlowWorld) (a : α) (w' : FlowWorld) : Prop where
  eval : p.eval env.exec w = (.ok a, w')
  along : p.Along env.exec (Proper env definition runId) w

/-- The Run is stored and nobody has a lease on it. -/
structure Holds (runId : UUID) (w : FlowWorld) (s : FlowRunState) : Prop where
  stored : w.repo.states runId = some s
  free : w.repo.leases runId = none
  own : s.runId = runId

theorem Runs.bind {p : FlowProg α} {f : α → FlowProg β} {a : α} {b : β} {w'' : FlowWorld}
    (hp : Runs env definition runId p w a w') (hf : Runs env definition runId (f a) w' b w'') :
    Runs env definition runId (p.bind f) w b w'' where
  eval := by
    rw [eval_bind_ok hp.eval]
    exact hf.eval
  along := by
    rw [along_bind]
    refine ⟨hp.along, fun c v hc => ?_⟩
    rw [hp.eval] at hc
    cases hc
    exact hf.along

theorem Runs.ofExcept {x : Except FlowError α} {a : α} (h : x = .ok a) :
    Runs env definition runId (Prog.ofExcept x) w a w := by
  rw [h]
  exact ⟨rfl, trivial⟩

theorem Runs.clock (w : FlowWorld) :
    Runs env definition runId SequentialFlowStrategy.clock w (env.clock w.steps)
      ⟨w.repo, w.steps + 1⟩ :=
  ⟨rfl, trivial, trivial⟩

theorem Holds.read (h : Holds runId w s) (reader : Reader) :
    Runs env definition runId (FlowLifecycle.read reader runId) w s ⟨w.repo, w.steps + 1⟩ := by
  have hexec : env.exec (.get reader runId) w = (.ok s, ⟨w.repo, w.steps + 1⟩) := by
    show ((w.repo.get runId).1, (⟨(w.repo.get runId).2, w.steps + 1⟩ : FlowWorld)) = _
    simp only [InMemoryFlowRepository.get, h.stored]
    rfl
  constructor
  · show (Prog.ofExcept (env.exec (.get reader runId) w).1).eval env.exec _ = _
    rw [hexec]
    rfl
  · refine ⟨trivial, ?_⟩
    rw [hexec]
    trivial

theorem Holds.later (h : Holds runId w s) (n : Nat) : Holds runId ⟨w.repo, n⟩ s :=
  ⟨h.stored, h.free, h.own⟩

structure Succeeds (s s' : FlowRunState) : Prop where
  own : s'.runId = s.runId
  revision : s'.revision = s.revision + 1
  identity : SameIdentity s' s

/-- An operation of the lifecycle reads the Run, replaces it and returns the replacement. -/
theorem Holds.transact (env : FlowEnv) (definition : FlowDefinition) (h : Holds runId w s)
    {lc : FlowLifecycle} (hlc : lc.executionLease = none) (reader : Reader)
    {transition : FlowRunState → Except FlowError Transition} {t : Transition}
    (ht : transition s = .ok t) (hdrafts : t.drafts ≠ []) (hnext : Succeeds s t.state) :
    ∃ w', Runs env definition runId (lc.transact reader runId transition) w t.state w' ∧
      Holds runId w' t.state ∧ w'.steps = w.steps + 2 := by
  have hown : t.state.runId = runId := hnext.own.trans h.own
  have htoken : lc.executionTokenFor t.leaseRun = .ok none := by
    unfold FlowLifecycle.executionTokenFor
    rw [hlc]
  have hreplace : validateFlowReplacement s t.state s.revision = .ok () := by
    unfold validateFlowReplacement
    obtain ⟨h₁, h₂, h₃, h₄, h₅, h₆⟩ := hnext.identity
    simp [hnext.own, hnext.revision, h₁, h₂, h₃, h₄, h₅, h₆]
  have hcommit : w.repo.commit (env.repositoryClock (w.steps + 1)) t.state s.revision t.drafts none =
      (.ok (w.repo.persisted runId t.drafts), w.repo.write t.state (w.repo.persisted runId t.drafts)) := by
    unfold InMemoryFlowRepository.commit InMemoryFlowRepository.validateExecutionToken
    simp [hdrafts, hown, h.stored, h.free, hreplace]
  have hexec : env.exec (.commit t.state s.revision t.drafts none) ⟨w.repo, w.steps + 1⟩ =
      (.ok (w.repo.persisted runId t.drafts),
        ⟨w.repo.write t.state (w.repo.persisted runId t.drafts), w.steps + 2⟩) := by
    show ((w.repo.commit _ _ _ _ _).1, (⟨(w.repo.commit _ _ _ _ _).2, _⟩ : FlowWorld)) = _
    rw [hcommit]
    rfl
  refine ⟨⟨w.repo.write t.state (w.repo.persisted runId t.drafts), w.steps + 2⟩, ?_, ?_, rfl⟩
  · apply (h.read reader).bind
    apply (Runs.ofExcept ht).bind
    apply (Runs.ofExcept htoken).bind
    constructor
    · show (Prog.bind (Prog.ofExcept (env.exec (.commit t.state s.revision t.drafts none) _).1) _).eval
        env.exec _ = _
      rw [hexec]
      rfl
    · refine ⟨trivial, ?_⟩
      rw [hexec]
      trivial
  · refine ⟨?_, h.free, hown⟩
    show Function.update w.repo.states t.state.runId (some t.state) runId = some t.state
    rw [hown, Function.update_self]

theorem Holds.record (env : FlowEnv) (definition : FlowDefinition) (h : Holds runId w s)
    {lc : FlowLifecycle} (hlc : lc.executionLease = none) (invocation : AgentInvocation) (errorType : String) :
    ∃ w', Runs env definition runId
        (lc.recordCancellationPropagationFailure runId invocation errorType) w () w' ∧
      Holds runId w' s := by
  have htoken : lc.executionTokenFor runId = .ok none := by
    unfold FlowLifecycle.executionTokenFor
    rw [hlc]
  let drafts := [propagationFailureDraft invocation errorType s]
  have happend : w.repo.appendEvents (env.repositoryClock (w.steps + 1)) runId s.revision drafts none =
      (.ok (w.repo.persisted runId drafts), w.repo.extend runId (w.repo.persisted runId drafts)) := by
    unfold InMemoryFlowRepository.appendEvents InMemoryFlowRepository.validateExecutionToken
    simp [drafts, h.stored, h.free]
  have hexec : env.exec (.appendEvents runId s.revision drafts none) ⟨w.repo, w.steps + 1⟩ =
      (.ok (w.repo.persisted runId drafts),
        ⟨w.repo.extend runId (w.repo.persisted runId drafts), w.steps + 2⟩) := by
    show ((w.repo.appendEvents _ _ _ _ _).1, (⟨(w.repo.appendEvents _ _ _ _ _).2, _⟩ : FlowWorld)) = _
    rw [happend]
    rfl
  refine ⟨⟨w.repo.extend runId (w.repo.persisted runId drafts), w.steps + 2⟩, ?_, ?_⟩
  · apply (h.read _).bind
    apply (Runs.ofExcept htoken).bind
    constructor
    · show (Prog.bind (Prog.ofExcept (env.exec (.appendEvents runId s.revision drafts none) _).1)
        _).eval env.exec _ = _
      rw [hexec]
      rfl
    · refine ⟨trivial, ?_⟩
      rw [hexec]
      trivial
  · exact ⟨h.stored, h.free, h.own⟩

theorem Holds.propagate (definition : FlowDefinition) (h : Holds runId w s) (hq : Undisturbed env) {st : SequentialFlowStrategy}
    (hst : st.lifecycle.executionLease = none) {invocation : AgentInvocation}
    (hown : invocation.flowRunId = runId) (reason : String) :
    ∃ w', Runs env definition runId (st.propagateCancellation invocation reason) w () w' ∧
      Holds runId w' s := by
  subst hown
  unfold SequentialFlowStrategy.propagateCancellation
  simp only
  split
  · let request : AgentInvocationCancel :=
      { flowRunId := invocation.flowRunId
        invocationId := invocation.id
        agentKey := invocation.agentKey
        reason := reason }
    have hlater : Holds invocation.flowRunId ⟨w.repo, w.steps + 1⟩ s := h.later _
    have hexec : env.exec (.cancel request) w = (env.cancel w.steps request, ⟨w.repo, w.steps + 1⟩) :=
      rfl
    cases hanswer : env.cancel w.steps request with
    | none =>
      refine ⟨⟨w.repo, w.steps + 1⟩, ⟨?_, trivial, ?_⟩, hlater⟩
      · unfold Prog.eval
        rw [hexec, hanswer]
        rfl
      · rw [hexec, hanswer]
        trivial
    | some e =>
      have hne : e ≠ .cancelled := by
        intro he
        exact hq.cancel w.steps request (by rw [hanswer, he])
      obtain ⟨w', hruns, hholds⟩ := hlater.record env definition hst invocation e.typeName
      refine ⟨w', ⟨?_, trivial, ?_⟩, hholds⟩
      · unfold Prog.eval
        rw [hexec, hanswer]
        cases e <;> first | exact absurd rfl hne | exact hruns.eval
      · rw [hexec, hanswer]
        cases e <;> first | exact absurd rfl hne | exact hruns.along
  · exact h.record env definition hst invocation _

end Programs

/-! ## The Run in the course of a call -/

structure Filed (env : FlowEnv) (runId : UUID) (w : FlowWorld) (s : FlowRunState) : Prop where
  holds : Holds runId w s
  valid : s.Valid
  issued : ∀ inv ∈ s.invocations, ∃ n < w.steps, inv.id = env.uuid4 n

structure Between (env : FlowEnv) (runId : UUID) (w : FlowWorld) (s : FlowRunState) : Prop
    extends Filed env runId w s where
  running : s.status = .running
  idle : s.activeInvocationId = none
  completed : ∀ inv ∈ s.invocations, inv.status = .completed
  counted : Counted s.invocations

structure Inside (env : FlowEnv) (runId : UUID) (w : FlowWorld) (s : FlowRunState)
    (init : List AgentInvocation) (active : AgentInvocation) : Prop
    extends Filed env runId w s where
  last : s.invocations = init ++ [active]
  named : s.activeInvocationId = some active.id
  completed : ∀ inv ∈ init, inv.status = .completed
  counted : Counted init

def Parked (env : FlowEnv) (runId : UUID) (w : FlowWorld) : Prop :=
  ∀ s, w.repo.states runId = some s → s.status = .waiting →
    ∃ init active, Inside env runId w s init active

section Course

variable {env : FlowEnv} {definition : FlowDefinition} {runId : UUID}
variable {w w' : FlowWorld} {s s' : FlowRunState}
variable {init : List AgentInvocation} {active : AgentInvocation}

theorem parked_of_ne (h : Holds runId w s) (hstatus : s.status ≠ .waiting) : Parked env runId w := by
  intro other hother hwaiting
  rw [h.stored] at hother
  cases hother
  exact absurd hwaiting hstatus

theorem Inside.parked (h : Inside env runId w s init active) : Parked env runId w := by
  intro other hother _
  rw [h.holds.stored] at hother
  cases hother
  exact ⟨init, active, h⟩

theorem Inside.found (h : Inside env runId w s init active) : s.activeInvocation = some active := by
  have hunique := h.valid.unique
  rw [h.last, List.map_append, List.nodup_append] at hunique
  have hinit : init.find? (fun inv => inv.id == active.id) = none := by
    apply List.find?_eq_none.mpr
    intro inv hinv heq
    exact hunique.2.2 inv.id (List.mem_map_of_mem hinv) active.id (by simp) (by simpa using heq)
  unfold FlowRunState.activeInvocation
  rw [h.named]
  simp [h.last, List.find?_append, hinit]

theorem Inside.others (h : Inside env runId w s init active) : ∀ inv ∈ init, inv.id ≠ active.id := by
  have hunique := h.valid.unique
  rw [h.last, List.map_append, List.nodup_append] at hunique
  intro inv hinv
  exact hunique.2.2 inv.id (List.mem_map_of_mem hinv) active.id (by simp)

theorem Inside.replaced (h : Inside env runId w s init active) (inv : AgentInvocation)
    (hid : inv.id = active.id) : s.replaceInvocation inv = init ++ [inv] :=
  FlowRunState.replaceInvocation_last h.last h.others hid

theorem Inside.live (h : Inside env runId w s init active)
    (hstatus : s.status = .running ∨ s.status = .waiting) : active.status = s.status := by
  cases hstatus with
  | inl hrunning =>
    rw [hrunning]
    exact h.valid.agrees.running hrunning active h.found
  | inr hwaiting =>
    obtain ⟨other, hother, hstatus⟩ := h.valid.agrees.waiting hwaiting
    rw [h.found] at hother
    cases hother
    rw [hwaiting]
    exact hstatus

theorem Filed.issued_later (h : Filed env runId w s) {n : Nat} (hn : w.steps ≤ n) :
    ∀ inv ∈ s.invocations, ∃ m < n, inv.id = env.uuid4 m := by
  intro inv hinv
  obtain ⟨m, hm, hid⟩ := h.issued inv hinv
  exact ⟨m, by omega, hid⟩

theorem Between.later (h : Between env runId w s) {n : Nat} (hn : w.steps ≤ n) :
    Between env runId ⟨w.repo, n⟩ s where
  holds := h.holds.later n
  valid := h.valid
  issued := h.issued_later hn
  running := h.running
  idle := h.idle
  completed := h.completed
  counted := h.counted

theorem Inside.later (h : Inside env runId w s init active) {n : Nat} (hn : w.steps ≤ n) :
    Inside env runId ⟨w.repo, n⟩ s init active where
  holds := h.holds.later n
  valid := h.valid
  issued := h.issued_later hn
  last := h.last
  named := h.named
  completed := h.completed
  counted := h.counted

/-! ### The result of a state -/

theorem flowResult_waiting (h : s.Valid) (hwaiting : s.status = .waiting)
    (hcounted : Counted s.invocations) : ∃ result, flowResult s = .ok result := by
  obtain ⟨active, hactive, hstatus⟩ := h.agrees.waiting hwaiting
  have hmem := (FlowRunState.activeInvocation_id hactive).2
  obtain ⟨r, hr, hrun⟩ := (h.settled active hmem).settled (by simp [hstatus]) (by simp [hstatus])
  have hrwaiting : r.status = .waiting :=
    AgentResultStatus.toRunStatus_waiting.mp (hrun.trans hstatus)
  have hpending : r.pendingInput.isSome = true := r.valid.pending.mpr hrwaiting
  have hmodel : ¬ s.modelCallCount < 0 := not_lt.mpr hcounted.1
  have htool : ¬ s.toolCallCount < 0 := not_lt.mpr hcounted.2
  obtain ⟨pending, hsome⟩ := Option.isSome_iff_exists.mp hpending
  unfold flowResult
  simp [hwaiting, hactive, hr, orRaise, Bind.bind, Except.bind, Pure.pure, Except.pure, FlowResult.validate,
    hmodel, htool, hsome, RunStatus.errorStatus]

theorem flowResult_ended (h : s.Valid) (hterminal : s.status.terminal = true)
    (hcounted : Counted s.invocations) : ∃ result, flowResult s = .ok result := by
  have hwaiting : s.status ≠ .waiting := by
    intro heq
    rw [heq] at hterminal
    cases hterminal
  have hmodel : ¬ s.modelCallCount < 0 := not_lt.mpr hcounted.1
  have htool : ¬ s.toolCallCount < 0 := not_lt.mpr hcounted.2
  have hexplained : ¬ (s.status.errorStatus = true ∧ s.error.getD "" = "") := by
    intro hbad
    obtain ⟨e, he, hne⟩ := h.agrees.explained hbad.1
    rw [he] at hbad
    exact hne hbad.2
  have hclean : ¬ (s.status = .completed ∧ s.error.isSome = true) := by
    intro hbad
    rw [(h.agrees.completed hbad.1).2] at hbad
    exact nomatch hbad.2
  unfold flowResult
  simp [hwaiting, FlowResult.validate, hmodel, htool, hexplained, hclean]

/-! ### What a step of the lifecycle makes of the Run -/

theorem Succeeds.matches (h : Succeeds s s') :
    s'.matchesDefinition definition = s.matchesDefinition definition := by
  obtain ⟨hid, hversion, hfingerprint, -⟩ := h.identity
  unfold FlowRunState.matchesDefinition
  rw [hid, hversion, hfingerprint]

theorem agent_bound {binding : FlowAgent} (h : binding ∈ definition.agents) :
    definition.agent binding.key = .ok binding.definition := by
  have hkeys := definition.valid.2.1
  unfold FlowDefinition.agent
  cases hfind : definition.agents.find? fun a => a.key == binding.key with
  | none =>
    have hnone := List.find?_eq_none.mp hfind binding h
    simp at hnone
  | some other =>
    have hkey : other.key = binding.key := by simpa using List.find?_some hfind
    have hsame := List.inj_on_of_nodup_map hkeys (List.mem_of_find?_eq_some hfind) h hkey
    rw [hsame]

theorem Between.begins (h : Between env runId w s) (hmatch : s.matchesDefinition definition = true)
    {binding : FlowAgent} (hbinding : definition.agents[s.invocations.length]? = some binding)
    (hbound : s.invocations.length < s.budget.maxInvocations) (request : AgentInvocationRequest)
    (hflow : request.flowRunId = s.runId) (hsequence : request.sequence = s.invocations.length + 1)
    (hkey : request.agentKey = binding.key) (hid : request.definitionId = binding.definition.id)
    (hversion : request.definitionVersion = binding.definition.version)
    (hfingerprint : request.definitionFingerprint = binding.definition.fingerprint)
    (hfresh : request.invocationId ∉ s.invocations.map (·.id)) :
    ∃ t, beginTransition request definition s = .ok t ∧ t.drafts ≠ [] ∧ Succeeds s t.state ∧
      t.state.Valid ∧ t.state.status = .running ∧
      t.state.invocations = s.invocations ++ [s.begunInvocation request] ∧
      t.state.activeInvocationId = some request.invocationId := by
  have hagent : definition.agent request.agentKey = .ok binding.definition := by
    rw [hkey]
    exact agent_bound (List.mem_of_getElem? hbinding)
  have hbegin : s.beginInvocation request definition = .ok { s.evolve with
      invocations := s.invocations ++ [s.begunInvocation request]
      activeInvocationId := some request.invocationId } := by
    simp only [FlowRunState.beginInvocation, Except.bind_ok, raiseIf_ok]
    refine ⟨(), by simp [h.running], (), by simp [h.idle], (), by simp [hmatch], (), by simp [hflow],
      (), by simp [hsequence], (), by omega, binding.definition, hagent, (), ?_, rfl⟩
    simp [hid, hversion, hfingerprint]
  have hactive : FlowRunState.activeInvocation { s.evolve with
      invocations := s.invocations ++ [s.begunInvocation request]
      activeInvocationId := some request.invocationId } = some (s.begunInvocation request) :=
    FlowRunState.begun_active hfresh rfl rfl
  unfold beginTransition
  simp only [hbegin, Except.bind_ok]
  refine ⟨_, ⟨_, rfl, _, orRaise_ok.mpr hactive, rfl⟩, by simp, ⟨rfl, rfl, ?_⟩, ?_, h.running, rfl,
    rfl⟩
  · exact ⟨rfl, rfl, rfl, rfl, rfl, rfl⟩
  · exact FlowRunState.beginInvocation_valid h.valid hbegin hfresh

/-- A result that fits is stored as the record of the active invocation. -/
theorem Inside.settles (h : Inside env runId w s init active) (hrunning : s.status = .running)
    {result : AgentInvocationResult} {settled : AgentInvocation}
    (hsettle : active.settle result = .ok settled) :
    ∃ t, settleTransition runId result s = .ok t ∧ t.drafts ≠ [] ∧ Succeeds s t.state ∧
      t.state.Valid ∧ s.settleInvocation result = .ok t.state ∧
      t.state.invocations = init ++ [settled] ∧
      t.state.status = (if settled.status = .waiting then .waiting else .running) ∧
      t.state.activeInvocationId = (if settled.status = .waiting then some settled.id else none) := by
  obtain ⟨-, -, -, -, hsettled⟩ := AgentInvocation.settle_ok hsettle
  have hlist := h.replaced settled (by rw [hsettled])
  have hok : s.settleInvocation result = .ok { s.evolve with
      status := if settled.status = .waiting then .waiting else .running
      invocations := s.replaceInvocation settled
      activeInvocationId := if settled.status = .waiting then some settled.id else none } := by
    simp only [FlowRunState.settleInvocation, Except.bind_ok, raiseIf_ok,
      FlowRunState.requireActive_ok]
    exact ⟨(), by simp [hrunning], active, h.found, settled, hsettle, rfl⟩
  have hlast : (s.replaceInvocation settled).getLast? = some settled := by
    rw [hlist]
    simp
  unfold settleTransition
  simp only [hok, Except.bind_ok]
  refine ⟨_, ⟨_, rfl, settled, orRaise_ok.mpr hlast, rfl⟩, ?_, ⟨rfl, rfl, ?_⟩, ?_, rfl, hlist, rfl,
    rfl⟩
  · show (if _ then _ else _) ≠ []
    split <;> simp
  · exact ⟨rfl, rfl, rfl, rfl, rfl, rfl⟩
  · exact FlowRunState.settleInvocation_valid h.valid hok

theorem Inside.resumes (h : Inside env runId w s init active) (hwaiting : s.status = .waiting) :
    ∃ t, resumeTransition runId active.id s = .ok t ∧ t.drafts ≠ [] ∧ Succeeds s t.state ∧
      t.state.Valid ∧ t.state.status = .running ∧
      t.state.invocations = init ++ [{ active with status := .running }] ∧
      t.state.activeInvocationId = some active.id := by
  have hstatus : active.status = .waiting := (h.live (.inr hwaiting)).trans hwaiting
  have hresume : active.resume = .ok { active with status := .running } := by
    unfold AgentInvocation.resume
    simp [hstatus]
  have hlist := h.replaced { active with status := .running } rfl
  have hok : s.resumeInvocation active.id = .ok { s.evolve with
      status := .running
      invocations := s.replaceInvocation { active with status := .running } } := by
    simp only [FlowRunState.resumeInvocation, Except.bind_ok, raiseIf_ok,
      FlowRunState.requireActive_ok]
    exact ⟨(), by simp [hwaiting], active, h.found, (), by simp, _, hresume, rfl⟩
  have hactive : FlowRunState.activeInvocation { s.evolve with
      status := .running
      invocations := s.replaceInvocation { active with status := .running } } =
        some { active with status := .running } :=
    FlowRunState.replaced_active h.found rfl rfl h.named
  unfold resumeTransition
  simp only [hok, Except.bind_ok]
  refine ⟨_, ⟨_, rfl, _, orRaise_ok.mpr hactive, rfl⟩, by simp, ⟨rfl, rfl, ?_⟩, ?_, rfl, hlist,
    h.named⟩
  · exact ⟨rfl, rfl, rfl, rfl, rfl, rfl⟩
  · exact FlowRunState.resumeInvocation_valid h.valid hok

theorem Between.completes (h : Between env runId w s) (hsome : s.invocations ≠ []) (output : String) :
    ∃ t, completeTransition output s = .ok t ∧ t.drafts ≠ [] ∧ Succeeds s t.state ∧
      t.state.Valid ∧ t.state.status = .completed ∧ t.state.invocations = s.invocations := by
  have hok : s.complete output =
      .ok { s.evolve with status := .completed, output := some output, error := none } := by
    unfold FlowRunState.complete
    simp [h.running, h.idle, hsome]
    exact h.completed
  unfold completeTransition
  simp only [hok, Except.bind_ok]
  refine ⟨_, ⟨_, rfl, rfl⟩, by simp, ⟨rfl, rfl, ?_⟩, ?_, rfl, rfl⟩
  · exact ⟨rfl, rfl, rfl, rfl, rfl, rfl⟩
  · exact FlowRunState.complete_valid h.valid hok

theorem terminates (runId : UUID) (hvalid : s.Valid) (hlive : s.status.terminal = false) (ending : Termination)
    {error : String} (herror : isBlank error = false) (metadata : List (String × JsonValue))
    (hactive : ∀ active, s.activeInvocation = some active → active.status.terminal = false) :
    ∃ t, terminateTransition runId ending error metadata s = .ok t ∧ t.drafts ≠ [] ∧
      Succeeds s t.state ∧ t.state.Valid ∧ t.state.status = ending.status ∧
      s.terminateActive ending.status error = .ok t.state.invocations := by
  have hstatus : ending.status.errorStatus = true := by cases ending <;> rfl
  obtain ⟨s', hok⟩ := FlowRunState.terminate_isOk hlive hstatus herror hactive
  obtain ⟨-, -, invocations, hinvocations, hs'⟩ := FlowRunState.terminate_ok hok
  have hdrafts : ∃ drafts, terminatedDrafts ending s s' = .ok drafts := by
    unfold terminatedDrafts
    cases hsome : s.activeInvocation with
    | none => exact ⟨[], rfl⟩
    | some active =>
      have hmem : active.id ∈ s'.invocations.map (·.id) := by
        unfold FlowRunState.terminateActive at hinvocations
        simp only [hsome, Except.bind_ok] at hinvocations
        obtain ⟨terminated, hterminate, hlist⟩ := hinvocations
        obtain ⟨-, hid, -⟩ := AgentInvocation.terminate_ok hterminate
        have heq : s'.invocations = s.replaceInvocation terminated := by
          rw [hs']
          exact (Except.ok.inj hlist).symm
        rw [heq, FlowRunState.map_replaceInvocation _ hvalid.unique hsome hid hid]
        exact List.mem_map_of_mem (FlowRunState.activeInvocation_id hsome).2
      obtain ⟨inv, hinv, hid⟩ := List.mem_map.mp hmem
      cases hfind : s'.invocations.find? fun inv => inv.id == active.id with
      | none =>
        have hnone := List.find?_eq_none.mp hfind inv hinv
        exact absurd hid (by simpa using hnone)
      | some found =>
        simp only [hfind, orRaise]
        exact ⟨_, rfl⟩
  obtain ⟨drafts, hdrafts⟩ := hdrafts
  unfold terminateTransition
  simp only [hok, Except.bind_ok]
  refine ⟨_, ⟨s', rfl, drafts, hdrafts, rfl⟩, by simp, ?_, ?_, ?_, ?_⟩
  · rw [hs']
    exact ⟨rfl, rfl, rfl, rfl, rfl, rfl, rfl, rfl⟩
  · exact FlowRunState.terminate_valid hvalid hstatus hok
  · show s'.status = ending.status
    rw [hs']
  · show s.terminateActive ending.status error = .ok s'.invocations
    rw [hs']
    exact hinvocations

end Course

/-! ## Calls that settle -/

/-- The program settles the Run exactly when its operations are proper, and a Run that it leaves
waiting can be resumed. -/
structure Finishes (env : FlowEnv) (definition : FlowDefinition) (runId : UUID)
    (p : FlowProg FlowResult) (w : FlowWorld) : Prop where
  settles : Settles runId (p.eval env.exec w) ↔ p.Along env.exec (Proper env definition runId) w
  parked : Parked env runId (p.eval env.exec w).2

structure Over (runId : UUID) (w : FlowWorld) (s : FlowRunState) : Prop where
  holds : Holds runId w s
  valid : s.Valid
  terminal : s.status.terminal = true
  counted : Counted s.invocations

section Settling

variable {env : FlowEnv} {definition : FlowDefinition} {runId : UUID} {α : Type}
variable {w w' : FlowWorld} {s s' : FlowRunState} {st : SequentialFlowStrategy}
variable {init : List AgentInvocation} {active : AgentInvocation}

theorem Runs.finishes {p : FlowProg α} {f : α → FlowProg FlowResult} {a : α}
    (hp : Runs env definition runId p w a w') (hf : Finishes env definition runId (f a) w') :
    Finishes env definition runId (p.bind f) w where
  settles := by
    rw [eval_bind_ok hp.eval, hf.settles, along_bind]
    constructor
    · intro hrest
      refine ⟨hp.along, fun b v hb => ?_⟩
      rw [hp.eval] at hb
      cases hb
      exact hrest
    · exact fun hall => hall.2 a w' hp.eval
  parked := by
    rw [eval_bind_ok hp.eval]
    exact hf.parked

theorem Over.parked (h : Over runId w s) : Parked env runId w := by
  apply parked_of_ne h.holds
  intro hwaiting
  have hterminal := h.terminal
  rw [hwaiting] at hterminal
  cases hterminal

theorem Over.returns (h : Over runId w s) {result : FlowResult} (hresult : flowResult s = .ok result) :
    Finishes env definition runId (.ret result) w := by
  refine ⟨⟨fun _ => trivial, fun _ => ?_⟩, h.parked⟩
  exact ⟨result, s, rfl, h.holds.stored, hresult, .inr h.terminal⟩

theorem Over.finishes (h : Over runId w s) :
    Finishes env definition runId (Prog.ofExcept (flowResult s)) w := by
  obtain ⟨result, hresult⟩ := flowResult_ended h.valid h.terminal h.counted
  rw [hresult]
  exact h.returns hresult

theorem isBlank_append (a b : String) : isBlank (a ++ b) = (isBlank a && isBlank b) := by
  simp [isBlank]

structure Terminable (env : FlowEnv) (runId : UUID) (w : FlowWorld) (s : FlowRunState) : Prop
    extends Filed env runId w s where
  live : s.status.terminal = false
  open_ : ∀ active, s.activeInvocation = some active → active.status.terminal = false
  counted : ∀ status error invocations, s.terminateActive status error = .ok invocations →
    Counted invocations

theorem Filed.terminable (h : Filed env runId w s) (hlive : s.status.terminal = false)
    (hidle : s.activeInvocationId = none) (hcounted : Counted s.invocations) :
    Terminable env runId w s where
  toFiled := h
  live := hlive
  open_ := by
    intro active hactive
    rw [FlowRunState.activeInvocation_none hidle] at hactive
    cases hactive
  counted := by
    intro status error invocations hok
    unfold FlowRunState.terminateActive at hok
    rw [FlowRunState.activeInvocation_none hidle] at hok
    cases hok
    exact hcounted

theorem counted_snoc (h : Counted init) (hmodel : active.resultCount "model_calls" = 0)
    (htool : active.resultCount "tool_calls" = 0) : Counted (init ++ [active]) := by
  unfold Counted
  simp only [List.map_append, List.map_cons, List.map_nil, List.sum_append, List.sum_singleton,
    hmodel, htool, add_zero]
  exact h

theorem Inside.terminable (h : Inside env runId w s init active)
    (hstatus : s.status = .running ∨ s.status = .waiting) : Terminable env runId w s where
  toFiled := h.toFiled
  live := by
    cases hstatus with
    | inl hrunning => rw [hrunning]; rfl
    | inr hwaiting => rw [hwaiting]; rfl
  open_ := by
    intro other hother
    rw [h.found] at hother
    cases hother
    rw [h.live hstatus]
    cases hstatus with
    | inl hrunning => rw [hrunning]; rfl
    | inr hwaiting => rw [hwaiting]; rfl
  counted := by
    intro status error invocations hok
    have hordered : s.Ordered := by
      apply FlowRunState.ordered_last _ _ h.last h.named
      intro inv hinv
      rw [h.completed inv hinv]
      rfl
    obtain ⟨front, terminated, hterminate, hfront, hinvocations, -⟩ :=
      hordered.terminateActive_last h.found hok
    have hsame : front = init := by
      rw [h.last] at hfront
      exact (List.append_inj_left' hfront rfl).symm
    obtain ⟨-, hcounts⟩ := FlowRunState.terminated_counts hterminate
    rw [hinvocations, hsame]
    exact counted_snoc h.counted (hcounts _) (hcounts _)

theorem Terminable.later (h : Terminable env runId w s) {n : Nat} (hn : w.steps ≤ n) :
    Terminable env runId ⟨w.repo, n⟩ s where
  holds := h.holds.later n
  valid := h.valid
  issued := h.issued_later hn
  live := h.live
  open_ := h.open_
  counted := h.counted

theorem Terminable.terminate (definition : FlowDefinition) (h : Terminable env runId w s)
    (hst : st.lifecycle.executionLease = none) (ending : Termination) {error : String}
    (herror : isBlank error = false) (metadata : List (String × JsonValue)) :
    ∃ w' s', Runs env definition runId (st.lifecycle.terminate runId ending error metadata) w s' w' ∧
      Over runId w' s' := by
  obtain ⟨t, ht, hdrafts, hnext, hvalid, hstatus, hactive⟩ :=
    terminates runId h.valid h.live ending herror metadata h.open_
  obtain ⟨w', hruns, hholds, -⟩ := h.holds.transact env definition hst .terminate ht hdrafts hnext
  refine ⟨w', t.state, hruns, hholds, hvalid, ?_, h.counted _ _ _ hactive⟩
  rw [hstatus]
  cases ending <;> rfl

theorem Terminable.ends (h : Terminable env runId w s) (hst : st.lifecycle.executionLease = none)
    (ending : Termination) {error : String} (herror : isBlank error = false)
    (metadata : List (String × JsonValue)) :
    Finishes env definition runId
      (SequentialFlowStrategy.resultOf (st.lifecycle.terminate runId ending error metadata)) w := by
  obtain ⟨w', s', hruns, hover⟩ := h.terminate definition hst ending herror metadata
  exact hruns.finishes hover.finishes

theorem Terminable.reachBudgetLimit (h : Terminable env runId w s) (hq : Undisturbed env)
    (hst : st.lifecycle.executionLease = none) (violation : FlowBudgetExceeded) :
    Finishes env definition runId (st.reachBudgetLimit runId violation) w := by
  have hmessage : isBlank violation.message = false := by
    unfold FlowBudgetExceeded.message
    simp only [isBlank_append]
    rfl
  apply (h.holds.read _).finishes
  rw [if_neg (by simp [h.live])]
  have hlater := h.later (n := w.steps + 1) (by omega)
  obtain ⟨w', s', hruns, hover⟩ := hlater.terminate definition hst .reachLimit hmessage
    [("budget", violation.dump)]
  apply hruns.finishes
  unfold SequentialFlowStrategy.propagateIf
  cases hactive : s.activeInvocation with
  | none => exact hover.finishes
  | some active =>
    simp only
    split
    · have hown : active.flowRunId = runId := by
        rw [← h.holds.own]
        exact h.valid.owned active (FlowRunState.activeInvocation_id hactive).2
      obtain ⟨w'', hpropagated, hholds⟩ := hover.holds.propagate definition hq hst hown
        violation.message
      apply hpropagated.finishes
      exact Over.finishes ⟨hholds, hover.valid, hover.terminal, hover.counted⟩
    · exact hover.finishes

theorem Terminable.transportFailure (h : Terminable env runId w s)
    (hst : st.lifecycle.executionLease = none) (agentKey operation errorType error : String) :
    Finishes env definition runId (st.transportFailure runId agentKey operation errorType error) w := by
  have hmessage : isBlank (s!"Agent '{agentKey}' {operation} raised " ++ s!"{errorType}: {error}") =
      false := by
    simp only [isBlank_append]
    rfl
  have hrace : Runs env definition runId (SequentialFlowStrategy.terminalAfterRace runId) w none
      ⟨w.repo, w.steps + 1⟩ := by
    apply (h.holds.read _).bind
    rw [if_neg (by simp [h.live])]
    exact ⟨rfl, trivial⟩
  apply hrace.finishes
  exact (h.later (n := w.steps + 1) (by omega)).ends hst .fail hmessage []

/-! ### The budget -/

theorem consumption_ok (hcounted : Counted s.invocations) (now : Time) :
    ∃ c, FlowBudgetPolicy.consumption s now = .ok c ∧ c.invocations = s.invocations.length := by
  have hmodel : ¬ s.modelCallCount < 0 := not_lt.mpr hcounted.1
  have htool : ¬ s.toolCallCount < 0 := not_lt.mpr hcounted.2
  unfold FlowBudgetPolicy.consumption
  simp only [raiseIf, hmodel, htool, if_false]
  exact ⟨_, rfl, rfl⟩

theorem consumption_counted {c : FlowConsumption} {now : Time}
    (h : FlowBudgetPolicy.consumption s now = .ok c) : Counted s.invocations := by
  simp only [FlowBudgetPolicy.consumption, Except.bind_ok, raiseIf_ok] at h
  obtain ⟨-, hmodel, -, htool, -⟩ := h
  exact ⟨not_lt.mp hmodel, not_lt.mp htool⟩

theorem timeoutViolation_ok (hvalid : s.Valid) {now : Time}
    (hpast : FlowBudgetPolicy.pastDeadline s now = true) (c : FlowConsumption) :
    ∃ v, FlowBudgetPolicy.timeoutViolation s c = .ok v := by
  have hdeadline : s.deadlineAt.isNone = false := by
    unfold FlowBudgetPolicy.pastDeadline at hpast
    cases hd : s.deadlineAt with
    | none => simp [hd] at hpast
    | some deadline => rfl
  have htimeout := hvalid.deadline.trans hdeadline
  unfold FlowBudgetPolicy.timeoutViolation
  cases ht : s.budget.timeoutSeconds with
  | none => simp [ht] at htimeout
  | some limit => exact ⟨_, rfl⟩

theorem afterTransport_ok (hvalid : s.Valid) (hcounted : Counted s.invocations) (now : Time) :
    ∃ v, FlowBudgetPolicy.afterTransport s now = .ok v := by
  obtain ⟨c, hc, -⟩ := consumption_ok hcounted now
  unfold FlowBudgetPolicy.afterTransport
  rw [hc]
  by_cases hpast : FlowBudgetPolicy.pastDeadline s now = true
  · obtain ⟨v, hv⟩ := timeoutViolation_ok hvalid hpast c
    refine ⟨v, ?_⟩
    show (if FlowBudgetPolicy.pastDeadline s now = true then _ else _) = _
    rw [if_pos hpast]
    exact hv
  · refine ⟨FlowBudgetPolicy.cumulativeViolation s c false, ?_⟩
    show (if FlowBudgetPolicy.pastDeadline s now = true then _ else _) = _
    rw [if_neg hpast]
    rfl

theorem afterTransport_error (hcounted : ¬ Counted s.invocations) (now : Time) :
    ∃ e, FlowBudgetPolicy.afterTransport s now = .error e := by
  cases hpolicy : FlowBudgetPolicy.afterTransport s now with
  | error e => exact ⟨e, rfl⟩
  | ok v =>
    simp only [FlowBudgetPolicy.afterTransport, Except.bind_ok] at hpolicy
    obtain ⟨c, hc, -⟩ := hpolicy
    exact absurd (consumption_counted hc) hcounted

/-- Before a new invocation either a limit is reached or there is room for one more. -/
theorem beforeTransport_ok (hvalid : s.Valid) (hcounted : Counted s.invocations) (now : Time)
    (new : Bool) : ∃ v, FlowBudgetPolicy.beforeTransport s now new = .ok v ∧
      (v = none → new = true → s.invocations.length < s.budget.maxInvocations) := by
  obtain ⟨c, hc, hlength⟩ := consumption_ok hcounted now
  unfold FlowBudgetPolicy.beforeTransport
  rw [hc]
  by_cases hpast : FlowBudgetPolicy.pastDeadline s now = true
  · obtain ⟨v, hv⟩ := timeoutViolation_ok hvalid hpast c
    refine ⟨v, ?_, ?_⟩
    · show (if FlowBudgetPolicy.pastDeadline s now = true then _ else _) = _
      rw [if_pos hpast]
      exact hv
    · intro hnone
      simp only [FlowBudgetPolicy.timeoutViolation, Except.bind_ok] at hv
      obtain ⟨limit, -, hsome⟩ := hv
      rw [hnone] at hsome
      cases hsome
  · by_cases hfull : new = true ∧ s.budget.maxInvocations ≤ c.invocations
    · refine ⟨some ⟨.invocations, s.budget.maxInvocations, c.invocations⟩, ?_, fun hnone => nomatch hnone⟩
      show (if FlowBudgetPolicy.pastDeadline s now = true then _ else if _ then _ else _) = _
      rw [if_neg hpast, if_pos hfull]
      rfl
    · refine ⟨FlowBudgetPolicy.cumulativeViolation s c true, ?_, fun _ hnew => ?_⟩
      · show (if FlowBudgetPolicy.pastDeadline s now = true then _ else if _ then _ else _) = _
        rw [if_neg hpast, if_neg hfull]
        rfl
      · rw [← hlength]
        by_contra hnot
        exact hfull ⟨hnew, not_lt.mp hnot⟩

theorem beforeTransport_error (hcounted : ¬ Counted s.invocations) (now : Time) (new : Bool) :
    ∃ e, FlowBudgetPolicy.beforeTransport s now new = .error e := by
  cases hpolicy : FlowBudgetPolicy.beforeTransport s now new with
  | error e => exact ⟨e, rfl⟩
  | ok v =>
    simp only [FlowBudgetPolicy.beforeTransport, Except.bind_ok] at hpolicy
    obtain ⟨c, hc, -⟩ := hpolicy
    exact absurd (consumption_counted hc) hcounted

theorem Terminable.timeoutLimit (h : Terminable env runId w s) (hq : Undisturbed env)
    (hst : st.lifecycle.executionLease = none) {state : FlowRunState} (hown : state.runId = runId)
    (hcounted : Counted state.invocations) (htimeout : state.budget.timeoutSeconds.isSome = true) :
    Finishes env definition runId (st.timeoutLimit state) w := by
  obtain ⟨limit, hlimit⟩ := Option.isSome_iff_exists.mp htimeout
  obtain ⟨c, hc, -⟩ := consumption_ok hcounted (env.clock w.steps)
  apply (Runs.clock w).finishes
  apply (Runs.ofExcept hc).finishes
  apply (Runs.ofExcept (orRaise_ok.mpr hlimit)).finishes
  rw [hown]
  exact (h.later (n := w.steps + 1) (by omega)).reachBudgetLimit hq hst _

/-! ### The answer of an Agent -/

theorem Runs.attempt {p : FlowProg α} {a : α} (h : Runs env definition runId p w a w') :
    Runs env definition runId (p.attempt : FlowProg (Except FlowError α)) w (.ok a) w' where
  eval := by rw [eval_attempt, h.eval]
  along := along_attempt.mpr h.along

theorem Inside.store (definition : FlowDefinition) (h : Inside env runId w s init active)
    (hst : st.lifecycle.executionLease = none) (hrunning : s.status = .running)
    {result : AgentInvocationResult} {settled : AgentInvocation}
    (hsettle : active.settle result = .ok settled) :
    ∃ w' s', Runs env definition runId (st.lifecycle.settleInvocation runId result) w s' w' ∧
      w'.steps = w.steps + 2 ∧ Filed env runId w' s' ∧ Succeeds s s' ∧
      s.settleInvocation result = .ok s' ∧ s'.invocations = init ++ [settled] ∧
      s'.status = (if settled.status = .waiting then .waiting else .running) ∧
      s'.activeInvocationId = (if settled.status = .waiting then some settled.id else none) := by
  obtain ⟨t, ht, hdrafts, hnext, hvalid, hok, hlist, hstatus, hactive⟩ :=
    h.settles hrunning hsettle
  obtain ⟨w', hruns, hholds, hsteps⟩ := h.holds.transact env definition hst .settleInvocation ht
    hdrafts hnext
  refine ⟨w', t.state, hruns, hsteps, ⟨hholds, hvalid, ?_⟩, hnext, hok, hlist, hstatus, hactive⟩
  intro inv hinv
  rw [hlist] at hinv
  have hold : ∃ old ∈ s.invocations, old.id = inv.id := by
    rw [h.last]
    cases List.mem_append.mp hinv with
    | inl hinit => exact ⟨inv, List.mem_append_left _ hinit, rfl⟩
    | inr hlast =>
      obtain ⟨-, -, -, -, hsettled⟩ := AgentInvocation.settle_ok hsettle
      refine ⟨active, by simp, ?_⟩
      rw [List.mem_singleton.mp hlast, hsettled]
  obtain ⟨old, hmem, hid⟩ := hold
  obtain ⟨n, hn, hissued⟩ := h.issued old hmem
  exact ⟨n, by omega, hid.symm.trans hissued⟩

theorem Inside.misfit (definition : FlowDefinition) (h : Inside env runId w s init active)
    (lc : FlowLifecycle) (hrunning : s.status = .running) {result : AgentInvocationResult}
    {e : FlowError} (hsettle : active.settle result = .error e) :
    e.isValueError = true ∧ Runs env definition runId
      ((lc.settleInvocation runId result).attempt : FlowProg (Except FlowError FlowRunState)) w
      (.error e) ⟨w.repo, w.steps + 1⟩ := by
  have hvalue : e.isValueError = true := by
    have hlive := (h.live (.inl hrunning)).trans hrunning
    unfold AgentInvocation.settle at hsettle
    rw [if_neg (by simp [hlive])] at hsettle
    split at hsettle
    · cases hsettle
      rfl
    · split at hsettle
      · cases hsettle
        rfl
      · split at hsettle
        · cases hsettle
          rfl
        · cases hsettle
  have htransition : settleTransition runId result s = .error e := by
    have hactive : s.requireActive = .ok active := FlowRunState.requireActive_ok.mpr h.found
    unfold settleTransition FlowRunState.settleInvocation
    simp [raiseIf, hrunning, hactive, hsettle, Bind.bind, Except.bind]
  have hread : Runs env definition runId (FlowLifecycle.read .settleInvocation runId) w s
      ⟨w.repo, w.steps + 1⟩ := h.holds.read _
  refine ⟨hvalue, ?_, ?_⟩
  · rw [eval_attempt]
    have heval : (lc.settleInvocation runId result).eval env.exec w =
        (.error e, ⟨w.repo, w.steps + 1⟩) := by
      unfold FlowLifecycle.settleInvocation FlowLifecycle.transact
      rw [bind_eq, eval_bind_ok hread.eval, htransition]
      rfl
    rw [heval]
  · rw [along_attempt]
    unfold FlowLifecycle.settleInvocation FlowLifecycle.transact
    rw [bind_eq, along_bind]
    refine ⟨hread.along, fun a v ha => ?_⟩
    rw [hread.eval] at ha
    cases ha
    rw [htransition]
    trivial

theorem Inside.stored_terminable (h : Inside env runId w s init active) {settled : AgentInvocation}
    (hfiled : Filed env runId w' s') (hlist : s'.invocations = init ++ [settled])
    (hstatus : s'.status = (if settled.status = .waiting then .waiting else .running))
    (hactive : s'.activeInvocationId = (if settled.status = .waiting then some settled.id else none))
    (hcounted : Counted s'.invocations) :
    Terminable env runId w' s' ∧ (settled.status = .waiting → Inside env runId w' s' init settled) := by
  by_cases hwaiting : settled.status = .waiting
  · rw [if_pos hwaiting] at hstatus hactive
    have hinside : Inside env runId w' s' init settled :=
      ⟨hfiled, hlist, hactive, h.completed, h.counted⟩
    exact ⟨hinside.terminable (.inr hstatus), fun _ => hinside⟩
  · rw [if_neg hwaiting] at hstatus hactive
    have hlive : s'.status.terminal = false := by rw [hstatus]; rfl
    exact ⟨hfiled.terminable hlive hactive hcounted, fun hw => absurd hw hwaiting⟩

theorem Finishes.waiting (h : Inside env runId w s init active) (hwaiting : s.status = .waiting)
    {result : FlowResult} (hresult : flowResult s = .ok result) :
    Finishes env definition runId (.ret result) w := by
  refine ⟨⟨fun _ => trivial, fun _ => ?_⟩, h.parked⟩
  exact ⟨result, s, rfl, h.holds.stored, hresult, .inl hwaiting⟩

theorem outcome_error {result : AgentInvocationResult} (h : result.status.unsuccessful = true) :
    (match result.error with
      | none | some "" => s!"Agent '{result.agentKey}' did not complete"
      | some e => e) = result.error.getD "" := by
  obtain ⟨e, he, hne⟩ := result.valid.explained h
  rw [he]
  split
  · rename_i hnone
    cases hnone
  · rename_i hempty
    cases hempty
    exact absurd rfl hne
  · rename_i heq
    cases heq
    rfl

/-- The Run is terminated after an Agent that did not complete. -/
theorem handleOutcome_unsuccessful {result : AgentInvocationResult}
    (h : result.status.unsuccessful = true) :
    st.handleOutcome s result =
      (SequentialFlowStrategy.resultOf (st.lifecycle.terminate s.runId (terminationOf result.status)
        (result.error.getD "") [])).bind fun terminal => .ret (some terminal) := by
  have herror := outcome_error h
  unfold SequentialFlowStrategy.handleOutcome
  cases hstatus : result.status <;> simp only [hstatus, AgentResultStatus.unsuccessful] at h ⊢ <;>
    first | (rw [← herror]; rfl) | cases h

/-- An Agent that did not complete ends the Run with its error. -/
theorem Terminable.failed (definition : FlowDefinition) (h : Terminable env runId w s)
    (hst : st.lifecycle.executionLease = none) {result : AgentInvocationResult}
    (hunsuccessful : result.status.unsuccessful = true)
    (herror : isBlank (result.error.getD "") = false) :
    ∃ w' s' terminal, Runs env definition runId (st.handleOutcome s result) w (some terminal) w' ∧
      Over runId w' s' ∧ flowResult s' = .ok terminal := by
  obtain ⟨w', s', hterminated, hover⟩ :=
    h.terminate definition hst (terminationOf result.status) herror []
  obtain ⟨terminal, hterminal⟩ := flowResult_ended hover.valid hover.terminal hover.counted
  refine ⟨w', s', terminal, ?_, hover, hterminal⟩
  rw [handleOutcome_unsuccessful hunsuccessful, h.holds.own]
  apply Runs.bind (hterminated.bind (Runs.ofExcept hterminal))
  exact ⟨rfl, trivial⟩

theorem handleOutcome_waiting {result : AgentInvocationResult} (hresult : result.status = .waiting)
    {waiting : FlowResult} (hwaiting : flowResult s = .ok waiting) :
    Runs env definition runId (st.handleOutcome s result) w (some waiting) w := by
  unfold SequentialFlowStrategy.handleOutcome
  simp only [hresult]
  apply (Runs.ofExcept hwaiting).bind
  exact ⟨rfl, trivial⟩

theorem handleOutcome_completed {result : AgentInvocationResult}
    (hresult : result.status = .completed) :
    Runs env definition runId (st.handleOutcome s result) w none w := by
  unfold SequentialFlowStrategy.handleOutcome
  simp only [hresult]
  exact ⟨rfl, trivial⟩

theorem Inside.between (h : Inside env runId w s init active) {settled : AgentInvocation}
    (hfiled : Filed env runId w' s') (hlist : s'.invocations = init ++ [settled])
    (hstatus : s'.status = .running) (hactive : s'.activeInvocationId = none)
    (hcounted : Counted s'.invocations) (hrecord : settled.status = .completed) :
    Between env runId w' s' := by
  refine ⟨hfiled, hstatus, hactive, fun inv hinv => ?_, hcounted⟩
  rw [hlist] at hinv
  cases List.mem_append.mp hinv with
  | inl hinit => exact h.completed inv hinit
  | inr hlast =>
    rw [List.mem_singleton.mp hlast]
    exact hrecord

/-- The answer of an Agent is settled, and the Flow goes on if it has completed. -/
theorem Inside.answered (h : Inside env runId w s init active) (hq : Undisturbed env)
    (hst : st.lifecycle.executionLease = none) (hrunning : s.status = .running)
    {state : FlowRunState} (hown : state.runId = runId) (hbudget : state.budget = s.budget)
    (hcounted : Counted state.invocations) (agentKey operation interrupted : String)
    {continueWith : FlowRunState → AgentInvocationResult → FlowProg FlowResult}
    (hcontinue : ∀ w' settled result, Between env runId w' settled → Succeeds s settled →
      settled.invocations.length = s.invocations.length →
        Finishes env definition runId (continueWith settled result) w')
    {t : Transported} (ht : Answerable s (env.clock (w.steps + 2)) t) :
    Finishes env definition runId
      (st.afterTransport state runId agentKey operation interrupted continueWith t) w := by
  have hterminable := h.terminable (.inl hrunning)
  cases t with
  | timeout =>
    have htimeout : state.budget.timeoutSeconds.isSome = true := by
      rw [hbudget]
      exact ht
    exact hterminable.timeoutLimit hq hst hown hcounted htimeout
  | cancelled => exact ht.elim
  | raised errorType message => exact hterminable.transportFailure hst _ _ _ _
  | result result =>
    cases hsettle : active.settle result with
    | error e =>
      obtain ⟨hvalue, hruns⟩ := h.misfit definition st.lifecycle hrunning hsettle
      apply hruns.finishes
      have hfailed : st.settleFailed runId agentKey operation e =
          st.transportFailure runId agentKey s!"{operation} returned an invalid result" e.typeName
            e.text := by
        cases e <;> first | rfl | cases hvalue
      show Finishes env definition runId (st.settleFailed runId agentKey operation e) _
      rw [hfailed]
      exact (hterminable.later (n := w.steps + 1) (by omega)).transportFailure hst _ _ _ _
    | ok settled =>
      obtain ⟨w₁, s₁, hruns, hsteps, hfiled, hnext, hok, hlist, hstatus, hactive⟩ :=
        h.store definition hst hrunning hsettle
      obtain ⟨hcounts, hexplained⟩ := ht s₁ hok
      obtain ⟨hterminable₁, hinside⟩ := h.stored_terminable hfiled hlist hstatus hactive hcounts
      obtain ⟨-, -, -, -, hsettled⟩ := AgentInvocation.settle_ok hsettle
      apply hruns.attempt.finishes
      show Finishes env definition runId (st.afterSettled s₁ result continueWith) w₁
      apply (Runs.clock w₁).finishes
      obtain ⟨violation, hviolation⟩ := afterTransport_ok hfiled.valid hcounts (env.clock w₁.steps)
      apply (Runs.ofExcept hviolation).finishes
      have hterminable₂ := hterminable₁.later (n := w₁.steps + 1) (by omega)
      cases violation with
      | some v =>
        rw [hfiled.holds.own]
        exact hterminable₂.reachBudgetLimit hq hst v
      | none =>
        rw [hsteps] at hviolation
        show Finishes env definition runId ((st.handleOutcome s₁ result).bind _) _
        have hrecord : settled.status = result.status.toRunStatus := by rw [hsettled]
        by_cases hunsuccessful : result.status.unsuccessful = true
        · have herror := hexplained hunsuccessful hviolation
          obtain ⟨w₃, s₃, terminal, hresult, hover, hterminal⟩ :=
            hterminable₂.failed definition hst hunsuccessful herror
          apply hresult.finishes
          exact hover.returns hterminal
        · cases hcase : result.status with
          | waiting =>
            have hrecord : settled.status = .waiting := by rw [hrecord, hcase]; rfl
            have hwaits : Inside env runId ⟨w₁.repo, w₁.steps + 1⟩ s₁ init settled :=
              (hinside hrecord).later (by omega)
            rw [if_pos hrecord] at hstatus
            obtain ⟨waiting, hwaiting⟩ := flowResult_waiting hfiled.valid hstatus hcounts
            apply (handleOutcome_waiting hcase hwaiting).finishes
            exact Finishes.waiting hwaits hstatus hwaiting
          | completed =>
            have hrecord : settled.status = .completed := by rw [hrecord, hcase]; rfl
            have hnot : settled.status ≠ .waiting := by simp [hrecord]
            rw [if_neg hnot] at hstatus hactive
            apply (handleOutcome_completed hcase).finishes
            have hbetween : Between env runId w₁ s₁ :=
              h.between hfiled hlist hstatus hactive hcounts hrecord
            refine hcontinue _ s₁ result (hbetween.later (by omega)) hnext ?_
            rw [hlist, h.last, List.length_append, List.length_append]
            rfl
          | _ => simp [hcase, AgentResultStatus.unsuccessful] at hunsuccessful

/-! ### An answer that is not settled -/

def Falls (env : FlowEnv) (runId : UUID) (p : FlowProg α) (w : FlowWorld) : Prop :=
  ∃ e w', p.eval env.exec w = (.error e, w') ∧ Parked env runId w'

theorem Runs.falls {β : Type} {p : FlowProg α} {f : α → FlowProg β} {a : α}
    (hp : Runs env definition runId p w a w') (hf : Falls env runId (f a) w') :
    Falls env runId (p.bind f) w := by
  obtain ⟨e, w'', heval, hparked⟩ := hf
  exact ⟨e, w'', by rw [eval_bind_ok hp.eval]; exact heval, hparked⟩

theorem Falls.bind {β : Type} {p : FlowProg α} {f : α → FlowProg β} (hp : Falls env runId p w) :
    Falls env runId (p.bind f) w := by
  obtain ⟨e, w', heval, hparked⟩ := hp
  exact ⟨e, w', eval_bind_error heval, hparked⟩

theorem Falls.ofExcept {x : Except FlowError α} {e : FlowError} (h : x = .error e)
    (hparked : Parked env runId w) : Falls env runId (Prog.ofExcept x) w := by
  rw [h]
  exact ⟨e, w, rfl, hparked⟩

theorem Falls.unsettled {p : FlowProg FlowResult} (h : Falls env runId p w) :
    ¬ Settles runId (p.eval env.exec w) := by
  obtain ⟨e, w', heval, -⟩ := h
  intro hsettles
  obtain ⟨result, s, hok, -⟩ := hsettles
  rw [heval] at hok
  cases hok

theorem Falls.parked {p : FlowProg α} (h : Falls env runId p w) :
    Parked env runId (p.eval env.exec w).2 := by
  obtain ⟨e, w', heval, hparked⟩ := h
  rw [heval]
  exact hparked

theorem running_parked (h : Holds runId w s) (hrunning : s.status = .running) :
    Parked env runId w :=
  parked_of_ne h (by rw [hrunning]; simp)

theorem Holds.terminate_blank (h : Holds runId w s) (definition : FlowDefinition)
    (hrunning : s.status = .running) (ending : Termination) {error : String}
    (herror : isBlank error = true) (metadata : List (String × JsonValue)) :
    Falls env runId (st.lifecycle.terminate runId ending error metadata) w := by
  have htransition : terminateTransition runId ending error metadata s =
      .error (.value "Flow Run termination requires an error") := by
    unfold terminateTransition FlowRunState.terminate
    simp [raiseIf, hrunning, RunStatus.terminal, herror, Bind.bind, Except.bind]
  have hread : Runs env definition runId (FlowLifecycle.read .terminate runId) w s
      ⟨w.repo, w.steps + 1⟩ := h.read _
  apply hread.falls
  apply Falls.bind
  exact Falls.ofExcept htransition (running_parked (h.later _) hrunning)

theorem Inside.unanswered (definition : FlowDefinition) (h : Inside env runId w s init active)
    (hst : st.lifecycle.executionLease = none) (hrunning : s.status = .running)
    {state : FlowRunState} (hbudget : state.budget = s.budget)
    (hcounted : Counted state.invocations) (agentKey operation interrupted : String)
    (continueWith : FlowRunState → AgentInvocationResult → FlowProg FlowResult)
    {t : Transported} (ht : ¬ Answerable s (env.clock (w.steps + 2)) t) (hcancel : t ≠ .cancelled) :
    Falls env runId
      (st.afterTransport state runId agentKey operation interrupted continueWith t) w := by
  cases t with
  | timeout =>
    have hnone : state.budget.timeoutSeconds = none := by
      rw [hbudget]
      simpa [Answerable] using ht
    obtain ⟨c, hc, -⟩ := consumption_ok hcounted (env.clock w.steps)
    have hclock : Runs env definition runId SequentialFlowStrategy.clock w (env.clock w.steps)
        ⟨w.repo, w.steps + 1⟩ := Runs.clock w
    have hmeasured : Runs env definition runId
        (Prog.ofExcept (FlowBudgetPolicy.consumption state (env.clock w.steps))) _ c
        ⟨w.repo, w.steps + 1⟩ := Runs.ofExcept hc
    apply hclock.falls
    apply hmeasured.falls
    apply Falls.bind
    refine Falls.ofExcept (e := .assertion) ?_ (running_parked (h.holds.later _) hrunning)
    rw [hnone]
    rfl
  | cancelled => exact absurd rfl hcancel
  | raised errorType message => exact absurd trivial ht
  | result result =>
    have hbad : ∃ settled, s.settleInvocation result = .ok settled ∧
        ¬ (Counted settled.invocations ∧ (result.status.unsuccessful = true →
          FlowBudgetPolicy.afterTransport settled (env.clock (w.steps + 2)) = .ok none →
            isBlank (result.error.getD "") = false)) := by
      simpa [Answerable] using ht
    obtain ⟨s₁, hok, hnot⟩ := hbad
    obtain ⟨-, other, settled, hother, hsettle, -⟩ := FlowRunState.settleInvocation_ok hok
    rw [h.found] at hother
    cases hother
    obtain ⟨w₁, s₂, hruns, hsteps, hfiled, -, hok₂, hlist, hstatus, hactive⟩ :=
      h.store definition hst hrunning hsettle
    have hsame : s₂ = s₁ := Except.ok.inj (hok₂.symm.trans hok)
    subst hsame
    have hparked : Parked env runId ⟨w₁.repo, w₁.steps + 1⟩ := by
      by_cases hwaiting : settled.status = .waiting
      · rw [if_pos hwaiting] at hstatus hactive
        have hinside : Inside env runId w₁ s₂ init settled :=
          ⟨hfiled, hlist, hactive, h.completed, h.counted⟩
        exact (hinside.later (by omega)).parked
      · rw [if_neg hwaiting] at hstatus
        exact running_parked (hfiled.holds.later _) hstatus
    have hclock : Runs env definition runId SequentialFlowStrategy.clock w₁ (env.clock w₁.steps)
        ⟨w₁.repo, w₁.steps + 1⟩ := Runs.clock w₁
    apply hruns.attempt.falls
    show Falls env runId (st.afterSettled s₂ result continueWith) w₁
    apply hclock.falls
    rw [hsteps]
    by_cases hcounts : Counted s₂.invocations
    · have hblank : result.status.unsuccessful = true ∧
          FlowBudgetPolicy.afterTransport s₂ (env.clock (w.steps + 2)) = .ok none ∧
            isBlank (result.error.getD "") = true := by
        by_contra hno
        apply hnot
        refine ⟨hcounts, fun hunsuccessful hpolicy => ?_⟩
        by_contra hblank
        exact hno ⟨hunsuccessful, hpolicy, by simpa using hblank⟩
      obtain ⟨hunsuccessful, hpolicy, hblank⟩ := hblank
      have hmeasured : Runs env definition runId
          (Prog.ofExcept (FlowBudgetPolicy.afterTransport s₂ (env.clock (w.steps + 2))))
          ⟨w₁.repo, w.steps + 2 + 1⟩ none ⟨w₁.repo, w.steps + 2 + 1⟩ := Runs.ofExcept hpolicy
      apply hmeasured.falls
      have hrunning₂ : s₂.status = .running := by
        obtain ⟨-, -, -, -, hsettled⟩ := AgentInvocation.settle_ok hsettle
        rw [hstatus, hsettled]
        cases hcase : result.status <;> simp_all [AgentResultStatus.unsuccessful,
          AgentResultStatus.toRunStatus]
      show Falls env runId ((st.handleOutcome s₂ result).bind _) _
      apply Falls.bind
      rw [handleOutcome_unsuccessful hunsuccessful, hfiled.holds.own]
      apply Falls.bind
      apply Falls.bind
      exact (hfiled.holds.later _).terminate_blank definition hrunning₂ _ hblank []
    · obtain ⟨e, he⟩ := afterTransport_error hcounts (env.clock (w.steps + 2))
      apply Falls.bind
      rw [hsteps] at hparked
      exact Falls.ofExcept he hparked

/-! ### The loop -/

/-- An operation on which it depends whether the call settles. -/
theorem Finishes.call {o : FlowOp} {k : o.Ret → FlowProg FlowResult} {P : Prop}
    (hproper : Proper env definition runId w o ↔ P)
    (hyes : P → Finishes env definition runId (k (env.exec o w).1) (env.exec o w).2)
    (hno : ¬ P → Falls env runId (k (env.exec o w).1) (env.exec o w).2) :
    Finishes env definition runId (.call o k) w := by
  by_cases hP : P
  · refine ⟨?_, (hyes hP).parked⟩
    have hcond : Proper env definition runId w o := hproper.mpr hP
    show Settles runId ((k (env.exec o w).1).eval env.exec (env.exec o w).2) ↔ _ ∧ _
    rw [(hyes hP).settles]
    exact ⟨fun hrest => ⟨hcond, hrest⟩, fun hall => hall.2⟩
  · refine ⟨?_, (hno hP).parked⟩
    constructor
    · exact fun hsettles => absurd hsettles (hno hP).unsettled
    · exact fun hall => absurd (hproper.mp hall.1) hP

/-- The Agent is asked.  `state` is the one the deadline was taken from. -/
theorem Inside.asked (h : Inside env runId w s init active) (hq : Undisturbed env)
    (hst : st.lifecycle.executionLease = none) (hrunning : s.status = .running)
    {state : FlowRunState} (hown : state.runId = runId) (hbudget : state.budget = s.budget)
    (hcounted : Counted state.invocations) (agentKey operation interrupted : String)
    {continueWith : FlowRunState → AgentInvocationResult → FlowProg FlowResult}
    (hcontinue : ∀ w' settled result, Between env runId w' settled → Succeeds s settled →
      settled.invocations.length = s.invocations.length →
        Finishes env definition runId (continueWith settled result) w')
    {o : FlowOp} {k : o.Ret → FlowProg FlowResult} {t : Transported}
    (hproper : Proper env definition runId w o ↔ ∀ s, w.repo.states runId = some s →
      Answerable s (env.clock (w.steps + 3)) t) (ht : t ≠ .cancelled)
    (hexec : (env.exec o w).2 = ⟨w.repo, w.steps + 1⟩)
    (hk : k (env.exec o w).1 =
      st.afterTransport state runId agentKey operation interrupted continueWith t) :
    Finishes env definition runId (.call o k) w := by
  have hlater : Inside env runId ⟨w.repo, w.steps + 1⟩ s init active := h.later (by omega)
  apply Finishes.call (P := Answerable s (env.clock (w.steps + 3)) t)
  · rw [hproper]
    constructor
    · exact fun hall => hall s h.holds.stored
    · intro hanswer other hother
      rw [h.holds.stored] at hother
      cases hother
      exact hanswer
  · intro hanswer
    rw [hk, hexec]
    exact hlater.answered hq hst hrunning hown hbudget hcounted _ _ _ hcontinue hanswer
  · intro hanswer
    rw [hk, hexec]
    exact hlater.unanswered definition hst hrunning hbudget hcounted _ _ _ continueWith hanswer ht

theorem Between.finished (h : Between env runId w s) (hst : st.lifecycle.executionLease = none)
    (hsome : s.invocations ≠ []) (output : String) :
    Finishes env definition runId
      (SequentialFlowStrategy.resultOf (st.lifecycle.complete s.runId output)) w := by
  obtain ⟨t, ht, hdrafts, hnext, hvalid, hstatus, hlist⟩ := h.completes hsome output
  obtain ⟨w', hruns, hholds, -⟩ := h.holds.transact env definition hst .complete ht hdrafts hnext
  rw [h.holds.own]
  apply hruns.finishes
  apply Over.finishes
  refine ⟨hholds, hvalid, by rw [hstatus]; rfl, ?_⟩
  rw [hlist]
  exact h.counted

theorem request_valid (input : FlowInput) (previous : Option AgentInvocationResult)
    {binding : FlowAgent} (hbinding : binding ∈ definition.agents) (invocationId : UUID) :
    (validKey binding.definition.id = true →
        (SequentialFlowStrategy.requestFor s input previous binding invocationId).validate =
          .ok (SequentialFlowStrategy.requestFor s input previous binding invocationId)) ∧
      (¬ validKey binding.definition.id = true → ∃ e,
        (SequentialFlowStrategy.requestFor s input previous binding invocationId).validate =
          .error e) := by
  have hkey : validKey binding.key = true := definition.valid.2.2.1 binding hbinding
  unfold AgentInvocationRequest.validate SequentialFlowStrategy.requestFor
  constructor
  · intro hid
    simp [hkey, hid]
  · intro hid
    simp [hkey, hid]

/-- An identifier that `uuid4` gives now is that of no invocation. -/
theorem Filed.fresh (h : Filed env runId w s) (hq : Undisturbed env) {n : Nat} (hn : w.steps ≤ n) :
    env.uuid4 n ∉ s.invocations.map (·.id) := by
  intro htaken
  obtain ⟨inv, hinv, hid⟩ := List.mem_map.mp htaken
  obtain ⟨m, hm, hissued⟩ := h.issued inv hinv
  have hsame : m = n := hq.distinct (hissued.symm.trans hid)
  omega

theorem Between.begun (h : Between env runId w s) (hq : Undisturbed env)
    (hst : st.lifecycle.executionLease = none) (hmatch : s.matchesDefinition definition = true)
    {binding : FlowAgent} (hbinding : definition.agents[s.invocations.length]? = some binding)
    (hroom : s.invocations.length < s.budget.maxInvocations) (input : FlowInput)
    (previous : Option AgentInvocationResult) :
    ∃ w' s', Runs env definition runId
        (st.lifecycle.beginInvocation runId
          (SequentialFlowStrategy.requestFor s input previous binding (env.uuid4 (w.steps + 1)))
          definition) ⟨w.repo, w.steps + 2⟩ s' w' ∧ Succeeds s s' ∧
      Inside env runId w' s' s.invocations (s.begunInvocation
        (SequentialFlowStrategy.requestFor s input previous binding (env.uuid4 (w.steps + 1)))) ∧
      s'.status = .running ∧ Counted s'.invocations := by
  have hfresh := h.fresh hq (n := w.steps + 1) (by omega)
  obtain ⟨t, ht, hdrafts, hnext, hvalid, hrunning, hlist, hactive⟩ :=
    h.begins hmatch hbinding hroom
      (SequentialFlowStrategy.requestFor s input previous binding (env.uuid4 (w.steps + 1)))
      rfl rfl rfl rfl rfl rfl hfresh
  have hholds : Holds runId ⟨w.repo, w.steps + 2⟩ s := h.holds.later _
  obtain ⟨w', hruns, hholds', hsteps⟩ := hholds.transact env definition hst .beginInvocation ht
    hdrafts hnext
  refine ⟨w', t.state, hruns, hnext, ⟨⟨hholds', hvalid, ?_⟩, hlist, hactive, h.completed, h.counted⟩,
    hrunning, ?_⟩
  · intro inv hinv
    rw [hlist] at hinv
    cases List.mem_append.mp hinv with
    | inl hold =>
      obtain ⟨n, hn, hid⟩ := h.issued inv hold
      exact ⟨n, by simp only at hsteps; omega, hid⟩
    | inr hnew =>
      rw [List.mem_singleton.mp hnew]
      exact ⟨w.steps + 1, by simp only at hsteps; omega, rfl⟩
  · rw [hlist]
    exact counted_snoc h.counted rfl rfl

theorem Between.advance (hq : Undisturbed env) (hst : st.lifecycle.executionLease = none)
    (input : FlowInput) (fuel : Nat) (previous : Option AgentInvocationResult)
    (h : Between env runId w s) (hmatch : s.matchesDefinition definition = true)
    (hfuel : definition.agents.length ≤ s.invocations.length + fuel)
    (hprevious : previous = none → s.invocations.length < definition.agents.length)
    (hsome : previous ≠ none → s.invocations ≠ []) :
    Finishes env definition runId (st.advance definition input fuel s previous) w := by
  induction fuel generalizing w s previous with
  | zero =>
    have hdone : definition.agents[s.invocations.length]? = none :=
      List.getElem?_eq_none (by omega)
    unfold SequentialFlowStrategy.advance
    simp only [hdone]
    cases previous with
    | none => exact absurd (hprevious rfl) (by omega)
    | some result =>
      apply (Runs.ofExcept rfl).finishes
      exact h.finished hst (hsome (by simp)) _
  | succ fuel ih =>
    unfold SequentialFlowStrategy.advance
    cases hbinding : definition.agents[s.invocations.length]? with
    | none =>
      simp only
      cases previous with
      | none =>
        have hlength := hprevious rfl
        simp [hlength] at hbinding
      | some result =>
        apply (Runs.ofExcept rfl).finishes
        exact h.finished hst (hsome (by simp)) _
    | some binding =>
      simp only
      obtain ⟨violation, hviolation, hroom⟩ :=
        beforeTransport_ok h.valid h.counted (env.clock w.steps) true
      apply (Runs.clock w).finishes
      apply (Runs.ofExcept hviolation).finishes
      have hlater : Between env runId ⟨w.repo, w.steps + 1⟩ s := h.later (by omega)
      cases violation with
      | some v =>
        simp only
        rw [h.holds.own]
        have hlive : s.status.terminal = false := by rw [h.running]; rfl
        exact (hlater.toFiled.terminable hlive h.idle h.counted).reachBudgetLimit hq hst v
      | none =>
        have hmem := List.mem_of_getElem? hbinding
        obtain ⟨hvalid, hinvalid⟩ := request_valid (s := s) input previous hmem
          (env.uuid4 (w.steps + 1))
        show Finishes env definition runId (.call .uuid4 fun id => _) _
        apply Finishes.call (P := validKey binding.definition.id = true)
        · constructor
          · exact fun hproper => hproper s binding h.holds.stored hbinding
          · intro hid other next hother hnext
            have hstored : w.repo.states runId = some other := hother
            rw [h.holds.stored] at hstored
            cases hstored
            rw [hbinding] at hnext
            cases hnext
            exact hid
        · intro hid
          show Finishes env definition runId (Prog.bind (Prog.ofExcept
            (SequentialFlowStrategy.requestFor s input previous binding
              (env.uuid4 (w.steps + 1))).validate) _) ⟨w.repo, w.steps + 2⟩
          apply (Runs.ofExcept (hvalid hid)).finishes
          obtain ⟨w₁, s₁, hbegin, hnext, hinside, hrunning, hcounted⟩ :=
            h.begun hq hst hmatch hbinding (hroom rfl rfl) input previous
          rw [h.holds.own]
          apply hbegin.finishes
          apply (Runs.clock w₁).finishes
          rw [hinside.holds.own]
          have hasked : Inside env runId ⟨w₁.repo, w₁.steps + 1⟩ s₁ s.invocations _ :=
            hinside.later (by omega)
          refine hasked.asked hq hst hrunning hinside.holds.own rfl hcounted _ _ _ ?_ Iff.rfl
            (hq.invoke _ _ _) rfl rfl
          intro w₂ settled result hbetween hsucceeds hlength
          have hlast := hinside.last
          have hcount : s₁.invocations.length = s.invocations.length + 1 := by
            rw [hlast, List.length_append, List.length_singleton]
          apply ih _ hbetween
          · rw [hsucceeds.matches, hnext.matches]
            exact hmatch
          · omega
          · exact fun hnone => nomatch hnone
          · intro _ hempty
            rw [hempty] at hlength
            simp only [List.length_nil] at hlength
            omega
        · intro hid
          obtain ⟨e, he⟩ := hinvalid hid
          show Falls env runId (Prog.bind (Prog.ofExcept
            (SequentialFlowStrategy.requestFor s input previous binding
              (env.uuid4 (w.steps + 1))).validate) _) _
          apply Falls.bind
          exact Falls.ofExcept he (running_parked (h.holds.later _) h.running)

end Settling

/-! ## The calls -/

/-- The identifier of the Run that `run` creates.  `uuid4` follows the clock. -/
def createdId (env : FlowEnv) (w : FlowWorld) (given : Option UUID) : UUID :=
  given.getD (env.uuid4 (w.steps + 1))

/-- The timeout leads to a `datetime`. -/
def FlowBudget.Schedulable (b : FlowBudget) (now : Time) : Prop :=
  ∀ seconds ∈ b.timeoutSeconds, (timedelta seconds / 86400000000).natAbs ≤ 999999999 ∧
    minTime ≤ now + timedelta seconds ∧ now + timedelta seconds ≤ maxTime

theorem addSeconds_ok_iff {now : Time} {seconds : ℚ} : (∃ t, addSeconds now seconds = .ok t) ↔
    (timedelta seconds / 86400000000).natAbs ≤ 999999999 ∧
      minTime ≤ now + timedelta seconds ∧ now + timedelta seconds ≤ maxTime := by
  unfold addSeconds
  constructor
  · intro hok
    obtain ⟨t, ht⟩ := hok
    simp only at ht
    split at ht
    · cases ht
    split at ht
    · cases ht
    split at ht
    · cases ht
    · rename_i hdays hrange
      obtain ⟨hfirst, hlast⟩ := not_or.mp hrange
      exact ⟨not_lt.mp hdays, not_lt.mp hfirst, not_lt.mp hlast⟩
  · intro hbounds
    obtain ⟨hdays, hfirst, hlast⟩ := hbounds
    refine ⟨now + timedelta seconds, ?_⟩
    simp only
    rw [if_neg (by omega), if_neg (not_lt.mpr hdays),
      if_neg (not_or.mpr ⟨not_lt.mpr hfirst, not_lt.mpr hlast⟩)]

theorem FlowBudget.deadline_ok_iff {b : FlowBudget} {now : Time} :
    (∃ deadlineAt, b.deadline now = .ok deadlineAt) ↔ b.Schedulable now := by
  unfold FlowBudget.deadline FlowBudget.Schedulable
  cases htimeout : b.timeoutSeconds with
  | none => simp
  | some seconds =>
    simp only [Option.mem_some_iff, forall_eq']
    rw [← addSeconds_ok_iff]
    cases addSeconds now seconds <;> simp

section Calls

variable {env : FlowEnv} {definition : FlowDefinition} {runId : UUID} {w w' : FlowWorld}
variable {s : FlowRunState} {st : SequentialFlowStrategy} {given : Option UUID}

theorem create_runs (env : FlowEnv) (definition : FlowDefinition) (w : FlowWorld)
    (state : FlowRunState) (hown : state.runId = runId) (hrevision : state.revision = 1)
    (hnew : w.repo.states runId = none) (hfree : w.repo.leases runId = none) :
    ∃ w', Runs env definition runId
        (.call (.create state [createdDraft state]) fun r => do
          let _ ← Prog.ofExcept r
          return state) w state w' ∧ Holds runId w' state := by
  obtain ⟨repo, hrepo, hstored, hleases⟩ : ∃ repo, w.repo.create state [createdDraft state] =
      (.ok (materializeEvents runId [createdDraft state] 1), repo) ∧
      repo.states runId = some state ∧ repo.leases = w.repo.leases := by
    unfold InMemoryFlowRepository.create
    simp only [hrevision, hown, hnew, ne_eq, not_true_eq_false, if_false, List.isEmpty_cons,
      Bool.false_eq_true]
    exact ⟨_, rfl, by simp, rfl⟩
  have hexec : env.exec (.create state [createdDraft state]) w =
      (.ok (materializeEvents runId [createdDraft state] 1), ⟨repo, w.steps + 1⟩) := by
    show ((w.repo.create _ _).1, (⟨(w.repo.create _ _).2, _⟩ : FlowWorld)) = _
    rw [hrepo]
    rfl
  refine ⟨⟨repo, w.steps + 1⟩, ⟨?_, trivial, ?_⟩, hstored, ?_, hown⟩
  · unfold Prog.eval
    rw [hexec]
    rfl
  · rw [hexec]
    trivial
  · rw [hleases]
    exact hfree

/-- The Run is created, under the identifier that was given or one of its own. -/
theorem created_runs (hnew : w.repo.states (createdId env w given) = none)
    (hfree : w.repo.leases (createdId env w given) = none) {now : Time} {deadlineAt : Option Time}
    (hdeadline : definition.budget.deadline now = .ok deadlineAt) :
    ∃ w', Runs env definition (createdId env w given)
        (FlowLifecycle.create definition given now) ⟨w.repo, w.steps + 1⟩
        (.initial definition (createdId env w given) now deadlineAt) w' ∧
      Holds (createdId env w given) w'
        (.initial definition (createdId env w given) now deadlineAt) := by
  unfold FlowLifecycle.create
  rw [hdeadline]
  cases given with
  | some id =>
    exact create_runs env definition ⟨w.repo, w.steps + 1⟩ (.initial definition id now deadlineAt)
      rfl rfl hnew hfree
  | none =>
    obtain ⟨w', hruns, hholds⟩ := create_runs env definition ⟨w.repo, w.steps + 2⟩
      (.initial definition (createdId env w none) now deadlineAt) rfl rfl hnew hfree
    refine ⟨w', ⟨hruns.eval, ?_, hruns.along⟩, hholds⟩
    intro s binding hstored
    have hsome : w.repo.states (createdId env w none) = some s := hstored
    rw [hnew] at hsome
    cases hsome

theorem started_between (env : FlowEnv) {now : Time} {deadlineAt : Option Time}
    (hdeadline : definition.budget.deadline now = .ok deadlineAt)
    (h : Holds runId w (.initial definition runId now deadlineAt))
    (hst : st.lifecycle.executionLease = none) :
    ∃ w' s, Runs env definition runId (st.lifecycle.start runId) w s w' ∧
      Between env runId w' s ∧ s.matchesDefinition definition = true ∧ s.invocations = [] := by
  have hstart : (FlowRunState.initial definition runId now deadlineAt).start =
      .ok { (FlowRunState.initial definition runId now deadlineAt).evolve with
        status := .running } := rfl
  have hvalid := FlowRunState.start_valid (FlowRunState.initial_valid hdeadline runId) hstart
  have htransition : startTransition (FlowRunState.initial definition runId now deadlineAt) =
      .ok ⟨_, _, _⟩ := rfl
  obtain ⟨w', hruns, hholds, -⟩ := h.transact env definition hst .start htransition (by simp)
    ⟨rfl, rfl, rfl, rfl, rfl, rfl, rfl, rfl⟩
  refine ⟨w', _, hruns, ⟨⟨hholds, hvalid, ?_⟩, rfl, rfl, ?_, ?_⟩, ?_, rfl⟩
  · exact fun _ hmem => nomatch hmem
  · exact fun _ hmem => nomatch hmem
  · exact ⟨le_refl _, le_refl _⟩
  · show (_ && _ && _) = true
    simp [FlowRunState.initial, FlowRunState.evolve]

/-- `run` settles the Run it creates exactly when its operations are proper. -/
theorem run_finishes (hq : Undisturbed env) (hst : st.lifecycle.executionLease = none)
    (hstrategy : definition.strategy = "sequential")
    (hschedulable : definition.budget.Schedulable (env.clock w.steps))
    (hnew : w.repo.states (createdId env w given) = none)
    (hfree : w.repo.leases (createdId env w given) = none) (input : FlowInput) :
    Finishes env definition (createdId env w given) (st.run definition input given) w := by
  have hsupported : SequentialFlowStrategy.requireSupported definition = .ok () := by
    unfold SequentialFlowStrategy.requireSupported
    simp [hstrategy]
  apply (Runs.ofExcept hsupported).finishes
  apply (Runs.clock w).finishes
  obtain ⟨deadlineAt, hdeadline⟩ := FlowBudget.deadline_ok_iff.mpr hschedulable
  obtain ⟨w₁, hcreated, hholds⟩ := created_runs hnew hfree hdeadline
  apply hcreated.finishes
  obtain ⟨w₂, s, hstarted, hbetween, hmatch, hempty⟩ := started_between env hdeadline hholds hst
  apply hstarted.finishes
  apply hbetween.advance hq hst input _ none hmatch
  · omega
  · intro _
    rw [hempty]
    exact List.length_pos_of_ne_nil definition.valid.1
  · exact fun hnot => absurd rfl hnot

theorem unsettled_of_error {p : FlowProg FlowResult} {e : FlowError}
    (h : p.eval env.exec w = (.error e, w')) : ¬ Settles runId (p.eval env.exec w) := by
  rw [h]
  intro hsettles
  obtain ⟨result, s, hok, -⟩ := hsettles
  cases hok

theorem requireSupported_error (h : definition.strategy ≠ "sequential") :
    ∃ e, SequentialFlowStrategy.requireSupported definition = .error e := by
  unfold SequentialFlowStrategy.requireSupported raiseIf
  rw [if_pos h]
  exact ⟨_, rfl⟩

theorem run_unsupported (h : definition.strategy ≠ "sequential") (input : FlowInput) :
    ¬ Settles runId ((st.run definition input given).eval env.exec w) := by
  obtain ⟨e, he⟩ := requireSupported_error h
  have heval : (st.run definition input given).eval env.exec w = (.error e, w) := by
    unfold SequentialFlowStrategy.run
    rw [he]
    rfl
  exact unsettled_of_error heval

theorem run_eval_error (hstrategy : definition.strategy = "sequential") (input : FlowInput)
    {e : FlowError} (hcreate : (FlowLifecycle.create definition given (env.clock w.steps)).eval
      env.exec ⟨w.repo, w.steps + 1⟩ = (.error e, w')) :
    (st.run definition input given).eval env.exec w = (.error e, w') := by
  have hsupported : SequentialFlowStrategy.requireSupported definition = .ok () := by
    unfold SequentialFlowStrategy.requireSupported
    simp [hstrategy]
  have hclock : SequentialFlowStrategy.clock.eval env.exec w =
      (.ok (env.clock w.steps), ⟨w.repo, w.steps + 1⟩) := rfl
  unfold SequentialFlowStrategy.run
  rw [hsupported]
  show (Prog.bind SequentialFlowStrategy.clock _).eval env.exec w = _
  rw [eval_bind_ok hclock]
  exact eval_bind_error hcreate

theorem run_unschedulable (st : SequentialFlowStrategy) (given : Option UUID)
    (hstrategy : definition.strategy = "sequential")
    (hlate : ¬ definition.budget.Schedulable (env.clock w.steps)) (input : FlowInput) :
    ∃ e, (st.run definition input given).eval env.exec w = (.error e, ⟨w.repo, w.steps + 1⟩) := by
  cases hdeadline : definition.budget.deadline (env.clock w.steps) with
  | ok deadlineAt => exact absurd (FlowBudget.deadline_ok_iff.mp ⟨deadlineAt, hdeadline⟩) hlate
  | error e =>
    refine ⟨e, run_eval_error hstrategy input ?_⟩
    unfold FlowLifecycle.create
    rw [hdeadline]
    rfl

theorem create_refused (w : FlowWorld) (state : FlowRunState) (hown : state.runId = runId)
    (hrevision : state.revision = 1) (htaken : w.repo.states runId ≠ none) :
    ∃ e w', Prog.eval env.exec (.call (.create state [createdDraft state]) fun r => do
      let _ ← Prog.ofExcept r
      return state : FlowProg FlowRunState) w = (.error e, w') := by
  obtain ⟨current, hcurrent⟩ := Option.ne_none_iff_exists'.mp htaken
  have hrefused : ∃ e, w.repo.create state [createdDraft state] = (.error e, w.repo) := by
    unfold InMemoryFlowRepository.create
    simp [hrevision, hown, hcurrent]
  obtain ⟨e, he⟩ := hrefused
  have hexec : env.exec (.create state [createdDraft state]) w = (.error e, ⟨w.repo, w.steps + 1⟩) := by
    show ((w.repo.create _ _).1, (⟨(w.repo.create _ _).2, _⟩ : FlowWorld)) = _
    rw [he]
    rfl
  refine ⟨e, ⟨w.repo, w.steps + 1⟩, ?_⟩
  unfold Prog.eval
  rw [hexec]
  rfl

theorem run_taken (hstrategy : definition.strategy = "sequential")
    (hschedulable : definition.budget.Schedulable (env.clock w.steps))
    (htaken : w.repo.states (createdId env w given) ≠ none) (input : FlowInput) :
    ¬ Settles runId ((st.run definition input given).eval env.exec w) := by
  have hcreate : ∃ e w', (FlowLifecycle.create definition given (env.clock w.steps)).eval env.exec
      ⟨w.repo, w.steps + 1⟩ = (.error e, w') := by
    obtain ⟨deadlineAt, hdeadline⟩ := FlowBudget.deadline_ok_iff.mpr hschedulable
    unfold FlowLifecycle.create
    rw [hdeadline]
    cases given with
    | some id =>
      exact create_refused ⟨w.repo, w.steps + 1⟩
        (.initial definition id (env.clock w.steps) deadlineAt) rfl rfl htaken
    | none =>
      exact create_refused ⟨w.repo, w.steps + 2⟩
        (.initial definition (createdId env w none) (env.clock w.steps) deadlineAt) rfl rfl htaken
  obtain ⟨e, w', he⟩ := hcreate
  exact unsettled_of_error (run_eval_error hstrategy input he)

/-! ### Resuming -/

section Resuming

variable {init : List AgentInvocation} {active : AgentInvocation}

theorem Inside.claimed (definition : FlowDefinition) (h : Inside env runId w s init active)
    (hst : st.lifecycle.executionLease = none) (hwaiting : s.status = .waiting) :
    ∃ w' s', Runs env definition runId (st.lifecycle.resumeInvocation runId active.id) w s' w' ∧
      Succeeds s s' ∧ s'.status = .running ∧
      Inside env runId w' s' init { active with status := .running } := by
  obtain ⟨t, ht, hdrafts, hnext, hvalid, hrunning, hlist, hactive⟩ := h.resumes hwaiting
  obtain ⟨w', hruns, hholds, hsteps⟩ := h.holds.transact env definition hst .resumeInvocation ht
    hdrafts hnext
  refine ⟨w', t.state, hruns, hnext, hrunning,
    ⟨⟨hholds, hvalid, ?_⟩, hlist, hactive, h.completed, h.counted⟩⟩
  intro inv hinv
  have hold : ∃ old ∈ s.invocations, old.id = inv.id := by
    rw [hlist] at hinv
    rw [h.last]
    cases List.mem_append.mp hinv with
    | inl hinit => exact ⟨inv, List.mem_append_left _ hinit, rfl⟩
    | inr hlast =>
      refine ⟨active, by simp, ?_⟩
      rw [List.mem_singleton.mp hlast]
  obtain ⟨old, hmem, hid⟩ := hold
  obtain ⟨n, hn, hissued⟩ := h.issued old hmem
  exact ⟨n, by omega, hid.symm.trans hissued⟩

/-- What a resumption checks before it claims the invocation. -/
structure Resumable (definition : FlowDefinition) (s : FlowRunState) : Prop where
  strategy : definition.strategy = "sequential"
  matching : s.matchesDefinition definition = true
  counted : Counted s.invocations

theorem Inside.resumeWaiting (h : Inside env runId w s init active) (hq : Undisturbed env)
    (hst : st.lifecycle.executionLease = none) (hwaiting : s.status = .waiting)
    (hresumable : Resumable definition s) {userInput : Option String}
    {confirmation : Option ToolConfirmation} (hinput : userInput ≠ some "")
    (hone : userInput.isNone ≠ confirmation.isNone) :
    Finishes env definition runId (st.resumeWaiting definition runId userInput confirmation) w := by
  have hsupported : SequentialFlowStrategy.requireSupported definition = .ok () := by
    unfold SequentialFlowStrategy.requireSupported
    simp [hresumable.strategy]
  have hdefinition : SequentialFlowStrategy.requireDefinition s definition = .ok () := by
    unfold SequentialFlowStrategy.requireDefinition
    simp [hresumable.matching]
  obtain ⟨violation, hviolation, -⟩ :=
    beforeTransport_ok h.valid hresumable.counted (env.clock (w.steps + 1)) false
  apply (Runs.ofExcept hsupported).finishes
  apply (h.holds.read _).finishes
  apply (Runs.ofExcept hdefinition).finishes
  apply (Runs.clock _).finishes
  apply (Runs.ofExcept hviolation).finishes
  have hlater : Inside env runId ⟨w.repo, w.steps + 2⟩ s init active := h.later (by omega)
  cases violation with
  | some v =>
    simp only
    rw [h.holds.own]
    exact (hlater.terminable (.inr hwaiting)).reachBudgetLimit hq hst v
  | none =>
    apply (Runs.ofExcept (orRaise_ok.mpr h.found)).finishes
    obtain ⟨w₁, s₁, hclaimed, hnext, hrunning, hinside⟩ := hlater.claimed definition hst hwaiting
    apply hclaimed.finishes
    have hvalidate : AgentInvocationResume.validate
        { flowRunId := runId, invocationId := active.id, agentKey := active.agentKey
          userInput := userInput, confirmation := confirmation } = .ok
        { flowRunId := runId, invocationId := active.id, agentKey := active.agentKey
          userInput := userInput, confirmation := confirmation } := by
      unfold AgentInvocationResume.validate
      simp [hinput, hone]
    apply (Runs.ofExcept hvalidate).finishes
    apply (Runs.clock w₁).finishes
    have hasked : Inside env runId ⟨w₁.repo, w₁.steps + 1⟩ s₁ init _ := hinside.later (by omega)
    have hbudget : s.budget = s₁.budget := hnext.identity.2.2.2.1.symm
    refine hasked.asked hq hst hrunning h.holds.own hbudget hresumable.counted _ _ _ ?_ Iff.rfl
      (hq.resume _ _ _) rfl rfl
    intro w₂ settled result hbetween hsucceeds hlength
    have hcount : s₁.invocations.length = init.length + 1 := by
      rw [hinside.last, List.length_append, List.length_singleton]
    apply hbetween.advance hq hst _ _ _
    · rw [hsucceeds.matches, hnext.matches]
      exact hresumable.matching
    · omega
    · intro hnone
      cases hnone
    · intro _ hempty
      rw [hempty] at hlength
      simp only [List.length_nil] at hlength
      omega

theorem Inside.refused (h : Inside env runId w s init active) (hresumable : ¬ Resumable definition s)
    (userInput : Option String) (confirmation : Option ToolConfirmation) :
    Falls env runId (st.resumeWaiting definition runId userInput confirmation) w := by
  have hread : Runs env definition runId (FlowLifecycle.get runId .resumeWaiting) w s
      ⟨w.repo, w.steps + 1⟩ := h.holds.read _
  have hclock : Runs env definition runId SequentialFlowStrategy.clock ⟨w.repo, w.steps + 1⟩
      (env.clock (w.steps + 1)) ⟨w.repo, w.steps + 2⟩ := Runs.clock _
  have hlater : ∀ n, w.steps ≤ n → Parked env runId ⟨w.repo, n⟩ := fun n hn => (h.later hn).parked
  by_cases hstrategy : definition.strategy = "sequential"
  · have hsupported : Runs env definition runId
        (Prog.ofExcept (SequentialFlowStrategy.requireSupported definition)) w () w := by
      apply Runs.ofExcept
      unfold SequentialFlowStrategy.requireSupported
      simp [hstrategy]
    apply hsupported.falls
    apply hread.falls
    by_cases hmatch : s.matchesDefinition definition = true
    · have hdefinition : Runs env definition runId
          (Prog.ofExcept (SequentialFlowStrategy.requireDefinition s definition))
          ⟨w.repo, w.steps + 1⟩ () ⟨w.repo, w.steps + 1⟩ := by
        apply Runs.ofExcept
        unfold SequentialFlowStrategy.requireDefinition
        simp [hmatch]
      apply hdefinition.falls
      apply hclock.falls
      have hcounted : ¬ Counted s.invocations := fun hcounted =>
        hresumable ⟨hstrategy, hmatch, hcounted⟩
      obtain ⟨e, he⟩ := beforeTransport_error hcounted (env.clock (w.steps + 1)) false
      apply Falls.bind
      exact Falls.ofExcept he (hlater _ (by omega))
    · apply Falls.bind
      refine Falls.ofExcept (e := .value "FlowDefinition does not match this Flow Run") ?_
        (hlater _ (by omega))
      unfold SequentialFlowStrategy.requireDefinition raiseIf
      simp [hmatch]
  · obtain ⟨e, he⟩ := requireSupported_error hstrategy
    apply Falls.bind
    exact Falls.ofExcept he h.parked

end Resuming

/-- One client has created the Run, and resumed it when it was waiting.  What is done to other
Runs in between does not matter. -/
inductive Conducted (st : SequentialFlowStrategy) (env : FlowEnv) (runId : UUID) : FlowWorld → Prop
  | run {w : FlowWorld} (definition : FlowDefinition) (input : FlowInput) (given : Option UUID)
      (hid : createdId env w given = runId) (hnew : w.repo.states runId = none)
      (hfree : w.repo.leases runId = none) :
      Conducted st env runId ((st.run definition input given).eval env.exec w).2
  | resume {w : FlowWorld} {s : FlowRunState} (h : Conducted st env runId w)
      (hstored : w.repo.states runId = some s) (hwaiting : s.status = .waiting)
      (definition : FlowDefinition) (userInput : String) (hinput : userInput ≠ "") :
      Conducted st env runId ((st.resume definition runId userInput).eval env.exec w).2
  | confirm {w : FlowWorld} {s : FlowRunState} (h : Conducted st env runId w)
      (hstored : w.repo.states runId = some s) (hwaiting : s.status = .waiting)
      (definition : FlowDefinition) (confirmation : ToolConfirmation) :
      Conducted st env runId ((st.confirm definition runId confirmation).eval env.exec w).2
  | elsewhere {w w' : FlowWorld} (h : Conducted st env runId w)
      (hstates : w'.repo.states runId = w.repo.states runId)
      (hleases : w'.repo.leases runId = w.repo.leases runId) (hsteps : w.steps ≤ w'.steps) :
      Conducted st env runId w'

theorem Parked.resumed (h : Parked env runId w) (hq : Undisturbed env)
    (hst : st.lifecycle.executionLease = none) (hstored : w.repo.states runId = some s)
    (hwaiting : s.status = .waiting) (definition : FlowDefinition) {userInput : Option String}
    {confirmation : Option ToolConfirmation} (hinput : userInput ≠ some "")
    (hone : userInput.isNone ≠ confirmation.isNone) :
    Parked env runId
      ((st.resumeWaiting definition runId userInput confirmation).eval env.exec w).2 := by
  obtain ⟨init, active, hinside⟩ := h s hstored hwaiting
  by_cases hresumable : Resumable definition s
  · exact (hinside.resumeWaiting hq hst hwaiting hresumable hinput hone).parked
  · exact (hinside.refused hresumable userInput confirmation).parked

theorem Conducted.parked (hq : Undisturbed env) (hst : st.lifecycle.executionLease = none)
    (h : Conducted st env runId w) : Parked env runId w := by
  induction h with
  | run definition input given hid hnew hfree =>
    subst hid
    by_cases hstrategy : definition.strategy = "sequential"
    · intro s hstored
      rename_i w
      by_cases hschedulable : definition.budget.Schedulable (env.clock w.steps)
      · exact (run_finishes hq hst hstrategy hschedulable hnew hfree input).parked s hstored
      · obtain ⟨e, he⟩ := run_unschedulable st given hstrategy hschedulable input
        rw [he] at hstored
        have hsome := hnew.symm.trans hstored
        cases hsome
    · obtain ⟨e, he⟩ := requireSupported_error hstrategy
      unfold SequentialFlowStrategy.run
      rw [he]
      intro s hstored
      have hsome := hnew.symm.trans hstored
      cases hsome
  | resume _ hstored hwaiting definition userInput hinput ih =>
    exact ih.resumed hq hst hstored hwaiting definition (by simpa using hinput) (by simp)
  | confirm _ hstored hwaiting definition confirmation ih =>
    exact ih.resumed hq hst hstored hwaiting definition (by simp) (by simp)
  | elsewhere _ hstates hleases hsteps ih =>
    intro s hstored hwaiting
    rw [hstates] at hstored
    obtain ⟨init, active, hinside⟩ := ih s hstored hwaiting
    refine ⟨init, active, ⟨⟨⟨?_, ?_, hinside.holds.own⟩, hinside.valid, hinside.issued_later hsteps⟩,
      hinside.last, hinside.named, hinside.completed, hinside.counted⟩⟩
    · rw [hstates]
      exact hstored
    · rw [hleases]
      exact hinside.holds.free

/-- `run`, and `resume` of a waiting Flow, return the result of the state they leave, which waits or
has ended, exactly when the definition and the answers of the invoker are within the limits that the
strategy relies on. -/
theorem sequential_settles (hq : Undisturbed env) (hst : st.lifecycle.executionLease = none) :
    (∀ w definition input given, w.repo.leases (createdId env w given) = none →
      (Settles (createdId env w given) ((st.run definition input given).eval env.exec w) ↔
        definition.strategy = "sequential" ∧ definition.budget.Schedulable (env.clock w.steps) ∧
          w.repo.states (createdId env w given) = none ∧
          (st.run definition input given).Along env.exec
            (Proper env definition (createdId env w given)) w)) ∧
    ∀ runId w s definition userInput, Conducted st env runId w → w.repo.states runId = some s →
      s.status = .waiting → userInput ≠ "" →
        (Settles runId ((st.resume definition runId userInput).eval env.exec w) ↔
          Resumable definition s ∧ (st.resume definition runId userInput).Along env.exec
            (Proper env definition runId) w) := by
  constructor
  · intro w definition input given hfree
    by_cases hstrategy : definition.strategy = "sequential"
    · by_cases hschedulable : definition.budget.Schedulable (env.clock w.steps)
      · by_cases hnew : w.repo.states (createdId env w given) = none
        · rw [(run_finishes hq hst hstrategy hschedulable hnew hfree input).settles]
          exact ⟨fun halong => ⟨hstrategy, hschedulable, hnew, halong⟩, fun hall => hall.2.2.2⟩
        · constructor
          · exact fun hsettles => absurd hsettles (run_taken hstrategy hschedulable hnew input)
          · exact fun hall => absurd hall.2.2.1 hnew
      · constructor
        · intro hsettles
          obtain ⟨e, he⟩ := run_unschedulable st given hstrategy hschedulable input
          exact absurd hsettles (unsettled_of_error he)
        · exact fun hall => absurd hall.2.1 hschedulable
    · constructor
      · exact fun hsettles => absurd hsettles (run_unsupported hstrategy input)
      · exact fun hall => absurd hall.1 hstrategy
  · intro runId w s definition userInput hconducted hstored hwaiting hinput
    obtain ⟨init, active, hinside⟩ := hconducted.parked hq hst s hstored hwaiting
    by_cases hresumable : Resumable definition s
    · have hfinishes : Finishes env definition runId
          (st.resumeWaiting definition runId (some userInput) none) w :=
        hinside.resumeWaiting hq hst hwaiting hresumable (by simpa using hinput) (by simp)
      constructor
      · exact fun hsettles => ⟨hresumable, hfinishes.settles.mp hsettles⟩
      · exact fun hall => hfinishes.settles.mpr hall.2
    · have hfalls : Falls env runId (st.resumeWaiting definition runId (some userInput) none) w :=
        hinside.refused hresumable (some userInput) none
      constructor
      · exact fun hsettles => absurd hsettles hfalls.unsettled
      · exact fun hall => absurd hall.1 hresumable

end Calls

/-- An invoker whose Agents ask for input, and complete when they get it. -/
def askingEnv : FlowEnv :=
  { clock := fun _ => 0, repositoryClock := fun _ => 0, uuid4 := fun n => n
    invoke := fun _ request _ => .result
      { flowRunId := request.flowRunId
        invocationId := request.invocationId
        agentKey := request.agentKey
        status := .waiting
        pendingInput := some { toolCallId := "call", toolName := "ask", prompt := "Which one?" }
        valid := AgentInvocationResult.asking_valid }
    resume := fun _ request _ => .result
      { flowRunId := request.flowRunId
        invocationId := request.invocationId
        agentKey := request.agentKey
        status := .completed
        output := some "done"
        valid := AgentInvocationResult.completed_valid }
    cancel := fun _ _ => none }

theorem asking_undisturbed : Undisturbed askingEnv where
  invoke := by simp [askingEnv]
  resume := by simp [askingEnv]
  cancel := by simp [askingEnv]
  distinct := fun _ _ h => h

/-- The smallest Flow under `env`. -/
def soloRun (env : FlowEnv) : Except FlowError FlowResult × FlowWorld :=
  (SequentialFlowStrategy.run {} soloDefinition ⟨"write", []⟩ (some 7)).eval env.exec {}

-- The Run settles when it asks, and again when it is answered.
theorem sequential_settles_asked :
    (SequentialFlowStrategy.run {} soloDefinition ⟨"write", []⟩ (some 7)).Along askingEnv.exec
        (Proper askingEnv soloDefinition 7) {} ∧
      (SequentialFlowStrategy.resume {} soloDefinition 7 "the first").Along askingEnv.exec
        (Proper askingEnv soloDefinition 7) (soloRun askingEnv).2 := by
  have hasked : Settles 7 (soloRun askingEnv) := ⟨_, _, rfl, rfl, rfl, Or.inl rfl⟩
  have hanswered : Settles 7 ((SequentialFlowStrategy.resume {} soloDefinition 7 "the first").eval
      askingEnv.exec (soloRun askingEnv).2) := ⟨_, _, rfl, rfl, rfl, Or.inr rfl⟩
  have hconducted : Conducted {} askingEnv 7 (soloRun askingEnv).2 :=
    .run soloDefinition _ (some 7) rfl rfl rfl
  constructor
  · exact (((sequential_settles asking_undisturbed rfl).1 {} _ _ _ rfl).mp hasked).2.2.2
  · exact (((sequential_settles asking_undisturbed rfl).2 _ _ _ _ _ hconducted rfl rfl
      (by decide)).mp hanswered).2

def blankEnv : FlowEnv :=
  { askingEnv with
    invoke := fun _ request _ => .result
      { flowRunId := request.flowRunId
        invocationId := request.invocationId
        agentKey := request.agentKey
        status := .failed
        error := some " "
        valid := ⟨by simp, by simp, fun _ => ⟨" ", rfl, by decide⟩, by simp⟩ } }

theorem blank_error_unsettled :
    Undisturbed blankEnv ∧ ¬ Settles 7 (soloRun blankEnv) ∧
      (soloRun blankEnv).1 = .error (.value "Flow Run termination requires an error") ∧
      ∃ s, (soloRun blankEnv).2.repo.states 7 = some s ∧ s.status = .running := by
  have hraised : (soloRun blankEnv).1 =
      .error (.value "Flow Run termination requires an error") := rfl
  refine ⟨⟨by simp [blankEnv], asking_undisturbed.resume, asking_undisturbed.cancel,
    asking_undisturbed.distinct⟩, fun hsettles => ?_, hraised, _, rfl, rfl⟩
  obtain ⟨result, s, hok, -⟩ := hsettles
  rw [hraised] at hok
  cases hok

end Flows
end BaseAgent

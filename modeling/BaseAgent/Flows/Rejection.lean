import BaseAgent.Flows.Settlement

/-!
# Rejected resumptions

A resumption can raise before it asks the invoker.  Its own checks come first and change nothing,
but two commits can stand before a later exception: the claim of the waiting invocation, after
which the request is built and validated, and the end of a Flow whose budget is used up, after
which the waiting Agent is cancelled and the result is built.
-/

namespace BaseAgent
namespace Flows

open Async Prog

def FlowOp.resumes : FlowOp → Bool
  | .resume .. => true
  | _ => false

/-- When the program raises and has not asked the invoker to resume, the Run and its events are
what they were. -/
def RejectsUnchanged (env : FlowEnv) (runId : UUID) (p : FlowProg FlowResult) (w : FlowWorld) :
    Prop :=
  ∀ e w', p.eval env.exec w = (.error e, w') →
    p.Along env.exec (fun _ o => o.resumes = false) w →
    w'.repo.states runId = w.repo.states runId ∧ w'.repo.events runId = w.repo.events runId

section Programs

variable {env : FlowEnv} {runId : UUID} {α : Type} {w w' : FlowWorld}
variable {p : FlowProg α} {f : α → FlowProg FlowResult}

theorem rejectsUnchanged_bind {a : α} (heval : p.eval env.exec w = (.ok a, w'))
    (hquiet : p.Only fun o => o.resumes = false) (hsame : w'.repo = w.repo) :
    RejectsUnchanged env runId (p.bind f) w ↔ RejectsUnchanged env runId (f a) w' := by
  unfold RejectsUnchanged
  rw [eval_bind_ok heval, along_bind, hsame]
  constructor
  · intro h e w'' hraise halong
    refine h e w'' hraise ⟨hquiet.along w, ?_⟩
    intro b v hb
    rw [heval] at hb
    cases hb
    exact halong
  · intro h e w'' hraise halong
    exact h e w'' hraise (halong.2 a w' heval)

theorem rejectsUnchanged_error {e : FlowError} (heval : p.eval env.exec w = (.error e, w'))
    (hsame : w'.repo = w.repo) : RejectsUnchanged env runId (p.bind f) w := by
  intro e' w'' hraise _
  rw [eval_bind_error heval] at hraise
  cases hraise
  rw [hsame]
  exact ⟨rfl, rfl⟩

theorem rejectsUnchanged_changed {a : α} (heval : p.eval env.exec w = (.ok a, w'))
    (hquiet : p.Only fun o => o.resumes = false)
    (hchanged : ∀ e w'', (f a).eval env.exec w' = (.error e, w'') →
      (f a).Along env.exec (fun _ o => o.resumes = false) w' →
      w''.repo.states runId ≠ w.repo.states runId) :
    RejectsUnchanged env runId (p.bind f) w ↔
      ∀ e w'', (f a).eval env.exec w' = (.error e, w'') →
        ¬ (f a).Along env.exec (fun _ o => o.resumes = false) w' := by
  unfold RejectsUnchanged
  rw [eval_bind_ok heval, along_bind]
  constructor
  · intro h e w'' hraise halong
    refine hchanged e w'' hraise halong (h e w'' hraise ⟨hquiet.along w, ?_⟩).1
    intro b v hb
    rw [heval] at hb
    cases hb
    exact halong
  · intro h e w'' hraise halong
    exact absurd (halong.2 a w' heval) (h e w'' hraise)

end Programs

/-! ## The operations of the lifecycle -/

/-- The repository accepts a write of the lifecycle's coordinator. -/
def Admitted (lc : FlowLifecycle) (r : InMemoryFlowRepository) (runId : UUID) (now : Time) : Prop :=
  ∃ token, lc.executionTokenFor runId = .ok token ∧
    r.validateExecutionToken runId token now = .ok ()

theorem admitted_congr {lc : FlowLifecycle} {r r' : InMemoryFlowRepository} {runId : UUID}
    {now : Time} (h : r'.leases runId = r.leases runId) :
    Admitted lc r' runId now ↔ Admitted lc r runId now := by
  unfold Admitted InMemoryFlowRepository.validateExecutionToken
  rw [h]

section Lifecycle

variable {env : FlowEnv} {lc : FlowLifecycle} {runId : UUID} {w : FlowWorld} {s : FlowRunState}

theorem read_eval (hstored : w.repo.states runId = some s) (reader : Reader) :
    (FlowLifecycle.read reader runId).eval env.exec w = (.ok s, ⟨w.repo, w.steps + 1⟩) := by
  show (Prog.ofExcept (env.exec (.get reader runId) w).1).eval env.exec _ = _
  rw [FlowEnv.exec_get hstored reader]
  rfl

theorem ofExcept_only {α : Type} (x : Except FlowError α) (A : FlowOp → Prop) :
    (Prog.ofExcept x : FlowProg α).Only A := by
  cases x with
  | ok a => trivial
  | error e => trivial

theorem read_only (reader : Reader) (runId : UUID) :
    (FlowLifecycle.read reader runId).Only fun o => o.resumes = false :=
  ⟨rfl, fun r => ofExcept_only r _⟩

theorem transact_only (reader : Reader) (runId : UUID)
    (transition : FlowRunState → Except FlowError Transition) :
    (lc.transact reader runId transition).Only fun o => o.resumes = false := by
  unfold FlowLifecycle.transact
  apply (read_only reader runId).bind
  intro current
  apply (ofExcept_only _ _).bind
  intro t
  apply (ofExcept_only _ _).bind
  intro token
  exact ⟨rfl, fun r => (ofExcept_only r _).bind fun _ => trivial⟩

variable {transition : FlowRunState → Except FlowError Transition} {t : Transition}

theorem commit_replacement {token : Option UUID} {now : Time}
    (hstored : w.repo.states runId = some s) (hown : s.runId = runId) (hdrafts : t.drafts ≠ [])
    (hnext : Succeeds s t.state) :
    w.repo.commit now t.state s.revision t.drafts token =
      match w.repo.validateExecutionToken runId token now with
      | .error e => (.error e, w.repo)
      | .ok () => (.ok (w.repo.persisted runId t.drafts),
          w.repo.write t.state (w.repo.persisted runId t.drafts)) := by
  have hid : t.state.runId = runId := hnext.own.trans hown
  have hreplace : validateFlowReplacement s t.state s.revision = .ok () := by
    unfold validateFlowReplacement
    obtain ⟨h₁, h₂, h₃, h₄, h₅, h₆⟩ := hnext.identity
    simp [hnext.own, hnext.revision, h₁, h₂, h₃, h₄, h₅, h₆]
  have hsome : t.drafts.isEmpty = false := by simpa using hdrafts
  unfold InMemoryFlowRepository.commit
  cases hvalid : w.repo.validateExecutionToken runId token now with
  | error e => simp [hid, hstored, hsome, hvalid]
  | ok u => simp [hid, hstored, hreplace, hsome, hvalid]

theorem transact_admitted (hstored : w.repo.states runId = some s) (hown : s.runId = runId)
    (ht : transition s = .ok t) (hdrafts : t.drafts ≠ []) (hnext : Succeeds s t.state)
    (hlease : t.leaseRun = runId) (reader : Reader)
    (h : Admitted lc w.repo runId (env.repositoryClock (w.steps + 1))) :
    (lc.transact reader runId transition).eval env.exec w =
      (.ok t.state, ⟨w.repo.write t.state (w.repo.persisted runId t.drafts), w.steps + 2⟩) := by
  obtain ⟨token, htoken, haccepted⟩ := h
  unfold FlowLifecycle.transact
  rw [bind_eq, eval_bind_ok (read_eval hstored reader), ht]
  show ((Prog.ofExcept (lc.executionTokenFor t.leaseRun) : FlowProg _).bind _).eval env.exec _ = _
  rw [hlease, htoken]
  have hexec : env.exec (.commit t.state s.revision t.drafts token) ⟨w.repo, w.steps + 1⟩ =
      (.ok (w.repo.persisted runId t.drafts),
        ⟨w.repo.write t.state (w.repo.persisted runId t.drafts), w.steps + 2⟩) := by
    show ((w.repo.commit _ _ _ _ _).1, (⟨(w.repo.commit _ _ _ _ _).2, _⟩ : FlowWorld)) = _
    rw [commit_replacement hstored hown hdrafts hnext, haccepted]
    rfl
  show (Prog.bind (Prog.ofExcept (env.exec (.commit t.state s.revision t.drafts token) _).1) _).eval
    env.exec _ = _
  rw [hexec]
  rfl

variable (env lc) in
theorem transact_barred (hstored : w.repo.states runId = some s) (hown : s.runId = runId)
    (ht : transition s = .ok t) (hdrafts : t.drafts ≠ []) (hnext : Succeeds s t.state)
    (hlease : t.leaseRun = runId) (reader : Reader)
    (h : ¬ Admitted lc w.repo runId (env.repositoryClock (w.steps + 1))) :
    ∃ e w', (lc.transact reader runId transition).eval env.exec w = (.error e, w') ∧
      w'.repo = w.repo := by
  unfold FlowLifecycle.transact
  rw [bind_eq, eval_bind_ok (read_eval hstored reader), ht]
  show ∃ e w', ((Prog.ofExcept (lc.executionTokenFor t.leaseRun) : FlowProg _).bind _).eval
    env.exec _ = (.error e, w') ∧ w'.repo = w.repo
  rw [hlease]
  cases htoken : lc.executionTokenFor runId with
  | error e => exact ⟨e, _, rfl, rfl⟩
  | ok token =>
    cases haccepted : w.repo.validateExecutionToken runId token
        (env.repositoryClock (w.steps + 1)) with
    | ok u => exact absurd ⟨token, htoken, haccepted⟩ h
    | error e =>
      have hexec : env.exec (.commit t.state s.revision t.drafts token) ⟨w.repo, w.steps + 1⟩ =
          (.error e, ⟨w.repo, w.steps + 2⟩) := by
        show ((w.repo.commit _ _ _ _ _).1, (⟨(w.repo.commit _ _ _ _ _).2, _⟩ : FlowWorld)) = _
        rw [commit_replacement hstored hown hdrafts hnext, haccepted]
        rfl
      refine ⟨e, ⟨w.repo, w.steps + 2⟩, ?_, rfl⟩
      show (Prog.bind (Prog.ofExcept (env.exec (.commit t.state s.revision t.drafts token) _).1)
        _).eval env.exec _ = _
      rw [hexec]
      rfl

theorem record_only (runId : UUID) (invocation : AgentInvocation) (errorType : String) :
    (lc.recordCancellationPropagationFailure runId invocation errorType).Only
      fun o => o.resumes = false := by
  unfold FlowLifecycle.recordCancellationPropagationFailure
  apply (read_only _ runId).bind
  intro current
  apply (ofExcept_only _ _).bind
  intro token
  exact ⟨rfl, fun r => (ofExcept_only r _).bind fun _ => trivial⟩

variable (env lc) in
/-- The failed cancellation is recorded exactly when the repository accepts the write; the Run
stays as it is. -/
theorem record_eval (hstored : w.repo.states runId = some s) (invocation : AgentInvocation)
    (errorType : String) :
    ∃ outcome w', (lc.recordCancellationPropagationFailure runId invocation errorType).eval
        env.exec w = (outcome, w') ∧ w'.repo.states = w.repo.states ∧
      (outcome = .ok () ↔ Admitted lc w.repo runId (env.repositoryClock (w.steps + 1))) := by
  unfold FlowLifecycle.recordCancellationPropagationFailure
  rw [bind_eq, eval_bind_ok (read_eval hstored _)]
  show ∃ outcome w', ((Prog.ofExcept (lc.executionTokenFor runId) : FlowProg _).bind _).eval
    env.exec _ = (outcome, w') ∧ _
  cases htoken : lc.executionTokenFor runId with
  | error e =>
    refine ⟨.error e, _, rfl, rfl, ?_⟩
    constructor
    · exact fun h => nomatch h
    · intro h
      obtain ⟨token, hok, -⟩ := h
      rw [htoken] at hok
      cases hok
  | ok token =>
    have hexec : env.exec (.appendEvents runId s.revision
        [propagationFailureDraft invocation errorType s] token) ⟨w.repo, w.steps + 1⟩ =
        match w.repo.validateExecutionToken runId token (env.repositoryClock (w.steps + 1)) with
        | .error e => (.error e, ⟨w.repo, w.steps + 2⟩)
        | .ok () => (.ok (w.repo.persisted runId [propagationFailureDraft invocation errorType s]),
            ⟨w.repo.extend runId
              (w.repo.persisted runId [propagationFailureDraft invocation errorType s]),
              w.steps + 2⟩) := by
      show ((w.repo.appendEvents _ _ _ _ _).1, (⟨(w.repo.appendEvents _ _ _ _ _).2, _⟩ : FlowWorld)) = _
      unfold InMemoryFlowRepository.appendEvents
      simp only [hstored, List.isEmpty_cons, Bool.false_eq_true, if_false]
      cases w.repo.validateExecutionToken runId token (env.repositoryClock (w.steps + 1)) with
      | error e => rfl
      | ok u =>
        simp only [ne_eq, not_true_eq_false, if_false]
        rfl
    show ∃ outcome w', (Prog.bind (Prog.ofExcept (env.exec (.appendEvents runId s.revision
      [propagationFailureDraft invocation errorType s] token) _).1) _).eval env.exec _ =
        (outcome, w') ∧ _
    rw [hexec]
    cases haccepted : w.repo.validateExecutionToken runId token
        (env.repositoryClock (w.steps + 1)) with
    | error e =>
      refine ⟨.error e, _, rfl, rfl, ?_⟩
      constructor
      · exact fun h => nomatch h
      · intro h
        obtain ⟨other, hok, hvalid⟩ := h
        rw [htoken] at hok
        cases hok
        rw [haccepted] at hvalid
        cases hvalid
    | ok u =>
      refine ⟨.ok (), _, rfl, rfl, ?_⟩
      exact ⟨fun _ => ⟨token, htoken, haccepted⟩, fun _ => rfl⟩

end Lifecycle

/-! ## Cancelling the waiting Agent -/

section Propagation

variable {env : FlowEnv} {st : SequentialFlowStrategy} {runId : UUID} {w : FlowWorld}
variable {s : FlowRunState}

def cancellationOf (invocation : AgentInvocation) (reason : String) : AgentInvocationCancel :=
  { flowRunId := invocation.flowRunId
    invocationId := invocation.id
    agentKey := invocation.agentKey
    reason := reason }

/-- The cancellation of a waiting Agent, sent at step `n`, does not raise: it is accepted, or its
failure is recorded. -/
def Propagates (st : SequentialFlowStrategy) (env : FlowEnv) (r : InMemoryFlowRepository) (n : Nat)
    (invocation : AgentInvocation) (reason : String) : Prop :=
  if st.cancellable then
    match env.cancel n (cancellationOf invocation reason) with
    | none => True
    | some .cancelled => False
    | some _ => Admitted st.lifecycle r invocation.flowRunId (env.repositoryClock (n + 2))
  else Admitted st.lifecycle r invocation.flowRunId (env.repositoryClock (n + 1))

theorem propagate_only (invocation : AgentInvocation) (reason : String) :
    (st.propagateCancellation invocation reason).Only fun o => o.resumes = false := by
  unfold SequentialFlowStrategy.propagateCancellation
  simp only
  split
  · refine ⟨rfl, fun r => ?_⟩
    cases r with
    | none => trivial
    | some e => cases e <;> first | trivial | exact record_only _ _ _
  · exact record_only _ _ _

theorem propagates_congr {r r' : InMemoryFlowRepository} {n : Nat} {invocation : AgentInvocation}
    {reason : String} (h : r'.leases = r.leases) :
    Propagates st env r' n invocation reason ↔ Propagates st env r n invocation reason := by
  unfold Propagates
  simp only [admitted_congr (congrFun h invocation.flowRunId)]

variable (env st) in
theorem propagate_eval {invocation : AgentInvocation} (hstored : w.repo.states runId = some s)
    (hown : invocation.flowRunId = runId) (reason : String) :
    ∃ outcome w', (st.propagateCancellation invocation reason).eval env.exec w = (outcome, w') ∧
      w'.repo.states = w.repo.states ∧
      (outcome = .ok () ↔ Propagates st env w.repo w.steps invocation reason) := by
  subst hown
  unfold SequentialFlowStrategy.propagateCancellation Propagates
  simp only
  split
  · have hexec : env.exec (.cancel (cancellationOf invocation reason)) w =
        (env.cancel w.steps (cancellationOf invocation reason), ⟨w.repo, w.steps + 1⟩) := rfl
    have hlater : (⟨w.repo, w.steps + 1⟩ : FlowWorld).repo.states invocation.flowRunId = some s :=
      hstored
    cases hanswer : env.cancel w.steps (cancellationOf invocation reason) with
    | none =>
      refine ⟨.ok (), ⟨w.repo, w.steps + 1⟩, ?_, rfl, by simp⟩
      unfold Prog.eval
      unfold cancellationOf at hexec hanswer
      rw [hexec, hanswer]
      rfl
    | some e =>
      obtain ⟨outcome, w', heval, hstates, hiff⟩ := record_eval env st.lifecycle hlater invocation
        e.typeName
      unfold cancellationOf at hexec hanswer
      unfold Prog.eval
      rw [hexec, hanswer]
      cases e with
      | cancelled => exact ⟨.error .cancelled, ⟨w.repo, w.steps + 1⟩, rfl, rfl, by simp⟩
      | _ => exact ⟨outcome, w', heval, hstates, hiff⟩
  · exact record_eval env st.lifecycle hstored invocation _

end Propagation

/-! ## The two commits -/

section Commits

variable {runId : UUID} {s : FlowRunState} {active : AgentInvocation}

theorem waiting_resumes (runId : UUID) (hwaiting : s.status = .waiting)
    (hactive : s.activeInvocation = some active) (hstatus : active.status = .waiting) :
    ∃ t, resumeTransition runId active.id s = .ok t ∧ t.drafts ≠ [] ∧ Succeeds s t.state ∧
      t.leaseRun = runId := by
  have hresume : active.resume = .ok { active with status := .running } := by
    unfold AgentInvocation.resume
    simp [hstatus]
  have hok : s.resumeInvocation active.id = .ok { s.evolve with
      status := .running
      invocations := s.replaceInvocation { active with status := .running } } := by
    simp only [FlowRunState.resumeInvocation, Except.bind_ok, raiseIf_ok,
      FlowRunState.requireActive_ok]
    exact ⟨(), by simp [hwaiting], active, hactive, (), by simp, _, hresume, rfl⟩
  have hfound : FlowRunState.activeInvocation { s.evolve with
      status := .running
      invocations := s.replaceInvocation { active with status := .running } } =
        some { active with status := .running } :=
    FlowRunState.replaced_active hactive rfl rfl (FlowRunState.activeInvocation_id hactive).1
  unfold resumeTransition
  simp only [hok, Except.bind_ok]
  exact ⟨_, ⟨_, rfl, _, orRaise_ok.mpr hfound, rfl⟩, by simp,
    ⟨rfl, rfl, rfl, rfl, rfl, rfl, rfl, rfl⟩, rfl⟩

theorem terminateTransition_leaseRun {ending : Termination} {error : String}
    {metadata : List (String × JsonValue)} {t : Transition}
    (h : terminateTransition runId ending error metadata s = .ok t) : t.leaseRun = runId := by
  simp only [terminateTransition, Except.bind_ok] at h
  obtain ⟨state, -, drafts, -, ht⟩ := h
  cases ht
  rfl

theorem sum_replaced {terminated : AgentInvocation} {key : String}
    (hcount : terminated.resultCount key = 0) (invocations : List AgentInvocation) :
    ((invocations.map fun inv => if inv.id = terminated.id then terminated else inv).map
        (·.resultCount key)).sum =
      ((invocations.filter fun inv => inv.id ≠ terminated.id).map (·.resultCount key)).sum := by
  induction invocations with
  | nil => rfl
  | cons inv rest ih =>
    by_cases hid : inv.id = terminated.id
    · simp only [List.map_cons, if_pos hid, List.sum_cons, hcount, zero_add, ih]
      rw [List.filter_cons_of_neg (by simpa using hid)]
    · rw [List.filter_cons_of_pos (by simpa using hid)]
      simp only [List.map_cons, if_neg hid, List.sum_cons, ih]

theorem counted_terminated {error : String} {invocations : List AgentInvocation}
    {status : RunStatus} (hactive : s.activeInvocation = some active)
    (h : s.terminateActive status error = .ok invocations) :
    Counted invocations ↔ Counted (s.invocations.filter fun inv => inv.id ≠ active.id) := by
  unfold FlowRunState.terminateActive at h
  simp only [hactive, Except.bind_ok] at h
  obtain ⟨terminated, hterminate, hlist⟩ := h
  obtain ⟨-, hcounts⟩ := FlowRunState.terminated_counts hterminate
  obtain ⟨-, hid, -⟩ := AgentInvocation.terminate_ok hterminate
  have hlist : invocations = s.replaceInvocation terminated := (Except.ok.inj hlist).symm
  rw [← hid]
  unfold Counted
  rw [hlist]
  unfold FlowRunState.replaceInvocation
  rw [sum_replaced (hcounts _), sum_replaced (hcounts _)]

theorem flowResult_uncounted (hwaiting : s.status ≠ .waiting) (h : ¬ Counted s.invocations) :
    ∃ e, flowResult s = .error e := by
  unfold flowResult
  simp only [if_neg hwaiting]
  show ∃ e, FlowResult.validate _ = .error e
  unfold FlowResult.validate
  by_cases hmodel : s.modelCallCount < 0
  · rw [if_pos hmodel]
    exact ⟨_, rfl⟩
  · rw [if_neg hmodel]
    by_cases htool : s.toolCallCount < 0
    · rw [if_pos htool]
      exact ⟨_, rfl⟩
    · exact absurd ⟨not_lt.mp hmodel, not_lt.mp htool⟩ h

end Commits

/-! ## Resumptions -/

section Resumptions

variable {env : FlowEnv} {st : SequentialFlowStrategy} {definition : FlowDefinition} {runId : UUID}
variable {w : FlowWorld} {s : FlowRunState} {active : AgentInvocation}

theorem write_states_ne {s' : FlowRunState} (hown : s.runId = runId) (hnext : Succeeds s s')
    (r : InMemoryFlowRepository) (added : List RuntimeEvent) :
    (r.write s' added).states runId ≠ some s := by
  have hstates : (r.write s' added).states runId = some s' := by
    show Function.update r.states s'.runId (some s') runId = some s'
    rw [hnext.own.trans hown, Function.update_self]
  rw [hstates]
  intro heq
  have hrevision := hnext.revision
  rw [Option.some.inj heq] at hrevision
  omega

/-- A Flow that is ended for its budget raises nothing when the Agent can be cancelled and the
result can be built. -/
theorem reachBudgetLimit_rejects (hstored : w.repo.states runId = some s) (hown : s.runId = runId)
    (hvalid : s.Valid) (hwaiting : s.status = .waiting) (hactive : s.activeInvocation = some active)
    (hstatus : active.status = .waiting) (v : FlowBudgetExceeded) :
    RejectsUnchanged env runId (st.reachBudgetLimit runId v) w ↔
      (Admitted st.lifecycle w.repo runId (env.repositoryClock (w.steps + 2)) →
        Propagates st env w.repo (w.steps + 3) active v.message ∧
          Counted (s.invocations.filter fun inv => inv.id ≠ active.id)) := by
  have hmessage : isBlank v.message = false := by
    unfold FlowBudgetExceeded.message
    simp only [isBlank_append]
    rfl
  have hlive : s.status.terminal = false := by
    rw [hwaiting]
    rfl
  have hopen : ∀ other, s.activeInvocation = some other → other.status.terminal = false := by
    intro other hother
    rw [hactive] at hother
    cases hother
    rw [hstatus]
    rfl
  obtain ⟨t, ht, hdrafts, hnext, htvalid, htstatus, htlist⟩ :=
    terminates runId hvalid hlive .reachLimit hmessage [("budget", v.dump)] hopen
  have hlease := terminateTransition_leaseRun ht
  unfold SequentialFlowStrategy.reachBudgetLimit FlowLifecycle.get
  rw [bind_eq, rejectsUnchanged_bind (read_eval hstored _) (read_only _ _) rfl,
    if_neg (by simp [hlive]), bind_eq, hactive]
  have hlater : (⟨w.repo, w.steps + 1⟩ : FlowWorld).repo.states runId = some s := hstored
  by_cases hadmitted : Admitted st.lifecycle w.repo runId (env.repositoryClock (w.steps + 2))
  · have heval : (st.lifecycle.reachLimit runId v.message [("budget", v.dump)]).eval env.exec
        ⟨w.repo, w.steps + 1⟩ = _ :=
      transact_admitted hlater hown ht hdrafts hnext hlease .terminate hadmitted
    have hflowRun : active.flowRunId = runId := by
      rw [← hown]
      exact hvalid.owned active (FlowRunState.activeInvocation_id hactive).2
    have hreplaced : (w.repo.write t.state (w.repo.persisted runId t.drafts)).states runId =
        some t.state := by
      show Function.update w.repo.states t.state.runId (some t.state) runId = some t.state
      rw [hnext.own.trans hown, Function.update_self]
    obtain ⟨outcome, w', hpropagated, hstates, hiff⟩ := propagate_eval env st
      (show (⟨w.repo.write t.state (w.repo.persisted runId t.drafts), w.steps + 3⟩ :
        FlowWorld).repo.states runId = some t.state from hreplaced) hflowRun v.message
    have hadmits : Propagates st env (w.repo.write t.state (w.repo.persisted runId t.drafts))
        (w.steps + 3) active v.message ↔
        Propagates st env w.repo (w.steps + 3) active v.message := propagates_congr rfl
    have hquiet : ((st.propagateCancellation active v.message).bind fun _ =>
        Prog.ofExcept (flowResult t.state)).Only fun o => o.resumes = false :=
      (propagate_only active v.message).bind fun _ => ofExcept_only _ _
    have hterminal : t.state.status ≠ .waiting := by
      rw [htstatus]
      exact fun heq => nomatch heq
    rw [rejectsUnchanged_changed heval (transact_only _ _ _)]
    · simp only [SequentialFlowStrategy.propagateIf, hstatus, decide_true, if_true, bind_eq]
      rw [← counted_terminated hactive htlist]
      constructor
      · intro hraises _
        have hok : outcome = .ok () := by
          cases outcome with
          | ok u => rfl
          | error e => exact absurd (hquiet.along _) (hraises e w' (eval_bind_error hpropagated))
        refine ⟨hadmits.mp (hiff.mp hok), ?_⟩
        by_contra huncounted
        obtain ⟨e, he⟩ := flowResult_uncounted hterminal huncounted
        refine hraises e w' ?_ (hquiet.along _)
        rw [hok] at hpropagated
        rw [eval_bind_ok hpropagated, he]
        rfl
      · intro hreported e w'' hraise
        obtain ⟨hpropagates, hcounted⟩ := hreported hadmitted
        obtain ⟨result, hresult⟩ := flowResult_ended htvalid (by rw [htstatus]; rfl) hcounted
        rw [hiff.mpr (hadmits.mpr hpropagates)] at hpropagated
        rw [eval_bind_ok hpropagated, hresult] at hraise
        cases hraise
    · simp only [SequentialFlowStrategy.propagateIf, hstatus, decide_true, if_true, bind_eq]
      intro e w'' hraise _
      have hkept : w''.repo.states = w'.repo.states := by
        cases outcome with
        | error e' =>
          rw [eval_bind_error hpropagated] at hraise
          cases hraise
          rfl
        | ok u =>
          rw [eval_bind_ok hpropagated] at hraise
          cases hresult : flowResult t.state with
          | ok result =>
            rw [hresult] at hraise
            cases hraise
          | error e' =>
            rw [hresult] at hraise
            cases hraise
            rfl
      rw [hkept, hstates, hlater]
      exact write_states_ne hown hnext _ _
  · obtain ⟨e, w', heval, hsame⟩ := transact_barred env st.lifecycle hlater hown ht hdrafts
      hnext hlease .terminate hadmitted
    exact ⟨fun _ h => absurd h hadmitted, fun _ => rejectsUnchanged_error heval hsame⟩

/-- The resumption passes its checks and claims the waiting invocation. -/
structure Claims (st : SequentialFlowStrategy) (env : FlowEnv) (w : FlowWorld) (runId : UUID)
    (definition : FlowDefinition) (s : FlowRunState) : Prop where
  supported : definition.strategy = "sequential"
  matching : s.matchesDefinition definition = true
  within : FlowBudgetPolicy.beforeTransport s (env.clock (w.steps + 1)) false = .ok none
  admitted : Admitted st.lifecycle w.repo runId (env.repositoryClock (w.steps + 3))

/-- The resumption finds the budget used up and ends the Flow. -/
structure Exhausts (st : SequentialFlowStrategy) (env : FlowEnv) (w : FlowWorld) (runId : UUID)
    (definition : FlowDefinition) (s : FlowRunState) (v : FlowBudgetExceeded) : Prop where
  supported : definition.strategy = "sequential"
  matching : s.matchesDefinition definition = true
  reached : FlowBudgetPolicy.beforeTransport s (env.clock (w.steps + 1)) false = .ok (some v)
  admitted : Admitted st.lifecycle w.repo runId (env.repositoryClock (w.steps + 4))

/-- The end of a Flow whose budget is used up can be reported: the waiting Agent can be cancelled,
and the counts of the other invocations are not negative. -/
structure Reported (st : SequentialFlowStrategy) (env : FlowEnv) (w : FlowWorld) (s : FlowRunState)
    (active : AgentInvocation) (v : FlowBudgetExceeded) : Prop where
  propagates : Propagates st env w.repo (w.steps + 5) active v.message
  counted : Counted (s.invocations.filter fun inv => inv.id ≠ active.id)

def resumptionOf (runId : UUID) (active : AgentInvocation) (userInput : Option String)
    (confirmation : Option ToolConfirmation) : AgentInvocationResume :=
  { flowRunId := runId
    invocationId := active.id
    agentKey := active.agentKey
    userInput := userInput
    confirmation := confirmation }

/-- After the claim only a request that does not pass its validation raises before the invoker is
asked. -/
theorem claim_rejects (hstored : w.repo.states runId = some s) (hown : s.runId = runId)
    (hwaiting : s.status = .waiting) (hactive : s.activeInvocation = some active)
    (hstatus : active.status = .waiting) (request : AgentInvocationResume)
    (remaining : Time → Option ℚ) (k : Transported → FlowProg FlowResult) :
    RejectsUnchanged env runId ((st.lifecycle.resumeInvocation runId active.id).bind fun _ =>
        (Prog.ofExcept request.validate).bind fun checked =>
          SequentialFlowStrategy.clock.bind fun now => .call (.resume checked (remaining now)) k) w ↔
      (Admitted st.lifecycle w.repo runId (env.repositoryClock (w.steps + 1)) →
        ∃ checked, request.validate = .ok checked) := by
  obtain ⟨t, ht, hdrafts, hnext, hlease⟩ := waiting_resumes runId hwaiting hactive hstatus
  by_cases hadmitted : Admitted st.lifecycle w.repo runId (env.repositoryClock (w.steps + 1))
  · have heval : (st.lifecycle.resumeInvocation runId active.id).eval env.exec w = _ :=
      transact_admitted hstored hown ht hdrafts hnext hlease .resumeInvocation hadmitted
    rw [rejectsUnchanged_changed heval (transact_only _ _ _)]
    · cases hchecked : request.validate with
      | ok checked =>
        refine ⟨fun _ _ => ⟨checked, rfl⟩, fun _ e w'' _ halong => ?_⟩
        have hasked : (FlowOp.resume checked (remaining _)).resumes = false := halong.2.1
        cases hasked
      | error e =>
        constructor
        · intro hraises
          exact absurd trivial (hraises e _ rfl)
        · intro hok
          obtain ⟨checked, hchecked⟩ := hok hadmitted
          cases hchecked
    · intro e w'' hraise halong
      cases hchecked : request.validate with
      | ok checked =>
        rw [hchecked] at halong
        have hasked : (FlowOp.resume checked (remaining _)).resumes = false := halong.2.1
        cases hasked
      | error e' =>
        rw [hchecked] at hraise
        cases hraise
        rw [hstored]
        exact write_states_ne hown hnext _ _
  · obtain ⟨e, w', heval, hsame⟩ := transact_barred env st.lifecycle hstored hown ht hdrafts hnext
      hlease .resumeInvocation hadmitted
    exact ⟨fun _ h => absurd h hadmitted, fun _ => rejectsUnchanged_error heval hsame⟩

/-- A resumption keeps what is stored when it raises, unless the request is refused after the claim
or the end of an exhausted Flow cannot be reported. -/
theorem resumeWaiting_rejects (hstored : w.repo.states runId = some s) (hown : s.runId = runId)
    (hvalid : s.Valid) (hwaiting : s.status = .waiting) (hactive : s.activeInvocation = some active)
    (userInput : Option String) (confirmation : Option ToolConfirmation) :
    RejectsUnchanged env runId (st.resumeWaiting definition runId userInput confirmation) w ↔
      (Claims st env w runId definition s →
        ∃ request, (resumptionOf runId active userInput confirmation).validate = .ok request) ∧
      ∀ v, Exhausts st env w runId definition s v → Reported st env w s active v := by
  have hstatus : active.status = .waiting := by
    obtain ⟨other, hother, hstatus⟩ := hvalid.agrees.waiting hwaiting
    rw [hactive] at hother
    cases hother
    exact hstatus
  unfold SequentialFlowStrategy.resumeWaiting
  by_cases hsupported : definition.strategy = "sequential"
  · have hchecked : (Prog.ofExcept (SequentialFlowStrategy.requireSupported definition) :
        FlowProg Unit).eval env.exec w = (.ok (), w) := by
      unfold SequentialFlowStrategy.requireSupported
      simp [hsupported, raiseIf]
      rfl
    rw [bind_eq, rejectsUnchanged_bind hchecked (ofExcept_only _ _) rfl]
    unfold FlowLifecycle.get
    rw [bind_eq, rejectsUnchanged_bind (read_eval hstored _) (read_only _ _) rfl]
    by_cases hmatching : s.matchesDefinition definition = true
    · have hmatched : (Prog.ofExcept (SequentialFlowStrategy.requireDefinition s definition) :
          FlowProg Unit).eval env.exec ⟨w.repo, w.steps + 1⟩ = (.ok (), ⟨w.repo, w.steps + 1⟩) := by
        unfold SequentialFlowStrategy.requireDefinition
        simp [hmatching, raiseIf]
        rfl
      have hclock : (SequentialFlowStrategy.clock).eval env.exec ⟨w.repo, w.steps + 1⟩ =
          (.ok (env.clock (w.steps + 1)), ⟨w.repo, w.steps + 2⟩) := rfl
      rw [bind_eq, rejectsUnchanged_bind hmatched (ofExcept_only _ _) rfl, bind_eq,
        rejectsUnchanged_bind hclock ⟨rfl, fun _ => trivial⟩ rfl]
      have hlater : (⟨w.repo, w.steps + 2⟩ : FlowWorld).repo.states runId = some s := hstored
      cases hbudget : FlowBudgetPolicy.beforeTransport s (env.clock (w.steps + 1)) false with
      | error e =>
        refine ⟨fun _ => ⟨fun h => ?_, fun v h => ?_⟩, fun _ => rejectsUnchanged_error rfl rfl⟩
        · have hwithin := h.within
          rw [hbudget] at hwithin
          cases hwithin
        · have hreached := h.reached
          rw [hbudget] at hreached
          cases hreached
      | ok violation =>
        rw [Prog.ofExcept_ok, bind_eq, ret_bind]
        cases violation with
        | some v =>
          simp only
          rw [hown, reachBudgetLimit_rejects hlater hown hvalid hwaiting hactive hstatus v]
          constructor
          · intro hreports
            refine ⟨fun h => ?_, fun v' h => ?_⟩
            · have hwithin := h.within
              rw [hbudget] at hwithin
              cases hwithin
            · have hreached := h.reached
              rw [hbudget] at hreached
              cases hreached
              obtain ⟨hpropagates, hcounted⟩ := hreports h.admitted
              exact ⟨hpropagates, hcounted⟩
          · intro h hadmitted
            have hreported := h.2 v ⟨hsupported, hmatching, hbudget, hadmitted⟩
            exact ⟨hreported.propagates, hreported.counted⟩
        | none =>
          simp only [hactive, orRaise, Prog.ofExcept_ok, bind_eq, ret_bind]
          refine (claim_rejects hlater hown hwaiting hactive hstatus
            (resumptionOf runId active userInput confirmation)
            (FlowBudgetPolicy.remainingSeconds s)
            (st.afterTransport s runId active.agentKey "resume" "Sequential Flow resume cancelled"
              fun settled result => st.advance definition
                { prompt := active.input.prompt, attachments := active.input.attachments }
                definition.agents.length settled (some result))).trans ?_
          constructor
          · intro hclaims
            refine ⟨fun h => hclaims h.admitted, fun v h => ?_⟩
            have hreached := h.reached
            rw [hbudget] at hreached
            cases hreached
          · intro h hadmitted
            exact h.1 ⟨hsupported, hmatching, hbudget, hadmitted⟩
    · refine ⟨fun _ => ⟨fun h => absurd h.matching hmatching, fun v h => absurd h.matching hmatching⟩,
        fun _ => ?_⟩
      have hrefused : SequentialFlowStrategy.requireDefinition s definition =
          .error (.value "FlowDefinition does not match this Flow Run") := by
        unfold SequentialFlowStrategy.requireDefinition raiseIf
        simp [hmatching]
      rw [hrefused, bind_eq]
      exact rejectsUnchanged_error rfl rfl
  · refine ⟨fun _ => ⟨fun h => absurd h.supported hsupported, fun v h => absurd h.supported hsupported⟩,
      fun _ => ?_⟩
    obtain ⟨e, he⟩ := requireSupported_error hsupported
    rw [he, bind_eq]
    exact rejectsUnchanged_error rfl rfl

/-- A resumption of a waiting Run that raises before the invoker is asked leaves the Run and its
events as they were, unless an empty input is refused after the claim, or the Flow was ended for
its budget and that cannot be reported. -/
theorem rejected_resumption_unchanged (st : SequentialFlowStrategy) (env : FlowEnv) (w : FlowWorld)
    (runId : UUID) (definition : FlowDefinition) (s : FlowRunState) (active : AgentInvocation)
    (hstored : w.repo.states runId = some s) (hown : s.runId = runId) (hvalid : s.Valid)
    (hwaiting : s.status = .waiting) (hactive : s.activeInvocation = some active) :
    (∀ userInput, RejectsUnchanged env runId (st.resume definition runId userInput) w ↔
      (Claims st env w runId definition s → userInput ≠ "") ∧
        ∀ v, Exhausts st env w runId definition s v → Reported st env w s active v) ∧
    ∀ confirmation, RejectsUnchanged env runId (st.confirm definition runId confirmation) w ↔
      ∀ v, Exhausts st env w runId definition s v → Reported st env w s active v := by
  constructor
  · intro userInput
    unfold SequentialFlowStrategy.resume
    rw [resumeWaiting_rejects hstored hown hvalid hwaiting hactive]
    have hchecked : (∃ request, (resumptionOf runId active (some userInput) none).validate =
        .ok request) ↔ userInput ≠ "" := by
      unfold AgentInvocationResume.validate resumptionOf
      by_cases hempty : userInput = ""
      · simp [hempty]
      · simp [hempty]
    rw [hchecked]
  · intro confirmation
    unfold SequentialFlowStrategy.confirm
    rw [resumeWaiting_rejects hstored hown hvalid hwaiting hactive]
    have hchecked : ∃ request, (resumptionOf runId active none (some confirmation)).validate =
        .ok request := by
      unfold AgentInvocationResume.validate resumptionOf
      simp
    exact ⟨fun h => h.2, fun h => ⟨fun _ => hchecked, h⟩⟩

end Resumptions

theorem askedRun_waits : ∃ s active, (soloRun askingEnv).2.repo.states 7 = some s ∧ s.runId = 7 ∧
    s.Valid ∧ s.status = .waiting ∧ s.activeInvocation = some active := by
  have hconducted : Conducted {} askingEnv 7 (soloRun askingEnv).2 :=
    .run soloDefinition _ (some 7) rfl rfl rfl
  obtain ⟨init, active, hinside⟩ := hconducted.parked asking_undisturbed rfl _ rfl rfl
  exact ⟨_, active, rfl, rfl, hinside.valid, rfl, hinside.found⟩

-- An answer that is not empty.
theorem rejected_resumption_unchanged_asked :
    RejectsUnchanged askingEnv 7 (SequentialFlowStrategy.resume {} soloDefinition 7 "the first")
      (soloRun askingEnv).2 := by
  obtain ⟨s, active, hstored, hown, hvalid, hwaiting, hactive⟩ := askedRun_waits
  refine ((rejected_resumption_unchanged {} askingEnv (soloRun askingEnv).2 7 soloDefinition s active
    hstored hown hvalid hwaiting hactive).1 "the first").mpr ⟨fun _ => by decide, ?_⟩
  intro v hexhausts
  have hreached := hexhausts.reached
  cases hstored
  cases hreached

/-- An empty answer is refused after the waiting invocation was claimed, and the Run is left
running. -/
theorem rejected_resumption_changes :
    ¬ ∀ (st : SequentialFlowStrategy) (env : FlowEnv) (w : FlowWorld) (runId : UUID)
      (definition : FlowDefinition) (userInput : String) (s : FlowRunState),
      w.repo.states runId = some s → s.runId = runId → s.Valid → s.status = .waiting →
      RejectsUnchanged env runId (st.resume definition runId userInput) w := by
  intro h
  obtain ⟨s, active, hstored, hown, hvalid, hwaiting, -⟩ := askedRun_waits
  have hunchanged := h {} askingEnv (soloRun askingEnv).2 7 soloDefinition "" s hstored hown hvalid
    hwaiting _ _ rfl ⟨rfl, rfl, rfl, rfl, trivial⟩
  have hstatus := congrArg (Option.map (·.status)) hunchanged.1
  revert hstatus
  intro hstatus
  cases hstatus

end Flows
end BaseAgent

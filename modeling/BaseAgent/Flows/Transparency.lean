import BaseAgent.Async.Observer
import BaseAgent.Flows.Straight

/-!
# Suspensions do not show

A resumption rebuilds the input of the Flow, its position and the last result from the stored Run.
Whatever the Agents that wait on the way, the requests that are sent are those of the Agents in
declaration order, each with the handoff of the one before, and the result of the Flow is made of
the final results of the Agents that were started.
-/

namespace BaseAgent
namespace Flows

open Async Prog

/-! ## An execution with suspensions -/

inductive FlowAnswer where
  | resume (userInput : String)
  | confirm (confirmation : ToolConfirmation)

namespace SequentialFlowStrategy

variable (st : SequentialFlowStrategy)

def answer (definition : FlowDefinition) (runId : UUID) : FlowAnswer → FlowProg FlowResult
  | .resume userInput => st.resume definition runId userInput
  | .confirm confirmation => st.confirm definition runId confirmation

def answerAll (definition : FlowDefinition) : List FlowAnswer → FlowResult → FlowProg FlowResult
  | [], result => return result
  | given :: rest, result =>
    if result.status = .waiting then do
      let next ← st.answer definition result.runId given
      answerAll definition rest next
    else return result

def drive (definition : FlowDefinition) (input : FlowInput) (runId : Option UUID)
    (answers : List FlowAnswer) : FlowProg FlowResult := do
  let result ← st.run definition input runId
  st.answerAll definition answers result

theorem drive_nil (definition : FlowDefinition) (input : FlowInput) (runId : Option UUID) :
    st.drive definition input runId [] = st.run definition input runId := bind_ret _

end SequentialFlowStrategy

/-- The invoker answers for the invocation with the final result of its Agent, or with one that
waits when `waits`. -/
def AnswersFor (finals : Finals) (waits : Prop) (runId invocationId : UUID) (agentKey : String)
    (t : Transported) : Prop :=
  ∃ r, t = .result r ∧ r.flowRunId = runId ∧ r.invocationId = invocationId ∧
    r.agentKey = agentKey ∧
    ((r.status = .waiting ∧ waits) ∨ r.anonymous = (finals agentKey).anonymous)

/-- The Agents end with `finals`, and are suspended before only when `waits`. -/
structure AnswersWith (env : FlowEnv) (finals : Finals) (waits : Prop) : Prop where
  invoke : ∀ n request remaining, AnswersFor finals waits request.flowRunId request.invocationId
    request.agentKey (env.invoke n request remaining)
  resume : ∀ n request remaining, AnswersFor finals waits request.flowRunId request.invocationId
    request.agentKey (env.resume n request remaining)
  final : ∀ key, (finals key).status ≠ .waiting

def ReportsBudget : FlowOp → Prop
  | .commit _ _ drafts _ => ∃ draft ∈ drafts, draft.type = .flowLimitReached ∧
      "budget" ∈ draft.data.map (·.1)
  | _ => False

instance : DecidablePred ReportsBudget
  | .commit _ _ drafts _ => inferInstanceAs (Decidable (∃ draft ∈ drafts,
      draft.type = .flowLimitReached ∧ "budget" ∈ draft.data.map (·.1)))
  | .create .. | .get .. | .appendEvents .. | .listEvents .. | .acquireExecution ..
  | .renewExecution .. | .releaseExecution .. | .clock | .uuid4 | .invoke .. | .resume ..
  | .cancel .. => inferInstanceAs (Decidable False)

def sent (log : List (Entry Unit FlowOp FlowOp.Ret)) : List AgentInvocationRequest :=
  log.filterMap fun entry =>
    match entry.op with
    | .invoke request _ => some request.anonymous
    | _ => none

def FlowOp.Silent : FlowOp → Prop
  | .invoke _ _ => False
  | _ => True

/-! ## Programs on the course -/

section Programs

variable {env : FlowEnv} {α β : Type}

abbrev FlowTrace := FlowWorld × List (Entry Unit FlowOp FlowOp.Ret)

structure Same (σ σ' : FlowTrace) : Prop where
  states : σ'.1.repo.states = σ.1.repo.states
  sent : sent σ'.2 = sent σ.2

variable {σ σ' σ'' : FlowTrace}

theorem sent_silent {o : FlowOp} (ho : o.Silent) (log : List (Entry Unit FlowOp FlowOp.Ret))
    (r : o.Ret) : sent (log ++ [⟨(), o, r⟩]) = sent log := by
  unfold sent
  rw [List.filterMap_append]
  cases o <;> first | exact ho.elim | exact List.append_nil _

abbrev watch (env : FlowEnv) : Observer FlowOp FlowOp.Ret FlowTrace :=
  Observer.barring env.exec ReportsBudget

/-- An operation that leaves the Runs as they are and starts no Agent. -/
theorem same_call {o : FlowOp} {k : o.Ret → FlowProg α} {Q : α → FlowTrace → Prop}
    {E : FlowError → FlowTrace → Prop} (ho : o.Silent)
    (hstates : ∀ w : FlowWorld, (env.exec o w).2.repo.states = w.repo.states)
    (hk : ∀ σ', Same σ σ' → (k (env.exec o σ.1).1).Meets (watch env) Q E σ') :
    (Prog.call o k).Meets (watch env) Q E σ :=
  Meets.barring_call fun _ => hk _ ⟨hstates σ.1, sent_silent ho _ _⟩

theorem same_clock {E : FlowError → FlowTrace → Prop} :
    SequentialFlowStrategy.clock.Meets (watch env) (fun _ σ' => Same σ σ') E σ :=
  same_call trivial (fun _ => rfl) fun _ h => h

theorem same_ofExcept (x : Except FlowError α) :
    (Prog.ofExcept x : FlowProg α).Meets (watch env) (fun a σ' => σ' = σ ∧ x = .ok a)
      (fun e σ' => σ' = σ ∧ x = .error e) σ :=
  Meets.ofExcept (fun _ h => ⟨rfl, h⟩) fun _ h => ⟨rfl, h⟩

theorem same_read (reader : Reader) (runId : UUID) :
    (FlowLifecycle.read reader runId).Meets (watch env)
      (fun s σ' => Same σ σ' ∧ σ.1.repo.states runId = some s) (fun _ σ' => Same σ σ') σ := by
  apply same_call (o := .get reader runId) trivial
  · intro w
    rw [FlowEnv.exec_get_repo]
  · intro σ' hsame
    cases hstored : σ.1.repo.states runId with
    | none =>
      rw [FlowEnv.exec_get_none hstored]
      exact hsame
    | some s =>
      rw [FlowEnv.exec_get hstored]
      exact ⟨hsame, rfl⟩

/-- Why an operation of the lifecycle raises what the strategy takes for a result that does not
fit. -/
def Refused (lc : FlowLifecycle) (s : FlowRunState)
    (transition : FlowRunState → Except FlowError Transition) (e : FlowError) : Prop :=
  transition s = .error e ∨ ∃ t, transition s = .ok t ∧
    (lc.executionTokenFor t.leaseRun = .error e ∨ t.drafts = [] ∨
      validateFlowReplacement s t.state s.revision ≠ .ok ())

theorem commit_refused {r : InMemoryFlowRepository} {now : Time} {state current : FlowRunState}
    {drafts : List FlowEventDraft} {token : Option UUID} {e : FlowError} {expected : Nat}
    (hstored : r.states state.runId = some current)
    (h : (r.commit now state expected drafts token).1 = .error e) (hvalue : e.isValueError = true) :
    drafts = [] ∨ validateFlowReplacement current state expected ≠ .ok () := by
  by_cases hdrafts : drafts = []
  · exact .inl hdrafts
  · right
    intro hok
    unfold InMemoryFlowRepository.commit at h
    rw [if_neg (by simpa using hdrafts), hstored] at h
    cases htoken : r.validateExecutionToken state.runId token now with
    | ok u =>
      rw [htoken] at h
      simp only [hok] at h
      cases h
    | error lost =>
      rw [htoken] at h
      cases h
      unfold InMemoryFlowRepository.validateExecutionToken at htoken
      split at htoken
      · split at htoken
        · cases htoken
          cases hvalue
        · cases htoken
      · split at htoken
        · cases htoken
          cases hvalue
        · cases htoken

theorem same_transact (lc : FlowLifecycle) (reader : Reader) {runId : UUID} {s : FlowRunState}
    {transition : FlowRunState → Except FlowError Transition}
    (hstored : σ.1.repo.states runId = some s) (hown : ∀ t, transition s = .ok t →
      t.state.runId = runId) :
    (lc.transact reader runId transition).Meets (watch env)
      (fun s' σ' => sent σ'.2 = sent σ.2 ∧ σ'.1.repo.states runId = some s' ∧
        ∃ t token, transition s = .ok t ∧ t.state = s' ∧
          lc.executionTokenFor t.leaseRun = .ok token)
      (fun e σ' => Same σ σ' ∧ (e.isValueError = true → Refused lc s transition e)) σ := by
  unfold FlowLifecycle.transact FlowLifecycle.read
  apply same_call (o := .get reader runId) trivial
  · intro w
    rw [FlowEnv.exec_get_repo]
  intro σ₁ hsame
  rw [FlowEnv.exec_get hstored]
  show ((Prog.ofExcept (transition s) : FlowProg _).bind _).Meets _ _ _ _
  cases htransition : transition s with
  | error e => exact ⟨hsame, fun _ => .inl htransition⟩
  | ok t =>
    show ((Prog.ofExcept (lc.executionTokenFor t.leaseRun) : FlowProg _).bind _).Meets _ _ _ _
    cases htoken : lc.executionTokenFor t.leaseRun with
    | error e => exact ⟨hsame, fun _ => .inr ⟨t, htransition, .inl htoken⟩⟩
    | ok token =>
      apply Meets.barring_call
      intro _
      have hstored₁ : σ₁.1.repo.states t.state.runId = some s := by
        rw [hown t htransition, hsame.states]
        exact hstored
      have hexec : env.exec (.commit t.state s.revision t.drafts token) σ₁.1 =
          ((σ₁.1.repo.commit (env.repositoryClock σ₁.1.steps) t.state s.revision t.drafts token).1,
            ⟨(σ₁.1.repo.commit (env.repositoryClock σ₁.1.steps) t.state s.revision t.drafts
              token).2, σ₁.1.steps + 1⟩) := rfl
      have hsent : ∀ r, sent (σ₁.2 ++ [⟨(), .commit t.state s.revision t.drafts token, r⟩]) =
          sent σ.2 := fun r =>
        (sent_silent (o := .commit t.state s.revision t.drafts token) trivial _ r).trans hsame.sent
      rcases σ₁.1.repo.commit_cases (env.repositoryClock σ₁.1.steps) t.state s.revision t.drafts
        token with ⟨e, hcommit⟩ | ⟨current, -, -, -, -, hcommit⟩
      · rw [hcommit] at hexec
        rw [hexec]
        refine ⟨⟨hsame.states, hsent _⟩, fun hvalue => .inr ⟨t, htransition, .inr ?_⟩⟩
        exact commit_refused hstored₁ (by rw [hcommit]) hvalue
      · rw [hcommit] at hexec
        rw [hexec]
        refine ⟨hsent _, ?_, t, token, rfl, rfl, htoken⟩
        show Function.update σ₁.1.repo.states t.state.runId (some t.state) runId = some t.state
        rw [hown t htransition, Function.update_self]

/-! ### What the strategy does when it cannot go on -/

variable (st : SequentialFlowStrategy)

/-- The requests that are sent are the first of those that are planned. -/
def Sent (c : Course) (m : Nat) (σ : FlowTrace) : Prop :=
  sent σ.2 = (planned c.definition c.input c.finals).take m

def Under (c : Course) (σ : FlowTrace) : Prop := ∃ m, Sent c m σ

theorem Sent.same {c : Course} {m : Nat} (h : Sent c m σ) (hsame : Same σ σ') : Sent c m σ' :=
  hsame.sent.trans h

theorem Sent.under {c : Course} {m : Nat} (h : Sent c m σ) : Under c σ := ⟨m, h⟩

section Sent

variable {c : Course} {m : Nat} (h : Sent c m σ)

include h

theorem Sent.ofExcept (x : Except FlowError α) :
    (Prog.ofExcept x : FlowProg α).Meets (watch env) (fun a σ' => σ' = σ ∧ x = .ok a)
      (fun _ => Under c) σ := by
  apply (same_ofExcept x).mono fun _ _ hok => hok
  intro e σ' herror
  rw [herror.1]
  exact h.under

theorem Sent.read (reader : Reader) (runId : UUID) :
    (FlowLifecycle.read reader runId).Meets (watch env)
      (fun s σ' => Same σ σ' ∧ σ.1.repo.states runId = some s) (fun _ => Under c) σ :=
  (same_read reader runId).mono (fun _ _ hread => hread) fun _ _ hsame => (h.same hsame).under

theorem Sent.transact (lc : FlowLifecycle) (reader : Reader) {runId : UUID} {s : FlowRunState}
    {transition : FlowRunState → Except FlowError Transition}
    (hstored : σ.1.repo.states runId = some s) (hown : ∀ t, transition s = .ok t →
      t.state.runId = runId) :
    (lc.transact reader runId transition).Meets (watch env)
      (fun s' σ' => Sent c m σ' ∧ σ'.1.repo.states runId = some s' ∧
        ∃ t token, transition s = .ok t ∧ t.state = s' ∧
          lc.executionTokenFor t.leaseRun = .ok token)
      (fun _ => Under c) σ := by
  apply (same_transact lc reader hstored hown).mono
  · intro s' σ' hpost
    exact ⟨hpost.1.trans h, hpost.2⟩
  · intro e σ' hpost
    exact (h.same hpost.1).under

end Sent

theorem terminate_runId {runId : UUID} {ending : Termination} {error : String}
    {metadata : List (String × JsonValue)} {s : FlowRunState} {t : Transition}
    (h : terminateTransition runId ending error metadata s = .ok t) :
    t.state.runId = s.runId ∧ t.leaseRun = runId ∧
      ⟨ending.flowEvent, [revisionField t.state,
        ("invocation_count", .int t.state.invocations.length)] ++ metadata⟩ ∈ t.drafts := by
  simp only [terminateTransition, Except.bind_ok] at h
  obtain ⟨state, hterminate, drafts, -, ht⟩ := h
  cases ht
  obtain ⟨-, -, invocations, -, hstate⟩ := FlowRunState.terminate_ok hterminate
  refine ⟨by rw [hstate]; rfl, rfl, ?_⟩
  simp

theorem Sent.terminate {c : Course} {m : Nat} (h : Sent c m σ) (lc : FlowLifecycle)
    {s : FlowRunState} (hstored : σ.1.repo.states s.runId = some s) (ending : Termination)
    (error : String) (metadata : List (String × JsonValue)) :
    (lc.terminate s.runId ending error metadata).Meets (watch env)
      (fun s' σ' => Sent c m σ' ∧ σ'.1.repo.states s.runId = some s' ∧
        ∃ t token, terminateTransition s.runId ending error metadata s = .ok t ∧ t.state = s' ∧
          lc.executionTokenFor s.runId = .ok token)
      (fun _ => Under c) σ := by
  have hown : ∀ t, terminateTransition s.runId ending error metadata s = .ok t →
      t.state.runId = s.runId := fun t ht => (terminate_runId ht).1
  apply (h.transact lc .terminate hstored hown).weaken
  intro s' σ' hpost
  obtain ⟨hsent, hnew, t, token, ht, hstate, htoken⟩ := hpost
  rw [(terminate_runId ht).2.1] at htoken
  exact ⟨hsent, hnew, t, token, ht, hstate, htoken⟩

theorem reachLimit_reports {s : FlowRunState} {c : Course} {m : Nat}
    {Q : FlowRunState → FlowTrace → Prop}
    (lc : FlowLifecycle) (hsent : Sent c m σ) (error : String) (violation : JsonValue) :
    (lc.reachLimit s.runId error [("budget", violation)]).Meets (watch env) Q (fun _ => Under c)
      σ := by
  unfold FlowLifecycle.reachLimit FlowLifecycle.terminate FlowLifecycle.transact
  apply (hsent.read .terminate s.runId).bind
  intro current σ₁ hread
  have hsent₁ := hsent.same hread.1
  apply (hsent₁.ofExcept _).bind
  intro t σ₂ ht
  obtain ⟨hsame, ht⟩ := ht
  obtain ⟨-, -, hdraft⟩ := terminate_runId ht
  rw [hsame]
  apply (hsent₁.ofExcept _).bind
  intro token σ₃ htoken
  rw [htoken.1]
  apply Meets.barring_call
  intro hsilent
  exact absurd ⟨_, hdraft, rfl, by simp⟩ hsilent

theorem reachBudgetLimit_reports {s : FlowRunState} {v : FlowBudgetExceeded} {c : Course} {m : Nat}
    {Q : FlowResult → FlowTrace → Prop} (hsent : Sent c m σ)
    (hstored : σ.1.repo.states s.runId = some s) (hlive : s.status.terminal = false) :
    (st.reachBudgetLimit s.runId v).Meets (watch env) Q (fun _ => Under c) σ := by
  unfold SequentialFlowStrategy.reachBudgetLimit
  apply (hsent.read .reachBudgetLimit s.runId).bind
  intro current σ₁ hread
  obtain ⟨hsame, hcurrent⟩ := hread
  have hcurrent : s = current := Option.some.inj (hstored.symm.trans hcurrent)
  rw [← hcurrent, hlive]
  apply (reachLimit_reports (Q := fun _ _ => False) st.lifecycle (hsent.same hsame) _ _).bind
  intro limited σ₂ hnever
  exact hnever.elim

theorem terminalAfterRace_none {s : FlowRunState} {c : Course} {m : Nat} (hsent : Sent c m σ)
    (hstored : σ.1.repo.states s.runId = some s) (hlive : s.status.terminal = false) :
    (SequentialFlowStrategy.terminalAfterRace s.runId).Meets (watch env)
      (fun terminal σ' => terminal = none ∧ Same σ σ') (fun _ => Under c) σ := by
  unfold SequentialFlowStrategy.terminalAfterRace
  apply (hsent.read .terminalAfterRace s.runId).bind
  intro current σ₁ hread
  obtain ⟨hsame, hcurrent⟩ := hread
  have hcurrent : s = current := Option.some.inj (hstored.symm.trans hcurrent)
  rw [← hcurrent, hlive]
  exact ⟨rfl, hsame⟩

/-- A settlement that raises for another reason than what the result says ends the call. -/
theorem settleFailed_raises {s : FlowRunState} {c : Course} {m : Nat} {e : FlowError}
    {Q : FlowResult → FlowTrace → Prop} (agentKey operation : String) (hsent : Sent c m σ)
    (hstored : σ.1.repo.states s.runId = some s) (hlive : s.status.terminal = false)
    (he : e.isValueError = true → ∃ refusal, st.lifecycle.executionTokenFor s.runId =
      .error refusal) :
    (st.settleFailed s.runId agentKey operation e).Meets (watch env) Q (fun _ => Under c) σ := by
  have hother : (if e.isValueError then
      st.transportFailure s.runId agentKey s!"{operation} returned an invalid result" e.typeName
        e.text
      else .raise e).Meets (watch env) Q (fun _ => Under c) σ := by
    split
    · rename_i hvalue
      obtain ⟨refusal, htoken⟩ := he hvalue
      unfold SequentialFlowStrategy.transportFailure
      apply (terminalAfterRace_none hsent hstored hlive).bind
      intro terminal σ₁ hnone
      obtain ⟨hnone, hsame⟩ := hnone
      rw [hnone]
      unfold SequentialFlowStrategy.resultOf
      have hstored₁ : σ₁.1.repo.states s.runId = some s := by
        rw [hsame.states]
        exact hstored
      apply ((hsent.same hsame).terminate st.lifecycle hstored₁ .fail _ []).bind
      intro failed σ₂ hfailed
      obtain ⟨-, -, t, token, -, -, hok⟩ := hfailed
      rw [htoken] at hok
      cases hok
    · exact hsent.under
  unfold SequentialFlowStrategy.settleFailed
  cases e with
  | invalidTransition message =>
    apply (terminalAfterRace_none hsent hstored hlive).bind
    intro terminal σ₁ hnone
    obtain ⟨hnone, hsame⟩ := hnone
    rw [hnone]
    exact (hsent.same hsame).under
  | _ => exact hother

/-! ### What follows an answer of the invoker -/

/-- What is known when a call has returned `result`. -/
inductive Returned (c : Course) (result : FlowResult) (σ : FlowTrace) : Prop
  | waiting (k : Nat) (s : FlowRunState) (active : AgentInvocation) (hsent : Sent c (k + 1) σ)
      (hstored : σ.1.repo.states result.runId = some s) (hown : s.runId = result.runId)
      (hwaiting : s.status = .waiting) (hbusy : c.Busy k s active)
      (hstatus : result.status = .waiting) (hwaits : c.waits)
  | ended (hsent : Sent c (startedAgents c.finals c.definition.agents).length σ)
      (hreport : straightReport c.definition c.finals = some result.report)
      (hstatus : result.status ≠ .waiting)

structure Standing (c : Course) (k : Nat) (s : FlowRunState) (σ : FlowTrace) : Prop where
  ready : c.Ready k s
  stored : σ.1.repo.states s.runId = some s
  sent : Sent c k σ

/-- An Agent has been started, and the Run is stored. -/
structure Started (c : Course) (k : Nat) (s : FlowRunState) (active : AgentInvocation)
    (σ : FlowTrace) : Prop where
  busy : c.Busy k s active
  stored : σ.1.repo.states s.runId = some s
  sent : Sent c (k + 1) σ

variable {c : Course} {k : Nat} {s : FlowRunState} {active : AgentInvocation}

theorem Standing.same (h : Standing c k s σ) (hsame : Same σ σ') : Standing c k s σ' :=
  ⟨h.ready, by rw [hsame.states]; exact h.stored, h.sent.same hsame⟩

theorem Started.same (h : Started c k s active σ) (hsame : Same σ σ') : Started c k s active σ' :=
  ⟨h.busy, by rw [hsame.states]; exact h.stored, h.sent.same hsame⟩

def GoesOn (env : FlowEnv) (c : Course)
    (continueWith : FlowRunState → AgentInvocationResult → FlowProg FlowResult) : Prop :=
  ∀ k s result σ, Standing c k s σ → c.Handed k (some result) →
    (continueWith s result).Meets (watch env) (Returned c) (fun _ => Under c) σ

theorem settle_refused (h : c.Busy k s active) (lc : FlowLifecycle) {result : AgentInvocationResult}
    (hrun : result.flowRunId = s.runId) (hid : result.invocationId = active.id)
    (hkey : result.agentKey = active.agentKey) {e : FlowError} (hvalue : e.isValueError = true)
    (hrefused : Refused lc s (settleTransition s.runId result) e) :
    ∃ refusal, lc.executionTokenFor s.runId = .error refusal := by
  rcases hrefused with herror | ⟨t, ht, hrest⟩
  · -- the result fits, so it is not refused for what it says
    exfalso
    unfold settleTransition at herror
    cases hsettle : s.settleInvocation result with
    | error refusal =>
      rw [hsettle] at herror
      cases herror
      rw [h.unsettled hrun hid hkey hsettle] at hvalue
      cases hvalue
    | ok state =>
      rw [hsettle] at herror
      have herror : ((orRaise state.invocations.getLast? _).bind fun last => _) = .error e := herror
      cases hlast : state.invocations.getLast? with
      | none =>
        rw [hlast] at herror
        cases herror
        cases hvalue
      | some last =>
        rw [hlast] at herror
        cases herror
  · simp only [settleTransition, Except.bind_ok] at ht
    obtain ⟨state, hsettle, last, -, ht⟩ := ht
    obtain ⟨-, _, _, -, -, hstate⟩ := FlowRunState.settleInvocation_ok hsettle
    cases ht
    rcases hrest with htoken | hdrafts | hreplacement
    · exact ⟨e, htoken⟩
    · simp only at hdrafts
      split at hdrafts
      · cases hdrafts
      · cases hdrafts
    · exfalso
      apply hreplacement
      unfold validateFlowReplacement
      rw [hstate]
      simp [FlowRunState.evolve]

theorem final_of_answer (hfinal : ∀ key, (c.finals key).status ≠ .waiting)
    {result : AgentInvocationResult} {agentKey : String}
    (hkind : (result.status = .waiting ∧ c.waits) ∨
      result.anonymous = (c.finals agentKey).anonymous) :
    (result.status = .waiting → c.waits) ∧
      (result.status ≠ .waiting → result.anonymous = (c.finals agentKey).anonymous) := by
  rcases hkind with ⟨hwaiting, hwaits⟩ | hsame
  · exact ⟨fun _ => hwaits, fun hnot => absurd hwaiting hnot⟩
  · refine ⟨fun hwaiting => ?_, fun _ => hsame⟩
    have hstatus : result.anonymous.status = (c.finals agentKey).anonymous.status :=
      congrArg AgentInvocationResult.status hsame
    exact absurd (hstatus.symm.trans hwaiting) (hfinal agentKey)

theorem settled_terminated {s' : FlowRunState} {result : AgentInvocationResult}
    {init : List AgentInvocation} {record : AgentInvocation}
    (h : Course.Settled c k s s' result init record)
    (hstored : σ.1.repo.states s'.runId = some s') (hsent : Sent c (k + 1) σ)
    (hwaiting : result.status ≠ .waiting) (hcompleted : result.status ≠ .completed)
    (hanonymous : result.anonymous = (c.finals record.agentKey).anonymous) :
    (SequentialFlowStrategy.resultOf (st.lifecycle.terminate s'.runId (terminationOf result.status)
      (failureText result) [])).Meets (watch env) (Returned c) (fun _ => Under c) σ := by
  unfold SequentialFlowStrategy.resultOf
  apply (hsent.terminate st.lifecycle hstored _ _ _).bind
  intro terminated σ₁ hterminated
  obtain ⟨hsent₁, -, t, token, ht, hstate, -⟩ := hterminated
  apply (hsent₁.ofExcept _).weaken
  intro flow σ₂ hflow
  obtain ⟨hsame, hflow⟩ := hflow
  rw [← hstate] at hflow
  obtain ⟨hreport, hlength, hstatus⟩ := h.fails hwaiting hcompleted hanonymous ht flow hflow
  rw [hsame]
  rw [← hlength] at hsent₁
  exact .ended hsent₁ hreport hstatus

theorem settled_outcome {s' : FlowRunState} {result : AgentInvocationResult}
    {init : List AgentInvocation} {record : AgentInvocation}
    (h : Course.Settled c k s s' result init record)
    (hstored : σ.1.repo.states s'.runId = some s') (hsent : Sent c (k + 1) σ)
    {continueWith : FlowRunState → AgentInvocationResult → FlowProg FlowResult}
    (hgoes : GoesOn env c continueWith) (hwaits : result.status = .waiting → c.waits)
    (hanonymous : result.status ≠ .waiting →
      result.anonymous = (c.finals record.agentKey).anonymous) :
    ((st.handleOutcome s' result).bind fun
      | some terminal => .ret terminal
      | none => continueWith s' result).Meets (watch env) (Returned c) (fun _ => Under c) σ := by
  have hended : result.status ≠ .waiting → result.status ≠ .completed →
      ((SequentialFlowStrategy.resultOf (st.lifecycle.terminate s'.runId
        (terminationOf result.status) (failureText result) [])).bind fun terminal =>
          (.ret (some terminal) : FlowProg (Option FlowResult))).Meets (watch env)
        (fun terminal σ' => ∃ flow, terminal = some flow ∧ Returned c flow σ')
        (fun _ => Under c) σ := by
    intro hwaiting hcompleted
    apply (settled_terminated st h hstored hsent hwaiting hcompleted (hanonymous hwaiting)).bind
    intro flow σ' hreturned
    exact ⟨flow, rfl, hreturned⟩
  have hreturns : result.status ≠ .completed → (st.handleOutcome s' result).Meets (watch env)
      (fun terminal σ' => ∃ flow, terminal = some flow ∧ Returned c flow σ')
      (fun _ => Under c) σ := by
    intro hcompleted
    unfold SequentialFlowStrategy.handleOutcome
    cases hstatus : result.status with
    | completed => exact absurd hstatus hcompleted
    | waiting =>
      apply (hsent.ofExcept _).bind
      intro flow σ' hflow
      obtain ⟨hsame, hflow⟩ := hflow
      obtain ⟨hrunId, hreport⟩ := Course.flowResult_report hflow
      obtain ⟨hbusy, hwaiting⟩ := h.busy hstatus
      have hflowStatus : flow.status = .waiting :=
        (congrArg FlowReport.status hreport).trans hwaiting
      refine ⟨flow, rfl, ?_⟩
      rw [hsame]
      exact .waiting k s' record hsent (by rw [hrunId]; exact hstored) hrunId.symm hwaiting hbusy
        hflowStatus (hwaits hstatus)
    | _ =>
      rw [hstatus] at hended
      exact hended (by simp) (by simp)
  by_cases hcompleted : result.status = .completed
  · have hnone : st.handleOutcome s' result = .ret none := by
      unfold SequentialFlowStrategy.handleOutcome
      rw [hcompleted]
      rfl
    rw [hnone]
    obtain ⟨hready, hhanded⟩ := h.ready hcompleted (hanonymous (by simp [hcompleted]))
    exact hgoes (k + 1) s' result σ ⟨hready, hstored, hsent⟩ hhanded
  · apply (hreturns hcompleted).bind
    intro terminal σ' hterminal
    obtain ⟨flow, hflow, hreturned⟩ := hterminal
    rw [hflow]
    exact hreturned

/-- An answer that fits is stored, and the Flow waits, ends or goes on. -/
theorem Started.answered (h : Started c k s active σ) (state : FlowRunState)
    (agentKey operation interrupted : String)
    {continueWith : FlowRunState → AgentInvocationResult → FlowProg FlowResult}
    (hgoes : GoesOn env c continueWith) (hfinal : ∀ key, (c.finals key).status ≠ .waiting)
    {t : Transported} (ht : AnswersFor c.finals c.waits s.runId active.id active.agentKey t) :
    (st.afterTransport state s.runId agentKey operation interrupted continueWith t).Meets
      (watch env) (Returned c) (fun _ => Under c) σ := by
  obtain ⟨result, ht, hrun, hid, hkey, hkind⟩ := ht
  rw [ht]
  have hown : ∀ t, settleTransition s.runId result s = .ok t → t.state.runId = s.runId ∧
      s.settleInvocation result = .ok t.state := by
    intro t ht
    simp only [settleTransition, Except.bind_ok] at ht
    obtain ⟨state, hsettle, last, -, ht⟩ := ht
    obtain ⟨init, settled, hsettled⟩ := h.busy.settled hsettle
    cases ht
    exact ⟨hsettled.own, hsettle⟩
  have hsettles : (st.lifecycle.settleInvocation s.runId result).Meets (watch env) _ _ σ :=
    same_transact st.lifecycle .settleInvocation h.stored fun t ht => (hown t ht).1
  apply hsettles.attempt.bind
  intro outcome σ₁ houtcome
  cases outcome with
  | error e =>
    obtain ⟨hsame, hrefused⟩ := houtcome
    have hlater := h.same hsame
    apply settleFailed_raises st _ _ hlater.sent hlater.stored h.busy.live
    intro hvalue
    exact settle_refused h.busy st.lifecycle hrun hid hkey hvalue (hrefused hvalue)
  | ok settled =>
    obtain ⟨hsent, hstored, t, token, ht, hstate, -⟩ := houtcome
    obtain ⟨hrunId, hsettle⟩ := hown t ht
    rw [hstate] at hrunId hsettle
    obtain ⟨init, record, hsettled⟩ := h.busy.settled hsettle
    have hsent₁ : Sent c (k + 1) σ₁ := hsent.trans h.sent
    rw [← hrunId] at hstored
    have hlive : settled.status.terminal = false := by
      rw [hsettled.status]
      split <;> rfl
    show (st.afterSettled settled result continueWith).Meets _ _ _ _
    unfold SequentialFlowStrategy.afterSettled
    apply same_clock.bind
    intro now σ₂ hsame
    have hsent₂ := hsent₁.same hsame
    have hstored₂ : σ₂.1.repo.states settled.runId = some settled := by
      rw [hsame.states]
      exact hstored
    apply (hsent₂.ofExcept _).bind
    intro violation σ₃ hcheck
    rw [hcheck.1]
    cases violation with
    | some violation => exact reachBudgetLimit_reports st hsent₂ hstored₂ hlive
    | none =>
      rw [hkey.symm.trans hsettled.agent] at hkind
      obtain ⟨hwaits, hanonymous⟩ := final_of_answer hfinal hkind
      exact settled_outcome st hsettled hstored₂ hsent₂ hgoes hwaits hanonymous

/-! ### The loop -/

/-- A handoff does not show the identifiers of the result it is made of. -/
theorem handoff_anonymous {previous other : Option AgentInvocationResult}
    (h : previous.map (·.anonymous) = other.map (·.anonymous)) :
    handoff previous = handoff other := by
  have hanonymous : ∀ r, handoff r = handoff (r.map (·.anonymous)) := by
    intro r
    cases r <;> rfl
  rw [hanonymous previous, h, ← hanonymous other]

theorem planned_request (h : c.Ready k s) {previous : Option AgentInvocationResult}
    (hhanded : c.Handed k previous) {binding : FlowAgent}
    (hbinding : c.definition.agents[k]? = some binding) (id : UUID) :
    (planned c.definition c.input c.finals)[k]? =
      some (SequentialFlowStrategy.requestFor s c.input previous binding id).anonymous := by
  unfold planned
  rw [List.getElem?_mapIdx, hbinding, Option.map_some]
  unfold SequentialFlowStrategy.requestFor AgentInvocationRequest.anonymous
  rw [h.done.length, handoff_anonymous hhanded]

theorem Sent.next {request : AgentInvocationRequest} {remaining : Option ℚ} {w : FlowWorld}
    {reply : Transported} (h : Sent c k σ)
    (hrequest : (planned c.definition c.input c.finals)[k]? = some request.anonymous) :
    Sent c (k + 1) (w, σ.2 ++ [⟨(), .invoke request remaining, reply⟩]) := by
  have hsent : sent (σ.2 ++ [(⟨(), .invoke request remaining, reply⟩ :
      Entry Unit FlowOp FlowOp.Ret)]) = sent σ.2 ++ [request.anonymous] := by
    unfold sent
    rw [List.filterMap_append]
    rfl
  show sent _ = _
  rw [hsent, h, List.take_add_one, hrequest]
  rfl

theorem Standing.completes (h : Standing c k s σ) {previous : Option AgentInvocationResult}
    (hhanded : c.Handed k previous) (hlast : c.definition.agents[k]? = none) :
    (do
      let previous ← Prog.ofExcept (orRaise previous .assertion)
      SequentialFlowStrategy.resultOf
        (st.lifecycle.complete s.runId (previous.output.getD "")) : FlowProg FlowResult).Meets
      (watch env) (Returned c) (fun _ => Under c) σ := by
  apply (h.sent.ofExcept _).bind
  intro last σ₁ hprevious
  obtain ⟨hsame, hprevious⟩ := hprevious
  rw [hsame]
  rw [orRaise_ok.mp hprevious] at hhanded
  have hown : ∀ t, completeTransition (last.output.getD "") s = .ok t → t.state.runId = s.runId := by
    intro t ht
    simp only [completeTransition, Except.bind_ok] at ht
    obtain ⟨state, hcomplete, ht⟩ := ht
    cases ht
    obtain ⟨-, -, hstate⟩ := FlowRunState.complete_ok hcomplete
    rw [hstate]
    rfl
  unfold SequentialFlowStrategy.resultOf
  apply (h.sent.transact st.lifecycle .complete h.stored hown).bind
  intro completed σ₂ hcompleted
  obtain ⟨hsent, -, t, token, ht, hstate, -⟩ := hcompleted
  apply (hsent.ofExcept _).weaken
  intro flow σ₃ hflow
  obtain ⟨hsame, hflow⟩ := hflow
  rw [← hstate] at hflow
  obtain ⟨hreport, hlength, hstatus⟩ := h.ready.completes hlast hhanded ht flow hflow
  rw [hsame]
  rw [← hlength] at hsent
  exact .ended hsent hreport hstatus

theorem Standing.advance (hends : AnswersWith env c.finals c.waits) (fuel : Nat)
    {previous : Option AgentInvocationResult} (h : Standing c k s σ)
    (hhanded : c.Handed k previous) :
    (st.advance c.definition c.input fuel s previous).Meets (watch env) (Returned c)
      (fun _ => Under c) σ := by
  induction fuel generalizing k s previous σ with
  | zero =>
    unfold SequentialFlowStrategy.advance
    rw [h.ready.done.length]
    cases hbinding : c.definition.agents[k]? with
    | none => exact h.completes st hhanded hbinding
    | some binding => exact h.sent.under
  | succ fuel ih =>
    unfold SequentialFlowStrategy.advance
    rw [h.ready.done.length]
    cases hbinding : c.definition.agents[k]? with
    | none => exact h.completes st hhanded hbinding
    | some binding =>
      apply same_clock.bind
      intro now σ₁ hsame
      have hlater := h.same hsame
      apply (hlater.sent.ofExcept _).bind
      intro violation σ₂ hcheck
      rw [hcheck.1]
      cases violation with
      | some violation =>
        apply reachBudgetLimit_reports st hlater.sent hlater.stored
        rw [h.ready.running]
        rfl
      | none =>
        refine same_call (o := .uuid4) trivial (fun _ => rfl) fun σ₃ hsame₃ => ?_
        have hstanding := hlater.same hsame₃
        apply (hstanding.sent.ofExcept _).bind
        intro request σ₄ hrequest
        obtain ⟨hsame₄, hrequest⟩ := hrequest
        rw [hsame₄]
        have hrequest := AgentInvocationRequest.validate_ok hrequest
        have hbegins : ∀ t, beginTransition request c.definition s = .ok t →
            c.Busy k t.state (s.begunInvocation request) ∧ t.state.runId = s.runId ∧
              t.state.status = .running := by
          intro t ht
          exact h.ready.begun ht hbinding (by rw [hrequest]; rfl) (by rw [hrequest]; rfl)
            (by rw [hrequest]; rfl)
        apply (hstanding.sent.transact st.lifecycle .beginInvocation hstanding.stored
          fun t ht => (hbegins t ht).2.1).bind
        intro begun σ₅ hbegun
        obtain ⟨hsent, hstored, t, token, ht, hstate, -⟩ := hbegun
        obtain ⟨hbusy, hrunId, -⟩ := hbegins t ht
        rw [hstate] at hbusy hrunId
        apply same_clock.bind
        intro now σ₆ hsame₆
        have hplanned := planned_request h.ready hhanded hbinding
          (env.exec .uuid4 σ₁.1).1
        rw [← hrequest] at hplanned
        apply Meets.barring_call
        intro _
        have hstarted : Started c k begun (s.begunInvocation request)
            ((env.exec (.invoke request (FlowBudgetPolicy.remainingSeconds begun now)) σ₆.1).2,
              σ₆.2 ++ [⟨(), .invoke request (FlowBudgetPolicy.remainingSeconds begun now),
                (env.exec (.invoke request (FlowBudgetPolicy.remainingSeconds begun now)) σ₆.1).1⟩]) := by
          refine ⟨hbusy, ?_, (hsent.same hsame₆).next hplanned⟩
          show σ₆.1.repo.states begun.runId = some begun
          rw [hsame₆.states, hrunId]
          exact hstored
        apply hstarted.answered st begun binding.key "invoke" "Sequential Flow execution cancelled"
          _ hends.final
        · have hanswer := hends.invoke σ₆.1.steps request
            (FlowBudgetPolicy.remainingSeconds begun now)
          have howner : request.flowRunId = begun.runId := by
            rw [hrunId, hrequest]
            rfl
          rw [howner] at hanswer
          exact hanswer
        · intro k' s' result σ' hstanding' hhanded'
          exact ih hstanding' hhanded'

/-! ### The calls -/

theorem create_stored {m : Nat} (hsent : Sent c m σ) (definition : FlowDefinition)
    (given : Option UUID) (now : Time) :
    (FlowLifecycle.create definition given now).Meets (watch env)
      (fun s σ' => Sent c m σ' ∧ σ'.1.repo.states s.runId = some s ∧
        ∃ runId deadlineAt, s = .initial definition runId now deadlineAt)
      (fun _ => Under c) σ := by
  have hcreate : ∀ (deadlineAt : Option Time) (runId : UUID) (σ₁ : FlowTrace), Sent c m σ₁ → (.call
      (.create (FlowRunState.initial definition runId now deadlineAt)
        [createdDraft (FlowRunState.initial definition runId now deadlineAt)])
      fun r => (Prog.ofExcept r).bind fun _ =>
        .ret (FlowRunState.initial definition runId now deadlineAt) :
        FlowProg FlowRunState).Meets (watch env)
      (fun s σ' => Sent c m σ' ∧ σ'.1.repo.states s.runId = some s ∧
        ∃ runId deadlineAt, s = .initial definition runId now deadlineAt)
      (fun _ => Under c) σ₁ := by
    intro deadlineAt runId σ₁ hsent₁
    apply Meets.barring_call
    intro _
    have hsent₂ : ∀ w r, Sent c m ((w, σ₁.2 ++ [⟨(), .create
        (FlowRunState.initial definition runId now deadlineAt)
        [createdDraft (FlowRunState.initial definition runId now deadlineAt)], r⟩]) : FlowTrace) := by
      intro w r
      exact (sent_silent (o := .create _ _) trivial _ r).trans hsent₁
    have hexec : env.exec (.create (FlowRunState.initial definition runId now deadlineAt)
        [createdDraft (FlowRunState.initial definition runId now deadlineAt)]) σ₁.1 =
        ((σ₁.1.repo.create (FlowRunState.initial definition runId now deadlineAt)
          [createdDraft (FlowRunState.initial definition runId now deadlineAt)]).1,
          ⟨(σ₁.1.repo.create (FlowRunState.initial definition runId now deadlineAt)
            [createdDraft (FlowRunState.initial definition runId now deadlineAt)]).2, σ₁.1.steps + 1⟩) := rfl
    rcases σ₁.1.repo.create_cases (FlowRunState.initial definition runId now deadlineAt)
      [createdDraft (FlowRunState.initial definition runId now deadlineAt)] with ⟨e, hcreated⟩ |
      ⟨-, -, -, hcreated⟩
    · rw [hcreated] at hexec
      rw [hexec]
      exact (hsent₂ _ _).under
    · rw [hcreated] at hexec
      rw [hexec]
      refine ⟨hsent₂ _ _, ?_, runId, deadlineAt, rfl⟩
      exact Function.update_self _ _ _
  unfold FlowLifecycle.create
  apply (hsent.ofExcept _).bind
  intro deadlineAt σ₀ hdeadline
  rw [hdeadline.1]
  cases given with
  | some runId => exact hcreate deadlineAt runId σ hsent
  | none => exact same_call (o := .uuid4) trivial (fun _ => rfl) fun σ₁ hsame =>
      hcreate deadlineAt _ σ₁ (hsent.same hsame)

theorem run_returns (hends : AnswersWith env c.finals c.waits) (hsent : Sent c 0 σ)
    (given : Option UUID) :
    (st.run c.definition c.input given).Meets (watch env) (Returned c) (fun _ => Under c) σ := by
  unfold SequentialFlowStrategy.run
  apply (hsent.ofExcept _).bind
  intro _ σ₁ hsupported
  rw [hsupported.1]
  apply same_clock.bind
  intro now σ₂ hsame
  apply (create_stored (hsent.same hsame) c.definition given now).bind
  intro created σ₃ hcreated
  obtain ⟨hsent₃, hstored, runId, deadlineAt, hcreated⟩ := hcreated
  have hstart : ∀ t, startTransition created = .ok t → t.state.runId = created.runId ∧
      c.Ready 0 t.state := by
    intro t ht
    rw [hcreated] at ht ⊢
    refine ⟨?_, Course.started c ht⟩
    cases ht
    rfl
  apply (hsent₃.transact st.lifecycle .start hstored fun t ht => (hstart t ht).1).bind
  intro started σ₄ hstarted
  obtain ⟨hsent₄, hstored₄, t, token, ht, hstate, -⟩ := hstarted
  obtain ⟨hrunId, hready⟩ := hstart t ht
  rw [hstate] at hrunId hready
  rw [← hrunId] at hstored₄
  exact Standing.advance st hends _ ⟨hready, hstored₄, hsent₄⟩ rfl

theorem Started.resumed (hends : AnswersWith env c.finals c.waits) (h : Started c k s active σ)
    (hwaiting : s.status = .waiting) (userInput : Option String)
    (confirmation : Option ToolConfirmation) :
    (st.resumeWaiting c.definition s.runId userInput confirmation).Meets (watch env) (Returned c)
      (fun _ => Under c) σ := by
  unfold SequentialFlowStrategy.resumeWaiting
  apply (h.sent.ofExcept _).bind
  intro _ σ₁ hsupported
  rw [hsupported.1]
  apply (h.sent.read .resumeWaiting s.runId).bind
  intro waiting σ₂ hread
  obtain ⟨hsame, hread⟩ := hread
  have hsame₂ : s = waiting := Option.some.inj (h.stored.symm.trans hread)
  rw [← hsame₂]
  have h₂ := h.same hsame
  apply (h₂.sent.ofExcept _).bind
  intro _ σ₃ hdefinition
  rw [hdefinition.1]
  apply same_clock.bind
  intro now σ₄ hsame₄
  have h₄ := h₂.same hsame₄
  apply (h₄.sent.ofExcept _).bind
  intro violation σ₅ hcheck
  rw [hcheck.1]
  cases violation with
  | some violation =>
    apply reachBudgetLimit_reports st h₄.sent h₄.stored
    rw [hwaiting]
    rfl
  | none =>
    apply (h₄.sent.ofExcept _).bind
    intro found σ₆ hfound
    obtain ⟨hsame₆, hfound⟩ := hfound
    rw [hsame₆]
    have hfound := orRaise_ok.mp hfound
    have hresumes : ∀ t, resumeTransition s.runId found.id s = .ok t → found = active ∧
        c.Busy k t.state { active with status := .running } ∧ t.state.runId = s.runId ∧
        t.state.status = .running := fun t ht => h.busy.resumed hfound ht
    apply (h₄.sent.transact st.lifecycle .resumeInvocation h₄.stored
      fun t ht => (hresumes t ht).2.2.1).bind
    intro resumed σ₇ hresumed
    obtain ⟨hsent, hstored, t, token, ht, hstate, -⟩ := hresumed
    obtain ⟨hactive, hbusy, hrunId, -⟩ := hresumes t ht
    rw [hstate] at hbusy hrunId
    rw [← hrunId] at hstored
    have h₇ : Started c k resumed { active with status := .running } σ₇ := ⟨hbusy, hstored, hsent⟩
    apply (hsent.ofExcept _).bind
    intro request σ₈ hrequest
    obtain ⟨hsame₈, hrequest⟩ := hrequest
    have hrequest := AgentInvocationResume.validate_ok hrequest
    rw [hsame₈]
    apply same_clock.bind
    intro now σ₉ hsame₉
    refine same_call (o := .resume request _) trivial (fun _ => rfl) fun σ₁₀ hsame₁₀ => ?_
    have h₁₀ := (h₇.same hsame₉).same hsame₁₀
    -- the input is rebuilt from the invocation that waited
    have hinput : (⟨found.input.prompt, found.input.attachments⟩ : FlowInput) = c.input := by
      rw [hactive, h.busy.asks.prompt, h.busy.asks.attachments]
    have hanswer := hends.resume σ₉.1.steps request (FlowBudgetPolicy.remainingSeconds s now)
    rw [hrequest] at hanswer
    have hgoes : GoesOn env c fun settled result => st.advance c.definition
        ⟨found.input.prompt, found.input.attachments⟩ c.definition.agents.length settled
          (some result) := by
      intro k' s' result σ' hstanding hhanded
      rw [hinput]
      exact hstanding.advance st hends _ hhanded
    have hanswered := h₁₀.answered st s found.agentKey "resume" "Sequential Flow resume cancelled"
      hgoes hends.final (t := env.resume σ₉.1.steps request
        (FlowBudgetPolicy.remainingSeconds s now)) (by
        rw [hrunId]
        rw [hactive] at hanswer
        rw [hrequest, hactive]
        exact hanswer)
    rw [hrunId] at hanswered
    exact hanswered

theorem answerAll_returns (hends : AnswersWith env c.finals c.waits) (answers : List FlowAnswer)
    {result : FlowResult} (h : Returned c result σ) :
    (st.answerAll c.definition answers result).Meets (watch env) (Returned c) (fun _ => Under c)
      σ := by
  induction answers generalizing result σ with
  | nil => exact h
  | cons given rest ih =>
    unfold SequentialFlowStrategy.answerAll
    cases h with
    | ended hsent hreport hstatus =>
      rw [if_neg hstatus]
      exact .ended hsent hreport hstatus
    | waiting k s active hsent hstored hown hwaiting hbusy hstatus hwaits =>
      rw [if_pos hstatus, ← hown]
      rw [← hown] at hstored
      have hstarted : Started c k s active σ := ⟨hbusy, hstored, hsent⟩
      have hanswer : (st.answer c.definition s.runId given).Meets (watch env) (Returned c)
          (fun _ => Under c) σ := by
        cases given with
        | resume userInput => exact hstarted.resumed st hends hwaiting _ _
        | confirm confirmation => exact hstarted.resumed st hends hwaiting _ _
      apply hanswer.bind
      intro next σ' hnext
      exact ih hnext

theorem drive_returns (hends : AnswersWith env c.finals c.waits) (hsent : Sent c 0 σ)
    (given : Option UUID) (answers : List FlowAnswer) :
    (st.drive c.definition c.input given answers).Meets (watch env) (Returned c)
      (fun _ => Under c) σ := by
  unfold SequentialFlowStrategy.drive
  apply (run_returns st hends hsent given).bind
  intro result σ' hreturned
  exact answerAll_returns st hends answers hreturned

end Programs

/-! ## Executions from their beginning -/

section Executions

variable {env : FlowEnv} {c : Course} {st : SequentialFlowStrategy} {given : Option UUID}
variable {answers : List FlowAnswer} {w : FlowWorld}

theorem driven (hends : AnswersWith env c.finals c.waits) (st : SequentialFlowStrategy)
    (given : Option UUID) (answers : List FlowAnswer) (w : FlowWorld)
    (hbudget : ∀ entry ∈ (st.drive c.definition c.input given answers).history env.exec w,
      ¬ ReportsBudget entry.op) :
    Outcome (Returned c) (fun _ => Under c)
      ((st.drive c.definition c.input given answers).eval env.exec w).1
      (((st.drive c.definition c.input given answers).eval env.exec w).2,
        (st.drive c.definition c.input given answers).history env.exec w) :=
  (drive_returns (σ := (w, [])) st hends rfl given answers).barring hbudget

theorem Returned.under {result : FlowResult} {σ : FlowTrace} (h : Returned c result σ) :
    Under c σ := by
  cases h with
  | waiting k s active hsent _ _ _ _ _ _ => exact hsent.under
  | ended hsent _ _ => exact hsent.under

theorem under_of_outcome {outcome : Except FlowError FlowResult} {σ : FlowTrace}
    (h : Outcome (Returned c) (fun _ => Under c) outcome σ) : Under c σ := by
  cases outcome with
  | ok result => exact Returned.under h
  | error e => exact h

/-- An execution that ended has sent the requests of the straight course, and reports on it. -/
theorem Returned.straight {result : FlowResult} {σ : FlowTrace} (h : Returned c result σ)
    (hended : result.status = .waiting → ¬ c.waits) :
    Sent c (startedAgents c.finals c.definition.agents).length σ ∧
      straightReport c.definition c.finals = some result.report := by
  cases h with
  | waiting k s active _ _ _ _ _ hwaiting hwaits => exact absurd hwaits (hended hwaiting)
  | ended hsent hreport _ => exact ⟨hsent, hreport⟩

/-! ### Executions that return -/

/-- The circumstances in which an execution returns a result: one client, no cancelled task, an
identifier that is not taken, and operations within the limits that the strategy relies on. -/
structure Unhindered (env : FlowEnv) (st : SequentialFlowStrategy) (definition : FlowDefinition)
    (input : FlowInput) (given : Option UUID) (answers : List FlowAnswer) (w : FlowWorld) : Prop where
  undisturbed : Undisturbed env
  unleased : st.lifecycle.executionLease = none
  strategy : definition.strategy = "sequential"
  schedulable : definition.budget.Schedulable (env.clock w.steps)
  fresh : w.repo.states (createdId env w given) = none
  free : w.repo.leases (createdId env w given) = none
  said : .resume "" ∉ answers
  proper : (st.drive definition input given answers).Along env.exec
    (Proper env definition (createdId env w given)) w

theorem flowResult_counted {s : FlowRunState} {result : FlowResult} (h : flowResult s = .ok result) :
    Counted s.invocations := by
  have hvalidated : ∀ r, FlowResult.validate r = .ok result →
      0 ≤ r.modelCallCount ∧ 0 ≤ r.toolCallCount := by
    intro r hr
    unfold FlowResult.validate at hr
    by_cases hmodel : r.modelCallCount < 0
    · rw [if_pos hmodel] at hr
      cases hr
    · by_cases htool : r.toolCallCount < 0
      · rw [if_neg hmodel, if_pos htool] at hr
        cases hr
      · omega
  unfold flowResult at h
  split at h
  · simp only [Except.bind_ok] at h
    obtain ⟨active, -, last, -, waiting, -, hresult⟩ := h
    exact hvalidated _ hresult
  · simp only [Except.bind_ok] at h
    obtain ⟨waiting, -, hresult⟩ := h
    exact hvalidated _ hresult

theorem answer_settles {runId : UUID} {s : FlowRunState} {init : List AgentInvocation}
    {active : AgentInvocation} (hq : Undisturbed env) (hst : st.lifecycle.executionLease = none)
    (h : Inside env runId w s init active) (hwaiting : s.status = .waiting)
    (hresumable : Resumable c.definition s) {answer : FlowAnswer} (hanswer : answer ≠ .resume "") :
    Finishes env c.definition runId (st.answer c.definition runId answer) w := by
  cases answer with
  | resume userInput =>
    have hinput : some userInput ≠ some "" := by
      intro hblank
      cases hblank
      exact hanswer rfl
    exact h.resumeWaiting hq hst hwaiting hresumable hinput (by simp)
  | confirm confirmation =>
    exact h.resumeWaiting hq hst hwaiting hresumable (by simp) (by simp)

theorem answerAll_settles {runId : UUID} (hq : Undisturbed env)
    (hst : st.lifecycle.executionLease = none) (hstrategy : c.definition.strategy = "sequential")
    (hends : AnswersWith env c.finals c.waits) {result : FlowResult}
    {log : List (Entry Unit FlowOp FlowOp.Ret)} (hreturned : Returned c result (w, log))
    {s : FlowRunState} (hstored : w.repo.states runId = some s) (hresult : flowResult s = .ok result)
    (hparked : Parked env runId w) (hanswers : .resume "" ∉ answers)
    (hproper : (st.answerAll c.definition answers result).Along env.exec
      (Proper env c.definition runId) w)
    (hbudget : ∀ entry ∈ (st.answerAll c.definition answers result).history env.exec w,
      ¬ ReportsBudget entry.op) :
    ∃ last, ((st.answerAll c.definition answers result).eval env.exec w).1 = .ok last := by
  induction answers generalizing result w log s with
  | nil => exact ⟨result, rfl⟩
  | cons answer rest ih =>
    unfold SequentialFlowStrategy.answerAll at hproper hbudget ⊢
    cases hreturned with
    | ended hsent hreport hstatus =>
      rw [if_neg hstatus]
      exact ⟨result, rfl⟩
    | waiting k s' active hsent hstored' hown hwaiting hbusy hstatus hwaits =>
      rw [if_pos hstatus] at hproper hbudget ⊢
      obtain ⟨hrun, hreport⟩ := Course.flowResult_report hresult
      have hswaiting : s.status = .waiting :=
        (congrArg FlowReport.status hreport).symm.trans hstatus
      obtain ⟨init, parked, hinside⟩ := hparked s hstored hswaiting
      -- the state that waits is the one of the course
      have hid : result.runId = runId := hrun.trans hinside.holds.own
      rw [hid] at hstored' hown hproper hbudget ⊢
      have hsame : s' = s := Option.some.inj (hstored'.symm.trans hstored)
      rw [hsame] at hbusy hown
      have hfinishes : Finishes env c.definition runId (st.answer c.definition runId answer) w :=
        answer_settles hq hst hinside hswaiting
          ⟨hstrategy, hbusy.matching, flowResult_counted hresult⟩
          fun hblank => hanswers (by rw [hblank]; exact List.mem_cons_self)
      have halong := along_bind.mp hproper
      have hsettles := hfinishes.settles.mpr halong.1
      obtain ⟨next, s₁, hnext, hstored₁, hresult₁, -⟩ := hsettles
      have heval : (st.answer c.definition runId answer).eval env.exec w =
          (.ok next, ((st.answer c.definition runId answer).eval env.exec w).2) := by
        rw [← hnext]
      have hbind : ((st.answer c.definition runId answer).bind
          fun next => st.answerAll c.definition rest next).history env.exec w = _ :=
        history_bind_ok heval
      have hstarted : Started c k s active (w, log) := by
        refine ⟨hbusy, ?_, hsent⟩
        rw [hown]
        exact hstored
      have hmeets : (st.answer c.definition runId answer).Meets (watch env) (Returned c)
          (fun _ => Under c) (w, log) := by
        rw [← hown]
        cases answer with
        | resume userInput => exact hstarted.resumed st hends hswaiting _ _
        | confirm confirmation => exact hstarted.resumed st hends hswaiting _ _
      have houtcome := hmeets.barring fun entry hentry => hbudget entry (by
        show entry ∈ ((st.answer c.definition runId answer).bind _).history env.exec w
        rw [hbind]
        exact List.mem_append_left _ hentry)
      rw [hnext] at houtcome
      show ∃ last, (((st.answer c.definition runId answer).bind
        fun next => st.answerAll c.definition rest next).eval env.exec w).1 = .ok last
      rw [eval_bind_ok heval]
      apply ih houtcome hstored₁ hresult₁ hfinishes.parked
        (fun hmem => hanswers (List.mem_cons_of_mem _ hmem)) (halong.2 next _ heval)
      intro entry hentry
      apply hbudget entry
      show entry ∈ ((st.answer c.definition runId answer).bind _).history env.exec w
      rw [hbind]
      exact List.mem_append_right _ hentry

theorem drive_settles (hends : AnswersWith env c.finals c.waits)
    (h : Unhindered env st c.definition c.input given answers w)
    (hbudget : ∀ entry ∈ (st.drive c.definition c.input given answers).history env.exec w,
      ¬ ReportsBudget entry.op) :
    ∃ result, ((st.drive c.definition c.input given answers).eval env.exec w).1 = .ok result := by
  have hfinishes := run_finishes h.undisturbed h.unleased h.strategy h.schedulable h.fresh h.free c.input
  have halong := along_bind.mp h.proper
  obtain ⟨result, s, hresult, hstored, hflow, -⟩ := hfinishes.settles.mpr halong.1
  have heval : (st.run c.definition c.input given).eval env.exec w =
      (.ok result, ((st.run c.definition c.input given).eval env.exec w).2) := by
    rw [← hresult]
  have hbind : (st.drive c.definition c.input given answers).history env.exec w =
      (st.run c.definition c.input given).history env.exec w ++
        (st.answerAll c.definition answers result).history env.exec
          ((st.run c.definition c.input given).eval env.exec w).2 := history_bind_ok heval
  rw [hbind] at hbudget
  have houtcome := (run_returns (σ := (w, [])) st hends rfl given).barring fun entry hentry =>
    hbudget entry (List.mem_append_left _ hentry)
  rw [hresult] at houtcome
  unfold SequentialFlowStrategy.drive
  show ∃ last, (((st.run c.definition c.input given).bind
    fun result => st.answerAll c.definition answers result).eval env.exec w).1 = .ok last
  rw [eval_bind_ok heval]
  exact answerAll_settles h.undisturbed h.unleased h.strategy hends houtcome hstored hflow
    hfinishes.parked h.said (halong.2 result _ heval) fun entry hentry =>
      hbudget entry (List.mem_append_right _ hentry)

end Executions

section Requests

variable {c : Course} {σ : FlowTrace}

theorem Under.keys (h : Under c σ) :
    (sent σ.2).map (·.agentKey) <+: c.definition.agents.map (·.key) := by
  obtain ⟨m, hsent⟩ := h
  have hplanned : sent σ.2 = (planned c.definition c.input c.finals).take m := hsent
  rw [hplanned, List.map_take, planned_keys]
  exact List.take_prefix _ _

theorem Under.planned (h : Under c σ) {i : Nat} {request : AgentInvocationRequest}
    (hrequest : (sent σ.2)[i]? = some request) :
    (planned c.definition c.input c.finals)[i]? = some request := by
  obtain ⟨m, hsent⟩ := h
  have hplanned : sent σ.2 = (Flows.planned c.definition c.input c.finals).take m := hsent
  rw [hplanned, List.getElem?_take] at hrequest
  split at hrequest
  · exact hrequest
  · cases hrequest

end Requests

/-- Suspensions do not show.  The Agents are asked in declaration order, each with the handoff that is
made of the final result before.  A Flow that ended after its Agents were suspended and answered has
sent the requests, and reports the result, of one whose Agents were not suspended; and it has
completed when all Agents did, with the output of the last one. -/
theorem suspension_transparent {definition : FlowDefinition} {input : FlowInput} {finals : Finals}
    -- an execution with suspensions
    {env : FlowEnv} (hends : AnswersWith env finals True) (st : SequentialFlowStrategy)
    (given : Option UUID) (answers : List FlowAnswer) (w : FlowWorld)
    (hbudget : ∀ entry ∈ (st.drive definition input given answers).history env.exec w,
      ¬ ReportsBudget entry.op)
    -- an execution without
    {env' : FlowEnv} (hends' : AnswersWith env' finals False) (st' : SequentialFlowStrategy)
    (given' : Option UUID) (w' : FlowWorld)
    (hbudget' : ∀ entry ∈ (st'.run definition input given').history env'.exec w',
      ¬ ReportsBudget entry.op) :
    ((sent ((st.drive definition input given answers).history env.exec w)).map (·.agentKey) <+:
        definition.agents.map (·.key) ∧
      (∀ first, (sent ((st.drive definition input given answers).history env.exec w))[0]? =
        some first → first.input.handoff = none) ∧
      ∀ i request next,
        (sent ((st.drive definition input given answers).history env.exec w))[i]? = some request →
        (sent ((st.drive definition input given answers).history env.exec w))[i + 1]? = some next →
          ∃ h, next.input.handoff = some h ∧ HandedOn (finals request.agentKey) h) ∧
    (∀ result, ((st.drive definition input given answers).eval env.exec w).1 = .ok result →
      result.status ≠ .waiting →
        (result.status = .completed ↔
          ∀ binding ∈ definition.agents, (finals binding.key).status = .completed) ∧
        (result.status = .completed → ∃ last, definition.agents.getLast? = some last ∧
          result.output = some ((finals last.key).output.getD "")) ∧
        ∀ result', ((st'.run definition input given').eval env'.exec w').1 = .ok result' →
          sent ((st.drive definition input given answers).history env.exec w) =
              sent ((st'.run definition input given').history env'.exec w') ∧
            result.report = result'.report) ∧
    (Unhindered env st definition input given answers w →
      ∃ result, ((st.drive definition input given answers).eval env.exec w).1 = .ok result) ∧
    (Unhindered env' st' definition input given' [] w' →
      ∃ result', ((st'.run definition input given').eval env'.exec w').1 = .ok result') := by
  have houtcome := driven (c := ⟨definition, input, finals, True⟩) hends st given answers w hbudget
  rw [← st'.drive_nil] at hbudget' ⊢
  have houtcome' := driven (c := ⟨definition, input, finals, False⟩) hends' st' given' [] w' hbudget'
  have hunder := under_of_outcome houtcome
  refine ⟨⟨hunder.keys, ?_, ?_⟩, ?_, fun h => drive_settles (c := ⟨definition, input, finals, True⟩)
    hends h hbudget, fun h => drive_settles (c := ⟨definition, input, finals, False⟩) hends' h
      hbudget'⟩
  · intro first hfirst
    obtain ⟨-, -, -, hhandoff⟩ := planned_get (hunder.planned hfirst)
    exact hhandoff
  · intro i request next hrequest hnext
    exact planned_handoff (hunder.planned hrequest) (hunder.planned hnext)
  · intro result hresult hended
    rw [hresult] at houtcome
    obtain ⟨hsent, hreport⟩ := Returned.straight houtcome fun hwaiting => absurd hwaiting hended
    obtain ⟨hcompleted, houtput⟩ := straightReport_completed hreport
    refine ⟨hcompleted, houtput, ?_⟩
    intro result' hresult'
    rw [hresult'] at houtcome'
    obtain ⟨hsent', hreport'⟩ := Returned.straight houtcome' fun _ => not_false
    exact ⟨hsent.trans hsent'.symm, Option.some.inj (hreport.symm.trans hreport')⟩

def promptEnv : FlowEnv :=
  { askingEnv with
    invoke := fun _ request _ => .result
      { flowRunId := request.flowRunId
        invocationId := request.invocationId
        agentKey := request.agentKey
        status := .completed
        output := some "done"
        valid := AgentInvocationResult.completed_valid } }

/-- What the Agents of `askingEnv` and `promptEnv` end with. -/
def doneFinals : Finals := fun agentKey =>
  { flowRunId := 0
    invocationId := 0
    agentKey := agentKey
    status := .completed
    output := some "done"
    valid := AgentInvocationResult.completed_valid }

theorem asking_answers : AnswersWith askingEnv doneFinals True where
  invoke := fun _ _ _ => ⟨_, rfl, rfl, rfl, rfl, .inl ⟨rfl, trivial⟩⟩
  resume := fun _ _ _ => ⟨_, rfl, rfl, rfl, rfl, .inr rfl⟩
  final := by simp [doneFinals]

theorem prompt_answers : AnswersWith promptEnv doneFinals False where
  invoke := fun _ _ _ => ⟨_, rfl, rfl, rfl, rfl, .inr rfl⟩
  resume := fun _ _ _ => ⟨_, rfl, rfl, rfl, rfl, .inr rfl⟩
  final := by simp [doneFinals]

-- Both Agents of the first Flow ask and are answered; those of the second do not ask.
theorem suspension_transparent_asked :
    ∃ result result' next h,
      ((SequentialFlowStrategy.drive {} duoDefinition ⟨"write", []⟩ (some 7)
        [.resume "the first", .resume "the second"]).eval askingEnv.exec {}).1 = .ok result ∧
      ((SequentialFlowStrategy.run {} duoDefinition ⟨"write", []⟩ none).eval promptEnv.exec {}).1 =
        .ok result' ∧
      (sent ((SequentialFlowStrategy.drive {} duoDefinition ⟨"write", []⟩ (some 7)
        [.resume "the first", .resume "the second"]).history askingEnv.exec {}))[1]? = some next ∧
      next.agentKey = "editor" ∧ next.input.handoff = some h ∧ h.sourceAgentKey = "writer" ∧
      h.summary = "done" ∧ result.status = .completed ∧ result.report = result'.report := by
  have hbudget : ∀ entry ∈ (SequentialFlowStrategy.drive {} duoDefinition ⟨"write", []⟩ (some 7)
      [.resume "the first", .resume "the second"]).history askingEnv.exec {},
        ¬ ReportsBudget entry.op := by
    decide
  have hbudget' : ∀ entry ∈ (SequentialFlowStrategy.run {} duoDefinition ⟨"write", []⟩
      none).history promptEnv.exec {}, ¬ ReportsBudget entry.op := by
    decide
  obtain ⟨⟨-, -, hhanded⟩, hended, -, -⟩ := suspension_transparent asking_answers {} (some 7)
    [.resume "the first", .resume "the second"] {} hbudget prompt_answers {} none {} hbudget'
  have hreturned : ∃ result, ((SequentialFlowStrategy.drive {} duoDefinition ⟨"write", []⟩ (some 7)
      [.resume "the first", .resume "the second"]).eval askingEnv.exec {}).1 = .ok result ∧
        result.status = .completed :=
    ⟨_, rfl, rfl⟩
  have hreturned' : ∃ result', ((SequentialFlowStrategy.run {} duoDefinition ⟨"write", []⟩
      none).eval promptEnv.exec {}).1 = .ok result' := ⟨_, rfl⟩
  have hsent : ∃ request next, (sent ((SequentialFlowStrategy.drive {} duoDefinition ⟨"write", []⟩
      (some 7) [.resume "the first", .resume "the second"]).history askingEnv.exec {}))[0]? =
        some request ∧ request.agentKey = "writer" ∧
      (sent ((SequentialFlowStrategy.drive {} duoDefinition ⟨"write", []⟩ (some 7)
        [.resume "the first", .resume "the second"]).history askingEnv.exec {}))[1]? = some next ∧
      next.agentKey = "editor" := ⟨_, _, rfl, rfl, rfl, rfl⟩
  obtain ⟨result, hresult, hstatus⟩ := hreturned
  obtain ⟨result', hresult'⟩ := hreturned'
  obtain ⟨request, next, hfirst, hwriter, hsecond, heditor⟩ := hsent
  obtain ⟨h, hhandoff, hsays⟩ := hhanded 0 request next hfirst hsecond
  rw [hwriter] at hsays
  have hcompared := hended result hresult (by simp [hstatus])
  exact ⟨result, result', next, h, hresult, hresult', hsecond, heditor, hhandoff, hsays.source,
    hsays.spoken "done" rfl (by decide), hstatus, (hcompared.2.2 result' hresult').2⟩

end Flows
end BaseAgent

import BaseAgent.Flows.Transport

/-!
# A cancellation against a running Flow

One coordinator runs, resumes or confirms a Flow while another client cancels it.
Once the cancellation is committed the stored snapshot does not change any more, and
the outcome of the coordinator depends only on the repository operation it performs
next.  Three reads notice the cancellation and end in its result: the read of
`settle_invocation`, whose transition error `_terminal_after_race` turns into the
result, that of `_terminal_after_race` itself, and that of `_reach_budget_limit`.
The others raise.

`Returns` is what a program does on the cancelled snapshot, and `Sound` says of every
point of a program that its aware reads lead to the result.
-/

namespace BaseAgent
namespace Flows

open Async

/-- The reads that notice a cancelled Flow. -/
def Reader.aware : Reader → Bool
  | settleInvocation | terminalAfterRace | reachBudgetLimit => true
  | _ => false

/-- A cancelled snapshot whose recorded counts make a valid result. -/
structure Cancelled (s : FlowRunState) : Prop where
  status : s.status = .cancelled
  explained : ∃ e, s.error = some e ∧ e ≠ ""
  modelCalls : 0 ≤ s.modelCallCount
  toolCalls : 0 ≤ s.toolCallCount

theorem Cancelled.terminal {s : FlowRunState} (h : Cancelled s) : s.status.terminal = true := by
  rw [h.status]
  rfl

theorem Cancelled.flowResult {s : FlowRunState} (h : Cancelled s) :
    ∃ result, flowResult s = .ok result ∧ result.status = .cancelled := by
  obtain ⟨e, he, hne⟩ := h.explained
  have hm := h.modelCalls
  have ht := h.toolCalls
  have hs := h.status
  cases hr : Flows.flowResult s with
  | error err =>
    simp [Flows.flowResult, FlowResult.validate, hs, he, hne, not_lt.mpr hm, not_lt.mpr ht] at hr
  | ok result =>
    simp [Flows.flowResult, FlowResult.validate, hs, he, hne, not_lt.mpr hm, not_lt.mpr ht] at hr
    exact ⟨result, rfl, by rw [← hr]⟩

section Programs

variable {α β : Type}

/-- The program only reads the snapshot `s`, and ends in `Q` or `E`. -/
def Returns (s : FlowRunState) (Q : α → Prop) (E : FlowError → Prop) : FlowProg α → Prop
  | .ret a => Q a
  | .raise e => E e
  | .call (.get _ id) k => id = s.runId ∧ Returns s Q E (k (.ok s))
  | .call _ _ => False

/-- At every point of the program, an aware read of a cancelled snapshot ends in `Q` or
`E`. -/
def Sound (Q : FlowRunState → α → Prop) (E : FlowRunState → FlowError → Prop) :
    FlowProg α → Prop
  | .call (.get reader id) k =>
    (reader.aware = true → ∀ s, Cancelled s → s.runId = id → Returns s (Q s) (E s) (k (.ok s))) ∧
      ∀ r, Sound Q E (k r)
  | .call _ k => ∀ r, Sound Q E (k r)
  | _ => True

theorem Returns.bind {s : FlowRunState} {Q : α → Prop} {E : FlowError → Prop} {R : β → Prop}
    {p : FlowProg α} {f : α → FlowProg β} (h : Returns s Q E p)
    (hf : ∀ a, Q a → Returns s R E (f a)) : Returns s R E (p.bind f) := by
  induction p with
  | ret a => exact hf a h
  | raise e => exact h
  | call o k ih =>
    cases o with
    | get reader id => exact ⟨h.1, ih _ h.2⟩
    | _ => exact h.elim

theorem Returns.attempt {s : FlowRunState} {Q : α → Prop} {E F : FlowError → Prop}
    {R : Except FlowError α → Prop} {p : FlowProg α} (h : Returns s Q E p)
    (hQ : ∀ a, Q a → R (.ok a)) (hE : ∀ e, E e → R (.error e)) :
    Returns s R F (p.attempt : FlowProg (Except FlowError α)) := by
  induction p with
  | ret a => exact hQ a h
  | raise e => exact hE e h
  | call o k ih =>
    cases o with
    | get reader id => exact ⟨h.1, ih _ h.2⟩
    | _ => exact h.elim

variable {Q : FlowRunState → α → Prop} {E F : FlowRunState → FlowError → Prop}

theorem Sound.step {o : FlowOp} {k : o.Ret → FlowProg α} (h : Sound Q E (.call o k)) (r : o.Ret) :
    Sound Q E (k r) := by
  cases o with
  | get reader id => exact h.2 r
  | _ => exact h r

theorem Sound.bind {R : FlowRunState → β → Prop} {p : FlowProg α} {f : α → FlowProg β}
    (hp : Sound Q E p) (hQ : ∀ s a, Cancelled s → Q s a → Returns s (R s) (E s) (f a))
    (hf : ∀ a, Sound R E (f a)) : Sound R E (p.bind f) := by
  induction p with
  | ret a => exact hf a
  | raise e => trivial
  | call o k ih =>
    cases o with
    | get reader id =>
      exact ⟨fun ha s hs hid => (hp.1 ha s hs hid).bind fun a => hQ s a hs,
        fun r => ih r (hp.2 r)⟩
    | _ => exact fun r => ih r (hp r)

theorem Sound.attempt {R : FlowRunState → Except FlowError α → Prop} {p : FlowProg α}
    (hp : Sound Q E p) (hQ : ∀ s a, Q s a → R s (.ok a)) (hE : ∀ s e, E s e → R s (.error e)) :
    Sound R F (p.attempt : FlowProg (Except FlowError α)) := by
  induction p with
  | ret a => trivial
  | raise e => trivial
  | call o k ih =>
    cases o with
    | get reader id =>
      exact ⟨fun ha s hs hid => (hp.1 ha s hs hid).attempt (hQ s) (hE s),
        fun r => ih r (hp.2 r)⟩
    | _ => exact fun r => ih r (hp r)

theorem Sound.then {R : FlowRunState → β → Prop} {p : FlowProg α} {f : α → FlowProg β}
    (hp : Sound (fun _ _ => False) E p) (hf : ∀ a, Sound R E (f a)) : Sound R E (p.bind f) :=
  hp.bind (fun _ _ _ h => h.elim) hf

theorem Sound.ofExcept (x : Except FlowError α) : Sound Q E (Prog.ofExcept x) := by
  cases x <;> trivial

theorem Sound.read {reader : Reader} (h : reader.aware = false) (runId : UUID)
    {Q : FlowRunState → FlowRunState → Prop} : Sound Q E (FlowLifecycle.read reader runId) := by
  refine ⟨fun ha => ?_, Sound.ofExcept⟩
  rw [h] at ha
  cases ha

theorem Sound.transact (lc : FlowLifecycle) {reader : Reader} (h : reader.aware = false)
    (runId : UUID) (transition : FlowRunState → Except FlowError Transition)
    {Q : FlowRunState → FlowRunState → Prop} : Sound Q E (lc.transact reader runId transition) := by
  refine (Sound.read h runId).then fun current => ?_
  refine (Sound.ofExcept _).then fun t => (Sound.ofExcept _).then fun token => ?_
  exact fun r => (Sound.ofExcept r).then fun _ => trivial

end Programs

abbrev Answers (s : FlowRunState) (result : FlowResult) : Prop := flowResult s = .ok result

theorem Cancelled.returns {s : FlowRunState} (h : Cancelled s) {E : FlowError → Prop} :
    Returns s (Answers s) E (Prog.ofExcept (Flows.flowResult s)) := by
  obtain ⟨result, hr, -⟩ := h.flowResult
  rw [hr]
  exact hr

/-! ## The programs of the strategy -/

section Strategy

variable (st : SequentialFlowStrategy) {E : FlowRunState → FlowError → Prop}

theorem Sound.record (lc : FlowLifecycle) (runId : UUID) (invocation : AgentInvocation)
    (errorType : String) {Q : FlowRunState → Unit → Prop} :
    Sound Q E (lc.recordCancellationPropagationFailure runId invocation errorType) := by
  refine (Sound.read rfl runId).then fun current => (Sound.ofExcept _).then fun token => ?_
  exact fun r => (Sound.ofExcept r).then fun _ => trivial

theorem Sound.propagateIf (active : Option AgentInvocation) (wanted : AgentInvocation → Bool)
    (reason : String) {Q : FlowRunState → Unit → Prop} :
    Sound Q E (st.propagateIf active wanted reason) := by
  unfold SequentialFlowStrategy.propagateIf SequentialFlowStrategy.propagateCancellation
  split
  · split
    · split
      · intro r
        dsimp only
        split
        · trivial
        · trivial
        · exact Sound.record _ _ _ _
      · exact Sound.record _ _ _ _
    · trivial
  · trivial

theorem Sound.resultOf {p : FlowProg FlowRunState} (hp : Sound (fun _ _ => False) E p)
    {Q : FlowRunState → FlowResult → Prop} : Sound Q E (SequentialFlowStrategy.resultOf p) :=
  hp.then fun _ => Sound.ofExcept _

theorem Sound.create (definition : FlowDefinition) (runId : Option UUID) (now : Time)
    {Q : FlowRunState → FlowRunState → Prop} :
    Sound Q E (FlowLifecycle.create definition runId now) := by
  have hcreate : ∀ deadlineAt runId, Sound Q E
      (.call (.create (FlowRunState.initial definition runId now deadlineAt)
        [createdDraft (FlowRunState.initial definition runId now deadlineAt)]) fun r =>
          (Prog.ofExcept r).bind fun _ =>
            .ret (FlowRunState.initial definition runId now deadlineAt)) :=
    fun deadlineAt runId r => (Sound.ofExcept r).then fun _ => trivial
  refine (Sound.ofExcept _).then fun deadlineAt => ?_
  cases runId with
  | some runId => exact hcreate deadlineAt runId
  | none => exact fun r => hcreate deadlineAt r

theorem Cancelled.terminalAfterRace {s : FlowRunState} (h : Cancelled s) {E : FlowError → Prop} :
    Returns s (fun r => ∃ result, r = some result ∧ Answers s result) E
      (SequentialFlowStrategy.terminalAfterRace s.runId) := by
  refine ⟨rfl, ?_⟩
  simp only [Prog.bind_eq, Prog.ofExcept_ok, Prog.ret_bind, h.terminal, if_true]
  refine h.returns.bind fun result hr => ?_
  exact ⟨result, rfl, hr⟩

theorem Sound.terminalAfterRace (runId : UUID) :
    Sound (fun s r => ∃ result, r = some result ∧ Answers s result) E
      (SequentialFlowStrategy.terminalAfterRace runId) := by
  refine ⟨fun _ s hs hid => ?_, fun r => (Sound.ofExcept r).then fun current => ?_⟩
  · subst hid
    exact hs.terminalAfterRace.2
  · split
    · exact (Sound.ofExcept _).then fun _ => trivial
    · trivial

theorem Sound.reachBudgetLimit (runId : UUID) (violation : FlowBudgetExceeded) :
    Sound Answers E (st.reachBudgetLimit runId violation) := by
  refine ⟨fun _ s hs hid => ?_, fun r => (Sound.ofExcept r).then fun current => ?_⟩
  · simp only [Prog.ofExcept_ok, Prog.ret_bind, hs.terminal, if_true]
    exact hs.returns
  · split
    · exact Sound.ofExcept _
    · exact (Sound.transact _ rfl _ _).then fun limited =>
        (Sound.propagateIf st _ _ _).then fun _ => Sound.ofExcept _

theorem Sound.timeoutLimit (s : FlowRunState) : Sound Answers E (st.timeoutLimit s) := fun _ =>
  (Sound.ofExcept _).then fun _ => (Sound.ofExcept _).then fun _ => Sound.reachBudgetLimit st _ _

theorem Sound.transportFailure (runId : UUID) (agentKey operation errorType error : String) :
    Sound Answers E (st.transportFailure runId agentKey operation errorType error) := by
  refine (Sound.terminalAfterRace runId).bind ?_ fun terminal => ?_
  · rintro s _ hs ⟨result, rfl, hr⟩
    exact hr
  · cases terminal with
    | some result => trivial
    | none => exact Sound.resultOf (Sound.transact _ rfl _ _)

theorem Sound.handleOutcome (s : FlowRunState) (result : AgentInvocationResult)
    {Q : FlowRunState → Option FlowResult → Prop} : Sound Q E (st.handleOutcome s result) := by
  unfold SequentialFlowStrategy.handleOutcome
  split
  · trivial
  · exact (Sound.ofExcept _).then fun _ => trivial
  · exact (Sound.resultOf (Sound.transact _ rfl _ _)).then fun _ => trivial

theorem Cancelled.settleTransition {s : FlowRunState} (h : Cancelled s) (runId : UUID)
    (result : AgentInvocationResult) :
    ∃ message, settleTransition runId result s = .error (.invalidTransition message) := by
  have hs : s.settleInvocation result = .error (.invalidTransition
      s!"cannot settle an invocation while Flow Run is '{s.status.value}'") := by
    simp only [FlowRunState.settleInvocation, raiseIf, h.status]
    rfl
  exact ⟨_, by rw [Flows.settleTransition, hs]; rfl⟩

theorem Sound.settleInvocation (lc : FlowLifecycle) (runId : UUID) (result : AgentInvocationResult) :
    Sound (fun _ _ => False) (fun s e => s.runId = runId ∧ ∃ message, e = .invalidTransition message)
      (lc.settleInvocation runId result) := by
  refine ⟨fun _ s hs hid => ?_, fun r => (Sound.ofExcept r).then fun current => ?_⟩
  · obtain ⟨message, he⟩ := hs.settleTransition runId result
    simp only [Prog.bind_eq, Prog.ofExcept_ok, Prog.ret_bind, he]
    exact ⟨hid, message, rfl⟩
  · refine (Sound.ofExcept _).then fun t => (Sound.ofExcept _).then fun token => ?_
    exact fun r => (Sound.ofExcept r).then fun _ => trivial

theorem Sound.settleFailed (runId : UUID) (agentKey operation : String) (e : FlowError) :
    Sound Answers E (st.settleFailed runId agentKey operation e) := by
  unfold SequentialFlowStrategy.settleFailed
  split
  · refine (Sound.terminalAfterRace runId).bind ?_ fun terminal => ?_
    · rintro s _ hs ⟨result, rfl, hr⟩
      exact hr
    · cases terminal <;> trivial
  · split
    · exact Sound.transportFailure st _ _ _ _ _
    · trivial

theorem Cancelled.settleFailed {s : FlowRunState} (h : Cancelled s) (agentKey operation : String)
    (message : String) {E : FlowError → Prop} :
    Returns s (Answers s) E
      (st.settleFailed s.runId agentKey operation (.invalidTransition message)) := by
  refine h.terminalAfterRace.bind ?_
  rintro _ ⟨result, rfl, hr⟩
  exact hr

theorem Sound.afterSettled (settled : FlowRunState) (result : AgentInvocationResult)
    {continueWith : FlowRunState → AgentInvocationResult → FlowProg FlowResult}
    (h : ∀ settled result, Sound Answers E (continueWith settled result)) :
    Sound Answers E (st.afterSettled settled result continueWith) := by
  refine fun now => (Sound.ofExcept _).then fun violation => ?_
  cases violation with
  | some violation => exact Sound.reachBudgetLimit st _ _
  | none =>
    refine (Sound.handleOutcome st settled result).then fun terminal => ?_
    cases terminal with
    | some terminal => trivial
    | none => exact h settled result

theorem Sound.afterTransport (state : FlowRunState) (runId : UUID)
    (agentKey operation interrupted : String)
    {continueWith : FlowRunState → AgentInvocationResult → FlowProg FlowResult}
    (h : ∀ settled result, Sound Answers E (continueWith settled result)) (outcome : Transported) :
    Sound Answers E
      (st.afterTransport state runId agentKey operation interrupted continueWith outcome) := by
  cases outcome with
  | timeout => exact Sound.timeoutLimit st state
  | cancelled => exact (Sound.transact _ rfl _ _).then fun _ => trivial
  | raised errorType message => exact Sound.transportFailure st _ _ _ _ _
  | result result =>
    have hsettle := (Sound.settleInvocation st.lifecycle runId result).attempt (F := E)
      (R := fun s r => s.runId = runId ∧ ∃ message, r = .error (.invalidTransition message))
      (fun _ _ h => h.elim) fun s e he => ⟨he.1, he.2.imp fun _ h => congrArg _ h⟩
    refine hsettle.bind ?_ fun settled => ?_
    · rintro s _ hs ⟨rfl, message, rfl⟩
      exact hs.settleFailed st _ _ _
    · cases settled with
      | error e => exact Sound.settleFailed st _ _ _ _
      | ok settled => exact Sound.afterSettled st _ _ h

theorem Sound.advance (definition : FlowDefinition) (input : FlowInput) (fuel : Nat)
    (state : FlowRunState) (previous : Option AgentInvocationResult) :
    Sound Answers E (st.advance definition input fuel state previous) := by
  induction fuel generalizing state previous with
  | zero =>
    unfold SequentialFlowStrategy.advance
    split
    · exact (Sound.ofExcept _).then fun _ => Sound.resultOf (Sound.transact _ rfl _ _)
    · trivial
  | succ fuel ih =>
    unfold SequentialFlowStrategy.advance
    split
    · exact (Sound.ofExcept _).then fun _ => Sound.resultOf (Sound.transact _ rfl _ _)
    · refine fun now => (Sound.ofExcept _).then fun violation => ?_
      cases violation with
      | some violation => exact Sound.reachBudgetLimit st _ _
      | none =>
        refine fun id => (Sound.ofExcept _).then fun request => ?_
        refine (Sound.transact _ rfl _ _).then fun begun => ?_
        exact fun now outcome => Sound.afterTransport st _ _ _ _ _ (fun _ _ => ih _ _) outcome

theorem Sound.resumeWaiting (definition : FlowDefinition) (runId : UUID)
    (userInput : Option String) (confirmation : Option ToolConfirmation) :
    Sound Answers E (st.resumeWaiting definition runId userInput confirmation) := by
  refine (Sound.ofExcept _).then fun _ => (Sound.read rfl runId).then fun waiting => ?_
  refine (Sound.ofExcept _).then fun _ => fun now => (Sound.ofExcept _).then fun violation => ?_
  cases violation with
  | some violation => exact Sound.reachBudgetLimit st _ _
  | none =>
    refine (Sound.ofExcept _).then fun active => (Sound.transact _ rfl _ _).then fun _ => ?_
    refine (Sound.ofExcept _).then fun request => ?_
    exact fun now outcome =>
      Sound.afterTransport st _ _ _ _ _ (fun _ _ => Sound.advance st _ _ _ _ _) outcome

theorem Sound.cancel (runId : UUID) (reason : String) :
    Sound Answers E (st.cancel runId reason) := by
  refine (Sound.ofExcept _).then fun _ => (Sound.ofExcept _).then fun _ => ?_
  refine (Sound.read rfl runId).then fun current => ?_
  split
  · exact Sound.ofExcept _
  · split
    · trivial
    · exact (Sound.transact _ rfl _ _).then fun cancelled =>
        (Sound.propagateIf st _ _ _).then fun _ => Sound.ofExcept _

theorem Sound.flowCall (call : FlowCall) : Sound Answers E (call.prog st) := by
  cases call with
  | run definition input runId =>
    refine (Sound.ofExcept _).then fun _ => fun now => ?_
    refine (Sound.create definition runId now).then fun created => ?_
    exact (Sound.transact _ rfl _ _).then fun started => Sound.advance st _ _ _ _ _
  | resume definition runId userInput => exact Sound.resumeWaiting st _ _ _ _
  | confirm definition runId confirmation => exact Sound.resumeWaiting st _ _ _ _
  | cancel runId reason => exact Sound.cancel st _ _

end Strategy

/-! ## The canceller -/

section Canceller

variable {α β : Type}

def Quiet : FlowProg α → Prop
  | .call (.create _ _) _ => False
  | .call (.commit _ _ _ _) _ => False
  | .call _ k => ∀ r, Quiet (k r)
  | _ => True

/-- The program stores at most one snapshot, which is cancelled with a reason. -/
def Cancels : FlowProg α → Prop
  | .call (.create _ _) _ => False
  | .call (.commit s _ _ _) k =>
    s.status = .cancelled ∧ (∃ e, s.error = some e ∧ e ≠ "") ∧ ∀ r, Quiet (k r)
  | .call _ k => ∀ r, Cancels (k r)
  | _ => True

theorem Quiet.step {o : FlowOp} {k : o.Ret → FlowProg α} (h : Quiet (.call o k)) (r : o.Ret) :
    Quiet (k r) := by
  cases o with
  | create state drafts => exact h.elim
  | commit state expected drafts token => exact h.elim
  | _ => exact h r

theorem Quiet.bind {p : FlowProg α} {f : α → FlowProg β} (hp : Quiet p) (hf : ∀ a, Quiet (f a)) :
    Quiet (p.bind f) := by
  induction p with
  | ret a => exact hf a
  | raise e => trivial
  | call o k ih =>
    cases o with
    | create state drafts => exact hp.elim
    | commit state expected drafts token => exact hp.elim
    | _ => exact fun r => ih r (hp r)

theorem Quiet.ofExcept (x : Except FlowError α) : Quiet (Prog.ofExcept x) := by
  cases x <;> trivial

theorem Quiet.cancels {p : FlowProg α} (h : Quiet p) : Cancels p := by
  induction p with
  | ret a => trivial
  | raise e => trivial
  | call o k ih =>
    cases o with
    | create state drafts => exact h.elim
    | commit state expected drafts token => exact h.elim
    | _ => exact fun r => ih r (h r)

theorem Cancels.step {o : FlowOp} {k : o.Ret → FlowProg α} (h : Cancels (.call o k)) (r : o.Ret) :
    Cancels (k r) := by
  cases o with
  | create state drafts => exact h.elim
  | commit state expected drafts token => exact (h.2.2 r).cancels
  | _ => exact h r

theorem Quiet.then {p : FlowProg α} {f : α → FlowProg β} (hp : Quiet p)
    (hf : ∀ a, Cancels (f a)) : Cancels (p.bind f) := by
  induction p with
  | ret a => exact hf a
  | raise e => trivial
  | call o k ih =>
    cases o with
    | create state drafts => exact hp.elim
    | commit state expected drafts token => exact hp.elim
    | _ => exact fun r => ih r (hp r)

theorem Cancels.then {p : FlowProg α} {f : α → FlowProg β} (hp : Cancels p)
    (hf : ∀ a, Quiet (f a)) : Cancels (p.bind f) := by
  induction p with
  | ret a => exact (hf a).cancels
  | raise e => trivial
  | call o k ih =>
    cases o with
    | create state drafts => exact hp.elim
    | commit state expected drafts token =>
      exact ⟨hp.1, hp.2.1, fun r => (hp.2.2 r).bind hf⟩
    | _ => exact fun r => ih r (hp r)

theorem Quiet.record (lc : FlowLifecycle) (runId : UUID) (invocation : AgentInvocation)
    (errorType : String) :
    Quiet (lc.recordCancellationPropagationFailure runId invocation errorType) := by
  refine fun r => (Quiet.ofExcept r).bind fun current => (Quiet.ofExcept _).bind fun token => ?_
  exact fun r => (Quiet.ofExcept r).bind fun _ => trivial

theorem Quiet.propagateIf (st : SequentialFlowStrategy) (active : Option AgentInvocation)
    (wanted : AgentInvocation → Bool) (reason : String) :
    Quiet (st.propagateIf active wanted reason) := by
  unfold SequentialFlowStrategy.propagateIf SequentialFlowStrategy.propagateCancellation
  split
  · split
    · split
      · intro r
        dsimp only
        split
        · trivial
        · trivial
        · exact Quiet.record _ _ _ _
      · exact Quiet.record _ _ _ _
    · trivial
  · trivial

theorem Cancels.terminate (lc : FlowLifecycle) (runId : UUID) (reason : String) :
    Cancels (lc.cancel runId reason) := by
  intro r
  refine (Quiet.ofExcept r).then fun current => ?_
  cases ht : terminateTransition runId .cancel reason [] current with
  | error e => trivial
  | ok t =>
    simp only [Prog.bind_eq, Prog.ofExcept_ok, Prog.ret_bind]
    refine (Quiet.ofExcept _).then fun token => ?_
    obtain ⟨state, hs, h'⟩ := Except.bind_ok.mp ht
    obtain ⟨_, -, ht'⟩ := Except.bind_ok.mp h'
    obtain ⟨-, hblank, _, -, rfl⟩ := FlowRunState.terminate_ok hs
    obtain rfl := Except.ok.inj ht'
    refine ⟨rfl, ⟨reason, rfl, ?_⟩, fun r => (Quiet.ofExcept r).bind fun _ => trivial⟩
    rintro rfl
    exact absurd hblank (by decide)

theorem Cancels.cancel (st : SequentialFlowStrategy) (runId : UUID) (reason : String) :
    Cancels (st.cancel runId reason) := by
  refine (Quiet.ofExcept _).then fun _ => (Quiet.ofExcept _).then fun _ => ?_
  refine fun r => (Quiet.ofExcept r).then fun current => ?_
  split
  · exact (Quiet.ofExcept _).cancels
  · split
    · trivial
    · refine (Cancels.terminate st.lifecycle runId reason).then fun cancelled => ?_
      exact (Quiet.propagateIf st _ _ _).bind fun _ => Quiet.ofExcept _

theorem Quiet.states {env : FlowEnv} {o : FlowOp} {k : o.Ret → FlowProg α}
    (h : Quiet (.call o k)) (w : FlowWorld) :
    (env.exec o w).2.repo.states = w.repo.states := by
  cases o with
  | create state drafts => exact h.elim
  | commit state expected drafts token => exact h.elim
  | get reader runId => exact get_states env w reader runId
  | appendEvents runId expected drafts token =>
    rcases w.repo.appendEvents_cases (env.repositoryClock w.steps) runId expected drafts token with
      ⟨e, h⟩ | ⟨_, -, -, -, -, h⟩
    · simp [FlowEnv.exec, FlowEnv.reply, h]
    · simp [FlowEnv.exec, FlowEnv.reply, h, InMemoryFlowRepository.extend]
  | listEvents runId =>
    simp only [FlowEnv.exec, FlowEnv.reply, InMemoryFlowRepository.listEvents]
    split <;> rfl
  | acquireExecution runId ownerId ttl =>
    rcases w.repo.acquireExecution_cases (env.repositoryClock w.steps) (env.uuid4 w.steps) runId
      ownerId ttl with ⟨e, h⟩ | ⟨_, -, -, -, h⟩
    · simp [FlowEnv.exec, FlowEnv.reply, h]
    · simp [FlowEnv.exec, FlowEnv.reply, h, InMemoryFlowRepository.setLease]
  | renewExecution lease ttl =>
    rcases w.repo.renewExecution_cases (env.repositoryClock w.steps) lease ttl with
      ⟨e, h⟩ | ⟨_, -, -, -, h⟩
    · simp [FlowEnv.exec, FlowEnv.reply, h]
    · simp [FlowEnv.exec, FlowEnv.reply, h, InMemoryFlowRepository.setLease]
  | releaseExecution lease =>
    rcases w.repo.releaseExecution_cases lease with ⟨e, h⟩ | ⟨_, _, -, -, h⟩
    · simp [FlowEnv.exec, FlowEnv.reply, h]
    · simp [FlowEnv.exec, FlowEnv.reply, h, InMemoryFlowRepository.setLease]
  | clock => rfl
  | uuid4 => rfl
  | invoke request remaining => rfl
  | resume request remaining => rfl
  | cancel request => rfl

end Canceller

/-! ## The race -/

inductive Actor where
  | coordinator | canceller
  deriving DecidableEq, Repr

abbrev Race := Pool Actor FlowOp FlowOp.Ret FlowError FlowResult FlowWorld

/-- A coordinator's call and a `cancel` on one repository, whatever it holds. -/
def race (coordinating cancelling : SequentialFlowStrategy) (call : FlowCall) (runId : UUID)
    (reason : String) (w : FlowWorld) : Race where
  shared := w
  tasks
    | .coordinator => call.prog coordinating
    | .canceller => cancelling.cancel runId reason

def storedSnapshot : List (FlowEntry Actor) → Option FlowRunState
  | [⟨_, .commit s _ _ _, .ok _⟩] => some s
  | _ => none

/-- The next step of the canceller is its commit of `s`, and it is accepted. -/
def CommitsCancellation (env : FlowEnv) (c : Race) (s : FlowRunState) : Prop :=
  storedSnapshot (c.entry env.exec .canceller) = some s

/-- The coordinator's first operation on the repository, the opening read of `resume` and
`confirm` apart, is an aware read of the Run. -/
def firstAware (runId : UUID) : List (FlowEntry Actor) → Bool
  | [] => false
  | ⟨.canceller, _, _⟩ :: rest => firstAware runId rest
  | ⟨.coordinator, o, _⟩ :: rest =>
    match o with
    | .get reader id =>
      (reader.aware && id == runId) || (reader == .resumeWaiting && firstAware runId rest)
    | .clock | .uuid4 | .invoke _ _ | .resume _ _ | .cancel _ => firstAware runId rest
    | _ => false

/-- The race after the cancellation: it is stored, and the canceller stores nothing more. -/
structure Decided (c : Race) (s : FlowRunState) : Prop where
  stored : c.shared.repo.states s.runId = some s
  quiet : Quiet (c.tasks .canceller)

theorem Decided.canceller {c : Race} {s : FlowRunState} (h : Decided c s) (env : FlowEnv) :
    Decided (c.step env.exec .canceller) s ∧
      (c.step env.exec .canceller).tasks .coordinator = c.tasks .coordinator := by
  have hq := h.quiet
  cases hc : c.tasks .canceller with
  | ret a =>
    rw [Pool.step_done env.exec (by rw [hc]; rfl)]
    exact ⟨h, rfl⟩
  | raise e =>
    rw [Pool.step_done env.exec (by rw [hc]; rfl)]
    exact ⟨h, rfl⟩
  | call o k =>
    rw [hc] at hq
    rw [Pool.step_call env.exec hc]
    refine ⟨⟨?_, ?_⟩, rfl⟩
    · show (env.exec o c.shared).2.repo.states s.runId = some s
      rw [hq.states]
      exact h.stored
    · simpa using hq.step _

theorem Decided.coordinator {c : Race} {s : FlowRunState} (h : Decided c s) {env : FlowEnv}
    {o : FlowOp} {k : o.Ret → FlowProg FlowResult} (hc : c.tasks .coordinator = .call o k)
    (ho : ∀ w, (env.exec o w).2.repo.states = w.repo.states) :
    Decided (c.step env.exec .coordinator) s ∧
      (c.step env.exec .coordinator).tasks .coordinator = k (env.exec o c.shared).1 := by
  rw [Pool.step_call env.exec hc]
  refine ⟨⟨?_, h.quiet⟩, by simp⟩
  show (env.exec o c.shared).2.repo.states s.runId = some s
  rw [ho]
  exact h.stored

theorem get_stored (env : FlowEnv) {w : FlowWorld} {s : FlowRunState}
    (h : w.repo.states s.runId = some s) (reader : Reader) :
    (env.exec (.get reader s.runId) w).1 = .ok s := by
  simp only [FlowEnv.exec, FlowEnv.reply, InMemoryFlowRepository.get, h]
  rfl

theorem Decided.returns {c : Race} {s : FlowRunState} (h : Decided c s) (env : FlowEnv)
    {Q : FlowResult → Prop} {E : FlowError → Prop} (hr : Returns s Q E (c.tasks .coordinator))
    (schedule : List Actor) :
    Decided (c.run env.exec schedule) s ∧
      Returns s Q E ((c.run env.exec schedule).tasks .coordinator) := by
  induction schedule generalizing c with
  | nil => exact ⟨h, hr⟩
  | cons actor rest ih =>
    cases actor with
    | canceller =>
      obtain ⟨h', htask⟩ := h.canceller env
      exact ih h' (by rw [htask]; exact hr)
    | coordinator =>
      cases hc : c.tasks .coordinator with
      | ret a =>
        rw [Pool.run_cons, Pool.step_done env.exec (by rw [hc]; rfl)]
        exact ih h hr
      | raise e =>
        rw [Pool.run_cons, Pool.step_done env.exec (by rw [hc]; rfl)]
        exact ih h hr
      | call o k =>
        rw [hc] at hr
        cases o with
        | get reader id =>
          obtain ⟨rfl, hk⟩ := hr
          obtain ⟨h', htask⟩ := h.coordinator hc fun w => get_states env w reader _
          refine ih h' ?_
          rw [htask, get_stored env h.stored]
          exact hk
        | _ => exact hr.elim

theorem Decided.ends {c : Race} {s : FlowRunState} (h : Decided c s) (env : FlowEnv)
    {Q : FlowResult → Prop} (hr : Returns s Q (fun _ => False) (c.tasks .coordinator)) :
    ∃ n result, (c.run env.exec (List.replicate n .coordinator)).tasks .coordinator = .ret result ∧
      Q result := by
  generalize hp : c.tasks .coordinator = p at hr
  induction p generalizing c with
  | ret result => exact ⟨0, result, hp, hr⟩
  | raise e => exact hr.elim
  | call o k ih =>
    cases o with
    | get reader id =>
      obtain ⟨rfl, hk⟩ := hr
      obtain ⟨h', htask⟩ := h.coordinator hp fun w => get_states env w reader _
      rw [get_stored env h.stored] at htask
      obtain ⟨n, result, hend⟩ := ih _ h' htask hk
      exact ⟨n + 1, result, hend⟩
    | _ => exact hr.elim

/-- Up to its aware read the coordinator leaves the cancelled snapshot alone, and from
there on it only reads it. -/
theorem Decided.reaches {c : Race} {s : FlowRunState} (h : Decided c s) (hs : Cancelled s)
    (env : FlowEnv) (hsound : Sound Answers (fun _ _ => False) (c.tasks .coordinator))
    {schedule : List Actor} (haware : firstAware s.runId (c.trace env.exec schedule) = true) :
    Decided (c.run env.exec schedule) s ∧
      Returns s (Answers s) (fun _ => False) ((c.run env.exec schedule).tasks .coordinator) := by
  induction schedule generalizing c with
  | nil => cases haware
  | cons actor rest ih =>
    rw [Pool.trace] at haware
    cases actor with
    | canceller =>
      obtain ⟨h', htask⟩ := h.canceller env
      refine ih h' (by rw [htask]; exact hsound) ?_
      unfold Pool.entry at haware
      split at haware
      · exact haware
      · exact haware
    | coordinator =>
      cases hc : c.tasks .coordinator with
      | ret a =>
        have hdone : (c.tasks .coordinator).done = true := by rw [hc]; rfl
        rw [Pool.step_done env.exec hdone, Pool.entry, hc] at haware
        rw [Pool.run_cons, Pool.step_done env.exec hdone]
        exact ih h hsound haware
      | raise e =>
        have hdone : (c.tasks .coordinator).done = true := by rw [hc]; rfl
        rw [Pool.step_done env.exec hdone, Pool.entry, hc] at haware
        rw [Pool.run_cons, Pool.step_done env.exec hdone]
        exact ih h hsound haware
      | call o k =>
        rw [hc] at hsound
        rw [Pool.entry, hc] at haware
        -- the coordinator's operation stores nothing, so only the reply matters
        have hgo : (∀ w, (env.exec o w).2.repo.states = w.repo.states) →
            firstAware s.runId ((c.step env.exec .coordinator).trace env.exec rest) = true →
            Decided (c.run env.exec (.coordinator :: rest)) s ∧ Returns s (Answers s)
              (fun _ => False) ((c.run env.exec (.coordinator :: rest)).tasks .coordinator) := by
          intro ho hrest
          obtain ⟨h', htask⟩ := h.coordinator hc ho
          exact ih h' (by rw [htask]; exact hsound.step _) hrest
        cases o with
        | get reader id =>
          simp only [List.singleton_append, firstAware, Bool.or_eq_true, Bool.and_eq_true,
            beq_iff_eq] at haware
          rcases haware with ⟨haware, rfl⟩ | ⟨-, hrest⟩
          · obtain ⟨h', htask⟩ := h.coordinator hc fun w => get_states env w reader _
            rw [get_stored env h.stored] at htask
            exact h'.returns env (by rw [htask]; exact hsound.1 haware s hs rfl) rest
          · exact hgo (fun w => get_states env w reader id) hrest
        | clock => exact hgo (fun _ => rfl) haware
        | uuid4 => exact hgo (fun _ => rfl) haware
        | invoke request remaining => exact hgo (fun _ => rfl) haware
        | resume request remaining => exact hgo (fun _ => rfl) haware
        | cancel request => exact hgo (fun _ => rfl) haware
        | _ => cases haware

theorem CommitsCancellation.decided {env : FlowEnv} {c : Race} {s : FlowRunState}
    (h : CommitsCancellation env c s) (hc : Cancels (c.tasks .canceller)) :
    (s.status = .cancelled ∧ ∃ e, s.error = some e ∧ e ≠ "") ∧
      Decided (c.step env.exec .canceller) s ∧
      (c.step env.exec .canceller).tasks .coordinator = c.tasks .coordinator := by
  unfold CommitsCancellation Pool.entry at h
  cases htask : c.tasks .canceller with
  | ret a => simp [htask, storedSnapshot] at h
  | raise e => simp [htask, storedSnapshot] at h
  | call o k =>
    rw [htask] at h hc
    cases o with
    | commit state expected drafts token =>
      obtain ⟨hstatus, hexplained, hquiet⟩ := hc
      rw [Pool.step_call env.exec htask]
      rcases c.shared.repo.commit_cases (env.repositoryClock c.shared.steps) state expected drafts
        token with ⟨e, hcase⟩ | ⟨_, -, -, -, -, hcase⟩
      · simp [storedSnapshot, FlowEnv.exec, FlowEnv.reply, hcase] at h
      · simp only [storedSnapshot, FlowEnv.exec, FlowEnv.reply, hcase, Option.some.injEq] at h
        subst h
        refine ⟨⟨hstatus, hexplained⟩, ⟨?_, by simpa using hquiet _⟩, rfl⟩
        simp [FlowEnv.exec, FlowEnv.reply, hcase, InMemoryFlowRepository.write]
    | _ => simp [storedSnapshot] at h

/-- The coordinator has returned the result and the Run is stored as `s`. -/
def EndsWith (c : Race) (s : FlowRunState) (result : FlowResult) : Prop :=
  c.shared.repo.states s.runId = some s ∧ c.tasks .coordinator = .ret result

/-- Whatever the interleaving before and after the accepted commit of the cancellation:
if the next operation of the coordinator on the repository is an aware read, it returns
the result of the stored, cancelled Flow. -/
theorem cancellation_ends_coordinator (env : FlowEnv)
    (coordinating cancelling : SequentialFlowStrategy) (call : FlowCall) (runId : UUID)
    (reason : String) (w : FlowWorld) (before after : List Actor) (s : FlowRunState)
    (hcommit : CommitsCancellation env
      ((race coordinating cancelling call runId reason w).run env.exec before) s)
    (hmodel : 0 ≤ s.modelCallCount) (htool : 0 ≤ s.toolCallCount)
    (haware : firstAware s.runId
      ((((race coordinating cancelling call runId reason w).run env.exec before).step env.exec
        .canceller).trace env.exec after) = true) :
    ∃ result n, s.status = .cancelled ∧ flowResult s = .ok result ∧ result.status = .cancelled ∧
      EndsWith ((race coordinating cancelling call runId reason w).run env.exec
        (before ++ .canceller :: after ++ List.replicate n .coordinator)) s result := by
  generalize hc : (race coordinating cancelling call runId reason w).run env.exec before = c at *
  have hsound : Sound Answers (fun _ _ => False) (c.tasks .coordinator) := by
    rw [← hc]
    exact Pool.run_task env.exec (fun _ _ h => h.step) (Sound.flowCall coordinating call) before
  have hcancels : Cancels (c.tasks .canceller) := by
    rw [← hc]
    exact Pool.run_task env.exec (fun _ _ h => h.step) (Cancels.cancel cancelling runId reason)
      before
  obtain ⟨⟨hstatus, hexplained⟩, hdecided, htask⟩ := hcommit.decided hcancels
  have hs : Cancelled s := ⟨hstatus, hexplained, hmodel, htool⟩
  obtain ⟨hlater, hreturns⟩ := hdecided.reaches hs env (by rw [htask]; exact hsound) haware
  obtain ⟨n, result, hend, hresult⟩ := hlater.ends env hreturns
  refine ⟨result, n, hstatus, hresult, ?_, ?_⟩
  · obtain ⟨result', hr, hst⟩ := hs.flowResult
    rw [hresult] at hr
    rwa [Except.ok.inj hr]
  · rw [Pool.run_append, Pool.run_append, Pool.run_cons, hc]
    exact ⟨(hlater.returns env hreturns _).1.stored, hend⟩

def completingEnv : FlowEnv :=
  { failingEnv with
    invoke := fun _ request _ => .result
      { flowRunId := request.flowRunId
        invocationId := request.invocationId
        agentKey := request.agentKey
        status := .completed
        output := some "done"
        valid := AgentInvocationResult.completed_valid } }

def cancelledAfter (steps : Nat) : Race :=
  (race {} {} (.run soloDefinition ⟨"write", []⟩ (some 7)) 7 "stop" {}).run completingEnv.exec
    (List.replicate steps .coordinator ++ [.canceller, .canceller])

def cancelledSnapshot (c : Race) : Option (RunStatus × UUID × Int × Int) :=
  (storedSnapshot (c.entry completingEnv.exec .canceller)).map fun s =>
    (s.status, s.runId, s.modelCallCount, s.toolCallCount)

-- The coordinator has the Agent's result and is about to settle it.
theorem cancellation_ends_coordinator_settling :
    ∃ s result n, s.status = .cancelled ∧ flowResult s = .ok result ∧
      result.status = .cancelled ∧
      EndsWith ((race {} {} (.run soloDefinition ⟨"write", []⟩ (some 7)) 7 "stop" {}).run
        completingEnv.exec (List.replicate 10 .coordinator ++ [.canceller, .canceller] ++
          .canceller :: [.coordinator] ++ List.replicate n .coordinator)) s result := by
  have hview : cancelledSnapshot (cancelledAfter 10) = some (.cancelled, 7, 0, 0) := by
    decide
  obtain ⟨s, hs, hfields⟩ := Option.map_eq_some_iff.mp hview
  simp only [Prod.mk.injEq] at hfields
  obtain ⟨-, hrun, hmodel, htool⟩ := hfields
  have haware : firstAware 7 (((cancelledAfter 10).step completingEnv.exec .canceller).trace
      completingEnv.exec [.coordinator]) = true := by decide
  exact ⟨s, cancellation_ends_coordinator completingEnv {} {} _ 7 "stop" {} _ [.coordinator] s hs
    (by rw [hmodel]) (by rw [htool]) (by rw [hrun]; exact haware)⟩

-- The coordinator has settled the result and is about to complete the Flow.
theorem cancellation_before_completion :
    cancelledSnapshot (cancelledAfter 13) = some (.cancelled, 7, 0, 0) ∧
      ((cancelledAfter 13).run completingEnv.exec [.canceller, .coordinator]).tasks .coordinator =
        .raise (.invalidTransition "cannot complete Flow Run in state 'cancelled'") := by
  constructor
  · decide
  · rw [← Prog.raised_eq_some]
    decide

end Flows
end BaseAgent

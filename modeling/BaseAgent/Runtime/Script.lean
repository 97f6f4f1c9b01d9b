import BaseAgent.Runtime.Handle

/-!
# A proof rule for the tasks that execute a Run

`Point` names the places of an execution between which the program only changes what no
property below looks at.  A `Script` is an assertion for each point, with what each
operation between them must do to it.  From a script this module derives, along the code of
the strategy, the engine and the Agent, that the task keeps the outline the script is
about.  The code is walked here once; a property of executions is a script.
-/

namespace BaseAgent
namespace Runtime

open Async

/-- The contexts agree on all but the fields that only results and messages to the user
read. -/
structure RuntimeContext.Similar (a b : RuntimeContext) : Prop where
  runId : b.runId = a.runId := by rfl
  conversationId : b.conversationId = a.conversationId := by rfl
  profile : b.profile = a.profile := by rfl
  messages : b.messages = a.messages := by rfl
  enabledToolNames : b.enabledToolNames = a.enabledToolNames := by rfl
  state : b.state = a.state := by rfl
  stepCount : b.stepCount = a.stepCount := by rfl
  toolCallCount : b.toolCallCount = a.toolCallCount := by rfl
  responses : b.responses = a.responses := by rfl
  batch : b.supervision.suspendedActionBatch = a.supervision.suspendedActionBatch := by rfl
  decision : b.supervision.toolConfirmationDecision = a.supervision.toolConfirmationDecision := by
    rfl
  pendingInput : b.pendingInput = a.pendingInput := by rfl

theorem RuntimeContext.Similar.of_eq {a b : RuntimeContext}
    (h : (b.runId, b.conversationId, b.profile, b.messages, b.enabledToolNames, b.state,
        b.stepCount, b.toolCallCount, b.responses, b.supervision.suspendedActionBatch,
        b.supervision.toolConfirmationDecision, b.pendingInput) =
      (a.runId, a.conversationId, a.profile, a.messages, a.enabledToolNames, a.state,
        a.stepCount, a.toolCallCount, a.responses, a.supervision.suspendedActionBatch,
        a.supervision.toolConfirmationDecision, a.pendingInput)) : a.Similar b := by
  simp only [Prod.mk.injEq] at h
  obtain ⟨h₁, h₂, h₃, h₄, h₅, h₆, h₇, h₈, h₉, h₁₀, h₁₁, h₁₂⟩ := h
  exact ⟨h₁, h₂, h₃, h₄, h₅, h₆, h₇, h₈, h₉, h₁₀, h₁₁, h₁₂⟩

inductive Point where
  /-- The head of the loop. -/
  | head
  /-- After `before_model`. -/
  | cleared
  /-- The model is asked. -/
  | asking
  /-- The calls still to be executed, with the confirmation in scope. -/
  | batch (confirmations : Option (String × ToolConfirmation)) (calls : List ToolCall)
  /-- The first of them is about to be executed. -/
  | ready (confirmations : Option (String × ToolConfirmation)) (call : ToolCall)
      (rest : List ToolCall)
  | executed (confirmations : Option (String × ToolConfirmation)) (call : ToolCall)
      (rest : List ToolCall) (result : ToolResult)
  /-- Its result is in the messages. -/
  | observed (confirmations : Option (String × ToolConfirmation)) (call : ToolCall)
      (rest : List ToolCall)
  /-- The batch is suspended, which has not been announced. -/
  | waiting
  | suspended
  | ended
  /-- The checkpoint is settled. -/
  | closing

namespace Point

def Shape : Point → RuntimeContext → Prop
  | head, context | cleared, context => context.state = .running
  | waiting, context | suspended, context =>
    context.state = .waiting ∧ context.pendingInput ≠ none
  | ended, context => context.state.terminal = true
  | closing, context => context.state.terminal = true ∨ context.state = .waiting
  | _, context => context.state = .running ∧ context.supervision.suspendedActionBatch = none

/-- The points at which the program can raise inside the `try` block. -/
def inner : Point → Bool
  | waiting | closing => false
  | _ => true

theorem Shape.similar {p : Point} {a b : RuntimeContext} (h : p.Shape a) (hs : a.Similar b) :
    p.Shape b := by
  cases p <;> simpa [Shape, hs.state, hs.batch, hs.pendingInput] using h

end Point

/-- An exception that is neither the interruption nor the end of the fuel. -/
def RuntimeError.Ordinary (e : RuntimeError) : Prop := e ≠ .cancelled ∧ e ≠ .exhausted

/-- The events that say no more about the Run than what is happening. -/
def quietEvent : EventType → Bool
  | .runCompleted | .runFailed | .runCancelled | .runInterrupted | .runLimitReached
  | .runWaiting | .toolWaiting => false
  | _ => true

def quietOp : RuntimeOp → Bool
  | .emit _ type => quietEvent type
  | .loadCheckpoint _ | .beginTurn .. | .aenter _ | .retrieve _ | .recorderStart ..
  | .recorderConfirm .. => true
  | _ => false

variable {ι G : Type} [DecidableEq ι]

/-- The assertions of a task that executes a Run, and what the operations do to them.
`origin` is the checkpoint the task has claimed. -/
structure Script (env : RuntimeEnv) (O : Outline ι RuntimeOp RuntimeOp.Ret RuntimeWorld G)
    (agent : Agent) (i : ι) (origin : Option RuntimeCheckpoint) where
  At : Point → RuntimeContext → G → Prop
  /-- The task has not touched the Run. -/
  Idle : G → Prop
  /-- The closing event is emitted. -/
  Over : G → Prop
  /-- `execute` raised. -/
  Out : RuntimeError → G → Prop
  /-- The task has ended. -/
  Final : G → Prop
  /-- What a read of the Run tells. -/
  Read : UUID → Run → Prop
  /-- The Run of the task can be missing from the store. -/
  Missing : Prop
  /-- A bound on the model calls that keeps the loop finite. -/
  limit : Option Nat
  similar {p a b g} : a.Similar b → At p a g → At p b g
  leave {p a b g} : p.inner = true → At p a g → b.runId = a.runId →
    b.conversationId = a.conversationId → b.state.terminal = true → At .ended b g
  bounded {b c g} : limit = some b → At .head c g → c.stepCount ≤ b
  quiet {o g} : quietOp o = true → O.Step env.exec i o g fun _ g' => g' = g
  get {p c g} : At p c g → O.Step env.exec i (.getRun c.runId) g fun r g' =>
    g' = g ∧ (∀ run, r = .ok run → Read c.runId run) ∧ ∀ e, r = .error e → Missing
  snapshot {p c g run} : p ≠ .waiting → At p c g → Read c.runId run →
    O.Step env.exec i (.saveRun (c.snapshot run)) g fun r g' =>
      At p c g' ∧ ∀ e, r = .error e → Missing
  lost {e g} : Missing → e.Ordinary → Out e g
  beforeModel {c g} : At .head c g → O.Step env.exec i (.beforeModel c) g fun r g' =>
    At .head c g' ∧ ∀ d policies, r = .ok (d, policies) → d.stops = false →
      At .cleared (withMessage c d) g'
  ask {c g} : At .cleared c g → c.supervision.suspendedActionBatch = none →
    At .asking { c with stepCount := c.stepCount + 1 } g
  complete {c g tools} : At .asking c g →
    O.Step env.exec i (.complete c.runId ⟨c.messages, tools⟩) g fun r g' =>
      At (.batch none []) c g' ∧ ∀ response, r = .ok response →
        At (.batch none response.toolCalls)
          { c with
            responses := c.responses ++ [response]
            messages := c.messages ++ [response.toAssistantMessage] } g'
  resume {c b g} : At .cleared c g → c.supervision.suspendedActionBatch = some b →
    let c' := { c with
      supervision := { c.supervision with
        suspendedActionBatch := none
        toolConfirmationDecision := none } }
    (∀ d, c.supervision.toolConfirmationDecision = some d → d.decision = .approve →
      At (.batch (some (b.waitingCall.id, d)) (b.waitingCall :: b.remainingCalls)) c' g) ∧
    ((∀ d, c.supervision.toolConfirmationDecision = some d → d.decision ≠ .approve) →
      At (.batch none b.remainingCalls) c' g)
  finish {k c g} : At (.batch k []) c g → c.supervision.suspendedActionBatch = none →
    At .head c g
  beforeTool {k call rest c g} : At (.batch k (call :: rest)) c g →
    c.supervision.suspendedActionBatch = none →
    ModelToolStrategy.confirmationFor k call = none →
    O.Step env.exec i (.beforeTool c call rest.length) g fun r g' =>
      At (.batch k (call :: rest)) c g' ∧ ∀ d policies, r = .ok (d, policies) →
        let c' := { c with toolCallCount := c.toolCallCount + 1 }
        (d = .continue_ → At (.ready k call rest) c' g') ∧
        ∀ reason message, d = .redirect reason message →
          At .head ((c'.append (.tool
            (ToolExecutor.refused call .denied "supervisor_intervention" reason) call.id)).append
              (.system message)) g'
  confirmed {k call rest c g d} : At (.batch k (call :: rest)) c g →
    ModelToolStrategy.confirmationFor k call = some d → At (.ready k call rest) c g
  refuse {k call rest c g} (result : ToolResult) : At (.ready k call rest) c g →
    result.status ≠ .waiting → At (.executed k call rest result) c g
  request {k call rest c g tool} : At (.ready k call rest) c g →
    ToolExecutor.precheck agent c call = .ok tool → tool.confirmationRequired = true →
    ModelToolStrategy.confirmationFor k call = none →
    At (.executed k call rest (ToolExecutor.waitingResult call
      (ToolExecutor.confirmationPrompt call)
      (ToolExecutor.confirmationMetadata agent c.runId tool call))) c g
  invoke {k call rest c g tool arguments} : At (.ready k call rest) c g →
    ToolExecutor.precheck agent c call = .ok tool →
    ToolExecutor.confirmationGate agent c.runId tool call
      (ModelToolStrategy.confirmationFor k call) = none →
    O.Step env.exec i (.invoke ⟨c.runId, c.responses.length, rest.length⟩ tool call arguments
      (ModelToolStrategy.confirmationFor k call)) g fun r g' =>
        (∀ result : ToolResult, result.status ≠ .waiting →
          At (.executed k call rest result) c g') ∧
        ∀ prompt metadata, r.outcome = .waitForInput prompt metadata →
          At (.executed k call rest (ToolExecutor.waitingResult call prompt metadata)) c g'
  suspend {k call rest result prompt c g} (observations response) :
    At (.executed k call rest result) c g → result.status = .waiting →
    waitPrompt result = some prompt →
    At .waiting
      { c with
        supervision := { c.supervision with
          suspendedActionBatch := some ⟨call, rest, observations, response⟩ }
        pendingInput := some ⟨call.id, call.name, prompt, waitMetadata result⟩
        state := .waiting } g
  announce {c g} : At .waiting c g →
    O.Step env.exec i (.emit c.runId .toolWaiting) g fun _ g' => At .suspended c g'
  observe {k call rest result c g} : At (.executed k call rest result) c g →
    result.status ≠ .waiting → At (.observed k call rest) (c.append (.tool result call.id)) g
  afterTool {k call rest result c g} : At (.observed k call rest) c g →
    c.supervision.suspendedActionBatch = none →
    O.Step env.exec i (.afterTool c call result rest.length) g fun r g' =>
      At (.observed k call rest) c g' ∧ ∀ d policies, r = .ok (d, policies) →
        (d = .continue_ → At (.batch k rest) c g') ∧
        ∀ reason message, d = .redirect reason message →
          At .head (c.append (.system message)) g'
  aexit {p c g name} : p.inner = true → At p c g →
    O.Step env.exec i (.aexit name) g fun r g' =>
      At p c g' ∧ (r = .error .cancelled → Out .cancelled g')
  park {c g checkpoint} : At .suspended c g → RuntimeCheckpoint.fromContext c = .ok checkpoint →
    O.Step env.exec i (.saveCheckpoint checkpoint) g fun _ g' => At .closing c g'
  clear {c g} : At .ended c g →
    O.Step env.exec i (.deleteCheckpoint c.runId) g fun _ g' => At .closing c g'
  turn {c g conversationId} : At .closing c g →
    O.Step env.exec i (.finishTurn conversationId c.runId c.state) g fun r g' =>
      At .closing c g' ∧ ∀ e, r = .error e → Out e.error g'
  close {c g type} : At .closing c g → AgentRuntime.terminalEvent c.state = some type →
    O.Step env.exec i (.emit c.runId type) g fun _ g' => Over g'
  over_final {g} : Over g → Final g
  over_out {g} : Over g → Out .cancelled g
  idle_final {g} : Idle g → Final g
  idle_out {e g} : Idle g → Out e g
  final_turn {g conversationId runId status} : Final g →
    O.Step env.exec i (.finishTurn conversationId runId status) g fun _ g' => Final g'

namespace Script

variable {env : RuntimeEnv} {O : Outline ι RuntimeOp RuntimeOp.Ret RuntimeWorld G}
variable {agent : Agent} {i : ι} {origin : Option RuntimeCheckpoint}
variable (S : Script env O agent i origin)

def Here (p : Point) (c : RuntimeContext) (g : G) : Prop := p.Shape c ∧ S.At p c g

/-- The program raised inside the `try` block. -/
def Dropped (x : RuntimeError × RuntimeContext) (g : G) : Prop :=
  x.1 ≠ .exhausted ∧ ∃ p, p.inner = true ∧ S.Here p x.2 g

variable {S}

theorem here {p : Point} {c : RuntimeContext} {g : G} (hat : S.At p c g) (hshape : p.Shape c) :
    S.Here p c g :=
  ⟨hshape, hat⟩

theorem Here.similar {p : Point} {a b : RuntimeContext} {g : G} (h : S.Here p a g)
    (hs : a.Similar b) : S.Here p b g :=
  ⟨h.1.similar hs, S.similar hs h.2⟩

theorem Here.leave {p : Point} {a b : RuntimeContext} {g : G} (h : S.Here p a g)
    (hp : p.inner = true) (hb : b.state.terminal = true) (hrun : b.runId = a.runId := by rfl)
    (hconv : b.conversationId = a.conversationId := by rfl) : S.Here .ended b g :=
  ⟨hb, S.leave hp h.2 hrun hconv hb⟩

theorem Here.dropped {p : Point} {c : RuntimeContext} {g : G} {e : RuntimeError}
    (h : S.Here p c g) (hp : p.inner = true) (he : e ≠ .exhausted) : S.Dropped (e, c) g :=
  ⟨he, p, hp, h⟩

/-! ## The stores -/

theorem safe_emit {ε : Type} {E : ε → G → Prop} {Q : Unit → G → Prop} {c : RuntimeContext}
    {type : EventType} {g : G} (S : Script env O agent i origin) (h : quietEvent type = true)
    (hQ : Q () g) : O.Safe env.exec i Q E (.call (.emit c.runId type) .ret) g := by
  refine (S.quiet (o := .emit c.runId type) h).safe ?_
  rintro - g' rfl
  exact hQ

theorem getRun_error {s : RuntimeWorld} {runId : UUID} {e : RuntimeError}
    (h : s.getRun runId = .error e) : e.Ordinary := by
  unfold RuntimeWorld.getRun at h
  split at h
  · cases h
  · cases h
    exact ⟨by simp [RuntimeWorld.runNotFound], by simp [RuntimeWorld.runNotFound]⟩

theorem saveRun_error {s : RuntimeWorld} {run : Run} {e : RuntimeError}
    (h : (s.saveRun run).1 = .error e) : e.Ordinary := by
  unfold RuntimeWorld.saveRun at h
  split at h
  · cases h
    exact ⟨by simp [RuntimeWorld.runNotFound], by simp [RuntimeWorld.runNotFound]⟩
  · cases h

/-- Reading the Run changes nothing, and fails only when the Run can be missing. -/
theorem Here.safe_getRun {p : Point} {c : RuntimeContext} {g : G} (h : S.Here p c g)
    {E : RuntimeError × RuntimeContext → G → Prop}
    (hE : ∀ e, S.Missing → e.Ordinary → E (e, c) g) :
    O.Safe env.exec i (fun run g' => g' = g ∧ S.Read c.runId run) E (getRun c) g := by
  refine ((S.get h.2).with_reply
    (R := fun r : Except RuntimeError Run => ∀ e, r = .error e → e.Ordinary)
    fun s e he => getRun_error he).safe ?_
  rintro r g' ⟨⟨rfl, hread, hmissing⟩, hordinary⟩
  cases r with
  | ok run => exact ⟨rfl, hread run rfl⟩
  | error e => exact hE e (hmissing e rfl) (hordinary e rfl)

theorem Here.safe_save {p : Point} {c : RuntimeContext} {g : G} (h : S.Here p c g)
    (hp : p ≠ .waiting) {E : RuntimeError × RuntimeContext → G → Prop}
    (hE : ∀ e g, S.Missing → e.Ordinary → S.Here p c g → E (e, c) g) :
    O.Safe env.exec i (fun _ g' => S.Here p c g') E (saveContextSnapshot c) g := by
  refine (h.safe_getRun fun e hm he => hE e g hm he h).bind ?_
  rintro run g' ⟨rfl, hread⟩
  refine ((S.snapshot hp h.2 hread).with_reply
    (R := fun r : Except RuntimeError Unit => ∀ e, r = .error e → e.Ordinary)
    fun s e he => saveRun_error he).safe ?_
  rintro r g' ⟨⟨hat, hmissing⟩, hordinary⟩
  cases r with
  | ok u => exact ⟨h.1, hat⟩
  | error e => exact hE e g' (hmissing e rfl) (hordinary e rfl) ⟨h.1, hat⟩

theorem Here.safe_snapshot {p : Point} {c : RuntimeContext} {g : G} (h : S.Here p c g)
    (hp : p.inner = true) :
    O.Safe env.exec i (fun _ g' => S.Here p c g') S.Dropped (saveContextSnapshot c) g := by
  refine h.safe_save ?_ fun e g' _ he hhere => hhere.dropped hp he.2
  rintro rfl
  cases hp

/-! ## Tools -/

theorem failureResult_status (tool : Tool) (call : ToolCall) (failure : ToolFailure) :
    (ToolExecutor.failureResult tool call failure).status ≠ .waiting := by
  cases failure <;> simp [ToolExecutor.failureResult, ToolExecutor.refused]

theorem precheck_error {c : RuntimeContext} {call : ToolCall} {result : ToolResult}
    (h : ToolExecutor.precheck agent c call = .error result) : result.status ≠ .waiting := by
  unfold ToolExecutor.precheck at h
  split at h
  · cases h
    simp [ToolExecutor.refused]
  · split at h
    · cases h
      simp [ToolExecutor.refused]
    · simp only at h
      split at h
      · cases h
      · cases h
        simp [ToolExecutor.refused]

/-- A result stands in the way of a call when its confirmation is missing, or does not
approve it. -/
theorem confirmationGate_some {runId : UUID} {tool : Tool} {call : ToolCall}
    {confirmation : Option ToolConfirmation} {result : ToolResult}
    (h : ToolExecutor.confirmationGate agent runId tool call confirmation = some result) :
    result.status ≠ .waiting ∨
      (tool.confirmationRequired = true ∧ confirmation = none ∧
        result = ToolExecutor.waitingResult call (ToolExecutor.confirmationPrompt call)
          (ToolExecutor.confirmationMetadata agent runId tool call)) := by
  unfold ToolExecutor.confirmationGate at h
  split at h
  · rename_i hrequired
    cases confirmation with
    | none =>
      cases h
      exact .inr ⟨hrequired, rfl, rfl⟩
    | some d =>
      left
      simp only at h
      split at h
      · cases h
        simp [ToolExecutor.refused]
      · split at h
        · cases h
          simp [ToolExecutor.refused]
        · cases h
  · cases h

theorem enforce_cases (agent : Agent) (result : ToolResult) :
    ToolExecutor.enforce agent result = result ∨
      (ToolExecutor.enforce agent result).status ≠ .waiting := by
  unfold ToolExecutor.enforce
  simp only
  split
  · exact .inl rfl
  · right
    simp

/-- How the executor leaves a call: with its result, and open to any other result that is
not a wait. -/
def Ran (S : Script env O agent i origin) (k : Option (String × ToolConfirmation))
    (call : ToolCall) (rest : List ToolCall) (c : RuntimeContext)
    (executed : ToolExecutor.Executed) (g : G) : Prop :=
  (∀ result, executed.1 = some result → S.At (.executed k call rest result) c g) ∧
    ∀ result : ToolResult, result.status ≠ .waiting → S.At (.executed k call rest result) c g

section Tools

variable {k : Option (String × ToolConfirmation)} {call : ToolCall} {rest : List ToolCall}
variable {c : RuntimeContext} {g : G} {E : RuntimeError × RuntimeContext → G → Prop}

theorem ran_of_refused {result : ToolResult} {acquired : List String}
    (h : S.At (.ready k call rest) c g) (hr : result.status ≠ .waiting) :
    S.Ran k call rest c (some result, acquired) g := by
  constructor
  · intro other ho
    cases ho
    exact S.refuse result h hr
  · intro other ho
    exact S.refuse other h ho

theorem safe_confirmReceipt {tool : Tool} {result : ToolResult} {acquired : List String}
    (h : ∀ other : ToolResult, other.status ≠ .waiting → S.At (.executed k call rest other) c g)
    (hr : result.status ≠ .waiting) :
    O.Safe env.exec i (S.Ran k call rest c) E
      (ToolExecutor.confirmReceipt agent c tool call result acquired) g := by
  have hsome : ∀ other : ToolResult, other.status ≠ .waiting →
      S.Ran k call rest c (some other, acquired) g := by
    intro other ho
    refine ⟨fun found hf => ?_, h⟩
    cases hf
    exact h other ho
  unfold ToolExecutor.confirmReceipt
  split
  · refine (S.quiet rfl).safe ?_
    rintro reply g' rfl
    cases reply with
    | receipt => exact hsome result hr
    | raised failure => exact hsome _ (failureResult_status tool call failure)
    | interrupted => exact ⟨fun found hf => (by cases hf), h⟩
  · exact hsome result hr

theorem safe_invoke {tool : Tool} {arguments : List (String × JsonValue)}
    (h : S.At (.ready k call rest) c g)
    (hpre : ToolExecutor.precheck agent c call = .ok tool)
    (hgate : ToolExecutor.confirmationGate agent c.runId tool call
      (ModelToolStrategy.confirmationFor k call) = none) :
    O.Safe env.exec i (S.Ran k call rest c) E
      (ToolExecutor.invoke agent c rest.length tool call arguments
        (ModelToolStrategy.confirmationFor k call)) g := by
  refine (S.invoke h hpre hgate).safe ?_
  rintro ⟨outcome, acquired⟩ g' ⟨hother, hwait⟩
  cases outcome with
  | value data => exact safe_confirmReceipt hother (by simp)
  | unserializable message => exact safe_confirmReceipt hother (failureResult_status tool call _)
  | waitForInput prompt metadata =>
    refine ⟨fun found hf => ?_, hother⟩
    cases hf
    exact hwait prompt metadata rfl
  | raised failure =>
    refine ⟨fun found hf => ?_, hother⟩
    cases hf
    exact hother _ (failureResult_status tool call failure)
  | interrupted => exact ⟨fun found hf => (by cases hf), hother⟩

theorem safe_bracket {tool : Tool} {arguments : List (String × JsonValue)}
    (h : S.At (.ready k call rest) c g)
    (hpre : ToolExecutor.precheck agent c call = .ok tool)
    (hgate : ToolExecutor.confirmationGate agent c.runId tool call
      (ModelToolStrategy.confirmationFor k call) = none) :
    O.Safe env.exec i (S.Ran k call rest c) E
      (ToolExecutor.bracket agent c rest.length tool call arguments
        (ModelToolStrategy.confirmationFor k call)) g := by
  unfold ToolExecutor.bracket
  split
  · split
    · exact ran_of_refused h (failureResult_status tool call _)
    · refine (S.quiet rfl).safe ?_
      rintro reply g' rfl
      cases reply with
      | receipt => exact safe_invoke h hpre hgate
      | raised failure => exact ran_of_refused h (failureResult_status tool call failure)
      | interrupted => exact ⟨fun found hf => (by cases hf), fun result => S.refuse result h⟩
  · exact safe_invoke h hpre hgate

/-- The executor never raises, and invokes the function of a call at most once, after the
checks on it. -/
theorem safe_execute (h : S.At (.ready k call rest) c g) :
    O.Safe env.exec i (S.Ran k call rest c) E
      (ToolExecutor.execute agent c call rest.length
        (ModelToolStrategy.confirmationFor k call)) g := by
  have hunbounded : O.Safe env.exec i (S.Ran k call rest c) E
      (ToolExecutor.executeUnbounded agent c call rest.length
        (ModelToolStrategy.confirmationFor k call)) g := by
    unfold ToolExecutor.executeUnbounded
    cases hpre : ToolExecutor.precheck agent c call with
    | error result => exact ran_of_refused h (precheck_error hpre)
    | ok tool =>
      simp only
      cases tool.validateArguments call.arguments with
      | error failure => exact ran_of_refused h (failureResult_status tool call failure)
      | ok arguments =>
        simp only
        cases hgate : ToolExecutor.confirmationGate agent c.runId tool call
            (ModelToolStrategy.confirmationFor k call) with
        | none => exact safe_bracket h hpre hgate
        | some result =>
          obtain hr | ⟨hrequired, hnone, rfl⟩ := confirmationGate_some hgate
          · exact ran_of_refused h hr
          · refine ⟨fun found hf => ?_, fun other => S.refuse other h⟩
            cases hf
            exact S.request h hpre hrequired hnone
  refine hunbounded.bind ?_
  rintro ⟨executed, acquired⟩ g' ⟨hresult, hother⟩
  refine ⟨?_, hother⟩
  intro result hr
  obtain ⟨ran, hran, rfl⟩ := Option.map_eq_some_iff.mp hr
  cases enforce_cases agent ran with
  | inl heq =>
    rw [heq]
    exact hresult ran hran
  | inr hstatus => exact hother _ hstatus

end Tools

end Script

end Runtime
end BaseAgent

import BaseAgent.Async.Observer
import BaseAgent.Planning.Hooks

/-!
# A proof rule for the turns of a strategy

A property of executions is given by what it knows of the context at a few kinds of places,
the modes of `Course`: between turns, in the middle of a batch of Tool calls, between the
transition to WAITING and the end of `_wait_for_input`, after a plan was generated and before
its execution begins, at the end of a turn that has yet to settle, when the loop has ended,
when the plan is settled after it, and when the checkpoint is stored or deleted.  A course says
how each operation of a turn keeps this knowledge.

`HookSpec` is what the overridden methods of a strategy have to do, and the code of a turn is
walked here once for every strategy and every course.
-/

namespace BaseAgent
namespace Runtime

open Async Prog

/-- The contexts agree on all that a course may look at. -/
structure RuntimeContext.Alike (a b : RuntimeContext) : Prop where
  runId : b.runId = a.runId := by rfl
  conversationId : b.conversationId = a.conversationId := by rfl
  enabledToolNames : b.enabledToolNames = a.enabledToolNames := by rfl
  state : b.state = a.state := by rfl
  error : b.error = a.error := by rfl
  pendingInput : b.pendingInput = a.pendingInput := by rfl
  plan : b.plan = a.plan := by rfl
  planningRequested : b.planningRequested = a.planningRequested := by rfl
  phase : b.supervision.planning.map PlanningState.phase =
    a.supervision.planning.map PlanningState.phase := by rfl
  batch : b.supervision.suspendedActionBatch = a.supervision.suspendedActionBatch := by rfl

theorem RuntimeContext.Alike.of_eq {a b : RuntimeContext}
    (h : (b.runId, b.conversationId, b.enabledToolNames, b.state, b.error, b.pendingInput, b.plan,
        b.planningRequested, b.supervision.planning.map PlanningState.phase,
        b.supervision.suspendedActionBatch) =
      (a.runId, a.conversationId, a.enabledToolNames, a.state, a.error, a.pendingInput, a.plan,
        a.planningRequested, a.supervision.planning.map PlanningState.phase,
        a.supervision.suspendedActionBatch)) : a.Alike b := by
  simp only [Prod.mk.injEq] at h
  obtain ⟨h₁, h₂, h₃, h₄, h₅, h₆, h₇, h₈, h₉, h₁₀⟩ := h
  exact ⟨h₁, h₂, h₃, h₄, h₅, h₆, h₇, h₈, h₉, h₁₀⟩

namespace RuntimeContext

def holding (c : RuntimeContext) (batch : SuspendedActionBatch) : RuntimeContext :=
  { c with supervision := { c.supervision with suspendedActionBatch := some batch } }

def popped (c : RuntimeContext) : RuntimeContext :=
  { c with
    supervision := { c.supervision with
      suspendedActionBatch := none
      toolConfirmationDecision := none } }

def awaiting (c : RuntimeContext) (pending : PendingInput) : RuntimeContext :=
  { c with pendingInput := some pending, state := .waiting }

def endedWith (c : RuntimeContext) (status : RunStatus) (text : String) : RuntimeContext :=
  { c with state := status, error := some text }

end RuntimeContext

inductive Mode where
  | rest
  | batch (response : ModelResponse) (calls : List ToolCall)
  | waiting
  | fresh
  | left
  | ended
  | settled
  | closed

/-- The operations whose replies only the context and the observer keep.  The supervisor is
shown the context itself. -/
def RuntimeContext.Tame (c : RuntimeContext) : RuntimeOp → Prop
  | .beforeTool shown .. | .afterTool shown .. => shown = c
  | .emit .. | .recorderStart .. | .recorderConfirm .. | .aenter _ | .aexit _ | .retrieve _
  | .finishTurn .. => True
  | _ => False

def stopReason : (o : RuntimeOp) → o.Ret → Option String
  | .afterTool .., .ok (.stop reason _ _, _) => some reason
  | _, _ => none

variable {S : Type}

structure Course (L : Observer RuntimeOp RuntimeOp.Ret S) where
  At : Mode → RuntimeContext → S → Prop
  /-- An exception leaves the turn with this context. -/
  Thrown : RuntimeError → RuntimeContext → S → Prop
  /-- The reasons for which a Run may be stopped after a Tool call. -/
  Stops : String → Prop
  /-- What a read of the Run tells. -/
  Read : RuntimeContext → Run → Prop
  reason {s o r text} : L.expects s o r → stopReason o r = some text → Stops text
  alike {m a b s} : a.Alike b → At m a s → At m b s
  tame {m c s o} : c.Tame o → At m c s → Allowed L s o fun _ s' => At m c s'
  /-- The supervisor is shown the context before a turn. -/
  look {c s} : At .rest c s → c.state = .running →
    Allowed L s (.beforeModel c) fun _ s' => At .rest c s'
  get {m c s} : At m c s → Allowed L s (.getRun c.runId) fun r s' =>
    At m c s' ∧ (∀ run, r = .ok run → Read c run) ∧ ∀ e, r = .error e → Thrown e c s'
  save {m c s run} : At m c s → c.state = .running ∨ c.state = .waiting → Read c run →
    Allowed L s (.saveRun (c.snapshot run)) fun r s' =>
      At m c s' ∧ ∀ e, r = .error e → Thrown e c s'
  /-- A Run that a supervisor stopped is stored before its plan is settled. -/
  stopped {c s run text} : At .rest c s → c.state.errorStatus = true → c.error = some text →
    Stops text → Read c run →
    Allowed L s (.saveRun (c.snapshot run)) fun r s' =>
      At .left c s' ∧ ∀ e, r = .error e → Thrown e c s'
  running {response calls c s} : At (.batch response calls) c s →
    c.state = .running ∧ c.supervision.suspendedActionBatch = none
  thrown {c s e} : At .rest c s → c.state = .running → Thrown e c s
  leave {c s status text} : At .rest c s → c.state = .running → status.errorStatus = true →
    At .rest (c.endedWith status text) s
  left {c s} : At .rest c s → At .left c s
  pause {response calls c s} : At (.batch response calls) c s → At .rest c s
  tail {response call calls c s} : At (.batch response (call :: calls)) c s →
    At (.batch response calls) c s
  /-- A suspended batch is taken up again. -/
  pop {c s batch} : At .rest c s → c.state = .running →
    c.supervision.suspendedActionBatch = some batch →
    At (.batch batch.response (batch.waitingCall :: batch.remainingCalls)) c.popped s
  invoke {response call calls c s tool arguments confirmation n} :
    At (.batch response (call :: calls)) c s → call.name ∈ c.enabledToolNames →
    tool.name = call.name →
    Allowed L s (.invoke ⟨c.runId, n, calls.length⟩ tool call arguments confirmation)
      fun _ s' => At (.batch response (call :: calls)) c s'
  /-- The rest of a batch is put aside. -/
  hold {response call calls observations c s} : At (.batch response (call :: calls)) c s →
    At .rest (c.holding ⟨call, calls, observations, response⟩) s
  wait {c s pending} : At .rest c s → c.state = .running → At .waiting (c.awaiting pending) s
  waitingState {c s} : At .waiting c s → c.state = .waiting
  waited {c s} : At .waiting c s → At .left c s

namespace Course

variable {L : Observer RuntimeOp RuntimeOp.Ret S} (C : Course L)

def Err (x : RuntimeError × RuntimeContext) (s : S) : Prop := C.Thrown x.1 x.2 s

/-- The program leads to `Q`, or it raises. -/
abbrev Leads {α : Type} (p : ContextProg α) (Q : α → S → Prop) (s : S) : Prop :=
  p.Meets L Q C.Err s

structure HookSpec (hooks : Hooks) : Prop where
  ask {c s tools} : C.At .rest c s → c.state = .running →
    c.supervision.suspendedActionBatch = none → hooks.toolDefinitions c = .ok tools →
    Allowed L s (.complete c.runId ⟨c.messages, tools⟩) fun r s' =>
      C.At .rest c s' ∧ ∀ response, r = .ok response →
        C.At (.batch response response.toolCalls) c s'
  before {c s} : C.At .rest c s → c.state = .running → c.supervision.suspendedActionBatch = none →
    C.Leads (hooks.beforeModelRequest c) (fun c' s' => C.At .rest c' s' ∧ c'.state = .running ∧
      c'.supervision.suspendedActionBatch = none) s
  selected {m c s} : C.At m c s →
    C.Leads (hooks.onActionBatchSelected c) (fun _ s' => C.At m c s') s
  recorded {m c s} : C.At m c s →
    C.Leads (hooks.onObservationBatchRecorded c) (fun _ s' => C.At m c s') s
  iterated {m c s} : C.At m c s →
    C.Leads (hooks.onIterationCompleted c) (fun _ s' => C.At m c s') s
  complete {c s} (text : String) : C.At .rest c s → c.state = .running →
    c.supervision.suspendedActionBatch = none →
    C.Leads (hooks.completeResponse c text) (fun c' s' => C.At .left c' s') s
  fail {c s} (text : String) : C.At .rest c s → c.state = .running →
    C.Leads (hooks.failExecution c text) (fun c' s' => C.At .left c' s') s
  wait {c s} : C.At .waiting c s →
    C.Leads (hooks.waitForInput c) (fun c' s' => C.At .left c' s' ∧ c'.state = .waiting) s

end Course

/-! ## Steps on the context -/

theorem transitionTo_ret {context : RuntimeContext} {target : RunStatus}
    (h : RuntimeContext.allowed context.state target = true) :
    transitionTo context target = .ret { context with state := target } := by
  rw [transitionTo, RuntimeContext.transitionTo, if_pos h]
  rfl

theorem allowed_running {status : RunStatus} (h : status.errorStatus = true) :
    RuntimeContext.allowed .running status = true := by
  cases status <;> simp_all [RunStatus.errorStatus, RuntimeContext.allowed]

theorem transitionTo_error {context : RuntimeContext} {status : RunStatus} {text : String}
    (hstate : context.state = .running) (h : status.errorStatus = true) :
    transitionTo { context with error := some text } status =
      .ret (context.endedWith status text) := by
  apply transitionTo_ret
  show RuntimeContext.allowed context.state status = true
  rw [hstate]
  exact allowed_running h

theorem StopStatus.errorStatus (status : StopStatus) : status.runStatus.errorStatus = true := by
  cases status <;> rfl

theorem alike_withMessage (c : RuntimeContext) (d : SupervisionDecision) :
    c.Alike (withMessage c d) := by
  cases d with
  | continue_ => exact .of_eq rfl
  | redirect reason message => exact .of_eq rfl
  | stop reason message status =>
    cases message with
    | none => exact .of_eq rfl
    | some message =>
      show c.Alike (if message = "" then c else c.append (.system message))
      split <;> exact .of_eq rfl

def withPolicies (c : RuntimeContext) (policies : PolicyData) : RuntimeContext :=
  { c with supervision := { c.supervision with policies := policies } }

namespace Course

variable {L : Observer RuntimeOp RuntimeOp.Ret S} {C : Course L}

/-! ## Programs that keep the context -/

theorem emit_leads {m : Mode} {c : RuntimeContext} {s : S} (type : EventType) (h : C.At m c s) :
    C.Leads (emit c type) (fun _ s' => C.At m c s') s :=
  (C.tame (by trivial) h).call fun _ _ h' => h'

theorem getRun_leads {m : Mode} {c : RuntimeContext} {s : S} (h : C.At m c s) :
    C.Leads (getRun c) (fun run s' => C.At m c s' ∧ C.Read c run) s := by
  refine (C.get h).call fun r s' h' => ?_
  cases r with
  | ok run => exact ⟨h'.1, h'.2.1 run rfl⟩
  | error e => exact h'.2.2 e rfl

theorem snapshot_leads {m : Mode} {c : RuntimeContext} {s : S}
    (h : C.At m c s) (hstate : c.state = .running ∨ c.state = .waiting) :
    C.Leads (saveContextSnapshot c) (fun _ s' => C.At m c s') s := by
  refine (getRun_leads h).bind fun run s' h' => ?_
  refine (C.save h'.1 hstate h'.2).call fun r s'' h'' => ?_
  cases r with
  | ok u => exact h''.1
  | error e => exact h''.2 e rfl

theorem snapshot_stopped {c : RuntimeContext} {s : S} {text : String} (h : C.At .rest c s)
    (hstate : c.state.errorStatus = true) (herror : c.error = some text) (htext : C.Stops text) :
    C.Leads (saveContextSnapshot c) (fun _ s' => C.At .left c s') s := by
  refine (getRun_leads h).bind fun run s' h' => ?_
  refine (C.stopped h'.1 hstate herror htext h'.2).call fun r s'' h'' => ?_
  cases r with
  | ok u => exact h''.1
  | error e => exact h''.2 e rfl

theorem emitAcquired_leads {m : Mode} {c : RuntimeContext} {s : S} (names : List String)
    (h : C.At m c s) :
    C.Leads (ModelToolStrategy.emitAcquired c names) (fun _ s' => C.At m c s') s := by
  induction names generalizing s with
  | nil => exact h
  | cons name rest ih => exact (emit_leads _ h).bind fun _ s' h' => ih h'

theorem cancelIfRequested_leads {m : Mode} {c : RuntimeContext} {s : S}
    (hstate : c.state = .running) (hrest : ∀ s, C.At m c s → C.At .rest c s) (h : C.At m c s) :
    C.Leads (ModelToolStrategy.cancelIfRequested c)
      (fun r s' => (r = none ∧ C.At m c s') ∨
        ∃ c', r = some c' ∧ C.At .rest c' s' ∧ c'.state.errorStatus = true) s := by
  refine (getRun_leads h).bind fun run s' h' => ?_
  by_cases hrun : run.cancelRequested = true
  · simp only [hrun, if_true]
    rw [transitionTo_error hstate rfl]
    have hrest' := hrest s' h'.1
    exact .inr ⟨_, rfl, C.leave hrest' hstate rfl, rfl⟩
  · simp only [hrun]
    exact .inl ⟨rfl, h'.1⟩

/-- An intervention: a stop ends the Run, anything else leaves it running. -/
theorem applySupervisionDecision_leads {m : Mode} {c : RuntimeContext} {s : S}
    {d : SupervisionDecision} (append : Bool) (hstate : c.state = .running)
    (hrest : ∀ c s, C.At m c s → C.At .rest c s) (h : C.At m c s) :
    C.Leads (applySupervisionDecision c d append)
      (fun c' s' => (d.stops = false ∧ c.Alike c' ∧ C.At m c' s') ∨
        ∃ reason message status, d = .stop reason message status ∧ C.At .rest c' s' ∧
          c'.state.errorStatus = true ∧ c'.error = some reason) s := by
  refine (emit_leads _ h).bind fun _ s' h' => ?_
  have halike : c.Alike (if append then withMessage c d else c) := by
    split
    · exact alike_withMessage c d
    · exact .of_eq rfl
  have hat := C.alike halike h'
  cases d with
  | continue_ => exact .inl ⟨rfl, halike, hat⟩
  | redirect reason message => exact .inl ⟨rfl, halike, hat⟩
  | stop reason message status =>
    have hrunning := halike.state.trans hstate
    have herror := StopStatus.errorStatus status
    simp only [stopFor]
    rw [transitionTo_error hrunning herror]
    exact .inr ⟨reason, message, status, rfl, C.leave (hrest _ _ hat) hrunning herror, herror,
      rfl⟩

/-! ## One Tool call -/

section Calls

variable {response : ModelResponse} {call : ToolCall} {calls : List ToolCall}
variable {c : RuntimeContext} {s : S}

theorem blockCall_leads (d : SupervisionDecision)
    (h : C.At (.batch response (call :: calls)) c s) :
    C.Leads (ModelToolStrategy.blockCall c call d) (fun c' s' => C.At .left c' s') s := by
  refine (applySupervisionDecision_leads false (C.running h).1 (fun _ _ => C.pause) h).bind
    fun c' s' h' => ?_
  cases h' with
  | inl hgoes =>
    cases d with
    | continue_ => exact C.left (C.pause hgoes.2.2)
    | redirect reason message =>
      have halike : c'.Alike (withMessage
          (({ c' with toolCallCount := c'.toolCallCount + 1 } : RuntimeContext).append
            (.tool (ToolExecutor.refused call .denied "supervisor_intervention" reason) call.id))
          (.redirect reason message)) := .of_eq rfl
      have hat := C.alike halike hgoes.2.2
      refine (emit_leads _ hat).bind fun _ s₁ h₁ => ?_
      refine (snapshot_leads h₁ (.inl (C.running h₁).1)).bind fun _ s₂ h₂ => ?_
      exact C.left (C.pause h₂)
    | stop reason message status => cases hgoes.1
  | inr hstops =>
    obtain ⟨reason, message, status, rfl, hat, -⟩ := hstops
    exact C.left hat

def Goes (C : Course L) (response : ModelResponse) (calls : List ToolCall)
    (x : RuntimeContext × Bool) (s : S) : Prop :=
  (x.2 = true ∧ C.At (.batch response calls) x.1 s) ∨ (x.2 = false ∧ C.At .left x.1 s)

theorem announce_leads (remaining : Nat) (h : C.At (.batch response (call :: calls)) c s) :
    C.Leads (ModelToolStrategy.announce c call remaining) (C.Goes response (call :: calls)) s := by
  refine (emit_leads _ h).bind fun _ s₁ h₁ => ?_
  refine (C.tame (by trivial) h₁).call fun reply s₂ h₂ => ?_
  cases reply with
  | error e => exact C.thrown (C.pause h₂) (C.running h₂).1
  | ok answer =>
    obtain ⟨d, policies⟩ := answer
    have hat : C.At (.batch response (call :: calls)) (withPolicies c policies) s₂ :=
      C.alike (by exact .of_eq rfl) h₂
    by_cases hd : d.intervenes = true
    · simp only [hooked, bind_eq, ret_bind, hd, if_true]
      refine (blockCall_leads d hat).bind fun c' s₃ h₃ => ?_
      exact .inr ⟨rfl, h₃⟩
    · simp only [hooked, bind_eq, ret_bind, hd]
      have hcounted : (withPolicies c policies).Alike
          { withPolicies c policies with toolCallCount := c.toolCallCount + 1 } := .of_eq rfl
      have hat' := C.alike hcounted hat
      refine (snapshot_leads hat' (.inl (C.running hat').1)).bind fun _ s₃ h₃ => ?_
      refine (emit_leads _ h₃).bind fun _ s₄ h₄ => ?_
      exact .inl ⟨rfl, h₄⟩

theorem admit_leads (remaining : Nat) (confirmation : Option ToolConfirmation)
    (h : C.At (.batch response (call :: calls)) c s) :
    C.Leads (ModelToolStrategy.admitCall c call remaining confirmation)
      (C.Goes response (call :: calls)) s := by
  cases confirmation with
  | none => exact announce_leads remaining h
  | some confirmation => exact .inl ⟨rfl, h⟩

theorem precheck_ok {agent : Agent} {tool : Tool}
    (h : ToolExecutor.precheck agent c call = .ok tool) :
    call.name ∈ c.enabledToolNames ∧ tool.name = call.name := by
  unfold ToolExecutor.precheck at h
  split at h
  · cases h
  · rename_i hmem
    split at h
    · cases h
    · rename_i found hfound
      simp only at h
      split at h
      · cases h
        have hname := List.find?_some hfound
        exact ⟨by simpa using hmem, by simpa using hname⟩
      · cases h

theorem invoke_leads {agent : Agent} {tool : Tool} (arguments : List (String × JsonValue))
    (confirmation : Option ToolConfirmation) (hmem : call.name ∈ c.enabledToolNames)
    (hname : tool.name = call.name) (h : C.At (.batch response (call :: calls)) c s) :
    C.Leads (ToolExecutor.invoke agent c calls.length tool call arguments confirmation)
      (fun _ s' => C.At (.batch response (call :: calls)) c s') s := by
  have hconfirm : ∀ result acquired s', C.At (.batch response (call :: calls)) c s' →
      C.Leads (ToolExecutor.confirmReceipt agent c tool call result acquired)
        (fun _ s'' => C.At (.batch response (call :: calls)) c s'') s' := by
    intro result acquired s' h'
    unfold ToolExecutor.confirmReceipt
    split
    · refine (C.tame (by trivial) h').call fun reply s'' h'' => ?_
      cases reply <;> exact h''
    · exact h'
  refine (C.invoke h hmem hname).call fun invocation s' h' => ?_
  cases invocation.outcome with
  | value data => exact hconfirm _ _ s' h'
  | unserializable message => exact hconfirm _ _ s' h'
  | waitForInput prompt metadata => exact h'
  | raised failure => exact h'
  | interrupted => exact h'

theorem bracket_leads {agent : Agent} {tool : Tool} (arguments : List (String × JsonValue))
    (confirmation : Option ToolConfirmation) (hmem : call.name ∈ c.enabledToolNames)
    (hname : tool.name = call.name) (h : C.At (.batch response (call :: calls)) c s) :
    C.Leads (ToolExecutor.bracket agent c calls.length tool call arguments confirmation)
      (fun _ s' => C.At (.batch response (call :: calls)) c s') s := by
  unfold ToolExecutor.bracket
  split
  · split
    · exact h
    · refine (C.tame (by trivial) h).call fun reply s' h' => ?_
      cases reply with
      | receipt => exact invoke_leads arguments confirmation hmem hname h'
      | raised failure => exact h'
      | interrupted => exact h'
  · exact invoke_leads arguments confirmation hmem hname h

/-- The execution of a call invokes at most its own Tool, which is enabled. -/
theorem execute_leads (agent : Agent) (confirmation : Option ToolConfirmation)
    (h : C.At (.batch response (call :: calls)) c s) :
    C.Leads (ToolExecutor.execute agent c call calls.length confirmation)
      (fun _ s' => C.At (.batch response (call :: calls)) c s') s := by
  have hunbounded : C.Leads (ToolExecutor.executeUnbounded agent c call calls.length confirmation)
      (fun _ s' => C.At (.batch response (call :: calls)) c s') s := by
    unfold ToolExecutor.executeUnbounded
    cases hcheck : ToolExecutor.precheck agent c call with
    | error result => exact h
    | ok tool =>
      obtain ⟨hmem, hname⟩ := precheck_ok hcheck
      simp only
      cases tool.validateArguments call.arguments with
      | error failure => exact h
      | ok arguments =>
        simp only
        cases ToolExecutor.confirmationGate agent c.runId tool call confirmation with
        | some result => exact h
        | none => exact bracket_leads arguments confirmation hmem hname h
  exact hunbounded.bind fun _ s' h' => h'

theorem observe_leads (result : ToolResult) (remaining : Nat)
    (h : C.At (.batch response (call :: calls)) c s) :
    C.Leads (ModelToolStrategy.observe c call result remaining)
      (C.Goes response (call :: calls)) s := by
  refine (emit_leads _ h).bind fun _ s₁ h₁ => ?_
  have happended : C.At (.batch response (call :: calls)) (c.append (.tool result call.id)) s₁ :=
    C.alike (by exact .of_eq rfl) h₁
  refine (C.tame (by trivial) happended).expecting.call fun reply s₂ h₂ => ?_
  cases reply with
  | error e => exact C.thrown (C.pause h₂.1) (C.running h₂.1).1
  | ok answer =>
    obtain ⟨d, policies⟩ := answer
    have hat : C.At (.batch response (call :: calls))
        (withPolicies (c.append (.tool result call.id)) policies) s₂ := C.alike (by exact .of_eq rfl) h₂.1
    by_cases hd : d.intervenes = true
    · simp only [hooked, bind_eq, ret_bind, hd, if_true]
      refine (applySupervisionDecision_leads true (C.running hat).1 (fun _ _ => C.pause)
        hat).bind fun c' s₃ h₃ => ?_
      cases h₃ with
      | inl hgoes =>
        refine (snapshot_leads hgoes.2.2 (.inl (C.running hgoes.2.2).1)).bind fun _ s₄ h₄ => ?_
        exact .inr ⟨rfl, C.left (C.pause h₄)⟩
      | inr hstops =>
        obtain ⟨reason, message, status, rfl, hat', hstatus, herror⟩ := hstops
        refine (snapshot_stopped hat' hstatus herror (C.reason h₂.2 rfl)).bind fun _ s₄ h₄ => ?_
        exact .inr ⟨rfl, h₄⟩
    · simp only [hooked, bind_eq, ret_bind, hd]
      refine (cancelIfRequested_leads (C.running hat).1 (fun _ => C.pause) hat).bind
        fun r s₃ h₃ => ?_
      cases h₃ with
      | inl hnone =>
        rw [hnone.1]
        exact .inl ⟨rfl, hnone.2⟩
      | inr hsome =>
        obtain ⟨c', rfl, hat', -⟩ := hsome
        exact .inr ⟨rfl, C.left hat'⟩

end Calls

/-! ## The turn -/

namespace HookSpec

variable {hooks : Hooks} (H : C.HookSpec hooks) (agent : Agent)
variable {response : ModelResponse} {call : ToolCall} {calls : List ToolCall}
variable {c : RuntimeContext} {s : S}

include H

theorem recordBatch_leads {m : Mode} (h : C.At m c s) (hstate : c.state = .running)
    (hleft : ∀ s, C.At m c s → C.At .left c s) :
    C.Leads (hooks.recordBatch c) (fun c' s' => C.At .left c' s') s := by
  refine (H.recorded h).bind fun _ s₁ h₁ => ?_
  refine (H.iterated h₁).bind fun _ s₂ h₂ => ?_
  refine (snapshot_leads h₂ (.inl hstate)).bind fun _ s₃ h₃ => ?_
  exact hleft s₃ h₃

theorem suspend_leads (observations : List (ToolCall × ToolResult)) (result : ToolResult)
    (h : C.At (.batch response (call :: calls)) c s) :
    C.Leads (hooks.suspend c call calls observations response result)
      (fun c' s' => C.At .left c' s') s := by
  have hrunning := (C.running h).1
  let batch : SuspendedActionBatch := ⟨call, calls, observations, response⟩
  have hheld : C.At .rest (c.holding batch) s := C.hold h
  have hstate : (c.holding batch).state = .running := hrunning
  unfold Hooks.suspend
  cases waitPrompt result with
  | none => exact H.fail _ hheld hstate
  | some prompt =>
    let pending : PendingInput := ⟨call.id, call.name, prompt, waitMetadata result⟩
    have hwaiting : C.At .waiting ((c.holding batch).awaiting pending) s := C.wait hheld hstate
    have htransition : transitionTo { c.holding batch with pendingInput := some pending }
        .waiting = .ret ((c.holding batch).awaiting pending) := by
      apply transitionTo_ret
      show RuntimeContext.allowed c.state .waiting = true
      rw [hrunning]
      rfl
    have hrequest : C.Leads
        (ModelToolStrategy.requestConfirmation ((c.holding batch).awaiting pending)
          (waitMetadata result))
        (fun _ s' => C.At .waiting ((c.holding batch).awaiting pending) s') s := by
      unfold ModelToolStrategy.requestConfirmation
      split
      · exact emit_leads _ hwaiting
      · exact hwaiting
    show C.Leads (transitionTo { c.holding batch with pendingInput := some pending } .waiting >>=
      _) _ s
    rw [htransition]
    refine hrequest.bind fun _ s₁ h₁ => ?_
    refine (emit_leads _ h₁).bind fun _ s₂ h₂ => ?_
    refine (H.wait h₂).bind fun c' s₃ h₃ => ?_
    refine (snapshot_leads h₃.1 (.inr h₃.2)).bind fun _ s₄ h₄ => ?_
    exact h₄

/-- A batch is executed call by call, until its end or until the turn is left. -/
theorem executeToolBatch_leads (confirmations : Option (String × ToolConfirmation))
    (observations : List (ToolCall × ToolResult)) (h : C.At (.batch response calls) c s) :
    C.Leads (hooks.executeToolBatch agent response confirmations calls observations c)
      (fun c' s' => C.At .left c' s') s := by
  induction calls generalizing observations c s with
  | nil => exact H.recordBatch_leads h (C.running h).1 fun _ h' => C.left (C.pause h')
  | cons call calls ih =>
    unfold Hooks.executeToolBatch
    refine (cancelIfRequested_leads (C.running h).1 (fun _ => C.pause) h).bind fun r s₁ h₁ => ?_
    cases h₁ with
    | inr hsome =>
      obtain ⟨c', rfl, hat, -⟩ := hsome
      exact C.left hat
    | inl hnone =>
      obtain ⟨rfl, hat⟩ := hnone
      refine (admit_leads calls.length _ hat).bind fun x s₂ h₂ => ?_
      obtain ⟨c₂, goOn⟩ := x
      cases h₂ with
      | inr hleft =>
        obtain ⟨rfl, hat₂⟩ := hleft
        exact hat₂
      | inl hgoes =>
        obtain ⟨rfl, hat₂⟩ := hgoes
        refine (execute_leads agent _ hat₂).bind fun x s₃ h₃ => ?_
        obtain ⟨result, acquired⟩ := x
        have hacquired : C.At (.batch response (call :: calls))
            { c₂ with acquired := c₂.acquired ++ acquired } s₃ := C.alike (by exact .of_eq rfl) h₃
        refine (emitAcquired_leads acquired hacquired).bind fun _ s₄ h₄ => ?_
        cases result with
        | none => exact C.thrown (C.pause h₄) (C.running h₄).1
        | some result =>
          simp only
          by_cases hwaiting : result.status = .waiting
          · rw [if_pos hwaiting]
            exact H.suspend_leads observations result h₄
          · rw [if_neg hwaiting]
            refine (observe_leads result calls.length h₄).bind fun x s₅ h₅ => ?_
            obtain ⟨c₅, goOn⟩ := x
            cases h₅ with
            | inr hleft =>
              obtain ⟨rfl, hat₅⟩ := hleft
              exact hat₅
            | inl hgoes =>
              obtain ⟨rfl, hat₅⟩ := hgoes
              exact ih (observations ++ [(call, result)]) (C.tail hat₅)

theorem resumeActionBatch_leads {batch : SuspendedActionBatch} (hstate : c.state = .running)
    (hbatch : c.supervision.suspendedActionBatch = some batch) (h : C.At .rest c s) :
    C.Leads (hooks.resumeActionBatch agent batch c) (fun c' s' => C.At .left c' s') s := by
  have hpopped := C.pop h hstate hbatch
  have hstate' : c.popped.state = .running := hstate
  unfold Hooks.resumeActionBatch
  simp only
  split
  · exact H.executeToolBatch_leads agent _ _ hpopped
  · split
    · exact H.fail _ (C.pause hpopped) hstate'
    · split
      · exact H.recordBatch_leads (C.pause hpopped) hstate' fun _ => C.left
      · exact H.executeToolBatch_leads agent _ _ (C.tail hpopped)

theorem respond_leads (h : C.At (.batch response response.toolCalls) c s) :
    C.Leads (hooks.respond agent c response) (fun c' s' => C.At .left c' s') s := by
  let c₁ : RuntimeContext :=
    { c with
      responses := c.responses ++ [response]
      usage := c.usage + response.usage
      messages := c.messages ++ [response.toAssistantMessage] }
  have halike : c.Alike c₁ := .of_eq rfl
  have hrunning := C.running (C.alike halike h)
  refine (emit_leads _ h).bind fun _ s₁ h₁ => ?_
  refine (snapshot_leads (C.alike halike h₁) (.inl hrunning.1)).bind fun _ s₂ h₂ => ?_
  refine (cancelIfRequested_leads hrunning.1 (fun _ => C.pause) h₂).bind fun r s₃ h₃ => ?_
  cases h₃ with
  | inr hsome =>
    obtain ⟨c', rfl, hat, -⟩ := hsome
    exact C.left hat
  | inl hnone =>
    obtain ⟨rfl, hat⟩ := hnone
    simp only
    split
    · refine (H.iterated (C.pause hat)).bind fun _ s₄ h₄ => ?_
      exact H.complete _ h₄ hrunning.1 hrunning.2
    · refine (H.selected hat).bind fun _ s₄ h₄ => ?_
      exact H.executeToolBatch_leads agent _ _ h₄

/-- The turn of a strategy whose methods do what they have to. -/
theorem advance_leads (hstate : c.state = .running) (h : C.At .rest c s) :
    C.Leads (hooks.advance agent c) (fun c' s' => C.At .left c' s') s := by
  unfold Hooks.advance
  cases hbatch : c.supervision.suspendedActionBatch with
  | some batch => exact H.resumeActionBatch_leads agent hstate hbatch h
  | none =>
    let c₀ : RuntimeContext := { c with stepCount := c.stepCount + 1 }
    have hcounted : C.At .rest c₀ s := C.alike (by exact .of_eq rfl) h
    have hstate₀ : c₀.state = .running := hstate
    have hbatch₀ : c₀.supervision.suspendedActionBatch = none := hbatch
    refine (H.before hcounted hstate₀ hbatch₀).bind fun c₁ s₁ h₁ => ?_
    obtain ⟨hat, hstate₁, hbatch₁⟩ := h₁
    cases htools : hooks.toolDefinitions c₁ with
    | error e => exact C.thrown hat hstate₁
    | ok tools =>
      refine (emit_leads _ hat).bind fun _ s₂ h₂ => ?_
      refine (H.ask h₂ hstate₁ hbatch₁ htools).call fun reply s₃ h₃ => ?_
      cases reply with
      | ok response => exact H.respond_leads agent (h₃.2 response rfl)
      | error failure =>
        cases failure with
        | cancelled => exact C.thrown h₃.1 hstate₁
        | raised typeName message => exact H.fail _ h₃.1 hstate₁

end HookSpec

end Course

end Runtime
end BaseAgent

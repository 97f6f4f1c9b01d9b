import BaseAgent.Planning.Operations

/-!
# Answering a waiting Run

A resumption claims the checkpoint of the Run before it compares the answer with the pending
input.  An answer that the pending input does not accept puts the checkpoint back, and the stores
are then as they were.
-/

namespace BaseAgent
namespace Runtime

open Async

inductive Reply where
  | resume (input : String)
  | confirm (confirmation : ToolConfirmation)

namespace Reply

def prog (p : PlanningAgent) (fuel : Nat) (runId : UUID) : Reply → RuntimeProg AgentResult
  | resume input => p.resume fuel runId input
  | confirm confirmation => p.confirm fuel runId confirmation

/-- The answers that the pending input does not accept: a blank input, an input for a pending
confirmation, a confirmation for a pending input, or one that names another request. -/
def Unfit (agent : Agent) (pending : PendingInput) : Reply → Prop
  | resume input => isBlank input = true ∨ isConfirmation pending.metadata = true
  | confirm confirmation => isConfirmation pending.metadata = false ∨
      (JsonValue.lookup pending.metadata "request").bind agent.validateRequest ≠
        some confirmation.requestId

end Reply

/-! ## Time that passes -/

def RuntimeWorld.later (w : RuntimeWorld) (k : Nat) : RuntimeWorld := { w with steps := w.steps + k }

/-- The surroundings that answer as `env` does some steps later. -/
def RuntimeEnv.later (env : RuntimeEnv) (k : Nat) : RuntimeEnv where
  supervisor :=
    { beforeModel := fun n => env.supervisor.beforeModel (n + k)
      beforeTool := fun n => env.supervisor.beforeTool (n + k)
      afterTool := fun n => env.supervisor.afterTool (n + k) }
  complete := fun n => env.complete (n + k)
  invoke := fun n => env.invoke (n + k)
  recorderStart := fun n => env.recorderStart (n + k)
  recorderConfirm := fun n => env.recorderConfirm (n + k)
  aenter := fun n => env.aenter (n + k)
  aexit := fun n => env.aexit (n + k)
  retrieve := fun n => env.retrieve (n + k)
  beginTurn := fun n => env.beginTurn (n + k)
  finishTurn := fun n => env.finishTurn (n + k)

section Later

variable {env : RuntimeEnv} {k : Nat}

theorem exec_later (o : RuntimeOp) (w : RuntimeWorld) :
    env.exec o (w.later k) =
      (((env.later k).exec o w).1, ((env.later k).exec o w).2.later k) := by
  have hsteps : w.steps + k + 1 = w.steps + 1 + k := by omega
  unfold RuntimeEnv.exec RuntimeWorld.later
  cases o with
  | createRun run =>
    simp only [RuntimeEnv.reply, RuntimeWorld.createRun]
    split <;> simp only [hsteps]
  | saveRun run =>
    simp only [RuntimeEnv.reply, RuntimeWorld.saveRun]
    split <;> simp only [hsteps]
  | requestCancel runId =>
    simp only [RuntimeEnv.reply, RuntimeWorld.requestCancel]
    split
    · simp only [hsteps]
    · split <;> simp only [hsteps]
  | claimCheckpoint runId =>
    simp only [RuntimeEnv.reply, RuntimeWorld.claimCheckpoint]
    split <;> simp only [hsteps, RuntimeWorld.setCheckpoint]
  | _ => simp only [RuntimeEnv.reply, RuntimeEnv.later, RuntimeWorld.getRun,
      RuntimeWorld.loadCheckpoint, RuntimeWorld.setCheckpoint, RuntimeWorld.emit, hsteps]

/-- A program that starts some steps later does what it would have done with the surroundings of
then. -/
theorem eval_later {ε α : Type} (q : Prog RuntimeOp RuntimeOp.Ret ε α) (w : RuntimeWorld) :
    q.eval env.exec (w.later k) =
      ((q.eval (env.later k).exec w).1, (q.eval (env.later k).exec w).2.later k) := by
  induction q generalizing w with
  | ret a => rfl
  | raise e => rfl
  | call o next ih =>
    rw [Prog.eval_call (exec_later o w)]
    exact ih _ _

end Later

/-! ## Answers that are not accepted -/

section Unfit

variable {p : PlanningAgent} {env : RuntimeEnv} {w : RuntimeWorld} {runId : UUID}

def performed (env : RuntimeEnv) (ops : List RuntimeOp) : RuntimeWorld :=
  ops.foldl (fun w o => (env.exec o w).2) {}

theorem performed_filed (env : RuntimeEnv) (ops : List RuntimeOp) : (performed env ops).Filed := by
  have hfold : ∀ w : RuntimeWorld, w.Filed → (ops.foldl (fun w o => (env.exec o w).2) w).Filed := by
    induction ops with
    | nil => exact fun _ h => h
    | cons o rest ih => exact fun w h => ih _ (RuntimeEnv.exec_filed h o)
  exact hfold {} fun _ _ hnone => nomatch hnone

def Refuses : RuntimeError → Prop
  | .value _ | .invalidTransition _ => True
  | _ => False

theorem decide_unfit {agent : Agent} {context : RuntimeContext} {pending : PendingInput}
    {confirmation : ToolConfirmation}
    (h : (JsonValue.lookup pending.metadata "request").bind agent.validateRequest ≠
      some confirmation.requestId) :
    ∃ e, AgentRuntime.decide agent context pending none (some confirmation) = .error e ∧
      Refuses e := by
  unfold AgentRuntime.decide
  cases hrequest : (JsonValue.lookup pending.metadata "request").bind agent.validateRequest with
  | none => exact ⟨_, rfl, trivial⟩
  | some requestId =>
    have hother : confirmation.requestId ≠ requestId := by
      intro hsame
      rw [hrequest, hsame] at h
      exact h rfl
    simp only [if_pos hother]
    exact ⟨_, rfl, trivial⟩

/-- Every point of rejection comes before the context is changed. -/
theorem Reply.Unfit.answer {agent : Agent} {context : RuntimeContext} {pending : PendingInput}
    (hpending : context.pendingInput = some pending) {reply : Reply}
    (h : reply.Unfit agent pending) :
    ∃ e, Refuses e ∧ match reply with
      | .resume input => AgentRuntime.answer agent context (some input) none = .error e
      | .confirm confirmation =>
        AgentRuntime.answer agent context none (some confirmation) = .error e := by
  cases reply with
  | resume input =>
    unfold AgentRuntime.answer
    simp only [hpending]
    by_cases hkind : isConfirmation pending.metadata = true
    · simp only [hkind, if_true]
      exact ⟨.value _, trivial, rfl⟩
    · have hblank : isBlank input = true := h.resolve_right hkind
      simp only [hkind, AgentRuntime.receive, hblank, if_true]
      exact ⟨.value _, trivial, rfl⟩
  | confirm confirmation =>
    unfold AgentRuntime.answer
    simp only [hpending]
    by_cases hkind : isConfirmation pending.metadata = true
    · simp only [hkind, if_true]
      have hother := h.resolve_left (by rw [hkind]; simp)
      obtain ⟨e, he, hrefuses⟩ := decide_unfit hother
      exact ⟨e, hrefuses, he⟩
    · simp only [hkind, AgentRuntime.receive]
      exact ⟨.value _, trivial, rfl⟩

theorem restored_refused {checkpoint : RuntimeCheckpoint} {input : Option String}
    {confirmation : Option ToolConfirmation} {e : RuntimeError} (fuel : Nat) (hrefuses : Refuses e)
    (h : AgentRuntime.answer p.agent checkpoint.restore input confirmation = .error e) :
    p.restored fuel runId input confirmation checkpoint =
      .call (.saveCheckpoint checkpoint) fun _ => .raise e := by
  have hexecute : p.execute fuel checkpoint.restore input confirmation = .raise e := by
    have henter : p.enter checkpoint.restore input confirmation =
        .raise (e, checkpoint.restore) := by
      show AgentRuntime.prepareResume p.agent checkpoint.restore input confirmation = _
      unfold AgentRuntime.prepareResume
      rw [h]
      rfl
    unfold PlanningAgent.execute
    rw [henter]
    rfl
  unfold PlanningAgent.restored
  rw [hexecute]
  cases e with
  | value message => rfl
  | invalidTransition message => rfl
  | _ => cases hrefuses

theorem continueWaiting_refused {input : Option String} {confirmation : Option ToolConfirmation}
    (fuel : Nat) (hfiled : w.Filed)
    (hrefused : ∀ checkpoint, w.checkpoints runId = some checkpoint → ∃ e, Refuses e ∧
      AgentRuntime.answer p.agent checkpoint.restore input confirmation = .error e) :
    ∃ e k, (p.continueWaiting fuel runId input confirmation).eval env.exec w =
      (.error e, w.later k) := by
  unfold PlanningAgent.continueWaiting
  cases hrun : w.getRun runId with
  | error e =>
    have hget : env.exec (.getRun runId) w = (.error e, w.later 1) := by
      show (w.getRun runId, _) = _
      rw [hrun]
      rfl
    rw [Prog.eval_call hget]
    exact ⟨e, 1, rfl⟩
  | ok run =>
    have hget : env.exec (.getRun runId) w = (.ok run, w.later 1) := by
      show (w.getRun runId, _) = _
      rw [hrun]
      rfl
    rw [Prog.eval_call hget]
    by_cases hwaiting : run.status = .waiting
    · simp only [if_pos hwaiting]
      have hload : env.exec (.loadCheckpoint runId) (w.later 1) =
          (w.loadCheckpoint runId, w.later 2) := rfl
      rw [Prog.eval_call hload]
      cases hadmit : (w.loadCheckpoint runId).bind (p.agent.admitCheckpoint runId) with
      | error e => exact ⟨e, 2, rfl⟩
      | ok u =>
        cases hstored : w.checkpoints runId with
        | none =>
          unfold RuntimeWorld.loadCheckpoint at hadmit
          rw [hstored] at hadmit
          cases hadmit
        | some checkpoint =>
          obtain ⟨e, hrefuses, hanswer⟩ := hrefused checkpoint hstored
          have hclaim : env.exec (.claimCheckpoint runId) (w.later 2) = (.ok checkpoint,
              { (w.later 2).setCheckpoint runId none with steps := (w.later 2).steps + 1 }) :=
            RuntimeEnv.exec_claimCheckpoint_some hstored
          rw [Prog.ofExcept_ok, Prog.ret_bind, Prog.eval_call hclaim]
          simp only [restored_refused fuel hrefuses hanswer]
          refine ⟨e, 4, ?_⟩
          have hback : Function.update (Function.update w.checkpoints runId none) runId
              (some checkpoint) = w.checkpoints := by
            rw [Function.update_idem, ← hstored, Function.update_eq_self]
          show (Except.error e, (⟨w.runs, w.events, Function.update
            (Function.update w.checkpoints runId none) checkpoint.runId (some checkpoint),
            w.steps + 4⟩ : RuntimeWorld)) = _
          rw [hfiled runId checkpoint hstored, hback]
          rfl
    · simp only [if_neg hwaiting]
      exact ⟨_, 1, rfl⟩

/-- An answer that the pending input of a Run does not accept raises and leaves the Runs, the
checkpoints and the events as they were.  What is called next does what it would have done without
it. -/
theorem unfit_reply_unchanged (p : PlanningAgent) (env : RuntimeEnv) (ops : List RuntimeOp)
    (fuel : Nat) (runId : UUID) (reply : Reply)
    (h : ∀ checkpoint, (performed env ops).checkpoints runId = some checkpoint →
      reply.Unfit p.agent checkpoint.pendingInput) :
    ∃ e k, (reply.prog p fuel runId).eval env.exec (performed env ops) =
        (.error e, (performed env ops).later k) ∧
      ∀ next : RuntimeProg AgentResult, next.eval env.exec ((performed env ops).later k) =
        ((next.eval (env.later k).exec (performed env ops)).1,
          (next.eval (env.later k).exec (performed env ops)).2.later k) := by
  have heval : ∃ e k, (reply.prog p fuel runId).eval env.exec (performed env ops) =
      (.error e, (performed env ops).later k) := by
    have hfiled := performed_filed env ops
    cases reply with
    | resume input =>
      show ∃ e k, (p.resume fuel runId input).eval _ _ = _
      unfold PlanningAgent.resume
      by_cases hblank : isBlank input = true
      · rw [if_pos hblank]
        exact ⟨_, 0, rfl⟩
      · rw [if_neg hblank]
        apply continueWaiting_refused fuel hfiled
        intro checkpoint hstored
        exact (h checkpoint hstored).answer rfl
    | confirm confirmation =>
      apply continueWaiting_refused fuel hfiled
      intro checkpoint hstored
      exact (h checkpoint hstored).answer rfl
  obtain ⟨e, k, heval⟩ := heval
  exact ⟨e, k, heval, fun next => eval_later next _⟩

def payCheckpoint : RuntimeCheckpoint where
  runId := 0
  profile := (plainAgent [payTool]).profile
  messages := [.system "Answer.", .user "Pay the bill."]
  enabledToolNames := ["pay"]
  pendingInput :=
    { toolCallId := "call"
      toolName := "pay"
      prompt := "Confirm."
      metadata := [("kind", .str "tool_confirmation"), ("request", .null)] }

def payOps : List RuntimeOp :=
  [.createRun { id := 0, profileId := "assistant" },
    .saveCheckpoint payCheckpoint,
    .saveRun { id := 0, profileId := "assistant", status := .waiting }]

def contentEnv : RuntimeEnv := onceEnv { content := some "Done.", valid := ModelResponse.done_valid }

/-- An input for a pending confirmation. -/
theorem unfit_reply_unchanged_pay :
    ((performed contentEnv payOps).runs 0).map (·.status) = some .waiting ∧
      ∃ e k, ((Reply.resume "Yes.").prog (planningAgent [payTool]) 1 0).eval contentEnv.exec
          (performed contentEnv payOps) =
        (.error e, (performed contentEnv payOps).later k) := by
  refine ⟨rfl, ?_⟩
  obtain ⟨e, k, heval, -⟩ := unfit_reply_unchanged (planningAgent [payTool]) contentEnv payOps 1 0
    (.resume "Yes.") (by
      intro checkpoint hstored
      have hpay : payCheckpoint = checkpoint := Option.some.inj hstored
      rw [← hpay]
      exact .inr (by decide))
  exact ⟨e, k, heval⟩

end Unfit

end Runtime
end BaseAgent

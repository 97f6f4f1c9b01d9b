import BaseAgent.Planning.Coherence
import BaseAgent.Runtime.Stores

/-!
# Interrupted executions

What interrupts an execution in its `try` statement is recovered from: the context ends, its plan
is settled and its Run is stored as terminal before the interruption goes on.  An interruption
outside the statement goes on at once, and finds the Run as it was stored last.
-/

namespace BaseAgent
namespace Runtime

open Async Prog

/-- Nothing is left behind when the Run is finalized now. -/
def RuntimeWorld.Finalizable (w : RuntimeWorld) (runId : UUID) : Prop :=
  ∀ run, w.runs runId = some run → run.status.terminal = false → run.Idle

/-- The interruptions outside the `try` statement of an execution: the beginning and the end of a
Conversation Turn, and the release of a resource. -/
def uncaught : (o : RuntimeOp) → o.Ret → Prop
  | .beginTurn .., r => r = .error .cancelled
  | .finishTurn .., r | .aexit _, r => r = .error .cancelled
  | _, _ => False

/-- Where an interruption is not caught, the Run can be finalized. -/
def Unbroken (env : RuntimeEnv) (runId : UUID) (w : RuntimeWorld) (o : RuntimeOp) : Prop :=
  uncaught o (env.exec o w).1 → w.Finalizable runId

abbrev unbroken (env : RuntimeEnv) (runId : UUID) :
    Observer RuntimeOp RuntimeOp.Ret RuntimeWorld :=
  Observer.assuming env.exec (Unbroken env runId) fun _ _ => True

/-! ## The Run of an execution -/

structure Named (runId : UUID) (m : Mode) (c : RuntimeContext) (w : RuntimeWorld) : Prop where
  steady : Steady m c
  runId : c.runId = runId
  keyed : w.Keyed

section Named

variable {env : RuntimeEnv} {runId : UUID} {m : Mode} {c : RuntimeContext} {w : RuntimeWorld}

theorem Named.step {o : RuntimeOp} (h : Named runId m c w) :
    Allowed (unbroken env runId) w o fun _ w' => Named runId m c w' :=
  .assuming trivial fun _ => ⟨h.steady, h.runId, RuntimeEnv.exec_keyed h.keyed⟩

theorem Named.ended (h : Named runId m c w) : Named runId .ended c w :=
  ⟨h.steady.ended, h.runId, h.keyed⟩

def naming (env : RuntimeEnv) (runId : UUID) : Course (unbroken env runId) where
  At := Named runId
  Thrown _ := Named runId .ended
  Stops _ := True
  Read _ _ := True
  reason _ _ := trivial
  alike halike h := ⟨h.steady.alike halike, halike.runId.trans h.runId, h.keyed⟩
  tame _ h := h.step
  look h _ := h.step
  get h := h.step.mono fun _ _ h' => ⟨h', fun _ _ => trivial, fun _ _ => h'.ended⟩
  save h _ _ := h.step.mono fun _ _ h' => ⟨h', fun _ _ => h'.ended⟩
  stopped h _ _ _ _ := h.step.mono fun _ _ h' =>
    ⟨⟨h'.steady, h'.runId, h'.keyed⟩, fun _ _ => h'.ended⟩
  running h := h.steady.2
  thrown h _ := h.ended
  leave h _ hstatus := ⟨.endedWith _ hstatus, h.runId, h.keyed⟩
  left h := ⟨h.steady, h.runId, h.keyed⟩
  pause h := ⟨h.steady.1, h.runId, h.keyed⟩
  tail h := ⟨h.steady, h.runId, h.keyed⟩
  pop h hstate _ := ⟨⟨h.steady, hstate, rfl⟩, h.runId, h.keyed⟩
  invoke h _ _ := h.step
  hold h := ⟨h.steady.1, h.runId, h.keyed⟩
  wait h hstate := ⟨h.steady.wait hstate _, h.runId, h.keyed⟩
  waitingState h := h.steady.2
  waited h := ⟨h.steady.1, h.runId, h.keyed⟩

theorem named_ask {request : ModelRequest} (h : Named runId .rest c w) (hstate : c.state = .running)
    (hbatch : c.supervision.suspendedActionBatch = none) :
    Allowed (unbroken env runId) w (.complete c.runId request) fun r w' =>
      Named runId .rest c w' ∧ ∀ response, r = .ok response →
        Named runId (.batch response response.toolCalls) c w' :=
  h.step.mono fun _ _ h' => ⟨h', fun _ _ => ⟨⟨h'.steady, hstate, hbatch⟩, h'.runId, h'.keyed⟩⟩

theorem hookSpec_naming (agent : Agent) :
    (naming env runId).HookSpec (ModelToolStrategy.hooks agent) :=
  .ofModelTool (fun h hstate hbatch _ => named_ask h hstate hbatch)
    fun _ h hstate => ⟨h.steady.running hstate rfl rfl rfl, h.runId, h.keyed⟩

theorem planSpec_naming (strategy : PlanningStrategy) (agent : Agent) :
    (naming env runId).PlanSpec strategy agent where
  ask h hstate hbatch _ := named_ask h hstate hbatch
  assign hm h hplan _ _ _ := ⟨h.steady.withPlan hm hplan, h.runId, h.keyed⟩
  generate h hstate _ _ _ _ := ⟨hstate, h.runId, h.keyed⟩
  begin h _ hphase :=
    ⟨.setPlanning fun hplanning => (by rw [hphase] at hplanning; cases hplanning), h.runId,
      h.keyed⟩
  consistent h := h.steady.consistent
  phase h _ _ hplan := ⟨.setPlanning hplan, h.runId, h.keyed⟩
  finish h _ _ _ := ⟨.setPlanning fun hplanning => (by cases hplanning), h.runId, h.keyed⟩
  completed h hstate _ := ⟨h.steady.running hstate rfl rfl rfl, h.runId, h.keyed⟩
  thrown h _ := h.ended
  waitedWith h := ⟨h.steady.1, h.runId, h.keyed⟩
  settle {c w plan plan' run} h _ hplan _ _ _ := by
    have hat : Named runId .rest (c.withPlan plan') w :=
      ⟨Steady.withPlan (.inl rfl) h.steady hplan, h.runId, h.keyed⟩
    exact hat.step.mono fun _ _ h' => ⟨h', fun _ _ => h'.ended⟩
  settleGet {c w plan plan'} h _ hplan _ _ := by
    refine h.step.mono fun r w' h' => ⟨h', fun _ _ => trivial, fun _ _ => ?_⟩
    have hsteady : Steady .rest (c.withPlan plan') := Steady.withPlan (.inl rfl) h.steady hplan
    exact ⟨hsteady.ended, h'.runId, h'.keyed⟩
  settled h _ := ⟨h.steady, h.runId, h.keyed⟩
  blank h _ _ _ := h.ended

theorem turns_naming (agent : Agent) (strategy : OrchestrationStrategy) :
    (naming env runId).Turns strategy agent := by
  cases strategy with
  | modelTool =>
    exact (hookSpec_naming agent).turns (fun h => ⟨h.steady, h.runId, h.keyed⟩)
      fun h => ⟨h.steady, h.runId, h.keyed⟩
  | planning strategy =>
    exact (planSpec_naming strategy agent).turns
      (fun h hstate => ⟨h.steady.planned hstate, h.runId, h.keyed⟩)
      (fun h _ => ⟨h.steady, h.runId, h.keyed⟩) fun h _ => ⟨h.steady.ended, h.runId, h.keyed⟩

end Named

/-! ## Code that is not interrupted -/

section Uninterrupted

variable {env : RuntimeEnv} {runId : UUID} {m : Mode} {c : RuntimeContext} {w : RuntimeWorld}

abbrev Uninterrupted (env : RuntimeEnv) (runId : UUID) {α : Type} (p : ContextProg α)
    (Q : α → RuntimeWorld → Prop) (w : RuntimeWorld) : Prop :=
  p.Meets (unbroken env runId) Q (fun x _ => x.1 ≠ .cancelled) w

theorem emit_uninterrupted (type : EventType) (h : Named runId m c w) :
    Uninterrupted env runId (emit c type) (fun _ w' => Named runId m c w') w :=
  h.step.call fun _ _ h' => h'

theorem getRun_uninterrupted (h : Named runId m c w) :
    Uninterrupted env runId (getRun c) (fun run w' => Named runId m c w' ∧ run.id = runId) w := by
  have hget : Allowed (unbroken env runId) w (.getRun c.runId) fun r w' =>
      Named runId m c w' ∧ (∀ run, r = .ok run → run.id = runId) ∧
        ∀ e, r = .error e → e ≠ .cancelled := by
    refine .assuming trivial fun _ => ⟨⟨h.steady, h.runId, RuntimeEnv.exec_keyed h.keyed⟩, ?_, ?_⟩
    · intro run hrun
      rw [← h.runId]
      exact h.keyed _ run (RuntimeWorld.getRun_ok hrun)
    · intro e he
      cases getRun_cases env w c.runId with
      | inl hfound =>
        obtain ⟨run, -, hreply⟩ := hfound
        rw [hreply] at he
        cases he
      | inr hmissing =>
        rw [hmissing.2] at he
        cases he
        exact runNotFound_ne _
  refine hget.call fun r w' h' => ?_
  cases r with
  | ok run => exact ⟨h'.1, h'.2.1 run rfl⟩
  | error e => exact h'.2.2 e rfl

/-- A snapshot that is taken is stored with the state of its context. -/
theorem snapshot_uninterrupted (h : Named runId m c w) :
    Uninterrupted env runId (saveContextSnapshot c)
      (fun _ w' => Named runId m c w' ∧ ∃ run, w'.runs runId = some run ∧ run.status = c.state)
      w := by
  refine (getRun_uninterrupted h).bind fun existing w₁ h₁ => ?_
  obtain ⟨hnamed, hid⟩ := h₁
  have hsave : Allowed (unbroken env runId) w₁ (.saveRun (c.snapshot existing)) fun r w' =>
      Named runId m c w' ∧
        (r = .ok () → ∃ run, w'.runs runId = some run ∧ run.status = c.state) ∧
        ∀ e, r = .error e → e ≠ .cancelled := by
    refine .assuming trivial fun _ =>
      ⟨⟨hnamed.steady, hnamed.runId, RuntimeEnv.exec_keyed hnamed.keyed⟩, ?_⟩
    cases saveRun_cases env w₁ (c.snapshot existing) with
    | inl hwritten =>
      obtain ⟨-, hreply, hw⟩ := hwritten
      obtain ⟨flag, hruns⟩ := hw.runs
      refine ⟨fun _ => ⟨{ c.snapshot existing with cancelRequested := flag }, ?_, rfl⟩, ?_⟩
      · rw [hruns, ← hid]
        exact Function.update_self ..
      · intro e he
        rw [hreply] at he
        cases he
    | inr hmissing =>
      obtain ⟨-, hreply, -⟩ := hmissing
      rw [hreply]
      refine ⟨fun hok => (by cases hok), fun e he => ?_⟩
      cases he
      exact runNotFound_ne _
  refine hsave.call fun r w' h' => ?_
  cases r with
  | ok u => exact ⟨h'.1, h'.2.1 rfl⟩
  | error e => exact h'.2.2 e rfl

theorem transitionTo_uninterrupted {target : RunStatus} {Q : RuntimeContext → RuntimeWorld → Prop}
    (hQ : Q { c with state := target } w) :
    Uninterrupted env runId (transitionTo c target) Q w := by
  unfold transitionTo RuntimeContext.transitionTo
  split
  · exact hQ
  · exact fun hcancelled => by cases hcancelled

theorem emitSkills_uninterrupted (skills : List Skill) (h : Named runId m c w) :
    Uninterrupted env runId (AgentRuntime.emitSkills c skills) (fun _ w' => Named runId m c w')
      w := by
  induction skills generalizing w with
  | nil => exact h
  | cons skill rest ih =>
    refine (emit_uninterrupted _ h).bind fun _ w₁ h₁ => ?_
    exact (emit_uninterrupted _ h₁).bind fun _ w₂ h₂ => ih h₂

theorem createRun_uninterrupted (h : Named runId .rest c w) :
    Uninterrupted env runId (PlanningAgent.createRun c) (fun _ w' => Named runId .rest c w') w := by
  have hcreate : Allowed (unbroken env runId) w (.createRun (AgentRuntime.newRun c)) fun r w' =>
      Named runId .rest c w' ∧ ∀ e, r = .error e → e ≠ .cancelled := by
    refine .assuming trivial fun _ =>
      ⟨⟨h.steady, h.runId, RuntimeEnv.exec_keyed h.keyed⟩, fun e he => ?_⟩
    have hreply : (w.createRun (AgentRuntime.newRun c)).1 = .error e := he
    unfold RuntimeWorld.createRun at hreply
    split at hreply
    · cases hreply
      exact fun hcancelled => by cases hcancelled
    · cases hreply
  have hcreated : Uninterrupted env runId (AgentRuntime.createRun c)
      (fun _ w' => Named runId .rest c w') w := by
    refine hcreate.call fun r w₁ h₁ => ?_
    cases r with
    | error e => exact h₁.2 e rfl
    | ok u =>
      refine (emit_uninterrupted _ h₁.1).bind fun _ w₂ h₂ => ?_
      exact emitSkills_uninterrupted c.skills h₂
  refine hcreated.bind fun _ w₁ h₁ => ?_
  split
  · exact emit_uninterrupted _ h₁
  · exact h₁

theorem start_uninterrupted (h : Named runId .rest c w)
    (hstate : c.state = .created ∨ c.state = .running) :
    Uninterrupted env runId (PlanningAgent.start c)
      (fun c' w' => Named runId .rest c' w' ∧ c'.state = .running) w := by
  refine (createRun_uninterrupted h).bind fun _ w₁ h₁ => ?_
  have hstarted : Uninterrupted env runId (PlanningAgent.started c)
      (fun c' w' => Named runId .rest c' w' ∧ c'.state = .running) w₁ := by
    unfold PlanningAgent.started
    split
    · rename_i hcreated
      refine transitionTo_uninterrupted ⟨⟨?_, h₁.runId, h₁.keyed⟩, rfl⟩
      exact h₁.steady.moved (by rw [hcreated]; rfl) rfl rfl rfl
    · rename_i hcreated
      exact ⟨h₁, hstate.resolve_left hcreated⟩
  refine hstarted.bind fun c' w₂ h₂ => ?_
  refine (snapshot_uninterrupted h₂.1).bind fun _ w₃ h₃ => ?_
  exact (emit_uninterrupted _ h₃.1).bind fun _ w₄ h₄ => ⟨h₄, h₂.2⟩

theorem answer_uninterrupted {agent : Agent} {input : Option String}
    {confirmation : Option ToolConfirmation} {e : RuntimeError}
    (h : AgentRuntime.answer agent c input confirmation = .error e) : e ≠ .cancelled := by
  intro hcancelled
  subst hcancelled
  unfold AgentRuntime.answer AgentRuntime.decide AgentRuntime.receive at h
  grind

theorem prepareResume_uninterrupted (agent : Agent) (input : Option String)
    (confirmation : Option ToolConfirmation) (h : Named runId .rest c w)
    (hstate : c.state = .waiting) :
    Uninterrupted env runId (AgentRuntime.prepareResume agent c input confirmation)
      (fun c' w' => Named runId .rest c' w' ∧ c'.state = .running) w := by
  unfold AgentRuntime.prepareResume
  cases hanswer : AgentRuntime.answer agent c input confirmation with
  | error e => exact answer_uninterrupted hanswer
  | ok c' =>
    obtain ⟨hstate', halike⟩ := Course.Lifecycle.answer_alike hanswer
    have hresumed : Named runId .rest c.resumed w :=
      ⟨h.steady.moved (by rw [hstate]; rfl) rfl rfl rfl, h.runId, h.keyed⟩
    have hat : Named runId .rest c'.resumed w := (naming env runId).alike halike hresumed
    show Uninterrupted env runId ((transitionTo
      { c' with pendingInput := none, output := none, error := none } .running).bind _) _ w
    refine (transitionTo_uninterrupted (Q := fun a w' => a = c'.resumed ∧ Named runId .rest a w')
      ⟨rfl, hat⟩).bind fun a w₁ h₁ => ?_
    obtain ⟨rfl, h₁⟩ := h₁
    refine (snapshot_uninterrupted h₁).bind fun _ w₂ h₂ => ?_
    have hemits : Uninterrupted env runId (AgentRuntime.emitAnswer c'.resumed confirmation)
        (fun _ w' => Named runId .rest c'.resumed w') w₂ := by
      cases confirmation with
      | none => exact emit_uninterrupted _ h₂.1
      | some confirmation =>
        refine (emit_uninterrupted _ h₂.1).bind fun _ w₃ h₃ => ?_
        split
        · exact emit_uninterrupted _ h₃
        · exact h₃
    refine hemits.bind fun _ w₃ h₃ => ?_
    exact (emit_uninterrupted _ h₃).bind fun _ w₄ h₄ => ⟨h₄, rfl⟩

theorem enter_uninterrupted (p : PlanningAgent) (input : Option String)
    (confirmation : Option ToolConfirmation) (h : Named runId .rest c w) :
    Uninterrupted env runId (p.enter c input confirmation)
      (fun c' w' => Named runId .rest c' w' ∧ c'.state = .running) w := by
  unfold PlanningAgent.enter
  split
  · rename_i hstate
    exact start_uninterrupted h (.inl hstate)
  · rename_i hstate
    exact start_uninterrupted h (.inr hstate)
  · rename_i hstate
    exact prepareResume_uninterrupted p.agent input confirmation h hstate
  · exact fun hcancelled => by cases hcancelled

/-- What the `except` clauses leave.  An interruption has ended the context. -/
theorem recover_uninterrupted (e : RuntimeError) (h : Named runId .ended c w) :
    Uninterrupted env runId (AgentRuntime.recover c e)
      (fun c' w' => Named runId .ended c' w' ∧ (e = .cancelled → c'.state.terminal = true)) w := by
  have hfail : ∀ text, e ≠ .cancelled →
      Uninterrupted env runId (ModelToolStrategy.failExecution c text)
        (fun c' w' => Named runId .ended c' w' ∧ (e = .cancelled → c'.state.terminal = true)) w := by
    intro text he
    by_cases hstate : c.state = .running
    · rw [failExecution_running hstate]
      exact ⟨⟨(Steady.endedWith text rfl).ended, h.runId, h.keyed⟩, fun heq => absurd heq he⟩
    · unfold ModelToolStrategy.failExecution
      simp only [if_neg hstate]
      exact ⟨⟨h.steady.withError hstate text, h.runId, h.keyed⟩, fun heq => absurd heq he⟩
  have hinterrupt : ∀ w' text status, status = .cancelled ∨ status = .interrupted →
      Named runId .ended c w' →
      Uninterrupted env runId (AgentRuntime.interrupt c text status)
        (fun c' w' => Named runId .ended c' w' ∧ (e = .cancelled → c'.state.terminal = true))
        w' := by
    intro w' text status hstatus h'
    obtain ⟨hended, herror⟩ := Steady.interrupted hstatus h'.steady text
    by_cases hterminal : c.state.terminal = true
    · rw [Course.Lifecycle.interrupt_terminal hterminal]
      exact ⟨⟨hended hterminal, h'.runId, h'.keyed⟩, fun _ => hterminal⟩
    · rw [Course.Lifecycle.interrupt_live hstatus (by simpa using hterminal)]
      refine ⟨⟨herror, h'.runId, h'.keyed⟩, fun _ => ?_⟩
      show status.terminal = true
      cases hstatus with
      | inl hcancelled =>
        rw [hcancelled]
        rfl
      | inr hinterrupted =>
        rw [hinterrupted]
        rfl
  cases e with
  | exhausted => exact fun heq => by cases heq
  | cancelled =>
    refine (getRun_uninterrupted h).bind fun run w' h' => ?_
    split
    · exact hinterrupt w' _ _ (.inl rfl) h'.1
    · exact hinterrupt w' _ _ (.inr rfl) h'.1
  | _ => exact hfail _ (by simp)

theorem emitPlan_uninterrupted (previous plan : ExecutionPlan) (flag : Bool)
    (h : Named runId m c w) :
    Uninterrupted env runId (emitPlan c previous plan flag) (fun _ w' => Named runId m c w') w := by
  have hsteps : ∀ (steps : List PlanStep) (w' : RuntimeWorld), Named runId m c w' →
      Uninterrupted env runId (emitSteps c previous steps) (fun _ w'' => Named runId m c w'')
        w' := by
    intro steps
    induction steps with
    | nil => exact fun _ h' => h'
    | cons step rest ih =>
      intro w' h'
      unfold emitSteps
      cases stepEvent previous step with
      | none => exact ih w' h'
      | some type => exact (emit_uninterrupted type h').bind fun _ w'' h'' => ih w'' h''
  unfold emitPlan
  split
  · exact (emit_uninterrupted _ h).bind fun _ w' h' => hsteps plan.steps w' h'
  · exact hsteps plan.steps w h

theorem planRaise_ne (e : PlanError) : planRaise e ≠ .cancelled := by
  cases e <;> exact fun hcancelled => by cases hcancelled

/-- A plan that is replaced changes neither the Run nor its state. -/
theorem replacePlan_uninterrupted {plan : ExecutionPlan} (next : Except PlanError ExecutionPlan)
    (hplan : c.plan = some plan) (hstate : c.state.errorStatus = true) (h : Named runId m c w) :
    Uninterrupted env runId (replacePlan c next) (fun c' _ => c'.state = c.state) w := by
  unfold replacePlan
  cases next with
  | error e => exact planRaise_ne e
  | ok plan' =>
    show Uninterrupted env runId (updateExecutionPlan c plan' false) _ w
    unfold updateExecutionPlan
    rw [hplan]
    simp only
    split
    · exact fun hcancelled => by cases hcancelled
    · split
      · exact fun hcancelled => by cases hcancelled
      · have hat : Named runId .rest (c.withPlan plan') w :=
          ⟨RuntimeContext.Planned.of_errorStatus hstate, h.runId, h.keyed⟩
        refine (snapshot_uninterrupted hat).bind fun _ w₁ h₁ => ?_
        exact (emitPlan_uninterrupted plan plan' false h₁.1).bind fun _ w₂ h₂ => rfl

theorem settle_uninterrupted (agent : Agent) (strategy : OrchestrationStrategy)
    (h : Named runId .ended c w) :
    Uninterrupted env runId (strategy.settle c)
      (fun c' w' => Named runId .settled c' w' ∧ c'.state = c.state) w := by
  have hturns : (naming env runId).Turns strategy agent := turns_naming agent strategy
  have hnamed := hturns.settle h
  have hstate : Uninterrupted env runId (strategy.settle c) (fun c' _ => c'.state = c.state) w := by
    cases strategy with
    | modelTool => rfl
    | planning strategy =>
      show Uninterrupted env runId (PlanningStrategy.settleTerminalPlan c) _ w
      unfold PlanningStrategy.settleTerminalPlan
      cases hplan : c.plan with
      | none => rfl
      | some plan =>
        simp only
        split
        · rfl
        · split
          · rename_i hstate
            exact replacePlan_uninterrupted _ hplan (by rw [hstate]; rfl) h
          · rename_i hstate
            exact replacePlan_uninterrupted _ hplan (by rw [hstate]; rfl) h
          · rename_i hstate
            exact replacePlan_uninterrupted _ hplan (by rw [hstate]; rfl) h
          · rename_i hstate
            exact replacePlan_uninterrupted _ hplan (by rw [hstate]; rfl) h
          · rfl
  exact (hnamed.and hstate).mono (fun _ _ h' => h') fun _ _ h' => h'.2

end Uninterrupted

/-! ## Executions that end in an interruption -/

/-- An interruption that goes on leaves a Run that can be finalized. -/
def Interrupts (runId : UUID) (e : RuntimeError) (w : RuntimeWorld) : Prop :=
  e = .cancelled → w.Finalizable runId

section Executions

variable {env : RuntimeEnv} {runId : UUID} {c : RuntimeContext} {w : RuntimeWorld}
variable {p : PlanningAgent}

/-- The program ends in an interruption only where the Run can be finalized. -/
abbrev Recovers (env : RuntimeEnv) (runId : UUID) {α : Type} (task : RuntimeProg α)
    (Q : α → RuntimeWorld → Prop) (w : RuntimeWorld) : Prop :=
  task.Meets (unbroken env runId) Q (Interrupts runId) w

theorem Uninterrupted.recovers {α : Type} {task : ContextProg α} {Q : α → RuntimeWorld → Prop}
    (h : Uninterrupted env runId task Q w) : Recovers env runId (uncontexted task) Q w :=
  uncontexted_meets (h.mono (fun _ _ h' => h') fun _ _ hne heq => absurd heq hne)

/-- An operation that leaves the Runs, and may be interrupted. -/
theorem step_unbroken {o : RuntimeOp} (hruns : (env.exec o w).2.runs = w.runs) :
    Allowed (unbroken env runId) w o fun r w' => uncaught o r → w'.Finalizable runId := by
  refine .assuming trivial fun hunbroken hreply => ?_
  unfold RuntimeWorld.Finalizable
  rw [hruns]
  exact hunbroken hreply

theorem step_any (o : RuntimeOp) : Allowed (unbroken env runId) w o fun _ _ => True :=
  .assuming trivial fun _ => trivial

theorem Recovers.keyed {α : Type} {task : RuntimeProg α}
    (h : Recovers env runId task (fun _ _ => True) w) (hkeyed : w.Keyed) :
    Recovers env runId task (fun _ w' => w'.Keyed) w := by
  have hkept : task.Meets (unbroken env runId) (fun _ w' => w'.Keyed) (fun _ w' => w'.Keyed) w := by
    clear h
    induction task generalizing w with
    | ret a => exact hkeyed
    | raise e => exact hkeyed
    | call o k ih => exact ⟨trivial, fun r _ => ih r (RuntimeEnv.exec_keyed hkeyed)⟩
  exact (h.and hkept).mono (fun _ _ h' => h'.2) fun _ _ h' => h'.1

theorem close_recovers (id : UUID) (names : List String) (w : RuntimeWorld) :
    Recovers env runId (AgentRuntime.close id names) (fun _ _ => True) w := by
  induction names generalizing w with
  | nil => trivial
  | cons name rest ih =>
    refine (step_unbroken (o := .aexit name) rfl).call fun reply w₁ h₁ => ?_
    cases reply with
    | ok u => exact (step_any _).call fun _ w₂ _ => ih w₂
    | error failure =>
      cases failure with
      | cancelled => exact fun _ => h₁ rfl
      | raised typeName message => exact (step_any _).call fun _ w₂ _ => ih w₂

theorem finishTurn_recovers (conversationId : Option UUID) (id : UUID) (status : RunStatus)
    (w : RuntimeWorld) :
    Recovers env runId (AgentRuntime.finishTurn conversationId id status) (fun _ _ => True) w := by
  unfold AgentRuntime.finishTurn
  cases conversationId with
  | none => trivial
  | some conversation =>
    refine (step_unbroken (o := .finishTurn conversation id status) rfl).call fun reply w₁ h₁ => ?_
    cases reply with
    | ok u => trivial
    | error failure =>
      cases failure with
      | cancelled => exact fun _ => h₁ rfl
      | raised typeName message => exact fun hcancelled => by cases hcancelled

theorem settleCheckpoint_recovers (c : RuntimeContext) (w : RuntimeWorld) :
    Recovers env runId (AgentRuntime.settleCheckpoint c) (fun _ _ => True) w := by
  unfold AgentRuntime.settleCheckpoint
  split
  · unfold RuntimeCheckpoint.fromContext
    split
    · exact (step_any _).call fun _ _ _ => trivial
    · exact fun hcancelled => by cases hcancelled
  · exact (step_any _).call fun _ _ _ => trivial

theorem finalizeRun_uninterrupted {m : Mode} (h : Named runId m c w) :
    Uninterrupted env runId (AgentRuntime.finalizeRun c)
      (fun _ w' => ∃ run, w'.runs runId = some run ∧ run.status = c.state) w := by
  refine (snapshot_uninterrupted h).bind fun _ w₁ h₁ => ?_
  cases AgentRuntime.terminalEvent c.state with
  | none => exact fun hcancelled => by cases hcancelled
  | some type =>
    have hemit : Allowed (unbroken env runId) w₁ (.emit c.runId type) fun _ w' =>
        w'.runs = w₁.runs := .assuming trivial fun _ => rfl
    refine hemit.call fun _ w₂ h₂ => ?_
    show ∃ run, w₂.runs runId = some run ∧ run.status = c.state
    rw [h₂]
    exact h₁.2

theorem buildResult_ne {e : RuntimeError} (h : AgentRuntime.buildResult c = .error e) :
    e ≠ .cancelled := by
  unfold AgentRuntime.buildResult at h
  split at h <;> cases h
  exact fun hcancelled => by cases hcancelled

/-- An interruption that was caught goes on when its Run is stored as terminal. -/
theorem conclude_recovers (agent : Agent) (strategy : OrchestrationStrategy) {interrupted : Bool}
    (h : Named runId .ended c w) (hended : interrupted = true → c.state.terminal = true) :
    Recovers env runId (PlanningAgent.conclude strategy c interrupted) (fun _ _ => True) w := by
  refine (settle_uninterrupted agent strategy h).recovers.bind fun c' w₁ h₁ => ?_
  obtain ⟨hnamed, hstate⟩ := h₁
  unfold AgentRuntime.conclude
  cases hresult : AgentRuntime.buildResult c' with
  | error e => exact fun heq => absurd heq (buildResult_ne hresult)
  | ok result =>
    refine ((settleCheckpoint_recovers c' w₁).keyed hnamed.keyed).bind fun _ w₂ h₂ => ?_
    refine ((finishTurn_recovers _ _ c'.state w₂).keyed h₂).bind fun _ w₃ h₃ => ?_
    have hnamed₃ : Named runId .settled c' w₃ := ⟨hnamed.steady, hnamed.runId, h₃⟩
    refine (finalizeRun_uninterrupted hnamed₃).recovers.bind fun _ w₄ h₄ => ?_
    split
    · rename_i hinterrupted
      intro _ run hrun hlive
      obtain ⟨stored, hstored, hstatus⟩ := h₄
      rw [hstored] at hrun
      cases hrun
      rw [hstatus, hstate, hended hinterrupted] at hlive
      cases hlive
    · trivial

theorem closing_recovers {m : Mode} {next : RuntimeProg AgentResult} (h : Named runId m c w)
    (hnext : ∀ w', Named runId m c w' → Recovers env runId next (fun _ _ => True) w') :
    Recovers env runId (AgentRuntime.closing c next) (fun _ _ => True) w := by
  have hclose : Recovers env runId (AgentRuntime.close c.runId c.acquired.reverse)
      (fun _ _ => True) w := close_recovers c.runId c.acquired.reverse w
  exact (hclose.keyed h.keyed).bind fun _ w' h' => hnext w' ⟨h.steady, h.runId, h'⟩

theorem guarded_recovers (strategy : OrchestrationStrategy) (fuel : Nat)
    (h : Named runId .rest c w) (hstate : c.state = .running) :
    Recovers env runId (p.guarded strategy fuel c) (fun _ _ => True) w := by
  have hturns : (naming env runId).Turns strategy p.agent := turns_naming p.agent strategy
  refine (Course.Lifecycle.body_leads hturns fuel h hstate).attempt.bind fun outcome w₁ h₁ => ?_
  cases outcome with
  | ok c' =>
    have hnamed : Named runId .rest c' w₁ := h₁
    exact closing_recovers hnamed.ended fun w' h' =>
      conclude_recovers p.agent strategy h' fun hinterrupted => (by cases hinterrupted)
  | error x =>
    obtain ⟨e, c'⟩ := x
    have hnamed : Named runId .ended c' w₁ := h₁
    refine (recover_uninterrupted e hnamed).attempt.bind fun outcome w₂ h₂ => ?_
    cases outcome with
    | ok c'' =>
      obtain ⟨hnamed', hended⟩ := h₂
      refine closing_recovers hnamed' fun w' h' =>
        conclude_recovers p.agent strategy h' fun hinterrupted => hended ?_
      exact of_decide_eq_true hinterrupted
    | error x =>
      obtain ⟨e', c''⟩ := x
      have hne : e' ≠ .cancelled := h₂
      simp only
      split
      · exact fun hcancelled => by cases hcancelled
      · exact (close_recovers _ _ w₂).bind fun _ w' _ heq => absurd heq hne

/-- An execution ends in an interruption only where its Run can be finalized. -/
theorem execute_recovers (fuel : Nat) (input : Option String)
    (confirmation : Option ToolConfirmation) (hplanned : c.Planned) (hid : c.runId = runId)
    (hkeyed : w.Keyed) :
    Recovers env runId (p.execute fuel c input confirmation) (fun _ _ => True) w := by
  have hnamed : Named runId .rest c w := ⟨hplanned, hid, hkeyed⟩
  refine (enter_uninterrupted p input confirmation hnamed).recovers.bind fun c' w₁ h₁ => ?_
  exact guarded_recovers (p.active c) fuel h₁.1 h₁.2

end Executions

end Runtime
end BaseAgent

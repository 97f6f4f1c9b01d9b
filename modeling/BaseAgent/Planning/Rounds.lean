import BaseAgent.Planning.Course
import BaseAgent.Planning.Strategy

/-!
# The turns of the planning strategy

`PlanSpec` adds to a course what the planning strategy does to the context beyond the turn of
`ModelToolStrategy`: it replaces the plan, it changes its phase, and it settles the plan of a
context that has ended.  The code of `PlanningStrategy` is walked once from it.
-/

namespace BaseAgent
namespace Runtime

open Async Prog PlanningStrategy

variable {S : Type} {L : Observer RuntimeOp RuntimeOp.Ret S}

def RuntimeContext.phase (c : RuntimeContext) : Option PlanningPhase :=
  c.supervision.planning.map PlanningState.phase

def RuntimeContext.withPlan (c : RuntimeContext) (plan : ExecutionPlan) : RuntimeContext :=
  { c with plan := some plan }

def RuntimeContext.Unplanned (c : RuntimeContext) : Prop :=
  c.plan = none ∧ c.planningRequested = true

/-- The plan of a context that has ended with an error is settled. -/
def RuntimeContext.Settled (c : RuntimeContext) : Prop :=
  c.state.errorStatus = true → ∀ plan, c.plan = some plan → plan.status.terminal = true

namespace Course

structure PlanSpec (C : Course L) (strategy : PlanningStrategy) (agent : Agent) : Prop where
  ask {c s tools} : C.At .rest c s → c.state = .running →
    c.supervision.suspendedActionBatch = none → toolDefinitions agent c = .ok tools →
    Allowed L s (.complete c.runId ⟨c.messages, tools⟩) fun r s' =>
      C.At .rest c s' ∧ ∀ response, r = .ok response →
        C.At (.batch response response.toolCalls) c s'
  assign {m c s plan plan'} : m = .rest ∨ m = .waiting → C.At m c s → c.plan = some plan →
    c.state = .running ∨ c.state = .waiting → plan.Replaces plan' →
    (c.phase = some .summarizing → plan.idle = true → plan'.idle = true) →
    C.At m (c.withPlan plan') s
  generate {c s plan} : C.At .rest c s → c.state = .running → c.Unplanned →
    plan.validateGraph = .ok () → plan.status = .created →
    (∀ step ∈ plan.steps, step.status = .pending) → C.At .fresh (c.withPlan plan) s
  begin {c s} {state : PlanningState} : C.At .fresh c s → c.state = .running →
    state.phase = .executing → C.At .rest (setPlanning c state) s
  consistent {c s} : C.At .rest c s → c.state = .running → c.phase = some .planning → c.Unplanned
  phase {c s} {state : PlanningState} : C.At .rest c s → c.state = .running →
    state.phase ≠ .summarizing → (state.phase = .planning → c.Unplanned) →
    C.At .rest (setPlanning c state) s
  finish {c s plan} : C.At .rest c s → c.state = .running → c.plan = some plan →
    plan.status = .completed → C.At .rest (setPlanning c { phase := .summarizing }) s
  completed {c s} {text : String} : C.At .rest c s → c.state = .running →
    (∀ plan, c.plan = some plan → plan.status = .completed ∨ c.phase = some .summarizing) →
    C.At .rest { c with output := some text, state := .completed } s
  /-- An exception of the code after the transition to WAITING. -/
  thrown {c s e} : C.At .waiting c s → e ≠ .cancelled → C.Thrown e c s
  waitedWith {c s} {text : String} : C.At .waiting c s → C.At .left { c with error := some text } s
  /-- The plan of a context that has ended is replaced, and stored with it. -/
  settle {c s plan plan' run} : C.At .left c s → c.state.errorStatus = true → c.plan = some plan →
    plan.Replaces plan' → plan'.idle = true → C.Read (c.withPlan plan') run →
    Allowed L s (.saveRun ((c.withPlan plan').snapshot run)) fun r s' =>
      C.At .rest (c.withPlan plan') s' ∧ ∀ e, r = .error e → C.Thrown e (c.withPlan plan') s'
  settleGet {c s plan plan'} : C.At .left c s → c.state.errorStatus = true → c.plan = some plan →
    plan.Replaces plan' → plan'.idle = true → Allowed L s (.getRun c.runId) fun r s' =>
      C.At .left c s' ∧ (∀ run, r = .ok run → C.Read (c.withPlan plan') run) ∧
        ∀ e, r = .error e → C.Thrown e (c.withPlan plan') s'
  settled {c s} : C.At .left c s → c.Settled → C.At .rest c s
  /-- An error that is blank cannot settle a plan. -/
  blank {c s default e} : C.At .left c s → c.state.errorStatus = true →
    isBlank (errorOr c default) = true → isBlank default = false → C.Thrown e c s

end Course

/-! ## Reading plans -/

theorem validator_ok {strategy : PlanningStrategy} {x : Except String Unit}
    (h : strategy.validator x = .ok ()) : x = .ok () := by
  cases x with
  | ok u => rfl
  | error message => cases h

theorem modelValidate_ok {strategy : PlanningStrategy} {payload : List (String × JsonValue)}
    {plan : ExecutionPlan} (h : strategy.modelValidate payload = .ok plan) :
    plan.validateGraph = .ok () := by
  obtain ⟨fields, -, h⟩ := Except.bind_ok.mp h
  obtain ⟨u, -, h⟩ := Except.bind_ok.mp h
  obtain ⟨v, hgraph, h⟩ := Except.bind_ok.mp h
  cases h
  exact validator_ok hgraph

/-- A generated plan is valid, CREATED, and all its steps are PENDING. -/
theorem parseGeneratedPlan_ok {strategy : PlanningStrategy} {content name : String}
    {plan : ExecutionPlan} (h : strategy.parseGeneratedPlan content name = .ok plan) :
    plan.validateGraph = .ok () ∧ plan.status = .created ∧
      ∀ step ∈ plan.steps, step.status = .pending := by
  obtain ⟨payload, -, h⟩ := Except.bind_ok.mp h
  obtain ⟨parsed, hparsed, h⟩ := Except.bind_ok.mp h
  have hgraph := modelValidate_ok hparsed
  split at h
  · cases h
  · rename_i hcreated
    split at h
    · cases h
    · rename_i hpending
      cases h
      refine ⟨hgraph, by simpa using hcreated, ?_⟩
      simpa using hpending

def PlanCodec.Filled (codec : PlanCodec) : Prop :=
  ∀ payload plan, codec.planFields payload = .ok plan → plan.steps ≠ []

theorem parseGeneratedPlan_filled {strategy : PlanningStrategy} {content name : String}
    {plan : ExecutionPlan} (hcodec : strategy.codec.Filled)
    (h : strategy.parseGeneratedPlan content name = .ok plan) : plan.steps ≠ [] := by
  obtain ⟨payload, -, h⟩ := Except.bind_ok.mp h
  obtain ⟨parsed, hparsed, h⟩ := Except.bind_ok.mp h
  obtain ⟨fields, hfields, hparsed⟩ := Except.bind_ok.mp hparsed
  obtain ⟨u, -, hparsed⟩ := Except.bind_ok.mp hparsed
  obtain ⟨v, -, hparsed⟩ := Except.bind_ok.mp hparsed
  cases hparsed
  split at h
  · cases h
  · split at h
    · cases h
    · cases h
      exact hcodec payload parsed hfields

theorem parseReplannedSteps_ok {strategy : PlanningStrategy} {content : String}
    {steps : List PlanStep} (h : strategy.parseReplannedSteps content = .ok steps) :
    ∀ step ∈ steps, step.status = .pending := by
  obtain ⟨payload, -, h⟩ := Except.bind_ok.mp h
  split at h
  · obtain ⟨parsed, -, h⟩ := Except.bind_ok.mp h
    split at h
    · cases h
    · rename_i hpending
      cases h
      simpa using hpending
  · cases h

theorem supported_ok {plan plan' : ExecutionPlan} (h : supported plan = .ok plan') :
    plan' = plan := by
  unfold supported at h
  split at h
  · cases h
    rfl
  · cases h

/-- A replanning leaves the plan as it is, or merges pending steps into it. -/
theorem replanned_ok {strategy : PlanningStrategy} {plan updated : ExecutionPlan}
    {content : String} {changed : Bool}
    (h : strategy.replanned plan content = .ok (updated, changed)) :
    (changed = false ∧ updated = plan) ∨
      (changed = true ∧ ∃ steps count, (∀ step ∈ steps, step.status = .pending) ∧
        updated = plan.merged steps count ∧ updated.validateGraph = .ok ()) := by
  obtain ⟨steps, hsteps, h⟩ := Except.bind_ok.mp h
  have hpending := parseReplannedSteps_ok hsteps
  split at h
  · cases hsupported : supported plan with
    | error e =>
      rw [hsupported] at h
      cases h
    | ok same =>
      rw [hsupported] at h
      cases h
      exact .inl ⟨rfl, supported_ok hsupported⟩
  · obtain ⟨merged, hmerged, h⟩ := Except.bind_ok.mp h
    cases hsupported : supported merged with
    | error e =>
      rw [hsupported] at h
      cases h
    | ok same =>
      rw [hsupported] at h
      cases h
      rw [supported_ok hsupported]
      unfold mergeReplannedSteps at hmerged
      split at hmerged
      · obtain ⟨count, -, hmerged⟩ := Except.bind_ok.mp hmerged
        obtain ⟨u, hgraph, hmerged⟩ := Except.bind_ok.mp hmerged
        cases hmerged
        exact .inr ⟨rfl, steps, count, hpending, rfl, validator_ok hgraph⟩
      · cases hmerged

/-! ## Replacing the plan -/

namespace Course

variable {C : Course L}

theorem emitSteps_leads {m : Mode} {c : RuntimeContext} {s : S} (previous : ExecutionPlan)
    (steps : List PlanStep) (h : C.At m c s) :
    C.Leads (emitSteps c previous steps) (fun _ s' => C.At m c s') s := by
  induction steps generalizing s with
  | nil => exact h
  | cons step rest ih =>
    unfold emitSteps
    cases stepEvent previous step with
    | none => exact ih h
    | some type => exact (emit_leads type h).bind fun _ s' h' => ih h'

theorem emitPlan_leads {m : Mode} {c : RuntimeContext} {s : S} (previous plan : ExecutionPlan)
    (updated : Bool) (h : C.At m c s) :
    C.Leads (emitPlan c previous plan updated) (fun _ s' => C.At m c s') s := by
  unfold emitPlan
  split
  · exact (emit_leads _ h).bind fun _ s' h' => emitSteps_leads previous plan.steps h'
  · exact emitSteps_leads previous plan.steps h

/-- `update_execution_plan` with a replacement: it is accepted. -/
theorem updateExecutionPlan_eq {c : RuntimeContext} {plan plan' : ExecutionPlan}
    (hplan : c.plan = some plan) (hreplaces : plan.Replaces plan') (updated : Bool) :
    updateExecutionPlan c plan' updated =
      (saveContextSnapshot (c.withPlan plan')).bind fun _ =>
        (emitPlan (c.withPlan plan') plan plan' updated).bind fun _ => .ret (c.withPlan plan') := by
  obtain ⟨hid, hrevision⟩ := hreplaces.newer
  unfold updateExecutionPlan
  rw [hplan]
  simp only
  rw [if_neg (by rw [hid]; simp), if_neg (by omega)]
  rfl

end Course

theorem failExecution_running {c : RuntimeContext} {text : String} (h : c.state = .running) :
    ModelToolStrategy.failExecution c text = .ret (c.endedWith .failed text) := by
  show (if c.state = .running then transitionTo { c with error := some text } .failed
    else .ret { c with error := some text }) = _
  rw [if_pos h]
  exact transitionTo_error h rfl

theorem failExecution_waiting {c : RuntimeContext} {text : String} (h : c.state = .waiting) :
    ModelToolStrategy.failExecution c text = .ret { c with error := some text } := by
  unfold ModelToolStrategy.failExecution
  simp [h]

theorem transitionTo_completed {c : RuntimeContext} {text : String} (h : c.state = .running) :
    transitionTo { c with output := some text } .completed =
      .ret { c with output := some text, state := .completed } := by
  apply transitionTo_ret
  show RuntimeContext.allowed c.state .completed = true
  rw [h]
  rfl

namespace Course
namespace PlanSpec

variable {C : Course L} {strategy : PlanningStrategy} {agent : Agent}
variable (P : C.PlanSpec strategy agent)
variable {c : RuntimeContext} {s : S} {plan plan' : ExecutionPlan}

include P

theorem update_leads {m : Mode} (h : C.At m c s) (hm : m = .rest ∨ m = .waiting) (updated : Bool)
    (hstate : c.state = .running ∨ c.state = .waiting)
    (hplan : c.plan = some plan) (hreplaces : plan.Replaces plan')
    (hidle : c.phase = some .summarizing → plan.idle = true → plan'.idle = true) :
    C.Leads (updateExecutionPlan c plan' updated)
      (fun c' s' => c' = c.withPlan plan' ∧ C.At m c' s') s := by
  have hassigned := P.assign hm h hplan hstate hreplaces hidle
  rw [updateExecutionPlan_eq hplan hreplaces]
  refine (snapshot_leads hassigned hstate).bind fun _ s₁ h₁ => ?_
  refine (emitPlan_leads plan plan' updated h₁).bind fun _ s₂ h₂ => ?_
  exact ⟨rfl, h₂⟩

/-- The plan of a running context is replaced by what an operation returns. -/
theorem replace_leads (h : C.At .rest c s) (hstate : c.state = .running)
    (hplan : c.plan = some plan) {op : Except PlanError ExecutionPlan}
    (hop : ∀ plan', op = .ok plan' → plan.Replaces plan' ∧
      (c.phase = some .summarizing → plan.idle = true → plan'.idle = true))
    {β : Type} {Q : β → S → Prop} {k : ExecutionPlan → RuntimeContext → ContextProg β}
    (updated : Bool)
    (hk : ∀ plan' s', op = .ok plan' → plan.Replaces plan' → C.At .rest (c.withPlan plan') s' →
      C.Leads (k plan' (c.withPlan plan')) Q s') :
    C.Leads ((liftPlan c op).bind fun plan' => (updateExecutionPlan c plan' updated).bind (k plan'))
      Q s := by
  cases op with
  | error e => exact C.thrown h hstate
  | ok plan' =>
    obtain ⟨hreplaces, hidle⟩ := hop plan' rfl
    refine (P.update_leads h (.inl rfl) updated (.inl hstate) hplan hreplaces
      hidle).bind fun c' s' h' => ?_
    obtain ⟨rfl, hat⟩ := h'
    exact hk plan' s' rfl hreplaces hat

/-! ## The methods -/

theorem fail_leads (text : String) (h : C.At .rest c s) (hstate : c.state = .running) :
    C.Leads (failExecution c text) (fun c' s' => C.At .rest c' s') s := by
  have hbase : ∀ c' s', c'.state = .running → C.At .rest c' s' →
      C.Leads (ModelToolStrategy.failExecution c' text) (fun c'' s'' => C.At .rest c'' s'') s' := by
    intro c' s' hstate' h'
    rw [failExecution_running hstate']
    exact C.leave h' hstate' rfl
  unfold failExecution
  cases hplan : c.plan with
  | none => exact hbase c s hstate h
  | some plan =>
    simp only
    split
    · exact hbase c s hstate h
    · have hop : ∀ plan', plan.fail text = .ok plan' → plan.Replaces plan' ∧
          (c.phase = some .summarizing → plan.idle = true → plan'.idle = true) :=
        fun plan' hfail => ⟨.fail text hfail, fun _ _ => (ExecutionPlan.idle_of_fail hfail).1⟩
      unfold replacePlan
      simp only [bind_eq, bind_assoc]
      exact P.replace_leads h hstate hplan hop false fun plan' s' _ _ hat => hbase _ s' hstate hat

theorem failWaiting_leads (text : String) (h : C.At .waiting c s) :
    C.Leads (failExecution c text) (fun c' s' => C.At .left c' s' ∧ c'.state = .waiting) s := by
  have hbase : ∀ c' s', C.At .waiting c' s' →
      C.Leads (ModelToolStrategy.failExecution c' text)
        (fun c'' s'' => C.At .left c'' s'' ∧ c''.state = .waiting) s' := by
    intro c' s' h'
    have hwaiting := C.waitingState h'
    rw [failExecution_waiting hwaiting]
    exact ⟨P.waitedWith h', hwaiting⟩
  unfold failExecution
  cases hplan : c.plan with
  | none => exact hbase c s h
  | some plan =>
    simp only
    split
    · exact hbase c s h
    · simp only [replacePlan]
      cases hfail : plan.fail text with
      | error e =>
        refine P.thrown h ?_
        cases e <;> simp [planRaise]
      | ok plan' =>
        have hreplaces : plan.Replaces plan' := .fail text hfail
        simp only [liftPlan, bind_eq, ret_bind]
        refine (P.update_leads h (.inr rfl) false (.inr (C.waitingState h))
          hplan hreplaces fun _ _ => (ExecutionPlan.idle_of_fail hfail).1).bind fun c' s' h' => ?_
        exact hbase c' s' h'.2

theorem wait_leads (h : C.At .waiting c s) :
    C.Leads (waitForInput c) (fun c' s' => C.At .left c' s' ∧ c'.state = .waiting) s := by
  unfold waitForInput requirePlan
  cases hplan : c.plan with
  | none => exact P.thrown h (by simp)
  | some plan =>
    simp only [orRaise, lift, bind_eq, ret_bind]
    cases hrunning : plan.stepWithStatus .running with
    | none => exact P.failWaiting_leads _ h
    | some step =>
      simp only [replacePlan]
      cases hwait : plan.waitStep step.id with
      | error e =>
        refine P.thrown h ?_
        cases e <;> simp [planRaise]
      | ok plan' =>
        have hreplaces : plan.Replaces plan' := .wait step.id hwait
        -- a plan with a running step is not idle
        have hnot : plan.idle ≠ true := by
          intro hidle
          have hmem := List.mem_of_find?_eq_some hrunning
          have hstatus := List.find?_some hrunning
          have hstep := List.all_eq_true.mp hidle step hmem
          simp only [decide_eq_true_eq] at hstatus
          rw [hstatus] at hstep
          cases hstep
        simp only [liftPlan, bind_eq, ret_bind]
        refine (P.update_leads h (.inr rfl) false (.inr (C.waitingState h))
          hplan hreplaces fun _ hidle => absurd hidle hnot).weaken fun c' s' h' => ?_
        exact ⟨C.waited h'.2, C.waitingState h'.2⟩

/-- The replacement that settles the plan of a context that has ended. -/
theorem settleWith_leads (h : C.At .left c s) (hstate : c.state.errorStatus = true)
    (hplan : c.plan = some plan) (hreplaces : plan.Replaces plan') (hidle : plan'.idle = true)
    (hterminal : plan'.status.terminal = true) :
    C.Leads (updateExecutionPlan c plan' false)
      (fun c' s' => C.At .rest c' s' ∧ c'.Settled) s := by
  rw [updateExecutionPlan_eq hplan hreplaces]
  have hsave : C.Leads (saveContextSnapshot (c.withPlan plan'))
      (fun _ s' => C.At .rest (c.withPlan plan') s') s := by
    refine (P.settleGet h hstate hplan hreplaces hidle).call fun r s₁ h₁ => ?_
    cases r with
    | error e => exact h₁.2.2 e rfl
    | ok run =>
      refine (P.settle h₁.1 hstate hplan hreplaces hidle (h₁.2.1 run rfl)).call fun r s₂ h₂ => ?_
      cases r with
      | error e => exact h₂.2 e rfl
      | ok u => exact h₂.1
  refine hsave.bind fun _ s₁ h₁ => ?_
  refine (emitPlan_leads plan plan' false h₁).bind fun _ s₂ h₂ => ?_
  refine ⟨h₂, fun _ other hother => ?_⟩
  cases hother
  exact hterminal

theorem settleTerminalPlan_leads (h : C.At .left c s) :
    C.Leads (settleTerminalPlan c) (fun c' s' => C.At .rest c' s' ∧ c'.Settled) s := by
  have hdone : c.Settled → C.Leads (.ret c) (fun c' s' => C.At .rest c' s' ∧ c'.Settled) s :=
    fun hsettled => ⟨P.settled h hsettled, hsettled⟩
  unfold settleTerminalPlan
  cases hplan : c.plan with
  | none =>
    refine hdone fun _ plan hsome => ?_
    rw [hplan] at hsome
    cases hsome
  | some plan =>
    simp only
    split
    · rename_i hterminal
      refine hdone fun _ other hsome => ?_
      rw [hplan] at hsome
      cases hsome
      exact hterminal
    · have hsettle : ∀ (status : RunStatus) (default : String), c.state = status →
          status.errorStatus = true → isBlank default = false →
          ∀ op : Except PlanError ExecutionPlan,
          (∀ plan', op = .ok plan' → plan.Replaces plan' ∧ plan'.idle = true ∧
            plan'.status.terminal = true) →
          (∀ e, op = .error e → isBlank (errorOr c default) = true) →
          C.Leads (replacePlan c op) (fun c' s' => C.At .rest c' s' ∧ c'.Settled) s := by
        intro status default hstate herror hdefault op hok hblank
        have hstate' : c.state.errorStatus = true := by
          rw [hstate]
          exact herror
        cases op with
        | error e => exact P.blank h hstate' (hblank e rfl) hdefault
        | ok plan' =>
          obtain ⟨hreplaces, hidle, hterminal⟩ := hok plan' rfl
          exact P.settleWith_leads h hstate' hplan hreplaces hidle hterminal
      have hcancel := fun text plan' (hop : plan.cancel text = .ok plan') =>
        (⟨.cancel text hop, ExecutionPlan.idle_of_cancel hop⟩ :
          plan.Replaces plan' ∧ plan'.idle = true ∧ plan'.status.terminal = true)
      have hfail := fun text plan' (hop : plan.fail text = .ok plan') =>
        (⟨.fail text hop, ExecutionPlan.idle_of_fail hop⟩ :
          plan.Replaces plan' ∧ plan'.idle = true ∧ plan'.status.terminal = true)
      split
      · rename_i hstate
        exact hsettle _ "run cancelled" hstate rfl (by decide) _ (hcancel _)
          fun _ => ExecutionPlan.cancel_error
      · rename_i hstate
        exact hsettle _ _ hstate rfl (by rw [hstate]; decide) _ (hfail _)
          fun _ => ExecutionPlan.fail_error
      · rename_i hstate
        exact hsettle _ _ hstate rfl (by rw [hstate]; decide) _ (hfail _)
          fun _ => ExecutionPlan.fail_error
      · rename_i hstate
        exact hsettle _ _ hstate rfl (by rw [hstate]; decide) _ (hfail _)
          fun _ => ExecutionPlan.fail_error
      · rename_i hcancelled hfailed hinterrupted hlimit
        refine hdone fun herror _ _ => ?_
        cases hstate : c.state <;> simp_all [RunStatus.errorStatus]

omit P in
theorem settleTerminalPlan_running (hstate : c.state = .running) :
    settleTerminalPlan c = .ret c := by
  unfold settleTerminalPlan
  cases c.plan with
  | none => rfl
  | some plan =>
    simp only [hstate]
    split <;> rfl

/-! ## What the responses complete -/

theorem finishPlan_leads (h : C.At .rest c s) (hstate : c.state = .running)
    (hplan : c.plan = some plan) (hcompleted : plan.status = .completed) :
    C.Leads (strategy.finishPlan c plan) (fun c' s' => C.At .rest c' s') s := by
  unfold finishPlan
  split
  · have hfinished : C.At .rest ((setPlanning c { phase := .summarizing }).append
        (.user (strategy.summaryPrompt c plan))) s :=
      C.alike (by exact .of_eq rfl) (P.finish h hstate hplan hcompleted)
    refine (snapshot_leads hfinished (.inl hstate)).bind fun _ s' h' => ?_
    exact h'
  · rw [transitionTo_completed hstate]
    refine P.completed h hstate fun other hother => ?_
    rw [hplan] at hother
    cases hother
    exact .inl hcompleted

theorem faulty_leads (h : C.At .rest c s) (hstate : c.state = .running) (what : String)
    (fault : PlanFault) :
    C.Leads (faulty c what fault) (fun c' s' => C.At .rest c' s') s := by
  cases fault with
  | invalid message => exact P.fail_leads _ h hstate
  | escaped typeName message => exact C.thrown h hstate

theorem completePlanning_leads (h : C.At .rest c s) (hstate : c.state = .running)
    (hplan : c.Unplanned) (state : PlanningState) (content : String) :
    C.Leads (strategy.completePlanning agent c state content) (fun c' s' => C.At .left c' s') s := by
  unfold completePlanning
  cases hparse : (strategy.parseGeneratedPlan content agent.providerName).bind supported with
  | error fault => exact (P.faulty_leads h hstate _ fault).weaken fun _ _ => C.left
  | ok plan =>
    obtain ⟨parsed, hparsed, hsupported⟩ := Except.bind_ok.mp hparse
    rw [supported_ok hsupported]
    obtain ⟨hgraph, hcreated, hpending⟩ := parseGeneratedPlan_ok hparsed
    have hgenerated := P.generate h hstate hplan hgraph hcreated hpending
    unfold updateExecutionPlan
    rw [hplan.1]
    have hupdate : C.Leads
        ((saveContextSnapshot (c.withPlan parsed)).bind fun _ =>
          (emit (c.withPlan parsed) .planCreated).bind fun _ => .ret (c.withPlan parsed))
        (fun c' s' => c' = c.withPlan parsed ∧ C.At .fresh c' s') s := by
      refine (snapshot_leads hgenerated (.inl hstate)).bind fun _ s₁ h₁ => ?_
      refine (emit_leads _ h₁).bind fun _ s₂ h₂ => ?_
      exact ⟨rfl, h₂⟩
    refine Meets.bind hupdate fun c' s' h' => ?_
    obtain ⟨rfl, hat⟩ := h'
    exact C.left (P.begin hat hstate rfl)

theorem completeUpdating_leads (h : C.At .rest c s) (hstate : c.state = .running)
    (state : PlanningState) (content : String) :
    C.Leads (strategy.completeUpdating c state content) (fun c' s' => C.At .left c' s') s := by
  unfold completeUpdating requirePlan
  cases hplan : c.plan with
  | none => exact C.thrown h hstate
  | some plan =>
    simp only [orRaise, lift, bind_eq, ret_bind]
    cases hreplan : strategy.replanned plan content with
    | error fault => exact (P.faulty_leads h hstate _ fault).weaken fun _ _ => C.left
    | ok result =>
      obtain ⟨updated, changed⟩ := result
      refine (emit_leads _ h).bind fun _ s₁ h₁ => ?_
      have hupdate : C.Leads
          (reviewed c updated changed)
          (fun c' s' => C.At .rest c' s' ∧ c'.state = .running ∧ c'.plan = some updated) s₁ := by
        cases replanned_ok hreplan with
        | inl hsame =>
          obtain ⟨rfl, rfl⟩ := hsame
          exact ⟨h₁, hstate, hplan⟩
        | inr hmerged =>
          obtain ⟨rfl, steps, count, hpending, rfl, hvalid⟩ := hmerged
          refine (P.update_leads h₁ (.inl rfl) true (.inl hstate) hplan
            (.merge steps count hpending rfl hvalid)
            fun _ _ => ExecutionPlan.idle_merged hpending).weaken fun c' s' h' => ?_
          obtain ⟨rfl, hat⟩ := h'
          exact ⟨hat, hstate, rfl⟩
      refine hupdate.bind fun c' s' h' => ?_
      obtain ⟨hat, hstate', hplan'⟩ := h'
      let state' : PlanningState := { state with phase := .executing, completedStepId := none }
      have hphase : C.At .rest (setPlanning c' state') s' :=
        P.phase hat hstate' (fun heq => by cases heq) (fun heq => by cases heq)
      split
      · rename_i hcompleted
        refine (P.finishPlan_leads hphase hstate' hplan' hcompleted).weaken fun c'' s'' h'' => ?_
        exact C.left h''
      · exact C.left hphase

theorem afterStep_leads (h : C.At .rest c s) (hstate : c.state = .running)
    (hplan : c.plan = some plan) (state : PlanningState) (stepId : String) :
    C.Leads (strategy.afterStep agent c state plan stepId) (fun c' s' => C.At .left c' s') s := by
  unfold afterStep
  split
  · let state' : PlanningState :=
      { state with phase := .updating, completedStepId := some stepId }
    have hphase : C.At .rest (setPlanning c state') s :=
      P.phase h hstate (fun heq => by cases heq) (fun heq => by cases heq)
    simp only
    split
    · exact C.thrown hphase hstate
    · cases strategy.capabilities agent _ with
      | error e => exact C.thrown hphase hstate
      | ok tools =>
        have hprompted : ∀ message, C.At .rest ((setPlanning c state').append message) s :=
          fun _ => C.alike (by exact .of_eq rfl) hphase
        refine (snapshot_leads (hprompted _) (.inl hstate)).bind fun _ s' h' => ?_
        exact C.left h'
  · split
    · rename_i hcompleted
      refine (P.finishPlan_leads h hstate hplan hcompleted).weaken fun c' s' h' => ?_
      exact C.left h'
    · exact C.left h

theorem completeWith_leads (h : C.At .rest c s) (hstate : c.state = .running)
    (hplan : c.plan = some plan) {state : PlanningState} (hphase : state.phase = .executing)
    (stepId : String) {op : Except PlanError ExecutionPlan}
    (hop : ∀ plan', op = .ok plan' → plan.Replaces plan') :
    C.Leads (strategy.completeWith agent c state stepId op) (fun c' s' => C.At .left c' s') s := by
  unfold completeWith
  cases op with
  | error e => exact C.thrown h hstate
  | ok plan' =>
    have hat : C.At .rest (setPlanning c state) s :=
      P.phase h hstate (by rw [hphase]; simp) (fun heq => by rw [hphase] at heq; cases heq)
    have hexecuting : (setPlanning c state).phase ≠ some .summarizing := by
      show some state.phase ≠ some .summarizing
      rw [hphase]
      simp
    refine (P.update_leads hat (.inl rfl) false (.inl hstate) hplan
      (hop plan' rfl) fun hsum => absurd hsum hexecuting).bind fun c' s' h' => ?_
    obtain ⟨rfl, hat'⟩ := h'
    exact P.afterStep_leads hat' hstate rfl state stepId

theorem completeExecuting_leads (h : C.At .rest c s) (hstate : c.state = .running)
    {state : PlanningState} (hphase : state.phase = .executing) (content : String) :
    C.Leads (strategy.completeExecuting agent c state content)
      (fun c' s' => C.At .left c' s') s := by
  unfold completeExecuting requirePlan
  cases hplan : c.plan with
  | none => exact C.thrown h hstate
  | some plan =>
    simp only [orRaise, lift, bind_eq, ret_bind]
    cases plan.stepWithStatus .running with
    | none => exact (P.fail_leads _ h hstate).weaken fun _ _ => C.left
    | some running =>
      simp only
      split
      · cases strategy.parseReactResult content with
        | error fault => exact (P.faulty_leads h hstate _ fault).weaken fun _ _ => C.left
        | ok react =>
          have hphase' : ({ state with react := none } : PlanningState).phase = .executing := hphase
          exact P.completeWith_leads h hstate hplan hphase' running.id
            fun plan' hcomplete => .complete running.id _ _ _ _ hcomplete
      · exact P.completeWith_leads h hstate hplan hphase running.id
          fun plan' hcomplete => .complete running.id _ _ _ _ hcomplete

theorem completeResponse_leads (h : C.At .rest c s) (hstate : c.state = .running)
    (content : String) :
    C.Leads (strategy.completeResponse agent c content) (fun c' s' => C.At .left c' s') s := by
  unfold completeResponse
  have hat : C.At .rest
      (setPlanning c (c.supervision.planning.getD { phase := .executing })) s := by
    cases hstarted : c.supervision.planning with
    | none => exact P.phase h hstate (fun heq => by cases heq) (fun heq => by cases heq)
    | some state =>
      refine C.alike { phase := ?_ } h
      rw [hstarted]
      rfl
  generalize c.supervision.planning.getD { phase := .executing } = state at hat
  simp only
  cases hphase : state.phase with
  | planning =>
    have hplan : (setPlanning c state).Unplanned := by
      apply P.consistent hat hstate
      show some state.phase = _
      rw [hphase]
    exact P.completePlanning_leads hat hstate hplan state content
  | updating => exact P.completeUpdating_leads hat hstate state content
  | executing => exact P.completeExecuting_leads hat hstate hphase content
  | summarizing =>
    have hstate' : (setPlanning c state).state = .running := hstate
    rw [transitionTo_completed hstate']
    refine C.left (P.completed hat hstate' fun plan _ => .inr ?_)
    show some state.phase = _
    rw [hphase]

/-! ## The overridden methods -/

omit P in
theorem emitReact_leads {m : Mode} (type : EventType) (h : C.At m c s) :
    C.Leads (emitReact type c) (fun _ s' => C.At m c s') s := by
  unfold emitReact
  split
  · exact h
  · exact emit_leads type h

omit P in
theorem beforeModelRequest_leads (h : C.At .rest c s) (hstate : c.state = .running)
    (hbatch : c.supervision.suspendedActionBatch = none) :
    C.Leads (beforeModelRequest c) (fun c' s' => C.At .rest c' s' ∧ c'.state = .running ∧
      c'.supervision.suspendedActionBatch = none) s := by
  unfold beforeModelRequest
  split
  · rename_i step state _ hplanning
    let c' := setPlanning c { state with react := some (nextIteration step state.react) }
    have halike : c.Alike c' := { phase := by rw [hplanning]; rfl }
    refine (emit_leads _ (C.alike halike h)).bind fun _ s' h' => ?_
    exact ⟨h', hstate, hbatch⟩
  · exact ⟨h, hstate, hbatch⟩

/-- The methods of the planning strategy do what the turn needs. -/
theorem hookSpec : C.HookSpec (strategy.hooks agent) where
  ask := P.ask
  before := beforeModelRequest_leads
  selected := emitReact_leads _
  recorded := emitReact_leads _
  iterated := emitReact_leads _
  complete text h hstate _ := P.completeResponse_leads h hstate text
  fail text h hstate := (P.fail_leads text h hstate).weaken fun _ _ => C.left
  wait := P.wait_leads

/-! ## The turn -/

theorem turn_leads (h : C.At .rest c s) (hstate : c.state = .running) :
    C.Leads (strategy.turn agent c) (fun c' s' => C.At .rest c' s') s := by
  refine (P.hookSpec.advance_leads agent hstate h).bind fun c' s' h' => ?_
  exact (P.settleTerminalPlan_leads h').weaken fun _ _ hsettled => hsettled.1

theorem addPrompt_leads (h : C.At .rest c s) (hstate : c.state = .running)
    {state : PlanningState} (hphase : state.phase = .planning) (hplan : c.Unplanned) :
    C.Leads (strategy.addPrompt agent c state)
      (fun c' s' => C.At .rest c' s' ∧ c'.state = .running) s := by
  unfold addPrompt
  split
  · exact ⟨h, hstate⟩
  · cases strategy.capabilities agent c with
    | error e => exact C.thrown h hstate
    | ok tools =>
      let c₁ := c.append (.user (planningPrompt c tools))
      have happended : C.At .rest c₁ s := C.alike (by exact .of_eq rfl) h
      have hat : C.At .rest (setPlanning c₁ { state with promptAdded := true }) s :=
        P.phase happended hstate (fun heq => by rw [hphase] at heq; cases heq) fun _ => hplan
      refine (snapshot_leads hat (.inl hstate)).bind fun _ s' h' => ?_
      exact ⟨h', hstate⟩

theorem advanceUnplanned_leads (h : C.At .rest c s) (hstate : c.state = .running)
    (hplan : c.plan = none) (state : PlanningState) :
    C.Leads (strategy.advanceUnplanned agent c state) (fun c' s' => C.At .rest c' s') s := by
  unfold advanceUnplanned
  split
  · exact C.thrown h hstate
  · rename_i hrequested
    split
    · exact P.fail_leads _ h hstate
    · rename_i hphase
      have hunplanned : c.Unplanned := ⟨hplan, by simpa using hrequested⟩
      refine (P.addPrompt_leads h hstate (not_not.mp hphase) hunplanned).bind fun c' s' h' => ?_
      exact P.turn_leads h'.1 h'.2

theorem advanceStep_leads (h : C.At .rest c s) (hstate : c.state = .running)
    (running : PlanStep) :
    C.Leads (strategy.advanceStep agent c running) (fun c' s' => C.At .rest c' s') s := by
  unfold advanceStep
  simp only
  split
  · exact P.fail_leads _ h hstate
  · exact P.turn_leads h hstate

theorem handleNoReadyStep_leads (h : C.At .rest c s) (hstate : c.state = .running)
    (hplan : c.plan = some plan) :
    C.Leads (strategy.handleNoReadyStep c plan) (fun c' s' => C.At .rest c' s') s := by
  unfold handleNoReadyStep
  split
  · rename_i hcompleted
    exact P.finishPlan_leads h hstate hplan hcompleted
  · exact P.fail_leads _ h hstate

omit P in
theorem idle_of_stepWithStatus (hrunning : plan.stepWithStatus .running = none)
    (hwaiting : plan.stepWithStatus .waiting = none) : plan.idle = true := by
  apply List.all_eq_true.mpr
  intro step hmem
  have hr := List.find?_eq_none.mp hrunning step hmem
  have hw := List.find?_eq_none.mp hwaiting step hmem
  cases hstatus : step.status <;> simp_all [StepStatus.active]

theorem startReady_leads (h : C.At .rest c s) (hstate : c.state = .running)
    (hplan : c.plan = some plan) (hidle : plan.idle = true)
    (hphase : c.phase ≠ some .summarizing) (step : PlanStep) :
    C.Leads (strategy.startReady agent c plan step) (fun c' s' => C.At .rest c' s') s := by
  refine P.replace_leads h hstate hplan
    (fun plan' hstart => ⟨.start step.id hidle hstart, fun hsum => absurd hsum hphase⟩) false
    fun plan' s' _ _ hat => ?_
  have hprompted : ∀ message, C.At .rest ((c.withPlan plan').append message) s' :=
    fun _ => C.alike (by exact .of_eq rfl) hat
  refine (snapshot_leads (hprompted _) (.inl hstate)).bind fun _ s'' h'' => ?_
  exact P.advanceStep_leads h'' hstate step

theorem advanceReady_leads (h : C.At .rest c s) (hstate : c.state = .running)
    (hplan : c.plan = some plan) (hphase : c.phase ≠ some .summarizing)
    (hwaiting : plan.stepWithStatus .running = none → plan.stepWithStatus .waiting = none) :
    C.Leads (strategy.advanceReady agent c plan) (fun c' s' => C.At .rest c' s') s := by
  unfold advanceReady
  cases hrunning : plan.stepWithStatus .running with
  | some running => exact P.advanceStep_leads h hstate running
  | none =>
    have hidle := idle_of_stepWithStatus hrunning (hwaiting hrunning)
    simp only
    cases plan.readySteps with
    | nil => exact P.handleNoReadyStep_leads h hstate hplan
    | cons step rest => exact P.startReady_leads h hstate hplan hidle hphase step

omit P in
theorem stepWithStatus_resumeStep {stepId : String} (h : plan.resumeStep stepId = .ok plan') :
    plan'.stepWithStatus .running ≠ none := by
  obtain ⟨step, -, hr, -⟩ := ExecutionPlan.resumeStep_ok h
  intro hnone
  have hmem : ({ step with status := .running } : PlanStep) ∈ plan'.steps := by
    rw [hr.steps]
    exact List.mem_map.mpr ⟨step, hr.mem, if_pos hr.id.symm⟩
  have hstatus := List.find?_eq_none.mp hnone _ hmem
  simp at hstatus

theorem advancePlan_leads (h : C.At .rest c s) (hstate : c.state = .running)
    (hplan : c.plan = some plan) (hphase : c.phase ≠ some .summarizing) :
    C.Leads (strategy.advancePlan agent c plan) (fun c' s' => C.At .rest c' s') s := by
  unfold advancePlan
  cases hwaiting : plan.stepWithStatus .waiting with
  | none => exact P.advanceReady_leads h hstate hplan hphase fun _ => hwaiting
  | some waiting =>
    refine P.replace_leads h hstate hplan
      (fun plan' hresume => ⟨.resume waiting.id hresume, fun hsum => absurd hsum hphase⟩) false
      fun plan' s' hresume _ hat => ?_
    exact P.advanceReady_leads hat hstate rfl hphase
      fun hnone => absurd hnone (stepWithStatus_resumeStep hresume)

theorem advance_leads (h : C.At .rest c s) (hstate : c.state = .running) :
    C.Leads (strategy.advance agent c) (fun c' s' => C.At .rest c' s') s := by
  unfold advance
  have hat : C.At .rest (setPlanning c (c.supervision.planning.getD
      { phase := if c.plan.isNone && c.planningRequested then .planning else .executing })) s := by
    cases hstarted : c.supervision.planning with
    | some state => exact C.alike { phase := by rw [hstarted]; rfl } h
    | none =>
      simp only [Option.getD_none]
      split
      · rename_i hnew
        obtain ⟨hnone, hrequested⟩ := Bool.and_eq_true_iff.mp hnew
        refine P.phase h hstate (fun heq => by cases heq) fun _ => ⟨?_, hrequested⟩
        simpa using hnone
      · exact P.phase h hstate (fun heq => by cases heq) (fun heq => by cases heq)
  generalize c.supervision.planning.getD
    { phase := if c.plan.isNone && c.planningRequested then .planning else .executing } = state at hat
  simp only
  cases hplan : (setPlanning c state).plan with
  | none => exact P.advanceUnplanned_leads hat hstate hplan state
  | some plan =>
    simp only
    cases validateExecutors plan with
    | error message => exact C.thrown hat hstate
    | ok u =>
      have hexecuting : state.phase ≠ .summarizing →
          C.Leads (strategy.advancePlan agent (setPlanning c state) plan)
            (fun c' s' => C.At .rest c' s') s := by
        intro hphase
        refine P.advancePlan_leads hat hstate hplan fun heq => hphase ?_
        exact Option.some.inj heq
      cases hphase : state.phase with
      | summarizing => exact P.turn_leads hat hstate
      | updating => exact P.turn_leads hat hstate
      | planning => exact hexecuting (by rw [hphase]; simp)
      | executing => exact hexecuting (by rw [hphase]; simp)

end PlanSpec
end Course

end Runtime
end BaseAgent

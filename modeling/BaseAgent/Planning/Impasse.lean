import BaseAgent.Planning.Progress

/-!
# No way on

The planning strategy fails a Run whose plan has neither a ready nor an active step.  `Stuck` says
when its turn does so, and `Lively` is what keeps it from it: nothing has spoiled a step, and the
plan has what the phase of the context needs.

`advanceSaying` is the turn with another text for the failure.  As long as the context is not stuck
it is the turn itself.
-/

namespace BaseAgent
namespace Runtime

open Async Prog PlanningStrategy

variable {plan plan' : ExecutionPlan} {phase : Option PlanningPhase}

def Suits (plan : ExecutionPlan) : Option PlanningPhase → Prop
  | some .planning => False
  | some .updating | some .summarizing => plan.idle = true
  | some .executing | none => plan.Going

theorem Suits.busy (h : Suits plan phase) (hidle : plan.idle = false)
    (hidle' : plan'.idle = false) : Suits plan' phase := by
  have hnot : plan.idle ≠ true := by simp [hidle]
  match phase, h with
  | some .planning, h => exact h
  | some .updating, h => exact absurd h hnot
  | some .summarizing, h => exact absurd h hnot
  | some .executing, _ => exact .inr hidle'
  | none, _ => exact .inr hidle'

/-- A suspension that finds no running step keeps the steps, and does what the phase needs. -/
theorem Suits.idle (h : Suits plan phase) (hidle : plan.idle = true)
    (hphase : phase = some .updating ∨ phase = some .summarizing)
    (hsteps : plan'.steps = plan.steps) : Suits plan' phase := by
  have hidle' : plan'.idle = true := by
    unfold ExecutionPlan.idle
    rw [hsteps]
    exact hidle
  rcases hphase with rfl | rfl
  · exact hidle'
  · exact hidle'

namespace RuntimeContext

def Fit (c : RuntimeContext) : Prop :=
  ∀ plan, c.plan = some plan → plan.Healthy ∧ Suits plan c.phase

def Lively (c : RuntimeContext) : Prop :=
  c.Fit ∧ ∀ plan, c.plan = some plan → c.phase = some .updating → plan.Open

structure Viable (c : RuntimeContext) : Prop where
  lively : c.state = .created ∨ c.state = .running → c.Lively
  fit : c.state = .waiting → c.Fit

def Engaged (c : RuntimeContext) : Prop :=
  ∀ plan, c.plan = some plan → c.phase = some .updating ∨ c.phase = some .summarizing ∨
    plan.stepWithStatus .running ≠ none

/-- The plan has no ready and no active step, and it is not completed. -/
def Stuck (c : RuntimeContext) : Prop :=
  ∃ plan, c.plan = some plan ∧ validateExecutors plan = .ok () ∧
    c.phase ≠ some .updating ∧ c.phase ≠ some .summarizing ∧
    plan.stepWithStatus .waiting = none ∧ plan.stepWithStatus .running = none ∧
    plan.readySteps = [] ∧ plan.status ≠ .completed

/-- The response of the updating phase is awaited for a plan without a pending step. -/
def Barren (c : RuntimeContext) : Prop :=
  c.phase = some .updating ∧ ∃ plan, c.plan = some plan ∧ ¬ plan.HasPending

instance (c : RuntimeContext) : Decidable c.Stuck :=
  match hplan : c.plan with
  | none => .isFalse fun ⟨_, hsome, _⟩ => Option.some_ne_none _ (hsome.symm.trans hplan)
  | some plan =>
    decidable_of_iff
      (validateExecutors plan = .ok () ∧ c.phase ≠ some .updating ∧ c.phase ≠ some .summarizing ∧
        (plan.stepWithStatus .waiting).isNone = true ∧
        (plan.stepWithStatus .running).isNone = true ∧ plan.readySteps.isEmpty = true ∧
        plan.status ≠ .completed)
      (by simp [Stuck, hplan])

instance (c : RuntimeContext) : Decidable c.Barren :=
  match hplan : c.plan with
  | none => .isFalse fun ⟨_, _, hsome, _⟩ => Option.some_ne_none _ (hsome.symm.trans hplan)
  | some plan =>
    decidable_of_iff
      (c.phase = some .updating ∧ ¬ ∃ step ∈ plan.steps, step.status = .pending)
      (by simp [Barren, ExecutionPlan.HasPending, hplan])

variable {a b c : RuntimeContext}

theorem Fit.same (h : a.Fit) (hplan : b.plan = a.plan) (hphase : b.phase = a.phase) : b.Fit := by
  intro plan hsome
  rw [hphase]
  exact h plan (hplan.symm.trans hsome)

theorem Lively.same (h : a.Lively) (hplan : b.plan = a.plan) (hphase : b.phase = a.phase) :
    b.Lively := by
  refine ⟨h.1.same hplan hphase, fun plan hsome hupdating => ?_⟩
  exact h.2 plan (hplan.symm.trans hsome) (hphase.symm.trans hupdating)

theorem Viable.same (h : a.Viable) (hstate : b.state = a.state) (hplan : b.plan = a.plan)
    (hphase : b.phase = a.phase) : b.Viable where
  lively hlive := by
    rw [hstate] at hlive
    exact (h.lively hlive).same hplan hphase
  fit hwaiting := (h.fit (hstate.symm.trans hwaiting)).same hplan hphase

theorem Stuck.same (h : a.Stuck) (hplan : b.plan = a.plan) (hphase : b.phase = a.phase) :
    b.Stuck := by
  obtain ⟨plan, hsome, hrest⟩ := h
  refine ⟨plan, hplan.trans hsome, ?_⟩
  rw [hphase]
  exact hrest

theorem Viable.alike (h : a.Viable) (halike : a.Alike b) : b.Viable :=
  h.same halike.state halike.plan halike.phase

theorem Engaged.same (h : a.Engaged) (hplan : b.plan = a.plan) (hphase : b.phase = a.phase) :
    b.Engaged := by
  intro plan hsome
  rw [hphase]
  exact h plan (hplan.symm.trans hsome)

/-- A context whose strategy has not begun goes on like one that executes its plan. -/
theorem Lively.planning {default : PlanningState} (h : c.Lively)
    (hdefault : c.plan ≠ none → default.phase = .executing) :
    (setPlanning c (c.supervision.planning.getD default)).Lively := by
  cases hstarted : c.supervision.planning with
  | some state =>
    refine h.same rfl ?_
    show some state.phase = c.supervision.planning.map PlanningState.phase
    rw [hstarted]
    rfl
  | none =>
    have hphase : c.phase = none := by
      show c.supervision.planning.map PlanningState.phase = none
      rw [hstarted]
      rfl
    have hnew : c.plan ≠ none → (setPlanning c default).phase = some .executing := fun hplan =>
      congrArg some (hdefault hplan)
    constructor
    · intro plan hplan
      obtain ⟨hhealthy, hsuits⟩ := h.1 plan hplan
      refine ⟨hhealthy, ?_⟩
      rw [hphase] at hsuits
      show Suits plan (setPlanning c default).phase
      rw [hnew (by rw [show c.plan = some plan from hplan]; simp)]
      exact hsuits
    · intro plan hplan hupdating
      have hexecuting := hnew (by rw [show c.plan = some plan from hplan]; simp)
      rw [show (setPlanning c default).phase = _ from hupdating] at hexecuting
      cases hexecuting

theorem Lively.of_unplanned (h : c.plan = none) : c.Lively := by
  have hnone : ∀ plan, c.plan ≠ some plan := by simp [h]
  exact ⟨fun plan hplan => absurd hplan (hnone plan), fun plan hplan => absurd hplan (hnone plan)⟩

theorem Lively.of_plan (hplan : c.plan = some plan) (hhealthy : plan.Healthy)
    (hsuits : Suits plan c.phase) (hopen : c.phase = some .updating → plan.Open) : c.Lively := by
  constructor
  · intro other hother
    cases hplan.symm.trans hother
    exact ⟨hhealthy, hsuits⟩
  · intro other hother hupdating
    cases hplan.symm.trans hother
    exact hopen hupdating

theorem Lively.executing (hplan : c.plan = some plan) (hhealthy : plan.Healthy)
    (hgoing : plan.Going) (hphase : c.phase = some .executing) : c.Lively := by
  apply Lively.of_plan hplan hhealthy
  · rw [hphase]
    exact hgoing
  · intro hupdating
    rw [hphase] at hupdating
    cases hupdating

theorem Lively.viable (h : c.Lively) (hstate : c.state = .running) : c.Viable where
  lively _ := h
  fit hwaiting := by
    rw [hstate] at hwaiting
    cases hwaiting

theorem Fit.viable (h : c.Fit) (hstate : c.state = .waiting) : c.Viable where
  lively hlive := by
    rw [hstate] at hlive
    simp at hlive
  fit _ := h

theorem Viable.of_ended (h : c.state.terminal = true) : c.Viable where
  lively hlive := by
    rcases hlive with hcreated | hrunning
    · rw [hcreated] at h
      cases h
    · rw [hrunning] at h
      cases h
  fit hwaiting := by
    rw [hwaiting] at h
    cases h

theorem Viable.of_errorStatus (h : c.state.errorStatus = true) : c.Viable := by
  apply Viable.of_ended
  cases hstate : c.state <;> simp_all [RunStatus.errorStatus, RunStatus.terminal]

/-- A context that can go on is not stuck. -/
theorem Lively.not_stuck (h : c.Lively) : ¬ c.Stuck := by
  rintro ⟨plan, hplan, -, hupdating, hsummarizing, hwaiting, hrunning, hready, hstatus⟩
  obtain ⟨hhealthy, hsuits⟩ := h.1 plan hplan
  have hidle := Course.PlanSpec.idle_of_stepWithStatus hrunning hwaiting
  have hgoing : plan.Going := by
    match hphase : c.phase, hsuits with
    | some .planning, hsuits => exact hsuits.elim
    | some .updating, _ => exact absurd hphase hupdating
    | some .summarizing, _ => exact absurd hphase hsummarizing
    | some .executing, hsuits => exact hsuits
    | none, hsuits => exact hsuits
  exact hhealthy.ready_of_going hgoing hidle hstatus hready

theorem Fit.lively (h : c.Fit) (hbarren : ¬ c.Barren) : c.Lively := by
  refine ⟨h, fun plan hplan hupdating => .inr ?_⟩
  by_contra hnone
  exact hbarren ⟨hupdating, plan, hplan, hnone⟩

end RuntimeContext

/-! ## The failure -/

namespace PlanningStrategy

variable (strategy : PlanningStrategy) (agent : Agent) (text : String)

/-- `_handle_no_ready_step`, whose failure says `text`. -/
def handleNoReadyStepSaying (context : RuntimeContext) (plan : ExecutionPlan) :
    ContextProg RuntimeContext :=
  if plan.status = .completed then strategy.finishPlan context plan
  else failExecution context text

def advanceReadySaying (context : RuntimeContext) (plan : ExecutionPlan) :
    ContextProg RuntimeContext :=
  match plan.stepWithStatus .running with
  | some running => strategy.advanceStep agent context running
  | none =>
    match plan.readySteps with
    | [] => strategy.handleNoReadyStepSaying text context plan
    | step :: _ => strategy.startReady agent context plan step

def advancePlanSaying (context : RuntimeContext) (plan : ExecutionPlan) :
    ContextProg RuntimeContext :=
  match plan.stepWithStatus .waiting with
  | none => strategy.advanceReadySaying agent text context plan
  | some waiting => do
    let resumed ← liftPlan context (plan.resumeStep waiting.id)
    let context ← updateExecutionPlan context resumed false
    strategy.advanceReadySaying agent text context resumed

/-- `advance`, whose failure for want of a step says `text`. -/
def advanceSaying (context : RuntimeContext) : ContextProg RuntimeContext :=
  let state := context.supervision.planning.getD
    { phase := if context.plan.isNone && context.planningRequested then .planning else .executing }
  let context := setPlanning context state
  match context.plan with
  | none => strategy.advanceUnplanned agent context state
  | some plan =>
    match validateExecutors plan with
    | .error message => .raise (.value message, context)
    | .ok () =>
      match state.phase with
      | .summarizing | .updating => strategy.turn agent context
      | _ => strategy.advancePlanSaying agent text context plan

-- With its own text it is the turn.
example : strategy.advanceSaying agent "execution plan has no ready or active step" =
    strategy.advance agent := rfl

variable {strategy agent text} {c : RuntimeContext}

theorem advanceReadySaying_eq
    (h : plan.stepWithStatus .running ≠ none ∨ plan.readySteps ≠ [] ∨ plan.status = .completed) :
    strategy.advanceReadySaying agent text c plan = strategy.advanceReady agent c plan := by
  unfold advanceReadySaying advanceReady
  cases hrunning : plan.stepWithStatus .running with
  | some running => rfl
  | none =>
    simp only
    cases hready : plan.readySteps with
    | cons step rest => rfl
    | nil =>
      have hcompleted : plan.status = .completed := by
        rcases h with hsome | hsome | hcompleted
        · exact absurd hrunning hsome
        · exact absurd hready hsome
        · exact hcompleted
      simp only [handleNoReadyStepSaying, handleNoReadyStep, hcompleted, if_true]

/-- The turn of a context that is not stuck is the same whatever the failure says. -/
theorem advanceSaying_eq (h : ¬ c.Stuck) :
    strategy.advanceSaying agent text c = strategy.advance agent c := by
  unfold advanceSaying advance
  simp only
  cases hplan : (setPlanning c _).plan with
  | none => rfl
  | some plan =>
    have hsame : c.plan = some plan := hplan
    simp only
    cases hexecutors : validateExecutors plan with
    | error message => rfl
    | ok u =>
      have hadvance : c.phase ≠ some .updating → c.phase ≠ some .summarizing → ∀ context,
          strategy.advancePlanSaying agent text context plan =
            strategy.advancePlan agent context plan := by
        intro hupdating hsummarizing context
        unfold advancePlanSaying advancePlan
        cases hwaiting : plan.stepWithStatus .waiting with
        | none =>
          apply advanceReadySaying_eq
          by_contra hstuck
          simp only [not_or, not_not] at hstuck
          exact h ⟨plan, hsame, hexecutors, hupdating, hsummarizing, hwaiting, hstuck.1,
            hstuck.2.1, hstuck.2.2⟩
        | some waiting =>
          simp only
          cases hresume : plan.resumeStep waiting.id with
          | error e => rfl
          | ok resumed =>
            -- the resumed step is running
            have hrunning := Course.PlanSpec.stepWithStatus_resumeStep hresume
            simp only [liftPlan, bind_eq, ret_bind, advanceReadySaying_eq (.inl hrunning)]
      cases hstarted : c.supervision.planning with
      | none =>
        have hphase : c.phase = none := by rw [RuntimeContext.phase, hstarted]; rfl
        have hnew : c.plan.isNone = false := by simp [hsame]
        simp only [Option.getD_none, hnew, Bool.false_and]
        exact hadvance (by simp [hphase]) (by simp [hphase]) _
      | some state =>
        have hphase : c.phase = some state.phase := by rw [RuntimeContext.phase, hstarted]; rfl
        simp only [Option.getD_some]
        cases hcase : state.phase with
        | summarizing => rfl
        | updating => rfl
        | planning =>
          rw [hcase] at hphase
          exact hadvance (by simp [hphase]) (by simp [hphase]) _
        | executing =>
          rw [hcase] at hphase
          exact hadvance (by simp [hphase]) (by simp [hphase]) _

end PlanningStrategy

end Runtime
end BaseAgent

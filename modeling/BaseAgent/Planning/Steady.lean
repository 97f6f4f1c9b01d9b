import BaseAgent.Planning.Execution

/-!
# What every course knows of a place

The state of the context and the phase of the planning strategy at each place of an execution,
without anything an observer adds: a batch is executed by a running context, a context at
`.waiting` waits, and a context that asks for a plan has none.
-/

namespace BaseAgent
namespace Runtime

open PlanningStrategy

/-- A context that asks for a plan has none, unless it has ended with an error. -/
def RuntimeContext.Planned (c : RuntimeContext) : Prop :=
  c.state.errorStatus = false → c.phase = some .planning → c.Unplanned

namespace RuntimeContext

variable {a b c : RuntimeContext} {plan : ExecutionPlan} {state : PlanningState}

theorem Planned.alike (ha : a.Planned) (h : a.Alike b) : b.Planned := by
  intro hstate hphase
  rw [h.state] at hstate
  obtain ⟨hnone, hrequested⟩ := ha hstate (h.phase.symm.trans hphase)
  exact ⟨h.plan.trans hnone, h.planningRequested.trans hrequested⟩

theorem Planned.of_errorStatus (h : c.state.errorStatus = true) : c.Planned := by
  intro hstate
  rw [h] at hstate
  cases hstate

theorem Planned.moved (h : a.Planned) (hstate : a.state.errorStatus = false)
    (hplan : b.plan = a.plan) (hrequested : b.planningRequested = a.planningRequested)
    (hphase : b.phase = a.phase) : b.Planned := by
  intro _ hplanning
  obtain ⟨hnone, hasked⟩ := h hstate (hphase.symm.trans hplanning)
  exact ⟨hplan.trans hnone, hrequested.trans hasked⟩

theorem Planned.withPlan (h : c.Planned) (hplan : c.plan = some plan) (plan' : ExecutionPlan) :
    (c.withPlan plan').Planned := by
  intro hstate hphase
  have hnone := (h hstate hphase).1
  rw [hplan] at hnone
  cases hnone

theorem planned_setPlanning (h : state.phase = .planning → c.Unplanned) :
    (setPlanning c state).Planned := by
  intro _ hphase
  exact h (Option.some.inj hphase)

end RuntimeContext

def Steady : Mode → RuntimeContext → Prop
  | .rest, c | .left, c => c.Planned
  | .batch _ _, c =>
    c.Planned ∧ c.state = .running ∧ c.supervision.suspendedActionBatch = none
  | .waiting, c => c.Planned ∧ c.state = .waiting
  | .fresh, c => c.state = .running
  | .ended, c | .settled, c | .closed, c => c.Planned ∨ c.state = .running

namespace Steady

variable {m : Mode} {a b c : RuntimeContext} {plan plan' : ExecutionPlan}

theorem ended (h : Steady m c) : Steady .ended c := by
  cases m with
  | rest | left => exact .inl h
  | batch response calls => exact .inl h.1
  | waiting => exact .inl h.1
  | fresh => exact .inr h
  | ended | settled | closed => exact h

theorem planned (h : Steady .ended c) (hstate : c.state ≠ .running) : c.Planned :=
  Or.resolve_right h hstate

theorem alike (h : Steady m a) (halike : a.Alike b) : Steady m b := by
  have hended : Steady .ended b :=
    Or.imp (fun hplanned => hplanned.alike halike) halike.state.trans h.ended
  cases m with
  | rest | left => exact RuntimeContext.Planned.alike h halike
  | batch response calls =>
    exact ⟨h.1.alike halike, halike.state.trans h.2.1, halike.batch.trans h.2.2⟩
  | waiting => exact ⟨h.1.alike halike, halike.state.trans h.2⟩
  | fresh => exact halike.state.trans h
  | ended | settled | closed => exact hended

theorem running (h : Steady .rest a) (hstate : a.state = .running) (hplan : b.plan = a.plan)
    (hrequested : b.planningRequested = a.planningRequested) (hphase : b.phase = a.phase) :
    Steady .rest b :=
  RuntimeContext.Planned.moved h (by rw [hstate]; rfl) hplan hrequested hphase

theorem wait (h : Steady .rest c) (hstate : c.state = .running) (pending : PendingInput) :
    Steady .waiting (c.awaiting pending) :=
  ⟨h.moved (by rw [hstate]; rfl) rfl rfl rfl, rfl⟩

theorem consistent (h : Steady .rest c) (hstate : c.state = .running)
    (hphase : c.phase = some .planning) : c.Unplanned :=
  h (by rw [hstate]; rfl) hphase

theorem withPlan (hm : m = .rest ∨ m = .waiting) (h : Steady m c)
    (hplan : c.plan = some plan) : Steady m (c.withPlan plan') := by
  cases m with
  | rest => exact RuntimeContext.Planned.withPlan h hplan plan'
  | waiting => exact ⟨h.1.withPlan hplan plan', h.2⟩
  | _ => simp at hm

theorem setPlanning {state : PlanningState} (h : state.phase = .planning → c.Unplanned) :
    Steady .rest (setPlanning c state) :=
  RuntimeContext.planned_setPlanning h

theorem endedWith {status : RunStatus} (text : String) (hstatus : status.errorStatus = true) :
    Steady .rest (c.endedWith status text) :=
  RuntimeContext.Planned.of_errorStatus hstatus

theorem withError (h : Steady .ended c) (hstate : c.state ≠ .running) (text : String) :
    Steady .ended { c with error := some text } :=
  .inl (h.planned hstate)

theorem interrupted {status : RunStatus} (hstatus : status = .cancelled ∨ status = .interrupted)
    (h : Steady .ended c) (text : String) :
    (c.state.terminal = true → Steady .ended { c with error := some text }) ∧
      Steady .ended (c.endedWith status text) := by
  constructor
  · intro hterminal
    refine h.withError (fun hrunning => ?_) text
    rw [hrunning] at hterminal
    cases hterminal
  · refine (endedWith text ?_).ended
    cases hstatus with
    | inl hcancelled =>
      rw [hcancelled]
      rfl
    | inr hinterrupted =>
      rw [hinterrupted]
      rfl

end Steady

end Runtime
end BaseAgent

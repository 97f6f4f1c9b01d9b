import BaseAgent.Planning.History

/-!
# Plans that go on

A pending step all of whose dependencies have settled is ready.  As the dependencies have no cycle,
one of the pending steps depends on no other, so that a plan without a failed, a cancelled or an
active step has a ready step as long as it has a pending one.
-/

namespace BaseAgent

namespace ExecutionPlan

variable {plan plan' : ExecutionPlan}

theorem statusOf_mem (h : plan.stepIds.Nodup) {step : PlanStep} (hs : step ∈ plan.steps) :
    plan.statusOf step.id = some step.status := by
  rw [statusOf, find_reverse h hs]
  rfl

def HasPending (plan : ExecutionPlan) : Prop := ∃ step ∈ plan.steps, step.status = .pending

/-- A plan all of whose steps are pending or satisfied goes on with a ready step. -/
theorem Graph.ready_of_pending (h : plan.Graph)
    (hsteps : ∀ step ∈ plan.steps, step.status = .pending ∨ step.status.satisfied = true)
    (hpending : plan.HasPending) : plan.readySteps ≠ [] := by
  let pending := plan.steps.filter fun step => step.status = .pending
  have hmem : ∀ step, step ∈ pending ↔ step ∈ plan.steps ∧ step.status = .pending := by
    simp [pending]
  have hsome : pending.map (·.id) ≠ [] := by
    obtain ⟨step, hstep⟩ := hpending
    have hin := List.mem_map_of_mem (f := (·.id)) ((hmem step).mpr hstep)
    intro hnone
    rw [hnone] at hin
    cases hin
  obtain ⟨id, hid, hsource⟩ := Graphs.exists_source h.acyclic hsome
  obtain ⟨step, hstep, rfl⟩ := List.mem_map.mp hid
  obtain ⟨hstep, hstatus⟩ := (hmem step).mp hstep
  have hready : plan.ready step = true := by
    unfold ready
    rw [Bool.and_eq_true, List.all_eq_true]
    refine ⟨by simpa using hstatus, fun dependency hdep => ?_⟩
    obtain ⟨other, hother, hid⟩ := List.mem_map.mp (h.known step hstep dependency hdep)
    have hsatisfied : other.status.satisfied = true := by
      rcases hsteps other hother with hagain | hsatisfied
      · -- the step would depend on a pending one
        have hin := List.mem_map_of_mem (f := (·.id)) ((hmem other).mpr ⟨hother, hagain⟩)
        rw [hid] at hin
        exact absurd (.single ⟨step, hstep, rfl, hdep⟩) (hsource dependency hin)
      · exact hsatisfied
    rw [← hid, statusOf_mem h.unique hother]
    exact hsatisfied
  intro hnone
  have hin : step ∈ plan.readySteps := List.mem_filter.mpr ⟨hstep, hready⟩
  rw [hnone] at hin
  cases hin

/-- A plan that the validation accepts has a ready step while a step is PENDING and the others are
PENDING, COMPLETED or SKIPPED. -/
theorem ready_of_accepted (hvalid : plan.validateGraph = .ok ())
    (hsteps : ∀ step ∈ plan.steps, step.status = .pending ∨ step.status = .completed ∨
      step.status = .skipped)
    (hpending : ∃ step ∈ plan.steps, step.status = .pending) : plan.readySteps ≠ [] := by
  apply (validateGraph_ok.mp hvalid).ready_of_pending _ hpending
  intro step hmem
  rcases hsteps step hmem with hstatus | hstatus | hstatus
  · exact .inl hstatus
  · exact .inr (by rw [hstatus]; rfl)
  · exact .inr (by rw [hstatus]; rfl)

/-! ## Plans that nothing has spoiled -/

/-- A safe plan no step of which has failed or was cancelled. -/
structure Healthy (plan : ExecutionPlan) : Prop where
  safe : plan.Safe
  unspoiled : ∀ step ∈ plan.steps, step.status ≠ .failed ∧ step.status ≠ .cancelled

/-- The plan is completed, or there are steps left. -/
def Open (plan : ExecutionPlan) : Prop := plan.status = .completed ∨ plan.HasPending

/-- The plan is open, or a step is under way. -/
def Going (plan : ExecutionPlan) : Prop := plan.Open ∨ plan.idle = false

theorem busy_of_stepWithStatus {status : StepStatus} (h : plan.stepWithStatus status ≠ none)
    (hactive : status.active = true) : plan.idle = false := by
  obtain ⟨step, hstep⟩ := Option.ne_none_iff_exists'.mp h
  have hstatus : step.status = status := by simpa using List.find?_some hstep
  by_contra hidle
  have hnot := List.all_eq_true.mp (Bool.of_not_eq_false hidle) step
    (List.mem_of_find?_eq_some hstep)
  rw [hstatus, hactive] at hnot
  cases hnot

namespace Healthy

/-- A plan that goes on is completed, has a step under way or has a ready step. -/
theorem ready_of_going (h : plan.Healthy) (hgoing : plan.Going) (hidle : plan.idle = true)
    (hstatus : plan.status ≠ .completed) : plan.readySteps ≠ [] := by
  have hpending : plan.HasPending := by
    rcases hgoing with hopen | hactive
    · exact hopen.resolve_left hstatus
    · rw [hidle] at hactive
      cases hactive
  apply h.safe.graph.ready_of_pending _ hpending
  intro step hmem
  have hactive := List.all_eq_true.mp hidle step hmem
  obtain ⟨hfailed, hcancelled⟩ := h.unspoiled step hmem
  cases hstep : step.status <;> simp_all [StepStatus.active, StepStatus.satisfied]

theorem of_new (h : Runtime.NewPlan plan) (hsteps : plan.steps ≠ []) : plan.Healthy ∧ plan.HasPending := by
  refine ⟨⟨h.safe, fun step hmem => ?_⟩, ?_⟩
  · rw [h.2.2 step hmem]
    exact ⟨by simp, by simp⟩
  · obtain ⟨step, hmem⟩ := List.exists_mem_of_ne_nil plan.steps hsteps
    exact ⟨step, hmem, h.2.2 step hmem⟩

/-- A replaced step that does not end badly keeps the plan healthy. -/
theorem replaced {step replacement : PlanStep} (h : plan.Healthy)
    (hr : plan.Replaced plan' step replacement) (hsafe : plan'.Safe)
    (hfailed : replacement.status ≠ .failed) (hcancelled : replacement.status ≠ .cancelled) :
    plan'.Healthy := by
  refine ⟨hsafe, fun other hmem => ?_⟩
  rw [hr.steps] at hmem
  obtain ⟨old, hold, rfl⟩ := List.mem_map.mp hmem
  by_cases hid : old.id = replacement.id
  · rw [if_pos hid]
    exact ⟨hfailed, hcancelled⟩
  · rw [if_neg hid]
    exact h.unspoiled old hold

theorem activated {step : PlanStep} {status : StepStatus} (h : plan.Healthy)
    (hr : plan.Replaced plan' step { step with status := status }) (hsafe : plan'.Safe)
    (hactive : status.active = true) :
    plan'.Healthy ∧ plan'.stepWithStatus status ≠ none := by
  constructor
  · apply h.replaced hr hsafe
    · intro hfailed
      rw [show status = .failed from hfailed] at hactive
      cases hactive
    · intro hcancelled
      rw [show status = .cancelled from hcancelled] at hactive
      cases hactive
  · have hmem : ({ step with status := status } : PlanStep) ∈ plan'.steps := by
      rw [hr.steps]
      exact List.mem_map.mpr ⟨step, hr.mem, if_pos hr.id.symm⟩
    intro hnone
    have hstatus := List.find?_eq_none.mp hnone _ hmem
    simp at hstatus

theorem started {stepId : String} (h : plan.Healthy) (hidle : plan.idle = true)
    (hstart : plan.startStep stepId = .ok plan') :
    plan'.Healthy ∧ plan'.stepWithStatus .running ≠ none := by
  obtain ⟨step, -, hr, -⟩ := startStep_ok hstart
  exact h.activated hr ((Replaces.start stepId hidle hstart).safe h.safe) rfl

theorem waited {stepId : String} (h : plan.Healthy) (hwait : plan.waitStep stepId = .ok plan') :
    plan'.Healthy ∧ plan'.stepWithStatus .waiting ≠ none := by
  obtain ⟨step, -, hr, -⟩ := waitStep_ok hwait
  exact h.activated hr ((Replaces.wait stepId hwait).safe h.safe) rfl

theorem resumed {stepId : String} (h : plan.Healthy)
    (hresume : plan.resumeStep stepId = .ok plan') :
    plan'.Healthy ∧ plan'.stepWithStatus .running ≠ none := by
  obtain ⟨step, -, hr, -⟩ := resumeStep_ok hresume
  exact h.activated hr ((Replaces.resume stepId hresume).safe h.safe) rfl

theorem active_unique (h : plan.Healthy) {step other : PlanStep} (hs : step ∈ plan.steps)
    (ho : other ∈ plan.steps) (hstep : step.status.active = true)
    (hother : other.status.active = true) : step = other := by
  have hsingle := h.safe.single
  rw [List.countP_eq_length_filter] at hsingle
  have hin : ∀ {step}, step ∈ plan.steps → step.status.active = true →
      step ∈ plan.steps.filter (·.status.active) := fun hmem hactive =>
    List.mem_filter.mpr ⟨hmem, hactive⟩
  rcases Nat.le_one_iff_eq_zero_or_eq_one.mp hsingle with hnone | hone
  · have hstep' := hin hs hstep
    rw [List.length_eq_zero_iff.mp hnone] at hstep'
    cases hstep'
  · obtain ⟨only, honly⟩ := List.length_eq_one_iff.mp hone
    have hstep' := hin hs hstep
    have hother' := hin ho hother
    rw [honly] at hstep' hother'
    rw [List.mem_singleton.mp hstep', List.mem_singleton.mp hother']

/-- A completed step leaves no step under way, and the plan is completed or has steps left. -/
theorem completed {stepId : String} {result : JsonValue} {success : Option Bool}
    {attachments : List String} {metadata : List (String × JsonValue)} (h : plan.Healthy)
    (hcomplete : plan.completeStep stepId result success attachments metadata = .ok plan') :
    plan'.Healthy ∧ plan'.idle = true ∧ plan'.Open := by
  obtain ⟨step, hrunning, hr, hstatus⟩ := completeStep_ok hcomplete
  have hsafe := (Replaces.complete stepId result success attachments metadata hcomplete).safe h.safe
  have hhealthy : plan'.Healthy := h.replaced hr hsafe (by simp [completedStep])
    (by simp [completedStep])
  have hidle : plan'.idle = true := by
    apply List.all_eq_true.mpr
    intro other hmem
    rw [hr.steps] at hmem
    obtain ⟨old, hold, rfl⟩ := List.mem_map.mp hmem
    by_cases hid : old.id = step.id
    · rw [if_pos (hid.trans hr.id.symm)]
      rfl
    · rw [if_neg (fun hsame => hid (hsame.trans hr.id))]
      by_contra hactive
      have hsame := h.active_unique hold hr.mem (by simpa using hactive) (by rw [hrunning]; rfl)
      exact hid (congrArg PlanStep.id hsame)
  refine ⟨hhealthy, hidle, ?_⟩
  rcases hstatus with hdone | hleft
  · exact .inl hdone.1
  · -- a step that is not satisfied is pending
    obtain ⟨other, hmem, hnot⟩ := List.all_eq_false.mp hleft.2
    have hactive := List.all_eq_true.mp hidle other hmem
    obtain ⟨hfailed, hcancelled⟩ := hhealthy.unspoiled other hmem
    refine .inr ⟨other, hmem, ?_⟩
    cases hother : other.status <;> simp_all [StepStatus.active, StepStatus.satisfied]

theorem merged {futureSteps : List PlanStep} {count : Int} (h : plan.Healthy)
    (hpending : ∀ step ∈ futureSteps, step.status = .pending)
    (hvalid : (plan.merged futureSteps count).validateGraph = .ok ()) :
    (plan.merged futureSteps count).Healthy ∧ (plan.merged futureSteps count).Open := by
  refine ⟨⟨h.safe.merged hpending (validateGraph_ok.mp hvalid), fun step hmem => ?_⟩, ?_⟩
  · rcases mem_merged.mp hmem with hold | hnew
    · exact h.unspoiled step hold.1
    · rw [hpending step hnew]
      exact ⟨by simp, by simp⟩
  · cases futureSteps with
    | nil => exact .inl rfl
    | cons step rest =>
      refine .inr ⟨step, mem_merged.mpr (.inr List.mem_cons_self), ?_⟩
      exact hpending step List.mem_cons_self

theorem failed {error : String} (h : plan.Healthy) (hidle : plan.idle = true)
    (hfail : plan.fail error = .ok plan') : plan'.Healthy ∧ plan'.steps = plan.steps := by
  have hsteps : plan'.steps = plan.steps := by
    rw [fail_ok hfail]
    show plan.steps.map _ = plan.steps
    refine (List.map_congr_left fun step hmem => ?_).trans (List.map_id _)
    have hactive := List.all_eq_true.mp hidle step hmem
    rw [if_neg (by simpa using hactive)]
    rfl
  refine ⟨⟨(Replaces.fail error hfail).safe h.safe, ?_⟩, hsteps⟩
  rw [hsteps]
  exact h.unspoiled

end Healthy

end ExecutionPlan

end BaseAgent

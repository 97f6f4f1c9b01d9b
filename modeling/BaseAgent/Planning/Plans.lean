import BaseAgent.Models.Plan

/-!
# The plans of an execution

`PlanningStrategy` replaces the plan of its context in seven ways: it starts, completes,
suspends and resumes a step, it merges the steps of a replanning into the plan, and it fails
or cancels the plan.  `Replaces` lists them.

Three properties of plans are followed through all of them.  `Safe` is about dependencies: the
graph is valid, at most one step is under way, and no step is under way or completed before
what it depends on.  `Kept` compares two plans by their settled steps.  `Closed` says that a
plan with a terminal status has no step under way.
-/

namespace BaseAgent

namespace ExecutionPlan

def history (plan : ExecutionPlan) : List PlanStep :=
  plan.steps.filter (·.status.historical)

def stepWithStatus (plan : ExecutionPlan) (status : StepStatus) : Option PlanStep :=
  plan.steps.find? fun step => step.status = status

def idle (plan : ExecutionPlan) : Bool := plan.steps.all fun step => !step.status.active

/-- The plan that replanning leaves when `count` plans were replanned before. -/
def merged (plan : ExecutionPlan) (futureSteps : List PlanStep) (count : Int) : ExecutionPlan :=
  { plan with
    steps := plan.history ++ futureSteps
    status := if futureSteps.isEmpty then .completed else .running
    revision := plan.revision + 1
    metadata := dictSet plan.metadata "replan_count" (.int (count + 1)) }

/-- The replacements of a plan by `PlanningStrategy`. -/
inductive Replaces (plan plan' : ExecutionPlan) : Prop where
  | start (stepId : String) (idle : plan.idle = true) (h : plan.startStep stepId = .ok plan')
  | complete (stepId : String) (result : JsonValue) (success : Option Bool)
      (attachments : List String) (metadata : List (String × JsonValue))
      (h : plan.completeStep stepId result success attachments metadata = .ok plan')
  | wait (stepId : String) (h : plan.waitStep stepId = .ok plan')
  | resume (stepId : String) (h : plan.resumeStep stepId = .ok plan')
  | merge (futureSteps : List PlanStep) (count : Int)
      (pending : ∀ step ∈ futureSteps, step.status = .pending)
      (h : plan' = plan.merged futureSteps count) (valid : plan'.validateGraph = .ok ())
  | fail (error : String) (h : plan.fail error = .ok plan')
  | cancel (error : String) (h : plan.cancel error = .ok plan')

/-- A plan whose dependencies are respected. -/
structure Safe (plan : ExecutionPlan) : Prop where
  graph : plan.Graph
  single : plan.steps.countP (·.status.active) ≤ 1
  settled : ∀ step ∈ plan.steps, step.status.engaged = true →
    ∀ dependency ∈ step.dependencies,
      ∃ other ∈ plan.steps, other.id = dependency ∧ other.status.satisfied = true

/-- The settled steps of a plan stand in another one as they are, in their order. -/
def Kept (plan plan' : ExecutionPlan) : Prop := plan.history.Sublist plan'.history

/-- A plan with a terminal status has no step under way. -/
def Closed (plan : ExecutionPlan) : Prop := plan.status.terminal = true → plan.idle = true

variable {plan plan' : ExecutionPlan}

/-! ## Copies that change steps one by one -/

section Mapped

variable {f : PlanStep → PlanStep}

theorem stepIds_map (hsteps : plan'.steps = plan.steps.map f)
    (hid : ∀ step ∈ plan.steps, (f step).id = step.id) : plan'.stepIds = plan.stepIds := by
  rw [stepIds, hsteps, List.map_map]
  exact List.map_congr_left hid

theorem dependsOn_map (hsteps : plan'.steps = plan.steps.map f)
    (hid : ∀ step ∈ plan.steps, (f step).id = step.id)
    (hdeps : ∀ step ∈ plan.steps, (f step).dependencies = step.dependencies) :
    plan'.DependsOn = plan.DependsOn := by
  funext a b
  apply propext
  constructor
  · intro h
    obtain ⟨step', hmem, hstep, hdep⟩ := h
    rw [hsteps] at hmem
    obtain ⟨step, hs, rfl⟩ := List.mem_map.mp hmem
    exact ⟨step, hs, hid step hs ▸ hstep, hdeps step hs ▸ hdep⟩
  · intro h
    obtain ⟨step, hs, hstep, hdep⟩ := h
    refine ⟨f step, ?_, ?_, ?_⟩
    · rw [hsteps]
      exact List.mem_map_of_mem hs
    · rw [hid step hs]
      exact hstep
    · rw [hdeps step hs]
      exact hdep

theorem Graph.map (h : plan.Graph) (hsteps : plan'.steps = plan.steps.map f)
    (hid : ∀ step ∈ plan.steps, (f step).id = step.id)
    (hdeps : ∀ step ∈ plan.steps, (f step).dependencies = step.dependencies) : plan'.Graph where
  unique := by
    rw [stepIds_map hsteps hid]
    exact h.unique
  known := by
    intro step' hmem dependency hdep
    rw [hsteps] at hmem
    obtain ⟨step, hs, rfl⟩ := List.mem_map.mp hmem
    rw [stepIds_map hsteps hid]
    rw [hdeps step hs] at hdep
    exact h.known step hs dependency hdep
  acyclic := by
    rw [dependsOn_map hsteps hid hdeps]
    exact h.acyclic

/-- A copy keeps the dependencies safe when no step loses its success, and every step that
gets under way had its dependencies satisfied. -/
theorem Safe.map (h : plan.Safe) (hsteps : plan'.steps = plan.steps.map f)
    (hid : ∀ step ∈ plan.steps, (f step).id = step.id)
    (hdeps : ∀ step ∈ plan.steps, (f step).dependencies = step.dependencies)
    (hsingle : plan.steps.countP (fun step => (f step).status.active) ≤ 1)
    (hsatisfied : ∀ step ∈ plan.steps, step.status.satisfied = true →
      (f step).status.satisfied = true)
    (hengaged : ∀ step ∈ plan.steps, (f step).status.engaged = true →
      ∀ dependency ∈ step.dependencies,
        ∃ other ∈ plan.steps, other.id = dependency ∧ other.status.satisfied = true) :
    plan'.Safe where
  graph := h.graph.map hsteps hid hdeps
  single := by
    rw [hsteps, List.countP_map]
    exact hsingle
  settled := by
    intro step' hmem hstep dependency hdep
    rw [hsteps] at hmem ⊢
    obtain ⟨step, hs, rfl⟩ := List.mem_map.mp hmem
    rw [hdeps step hs] at hdep
    obtain ⟨other, ho, hoid, hosat⟩ := hengaged step hs hstep dependency hdep
    exact ⟨f other, List.mem_map_of_mem ho, (hid other ho).trans hoid, hsatisfied other ho hosat⟩

theorem Kept.map (hsteps : plan'.steps = plan.steps.map f)
    (hf : ∀ step ∈ plan.steps, step.status.historical = true → f step = step) :
    plan.Kept plan' := by
  unfold Kept history
  rw [hsteps]
  generalize plan.steps = steps at hf
  induction steps with
  | nil => exact List.Sublist.refl _
  | cons step rest ih =>
    have hrest := ih fun other ho => hf other (List.mem_cons_of_mem _ ho)
    rw [List.map_cons, List.filter_cons]
    by_cases hstep : step.status.historical = true
    · have hsame := hf step (List.mem_cons_self ..) hstep
      rw [hsame, List.filter_cons, if_pos hstep, if_pos hstep]
      exact hrest.cons_cons step
    · rw [if_neg hstep]
      exact hrest.trans ((List.sublist_cons_self _ _).filter _)

end Mapped

/-! ## Copies that replace one step -/

theorem getStep_ok {stepId : String} {step : PlanStep} (h : plan.getStep stepId = .ok step) :
    step ∈ plan.steps ∧ step.id = stepId := by
  have hfind := orRaise_ok.mp h
  have hid := List.find?_some hfind
  exact ⟨List.mem_of_find?_eq_some hfind, by simpa using hid⟩

theorem requireStatus_ok {stepId : String} {expected : StepStatus} {step : PlanStep}
    (h : plan.requireStatus stepId expected = .ok step) :
    step ∈ plan.steps ∧ step.status = expected := by
  obtain ⟨found, hfound, hstatus⟩ := Except.bind_ok.mp h
  by_cases heq : found.status = expected
  · rw [if_pos heq] at hstatus
    cases hstatus
    exact ⟨(getStep_ok hfound).1, heq⟩
  · rw [if_neg heq] at hstatus
    cases hstatus

/-- A plan is the copy of another in which `replacement` stands for `step`. -/
structure Replaced (plan plan' : ExecutionPlan) (step replacement : PlanStep) : Prop where
  mem : step ∈ plan.steps
  id : replacement.id = step.id
  dependencies : replacement.dependencies = step.dependencies
  steps : plan'.steps =
    plan.steps.map fun other => if other.id = replacement.id then replacement else other
  planId : plan'.id = plan.id
  revision : plan'.revision = plan.revision + 1

/-- How a copy with one step replaced treats the step and its siblings. -/
theorem Replaced.at_step {step replacement : PlanStep} (h : plan.Replaced plan' step replacement)
    (hunique : plan.stepIds.Nodup) {P : PlanStep → PlanStep → Prop} (hstep : P step replacement)
    (hother : ∀ other ∈ plan.steps, P other other) (other : PlanStep) (ho : other ∈ plan.steps) :
    P other (if other.id = replacement.id then replacement else other) := by
  by_cases heq : other.id = replacement.id
  · rw [if_pos heq]
    have hsame : other = step := eq_of_id hunique ho h.mem (heq.trans h.id)
    rw [hsame]
    exact hstep
  · rw [if_neg heq]
    exact hother other ho

theorem Replaced.graph {step replacement : PlanStep} (h : plan.Replaced plan' step replacement)
    (hgraph : plan.Graph) : plan'.Graph := by
  apply hgraph.map h.steps
  · exact h.at_step hgraph.unique (P := fun a b => b.id = a.id) h.id fun _ _ => rfl
  · exact h.at_step hgraph.unique (P := fun a b => b.dependencies = a.dependencies)
      h.dependencies fun _ _ => rfl

theorem countP_id_le_one (hunique : plan.stepIds.Nodup) (stepId : String) :
    plan.steps.countP (fun step => step.id == stepId) ≤ 1 := by
  have hcount := List.nodup_iff_count_le_one.mp hunique stepId
  rw [List.count, stepIds, List.countP_map] at hcount
  exact hcount

theorem Replaced.safe {step replacement : PlanStep} (h : plan.Replaced plan' step replacement)
    (hsafe : plan.Safe)
    (hactive : replacement.status.active = true → step.status.active = true ∨ plan.idle = true)
    (hsatisfied : step.status.satisfied = true → replacement.status.satisfied = true)
    (hengaged : replacement.status.engaged = true →
      step.status.engaged = true ∨ plan.ready step = true) : plan'.Safe := by
  have hunique := hsafe.graph.unique
  apply hsafe.map h.steps
  · exact h.at_step hunique (P := fun a b => b.id = a.id) h.id fun _ _ => rfl
  · exact h.at_step hunique (P := fun a b => b.dependencies = a.dependencies) h.dependencies
      fun _ _ => rfl
  · by_cases hidle : plan.idle = true
    · -- only the replaced step can be under way
      refine le_trans (List.countP_mono_left fun other ho hother => ?_)
        (countP_id_le_one hunique replacement.id)
      by_cases heq : other.id = replacement.id
      · simpa using heq
      · rw [if_neg heq] at hother
        have hnone := List.all_eq_true.mp hidle other ho
        simp [hother] at hnone
    · refine le_trans (List.countP_mono_left ?_) hsafe.single
      exact h.at_step hunique (P := fun a b => b.status.active = true → a.status.active = true)
        (fun hr => (hactive hr).resolve_right hidle) fun _ _ ho => ho
  · exact h.at_step hunique
      (P := fun a b => a.status.satisfied = true → b.status.satisfied = true) hsatisfied
      fun _ _ ho => ho
  · refine h.at_step hunique (P := fun a b => b.status.engaged = true →
      ∀ dependency ∈ a.dependencies,
        ∃ other ∈ plan.steps, other.id = dependency ∧ other.status.satisfied = true) ?_ ?_
    · intro hr dependency hdep
      cases hengaged hr with
      | inl hstep => exact hsafe.settled step h.mem hstep dependency hdep
      | inr hready =>
        -- a ready step has looked its dependencies up
        have hall := (Bool.and_eq_true_iff.mp hready).2
        have hstatus := List.all_eq_true.mp hall dependency hdep
        obtain ⟨status, hlook, hsat⟩ := (Option.any_eq_true _ _).mp hstatus
        obtain ⟨other, hfind, rfl⟩ := Option.map_eq_some_iff.mp hlook
        have hid := List.find?_some hfind
        exact ⟨other, List.mem_reverse.mp (List.mem_of_find?_eq_some hfind), by simpa using hid,
          hsat⟩
    · exact fun other ho hstep => hsafe.settled other ho hstep

theorem Replaced.kept {step replacement : PlanStep} (h : plan.Replaced plan' step replacement)
    (hunique : plan.stepIds.Nodup) (hstep : step.status.historical = false) :
    plan.Kept plan' := by
  apply Kept.map h.steps
  exact h.at_step hunique (P := fun a b => a.status.historical = true → b = a)
    (fun hh => by rw [hstep] at hh; cases hh) fun _ _ _ => rfl

theorem Replaced.of_replaceStep {step replacement : PlanStep} {status : Option PlanStatus}
    (hmem : step ∈ plan.steps) (hid : replacement.id = step.id)
    (hdeps : replacement.dependencies = step.dependencies) :
    plan.Replaced (plan.replaceStep replacement status) step replacement where
  mem := hmem
  id := hid
  dependencies := hdeps
  steps := rfl
  planId := rfl
  revision := rfl

/-! ## The operations on one step -/

theorem startStep_ok {stepId : String} (h : plan.startStep stepId = .ok plan') :
    ∃ step, plan.ready step = true ∧
      plan.Replaced plan' step { step with status := .running } ∧ plan'.status = .running := by
  obtain ⟨step, hstep, hready⟩ := Except.bind_ok.mp h
  by_cases hr : plan.ready step = true
  · rw [if_pos hr] at hready
    cases hready
    exact ⟨step, hr, Replaced.of_replaceStep (getStep_ok hstep).1 rfl rfl, rfl⟩
  · rw [if_neg hr] at hready
    cases hready

theorem waitStep_ok {stepId : String} (h : plan.waitStep stepId = .ok plan') :
    ∃ step, step.status = .running ∧
      plan.Replaced plan' step { step with status := .waiting } ∧ plan'.status = .waiting := by
  obtain ⟨step, hstep, hplan⟩ := Except.bind_ok.mp h
  obtain ⟨hmem, hstatus⟩ := requireStatus_ok hstep
  cases hplan
  exact ⟨step, hstatus, Replaced.of_replaceStep hmem rfl rfl, rfl⟩

theorem resumeStep_ok {stepId : String} (h : plan.resumeStep stepId = .ok plan') :
    ∃ step, step.status = .waiting ∧
      plan.Replaced plan' step { step with status := .running } ∧ plan'.status = .running := by
  obtain ⟨step, hstep, hplan⟩ := Except.bind_ok.mp h
  obtain ⟨hmem, hstatus⟩ := requireStatus_ok hstep
  cases hplan
  exact ⟨step, hstatus, Replaced.of_replaceStep hmem rfl rfl, rfl⟩

/-- The plan of a completed step is COMPLETED when every step is satisfied, and keeps its
status otherwise. -/
theorem completeStep_ok {stepId : String} {result : JsonValue} {success : Option Bool}
    {attachments : List String} {metadata : List (String × JsonValue)}
    (h : plan.completeStep stepId result success attachments metadata = .ok plan') :
    ∃ step, step.status = .running ∧
      plan.Replaced plan' step (completedStep step result success attachments metadata) ∧
      ((plan'.status = .completed ∧ plan'.steps.all (·.status.satisfied) = true) ∨
        (plan'.status = plan.status ∧ plan'.steps.all (·.status.satisfied) = false)) := by
  obtain ⟨step, hstep, hplan⟩ := Except.bind_ok.mp h
  obtain ⟨hmem, hstatus⟩ := requireStatus_ok hstep
  have hreplaced : plan.Replaced
      (plan.replaceStep (completedStep step result success attachments metadata) none) step
      (completedStep step result success attachments metadata) :=
    Replaced.of_replaceStep hmem rfl rfl
  simp only at hplan
  split at hplan
  · rename_i hall
    cases hplan
    exact ⟨step, hstatus, { hreplaced with }, .inl ⟨rfl, hall⟩⟩
  · rename_i hall
    cases hplan
    exact ⟨step, hstatus, hreplaced, .inr ⟨rfl, by simpa using hall⟩⟩

/-! ## The operations on the whole plan -/

theorem idle_ended {stepStatus : StepStatus} {status : PlanStatus} {error : String}
    (h : stepStatus.active = false) : (plan.ended stepStatus status error).idle = true := by
  apply List.all_eq_true.mpr
  intro step hstep
  obtain ⟨old, -, rfl⟩ := List.mem_map.mp hstep
  by_cases hactive : old.status.active = true
  · simp [hactive, h]
  · simp [hactive]

theorem Safe.ended (hsafe : plan.Safe) {stepStatus : StepStatus} {status : PlanStatus}
    {error : String} (hactive : stepStatus.active = false) (hengaged : stepStatus.engaged = false) :
    (plan.ended stepStatus status error).Safe := by
  have hcases : ∀ step : PlanStep, step.status.active = false →
      (if step.status.active then { step with status := stepStatus, error := some error }
        else step) = step := by
    intro step hstep
    rw [hstep]
    rfl
  apply hsafe.map rfl
  · intro step _
    split <;> rfl
  · intro step _
    split <;> rfl
  · have hidle : plan.steps.countP (fun step => (if step.status.active = true then
        ({ step with status := stepStatus, error := some error } : PlanStep) else step).status.active)
        = 0 := by
      rw [List.countP_eq_zero]
      intro step _
      by_cases hstep : step.status.active = true
      · simp [hstep, hactive]
      · simp [hstep]
    omega
  · intro step _ hsat
    have hnot : step.status.active = false := by
      cases hstatus : step.status <;> simp_all [StepStatus.satisfied, StepStatus.active]
    rw [hcases step hnot]
    exact hsat
  · intro step hs hstep
    by_cases hstepActive : step.status.active = true
    · simp [hstepActive, hengaged] at hstep
    · rw [hcases step (by simpa using hstepActive)] at hstep
      exact hsafe.settled step hs hstep

theorem Kept.ended {stepStatus : StepStatus} {status : PlanStatus} {error : String} :
    plan.Kept (plan.ended stepStatus status error) := by
  apply Kept.map rfl
  intro step _ hstep
  have hnot : step.status.active = false := by
    by_contra hactive
    rw [StepStatus.not_historical_of_active (by simpa using hactive)] at hstep
    cases hstep
  rw [hnot]
  rfl

theorem fail_ok {error : String} (h : plan.fail error = .ok plan') :
    plan' = plan.ended .failed .failed error := by
  unfold fail at h
  split at h
  · cases h
  · cases h
    rfl

theorem cancel_ok {error : String} (h : plan.cancel error = .ok plan') :
    plan' = plan.ended .cancelled .cancelled error := by
  unfold cancel at h
  split at h
  · cases h
  · cases h
    rfl

theorem fail_error {error : String} {e : PlanError} (h : plan.fail error = .error e) :
    isBlank error = true := by
  unfold fail at h
  split at h
  · assumption
  · cases h

theorem cancel_error {error : String} {e : PlanError} (h : plan.cancel error = .error e) :
    isBlank error = true := by
  unfold cancel at h
  split at h
  · assumption
  · cases h

theorem idle_of_fail {error : String} (h : plan.fail error = .ok plan') :
    plan'.idle = true ∧ plan'.status.terminal = true := by
  rw [fail_ok h]
  exact ⟨idle_ended rfl, rfl⟩

theorem idle_of_cancel {error : String} (h : plan.cancel error = .ok plan') :
    plan'.idle = true ∧ plan'.status.terminal = true := by
  rw [cancel_ok h]
  exact ⟨idle_ended rfl, rfl⟩

/-! ## Replanning -/

theorem mem_merged {futureSteps : List PlanStep} {count : Int} {step : PlanStep} :
    step ∈ (plan.merged futureSteps count).steps ↔
      (step ∈ plan.steps ∧ step.status.historical = true) ∨ step ∈ futureSteps := by
  simp [merged, history]

theorem idle_merged {futureSteps : List PlanStep} {count : Int}
    (hpending : ∀ step ∈ futureSteps, step.status = .pending) :
    (plan.merged futureSteps count).idle = true := by
  apply List.all_eq_true.mpr
  intro step hstep
  cases mem_merged.mp hstep with
  | inl hold =>
    cases hstatus : step.status <;> simp_all [StepStatus.historical, StepStatus.active]
  | inr hnew =>
    rw [hpending step hnew]
    rfl

theorem Safe.merged (hsafe : plan.Safe) {futureSteps : List PlanStep} {count : Int}
    (hpending : ∀ step ∈ futureSteps, step.status = .pending)
    (hgraph : (plan.merged futureSteps count).Graph) :
    (plan.merged futureSteps count).Safe where
  graph := hgraph
  single := by
    have hidle := List.all_eq_true.mp (@idle_merged plan futureSteps count hpending)
    have hzero : (plan.merged futureSteps count).steps.countP (·.status.active) = 0 := by
      rw [List.countP_eq_zero]
      intro step hstep
      simpa using hidle step hstep
    omega
  settled := by
    intro step hmem hstep dependency hdep
    cases mem_merged.mp hmem with
    | inl hold =>
      obtain ⟨other, ho, hid, hsat⟩ := hsafe.settled step hold.1 hstep dependency hdep
      have hhistory := StepStatus.historical_of_satisfied hsat
      exact ⟨other, mem_merged.mpr (.inl ⟨ho, hhistory⟩), hid, hsat⟩
    | inr hnew =>
      rw [hpending step hnew] at hstep
      cases hstep

theorem Kept.merged {futureSteps : List PlanStep} {count : Int} :
    plan.Kept (plan.merged futureSteps count) := by
  show plan.history.Sublist ((plan.history ++ futureSteps).filter (·.status.historical))
  rw [List.filter_append, history, List.filter_filter]
  simp only [Bool.and_self]
  exact List.sublist_append_left _ _

/-! ## Every replacement -/

theorem Replaces.newer (h : plan.Replaces plan') :
    plan'.id = plan.id ∧ plan.revision < plan'.revision := by
  have hreplaced : ∀ {step replacement}, plan.Replaced plan' step replacement →
      plan'.id = plan.id ∧ plan.revision < plan'.revision := by
    intro step replacement hr
    exact ⟨hr.planId, by rw [hr.revision]; omega⟩
  cases h with
  | start stepId idle h =>
    obtain ⟨step, -, hr, -⟩ := startStep_ok h
    exact hreplaced hr
  | complete stepId result success attachments metadata h =>
    obtain ⟨step, -, hr, -⟩ := completeStep_ok h
    exact hreplaced hr
  | wait stepId h =>
    obtain ⟨step, -, hr, -⟩ := waitStep_ok h
    exact hreplaced hr
  | resume stepId h =>
    obtain ⟨step, -, hr, -⟩ := resumeStep_ok h
    exact hreplaced hr
  | merge futureSteps count pending h valid =>
    rw [h]
    exact ⟨rfl, Nat.lt_succ_self _⟩
  | fail error h =>
    rw [fail_ok h]
    exact ⟨rfl, Nat.lt_succ_self _⟩
  | cancel error h =>
    rw [cancel_ok h]
    exact ⟨rfl, Nat.lt_succ_self _⟩

theorem Replaces.graph (h : plan.Replaces plan') (hgraph : plan.Graph) : plan'.Graph := by
  have hended : ∀ {stepStatus status error}, (plan.ended stepStatus status error).Graph := by
    intro stepStatus status error
    apply hgraph.map rfl
    · intro step _
      split <;> rfl
    · intro step _
      split <;> rfl
  cases h with
  | start stepId idle h =>
    obtain ⟨step, -, hr, -⟩ := startStep_ok h
    exact hr.graph hgraph
  | complete stepId result success attachments metadata h =>
    obtain ⟨step, -, hr, -⟩ := completeStep_ok h
    exact hr.graph hgraph
  | wait stepId h =>
    obtain ⟨step, -, hr, -⟩ := waitStep_ok h
    exact hr.graph hgraph
  | resume stepId h =>
    obtain ⟨step, -, hr, -⟩ := resumeStep_ok h
    exact hr.graph hgraph
  | merge futureSteps count pending h valid => exact validateGraph_ok.mp valid
  | fail error h =>
    rw [fail_ok h]
    exact hended
  | cancel error h =>
    rw [cancel_ok h]
    exact hended

theorem Replaces.safe (h : plan.Replaces plan') (hsafe : plan.Safe) : plan'.Safe := by
  cases h with
  | start stepId idle h =>
    obtain ⟨step, hready, hr, -⟩ := startStep_ok h
    have hpending : step.status = .pending := by
      simpa using (Bool.and_eq_true_iff.mp hready).1
    apply hr.safe hsafe
    · exact fun _ => .inr idle
    · intro hsat
      rw [hpending] at hsat
      cases hsat
    · exact fun _ => .inr hready
  | complete stepId result success attachments metadata h =>
    obtain ⟨step, hrunning, hr, -⟩ := completeStep_ok h
    apply hr.safe hsafe
    · intro hactive
      cases hactive
    · exact fun _ => rfl
    · exact fun _ => .inl (by rw [hrunning]; rfl)
  | wait stepId h =>
    obtain ⟨step, hrunning, hr, -⟩ := waitStep_ok h
    apply hr.safe hsafe
    · exact fun _ => .inl (by rw [hrunning]; rfl)
    · intro hsat
      rw [hrunning] at hsat
      cases hsat
    · exact fun _ => .inl (by rw [hrunning]; rfl)
  | resume stepId h =>
    obtain ⟨step, hwaiting, hr, -⟩ := resumeStep_ok h
    apply hr.safe hsafe
    · exact fun _ => .inl (by rw [hwaiting]; rfl)
    · intro hsat
      rw [hwaiting] at hsat
      cases hsat
    · exact fun _ => .inl (by rw [hwaiting]; rfl)
  | merge futureSteps count pending h valid =>
    subst h
    exact hsafe.merged pending (validateGraph_ok.mp valid)
  | fail error h =>
    rw [fail_ok h]
    exact hsafe.ended rfl rfl
  | cancel error h =>
    rw [cancel_ok h]
    exact hsafe.ended rfl rfl

theorem Replaces.kept (h : plan.Replaces plan') (hunique : plan.stepIds.Nodup) :
    plan.Kept plan' := by
  cases h with
  | start stepId idle h =>
    obtain ⟨step, hready, hr, -⟩ := startStep_ok h
    have hpending : step.status = .pending := by
      simpa using (Bool.and_eq_true_iff.mp hready).1
    exact hr.kept hunique (by rw [hpending]; rfl)
  | complete stepId result success attachments metadata h =>
    obtain ⟨step, hrunning, hr, -⟩ := completeStep_ok h
    exact hr.kept hunique (by rw [hrunning]; rfl)
  | wait stepId h =>
    obtain ⟨step, hrunning, hr, -⟩ := waitStep_ok h
    exact hr.kept hunique (by rw [hrunning]; rfl)
  | resume stepId h =>
    obtain ⟨step, hwaiting, hr, -⟩ := resumeStep_ok h
    exact hr.kept hunique (by rw [hwaiting]; rfl)
  | merge futureSteps count pending h valid =>
    rw [h]
    exact Kept.merged
  | fail error h =>
    rw [fail_ok h]
    exact Kept.ended
  | cancel error h =>
    rw [cancel_ok h]
    exact Kept.ended

theorem idle_of_satisfied (h : plan.steps.all (·.status.satisfied) = true) :
    plan.idle = true := by
  apply List.all_eq_true.mpr
  intro step hstep
  have hsat := List.all_eq_true.mp h step hstep
  cases hstatus : step.status <;> simp_all [StepStatus.satisfied, StepStatus.active]

theorem Replaces.closed (h : plan.Replaces plan') (hclosed : plan.Closed) : plan'.Closed := by
  intro hterminal
  cases h with
  | start stepId idle h =>
    obtain ⟨step, -, -, hstatus⟩ := startStep_ok h
    rw [hstatus] at hterminal
    cases hterminal
  | complete stepId result success attachments metadata h =>
    obtain ⟨step, hrunning, hr, hstatus⟩ := completeStep_ok h
    cases hstatus with
    | inl hall => exact idle_of_satisfied hall.2
    | inr hsame =>
      -- a plan with a running step is not terminal
      have hidle := List.all_eq_true.mp (hclosed (hsame.1 ▸ hterminal)) step hr.mem
      rw [hrunning] at hidle
      cases hidle
  | wait stepId h =>
    obtain ⟨step, -, -, hstatus⟩ := waitStep_ok h
    rw [hstatus] at hterminal
    cases hterminal
  | resume stepId h =>
    obtain ⟨step, -, -, hstatus⟩ := resumeStep_ok h
    rw [hstatus] at hterminal
    cases hterminal
  | merge futureSteps count pending h valid =>
    rw [h]
    exact idle_merged pending
  | fail error h =>
    rw [fail_ok h]
    exact idle_ended rfl
  | cancel error h =>
    rw [cancel_ok h]
    exact idle_ended rfl

end ExecutionPlan

end BaseAgent

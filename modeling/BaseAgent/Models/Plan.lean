import BaseAgent.Graphs.DepthFirst
import BaseAgent.Models.Run
import Mathlib.Data.List.Dedup
import Mathlib.Data.List.Sort

/-!
# Execution plans

A plan is a list of steps with dependencies between them.  Plans are immutable: every
operation returns a copy with a higher revision.  The copies are not validated again, so
nothing but the operations themselves keeps a plan well formed.

`Graph` says in its own terms what the validation of the graph accepts.
-/

namespace BaseAgent

inductive PlanStatus where
  | created | running | waiting | completed | failed | cancelled
  deriving DecidableEq, Repr

/-- `status in {COMPLETED, FAILED, CANCELLED}`. -/
def PlanStatus.terminal : PlanStatus → Bool
  | completed | failed | cancelled => true
  | created | running | waiting => false

inductive StepStatus where
  | pending | running | waiting | completed | failed | cancelled | skipped
  deriving DecidableEq, Repr

namespace StepStatus

def value : StepStatus → String
  | pending => "pending"
  | running => "running"
  | waiting => "waiting"
  | completed => "completed"
  | failed => "failed"
  | cancelled => "cancelled"
  | skipped => "skipped"

/-- `status in {COMPLETED, SKIPPED}`. -/
def satisfied : StepStatus → Bool
  | completed | skipped => true
  | _ => false

/-- `status in {RUNNING, WAITING}`. -/
def active : StepStatus → Bool
  | running | waiting => true
  | _ => false

/-- `status in historical_statuses`. -/
def historical : StepStatus → Bool
  | completed | failed | cancelled | skipped => true
  | _ => false

def engaged : StepStatus → Bool
  | running | waiting | completed => true
  | _ => false

theorem historical_of_satisfied {s : StepStatus} (h : s.satisfied = true) :
    s.historical = true := by
  cases s <;> simp_all [satisfied, historical]

theorem not_historical_of_active {s : StepStatus} (h : s.active = true) :
    s.historical = false := by
  cases s <;> simp_all [active, historical]

end StepStatus

inductive PlanError where
  | invalidTransition (message : String)
  | value (message : String)
  | unknownStep (message : String)
  deriving DecidableEq, Repr

/-- `result` is `null` where the source has `None`. -/
structure PlanStep where
  id : String
  description : String
  executor : Option String := none
  dependencies : List String := []
  status : StepStatus := .pending
  success : Option Bool := none
  result : JsonValue := .null
  attachments : List String := []
  error : Option String := none
  metadata : List (String × JsonValue) := []
  deriving Repr

structure ExecutionPlan where
  id : String
  title : String
  steps : List PlanStep
  status : PlanStatus := .created
  revision : Nat := 1
  metadata : List (String × JsonValue) := []
  deriving Repr

/-- `{**d, **other}`. -/
def dictMerge (d other : List (String × JsonValue)) : List (String × JsonValue) :=
  other.foldl (fun merged entry => dictSet merged entry.1 entry.2) d

namespace PlanStep

def validateDependenciesAndFailure (step : PlanStep) : Except String Unit :=
  if ¬ step.dependencies.Nodup then .error "step dependencies must be unique"
  else if step.id ∈ step.dependencies then .error "a step cannot depend on itself"
  else if (step.status = .failed ∨ step.status = .cancelled) ∧ step.error.getD "" = "" then
    .error "a failed or cancelled step must include an error"
  else .ok ()

/-- `step == other`. -/
def equal (step other : PlanStep) : Bool :=
  step.id == other.id && step.description == other.description &&
    step.executor == other.executor && step.dependencies == other.dependencies &&
    step.status == other.status && step.success == other.success &&
    step.result.equal other.result && step.attachments == other.attachments &&
    step.error == other.error && (JsonValue.obj step.metadata).equal (.obj other.metadata)

end PlanStep

namespace ExecutionPlan

variable (plan : ExecutionPlan)

def stepIds : List String := plan.steps.map (·.id)

/-- `{step.id: step.dependencies for step in steps}`, where a later entry replaces an earlier
one. -/
def dependenciesOf (stepId : String) : List String :=
  ((plan.steps.reverse.find? fun step => step.id == stepId).map (·.dependencies)).getD []

def checkKnown (known : List String) : List PlanStep → Except String Unit
  | [] => .ok ()
  | step :: rest =>
    let missing := step.dependencies.dedup.filter (· ∉ known)
    if missing.isEmpty then checkKnown known rest
    else .error (s!"step '{step.id}' has unknown dependencies: " ++
      String.intercalate ", " (missing.insertionSort (· ≤ ·)))

def validateGraph : Except String Unit :=
  if ¬ plan.stepIds.Nodup then .error "plan step ids must be unique"
  else
    match checkKnown plan.stepIds plan.steps with
    | .error message => .error message
    | .ok () =>
      if Graphs.acyclic plan.dependenciesOf plan.stepIds then .ok ()
      else .error "plan dependencies must not contain a cycle"

/-- What `validate_graph` can raise.  `recursion` is the `RecursionError` of the interpreter. -/
inductive GraphError where
  | value (message : String)
  | key (stepId : String)
  | recursion
  deriving DecidableEq, Repr

/-- `dependencies[step_id]`. -/
def entryOf (stepId : String) : Option (List String) :=
  (plan.steps.reverse.find? fun step => step.id == stepId).map (·.dependencies)

/-- `_assert_acyclic`, where the interpreter allows `depth` calls of `visit` inside each other. -/
def assertAcyclic (depth : Nat) : Except GraphError Unit :=
  match plan.stepIds.foldlM (Graphs.search plan.entryOf depth []) [] with
  | .ok _ => .ok ()
  | .error .cycle => .error (.value "plan dependencies must not contain a cycle")
  | .error (.missing stepId) => .error (.key stepId)
  | .error .depth => .error .recursion

/-- `validate_graph`, with every way in which its search may end. -/
def validateGraphWithin (depth : Nat) : Except GraphError Unit :=
  if ¬ plan.stepIds.Nodup then .error (.value "plan step ids must be unique")
  else
    match checkKnown plan.stepIds plan.steps with
    | .error message => .error (.value message)
    | .ok () => plan.assertAcyclic depth

/-- `statuses[step_id]`.  A validated plan knows every dependency. -/
def statusOf (stepId : String) : Option StepStatus :=
  (plan.steps.reverse.find? fun step => step.id == stepId).map (·.status)

/-- The step is pending and its dependencies have successfully settled. -/
def ready (step : PlanStep) : Bool :=
  step.status = .pending &&
    step.dependencies.all fun dependency => (plan.statusOf dependency).any (·.satisfied)

def readySteps : List PlanStep := plan.steps.filter plan.ready

def getStep (stepId : String) : Except PlanError PlanStep :=
  orRaise (plan.steps.find? fun step => step.id == stepId)
    (.unknownStep s!"unknown plan step '{stepId}'")

def requireStatus (stepId : String) (expected : StepStatus) : Except PlanError PlanStep :=
  (plan.getStep stepId).bind fun step =>
    if step.status = expected then .ok step
    else .error (.invalidTransition
      s!"step '{stepId}' must be {expected.value}, got {step.status.value}")

def replaceStep (replacement : PlanStep) (planStatus : Option PlanStatus) : ExecutionPlan :=
  { plan with
    steps := plan.steps.map fun step => if step.id = replacement.id then replacement else step
    status := planStatus.getD plan.status
    revision := plan.revision + 1 }

def startStep (stepId : String) : Except PlanError ExecutionPlan :=
  (plan.getStep stepId).bind fun step =>
    if plan.ready step then
      .ok (plan.replaceStep { step with status := .running } (some .running))
    else .error (.invalidTransition s!"step '{stepId}' is not ready to start")

def completedStep (step : PlanStep) (result : JsonValue) (success : Option Bool)
    (attachments : List String) (metadata : List (String × JsonValue)) : PlanStep :=
  { step with
    status := .completed
    success := success
    result := result
    attachments := attachments
    error := none
    metadata := dictMerge step.metadata metadata }

def completeStep (stepId : String) (result : JsonValue) (success : Option Bool := none)
    (attachments : List String := []) (metadata : List (String × JsonValue) := []) :
    Except PlanError ExecutionPlan :=
  (plan.requireStatus stepId .running).bind fun step =>
    let updated :=
      plan.replaceStep (completedStep step result success attachments metadata) none
    if updated.steps.all (·.status.satisfied) then .ok { updated with status := .completed }
    else .ok updated

def waitStep (stepId : String) : Except PlanError ExecutionPlan :=
  (plan.requireStatus stepId .running).bind fun step =>
    .ok (plan.replaceStep { step with status := .waiting } (some .waiting))

def resumeStep (stepId : String) : Except PlanError ExecutionPlan :=
  (plan.requireStatus stepId .waiting).bind fun step =>
    .ok (plan.replaceStep { step with status := .running } (some .running))

def ended (stepStatus : StepStatus) (planStatus : PlanStatus) (error : String) : ExecutionPlan :=
  { plan with
    steps := plan.steps.map fun step =>
      if step.status.active then { step with status := stepStatus, error := some error } else step
    status := planStatus
    revision := plan.revision + 1
    metadata := dictSet plan.metadata "terminal_error" (.str error) }

def cancel (error : String) : Except PlanError ExecutionPlan :=
  if isBlank error then .error (.value "error must not be empty")
  else .ok (plan.ended .cancelled .cancelled error)

def fail (error : String) : Except PlanError ExecutionPlan :=
  if isBlank error then .error (.value "error must not be empty")
  else .ok (plan.ended .failed .failed error)

/-! ## The graph of a plan -/

def DependsOn (a b : String) : Prop := ∃ step ∈ plan.steps, step.id = a ∧ b ∈ step.dependencies

/-- Identifiers are unique, dependencies are known, and no step depends on itself through
others. -/
structure Graph : Prop where
  unique : plan.stepIds.Nodup
  known : ∀ step ∈ plan.steps, ∀ dependency ∈ step.dependencies, dependency ∈ plan.stepIds
  acyclic : ∀ stepId, ¬ Relation.TransGen plan.DependsOn stepId stepId

/-- The walk over the steps in their order stays within `depth` visits inside each other. -/
def Shallow (depth : Nat) : Prop :=
  ∀ before stepId after levels, plan.stepIds = before ++ stepId :: after →
    Graphs.Descends plan.dependenciesOf
      (fun other => ∃ b ∈ before, Relation.ReflTransGen plan.DependsOn b other) stepId levels →
    levels ≤ depth

variable {plan}

theorem find_of_nodup {steps : List PlanStep} (h : (steps.map (·.id)).Nodup) {step : PlanStep}
    (hs : step ∈ steps) : steps.find? (fun other => other.id == step.id) = some step := by
  induction steps with
  | nil => cases hs
  | cons first rest ih =>
    rw [List.map_cons, List.nodup_cons] at h
    cases List.mem_cons.mp hs with
    | inl heq =>
      subst heq
      simp
    | inr hrest =>
      have hne : first.id ≠ step.id := fun heq =>
        h.1 (heq ▸ List.mem_map_of_mem hrest)
      rw [List.find?_cons_of_neg (by simpa using hne)]
      exact ih h.2 hrest

/-- The dictionary of a plan with unique identifiers finds every step. -/
theorem find_reverse (h : plan.stepIds.Nodup) {step : PlanStep} (hs : step ∈ plan.steps) :
    plan.steps.reverse.find? (fun other => other.id == step.id) = some step := by
  apply find_of_nodup
  · rw [List.map_reverse]
    exact List.nodup_reverse.mpr h
  · exact List.mem_reverse.mpr hs

theorem eq_of_id (h : plan.stepIds.Nodup) {step other : PlanStep} (hs : step ∈ plan.steps)
    (ho : other ∈ plan.steps) (hid : step.id = other.id) : step = other := by
  have hstep := find_of_nodup h hs
  have hother := find_of_nodup h ho
  rw [hid, hother] at hstep
  exact (Option.some.inj hstep).symm

theorem mem_dependenciesOf (h : plan.stepIds.Nodup) {a b : String} :
    b ∈ plan.dependenciesOf a ↔ plan.DependsOn a b := by
  constructor
  · intro hb
    unfold dependenciesOf at hb
    cases hfind : plan.steps.reverse.find? fun step => step.id == a with
    | none => simp [hfind] at hb
    | some step =>
      rw [hfind] at hb
      have hmem := List.mem_reverse.mp (List.mem_of_find?_eq_some hfind)
      have hid := List.find?_some hfind
      exact ⟨step, hmem, by simpa using hid, hb⟩
  · intro hb
    obtain ⟨step, hs, rfl, hdep⟩ := hb
    rw [dependenciesOf, find_reverse h hs]
    exact hdep

theorem checkKnown_ok {known : List String} {steps : List PlanStep} :
    checkKnown known steps = .ok () ↔
      ∀ step ∈ steps, ∀ dependency ∈ step.dependencies, dependency ∈ known := by
  induction steps with
  | nil => simp [checkKnown]
  | cons step rest ih =>
    have hmissing : (step.dependencies.dedup.filter (· ∉ known)).isEmpty = true ↔
        ∀ dependency ∈ step.dependencies, dependency ∈ known := by
      simp only [List.isEmpty_iff, List.filter_eq_nil_iff, List.mem_dedup, decide_not,
        Bool.not_eq_true', decide_eq_false_iff_not, not_not]
    rw [checkKnown, List.forall_mem_cons, ← ih, ← hmissing]
    by_cases h : (step.dependencies.dedup.filter (· ∉ known)).isEmpty = true
    · simp only [h, if_true, true_and]
    · constructor
      · intro herror
        simp only [h] at herror
        cases herror
      · intro hall
        exact absurd hall.1 h

/-- The validation accepts exactly the graphs. -/
theorem validateGraph_ok : plan.validateGraph = .ok () ↔ plan.Graph := by
  unfold validateGraph
  by_cases hunique : plan.stepIds.Nodup
  · rw [if_neg (not_not.mpr hunique)]
    have hedge : Graphs.Edge plan.dependenciesOf = plan.DependsOn := by
      funext a b
      exact propext (mem_dependenciesOf hunique)
    have hcheck : checkKnown plan.stepIds plan.steps = .ok () ↔ _ := checkKnown_ok
    cases hknown : checkKnown plan.stepIds plan.steps with
    | error message =>
      rw [hknown] at hcheck
      constructor
      · intro h
        cases h
      · intro h
        cases hcheck.mpr h.known
    | ok u =>
      rw [hknown] at hcheck
      have hdeps := hcheck.mp rfl
      have hclosed : ∀ a ∈ plan.stepIds, ∀ b ∈ plan.dependenciesOf a, b ∈ plan.stepIds := by
        intro a _ b hb
        obtain ⟨step, hs, -, hdep⟩ := (mem_dependenciesOf hunique).mp hb
        exact hdeps step hs b hdep
      have hsearch := Graphs.acyclic_iff hclosed
      rw [hedge] at hsearch
      constructor
      · intro h
        have hacyclic : Graphs.acyclic plan.dependenciesOf plan.stepIds = true := by
          by_contra hnot
          simp [hnot] at h
        refine ⟨hunique, hdeps, fun stepId hself => ?_⟩
        -- a step that depends on anything is a step of the plan
        obtain ⟨b, ⟨step, hs, hid, -⟩, -⟩ := Relation.TransGen.head'_iff.mp hself
        exact hsearch.mp hacyclic stepId (hid ▸ List.mem_map_of_mem hs) hself
      · intro h
        have hacyclic := hsearch.mpr fun a _ => h.acyclic a
        simp [hacyclic]
  · rw [if_pos hunique]
    constructor
    · intro h
      cases h
    · intro h
      exact absurd h.unique hunique

/-- The dictionary of the dependencies has every step, and knows its dependencies. -/
theorem entryOf_closed (hunique : plan.stepIds.Nodup)
    (hknown : ∀ step ∈ plan.steps, ∀ dependency ∈ step.dependencies, dependency ∈ plan.stepIds) :
    ∀ stepId ∈ plan.stepIds, ∃ dependencies, plan.entryOf stepId = some dependencies ∧
      ∀ dependency ∈ dependencies, dependency ∈ plan.stepIds := by
  intro stepId hmem
  obtain ⟨step, hstep, rfl⟩ := List.mem_map.mp hmem
  refine ⟨step.dependencies, ?_, hknown step hstep⟩
  rw [entryOf, find_reverse hunique hstep]
  rfl

/-- A recursion that may go deeper than there are steps ends, and finds every step. -/
theorem assertAcyclic_eq (hunique : plan.stepIds.Nodup)
    (hknown : ∀ step ∈ plan.steps, ∀ dependency ∈ step.dependencies, dependency ∈ plan.stepIds)
    {depth : Nat} (hdepth : plan.steps.length < depth) :
    plan.assertAcyclic depth =
      if Graphs.acyclic plan.dependenciesOf plan.stepIds then .ok ()
      else .error (.value "plan dependencies must not contain a cycle") := by
  have hlength : plan.stepIds.length < depth := by
    rw [stepIds, List.length_map]
    exact hdepth
  have hentry := entryOf_closed hunique hknown
  have hclosed : ∀ a ∈ plan.stepIds, ∀ b ∈ plan.dependenciesOf a, b ∈ plan.stepIds := by
    intro a ha b hb
    obtain ⟨dependencies, hdependencies, hmem⟩ := hentry a ha
    apply hmem b
    show b ∈ dependencies
    have hsame : plan.dependenciesOf a = (plan.entryOf a).getD [] := rfl
    rw [hsame, hdependencies] at hb
    exact hb
  -- the bound of `acyclic` and this one find the same
  have hsearch : (plan.stepIds.foldlM (Graphs.visit plan.dependenciesOf depth []) []).isSome =
      Graphs.acyclic plan.dependenciesOf plan.stepIds := by
    rw [Bool.eq_iff_iff, Graphs.foldlM_visit_isSome hclosed hlength, Graphs.acyclic_iff hclosed]
  unfold assertAcyclic
  rw [Graphs.foldlM_search hentry hlength]
  show (match Graphs.orCycle (plan.stepIds.foldlM (Graphs.visit plan.dependenciesOf depth []) []) with
    | .ok _ => _
    | .error .cycle => _
    | .error (.missing stepId) => _
    | .error .depth => _) = _
  rw [← hsearch]
  cases plan.stepIds.foldlM (Graphs.visit plan.dependenciesOf depth []) [] with
  | none => rfl
  | some seen => rfl

theorem validateGraphWithin_eq {depth : Nat} (hdepth : plan.steps.length < depth) :
    plan.validateGraphWithin depth = plan.validateGraph.mapError .value := by
  unfold validateGraphWithin validateGraph
  by_cases hunique : plan.stepIds.Nodup
  · rw [if_neg (not_not.mpr hunique), if_neg (not_not.mpr hunique)]
    cases hknown : checkKnown plan.stepIds plan.steps with
    | error message => rfl
    | ok u =>
      show plan.assertAcyclic depth = Except.mapError _ (if _ then _ else _)
      rw [assertAcyclic_eq hunique (checkKnown_ok.mp hknown) hdepth]
      split
      · rfl
      · rfl
  · rw [if_pos hunique, if_pos hunique]
    rfl

/-- The validation accepts exactly the dependency graphs without a cycle.  Its recursion never goes
deeper than there are steps, and it raises nothing but a `ValueError`. -/
theorem validateGraph_accepts_dags (plan : ExecutionPlan) (more : Nat) :
    (plan.validateGraphWithin (plan.steps.length + 1 + more) = .ok () ↔
      plan.stepIds.Nodup ∧
      (∀ step ∈ plan.steps, ∀ dependency ∈ step.dependencies, dependency ∈ plan.stepIds) ∧
      ∀ stepId, ¬ Relation.TransGen plan.DependsOn stepId stepId) ∧
    (∀ e, plan.validateGraphWithin (plan.steps.length + 1 + more) = .error e →
      ∃ message, e = .value message) := by
  have hdepth : plan.steps.length < plan.steps.length + 1 + more := by omega
  rw [validateGraphWithin_eq hdepth]
  constructor
  · have hsame : plan.validateGraph.mapError GraphError.value = .ok () ↔
        plan.validateGraph = .ok () := by
      cases plan.validateGraph with
      | error message => simp [Except.mapError]
      | ok u => simp [Except.mapError]
    rw [hsame, validateGraph_ok]
    exact ⟨fun h => ⟨h.unique, h.known, h.acyclic⟩, fun h => ⟨h.1, h.2.1, h.2.2⟩⟩
  · intro e he
    cases hgraph : plan.validateGraph with
    | error message =>
      rw [hgraph] at he
      cases he
      exact ⟨message, rfl⟩
    | ok u =>
      rw [hgraph] at he
      cases he

theorem assertAcyclic_deeper {depth : Nat} (more : Nat)
    (h : plan.assertAcyclic depth ≠ .error .recursion) :
    plan.assertAcyclic (depth + more) = plan.assertAcyclic depth := by
  have hsearch : plan.stepIds.foldlM (Graphs.search plan.entryOf depth []) [] ≠ .error .depth := by
    intro hdepth
    unfold assertAcyclic at h
    rw [hdepth] at h
    exact h rfl
  unfold assertAcyclic
  rw [Graphs.foldlM_deeper (fun _ _ => Graphs.search_deeper more) [] hsearch]

/-- The validation finds what one without a bound does, unless it runs into the bound. -/
theorem validateGraphWithin_or (plan : ExecutionPlan) (depth : Nat) :
    plan.validateGraphWithin depth = plan.validateGraph.mapError .value ∨
      plan.validateGraphWithin depth = .error .recursion := by
  by_cases hrecursion : plan.validateGraphWithin depth = .error .recursion
  · exact .inr hrecursion
  · have hdeep : plan.validateGraphWithin (depth + (plan.steps.length + 1)) =
        plan.validateGraphWithin depth := by
      unfold validateGraphWithin at hrecursion ⊢
      by_cases hunique : plan.stepIds.Nodup
      · rw [if_neg (not_not.mpr hunique)] at hrecursion ⊢
        rw [if_neg (not_not.mpr hunique)]
        cases hknown : checkKnown plan.stepIds plan.steps with
        | error message => rfl
        | ok u =>
          rw [hknown] at hrecursion
          exact assertAcyclic_deeper _ hrecursion
      · rw [if_pos hunique, if_pos hunique]
    rw [← hdeep]
    exact .inl (validateGraphWithin_eq (by omega))

/-- The validation of a graph runs into the bound when the walk is not shallow, and only then. -/
theorem Graph.recursion_iff (h : plan.Graph) (depth : Nat) :
    plan.validateGraphWithin depth = .error .recursion ↔ ¬ plan.Shallow depth := by
  have hentry := entryOf_closed h.unique h.known
  have hedge : Graphs.Edge plan.dependenciesOf = plan.DependsOn := by
    funext a b
    exact propext (mem_dependenciesOf h.unique)
  have hacyclic : ∀ x ∈ plan.stepIds,
      ¬ Relation.TransGen (Graphs.Edge plan.dependenciesOf) x x := by
    rw [hedge]
    exact fun x _ => h.acyclic x
  have hwalked := Graphs.foldlM_search_walked hentry rfl hacyclic depth
  have hshallow : plan.Shallow depth ↔
      ∀ n, Graphs.DescendsAny plan.dependenciesOf (fun _ => False) plan.stepIds n → n ≤ depth := by
    unfold Shallow Graphs.DescendsAny
    simp only [false_or, hedge]
    constructor
    · intro hall n hn
      obtain ⟨before, stepId, after, hsplit, hdescends⟩ := hn
      exact hall before stepId after n hsplit hdescends
    · intro hall before stepId after n hsplit hdescends
      exact hall n ⟨before, stepId, after, hsplit, hdescends⟩
  have hresult : plan.validateGraphWithin depth = plan.assertAcyclic depth := by
    unfold validateGraphWithin
    rw [if_neg (not_not.mpr h.unique), checkKnown_ok.mpr h.known]
  rw [hresult, hshallow]
  unfold assertAcyclic
  cases hsearch : plan.stepIds.foldlM (Graphs.search plan.entryOf depth []) [] with
  | error e =>
    rw [hsearch] at hwalked
    obtain ⟨rfl, n, hn, hbound⟩ := hwalked
    simp only [true_iff]
    intro hall
    have hle := hall n hn
    omega
  | ok seen =>
    rw [hsearch] at hwalked
    obtain ⟨-, hlevels⟩ := hwalked
    constructor
    · intro hfalse
      cases hfalse
    · exact fun hnot => absurd hlevels hnot

/-- The validation accepts exactly the dependency graphs without a cycle, and finds every key, when
the walk over a graph is shallow, and only then. -/
theorem validateGraphWithin_exact (plan : ExecutionPlan) (depth : Nat) :
    ((plan.validateGraphWithin depth = .ok () ↔ plan.Graph) ∧
        ∀ stepId, plan.validateGraphWithin depth ≠ .error (.key stepId)) ↔
      (plan.Graph → plan.Shallow depth) := by
  have hvalue : plan.validateGraph.mapError GraphError.value = .ok () ↔ plan.Graph := by
    rw [← validateGraph_ok]
    cases plan.validateGraph with
    | error message => simp [Except.mapError]
    | ok u => simp [Except.mapError]
  constructor
  · intro hexact hgraph
    by_contra hdeep
    have hrecursion := (hgraph.recursion_iff depth).mpr hdeep
    rw [hexact.1.mpr hgraph] at hrecursion
    cases hrecursion
  · intro hshallow
    cases plan.validateGraphWithin_or depth with
    | inl hsame =>
      rw [hsame]
      refine ⟨hvalue, fun stepId hkey => ?_⟩
      cases hgraph : plan.validateGraph with
      | error message =>
        rw [hgraph] at hkey
        cases hkey
      | ok u =>
        rw [hgraph] at hkey
        cases hkey
    | inr hrecursion =>
      rw [hrecursion]
      constructor
      · constructor
        · intro hok
          cases hok
        · intro hgraph
          exact absurd (hshallow hgraph) ((hgraph.recursion_iff depth).mp hrecursion)
      · intro stepId hkey
        cases hkey

/-! ### A chain -/

def chainId (i : Nat) : String := String.ofList (List.replicate (i + 1) 'a')

def chainStep (n i : Nat) : PlanStep where
  id := chainId i
  description := "Step."
  dependencies := if i + 1 < n then [chainId (i + 1)] else []

/-- Steps that depend on each other in a row, the dependent ones first. -/
def chain (n : Nat) : ExecutionPlan where
  id := "chain"
  title := "Chain"
  steps := (List.range n).map (chainStep n)

theorem chainId_inj {i j : Nat} (h : chainId i = chainId j) : i = j := by
  have hlists := congrArg String.toList h
  unfold chainId at hlists
  rw [String.toList_ofList, String.toList_ofList] at hlists
  have hlengths := congrArg List.length hlists
  rw [List.length_replicate, List.length_replicate] at hlengths
  omega

theorem chainStep_valid (n i : Nat) :
    (chainStep n i).validateDependenciesAndFailure = .ok () := by
  have hself : (chainStep n i).id ∉ (chainStep n i).dependencies := by
    show chainId i ∉ if i + 1 < n then [chainId (i + 1)] else []
    split
    · intro hmem
      have hsame := chainId_inj (List.mem_singleton.mp hmem)
      omega
    · exact List.not_mem_nil
  have hnodup : (chainStep n i).dependencies.Nodup := by
    unfold chainStep
    split
    · exact List.nodup_singleton _
    · exact List.nodup_nil
  unfold PlanStep.validateDependenciesAndFailure
  rw [if_neg (not_not.mpr hnodup), if_neg hself]
  simp [chainStep]

theorem chain_steps_valid {n : Nat} {step : PlanStep} (h : step ∈ (chain n).steps) :
    step.validateDependenciesAndFailure = .ok () := by
  obtain ⟨i, -, rfl⟩ := List.mem_map.mp h
  exact chainStep_valid n i

theorem chain_stepIds (n : Nat) : (chain n).stepIds = (List.range n).map chainId := by
  unfold stepIds chain
  rw [List.map_map]
  rfl

theorem chain_dependsOn {n : Nat} {a b : String} (h : (chain n).DependsOn a b) :
    ∃ i, i + 1 < n ∧ a = chainId i ∧ b = chainId (i + 1) := by
  obtain ⟨step, hstep, hid, hmem⟩ := h
  obtain ⟨i, -, rfl⟩ := List.mem_map.mp hstep
  unfold chainStep at hmem
  split at hmem
  · rename_i hbound
    exact ⟨i, hbound, hid.symm, List.mem_singleton.mp hmem⟩
  · cases hmem

theorem chain_graph (n : Nat) : (chain n).Graph where
  unique := by
    rw [chain_stepIds]
    exact List.nodup_range.map fun _ _ => chainId_inj
  known := by
    intro step hstep dependency hmem
    obtain ⟨i, hi, hid, rfl⟩ := chain_dependsOn ⟨step, hstep, rfl, hmem⟩
    rw [chain_stepIds]
    exact List.mem_map_of_mem (List.mem_range.mpr hi)
  acyclic := by
    -- the identifiers grow along the dependencies
    have hgrow : ∀ a b, Relation.TransGen (chain n).DependsOn a b → a.length < b.length := by
      intro a b hreach
      induction hreach with
      | single hedge =>
        obtain ⟨i, -, rfl, rfl⟩ := chain_dependsOn hedge
        simp [chainId]
      | tail _ hedge ih =>
        obtain ⟨i, -, rfl, rfl⟩ := chain_dependsOn hedge
        refine ih.trans ?_
        simp [chainId]
    intro stepId hself
    exact absurd (hgrow stepId stepId hself) (lt_irrefl _)

theorem chain_dependenciesOf {n i : Nat} (hi : i + 1 < n) :
    (chain n).dependenciesOf (chainId i) = [chainId (i + 1)] := by
  have hstep : chainStep n i ∈ (chain n).steps := List.mem_map_of_mem (List.mem_range.mpr (by omega))
  have hfind := find_reverse (chain_graph n).unique hstep
  unfold dependenciesOf
  have hid : (chainStep n i).id = chainId i := rfl
  rw [hid] at hfind
  rw [hfind]
  simp [chainStep, hi]

/-- The walk visits the whole rest of the chain inside the first step. -/
theorem chain_descends {n : Nat} (levels : Nat) {i : Nat} (hi : i + (levels + 1) = n)
    {done : String → Prop} (hdone : ∀ stepId, ¬ done stepId) :
    Graphs.Descends (chain n).dependenciesOf done (chainId i) (levels + 1) := by
  induction levels generalizing i done with
  | zero => exact .call
  | succ levels ih =>
    refine .deeper (hdone _) (show _ = [] ++ chainId (i + 1) :: [] from
      chain_dependenciesOf (by omega)) ?_
    apply ih (by omega)
    intro stepId hstep
    simp [hdone] at hstep

theorem chain_not_shallow {n depth : Nat} (h : depth < n) : ¬ (chain n).Shallow depth := by
  intro hshallow
  obtain ⟨levels, rfl⟩ : ∃ levels, n = levels + 1 := ⟨n - 1, by omega⟩
  have hsplit : (chain (levels + 1)).stepIds =
      [] ++ chainId 0 :: (List.range levels).map fun i => chainId (i + 1) := by
    rw [chain_stepIds, List.range_succ_eq_map, List.map_cons, List.map_map]
    rfl
  have hbound := hshallow [] (chainId 0) _ (levels + 1) hsplit
    (chain_descends levels (by omega) (by simp))
  omega

theorem chain_refused {n depth : Nat} (h : depth < n) :
    (chain n).validateGraphWithin depth = .error .recursion :=
  ((chain_graph n).recursion_iff depth).mpr (chain_not_shallow h)

/-- A chain of valid steps without a cycle, which is longer than the interpreter allows. -/
theorem long_chain_refused :
    (∀ step ∈ (chain 1001).steps, step.validateDependenciesAndFailure = .ok ()) ∧
      (chain 1001).Graph ∧ (chain 1001).validateGraphWithin 1000 = .error .recursion :=
  ⟨fun _ => chain_steps_valid, chain_graph 1001, chain_refused (Nat.lt_succ_self 1000)⟩

example :
    ({ id := "plan", title := "Plan"
       steps := [
         { id := "a", description := "First.", dependencies := ["b"] },
         { id := "b", description := "Second.", dependencies := ["a"] }] } :
      ExecutionPlan).validateGraph = .error "plan dependencies must not contain a cycle" := by
  decide

end ExecutionPlan

end BaseAgent

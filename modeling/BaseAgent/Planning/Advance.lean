import BaseAgent.Planning.Impasse
import BaseAgent.Planning.Offers

/-!
# A way on in every turn

The course of the Runs in which no turn fails for want of a step.

A Run that is suspended while the response of the updating phase is awaited has no step to suspend.
Its plan is failed instead, and the Run waits with it.  A plan with pending steps survives that.
Without any, it is no longer completed, and a response that leaves it unchanged leads to the
failure.
-/

namespace BaseAgent
namespace Runtime

open Async Prog PlanningStrategy

variable {plan plan' : ExecutionPlan}

/-! ## The course -/

namespace Impasse

/-- The supervisor is shown a context whose turn fails for want of a step. -/
def ShowsStuck : RuntimeOp → Prop
  | .beforeModel shown => shown.Stuck
  | _ => False

def StoresBarren : RuntimeOp → Prop
  | .saveCheckpoint checkpoint => checkpoint.restore.Barren
  | _ => False

instance : DecidablePred ShowsStuck := fun o => by
  cases o <;> first
    | exact .isFalse fun h => h
    | exact inferInstanceAs (Decidable (RuntimeContext.Stuck _))

instance : DecidablePred StoresBarren := fun o => by
  cases o <;> first
    | exact .isFalse fun h => h
    | exact inferInstanceAs (Decidable (RuntimeContext.Barren _))

/-- Watch what the supervisor is shown before a turn, until a barren context is stored. -/
def observer : Observer RuntimeOp RuntimeOp.Ret (Option RuntimeCheckpoint) where
  admits _ o := ¬ ShowsStuck o
  expects _ o _ := ¬ StoresBarren o
  next checkpoint o _ := keptCheckpoint checkpoint o

/-- What is known of the context at each place.  Inside the turn of a planning strategy, where
`engaged` holds, a step of a plan that is being executed is running. -/
def At (engaged : Prop) : Mode → RuntimeContext → Option RuntimeCheckpoint → Prop
  | .rest, c, _ => c.Viable ∧ (engaged → c.Engaged)
  | .batch _ _, c, _ => (c.Viable ∧ (engaged → c.Engaged)) ∧ c.state = .running ∧
      c.supervision.suspendedActionBatch = none
  | .waiting, c, _ => (c.Viable ∧ (engaged → c.Engaged)) ∧ c.state = .waiting
  | .fresh, c, _ => c.state = .running
  | .left, c, _ => c.Viable
  | .ended, c, _ | .settled, c, _ => c.state ≠ .running → c.Viable
  | .closed, c, checkpoint => (c.state ≠ .running → c.Viable) ∧
      (c.state = .waiting → ∀ saved, checkpoint = some saved → saved.restore.Lively ∧
        saved.restore.state = .waiting)

variable {engaged : Prop} {m : Mode} {a b c : RuntimeContext} {s : Option RuntimeCheckpoint}
variable {o : RuntimeOp}

theorem At.viable (h : At engaged m c s) (hstate : c.state ≠ .running) : c.Viable := by
  match m, h with
  | .rest, h => exact h.1
  | .batch _ _, h => exact h.1.1
  | .waiting, h => exact h.1.1
  | .fresh, h => exact absurd h hstate
  | .left, h => exact h
  | .ended, h => exact h hstate
  | .settled, h => exact h hstate
  | .closed, h => exact h.1 hstate

theorem At.alike (h : At engaged m a s) (halike : a.Alike b) : At engaged m b s := by
  have hrest : a.Viable ∧ (engaged → a.Engaged) → b.Viable ∧ (engaged → b.Engaged) := fun h =>
    ⟨h.1.alike halike, fun he => (h.2 he).same halike.plan halike.phase⟩
  have hended : (a.state ≠ .running → a.Viable) → b.state ≠ .running → b.Viable := by
    intro h hstate
    rw [halike.state] at hstate
    exact (h hstate).alike halike
  match m, h with
  | .rest, h => exact hrest h
  | .batch _ _, h => exact ⟨hrest h.1, halike.state.trans h.2.1, halike.batch.trans h.2.2⟩
  | .waiting, h => exact ⟨hrest h.1, halike.state.trans h.2⟩
  | .fresh, h => exact halike.state.trans h
  | .left, h => exact RuntimeContext.Viable.alike h halike
  | .ended, h => exact hended h
  | .settled, h => exact hended h
  | .closed, h => exact ⟨hended h.1, fun hwaiting => h.2 (halike.state.symm.trans hwaiting)⟩

/-- The supervisor is shown nothing that is stuck, and the checkpoint stays. -/
structure Quiet (o : RuntimeOp) : Prop where
  shows : ¬ ShowsStuck o := by exact fun h => h
  keeps : ∀ checkpoint, keptCheckpoint checkpoint o = checkpoint := by exact fun _ => rfl

theorem At.allowed (h : At engaged m c s) (ho : Quiet o) :
    Allowed observer s o fun _ s' => At engaged m c s' := by
  refine ⟨ho.shows, fun r _ => ?_⟩
  show At engaged m c (keptCheckpoint s o)
  rw [ho.keeps]
  exact h

def course (engaged : Prop) : Course observer where
  At := At engaged
  Thrown _ c _ := c.state ≠ .running → c.Viable
  Stops _ := True
  Read _ _ := True
  reason _ _ := trivial
  alike halike h := h.alike halike
  tame {m c s o} htame h := by
    apply h.allowed
    cases o <;> first | exact htame.elim | exact {}
  look {c s} h hstate := ⟨(h.1.lively (.inr hstate)).not_stuck, fun _ _ => h⟩
  get h := (h.allowed {}).mono fun _ _ h' => ⟨h', fun _ _ => trivial, fun _ _ => h'.viable⟩
  save h _ _ := (h.allowed {}).mono fun _ _ h' => ⟨h', fun _ _ => h'.viable⟩
  stopped {c s run text} h hstate _ _ _ := by
    have hat : At engaged .left c s := h.1
    exact (hat.allowed {}).mono fun _ _ h' => ⟨h', fun _ _ => h'.viable⟩
  running h := h.2
  thrown _ hstate hnot := absurd hstate hnot
  leave {c s status text} h _ hstatus :=
    ⟨.of_errorStatus (show (c.endedWith status text).state.errorStatus = true from hstatus),
      fun he => (h.2 he).same rfl rfl⟩
  left h := h.1
  pause h := h.1
  tail h := h
  pop {c s batch} h hstate _ :=
    ⟨⟨h.1.same (b := c.popped) rfl rfl rfl, fun he => (h.2 he).same rfl rfl⟩, hstate, rfl⟩
  invoke h _ _ := h.allowed {}
  hold {response call calls observations c s} h :=
    ⟨h.1.1.same (b := c.holding _) rfl rfl rfl, fun he => (h.1.2 he).same rfl rfl⟩
  wait {c s pending} h hstate := by
    have hlively := h.1.lively (.inr hstate)
    have hfit : (c.awaiting pending).Fit := hlively.1.same rfl rfl
    exact ⟨⟨hfit.viable rfl, fun he => (h.2 he).same rfl rfl⟩, rfl⟩
  waitingState h := h.2
  waited h := h.1.1

/-! ## Replacing the plan -/

/-- The program leads to `Q`, and its exceptions leave a context that runs or is viable. -/
abbrev Leads {α : Type} (p : ContextProg α) (Q : α → Option RuntimeCheckpoint → Prop)
    (s : Option RuntimeCheckpoint) : Prop :=
  (course True).Leads p Q s

theorem snapshot_at (h : At True m c s) :
    Leads (saveContextSnapshot c) (fun _ s' => At True m c s') s := by
  refine (Course.getRun_leads (C := course True) h).bind fun run s' h' => ?_
  refine (h'.1.allowed {}).call fun r s'' h'' => ?_
  cases r with
  | ok u => exact h''
  | error e => exact h''.viable

theorem update_at {plan' : ExecutionPlan} (updated : Bool)
    (h : c.state ≠ .running → c.Viable) (h' : At True m (c.withPlan plan') s) :
    Leads (updateExecutionPlan c plan' updated)
      (fun c' s' => c' = c.withPlan plan' ∧ At True m c' s') s := by
  unfold updateExecutionPlan
  split
  · refine (snapshot_at h').bind fun _ s₁ h₁ => ?_
    refine (Course.emit_leads (C := course True) _ h₁).bind fun _ s₂ h₂ => ?_
    exact ⟨rfl, h₂⟩
  · split
    · exact h
    · split
      · exact h
      · refine (snapshot_at h').bind fun _ s₁ h₁ => ?_
        refine (Course.emitPlan_leads (C := course True) _ _ _ h₁).bind fun _ s₂ h₂ => ?_
        exact ⟨rfl, h₂⟩

theorem thrown_running (e : RuntimeError) (hstate : c.state = .running) :
    (course True).Err (e, c) s := fun hnot => absurd hstate hnot

theorem update_running {plan' : ExecutionPlan} (updated : Bool) (hstate : c.state = .running) :
    Leads (updateExecutionPlan c plan' updated) (fun c' _ => c' = c.withPlan plan') s := by
  have hat : At True .fresh (c.withPlan plan') s := hstate
  exact (update_at updated (fun hnot => absurd hstate hnot) hat).weaken fun _ _ h' => h'.1

/-- The plan of a running context is replaced by what an operation returns. -/
theorem replace_running {β : Type} {Q : β → Option RuntimeCheckpoint → Prop}
    {k : ExecutionPlan → RuntimeContext → ContextProg β} {op : Except PlanError ExecutionPlan}
    (updated : Bool) (hstate : c.state = .running)
    (hk : ∀ plan' s', op = .ok plan' → Leads (k plan' (c.withPlan plan')) Q s') :
    Leads ((liftPlan c op).bind fun plan' => (updateExecutionPlan c plan' updated).bind (k plan'))
      Q s := by
  cases op with
  | error e => exact thrown_running _ hstate
  | ok plan' =>
    refine (update_running updated hstate).bind fun c' s' h' => ?_
    rw [h']
    exact hk plan' s' rfl

/-! ## The methods -/

theorem fail_running (text : String) (hstate : c.state = .running) :
    Leads (failExecution c text) (fun c' _ => c'.Viable) s := by
  have hbase : ∀ {c' : RuntimeContext} {s'}, c'.state = .running →
      Leads (ModelToolStrategy.failExecution c' text) (fun c'' _ => c''.Viable) s' := by
    intro c' s' hstate'
    rw [failExecution_running hstate']
    exact .of_errorStatus rfl
  unfold failExecution
  split
  · exact hbase hstate
  · split
    · exact hbase hstate
    · unfold replacePlan
      simp only [bind_eq, bind_assoc]
      exact replace_running false hstate fun _ _ _ => hbase hstate

theorem fail_waiting (text : String) (h : c.Fit) (hstate : c.state = .waiting)
    (hplan : c.plan = some plan) (hidle : plan.idle = true)
    (hphase : c.phase = some .updating ∨ c.phase = some .summarizing) :
    Leads (failExecution c text) (fun c' _ => c'.Viable ∧ c'.state = .waiting) s := by
  have hbase : ∀ {c' : RuntimeContext} {s'}, c'.Fit → c'.state = .waiting →
      Leads (ModelToolStrategy.failExecution c' text)
        (fun c'' _ => c''.Viable ∧ c''.state = .waiting) s' := by
    intro c' s' hfit hstate'
    rw [failExecution_waiting hstate']
    have hfit' : ({ c' with error := some text } : RuntimeContext).Fit := hfit.same rfl rfl
    exact ⟨hfit'.viable hstate', hstate'⟩
  obtain ⟨hhealthy, hsuits⟩ := h plan hplan
  unfold failExecution
  rw [hplan]
  simp only
  split
  · exact hbase h hstate
  · unfold replacePlan
    cases hfail : plan.fail text with
    | error e => exact fun _ => h.viable hstate
    | ok plan' =>
      obtain ⟨hhealthy', hsteps⟩ := hhealthy.failed hidle hfail
      have hfit : (c.withPlan plan').Fit := by
        intro other hother
        cases hother
        exact ⟨hhealthy', hsuits.idle hidle hphase hsteps⟩
      have hat : At True .left (c.withPlan plan') s := hfit.viable hstate
      simp only [liftPlan, bind_eq, ret_bind]
      refine (update_at false (fun _ => h.viable hstate) hat).bind fun c' s' h' => ?_
      rw [h'.1]
      exact hbase hfit hstate

theorem wait_leads (h : At True .waiting c s) :
    Leads (waitForInput c) (fun c' _ => c'.Viable ∧ c'.state = .waiting) s := by
  obtain ⟨⟨hviable, hengaged⟩, hstate⟩ := h
  have hfit := hviable.fit hstate
  unfold waitForInput requirePlan
  cases hplan : c.plan with
  | none => exact fun _ => hviable
  | some plan =>
    obtain ⟨hhealthy, hsuits⟩ := hfit plan hplan
    simp only [orRaise, lift, bind_eq, ret_bind]
    cases hrunning : plan.stepWithStatus .running with
    | none =>
      -- no step is executed: the plan is under review or has been executed
      have hphase : c.phase = some .updating ∨ c.phase = some .summarizing := by
        rcases hengaged trivial plan hplan with hupdating | hsummarizing | hsome
        · exact .inl hupdating
        · exact .inr hsummarizing
        · exact absurd hrunning hsome
      have hidle : plan.idle = true := by
        rcases hphase with heq | heq
        · rw [heq] at hsuits
          exact hsuits
        · rw [heq] at hsuits
          exact hsuits
      exact fail_waiting _ hfit hstate hplan hidle hphase
    | some step =>
      simp only [replacePlan]
      cases hwait : plan.waitStep step.id with
      | error e => exact fun _ => hviable
      | ok plan' =>
        obtain ⟨hhealthy', hwaiting⟩ := hhealthy.waited hwait
        have hsome : plan.stepWithStatus .running ≠ none := by simp [hrunning]
        have hbusy := ExecutionPlan.busy_of_stepWithStatus hsome rfl
        have hbusy' := ExecutionPlan.busy_of_stepWithStatus hwaiting rfl
        have hfit' : (c.withPlan plan').Fit := by
          intro other hother
          cases hother
          exact ⟨hhealthy', hsuits.busy hbusy hbusy'⟩
        have hat : At True .left (c.withPlan plan') s := hfit'.viable hstate
        simp only [liftPlan, bind_eq, ret_bind]
        refine (update_at false (fun _ => hviable) hat).weaken fun c' s' h' => ?_
        rw [h'.1]
        exact ⟨hfit'.viable hstate, hstate⟩

theorem settle_leads (h : c.Viable) :
    Leads (settleTerminalPlan c) (fun c' _ => c'.Viable) s := by
  have hreplace : ∀ op, c.state.errorStatus = true →
      Leads (replacePlan c op) (fun c' _ => c'.Viable) s := by
    intro op herror
    cases op with
    | error e => exact fun _ => h
    | ok plan' =>
      have hviable : (c.withPlan plan').Viable := .of_errorStatus herror
      have hat : At True .left (c.withPlan plan') s := hviable
      exact (update_at false (fun _ => h) hat).weaken fun c' _ h' => h'.2
  unfold settleTerminalPlan
  split
  · exact h
  · split
    · exact h
    · split
      · rename_i hstate
        exact hreplace _ (by rw [hstate]; rfl)
      · rename_i hstate
        exact hreplace _ (by rw [hstate]; rfl)
      · rename_i hstate
        exact hreplace _ (by rw [hstate]; rfl)
      · rename_i hstate
        exact hreplace _ (by rw [hstate]; rfl)
      · exact h

/-! ## The responses -/

variable {strategy : PlanningStrategy} {agent : Agent}

theorem finish_running (hstate : c.state = .running) (hplan : c.plan = some plan)
    (hhealthy : plan.Healthy) (hidle : plan.idle = true) :
    Leads (strategy.finishPlan c plan) (fun c' _ => c'.Viable) s := by
  unfold finishPlan
  split
  · let c' := (setPlanning c { phase := .summarizing }).append
      (.user (strategy.summaryPrompt c plan))
    have hlively : c'.Lively := .of_plan (show c'.plan = some plan from hplan) hhealthy hidle
      fun hupdating => by cases hupdating
    have hat : At True .left c' s := hlively.viable hstate
    exact (snapshot_at hat).bind fun _ _ h' => h'
  · rw [transitionTo_completed hstate]
    exact .of_ended rfl

theorem faulty_running (what : String) (fault : PlanFault) (hstate : c.state = .running) :
    Leads (faulty c what fault) (fun c' _ => c'.Viable) s := by
  cases fault with
  | invalid message => exact fail_running _ hstate
  | escaped typeName message => exact thrown_running _ hstate

theorem completePlanning_leads (hcodec : strategy.codec.Filled) (hstate : c.state = .running)
    (state : PlanningState) (content : String) :
    Leads (strategy.completePlanning agent c state content) (fun c' _ => c'.Viable) s := by
  unfold completePlanning
  cases hparse : (strategy.parseGeneratedPlan content agent.providerName).bind supported with
  | error fault => exact faulty_running _ fault hstate
  | ok plan =>
    obtain ⟨parsed, hparsed, hsupported⟩ := Except.bind_ok.mp hparse
    rw [supported_ok hsupported]
    have hnew : NewPlan parsed := parseGeneratedPlan_ok hparsed
    obtain ⟨hhealthy, hpending⟩ :=
      ExecutionPlan.Healthy.of_new hnew (parseGeneratedPlan_filled hcodec hparsed)
    refine (update_running true hstate).bind fun c' s' h' => ?_
    rw [h']
    have hlively : (setPlanning (c.withPlan parsed) { state with phase := .executing }).Lively :=
      .executing rfl hhealthy (.inl (.inr hpending)) rfl
    exact hlively.viable hstate

theorem replanned_open {updated : ExecutionPlan} {content : String} {changed : Bool}
    (hhealthy : plan.Healthy) (hidle : plan.idle = true) (hopen : plan.Open)
    (h : strategy.replanned plan content = .ok (updated, changed)) :
    updated.Healthy ∧ updated.idle = true ∧ updated.Open := by
  rcases replanned_ok h with ⟨-, rfl⟩ | ⟨-, steps, count, hpending, rfl, hvalid⟩
  · exact ⟨hhealthy, hidle, hopen⟩
  · obtain ⟨hhealthy', hopen'⟩ := hhealthy.merged hpending hvalid
    exact ⟨hhealthy', ExecutionPlan.idle_merged hpending, hopen'⟩

theorem completeUpdating_leads (h : c.Lively) (hstate : c.state = .running)
    (hphase : c.phase = some .updating) (state : PlanningState) (content : String) :
    Leads (strategy.completeUpdating c state content) (fun c' _ => c'.Viable) s := by
  unfold completeUpdating requirePlan
  cases hplan : c.plan with
  | none => exact thrown_running _ hstate
  | some plan =>
    obtain ⟨hhealthy, hsuits⟩ := h.1 plan hplan
    rw [hphase] at hsuits
    simp only [orRaise, lift, bind_eq, ret_bind]
    cases hreplan : strategy.replanned plan content with
    | error fault => exact faulty_running _ fault hstate
    | ok result =>
      obtain ⟨updated, changed⟩ := result
      obtain ⟨hhealthy', hidle', hopen'⟩ :=
        replanned_open hhealthy hsuits (h.2 plan hplan hphase) hreplan
      have hreviewed : ∀ s₁, Leads (reviewed c updated changed)
          (fun c' _ => c'.state = .running ∧ c'.plan = some updated) s₁ := by
        intro s₁
        rcases replanned_ok hreplan with ⟨rfl, rfl⟩ | ⟨rfl, -⟩
        · exact ⟨hstate, hplan⟩
        · refine (update_running true hstate).weaken fun c' _ h' => ?_
          rw [h']
          exact ⟨hstate, rfl⟩
      have hat : (course True).At .left c s := h.viable hstate
      refine (Course.emit_leads _ hat).bind fun _ s₁ _ => ?_
      refine (hreviewed s₁).bind fun c' s' h' => ?_
      obtain ⟨hstate', hplan'⟩ := h'
      split
      · exact finish_running hstate' hplan' hhealthy' hidle'
      · have hlively : (setPlanning c'
            { state with phase := .executing, completedStepId := none }).Lively :=
          .executing hplan' hhealthy' (.inl hopen') rfl
        exact hlively.viable hstate'

theorem afterStep_leads (hstate : c.state = .running) (hplan : c.plan = some plan)
    (hphase : c.phase = some .executing) (hhealthy : plan.Healthy) (hidle : plan.idle = true)
    (hopen : plan.Open) (state : PlanningState) (stepId : String) :
    Leads (strategy.afterStep agent c state plan stepId) (fun c' _ => c'.Viable) s := by
  unfold afterStep
  split
  · simp only
    split
    · exact thrown_running _ hstate
    · rename_i step _
      let state' : PlanningState :=
        { state with phase := .updating, completedStepId := some stepId }
      cases strategy.capabilities agent (setPlanning c state') with
      | error e => exact thrown_running _ hstate
      | ok tools =>
        let c' := (setPlanning c state').append
          (.user (strategy.replanningPrompt (setPlanning c state') plan step tools))
        have hlively : c'.Lively :=
          .of_plan (show c'.plan = some plan from hplan) hhealthy hidle fun _ => hopen
        have hat : At True .left c' s := hlively.viable hstate
        exact (snapshot_at hat).bind fun _ _ h' => h'
  · split
    · exact finish_running hstate hplan hhealthy hidle
    · have hlively : c.Lively := .executing hplan hhealthy (.inl hopen) hphase
      exact hlively.viable hstate

theorem completeWith_leads (hstate : c.state = .running) (hhealthy : plan.Healthy)
    {state : PlanningState} (hphase : state.phase = .executing) (stepId : String)
    {result : JsonValue} {success : Option Bool} {attachments : List String}
    {metadata : List (String × JsonValue)} :
    Leads (strategy.completeWith agent c state stepId
      (plan.completeStep stepId result success attachments metadata)) (fun c' _ => c'.Viable) s := by
  have hstate' : (setPlanning c state).state = .running := hstate
  unfold completeWith
  cases hcomplete : plan.completeStep stepId result success attachments metadata with
  | error e => exact thrown_running _ hstate
  | ok plan' =>
    obtain ⟨hhealthy', hidle', hopen'⟩ := hhealthy.completed hcomplete
    refine (update_running false hstate').bind fun c' s' h' => ?_
    rw [h']
    have hrunning : ((setPlanning c state).withPlan plan').state = .running := hstate
    refine afterStep_leads hrunning rfl ?_ hhealthy' hidle' hopen' state stepId
    show some state.phase = _
    rw [hphase]

theorem completeExecuting_leads (h : c.Lively) (hstate : c.state = .running)
    {state : PlanningState} (hphase : state.phase = .executing) (content : String) :
    Leads (strategy.completeExecuting agent c state content) (fun c' _ => c'.Viable) s := by
  unfold completeExecuting requirePlan
  cases hplan : c.plan with
  | none => exact thrown_running _ hstate
  | some plan =>
    obtain ⟨hhealthy, -⟩ := h.1 plan hplan
    simp only [orRaise, lift, bind_eq, ret_bind]
    cases plan.stepWithStatus .running with
    | none => exact fail_running _ hstate
    | some running =>
      simp only
      split
      · cases strategy.parseReactResult content with
        | error fault => exact faulty_running _ fault hstate
        | ok react =>
          have hphase' : ({ state with react := none } : PlanningState).phase = .executing := hphase
          exact completeWith_leads hstate hhealthy hphase' running.id
      · exact completeWith_leads hstate hhealthy hphase running.id

theorem completeResponse_leads (hcodec : strategy.codec.Filled) (h : c.Lively)
    (hstate : c.state = .running) (content : String) :
    Leads (strategy.completeResponse agent c content) (fun c' _ => c'.Viable) s := by
  unfold completeResponse
  have hlively : (setPlanning c (c.supervision.planning.getD { phase := .executing })).Lively :=
    h.planning fun _ => rfl
  generalize c.supervision.planning.getD { phase := .executing } = state at hlively
  have hstate' : (setPlanning c state).state = .running := hstate
  simp only
  cases hphase : state.phase with
  | planning => exact completePlanning_leads hcodec hstate' state content
  | updating =>
    refine completeUpdating_leads hlively hstate' ?_ state content
    show some state.phase = _
    rw [hphase]
  | executing => exact completeExecuting_leads hlively hstate' hphase content
  | summarizing =>
    rw [transitionTo_completed hstate']
    exact .of_ended rfl

/-! ## The turn -/

/-- The methods of the planning strategy keep the context viable. -/
theorem hookSpec (hcodec : strategy.codec.Filled) (agent : Agent) :
    (course True).HookSpec (strategy.hooks agent) where
  ask {c s tools} h hstate hbatch _ := by
    have hat : At True .rest c s := h
    refine (hat.allowed {}).mono fun _ _ h' => ?_
    exact ⟨h', fun _ _ => ⟨h', hstate, hbatch⟩⟩
  before := Course.PlanSpec.beforeModelRequest_leads
  selected := Course.PlanSpec.emitReact_leads _
  recorded := Course.PlanSpec.emitReact_leads _
  iterated := Course.PlanSpec.emitReact_leads _
  complete text h hstate _ := completeResponse_leads hcodec (h.1.lively (.inr hstate)) hstate text
  fail text _ hstate := fail_running text hstate
  wait h := wait_leads h

theorem turn_leads (hcodec : strategy.codec.Filled) (h : c.Lively) (hengaged : c.Engaged)
    (hstate : c.state = .running) :
    Leads (strategy.turn agent c) (fun c' _ => c'.Viable) s := by
  have hat : (course True).At .rest c s := ⟨h.viable hstate, fun _ => hengaged⟩
  refine ((hookSpec hcodec agent).advance_leads agent hstate hat).bind fun c' s' h' => ?_
  exact settle_leads h'

theorem advanceUnplanned_leads (hcodec : strategy.codec.Filled) (hstate : c.state = .running)
    (hplan : c.plan = none) (state : PlanningState) :
    Leads (strategy.advanceUnplanned agent c state) (fun c' _ => c'.Viable) s := by
  have hprompted : Leads (strategy.addPrompt agent c state)
      (fun c' _ => c'.state = .running ∧ c'.plan = none) s := by
    unfold addPrompt
    split
    · exact ⟨hstate, hplan⟩
    · cases strategy.capabilities agent c with
      | error e => exact thrown_running _ hstate
      | ok tools =>
        let c' := setPlanning (c.append (.user (planningPrompt c tools)))
          { state with promptAdded := true }
        have hat : At True .fresh c' s := hstate
        exact (snapshot_at hat).bind fun _ _ _ => ⟨hstate, hplan⟩
  unfold advanceUnplanned
  split
  · exact thrown_running _ hstate
  · split
    · exact fail_running _ hstate
    · refine hprompted.bind fun c' s' h' => ?_
      refine turn_leads hcodec (.of_unplanned h'.2) (fun plan hsome => ?_) h'.1
      rw [h'.2] at hsome
      cases hsome

theorem advanceStep_leads (hcodec : strategy.codec.Filled) (h : c.Lively) (hengaged : c.Engaged)
    (hstate : c.state = .running) (running : PlanStep) :
    Leads (strategy.advanceStep agent c running) (fun c' _ => c'.Viable) s := by
  unfold advanceStep
  simp only
  split
  · exact fail_running _ hstate
  · exact turn_leads hcodec h hengaged hstate

theorem handleNoReadyStep_leads (hstate : c.state = .running) (hplan : c.plan = some plan)
    (hhealthy : plan.Healthy) (hidle : plan.idle = true) :
    Leads (strategy.handleNoReadyStep c plan) (fun c' _ => c'.Viable) s := by
  unfold handleNoReadyStep
  split
  · exact finish_running hstate hplan hhealthy hidle
  · exact fail_running _ hstate

/-- The turn of a plan that is being executed and none of whose steps is waiting. -/
theorem advanceReady_leads (hcodec : strategy.codec.Filled) (h : c.Lively)
    (hstate : c.state = .running) (hplan : c.plan = some plan) (hphase : c.phase = some .executing)
    (hwaiting : plan.stepWithStatus .running = none → plan.stepWithStatus .waiting = none) :
    Leads (strategy.advanceReady agent c plan) (fun c' _ => c'.Viable) s := by
  obtain ⟨hhealthy, -⟩ := h.1 plan hplan
  unfold advanceReady
  cases hrunning : plan.stepWithStatus .running with
  | some running =>
    refine advanceStep_leads hcodec h (fun other hother => ?_) hstate running
    cases hplan.symm.trans hother
    rw [hrunning]
    exact .inr (.inr (by simp))
  | none =>
    have hidle := Course.PlanSpec.idle_of_stepWithStatus hrunning (hwaiting hrunning)
    simp only
    cases plan.readySteps with
    | nil => exact handleNoReadyStep_leads hstate hplan hhealthy hidle
    | cons step rest =>
      refine replace_running false hstate fun plan' s' hstart => ?_
      obtain ⟨hhealthy', hrunning'⟩ := hhealthy.started hidle hstart
      have hbusy := ExecutionPlan.busy_of_stepWithStatus hrunning' rfl
      have hlively : (c.withPlan plan').Lively := .executing rfl hhealthy' (.inr hbusy) hphase
      have hengaged : (c.withPlan plan').Engaged := by
        intro other hother
        cases hother
        exact .inr (.inr hrunning')
      have hprompted : ∀ message, Leads
          ((saveContextSnapshot ((c.withPlan plan').append message)).bind fun _ =>
            strategy.advanceStep agent ((c.withPlan plan').append message) step)
          (fun c' _ => c'.Viable) s' := by
        intro message
        have hlively' : ((c.withPlan plan').append message).Lively := hlively.same rfl rfl
        have hengaged' : ((c.withPlan plan').append message).Engaged := hengaged.same rfl rfl
        have hat : At True .fresh ((c.withPlan plan').append message) s' := hstate
        refine (snapshot_at hat).bind fun _ _ _ => ?_
        exact advanceStep_leads hcodec hlively' hengaged' hstate step
      exact hprompted _

theorem advancePlan_leads (hcodec : strategy.codec.Filled) (h : c.Lively)
    (hstate : c.state = .running) (hplan : c.plan = some plan)
    (hphase : c.phase = some .executing) :
    Leads (strategy.advancePlan agent c plan) (fun c' _ => c'.Viable) s := by
  obtain ⟨hhealthy, -⟩ := h.1 plan hplan
  unfold advancePlan
  cases hwaiting : plan.stepWithStatus .waiting with
  | none => exact advanceReady_leads hcodec h hstate hplan hphase fun _ => hwaiting
  | some waiting =>
    refine replace_running false hstate fun plan' s' hresume => ?_
    obtain ⟨hhealthy', hrunning⟩ := hhealthy.resumed hresume
    have hbusy := ExecutionPlan.busy_of_stepWithStatus hrunning rfl
    have hlively : (c.withPlan plan').Lively := .executing rfl hhealthy' (.inr hbusy) hphase
    exact advanceReady_leads hcodec hlively hstate rfl hphase fun hnone => absurd hnone hrunning

theorem advance_leads (hcodec : strategy.codec.Filled) (h : c.Lively)
    (hstate : c.state = .running) :
    Leads (strategy.advance agent c) (fun c' _ => c'.Viable) s := by
  have hlively : (setPlanning c (c.supervision.planning.getD
      { phase := if c.plan.isNone && c.planningRequested then .planning else .executing })).Lively :=
    h.planning fun hplan => by simp [hplan]
  unfold advance
  generalize c.supervision.planning.getD
    { phase := if c.plan.isNone && c.planningRequested then .planning else .executing } = state
    at hlively
  have hstate' : (setPlanning c state).state = .running := hstate
  simp only
  cases hplan : (setPlanning c state).plan with
  | none => exact advanceUnplanned_leads hcodec hstate' hplan state
  | some plan =>
    simp only
    cases validateExecutors plan with
    | error message => exact thrown_running _ hstate'
    | ok u =>
      have hphase : (setPlanning c state).phase = some state.phase := rfl
      cases hcase : state.phase with
      | summarizing =>
        rw [hcase] at hphase
        exact turn_leads hcodec hlively (fun _ _ => .inr (.inl hphase)) hstate'
      | updating =>
        rw [hcase] at hphase
        exact turn_leads hcodec hlively (fun _ _ => .inl hphase) hstate'
      | planning =>
        have hsuits := (hlively.1 plan hplan).2
        rw [hphase, hcase] at hsuits
        exact hsuits.elim
      | executing =>
        rw [hcase] at hphase
        exact advancePlan_leads hcodec hlively hstate' hplan hphase

theorem turns (agent : Agent) (strategy : OrchestrationStrategy)
    (hcodec : ∀ planner, strategy = .planning planner → planner.codec.Filled) :
    (course False).Turns strategy agent := by
  cases strategy with
  | modelTool =>
    have hooks : (course False).HookSpec (ModelToolStrategy.hooks agent) := by
      apply Course.HookSpec.ofModelTool
      · intro c s tools h hstate hbatch _
        have hat : At False .rest c s := h
        refine (hat.allowed {}).mono fun _ _ h' => ?_
        exact ⟨h', fun _ _ => ⟨h', hstate, hbatch⟩⟩
      · intro c s text h hstate
        exact .of_ended rfl
    exact hooks.turns (fun h => ⟨h, fun hfalse => hfalse.elim⟩) fun h => h
  | planning planner =>
    refine ⟨fun {c s} h hstate => ?_, fun {c s} h => ?_⟩
    · have hlively := h.1.lively (.inr hstate)
      exact (advance_leads (hcodec planner rfl) hlively hstate).weaken
        fun _ _ h' => ⟨h', fun hfalse => hfalse.elim⟩
    · show Leads (settleTerminalPlan c) (fun c' _ => c'.state ≠ .running → c'.Viable) s
      by_cases hstate : c.state = .running
      · rw [Course.PlanSpec.settleTerminalPlan_running hstate]
        exact h
      · exact (settle_leads (h hstate)).weaken fun _ _ h' _ => h'

/-! ## The executions -/

/-- The executions of a Run, none of which begins with a context that is stuck. -/
def lifecycle : (course False).Lifecycle where
  Entry c _ := c.Viable ∧ (c.state = .waiting → c.Lively)
  Ended _ := True
  Done result s := result.status = .waiting → ∀ checkpoint, s = some checkpoint →
    checkpoint.restore.Lively ∧ checkpoint.restore.state = .waiting
  refused _ := trivial
  opens {c s} h _ := by
    have hat : At False .rest c s := ⟨h.1, fun hfalse => hfalse.elim⟩
    refine (hat.allowed {}).mono fun _ _ h' => ?_
    exact ⟨fun _ => h', fun _ _ => trivial⟩
  started {c s} h hstate := by
    have hlively : ({ c with state := .running } : RuntimeContext).Lively :=
      (h.1.lively (.inl hstate)).same rfl rfl
    exact ⟨hlively.viable rfl, fun hfalse => hfalse.elim⟩
  resumes {c s} h hstate := by
    have hlively : c.resumed.Lively := (h.2 hstate).same rfl rfl
    exact ⟨hlively.viable rfl, fun hfalse => hfalse.elim⟩
  finishes h _ := h.1
  caught {c s e} text h _ := by
    have hended : (c.endedWith .failed text).Viable := .of_errorStatus rfl
    exact ⟨fun _ _ => hended, fun hstate _ => (h hstate).same rfl rfl rfl⟩
  interrupts {c s} h := by
    have hat : At False .ended c s := h
    refine (hat.allowed {}).mono fun r s' h' => ⟨?_, fun e _ => h'⟩
    intro run status text _ hstatus
    refine ⟨fun _ hstate => (h' hstate).same rfl rfl rfl, fun _ _ => .of_errorStatus ?_⟩
    show status.errorStatus = true
    rcases hstatus with rfl | rfl
    · rfl
    · rfl
  failed _ := trivial
  ends _ _ := trivial
  checkpoint {c s checkpoint} h hcheckpoint := by
    obtain ⟨-, hrestore⟩ := RuntimeCheckpoint.fromContext_ok hcheckpoint
    refine ⟨fun hshows => hshows, fun r hr => ⟨h, fun hstate saved hsaved => ?_⟩⟩
    cases hsaved
    have hbarren : ¬ checkpoint.restore.Barren := hr
    rw [hrestore] at hbarren ⊢
    have hviable : c.Viable := h (by rw [hstate]; simp)
    have hfit : ({ c with acquired := [] } : RuntimeContext).Fit :=
      (hviable.fit hstate).same rfl rfl
    exact ⟨hfit.lively hbarren, hstate⟩
  unchecked {c s} h hstate :=
    ⟨fun hshows => hshows, fun r _ => ⟨h, fun hwaiting => absurd hwaiting hstate⟩⟩
  final {c s run} h _ := by
    have hat : At False .closed c s := h
    exact hat.allowed {}
  done {c s result} h hresult hwaiting := h.2 (AgentRuntime.buildResult_waiting hresult hwaiting)

def resumption (p : PlanningAgent) (hcodec : ∀ c planner, p.active c = .planning planner →
    planner.codec.Filled) : lifecycle.Resumption p where
  last s := s
  last_next := rfl
  turns {c s} _ := turns p.agent _ (hcodec c)
  reenter {result s checkpoint} h hwaiting hkept := by
    have hdone : result.status = .waiting → ∀ checkpoint, s = some checkpoint →
      checkpoint.restore.Lively ∧ checkpoint.restore.state = .waiting := h
    obtain ⟨hlively, hstate⟩ := hdone hwaiting checkpoint hkept
    exact ⟨hlively.1.viable hstate, fun _ => hlively⟩

end Impasse

/-! ## The plans of a Run -/

open Impasse

section Runs

variable {p : PlanningAgent} {prompt : String} {runId : UUID} {conversationId : Option UUID}
variable {history : List Message} {skills : List Skill} {plan : Option ExecutionPlan}
variable {planning : Bool} {context : RuntimeContext} {log : List RunEntry}
variable {q : RuntimeProg AgentResult}

theorem lively_createContext
    (hcontext : p.createContext prompt runId conversationId history skills plan planning =
      .ok context)
    (hplan : ∀ given, plan = some given → NewPlan given ∧ given.steps ≠ []) : context.Lively := by
  obtain ⟨hsame, hsupervision, -⟩ := PlanningAgent.createContext_ok hcontext
  cases plan with
  | none => exact .of_unplanned hsame
  | some given =>
    obtain ⟨hnew, hsteps⟩ := hplan given rfl
    obtain ⟨hhealthy, hpending⟩ := ExecutionPlan.Healthy.of_new hnew hsteps
    have hphase : context.phase = none := by
      rw [RuntimeContext.phase, hsupervision]
      rfl
    apply RuntimeContext.Lively.of_plan hsame hhealthy
    · rw [hphase]
      exact .inl (.inr hpending)
    · exact fun _ => .inr hpending

theorem no_turn_stuck
    (hcontext : p.createContext prompt runId conversationId history skills plan planning =
      .ok context)
    (hplan : ∀ given, plan = some given → NewPlan given ∧ given.steps ≠ [])
    (hcodec : ∀ c planner, p.active c = .planning planner → planner.codec.Filled)
    (h : Lineage p context log q) (hbarren : ∀ e ∈ log, ¬ StoresBarren e.op) :
    ∀ e ∈ log, ¬ ShowsStuck e.op := by
  have hlively := lively_createContext hcontext hplan
  obtain ⟨-, -, hstate, -⟩ := PlanningAgent.createContext_ok hcontext
  have hentry : lifecycle.Entry context none := by
    refine ⟨⟨fun _ => hlively, fun hwaiting => ?_⟩, fun _ => hlively⟩
    rw [hstate] at hwaiting
    cases hwaiting
  have hexpected : observer.Expected none log :=
    Observer.expected_of_forall (fun _ => hbarren) none
  have hadmitted := (h.ends (resumption p hcodec) rfl hentry hexpected).1
  intro e he
  obtain ⟨i, hi⟩ := List.mem_iff_getElem?.mp he
  exact hadmitted.at hi

/-- A plan whose steps are pending or satisfied has a ready step as long as one is pending.  In a
Run that is never suspended while the updating phase asks for the steps of a plan that has none
left, no turn fails for want of a step: the supervisor is shown no context that is stuck
before it, and what the failure would say makes no difference to it. -/
theorem never_stuck
    (hcontext : p.createContext prompt runId conversationId history skills plan planning =
      .ok context)
    (hplan : ∀ given, plan = some given → NewPlan given ∧ given.steps ≠ [])
    (hcodec : ∀ c planner, p.active c = .planning planner → planner.codec.Filled)
    (h : Lineage p context log q) (hbarren : ∀ e ∈ log, ¬ StoresBarren e.op) :
    (∀ held : ExecutionPlan, held.validateGraph = .ok () →
      (∀ step ∈ held.steps, step.status = .pending ∨ step.status = .completed ∨
        step.status = .skipped) →
      (∃ step ∈ held.steps, step.status = .pending) → held.readySteps ≠ []) ∧
      (∀ e ∈ log, ¬ ShowsStuck e.op) ∧
      ∀ e ∈ log, ∀ shown, e.op = .beforeModel shown → ∀ c, shown.Alike c →
        ∀ planner text, advanceSaying planner p.agent text c = advance planner p.agent c := by
  have hturns : ∀ e ∈ log, ¬ ShowsStuck e.op := no_turn_stuck hcontext hplan hcodec h hbarren
  refine ⟨?_, hturns, ?_⟩
  · intro held hvalid hsteps hpending
    exact ExecutionPlan.ready_of_accepted hvalid hsteps hpending
  · intro e he shown hshown c halike planner text
    apply advanceSaying_eq
    intro hstuck
    apply hturns e he
    rw [hshown]
    exact hstuck.same halike.plan.symm halike.phase.symm

end Runs

def noSteps : String := "\x7b\"steps\":[]\x7d"

/-- A strategy that reads `noSteps` and no other JSON. -/
def reviewPlanner : PlanningStrategy where
  codec := { plainPlanner.codec with
    loads := fun text =>
      if text = noSteps then .ok (.obj [("steps", .list [])]) else plainPlanner.codec.loads text }
  summarize := false

/-- An Agent that books, and has its plan reviewed after each step. -/
def reviewAgent : PlanningAgent where
  agent := plainAgent [bookTool]
  strategy := .modelTool
  planningStrategy := some (.planning reviewPlanner)

def oneStep : ExecutionPlan where
  id := "trip"
  title := "Trip"
  steps := [{ id := "book", description := "Book." }]

/-- The context of a Run that executes `oneStep`. -/
def reviewContext : RuntimeContext where
  runId := 0
  profile := (plainAgent [bookTool]).profile
  messages := [.system "Answer.", .user "Go."]
  enabledToolNames := ["book"]
  plan := some oneStep
  inputText := "Go."

/-- A model that books once: in the executing phase, where Tools are offered, or in the updating
phase.  The Tool asks where to. -/
def askingEnv (offered : Bool) : RuntimeEnv :=
  plainEnv
    (fun request =>
      if request.tools.isEmpty ≠ offered ∧ request.messages.all (·.role ≠ .tool) then bookResponse
      else { content := some noSteps, valid := .inl (by simp) })
    fun _ => .waitForInput "Where to?" []

def askedRun : RuntimeProg AgentResult := reviewAgent.execute 9 reviewContext none none

def askedLog (offered : Bool) : List RunEntry :=
  transcript (askingEnv offered).exec askedRun {}

def answeredRun (offered : Bool) : RuntimeProg AgentResult :=
  match lastCheckpoint (askedLog offered) with
  | some checkpoint => reviewAgent.execute 9 checkpoint.restore (some "Paris.") none
  | none => .raise .cancelled

def answered (offered : Bool) : Except RuntimeError AgentResult :=
  ((answeredRun offered).eval (askingEnv offered).exec
    (askedRun.eval (askingEnv offered).exec {}).2).1

def answeredLog (offered : Bool) : List RunEntry :=
  askedLog offered ++ transcript (askingEnv offered).exec (answeredRun offered)
    (askedRun.eval (askingEnv offered).exec {}).2

theorem lineage_answered (offered : Bool) :
    Lineage reviewAgent reviewContext (answeredLog offered) (.ofExcept (answered offered)) := by
  have hasked : Lineage reviewAgent reviewContext (askedLog offered)
      (.ofExcept (askedRun.eval (askingEnv offered).exec {}).1) := (Lineage.start 9).alone
  have hended : ∃ result, (askedRun.eval (askingEnv offered).exec {}).1 = .ok result ∧
      result.status = .waiting := by
    cases offered
    · exact ⟨_, rfl, rfl⟩
    · exact ⟨_, rfl, rfl⟩
  have hlast : ∃ checkpoint, lastCheckpoint (askedLog offered) = some checkpoint := by
    cases offered
    · exact ⟨_, rfl⟩
    · exact ⟨_, rfl⟩
  obtain ⟨result, hresult, hwaiting⟩ := hended
  obtain ⟨checkpoint, hcheckpoint⟩ := hlast
  rw [hresult] at hasked
  have hresumed := hasked.resume hwaiting hcheckpoint 9 (some "Paris.") none
  have hrun : answeredRun offered =
      reviewAgent.execute 9 checkpoint.restore (some "Paris.") none := by
    rw [answeredRun, hcheckpoint]
  rw [← hrun] at hresumed
  exact hresumed.alone

theorem createContext_review :
    reviewAgent.createContext "Go." 0 none [] [] (some oneStep) false = .ok reviewContext := rfl

theorem newPlan_oneStep : NewPlan oneStep := ⟨by decide, rfl, by decide⟩

/-- The Run that waits in the updating phase after its only step is stuck once it is answered, and
fails. -/
theorem stuck_answered :
    reviewAgent.createContext "Go." 0 none [] [] (some oneStep) false = .ok reviewContext ∧
      NewPlan oneStep ∧
      (∃ q, Lineage reviewAgent reviewContext (answeredLog false) q) ∧
      ¬ (∀ e ∈ answeredLog false, ¬ ShowsStuck e.op) ∧
      (answered false).map (fun result => (result.status, result.error)) =
        .ok (.failed, some "execution plan has no ready or active step") :=
  ⟨createContext_review, newPlan_oneStep, ⟨_, lineage_answered false⟩, by decide,
    by decide⟩

/-- The Run that waits in its step completes. -/
theorem never_stuck_answered :
    (answered true).map (·.status) = .ok .completed ∧
      ∀ e ∈ answeredLog true, ¬ ShowsStuck e.op := by
  have hcodec : ∀ c planner, reviewAgent.active c = .planning planner → planner.codec.Filled := by
    intro c planner hactive payload plan hfields
    have hplanner : planner = reviewPlanner := by
      unfold PlanningAgent.active at hactive
      split at hactive
      · exact (OrchestrationStrategy.planning.inj hactive).symm
      · cases hactive
    rw [hplanner] at hfields
    cases hfields
  have hplan : ∀ given, some oneStep = some given → NewPlan given ∧ given.steps ≠ [] := by
    intro given hgiven
    cases hgiven
    exact ⟨newPlan_oneStep, by decide⟩
  have hbarren : ∀ e ∈ answeredLog true, ¬ StoresBarren e.op := by decide
  exact ⟨rfl, (never_stuck createContext_review hplan hcodec (lineage_answered true) hbarren).2.1⟩

end Runtime
end BaseAgent

import BaseAgent.Planning.Operations
import BaseAgent.Planning.Steady

/-!
# Terminal Runs

A terminal Run that is stored has no pending input and no plan step under way, as long as it is
the execution itself that ends it: the snapshot of a context takes status, pending input and plan
together, and `_settle_terminal_plan` ends the steps of the plan first.  `request_cancellation` of
a waiting Run and `finalize_task_interruption` only set the status, so what they find has to be
idle already.
-/

namespace BaseAgent
namespace Runtime

open Async Prog PlanningStrategy

/-- The Run has no pending input and no step under way. -/
structure Run.Idle (run : Run) : Prop where
  pending : run.pendingInput = none
  plan : ∀ plan, run.plan = some plan → plan.idle = true

/-- Every terminal Run is idle. -/
def RuntimeWorld.Coherent (w : RuntimeWorld) : Prop :=
  ∀ runId run, w.runs runId = some run → run.status.terminal = true → run.Idle

def OrchestrationStrategy.plans : OrchestrationStrategy → Bool
  | modelTool => false
  | planning _ => true

/-! ## The context -/

/-- What holds of the context of an execution.  `plans` says whether the strategy settles the
plan. -/
structure Keeps (p : PlanningAgent) (plans : Bool) (c : RuntimeContext) : Prop where
  active : (p.active c).plans = plans
  closed : ∀ plan, c.plan = some plan → plan.Closed ∧ (plans = false → plan.idle = true)
  summarizing : c.phase = some .summarizing → ∀ plan, c.plan = some plan → plan.idle = true
  completed : c.state = .completed → ∀ plan, c.plan = some plan → plan.idle = true
  pending : c.pendingInput ≠ none → c.state = .waiting

/-- A terminal context has no step under way. -/
def RuntimeContext.Tidy (c : RuntimeContext) : Prop :=
  c.state.terminal = true → ∀ plan, c.plan = some plan → plan.idle = true

namespace Keeps

variable {p : PlanningAgent} {plans : Bool} {a b c : RuntimeContext} {plan plan' : ExecutionPlan}

theorem active_eq (hplan : b.plan = a.plan) (hrequested : b.planningRequested = a.planningRequested) :
    p.active b = p.active a := by
  unfold PlanningAgent.active
  rw [hplan, hrequested]

/-- A change that leaves the plan and the phase, and does not complete the Run. -/
theorem moved (h : Keeps p plans a) (hplan : b.plan = a.plan)
    (hrequested : b.planningRequested = a.planningRequested) (hphase : b.phase = a.phase)
    (hcompleted : b.state = .completed → a.state = .completed)
    (hpending : b.pendingInput ≠ none → b.state = .waiting) : Keeps p plans b where
  active := by
    rw [active_eq hplan hrequested]
    exact h.active
  closed := by
    rw [hplan]
    exact h.closed
  summarizing := by
    rw [hplan, hphase]
    exact h.summarizing
  completed := by
    rw [hplan]
    exact fun hstate => h.completed (hcompleted hstate)
  pending := hpending

theorem alike (h : Keeps p plans a) (halike : a.Alike b) : Keeps p plans b := by
  apply h.moved halike.plan halike.planningRequested halike.phase
  · intro hstate
    exact halike.state.symm.trans hstate
  · rw [halike.pendingInput, halike.state]
    exact h.pending

theorem noPending (h : Keeps p plans c) (hstate : c.state ≠ .waiting) : c.pendingInput = none := by
  by_contra hsome
  exact hstate (h.pending hsome)

theorem endedWith (h : Keeps p plans c) (hpending : c.pendingInput = none) {status : RunStatus}
    (text : String) (hstatus : status.errorStatus = true) :
    Keeps p plans (c.endedWith status text) := by
  apply h.moved (b := c.endedWith status text) rfl rfl rfl
  · intro hstate
    have hcompleted : status = .completed := hstate
    rw [hcompleted] at hstatus
    cases hstatus
  · exact fun hsome => absurd hpending hsome

theorem withPlan (h : Keeps p plans c) (hplans : plans = true) (hplan : c.plan = some plan)
    (hclosed : plan'.Closed)
    (hidle : c.phase = some .summarizing → plan.idle = true → plan'.idle = true)
    (hstate : c.state = .completed → plan'.idle = true) :
    Keeps p plans (c.withPlan plan') where
  active := by
    have hsame : p.active (c.withPlan plan') = p.active c := by
      simp [PlanningAgent.active, RuntimeContext.withPlan, hplan]
    rw [hsame]
    exact h.active
  closed := by
    intro other hother
    cases hother
    refine ⟨hclosed, fun hfalse => ?_⟩
    rw [hplans] at hfalse
    cases hfalse
  summarizing := by
    intro hphase other hother
    cases hother
    exact hidle hphase (h.summarizing hphase plan hplan)
  completed := by
    intro hcompleted other hother
    cases hother
    exact hstate hcompleted
  pending := h.pending

/-- A plan that is written while planning has no step under way. -/
theorem generated (h : Keeps p plans c) (hunplanned : c.Unplanned)
    (hpending : ∀ step ∈ plan.steps, step.status = .pending) :
    Keeps p plans (c.withPlan plan) := by
  have hidle : plan.idle = true := by
    apply List.all_eq_true.mpr
    intro step hmem
    rw [hpending step hmem]
    rfl
  constructor
  · have hsame : p.active (c.withPlan plan) = p.active c := by
      simp [PlanningAgent.active, RuntimeContext.withPlan, hunplanned.2]
    rw [hsame]
    exact h.active
  · intro other hother
    cases hother
    exact ⟨fun _ => hidle, fun _ => hidle⟩
  · intro _ other hother
    cases hother
    exact hidle
  · intro _ other hother
    cases hother
    exact hidle
  · exact h.pending

theorem setPlanning {state : PlanningState} (h : Keeps p plans c)
    (hidle : state.phase = .summarizing → ∀ plan, c.plan = some plan → plan.idle = true) :
    Keeps p plans (setPlanning c state) where
  active := h.active
  closed := h.closed
  summarizing := fun hphase => hidle (Option.some.inj hphase)
  completed := h.completed
  pending := h.pending

theorem complete (h : Keeps p plans c) (hstate : c.state = .running) (text : String)
    (hidle : ∀ plan, c.plan = some plan → plan.idle = true) :
    Keeps p plans { c with output := some text, state := .completed } where
  active := h.active
  closed := h.closed
  summarizing := h.summarizing
  completed := fun _ => hidle
  pending := by
    intro hsome
    have hwaiting := h.pending hsome
    rw [hstate] at hwaiting
    cases hwaiting

theorem tidy (h : Keeps p plans c) (hsettled : plans = true → c.Settled) : c.Tidy := by
  intro hterminal plan hplan
  obtain ⟨hclosed, hidle⟩ := h.closed plan hplan
  cases hplans : plans with
  | false => exact hidle hplans
  | true =>
    by_cases herror : c.state.errorStatus = true
    · exact hclosed (hsettled hplans herror plan hplan)
    · refine h.completed ?_ plan hplan
      cases hstate : c.state <;> simp_all [RunStatus.terminal, RunStatus.errorStatus]

end Keeps

/-! ## The stores -/

/-- A checkpoint can be executed. -/
structure Ready (p : PlanningAgent) (c : RuntimeContext) : Prop where
  keeps : Keeps p (p.active c).plans c
  planned : c.Planned

/-- Runs are stored under their ids, and every stored checkpoint can be executed. -/
structure Sound (p : PlanningAgent) (w : RuntimeWorld) : Prop where
  keyed : ∀ runId run, w.runs runId = some run → run.id = runId
  stocked : ∀ runId checkpoint, w.checkpoints runId = some checkpoint → Ready p checkpoint.restore

/-- The Run of the context is stored as terminal and its plan is yet to be settled. -/
structure Loose (plans : Bool) (c : RuntimeContext) (w : RuntimeWorld) : Prop where
  plans : plans = true
  state : c.state.errorStatus = true
  error : ∃ text, c.error = some text ∧ isBlank text = false
  others : ∀ runId run, runId ≠ c.runId → w.runs runId = some run → run.status.terminal = true →
    run.Idle
  stored : ∃ run, w.runs c.runId = some run ∧ run.pendingInput = none ∧ run.plan = c.plan

def Calm : RuntimeOp → Prop
  | .createRun _ | .saveRun _ | .requestCancel _ | .saveCheckpoint _ | .claimCheckpoint _
  | .deleteCheckpoint _ => False
  | _ => True

section Stores

variable {p : PlanningAgent} {plans : Bool} {c : RuntimeContext} {w w' : RuntimeWorld}
variable (env : RuntimeEnv)

theorem exec_calm {o : RuntimeOp} (h : Calm o) :
    (env.exec o w).2.runs = w.runs ∧ (env.exec o w).2.checkpoints = w.checkpoints := by
  cases o <;> first | exact ⟨rfl, rfl⟩ | exact h.elim

theorem Sound.of_eq (h : Sound p w) (hruns : w'.runs = w.runs)
    (hcheckpoints : w'.checkpoints = w.checkpoints) : Sound p w' where
  keyed := by
    rw [hruns]
    exact h.keyed
  stocked := by
    rw [hcheckpoints]
    exact h.stocked

theorem Coherent.of_eq (h : w.Coherent) (hruns : w'.runs = w.runs) : w'.Coherent := by
  unfold RuntimeWorld.Coherent
  rw [hruns]
  exact h

theorem Loose.of_eq (h : Loose plans c w) (hruns : w'.runs = w.runs) : Loose plans c w' where
  plans := h.plans
  state := h.state
  error := h.error
  others := by
    rw [hruns]
    exact h.others
  stored := by
    rw [hruns]
    exact h.stored

structure Written (w w' : RuntimeWorld) (run : Run) : Prop where
  runs : ∃ flag, w'.runs =
    Function.update w.runs run.id (some { run with cancelRequested := flag })
  checkpoints : w'.checkpoints = w.checkpoints

theorem saveRun_cases (w : RuntimeWorld) (run : Run) :
    ((∃ stored, w.runs run.id = some stored) ∧ (env.exec (.saveRun run) w).1 = .ok () ∧
        Written w (env.exec (.saveRun run) w).2 run) ∨
      (w.runs run.id = none ∧
        (env.exec (.saveRun run) w).1 = .error (RuntimeWorld.runNotFound run.id) ∧
        (env.exec (.saveRun run) w).2.runs = w.runs ∧
        (env.exec (.saveRun run) w).2.checkpoints = w.checkpoints) := by
  have hexec : env.exec (.saveRun run) w =
      ((w.saveRun run).1, { (w.saveRun run).2 with steps := w.steps + 1 }) := rfl
  rw [hexec]
  cases hstored : w.runs run.id with
  | none =>
    have hsave : w.saveRun run = (.error (RuntimeWorld.runNotFound run.id), w) := by
      simp only [RuntimeWorld.saveRun, hstored]
    rw [hsave]
    exact .inr ⟨rfl, rfl, rfl, rfl⟩
  | some current =>
    have hsave : w.saveRun run = (.ok (), { w with
        runs := Function.update w.runs run.id
          (some { run with
            cancelRequested := run.cancelRequested || current.cancelRequested }) }) := by
      simp only [RuntimeWorld.saveRun, hstored]
    rw [hsave]
    exact .inl ⟨⟨current, rfl⟩, rfl, ⟨⟨_, rfl⟩, rfl⟩⟩

theorem Sound.written (h : Sound p w) {run : Run} (hw : Written w w' run) : Sound p w' where
  keyed := by
    intro runId stored hstored
    obtain ⟨flag, hruns⟩ := hw.runs
    rw [hruns] at hstored
    by_cases hid : runId = run.id
    · subst hid
      rw [Function.update_self] at hstored
      cases hstored
      rfl
    · rw [Function.update_of_ne hid] at hstored
      exact h.keyed runId stored hstored
  stocked := by
    rw [hw.checkpoints]
    exact h.stocked

/-- The written Run is idle or not terminal, the others were coherent. -/
theorem coherent_written {run : Run} (hw : Written w w' run)
    (hothers : ∀ runId other, runId ≠ run.id → w.runs runId = some other →
      other.status.terminal = true → other.Idle)
    (hrun : run.status.terminal = true → run.Idle) : w'.Coherent := by
  intro runId stored hstored hterminal
  obtain ⟨flag, hruns⟩ := hw.runs
  rw [hruns] at hstored
  by_cases hid : runId = run.id
  · subst hid
    rw [Function.update_self] at hstored
    cases hstored
    have hidle := hrun hterminal
    exact ⟨hidle.pending, hidle.plan⟩
  · rw [Function.update_of_ne hid] at hstored
    exact hothers runId stored hid hstored hterminal

end Stores

/-! ## The turns -/

/-- What the place adds: after the plan is settled, a terminal context has no step under way. -/
def Mode.Tidied : Mode → RuntimeContext → Prop
  | .settled, c | .closed, c => c.Tidy
  | _, _ => True

/-- What is known of the context and the stores at each place. -/
structure Standing (p : PlanningAgent) (plans : Bool) (m : Mode) (c : RuntimeContext)
    (w : RuntimeWorld) : Prop where
  steady : Steady m c
  keeps : Keeps p plans c
  sound : Sound p w
  coherent : w.Coherent ∨ (m = .left ∧ Loose plans c w)
  tidied : m.Tidied c := by trivial

namespace Standing

variable {p : PlanningAgent} {plans : Bool} {env : RuntimeEnv}
variable {m : Mode} {c : RuntimeContext} {w w' : RuntimeWorld}

theorem coherent_of_ne (h : Standing p plans m c w) (hm : m ≠ .left) : w.Coherent :=
  h.coherent.resolve_right fun hleft => hm hleft.1

theorem of_eq (h : Standing p plans m c w) (hruns : w'.runs = w.runs)
    (hcheckpoints : w'.checkpoints = w.checkpoints) : Standing p plans m c w' where
  steady := h.steady
  keeps := h.keeps
  sound := h.sound.of_eq hruns hcheckpoints
  coherent := h.coherent.imp (fun hc => Coherent.of_eq hc hruns)
    fun hleft => ⟨hleft.1, hleft.2.of_eq hruns⟩
  tidied := h.tidied

theorem calm {o : RuntimeOp} (h : Standing p plans m c w) (ho : Calm o) :
    Standing p plans m c (env.exec o w).2 := by
  obtain ⟨hruns, hcheckpoints⟩ := exec_calm env ho
  exact h.of_eq hruns hcheckpoints

theorem alike {b : RuntimeContext} (h : Standing p plans m c w) (halike : c.Alike b) :
    Standing p plans m b w where
  steady := h.steady.alike halike
  keeps := h.keeps.alike halike
  sound := h.sound
  coherent := by
    refine h.coherent.imp_right fun hleft => ⟨hleft.1, ?_⟩
    have hloose := hleft.2
    constructor
    · exact hloose.plans
    · rw [halike.state]
      exact hloose.state
    · rw [halike.error]
      exact hloose.error
    · rw [halike.runId]
      exact hloose.others
    · rw [halike.runId, halike.plan]
      exact hloose.stored
  tidied := by
    have htidied := h.tidied
    cases m with
    | settled | closed =>
      intro hterminal
      rw [halike.state] at hterminal
      rw [halike.plan]
      exact htidied hterminal
    | _ => trivial

theorem goes {m' : Mode} {b : RuntimeContext} (h : Standing p plans m c w) (hm : m ≠ .left)
    (hsteady : Steady m' b) (hkeeps : Keeps p plans b) (htidied : m'.Tidied b) :
    Standing p plans m' b w where
  steady := hsteady
  keeps := hkeeps
  sound := h.sound
  coherent := .inl (h.coherent_of_ne hm)
  tidied := htidied

end Standing

/-- An exception leaves coherent stores, and an interruption finds no pending input. -/
structure Fallen (p : PlanningAgent) (plans : Bool) (e : RuntimeError) (c : RuntimeContext)
    (w : RuntimeWorld) : Prop where
  steady : Steady .ended c
  keeps : Keeps p plans c
  sound : Sound p w
  coherent : w.Coherent
  pending : e = .cancelled → c.pendingInput = none

/-- The supervisor gives a reason when it stops a Run whose plan is to be settled. -/
def Firm (plans : Bool) (env : RuntimeEnv) : Prop :=
  plans = true → ∀ n c call result reason message status policies,
    env.supervisor.afterTool n c call result = .ok (.stop reason message status, policies) →
      isBlank reason = false

section Turns

variable {p : PlanningAgent} {plans : Bool} {env : RuntimeEnv}
variable {m : Mode} {c : RuntimeContext} {w : RuntimeWorld} {run : Run}

theorem getRun_cases (env : RuntimeEnv) (w : RuntimeWorld) (runId : UUID) :
    (∃ run, w.runs runId = some run ∧ (env.exec (.getRun runId) w).1 = .ok run) ∨
      (w.runs runId = none ∧
        (env.exec (.getRun runId) w).1 = .error (RuntimeWorld.runNotFound runId)) := by
  have hexec : (env.exec (.getRun runId) w).1 = w.getRun runId := rfl
  cases hstored : w.runs runId with
  | none =>
    have hget : w.getRun runId = .error (RuntimeWorld.runNotFound runId) := by
      simp only [RuntimeWorld.getRun, hstored]
    exact .inr ⟨rfl, hexec.trans hget⟩
  | some run =>
    have hget : w.getRun runId = .ok run := by
      simp only [RuntimeWorld.getRun, hstored]
    exact .inl ⟨run, rfl, hexec.trans hget⟩

theorem Standing.fallen (h : Standing p plans m c w) (hcoherent : w.Coherent) {e : RuntimeError}
    (he : e ≠ .cancelled) : Fallen p plans e c w where
  steady := h.steady.ended
  keeps := h.keeps
  sound := h.sound
  coherent := hcoherent
  pending := fun heq => absurd heq he

theorem runNotFound_ne (runId : UUID) : RuntimeWorld.runNotFound runId ≠ .cancelled := by
  simp [RuntimeWorld.runNotFound]

/-- A Run that is not found is not the one of a context whose plan is to be settled. -/
theorem Standing.coherent_of_none (h : Standing p plans m c w) (hnone : w.runs c.runId = none) :
    w.Coherent := by
  refine h.coherent.resolve_right fun hleft => ?_
  obtain ⟨run, hrun, -⟩ := hleft.2.stored
  rw [hnone] at hrun
  cases hrun

theorem Standing.get (h : Standing p plans m c w) :
    Allowed (Observer.ofExec env.exec) w (.getRun c.runId) fun r w' =>
      Standing p plans m c w' ∧ (∀ run, r = .ok run → run.id = c.runId) ∧
        ∀ e, r = .error e → w'.Coherent ∧ e ≠ .cancelled := by
  apply Allowed.ofExec
  obtain ⟨hruns, -⟩ := exec_calm env (o := .getRun c.runId) (w := w) trivial
  refine ⟨h.calm trivial, ?_, ?_⟩
  · intro run hreply
    cases getRun_cases env w c.runId with
    | inl hfound =>
      obtain ⟨stored, hstored, hok⟩ := hfound
      rw [hok] at hreply
      cases hreply
      exact h.sound.keyed c.runId run hstored
    | inr hmissing =>
      rw [hmissing.2] at hreply
      cases hreply
  · intro e hreply
    cases getRun_cases env w c.runId with
    | inl hfound =>
      obtain ⟨stored, hstored, hok⟩ := hfound
      rw [hok] at hreply
      cases hreply
    | inr hmissing =>
      rw [hmissing.2] at hreply
      cases hreply
      exact ⟨Coherent.of_eq (h.coherent_of_none hmissing.1) hruns, runNotFound_ne _⟩

/-- A snapshot is stored: over the Run of the context, or not at all. -/
theorem snapshot_cases (env : RuntimeEnv) (w : RuntimeWorld) (c : RuntimeContext) (run : Run)
    (hread : run.id = c.runId) :
    ((env.exec (.saveRun (c.snapshot run)) w).1 = .ok () ∧
        (∃ stored, w.runs c.runId = some stored) ∧
        Written w (env.exec (.saveRun (c.snapshot run)) w).2 (c.snapshot run)) ∨
      (w.runs c.runId = none ∧
        (∃ e, (env.exec (.saveRun (c.snapshot run)) w).1 = .error e ∧ e ≠ .cancelled) ∧
        (env.exec (.saveRun (c.snapshot run)) w).2.runs = w.runs ∧
        (env.exec (.saveRun (c.snapshot run)) w).2.checkpoints = w.checkpoints) := by
  have hid : (c.snapshot run).id = c.runId := hread
  cases saveRun_cases env w (c.snapshot run) with
  | inl hwritten =>
    obtain ⟨hstored, hok, hw⟩ := hwritten
    rw [hid] at hstored
    exact .inl ⟨hok, hstored, hw⟩
  | inr hmissing =>
    obtain ⟨hnone, herror, hruns, hcheckpoints⟩ := hmissing
    rw [hid] at hnone
    exact .inr ⟨hnone, ⟨_, herror, runNotFound_ne _⟩, hruns, hcheckpoints⟩

/-- A snapshot that is not terminal, or of a context that is idle, leaves coherent stores. -/
theorem Standing.save {m' : Mode} {b : RuntimeContext} (h : Standing p plans m c w)
    (hid : b.runId = c.runId) (hread : run.id = b.runId)
    (hidle : b.state.terminal = true → (b.snapshot run).Idle)
    (hsteady : Steady m' b) (hkeeps : Keeps p plans b) (htidied : m'.Tidied b) :
    Allowed (Observer.ofExec env.exec) w (.saveRun (b.snapshot run)) fun r w' =>
      Standing p plans m' b w' ∧ ∀ e, r = .error e → Fallen p plans e b w' := by
  apply Allowed.ofExec
  have hplace : ∀ w', Sound p w' → w'.Coherent → Standing p plans m' b w' :=
    fun w' hsound hcoherent => ⟨hsteady, hkeeps, hsound, .inl hcoherent, htidied⟩
  cases snapshot_cases env w b run hread with
  | inl hwritten =>
    obtain ⟨hok, -, hw⟩ := hwritten
    have hothers : ∀ runId other, runId ≠ (b.snapshot run).id → w.runs runId = some other →
        other.status.terminal = true → other.Idle := by
      intro runId other hne hother hterminal
      have hne' : runId ≠ c.runId := by
        rw [← hid, ← hread]
        exact hne
      cases h.coherent with
      | inl hcoherent => exact hcoherent runId other hother hterminal
      | inr hleft => exact hleft.2.others runId other hne' hother hterminal
    refine ⟨hplace _ (h.sound.written hw) (coherent_written hw hothers hidle), fun e herror => ?_⟩
    rw [hok] at herror
    cases herror
  | inr hmissing =>
    obtain ⟨hnone, ⟨e, herror, hne⟩, hruns, hcheckpoints⟩ := hmissing
    rw [hid] at hnone
    have hcoherent := Coherent.of_eq (h.coherent_of_none hnone) hruns
    have hat := hplace _ (h.sound.of_eq hruns hcheckpoints) hcoherent
    refine ⟨hat, fun e' herror' => hat.fallen hcoherent ?_⟩
    rw [herror] at herror'
    cases herror'
    exact hne

theorem not_terminal_of_live (hstate : c.state = .running ∨ c.state = .waiting) :
    c.state.terminal = false := by
  cases hstate with
  | inl hrunning =>
    rw [hrunning]
    rfl
  | inr hwaiting =>
    rw [hwaiting]
    rfl

theorem waiting_of_errorStatus (h : c.state.errorStatus = true) : c.state ≠ .waiting := by
  intro hwaiting
  rw [hwaiting] at h
  cases h

theorem Standing.stopped {text : String} (h : Standing p plans .rest c w)
    (hstate : c.state.errorStatus = true) (herror : c.error = some text)
    (htext : plans = true → isBlank text = false) (hread : run.id = c.runId) :
    Allowed (Observer.ofExec env.exec) w (.saveRun (c.snapshot run)) fun r w' =>
      Standing p plans .left c w' ∧ ∀ e, r = .error e → Fallen p plans e c w' := by
  have hcoherent := h.coherent_of_ne (by simp)
  have hpending := h.keeps.noPending (waiting_of_errorStatus hstate)
  cases hplans : plans with
  | false =>
    subst hplans
    refine h.save rfl hread (fun _ => ⟨hpending, fun plan hplan => ?_⟩) h.steady h.keeps trivial
    exact (h.keeps.closed plan hplan).2 rfl
  | true =>
    subst hplans
    apply Allowed.ofExec
    cases snapshot_cases env w c run hread with
    | inl hwritten =>
      obtain ⟨hok, -, hw⟩ := hwritten
      obtain ⟨flag, hruns⟩ := hw.runs
      have hid : (c.snapshot run).id = c.runId := hread
      rw [hid] at hruns
      have hloose : Loose true c (env.exec (.saveRun (c.snapshot run)) w).2 := by
        constructor
        · rfl
        · exact hstate
        · exact ⟨text, herror, htext rfl⟩
        · intro runId other hne hother
          rw [hruns, Function.update_of_ne hne] at hother
          exact hcoherent runId other hother
        · have hstored := (congrFun hruns c.runId).trans (Function.update_self ..)
          exact ⟨_, hstored, hpending, rfl⟩
      refine ⟨⟨h.steady, h.keeps, h.sound.written hw, .inr ⟨rfl, hloose⟩, trivial⟩, fun e he => ?_⟩
      rw [hok] at he
      cases he
    | inr hmissing =>
      obtain ⟨-, ⟨e, he, hne⟩, hruns, hcheckpoints⟩ := hmissing
      have hat := h.of_eq hruns hcheckpoints
      have hcoherent' := Coherent.of_eq hcoherent hruns
      refine ⟨hat.goes (by simp) h.steady h.keeps trivial, fun e' he' => ?_⟩
      rw [he] at he'
      cases he'
      exact hat.fallen hcoherent' hne

def coherence (p : PlanningAgent) (plans : Bool) (env : RuntimeEnv) (hfirm : Firm plans env) :
    Course (Observer.ofExec env.exec) where
  At := Standing p plans
  Thrown := Fallen p plans
  Stops text := plans = true → isBlank text = false
  Read c run := run.id = c.runId
  reason {s o r text} hexpects hstop := by
    have hreply : r = (env.exec o s).1 := hexpects
    subst hreply
    intro hplans
    cases o with
    | afterTool context call result remaining =>
      have hexec : (env.exec (.afterTool context call result remaining) s).1 =
        env.supervisor.afterTool s.steps context call result := rfl
      rw [hexec] at hstop
      cases hanswer : env.supervisor.afterTool s.steps context call result with
      | error e =>
        rw [hanswer] at hstop
        cases hstop
      | ok answer =>
        obtain ⟨d, policies⟩ := answer
        rw [hanswer] at hstop
        cases d with
        | stop reason message status =>
          cases hstop
          exact hfirm hplans _ _ _ _ _ _ _ _ hanswer
        | continue_ => cases hstop
        | redirect reason message => cases hstop
    | _ => cases hstop
  alike halike h := h.alike halike
  tame {m c s o} htame h := by
    apply Allowed.ofExec
    apply h.calm
    cases o <;> trivial
  look h _ := Allowed.ofExec (h.calm trivial)
  get h := h.get.mono fun r w' h' =>
    ⟨h'.1, h'.2.1, fun e he => h'.1.fallen (h'.2.2 e he).1 (h'.2.2 e he).2⟩
  save h hstate hread := by
    refine h.save rfl hread (fun hterminal => ?_) h.steady h.keeps h.tidied
    rw [not_terminal_of_live hstate] at hterminal
    cases hterminal
  stopped h hstate herror htext hread := h.stopped hstate herror htext hread
  running h := h.steady.2
  thrown {c s e} h hstate := by
    refine ⟨h.steady.ended, h.keeps, h.sound, h.coherent_of_ne (by simp), fun _ => ?_⟩
    exact h.keeps.noPending (by rw [hstate]; simp)
  leave {c s status text} h hstate hstatus :=
    h.goes (by simp) (.endedWith text hstatus)
      (h.keeps.endedWith (h.keeps.noPending (by rw [hstate]; simp)) text hstatus) trivial
  left h := h.goes (by simp) h.steady h.keeps trivial
  pause h := h.goes (by simp) h.steady.1 h.keeps trivial
  tail h := h.goes (by simp) h.steady h.keeps trivial
  pop {c s batch} h hstate _ := by
    refine h.goes (by simp) ⟨h.steady, hstate, rfl⟩ ?_ trivial
    exact h.keeps.moved (b := c.popped) rfl rfl rfl (fun hc => hc) h.keeps.pending
  invoke h _ _ := Allowed.ofExec (h.calm trivial)
  hold {response call calls observations c s} h := by
    refine h.goes (by simp) h.steady.1 ?_ trivial
    exact h.keeps.moved (b := c.holding _) rfl rfl rfl (fun hc => hc) h.keeps.pending
  wait {c s pending} h hstate := by
    refine h.goes (by simp) (h.steady.wait hstate pending) ?_ trivial
    refine h.keeps.moved (b := c.awaiting pending) rfl rfl rfl (fun hc => ?_) fun _ => rfl
    cases hc
  waitingState h := h.steady.2
  waited h := h.goes (by simp) h.steady.1 h.keeps trivial

/-! ## The strategies -/

variable {hfirm : Firm plans env}

theorem Loose.settled (h : Loose plans c w) (hkeeps : Keeps p plans c) (hsettled : c.Settled) :
    w.Coherent := by
  obtain ⟨stored, hstored, hpending, hplan⟩ := h.stored
  intro runId run hrun hterminal
  by_cases hid : runId = c.runId
  · subst hid
    rw [hstored] at hrun
    cases hrun
    refine ⟨hpending, fun plan hsome => ?_⟩
    rw [hplan] at hsome
    exact (hkeeps.closed plan hsome).1 (hsettled h.state plan hsome)
  · exact h.others runId run hid hrun hterminal

/-- An error that is not blank is the error that settles the plan. -/
theorem errorOr_some {text default : String} (h : c.error = some text)
    (htext : isBlank text = false) : errorOr c default = text := by
  unfold errorOr
  rw [h]
  simp only
  split
  · rename_i hempty
    subst hempty
    cases htext
  · rfl

theorem ask_standing {request : ModelRequest} (h : Standing p plans .rest c w)
    (hstate : c.state = .running) (hbatch : c.supervision.suspendedActionBatch = none) :
    Allowed (Observer.ofExec env.exec) w (.complete c.runId request) fun r w' =>
      Standing p plans .rest c w' ∧ ∀ response, r = .ok response →
        Standing p plans (.batch response response.toolCalls) c w' := by
  apply Allowed.ofExec
  have hat : Standing p plans .rest c (env.exec (.complete c.runId request) w).2 := h.calm trivial
  exact ⟨hat, fun response _ => hat.goes (by simp) ⟨h.steady, hstate, hbatch⟩ h.keeps trivial⟩

theorem hookSpec_coherence {hfirm : Firm false env} :
    (coherence p false env hfirm).HookSpec (ModelToolStrategy.hooks p.agent) :=
  .ofModelTool (fun h hstate hbatch _ => ask_standing h hstate hbatch)
    fun {c s} text h hstate => h.goes (by simp)
      (h.steady.running (b := { c with output := some text, state := .completed })
        hstate rfl rfl rfl)
      (h.keeps.complete hstate text fun plan hplan => (h.keeps.closed plan hplan).2 rfl) trivial

theorem planSpec_coherence {hfirm : Firm true env} (strategy : PlanningStrategy) :
    (coherence p true env hfirm).PlanSpec strategy p.agent where
  ask h hstate hbatch _ := ask_standing h hstate hbatch
  assign {m c s plan plan'} hm h hplan hstate hreplaces hidle := by
    have hleft : m ≠ .left := by
      intro heq
      rw [heq] at hm
      simp at hm
    have hclosed := hreplaces.closed (h.keeps.closed plan hplan).1
    refine h.goes hleft (h.steady.withPlan hm hplan) (h.keeps.withPlan rfl hplan hclosed hidle ?_) ?_
    · intro hcompleted
      have hterminal := not_terminal_of_live hstate
      rw [hcompleted] at hterminal
      cases hterminal
    · cases hm with
      | inl hm =>
        rw [hm]
        trivial
      | inr hm =>
        rw [hm]
        trivial
  generate h hstate hunplanned _ _ hpending :=
    h.goes (by simp) hstate (h.keeps.generated hunplanned hpending) trivial
  begin {c s state} h _ hphase := by
    refine h.goes (by simp) (.setPlanning fun hplanning => ?_) (h.keeps.setPlanning fun hsum => ?_)
      trivial
    · rw [hphase] at hplanning
      cases hplanning
    · rw [hphase] at hsum
      cases hsum
  consistent h := h.steady.consistent
  phase h _ hnot hplan :=
    h.goes (by simp) (.setPlanning hplan) (h.keeps.setPlanning fun hsum => absurd hsum hnot) trivial
  finish {c s plan} h _ hplan hcompleted := by
    refine h.goes (by simp) (.setPlanning fun hplanning => by cases hplanning)
      (h.keeps.setPlanning fun _ other hother => ?_) trivial
    apply (h.keeps.closed other hother).1
    rw [hplan] at hother
    cases hother
    rw [hcompleted]
    rfl
  completed {c s text} h hstate hdone := by
    refine h.goes (by simp)
      (h.steady.running (b := { c with output := some text, state := .completed })
        hstate rfl rfl rfl)
      (h.keeps.complete hstate text fun plan hplan => ?_) trivial
    cases hdone plan hplan with
    | inl hcompleted =>
      apply (h.keeps.closed plan hplan).1
      rw [hcompleted]
      rfl
    | inr hsum => exact h.keeps.summarizing hsum plan hplan
  thrown h he := h.fallen (h.coherent_of_ne (by simp)) he
  waitedWith {c s text} h := by
    refine h.goes (by simp) h.steady.1 ?_ trivial
    exact h.keeps.moved (b := { c with error := some text }) rfl rfl rfl (fun hc => hc)
      h.keeps.pending
  settle {c s plan plan' run} h hstate hplan hreplaces hidle hread := by
    have hpending := h.keeps.noPending (waiting_of_errorStatus hstate)
    have hclosed := hreplaces.closed (h.keeps.closed plan hplan).1
    have hkeeps : Keeps p true (c.withPlan plan') :=
      h.keeps.withPlan rfl hplan hclosed (fun _ _ => hidle) fun _ => hidle
    refine h.save rfl hread (fun _ => ⟨hpending, fun other hother => ?_⟩)
      (Steady.withPlan (.inl rfl) h.steady hplan) hkeeps trivial
    cases hother
    exact hidle
  settleGet {c s plan plan'} h hstate hplan hreplaces hidle := by
    have hclosed := hreplaces.closed (h.keeps.closed plan hplan).1
    refine h.get.mono fun r w' h' => ⟨h'.1, h'.2.1, fun e he => ?_⟩
    obtain ⟨hcoherent, hne⟩ := h'.2.2 e he
    exact
      { steady := Steady.ended (Steady.withPlan (.inl rfl) h.steady hplan)
        keeps := h.keeps.withPlan rfl hplan hclosed (fun _ _ => hidle) fun _ => hidle
        sound := h'.1.sound
        coherent := hcoherent
        pending := fun heq => absurd heq hne }
  settled {c s} h hsettled := by
    have hcoherent : s.Coherent := by
      cases h.coherent with
      | inl hcoherent => exact hcoherent
      | inr hleft => exact hleft.2.settled h.keeps hsettled
    exact ⟨h.steady, h.keeps, h.sound, .inl hcoherent, trivial⟩
  blank {c s default e} h hstate hblank hdefault := by
    have hcoherent : s.Coherent := by
      refine h.coherent.resolve_right fun hleft => ?_
      obtain ⟨text, herror, htext⟩ := hleft.2.error
      rw [errorOr_some herror htext, htext] at hblank
      cases hblank
    exact ⟨h.steady.ended, h.keeps, h.sound, hcoherent,
      fun _ => h.keeps.noPending (waiting_of_errorStatus hstate)⟩

theorem turns_coherence (hfirm : Firm plans env) (strategy : OrchestrationStrategy)
    (hplans : strategy.plans = plans) : (coherence p plans env hfirm).Turns strategy p.agent := by
  subst hplans
  cases strategy with
  | modelTool =>
    refine hookSpec_coherence.turns (fun {c s} h => ?_) fun {c s} h => ?_
    · have hcoherent : s.Coherent := by
        refine h.coherent.resolve_right fun hleft => ?_
        cases hleft.2.plans
      exact ⟨h.steady, h.keeps, h.sound, .inl hcoherent, trivial⟩
    · exact h.goes (by simp) h.steady h.keeps (h.keeps.tidy fun hplans => by cases hplans)
  | planning strategy =>
    refine (planSpec_coherence strategy).turns (fun {c s} h hstate => ?_) (fun {c s} h hstate => ?_)
      fun {c s} h hsettled => ?_
    · exact h.goes (by simp) (h.steady.planned hstate) h.keeps trivial
    · refine h.goes (by simp) h.steady h.keeps fun hterminal => ?_
      rw [hstate] at hterminal
      cases hterminal
    · exact h.goes (by simp) h.steady.ended h.keeps (h.keeps.tidy fun _ => hsettled)

/-! ## The executions -/

structure Fine (p : PlanningAgent) (w : RuntimeWorld) : Prop where
  sound : Sound p w
  coherent : w.Coherent

theorem Fine.calm {o : RuntimeOp} (h : Fine p w) (ho : Calm o) : Fine p (env.exec o w).2 := by
  obtain ⟨hruns, hcheckpoints⟩ := exec_calm env ho
  exact ⟨h.sound.of_eq hruns hcheckpoints, Coherent.of_eq h.coherent hruns⟩

theorem createRun_cases (env : RuntimeEnv) (w : RuntimeWorld) (run : Run) :
    (w.runs run.id = none ∧ (env.exec (.createRun run) w).1 = .ok () ∧
        (env.exec (.createRun run) w).2.runs = Function.update w.runs run.id (some run) ∧
        (env.exec (.createRun run) w).2.checkpoints = w.checkpoints) ∨
      ((∃ e, (env.exec (.createRun run) w).1 = .error e) ∧
        (env.exec (.createRun run) w).2.runs = w.runs ∧
        (env.exec (.createRun run) w).2.checkpoints = w.checkpoints) := by
  have hexec : env.exec (.createRun run) w =
      ((w.createRun run).1, { (w.createRun run).2 with steps := w.steps + 1 }) := rfl
  rw [hexec]
  cases hstored : w.runs run.id with
  | some current =>
    have hcreate : w.createRun run =
        (.error (.runAlreadyExists s!"run '{uuidText run.id}' already exists"), w) := by
      simp only [RuntimeWorld.createRun, hstored]
    rw [hcreate]
    exact .inr ⟨⟨_, rfl⟩, rfl, rfl⟩
  | none =>
    have hcreate : w.createRun run =
        (.ok (), { w with runs := Function.update w.runs run.id (some run) }) := by
      simp only [RuntimeWorld.createRun, hstored]
    rw [hcreate]
    exact .inl ⟨rfl, rfl, rfl, rfl⟩

theorem Fine.created (h : Fine p w) (hrun : run.status.terminal = false) :
    Fine p (env.exec (.createRun run) w).2 := by
  cases createRun_cases env w run with
  | inr hexists =>
    obtain ⟨-, hruns, hcheckpoints⟩ := hexists
    exact ⟨h.sound.of_eq hruns hcheckpoints, Coherent.of_eq h.coherent hruns⟩
  | inl hnew =>
    obtain ⟨-, -, hruns, hcheckpoints⟩ := hnew
    have hw : Written w (env.exec (.createRun run) w).2 run :=
      ⟨⟨run.cancelRequested, hruns⟩, hcheckpoints⟩
    refine ⟨h.sound.written hw, coherent_written hw (fun id other _ => h.coherent id other) ?_⟩
    intro hterminal
    rw [hrun] at hterminal
    cases hterminal

theorem Standing.ready {checkpoint : RuntimeCheckpoint} (h : Standing p plans .settled c w)
    (hcheckpoint : RuntimeCheckpoint.fromContext c = .ok checkpoint) :
    Ready p checkpoint.restore := by
  obtain ⟨-, hrestore⟩ := RuntimeCheckpoint.fromContext_ok hcheckpoint
  have hstate : c.state = .waiting := (congrArg RuntimeContext.state hrestore).symm
  have hkeeps : Keeps p plans checkpoint.restore := by
    rw [hrestore]
    exact h.keeps.moved (b := { c with acquired := [] }) rfl rfl rfl (fun hc => hc) h.keeps.pending
  refine ⟨?_, ?_⟩
  · rw [hkeeps.active]
    exact hkeeps
  · rw [hrestore]
    refine Steady.planned h.steady fun hrunning => ?_
    rw [hstate] at hrunning
    cases hrunning

theorem Fine.setCheckpoint (h : Fine p w) {runId : UUID} {checkpoint : Option RuntimeCheckpoint}
    (hready : ∀ kept, checkpoint = some kept → Ready p kept.restore) :
    Sound p (w.setCheckpoint runId checkpoint) where
  keyed := h.sound.keyed
  stocked := by
    intro id kept hkept
    have hupdated : Function.update w.checkpoints runId checkpoint id = some kept := hkept
    by_cases hid : id = runId
    · subst hid
      rw [Function.update_self] at hupdated
      exact hready kept hupdated
    · rw [Function.update_of_ne hid] at hupdated
      exact h.sound.stocked id kept hupdated

def lifecycle_coherence (p : PlanningAgent) (plans : Bool) (env : RuntimeEnv)
    (hfirm : Firm plans env) : (coherence p plans env hfirm).Lifecycle where
  Entry c w := Keeps p plans c ∧ c.Planned ∧ Fine p w
  Ended w := Fine p w
  Done _ w := Fine p w
  refused h := h.2.2
  opens {c s} h _ := by
    apply Allowed.ofExec
    have hfine : Fine p (env.exec (.createRun (AgentRuntime.newRun c)) s).2 := h.2.2.created rfl
    exact ⟨fun _ => ⟨h.2.1, h.1, hfine.sound, .inl hfine.coherent, trivial⟩, fun _ _ => hfine⟩
  started {c s} h hstate := by
    refine h.goes (by simp) (h.steady.moved (by rw [hstate]; rfl) rfl rfl rfl) ?_ trivial
    refine h.keeps.moved (b := { c with state := .running }) rfl rfl rfl (fun hc => by cases hc)
      fun hsome => ?_
    have hwaiting := h.keeps.pending hsome
    rw [hstate] at hwaiting
    cases hwaiting
  resumes {c s} h hstate :=
    { steady := h.2.1.moved (by rw [hstate]; rfl) rfl rfl rfl
      keeps := h.1.moved (b := c.resumed) rfl rfl rfl (fun hc => by cases hc)
        fun hsome => absurd rfl hsome
      sound := h.2.2.sound
      coherent := .inl h.2.2.coherent }
  finishes h := h.goes (by simp) h.steady.ended h.keeps trivial
  caught {c s e} text h _ := by
    constructor
    · intro hstate
      have hpending := h.keeps.noPending (by rw [hstate]; simp)
      exact ⟨(Steady.endedWith text rfl).ended, h.keeps.endedWith hpending text rfl, h.sound,
        .inl h.coherent, trivial⟩
    · intro hstate
      exact ⟨h.steady.withError hstate text,
        h.keeps.moved (b := { c with error := some text }) rfl rfl rfl (fun hc => hc)
          h.keeps.pending, h.sound, .inl h.coherent, trivial⟩
  interrupts {c s} h := by
    apply Allowed.ofExec
    have hat : Standing p plans .ended c s :=
      ⟨h.steady, h.keeps, h.sound, .inl h.coherent, trivial⟩
    have hcalm : Standing p plans .ended c (env.exec (.getRun c.runId) s).2 := hat.calm trivial
    refine ⟨fun run status text _ hstatus => ?_, fun e _ => hcalm⟩
    obtain ⟨hended, herror⟩ := Steady.interrupted hstatus h.steady text
    have hstatus' : status.errorStatus = true := by
      cases hstatus with
      | inl hcancelled =>
        rw [hcancelled]
        rfl
      | inr hinterrupted =>
        rw [hinterrupted]
        rfl
    constructor
    · intro hterminal
      exact hcalm.goes (by simp) (hended hterminal)
        (h.keeps.moved (b := { c with error := some text }) rfl rfl rfl (fun hc => hc)
          h.keeps.pending) trivial
    · intro _
      exact hcalm.goes (by simp) herror (h.keeps.endedWith (h.pending rfl) text hstatus') trivial
  failed h := ⟨h.sound, h.coherent⟩
  ends {m c s} hm h := by
    refine ⟨h.sound, h.coherent_of_ne fun heq => ?_⟩
    rw [heq] at hm
    simp at hm
  checkpoint {c s checkpoint} h hcheckpoint := by
    apply Allowed.ofExec
    have hready := h.ready hcheckpoint
    have hfine : Fine p s := ⟨h.sound, h.coherent_of_ne (by simp)⟩
    refine ⟨h.steady, h.keeps, ?_, .inl hfine.coherent, h.tidied⟩
    exact (hfine.setCheckpoint fun kept hkept => by cases hkept; exact hready).of_eq rfl rfl
  unchecked {c s} h _ := by
    apply Allowed.ofExec
    have hfine : Fine p s := ⟨h.sound, h.coherent_of_ne (by simp)⟩
    refine ⟨h.steady, h.keeps, ?_, .inl hfine.coherent, h.tidied⟩
    exact (hfine.setCheckpoint fun kept hkept => by cases hkept).of_eq rfl rfl
  final {c s run} h hread := by
    refine (h.save rfl hread (fun hterminal => ?_) h.steady h.keeps h.tidied).mono
      fun r w' h' => h'.1
    refine ⟨h.keeps.noPending fun hwaiting => ?_, h.tidied hterminal⟩
    rw [hwaiting] at hterminal
    cases hterminal
  done h _ := ⟨h.sound, h.coherent_of_ne (by simp)⟩

theorem execute_fine (hfirm : Firm (p.active c).plans env) (fuel : Nat) (input : Option String)
    (confirmation : Option ToolConfirmation) (h : Ready p c) (hw : Fine p w) :
    ((p.execute fuel c input confirmation).eval env.exec w).1 = .error .exhausted ∨
      Fine p ((p.execute fuel c input confirmation).eval env.exec w).2 := by
  have hends := (lifecycle_coherence p (p.active c).plans env hfirm).execute_ends
    (turns_coherence hfirm (p.active c) rfl) fuel input confirmation ⟨h.keeps, h.planned, hw⟩
  have heval := Meets.eval hends
  cases houtcome : ((p.execute fuel c input confirmation).eval env.exec w).1 with
  | ok result =>
    rw [houtcome] at heval
    exact .inr heval
  | error e =>
    rw [houtcome] at heval
    by_cases he : e = .exhausted
    · exact .inl (by rw [he])
    · exact .inr (heval he)

end Turns

end Runtime
end BaseAgent

import BaseAgent.Planning.Interruption
import BaseAgent.Planning.Lineage

/-!
# Terminal Runs between operations

An execution leaves coherent stores (`Planning/Coherence.lean`).  A cancellation and a
finalization do so as long as the Run they find is idle.  What finalizes an interrupted execution
finds such a Run if each interruption that is not caught did (`Planning/Interruption.lean`), and
every sequence of operations with these conditions keeps the stores coherent.
-/

namespace BaseAgent
namespace Runtime

open Async Prog

/-- Nothing is left behind when the Run is cancelled now. -/
def RuntimeWorld.Cancellable (w : RuntimeWorld) (runId : UUID) : Prop :=
  ∀ run, w.runs runId = some run → run.status = .waiting → run.Idle

section Finalizers

variable {p : PlanningAgent} {env : RuntimeEnv} {w : RuntimeWorld} {runId : UUID}

theorem Fine.saved (h : Fine p w) {run : Run} (hidle : run.status.terminal = true → run.Idle) :
    Fine p (env.exec (.saveRun run) w).2 := by
  cases saveRun_cases env w run with
  | inl hsaved =>
    have hwritten := hsaved.2.2
    refine ⟨h.sound.written hwritten, coherent_written hwritten ?_ hidle⟩
    exact fun id other _ => h.coherent id other
  | inr hmissing =>
    obtain ⟨-, -, hruns, hcheckpoints⟩ := hmissing
    exact ⟨h.sound.of_eq hruns hcheckpoints, Coherent.of_eq h.coherent hruns⟩

theorem Fine.dropped (h : Fine p w) (runId : UUID) :
    Fine p (env.exec (.deleteCheckpoint runId) w).2 := by
  have hsound : Sound p (w.setCheckpoint runId none) := h.setCheckpoint fun kept hkept => by
    cases hkept
  exact ⟨hsound.of_eq rfl rfl, Coherent.of_eq h.coherent rfl⟩

theorem Fine.kept (h : Fine p w) {checkpoint : RuntimeCheckpoint}
    (hready : Ready p checkpoint.restore) :
    Fine p (env.exec (.saveCheckpoint checkpoint) w).2 := by
  have hsound : Sound p (w.setCheckpoint checkpoint.runId (some checkpoint)) :=
    h.setCheckpoint fun kept hkept => by
      cases hkept
      exact hready
  exact ⟨hsound.of_eq rfl rfl, Coherent.of_eq h.coherent rfl⟩

def Safely (p : PlanningAgent) (env : RuntimeEnv) {α : Type} (task : RuntimeProg α)
    (w : RuntimeWorld) : Prop :=
  task.Meets (Observer.ofExec env.exec) (fun _ w' => Fine p w') (fun _ w' => Fine p w') w

theorem endRun_safely (h : Fine p w) {run : Run} (type : EventType)
    (hidle : run.status.terminal = true → run.Idle) : Safely p env (endRun run runId type) w := by
  have hsaved : Fine p (env.exec (.saveRun run) w).2 := h.saved hidle
  refine Allowed.call (.ofExec (P := fun _ w' => Fine p w') hsaved) fun reply w₁ h₁ => ?_
  cases reply with
  | error e => exact h₁
  | ok u =>
    refine Allowed.call (.ofExec (P := fun _ w' => Fine p w') (h₁.dropped runId)) fun _ w₂ h₂ => ?_
    refine Allowed.call (.ofExec (P := fun _ w' => Fine p w') (h₂.calm trivial)) fun _ w₃ h₃ => ?_
    exact h₃

theorem finishTurn_safely (h : Fine p w) (conversationId : Option UUID) (status : RunStatus) :
    Safely p env (AgentRuntime.finishTurn conversationId runId status) w := by
  cases conversationId with
  | none => exact h
  | some conversation =>
    refine Allowed.call (.ofExec (P := fun _ w' => Fine p w') (h.calm trivial))
      fun reply w₁ h₁ => ?_
    cases reply with
    | ok u => exact h₁
    | error e => exact h₁

theorem finalizedRun_idle {existing : Run} (h : existing.Idle) : (finalizedRun existing).Idle := by
  unfold finalizedRun
  split
  · exact ⟨h.pending, h.plan⟩
  · exact ⟨h.pending, h.plan⟩

theorem getRun_safely (h : Fine p w) (runId : UUID) :
    Allowed (Observer.ofExec env.exec) w (.getRun runId) fun reply w' =>
      Fine p w' ∧ w'.runs = w.runs ∧ ∀ run, reply = .ok run → w.runs runId = some run := by
  refine .ofExec ⟨h.calm trivial, (exec_calm (o := .getRun runId) env trivial).1, fun run hrun => ?_⟩
  cases getRun_cases env w runId with
  | inl hstored =>
    obtain ⟨stored, hstored, hreply⟩ := hstored
    rw [hreply] at hrun
    cases hrun
    exact hstored
  | inr hmissing =>
    rw [hmissing.2] at hrun
    cases hrun

theorem finalizeTaskInterruption_safely (h : Fine p w) (hidle : w.Finalizable runId) :
    Safely p env (finalizeTaskInterruption runId) w := by
  refine (getRun_safely h runId).call fun reply w₁ h₁ => ?_
  cases reply with
  | error e => cases e <;> exact h₁.1
  | ok existing =>
    show Prog.Meets _ _ _ (if existing.status.terminal then _ else _) w₁
    split
    · exact h₁.1
    · rename_i hterminal
      have hexisting : existing.Idle := hidle existing (h₁.2.2 existing rfl) (by simpa using hterminal)
      refine (finishTurn_safely h₁.1 _ _).bind fun _ w₂ h₂ => ?_
      refine (endRun_safely h₂ _ fun _ => finalizedRun_idle hexisting).bind fun _ w₃ h₃ => ?_
      exact h₃

theorem settleTaskInterruption_safely (h : Fine p w) (hidle : w.Finalizable runId) :
    Safely p env (Agent.settleTaskInterruption runId) w := by
  refine (finalizeTaskInterruption_safely h hidle).attempt.bind fun outcome w₁ h₁ => ?_
  cases outcome with
  | ok finalized => exact h₁
  | error e => cases e <;> exact h₁

/-- A Run that is asked to cancel is stored as it was, but for the request. -/
theorem requestCancel_cases (env : RuntimeEnv) (w : RuntimeWorld) (runId : UUID) :
    (∃ run, w.runs runId = some run ∧
        run.status.terminal = false ∧
        (env.exec (.requestCancel runId) w).1 = .ok { run with cancelRequested := true } ∧
        (env.exec (.requestCancel runId) w).2.runs =
          Function.update w.runs runId (some { run with cancelRequested := true }) ∧
        (env.exec (.requestCancel runId) w).2.checkpoints = w.checkpoints) ∨
      ((∃ e, (env.exec (.requestCancel runId) w).1 = .error e) ∧
        (env.exec (.requestCancel runId) w).2.runs = w.runs ∧
        (env.exec (.requestCancel runId) w).2.checkpoints = w.checkpoints) := by
  have hexec : env.exec (.requestCancel runId) w =
      ((w.requestCancel runId).1, { (w.requestCancel runId).2 with steps := w.steps + 1 }) := rfl
  rw [hexec]
  cases hstored : w.runs runId with
  | none =>
    have hrequest : w.requestCancel runId = (.error (RuntimeWorld.runNotFound runId), w) := by
      simp only [RuntimeWorld.requestCancel, hstored]
    rw [hrequest]
    exact .inr ⟨⟨_, rfl⟩, rfl, rfl⟩
  | some run =>
    by_cases hterminal : run.status.terminal = true
    · have hrequest : w.requestCancel runId = (.error (.runNotCancellable
          s!"run '{uuidText runId}' in state '{run.status.value}' cannot be cancelled"), w) := by
        simp only [RuntimeWorld.requestCancel, hstored, if_pos hterminal]
      rw [hrequest]
      exact .inr ⟨⟨_, rfl⟩, rfl, rfl⟩
    · have hrequest : w.requestCancel runId = (.ok { run with cancelRequested := true },
          { w with runs :=
            Function.update w.runs runId (some { run with cancelRequested := true }) }) := by
        simp only [RuntimeWorld.requestCancel, hstored, if_neg hterminal]
      rw [hrequest]
      exact .inl ⟨run, rfl, by simpa using hterminal, rfl, rfl, rfl⟩

theorem Fine.requested (h : Fine p w) (runId : UUID) :
    Fine p (env.exec (.requestCancel runId) w).2 := by
  cases requestCancel_cases env w runId with
  | inr hrefused =>
    obtain ⟨-, hruns, hcheckpoints⟩ := hrefused
    exact ⟨h.sound.of_eq hruns hcheckpoints, Coherent.of_eq h.coherent hruns⟩
  | inl hrequested =>
    obtain ⟨run, hstored, hlive, -, hruns, hcheckpoints⟩ := hrequested
    have hid : run.id = runId := h.sound.keyed runId run hstored
    subst hid
    have hwritten : Written w (env.exec (.requestCancel run.id) w).2 run :=
      ⟨⟨true, hruns⟩, hcheckpoints⟩
    refine ⟨h.sound.written hwritten,
      coherent_written hwritten (fun id other _ => h.coherent id other) ?_⟩
    intro hterminal
    rw [hlive] at hterminal
    cases hterminal

theorem requestCancellation_safely (h : Fine p w) (hidle : w.Cancellable runId) :
    Safely p env (requestCancellation runId) w := by
  refine (getRun_safely h runId).call fun reply w₁ h₁ => ?_
  obtain ⟨hfine, hruns, hread⟩ := h₁
  cases reply with
  | error e => exact hfine
  | ok existing =>
    have hstored := hread existing rfl
    have hrequest : Allowed (Observer.ofExec env.exec) w₁ (.requestCancel runId) fun reply w' =>
        Fine p w' ∧ ∀ run, reply = .ok run →
          run.pendingInput = existing.pendingInput ∧ run.plan = existing.plan := by
      refine .ofExec ⟨hfine.requested runId, fun run hrun => ?_⟩
      cases requestCancel_cases env w₁ runId with
      | inr hrefused =>
        obtain ⟨e, he⟩ := hrefused.1
        rw [he] at hrun
        cases hrun
      | inl hrequested =>
        obtain ⟨found, hfound, -, hreply, -⟩ := hrequested
        rw [hruns, hstored] at hfound
        cases hfound
        rw [hreply] at hrun
        cases hrun
        exact ⟨rfl, rfl⟩
    refine hrequest.call fun reply w₂ h₂ => ?_
    cases reply with
    | error e => exact h₂.1
    | ok requested =>
      show Prog.Meets _ _ _ (if existing.status = .waiting then _ else _) w₂
      split
      · rename_i hwaiting
        have hexisting := hidle existing hstored hwaiting
        obtain ⟨hpending, hplan⟩ := h₂.2 requested rfl
        have hcancelled : (cancelledRun requested).Idle := by
          constructor
          · exact hpending.trans hexisting.pending
          · intro plan hsome
            exact hexisting.plan plan (hplan.symm.trans hsome)
        refine (finishTurn_safely h₂.1 _ _).bind fun _ w₃ h₃ => ?_
        exact (endRun_safely h₃ _ fun _ => hcancelled).bind fun _ w₄ h₄ => h₄
      · exact h₂.1

theorem release_safely (h : Fine p w) (turn : Option UUID) (e : RuntimeError) :
    Safely p env (Agent.release turn runId e) w := by
  refine (finishTurn_safely h turn _).attempt.bind fun outcome w₁ h₁ => ?_
  cases outcome with
  | ok u => exact h₁
  | error e => cases e <;> exact h₁

theorem handle_safely (h : Fine p w) (turn : Option UUID) (e : RuntimeError)
    (hidle : e = .cancelled → w.Finalizable runId) : Safely p env (Agent.handle runId turn e) w := by
  cases e with
  | cancelled =>
    refine (settleTaskInterruption_safely h (hidle rfl)).bind fun finalized w₁ h₁ => ?_
    cases finalized with
    | some run => exact h₁
    | none => exact release_safely h₁ turn _
  | exhausted => exact h
  | _ => exact release_safely h turn _

end Finalizers

/-! ## The operations -/

def Leaves (p : PlanningAgent) (env : RuntimeEnv) {α : Type} (task : RuntimeProg α)
    (w : RuntimeWorld) : Prop :=
  (task.eval env.exec w).1 = .error .exhausted ∨ Fine p (task.eval env.exec w).2

/-- Wherever the program is interrupted, the Run can be finalized. -/
def Settles (env : RuntimeEnv) (runId : UUID) (task : RuntimeProg AgentResult)
    (w : RuntimeWorld) : Prop :=
  (task.eval env.exec w).1 = .error .cancelled → (task.eval env.exec w).2.Finalizable runId

/-- A plan that is given has no step under way, or it is executed by a strategy that will settle
it and is not settled yet. -/
def PlanningAgent.Takes (p : PlanningAgent) (plan : Option ExecutionPlan) : Prop :=
  ∀ given, plan = some given → given.idle = true ∨
    (given.status.terminal = false ∧ (p.planningStrategy.getD p.strategy).plans = true)

section Leaving

variable {p : PlanningAgent} {env : RuntimeEnv} {w : RuntimeWorld} {runId : UUID}

theorem Safely.leaves {α : Type} {task : RuntimeProg α} (h : Safely p env task w) :
    Leaves p env task w := by
  have hends := Meets.eval h
  right
  cases houtcome : (task.eval env.exec w).1 with
  | ok value =>
    rw [houtcome] at hends
    exact hends
  | error e =>
    rw [houtcome] at hends
    exact hends

theorem leaves_attempt {α : Type} {task : RuntimeProg α}
    {next : Except RuntimeError α → RuntimeProg AgentResult} (h : Leaves p env task w)
    (hexhausted : next (.error .exhausted) = .raise .exhausted)
    (hnext : ∀ outcome w', task.eval env.exec w = (outcome, w') → Fine p w' →
      Leaves p env (next outcome) w') :
    Leaves p env (task.attempt.bind next) w := by
  have heval : (task.attempt.bind next).eval env.exec w =
      (next (task.eval env.exec w).1).eval env.exec (task.eval env.exec w).2 :=
    eval_bind_ok (eval_attempt task w)
  unfold Leaves
  rw [heval]
  cases h with
  | inl hended =>
    left
    rw [hended, hexhausted]
    rfl
  | inr hfine => exact hnext _ _ rfl hfine

theorem handled_leaves {task : RuntimeProg AgentResult} (turn : Option UUID)
    (h : Leaves p env task w) (hsettles : Settles env runId task w) :
    Leaves p env (Agent.handled runId turn task) w := by
  refine leaves_attempt h rfl fun outcome w' heval hfine => ?_
  cases outcome with
  | ok result => exact .inr hfine
  | error e =>
    refine (handle_safely hfine turn e fun hcancelled => ?_).leaves
    have hfinal := hsettles (by rw [heval, hcancelled])
    rw [heval] at hfinal
    exact hfinal

theorem PlanningAgent.Takes.ready {prompt : String} {conversationId : Option UUID}
    {history : List Message} {skills : List Skill} {plan : Option ExecutionPlan} {planning : Bool}
    {c : RuntimeContext} (h : p.Takes plan)
    (hcontext : p.createContext prompt runId conversationId history skills plan planning = .ok c) :
    Ready p c := by
  obtain ⟨hplan, hsupervision, hstate, hpending⟩ := PlanningAgent.createContext_ok hcontext
  have hphase : c.phase = none := by
    unfold RuntimeContext.phase
    rw [hsupervision]
    rfl
  constructor
  · constructor
    · rfl
    · intro given hgiven
      have hactive : p.active c = p.planningStrategy.getD p.strategy := by
        simp [PlanningAgent.active, hgiven]
      rw [hactive]
      rw [hplan] at hgiven
      cases h given hgiven with
      | inl hidle => exact ⟨fun _ => hidle, fun _ => hidle⟩
      | inr hlive =>
        constructor
        · intro hterminal
          rw [hlive.1] at hterminal
          cases hterminal
        · intro hnot
          rw [hlive.2] at hnot
          cases hnot
    · rw [hphase]
      intro hsome
      cases hsome
    · rw [hstate]
      intro hsome
      cases hsome
    · exact fun hsome => absurd hpending hsome
  · intro _ hplanning
    rw [hphase] at hplanning
    cases hplanning

def PlanningAgent.plans (p : PlanningAgent) : Bool :=
  p.strategy.plans || (p.planningStrategy.getD p.strategy).plans

theorem Firm.active (h : Firm p.plans env) (c : RuntimeContext) : Firm (p.active c).plans env := by
  intro hplans
  apply h
  unfold PlanningAgent.plans
  unfold PlanningAgent.active at hplans
  split at hplans
  · rw [hplans, Bool.or_true]
  · rw [hplans, Bool.true_or]

/-- An execution that is unbroken is interrupted where its Run can be finalized. -/
theorem execute_settles {c : RuntimeContext} {fuel : Nat} {input : Option String}
    {confirmation : Option ToolConfirmation} (hready : Ready p c) (hid : c.runId = runId)
    (h : Fine p w)
    (hunbroken : (p.execute fuel c input confirmation).Along env.exec (Unbroken env runId) w) :
    Settles env runId (p.execute fuel c input confirmation) w := by
  intro hcancelled
  have hends := (execute_recovers fuel input confirmation hready.planned hid h.sound.keyed).assumed
    hunbroken
  rw [hcancelled] at hends
  exact hends rfl

theorem launch_settles {fuel : Nat} {prompt : String} {conversationId : Option UUID}
    {history : List Message} {skills : List Skill} {plan : Option ExecutionPlan} {planning : Bool}
    (htakes : p.Takes plan) (h : Fine p w)
    (hunbroken : (p.launch fuel prompt runId conversationId history skills plan planning).Along
      env.exec (Unbroken env runId) w) :
    Settles env runId (p.launch fuel prompt runId conversationId history skills plan planning)
      w := by
  unfold PlanningAgent.launch at hunbroken ⊢
  cases hcontext : p.createContext prompt runId conversationId history skills plan planning with
  | error e =>
    intro hcancelled
    have hne := PlanningAgent.createContext_error hcontext
    cases hcancelled
    exact absurd rfl hne
  | ok c =>
    rw [hcontext] at hunbroken
    exact execute_settles (htakes.ready hcontext) (PlanningAgent.createContext_runId hcontext) h
      hunbroken

theorem launch_leaves (hfirm : Firm p.plans env) (fuel : Nat) (prompt : String)
    (conversationId : Option UUID) (history : List Message) (skills : List Skill)
    {plan : Option ExecutionPlan} (planning : Bool) (htakes : p.Takes plan) (h : Fine p w) :
    Leaves p env (p.launch fuel prompt runId conversationId history skills plan planning) w := by
  unfold PlanningAgent.launch
  cases hcontext : p.createContext prompt runId conversationId history skills plan planning with
  | error e => exact .inr h
  | ok c => exact execute_fine (hfirm.active c) fuel none none (htakes.ready hcontext) h

def RuntimeWorld.claimed (w : RuntimeWorld) (runId : UUID) : RuntimeWorld :=
  { w.setCheckpoint runId none with steps := w.steps + 3 }

theorem Fine.claimed (h : Fine p w) (runId : UUID) : Fine p (w.claimed runId) := by
  have hsound : Sound p (w.setCheckpoint runId none) :=
    h.setCheckpoint fun kept hkept => by cases hkept
  exact ⟨hsound.of_eq rfl rfl, Coherent.of_eq h.coherent rfl⟩

theorem restored_leaves (hfirm : Firm p.plans env) (fuel : Nat) (input : Option String)
    (confirmation : Option ToolConfirmation) {checkpoint : RuntimeCheckpoint}
    (hready : Ready p checkpoint.restore) (h : Fine p w)
    (hsettles : Settles env runId (p.execute fuel checkpoint.restore input confirmation) w) :
    Leaves p env (p.restored fuel runId input confirmation checkpoint) w := by
  have hexecute := execute_fine (hfirm.active _) fuel input confirmation hready h
  refine leaves_attempt hexecute rfl fun outcome w' heval hfine => ?_
  cases outcome with
  | ok result => exact .inr hfine
  | error e =>
    apply Safely.leaves
    cases e with
    | exhausted => exact hfine
    | cancelled =>
      have hfinal := hsettles (by rw [heval])
      rw [heval] at hfinal
      exact (settleTaskInterruption_safely hfine hfinal).bind fun _ w₁ h₁ => h₁
    | _ =>
      refine Allowed.call (.ofExec (P := fun _ w' => Fine p w') (hfine.kept hready))
        fun _ w₁ h₁ => ?_
      exact h₁

theorem continueWaiting_leaves (hfirm : Firm p.plans env) (fuel : Nat) (input : Option String)
    (confirmation : Option ToolConfirmation) (h : Fine p w)
    (hsettles : ∀ checkpoint, w.checkpoints runId = some checkpoint →
      Settles env runId (p.execute fuel checkpoint.restore input confirmation) (w.claimed runId)) :
    Leaves p env (p.continueWaiting fuel runId input confirmation) w := by
  have hread : Fine p (env.exec (.getRun runId) w).2 := h.calm trivial
  unfold Leaves PlanningAgent.continueWaiting Prog.eval
  cases getRun_cases env w runId with
  | inr hmissing =>
    rw [hmissing.2]
    exact .inr hread
  | inl hfound =>
    obtain ⟨run, -, hreply⟩ := hfound
    rw [hreply]
    simp only
    split
    · have hload : env.exec (.loadCheckpoint runId) (env.exec (.getRun runId) w).2 =
          (w.loadCheckpoint runId, { w with steps := w.steps + 2 }) := rfl
      have hloaded : Fine p { w with steps := w.steps + 2 } :=
        ⟨h.sound.of_eq rfl rfl, Coherent.of_eq h.coherent rfl⟩
      unfold Prog.eval
      rw [hload]
      unfold RuntimeWorld.loadCheckpoint
      cases hcheckpoint : w.checkpoints runId with
      | none => exact .inr hloaded
      | some checkpoint =>
        show Leaves p env ((Prog.ofExcept (p.agent.admitCheckpoint runId checkpoint)).bind _) _
        cases p.agent.admitCheckpoint runId checkpoint with
        | error e => exact .inr hloaded
        | ok admitted =>
          have hclaim : env.exec (.claimCheckpoint runId) { w with steps := w.steps + 2 } =
              (.ok checkpoint, w.claimed runId) := by
            simp only [RuntimeEnv.exec, RuntimeEnv.reply, RuntimeWorld.claimCheckpoint, hcheckpoint,
              RuntimeWorld.claimed, RuntimeWorld.setCheckpoint]
          simp only [Prog.ofExcept_ok, Prog.ret_bind]
          unfold Leaves Prog.eval
          rw [hclaim]
          exact restored_leaves hfirm fuel input confirmation
            (h.sound.stocked runId checkpoint hcheckpoint) (h.claimed runId)
            (hsettles checkpoint hcheckpoint)
    · exact .inr hread

end Leaving

/-- What an operation has to find so that it leaves no terminal Run with anything under way: at
each step of an execution the Run that is stored then, at the other operations the Run that is
there. -/
def Operation.Fits (p : PlanningAgent) (env : RuntimeEnv) (fuel : Nat) :
    Operation → RuntimeWorld → Prop
  | run prompt runId none skills plan planning, w =>
    p.Takes plan ∧
      (p.launch fuel prompt runId none [] skills plan planning).Along env.exec
        (Unbroken env runId) w
  | run prompt runId (some conversation) skills plan planning, w =>
    p.Takes plan ∧ Unbroken env runId w (.beginTurn conversation runId prompt) ∧
      ∀ turns w', env.exec (.beginTurn conversation runId prompt) w = (.ok turns, w') →
        (p.launch fuel prompt runId (some conversation) (p.agent.conversationHistory turns)
          skills plan planning).Along env.exec (Unbroken env runId) w'
  | resume runId input, w => ∀ checkpoint, w.checkpoints runId = some checkpoint →
      (p.execute fuel checkpoint.restore (some input) none).Along env.exec (Unbroken env runId)
        (w.claimed runId)
  | confirm runId confirmation, w => ∀ checkpoint, w.checkpoints runId = some checkpoint →
      (p.execute fuel checkpoint.restore none (some confirmation)).Along env.exec
        (Unbroken env runId) (w.claimed runId)
  | cancel runId, w => w.Cancellable runId
  | finalize runId, w => w.Finalizable runId

section Served

variable {p : PlanningAgent} {env : RuntimeEnv} {w : RuntimeWorld}

theorem leaves_ignored {α : Type} {task : RuntimeProg α} (h : Leaves p env task w) :
    Leaves p env (task.bind fun _ => .ret ()) w := by
  unfold Leaves at h ⊢
  cases houtcome : task.eval env.exec w with
  | mk outcome w' =>
    rw [houtcome] at h
    cases outcome with
    | ok value =>
      rw [eval_bind_ok houtcome]
      exact .inr (h.resolve_left fun hended => by cases hended)
    | error e =>
      rw [eval_bind_error houtcome]
      exact h.imp_left fun hended => by cases hended; rfl

theorem task_leaves (hfirm : Firm p.plans env) (fuel : Nat) (operation : Operation)
    (hfit : operation.Fits p env fuel w) (h : Fine p w) (hfiled : w.Filed) :
    Leaves p env (operation.task p fuel) w := by
  have hcontinued : ∀ runId input confirmation,
      (∀ checkpoint, w.checkpoints runId = some checkpoint →
        (p.execute fuel checkpoint.restore input confirmation).Along env.exec
          (Unbroken env runId) (w.claimed runId)) →
      Leaves p env (p.continueWaiting fuel runId input confirmation) w := by
    intro runId input confirmation hunbroken
    refine continueWaiting_leaves hfirm fuel input confirmation h fun checkpoint hstored => ?_
    exact execute_settles (h.sound.stocked runId checkpoint hstored)
      (hfiled runId checkpoint hstored) (h.claimed runId) (hunbroken checkpoint hstored)
  cases operation with
  | run prompt runId conversationId skills plan planning =>
    apply leaves_ignored
    cases conversationId with
    | none =>
      exact handled_leaves none (launch_leaves hfirm fuel prompt none [] skills planning hfit.1 h)
        (launch_settles hfit.1 h hfit.2)
    | some conversation =>
      obtain ⟨htakes, hunbroken, hbegun⟩ := hfit
      have hturn : Fine p (env.exec (.beginTurn conversation runId prompt) w).2 := h.calm trivial
      unfold PlanningAgent.run Leaves Prog.eval
      cases hbegin : env.exec (.beginTurn conversation runId prompt) w with
      | mk reply w' =>
        unfold Unbroken at hunbroken
        rw [hbegin] at hunbroken hturn
        cases reply with
        | error e =>
          have hruns : w'.runs = w.runs := by
            have hworld : w' = (env.exec (.beginTurn conversation runId prompt) w).2 := by
              rw [hbegin]
            rw [hworld]
            rfl
          refine (handle_safely hturn none e.error fun hcancelled => ?_).leaves
          unfold RuntimeWorld.Finalizable
          rw [hruns]
          cases e with
          | cancelled => exact hunbroken rfl
          | raised typeName message => cases hcancelled
        | ok turns =>
          exact handled_leaves (some conversation)
            (launch_leaves hfirm fuel prompt _ _ skills planning htakes hturn)
            (launch_settles htakes hturn (hbegun turns w' hbegin))
  | resume runId input =>
    apply leaves_ignored
    unfold PlanningAgent.resume
    split
    · exact .inr h
    · exact hcontinued runId _ _ hfit
  | confirm runId confirmation =>
    apply leaves_ignored
    exact hcontinued runId _ _ hfit
  | cancel runId => exact leaves_ignored (requestCancellation_safely h hfit).leaves
  | finalize runId => exact leaves_ignored (finalizeTaskInterruption_safely h hfit).leaves

theorem Served.fine (hfirm : Firm p.plans env) (h : Served p env (Operation.Fits p env) w) :
    Fine p w ∧ w.Filed := by
  induction h with
  | start =>
    refine ⟨⟨⟨?_, ?_⟩, ?_⟩, ?_⟩
    · exact fun _ _ hnone => nomatch hnone
    · exact fun _ _ hnone => nomatch hnone
    · exact fun _ _ hnone => nomatch hnone
    · exact fun _ _ hnone => nomatch hnone
  | next _ fuel operation hfit hended ih =>
    refine ⟨(task_leaves hfirm fuel operation hfit ih.1 ih.2).resolve_left hended, ?_⟩
    exact (Only.any _).eval (fun o _ _ hfiled => RuntimeEnv.exec_filed hfiled o) ih.2

/-- Between two operations a terminal Run that is stored has no pending input and no plan step
under way, if every operation has found what it has to. -/
theorem served_coherent (hfirm : Firm p.plans env) (h : Served p env (Operation.Fits p env) w) :
    w.Coherent :=
  (h.fine hfirm).1.coherent

end Served

def payResponse : ModelResponse where
  toolCalls := [{ id := "call", name := "pay" }]
  valid := .inr (by simp)

/-- The stores when a Run waits for the confirmation of its payment. -/
def payWaiting : RuntimeWorld :=
  (Operation.serve (planningAgent [payTool]) (onceEnv payResponse) 3
    (.run "Pay the bill." 0 none [] none false) {}).2

/-- The Run that waits for a confirmation keeps its pending input when it is cancelled. -/
theorem served_cancelled :
    ¬ ∀ (p : PlanningAgent) (env : RuntimeEnv) (w : RuntimeWorld),
      Served p env (fun _ _ _ => True) w → w.Coherent := by
  intro hcoherent
  have hwaits : Served (planningAgent [payTool]) (onceEnv payResponse) (fun _ _ _ => True)
      payWaiting :=
    .next .start 3 (.run "Pay the bill." 0 none [] none false) trivial fun hended => by cases hended
  have hserved := hwaits.next 3 (.cancel 0) trivial fun hended => by cases hended
  have hstored : ∃ run, ((Operation.cancel 0).serve (planningAgent [payTool]) (onceEnv payResponse) 3
      payWaiting).2.runs 0 = some run ∧ run.status = .cancelled ∧ run.pendingInput.isSome = true :=
    ⟨_, rfl, rfl, rfl⟩
  obtain ⟨run, hrun, hstatus, hpending⟩ := hstored
  have hidle := hcoherent _ _ _ hserved 0 run hrun (by rw [hstatus]; rfl)
  rw [hidle.pending] at hpending
  cases hpending

/-- The stores when the payment was approved and the Run has completed. -/
def payCompleted : RuntimeWorld :=
  (Operation.serve (planningAgent [payTool]) (onceEnv payResponse) 3
    (.confirm 0 ⟨0, .approve, "user", "approved", 0⟩) payWaiting).2

theorem served_payCompleted :
    (∃ run, payCompleted.runs 0 = some run ∧ run.status = .completed) ∧
      payCompleted.Coherent := by
  have hfirm : Firm (planningAgent [payTool]).plans (onceEnv payResponse) := by
    intro _ n c call result reason message status policies hstop
    have hafter : NoProgressDetector.afterTool c result = (.stop reason message status, policies) :=
      Except.ok.inj hstop
    unfold NoProgressDetector.afterTool at hafter
    grind
  have hunbroken : ∀ (task : RuntimeProg AgentResult) (w : RuntimeWorld),
      task.Along (onceEnv payResponse).exec (Unbroken (onceEnv payResponse) 0) w := by
    refine fun task w => ((Only.any task).along w).mono fun w o _ hreply => ?_
    cases o <;> first | exact hreply.elim | cases hreply
  have hwaits : Served (planningAgent [payTool]) (onceEnv payResponse)
      (Operation.Fits (planningAgent [payTool]) (onceEnv payResponse)) payWaiting :=
    .next .start 3 (.run "Pay the bill." 0 none [] none false)
      ⟨fun _ hsome => (by cases hsome), hunbroken _ _⟩ fun hended => by cases hended
  have hserved := hwaits.next 3 (.confirm 0 ⟨0, .approve, "user", "approved", 0⟩)
    (fun _ _ => hunbroken _ _) fun hended => by cases hended
  exact ⟨⟨_, rfl, rfl⟩, served_coherent hfirm hserved⟩

end Runtime
end BaseAgent

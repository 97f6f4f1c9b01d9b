import BaseAgent.Runtime.Walk

/-!
# Every execution terminates

The default supervisor stops a Run at the head of the loop once it has asked the model
`max_steps` times, and the rest of a suspended batch is executed at most once before the model
is asked again.  So the loop passes its head at most `max_steps + 2` times in one task, from
every checkpoint that the tasks can have left.
-/

namespace BaseAgent
namespace Runtime

open Async

/-! ## The default supervisor -/

section Supervisor

variable {dumps : List (String × JsonValue) → String} {n : Nat} {c : RuntimeContext}
variable {d : SupervisionDecision} {policies : PolicyData}

theorem defaultSupervisor_beforeModel
    (h : (defaultSupervisor dumps).beforeModel n c = .ok (d, policies)) (hd : d.stops = false) :
    d = .continue_ ∧ c.stepCount < c.profile.maxSteps := by
  simp only [defaultSupervisor, ExecutionBudget.beforeModel, Except.ok.injEq,
    Prod.mk.injEq] at h
  obtain ⟨rfl, -⟩ := h
  split at hd
  · cases hd
  · rename_i hsteps
    rw [if_neg hsteps]
    exact ⟨rfl, by omega⟩

theorem defaultSupervisor_beforeTool {call : ToolCall}
    (h : (defaultSupervisor dumps).beforeTool n c call = .ok (d, policies))
    (hd : d.stops = false) : c.toolCallCount < c.profile.maxToolCalls := by
  by_contra hcount
  have hge : c.toolCallCount ≥ c.profile.maxToolCalls := by omega
  simp only [defaultSupervisor, ExecutionBudget.beforeTool, if_pos hge, Except.ok.injEq,
    Prod.mk.injEq] at h
  rw [← h.1] at hd
  cases hd

end Supervisor

/-! ## The steps of a context -/

variable {ι : Type}

/-- The context has taken no more steps than the profile of its Agent allows. -/
def Paced (agent : Agent) (c : RuntimeContext) : Prop :=
  c.profile = agent.profile ∧ c.stepCount ≤ agent.profile.maxSteps

def PacedAt (agent : Agent) : Point → RuntimeContext → Prop
  | .cleared, c => Paced agent c ∧
      (c.supervision.suspendedActionBatch = none → c.stepCount < agent.profile.maxSteps)
  | .ended, _ | .closing, _ => True
  | _, c => Paced agent c

theorem PacedAt.similar {agent : Agent} {p : Point} {a b : RuntimeContext} (hs : a.Similar b)
    (h : PacedAt agent p a) : PacedAt agent p b := by
  have hpaced : Paced agent b = Paced agent a := by
    unfold Paced
    rw [hs.profile, hs.stepCount]
  cases p <;> simp only [PacedAt, hpaced, hs.stepCount, hs.batch] at h ⊢ <;> exact h

def paceOutline (agent : Agent) : Outline ι RuntimeOp RuntimeOp.Ret RuntimeWorld Unit where
  Inv s _ _ := ∀ r checkpoint, s.checkpoints r = some checkpoint → Paced agent checkpoint.restore

section Script

variable {env : RuntimeEnv} {agent : Agent} {i : ι} [DecidableEq ι]

theorem pace_step {o : RuntimeOp} {P : o.Ret → Unit → Prop}
    (hsave : ∀ checkpoint, o = .saveCheckpoint checkpoint → Paced agent checkpoint.restore)
    (hP : ∀ s, (∀ r checkpoint, s.checkpoints r = some checkpoint →
      Paced agent checkpoint.restore) → P (env.exec o s).1 ()) :
    (paceOutline agent).Step env.exec i o () P := by
  intro s log ghost _ hI _
  refine ⟨(), trivial, ?_, hP s hI⟩
  intro r checkpoint hr
  by_cases ho : ∀ saved, o ≠ .saveCheckpoint saved
  · exact hI r checkpoint (RuntimeEnv.exec_checkpoints ho hr)
  · push Not at ho
    obtain ⟨saved, rfl⟩ := ho
    simp only [RuntimeEnv.exec, RuntimeEnv.reply, RuntimeWorld.setCheckpoint] at hr
    by_cases hid : r = saved.runId
    · subst hid
      simp only [Function.update_self, Option.some.injEq] at hr
      rw [← hr]
      exact hsave saved rfl
    · rw [Function.update_of_ne hid] at hr
      exact hI r checkpoint hr

theorem pace_still {o : RuntimeOp} {P : o.Ret → Unit → Prop}
    (ho : match o with | .saveCheckpoint _ => False | _ => True)
    (hP : ∀ s, P (env.exec o s).1 ()) : (paceOutline agent).Step env.exec i o () P := by
  refine pace_step ?_ fun s _ => hP s
  rintro checkpoint rfl
  exact ho.elim

def paceScript (env : RuntimeEnv) (agent : Agent) (i : ι) (origin : Option RuntimeCheckpoint)
    {dumps : List (String × JsonValue) → String}
    (hsupervisor : env.supervisor = defaultSupervisor dumps) :
    Script env (paceOutline agent) agent i origin where
  At p c _ := PacedAt agent p c
  Idle _ := True
  Over _ := True
  Out _ _ := True
  Final _ := True
  Read _ _ := True
  Missing := True
  limit := some agent.profile.maxSteps
  similar hs h := h.similar hs
  leave _ _ _ _ _ := trivial
  bounded := by
    intro b c g hb h
    cases hb
    exact h.2
  quiet {o g} ho := pace_still (by cases o <;> trivial) fun _ => rfl
  get _ := pace_still trivial fun _ => ⟨rfl, fun _ _ => trivial, fun _ _ => trivial⟩
  snapshot _ h _ := pace_still trivial fun _ => ⟨h, fun _ _ => trivial⟩
  lost _ _ := trivial
  beforeModel := by
    intro c g h
    refine pace_still trivial fun s => ⟨h, fun d policies hr hd => ?_⟩
    have hanswer : (defaultSupervisor dumps).beforeModel s.steps c = .ok (d, policies) := by
      rw [← hsupervisor]
      exact hr
    obtain ⟨rfl, hsteps⟩ := defaultSupervisor_beforeModel hanswer hd
    have hprofile : c.profile = agent.profile := h.1
    rw [hprofile] at hsteps
    exact ⟨h, fun _ => hsteps⟩
  ask := by
    intro c g h hb
    exact ⟨h.1.1, h.2 hb⟩
  complete h := pace_still trivial fun _ => ⟨h, fun _ _ => h⟩
  resume h _ := ⟨fun _ _ _ => h.1, fun _ => h.1⟩
  finish h _ := h
  beforeTool h _ _ := pace_still trivial fun _ => ⟨h, fun _ _ _ => ⟨fun _ => h, fun _ _ _ => h⟩⟩
  confirmed h _ := h
  refuse _ h _ := h
  request h _ _ _ := h
  invoke h _ _ := pace_still trivial fun _ => ⟨fun _ _ => h, fun _ _ _ => h⟩
  suspend _ _ h _ _ := h
  announce h := pace_still trivial fun _ => h
  observe h _ := h
  afterTool h _ := pace_still trivial fun _ => ⟨h, fun _ _ _ => ⟨fun _ => h, fun _ _ _ => h⟩⟩
  aexit _ h := pace_still trivial fun _ => ⟨h, fun _ => trivial⟩
  park := by
    intro c g checkpoint h hcheckpoint
    refine pace_step ?_ fun _ _ => trivial
    intro saved ho
    cases ho
    obtain ⟨-, hrestore⟩ := RuntimeCheckpoint.fromContext_ok hcheckpoint
    rw [hrestore]
    exact h
  clear _ := pace_still trivial fun _ => trivial
  turn _ := pace_still trivial fun _ => ⟨trivial, fun _ _ => trivial⟩
  close _ _ := pace_still trivial fun _ => trivial
  over_final _ := trivial
  over_out _ := trivial
  idle_final _ := trivial
  idle_out _ := trivial
  final_turn _ := pace_still trivial fun _ => trivial

def Fed (agent : Agent) (fuel : Nat) (e : RuntimeError) : Prop :=
  e = .exhausted → fuel < agent.profile.maxSteps + 2

theorem Fed.of_ne {fuel : Nat} {e : RuntimeError} (h : e ≠ .exhausted) : Fed agent fuel e :=
  fun he => absurd he h

variable {fuel : Nat} {dumps : List (String × JsonValue) → String}
variable (hsupervisor : env.supervisor = defaultSupervisor dumps)

theorem paceScript_ended {origin : Option RuntimeCheckpoint} {e : RuntimeError} {g : Unit}
    (h : (paceScript env agent i origin hsupervisor).Ended fuel e g) : Fed agent fuel e := by
  cases h with
  | inl hexhausted => exact fun _ => hexhausted.2 _ rfl
  | inr hfinal => exact Fed.of_ne hfinal.1

theorem pace_bookkeeping {α : Type} {p : RuntimeProg α} (h : p.Only bookkeeping) :
    (paceOutline agent).Safe env.exec i (fun _ _ => True) (fun _ _ => True) p () := by
  refine Outline.Safe.of_only (F := fun _ => True) h (fun o _ ho _ => ?_) trivial
  exact pace_still (by cases o <;> trivial) fun _ => trivial

theorem pace_cancellation {α : Type} {p : RuntimeProg α} (h : p.Only bookkeeping)
    (hthrows : p.Throws RuntimeEnv.Plain (· ≠ .exhausted)) :
    (paceOutline agent).Safe env.exec i (fun _ _ => True) (fun e _ => Fed agent fuel e) p () := by
  have hsafe : (paceOutline agent).Safe env.exec i (fun _ _ => True) (fun _ _ => True) p () :=
    pace_bookkeeping h
  exact (hsafe.throws hthrows RuntimeEnv.exec_plain).mono (fun _ _ _ => trivial)
    fun _ _ he => Fed.of_ne he.1

theorem Paced.answer {checkpoint : RuntimeCheckpoint} {input : Option String}
    {confirmation : Option ToolConfirmation} {c : RuntimeContext}
    (h : Paced agent checkpoint.restore)
    (hc : AgentRuntime.answer agent checkpoint.restore input confirmation = .ok c) :
    Paced agent (Script.resumedContext c) := by
  obtain ⟨pending, -, hdecided | hreceived⟩ := AgentRuntime.answer_ok agent hc
  · obtain ⟨-, d, -, -, rfl⟩ := hdecided
    exact h
  · obtain ⟨-, -, text, rfl⟩ := hreceived
    exact h

theorem Script.Fresh.paced {runId : UUID} {c : RuntimeContext}
    (h : Script.Fresh agent runId c) : Paced agent { c with state := .running } := by
  obtain ⟨prompt, conversationId, turns, skills, hc⟩ := h
  unfold Agent.createContext at hc
  split at hc
  · cases hc
  · cases hc
    exact ⟨rfl, Nat.zero_le _⟩

include hsupervisor in
theorem pace_continueWaiting {runId : UUID} {input : Option String}
    {confirmation : Option ToolConfirmation} :
    (paceOutline agent).Safe env.exec i (fun _ _ => True) (fun e _ => Fed agent fuel e)
      (agent.continueWaiting fuel runId input confirmation) () := by
  have hraise : ∀ e : RuntimeError, e.Ordinary → Fed agent fuel e := fun e he => Fed.of_ne he.2
  refine Script.safe_continueWaiting _ (pace_still trivial fun _ => rfl)
    (pace_still trivial fun _ => rfl) hraise ?_
  refine pace_step (fun _ ho => by cases ho) fun s hpaced => ?_
  refine ⟨fun e _ he => Fed.of_ne he, fun checkpoint hclaim => ?_⟩
  have hcheckpoint := hpaced runId checkpoint (RuntimeEnv.claimCheckpoint_ok hclaim)
  refine (Script.safe_restored (S := paceScript env agent i (some checkpoint) hsupervisor)
    (fun _ _ => pace_bookkeeping (settleTaskInterruption_only runId))
    (fun c hc => hcheckpoint.answer hc) (fun _ _ => trivial) fun e g _ _ => ?_).mono
      (fun _ _ _ => trivial) fun _ _ he => paceScript_ended hsupervisor he
  refine pace_step ?_ fun _ _ => trivial
  intro saved ho
  cases ho
  exact hcheckpoint

include hsupervisor in
theorem pace_task (call : Call) :
    (paceOutline agent).Safe env.exec i (fun _ _ => True) (fun e _ => Fed agent fuel e)
      (call.task agent fuel) () := by
  cases call with
  | run prompt runId conversationId skills =>
    refine Outline.Safe.bind (Q := fun _ _ => True) ?_ fun _ _ _ => trivial
    refine (Script.safe_run (S := paceScript env agent i none hsupervisor)
      (fun _ _ => pace_bookkeeping (settleTaskInterruption_only runId)) trivial
      (fun c hc => ?_) fun _ _ _ _ => trivial).mono (fun _ _ _ => trivial)
        fun _ _ he => paceScript_ended hsupervisor he
    exact pace_still trivial fun _ => ⟨fun _ => hc.paced, fun _ _ => trivial⟩
  | resume runId input =>
    refine Outline.Safe.bind (Q := fun _ _ => True) ?_ fun _ _ _ => trivial
    unfold Agent.resume
    split
    · exact Fed.of_ne (by simp)
    · exact pace_continueWaiting hsupervisor
  | confirm runId confirmation =>
    exact Outline.Safe.bind (pace_continueWaiting hsupervisor) fun _ _ _ => trivial
  | cancel runId =>
    exact Outline.Safe.bind (pace_cancellation (requestCancellation_only runId)
      (requestCancellation_throws runId)) fun _ _ _ => trivial
  | finalize runId =>
    exact Outline.Safe.bind (pace_cancellation (finalizeTaskInterruption_only runId)
      (finalizeTaskInterruption_throws runId)) fun _ _ _ => trivial

include hsupervisor in
/-- From every state of every run, a task that is scheduled often enough ends, and not for want
of fuel. -/
theorem executions_terminate (calls : ι → Call) (world : RuntimeWorld) (schedule : List ι)
    (hworld : ∀ r, world.checkpoints r = none) (hfuel : agent.profile.maxSteps + 2 ≤ fuel)
    (j : ι) :
    ∃ n, (((startCalls agent fuel calls world).run env.exec
        (schedule ++ List.replicate n j)).tasks j).done = true ∧
      ((startCalls agent fuel calls world).run env.exec
        (schedule ++ List.replicate n j)).tasks j ≠ .raise .exhausted := by
  have hholds : Outline.Holds env.exec (paceOutline agent) (fun _ _ _ => True)
      (fun _ e _ => Fed agent fuel e) (startCalls agent fuel calls world) fun _ => () := by
    refine ⟨fun r checkpoint hr => ?_, fun i => pace_task hsupervisor _⟩
    have hnone : world.checkpoints r = some checkpoint := hr
    rw [hworld r] at hnone
    cases hnone
  obtain ⟨n, hdone⟩ := Pool.exists_done env.exec
    ((startCalls agent fuel calls world).run env.exec schedule) j
  obtain ⟨ghost, -, hsafe⟩ := hholds.run_all (fun _ _ _ _ _ => trivial) (fun _ _ => trivial)
    (schedule ++ List.replicate n j)
  refine ⟨n, ?_, ?_⟩
  · rw [Pool.run_append]
    exact hdone
  · intro hraise
    have hfed := hsafe j
    rw [hraise] at hfed
    have hlt : fuel < agent.profile.maxSteps + 2 := hfed rfl
    omega

end Script

end Runtime
end BaseAgent

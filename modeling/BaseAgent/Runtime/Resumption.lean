import BaseAgent.Async.Observer
import BaseAgent.Runtime.Walk

/-!
# Which resumptions are refused

`Agent.resume` refuses a waiting Run when the input is blank, when the checkpoint belongs to
another profile and when the Run waits for the confirmation of a Tool.  The Run then waits on.
Nothing else that a caller takes for a refusal leaves it waiting, and a result that is not WAITING
leaves it ended.
-/

namespace BaseAgent
namespace Runtime

open Async Prog

/-- `ValueError` with its subclasses, and `RunNotFoundError`. -/
def RuntimeError.refusal : RuntimeError → Bool
  | .value _ | .runNotFound _ | .runAlreadyExists _ => true
  | _ => false

/-- `Agent.resume` refuses a waiting Run. -/
def refuses (agent : Agent) (w : RuntimeWorld) (runId : UUID) (input : String) : Bool :=
  isBlank input ||
    match w.checkpoints runId with
    | none => false
    | some checkpoint =>
      checkpoint.profile.id != agent.profile.id ||
        ((ToolExecutor.require agent checkpoint.enabledToolNames).toOption.isSome &&
          isConfirmation checkpoint.pendingInput.metadata)

/-! ## An execution that has begun -/

def ownOutline (runId : UUID) : Outline Unit RuntimeOp RuntimeOp.Ret RuntimeWorld Unit where
  Inv s _ _ := s.Keyed ∧ s.runs runId ≠ none

section Own

variable {env : RuntimeEnv} {agent : Agent} {runId : UUID}

theorem own_step {o : RuntimeOp} {P : o.Ret → Unit → Prop}
    (hP : ∀ s, s.Keyed → s.runs runId ≠ none → P (env.exec o s).1 ()) :
    (ownOutline runId).Step env.exec () o () P := by
  intro s log ghost _ hI _
  exact ⟨(), trivial, ⟨RuntimeEnv.exec_keyed hI.1, RuntimeEnv.exec_runs hI.2⟩, hP s hI.1 hI.2⟩

/-- An execution stays with its Run, and what it raises is no refusal. -/
def ownScript (env : RuntimeEnv) (agent : Agent) (runId : UUID)
    (origin : Option RuntimeCheckpoint) : Script env (ownOutline runId) agent () origin where
  At _ c _ := c.runId = runId
  Idle _ := False
  Over _ := True
  Out e _ := e.refusal = false
  Final _ := True
  Read r run := run.id = r
  Missing := False
  limit := none
  similar hs h := hs.runId.trans h
  leave _ h hb _ _ := hb.trans h
  bounded hb := by cases hb
  quiet _ := own_step fun _ _ _ => rfl
  get := by
    intro p c g h
    refine own_step fun s hkeyed hsome => ⟨rfl, fun run hr => ?_, fun e he => ?_⟩
    · exact hkeyed _ run (RuntimeWorld.getRun_ok hr)
    · rw [h] at he
      exact hsome (RuntimeWorld.getRun_none he)
  snapshot := by
    intro p c g run _ h hread
    refine own_step fun s _ hsome => ⟨h, fun e he => hsome ?_⟩
    have hid : (c.snapshot run).id = runId := hread.trans h
    rw [← hid]
    exact RuntimeWorld.saveRun_none he
  lost hm := hm.elim
  beforeModel := by
    intro c g h
    refine own_step fun _ _ _ => ⟨h, fun d policies _ _ => ?_⟩
    unfold withMessage
    split
    · exact h
    · split <;> exact h
    · exact h
  ask h _ := h
  complete h := own_step fun _ _ _ => ⟨h, fun _ _ => h⟩
  resume h _ := ⟨fun _ _ _ => h, fun _ => h⟩
  finish h _ := h
  beforeTool h _ _ := own_step fun _ _ _ => ⟨h, fun _ _ _ => ⟨fun _ => h, fun _ _ _ => h⟩⟩
  confirmed h _ := h
  refuse _ h _ := h
  request h _ _ _ := h
  invoke h _ _ := own_step fun _ _ _ => ⟨fun _ _ => h, fun _ _ _ => h⟩
  suspend _ _ h _ _ := h
  announce h := own_step fun _ _ _ => h
  observe h _ := h
  afterTool h _ := own_step fun _ _ _ => ⟨h, fun _ _ _ => ⟨fun _ => h, fun _ _ _ => h⟩⟩
  aexit _ h := own_step fun _ _ _ => ⟨h, fun _ => rfl⟩
  park h _ := own_step fun _ _ _ => h
  clear h := own_step fun _ _ _ => h
  turn h := own_step fun _ _ _ => ⟨h, fun e _ => by cases e <;> rfl⟩
  close _ _ := own_step fun _ _ _ => trivial
  over_final _ := trivial
  over_out _ := rfl
  idle_final h := h.elim
  idle_out h := h.elim
  final_turn _ := own_step fun _ _ _ => trivial

end Own

/-! ## What a resumption leaves -/

section Resumption

variable {env : RuntimeEnv} {agent : Agent} {runId : UUID} {fuel : Nat}

abbrev alone (env : RuntimeEnv) :
    Observer RuntimeOp RuntimeOp.Ret (RuntimeWorld × List (RuntimeEntry Unit)) :=
  Observer.recording env.exec fun _ => True

variable {s : RuntimeWorld × List (RuntimeEntry Unit)}

def EndedBy (runId : UUID) (result : AgentResult) (w : RuntimeWorld) : Prop :=
  ∃ run, w.runs runId = some run ∧ (run.status = .waiting → result.status = .waiting)

theorem alone_meets {ε α : Type} (p : Prog RuntimeOp RuntimeOp.Ret ε α) (h : s.1.Keyed) :
    p.Meets (alone env) (fun _ s' => s'.1.Keyed) (fun _ s' => s'.1.Keyed) s := by
  induction p generalizing s with
  | ret a => exact h
  | raise e => exact h
  | call o k ih =>
    refine ⟨trivial, fun r hr => ih r ?_⟩
    exact RuntimeEnv.exec_keyed h

theorem saveContextSnapshot_meets {c : RuntimeContext} (h : s.1.Keyed) :
    (saveContextSnapshot c).Meets (alone env)
      (fun _ s' => ∃ run, s'.1.runs c.runId = some run ∧ run.status = c.state)
      (fun _ _ => True) s := by
  refine ⟨trivial, fun found hfound => ?_⟩
  have hget : found = s.1.getRun c.runId := hfound
  cases found with
  | error e => trivial
  | ok existing =>
    have hexisting := RuntimeWorld.getRun_ok hget.symm
    have hid : existing.id = c.runId := h _ _ hexisting
    refine ⟨trivial, fun saved hsaved => ?_⟩
    cases saved with
    | error e => trivial
    | ok u =>
      have hsnapshot : (c.snapshot existing).id = c.runId := hid
      show ∃ run, (({ s.1 with steps := s.1.steps + 1 } : RuntimeWorld).saveRun
        (c.snapshot existing)).2.runs c.runId = some run ∧ run.status = c.state
      unfold RuntimeWorld.saveRun
      rw [hsnapshot, hexisting]
      exact ⟨_, Function.update_self _ _ _, rfl⟩

theorem buildResult_status {c : RuntimeContext} {result : AgentResult}
    (h : AgentRuntime.buildResult c = .ok result) (hwaiting : c.state = .waiting) :
    result.status = .waiting := by
  unfold AgentRuntime.buildResult at h
  rw [hwaiting] at h
  cases h
  rfl

theorem conclude_meets {c : RuntimeContext} (interrupted : Bool) (h : s.1.Keyed) :
    (AgentRuntime.conclude c interrupted).Meets (alone env)
      (fun result s' => EndedBy c.runId result s'.1) (fun _ _ => True) s := by
  unfold AgentRuntime.conclude
  cases hresult : AgentRuntime.buildResult c with
  | error e => trivial
  | ok result =>
    simp only [Prog.bind_eq, Prog.ofExcept_ok, Prog.ret_bind]
    refine ((alone_meets _ h).mono (fun _ _ hk => hk) fun _ _ _ => trivial).bind fun _ s₁ h₁ => ?_
    refine ((alone_meets _ h₁).mono (fun _ _ hk => hk) fun _ _ _ => trivial).bind fun _ s₂ h₂ => ?_
    have hfinal : (uncontexted (AgentRuntime.finalizeRun c)).Meets (alone env)
        (fun _ s' => ∃ run, s'.1.runs c.runId = some run ∧ run.status = c.state)
        (fun _ _ => True) s₂ := by
      have hfinalize : (AgentRuntime.finalizeRun c).Meets (alone env)
          (fun _ s' => ∃ run, s'.1.runs c.runId = some run ∧ run.status = c.state)
          (fun _ _ => True) s₂ := by
        refine (saveContextSnapshot_meets h₂).bind fun _ s₃ h₃ => ?_
        cases AgentRuntime.terminalEvent c.state with
        | none => trivial
        | some type => exact ⟨trivial, fun _ _ => h₃⟩
      refine hfinalize.attempt.bind fun outcome s₃ h₃ => ?_
      cases outcome with
      | ok u => exact h₃
      | error x => trivial
    refine hfinal.bind fun _ s₃ h₃ => ?_
    obtain ⟨run, hrun, hstatus⟩ := h₃
    cases interrupted with
    | true => trivial
    | false =>
      exact ⟨run, hrun, fun hwaiting => buildResult_status hresult (hstatus.symm.trans hwaiting)⟩

theorem closing_meets {c : RuntimeContext} (interrupted : Bool) (h : s.1.Keyed) :
    (AgentRuntime.closing c (AgentRuntime.conclude c interrupted)).Meets (alone env)
      (fun result s' => EndedBy c.runId result s'.1) (fun _ _ => True) s := by
  refine ((alone_meets _ h).mono (fun _ _ hk => hk) fun _ _ _ => trivial).bind fun _ s' h' => ?_
  exact conclude_meets interrupted h'

theorem guarded_meets {c : RuntimeContext} (hstate : c.state = .running) (hid : c.runId = runId)
    (h : s.1.Keyed) (hrun : s.1.runs runId ≠ none) :
    (AgentRuntime.guarded agent fuel c).Meets (alone env)
      (fun result s' => EndedBy runId result s'.1) (fun e _ => e.refusal = false) s := by
  have hhere : (ownScript env agent runId none).Here .head c () := ⟨hstate, hid⟩
  have hraised : (AgentRuntime.guarded agent fuel c).Meets (alone env) (fun _ _ => True)
      (fun e _ => e.refusal = false) s := by
    refine (Meets.of_safe hhere.safe_guarded (fun _ _ _ _ => trivial) ⟨h, hrun⟩).mono
      (fun _ _ _ => trivial) ?_
    rintro e s' ⟨g', -, ⟨rfl, -⟩ | ⟨-, hout⟩⟩
    · rfl
    · exact hout
  have hanswered : (AgentRuntime.guarded agent fuel c).Meets (alone env)
      (fun result s' => EndedBy runId result s'.1) (fun _ _ => True) s := by
    refine (Meets.of_safe hhere.safe_body (fun _ _ _ _ => trivial) ⟨h, hrun⟩).attempt.bind
      fun outcome s₁ h₁ => ?_
    cases outcome with
    | ok c' =>
      obtain ⟨_, ⟨hkeyed, -⟩, hstopped⟩ := h₁
      have hown : c'.runId = runId := by
        cases hstopped with
        | inl hsuspended => exact hsuspended.2
        | inr hended => exact hended.2
      rw [← hown]
      exact closing_meets false hkeyed
    | error x =>
      obtain ⟨e, c'⟩ := x
      obtain ⟨_, hinv, hleft⟩ := h₁
      cases hleft with
      | inl hexhausted =>
        obtain ⟨rfl, -⟩ := hexhausted
        trivial
      | inr hdropped =>
        refine (Meets.of_safe hdropped.safe_recover (fun _ _ _ _ => trivial) hinv).attempt.bind
          fun outcome s₂ h₂ => ?_
        cases outcome with
        | ok c'' =>
          obtain ⟨_, ⟨hkeyed, -⟩, hstopped⟩ := h₂
          have hown : c''.runId = runId := by
            cases hstopped with
            | inl hsuspended => exact hsuspended.2
            | inr hended => exact hended.2
          rw [← hown]
          exact closing_meets _ hkeyed
        | error x =>
          obtain ⟨_, -, hmissing, -⟩ := h₂
          exact hmissing.elim
  exact (hanswered.and hraised).mono (fun _ _ hs => hs.1) fun _ _ hs => hs.2

/-- The end of an interrupted Run raises nothing but the interruption. -/
theorem settle_meets {Q : AgentResult → RuntimeWorld × List (RuntimeEntry Unit) → Prop}
    (h : s.1.Keyed) :
    ((Agent.settleTaskInterruption runId).bind fun _ => .raise .cancelled).Meets (alone env) Q
      (fun e _ => e.refusal = false) s := by
  have hsettle : (Agent.settleTaskInterruption runId).Meets (alone env) (fun _ _ => True)
      (fun e _ => e.refusal = false) s := by
    refine (alone_meets (finalizeTaskInterruption runId) h).attempt.bind fun outcome s' _ => ?_
    cases outcome with
    | ok run => trivial
    | error e => cases e <;> trivial
  exact hsettle.bind fun _ _ _ => rfl

theorem answer_runId {c c' : RuntimeContext} {input : Option String}
    {confirmation : Option ToolConfirmation}
    (h : AgentRuntime.answer agent c input confirmation = .ok c') : c'.runId = c.runId := by
  obtain ⟨pending, -, hdecided | hreceived⟩ := AgentRuntime.answer_ok agent h
  · obtain ⟨-, d, -, -, rfl⟩ := hdecided
    rfl
  · obtain ⟨-, -, text, rfl⟩ := hreceived
    rfl

theorem prepareResume_meets {c c' : RuntimeContext} {input : Option String}
    {confirmation : Option ToolConfirmation} (hstate : c.state = .waiting) (hid : c.runId = runId)
    (hanswer : AgentRuntime.answer agent c input confirmation = .ok c') (h : s.1.Keyed)
    (hrun : s.1.runs runId ≠ none) :
    (uncontexted (AgentRuntime.prepareResume agent c input confirmation)).Meets (alone env)
      (fun c' s' => c'.state = .running ∧ c'.runId = runId ∧ s'.1.Keyed ∧ s'.1.runs runId ≠ none)
      (fun e _ => e.refusal = false) s := by
  have hsafe : (ownOutline runId).Safe env.exec () ((ownScript env agent runId none).Here .head)
      (fun x g => x.1 ≠ .exhausted ∧ (ownScript env agent runId none).Out x.1 g)
      (AgentRuntime.prepareResume agent c input confirmation) () := by
    refine Script.safe_prepareResume hstate (fun c₁ hc₁ => ?_) fun e he => ?_
    · exact (answer_runId hc₁).trans hid
    · rw [hanswer] at he
      cases he
  refine (Meets.of_safe hsafe (fun _ _ _ _ => trivial) ⟨h, hrun⟩).attempt.bind
    fun outcome s' hs' => ?_
  cases outcome with
  | ok c' =>
    obtain ⟨_, ⟨hkeyed, hsome⟩, hrunning, hown⟩ := hs'
    exact ⟨hrunning, hown, hkeyed, hsome⟩
  | error x =>
    obtain ⟨_, -, -, hout⟩ := hs'
    exact hout

/-- The Run is answered, or what is raised is a refusal of its answer, which changes no Run. -/
theorem execute_meets {checkpoint : RuntimeCheckpoint} (hid : checkpoint.runId = runId)
    {input : String} (h : s.1.Keyed) (hrun : s.1.runs runId ≠ none) :
    (AgentRuntime.execute agent fuel checkpoint.restore (some input) none).Meets (alone env)
      (fun result s' => EndedBy runId result s'.1)
      (fun e s' => e.refusal = true → s'.1.runs = s.1.runs ∧
        AgentRuntime.answer agent checkpoint.restore (some input) none = .error e) s := by
  show ((uncontexted (AgentRuntime.prepareResume agent checkpoint.restore (some input) none)).bind
    (AgentRuntime.guarded agent fuel)).Meets (alone env) _ _ s
  cases hanswer : AgentRuntime.answer agent checkpoint.restore (some input) none with
  | error e =>
    unfold AgentRuntime.prepareResume
    rw [hanswer]
    exact fun _ => ⟨rfl, rfl⟩
  | ok c =>
    refine ((prepareResume_meets rfl hid hanswer h hrun).bind fun c' s' hs' =>
      guarded_meets hs'.1 hs'.2.1 hs'.2.2.1 hs'.2.2.2).mono (fun _ _ hq => hq) fun e _ he hr => ?_
    rw [he] at hr
    cases hr

theorem restored_meets {checkpoint : RuntimeCheckpoint} (hid : checkpoint.runId = runId)
    {input : String} (h : s.1.Keyed) (hrun : s.1.runs runId ≠ none) :
    (agent.restored fuel runId (some input) none checkpoint).Meets (alone env)
      (fun result s' => EndedBy runId result s'.1)
      (fun e s' => e.refusal = true → s'.1.runs = s.1.runs ∧
        AgentRuntime.answer agent checkpoint.restore (some input) none = .error e) s := by
  refine ((execute_meets hid h hrun).and (alone_meets _ h)).attempt.bind fun outcome s' hs' => ?_
  cases outcome with
  | ok result => exact hs'.1
  | error e =>
    have hresave : ∀ e, (e.refusal = true → s'.1.runs = s.1.runs ∧
          AgentRuntime.answer agent checkpoint.restore (some input) none = .error e) →
        (Prog.call (.saveCheckpoint checkpoint) fun _ => .raise e : RuntimeProg AgentResult).Meets
          (alone env) (fun result s' => EndedBy runId result s'.1)
          (fun e s' => e.refusal = true → s'.1.runs = s.1.runs ∧
            AgentRuntime.answer agent checkpoint.restore (some input) none = .error e) s' :=
      fun e he => ⟨trivial, fun _ _ => he⟩
    cases e with
    | exhausted => exact fun hr => by cases hr
    | cancelled =>
      refine (settle_meets hs'.2).mono (fun _ _ hq => hq) fun e _ he hr => ?_
      rw [he] at hr
      cases hr
    | _ => exact hresave _ hs'.1

theorem answer_refused {checkpoint : RuntimeCheckpoint} {input : String} {e : RuntimeError}
    (hinput : isBlank input = false)
    (h : AgentRuntime.answer agent checkpoint.restore (some input) none = .error e) :
    isConfirmation checkpoint.pendingInput.metadata = true := by
  by_contra hnot
  rw [Bool.not_eq_true] at hnot
  have hpending : checkpoint.restore.pendingInput = some checkpoint.pendingInput := rfl
  unfold AgentRuntime.answer AgentRuntime.receive at h
  simp only [hpending, hnot, hinput] at h
  cases h

theorem require_refusal {names : List String} {e : RuntimeError}
    (h : ToolExecutor.require agent names = .error e) : e.refusal = false := by
  induction names with
  | nil => cases h
  | cons name rest ih =>
    unfold ToolExecutor.require at h
    split at h
    · cases h
      rfl
    · cases hrest : ToolExecutor.require agent rest with
      | ok tools =>
        rw [hrest] at h
        cases h
      | error e' =>
        rw [hrest] at h
        cases h
        exact ih hrest

theorem admit_refused {checkpoint : RuntimeCheckpoint} {e : RuntimeError}
    (h : agent.admitCheckpoint runId checkpoint = .error e) (he : e.refusal = true) :
    checkpoint.profile.id ≠ agent.profile.id := by
  intro hprofile
  unfold Agent.admitCheckpoint raiseIf at h
  rw [if_neg (not_not_intro hprofile)] at h
  cases hrequire : ToolExecutor.require agent checkpoint.enabledToolNames with
  | ok tools =>
    rw [hrequire] at h
    cases h
  | error e' =>
    rw [hrequire] at h
    cases h
    rw [require_refusal hrequire] at he
    cases he

theorem admit_tools {checkpoint : RuntimeCheckpoint} {u : Unit}
    (h : agent.admitCheckpoint runId checkpoint = .ok u) :
    (ToolExecutor.require agent checkpoint.enabledToolNames).toOption.isSome = true := by
  unfold Agent.admitCheckpoint raiseIf at h
  split at h
  · cases h
  · cases hrequire : ToolExecutor.require agent checkpoint.enabledToolNames with
    | ok tools => rfl
    | error e =>
      rw [hrequire] at h
      cases h

/-- A Run is answered, or the refusal leaves every Run as it is.  A Run that waits is refused as
`refuses` says. -/
theorem resume_meets {input : String} (h : s.1.Keyed) (hfiled : s.1.Filed) :
    (agent.resume fuel runId input).Meets (alone env)
      (fun result s' => EndedBy runId result s'.1)
      (fun e s' => e.refusal = true → s'.1.runs = s.1.runs ∧
        ∀ run, s.1.runs runId = some run → run.status = .waiting →
          refuses agent s.1 runId input = true) s := by
  unfold Agent.resume
  split
  · rename_i hblank
    exact fun _ => ⟨rfl, fun _ _ _ => by simp [refuses, hblank]⟩
  rename_i hinput
  rw [Bool.not_eq_true] at hinput
  refine ⟨trivial, fun found hfound => ?_⟩
  have hget : found = s.1.getRun runId := hfound
  cases found with
  | error e =>
    have hnone := RuntimeWorld.getRun_none hget.symm
    refine fun _ => ⟨rfl, fun run hrun => ?_⟩
    rw [hnone] at hrun
    cases hrun
  | ok run =>
    have hrun := RuntimeWorld.getRun_ok hget.symm
    show (if run.status = .waiting then _ else _ : RuntimeProg AgentResult).Meets _ _ _ _
    split
    · refine ⟨trivial, fun loaded hloaded => ?_⟩
      have hload : loaded = s.1.loadCheckpoint runId := hloaded
      cases hcheckpoint : s.1.checkpoints runId with
      | none =>
        have hmissing : loaded = .error (RuntimeWorld.checkpointNotFound runId "") := by
          rw [hload, RuntimeWorld.loadCheckpoint, hcheckpoint]
          rfl
        rw [hmissing]
        exact fun hr => by cases hr
      | some checkpoint =>
        have hfound : loaded = .ok checkpoint := by
          rw [hload, RuntimeWorld.loadCheckpoint, hcheckpoint]
          rfl
        rw [hfound]
        show ((Prog.ofExcept (agent.admitCheckpoint runId checkpoint)).bind _).Meets _ _ _ _
        cases hchecked : agent.admitCheckpoint runId checkpoint with
        | error e =>
          intro hr
          exact ⟨rfl, fun _ _ _ => by simp [refuses, hcheckpoint, admit_refused hchecked hr]⟩
        | ok u =>
          have hexec : env.exec (.claimCheckpoint runId) { s.1 with steps := s.1.steps + 1 + 1 } =
              (.ok checkpoint, { s.1.setCheckpoint runId none with steps := s.1.steps + 1 + 1 + 1 }) :=
            RuntimeEnv.exec_claimCheckpoint_some hcheckpoint
          refine ⟨trivial, fun claimed hclaimed => ?_⟩
          have hclaim : claimed = .ok checkpoint := Eq.trans hclaimed (congrArg Prod.fst hexec)
          rw [hclaim]
          have hafter := congrArg (fun reply => reply.2.runs) hexec
          have hkeyed : (env.exec (.claimCheckpoint runId)
              { s.1 with steps := s.1.steps + 1 + 1 }).2.Keyed := RuntimeEnv.exec_keyed h
          have hsome : (env.exec (.claimCheckpoint runId)
              { s.1 with steps := s.1.steps + 1 + 1 }).2.runs runId ≠ none :=
            RuntimeEnv.exec_runs (by simp [hrun])
          refine (restored_meets (hfiled runId checkpoint hcheckpoint) hkeyed hsome).mono
            (fun _ _ hq => hq) fun e s' he hr => ?_
          obtain ⟨hsame, hanswer⟩ := he hr
          refine ⟨hsame.trans hafter, fun _ _ _ => ?_⟩
          simp [refuses, hcheckpoint, admit_tools hchecked, answer_refused hinput hanswer]
    · rename_i hnot
      refine fun _ => ⟨rfl, fun run' hrun' hwaiting => ?_⟩
      rw [hrun] at hrun'
      cases hrun'
      exact absurd hwaiting hnot

theorem answer_confirmation {checkpoint : RuntimeCheckpoint} {input : String}
    (h : isConfirmation checkpoint.pendingInput.metadata = true) :
    ∃ message, AgentRuntime.answer agent checkpoint.restore (some input) none =
      .error (.value message) := by
  have hpending : checkpoint.restore.pendingInput = some checkpoint.pendingInput := rfl
  unfold AgentRuntime.answer AgentRuntime.decide
  simp only [hpending, h, if_true]
  exact ⟨_, rfl⟩

theorem refuses_meets {input : String} {run : Run} (hrun : s.1.runs runId = some run)
    (hwaiting : run.status = .waiting) (h : refuses agent s.1 runId input = true) :
    (agent.resume fuel runId input).Meets (alone env) (fun _ _ => False)
      (fun e _ => e.refusal = true) s := by
  unfold Agent.resume
  split
  · rfl
  rename_i hinput
  unfold refuses at h
  rw [Bool.not_eq_true] at hinput
  rw [hinput, Bool.false_or] at h
  refine ⟨trivial, fun found hfound => ?_⟩
  have hget : found = .ok run := by
    rw [show found = s.1.getRun runId from hfound, RuntimeWorld.getRun, hrun]
  rw [hget]
  show (if run.status = .waiting then _ else _ : RuntimeProg AgentResult).Meets _ _ _ _
  rw [if_pos hwaiting]
  cases hcheckpoint : s.1.checkpoints runId with
  | none =>
    rw [hcheckpoint] at h
    cases h
  | some checkpoint =>
    rw [hcheckpoint, Bool.or_eq_true, Bool.and_eq_true] at h
    refine ⟨trivial, fun loaded hloaded => ?_⟩
    have hload : loaded = .ok checkpoint := by
      rw [show loaded = s.1.loadCheckpoint runId from hloaded, RuntimeWorld.loadCheckpoint,
        hcheckpoint]
      rfl
    rw [hload]
    show ((Prog.ofExcept (agent.admitCheckpoint runId checkpoint)).bind _).Meets _ _ _ _
    by_cases hprofile : checkpoint.profile.id ≠ agent.profile.id
    · have hchecked : ∃ message, agent.admitCheckpoint runId checkpoint = .error (.value message) := by
        unfold Agent.admitCheckpoint raiseIf
        rw [if_pos hprofile]
        exact ⟨_, rfl⟩
      obtain ⟨message, hchecked⟩ := hchecked
      rw [hchecked]
      rfl
    · obtain ⟨htools, hconfirmation⟩ : (ToolExecutor.require agent
          checkpoint.enabledToolNames).toOption.isSome = true ∧
            isConfirmation checkpoint.pendingInput.metadata = true := by
        cases h with
        | inl hother => exact absurd (by simpa using hother) hprofile
        | inr hboth => exact hboth
      have hchecked : agent.admitCheckpoint runId checkpoint = .ok () := by
        unfold Agent.admitCheckpoint raiseIf
        rw [if_neg hprofile]
        cases hrequire : ToolExecutor.require agent checkpoint.enabledToolNames with
        | ok tools => rfl
        | error e =>
          rw [hrequire] at htools
          cases htools
      rw [hchecked]
      have hexec : env.exec (.claimCheckpoint runId) { s.1 with steps := s.1.steps + 1 + 1 } =
          (.ok checkpoint, { s.1.setCheckpoint runId none with steps := s.1.steps + 1 + 1 + 1 }) :=
        RuntimeEnv.exec_claimCheckpoint_some hcheckpoint
      refine ⟨trivial, fun claimed hclaimed => ?_⟩
      have hclaim : claimed = .ok checkpoint := Eq.trans hclaimed (congrArg Prod.fst hexec)
      rw [hclaim]
      obtain ⟨message, hanswer⟩ : ∃ message, AgentRuntime.answer agent checkpoint.restore
          (some input) none = .error (.value message) := answer_confirmation hconfirmation
      show ((AgentRuntime.execute agent fuel checkpoint.restore (some input) none).attempt.bind
        _).Meets _ _ _ _
      have hexecute : AgentRuntime.execute agent fuel checkpoint.restore (some input) none =
          .raise (.value message) := by
        show (uncontexted (AgentRuntime.prepareResume agent checkpoint.restore (some input)
          none)).bind (AgentRuntime.guarded agent fuel) = _
        unfold AgentRuntime.prepareResume
        rw [hanswer]
        rfl
      rw [hexecute]
      exact ⟨trivial, fun _ _ => rfl⟩

variable {w w' : RuntimeWorld} {input : String}

theorem resume_ok {result : AgentResult} (hkeyed : w.Keyed) (hfiled : w.Filed)
    (h : (agent.resume fuel runId input).eval env.exec w = (.ok result, w')) :
    EndedBy runId result w' := by
  have hmeets : (agent.resume fuel runId input).Meets (alone env) _ _ (w, []) :=
    resume_meets hkeyed hfiled
  have houtcome := hmeets.recorded
  rw [h] at houtcome
  exact houtcome

theorem resume_error {e : RuntimeError} (hkeyed : w.Keyed) (hfiled : w.Filed)
    (h : (agent.resume fuel runId input).eval env.exec w = (.error e, w'))
    (he : e.refusal = true) :
    w'.runs = w.runs ∧ ∀ run, w.runs runId = some run → run.status = .waiting →
      refuses agent w runId input = true := by
  have hmeets : (agent.resume fuel runId input).Meets (alone env) _ _ (w, []) :=
    resume_meets hkeyed hfiled
  have houtcome := hmeets.recorded
  rw [h] at houtcome
  exact houtcome he

theorem resume_refused_iff {run : Run} (hkeyed : w.Keyed) (hfiled : w.Filed)
    (hrun : w.runs runId = some run) (hwaiting : run.status = .waiting) :
    (∃ e, ((agent.resume fuel runId input).eval env.exec w).1 = .error e ∧ e.refusal = true) ↔
      refuses agent w runId input = true := by
  constructor
  · rintro ⟨e, he, hrefusal⟩
    exact (resume_error hkeyed hfiled (Prod.ext he rfl) hrefusal).2 run hrun hwaiting
  · intro h
    have hmeets : (agent.resume fuel runId input).Meets (alone env) _ _ (w, []) :=
      refuses_meets hrun hwaiting h
    have houtcome := hmeets.recorded
    cases hresult : ((agent.resume fuel runId input).eval env.exec w).1 with
    | ok result =>
      rw [hresult] at houtcome
      exact houtcome.elim
    | error e =>
      rw [hresult] at houtcome
      exact ⟨e, rfl, houtcome⟩

end Resumption

end Runtime
end BaseAgent

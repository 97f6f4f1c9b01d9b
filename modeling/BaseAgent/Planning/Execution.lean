import BaseAgent.Planning.Engine
import BaseAgent.Planning.Rounds

/-!
# A whole execution

The rule for the turns of a strategy is carried on to `AgentRuntime.execute`.  `Turns` is what
is needed of the strategy, and `Lifecycle` is what is needed of the code around its turns: how
an execution is entered, what an exception leaves, and how the execution is concluded.
-/

namespace BaseAgent
namespace Runtime

open Async Prog

variable {S : Type} {L : Observer RuntimeOp RuntimeOp.Ret S}

theorem uncontexted_meets {α : Type} {Q : α → S → Prop} {E : RuntimeError → S → Prop}
    {p : ContextProg α} {s : S} (h : p.Meets L Q (fun x s' => E x.1 s') s) :
    (uncontexted p).Meets L Q E s := by
  refine h.attempt.bind fun outcome s' h' => ?_
  cases outcome with
  | ok a => exact h'
  | error x => exact h'

def RuntimeContext.resumed (c : RuntimeContext) : RuntimeContext :=
  { c with pendingInput := none, output := none, error := none, state := .running }

namespace Course

structure Turns (C : Course L) (strategy : OrchestrationStrategy) (agent : Agent) : Prop where
  advance {c s} : C.At .rest c s → c.state = .running →
    C.Leads (strategy.advance agent c) (fun c' s' => C.At .rest c' s') s
  settle {c s} : C.At .ended c s →
    C.Leads (strategy.settle c) (fun c' s' => C.At .settled c' s') s

theorem PlanSpec.turns {C : Course L} {strategy : PlanningStrategy} {agent : Agent}
    (P : C.PlanSpec strategy agent)
    (hended : ∀ {c s}, C.At .ended c s → c.state ≠ .running → C.At .left c s)
    (hrunning : ∀ {c s}, C.At .ended c s → c.state = .running → C.At .settled c s)
    (hsettled : ∀ {c s}, C.At .rest c s → c.Settled → C.At .settled c s) :
    C.Turns (.planning strategy) agent where
  advance h hstate := P.advance_leads h hstate
  settle {c s} h := by
    show C.Leads (PlanningStrategy.settleTerminalPlan c) _ s
    by_cases hstate : c.state = .running
    · rw [PlanSpec.settleTerminalPlan_running hstate]
      exact hrunning h hstate
    · exact (P.settleTerminalPlan_leads (hended h hstate)).weaken
        fun _ _ h' => hsettled h'.1 h'.2

/-- The methods of `ModelToolStrategy` do what the turn needs, given how a Run completes. -/
theorem HookSpec.ofModelTool {C : Course L} {agent : Agent}
    (ask : ∀ {c s tools}, C.At .rest c s → c.state = .running →
      c.supervision.suspendedActionBatch = none →
      ModelToolStrategy.toolDefinitions agent c = .ok tools →
      Allowed L s (.complete c.runId ⟨c.messages, tools⟩) fun r s' =>
        C.At .rest c s' ∧ ∀ response, r = .ok response →
          C.At (.batch response response.toolCalls) c s')
    (completed : ∀ {c s} (text : String), C.At .rest c s → c.state = .running →
      C.At .left { c with output := some text, state := .completed } s) :
    C.HookSpec (ModelToolStrategy.hooks agent) where
  ask := ask
  before h hstate hbatch := ⟨h, hstate, hbatch⟩
  selected h := h
  recorded h := h
  iterated h := h
  complete text h hstate _ := by
    show C.Leads (transitionTo _ .completed) _ _
    rw [transitionTo_completed hstate]
    exact completed text h hstate
  fail text h hstate := by
    show C.Leads (ModelToolStrategy.failExecution _ text) _ _
    rw [failExecution_running hstate]
    exact C.left (C.leave h hstate rfl)
  wait h := ⟨C.waited h, C.waitingState h⟩

theorem HookSpec.turns {C : Course L} {agent : Agent}
    (H : C.HookSpec (ModelToolStrategy.hooks agent))
    (hleft : ∀ {c s}, C.At .left c s → C.At .rest c s)
    (hended : ∀ {c s}, C.At .ended c s → C.At .settled c s) : C.Turns .modelTool agent where
  advance h hstate := by
    show C.Leads (ModelToolStrategy.advance agent _) _ _
    rw [← ModelToolStrategy.hooks_advance]
    exact (H.advance_leads agent hstate h).weaken fun _ _ => hleft
  settle h := hended h

structure Lifecycle (C : Course L) where
  /-- The context can be executed. -/
  Entry : RuntimeContext → S → Prop
  /-- The execution may end here with an exception. -/
  Ended : S → Prop
  /-- The execution may return here. -/
  Done : AgentResult → S → Prop
  refused {c s} : Entry c s → Ended s
  opens {c s} : Entry c s → c.state = .created ∨ c.state = .running →
    Allowed L s (.createRun (AgentRuntime.newRun c)) fun r s' =>
      (r = .ok () → C.At .rest c s') ∧ ∀ e, r = .error e → Ended s'
  started {c s} : C.At .rest c s → c.state = .created → C.At .rest { c with state := .running } s
  resumes {c s} : Entry c s → c.state = .waiting → C.At .rest c.resumed s
  finishes {c s} : C.At .rest c s → C.At .ended c s
  caught {c s e} (text : String) : C.Thrown e c s → e ≠ .cancelled →
    (c.state = .running → C.At .ended (c.endedWith .failed text) s) ∧
      (c.state ≠ .running → C.At .ended { c with error := some text } s)
  interrupts {c s} : C.Thrown .cancelled c s → Allowed L s (.getRun c.runId) fun r s' =>
    (∀ run status text, r = .ok run → status = .cancelled ∨ status = .interrupted →
      (c.state.terminal = true → C.At .ended { c with error := some text } s') ∧
        (c.state.terminal = false → C.At .ended (c.endedWith status text) s')) ∧
    ∀ e, r = .error e → C.At .ended c s'
  failed {c s e} : C.Thrown e c s → Ended s
  ends {m c s} : m = .ended ∨ m = .settled ∨ m = .closed → C.At m c s → Ended s
  checkpoint {c s checkpoint} : C.At .settled c s →
    RuntimeCheckpoint.fromContext c = .ok checkpoint →
    Allowed L s (.saveCheckpoint checkpoint) fun _ s' => C.At .closed c s'
  unchecked {c s} : C.At .settled c s → c.state ≠ .waiting →
    Allowed L s (.deleteCheckpoint c.runId) fun _ s' => C.At .closed c s'
  final {c s run} : C.At .closed c s → C.Read c run →
    Allowed L s (.saveRun (c.snapshot run)) fun _ s' => C.At .closed c s'
  done {c s result} : C.At .closed c s → AgentRuntime.buildResult c = .ok result → Done result s

namespace Lifecycle

variable {C : Course L} (R : C.Lifecycle)
variable {c : RuntimeContext} {s : S}

/-- The exceptions that an execution may raise.  One that has not ended raises nothing. -/
def Raised (e : RuntimeError) (s : S) : Prop := e ≠ .exhausted → R.Ended s

/-- The program of an execution returns what is done, or it raises. -/
abbrev Ends (p : RuntimeProg AgentResult) (s : S) : Prop := p.Meets L R.Done R.Raised s

/-! ## Entering -/

omit R in
theorem emitSkills_leads {m : Mode} (skills : List Skill) (h : C.At m c s) :
    C.Leads (AgentRuntime.emitSkills c skills) (fun _ s' => C.At m c s') s := by
  induction skills generalizing s with
  | nil => exact h
  | cons skill rest ih =>
    refine (emit_leads _ h).bind fun _ s₁ h₁ => ?_
    refine (emit_leads _ h₁).bind fun _ s₂ h₂ => ?_
    exact ih h₂

/-- A program of the course whose exceptions leave the execution. -/
theorem escaping {α : Type} {Q : α → S → Prop} {p : ContextProg α} (h : C.Leads p Q s) :
    p.Meets L Q (fun _ s' => R.Ended s') s :=
  h.mono (fun _ _ h' => h') fun _ _ h' => R.failed h'

theorem createRun_meets (h : R.Entry c s) (hstate : c.state = .created ∨ c.state = .running) :
    (PlanningAgent.createRun c).Meets L (fun _ s' => C.At .rest c s') (fun _ s' => R.Ended s')
      s := by
  have hplan : ∀ s', C.At .rest c s' →
      C.Leads (if c.plan.isSome then emit c .planCreated else .ret ())
        (fun _ s'' => C.At .rest c s'') s' := by
    intro s' h'
    split
    · exact emit_leads _ h'
    · exact h'
  have hcreate : (AgentRuntime.createRun c).Meets L (fun _ s' => C.At .rest c s')
      (fun _ s' => R.Ended s') s := by
    refine (R.opens h hstate).call fun r s₁ h₁ => ?_
    cases r with
    | error e => exact h₁.2 e rfl
    | ok u =>
      apply R.escaping
      refine (emit_leads _ (h₁.1 rfl)).bind fun _ s₂ h₂ => ?_
      exact emitSkills_leads c.skills h₂
  exact hcreate.bind fun _ s' h' => R.escaping (hplan s' h')

theorem start_meets (h : R.Entry c s) (hstate : c.state = .created ∨ c.state = .running) :
    (PlanningAgent.start c).Meets L (fun c' s' => C.At .rest c' s' ∧ c'.state = .running)
      (fun _ s' => R.Ended s') s := by
  have hstarted : ∀ s', C.At .rest c s' →
      C.Leads (PlanningAgent.started c) (fun c' s'' => C.At .rest c' s'' ∧ c'.state = .running)
        s' := by
    intro s' h'
    unfold PlanningAgent.started
    split
    · rename_i hcreated
      rw [transitionTo_ret (by rw [hcreated]; rfl)]
      exact ⟨R.started h' hcreated, rfl⟩
    · rename_i hcreated
      exact ⟨h', hstate.resolve_left hcreated⟩
  refine (R.createRun_meets h hstate).bind fun _ s₁ h₁ => ?_
  apply R.escaping
  refine (hstarted s₁ h₁).bind fun c' s₂ h₂ => ?_
  refine (snapshot_leads h₂.1 (.inl h₂.2)).bind fun _ s₃ h₃ => ?_
  refine (emit_leads _ h₃).bind fun _ s₄ h₄ => ?_
  exact ⟨h₄, h₂.2⟩

omit R in
/-- The answer to a waiting context changes what is said in it, not where it stands. -/
theorem answer_alike {agent : Agent} {c' : RuntimeContext} {input : Option String}
    {confirmation : Option ToolConfirmation}
    (h : AgentRuntime.answer agent c input confirmation = .ok c') :
    c'.state = c.state ∧ c.resumed.Alike c'.resumed := by
  obtain ⟨pending, -, hanswer⟩ := AgentRuntime.answer_ok agent h
  cases hanswer with
  | inl hdecided =>
    obtain ⟨-, d, -, -, rfl⟩ := hdecided
    exact ⟨rfl, {}⟩
  | inr hreceived =>
    obtain ⟨-, -, text, rfl⟩ := hreceived
    exact ⟨rfl, {}⟩

theorem prepareResume_meets (agent : Agent) (input : Option String)
    (confirmation : Option ToolConfirmation) (h : R.Entry c s) (hstate : c.state = .waiting) :
    (AgentRuntime.prepareResume agent c input confirmation).Meets L
      (fun c' s' => C.At .rest c' s' ∧ c'.state = .running) (fun _ s' => R.Ended s') s := by
  unfold AgentRuntime.prepareResume
  cases hanswer : AgentRuntime.answer agent c input confirmation with
  | error e => exact R.refused h
  | ok c' =>
    obtain ⟨hstate', halike⟩ := answer_alike hanswer
    have hat : C.At .rest c'.resumed s := C.alike halike (R.resumes h hstate)
    have htransition : transitionTo
        { c' with pendingInput := none, output := none, error := none } .running =
          .ret c'.resumed := by
      apply transitionTo_ret
      show RuntimeContext.allowed c'.state .running = true
      rw [hstate', hstate]
      rfl
    simp only [lift, bind_eq, ret_bind, htransition]
    apply R.escaping
    refine (snapshot_leads hat (.inl rfl)).bind fun _ s₁ h₁ => ?_
    have hemits : C.Leads (AgentRuntime.emitAnswer c'.resumed confirmation)
        (fun _ s' => C.At .rest c'.resumed s') s₁ := by
      cases confirmation with
      | none => exact emit_leads _ h₁
      | some confirmation =>
        refine (emit_leads _ h₁).bind fun _ s₂ h₂ => ?_
        split
        · exact emit_leads _ h₂
        · exact h₂
    refine hemits.bind fun _ s₂ h₂ => ?_
    refine (emit_leads _ h₂).bind fun _ s₃ h₃ => ?_
    exact ⟨h₃, rfl⟩

theorem enter_meets (p : PlanningAgent) (input : Option String)
    (confirmation : Option ToolConfirmation) (h : R.Entry c s) :
    (p.enter c input confirmation).Meets L
      (fun c' s' => C.At .rest c' s' ∧ c'.state = .running) (fun _ s' => R.Ended s') s := by
  unfold PlanningAgent.enter
  split
  · rename_i hstate
    exact R.start_meets h (.inl hstate)
  · rename_i hstate
    exact R.start_meets h (.inr hstate)
  · rename_i hstate
    exact R.prepareResume_meets p.agent input confirmation h hstate
  · exact R.refused h

/-! ## The loop -/

omit R

theorem startResources_leads (names : List String) (h : C.At .rest c s)
    (hstate : c.state = .running) :
    C.Leads (AgentRuntime.startResources names c)
      (fun c' s' => C.At .rest c' s' ∧ c'.state = .running) s := by
  induction names generalizing c s with
  | nil => exact ⟨h, hstate⟩
  | cons name rest ih =>
    have hacquire : C.Leads (AgentRuntime.acquire c name)
        (fun c' s' => C.At .rest c' s' ∧ c'.state = .running) s := by
      refine (C.tame (by trivial) h).call fun reply s₁ h₁ => ?_
      cases reply with
      | ok u =>
        have hat : C.At .rest { c with acquired := c.acquired ++ [name] } s₁ := C.alike {} h₁
        refine (emit_leads _ hat).bind fun _ s₂ h₂ => ?_
        exact ⟨h₂, hstate⟩
      | error failure =>
        cases failure with
        | cancelled => exact C.thrown h₁ hstate
        | raised typeName message =>
          refine (emit_leads _ h₁).bind fun _ s₂ h₂ => ?_
          exact C.thrown h₂ hstate
    exact hacquire.bind fun c' s' h' => ih h'.1 h'.2

theorem initializeMemory_leads (agent : Agent) (h : C.At .rest c s) (hstate : c.state = .running) :
    C.Leads (AgentRuntime.initializeMemory agent c)
      (fun c' s' => C.At .rest c' s' ∧ c'.state = .running) s := by
  unfold AgentRuntime.initializeMemory
  split
  · exact ⟨h, hstate⟩
  · have hat : C.At .rest { c with memoryInitialized := true } s := C.alike {} h
    simp only
    cases agent.memory with
    | none => exact ⟨hat, hstate⟩
    | some required =>
      refine (C.tame (by trivial) hat).call fun reply s₁ h₁ => ?_
      cases reply with
      | ok u =>
        refine (emit_leads _ h₁).bind fun _ s₂ h₂ => ?_
        exact ⟨C.alike {} h₂, hstate⟩
      | error failure =>
        cases failure with
        | cancelled => exact C.thrown h₁ hstate
        | raised typeName message =>
          refine (emit_leads _ h₁).bind fun _ s₂ h₂ => ?_
          have hat' : C.At .rest
              { c with memoryInitialized := true, memoryError := some message } s₂ :=
            C.alike {} h₂
          split
          · exact C.thrown hat' hstate
          · exact ⟨hat', hstate⟩

variable {strategy : OrchestrationStrategy} {p : PlanningAgent}

theorem loop_leads (T : C.Turns strategy p.agent) (fuel : Nat) (h : C.At .rest c s) :
    C.Leads (p.loop strategy fuel c) (fun c' s' => C.At .rest c' s') s := by
  induction fuel generalizing c s with
  | zero =>
    unfold PlanningAgent.loop
    split
    · rename_i hstate
      exact C.thrown h hstate
    · exact h
  | succ fuel ih =>
    unfold PlanningAgent.loop
    split
    · rename_i hstate
      refine (cancelIfRequested_leads hstate (fun _ h' => h') h).bind fun r s₁ h₁ => ?_
      cases h₁ with
      | inr hsome =>
        obtain ⟨c', rfl, hat, -⟩ := hsome
        exact hat
      | inl hnone =>
        obtain ⟨rfl, h₁⟩ := hnone
        refine (C.look h₁ hstate).call fun reply s₂ h₂ => ?_
        cases reply with
        | error e => exact C.thrown h₂ hstate
        | ok answer =>
          obtain ⟨d, policies⟩ := answer
          have hat : C.At .rest (withPolicies c policies) s₂ := C.alike {} h₂
          have hrunning : (withPolicies c policies).state = .running := hstate
          have hsupervised : C.Leads (AgentRuntime.supervised (withPolicies c policies) d)
              (fun c' s' => C.At .rest c' s') s₂ := by
            unfold AgentRuntime.supervised
            split
            · refine (applySupervisionDecision_leads true hrunning (fun _ _ h' => h')
                hat).weaken fun c' s' h' => ?_
              cases h' with
              | inl hgoes => exact hgoes.2.2
              | inr hstops =>
                obtain ⟨-, -, -, -, hat', -⟩ := hstops
                exact hat'
            · exact hat
          refine hsupervised.bind fun c₃ s₃ h₃ => ?_
          split
          · rename_i hstate₃
            exact (T.advance h₃ hstate₃).bind fun c₄ s₄ h₄ => ih h₄
          · exact h₃
    · exact h

theorem body_leads (T : C.Turns strategy p.agent) (fuel : Nat) (h : C.At .rest c s)
    (hstate : c.state = .running) :
    C.Leads (p.body strategy fuel c) (fun c' s' => C.At .rest c' s') s := by
  refine (startResources_leads p.agent.eagerResources h hstate).bind fun c₁ s₁ h₁ => ?_
  refine (initializeMemory_leads p.agent h₁.1 h₁.2).bind fun c₂ s₂ h₂ => ?_
  exact loop_leads T fuel h₂.1

/-! ## The end of the execution -/

include R

omit R in
theorem interrupt_terminal {status : RunStatus} {text : String} (h : c.state.terminal = true) :
    AgentRuntime.interrupt c text status = .ret { c with error := some text } := by
  unfold AgentRuntime.interrupt
  simp only
  rw [if_pos h]

omit R in
theorem interrupt_live {status : RunStatus} {text : String}
    (hstatus : status = .cancelled ∨ status = .interrupted) (h : c.state.terminal = false) :
    AgentRuntime.interrupt c text status = .ret (c.endedWith status text) := by
  have hallowed : RuntimeContext.allowed c.state status = true := by
    cases hstate : c.state <;> cases hstatus <;>
      simp_all [RunStatus.terminal, RuntimeContext.allowed]
  unfold AgentRuntime.interrupt
  simp only [h]
  exact transitionTo_ret hallowed

theorem recover_meets {e : RuntimeError} (h : C.Thrown e c s) (he : e ≠ .exhausted) :
    (AgentRuntime.recover c e).Meets L (fun c' s' => C.At .ended c' s')
      (fun x s' => x.1 ≠ .exhausted → C.At .ended x.2 s') s := by
  have hfail : ∀ text, e ≠ .cancelled →
      (ModelToolStrategy.failExecution c text).Meets L (fun c' s' => C.At .ended c' s')
        (fun x s' => x.1 ≠ .exhausted → C.At .ended x.2 s') s := by
    intro text hnot
    obtain ⟨hrunning, hother⟩ := R.caught text h hnot
    by_cases hstate : c.state = .running
    · rw [failExecution_running hstate]
      exact hrunning hstate
    · unfold ModelToolStrategy.failExecution
      simp only [if_neg hstate]
      exact hother hstate
  have hinterrupt : ∀ s' status text, status = .cancelled ∨ status = .interrupted →
      (c.state.terminal = true → C.At .ended { c with error := some text } s') ∧
        (c.state.terminal = false → C.At .ended (c.endedWith status text) s') →
      (AgentRuntime.interrupt c text status).Meets L (fun c' s' => C.At .ended c' s')
        (fun x s' => x.1 ≠ .exhausted → C.At .ended x.2 s') s' := by
    intro s' status text hstatus hat
    by_cases hterminal : c.state.terminal = true
    · rw [interrupt_terminal hterminal]
      exact hat.1 hterminal
    · rw [Bool.not_eq_true] at hterminal
      rw [interrupt_live hstatus hterminal]
      exact hat.2 hterminal
  cases e with
  | exhausted => exact absurd rfl he
  | cancelled =>
    refine (R.interrupts h).call fun r s' h' => ?_
    cases r with
    | error e => exact fun _ => h'.2 e rfl
    | ok run =>
      show (if run.cancelRequested then _ else _ : ContextProg RuntimeContext).Meets L _ _ s'
      split
      · exact hinterrupt s' _ _ (.inl rfl) (h'.1 run _ _ rfl (.inl rfl))
      · exact hinterrupt s' _ _ (.inr rfl) (h'.1 run _ _ rfl (.inr rfl))
  | _ => exact hfail _ (by simp)

theorem close_meets (names : List String) (h : C.At .ended c s) :
    (AgentRuntime.close c.runId names).Meets L (fun _ s' => C.At .ended c s') R.Raised s := by
  induction names generalizing s with
  | nil => exact h
  | cons name rest ih =>
    refine (C.tame (by trivial) h).call fun reply s₁ h₁ => ?_
    cases reply with
    | ok u => exact (C.tame (by trivial) h₁).call fun _ s₂ h₂ => ih h₂
    | error failure =>
      cases failure with
      | cancelled => exact fun _ => R.ends (.inl rfl) h₁
      | raised typeName message => exact (C.tame (by trivial) h₁).call fun _ s₂ h₂ => ih h₂

theorem closing_ends {next : RuntimeProg AgentResult} (h : C.At .ended c s)
    (hnext : ∀ s', C.At .ended c s' → R.Ends next s') :
    R.Ends (AgentRuntime.closing c next) s :=
  (R.close_meets c.acquired.reverse h).bind fun _ s' h' => hnext s' h'

theorem settleCheckpoint_meets (h : C.At .settled c s) :
    (AgentRuntime.settleCheckpoint c).Meets L (fun _ s' => C.At .closed c s') R.Raised s := by
  unfold AgentRuntime.settleCheckpoint
  split
  · cases hcheckpoint : RuntimeCheckpoint.fromContext c with
    | error e => exact fun _ => R.ends (.inr (.inl rfl)) h
    | ok checkpoint => exact (R.checkpoint h hcheckpoint).call fun _ s' h' => h'
  · rename_i hstate
    exact (R.unchecked h hstate).call fun _ s' h' => h'

theorem finishTurn_meets (status : RunStatus) (h : C.At .closed c s) :
    (AgentRuntime.finishTurn c.conversationId c.runId status).Meets L
      (fun _ s' => C.At .closed c s') R.Raised s := by
  unfold AgentRuntime.finishTurn
  cases c.conversationId with
  | none => exact h
  | some conversationId =>
    refine (C.tame (by trivial) h).call fun reply s' h' => ?_
    cases reply with
    | ok u => exact h'
    | error failure => exact fun _ => R.ends (.inr (.inr rfl)) h'

theorem finalizeRun_meets (h : C.At .closed c s) :
    (AgentRuntime.finalizeRun c).Meets L (fun _ s' => C.At .closed c s')
      (fun _ s' => R.Ended s') s := by
  have hsnapshot : (saveContextSnapshot c).Meets L (fun _ s' => C.At .closed c s')
      (fun _ s' => R.Ended s') s := by
    refine (R.escaping (getRun_leads h)).bind fun run s₁ h₁ => ?_
    refine (R.final h₁.1 h₁.2).call fun reply s₂ h₂ => ?_
    cases reply with
    | ok u => exact h₂
    | error e => exact R.ends (.inr (.inr rfl)) h₂
  refine hsnapshot.bind fun _ s₁ h₁ => ?_
  cases AgentRuntime.terminalEvent c.state with
  | none => exact R.ends (.inr (.inr rfl)) h₁
  | some type => exact R.escaping (emit_leads type h₁)

theorem conclude_ends (T : C.Turns strategy p.agent) (interrupted : Bool) (h : C.At .ended c s) :
    R.Ends (PlanningAgent.conclude strategy c interrupted) s := by
  have hsettle := uncontexted_meets (E := R.Raised) ((T.settle h).mono (fun _ _ h' => h')
    fun _ _ h' _ => R.failed h')
  refine hsettle.bind fun c' s₁ h₁ => ?_
  unfold AgentRuntime.conclude
  cases hresult : AgentRuntime.buildResult c' with
  | error e => exact fun _ => R.ends (.inr (.inl rfl)) h₁
  | ok result =>
    refine (R.settleCheckpoint_meets h₁).bind fun _ s₂ h₂ => ?_
    refine (R.finishTurn_meets c'.state h₂).bind fun _ s₃ h₃ => ?_
    have hfinalize := uncontexted_meets (E := R.Raised) ((R.finalizeRun_meets h₃).mono
      (fun _ _ h' => h') fun _ _ h' _ => h')
    refine hfinalize.bind fun _ s₄ h₄ => ?_
    split
    · exact fun _ => R.ends (.inr (.inr rfl)) h₄
    · exact R.done h₄ hresult

theorem guarded_ends (T : C.Turns strategy p.agent) (fuel : Nat) (h : C.At .rest c s)
    (hstate : c.state = .running) : R.Ends (p.guarded strategy fuel c) s := by
  refine (body_leads T fuel h hstate).attempt.bind fun outcome s₁ h₁ => ?_
  cases outcome with
  | ok c' => exact R.closing_ends (R.finishes h₁) fun s' h' => R.conclude_ends T false h'
  | error x =>
    obtain ⟨e, c'⟩ := x
    by_cases he : e = .exhausted
    · subst he
      exact fun hnot => absurd rfl hnot
    · refine (R.recover_meets h₁ he).attempt.bind fun outcome s₂ h₂ => ?_
      cases outcome with
      | ok c'' => exact R.closing_ends h₂ fun s' h' => R.conclude_ends T _ h'
      | error x =>
        obtain ⟨e', c''⟩ := x
        simp only
        split
        · exact fun hnot => absurd rfl hnot
        · rename_i hnot
          exact R.closing_ends (h₂ hnot) fun s' h' _ => R.ends (.inl rfl) h'

/-- An execution keeps to the course, from its entry to its end. -/
theorem execute_ends (T : C.Turns (p.active c) p.agent) (fuel : Nat) (input : Option String)
    (confirmation : Option ToolConfirmation) (h : R.Entry c s) :
    R.Ends (p.execute fuel c input confirmation) s := by
  have henter := uncontexted_meets (E := R.Raised) ((R.enter_meets p input confirmation h).mono
    (fun _ _ h' => h') fun _ _ h' _ => h')
  exact henter.bind fun c' s' h' => R.guarded_ends T fuel h'.1 h'.2

end Lifecycle
end Course

end Runtime
end BaseAgent

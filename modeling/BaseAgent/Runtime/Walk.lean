import BaseAgent.Runtime.Script

/-!
# Every execution follows its script

From the rules of a script: the turns of the strategy, the loop, the `try` statement around
it, and the calls that start a Run or continue a waiting one keep the outline.
-/

namespace BaseAgent
namespace Runtime

open Async

namespace Script

variable {ι G : Type} [DecidableEq ι]
variable {env : RuntimeEnv} {O : Outline ι RuntimeOp RuntimeOp.Ret RuntimeWorld G}
variable {agent : Agent} {i : ι} {origin : Option RuntimeCheckpoint}
variable {S : Script env O agent i origin}

theorem transitionTo_of_allowed {c : RuntimeContext} {target : RunStatus}
    (h : RuntimeContext.allowed c.state target = true) :
    transitionTo c target = .ret { c with state := target } := by
  simp [transitionTo, RuntimeContext.transitionTo, h, lift]

theorem stopStatus_terminal (status : StopStatus) : status.runStatus.terminal = true := by
  cases status <;> rfl

theorem allowed_of_terminal {target : RunStatus} (h : target.terminal = true) :
    RuntimeContext.allowed .running target = true := by
  cases target <;> simp_all [RuntimeContext.allowed, RunStatus.terminal]

/-! ## The strategy -/

section Strategy

variable {p : Point} {c : RuntimeContext} {g : G}

theorem Here.safe_cancelIfRequested (h : S.Here p c g) (hp : p.inner = true)
    (hrun : c.state = .running) :
    O.Safe env.exec i
      (fun polled g' => (∀ c', polled = some c' → S.Here .ended c' g') ∧ (polled = none → g' = g))
      S.Dropped (ModelToolStrategy.cancelIfRequested c) g := by
  refine (h.safe_getRun fun e _ he => h.dropped hp he.2).bind ?_
  rintro run g' ⟨rfl, -⟩
  split
  · rw [transitionTo_of_allowed (by simp [hrun, RuntimeContext.allowed])]
    refine ⟨fun c' hc => ?_, fun hn => by cases hn⟩
    cases hc
    exact h.leave hp rfl
  · exact ⟨fun c' hc => (by cases hc), fun _ => rfl⟩

/-- A failure ends a running Run, and is only noted otherwise. -/
theorem Here.safe_failExecution (h : S.Here p c g) (hp : p.inner = true) (error : String)
    {E : RuntimeError × RuntimeContext → G → Prop} :
    O.Safe env.exec i
      (fun c' g' => S.Here .ended c' g' ∨ (c'.state ≠ .running ∧ S.Here p c' g')) E
      (ModelToolStrategy.failExecution c error) g := by
  unfold ModelToolStrategy.failExecution
  simp only
  split
  · rename_i hrun
    rw [transitionTo_of_allowed (by simp [hrun, RuntimeContext.allowed])]
    exact .inl (h.leave hp rfl)
  · rename_i hrun
    exact .inr ⟨hrun, h.similar (.of_eq rfl)⟩

theorem withMessage_fields (c : RuntimeContext) (d : SupervisionDecision) :
    (withMessage c d).state = c.state ∧ (withMessage c d).runId = c.runId ∧
      (withMessage c d).conversationId = c.conversationId := by
  cases d with
  | continue_ => exact ⟨rfl, rfl, rfl⟩
  | redirect reason message => exact ⟨rfl, rfl, rfl⟩
  | stop reason message status =>
    cases message with
    | none => exact ⟨rfl, rfl, rfl⟩
    | some message =>
      simp only [withMessage]
      split <;> exact ⟨rfl, rfl, rfl⟩

/-- A stop ends the Run; any other decision leaves its message. -/
theorem Here.safe_applySupervisionDecision (h : S.Here p c g) (hp : p.inner = true)
    (hrun : c.state = .running) (d : SupervisionDecision) (appended : Bool) :
    O.Safe env.exec i
      (fun c' g' => (d.stops = true → S.Here .ended c' g') ∧
        (d.stops = false → (appended = true → c' = withMessage c d) ∧
          (appended = false → c' = c) ∧ g' = g))
      S.Dropped (applySupervisionDecision c d appended) g := by
  refine (S.safe_emit (Q := fun _ g' => g' = g) rfl rfl).bind ?_
  rintro - g' rfl
  cases d with
  | continue_ =>
    refine ⟨fun hd => (by cases hd), fun _ => ⟨?_, ?_, rfl⟩⟩ <;> rintro rfl <;> rfl
  | redirect reason message =>
    refine ⟨fun hd => (by cases hd), fun _ => ⟨?_, ?_, rfl⟩⟩ <;> rintro rfl <;> rfl
  | stop reason message status =>
    obtain ⟨hstate, hid, hconv⟩ := withMessage_fields c (.stop reason message status)
    have hterminal := stopStatus_terminal status
    rw [stopFor, transitionTo_of_allowed]
    · refine ⟨fun _ => h.leave hp hterminal ?_ ?_, fun hd => by cases hd⟩
      · cases appended <;> simp [hid]
      · cases appended <;> simp [hconv]
    · cases appended <;> simp [hstate, hrun, allowed_of_terminal hterminal]

/-- Where a turn ends: at the head of the loop after `n` model calls, suspended, or ended. -/
def Landed (S : Script env O agent i origin) (n : Nat) (c : RuntimeContext) (g : G) : Prop :=
  (S.Here .head c g ∧ c.supervision.suspendedActionBatch = none ∧ c.stepCount = n) ∨
    S.Here .suspended c g ∨ S.Here .ended c g

variable {k : Option (String × ToolConfirmation)} {call : ToolCall} {rest : List ToolCall}
variable {n : Nat}

/-- What the supervisor answers before a call, as the rule of the script has it. -/
def Asked (S : Script env O agent i origin) (k : Option (String × ToolConfirmation))
    (call : ToolCall) (rest : List ToolCall) (c : RuntimeContext) (d : SupervisionDecision)
    (g : G) : Prop :=
  let c' := { c with toolCallCount := c.toolCallCount + 1 }
  (d = .continue_ → S.At (.ready k call rest) c' g) ∧
    ∀ reason message, d = .redirect reason message →
      S.At .head ((c'.append (.tool
        (ToolExecutor.refused call .denied "supervisor_intervention" reason) call.id)).append
          (.system message)) g

theorem Asked.similar {b : RuntimeContext} {d : SupervisionDecision}
    (h : S.Asked k call rest c d g) (hs : c.Similar b) : S.Asked k call rest b d g := by
  have hcount : ({ c with toolCallCount := c.toolCallCount + 1 } : RuntimeContext).Similar
      { b with toolCallCount := b.toolCallCount + 1 } :=
    { hs with toolCallCount := by simp [hs.toolCallCount] }
  refine ⟨fun hd => S.similar hcount (h.1 hd), fun reason message hd => ?_⟩
  refine S.similar ?_ (h.2 reason message hd)
  exact { hcount with messages := by simp [RuntimeContext.append, hs.messages] }

theorem Here.safe_blockCall (h : S.Here (.batch k (call :: rest)) c g) (hn : c.stepCount = n)
    {d : SupervisionDecision} (hd : d ≠ .continue_) (hasked : S.Asked k call rest c d g) :
    O.Safe env.exec i (S.Landed n) S.Dropped (ModelToolStrategy.blockCall c call d) g := by
  refine (h.safe_applySupervisionDecision rfl h.1.1 d false).bind ?_
  rintro c' g' ⟨hstop, hgo⟩
  cases d with
  | continue_ => exact absurd rfl hd
  | stop reason message status => exact .inr (.inr (hstop rfl))
  | redirect reason message =>
    obtain ⟨-, hc, rfl⟩ := hgo rfl
    obtain rfl := hc rfl
    have hhead := hasked.2 reason message rfl
    refine (S.safe_emit (Q := fun _ g'' => g'' = g') rfl rfl).bind ?_
    rintro - g'' rfl
    refine ((here hhead h.1.1).safe_snapshot rfl).bind ?_
    intro _ g₃ hsaved
    exact .inl ⟨hsaved, h.1.2, hn⟩

theorem Here.safe_announce (h : S.Here (.batch k (call :: rest)) c g) (hn : c.stepCount = n)
    (hk : ModelToolStrategy.confirmationFor k call = none) :
    O.Safe env.exec i
      (fun announced g' =>
        (announced.2 = true → S.Here (.ready k call rest) announced.1 g' ∧
          announced.1.stepCount = n) ∧
        (announced.2 = false → S.Landed n announced.1 g'))
      S.Dropped (ModelToolStrategy.announce c call rest.length) g := by
  refine (S.safe_emit (Q := fun _ g' => g' = g) rfl rfl).bind ?_
  rintro - g' rfl
  refine (S.beforeTool h.2 h.1.2 hk).safe ?_
  rintro reply g'' ⟨hat, hreply⟩
  cases reply with
  | error e => exact ((here hat h.1).dropped rfl (by cases e <;> simp [Failure.error]))
  | ok answer =>
    obtain ⟨d, policies⟩ := answer
    have hasked : S.Asked k call rest c d g'' := hreply d policies rfl
    have hs : c.Similar
        { c with supervision := { c.supervision with policies := policies } } := .of_eq rfl
    simp only [hooked, Prog.bind_eq, Prog.ret_bind]
    cases hd : d.intervenes with
    | true =>
      have hne : d ≠ .continue_ := by
        rintro rfl
        cases hd
      rw [if_pos rfl]
      refine (((here hat h.1).similar hs).safe_blockCall hn hne (hasked.similar hs)).bind ?_
      intro c' g₃ hlanded
      exact ⟨fun hgo => (by cases hgo), fun _ => hlanded⟩
    | false =>
      have hready := (hasked.similar hs).1 (SupervisionDecision.eq_continue_of_intervenes hd)
      rw [if_neg (by simp)]
      refine ((here hready h.1).safe_snapshot rfl).bind ?_
      intro _ g₃ hsaved
      refine (S.safe_emit (Q := fun _ g' => g' = g₃) rfl rfl).bind ?_
      rintro - g₄ rfl
      exact ⟨fun _ => ⟨hsaved, hn⟩, fun hgo => by cases hgo⟩

/-- A result that is no wait enters the messages, and the batch goes on when neither the
supervisor nor a cancellation stands in its way. -/
theorem Here.safe_observe {result : ToolResult}
    (h : S.Here (.executed k call rest result) c g) (hn : c.stepCount = n)
    (hr : result.status ≠ .waiting) :
    O.Safe env.exec i
      (fun observed g' =>
        (observed.2 = true → S.Here (.batch k rest) observed.1 g' ∧ observed.1.stepCount = n) ∧
        (observed.2 = false → S.Landed n observed.1 g'))
      S.Dropped (ModelToolStrategy.observe c call result rest.length) g := by
  have hquiet : quietEvent (if result.status = .success then .toolCompleted else .toolFailed) =
      true := by
    split <;> rfl
  refine (S.safe_emit (Q := fun _ g' => g' = g) hquiet rfl).bind ?_
  rintro - g' rfl
  have hobserved := S.observe h.2 hr
  refine (S.afterTool hobserved h.1.2).safe ?_
  rintro reply g'' ⟨hat, hreply⟩
  have hhere := here (p := .observed k call rest) hat h.1
  cases reply with
  | error e => exact hhere.dropped rfl (by cases e <;> simp [Failure.error])
  | ok answer =>
    obtain ⟨d, policies⟩ := answer
    obtain ⟨hcontinue, hredirect⟩ := hreply d policies rfl
    have hs : (c.append (.tool result call.id)).Similar
        { c.append (.tool result call.id) with
          supervision := { (c.append (.tool result call.id)).supervision with
            policies := policies } } := .of_eq rfl
    simp only [hooked, Prog.bind_eq, Prog.ret_bind]
    cases d with
    | continue_ =>
      have hbatch := (here (p := .batch k rest) (hcontinue rfl) h.1).similar hs
      refine (hbatch.safe_cancelIfRequested rfl hbatch.1.1).bind ?_
      rintro polled g₃ ⟨hsome, hnone⟩
      cases polled with
      | some c' => exact ⟨fun hgo => (by cases hgo), fun _ => .inr (.inr (hsome c' rfl))⟩
      | none =>
        obtain rfl := hnone rfl
        exact ⟨fun _ => ⟨hbatch, hn⟩, fun hgo => by cases hgo⟩
    | redirect reason message =>
      have hobs := hhere.similar hs
      refine (hobs.safe_applySupervisionDecision rfl hobs.1.1 _ true).bind ?_
      rintro c' g₃ ⟨-, hgo⟩
      obtain ⟨hc, -, rfl⟩ := hgo rfl
      obtain rfl := hc rfl
      have hhead : S.Here .head (withMessage
          { c.append (.tool result call.id) with
            supervision := { c.supervision with policies := policies } }
          (.redirect reason message)) g₃ :=
        (here (hredirect reason message rfl) h.1.1).similar (.of_eq rfl)
      refine (hhead.safe_snapshot rfl).bind ?_
      intro _ g₄ hsaved
      exact ⟨fun hgo => (by cases hgo), fun _ => .inl ⟨hsaved, h.1.2, hn⟩⟩
    | stop reason message status =>
      have hobs := hhere.similar hs
      refine (hobs.safe_applySupervisionDecision rfl hobs.1.1 _ true).bind ?_
      rintro c' g₃ ⟨hstop, -⟩
      refine ((hstop rfl).safe_snapshot rfl).bind ?_
      intro _ g₄ hsaved
      exact ⟨fun hgo => (by cases hgo), fun _ => .inr (.inr hsaved)⟩

/-- A waiting result suspends the batch, or fails the Run when its prompt is no prompt. -/
theorem Here.safe_suspend {observations : List (ToolCall × ToolResult)}
    {response : ModelResponse} {result : ToolResult}
    (h : S.Here (.executed k call rest result) c g) (hr : result.status = .waiting) :
    O.Safe env.exec i (S.Landed n) S.Dropped
      (ModelToolStrategy.suspend c call rest observations response result) g := by
  unfold ModelToolStrategy.suspend
  simp only
  cases hprompt : waitPrompt result with
  | none =>
    -- the batch stays in the context of the failed Run, where nothing reads it
    simp only [ModelToolStrategy.failExecution, h.1.1, if_true]
    rw [transitionTo_of_allowed (by simp [RuntimeContext.allowed])]
    exact .inr (.inr (h.leave rfl rfl))
  | some prompt =>
    have hwaiting := S.suspend observations response h.2 hr hprompt
    simp only [Prog.bind_eq]
    rw [transitionTo_of_allowed (by simp [h.1.1, RuntimeContext.allowed])]
    simp only [Prog.ret_bind]
    refine Outline.Safe.bind (Q := fun _ g' => g' = g) ?_ ?_
    · unfold ModelToolStrategy.requestConfirmation
      split
      · exact S.safe_emit rfl rfl
      · rfl
    rintro - g' rfl
    refine Outline.Safe.bind ((S.announce hwaiting).safe (k := .ret) fun _ g'' hg => hg) ?_
    intro _ g'' hsuspended
    refine ((here hsuspended ⟨rfl, by simp⟩).safe_snapshot rfl).bind ?_
    intro _ g₃ hsaved
    exact .inr (.inl hsaved)

theorem safe_emitAcquired {E : RuntimeError × RuntimeContext → G → Prop}
    (S : Script env O agent i origin) (c : RuntimeContext) (acquired : List String) (g : G) :
    O.Safe env.exec i (fun _ g' => g' = g) E (ModelToolStrategy.emitAcquired c acquired) g := by
  induction acquired with
  | nil => rfl
  | cons name rest ih =>
    refine (S.safe_emit (Q := fun _ g' => g' = g) rfl rfl).bind ?_
    rintro - g' rfl
    exact ih

/-- A batch is executed call by call; each iteration takes the context from one batch point
to the next, or leaves the batch. -/
theorem Here.safe_executeToolBatch {response : ModelResponse} {calls : List ToolCall}
    {observations : List (ToolCall × ToolResult)} (h : S.Here (.batch k calls) c g)
    (hn : c.stepCount = n) :
    O.Safe env.exec i (S.Landed n) S.Dropped
      (ModelToolStrategy.executeToolBatch agent response k calls observations c) g := by
  induction calls generalizing c g observations with
  | nil =>
    refine (h.safe_snapshot rfl).bind ?_
    intro _ g' hsaved
    exact .inl ⟨⟨h.1.1, S.finish hsaved.2 h.1.2⟩, h.1.2, hn⟩
  | cons call rest ih =>
    refine (h.safe_cancelIfRequested rfl h.1.1).bind ?_
    rintro polled g' ⟨hsome, hnone⟩
    cases polled with
    | some c' => exact .inr (.inr (hsome c' rfl))
    | none =>
      obtain rfl := hnone rfl
      have hstart : O.Safe env.exec i
          (fun started g'' =>
            (started.2 = true → S.Here (.ready k call rest) started.1 g'' ∧
              started.1.stepCount = n) ∧
            (started.2 = false → S.Landed n started.1 g''))
          S.Dropped
          (ModelToolStrategy.admitCall c call rest.length
            (ModelToolStrategy.confirmationFor k call)) g' := by
        cases hk : ModelToolStrategy.confirmationFor k call with
        | some d =>
          exact ⟨fun _ => ⟨⟨h.1, S.confirmed h.2 hk⟩, hn⟩, fun hgo => by cases hgo⟩
        | none => exact h.safe_announce hn hk
      refine hstart.bind ?_
      rintro ⟨c₁, goOn⟩ g₁ ⟨hgo, hstop⟩
      cases goOn with
      | false => exact hstop rfl
      | true =>
        obtain ⟨hready, hn₁⟩ := hgo rfl
        refine (safe_execute hready.2).bind ?_
        rintro ⟨result, acquired⟩ g₂ ⟨hresult, hother⟩
        have hs : c₁.Similar { c₁ with acquired := c₁.acquired ++ acquired } := .of_eq rfl
        refine (S.safe_emitAcquired _ acquired g₂).bind ?_
        rintro - g₃ rfl
        cases result with
        | none =>
          -- the task was interrupted inside the Tool
          have hexecuted := hother (ToolExecutor.refused call .error "" "") (by
            simp [ToolExecutor.refused])
          exact ((here (p := .executed ..) hexecuted hready.1).similar hs).dropped rfl (by simp)
        | some result =>
          have hexecuted := (here (p := .executed k call rest result) (hresult result rfl)
            hready.1).similar hs
          simp only
          split
          · rename_i hwaiting
            exact hexecuted.safe_suspend hwaiting
          · rename_i hnot
            refine (hexecuted.safe_observe hn₁ hnot).bind ?_
            rintro ⟨c₂, goOn⟩ g₄ ⟨hnext, hleft⟩
            cases goOn with
            | false => exact hleft rfl
            | true => exact ih (hnext rfl).1 (hnext rfl).2

theorem Here.safe_fail (h : S.Here p c g) (hp : p.inner = true) (hrun : c.state = .running)
    (error : String) :
    O.Safe env.exec i (S.Landed n) S.Dropped (ModelToolStrategy.failExecution c error) g := by
  simp only [ModelToolStrategy.failExecution, hrun, if_true]
  rw [transitionTo_of_allowed (by simp [RuntimeContext.allowed])]
  exact .inr (.inr (h.leave hp rfl))

theorem Here.safe_resumeActionBatch {batch : SuspendedActionBatch} (h : S.Here .cleared c g)
    (hb : c.supervision.suspendedActionBatch = some batch) (hn : c.stepCount = n) :
    O.Safe env.exec i (S.Landed n) S.Dropped
      (ModelToolStrategy.resumeActionBatch agent batch c) g := by
  obtain ⟨happrove, hother⟩ := S.resume h.2 hb
  unfold ModelToolStrategy.resumeActionBatch
  simp only
  cases hd : c.supervision.toolConfirmationDecision.filter (·.decision = .approve) with
  | some d =>
    obtain ⟨hdecision, hyes⟩ := Option.filter_eq_some_iff.mp hd
    exact (here (happrove d hdecision (by simpa using hyes)) ⟨h.1, rfl⟩).safe_executeToolBatch hn
  | none =>
    have hno := Option.filter_eq_none_iff.mp hd
    have hbatch := here (hother fun d hdecision => by simpa using hno d hdecision) ⟨h.1, rfl⟩
    simp only
    split
    · exact hbatch.safe_fail rfl h.1 _
    · split
      · rename_i hrest
        refine (hbatch.safe_snapshot rfl).bind ?_
        intro _ g' hsaved
        rw [hrest] at hsaved
        exact .inl ⟨⟨h.1, S.finish hsaved.2 rfl⟩, rfl, hn⟩
      · exact hbatch.safe_executeToolBatch hn

theorem Here.safe_respond {response : ModelResponse}
    (h : S.Here (.batch none response.toolCalls)
      { c with
        responses := c.responses ++ [response]
        messages := c.messages ++ [response.toAssistantMessage] } g)
    (hn : c.stepCount = n) :
    O.Safe env.exec i (S.Landed n) S.Dropped (ModelToolStrategy.respond agent c response) g := by
  refine (S.safe_emit (Q := fun _ g' => g' = g) rfl rfl).bind ?_
  rintro - g' rfl
  have hbatch := h.similar (b :=
    { c with
      responses := c.responses ++ [response]
      usage := c.usage + response.usage
      messages := c.messages ++ [response.toAssistantMessage] }) (.of_eq rfl)
  refine (hbatch.safe_snapshot rfl).bind ?_
  intro _ g₁ hsaved
  refine (hsaved.safe_cancelIfRequested rfl h.1.1).bind ?_
  rintro polled g₂ ⟨hsome, hnone⟩
  cases polled with
  | some c' => exact .inr (.inr (hsome c' rfl))
  | none =>
    obtain rfl := hnone rfl
    simp only
    split
    · rw [transitionTo_of_allowed (by
        have hrun : c.state = .running := h.1.1
        simp [hrun, RuntimeContext.allowed])]
      exact .inr (.inr (hsaved.leave rfl rfl))
    · exact hsaved.safe_executeToolBatch hn

theorem require_error {names : List String} {e : RuntimeError}
    (h : ToolExecutor.require agent names = .error e) : e.Ordinary := by
  induction names with
  | nil => cases h
  | cons name rest ih =>
    simp only [ToolExecutor.require] at h
    split at h
    · cases h
      exact ⟨by simp, by simp⟩
    · cases hrest : ToolExecutor.require agent rest with
      | ok tools =>
        rw [hrest] at h
        cases h
      | error e' =>
        rw [hrest] at h
        cases h
        exact ih hrest

theorem toolDefinitions_error {c : RuntimeContext} {e : RuntimeError}
    (h : ModelToolStrategy.toolDefinitions agent c = .error e) : e.Ordinary := by
  unfold ModelToolStrategy.toolDefinitions at h
  cases hreq : ToolExecutor.require agent c.enabledToolNames with
  | ok tools =>
    rw [hreq] at h
    cases h
  | error e' =>
    rw [hreq] at h
    cases h
    exact require_error hreq

/-- One turn of the strategy: a model call and the Tools it asks for, or the rest of a
suspended batch. -/
theorem Here.safe_advance (h : S.Here .cleared c g) :
    O.Safe env.exec i
      (S.Landed (if c.supervision.suspendedActionBatch = none then c.stepCount + 1
        else c.stepCount))
      S.Dropped (ModelToolStrategy.advance agent c) g := by
  unfold ModelToolStrategy.advance
  cases hb : c.supervision.suspendedActionBatch with
  | some batch =>
    rw [if_neg (by simp)]
    exact h.safe_resumeActionBatch hb rfl
  | none =>
    rw [if_pos rfl]
    have hasking := here (p := .asking) (S.ask h.2 hb) ⟨h.1, hb⟩
    simp only
    cases hdef : ModelToolStrategy.toolDefinitions agent
        { c with stepCount := c.stepCount + 1 } with
    | error e => exact hasking.dropped rfl (toolDefinitions_error hdef).2
    | ok definitions =>
      refine (S.safe_emit (Q := fun _ g' => g' = g) rfl rfl).bind ?_
      rintro - g' rfl
      refine (S.complete hasking.2).safe ?_
      rintro reply g'' ⟨hat, hreply⟩
      have hasked := here (p := .batch none []) hat hasking.1
      cases reply with
      | ok response =>
        exact Here.safe_respond (here (hreply response rfl) ⟨h.1, hb⟩) rfl
      | error failure =>
        cases failure with
        | cancelled => exact hasked.dropped rfl (by simp)
        | raised typeName message => exact hasked.safe_fail rfl h.1 _

end Strategy

/-! ## The engine -/

section Engine

variable {c : RuntimeContext} {g : G} {fuel fuel₀ : Nat}

/-- The loop may run out of fuel, as it was given less than its limit asks for. -/
def Drained (S : Script env O agent i origin) (fuel : Nat) : Prop :=
  ∀ b, S.limit = some b → fuel < b + 2

/-- What the `try` block raises. -/
def Raised (S : Script env O agent i origin) (fuel : Nat) (x : RuntimeError × RuntimeContext)
    (g : G) : Prop :=
  (x.1 = .exhausted ∧ S.Drained fuel) ∨ S.Dropped x g

def Stopped (S : Script env O agent i origin) (c : RuntimeContext) (g : G) : Prop :=
  S.Here .suspended c g ∨ S.Here .ended c g

/-- The fuel left covers the model calls left, and the resumed batch if there is one. -/
def Fueled (S : Script env O agent i origin) (fuel₀ fuel : Nat) (c : RuntimeContext) : Prop :=
  ∀ b, S.limit = some b → b + 2 ≤ fuel₀ →
    b + 1 + (if c.supervision.suspendedActionBatch = none then 0 else 1) ≤ fuel + c.stepCount

theorem Stopped.state (h : S.Stopped c g) : c.state ≠ .running := by
  cases h with
  | inl h =>
    rw [h.1.1]
    simp
  | inr h =>
    intro hc
    have hterminal : c.state.terminal = true := h.1
    rw [hc] at hterminal
    cases hterminal

theorem loop_of_stopped (h : S.Stopped c g) :
    AgentRuntime.loop agent fuel c = .ret c := by
  cases fuel <;> simp [AgentRuntime.loop, h.state]

/-- The rest of an iteration from a cleared context, when the iterations after it are
safe. -/
theorem Here.safe_turn (h : S.Here .cleared c g) (hf : S.Fueled fuel₀ (fuel + 1) c)
    (ih : ∀ {c' : RuntimeContext} {g' : G}, S.Here .head c' g' → S.Fueled fuel₀ fuel c' →
      O.Safe env.exec i S.Stopped (S.Raised fuel₀) (AgentRuntime.loop agent fuel c') g') :
    O.Safe env.exec i S.Stopped (S.Raised fuel₀)
      (if c.state = .running then
        (ModelToolStrategy.advance agent c).bind (AgentRuntime.loop agent fuel)
      else .ret c) g := by
  have hrun : c.state = .running := h.1
  rw [if_pos hrun]
  refine (h.safe_advance.mono (fun _ _ hq => hq) fun _ _ he => .inr he).bind ?_
  rintro c' g' (⟨hhead, hnone, hsteps⟩ | hsuspended | hended)
  · refine ih hhead fun b hb hle => ?_
    have hold := hf b hb hle
    rw [if_pos hnone, hsteps]
    by_cases hbatch : c.supervision.suspendedActionBatch = none
    · rw [if_pos hbatch] at hold ⊢
      omega
    · rw [if_neg hbatch] at hold ⊢
      omega
  · rw [loop_of_stopped (S := S) (.inl hsuspended)]
    exact .inl hsuspended
  · rw [loop_of_stopped (S := S) (.inr hended)]
    exact .inr hended

/-- The iterations of the loop.  The induction is on the fuel; each iteration makes a model
call or finishes the resumed batch. -/
theorem Here.safe_loop (h : S.Here .head c g) (hf : S.Fueled fuel₀ fuel c) :
    O.Safe env.exec i S.Stopped (S.Raised fuel₀) (AgentRuntime.loop agent fuel c) g := by
  induction fuel generalizing c g with
  | zero =>
    have hrun : c.state = .running := h.1
    simp only [AgentRuntime.loop, hrun, if_true]
    left
    refine ⟨rfl, fun b hb => ?_⟩
    have hle := S.bounded hb h.2
    by_contra hge
    have := hf b hb (by omega)
    omega
  | succ fuel ih =>
    have hrun : c.state = .running := h.1
    simp only [AgentRuntime.loop, hrun, if_true, Prog.bind_eq]
    refine ((h.safe_cancelIfRequested rfl hrun).mono (fun _ _ hq => hq)
      fun _ _ he => .inr he).bind ?_
    rintro polled g₁ ⟨hsome, hnone⟩
    cases polled with
    | some c' => exact .inr (hsome c' rfl)
    | none =>
      obtain rfl := hnone rfl
      refine (S.beforeModel h.2).safe ?_
      rintro reply g₂ ⟨hat, hreply⟩
      have hhead := here (p := .head) hat h.1
      cases reply with
      | error e => exact .inr (hhead.dropped rfl (by cases e <;> simp [Failure.error]))
      | ok answer =>
        obtain ⟨d, policies⟩ := answer
        have hs : c.Similar
            { c with supervision := { c.supervision with policies := policies } } := .of_eq rfl
        simp only [hooked, Prog.ret_bind, AgentRuntime.supervised]
        cases hd : d.intervenes with
        | false =>
          obtain rfl := SupervisionDecision.eq_continue_of_intervenes hd
          have hcleared := here (p := .cleared) (hreply .continue_ policies rfl rfl) h.1
          exact (hcleared.similar hs).safe_turn hf ih
        | true =>
          rw [if_pos rfl]
          refine (((hhead.similar hs).safe_applySupervisionDecision rfl hrun d true).mono
            (fun _ _ hq => hq) fun _ _ he => .inr he).bind ?_
          rintro c' g₃ ⟨hstop, hgoOn⟩
          cases hstops : d.stops with
          | true =>
            have hended := hstop hstops
            rw [if_neg (Stopped.state (S := S) (.inr hended))]
            exact .inr hended
          | false =>
            obtain ⟨hc, -, rfl⟩ := hgoOn hstops
            obtain rfl := hc rfl
            obtain ⟨reason, message, rfl⟩ :=
              SupervisionDecision.eq_redirect_of_intervenes hd hstops
            have hcleared := here (p := .cleared) (hreply _ policies rfl rfl) h.1
            exact Here.safe_turn (hcleared.similar (.of_eq rfl)) hf ih

theorem Here.safe_startResources {names : List String} (h : S.Here .head c g) :
    O.Safe env.exec i (S.Here .head) S.Dropped (AgentRuntime.startResources names c) g := by
  induction names generalizing c g with
  | nil => exact h
  | cons name rest ih =>
    have hacquire : O.Safe env.exec i (S.Here .head) S.Dropped
        (AgentRuntime.acquire c name) g := by
      refine (S.quiet rfl).safe ?_
      rintro reply g' rfl
      cases reply with
      | ok u =>
        refine (S.safe_emit (Q := fun _ g'' => g'' = g') rfl rfl).bind ?_
        rintro - g'' rfl
        exact h.similar (.of_eq rfl)
      | error failure =>
        cases failure with
        | cancelled => exact h.dropped rfl (by simp)
        | raised typeName message =>
          refine (S.safe_emit (Q := fun _ g'' => g'' = g') rfl rfl).bind ?_
          rintro - g'' rfl
          exact h.dropped rfl (by simp)
    refine hacquire.bind ?_
    intro c' g' hhead
    exact ih hhead

theorem Here.safe_initializeMemory (h : S.Here .head c g) :
    O.Safe env.exec i (S.Here .head) S.Dropped (AgentRuntime.initializeMemory agent c) g := by
  unfold AgentRuntime.initializeMemory
  split
  · exact h
  simp only
  split
  · exact h.similar (.of_eq rfl)
  · refine (S.quiet rfl).safe ?_
    rintro reply g' rfl
    cases reply with
    | ok u =>
      refine (S.safe_emit (Q := fun _ g'' => g'' = g') rfl rfl).bind ?_
      rintro - g'' rfl
      exact h.similar (.of_eq rfl)
    | error failure =>
      cases failure with
      | cancelled => exact (h.similar (by exact .of_eq rfl)).dropped rfl (by simp)
      | raised typeName message =>
        refine (S.safe_emit (Q := fun _ g'' => g'' = g') rfl rfl).bind ?_
        rintro - g'' rfl
        split
        · exact (h.similar (by exact .of_eq rfl)).dropped rfl (by simp)
        · exact h.similar (.of_eq rfl)

theorem Here.safe_body (h : S.Here .head c g) :
    O.Safe env.exec i S.Stopped (S.Raised fuel) (AgentRuntime.body agent fuel c) g := by
  refine (h.safe_startResources.mono (fun _ _ hq => hq) fun _ _ he => .inr he).bind ?_
  intro c₁ g₁ h₁
  refine (h₁.safe_initializeMemory.mono (fun _ _ hq => hq) fun _ _ he => .inr he).bind ?_
  intro c₂ g₂ h₂
  refine h₂.safe_loop fun b _ hle => ?_
  split <;> omega

/-- At a point inside the `try` block the Run is running, suspended or ended. -/
theorem Here.inner_cases {p : Point} (h : S.Here p c g) (hp : p.inner = true) :
    c.state = .running ∨ S.Stopped c g := by
  cases p with
  | suspended => exact .inr (.inl h)
  | ended => exact .inr (.inr h)
  | waiting => cases hp
  | closing => cases hp
  | head => exact .inl h.1
  | cleared => exact .inl h.1
  | asking => exact .inl h.1.1
  | batch k calls => exact .inl h.1.1
  | ready k call rest => exact .inl h.1.1
  | executed k call rest result => exact .inl h.1.1
  | observed k call rest => exact .inl h.1.1

theorem Here.safe_interrupt {p : Point} (h : S.Here p c g) (hp : p.inner = true) (error : String)
    {status : RunStatus} (hstatus : status = .cancelled ∨ status = .interrupted)
    {E : RuntimeError × RuntimeContext → G → Prop} :
    O.Safe env.exec i S.Stopped E (AgentRuntime.interrupt c error status) g := by
  have hterminal : status.terminal = true := by
    cases hstatus with
    | inl hs => rw [hs]; rfl
    | inr hs => rw [hs]; rfl
  have hallowed : c.state.terminal = false → RuntimeContext.allowed c.state status = true := by
    cases hstatus with
    | inl hs => cases hc : c.state <;> simp [hs, RuntimeContext.allowed, RunStatus.terminal]
    | inr hs => cases hc : c.state <;> simp [hs, RuntimeContext.allowed, RunStatus.terminal]
  unfold AgentRuntime.interrupt
  simp only
  split
  · rename_i hc
    exact .inr (h.leave hp hc)
  · rename_i hc
    have hc' : c.state.terminal = false := by simpa using hc
    rw [transitionTo_of_allowed (by exact hallowed hc')]
    exact .inr (h.leave hp hterminal)

/-- Whatever was raised, the Run is suspended or ended afterwards. -/
theorem Dropped.safe_recover {e : RuntimeError} (h : S.Dropped (e, c) g) :
    O.Safe env.exec i S.Stopped (fun x g' => S.Missing ∧ x.1.Ordinary ∧ S.Dropped x g')
      (AgentRuntime.recover c e) g := by
  obtain ⟨hexhausted, p, hp, hhere⟩ := h
  have hfail : ∀ error : String,
      O.Safe env.exec i S.Stopped (fun x g' => S.Missing ∧ x.1.Ordinary ∧ S.Dropped x g')
        (ModelToolStrategy.failExecution c error) g := by
    intro error
    refine (hhere.safe_failExecution hp error).mono ?_ fun _ _ he => he
    rintro c' g' (hended | ⟨hnot, hstill⟩)
    · exact .inr hended
    · cases hstill.inner_cases hp with
      | inl hrun => exact absurd hrun hnot
      | inr hstopped => exact hstopped
  cases e with
  | exhausted => exact absurd rfl hexhausted
  | cancelled =>
    refine (hhere.safe_getRun fun e hm he => ⟨hm, he, hhere.dropped hp he.2⟩).bind ?_
    rintro run g' ⟨rfl, -⟩
    split
    · exact hhere.safe_interrupt hp _ (.inl rfl)
    · exact hhere.safe_interrupt hp _ (.inr rfl)
  | invalidTransition message => exact hfail _
  | value message => exact hfail _
  | toolNotFound message => exact hfail _
  | runNotFound message => exact hfail _
  | runAlreadyExists message => exact hfail _
  | runNotCancellable message => exact hfail _
  | checkpointNotFound message => exact hfail _
  | assertion => exact hfail _
  | other typeName message => exact hfail _

/-- What `execute` raises. -/
def Thrown (S : Script env O agent i origin) (fuel : Nat) (e : RuntimeError) (g : G) : Prop :=
  (e = .exhausted ∧ S.Drained fuel) ∨ (e ≠ .exhausted ∧ S.Out e g)

def Attempted (S : Script env O agent i origin) (fuel : Nat) :
    Except RuntimeError AgentResult → G → Prop
  | .ok _, g => S.Over g
  | .error e, g => S.Thrown fuel e g

theorem safe_uncontexted {α : Type} {Q : α → G → Prop}
    {E : RuntimeError × RuntimeContext → G → Prop} {E' : RuntimeError → G → Prop}
    {p : ContextProg α} (h : O.Safe env.exec i Q E p g) (hE : ∀ x g', E x g' → E' x.1 g') :
    O.Safe env.exec i Q E' (uncontexted p) g := by
  have hattempt : O.Safe env.exec i
      (fun r g' => match r with | .ok a => Q a g' | .error x => E x g') E'
      (p.attempt : RuntimeProg _) g := h.attempt (fun _ _ hq => hq) fun _ _ he => he
  refine hattempt.bind ?_
  intro r g' hr
  cases r with
  | ok a => exact hr
  | error x => exact hE x g' hr

theorem Here.safe_close {p : Point} {names : List String} (h : S.Here p c g)
    (hp : p.inner = true) :
    O.Safe env.exec i (fun _ g' => S.Here p c g') (S.Thrown fuel)
      (AgentRuntime.close c.runId names) g := by
  induction names generalizing g with
  | nil => exact h
  | cons name rest ih =>
    refine (S.aexit hp h.2).safe ?_
    rintro reply g' ⟨hat, hcancelled⟩
    have hrest := ih ⟨h.1, hat⟩
    cases reply with
    | ok u =>
      refine (S.quiet rfl).safe ?_
      rintro - g'' rfl
      exact hrest
    | error failure =>
      cases failure with
      | cancelled => exact .inr ⟨by simp, hcancelled rfl⟩
      | raised typeName message =>
        refine (S.quiet rfl).safe ?_
        rintro - g'' rfl
        exact hrest

theorem Stopped.terminal_or_waiting (h : S.Stopped c g) :
    c.state.terminal = true ∨ c.state = .waiting := by
  cases h with
  | inl h => exact .inr h.1.1
  | inr h => exact .inl h.1

theorem Stopped.safe_settleCheckpoint (h : S.Stopped c g) :
    O.Safe env.exec i (fun _ g' => S.Here .closing c g') (S.Thrown fuel)
      (AgentRuntime.settleCheckpoint c) g := by
  unfold AgentRuntime.settleCheckpoint
  cases h with
  | inl h =>
    obtain ⟨⟨hstate, hpending⟩, hat⟩ := h
    obtain ⟨pending, hpending⟩ := Option.ne_none_iff_exists'.mp hpending
    rw [if_pos hstate]
    cases hcheckpoint : RuntimeCheckpoint.fromContext c with
    | error e => simp [RuntimeCheckpoint.fromContext, hstate, hpending] at hcheckpoint
    | ok checkpoint =>
      refine (S.park hat hcheckpoint).safe ?_
      intro _ g' hclosing
      exact ⟨.inr hstate, hclosing⟩
  | inr h =>
    have hterminal : c.state.terminal = true := h.1
    have hstate : c.state ≠ .waiting := by
      intro hw
      rw [hw] at hterminal
      cases hterminal
    rw [if_neg hstate]
    refine (S.clear h.2).safe ?_
    intro _ g' hclosing
    exact ⟨.inl hterminal, hclosing⟩

theorem Here.safe_finishTurn (h : S.Here .closing c g) :
    O.Safe env.exec i (fun _ g' => S.Here .closing c g') (S.Thrown fuel)
      (AgentRuntime.finishTurn c.conversationId c.runId c.state) g := by
  cases hconv : c.conversationId with
  | none => exact h
  | some conversationId =>
    refine (S.turn h.2).safe ?_
    rintro reply g' ⟨hat, herror⟩
    cases reply with
    | ok u => exact ⟨h.1, hat⟩
    | error failure =>
      exact .inr ⟨by cases failure <;> simp [Failure.error], herror failure rfl⟩

theorem Here.safe_finalizeRun (h : S.Here .closing c g) :
    O.Safe env.exec i (fun _ g' => S.Over g') (S.Thrown fuel)
      (uncontexted (AgentRuntime.finalizeRun c)) g := by
  refine safe_uncontexted (E := fun x g' => S.Missing ∧ x.1.Ordinary) ?_ ?_
  · refine (h.safe_save (by simp) fun e g' hm he _ => ⟨hm, he⟩).bind ?_
    intro _ g' hsaved
    obtain ⟨type, htype⟩ : ∃ type, AgentRuntime.terminalEvent c.state = some type := by
      cases h.1 with
      | inl hterminal =>
        cases hc : c.state <;> simp_all [RunStatus.terminal, AgentRuntime.terminalEvent]
      | inr hwaiting => exact ⟨.runWaiting, by rw [hwaiting]; rfl⟩
    simp only [htype, orRaise, lift, Prog.bind_eq, Prog.ret_bind]
    exact (S.close hsaved.2 htype).safe fun _ g'' hover => hover
  · rintro x g' ⟨hm, he⟩
    exact .inr ⟨he.2, S.lost hm he⟩

theorem Stopped.safe_conclude (h : S.Stopped c g) (interrupted : Bool) :
    O.Safe env.exec i (fun _ g' => S.Over g') (S.Thrown fuel)
      (AgentRuntime.conclude c interrupted) g := by
  obtain ⟨result, hresult⟩ : ∃ result, AgentRuntime.buildResult c = .ok result := by
    cases h.terminal_or_waiting with
    | inl hterminal =>
      cases hc : c.state <;> simp_all [RunStatus.terminal, AgentRuntime.buildResult]
    | inr hwaiting => simp [AgentRuntime.buildResult, hwaiting]
  simp only [AgentRuntime.conclude, hresult, Prog.ofExcept_ok, Prog.bind_eq, Prog.ret_bind]
  refine h.safe_settleCheckpoint.bind ?_
  intro _ g₁ hclosing
  refine hclosing.safe_finishTurn.bind ?_
  intro _ g₂ hturned
  refine hturned.safe_finalizeRun.bind ?_
  intro _ g₃ hover
  cases interrupted with
  | true => exact .inr ⟨by simp, S.over_out hover⟩
  | false => exact hover

theorem Stopped.safe_closing (h : S.Stopped c g) (interrupted : Bool) :
    O.Safe env.exec i (fun _ g' => S.Over g') (S.Thrown fuel)
      (AgentRuntime.closing c (AgentRuntime.conclude c interrupted)) g := by
  cases h with
  | inl hsuspended =>
    refine (hsuspended.safe_close rfl).bind ?_
    intro _ g' hclosed
    exact Stopped.safe_conclude (S := S) (.inl hclosed) interrupted
  | inr hended =>
    refine (hended.safe_close rfl).bind ?_
    intro _ g' hclosed
    exact Stopped.safe_conclude (S := S) (.inr hclosed) interrupted

theorem Dropped.safe_closing {e : RuntimeError} (h : S.Dropped (e, c) g) (hm : S.Missing)
    (he : e.Ordinary) :
    O.Safe env.exec i (fun _ g' => S.Over g') (S.Thrown fuel)
      (AgentRuntime.closing c (.raise e)) g := by
  obtain ⟨-, p, hp, hhere⟩ := h
  refine (hhere.safe_close hp).bind ?_
  intro _ g' _
  exact .inr ⟨he.2, S.lost hm he⟩

theorem Here.safe_guarded (h : S.Here .head c g) :
    O.Safe env.exec i (fun _ g' => S.Over g') (S.Thrown fuel)
      (AgentRuntime.guarded agent fuel c) g := by
  have hbody : O.Safe env.exec i
      (fun r g' => match r with | .ok c' => S.Stopped c' g' | .error x => S.Raised fuel x g')
      (S.Thrown fuel) ((AgentRuntime.body agent fuel c).attempt : RuntimeProg _) g :=
    h.safe_body.attempt (fun _ _ hq => hq) fun _ _ he => he
  refine hbody.bind ?_
  intro r g₁ hr
  cases r with
  | ok c' => exact Stopped.safe_closing hr false
  | error x =>
    obtain ⟨e, c'⟩ := x
    cases hr with
    | inl hexhausted =>
      obtain ⟨rfl, hdrained⟩ := hexhausted
      exact .inl ⟨rfl, hdrained⟩
    | inr hdropped =>
      have hrecover : O.Safe env.exec i
          (fun r g' => match r with
            | .ok c'' => S.Stopped c'' g'
            | .error x => S.Missing ∧ x.1.Ordinary ∧ S.Dropped x g')
          (S.Thrown fuel) ((AgentRuntime.recover c' e).attempt : RuntimeProg _) g₁ :=
        hdropped.safe_recover.attempt (fun _ _ hq => hq) fun _ _ he => he
      refine hrecover.bind ?_
      intro r g₂ hr
      cases r with
      | ok c'' => exact Stopped.safe_closing hr _
      | error x =>
        obtain ⟨hm, hordinary, hagain⟩ := hr
        simp only [hordinary.2, if_false]
        exact hagain.safe_closing hm hordinary

end Engine

/-! ## The calls -/

section Calls

variable {c : RuntimeContext} {g : G} {fuel : Nat}

theorem createRun_error {s : RuntimeWorld} {run : Run} {e : RuntimeError}
    (h : (s.createRun run).1 = .error e) : e.Ordinary := by
  unfold RuntimeWorld.createRun at h
  split at h
  · cases h
    exact ⟨by simp, by simp⟩
  · cases h

theorem safe_emitSkills {E : RuntimeError × RuntimeContext → G → Prop}
    (S : Script env O agent i origin) (c : RuntimeContext) (skills : List Skill) (g : G) :
    O.Safe env.exec i (fun _ g' => g' = g) E (AgentRuntime.emitSkills c skills) g := by
  induction skills with
  | nil => rfl
  | cons skill rest ih =>
    refine (S.safe_emit (Q := fun _ g' => g' = g) rfl rfl).bind ?_
    rintro - g' rfl
    refine (S.safe_emit (Q := fun _ g'' => g'' = g') rfl rfl).bind ?_
    rintro - g'' rfl
    exact ih

def Creates (S : Script env O agent i origin) (c : RuntimeContext) (g : G) : Prop :=
  O.Step env.exec i (.createRun (AgentRuntime.newRun c)) g fun r g' =>
    (r = .ok () → S.At .head { c with state := .running } g') ∧ ∀ e, r = .error e → S.Out e g'

theorem safe_start (h : S.Creates c g) (hc : c.state = .created) :
    O.Safe env.exec i (S.Here .head) (fun x g' => x.1 ≠ .exhausted ∧ S.Out x.1 g')
      (AgentRuntime.start c) g := by
  have hcreate : O.Safe env.exec i (fun _ g' => S.At .head { c with state := .running } g')
      (fun x g' => x.1 ≠ .exhausted ∧ S.Out x.1 g') (AgentRuntime.createRun c) g := by
    refine (h.with_reply
      (R := fun r : Except RuntimeError Unit => ∀ e, r = .error e → e.Ordinary)
      fun s e he => createRun_error he).safe ?_
    rintro reply g' ⟨⟨hhead, hout⟩, hordinary⟩
    cases reply with
    | error e => exact ⟨(hordinary e rfl).2, hout e rfl⟩
    | ok u =>
      refine (S.safe_emit (Q := fun _ g'' => g'' = g') rfl rfl).bind ?_
      rintro - g'' rfl
      refine (S.safe_emitSkills c c.skills g'').mono ?_ fun _ _ he => he
      rintro - g₃ rfl
      exact hhead rfl
  refine hcreate.bind ?_
  intro _ g₁ hhead
  simp only [hc, if_true]
  rw [transitionTo_of_allowed (by simp [hc, RuntimeContext.allowed])]
  refine ((here (p := .head) hhead rfl).safe_save (by simp)
    fun e g' hm he _ => ⟨he.2, S.lost hm he⟩).bind ?_
  intro _ g₂ hsaved
  refine (S.safe_emit (Q := fun _ g' => g' = g₂) rfl rfl).bind ?_
  rintro - g₃ rfl
  exact hsaved

def resumedContext (c : RuntimeContext) : RuntimeContext :=
  { c with pendingInput := none, output := none, error := none, state := .running }

theorem answer_error {input : Option String} {confirmation : Option ToolConfirmation}
    {e : RuntimeError} (h : AgentRuntime.answer agent c input confirmation = .error e) :
    e.Ordinary := by
  have hvalue : ∀ message, (RuntimeError.value message).Ordinary :=
    fun message => ⟨by simp, by simp⟩
  have hinvalid : ∀ message, (RuntimeError.invalidTransition message).Ordinary :=
    fun message => ⟨by simp, by simp⟩
  unfold AgentRuntime.answer AgentRuntime.decide AgentRuntime.receive at h
  split at h
  · cases h
    exact hinvalid _
  split at h
  · split at h
    · cases h
      exact hvalue _
    · cases h
      exact hvalue _
    · split at h
      · cases h
        exact hinvalid _
      · split at h
        · cases h
          exact hvalue _
        · simp only at h
          split at h <;> cases h
  · split at h
    · cases h
      exact hvalue _
    · cases h
      exact hvalue _
    · split at h
      · cases h
        exact hvalue _
      · cases h

theorem answer_state {input : Option String} {confirmation : Option ToolConfirmation}
    {c' : RuntimeContext} (h : AgentRuntime.answer agent c input confirmation = .ok c') :
    c'.state = c.state := by
  obtain ⟨pending, -, ⟨-, d, -, -, rfl⟩ | ⟨-, -, text, rfl⟩⟩ := AgentRuntime.answer_ok agent h
  · rfl
  · rfl

theorem safe_prepareResume {input : Option String} {confirmation : Option ToolConfirmation}
    (hc : c.state = .waiting)
    (hanswer : ∀ c', AgentRuntime.answer agent c input confirmation = .ok c' →
      S.At .head (resumedContext c') g)
    (hrefuse : ∀ e, AgentRuntime.answer agent c input confirmation = .error e → S.Out e g) :
    O.Safe env.exec i (S.Here .head) (fun x g' => x.1 ≠ .exhausted ∧ S.Out x.1 g')
      (AgentRuntime.prepareResume agent c input confirmation) g := by
  unfold AgentRuntime.prepareResume
  cases ha : AgentRuntime.answer agent c input confirmation with
  | error e => exact ⟨(answer_error ha).2, hrefuse e ha⟩
  | ok c' =>
    have hstate := answer_state ha
    simp only [lift, Prog.bind_eq, Prog.ret_bind]
    rw [transitionTo_of_allowed (by simp [hstate, hc, RuntimeContext.allowed])]
    refine ((here (p := .head) (hanswer c' ha) rfl).safe_save (by simp)
      fun e g' hm he _ => ⟨he.2, S.lost hm he⟩).bind ?_
    intro _ g₁ hsaved
    refine Outline.Safe.bind (Q := fun _ g' => g' = g₁) ?_ ?_
    · cases confirmation with
      | none => exact S.safe_emit rfl rfl
      | some d =>
        refine (S.safe_emit (Q := fun _ g' => g' = g₁) rfl rfl).bind ?_
        rintro - g₂ rfl
        split
        · exact S.safe_emit rfl rfl
        · rfl
    rintro - g₂ rfl
    refine (S.safe_emit (Q := fun _ g' => g' = g₂) rfl rfl).bind ?_
    rintro - g₃ rfl
    exact hsaved

def Ended (S : Script env O agent i origin) (fuel : Nat) (e : RuntimeError) (g : G) : Prop :=
  (e = .exhausted ∧ S.Drained fuel) ∨ (e ≠ .exhausted ∧ S.Final g)

/-- A context that `create_context` makes for the Run. -/
def Fresh (agent : Agent) (runId : UUID) (c : RuntimeContext) : Prop :=
  ∃ prompt conversationId turns skills,
    agent.createContext prompt runId conversationId (agent.conversationHistory turns) skills =
      .ok c

theorem createContext_state {prompt : String} {runId : UUID} {conversationId : Option UUID}
    {history : List Message} {skills : List Skill}
    (h : agent.createContext prompt runId conversationId history skills = .ok c) :
    c.state = .created := by
  unfold Agent.createContext at h
  split at h
  · cases h
  · cases h
    rfl

theorem createContext_error {prompt : String} {runId : UUID} {conversationId : Option UUID}
    {history : List Message} {skills : List Skill} {e : RuntimeError}
    (h : agent.createContext prompt runId conversationId history skills = .error e) :
    e.Ordinary := by
  unfold Agent.createContext at h
  split at h
  · cases h
    exact ⟨by simp, by simp⟩
  · cases h

theorem safe_launch {prompt : String} {runId : UUID} {conversationId : Option UUID}
    {turns : List (String × String)} {skills : List Skill} (hg : S.Idle g)
    (hcreates : ∀ c, Fresh agent runId c → S.Creates c g) :
    O.Safe env.exec i (fun _ g' => S.Over g') (S.Thrown fuel)
      (agent.launch fuel prompt runId conversationId (agent.conversationHistory turns) skills)
      g := by
  unfold Agent.launch
  cases hc : agent.createContext prompt runId conversationId (agent.conversationHistory turns)
      skills with
  | error e => exact .inr ⟨(createContext_error hc).2, S.idle_out hg⟩
  | ok c =>
    have hstate := createContext_state hc
    have hstart := safe_start (hcreates c ⟨prompt, conversationId, turns, skills, hc⟩) hstate
    have henter : AgentRuntime.enter agent c none none = AgentRuntime.start c := by
      simp [AgentRuntime.enter, hstate]
    simp only [Prog.ofExcept_ok, Prog.ret_bind, AgentRuntime.execute, henter]
    refine (safe_uncontexted hstart fun x g' hx => .inr hx).bind ?_
    intro c' g' hhead
    exact hhead.safe_guarded

section Handlers

variable {runId : UUID}
variable (hsettle : ∀ g, S.Out .cancelled g →
  O.Safe env.exec i (fun _ g' => S.Final g') (fun _ g' => S.Final g')
    (Agent.settleTaskInterruption runId) g)

theorem safe_release {turn : Option UUID} {e : RuntimeError} (he : e ≠ .exhausted)
    (h : S.Final g) :
    O.Safe env.exec i (fun _ g' => S.Final g') (S.Ended fuel) (Agent.release turn runId e) g := by
  have hturn : O.Safe env.exec i (fun _ g' => S.Final g') (fun _ g' => S.Final g')
      (AgentRuntime.finishTurn turn runId (if e = .cancelled then .interrupted else .failed))
      g := by
    cases turn with
    | none => exact h
    | some conversationId =>
      refine (S.final_turn h).safe ?_
      intro reply g' hfinal
      cases reply with
      | ok u => exact hfinal
      | error failure => exact hfinal
  have hattempt : O.Safe env.exec i (fun _ g' => S.Final g') (S.Ended fuel)
      (AgentRuntime.finishTurn turn runId (if e = .cancelled then .interrupted else .failed)).attempt
      g := hturn.attempt (fun _ _ hq => hq) fun _ _ he => he
  refine hattempt.bind ?_
  intro r g' hfinal
  split
  · exact .inr ⟨by simp, hfinal⟩
  · exact .inr ⟨he, hfinal⟩

include hsettle in
theorem safe_settle (h : S.Out .cancelled g) :
    O.Safe env.exec i (fun _ g' => S.Final g') (S.Ended fuel)
      (Agent.settleTaskInterruption runId) g := by
  have hthrows := (hsettle g h).throws (settleTaskInterruption_throws runId) RuntimeEnv.exec_plain
  exact hthrows.mono (fun _ _ hq => hq) fun _ _ he => .inr he

include hsettle in
theorem safe_handle {turn : Option UUID} {e : RuntimeError} (h : S.Thrown fuel e g)
    (hfail : ∀ e g, S.Out e g → e.Ordinary → S.Final g) :
    O.Safe env.exec i (fun _ g' => S.Final g') (S.Ended fuel) (Agent.handle runId turn e) g := by
  cases h with
  | inl hexhausted =>
    obtain ⟨rfl, hdrained⟩ := hexhausted
    exact .inl ⟨rfl, hdrained⟩
  | inr hout =>
    obtain ⟨hne, hout⟩ := hout
    by_cases hcancelled : e = .cancelled
    · subst hcancelled
      refine (safe_settle hsettle hout).bind ?_
      intro finalized g' hfinal
      cases finalized with
      | some run => exact .inr ⟨hne, hfinal⟩
      | none => exact safe_release hne hfinal
    · have hfinal := hfail e g hout ⟨hcancelled, hne⟩
      unfold Agent.handle
      split
      · exact absurd rfl hne
      · exact absurd rfl hcancelled
      · exact safe_release hne hfinal

include hsettle in
theorem safe_run {prompt : String} {conversationId : Option UUID} {skills : List Skill}
    (hg : S.Idle g) (hcreates : ∀ c, Fresh agent runId c → S.Creates c g)
    (hfail : ∀ e g, S.Out e g → e.Ordinary → S.Final g) :
    O.Safe env.exec i (fun _ g' => S.Final g') (S.Ended fuel)
      (agent.run fuel prompt runId conversationId skills) g := by
  have hhandled : ∀ conversationId turn turns,
      O.Safe env.exec i (fun _ g' => S.Final g') (S.Ended fuel)
        (Agent.handled runId turn
          (agent.launch fuel prompt runId conversationId (agent.conversationHistory turns)
            skills)) g := by
    intro conversationId turn turns
    have hattempt : O.Safe env.exec i
        (S.Attempted fuel)
        (S.Ended fuel)
        ((agent.launch fuel prompt runId conversationId (agent.conversationHistory turns)
          skills).attempt : RuntimeProg _) g :=
      (safe_launch hg hcreates).attempt (fun _ _ hq => hq) fun _ _ he => he
    refine hattempt.bind ?_
    intro r g' hr
    cases r with
    | ok result => exact S.over_final hr
    | error e => exact safe_handle hsettle hr hfail
  cases conversationId with
  | none =>
    have hempty : agent.conversationHistory [] = [] := by simp [Agent.conversationHistory]
    have hrun := hhandled none none []
    rw [hempty] at hrun
    exact hrun
  | some conversation =>
    refine (S.quiet rfl).safe ?_
    rintro reply g' rfl
    cases reply with
    | ok turns => exact hhandled (some conversation) (some conversation) turns
    | error failure =>
      refine safe_handle hsettle (.inr ⟨?_, S.idle_out hg⟩) hfail
      cases failure <;> simp [Failure.error]

include hsettle in
theorem safe_restored {checkpoint : RuntimeCheckpoint} {input : Option String}
    {confirmation : Option ToolConfirmation}
    (hanswer : ∀ c', AgentRuntime.answer agent checkpoint.restore input confirmation = .ok c' →
      S.At .head (resumedContext c') g)
    (hrefuse : ∀ e, AgentRuntime.answer agent checkpoint.restore input confirmation = .error e →
      S.Out e g)
    (hresave : ∀ e g, S.Out e g → e.Ordinary →
      O.Step env.exec i (.saveCheckpoint checkpoint) g fun _ g' => S.Final g') :
    O.Safe env.exec i (fun _ g' => S.Final g') (S.Ended fuel)
      (agent.restored fuel runId input confirmation checkpoint) g := by
  have hexecute : O.Safe env.exec i (fun _ g' => S.Over g') (S.Thrown fuel)
      (AgentRuntime.execute agent fuel checkpoint.restore input confirmation) g := by
    refine (safe_uncontexted (safe_prepareResume rfl hanswer hrefuse)
      fun x g' hx => .inr hx).bind ?_
    intro c' g' hhead
    exact hhead.safe_guarded
  have hattempt : O.Safe env.exec i
      (S.Attempted fuel)
      (S.Ended fuel)
      ((AgentRuntime.execute agent fuel checkpoint.restore input confirmation).attempt :
        RuntimeProg _) g :=
    hexecute.attempt (fun _ _ hq => hq) fun _ _ he => he
  refine hattempt.bind ?_
  intro r g' hr
  cases r with
  | ok result => exact S.over_final hr
  | error e =>
    cases hr with
    | inl hexhausted =>
      obtain ⟨rfl, hdrained⟩ := hexhausted
      exact .inl ⟨rfl, hdrained⟩
    | inr hout =>
      obtain ⟨hne, hout⟩ := hout
      by_cases hcancelled : e = .cancelled
      · subst hcancelled
        refine (safe_settle hsettle hout).bind ?_
        intro _ g'' hfinal
        exact .inr ⟨hne, hfinal⟩
      · have hsaved := (hresave e g' hout ⟨hcancelled, hne⟩).safe
          (Q := fun (_ : AgentResult) g' => S.Final g') (E := S.Ended fuel)
          (k := fun _ => .raise e) fun _ g'' hfinal => .inr ⟨hne, hfinal⟩
        cases e <;> first | exact hsaved | exact absurd rfl hne | exact absurd rfl hcancelled

theorem admit_error {checkpoint : RuntimeCheckpoint} {e : RuntimeError}
    (h : agent.admitCheckpoint runId checkpoint = .error e) : e.Ordinary := by
  unfold Agent.admitCheckpoint raiseIf at h
  split at h
  · cases h
    exact ⟨by simp, by simp⟩
  · cases hrequire : ToolExecutor.require agent checkpoint.enabledToolNames with
    | ok tools =>
      simp only [hrequire] at h
      cases h
    | error e' =>
      simp only [hrequire] at h
      cases h
      exact require_error hrequire

theorem loadCheckpoint_error {s : RuntimeWorld} {e : RuntimeError}
    (h : s.loadCheckpoint runId = .error e) : e.Ordinary := by
  unfold RuntimeWorld.loadCheckpoint orRaise at h
  split at h
  · cases h
  · cases h
    exact ⟨by simp [RuntimeWorld.checkpointNotFound], by simp [RuntimeWorld.checkpointNotFound]⟩

/-- A task that continues a waiting Run: what precedes the claim is quiet. -/
theorem safe_continueWaiting (Final : G → Prop) {Ended : RuntimeError → G → Prop}
    {input : Option String} {confirmation : Option ToolConfirmation}
    (hget : O.Step env.exec i (.getRun runId) g fun _ g' => g' = g)
    (hload : O.Step env.exec i (.loadCheckpoint runId) g fun _ g' => g' = g)
    (hraise : ∀ e : RuntimeError, e.Ordinary → Ended e g)
    (hclaim : O.Step env.exec i (.claimCheckpoint runId) g fun r g' =>
      (∀ e, r = .error e → e ≠ .exhausted → Ended e g') ∧
      ∀ checkpoint, r = .ok checkpoint →
        O.Safe env.exec i (fun _ g'' => Final g'') Ended
          (agent.restored fuel runId input confirmation checkpoint) g') :
    O.Safe env.exec i (fun _ g' => Final g') Ended
      (agent.continueWaiting fuel runId input confirmation) g := by
  refine (hget.with_reply
    (R := fun r : Except RuntimeError Run => ∀ e, r = .error e → e.Ordinary)
    fun s e he => getRun_error he).safe ?_
  rintro found g' ⟨rfl, hordinary⟩
  cases found with
  | error e => exact hraise e (hordinary e rfl)
  | ok run =>
    simp only
    split
    · refine (hload.with_reply
        (R := fun r : Except RuntimeError RuntimeCheckpoint => ∀ e, r = .error e → e.Ordinary)
        fun s e he => loadCheckpoint_error he).safe ?_
      rintro loaded g'' ⟨rfl, hordinary⟩
      cases hadmit : loaded.bind (agent.admitCheckpoint runId) with
      | error e =>
        refine hraise e ?_
        cases loaded with
        | error e' =>
          have he : e' = e := Except.error.inj hadmit
          exact hordinary e (by rw [he])
        | ok checkpoint => exact admit_error hadmit
      | ok u =>
        refine (hclaim.with_reply (R := RuntimeEnv.Plain (.claimCheckpoint runId))
          fun s => RuntimeEnv.exec_plain _ s).safe ?_
        rintro claimed g₃ ⟨⟨herror, hok⟩, hplain⟩
        cases claimed with
        | error e => exact herror e rfl hplain
        | ok checkpoint => exact hok checkpoint rfl
    · exact hraise _ ⟨by simp, by simp⟩

end Handlers

end Calls

end Script

end Runtime
end BaseAgent

import BaseAgent.Runtime.Walk
import Mathlib.Data.List.TakeWhile

/-!
# Transcripts answer their Tool calls

A provider expects each Tool call of an assistant message to be answered by one Tool
message before the next assistant message.  `Owes` says the same of a transcript whose last
assistant message still has calls to be answered, and is what a batch keeps call by call,
across suspensions and resumes.
-/

namespace BaseAgent
namespace Runtime

open Async

/-- The answers to the call `id` before the next assistant message. -/
def answers (id : String) (messages : List Message) : Nat :=
  (messages.takeWhile fun m => m.role ≠ .assistant).countP fun m =>
    m.role = .tool ∧ m.toolCallId = some id

/-- Each Tool call of each assistant message is answered once before the next one. -/
def Answered : List Message → Prop
  | [] => True
  | m :: rest =>
    (m.role = .assistant → ∀ call ∈ m.toolCalls, answers call.id rest = 1) ∧ Answered rest

instance Answered.decidable : (messages : List Message) → Decidable (Answered messages)
  | [] => .isTrue trivial
  | m :: rest =>
    have := Answered.decidable rest
    inferInstanceAs (Decidable ((m.role = .assistant →
      ∀ call ∈ m.toolCalls, answers call.id rest = 1) ∧ Answered rest))

/-- The calls in `pending` of the last assistant message are unanswered, all other calls are
answered once. -/
def Owes (pending : List String) : List Message → Prop
  | [] => True
  | m :: rest =>
    (m.role = .assistant → ∀ call ∈ m.toolCalls, answers call.id rest =
      if (∀ m' ∈ rest, m'.role ≠ .assistant) ∧ call.id ∈ pending then 0 else 1) ∧
    Owes pending rest

theorem owes_nil_iff {messages : List Message} : Owes [] messages ↔ Answered messages := by
  induction messages with
  | nil => exact Iff.rfl
  | cons m rest ih => simp [Owes, Answered, ih]

/-! ## Appending a message -/

section Append

variable {messages : List Message} {m : Message} {id : String} {pending : List String}

theorem answers_append_of_mem (h : ∃ m' ∈ messages, m'.role = .assistant) (more : List Message) :
    answers id (messages ++ more) = answers id messages := by
  induction messages with
  | nil => simp at h
  | cons head rest ih =>
    by_cases hhead : head.role = .assistant
    · simp [answers, hhead]
    · have hrest : ∃ m' ∈ rest, m'.role = .assistant := by
        obtain ⟨m', hm', hrole⟩ := h
        cases List.mem_cons.mp hm' with
        | inl heq => exact absurd (heq ▸ hrole) hhead
        | inr hmem => exact ⟨m', hmem, hrole⟩
      have ih := ih hrest
      unfold answers at ih ⊢
      simp only [List.cons_append, List.takeWhile_cons, hhead, ne_eq, not_false_eq_true,
        decide_true, if_true, List.countP_cons, ih]

theorem answers_of_forall (h : ∀ m' ∈ messages, m'.role ≠ .assistant) :
    answers id messages = messages.countP fun m => m.role = .tool ∧ m.toolCallId = some id := by
  have htake : (messages.takeWhile fun m => m.role ≠ .assistant) = messages := by
    rw [List.takeWhile_eq_self_iff]
    intro m' hm'
    simpa using h m' hm'
  rw [answers, htake]

theorem answers_append (h : ∀ m' ∈ messages, m'.role ≠ .assistant) (hm : m.role ≠ .assistant) :
    answers id (messages ++ [m]) =
      answers id messages + if m.role = .tool ∧ m.toolCallId = some id then 1 else 0 := by
  rw [answers_of_forall h, answers_of_forall]
  · simp [List.countP_append, List.countP_cons]
  · intro m' hm'
    cases List.mem_append.mp hm' with
    | inl hold => exact h m' hold
    | inr hnew =>
      rw [List.mem_singleton.mp hnew]
      exact hm

theorem answers_append_assistant (hm : m.role = .assistant) :
    answers id (messages ++ [m]) = answers id messages := by
  by_cases h : ∃ m' ∈ messages, m'.role = .assistant
  · exact answers_append_of_mem h [m]
  · have h : ∀ m' ∈ messages, m'.role ≠ .assistant := by
      intro m' hm' hrole
      exact h ⟨m', hm', hrole⟩
    rw [answers_of_forall h, answers, List.takeWhile_append_of_pos]
    · simp [hm]
    · intro m' hm'
      simpa using h m' hm'

/-- A message that is neither an assistant's nor a Tool's changes nothing. -/
theorem Owes.append_other (h : Owes pending messages) (hm : m.role = .system ∨ m.role = .user) :
    Owes pending (messages ++ [m]) := by
  have hassistant : m.role ≠ .assistant := by
    cases hm with
    | inl hm => simp [hm]
    | inr hm => simp [hm]
  have htool : m.role ≠ .tool := by
    cases hm with
    | inl hm => simp [hm]
    | inr hm => simp [hm]
  induction messages with
  | nil => exact ⟨fun hrole => absurd hrole hassistant, trivial⟩
  | cons head rest ih =>
    rw [List.cons_append, Owes]
    refine ⟨fun hrole call hcall => ?_, ih h.2⟩
    have hold := h.1 hrole call hcall
    have hall : (∀ m' ∈ rest ++ [m], m'.role ≠ .assistant) ↔
        ∀ m' ∈ rest, m'.role ≠ .assistant := by
      simp [or_imp, forall_and, hassistant]
    simp only [hall]
    by_cases hlast : ∀ m' ∈ rest, m'.role ≠ .assistant
    · rw [answers_append hlast hassistant, if_neg (fun hc => htool hc.1), hold]
      simp
    · rw [answers_append_of_mem (by simpa using hlast), hold]

theorem Owes.append_tool (h : Owes (id :: pending) messages) (hid : id ∉ pending)
    (hm : m.role = .tool) (hcall : m.toolCallId = some id) : Owes pending (messages ++ [m]) := by
  have hassistant : m.role ≠ .assistant := by simp [hm]
  induction messages with
  | nil => exact ⟨fun hrole => absurd hrole hassistant, trivial⟩
  | cons head rest ih =>
    rw [List.cons_append, Owes]
    refine ⟨fun hrole call hmem => ?_, ih h.2⟩
    have hold := h.1 hrole call hmem
    have hall : (∀ m' ∈ rest ++ [m], m'.role ≠ .assistant) ↔
        ∀ m' ∈ rest, m'.role ≠ .assistant := by
      simp [or_imp, forall_and, hassistant]
    simp only [hall]
    by_cases hlast : ∀ m' ∈ rest, m'.role ≠ .assistant
    · rw [answers_append hlast hassistant, hold]
      by_cases heq : call.id = id
      · subst heq
        rw [if_pos ⟨hlast, by simp⟩, if_pos ⟨hm, hcall⟩, if_neg fun hc => hid hc.2]
      · have hne : ¬ (m.role = .tool ∧ m.toolCallId = some call.id) := by
          rintro ⟨-, hc⟩
          rw [hcall] at hc
          exact heq (Option.some.inj hc).symm
        simp [heq, hne]
    · rw [answers_append_of_mem (by simpa using hlast), hold, if_neg fun hc => hlast hc.1,
        if_neg fun hc => hlast hc.1]

/-- An assistant message makes its calls pending, when none were. -/
theorem Owes.append_assistant (h : Owes [] messages) (hm : m.role = .assistant) :
    Owes (m.toolCalls.map (·.id)) (messages ++ [m]) := by
  induction messages with
  | nil =>
    refine ⟨fun _ call hcall => ?_, trivial⟩
    have hmem : call.id ∈ m.toolCalls.map (·.id) := List.mem_map_of_mem hcall
    simp [answers, hmem]
  | cons head rest ih =>
    rw [List.cons_append, Owes]
    refine ⟨fun hrole call hcall => ?_, ih h.2⟩
    have hold := h.1 hrole call hcall
    have hnot : ¬ ∀ m' ∈ rest ++ [m], m'.role ≠ .assistant :=
      fun hall => hall m (by simp) hm
    rw [answers_append_assistant hm, hold, if_neg (by simp), if_neg fun hc => hnot hc.1]

theorem owes_of_no_calls (h : ∀ m ∈ messages, m.toolCalls = []) : Owes pending messages := by
  induction messages with
  | nil => trivial
  | cons head rest ih =>
    refine ⟨fun _ call hcall => ?_, ih fun m hm => h m (List.mem_cons_of_mem _ hm)⟩
    rw [h head (by simp)] at hcall
    cases hcall

end Append

/-! ## The script -/

section Script

variable {ι : Type}

def requested (e : RuntimeEntry ι) : Option (List Message) :=
  match e with
  | ⟨_, .complete _ request, _⟩ => some request.messages
  | _ => none

def responded (e : RuntimeEntry ι) : Option ModelResponse :=
  match e with
  | ⟨_, .complete _ _, .ok response⟩ => some response
  | _ => none

/-- The number of calls left in the batch when the supervisor redirected it. -/
def redirected (e : RuntimeEntry ι) : Option Nat :=
  match e with
  | ⟨_, .beforeTool _ _ remaining, .ok (.redirect _ _, _)⟩ => some remaining
  | ⟨_, .afterTool _ _ _ remaining, .ok (.redirect _ _, _)⟩ => some remaining
  | _ => none

/-- The calls of a response have distinct identifiers, and a redirection comes at the last
call of its batch. -/
def Orderly (e : RuntimeEntry ι) : Prop :=
  (∀ response, responded e = some response → (response.toolCalls.map (·.id)).Nodup) ∧
    ∀ remaining, redirected e = some remaining → remaining = 0

/-- The identifiers of the calls left, each once, are what the messages owe. -/
def Open (calls : List ToolCall) (messages : List Message) : Prop :=
  Owes (calls.map (·.id)) messages ∧ (calls.map (·.id)).Nodup

def OpenBatch (supervision : SupervisionData) (messages : List Message) (toolCallId : String) :
    Prop :=
  ∃ b, supervision.suspendedActionBatch = some b ∧
    supervision.toolConfirmationDecision = none ∧ b.waitingCall.id = toolCallId ∧
    Open (b.waitingCall :: b.remainingCalls) messages

def OpenCheckpoint (checkpoint : RuntimeCheckpoint) : Prop :=
  OpenBatch checkpoint.supervision checkpoint.messages checkpoint.pendingInput.toolCallId

/-- The calls a resumed batch goes on with: all of them after an approval, and those after
the waiting call otherwise. -/
def SuspendedActionBatch.callsLeft (b : SuspendedActionBatch)
    (decision : Option ToolConfirmation) : List ToolCall :=
  if (decision.filter (·.decision = .approve)).isSome then b.waitingCall :: b.remainingCalls
  else b.remainingCalls

theorem SuspendedActionBatch.callsLeft_approve {b : SuspendedActionBatch} {d : ToolConfirmation}
    (h : d.decision = .approve) : b.callsLeft (some d) = b.waitingCall :: b.remainingCalls := by
  simp [callsLeft, h]

theorem SuspendedActionBatch.callsLeft_reject {b : SuspendedActionBatch} {d : ToolConfirmation}
    (h : d.decision = .reject) : b.callsLeft (some d) = b.remainingCalls := by
  simp [callsLeft, h]

/-- At the head of the loop nothing is owed, unless a batch goes on. -/
def OpenHead (c : RuntimeContext) : Prop :=
  match c.supervision.suspendedActionBatch with
  | none => Open [] c.messages ∧ c.supervision.toolConfirmationDecision = none
  | some b => Open (b.callsLeft c.supervision.toolConfirmationDecision) c.messages

def Owed : Point → RuntimeContext → Prop
  | .head, c | .cleared, c => OpenHead c
  | .asking, c => Open [] c.messages ∧ c.supervision.toolConfirmationDecision = none
  | .batch _ calls, c => Open calls c.messages ∧ c.supervision.toolConfirmationDecision = none
  | .ready _ call rest, c | .executed _ call rest _, c =>
    Open (call :: rest) c.messages ∧ c.supervision.toolConfirmationDecision = none
  | .observed _ _ rest, c =>
    Open rest c.messages ∧ c.supervision.toolConfirmationDecision = none
  | .waiting, c | .suspended, c =>
    ∃ pending, c.pendingInput = some pending ∧
      OpenBatch c.supervision c.messages pending.toolCallId
  | .ended, _ | .closing, _ => True

/-- Every stored checkpoint is an open batch, and every request has been answered. -/
def transcriptOutline (env : RuntimeEnv) :
    Outline ι RuntimeOp RuntimeOp.Ret RuntimeWorld Unit where
  Inv s log _ := (∀ r checkpoint, s.checkpoints r = some checkpoint → OpenCheckpoint checkpoint) ∧
    ∀ e ∈ log, ∀ messages, requested e = some messages → Answered messages
  Rely s _ _ i o := Orderly ⟨i, o, (env.exec o s).1⟩

theorem Owed.similar {p : Point} {a b : RuntimeContext} (hs : a.Similar b) (h : Owed p a) :
    Owed p b := by
  have hfields : Owed p b = Owed p a := by
    cases p <;>
      simp only [Owed, OpenHead, OpenBatch, hs.messages, hs.batch, hs.decision, hs.pendingInput]
  rw [hfields]
  exact h

theorem Open.answered {messages : List Message} (h : Open [] messages) : Answered messages :=
  owes_nil_iff.mp h.1

theorem Open.append_system {calls : List ToolCall} {messages : List Message} (text : String)
    (h : Open calls messages) : Open calls (messages ++ [.system text]) :=
  ⟨h.1.append_other (.inl rfl), h.2⟩

theorem Open.append_tool {call : ToolCall} {rest : List ToolCall} {messages : List Message}
    (result : ToolResult) (h : Open (call :: rest) messages) :
    Open rest (messages ++ [.tool result call.id]) := by
  have hnodup := List.nodup_cons.mp h.2
  exact ⟨h.1.append_tool hnodup.1 rfl rfl, hnodup.2⟩

theorem Open.append_response {response : ModelResponse} {messages : List Message}
    (h : Open [] messages) (hids : (response.toolCalls.map (·.id)).Nodup) :
    Open response.toolCalls (messages ++ [response.toAssistantMessage]) :=
  ⟨Owes.append_assistant (m := response.toAssistantMessage) h.1 rfl, hids⟩

theorem OpenHead.append_system {c : RuntimeContext} (text : String) (h : OpenHead c) :
    OpenHead (c.append (.system text)) := by
  unfold OpenHead at h ⊢
  simp only [RuntimeContext.append]
  cases hb : c.supervision.suspendedActionBatch with
  | none =>
    rw [hb] at h
    exact ⟨h.1.append_system text, h.2⟩
  | some b =>
    rw [hb] at h
    exact Open.append_system text h

variable [DecidableEq ι] {env : RuntimeEnv} {i : ι}

/-- An operation keeps the outline when it saves no other checkpoint than an open one and
sends no request with an unanswered call. -/
theorem transcript_step {o : RuntimeOp} {P : o.Ret → Unit → Prop}
    (hsave : ∀ checkpoint, o = .saveCheckpoint checkpoint → OpenCheckpoint checkpoint)
    (hrequest : ∀ runId request, o = .complete runId request → Answered request.messages)
    (hP : ∀ s : RuntimeWorld,
      (∀ r checkpoint, s.checkpoints r = some checkpoint → OpenCheckpoint checkpoint) →
      Orderly (⟨i, o, (env.exec o s).1⟩ : RuntimeEntry ι) → P (env.exec o s).1 ()) :
    (transcriptOutline env).Step env.exec i o () P := by
  intro s log ghost _ hI hR
  refine ⟨(), trivial, ⟨?_, ?_⟩, hP s hI.1 hR⟩
  · intro r checkpoint hr
    by_cases ho : ∀ saved, o ≠ .saveCheckpoint saved
    · exact hI.1 r checkpoint (RuntimeEnv.exec_checkpoints ho hr)
    · obtain ⟨saved, rfl⟩ : ∃ saved, o = .saveCheckpoint saved := by simpa using ho
      simp only [RuntimeEnv.exec, RuntimeEnv.reply, RuntimeWorld.setCheckpoint] at hr
      by_cases hid : r = saved.runId
      · subst hid
        simp only [Function.update_self, Option.some.injEq] at hr
        rw [← hr]
        exact hsave saved rfl
      · rw [Function.update_of_ne hid] at hr
        exact hI.1 r checkpoint hr
  · intro e he messages hmessages
    cases List.mem_append.mp he with
    | inl hold => exact hI.2 e hold messages hmessages
    | inr hnew =>
      rw [List.mem_singleton.mp hnew] at hmessages
      unfold requested at hmessages
      split at hmessages
      · rename_i heq
        cases heq
        cases hmessages
        exact hrequest _ _ rfl
      · cases hmessages

/-- An operation that neither saves a checkpoint nor asks the model. -/
theorem transcript_still {o : RuntimeOp} {P : o.Ret → Unit → Prop}
    (ho : match o with | .saveCheckpoint _ | .complete .. => False | _ => True)
    (hP : ∀ r, P r ()) : (transcriptOutline env).Step env.exec i o () P := by
  refine transcript_step ?_ ?_ fun s _ _ => hP _
  · rintro checkpoint rfl
    exact ho.elim
  · rintro runId request rfl
    exact ho.elim

def transcriptScript (env : RuntimeEnv) (agent : Agent) (i : ι)
    (origin : Option RuntimeCheckpoint) :
    Script env (transcriptOutline (ι := ι) env) agent i origin where
  At p c _ := Owed p c
  Idle _ := True
  Over _ := True
  Out _ _ := True
  Final _ := True
  Read _ _ := True
  Missing := True
  limit := none
  similar hs h := h.similar hs
  leave _ _ _ _ _ := trivial
  bounded h := by cases h
  quiet {o g} ho := transcript_still (by cases o <;> trivial) fun _ => rfl
  get _ := transcript_still trivial fun _ => ⟨rfl, fun _ _ => trivial, fun _ _ => trivial⟩
  snapshot _ h _ := transcript_still trivial fun _ => ⟨h, fun _ _ => trivial⟩
  lost _ _ := trivial
  beforeModel := by
    intro c g h
    refine transcript_still trivial fun r => ⟨h, fun d policies _ hd => ?_⟩
    cases d with
    | continue_ => exact h
    | redirect reason message => exact OpenHead.append_system message h
    | stop reason message status => cases hd
  ask := by
    intro c g h hb
    simp only [Owed, OpenHead, hb] at h
    exact h
  complete := by
    intro c g tools h
    refine transcript_step (fun checkpoint ho => by cases ho) ?_ ?_
    · intro runId request ho
      cases ho
      exact h.1.answered
    · intro s _ hR
      refine ⟨h, fun response hr => ⟨h.1.append_response (hR.1 response ?_), h.2⟩⟩
      rw [hr]
      rfl
  resume := by
    intro c b g h hb
    simp only [Owed, OpenHead, hb] at h
    constructor
    · intro d hd happrove
      refine ⟨?_, rfl⟩
      simpa [SuspendedActionBatch.callsLeft, hd, happrove] using h
    · intro hnot
      refine ⟨?_, rfl⟩
      have hfilter : c.supervision.toolConfirmationDecision.filter (·.decision = .approve) =
          none := by
        rw [Option.filter_eq_none_iff]
        intro d hd
        simpa using hnot d hd
      simpa [SuspendedActionBatch.callsLeft, hfilter] using h
  finish := by
    intro k c g h hb
    simp only [Owed, OpenHead, hb]
    exact h
  beforeTool := by
    intro k call rest c g h hb hk
    refine transcript_step (fun checkpoint ho => by cases ho) (fun _ _ ho => by cases ho)
      fun s _ hR => ⟨h, fun d policies hr => ⟨fun _ => h, ?_⟩⟩
    rintro reason message rfl
    have hlast := hR.2 rest.length (by rw [hr]; rfl)
    obtain rfl := List.length_eq_zero_iff.mp hlast
    have hhead := (h.1.append_tool
      (ToolExecutor.refused call .denied "supervisor_intervention" reason)).append_system message
    simp only [Owed, OpenHead, RuntimeContext.append, hb]
    exact ⟨hhead, h.2⟩
  confirmed h _ := h
  refuse _ h _ := h
  request h _ _ _ := h
  invoke h _ _ := transcript_still trivial fun _ => ⟨fun _ _ => h, fun _ _ _ => h⟩
  suspend := by
    intro k call rest result prompt c g observations response h _ _
    exact ⟨_, rfl, _, rfl, h.2, rfl, h.1⟩
  announce h := transcript_still trivial fun _ => h
  observe := by
    intro k call rest result c g h _
    exact ⟨h.1.append_tool result, h.2⟩
  afterTool := by
    intro k call rest result c g h hb
    refine transcript_step (fun checkpoint ho => by cases ho) (fun _ _ ho => by cases ho)
      fun s _ hR => ⟨h, fun d policies hr => ⟨fun _ => h, ?_⟩⟩
    rintro reason message rfl
    have hlast := hR.2 rest.length (by rw [hr]; rfl)
    obtain rfl := List.length_eq_zero_iff.mp hlast
    simp only [Owed, OpenHead, RuntimeContext.append, hb]
    exact ⟨h.1.append_system message, h.2⟩
  aexit _ h := transcript_still trivial fun _ => ⟨h, fun _ => trivial⟩
  park := by
    intro c g checkpoint h hcheckpoint
    obtain ⟨pending, hpending, hbatch⟩ := h
    refine transcript_step ?_ (fun _ _ ho => by cases ho) fun _ _ _ => trivial
    rintro saved ho
    cases ho
    obtain ⟨hinput, hrestore⟩ := RuntimeCheckpoint.fromContext_ok hcheckpoint
    rw [hpending] at hinput
    cases hinput
    have hsupervision : checkpoint.supervision = c.supervision :=
      congrArg RuntimeContext.supervision hrestore
    have hmessages : checkpoint.messages = c.messages :=
      congrArg RuntimeContext.messages hrestore
    unfold OpenCheckpoint
    rw [hsupervision, hmessages]
    exact hbatch
  clear _ := transcript_still trivial fun _ => trivial
  turn _ := transcript_still trivial fun _ => ⟨trivial, fun _ _ => trivial⟩
  close _ _ := transcript_still trivial fun _ => trivial
  over_final _ := trivial
  over_out _ := trivial
  idle_final _ := trivial
  idle_out _ := trivial
  final_turn _ := transcript_still trivial fun _ => trivial

theorem OpenCheckpoint.answer {agent : Agent} {checkpoint : RuntimeCheckpoint}
    {input : Option String} {confirmation : Option ToolConfirmation} {c : RuntimeContext}
    (h : OpenCheckpoint checkpoint)
    (hc : AgentRuntime.answer agent checkpoint.restore input confirmation = .ok c) :
    Owed .head (Script.resumedContext c) := by
  obtain ⟨b, hb, hdecision, hid, hopen⟩ := h
  obtain ⟨pending, hpending, hcases⟩ := AgentRuntime.answer_ok agent hc
  have hpending : checkpoint.pendingInput = pending := Option.some.inj hpending
  subst hpending
  have hb' : checkpoint.restore.supervision.suspendedActionBatch = some b := hb
  have hd' : checkpoint.restore.supervision.toolConfirmationDecision = none := hdecision
  have happend : ∀ result, Open b.remainingCalls
      (checkpoint.restore.messages ++ [.tool result checkpoint.pendingInput.toolCallId]) := by
    intro result
    rw [← hid]
    exact hopen.append_tool result
  cases hcases with
  | inl hdecided =>
    obtain ⟨-, d, -, -, rfl⟩ := hdecided
    simp only [Owed, OpenHead, Script.resumedContext, AgentRuntime.decided, hb']
    by_cases hreject : d.decision = .reject
    · rw [if_pos hreject, SuspendedActionBatch.callsLeft_reject hreject]
      exact happend _
    · have happrove : d.decision = .approve := by
        cases hd : d.decision with
        | approve => rfl
        | reject => exact absurd hd hreject
      rw [if_neg hreject, SuspendedActionBatch.callsLeft_approve happrove]
      exact hopen
  | inr hreceived =>
    obtain ⟨-, -, text, rfl⟩ := hreceived
    simp only [Owed, OpenHead, Script.resumedContext, RuntimeContext.append, hb', hd',
      SuspendedActionBatch.callsLeft, Option.filter]
    exact happend _

theorem fresh_owed {agent : Agent} {runId : UUID} {c : RuntimeContext}
    (h : Script.Fresh agent runId c) : Owed .head { c with state := .running } := by
  obtain ⟨prompt, conversationId, turns, skills, hc⟩ := h
  unfold Agent.createContext at hc
  split at hc
  · cases hc
  · cases hc
    refine ⟨⟨owes_of_no_calls fun m hm => ?_, List.nodup_nil⟩, rfl⟩
    simp only [List.cons_append, List.mem_cons, List.mem_append, List.not_mem_nil,
      or_false] at hm
    obtain rfl | hhistory | rfl := hm
    · rfl
    · have hturn := List.mem_of_mem_drop hhistory
      obtain ⟨turn, -, hturn⟩ := List.mem_flatMap.mp hturn
      simp only [List.mem_cons, List.not_mem_nil, or_false] at hturn
      obtain rfl | rfl := hturn <;> rfl
    · rfl

theorem transcript_bookkeeping {α : Type} {p : RuntimeProg α} (h : p.Only bookkeeping) :
    (transcriptOutline env).Safe env.exec i (fun _ _ => True) (fun _ _ => True) p () := by
  refine Outline.Safe.of_only (F := fun _ => True) h (fun o _ ho _ => ?_) trivial
  exact transcript_still (by cases o <;> trivial) fun _ => trivial

theorem transcript_continueWaiting {agent : Agent} {fuel : Nat} {runId : UUID}
    {input : Option String} {confirmation : Option ToolConfirmation} :
    (transcriptOutline env).Safe env.exec i (fun _ _ => True) (fun _ _ => True)
      (agent.continueWaiting fuel runId input confirmation) () := by
  refine Script.safe_continueWaiting (fun _ => True) (transcript_still trivial fun _ => rfl)
    (transcript_still trivial fun _ => rfl) (fun _ _ => trivial) ?_
  refine transcript_step (fun _ ho => by cases ho) (fun _ _ ho => by cases ho) fun s hopen _ => ?_
  refine ⟨fun _ _ _ => trivial, fun checkpoint hclaim => ?_⟩
  have hcheckpoint := hopen runId checkpoint (RuntimeEnv.claimCheckpoint_ok hclaim)
  refine (Script.safe_restored (S := transcriptScript env agent i (some checkpoint))
    (fun _ _ => transcript_bookkeeping (settleTaskInterruption_only runId))
    (fun c hc => hcheckpoint.answer hc) (fun _ _ => trivial) fun e g _ _ => ?_).mono
      (fun _ _ _ => trivial) fun _ _ _ => trivial
  refine transcript_step ?_ (fun _ _ ho => by cases ho) fun _ _ _ => trivial
  intro saved ho
  cases ho
  exact hcheckpoint

theorem transcript_task {agent : Agent} {fuel : Nat} (call : Call) :
    (transcriptOutline env).Safe env.exec i (fun _ _ => True) (fun _ _ => True)
      (call.task agent fuel) () := by
  cases call with
  | run prompt runId conversationId skills =>
    refine Outline.Safe.bind (Q := fun _ _ => True) ?_ fun _ _ _ => trivial
    refine (Script.safe_run (S := transcriptScript env agent i none)
      (fun _ _ => transcript_bookkeeping (settleTaskInterruption_only runId)) trivial
      (fun c hc => ?_) fun _ _ _ _ => trivial).mono (fun _ _ _ => trivial) fun _ _ _ => trivial
    exact transcript_still trivial fun _ => ⟨fun _ => fresh_owed hc, fun _ _ => trivial⟩
  | resume runId input =>
    refine Outline.Safe.bind (Q := fun _ _ => True) ?_ fun _ _ _ => trivial
    unfold Agent.resume
    split
    · trivial
    · exact transcript_continueWaiting
  | confirm runId confirmation =>
    exact Outline.Safe.bind transcript_continueWaiting fun _ _ _ => trivial
  | cancel runId =>
    exact Outline.Safe.bind (transcript_bookkeeping (requestCancellation_only runId))
      fun _ _ _ => trivial
  | finalize runId =>
    exact Outline.Safe.bind (transcript_bookkeeping (finalizeTaskInterruption_only runId))
      fun _ _ _ => trivial

/-- Along every run of any number of calls on the same stores, each model request answers
every Tool call before it exactly once, as long as responses do not repeat identifiers and
the supervisor redirects a batch only at its last call. -/
theorem requests_answer_calls (env : RuntimeEnv) (agent : Agent) (fuel : Nat) (calls : ι → Call)
    (world : RuntimeWorld) (schedule : List ι) (hworld : ∀ r, world.checkpoints r = none)
    (hids : ∀ response ∈ ((startCalls agent fuel calls world).run env.exec schedule).log.filterMap
      responded, (response.toolCalls.map (·.id)).Nodup)
    (hredirect : ∀ remaining ∈ ((startCalls agent fuel calls world).run env.exec
      schedule).log.filterMap redirected, remaining = 0) :
    ∀ messages ∈ ((startCalls agent fuel calls world).run env.exec schedule).log.filterMap
      requested, Answered messages := by
  have hholds : Outline.Holds env.exec (transcriptOutline env) (fun _ _ _ => True)
      (fun _ _ _ => True) (startCalls agent fuel calls world) fun _ => () := by
    refine ⟨⟨fun r checkpoint hr => ?_, fun e he => by cases he⟩, fun i => transcript_task _⟩
    have hnone : world.checkpoints r = some checkpoint := hr
    rw [hworld r] at hnone
    cases hnone
  have hlog : ∀ e ∈ ((startCalls agent fuel calls world).run env.exec schedule).log,
      Orderly e := by
    intro e he
    constructor
    · intro response hr
      exact hids response (List.mem_filterMap.mpr ⟨e, he, hr⟩)
    · intro remaining hr
      exact hredirect remaining (List.mem_filterMap.mpr ⟨e, he, hr⟩)
  obtain ⟨ghost, hinv, -⟩ := hholds.run_log (fun _ _ _ _ _ he => he) (fun _ _ => trivial) hlog
  intro messages hmessages
  obtain ⟨e, he, hrequested⟩ := List.mem_filterMap.mp hmessages
  exact hinv.2 e he messages hrequested

end Script

/-! ## A batch that is redirected before its end -/

def unknownCalls : ModelResponse where
  toolCalls := [⟨"1", "a", []⟩, ⟨"2", "b", []⟩, ⟨"3", "c", []⟩, ⟨"4", "d", []⟩]
  valid := .inr (by simp)

def unknownCallsRun (response : ModelResponse) : RuntimePool Unit :=
  (startCalls (plainAgent []) 5 (fun _ => .run "Look it up." 0 none []) {}).run
    (onceEnv response).exec (List.replicate 60 ())

set_option maxRecDepth 20000 in
/-- The default supervisor redirects the Run after the third failure.  The next request
leaves the fourth call unanswered. -/
theorem redirected_batch_unanswered :
    (∀ response ∈ (unknownCallsRun unknownCalls).log.filterMap responded,
      (response.toolCalls.map (·.id)).Nodup) ∧
    ¬ ∀ messages ∈ (unknownCallsRun unknownCalls).log.filterMap requested, Answered messages := by
  decide

def threeUnknownCalls : ModelResponse where
  toolCalls := unknownCalls.toolCalls.take 3
  valid := .inr (by simp [unknownCalls])

set_option maxRecDepth 20000 in
/-- With three calls the same redirection comes at the last one. -/
theorem requests_answer_calls_redirected_last :
    (unknownCallsRun threeUnknownCalls).log.filterMap redirected = [0] ∧
    (unknownCallsRun threeUnknownCalls).log.filterMap requested ≠ [] ∧
    ∀ messages ∈ (unknownCallsRun threeUnknownCalls).log.filterMap requested,
      Answered messages := by
  refine ⟨by decide, by decide, ?_⟩
  exact requests_answer_calls (onceEnv threeUnknownCalls) (plainAgent []) 5
    (fun _ => .run "Look it up." 0 none []) {} (List.replicate 60 ()) (fun _ => rfl)
    (by decide) (by decide)

end Runtime
end BaseAgent

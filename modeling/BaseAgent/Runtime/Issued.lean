import BaseAgent.Runtime.Walk

/-!
# Where the Tool calls of a transcript come from

The only messages with Tool calls that an execution adds to a transcript are responses of the
model, and a checkpoint keeps the messages as they are.  What holds of every call of every
response of a model therefore holds of every call in every request to it, over all suspensions and
resumes of any number of Runs (`requests_issued`).
-/

namespace BaseAgent
namespace Runtime

open Async

variable {ι : Type} (Good : ToolCall → Prop)

def Issued (messages : List Message) : Prop :=
  ∀ message ∈ messages, ∀ call ∈ message.toolCalls, Good call

def asked (e : RuntimeEntry ι) : Option (List Message) :=
  match e with
  | ⟨_, .complete _ request, _⟩ => some request.messages
  | _ => none

def IssuedAt : Point → RuntimeContext → Prop
  | .ended, _ | .closing, _ => True
  | _, context => Issued Good context.messages

/-- Every stored checkpoint and every request so far has the property. -/
def issuedOutline : Outline ι RuntimeOp RuntimeOp.Ret RuntimeWorld Unit where
  Inv s log _ :=
    (∀ r checkpoint, s.checkpoints r = some checkpoint → Issued Good checkpoint.messages) ∧
      ∀ e ∈ log, ∀ messages, asked e = some messages → Issued Good messages

variable {Good}

theorem Issued.append {messages more : List Message} (h : Issued Good messages)
    (hmore : Issued Good more) : Issued Good (messages ++ more) := by
  intro message hmessage
  cases List.mem_append.mp hmessage with
  | inl hold => exact h message hold
  | inr hnew => exact hmore message hnew

theorem issued_plain {message : Message} (h : message.toolCalls = []) : Issued Good [message] := by
  intro other hother call hcall
  rw [List.mem_singleton.mp hother, h] at hcall
  cases hcall

theorem issued_reply {response : ModelResponse} (h : ∀ call ∈ response.toolCalls, Good call) :
    Issued Good [response.toAssistantMessage] := by
  intro other hother call hcall
  rw [List.mem_singleton.mp hother] at hcall
  exact h call hcall

theorem issued_withMessage {context : RuntimeContext} {d : SupervisionDecision}
    (h : Issued Good context.messages) : Issued Good (withMessage context d).messages := by
  cases d with
  | continue_ => exact h
  | redirect reason message => exact h.append (issued_plain rfl)
  | stop reason message status =>
    cases message with
    | none => exact h
    | some message =>
      simp only [withMessage]
      split
      · exact h
      · exact h.append (issued_plain rfl)

theorem IssuedAt.similar {p : Point} {a b : RuntimeContext} (hs : a.Similar b)
    (h : IssuedAt Good p a) : IssuedAt Good p b := by
  have hfields : IssuedAt Good p b = IssuedAt Good p a := by
    cases p <;> simp only [IssuedAt, hs.messages]
  rw [hfields]
  exact h

section Steps

variable [DecidableEq ι] {env : RuntimeEnv} {i : ι}

/-- An operation keeps the outline when it saves no other checkpoint and sends no other request
than one with the property. -/
theorem issued_step {o : RuntimeOp} {P : o.Ret → Unit → Prop}
    (hsave : ∀ checkpoint, o = .saveCheckpoint checkpoint → Issued Good checkpoint.messages)
    (hrequest : ∀ runId request, o = .complete runId request → Issued Good request.messages)
    (hP : ∀ s : RuntimeWorld,
      (∀ r checkpoint, s.checkpoints r = some checkpoint → Issued Good checkpoint.messages) →
      P (env.exec o s).1 ()) :
    (issuedOutline (ι := ι) Good).Step env.exec i o () P := by
  intro s log ghost _ hI _
  refine ⟨(), trivial, ⟨?_, ?_⟩, hP s hI.1⟩
  · intro r checkpoint hr
    by_cases ho : ∀ saved, o ≠ .saveCheckpoint saved
    · exact hI.1 r checkpoint (RuntimeEnv.exec_checkpoints ho hr)
    · obtain ⟨saved, rfl⟩ : ∃ saved, o = .saveCheckpoint saved := by simpa using ho
      simp only [RuntimeEnv.exec, RuntimeEnv.reply, RuntimeWorld.setCheckpoint] at hr
      by_cases hid : r = saved.runId
      · rw [hid, Function.update_self, Option.some.injEq] at hr
        rw [← hr]
        exact hsave saved rfl
      · rw [Function.update_of_ne hid] at hr
        exact hI.1 r checkpoint hr
  · intro e he messages hmessages
    cases List.mem_append.mp he with
    | inl hold => exact hI.2 e hold messages hmessages
    | inr hnew =>
      rw [List.mem_singleton.mp hnew] at hmessages
      unfold asked at hmessages
      split at hmessages
      · rename_i heq
        cases heq
        cases hmessages
        exact hrequest _ _ rfl
      · cases hmessages

/-- An operation that neither saves a checkpoint nor asks the model. -/
theorem issued_still {o : RuntimeOp} {P : o.Ret → Unit → Prop}
    (ho : match o with | .saveCheckpoint _ | .complete .. => False | _ => True)
    (hP : ∀ r, P r ()) : (issuedOutline (ι := ι) Good).Step env.exec i o () P := by
  refine issued_step ?_ ?_ fun s _ => hP _
  · rintro checkpoint rfl
    exact ho.elim
  · rintro runId request rfl
    exact ho.elim

def issuedScript (env : RuntimeEnv) (agent : Agent) (i : ι) (origin : Option RuntimeCheckpoint)
    (hmodel : ∀ step request response, env.complete step request = .ok response →
      ∀ call ∈ response.toolCalls, Good call) :
    Script env (issuedOutline (ι := ι) Good) agent i origin where
  At p c _ := IssuedAt Good p c
  Idle _ := True
  Over _ := True
  Out _ _ := True
  Final _ := True
  Read _ _ := True
  Missing := True
  limit := none
  similar hs h := h.similar hs
  leave _ _ _ _ _ := trivial
  bounded h := by cases h
  quiet {o g} ho := issued_still (by cases o <;> trivial) fun _ => rfl
  get _ := issued_still trivial fun _ => ⟨rfl, fun _ _ => trivial, fun _ _ => trivial⟩
  snapshot _ h _ := issued_still trivial fun _ => ⟨h, fun _ _ => trivial⟩
  lost _ _ := trivial
  beforeModel h := issued_still trivial fun _ => ⟨h, fun _ _ _ _ => issued_withMessage h⟩
  ask h _ := h
  complete := by
    intro c g tools h
    refine issued_step (fun checkpoint ho => by cases ho) ?_ ?_
    · intro runId request ho
      cases ho
      exact h
    · intro s _
      refine ⟨h, fun response hr => ?_⟩
      exact Issued.append h (issued_reply (hmodel s.steps ⟨c.messages, tools⟩ response hr))
  resume h _ := ⟨fun _ _ _ => h, fun _ => h⟩
  finish h _ := h
  beforeTool := by
    intro k call rest c g h _ _
    refine issued_still trivial fun r => ⟨h, fun d policies _ => ⟨fun _ => h, ?_⟩⟩
    intro reason message _
    exact (Issued.append h (issued_plain rfl)).append (issued_plain rfl)
  confirmed h _ := h
  refuse _ h _ := h
  request h _ _ _ := h
  invoke h _ _ := issued_still trivial fun _ => ⟨fun _ _ => h, fun _ _ _ => h⟩
  suspend _ _ h _ _ := h
  announce h := issued_still trivial fun _ => h
  observe h _ := Issued.append h (issued_plain rfl)
  afterTool := by
    intro k call rest result c g h _
    refine issued_still trivial fun r => ⟨h, fun d policies _ => ⟨fun _ => h, ?_⟩⟩
    intro reason message _
    exact Issued.append h (issued_plain rfl)
  aexit _ h := issued_still trivial fun _ => ⟨h, fun _ => trivial⟩
  park := by
    intro c g checkpoint h hcheckpoint
    refine issued_step ?_ (fun _ _ ho => by cases ho) fun _ _ => trivial
    intro saved ho
    cases ho
    obtain ⟨-, hrestore⟩ := RuntimeCheckpoint.fromContext_ok hcheckpoint
    have hmessages : checkpoint.messages = c.messages :=
      congrArg RuntimeContext.messages hrestore
    rw [hmessages]
    exact h
  clear _ := issued_still trivial fun _ => trivial
  turn _ := issued_still trivial fun _ => ⟨trivial, fun _ _ => trivial⟩
  close _ _ := issued_still trivial fun _ => trivial
  over_final _ := trivial
  over_out _ := trivial
  idle_final _ := trivial
  idle_out _ := trivial
  final_turn _ := issued_still trivial fun _ => trivial

theorem issued_answer {agent : Agent} {checkpoint : RuntimeCheckpoint} {input : Option String}
    {confirmation : Option ToolConfirmation} {c : RuntimeContext}
    (h : Issued Good checkpoint.messages)
    (hc : AgentRuntime.answer agent checkpoint.restore input confirmation = .ok c) :
    IssuedAt Good .head (Script.resumedContext c) := by
  have hrestored : Issued Good checkpoint.restore.messages := h
  obtain ⟨pending, -, hcases⟩ := AgentRuntime.answer_ok agent hc
  cases hcases with
  | inl hdecided =>
    obtain ⟨-, d, -, -, rfl⟩ := hdecided
    show Issued Good (AgentRuntime.decided checkpoint.restore pending d).messages
    unfold AgentRuntime.decided
    by_cases hreject : d.decision = .reject
    · simp only [hreject, if_true]
      exact hrestored.append (issued_plain rfl)
    · simp only [hreject, if_false]
      exact hrestored
  | inr hreceived =>
    obtain ⟨-, -, text, rfl⟩ := hreceived
    exact hrestored.append (issued_plain rfl)

theorem fresh_issued {agent : Agent} {runId : UUID} {c : RuntimeContext}
    (h : Script.Fresh agent runId c) : IssuedAt Good .head { c with state := .running } := by
  obtain ⟨prompt, conversationId, turns, skills, hc⟩ := h
  unfold Agent.createContext at hc
  split at hc
  · cases hc
  · cases hc
    intro m hm call hcall
    simp only [List.cons_append, List.mem_cons, List.mem_append, List.not_mem_nil,
      or_false] at hm
    rcases hm with rfl | hhistory | rfl
    · cases hcall
    · obtain ⟨turn, -, hturn⟩ := List.mem_flatMap.mp (List.mem_of_mem_drop hhistory)
      simp only [List.mem_cons, List.not_mem_nil, or_false] at hturn
      rcases hturn with rfl | rfl <;> cases hcall
    · cases hcall

theorem issued_bookkeeping {α : Type} {p : RuntimeProg α} (h : p.Only bookkeeping) :
    (issuedOutline (ι := ι) Good).Safe env.exec i (fun _ _ => True) (fun _ _ => True) p () := by
  refine Outline.Safe.of_only (F := fun _ => True) h (fun o _ ho _ => ?_) trivial
  exact issued_still (by cases o <;> trivial) fun _ => trivial

variable (hmodel : ∀ step request response, env.complete step request = .ok response →
  ∀ call ∈ response.toolCalls, Good call)
include hmodel

theorem issued_continueWaiting {agent : Agent} {fuel : Nat} {runId : UUID}
    {input : Option String} {confirmation : Option ToolConfirmation} :
    (issuedOutline (ι := ι) Good).Safe env.exec i (fun _ _ => True) (fun _ _ => True)
      (agent.continueWaiting fuel runId input confirmation) () := by
  refine Script.safe_continueWaiting (fun _ => True) (issued_still trivial fun _ => rfl)
    (issued_still trivial fun _ => rfl) (fun _ _ => trivial) ?_
  refine issued_step (fun _ ho => by cases ho) (fun _ _ ho => by cases ho) fun s hstored => ?_
  refine ⟨fun _ _ _ => trivial, fun checkpoint hclaim => ?_⟩
  have hcheckpoint := hstored runId checkpoint (RuntimeEnv.claimCheckpoint_ok hclaim)
  refine (Script.safe_restored (S := issuedScript env agent i (some checkpoint) hmodel)
    (fun _ _ => issued_bookkeeping (settleTaskInterruption_only runId))
    (fun c hc => issued_answer hcheckpoint hc) (fun _ _ => trivial) fun e g _ _ => ?_).mono
      (fun _ _ _ => trivial) fun _ _ _ => trivial
  refine issued_step ?_ (fun _ _ ho => by cases ho) fun _ _ => trivial
  intro saved ho
  cases ho
  exact hcheckpoint

theorem issued_task {agent : Agent} {fuel : Nat} (call : Call) :
    (issuedOutline (ι := ι) Good).Safe env.exec i (fun _ _ => True) (fun _ _ => True)
      (call.task agent fuel) () := by
  cases call with
  | run prompt runId conversationId skills =>
    refine Outline.Safe.bind (Q := fun _ _ => True) ?_ fun _ _ _ => trivial
    refine (Script.safe_run (S := issuedScript env agent i none hmodel)
      (fun _ _ => issued_bookkeeping (settleTaskInterruption_only runId)) trivial
      (fun c hc => ?_) fun _ _ _ _ => trivial).mono (fun _ _ _ => trivial) fun _ _ _ => trivial
    exact issued_still trivial fun _ => ⟨fun _ => fresh_issued hc, fun _ _ => trivial⟩
  | resume runId input =>
    refine Outline.Safe.bind (Q := fun _ _ => True) ?_ fun _ _ _ => trivial
    unfold Agent.resume
    split
    · trivial
    · exact issued_continueWaiting hmodel
  | confirm runId confirmation =>
    exact Outline.Safe.bind (issued_continueWaiting hmodel) fun _ _ _ => trivial
  | cancel runId =>
    exact Outline.Safe.bind (issued_bookkeeping (requestCancellation_only runId))
      fun _ _ _ => trivial
  | finalize runId =>
    exact Outline.Safe.bind (issued_bookkeeping (finalizeTaskInterruption_only runId))
      fun _ _ _ => trivial

/-- Along every run of any number of calls on the same stores, each Tool call in a model request
has what every Tool call of every response has. -/
theorem requests_issued (agent : Agent) (fuel : Nat) (calls : ι → Call) (world : RuntimeWorld)
    (schedule : List ι) (hworld : ∀ r, world.checkpoints r = none) :
    ∀ messages ∈ ((startCalls agent fuel calls world).run env.exec schedule).log.filterMap asked,
      Issued Good messages := by
  have hholds : Outline.Holds env.exec (issuedOutline Good) (fun _ _ _ => True)
      (fun _ _ _ => True) (startCalls agent fuel calls world) fun _ => () := by
    refine ⟨⟨fun r checkpoint hr => ?_, fun e he => by cases he⟩, fun i => issued_task hmodel _⟩
    have hnone : world.checkpoints r = some checkpoint := hr
    rw [hworld r] at hnone
    cases hnone
  obtain ⟨ghost, hinv, -⟩ := hholds.run_all (fun _ _ _ _ _ => trivial) (fun _ _ => trivial)
    schedule
  intro messages hmessages
  obtain ⟨e, he, hasked⟩ := List.mem_filterMap.mp hmessages
  exact hinv.2 e he messages hasked

end Steps

end Runtime
end BaseAgent

import BaseAgent.Raft.Replies
import BaseAgent.Raft.Rule

/-!
# Follow-ups to a waiting Run

A Run that waits is stored under the key of the conversation, and its question is sent to the
target of the reply.  What is sent there later finds the Run when it has the same key.

Direct messages and threads have their target for a key, and the reply to a task of a channel opens
the thread that the key names.  A message of a channel without a task is answered in the channel,
where each message has a key of its own.

A message with the key is still dropped when it is marked as done, or belongs to another Agent.
-/

namespace BaseAgent
namespace Raft

open Async Prog RaftWorker

/-! ## Keys and targets -/

/-- What is sent to the target of the reply has the key of the message. -/
def answerable (m : RaftMessage) (openTask : Option OpenTask) : Bool :=
  m.isDirectMessage || m.isThread || (openTask.isSome && startsWith m.target "#")

section Keys

variable {m followUp : RaftMessage} {openTask : Option OpenTask}

theorem channel_not_direct (h : startsWith m.target "#" = true) : m.isDirectMessage = false := by
  obtain ⟨name, hname⟩ := List.isPrefixOf_iff_prefix.mp h
  cases hdirect : m.isDirectMessage with
  | false => rfl
  | true =>
    obtain ⟨handle, hhandle⟩ := List.isPrefixOf_iff_prefix.mp hdirect
    rw [← hname] at hhandle
    have hfirst : 'd' = '#' := (List.cons.inj hhandle).1
    exact absurd hfirst (by decide)

theorem replyTarget_of_conversation (h : (m.isDirectMessage || m.isThread) = true) :
    replyTarget m openTask = m.target := by
  have hplain : ¬ (openTask.isSome && startsWith m.target "#" && !m.isThread) = true := by
    intro hthread
    simp only [Bool.and_eq_true, Bool.not_eq_true'] at hthread
    obtain ⟨⟨-, hchannel⟩, hno⟩ := hthread
    rw [hno, channel_not_direct hchannel] at h
    cases h
  unfold replyTarget
  rw [if_neg hplain]

/-- A task of a channel is answered in a thread, which the key of the message names. -/
theorem replyTarget_of_task (h : (m.isDirectMessage || m.isThread) = false)
    (htask : (openTask.isSome && startsWith m.target "#") = true) :
    replyTarget m openTask = s!"{m.target}:{m.messageId}" := by
  rw [Bool.or_eq_false_iff] at h
  unfold replyTarget
  rw [htask, h.2]
  rfl

/-- A message of a channel without a task is answered in the channel. -/
theorem replyTarget_of_not_answerable (h : answerable m openTask = false) :
    replyTarget m openTask = m.target := by
  unfold answerable at h
  rw [Bool.or_eq_false_iff] at h
  unfold replyTarget
  rw [h.2]
  rfl

theorem conversationKey_of_conversation (h : (m.isDirectMessage || m.isThread) = true) :
    m.conversationKey = m.target := by
  unfold RaftMessage.conversationKey
  rw [if_pos h]

theorem conversationKey_of_single (h : (m.isDirectMessage || m.isThread) = false) :
    m.conversationKey = s!"{m.target}:{m.messageId}" := by
  unfold RaftMessage.conversationKey
  rw [h]
  rfl

/-- Whether a message belongs to a conversation is a matter of its target. -/
theorem conversation_congr (h : followUp.target = m.target) :
    (followUp.isDirectMessage || followUp.isThread) = (m.isDirectMessage || m.isThread) := by
  unfold RaftMessage.isDirectMessage RaftMessage.isThread
  rw [h]

/-- What is sent to a thread of a channel belongs to a conversation. -/
theorem thread_conversation {channel name : String} (hchannel : startsWith channel "#" = true)
    (h : followUp.target = s!"{channel}:{name}") :
    (followUp.isDirectMessage || followUp.isThread) = true := by
  have hchars : followUp.target.toList = channel.toList ++ ':' :: name.toList := by
    rw [h]
    simp [toString]
  have hstart : startsWith followUp.target "#" = true := by
    obtain ⟨rest, hrest⟩ := List.isPrefixOf_iff_prefix.mp hchannel
    refine List.isPrefixOf_iff_prefix.mpr ⟨rest ++ ':' :: name.toList, ?_⟩
    rw [hchars, ← hrest, List.append_assoc]
  have hplain : startsWith followUp.target "dm:@" = false := channel_not_direct hstart
  have hcolon : followUp.target.toList.contains ':' = true := by
    rw [hchars]
    simp
  unfold RaftMessage.isThread
  rw [hplain, hstart, hcolon]
  simp

/-- What is sent to the target of an answerable reply has the key of the message. -/
theorem followUp_key (h : answerable m openTask = true)
    (hsent : followUp.target = replyTarget m openTask) :
    followUp.conversationKey = m.conversationKey := by
  by_cases hconversation : (m.isDirectMessage || m.isThread) = true
  · rw [replyTarget_of_conversation hconversation] at hsent
    rw [conversationKey_of_conversation hconversation, conversationKey_of_conversation, hsent]
    rw [conversation_congr hsent, hconversation]
  · rw [Bool.not_eq_true] at hconversation
    unfold answerable at h
    rw [hconversation, Bool.false_or] at h
    rw [replyTarget_of_task hconversation h] at hsent
    rw [conversationKey_of_single hconversation, ← hsent]
    exact conversationKey_of_conversation
      (thread_conversation (Bool.and_eq_true_iff.mp h).2 hsent)

/-- What is sent to the target of another reply has a key of its own. -/
theorem followUp_key_ne (h : answerable m openTask = false)
    (hsent : followUp.target = replyTarget m openTask)
    (hother : followUp.messageId ≠ m.messageId) :
    followUp.conversationKey ≠ m.conversationKey := by
  rw [replyTarget_of_not_answerable h] at hsent
  unfold answerable at h
  rw [Bool.or_eq_false_iff] at h
  rw [conversationKey_of_single h.1, conversationKey_of_single, hsent]
  · intro hkey
    have hchars := congrArg String.toList hkey
    simp only [toString, String.toList_append] at hchars
    exact hother (String.toList_inj.mp (List.append_cancel_left hchars))
  · rw [conversation_congr hsent, h.1]

end Keys

/-! ## Messages that are taken up -/

namespace RaftWorker

/-- The message passes the guards of `_should_handle` in front of the search for a waiting Run. -/
def TakesUp (worker : RaftWorker) (m : RaftMessage) : Prop :=
  worker.casefold m.senderHandle ≠ worker.casefold worker.config.handle ∧
    ¬ (m.senderType = "system" ∨ m.senderType = "third_party_app") ∧
    ¬ (m.taskStatus = some "done" ∨ m.taskStatus = some "closed") ∧
    ¬ (m.taskAssigneeId.isSome ∧ m.taskAssigneeId ≠ some (uuidText worker.config.agentId))

instance (worker : RaftWorker) (m : RaftMessage) : Decidable (worker.TakesUp m) :=
  inferInstanceAs (Decidable (_ ∧ ¬ (_ ∨ _) ∧ ¬ (_ ∨ _) ∧ ¬ (_ ∧ _)))

end RaftWorker

/-- Files are in order, and a task is given to who claims it. -/
structure Grants (env : RaftEnv) : Prop where
  file : ∀ n, env.file n = true
  claim : ∀ n target number, env.claim n target number = .ok ()

section TakenUp

variable {worker : RaftWorker} {env : RaftEnv} {w : RaftWorld} {m : RaftMessage}

theorem shouldHandle_waiting {state : WorkerState}
    (h : (state.waitingRuns m.conversationKey).isSome = true) :
    worker.shouldHandle m state = true ↔ worker.TakesUp m := by
  unfold shouldHandle TakesUp
  by_cases hself : worker.casefold m.senderHandle = worker.casefold worker.config.handle
  · simp [hself]
  rw [if_neg hself]
  by_cases hsender : m.senderType = "system" ∨ m.senderType = "third_party_app"
  · simp [hsender]
  rw [if_neg hsender]
  by_cases hdone : m.taskStatus = some "done" ∨ m.taskStatus = some "closed"
  · simp [hdone]
  rw [if_neg hdone]
  by_cases hother : m.taskAssigneeId.isSome ∧
      m.taskAssigneeId ≠ some (uuidText worker.config.agentId)
  · simp [hother]
  rw [if_neg hother, if_pos h]
  exact iff_of_true rfl ⟨hself, hsender, hdone, hother⟩

theorem save_granted (hgrants : Grants env) :
    save.eval (worker.exec env) w =
      (.ok (), { w with disk := some w.memory, steps := w.steps + 1 }) := by
  have hsave : worker.exec env .save w =
      (.ok (), { w with disk := some w.memory, steps := w.steps + 1 }) := by
    simp only [RaftWorker.exec, RaftEnv.exec, RaftEnv.reply, RaftEnv.onFile, hgrants.file, if_true]
  exact (Prog.eval_call hsave).trans rfl

/-- A claim that is granted leaves the Runs and the replies as they are. -/
theorem claim_granted (hgrants : Grants env) :
    ∃ w', (worker.claim m).eval (worker.exec env) w = (.ok true, w') ∧
      w'.memory.waitingRuns = w.memory.waitingRuns ∧
      w'.memory.cachedReplies = w.memory.cachedReplies := by
  have hrecord : ∀ v : RaftWorld, v.memory.waitingRuns = w.memory.waitingRuns →
      v.memory.cachedReplies = w.memory.cachedReplies →
      ∃ w', ((edit (.claimed m.messageId)).bind fun _ => save.bind fun _ =>
          (.ret true : RaftProg Bool)).eval (worker.exec env) v = (.ok true, w') ∧
        w'.memory.waitingRuns = w.memory.waitingRuns ∧
        w'.memory.cachedReplies = w.memory.cachedReplies := by
    intro v hruns hreplies
    have hedit : (edit (.claimed m.messageId)).eval (worker.exec env) v =
        (.ok (), (worker.exec env (.edit (.claimed m.messageId)) v).2) := rfl
    rw [Prog.eval_bind_ok hedit, Prog.eval_bind_ok (save_granted hgrants)]
    exact ⟨_, rfl, hruns, hreplies⟩
  unfold RaftWorker.claim
  cases m.taskNumber with
  | none => exact ⟨w, rfl, rfl, rfl⟩
  | some number =>
    have hread : (RaftWorker.read .claimIfNeeded m).eval (worker.exec env) w =
        (.ok w.memory, { w with steps := w.steps + 1 }) := rfl
    show ∃ w', (worker.claimIfNeeded m number).eval (worker.exec env) w = _ ∧ _
    unfold claimIfNeeded
    rw [Prog.bind_eq, Prog.eval_bind_ok hread]
    split
    · exact ⟨_, rfl, rfl, rfl⟩
    · split
      · exact hrecord _ rfl rfl
      · have hclaim : ∀ u, worker.exec env (.claimTask m.messageId (taskTarget m.target) number) u =
            (.ok (), { u with steps := u.steps + 1 }) := by
          intro u
          simp only [RaftWorker.exec, RaftEnv.exec, RaftEnv.reply, hgrants.claim]
        rw [Prog.eval_call (hclaim _)]
        exact hrecord _ rfl rfl

/-- The first thing that an execution does to the Agent is to resume the Run that waits. -/
theorem execute_resumes {waitingRun : String} {runId : UUID}
    (hwaiting : w.memory.waitingRuns m.conversationKey = some waitingRun)
    (hrun : worker.lib.uuid waitingRun = some runId) :
    ∃ r rest, (worker.execute m).history (worker.exec env) w =
      ⟨(), .read .waitingRun m, w.memory⟩ :: ⟨(), .resume m.messageId runId m.content, r⟩ :: rest := by
  have hread : (RaftWorker.read .waitingRun m).eval (worker.exec env) w =
      (.ok w.memory, { w with steps := w.steps + 1 }) := rfl
  unfold execute
  rw [Prog.bind_eq, Prog.history_bind_ok hread, hwaiting]
  dsimp only
  unfold resumeRun
  rw [hrun]
  exact ⟨_, _, rfl⟩

/-- A message that is taken up resumes the Run that waits for it. -/
theorem processMessage_resumes {waitingRun : String} {runId : UUID} (hgrants : Grants env)
    (htaken : worker.TakesUp m) (hwaiting : w.memory.waitingRuns m.conversationKey = some waitingRun)
    (hnew : w.memory.cachedReplies m.messageId = none)
    (hrun : worker.lib.uuid waitingRun = some runId) :
    ∃ r, (⟨(), .resume m.messageId runId m.content, r⟩ : RaftEntry) ∈
      (worker.processMessage m).history (worker.exec env) w := by
  have hhandle : worker.shouldHandle m w.memory = true :=
    (shouldHandle_waiting (by rw [hwaiting]; rfl)).mpr htaken
  obtain ⟨v, hclaim, hruns, hreplies⟩ : ∃ v,
      (worker.claim m).eval (worker.exec env) { w with steps := w.steps + 1 } = (.ok true, v) ∧
      v.memory.waitingRuns = w.memory.waitingRuns ∧
      v.memory.cachedReplies = w.memory.cachedReplies := claim_granted hgrants
  have hread : (RaftWorker.read .shouldHandle m).eval (worker.exec env) w =
      (.ok w.memory, { w with steps := w.steps + 1 }) := rfl
  have hwaits : v.memory.waitingRuns m.conversationKey = some waitingRun := by
    rw [hruns, hwaiting]
  obtain ⟨r, rest, hexecute⟩ : ∃ r rest,
      (worker.execute m).history (worker.exec env) { v with steps := v.steps + 1 } =
        ⟨(), .read .waitingRun m, v.memory⟩ ::
          ⟨(), .resume m.messageId runId m.content, r⟩ :: rest := execute_resumes hwaits hrun
  have hcached : (RaftWorker.read .cachedReply m).eval (worker.exec env) v =
      (.ok v.memory, { v with steps := v.steps + 1 }) := rfl
  unfold processMessage
  rw [Prog.bind_eq, Prog.history_bind_ok hread, if_pos hhandle, Prog.bind_eq,
    Prog.history_bind_ok hclaim, if_pos rfl, Prog.bind_eq]
  refine ⟨r, List.mem_append_right _ (List.mem_append_right _ ?_)⟩
  refine (Prog.history_bind_prefix _ _ v).subset ?_
  unfold obtainReply
  rw [Prog.bind_eq, Prog.history_bind_ok hcached, hreplies, hnew]
  refine List.mem_append_right _ ((Prog.history_bind_prefix _ _ _).subset ?_)
  rw [hexecute]
  exact List.mem_cons_of_mem _ List.mem_cons_self

end TakenUp

/-! ## What a worker does with a waiting Run -/

inductive Phase where
  | idle
  /-- It has looked for the Run that waits for the message. -/
  | searched (message : RaftMessage) (state : WorkerState)
  /-- It has a result, and has looked for the task that the message belongs to. -/
  | settled (message : RaftMessage) (openTask : Option OpenTask)
  /-- It has stored the Run that waits now. -/
  | stored (message : RaftMessage) (openTask : Option OpenTask)

/-- The Run that waits for a message is resumed with it, and a Run is stored under the key of the
message whose reply follows. -/
def conduct (worker : RaftWorker) : Observer RaftOp RaftOp.Ret Phase where
  admits
    | .searched message state, o => ∀ waitingRun runId,
      state.waitingRuns message.conversationKey = some waitingRun →
        worker.lib.uuid waitingRun = some runId →
          o = .resume message.messageId runId message.content
    | .settled message _, .edit (.waiting key _) => key = message.conversationKey
    | .idle, .edit (.waiting ..) => False
    | .stored message openTask, o => match o with
      | .edit (.opened ..) => True
      | .edit (.cached id reply) =>
        id = message.messageId ∧ reply.target = replyTarget message openTask
      | _ => False
    | _, _ => True
  next
    | _, .read .waitingRun message, state => .searched message state
    | _, .read .openTask message, state => .settled message (taskForMessage message state)
    | .settled message openTask, .edit (.waiting ..), _ => .stored message openTask
    | .stored message openTask, .edit (.opened ..), _ => .stored message openTask
    | _, _, _ => .idle

def Phase.Free : Phase → Prop
  | .idle | .settled .. => True
  | _ => False

def plain : RaftOp → Prop
  | .edit (.waiting ..) | .read .waitingRun _ | .read .openTask _ => False
  | _ => True

section Conduct

variable {worker : RaftWorker} {message : RaftMessage} {phase : Phase}

theorem admits_plain {o : RaftOp} (ho : plain o) (h : phase.Free) :
    (conduct worker).admits phase o := by
  cases phase with
  | searched message state => exact h.elim
  | stored message openTask => exact h.elim
  | idle | settled message openTask =>
    cases o with
    | edit change => cases change <;> first | exact ho.elim | trivial
    | _ => trivial

theorem next_plain {o : RaftOp} (ho : plain o) (h : phase.Free) (r : o.Ret) :
    (conduct worker).next phase o r = .idle := by
  cases phase with
  | searched message state => exact h.elim
  | stored message openTask => exact h.elim
  | idle | settled message openTask =>
    cases o with
    | edit change => cases change <;> first | exact ho.elim | rfl
    | read reader message => cases reader <;> first | exact ho.elim | rfl
    | _ => rfl

theorem plain_allowed {o : RaftOp} (ho : plain o) (h : phase.Free) :
    Allowed (conduct worker) phase o fun _ s => s = .idle :=
  ⟨admits_plain ho h, fun r _ => next_plain ho h r⟩

theorem plain_meets {α : Type} {p : RaftProg α} (hp : p.Only plain) (h : phase.Free) :
    p.Meets (conduct worker) (fun _ s => s.Free) (fun _ s => s.Free) phase := by
  refine only_meets (fun o s ho hs => (plain_allowed ho hs).mono fun _ s' hs' => ?_) hp h
  rw [hs']
  trivial

theorem plain_of_outer (o : RaftOp) (h : outer o) : plain o := by
  cases o with
  | edit change => cases change <;> first | exact h.elim | trivial
  | read reader message => cases reader <;> first | exact h.elim | trivial
  | _ => trivial

theorem edit_plain {change : Edit} (h : plain (.edit change)) : (edit change).Only plain :=
  ⟨h, fun _ => trivial⟩

theorem save_plain : save.Only plain := save_outer.mono plain_of_outer

theorem startRun_plain (message : RaftMessage) : (worker.startRun message).Only plain := by
  refine ⟨trivial, fun r => ?_⟩
  cases r with
  | ok result => trivial
  | error e => trivial

theorem moveTask_plain (message : RaftMessage) (cached : CachedReply) :
    (moveTask message cached).Only plain := by
  unfold moveTask
  split
  · refine ⟨trivial, fun r => ?_⟩
    cases r with
    | ok u =>
      exact (edit_plain (by trivial)).bind fun _ => (edit_plain (by trivial)).bind fun _ => save_plain
    | error e => trivial
  · trivial

theorem conduct_execute (message : RaftMessage) (h : phase.Free) :
    (worker.execute message).Meets (conduct worker) (fun _ s => s.Free) (fun _ s => s.Free)
      phase := by
  have hsearch : Allowed (conduct worker) phase (.read .waitingRun message)
      fun state s => s = .searched message state := by
    refine ⟨?_, fun state _ => by cases phase <;> rfl⟩
    cases phase <;> trivial
  refine hsearch.call fun state s hs => ?_
  subst hs
  dsimp only [Prog.bind]
  -- after the first operation that follows, the worker is free
  have hfirst : ∀ (o : RaftOp) (k : o.Ret → RaftProg AgentResult), plain o →
      (∀ waitingRun runId, state.waitingRuns message.conversationKey = some waitingRun →
        worker.lib.uuid waitingRun = some runId →
          o = .resume message.messageId runId message.content) →
      (∀ r, (k r).Only plain) →
      (Prog.call o k).Meets (conduct worker) (fun _ s => s.Free) (fun _ s => s.Free)
        (.searched message state) := by
    intro o k ho hadmits hk
    refine ⟨hadmits, fun r _ => plain_meets (hk r) ?_⟩
    cases o with
    | edit change => cases change <;> first | exact ho.elim | trivial
    | read reader message => cases reader <;> first | exact ho.elim | trivial
    | _ => trivial
  have hrestart : ((edit (.resumed message.conversationKey)).bind fun _ =>
      (edit (.closed message.conversationKey)).bind fun _ => save.bind fun _ =>
        worker.startRun message : RaftProg AgentResult).Only plain :=
    (edit_plain (by trivial)).bind fun _ => (edit_plain (by trivial)).bind fun _ =>
      save_plain.bind fun _ => startRun_plain message
  cases hwaiting : state.waitingRuns message.conversationKey with
  | none =>
    refine hfirst (.run message.messageId message.buildPrompt (worker.runId message.messageId)
      worker.skills) _ trivial (fun waitingRun runId hsome => ?_) fun r => ?_
    · rw [hwaiting] at hsome
      cases hsome
    · cases r with
      | ok result => trivial
      | error e => trivial
  | some waitingRun =>
    show ((worker.resumeRun message waitingRun).bind _ : RaftProg AgentResult).Meets _ _ _ _
    unfold resumeRun
    cases huuid : worker.lib.uuid waitingRun with
    | none =>
      refine hfirst (.edit (.resumed message.conversationKey)) _ trivial
        (fun other runId hsome hparsed => ?_) fun _ => ?_
      · rw [hwaiting] at hsome
        cases hsome
        rw [huuid] at hparsed
        cases hparsed
      · exact (edit_plain (by trivial)).bind fun _ => save_plain.bind fun _ => startRun_plain message
    | some runId =>
      refine hfirst (.resume message.messageId runId message.content) _ trivial
        (fun other runId' hsome hparsed => ?_) fun r => ?_
      · rw [hwaiting] at hsome
        cases hsome
        rw [huuid] at hparsed
        cases hparsed
        rfl
      · cases r with
        | ok result => trivial
        | error e =>
          by_cases hgone : e.gone = true
          · simp only [hgone, if_true]
            exact hrestart
          · simp only [hgone]
            trivial

/-- A Run that waits is stored under the key of its message, whose reply follows. -/
theorem conduct_cacheReply (message : RaftMessage) (result : AgentResult)
    (openTask : Option OpenTask) :
    (worker.cacheReply message result openTask).Meets (conduct worker) (fun _ s => s.Free)
      (fun _ s => s.Free) (.settled message openTask) := by
  have hcached : ∀ s, s = .idle ∨ s = .stored message openTask →
      ((edit (.cached message.messageId (worker.replyFor message result openTask))).bind fun _ =>
        save.bind fun _ => (.ret (worker.replyFor message result openTask) :
          RaftProg CachedReply)).Meets (conduct worker) (fun _ s => s.Free) (fun _ s => s.Free)
          s := by
    rintro s (rfl | rfl)
    · exact plain_meets ((edit_plain (by trivial)).bind fun _ => save_plain.bind fun _ => trivial)
        trivial
    · exact ⟨⟨rfl, rfl⟩, fun _ _ => plain_meets (save_plain.bind fun _ => trivial) trivial⟩
  have hkeep : (keepWaiting message result openTask).Meets (conduct worker)
      (fun _ s => s = .idle ∨ s = .stored message openTask) (fun _ s => s.Free)
      (.settled message openTask) := by
    unfold keepWaiting
    split
    · cases result.runId with
      | none => trivial
      | some runId =>
        refine ⟨rfl, fun _ _ => ?_⟩
        cases openTask with
        | none => exact .inr rfl
        | some task => exact ⟨trivial, fun _ _ => .inr rfl⟩
    · exact ⟨trivial, fun _ _ => .inl rfl⟩
  exact hkeep.bind fun _ s hs => hcached s hs

def conductRule (worker : RaftWorker) : Rule worker (conduct worker) where
  Between s := s.Free
  Holding _ _ s := s.Free
  outer := by
    intro o s ho h
    refine (plain_allowed (plain_of_outer o ho) h).mono fun _ s' hs' => ?_
    rw [hs']
    trivial
  holding h := h
  carry := by
    intro _ _ o s ho h
    refine (plain_allowed (plain_of_outer o (outer_of_sending o ho)) h).mono fun _ s' hs' => ?_
    rw [hs']
    trivial
  obtain := by
    intro message s h
    refine (plain_allowed (o := .read .cachedReply message) trivial h).call fun state s₁ h₁ => ?_
    rw [h₁]
    show (match state.cachedReplies message.messageId with
      | some _ => _
      | none => _ : RaftProg CachedReply).Meets (conduct worker) _ _ _
    cases state.cachedReplies message.messageId with
    | some cached => trivial
    | none =>
      refine (conduct_execute message (show Phase.Free .idle from trivial)).bind fun result s₂ h₂ => ?_
      have hsettle : Allowed (conduct worker) s₂ (.read .openTask message)
          fun state s => s = .settled message (taskForMessage message state) := by
        refine ⟨?_, fun state _ => by cases s₂ <;> rfl⟩
        cases s₂ <;> trivial
      refine hsettle.call fun later s₃ h₃ => ?_
      subst h₃
      exact conduct_cacheReply message result _
  move h := plain_meets (moveTask_plain _ _) h

end Conduct

/-! ## What the log shows -/

def touches (key : String) : RaftEntry → Bool
  | ⟨_, .edit (.waiting k _), _⟩ | ⟨_, .edit (.resumed k), _⟩ => k == key
  | _ => false

def Tracks (log : List RaftEntry) (state : WorkerState) : Prop :=
  ∀ before key waitingRun after,
    log = before ++ did (.edit (.waiting key waitingRun)) () :: after →
      (∀ e ∈ after, touches key e = false) → state.waitingRuns key = some waitingRun

structure Tracked (s : RaftWorld) (log : List RaftEntry) : Prop where
  memory : Tracks log s.memory
  reads : ∀ before reader message state after,
    log = before ++ did (.read reader message) state :: after → Tracks before state

section Tracked

variable {worker : RaftWorker} {env : RaftEnv}

theorem exec_waitingRuns (o : RaftOp) (w : RaftWorld) {key waitingRun : String}
    (ho : touches key (did o (worker.exec env o w).1) = false)
    (h : w.memory.waitingRuns key = some waitingRun) :
    (worker.exec env o w).2.memory.waitingRuns key = some waitingRun := by
  cases o with
  | edit change =>
    rw [exec_edit]
    cases change with
    | waiting k _ | resumed k =>
      have hk : (k == key) = false := ho
      rw [beq_eq_false_iff_ne] at hk
      simp only [WorkerState.edit]
      rw [Function.update_of_ne (Ne.symm hk)]
      exact h
    | _ => exact h
  | readSpool | writeSpool _ | clearSpool | save =>
    simp only [RaftWorker.exec, RaftEnv.exec, RaftEnv.reply, RaftEnv.onFile]
    split <;> exact h
  | run messageId prompt runId skills =>
    simp only [RaftWorker.exec, RaftEnv.exec, RaftEnv.reply]
    split <;> exact h
  | _ => exact h

theorem Tracked.step {w : RaftWorld} {log : List RaftEntry} (h : Tracked w log) (o : RaftOp) :
    Tracked (worker.exec env o w).2 (log ++ [did o (worker.exec env o w).1]) where
  memory := by
    intro before key waitingRun after hlog hafter
    cases snoc_eq_split.mp hlog with
    | inl hlast =>
      obtain ⟨-, hentry, -⟩ := hlast
      cases hentry
      rw [exec_edit]
      simp [WorkerState.edit]
    | inr hearlier =>
      obtain ⟨rest, rfl, hsplit⟩ := hearlier
      rw [List.forall_mem_append, List.forall_mem_singleton] at hafter
      exact exec_waitingRuns o w hafter.2 (h.memory before key waitingRun rest hsplit hafter.1)
  reads := by
    intro before reader message state after hlog
    cases snoc_eq_split.mp hlog with
    | inl hlast =>
      obtain ⟨rfl, hentry, -⟩ := hlast
      cases hentry
      exact h.memory
    | inr hearlier =>
      obtain ⟨rest, rfl, hsplit⟩ := hearlier
      exact h.reads before reader message state rest hsplit

end Tracked

section Worker

variable (worker : RaftWorker) (env : RaftEnv) (calls : Nat) (schedule : List Unit)

theorem worker_tracked :
    Tracked ((worker.pool calls).run (worker.exec env) schedule).shared
      (worker.log env calls schedule) := by
  refine Pool.run_invariant (worker.exec env) (I := Tracked) (fun s log i o h => h.step o) ?_
    schedule
  exact ⟨by simp [Tracks, RaftWorker.pool], by simp [RaftWorker.pool]⟩

theorem worker_conduct : (conduct worker).Admitted .idle (worker.log env calls schedule) := by
  have hserve : (worker.serve calls).Meets (conduct worker) (fun _ s => s.Free)
      (fun _ s => s.Free) .idle :=
    Rule.kept_serve (R := conductRule worker) calls (show Phase.Free .idle from trivial)
  exact Meets.admitted (c := worker.pool calls) hserve rfl (worker.exec env) schedule
    (Observer.expected_of_forall (fun _ _ _ => trivial) _)

/-- A message has been handled with a WAITING result: its Run is stored under the key, and the
reply is made. -/
def Handled (log : List RaftEntry) (m : RaftMessage) (openTask : Option OpenTask)
    (key waitingRun : String) (reply : CachedReply) (later : List RaftEntry) : Prop :=
  ∃ before state opened,
    log = before ++ did (.read .openTask m) state :: did (.edit (.waiting key waitingRun)) () ::
      (opened ++ did (.edit (.cached m.messageId reply)) () :: later) ∧
    taskForMessage m state = openTask ∧
    ∀ e ∈ opened, ∃ k task, e = did (.edit (.opened k task)) ()

/-- The follow-up has the key of the Run and is taken up while the Run waits.  Where the journal is
read for it, before the Run of the key changes, it has the Run, and the search for the waiting Run
leads to its resumption.  Handled at any other time, it resumes the Run as well. -/
structure Reaches (worker : RaftWorker) (key waitingRun : String) (later : List RaftEntry)
    (followUp : RaftMessage) : Prop where
  sameKey : followUp.conversationKey = key
  taken : ∀ state, state.waitingRuns key = some waitingRun →
    worker.shouldHandle followUp state = true
  found : ∀ between reader state rest,
    later = between ++ did (.read reader followUp) state :: rest →
      (∀ e ∈ between, touches key e = false) →
        state.waitingRuns followUp.conversationKey = some waitingRun ∧
          (reader = .waitingRun → ∀ runId e, worker.lib.uuid waitingRun = some runId →
            rest.head? = some e →
              ∃ r, e = did (.resume followUp.messageId runId followUp.content) r)
  resumed : ∀ env w runId, Grants env → w.memory.waitingRuns key = some waitingRun →
    w.memory.cachedReplies followUp.messageId = none → worker.lib.uuid waitingRun = some runId →
      ∃ r, did (.resume followUp.messageId runId followUp.content) r ∈
        (worker.processMessage followUp).history (worker.exec env) w

variable {worker env calls schedule}
variable {m : RaftMessage} {openTask : Option OpenTask} {key waitingRun : String}
variable {reply : CachedReply} {later : List RaftEntry}

theorem after_opened {before opened : List RaftEntry} {phase : Phase}
    (hphase : (conduct worker).after phase before = .stored m openTask)
    (hopened : ∀ e ∈ opened, ∃ k task, e = did (.edit (.opened k task)) ()) :
    (conduct worker).after phase (before ++ opened) = .stored m openTask := by
  induction opened generalizing before with
  | nil =>
    rw [List.append_nil]
    exact hphase
  | cons e rest ih =>
    obtain ⟨k, task, rfl⟩ := hopened e List.mem_cons_self
    rw [List.append_cons]
    refine ih ?_ fun e he => hopened e (List.mem_cons_of_mem _ he)
    rw [Observer.after_snoc, hphase]
    rfl

/-- The Run of a handled message is stored under its key, and the reply goes to its target. -/
theorem handled_reply
    (h : Handled (worker.log env calls schedule) m openTask key waitingRun reply later) :
    key = m.conversationKey ∧ reply.target = replyTarget m openTask := by
  obtain ⟨before, state, opened, hlog, htask, hopened⟩ := h
  have hadmitted := worker_conduct worker env calls schedule
  rw [hlog] at hadmitted
  have hread : ∀ phase, (conduct worker).next phase (.read .openTask m) state =
      .settled m openTask := by
    intro phase
    rw [← htask]
    cases phase <;> rfl
  have hsettled : (conduct worker).after .idle (before ++ [did (.read .openTask m) state]) =
      .settled m openTask := by
    rw [Observer.after_snoc, hread]
  rw [List.append_cons] at hadmitted
  have hkey := hadmitted.split
  rw [hsettled] at hkey
  refine ⟨hkey, ?_⟩
  have hstored : (conduct worker).after .idle (before ++ [did (.read .openTask m) state] ++
      [did (.edit (.waiting key waitingRun)) ()]) = .stored m openTask := by
    rw [Observer.after_snoc, hsettled]
    rfl
  rw [List.append_cons, ← List.append_assoc] at hadmitted
  have hreply := hadmitted.split
  rw [after_opened hstored hopened] at hreply
  exact hreply.2

/-- Where the journal is read for a message with the key, before the Run of the key changes, it has
the Run. -/
theorem handled_found {followUp : RaftMessage} {between rest : List RaftEntry} {reader : Reader}
    {found : WorkerState}
    (h : Handled (worker.log env calls schedule) m openTask key waitingRun reply later)
    (hsame : followUp.conversationKey = key)
    (hlater : later = between ++ did (.read reader followUp) found :: rest)
    (hbetween : ∀ e ∈ between, touches key e = false) :
    ∃ before, worker.log env calls schedule =
        before ++ did (.read reader followUp) found :: rest ∧
      found.waitingRuns followUp.conversationKey = some waitingRun := by
  obtain ⟨before, state, opened, hlog, -, hopened⟩ := h
  have hread : worker.log env calls schedule =
      (before ++ did (.read .openTask m) state :: did (.edit (.waiting key waitingRun)) () ::
        (opened ++ did (.edit (.cached m.messageId reply)) () :: between)) ++
          did (.read reader followUp) found :: rest := by
    rw [hlog, hlater]
    simp
  refine ⟨_, hread, ?_⟩
  rw [hsame]
  refine (worker_tracked worker env calls schedule).reads _ reader followUp found rest hread
    (before ++ [did (.read .openTask m) state]) key waitingRun
    (opened ++ did (.edit (.cached m.messageId reply)) () :: between) (by simp) ?_
  intro e he
  rw [List.mem_append, List.mem_cons] at he
  obtain hopen | rfl | hlate := he
  · obtain ⟨k, task, rfl⟩ := hopened e hopen
    rfl
  · rfl
  · exact hbetween e hlate

theorem searched_resumes {before rest : List RaftEntry} {followUp : RaftMessage}
    {state : WorkerState} {runId : UUID} {e : RaftEntry}
    (hlog : worker.log env calls schedule =
      before ++ did (.read .waitingRun followUp) state :: rest)
    (hfound : state.waitingRuns followUp.conversationKey = some waitingRun)
    (hrun : worker.lib.uuid waitingRun = some runId) (he : rest.head? = some e) :
    ∃ r, e = did (.resume followUp.messageId runId followUp.content) r := by
  obtain ⟨tail, rfl⟩ := List.head?_eq_some_iff.mp he
  have hadmitted := worker_conduct worker env calls schedule
  rw [hlog, List.append_cons] at hadmitted
  have hnext := hadmitted.split
  have hread : ∀ phase, (conduct worker).next phase (.read .waitingRun followUp) state =
      .searched followUp state := by
    intro phase
    cases phase <;> rfl
  rw [Observer.after_snoc, hread] at hnext
  obtain ⟨task, op, r⟩ := e
  have hop : op = .resume followUp.messageId runId followUp.content :=
    hnext waitingRun runId hfound hrun
  subst hop
  exact ⟨r, rfl⟩

/-- What is sent to the target of the reply reaches the waiting Run when the message was one of a
conversation, or belonged to a task of a channel, and the worker takes up the follow-up, and only
then. -/
theorem follow_ups_reach_iff {followUp : RaftMessage}
    (h : Handled (worker.log env calls schedule) m openTask key waitingRun reply later)
    (hsent : followUp.target = reply.target) (hother : followUp.messageId ≠ m.messageId) :
    Reaches worker key waitingRun later followUp ↔
      answerable m openTask = true ∧ worker.TakesUp followUp := by
  obtain ⟨hkey, htarget⟩ := handled_reply h
  rw [htarget] at hsent
  constructor
  · intro hreaches
    constructor
    · by_contra hnot
      rw [Bool.not_eq_true] at hnot
      exact followUp_key_ne hnot hsent hother (hreaches.sameKey.trans hkey)
    · have hstored : (({ waitingRuns := fun _ => some waitingRun } : WorkerState).waitingRuns
          followUp.conversationKey).isSome = true := rfl
      exact (shouldHandle_waiting hstored).mp (hreaches.taken _ rfl)
  · rintro ⟨hanswerable, htaken⟩
    have hsame : followUp.conversationKey = key := (followUp_key hanswerable hsent).trans hkey.symm
    refine ⟨hsame, fun state hstate => ?_, fun between reader state rest hlater hbetween => ?_,
      fun env w runId hgrants hwaiting hnew hrun => ?_⟩
    · refine (shouldHandle_waiting ?_).mpr htaken
      rw [hsame, hstate]
      rfl
    · obtain ⟨before, hread, hfound⟩ := handled_found h hsame hlater hbetween
      refine ⟨hfound, ?_⟩
      rintro rfl runId e hrun he
      exact searched_resumes hread hfound hrun he
    · rw [← hsame] at hwaiting
      exact processMessage_resumes hgrants htaken hwaiting hnew hrun

end Worker

def looked : RaftEntry → Option (RaftMessage × Option OpenTask)
  | ⟨_, .read .openTask m, state⟩ => some (m, taskForMessage m state)
  | _ => none

theorem looked_eq_some {e : RaftEntry} {m : RaftMessage} {openTask : Option OpenTask} :
    looked e = some (m, openTask) ↔
      ∃ state, e = did (.read .openTask m) state ∧ taskForMessage m state = openTask := by
  constructor
  · intro h
    unfold looked at h
    split at h
    · cases h
      exact ⟨_, rfl, rfl⟩
    · cases h
  · rintro ⟨state, rfl, rfl⟩
    rfl

/-- A message whose conversation has no open task, where three entries of a log show it. -/
theorem handled_at {log : List RaftEntry} {n : Nat} {m : RaftMessage} {openTask : Option OpenTask}
    {key waitingRun : String} {reply : CachedReply}
    (h : ((log[n]?).bind looked, (log[n + 1]?).bind edited, (log[n + 2]?).bind edited) =
      (some (m, openTask), some (.waiting key waitingRun), some (.cached m.messageId reply))) :
    Handled log m openTask key waitingRun reply (log.drop (n + 3)) := by
  simp only [Prod.mk.injEq, Option.bind_eq_some_iff] at h
  obtain ⟨⟨a, ha, hlooked⟩, ⟨b, hb, hwaiting⟩, ⟨d, hd, hcached⟩⟩ := h
  obtain ⟨state, rfl, htask⟩ := looked_eq_some.mp hlooked
  rw [edited_eq_some.mp hwaiting] at hb
  rw [edited_eq_some.mp hcached] at hd
  refine ⟨log.take n, state, [], ?_, htask, by simp⟩
  obtain ⟨hn, hget⟩ := List.getElem?_eq_some_iff.mp ha
  obtain ⟨hn', hget'⟩ := List.getElem?_eq_some_iff.mp hb
  obtain ⟨hn'', hget''⟩ := List.getElem?_eq_some_iff.mp hd
  rw [List.nil_append, ← hget'', List.getElem_cons_drop, ← hget', List.getElem_cons_drop, ← hget,
    List.getElem_cons_drop, List.take_append_drop]

def askedEnv (target : String) : RaftEnv :=
  { threadEnv with
    check := fun _ => .ok (inbox target "m1" "@bot help")
    send := fun _ _ _ => .ok () }

def askedMessage (target : String) : RaftMessage :=
  { target, messageId := "m1", timestamp := "now", senderType := "human", senderHandle := "ann"
    content := "@bot help" }

theorem asked_handled :
    (∃ later, Handled (botWorker.log (askedEnv "#dev") 1 (List.replicate 12 ()))
      (askedMessage "#dev") none "#dev:m1" (uuidText (botWorker.runId "m1"))
      { target := "#dev", content := "Which one?" } later) ∧
    ∃ later, Handled (botWorker.log (askedEnv "dm:@ann") 1 (List.replicate 12 ()))
      (askedMessage "dm:@ann") none "dm:@ann" (uuidText (botWorker.runId "m1"))
      { target := "dm:@ann", content := "Which one?" } later :=
  ⟨⟨_, handled_at (n := 8) (by decide)⟩, ⟨_, handled_at (n := 8) (by decide)⟩⟩

def answerTo (target : String) : RaftMessage :=
  { askedMessage target with messageId := "m2", content := "The second." }

-- The question stands in the channel, and its answer there has a key of its own.
theorem channel_follow_up_missed :
    ∃ m openTask key waitingRun reply later,
      Handled (botWorker.log (askedEnv "#dev") 1 (List.replicate 12 ())) m openTask key waitingRun
        reply later ∧
      ∃ followUp : RaftMessage, followUp.target = reply.target ∧
        followUp.messageId ≠ m.messageId ∧ botWorker.TakesUp followUp ∧
        followUp.conversationKey ≠ key := by
  obtain ⟨later, hhandled⟩ := asked_handled.1
  exact ⟨_, _, _, _, _, later, hhandled, answerTo "#dev", rfl, by decide, by decide, by decide⟩

-- The question of a direct message is answered in the conversation.
theorem direct_follow_up_reaches :
    ∃ later, Reaches botWorker "dm:@ann" (uuidText (botWorker.runId "m1")) later
      (answerTo "dm:@ann") := by
  obtain ⟨later, hhandled⟩ := asked_handled.2
  have hsent : (answerTo "dm:@ann").target = "dm:@ann" := rfl
  exact ⟨later, (follow_ups_reach_iff hhandled hsent (by decide)).mpr ⟨by decide, by decide⟩⟩

end Raft
end BaseAgent

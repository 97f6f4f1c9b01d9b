import BaseAgent.Raft.Replies
import BaseAgent.Raft.Rule
import BaseAgent.Runtime.Resumption

/-!
# The worker with its Agent

The worker asks its Agent to run and to resume.  Here the Agent is the one of the runtime, over its
own stores, in place of the answers that `RaftEnv` has for it.

An entry of `waiting_runs` is removed when its Run cannot be resumed, when the conversation has a
result that is not WAITING, and when a task has moved to review.  `_execute` takes every
`ValueError` for a Run that is gone, a refused answer among them.
-/

namespace BaseAgent
namespace Raft

open Async Prog RaftWorker

/-! ## What the worker sees of the Agent -/

def typeName : Runtime.RuntimeError → String
  | .cancelled => "CancelledError"
  | .invalidTransition _ => "InvalidStateTransitionError"
  | .value _ => "ValueError"
  | .toolNotFound _ => "ToolNotFoundError"
  | .runNotFound _ => "RunNotFoundError"
  | .runAlreadyExists _ => "RunAlreadyExistsError"
  | .runNotCancellable _ => "RunNotCancellableError"
  | .checkpointNotFound _ => "CheckpointNotFoundError"
  | .assertion => "AssertionError"
  | .other name _ => name
  -- an execution that has not ended
  | .exhausted => ""

/-- An exception of the Agent.  The Runs of the worker are in no conversation, and what the store
of the conversations raises for other Runs is no `ValueError`. -/
def raftError : Runtime.RuntimeError → RaftError
  | .value message => .value message
  | .runNotFound message => .runNotFound message
  | .runAlreadyExists message => .runAlreadyExists message
  | e => .other (typeName e) e.text

theorem raftError_gone (e : Runtime.RuntimeError) : (raftError e).gone = e.refusal := by
  cases e <;> rfl

/-- A result of the Agent; its metadata has the identifier of the Run. -/
def raftResult (runId : UUID) (result : Runtime.AgentResult) : AgentResult :=
  { status := result.status
    output := result.output
    error := result.error
    runId := some (uuidText runId) }

def raftAnswer (runId : UUID) :
    Except Runtime.RuntimeError Runtime.AgentResult → Except RaftError AgentResult
  | .ok result => .ok (raftResult runId result)
  | .error e => .error (raftError e)

/-- The stores of an Agent, where everything is stored under the identifier of its Run. -/
structure AgentStores where
  world : Runtime.RuntimeWorld
  keyed : world.Keyed
  filed : world.Filed

namespace AgentStores

def empty : AgentStores := ⟨{}, (fun _ _ h => nomatch h), (fun _ _ h => nomatch h)⟩

def after {α : Type} (stores : AgentStores) (env : Runtime.RuntimeEnv)
    (p : Runtime.RuntimeProg α) : AgentStores where
  world := (p.eval env.exec stores.world).2
  keyed := (Only.any p).eval (fun _ _ _ h => Runtime.RuntimeEnv.exec_keyed h) stores.keyed
  filed := (Only.any p).eval (fun o _ _ h => Runtime.RuntimeEnv.exec_filed h o) stores.filed

end AgentStores

/-- The surroundings of a worker that has its Agent in its own process.  What others do with the
stores is done before a call of `run_once`. -/
structure RaftHost where
  -- the files and the CLI; the Agent of `cli` is not asked
  cli : RaftEnv
  agent : Runtime.Agent
  runtime : Runtime.RuntimeEnv
  fuel : Nat
  select : List String → List Runtime.Skill
  others : Nat → AgentStores → AgentStores := fun _ stores => stores

structure HostedWorld where
  raft : RaftWorld := {}
  stores : AgentStores := .empty

namespace RaftHost

variable (host : RaftHost) (worker : RaftWorker)

/-- `Agent.run`, as the worker calls it. -/
def running (prompt : String) (runId : UUID) (skills : List String) :
    Runtime.RuntimeProg Runtime.AgentResult :=
  host.agent.run host.fuel prompt runId none (host.select skills)

def ask (runId : UUID) (p : Runtime.RuntimeProg Runtime.AgentResult) (w : HostedWorld) :
    Except RaftError AgentResult × HostedWorld :=
  (raftAnswer runId (p.eval host.runtime.exec w.stores.world).1,
    { raft := { w.raft with steps := w.raft.steps + 1 }
      stores := w.stores.after host.runtime p })

def relay (o : RaftOp) (w : HostedWorld) : o.Ret × HostedWorld :=
  ((worker.exec host.cli o w.raft).1, { w with raft := (worker.exec host.cli o w.raft).2 })

def exec : (o : RaftOp) → HostedWorld → o.Ret × HostedWorld
  | .run _ prompt runId skills, w => host.ask runId (host.running prompt runId skills) w
  | .resume _ runId userInput, w =>
    host.ask runId (host.agent.resume host.fuel runId userInput) w
  | .readSpool, w =>
    host.relay worker .readSpool { w with stores := host.others w.raft.steps w.stores }
  | o, w => host.relay worker o w

end RaftHost

/-! ## Entries of Runs that wait -/

/-- The journal has an entry for the key, and the Run that it names is waiting. -/
def Waits (lib : Library) (w : HostedWorld) (key : String) (runId : UUID) : Prop :=
  ∃ text run, w.raft.memory.waitingRuns key = some text ∧ lib.uuid text = some runId ∧
    w.stores.world.runs runId = some run ∧ run.status = .waiting

def waitingRun (lib : Library) (w : HostedWorld) (key : String) : Option UUID :=
  ((w.raft.memory.waitingRuns key).bind lib.uuid).filter fun runId =>
    (w.stores.world.runs runId).any (·.status == .waiting)

theorem waits_iff {lib : Library} {w : HostedWorld} {key : String} {runId : UUID} :
    Waits lib w key runId ↔ waitingRun lib w key = some runId := by
  simp only [Waits, waitingRun, Option.filter_eq_some_iff, Option.bind_eq_some_iff,
    Option.any_eq_true, beq_iff_eq]
  constructor
  · rintro ⟨text, run, hentry, htext, hrun, hwaiting⟩
    exact ⟨⟨text, hentry, htext⟩, run, hrun, hwaiting⟩
  · rintro ⟨⟨text, hentry, htext⟩, run, hrun, hwaiting⟩
    exact ⟨text, run, hentry, htext, hrun, hwaiting⟩

instance (lib : Library) (w : HostedWorld) (key : String) (runId : UUID) :
    Decidable (Waits lib w key runId) := decidable_of_iff _ waits_iff.symm

def KeepsWaiting (host : RaftHost) (worker : RaftWorker) (w : HostedWorld) (o : RaftOp) : Prop :=
  ∀ key runId, Waits worker.lib w key runId →
    (host.exec worker o w).2.raft.memory.waitingRuns key = w.raft.memory.waitingRuns key ∨
      (host.exec worker o w).2.raft.memory.waitingRuns key = some (uuidText runId)

/-- No answer to a Run that waits is refused, and no reply that moves a task is replayed in a
conversation where another Run has come to wait. -/
def Undisturbed (host : RaftHost) (worker : RaftWorker) (w : HostedWorld) : RaftOp → Prop
  | .resume _ runId content => ∀ run, w.stores.world.runs runId = some run →
    run.status = .waiting → Runtime.refuses host.agent w.stores.world runId content = false
  | .read .cachedReply message => ∀ reply,
    w.raft.memory.cachedReplies message.messageId = some reply → reply.moveTaskToReview = true →
      ∀ runId, ¬ Waits worker.lib w message.conversationKey runId
  | _ => True

/-- `Undisturbed`, as a test. -/
def undisturbed (host : RaftHost) (worker : RaftWorker) (w : HostedWorld) : RaftOp → Bool
  | .resume _ runId content => (w.stores.world.runs runId).all fun run =>
    run.status != .waiting || !Runtime.refuses host.agent w.stores.world runId content
  | .read .cachedReply message =>
    (w.raft.memory.cachedReplies message.messageId).all fun reply =>
      !reply.moveTaskToReview || (waitingRun worker.lib w message.conversationKey).isNone
  | _ => true

theorem undisturbed_iff {host : RaftHost} {worker : RaftWorker} {w : HostedWorld} {o : RaftOp} :
    undisturbed host worker w o = true ↔ Undisturbed host worker w o := by
  cases o with
  | resume id runId content =>
    simp only [undisturbed, Undisturbed, Option.all_eq_true, Bool.or_eq_true, bne_iff_ne,
      Bool.not_eq_true', or_iff_not_imp_left, not_not, ne_eq]
  | read reader message =>
    cases reader with
    | cachedReply =>
      simp only [undisturbed, Undisturbed, Option.all_eq_true, Bool.or_eq_true, Bool.not_eq_true',
        or_iff_not_imp_left, Bool.not_eq_false, waits_iff, Option.isNone_iff_eq_none,
        Option.eq_none_iff_forall_ne_some, ne_eq]
    | _ => exact iff_of_true rfl trivial
  | _ => exact iff_of_true rfl trivial

instance (host : RaftHost) (worker : RaftWorker) (w : HostedWorld) (o : RaftOp) :
    Decidable (Undisturbed host worker w o) :=
  decidable_of_iff _ undisturbed_iff

/-! ## What an operation leaves -/

section Frame

variable {host : RaftHost} {worker : RaftWorker} {w : HostedWorld} {o : RaftOp} {key : String}

def spares (key : String) : RaftOp → Prop
  | .edit (.waiting k _) | .edit (.resumed k) => k ≠ key
  | _ => True

def storeless : RaftOp → Prop
  | .run .. | .resume .. | .readSpool => False
  | _ => True

theorem exec_storeless (ho : storeless o) : host.exec worker o w = host.relay worker o w := by
  cases o with
  | run | resume | readSpool => exact ho.elim
  | _ => rfl

theorem relay_entry (ho : spares key o) (hstores : storeless o) :
    (host.relay worker o w).2.raft.memory.waitingRuns key = w.raft.memory.waitingRuns key := by
  show (worker.exec host.cli o w.raft).2.memory.waitingRuns key = _
  cases o with
  | edit change =>
    cases change with
    | waiting k text =>
      have hk : k ≠ key := ho
      exact Function.update_of_ne (Ne.symm hk) _ _
    | resumed k =>
      have hk : k ≠ key := ho
      exact Function.update_of_ne (Ne.symm hk) _ _
    | _ => rfl
  | writeSpool | clearSpool | save =>
    simp only [RaftWorker.exec, RaftEnv.exec, RaftEnv.reply, RaftEnv.onFile]
    split <;> rfl
  | run | resume | readSpool => exact hstores.elim
  | _ => rfl

theorem spared_entry (ho : spares key o) :
    (host.exec worker o w).2.raft.memory.waitingRuns key = w.raft.memory.waitingRuns key := by
  cases o with
  | readSpool =>
    show (worker.exec host.cli .readSpool w.raft).2.memory.waitingRuns key = _
    simp only [RaftWorker.exec, RaftEnv.exec, RaftEnv.reply]
    split <;> rfl
  | run | resume => rfl
  | _ =>
    rw [exec_storeless (by trivial)]
    exact relay_entry ho trivial

theorem storeless_stores (ho : storeless o) : (host.exec worker o w).2.stores = w.stores := by
  rw [exec_storeless ho]
  rfl

theorem waits_congr (hspares : spares key o) (hstores : storeless o) {runId : UUID}
    (h : Waits worker.lib (host.exec worker o w).2 key runId) : Waits worker.lib w key runId := by
  obtain ⟨text, run, hentry, htext, hrun, hwaiting⟩ := h
  rw [spared_entry hspares] at hentry
  rw [storeless_stores hstores] at hrun
  exact ⟨text, run, hentry, htext, hrun, hwaiting⟩

theorem keeps_of_spares (ho : ∀ key, spares key o) : KeepsWaiting host worker w o :=
  fun key _ _ => .inl (spared_entry (ho key))

theorem not_waits_of_none {lib : Library} (h : w.raft.memory.waitingRuns key = none)
    (runId : UUID) : ¬ Waits lib w key runId := by
  rintro ⟨text, run, hentry, -⟩
  rw [h] at hentry
  cases hentry

/-- The entry of a key under which nothing waits can be removed. -/
theorem keeps_resumed (h : ∀ runId, ¬ Waits worker.lib w key runId) :
    KeepsWaiting host worker w (.edit (.resumed key)) := by
  intro k runId hwaits
  by_cases hk : key = k
  · rw [← hk] at hwaits
    exact absurd hwaits (h runId)
  · exact .inl (spared_entry hk)

/-- The entry of a key can be replaced by one of the Run that waits under it. -/
theorem keeps_waiting {text : String}
    (h : ∀ runId, Waits worker.lib w key runId → text = uuidText runId) :
    KeepsWaiting host worker w (.edit (.waiting key text)) := by
  intro k runId hwaits
  by_cases hk : key = k
  · rw [← hk] at hwaits ⊢
    right
    rw [← h runId hwaits]
    exact Function.update_self _ _ _
  · exact .inl (spared_entry hk)

theorem spares_of_outer (ho : outer o) (key : String) : spares key o := by
  cases o with
  | edit change => cases change <;> first | exact ho.elim | trivial
  | _ => trivial

theorem storeless_of_sending (ho : sending o) : storeless o := by
  cases o with
  | run | resume | readSpool => exact ho.elim
  | _ => trivial

end Frame

/-! ## The worker keeps the Runs that wait -/

section Keeping

variable {host : RaftHost} {worker : RaftWorker} {w : HostedWorld} {message : RaftMessage}

/-- The worker over its stores, as long as nothing disturbs its Runs. -/
abbrev attends (host : RaftHost) (worker : RaftWorker) :
    Observer RaftOp RaftOp.Ret HostedWorld :=
  Observer.assuming (host.exec worker) (Undisturbed host worker) (KeepsWaiting host worker)

theorem spares_allowed (o : RaftOp) (ho : ∀ key, spares key o)
    {P : o.Ret → HostedWorld → Prop}
    (h : Undisturbed host worker w o → P (host.exec worker o w).1 (host.exec worker o w).2) :
    Allowed (attends host worker) w o P :=
  Allowed.assuming (keeps_of_spares ho) h

/-- The Run that waits for the conversation is the one of the result. -/
def Concerns (worker : RaftWorker) (message : RaftMessage) (result : AgentResult)
    (w : HostedWorld) : Prop :=
  ∀ runId, Waits worker.lib w message.conversationKey runId →
    result.status = .waiting ∧ result.runId = some (uuidText runId)

/-- A reply that moves its task leaves no Run waiting in the conversation. -/
def Relieved (worker : RaftWorker) (message : RaftMessage) (cached : CachedReply)
    (w : HostedWorld) : Prop :=
  cached.moveTaskToReview = true → ∀ runId, ¬ Waits worker.lib w message.conversationKey runId

abbrev Vacant (message : RaftMessage) (w : HostedWorld) : Prop :=
  w.raft.memory.waitingRuns message.conversationKey = none

theorem startRun_attends (h : Vacant message w) :
    (worker.startRun message).Meets (attends host worker)
      (fun result w' => Concerns worker message result w') (fun _ _ => True) w := by
  refine (spares_allowed (.run message.messageId message.buildPrompt (worker.runId message.messageId)
    worker.skills) (fun _ => trivial) (P := fun _ w' => Vacant message w')
    fun _ => h).call fun r w' hw' => ?_
  cases r with
  | ok result => exact fun runId hwaits => absurd hwaits (not_waits_of_none hw' runId)
  | error e => trivial

theorem save_vacant (h : Vacant message w) :
    save.Meets (attends host worker) (fun _ w' => Vacant message w') (fun _ _ => True) w := by
  refine (spares_allowed .save (fun _ => trivial) (P := fun _ w' => Vacant message w')
    fun _ => (spared_entry (o := .save) trivial).trans h).call fun r w' hw' => ?_
  cases r with
  | ok u => exact hw'
  | error e => trivial

theorem restart_attends (h : ∀ runId, ¬ Waits worker.lib w message.conversationKey runId) :
    ((edit (.resumed message.conversationKey)).bind fun _ =>
      (edit (.closed message.conversationKey)).bind fun _ => save.bind fun _ =>
        worker.startRun message).Meets (attends host worker)
      (fun result w' => Concerns worker message result w') (fun _ _ => True) w := by
  refine (Allowed.assuming (P := fun _ w' => Vacant message w') (keeps_resumed h)
    fun _ => Function.update_self _ _ _).call fun _ w₁ h₁ => ?_
  refine (spares_allowed (.edit (.closed message.conversationKey)) (fun _ => trivial)
    (P := fun _ w' => Vacant message w') fun _ => h₁).call fun _ w₂ h₂ => ?_
  exact (save_vacant h₂).bind fun _ w₃ h₃ => startRun_attends h₃

theorem waits_run {runId runId' : UUID} {text : String} {w : HostedWorld} {key : String}
    (hentry : w.raft.memory.waitingRuns key = some text) (hparsed : worker.lib.uuid text = some runId)
    (h : Waits worker.lib w key runId') :
    runId' = runId ∧ ∃ run, w.stores.world.runs runId = some run ∧ run.status = .waiting := by
  obtain ⟨text', run, hentry', hparsed', hrun, hwaiting⟩ := h
  rw [hentry] at hentry'
  cases hentry'
  rw [hparsed] at hparsed'
  cases hparsed'
  exact ⟨rfl, run, hrun, hwaiting⟩

def Resumed (worker : RaftWorker) (message : RaftMessage) :
    Except RaftError AgentResult → HostedWorld → Prop
  | .ok result, w => Concerns worker message result w
  | .error e, w =>
    e.gone = true → ∀ runId, ¬ Waits worker.lib w message.conversationKey runId

theorem resume_attends {runId : UUID} {text : String}
    (hentry : w.raft.memory.waitingRuns message.conversationKey = some text)
    (hparsed : worker.lib.uuid text = some runId) :
    Allowed (attends host worker) w (.resume message.messageId runId message.content) fun r w' =>
      Resumed worker message r w' := by
  refine spares_allowed (.resume message.messageId runId message.content) (fun _ => trivial)
    fun hfit => ?_
  show Resumed worker message (raftAnswer runId ((host.agent.resume host.fuel runId
    message.content).eval host.runtime.exec w.stores.world).1) _
  have hafter : (host.exec worker (.resume message.messageId runId message.content)
      w).2.raft.memory.waitingRuns message.conversationKey = some text := hentry
  cases houtcome : ((host.agent.resume host.fuel runId message.content).eval host.runtime.exec
      w.stores.world).1 with
  | ok result =>
    intro runId' hwaits
    obtain ⟨rfl, run, hrun, hwaiting⟩ := waits_run hafter hparsed hwaits
    obtain ⟨left, hleft, hended⟩ := Runtime.resume_ok w.stores.keyed w.stores.filed
      (Prod.ext houtcome rfl)
    have hsame : left = run := Option.some.inj (hleft.symm.trans hrun)
    rw [hsame] at hended
    exact ⟨hended hwaiting, rfl⟩
  | error e =>
    intro hgone runId' hwaits
    obtain ⟨rfl, run, hrun, hwaiting⟩ := waits_run hafter hparsed hwaits
    have hgone : e.refusal = true := (raftError_gone e).symm.trans hgone
    obtain ⟨hruns, hrefused⟩ := Runtime.resume_error w.stores.keyed w.stores.filed
      (Prod.ext houtcome rfl) hgone
    have hbefore : w.stores.world.runs runId' = some run := (congrFun hruns runId').symm.trans hrun
    have haccepted := hfit run hbefore hwaiting
    rw [hrefused run hbefore hwaiting] at haccepted
    cases haccepted

theorem execute_attends (message : RaftMessage) (w : HostedWorld) :
    (worker.execute message).Meets (attends host worker)
      (fun result w' => Concerns worker message result w') (fun _ _ => True) w := by
  refine (spares_allowed (.read .waitingRun message) (fun _ => trivial)
    (P := fun state w' => state = w'.raft.memory) fun _ => rfl).call fun state w₁ h₁ => ?_
  subst h₁
  dsimp only [Prog.bind]
  cases hentry : w₁.raft.memory.waitingRuns message.conversationKey with
  | none => exact startRun_attends hentry
  | some text =>
    show ((worker.resumeRun message text).bind _ : RaftProg AgentResult).Meets _ _ _ w₁
    unfold resumeRun
    cases hparsed : worker.lib.uuid text with
    | none =>
      apply restart_attends
      rintro runId ⟨text', run, hentry', hparsed', -⟩
      rw [hentry] at hentry'
      cases hentry'
      rw [hparsed] at hparsed'
      cases hparsed'
    | some runId =>
      refine (resume_attends hentry hparsed).call fun r w₂ h₂ => ?_
      cases r with
      | ok result => exact h₂
      | error e =>
        by_cases hgone : e.gone = true
        · simp only [hgone, if_true]
          exact restart_attends (h₂ hgone)
        · simp only [hgone]
          trivial

theorem cacheReply_attends {result : AgentResult} (openTask : Option OpenTask)
    (h : Concerns worker message result w) :
    (worker.cacheReply message result openTask).Meets (attends host worker)
      (fun cached w' => Relieved worker message cached w') (fun _ _ => True) w := by
  have hcached : ∀ w', Relieved worker message (worker.replyFor message result openTask) w' →
      ((edit (.cached message.messageId (worker.replyFor message result openTask))).bind fun _ =>
        save.bind fun _ => (.ret (worker.replyFor message result openTask) :
          RaftProg CachedReply)).Meets (attends host worker)
        (fun cached w' => Relieved worker message cached w') (fun _ _ => True) w' := by
    intro w' hw'
    refine (spares_allowed (.edit (.cached message.messageId
      (worker.replyFor message result openTask))) (fun _ => trivial)
      (P := fun _ w' => Relieved worker message (worker.replyFor message result openTask) w')
      fun _ hmoves runId hwaits => ?_).call fun _ w₁ h₁ => ?_
    · exact hw' hmoves runId (waits_congr (o := .edit (.cached message.messageId
        (worker.replyFor message result openTask))) trivial trivial hwaits)
    · refine (spares_allowed .save (fun _ => trivial)
        (P := fun _ w' => Relieved worker message (worker.replyFor message result openTask) w')
        fun _ hmoves runId hwaits => ?_).call fun r w₂ h₂ => ?_
      · exact h₁ hmoves runId (waits_congr (o := .save) trivial trivial hwaits)
      · cases r with
        | ok u => exact h₂
        | error e => trivial
  have hkeep : (keepWaiting message result openTask).Meets (attends host worker)
      (fun _ w' => Relieved worker message (worker.replyFor message result openTask) w')
      (fun _ _ => True) w := by
    unfold keepWaiting
    split
    · rename_i hwaiting
      have hstays : ∀ w', Relieved worker message (worker.replyFor message result openTask) w' := by
        intro w' hmoves
        simp [replyFor, hwaiting] at hmoves
      cases hrunId : result.runId with
      | none => trivial
      | some text =>
        refine (Allowed.assuming (P := fun _ _ => True) (keeps_waiting fun runId hwaits => ?_)
          fun _ => trivial).call fun _ w₁ _ => ?_
        · have hnamed := (h runId hwaits).2
          rw [hrunId] at hnamed
          exact Option.some.inj hnamed
        · cases openTask with
          | none => exact hstays w₁
          | some task =>
            exact (spares_allowed (.edit (.opened message.conversationKey task)) (fun _ => trivial)
              (P := fun _ _ => True) fun _ => trivial).call fun _ w₂ _ => hstays w₂
    · rename_i hended
      refine (Allowed.assuming (P := fun _ w' => Vacant message w')
        (keeps_resumed fun runId hwaits => hended (h runId hwaits).1)
        fun _ => Function.update_self _ _ _).call fun _ w₁ h₁ => ?_
      exact fun _ runId => not_waits_of_none h₁ runId
  exact hkeep.bind fun _ w' hw' => hcached w' hw'

theorem moveTask_attends {cached : CachedReply} (h : Relieved worker message cached w) :
    (moveTask message cached).Meets (attends host worker) (fun _ _ => True) (fun _ _ => True) w := by
  unfold moveTask
  split
  · rename_i target number hmoves _ _
    refine (spares_allowed (.updateTask message.messageId target number "in_review")
      (fun _ => trivial)
      (P := fun _ w' => ∀ runId, ¬ Waits worker.lib w' message.conversationKey runId)
      fun _ runId hwaits => ?_).call fun r w₁ h₁ => ?_
    · exact h hmoves runId (waits_congr (o := .updateTask message.messageId target number
        "in_review") trivial trivial hwaits)
    · cases r with
      | error e => trivial
      | ok u =>
        refine (spares_allowed (.edit (.closed message.conversationKey)) (fun _ => trivial)
          (P := fun _ w' => ∀ runId, ¬ Waits worker.lib w' message.conversationKey runId)
          fun _ runId hwaits => ?_).call fun _ w₂ h₂ => ?_
        · exact h₁ runId (waits_congr (o := .edit (.closed message.conversationKey)) trivial trivial
            hwaits)
        · refine (Allowed.assuming (P := fun _ _ => True) (keeps_resumed h₂)
            fun _ => trivial).call fun _ w₃ _ => ?_
          refine (spares_allowed .save (fun _ => trivial) (P := fun _ _ => True)
            fun _ => trivial).call fun r w₄ _ => ?_
          cases r with
          | ok u => trivial
          | error e => trivial
  · trivial

def attendsRule (host : RaftHost) (worker : RaftWorker) : Rule worker (attends host worker) where
  Between _ := True
  Holding message cached w := Relieved worker message cached w
  outer ho _ := spares_allowed _ (spares_of_outer ho) fun _ => trivial
  holding _ := trivial
  carry := by
    intro message cached o w ho h
    refine spares_allowed o (spares_of_outer (outer_of_sending o ho)) fun _ hmoves runId hwaits => ?_
    exact h hmoves runId (waits_congr (spares_of_outer (outer_of_sending o ho) _)
      (storeless_of_sending ho) hwaits)
  obtain := by
    intro message w _
    refine (spares_allowed (.read .cachedReply message) (fun _ => trivial)
      (P := fun state w' => state = w'.raft.memory ∧
        ∀ reply, state.cachedReplies message.messageId = some reply →
          Relieved worker message reply w')
      fun hfit => ⟨rfl, fun reply hreply hmoves runId hwaits => ?_⟩).call fun state w₁ h₁ => ?_
    · exact hfit reply hreply hmoves runId (waits_congr (o := .read .cachedReply message) trivial
        trivial hwaits)
    · show (match state.cachedReplies message.messageId with
        | some _ => _
        | none => _ : RaftProg CachedReply).Meets _ _ _ w₁
      cases hcached : state.cachedReplies message.messageId with
      | some cached => exact h₁.2 cached hcached
      | none =>
        refine (execute_attends message w₁).bind fun result w₂ h₂ => ?_
        refine (spares_allowed (.read .openTask message) (fun _ => trivial)
          (P := fun _ w' => Concerns worker message result w') fun _ runId hwaits => ?_).call
          fun later w₃ h₃ => cacheReply_attends _ h₃
        exact h₂ runId (waits_congr (o := .read .openTask message) trivial trivial hwaits)
  move h := moveTask_attends h

variable (host worker) in
/-- In a run without such a disturbance, the worker removes no entry of a Run that waits. -/
theorem waiting_runs_kept (calls : Nat) (w : HostedWorld)
    (h : (worker.serve calls).Along (host.exec worker) (Undisturbed host worker) w) :
    (worker.serve calls).Along (host.exec worker) (KeepsWaiting host worker) w :=
  (Rule.kept_serve (R := attendsRule host worker) calls trivial).along h

end Keeping

/-- A message makes the Agent call its Tool, and the next one is the answer. -/
def askingHost (tool : Runtime.Tool) (outcome : Runtime.ToolOutcome) : RaftHost where
  cli :=
    { threadEnv with
      check := fun n => .ok (if n < 10 then inbox "dm:@ann" "m1" "Pay the bill."
        else inbox "dm:@ann" "m2" "yes")
      send := fun _ _ _ => .ok () }
  agent := Runtime.plainAgent [tool]
  runtime := Runtime.plainEnv
    (fun request =>
      if request.messages.any (·.role = .assistant) then
        { content := some "Done.", valid := Runtime.ModelResponse.done_valid }
      else { toolCalls := [⟨"1", tool.name, []⟩], valid := .inr (by simp) })
    fun _ => outcome
  fuel := 4
  select := fun _ => []

abbrev confirmingHost : RaftHost := askingHost Runtime.payTool (.value .null)

-- The first word of an answer is no confirmation, and the Run that asked for one waits on.
set_option maxRecDepth 20000 in
theorem refused_answer_abandons :
    ¬ (botWorker.serve 2).Along (confirmingHost.exec botWorker)
      (KeepsWaiting confirmingHost botWorker) {} := by
  intro h
  have hkey := h.mono (B := fun w o => Waits botWorker.lib w "dm:@ann" (botWorker.runId "m1") →
    (confirmingHost.exec botWorker o w).2.raft.memory.waitingRuns "dm:@ann" =
        w.raft.memory.waitingRuns "dm:@ann" ∨
      (confirmingHost.exec botWorker o w).2.raft.memory.waitingRuns "dm:@ann" =
        some (uuidText (botWorker.runId "m1"))) fun w o hw => hw _ _
  exact absurd hkey (by decide)

abbrev inquiringHost : RaftHost :=
  askingHost { name := "pay" } (.waitForInput "From which account?" [])

set_option maxRecDepth 20000 in
theorem waiting_runs_kept_answered :
    (∃ w, (botWorker.serve 2).Along (inquiringHost.exec botWorker)
      (Undisturbed inquiringHost botWorker) w) ∧
    (botWorker.serve 2).Along (inquiringHost.exec botWorker)
      (KeepsWaiting inquiringHost botWorker) {} := by
  have hcalm : (botWorker.serve 2).Along (inquiringHost.exec botWorker)
      (Undisturbed inquiringHost botWorker) {} := by decide
  exact ⟨⟨{}, hcalm⟩, waiting_runs_kept inquiringHost botWorker 2 {} hcalm⟩

end Raft
end BaseAgent

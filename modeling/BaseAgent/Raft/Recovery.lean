import BaseAgent.Raft.Inbox

/-!
# Recovery of the Raft worker

A process can stop between any two of its steps.  The next one reads the journal from its file and
replays the spool.  With everything outside in order, the replay fails in two cases only.  It
starts a Run whose identifier the store already has: the first process had started that Run and
stopped before the reply was saved, and `_execute` catches the error of a resumed Run only.  Or it
resumes a Run and the Agent raises another exception than the two that are caught.

The batch that is replayed need not be the one that was drained: the file is read with LF for every
CR, and the parser tells them apart.
-/

namespace BaseAgent
namespace Raft

open Async Prog

/-! ## Processes that follow each other -/

/-- The worlds in which a process starts: the first one, and those that a process leaves wherever
it stops. -/
inductive Started (worker : RaftWorker) : RaftWorld → Prop where
  | first : Started worker {}
  | again {w : RaftWorld} (h : Started worker w) (env : RaftEnv) (calls : Nat)
      (schedule : List Unit) :
      Started worker
        (({ shared := w, tasks := fun _ => worker.serve calls } : RaftPool).run (worker.exec env)
          schedule).shared.restart

/-- A batch that is spooled has been parsed. -/
def Parsed (worker : RaftWorker) (w : RaftWorld) : Prop :=
  ∀ raw, w.spool = some raw → ∃ messages, parseRaftMessages worker.lib raw = .ok messages

section Parsed

variable {worker : RaftWorker} {env : RaftEnv} {s : RaftWorld × List RaftEntry}

abbrev spoolKeeper (worker : RaftWorker) (env : RaftEnv) :
    Observer RaftOp RaftOp.Ret (RaftWorld × List RaftEntry) :=
  Observer.recording (worker.exec env) fun s => Parsed worker s.1

theorem Parsed.of_spool {w w' : RaftWorld} (h : Parsed worker w) (hspool : w'.spool = w.spool) :
    Parsed worker w' := by
  intro raw hraw
  rw [hspool] at hraw
  exact h raw hraw

theorem Parsed.clearSpool {w : RaftWorld} (h : Parsed worker w) (env : RaftEnv) :
    Parsed worker (worker.exec env .clearSpool w).2 := by
  intro raw hraw
  simp only [RaftWorker.exec, RaftEnv.exec, RaftEnv.reply, RaftEnv.onFile] at hraw
  split at hraw
  · cases hraw
  · exact h raw hraw

theorem Parsed.writeSpool {w : RaftWorld} {raw : String} {messages : List RaftMessage}
    (h : Parsed worker w) (env : RaftEnv) (hparse : parseRaftMessages worker.lib raw = .ok messages) :
    Parsed worker (worker.exec env (.writeSpool raw) w).2 := by
  intro other hother
  simp only [RaftWorker.exec, RaftEnv.exec, RaftEnv.reply, RaftEnv.onFile] at hother
  split at hother
  · cases hother
    exact ⟨messages, hparse⟩
  · exact h other hother

theorem Parsed.drain (h : Parsed worker s.1) (messages : List RaftMessage) :
    (worker.drain messages).Meets (spoolKeeper worker env) (fun _ s => Parsed worker s.1)
      (fun _ s => Parsed worker s.1) s := by
  have hstep : ∀ o (s : RaftWorld × List RaftEntry), onMessage (messages.map (·.messageId)) o → Parsed worker s.1 →
      Parsed worker (worker.exec env o s.1).2 :=
    fun o s ho hs => hs.of_spool (exec_spool worker env ho s.1)
  refine ((worker.processMessages_onMessage (fun _ => List.mem_map_of_mem) 0 0).recording hstep h).bind
    fun counts s₁ h₁ => ?_
  refine ⟨h₁, fun r hr => ?_⟩
  cases r with
  | ok u => exact h₁.clearSpool env
  | error e => exact h₁.clearSpool env

theorem Parsed.runOnce (h : Parsed worker s.1) :
    worker.runOnce.Meets (spoolKeeper worker env) (fun _ s => Parsed worker s.1)
      (fun _ s => Parsed worker s.1) s := by
  have hread : Parsed worker (worker.exec env .readSpool s.1).2 := by
    refine h.of_spool ?_
    simp only [RaftWorker.exec, RaftEnv.exec, RaftEnv.reply]
    split <;> rfl
  refine ⟨h, fun r _ => ?_⟩
  cases r with
  | error e => exact hread
  | ok spool =>
    cases spool with
    | some raw =>
      show ((Prog.ofExcept (parseRaftMessages worker.lib raw)).bind _).Meets _ _ _ _
      cases parseRaftMessages worker.lib raw with
      | error e => exact hread
      | ok messages => exact hread.drain messages
    | none =>
      refine ⟨hread, fun checked _ => ?_⟩
      have hchecked : Parsed worker (worker.exec env .messageCheck
          (worker.exec env .readSpool s.1).2).2 := hread
      cases checked with
      | error e => exact hchecked
      | ok raw =>
        show (Prog.bind (Prog.bind (Prog.ofExcept (parseRaftMessages worker.lib raw)) _) _).Meets
          _ _ _ _
        cases hparse : parseRaftMessages worker.lib raw with
        | error e => exact hchecked
        | ok messages =>
          show (if messages.isEmpty then _ else _ : RaftProg RaftDrainResult).Meets _ _ _ _
          split
          · exact hchecked
          · refine ⟨hchecked, fun written _ => ?_⟩
            have hwritten := hchecked.writeSpool env hparse
            cases written with
            | error e => exact hwritten
            | ok u => exact hwritten.drain messages

theorem Parsed.serve (calls : Nat) (h : Parsed worker s.1) :
    (worker.serve calls).Meets (spoolKeeper worker env) (fun _ s => Parsed worker s.1)
      (fun _ s => Parsed worker s.1) s := by
  induction calls generalizing s with
  | zero => exact h
  | succ n ih =>
    refine (Meets.attempt h.runOnce).bind fun outcome s' hs' => ih ?_
    cases outcome with
    | ok result => exact hs'
    | error e => exact hs'

theorem Started.parsed {w : RaftWorld} (h : Started worker w) : Parsed worker w := by
  induction h with
  | first => exact fun raw hraw => nomatch hraw
  | again _ env calls schedule ih =>
    have hreached := Meets.reached (c := ({ shared := _, tasks := fun _ => worker.serve calls } :
      RaftPool)) (show (worker.serve calls).Meets (spoolKeeper worker env) _ _ _ from Parsed.serve calls ih) schedule
    exact hreached.of_spool rfl

end Parsed

/-! ## Where a message fails -/

/-- A result that waits names its Run. -/
def NamesRun (result : AgentResult) : Prop := result.status = .waiting → result.runId.isSome = true

def possible : (o : RaftOp) → o.Ret → Prop
  | .run .., r | .resume .., r => ∀ result, r = .ok result → NamesRun result
  | _, _ => True

def good : (o : RaftOp) → o.Ret → Prop
  | .read .., _ | .edit _, _ | .readSpool, _ | .messageCheck, _ => True
  | .writeSpool _, r | .clearSpool, r | .save, r | .sendMessage .., r | .updateTask .., r =>
    r.isOk = true
  | .claimTask .., r => ∀ e, r = .error e → e.isCommand = true
  | .run .., r => r.isOk = true
  | .resume .., r => ∀ e, r = .error e → e.gone = true

namespace RaftWorker

section Decides

variable (worker : RaftWorker) (message : RaftMessage)

/-- A function of the worker raises at a reply that is not good, and nowhere else. -/
abbrev Sound {α : Type} (Q : α → Prop) (p : RaftProg α) : Prop := p.Decides possible good Q

theorem save_sound : Sound (fun _ => True) save := by
  intro r _
  cases r with
  | ok u => exact ⟨fun _ => trivial, fun hbad => absurd rfl hbad⟩
  | error e => exact ⟨fun hgood => (nomatch hgood), fun _ => ⟨e, rfl⟩⟩

theorem edit_sound (change : Edit) : Sound (fun _ => True) (edit change) :=
  fun _ _ => ⟨fun _ => trivial, fun hbad => absurd trivial hbad⟩

theorem read_sound {α : Type} {Q : α → Prop} {reader : Reader} {k : WorkerState → RaftProg α}
    (hk : ∀ state, Sound Q (k state)) : Sound Q ((read reader message).bind k) :=
  fun state _ => ⟨fun _ => hk state, fun hbad => absurd trivial hbad⟩

theorem markCompleted_sound (id : String) : Sound (fun _ => True) (markCompleted id) :=
  (edit_sound _).bind fun _ _ => save_sound

theorem claim_sound : Sound (fun _ => True) (worker.claim message) := by
  have hrecord : Sound (fun _ => True) ((edit (.claimed message.messageId)).bind fun _ =>
      save.bind fun _ => (.ret true : RaftProg Bool)) :=
    (edit_sound _).bind fun _ _ => save_sound.bind fun _ _ => trivial
  unfold claim
  cases message.taskNumber with
  | none => trivial
  | some number =>
    refine read_sound message fun state => ?_
    show Sound _ (if _ then _ else _ : RaftProg Bool)
    split
    · trivial
    · split
      · exact hrecord
      · intro r _
        cases r with
        | ok u => exact ⟨fun _ => hrecord, fun hbad => absurd (fun e he => nomatch he) hbad⟩
        | error e =>
          cases hcommand : e.isCommand with
          | true =>
            refine ⟨fun _ => ?_, fun hbad => absurd ?_ hbad⟩
            · show Sound _ (if e.isCommand then _ else _ : RaftProg Bool)
              rw [hcommand]
              trivial
            · intro e' he'
              cases he'
              exact hcommand
          | false =>
            refine ⟨fun hgood => ?_, fun _ => ⟨e, ?_⟩⟩
            · have hyes := hgood e rfl
              rw [hcommand] at hyes
              cases hyes
            · show (if e.isCommand then _ else _ : RaftProg Bool) = _
              rw [hcommand]
              rfl

theorem resumeRun_sound (waitingRun : String) :
    Sound (fun result => ∀ r, result = some r → NamesRun r)
      (worker.resumeRun message waitingRun) := by
  unfold resumeRun
  cases worker.lib.uuid waitingRun with
  | none => exact fun r hr => nomatch hr
  | some runId =>
    intro r hpossible
    cases r with
    | ok result =>
      refine ⟨fun _ r hr => ?_, fun hbad => absurd (fun e he => nomatch he) hbad⟩
      cases hr
      exact hpossible result rfl
    | error e =>
      cases hgone : e.gone with
      | true =>
        refine ⟨fun _ => ?_, fun hbad => absurd ?_ hbad⟩
        · show Sound _ (if e.gone then _ else _ : RaftProg (Option AgentResult))
          rw [hgone]
          exact fun r hr => nomatch hr
        · intro e' he'
          cases he'
          exact hgone
      | false =>
        refine ⟨fun hgood => ?_, fun _ => ⟨e, ?_⟩⟩
        · have hyes := hgood e rfl
          rw [hgone] at hyes
          cases hyes
        · show (if e.gone then _ else _ : RaftProg (Option AgentResult)) = _
          rw [hgone]
          rfl

theorem startRun_sound : Sound NamesRun (worker.startRun message) := by
  intro r hpossible
  cases r with
  | ok result => exact ⟨fun _ => hpossible result rfl, fun hbad => absurd rfl hbad⟩
  | error e => exact ⟨fun hgood => (nomatch hgood), fun _ => ⟨e, rfl⟩⟩

theorem execute_sound : Sound NamesRun (worker.execute message) := by
  refine read_sound message fun state => ?_
  cases state.waitingRuns message.conversationKey with
  | none => exact startRun_sound worker message
  | some waitingRun =>
    refine (resumeRun_sound worker message waitingRun).bind fun result hresult => ?_
    cases result with
    | some r => exact hresult r rfl
    | none =>
      refine (edit_sound _).bind fun _ _ => (edit_sound _).bind fun _ _ => ?_
      exact save_sound.bind fun _ _ => startRun_sound worker message

theorem keepWaiting_sound {result : AgentResult} (hresult : NamesRun result)
    (openTask : Option OpenTask) : Sound (fun _ => True) (keepWaiting message result openTask) := by
  unfold keepWaiting
  split
  · rename_i hwaiting
    obtain ⟨runId, hrunId⟩ := Option.isSome_iff_exists.mp (hresult hwaiting)
    rw [hrunId]
    refine (edit_sound (.waiting message.conversationKey runId)).bind fun _ _ => ?_
    cases openTask with
    | some task => exact edit_sound _
    | none => trivial
  · exact edit_sound _

theorem obtainReply_sound : Sound (fun _ => True) (worker.obtainReply message) := by
  refine read_sound message fun state => ?_
  cases state.cachedReplies message.messageId with
  | some cached => trivial
  | none =>
    refine (execute_sound worker message).bind fun result hresult => ?_
    refine read_sound message fun later => ?_
    refine (keepWaiting_sound message hresult _).bind fun _ _ => ?_
    exact (edit_sound _).bind fun _ _ => save_sound.bind fun _ _ => trivial

theorem sendReply_sound (cached : CachedReply) :
    Sound (fun _ => True) (sendReply message cached) := by
  refine read_sound message fun state => ?_
  show Sound _ (if _ then _ else _ : RaftProg Unit)
  split
  · trivial
  · intro r _
    cases r with
    | ok u =>
      exact ⟨fun _ => (edit_sound _).bind fun _ _ => save_sound, fun hbad => absurd rfl hbad⟩
    | error e => exact ⟨fun hgood => (nomatch hgood), fun _ => ⟨e, rfl⟩⟩

theorem moveTask_sound (cached : CachedReply) :
    Sound (fun _ => True) (moveTask message cached) := by
  unfold moveTask
  split
  · intro r _
    cases r with
    | ok u =>
      exact ⟨fun _ => (edit_sound _).bind fun _ _ => (edit_sound _).bind fun _ _ => save_sound,
        fun hbad => absurd rfl hbad⟩
    | error e => exact ⟨fun hgood => (nomatch hgood), fun _ => ⟨e, rfl⟩⟩
  · trivial

theorem processMessage_sound : Sound (fun _ => True) (worker.processMessage message) := by
  have hend : ∀ processed, Sound (fun _ => True) ((markCompleted message.messageId).bind fun _ =>
      (.ret processed : RaftProg Bool)) :=
    fun processed => (markCompleted_sound _).bind fun _ _ => trivial
  refine read_sound message fun state => ?_
  show Sound _ (if _ then _ else _ : RaftProg Bool)
  split
  · refine (claim_sound worker message).bind fun claimed _ => ?_
    cases claimed with
    | true =>
      refine (obtainReply_sound worker message).bind fun cached _ => ?_
      refine (sendReply_sound message cached).bind fun _ _ => ?_
      exact (moveTask_sound message cached).bind fun _ _ => hend true
    | false => exact hend false
  · exact hend false

theorem processMessages_sound (messages : List RaftMessage) (handled skipped : Nat) :
    Sound (fun _ => True) (worker.processMessages handled skipped messages) := by
  induction messages generalizing handled skipped with
  | nil => trivial
  | cons message rest ih =>
    refine read_sound message fun state => ?_
    show Sound _ (if _ then _ else _ : RaftProg (Nat × Nat))
    split
    · exact ih handled (skipped + 1)
    · refine (processMessage_sound worker message).bind fun processed _ => ?_
      cases processed with
      | true => exact ih (handled + 1) skipped
      | false => exact ih handled (skipped + 1)

theorem drain_sound (messages : List RaftMessage) :
    Sound (fun _ => True) (worker.drain messages) := by
  refine (processMessages_sound worker messages 0 0).bind fun counts _ => ?_
  intro r _
  cases r with
  | ok u => exact ⟨fun _ => trivial, fun hbad => absurd rfl hbad⟩
  | error e => exact ⟨fun hgood => (nomatch hgood), fun _ => ⟨e, rfl⟩⟩

end Decides

end RaftWorker

/-! ## The replay -/

/-- Everything outside is in order, and the Agent refuses the Runs that its store has. -/
structure Restored (env : RaftEnv) : Prop where
  file : ∀ n, env.file n = true
  send : ∀ n target content, env.send n target content = .ok ()
  claim : ∀ n target number, env.claim n target number = .ok ()
  update : ∀ n target number status, env.update n target number status = .ok ()
  known : ∀ n prompt runId skills, ∃ message,
    env.run n true prompt runId skills = .error (.runAlreadyExists message)
  unknown : ∀ n prompt runId skills, ∃ result, env.run n false prompt runId skills = .ok result
  started : ∀ n known prompt runId skills result,
    env.run n known prompt runId skills = .ok result → NamesRun result
  resumed : ∀ n runId userInput result,
    env.resume n runId userInput = .ok result → NamesRun result

/-- A Run that is to be started is not in the store, and one that is resumed answers or is gone. -/
def Startable (env : RaftEnv) (w : RaftWorld) : RaftOp → Prop
  | .run _ _ runId _ => runId ∉ w.runs
  | .resume _ runId userInput =>
    ∀ e, env.resume w.steps runId userInput = .error e → e.gone = true
  | _ => True

/-- The spool, as it is read, has the messages of the batch that are not completed. -/
def Legible (worker : RaftWorker) (w : RaftWorld) (raw : String) (messages : List RaftMessage) :
    Prop :=
  ∃ replayed, parseRaftMessages worker.lib (newlines raw) = .ok replayed ∧
    ∀ message ∈ messages, message.messageId ∈ w.memory.completedIds ∨
      message.messageId ∈ replayed.map (·.messageId)

/-- The call returns with every message of the batch completed and the spool removed. -/
def Recovers (worker : RaftWorker) (env : RaftEnv) (w : RaftWorld) (messages : List RaftMessage) :
    Prop :=
  ∃ result, (worker.runOnce.eval (worker.exec env) w).1 = .ok result ∧
    (worker.runOnce.eval (worker.exec env) w).2.spool = none ∧
    ∀ message ∈ messages, Done w.memory.completedIds message.messageId
      (worker.runOnce.history (worker.exec env) w)

section Replay

variable {worker : RaftWorker} {env : RaftEnv} {w : RaftWorld} {raw : String}

theorem Restored.possible (h : Restored env) (o : RaftOp) (w : RaftWorld) :
    possible o (worker.exec env o w).1 := by
  cases o with
  | run messageId prompt runId skills => exact h.started _ _ _ _ _
  | resume messageId runId userInput => exact h.resumed _ _ _
  | _ => trivial

theorem Restored.onFile (h : Restored env) (n : Nat) (w w' : RaftWorld) (message : String) :
    (env.onFile n w w' message).1 = .ok () := by
  unfold RaftEnv.onFile
  rw [if_pos (h.file n)]

/-- With everything in order, the replies that are not good are those of the two operations. -/
theorem Restored.good_iff (h : Restored env) (o : RaftOp) (w : RaftWorld) :
    good o (worker.exec env o w).1 ↔ Startable env w o := by
  have hok : ∀ r : Except RaftError Unit, r = .ok () → (r.isOk = true ↔ True) := by
    rintro r rfl
    exact iff_true_intro rfl
  cases o with
  | readSpool | messageCheck | read _ _ | edit _ => exact Iff.rfl
  | writeSpool raw => exact hok _ (h.onFile _ _ _ _)
  | clearSpool => exact hok _ (h.onFile _ _ _ _)
  | save => exact hok _ (h.onFile _ _ _ _)
  | sendMessage messageId target content => exact hok _ (h.send _ _ _)
  | updateTask messageId target number status => exact hok _ (h.update _ _ _ _)
  | claimTask messageId target number =>
    refine iff_true_intro fun e he => ?_
    have hclaim : env.claim w.steps target number = .error e := he
    rw [h.claim] at hclaim
    cases hclaim
  | resume messageId runId userInput => exact Iff.rfl
  | run messageId prompt runId skills =>
    show (env.run w.steps (w.runs.contains runId) prompt runId skills).isOk = true ↔
      runId ∉ w.runs
    by_cases hmem : runId ∈ w.runs
    · obtain ⟨message, hrun⟩ := h.known w.steps prompt runId skills
      rw [List.contains_iff_mem.mpr hmem, hrun]
      exact ⟨fun hok => (nomatch hok), fun hnot => absurd hmem hnot⟩
    · obtain ⟨result, hrun⟩ := h.unknown w.steps prompt runId skills
      have hfalse : w.runs.contains runId = false := by simpa using hmem
      rw [hfalse, hrun]
      exact ⟨fun _ => hmem, fun _ => rfl⟩

/-- A batch that can be read is drained when the operations of the call are in order. -/
theorem Restored.drains_iff (h : Restored env) (hspool : w.spool = some raw)
    {replayed : List RaftMessage}
    (hparse : parseRaftMessages worker.lib (newlines raw) = .ok replayed) :
    (∃ result, (worker.runOnce.eval (worker.exec env) w).1 = .ok result) ↔
      worker.runOnce.Along (worker.exec env) (Startable env) w := by
  have halong : worker.runOnce.Along (worker.exec env) (Startable env) w ↔
      (worker.drain replayed).Along (worker.exec env) (Startable env)
        (RaftWorker.spooled w raw 1) :=
    RaftWorker.along_spooled (h.file w.steps) hspool hparse trivial
  rw [(RaftWorker.runOnce_spooled (h.file w.steps) hspool hparse).1, halong,
    (worker.drain_sound replayed).eval h.possible]
  constructor
  · exact fun hgood => hgood.mono fun w o => (h.good_iff o w).mp
  · exact fun hgood => hgood.mono fun w o => (h.good_iff o w).mpr

/-- After a crash at any point, the next call recovers exactly when the spool is read with the
messages that were drained, each Run that it starts is new to the store, and each Run that it
resumes answers or is gone. -/
theorem recovers_iff (hw : Started worker w) (henv : Restored env) (hspool : w.spool = some raw) :
    ∃ messages, parseRaftMessages worker.lib raw = .ok messages ∧
      (Recovers worker env w messages ↔ Legible worker w raw messages ∧
        worker.runOnce.Along (worker.exec env) (Startable env) w) := by
  obtain ⟨messages, hdrained⟩ := hw.parsed raw hspool
  refine ⟨messages, hdrained, ?_⟩
  cases hparse : parseRaftMessages worker.lib (newlines raw) with
  | error e =>
    have hraises := RaftWorker.runOnce_unreadable (henv.file w.steps) hspool hparse
    constructor
    · intro hrecovers
      obtain ⟨result, hresult, -⟩ := hrecovers
      rw [hraises] at hresult
      cases hresult
    · intro hlegible
      obtain ⟨⟨replayed, hreplayed, -⟩, -⟩ := hlegible
      rw [hparse] at hreplayed
      cases hreplayed
  | ok replayed =>
    obtain ⟨heval, hhistory⟩ := RaftWorker.runOnce_spooled (henv.file w.steps) hspool hparse
    rw [← henv.drains_iff hspool hparse]
    constructor
    · intro hrecovers
      obtain ⟨result, hresult, -, hdone⟩ := hrecovers
      refine ⟨⟨replayed, hparse, fun message hmem => ?_⟩, result, hresult⟩
      cases hdone message hmem with
      | inl hbefore => exact .inl hbefore
      | inr hnow =>
        rw [hhistory] at hnow
        cases List.mem_cons.mp hnow with
        | inl hread => cases hread
        | inr hlater => exact .inr (List.mem_map.mpr (drain_only hlater))
    · intro hlegible
      obtain ⟨⟨found, hfound, hknown⟩, result, hresult⟩ := hlegible
      rw [hparse] at hfound
      cases hfound
      have hdrain := hresult
      rw [heval] at hdrain
      obtain ⟨hcleared, hdone⟩ := drain_done hdrain
      refine ⟨result, hresult, by rw [heval]; exact hcleared, fun message hmem => ?_⟩
      cases hknown message hmem with
      | inl hbefore => exact .inl hbefore
      | inr hreplayed =>
        obtain ⟨other, hother, hsame⟩ := List.mem_map.mp hreplayed
        rw [← hsame, hhistory]
        cases hdone other hother with
        | inl hbefore => exact .inl hbefore
        | inr hnow => exact .inr (List.mem_cons_of_mem _ hnow)

end Replay

/-- Everything is in order, and a direct message is in the inbox. -/
def orderlyEnv : RaftEnv where
  check _ := .ok "[target=dm:@ann msg=m1 time=now type=human] @ann: help"
  send _ _ _ := .ok ()
  claim _ _ _ := .ok ()
  update _ _ _ _ := .ok ()
  run _ known _ _ _ :=
    if known then .error (.runAlreadyExists "exists")
    else .ok { status := .completed, output := some "done" }
  resume _ _ _ := .ok { status := .completed, output := some "done" }

theorem orderlyEnv_restored : Restored orderlyEnv where
  file _ := rfl
  send _ _ _ := rfl
  claim _ _ _ := rfl
  update _ _ _ _ := rfl
  known _ _ _ _ := ⟨"exists", rfl⟩
  unknown _ _ _ _ := ⟨_, rfl⟩
  started _ known _ _ _ result h hwaiting := by
    cases known with
    | true => cases h
    | false =>
      cases h
      cases hwaiting
  resumed _ _ _ result h hwaiting := by
    cases h
    cases hwaiting

def stoppedAfter (steps : Nat) : RaftWorld :=
  (({ shared := {}, tasks := fun _ => botWorker.serve 1 } : RaftPool).run
    (botWorker.exec orderlyEnv) (List.replicate steps ())).shared.restart

theorem stoppedAfter_started (steps : Nat) : Started botWorker (stoppedAfter steps) :=
  .again .first orderlyEnv 1 (List.replicate steps ())

-- The eighth step starts the Run, and the process stops before the reply is saved.
theorem stopped_run_blocks_replay :
    Started botWorker (stoppedAfter 8) ∧ Restored orderlyEnv ∧
      (stoppedAfter 8).spool = some "[target=dm:@ann msg=m1 time=now type=human] @ann: help" ∧
      ∀ messages, ¬ Recovers botWorker orderlyEnv (stoppedAfter 8) messages := by
  have hview : ((stoppedAfter 8).spool,
      (botWorker.runOnce.eval (botWorker.exec orderlyEnv) (stoppedAfter 8)).1) =
      (some "[target=dm:@ann msg=m1 time=now type=human] @ann: help",
        .error (.runAlreadyExists "exists")) := by
    decide
  simp only [Prod.mk.injEq] at hview
  refine ⟨stoppedAfter_started 8, orderlyEnv_restored, hview.1, ?_⟩
  rintro messages ⟨result, hresult, -⟩
  rw [hview.2] at hresult
  cases hresult

-- The batch parses as it was drained, and no envelope is left of it in the spool that is read.
example : (parseRaftMessages asciiLibrary
      "[target=dm:@ann msg=m1 time=a\rb type=human] @ann: help").isOk = true ∧
    (parseRaftMessages asciiLibrary
      (newlines "[target=dm:@ann msg=m1 time=a\rb type=human] @ann: help")).isOk = false := by
  decide +kernel

-- A process that stops when the reply has been saved is recovered from.
theorem recovers_iff_saved :
    ∃ messages, parseRaftMessages botWorker.lib
        "[target=dm:@ann msg=m1 time=now type=human] @ann: help" = .ok messages ∧
      Recovers botWorker orderlyEnv (stoppedAfter 12) messages := by
  have hview : ((stoppedAfter 12).spool,
      (botWorker.runOnce.history (botWorker.exec orderlyEnv) (stoppedAfter 12)).all fun e =>
        match e.op with
        | .run .. | .resume .. => false
        | _ => true) = (some "[target=dm:@ann msg=m1 time=now type=human] @ann: help", true) := by
    decide +kernel
  simp only [Prod.mk.injEq, List.all_eq_true] at hview
  obtain ⟨messages, hparse, hrecovers⟩ :=
    recovers_iff (stoppedAfter_started 12) orderlyEnv_restored hview.1
  have hread : newlines "[target=dm:@ann msg=m1 time=now type=human] @ann: help" =
      "[target=dm:@ann msg=m1 time=now type=human] @ann: help" :=
    newlines_of_no_return (by decide)
  have hlegible : Legible botWorker (stoppedAfter 12)
      "[target=dm:@ann msg=m1 time=now type=human] @ann: help" messages := by
    refine ⟨messages, by rw [hread]; exact hparse, fun message hmem => ?_⟩
    exact .inr (List.mem_map_of_mem hmem)
  refine ⟨messages, hparse, hrecovers.mpr ⟨hlegible, Prog.along_of_history fun w e he => ?_⟩⟩
  have hop := hview.2 e he
  unfold Startable
  split
  · simp_all
  · simp_all
  · trivial

end Raft
end BaseAgent

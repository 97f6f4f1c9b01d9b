import BaseAgent.Raft.Course

/-!
# The inbox of the Raft worker

`raft message check` acknowledges the messages it prints.  The worker parses the output before it
spools it, so an output with one envelope that does not parse is lost with all the others that do.
An output that is spooled is kept: the spool is removed only after every message has been marked
completed.
-/

namespace BaseAgent
namespace Raft

open Async Prog

/-! ## The messages of an output -/

def wellFormed (lib : Library) (output : String) : List RaftMessage :=
  (envelopes (lines (normalized output))).filterMap fun envelope =>
    (parseEnvelope lib envelope.1 envelope.2).toOption

theorem mapM_ok_filterMap {α β : Type} {f : α → Except RaftError β} {l : List α} {ys : List β}
    (h : l.mapM f = .ok ys) : l.filterMap (fun a => (f a).toOption) = ys := by
  induction l generalizing ys with
  | nil =>
    cases h
    rfl
  | cons a rest ih =>
    rw [List.mapM_cons] at h
    obtain ⟨b, hb, h⟩ := Except.bind_ok.mp h
    obtain ⟨bs, hbs, h⟩ := Except.bind_ok.mp h
    cases h
    rw [List.filterMap_cons, hb, ih hbs]
    rfl

/-- What is parsed are the messages of the well-formed envelopes. -/
theorem wellFormed_of_parse {lib : Library} {output : String} {messages : List RaftMessage}
    (h : parseRaftMessages lib output = .ok messages) : wellFormed lib output = messages := by
  unfold parseRaftMessages at h
  simp only at h
  split at h
  · rename_i hnone
    cases h
    unfold wellFormed
    have hempty : envelopes (lines (normalized output)) = [] := by
      cases hnone with
      | inl hnil =>
        rw [hnil]
        decide
      | inr hnothing =>
        rw [hnothing]
        decide
    rw [hempty]
    rfl
  · split at h
    · cases h
    · exact mapM_ok_filterMap h

/-! ## The spool -/

/-- The operations on messages with these identifiers: they leave the spool alone, and complete
no others. -/
def onMessage (ids : List String) : RaftOp → Prop
  | .readSpool | .writeSpool _ | .clearSpool | .messageCheck => False
  | .edit (.completed id) => id ∈ ids
  | _ => True

theorem onMessage_of_calm (ids : List String) (o : RaftOp) (h : calm o) : onMessage ids o := by
  cases o with
  | readSpool | writeSpool _ | clearSpool | messageCheck => exact h.elim
  | edit change => cases change <;> first | exact h.elim | trivial
  | _ => trivial

theorem exec_spool (worker : RaftWorker) (env : RaftEnv) {ids : List String} {o : RaftOp}
    (ho : onMessage ids o)
    (w : RaftWorld) : (worker.exec env o w).2.spool = w.spool := by
  cases o with
  | readSpool | writeSpool _ | clearSpool | messageCheck => exact ho.elim
  | save =>
    simp only [RaftWorker.exec, RaftEnv.exec, RaftEnv.reply, RaftEnv.onFile]
    split <;> rfl
  | run messageId prompt runId skills =>
    simp only [RaftWorker.exec, RaftEnv.exec, RaftEnv.reply]
    split <;> rfl
  | _ => rfl

namespace RaftWorker

section Only

variable (worker : RaftWorker) (message : RaftMessage) {ids : List String}

theorem save_onMessage : save.Only (onMessage ids) := save_calm.mono (onMessage_of_calm ids)

theorem edit_onMessage {change : Edit} (h : onMessage ids (.edit change)) :
    (edit change).Only (onMessage ids) := ⟨h, fun _ => trivial⟩

theorem markCompleted_onMessage {id : String} (h : id ∈ ids) :
    (markCompleted id).Only (onMessage ids) :=
  (edit_onMessage (show onMessage ids (.edit (.completed id)) from h)).bind fun _ => save_onMessage

theorem claim_onMessage : (worker.claim message).Only (onMessage ids) := by
  have hrecord : ((edit (.claimed message.messageId)).bind fun _ => save.bind fun _ =>
      (.ret true : RaftProg Bool)).Only (onMessage ids) :=
    (edit_onMessage (by trivial)).bind fun _ => save_onMessage.bind fun _ => trivial
  unfold claim
  cases message.taskNumber with
  | none => trivial
  | some number =>
    refine ⟨trivial, fun state => ?_⟩
    show (if _ then _ else _ : RaftProg Bool).Only (onMessage ids)
    split
    · trivial
    · split
      · exact hrecord
      · refine ⟨trivial, fun r => ?_⟩
        cases r with
        | ok u => exact hrecord
        | error e =>
          show (if e.isCommand then _ else _ : RaftProg Bool).Only (onMessage ids)
          split <;> trivial

theorem obtainReply_onMessage : (worker.obtainReply message).Only (onMessage ids) := by
  refine ⟨trivial, fun state => ?_⟩
  dsimp only [Prog.bind]
  cases state.cachedReplies message.messageId with
  | some cached => trivial
  | none =>
    refine ((execute_calm worker message).mono (onMessage_of_calm ids)).bind fun result => ?_
    refine ⟨trivial, fun later => ?_⟩
    refine ((keepWaiting_calm message result _).mono (onMessage_of_calm ids)).bind fun _ => ?_
    exact (edit_onMessage (by trivial)).bind fun _ => save_onMessage.bind fun _ => trivial

theorem sendReply_onMessage (cached : CachedReply) : (sendReply message cached).Only (onMessage ids) := by
  refine ⟨trivial, fun state => ?_⟩
  show (if _ then _ else _ : RaftProg Unit).Only (onMessage ids)
  split
  · trivial
  · refine ⟨trivial, fun r => ?_⟩
    cases r with
    | ok u => exact (edit_onMessage (by trivial)).bind fun _ => save_onMessage
    | error e => trivial

theorem moveTask_onMessage (cached : CachedReply) : (moveTask message cached).Only (onMessage ids) := by
  unfold moveTask
  split
  · refine ⟨trivial, fun r => ?_⟩
    cases r with
    | ok u =>
      exact (edit_onMessage (by trivial)).bind fun _ => (edit_onMessage (by trivial)).bind fun _ => save_onMessage
    | error e => trivial
  · trivial

theorem processMessage_onMessage (h : message.messageId ∈ ids) :
    (worker.processMessage message).Only (onMessage ids) := by
  refine ⟨trivial, fun state => ?_⟩
  show (if _ then _ else _ : RaftProg Bool).Only (onMessage ids)
  split
  · refine (claim_onMessage worker message).bind fun claimed => ?_
    cases claimed with
    | true =>
      refine (obtainReply_onMessage worker message).bind fun cached => ?_
      refine (sendReply_onMessage message cached).bind fun _ => ?_
      refine (moveTask_onMessage message cached).bind fun _ => ?_
      exact (markCompleted_onMessage h).bind fun _ => trivial
    | false => exact (markCompleted_onMessage h).bind fun _ => trivial
  · exact (markCompleted_onMessage h).bind fun _ => trivial

theorem processMessages_onMessage {messages : List RaftMessage}
    (h : ∀ message ∈ messages, message.messageId ∈ ids) (handled skipped : Nat) :
    (worker.processMessages handled skipped messages).Only (onMessage ids) := by
  induction messages generalizing handled skipped with
  | nil => trivial
  | cons message rest ih =>
    have hrest : ∀ other ∈ rest, other.messageId ∈ ids :=
      fun other hother => h other (List.mem_cons_of_mem _ hother)
    refine ⟨trivial, fun state => ?_⟩
    show (if _ then _ else _ : RaftProg (Nat × Nat)).Only (onMessage ids)
    split
    · exact ih hrest handled (skipped + 1)
    · refine (processMessage_onMessage worker message (h message List.mem_cons_self)).bind fun processed => ?_
      cases processed with
      | true => exact ih hrest (handled + 1) skipped
      | false => exact ih hrest handled (skipped + 1)

end Only

theorem drain_spool (worker : RaftWorker) (env : RaftEnv) (messages : List RaftMessage)
    (w : RaftWorld) {e : RaftError}
    (h : ((worker.drain messages).eval (worker.exec env) w).1 = .error e) :
    ((worker.drain messages).eval (worker.exec env) w).2.spool = w.spool := by
  have hkept : ((worker.processMessages 0 0 messages).eval (worker.exec env) w).2.spool =
      w.spool := by
    refine Only.eval (I := fun w' : RaftWorld => w'.spool = w.spool)
      (processMessages_onMessage worker (fun _ => List.mem_map_of_mem) 0 0) ?_ rfl
    intro o w' ho hw'
    rw [exec_spool worker env ho]
    exact hw'
  unfold drain at h ⊢
  cases hloop : (worker.processMessages 0 0 messages).eval (worker.exec env) w with
  | mk outcome w₁ =>
    rw [hloop] at hkept
    cases outcome with
    | error e' =>
      rw [Prog.bind_eq, Prog.eval_bind_error hloop]
      exact hkept
    | ok counts =>
      rw [Prog.bind_eq, Prog.eval_bind_ok hloop] at h ⊢
      by_cases hfile : env.file w₁.steps = true
      · have hclear : worker.exec env .clearSpool w₁ =
            (.ok (), { w₁ with spool := none, steps := w₁.steps + 1 }) := by
          simp only [exec, RaftEnv.exec, RaftEnv.reply, RaftEnv.onFile, hfile, if_true]
        rw [Prog.eval_call hclear] at h
        cases h
      · have hclear : worker.exec env .clearSpool w₁ =
            (.error (.state "failed to remove Raft inbox spool"),
              { w₁ with steps := w₁.steps + 1 }) := by
          simp only [exec, RaftEnv.exec, RaftEnv.reply, RaftEnv.onFile, hfile]
          rfl
        rw [Prog.eval_call hclear]
        exact hkept

end RaftWorker

/-! ## Completion -/

section Completion

variable {worker : RaftWorker} {env : RaftEnv} {s : RaftWorld × List RaftEntry}
variable {before : List String} {message : RaftMessage}

/-- The message was completed from the start, or has been since. -/
def Done (before : List String) (id : String) (log : List RaftEntry) : Prop :=
  id ∈ before ∨ did (.edit (.completed id)) () ∈ log

def Grounded (before : List String) (s : RaftWorld × List RaftEntry) : Prop :=
  ∀ id ∈ s.1.memory.completedIds, Done before id s.2

theorem Done.append {id : String} {log : List RaftEntry} (h : Done before id log)
    (more : List RaftEntry) : Done before id (log ++ more) := by
  cases h with
  | inl hold => exact .inl hold
  | inr hmem => exact .inr (List.mem_append_left more hmem)

theorem mem_of_complete {limit : Nat} {id other : String} {ids : List String}
    (h : other ∈ WorkerState.complete limit id ids) : other = id ∨ other ∈ ids := by
  unfold WorkerState.complete at h
  split at h
  · exact .inr h
  · have hmem := List.mem_of_mem_drop h
    rw [List.mem_append, List.mem_singleton] at hmem
    exact hmem.symm

theorem exec_completedIds {o : RaftOp} {w : RaftWorld} {id : String}
    (h : id ∈ (worker.exec env o w).2.memory.completedIds) :
    id ∈ w.memory.completedIds ∨ did o (worker.exec env o w).1 = did (.edit (.completed id)) () := by
  by_cases hquiet : quiet o
  · rw [(exec_quiet worker env hquiet w).2.2] at h
    exact .inl h
  · cases o with
    | sendMessage messageId target content => exact .inl h
    | edit change =>
      cases change with
      | completed other =>
        have hmem : id ∈ WorkerState.complete worker.config.processedMessageLimit other
            w.memory.completedIds := h
        cases mem_of_complete hmem with
        | inl hsame =>
          subst hsame
          exact .inr rfl
        | inr hold => exact .inl hold
      | _ => exact .inl h
    | _ => exact absurd trivial hquiet

theorem Grounded.next (h : Grounded before s) (o : RaftOp) :
    Grounded before (after worker env o s) := by
  intro id hid
  cases exec_completedIds hid with
  | inl hold => exact (h id hold).append _
  | inr hnew =>
    refine .inr (List.mem_append_right s.2 ?_)
    rw [hnew]
    exact List.mem_singleton_self _

/-- A recorded worker, of which nothing is asked between two operations. -/
abbrev recorder (worker : RaftWorker) (env : RaftEnv) :
    Observer RaftOp RaftOp.Ret (RaftWorld × List RaftEntry) :=
  Observer.recording (worker.exec env) fun _ => True

/-- Whatever a program does, the log grows and the list of completed messages stays grounded. -/
theorem Grounded.meets {α : Type} {p : RaftProg α} (h : Grounded before s) :
    p.Meets (recorder worker env) (fun _ s' => Grounded before s' ∧ s.2 <+: s'.2)
      (fun _ _ => True) s := by
  induction p generalizing s with
  | ret a => exact ⟨h, List.prefix_rfl⟩
  | raise e => trivial
  | call o k ih =>
    refine (Allowed.recording (P := fun _ s' => Grounded before s' ∧ s.2 <+: s'.2) trivial
      ⟨h.next o, List.prefix_append s.2 _⟩).call fun r s' hs' => ?_
    refine (ih r hs'.1).weaken fun a s'' hs'' => ?_
    exact ⟨hs''.1, hs'.2.trans hs''.2⟩

open RaftWorker

theorem Grounded.markCompleted (h : Grounded before s) (id : String) :
    (markCompleted id).Meets (recorder worker env)
      (fun _ s' => Grounded before s' ∧ s.2 <+: s'.2 ∧ Done before id s'.2) (fun _ _ => True) s := by
  refine (Allowed.recording (P := fun _ s' => Grounded before s' ∧ s.2 <+: s'.2 ∧
    Done before id s'.2) trivial ⟨h.next _, List.prefix_append s.2 _,
      .inr (List.mem_append_right s.2 (List.mem_singleton.mpr rfl))⟩).call
      fun _ s₁ h₁ => ?_
  refine h₁.1.meets.weaken fun _ s₂ h₂ => ?_
  obtain ⟨more, hlog⟩ := h₂.2
  refine ⟨h₂.1, h₁.2.1.trans h₂.2, ?_⟩
  rw [← hlog]
  exact h₁.2.2.append more

theorem Grounded.processMessage (h : Grounded before s) (message : RaftMessage) :
    (worker.processMessage message).Meets (recorder worker env)
      (fun _ s' => Grounded before s' ∧ s.2 <+: s'.2 ∧ Done before message.messageId s'.2)
      (fun _ _ => True) s := by
  have hend : ∀ (s' : RaftWorld × List RaftEntry) (processed : Bool), Grounded before s' →
      s.2 <+: s'.2 →
      ((RaftWorker.markCompleted message.messageId).bind fun _ =>
        (.ret processed : RaftProg Bool)).Meets (recorder worker env)
        (fun _ s' => Grounded before s' ∧ s.2 <+: s'.2 ∧ Done before message.messageId s'.2)
        (fun _ _ => True) s' := by
    intro s' processed hgrounded hgrows
    refine (hgrounded.markCompleted message.messageId).bind fun _ s'' h'' => ?_
    exact ⟨h''.1, hgrows.trans h''.2.1, h''.2.2⟩
  refine (Allowed.recording (P := fun _ s' => Grounded before s' ∧ s.2 <+: s'.2) trivial
    ⟨h.next _, List.prefix_append s.2 _⟩).call fun state s₁ h₁ => ?_
  show (if _ then _ else _ : RaftProg Bool).Meets _ _ _ s₁
  split
  · refine h₁.1.meets.bind fun claimed s₂ h₂ => ?_
    have hgrows₂ := h₁.2.trans h₂.2
    cases claimed with
    | false => exact hend s₂ false h₂.1 hgrows₂
    | true =>
      refine h₂.1.meets.bind fun cached s₃ h₃ => ?_
      refine h₃.1.meets.bind fun _ s₄ h₄ => ?_
      refine h₄.1.meets.bind fun _ s₅ h₅ => ?_
      exact hend s₅ true h₅.1 (hgrows₂.trans (h₃.2.trans (h₄.2.trans h₅.2)))
  · exact hend s₁ false h₁.1 h₁.2

theorem Grounded.processMessages (h : Grounded before s) (messages : List RaftMessage)
    (handled skipped : Nat) :
    (worker.processMessages handled skipped messages).Meets (recorder worker env)
      (fun _ s' => Grounded before s' ∧ s.2 <+: s'.2 ∧
        ∀ message ∈ messages, Done before message.messageId s'.2)
      (fun _ _ => True) s := by
  induction messages generalizing s handled skipped with
  | nil => exact ⟨h, List.prefix_rfl, fun _ hmem => nomatch hmem⟩
  | cons message rest ih =>
    have hrest : ∀ (s' : RaftWorld × List RaftEntry) (handled skipped : Nat), Grounded before s' →
        s.2 <+: s'.2 → Done before message.messageId s'.2 →
        (worker.processMessages handled skipped rest).Meets (recorder worker env)
          (fun _ s' => Grounded before s' ∧ s.2 <+: s'.2 ∧
            ∀ m ∈ message :: rest, Done before m.messageId s'.2) (fun _ _ => True) s' := by
      intro s' handled skipped hgrounded hgrows hdone
      refine (ih hgrounded handled skipped).weaken fun _ s'' h'' => ?_
      refine ⟨h''.1, hgrows.trans h''.2.1, fun m hm => ?_⟩
      cases List.mem_cons.mp hm with
      | inl hsame =>
        obtain ⟨more, hlog⟩ := h''.2.1
        rw [hsame, ← hlog]
        exact hdone.append more
      | inr hmem => exact h''.2.2 m hmem
    refine (Allowed.recording (P := fun state s' => state = s.1.memory ∧ Grounded before s' ∧
      s.2 <+: s'.2) trivial ⟨rfl, h.next _, List.prefix_append s.2 _⟩).call fun state s₁ h₁ => ?_
    obtain ⟨hstate, hgrounded, hgrows⟩ := h₁
    show (if message.messageId ∈ state.completedIds then _ else _ : RaftProg (Nat × Nat)).Meets
      _ _ _ s₁
    split
    · rename_i hmem
      rw [hstate] at hmem
      obtain ⟨more, hlog⟩ := hgrows
      refine hrest s₁ handled (skipped + 1) hgrounded ⟨more, hlog⟩ ?_
      rw [← hlog]
      exact (h _ hmem).append more
    · refine (hgrounded.processMessage message).bind fun processed s₂ h₂ => ?_
      have hgrows₂ := hgrows.trans h₂.2.1
      cases processed with
      | true => exact hrest s₂ (handled + 1) skipped h₂.1 hgrows₂ h₂.2.2
      | false => exact hrest s₂ handled (skipped + 1) h₂.1 hgrows₂ h₂.2.2

/-- A drain that returns has completed its messages and removed the spool. -/
theorem drain_done {w : RaftWorld} {messages : List RaftMessage} {result : RaftDrainResult}
    (h : ((worker.drain messages).eval (worker.exec env) w).1 = .ok result) :
    ((worker.drain messages).eval (worker.exec env) w).2.spool = none ∧
      ∀ message ∈ messages, Done w.memory.completedIds message.messageId
        ((worker.drain messages).history (worker.exec env) w) := by
  have hgrounded : Grounded w.memory.completedIds (w, []) := fun id hid => .inl hid
  have hmeets : (worker.drain messages).Meets (recorder worker env)
      (fun _ s' => s'.1.spool = none ∧
        ∀ message ∈ messages, Done w.memory.completedIds message.messageId s'.2)
      (fun _ _ => True) (w, []) := by
    refine (hgrounded.processMessages messages 0 0).bind fun counts s₁ h₁ => ?_
    refine ⟨trivial, fun r hr => ?_⟩
    cases r with
    | error e => trivial
    | ok u =>
      refine ⟨?_, fun message hmem => (h₁.2.2 message hmem).append _⟩
      have hreply : (.ok () : Except RaftError Unit) = (worker.exec env .clearSpool s₁.1).1 := hr
      show (worker.exec env .clearSpool s₁.1).2.spool = none
      simp only [exec, RaftEnv.exec, RaftEnv.reply, RaftEnv.onFile] at hreply ⊢
      split at hreply
      · rename_i hfile
        rw [if_pos hfile]
      · cases hreply
  have houtcome := hmeets.recorded
  rw [h, List.nil_append] at houtcome
  exact houtcome

theorem drain_only {w : RaftWorld} {messages : List RaftMessage} {id : String}
    (h : did (.edit (.completed id)) () ∈ (worker.drain messages).history (worker.exec env) w) :
    ∃ message ∈ messages, message.messageId = id := by
  have honly : (worker.drain messages).Only fun o => o = .clearSpool ∨
      onMessage (messages.map (·.messageId)) o := by
    refine ((processMessages_onMessage worker (fun _ => List.mem_map_of_mem) 0 0).mono
      fun o ho => .inr ho).bind fun counts => ⟨.inl rfl, fun r => ?_⟩
    cases r with
    | ok u => trivial
    | error e => trivial
  cases honly.history w _ h with
  | inl hclear => cases hclear
  | inr hcompleted => exact List.mem_map.mp hcompleted

end Completion

/-! ## Nothing that is drained is lost -/

/-- After the call every well-formed message of the output is spooled, or has been completed. -/
def NoneLost (worker : RaftWorker) (env : RaftEnv) (w : RaftWorld) (output : String) : Prop :=
  ∀ message ∈ wellFormed worker.lib output,
    (worker.runOnce.eval (worker.exec env) w).2.spool = some output ∨
      Done w.memory.completedIds message.messageId (worker.runOnce.history (worker.exec env) w)

section Lost

variable {worker : RaftWorker} {env : RaftEnv} {w : RaftWorld} {output : String}

theorem noneLost_of_spooled (hread : env.file w.steps = true) (hspool : w.spool = none)
    (hcheck : env.check (w.steps + 1) = .ok output) {messages : List RaftMessage}
    (hparse : parseRaftMessages worker.lib output = .ok messages)
    (hwrite : env.file (w.steps + 2) = true) : NoneLost worker env w output := by
  intro message hmem
  rw [wellFormed_of_parse hparse] at hmem
  obtain ⟨heval, hhistory⟩ := RaftWorker.runOnce_drained hread hspool hcheck hwrite hparse
    (List.ne_nil_of_mem hmem)
  rw [heval, hhistory]
  cases houtcome : ((worker.drain messages).eval (worker.exec env)
      (RaftWorker.spooled w output 3)).1 with
  | error e => exact .inl (RaftWorker.drain_spool worker env messages _ houtcome)
  | ok result =>
    cases (drain_done houtcome).2 message hmem with
    | inl hbefore => exact .inr (.inl hbefore)
    | inr hnow => exact .inr (.inr (List.mem_append_right _ hnow))

/-- A call that does not come to spool its output does nothing with it. -/
theorem runOnce_unspooled (hread : env.file w.steps = true) (hspool : w.spool = none)
    (hcheck : env.check (w.steps + 1) = .ok output)
    (hnot : ¬ ∃ messages, parseRaftMessages worker.lib output = .ok messages ∧
      env.file (w.steps + 2) = true) :
    (worker.runOnce.eval (worker.exec env) w).2.spool = none ∧
      ∀ e ∈ worker.runOnce.history (worker.exec env) w, isCompletion e = false := by
  have hfirst : worker.exec env .readSpool w = (.ok none, { w with steps := w.steps + 1 }) := by
    simp only [RaftWorker.exec, RaftEnv.exec, RaftEnv.reply, hread, if_true, hspool, Option.map_none]
  have hsecond : worker.exec env .messageCheck { w with steps := w.steps + 1 } =
      (.ok output, { w with steps := w.steps + 2 }) := by
    simp only [RaftWorker.exec, RaftEnv.exec, RaftEnv.reply, hcheck]
  unfold RaftWorker.runOnce RaftWorker.checkMessages
  rw [Prog.eval_call hfirst, Prog.history_call hfirst]
  simp only [Prog.bind_eq, Prog.ofExcept_ok, Prog.ret_bind, Prog.call_bind]
  rw [Prog.eval_call hsecond, Prog.history_call hsecond]
  simp only [Prog.ofExcept_ok, Prog.ret_bind]
  cases hparse : parseRaftMessages worker.lib output with
  | error e =>
    simp only [Prog.ofExcept_error, Prog.raise_bind]
    exact ⟨hspool, by simp [Prog.history, isCompletion]⟩
  | ok messages =>
    simp only [Prog.ofExcept_ok, Prog.ret_bind, Prog.pure_eq]
    by_cases hempty : messages.isEmpty = true
    · rw [if_pos hempty]
      exact ⟨hspool, by simp [Prog.history, isCompletion]⟩
    · rw [if_neg hempty]
      have hwrite : env.file (w.steps + 2) = false := by
        cases hfile : env.file (w.steps + 2) with
        | false => rfl
        | true => exact absurd ⟨messages, hparse, hfile⟩ hnot
      have hthird : worker.exec env (.writeSpool output) { w with steps := w.steps + 2 } =
          (.error (.state "failed to persist Raft state"), { w with steps := w.steps + 3 }) := by
        simp only [RaftWorker.exec, RaftEnv.exec, RaftEnv.reply, RaftEnv.onFile, hwrite]
        rfl
      rw [Prog.eval_call hthird, Prog.history_call hthird]
      exact ⟨hspool, by simp [Prog.history, isCompletion]⟩

/-- What is drained is kept exactly when the whole output is parsed and the spool written, or when
there was nothing left to do for its messages. -/
theorem drained_messages_kept (hread : env.file w.steps = true) (hspool : w.spool = none)
    (hcheck : env.check (w.steps + 1) = .ok output) :
    NoneLost worker env w output ↔
      (∃ messages, parseRaftMessages worker.lib output = .ok messages ∧
        env.file (w.steps + 2) = true) ∨
      ∀ message ∈ wellFormed worker.lib output, message.messageId ∈ w.memory.completedIds := by
  by_cases hspools : ∃ messages, parseRaftMessages worker.lib output = .ok messages ∧
      env.file (w.steps + 2) = true
  · obtain ⟨messages, hparse, hwrite⟩ := hspools
    constructor
    · exact fun _ => .inl ⟨messages, hparse, hwrite⟩
    · exact fun _ => noneLost_of_spooled hread hspool hcheck hparse hwrite
  · obtain ⟨hnone, huntouched⟩ := runOnce_unspooled hread hspool hcheck hspools
    constructor
    · intro hkept
      refine .inr fun message hmem => ?_
      cases hkept message hmem with
      | inl hspooled =>
        rw [hnone] at hspooled
        cases hspooled
      | inr hdone =>
        cases hdone with
        | inl hbefore => exact hbefore
        | inr hnow => cases huntouched _ hnow
    · intro hcond
      cases hcond with
      | inl hyes => exact absurd hyes hspools
      | inr hbefore => exact fun message hmem => .inr (.inl (hbefore message hmem))

end Lost

/-- A first output with a message, and an envelope without a sender. -/
def halfMalformed : String :=
  "[target=dm:@ann msg=m1 time=now type=human] @ann: help\n" ++
    "[target=dm:@ann msg=m2 time=now type=human] ann: help"

def checkingEnv (output : String) : RaftEnv where
  check _ := .ok output
  send _ _ _ := .ok ()
  claim _ _ _ := .ok ()
  update _ _ _ _ := .ok ()
  run _ _ _ runId _ :=
    .ok { status := .completed, output := some "done", runId := some (uuidText runId) }
  resume _ _ _ := .ok { status := .completed, output := some "done" }

/-- A worker under the handle `bot`. -/
def botWorker : RaftWorker :=
  { config := { agentId := 7, handle := "bot", processedMessageLimit := 100, valid := by decide }
    lib := asciiLibrary }

set_option maxRecDepth 20000 in
-- The message of the first envelope is nowhere.
theorem malformed_neighbour_lost :
    ¬ NoneLost botWorker (checkingEnv halfMalformed) {} halfMalformed := by
  have hview : ((parseRaftMessages botWorker.lib halfMalformed).toOption.isSome,
      (wellFormed botWorker.lib halfMalformed).map (·.messageId)) = (false, ["m1"]) := by
    decide
  simp only [Prod.mk.injEq] at hview
  obtain ⟨hrefused, hwell⟩ := hview
  have hnot : ¬ ∃ messages, parseRaftMessages botWorker.lib halfMalformed = .ok messages ∧
      (checkingEnv halfMalformed).file 2 = true := by
    intro hok
    obtain ⟨messages, hparse, -⟩ := hok
    rw [hparse] at hrefused
    cases hrefused
  obtain ⟨message, hmem, -⟩ := List.mem_map.mp
    (show "m1" ∈ (wellFormed botWorker.lib halfMalformed).map (·.messageId) by rw [hwell]; simp)
  obtain ⟨hspool, huntouched⟩ := runOnce_unspooled (w := {}) rfl rfl rfl hnot
  intro hkept
  cases hkept message hmem with
  | inl hspooled =>
    rw [hspool] at hspooled
    cases hspooled
  | inr hdone =>
    cases hdone with
    | inl hbefore => cases hbefore
    | inr hnow => cases huntouched _ hnow

theorem drained_messages_kept_direct :
    NoneLost botWorker (checkingEnv "[target=dm:@ann msg=m1 time=now type=human] @ann: help") {}
      "[target=dm:@ann msg=m1 time=now type=human] @ann: help" := by
  have hparse : (parseRaftMessages botWorker.lib
      "[target=dm:@ann msg=m1 time=now type=human] @ann: help").toOption.isSome = true := by
    decide
  apply (drained_messages_kept rfl rfl rfl).mpr
  cases hmessages : parseRaftMessages botWorker.lib
      "[target=dm:@ann msg=m1 time=now type=human] @ann: help" with
  | ok messages => exact .inl ⟨messages, rfl, rfl⟩
  | error e =>
    rw [hmessages] at hparse
    cases hparse

end Raft
end BaseAgent

import BaseAgent.Async.Observer
import BaseAgent.Raft.Worker

/-!
# What the log of a worker shows

The facts of this module hold of every run, whatever the CLI, the files and the Agent do.  They
relate the journal in memory to the log, and say how a message comes to be marked completed and
how a reply comes to be sent twice:

* a message with a cached reply is marked completed when the reply has been sent and its task
  moved, or when the worker no longer takes the message for its own (`Unaddressed`);
* between two sends for a message the worker has taken it up again after it had been completed,
  because its identifier was no longer among the completed ones.
-/

namespace BaseAgent
namespace Raft

open Async Prog

abbrev did (o : RaftOp) (r : o.Ret) : RaftEntry := ⟨(), o, r⟩

def caches (id : String) : RaftEntry → Bool
  | ⟨_, .edit (.cached messageId _), _⟩ => messageId == id
  | _ => false

def isCompletion : RaftEntry → Bool
  | ⟨_, .edit (.completed _), _⟩ => true
  | _ => false

def completes (id : String) : RaftEntry → Bool
  | ⟨_, .edit (.completed messageId), _⟩ => messageId == id
  | _ => false

def sends (id : String) : RaftEntry → Bool
  | ⟨_, .sendMessage messageId _ _, .ok _⟩ => messageId == id
  | _ => false

@[simp] theorem caches_iff {id : String} {e : RaftEntry} :
    caches id e = true ↔ ∃ reply, e = did (.edit (.cached id reply)) () := by
  constructor
  · intro h
    unfold caches at h
    split at h
    · rw [beq_iff_eq] at h
      subst h
      exact ⟨_, rfl⟩
    · cases h
  · rintro ⟨reply, rfl⟩
    simp [caches]

@[simp] theorem completes_iff {id : String} {e : RaftEntry} :
    completes id e = true ↔ e = did (.edit (.completed id)) () := by
  constructor
  · intro h
    unfold completes at h
    split at h
    · rw [beq_iff_eq] at h
      subst h
      rfl
    · cases h
  · rintro rfl
    simp [completes]

@[simp] theorem sends_iff {id : String} {e : RaftEntry} :
    sends id e = true ↔ ∃ target content, e = did (.sendMessage id target content) (.ok ()) := by
  constructor
  · intro h
    unfold sends at h
    split at h
    · rw [beq_iff_eq] at h
      subst h
      exact ⟨_, _, rfl⟩
    · cases h
  · rintro ⟨target, content, rfl⟩
    simp [sends]

/-! ## The latest part of a log -/

section Since

variable {α : Type} {p : α → Bool} {log : List α} {e : α}

/-- The entries after the last one with `p`, or all, the latest first. -/
def since (p : α → Bool) (log : List α) : List α := log.reverse.takeWhile fun e => !p e

theorem since_snoc : since p (log ++ [e]) = if p e then [] else e :: since p log := by
  unfold since
  rw [List.reverse_append]
  by_cases he : p e = true <;> simp [he]

theorem since_snoc_of (h : p e = true) : since p (log ++ [e]) = [] := by
  rw [since_snoc, if_pos h]

theorem since_snoc_not (h : p e = false) : since p (log ++ [e]) = e :: since p log := by
  rw [since_snoc, h]
  rfl

theorem snoc_eq_split {before after : List α} {x : α} :
    log ++ [e] = before ++ x :: after ↔
      (before = log ∧ x = e ∧ after = []) ∨
        ∃ rest, after = rest ++ [e] ∧ log = before ++ x :: rest := by
  constructor
  · intro h
    cases List.eq_nil_or_concat after with
    | inl hnil =>
      rw [hnil] at h
      have hparts := List.append_inj' h rfl
      exact .inl ⟨hparts.1.symm, (List.singleton_inj.mp hparts.2).symm, hnil⟩
    | inr hconcat =>
      obtain ⟨rest, last, rfl⟩ := hconcat
      have hsnoc : log ++ [e] = (before ++ x :: rest) ++ [last] := by
        rw [h]
        simp
      have hparts := List.append_inj' hsnoc rfl
      have hlast : e = last := List.singleton_inj.mp hparts.2
      exact .inr ⟨rest, by rw [hlast, List.concat_eq_append], hparts.1⟩
  · rintro (⟨rfl, rfl, rfl⟩ | ⟨rest, rfl, rfl⟩)
    · rfl
    · simp

end Since

/-! ## The list of completed messages -/

/-- The messages that have been completed since the last time `id` was. -/
def completionsSince (id : String) (log : List RaftEntry) : Nat :=
  (since (completes id) log).countP isCompletion

/-- A message that has been completed is in the list, until `limit` others have come after it. -/
def Retains (limit : Nat) (log : List RaftEntry) (ids : List String) : Prop :=
  ∀ id, (∃ e ∈ log, completes id e = true) → completionsSince id log < limit →
    ∃ before after, ids = before ++ id :: after ∧ after.length ≤ completionsSince id log

section Retention

variable {limit : Nat} {log : List RaftEntry} {ids : List String} {e : RaftEntry}

theorem completes_eq_false {id : String} (h : isCompletion e = false) : completes id e = false := by
  cases hc : completes id e with
  | false => rfl
  | true =>
    rw [completes_iff.mp hc] at h
    cases h

theorem Retains.other (h : Retains limit log ids) (he : isCompletion e = false) :
    Retains limit (log ++ [e]) ids := by
  intro id hmarked hcount
  have hnot : completes id e = false := completes_eq_false he
  have hsince : completionsSince id (log ++ [e]) = completionsSince id log := by
    unfold completionsSince
    rw [since_snoc_not hnot, List.countP_cons_of_neg (by simp [he])]
  rw [hsince] at hcount ⊢
  refine h id ?_ hcount
  obtain ⟨d, hd, hdid⟩ := hmarked
  cases List.mem_append.mp hd with
  | inl hold => exact ⟨d, hold, hdid⟩
  | inr hnew =>
    rw [List.mem_singleton.mp hnew, hnot] at hdid
    cases hdid

/-- A new identifier comes last, and the others move towards the front. -/
theorem Retains.completed (h : Retains limit log ids) (hlimit : 0 < limit) {id : String}
    (hnew : id ∉ ids) :
    Retains limit (log ++ [did (.edit (.completed id)) ()]) (WorkerState.complete limit id ids) := by
  intro other hmarked hcount
  have hlist : WorkerState.complete limit id ids = ids.drop (ids.length + 1 - limit) ++ [id] := by
    unfold WorkerState.complete
    rw [if_neg hnew]
    simp only [List.length_append, List.length_singleton]
    exact List.drop_append_of_le_length (by omega)
  rw [hlist]
  by_cases hsame : other = id
  · subst hsame
    exact ⟨_, [], rfl, Nat.zero_le _⟩
  · have hnot : completes other (did (.edit (.completed id)) ()) = false := by
      simp [completes, Ne.symm hsame]
    have hsince : completionsSince other (log ++ [did (.edit (.completed id)) ()]) =
        completionsSince other log + 1 := by
      unfold completionsSince
      rw [since_snoc_not hnot, List.countP_cons_of_pos rfl]
    rw [hsince] at hcount ⊢
    have hold : ∃ e ∈ log, completes other e = true := by
      obtain ⟨d, hd, hdid⟩ := hmarked
      cases List.mem_append.mp hd with
      | inl hmem => exact ⟨d, hmem, hdid⟩
      | inr hlast =>
        rw [List.mem_singleton.mp hlast, hnot] at hdid
        cases hdid
    obtain ⟨before, after, hids, hlength⟩ := h other hold (by omega)
    refine ⟨before.drop (ids.length + 1 - limit), after ++ [id], ?_, ?_⟩
    · have hfront : ids.length + 1 - limit ≤ before.length := by
        rw [hids, List.length_append, List.length_cons]
        omega
      rw [hids] at hfront ⊢
      rw [List.drop_append_of_le_length hfront]
      simp
    · rw [List.length_append, List.length_singleton]
      omega

end Retention

/-! ## The journal and the log -/

def Sent (id : String) (reply : CachedReply) (entries : List RaftEntry) : Prop :=
  did (.sendMessage id reply.target reply.content) (.ok ()) ∈ entries

def Moved (id : String) (reply : CachedReply) (entries : List RaftEntry) : Prop :=
  ∃ target number, reply.taskTarget = some target ∧ reply.taskNumber = some number ∧
    did (.updateTask id target number "in_review") (.ok ()) ∈ entries

def Delivered (id : String) (reply : CachedReply) (entries : List RaftEntry) : Prop :=
  Sent id reply entries ∧ (reply.moveTaskToReview = true → Moved id reply entries)

/-- The log ends where the worker decides that a message is not its own. -/
def Unaddressed (worker : RaftWorker) (id : String) (log : List RaftEntry) : Prop :=
  (∃ before message state, log = before ++ [did (.read .shouldHandle message) state] ∧
      message.messageId = id ∧ worker.shouldHandle message state = false) ∨
    ∃ before target number e, log = before ++ [did (.claimTask id target number) (.error e)] ∧
      e.isCommand = true

/-- What is true of the world and the log of a worker.  `flight` is the message whose reply has
been sent, which the journal does not say yet. -/
structure Base (worker : RaftWorker) (flight : Option String)
    (s : RaftWorld × List RaftEntry) : Prop where
  cached : ∀ id before reply between,
    s.2 = before ++ did (.edit (.cached id reply)) () :: between →
    did (.edit (.completed id)) () ∉ between →
      s.1.memory.cachedReplies id = some reply ∧ ∀ e ∈ since (caches id) s.2, e ∈ between
  made : ∀ id reply, s.1.memory.cachedReplies id = some reply → reply.moveTaskToReview = true →
    reply.taskTarget.isSome = true ∧ reply.taskNumber.isSome = true
  replied : ∀ id ∈ s.1.memory.repliedIds, ∃ reply, s.1.memory.cachedReplies id = some reply ∧
    Sent id reply (since (caches id) s.2)
  retained : Retains worker.config.processedMessageLimit s.2 s.1.memory.completedIds
  reads : ∀ before message state after,
    s.2 = before ++ did (.read .isCompleted message) state :: after →
      Retains worker.config.processedMessageLimit before state.completedIds
  settled : ∀ id, some id ≠ flight → id ∉ s.1.memory.repliedIds → ∀ before e after,
    s.2 = before ++ e :: after → sends id e = true → did (.edit (.completed id)) () ∈ after
  completions : ∀ id before reply between after,
    s.2 = before ++ did (.edit (.cached id reply)) () :: between ++
      did (.edit (.completed id)) () :: after →
    did (.edit (.completed id)) () ∉ between →
      Delivered id reply between ∨
        Unaddressed worker id (before ++ did (.edit (.cached id reply)) () :: between)
  repeats : ∀ id before e between e' after,
    s.2 = before ++ e :: between ++ e' :: after → sends id e = true → sends id e' = true →
      ∃ early message state late,
        before ++ e :: between = early ++ did (.read .isCompleted message) state :: late ∧
        message.messageId = id ∧ id ∉ state.completedIds ∧ did (.edit (.completed id)) () ∈ early

/-- The operations that leave the journal's replies and completions alone, and send nothing. -/
def quiet : RaftOp → Prop
  | .edit (.cached ..) | .edit (.completed _) | .edit (.replied _) | .sendMessage .. => False
  | _ => True

/-- The quiet operations on a message, which leave the spool alone. -/
def calm : RaftOp → Prop
  | .readSpool | .writeSpool _ | .clearSpool | .messageCheck => False
  | o => quiet o

theorem quiet_of_calm (o : RaftOp) (h : calm o) : quiet o := by
  cases o with
  | readSpool | writeSpool _ | clearSpool | messageCheck => exact h.elim
  | _ => exact h

section Steps

variable {worker : RaftWorker} {env : RaftEnv} {s : RaftWorld × List RaftEntry}

abbrev after (worker : RaftWorker) (env : RaftEnv) (o : RaftOp) (s : RaftWorld × List RaftEntry) :
    RaftWorld × List RaftEntry :=
  ((worker.exec env o s.1).2, s.2 ++ [did o (worker.exec env o s.1).1])

theorem exec_edit (worker : RaftWorker) (env : RaftEnv) (change : Edit) (w : RaftWorld) :
    (worker.exec env (.edit change) w).2.memory =
      w.memory.edit worker.config.processedMessageLimit change := rfl

theorem exec_quiet (worker : RaftWorker) (env : RaftEnv) {o : RaftOp} (h : quiet o)
    (w : RaftWorld) :
    (worker.exec env o w).2.memory.cachedReplies = w.memory.cachedReplies ∧
      (worker.exec env o w).2.memory.repliedIds = w.memory.repliedIds ∧
      (worker.exec env o w).2.memory.completedIds = w.memory.completedIds := by
  cases o with
  | edit change => cases change <;> first | exact h.elim | exact ⟨rfl, rfl, rfl⟩
  | readSpool | writeSpool _ | clearSpool | save =>
    simp only [RaftWorker.exec, RaftEnv.exec, RaftEnv.reply, RaftEnv.onFile]
    split <;> exact ⟨rfl, rfl, rfl⟩
  | run messageId prompt runId skills =>
    simp only [RaftWorker.exec, RaftEnv.exec, RaftEnv.reply]
    split <;> exact ⟨rfl, rfl, rfl⟩
  | _ => exact ⟨rfl, rfl, rfl⟩

/-! ### One more entry

Each fact is kept by an entry, under what it needs to know of the entry and of the new journal. -/

section Snoc

variable {flight flight' : Option String} {w' : RaftWorld} {e : RaftEntry}

theorem Base.cached_snoc (h : Base worker flight s)
    (hkeep : ∀ id reply, s.1.memory.cachedReplies id = some reply →
      e ≠ did (.edit (.completed id)) () → w'.memory.cachedReplies id = some reply)
    (hnew : ∀ id reply, e = did (.edit (.cached id reply)) () →
      w'.memory.cachedReplies id = some reply ∧ s.1.memory.cachedReplies id = none)
    (id : String) (before : List RaftEntry) (reply : CachedReply) (between : List RaftEntry)
    (hlog : s.2 ++ [e] = before ++ did (.edit (.cached id reply)) () :: between)
    (hopen : did (.edit (.completed id)) () ∉ between) :
    w'.memory.cachedReplies id = some reply ∧ ∀ d ∈ since (caches id) (s.2 ++ [e]), d ∈ between := by
  cases snoc_eq_split.mp hlog with
  | inl hlast =>
    obtain ⟨-, heq, -⟩ := hlast
    refine ⟨(hnew id reply heq.symm).1, ?_⟩
    rw [since_snoc_of (caches_iff.mpr ⟨reply, heq.symm⟩)]
    exact fun d hd => absurd hd List.not_mem_nil
  | inr hearlier =>
    obtain ⟨rest, rfl, hsplit⟩ := hearlier
    have hrest : did (.edit (.completed id)) () ∉ rest := fun hmem =>
      hopen (List.mem_append_left [e] hmem)
    have hother : e ≠ did (.edit (.completed id)) () := by
      intro heq
      exact hopen (by simp [heq])
    obtain ⟨hstored, hsince⟩ := h.cached id before reply rest hsplit hrest
    refine ⟨hkeep id reply hstored hother, ?_⟩
    have hcaches : caches id e = false := by
      cases hc : caches id e with
      | false => rfl
      | true =>
        obtain ⟨newer, heq⟩ := caches_iff.mp hc
        rw [(hnew id newer heq).2] at hstored
        cases hstored
    rw [since_snoc_not hcaches]
    intro d hd
    cases List.mem_cons.mp hd with
    | inl heq => simp [heq]
    | inr hold => exact List.mem_append_left [e] (hsince d hold)

theorem Base.replied_snoc (h : Base worker flight s)
    (hkeep : ∀ id ∈ w'.memory.repliedIds, id ∈ s.1.memory.repliedIds →
      w'.memory.cachedReplies id = s.1.memory.cachedReplies id ∧ caches id e = false)
    (hnew : ∀ id ∈ w'.memory.repliedIds, id ∉ s.1.memory.repliedIds →
      ∃ reply, w'.memory.cachedReplies id = some reply ∧
        Sent id reply (since (caches id) (s.2 ++ [e])))
    (id : String) (hid : id ∈ w'.memory.repliedIds) :
    ∃ reply, w'.memory.cachedReplies id = some reply ∧
      Sent id reply (since (caches id) (s.2 ++ [e])) := by
  by_cases hold : id ∈ s.1.memory.repliedIds
  · obtain ⟨hstored, hcaches⟩ := hkeep id hid hold
    obtain ⟨reply, hreply, hsent⟩ := h.replied id hold
    refine ⟨reply, hstored.trans hreply, ?_⟩
    rw [since_snoc_not hcaches]
    exact List.mem_cons_of_mem e hsent
  · exact hnew id hid hold

theorem Base.reads_snoc (h : Base worker flight s)
    (hread : ∀ message state, e = did (.read .isCompleted message) state → state = s.1.memory)
    (before : List RaftEntry) (message : RaftMessage) (state : WorkerState) (rest : List RaftEntry)
    (hlog : s.2 ++ [e] = before ++ did (.read .isCompleted message) state :: rest) :
    Retains worker.config.processedMessageLimit before state.completedIds := by
  cases snoc_eq_split.mp hlog with
  | inl hlast =>
    obtain ⟨rfl, heq, -⟩ := hlast
    rw [hread message state heq.symm]
    exact h.retained
  | inr hearlier =>
    obtain ⟨rest', -, hsplit⟩ := hearlier
    exact h.reads before message state rest' hsplit

theorem Base.settled_snoc (h : Base worker flight s)
    (hkeep : ∀ id, some id ≠ flight' → id ∉ w'.memory.repliedIds →
      e ≠ did (.edit (.completed id)) () → some id ≠ flight ∧ id ∉ s.1.memory.repliedIds)
    (hsend : ∀ id, sends id e = true → some id = flight') (id : String)
    (hflight : some id ≠ flight') (hreplied : id ∉ w'.memory.repliedIds)
    (before : List RaftEntry) (d : RaftEntry) (rest : List RaftEntry)
    (hlog : s.2 ++ [e] = before ++ d :: rest) (hd : sends id d = true) :
    did (.edit (.completed id)) () ∈ rest := by
  cases snoc_eq_split.mp hlog with
  | inl hlast =>
    obtain ⟨-, rfl, -⟩ := hlast
    exact absurd (hsend id hd) hflight
  | inr hearlier =>
    obtain ⟨rest', rfl, hsplit⟩ := hearlier
    by_cases hlast : e = did (.edit (.completed id)) ()
    · simp [hlast]
    · obtain ⟨hold, hunreplied⟩ := hkeep id hflight hreplied hlast
      exact List.mem_append_left [e] (h.settled id hold hunreplied before d rest' hsplit hd)

theorem Base.completions_snoc (h : Base worker flight s)
    (hguard : ∀ id before reply between, e = did (.edit (.completed id)) () →
      s.2 = before ++ did (.edit (.cached id reply)) () :: between →
      did (.edit (.completed id)) () ∉ between →
        Delivered id reply between ∨ Unaddressed worker id s.2)
    (id : String) (before : List RaftEntry) (reply : CachedReply) (between rest : List RaftEntry)
    (hlog : s.2 ++ [e] = before ++ did (.edit (.cached id reply)) () :: between ++
      did (.edit (.completed id)) () :: rest) (hopen : did (.edit (.completed id)) () ∉ between) :
    Delivered id reply between ∨
      Unaddressed worker id (before ++ did (.edit (.cached id reply)) () :: between) := by
  cases snoc_eq_split.mp hlog with
  | inl hlast =>
    obtain ⟨hsplit, heq, -⟩ := hlast
    rw [hsplit]
    exact hguard id before reply between heq.symm hsplit.symm hopen
  | inr hearlier =>
    obtain ⟨rest', -, hsplit⟩ := hearlier
    exact h.completions id before reply between rest' hsplit hopen

theorem Base.repeats_snoc (h : Base worker flight s)
    (hguard : ∀ id before d between, sends id e = true → s.2 = before ++ d :: between →
      sends id d = true → ∃ early message state late,
        s.2 = early ++ did (.read .isCompleted message) state :: late ∧ message.messageId = id ∧
        id ∉ state.completedIds ∧ did (.edit (.completed id)) () ∈ early)
    (id : String) (before : List RaftEntry) (d : RaftEntry) (between : List RaftEntry)
    (d' : RaftEntry) (rest : List RaftEntry)
    (hlog : s.2 ++ [e] = before ++ d :: between ++ d' :: rest) (hd : sends id d = true)
    (hd' : sends id d' = true) : ∃ early message state late,
      before ++ d :: between = early ++ did (.read .isCompleted message) state :: late ∧
      message.messageId = id ∧ id ∉ state.completedIds ∧
      did (.edit (.completed id)) () ∈ early := by
  cases snoc_eq_split.mp hlog with
  | inl hlast =>
    obtain ⟨hsplit, heq, -⟩ := hlast
    rw [hsplit]
    rw [heq] at hd'
    exact hguard id before d between hd' hsplit.symm hd
  | inr hearlier =>
    obtain ⟨rest', -, hsplit⟩ := hearlier
    exact h.repeats id before d between d' rest' hsplit hd hd'

end Snoc

/-! ### The operations -/

section Operations

variable {flight : Option String} {o : RaftOp}

theorem quiet_caches (h : quiet o) (r : o.Ret) (id : String) : caches id (did o r) = false := by
  cases hc : caches id (did o r) with
  | false => rfl
  | true =>
    obtain ⟨reply, heq⟩ := caches_iff.mp hc
    cases heq
    exact h.elim

theorem quiet_isCompletion (h : quiet o) (r : o.Ret) : isCompletion (did o r) = false := by
  cases o with
  | edit change => cases change <;> first | rfl | exact h.elim
  | _ => rfl

theorem quiet_sends (h : quiet o) (r : o.Ret) (id : String) : sends id (did o r) = false := by
  cases hc : sends id (did o r) with
  | false => rfl
  | true =>
    obtain ⟨target, content, heq⟩ := sends_iff.mp hc
    cases heq
    exact h.elim

theorem exec_read {message : RaftMessage} {state : WorkerState} {w : RaftWorld}
    (h : did o (worker.exec env o w).1 = did (.read .isCompleted message) state) :
    state = w.memory := by
  cases o with
  | read reader m =>
    cases h
    rfl
  | _ => cases h

theorem Base.quietly (h : Base worker flight s) (ho : quiet o) :
    Base worker flight (after worker env o s) := by
  obtain ⟨hcached, hreplied, hcompleted⟩ := exec_quiet worker env ho s.1
  have hcompletion := quiet_isCompletion ho (worker.exec env o s.1).1
  exact
    { cached := h.cached_snoc
        (fun id reply hreply _ => by rw [hcached]; exact hreply)
        (fun id reply heq => by
          have hcaches := quiet_caches ho (worker.exec env o s.1).1 id
          rw [caches_iff.mpr ⟨reply, heq⟩] at hcaches
          cases hcaches)
      made := by
        intro id reply hreply
        rw [hcached] at hreply
        exact h.made id reply hreply
      replied := h.replied_snoc
        (fun id _ _ => ⟨by rw [hcached], quiet_caches ho _ id⟩)
        (fun id hid hold => by
          rw [hreplied] at hid
          exact absurd hid hold)
      retained := by
        rw [hcompleted]
        exact h.retained.other hcompletion
      reads := h.reads_snoc fun message state heq => exec_read heq
      settled := h.settled_snoc
        (fun id hflight hid _ => ⟨hflight, by rw [hreplied] at hid; exact hid⟩)
        (fun id hsend => by
          rw [quiet_sends ho] at hsend
          cases hsend)
      completions := h.completions_snoc fun id before reply between heq => by
        rw [heq] at hcompletion
        cases hcompletion
      repeats := h.repeats_snoc fun id before d between hsend => by
        rw [quiet_sends ho] at hsend
        cases hsend }

theorem Base.cache (h : Base worker flight s) {id : String} {reply : CachedReply}
    (hnone : s.1.memory.cachedReplies id = none)
    (hmade : reply.moveTaskToReview = true →
      reply.taskTarget.isSome = true ∧ reply.taskNumber.isSome = true) :
    Base worker flight (after worker env (.edit (.cached id reply)) s) := by
  have hmemory := exec_edit worker env (.cached id reply) s.1
  have hself : (worker.exec env (.edit (.cached id reply)) s.1).2.memory.cachedReplies id =
      some reply := by
    rw [hmemory]
    simp [WorkerState.edit]
  have hothers : ∀ other, other ≠ id →
      (worker.exec env (.edit (.cached id reply)) s.1).2.memory.cachedReplies other =
        s.1.memory.cachedReplies other := by
    intro other hne
    rw [hmemory]
    simp [WorkerState.edit, hne]
  have hunreplied : id ∉ s.1.memory.repliedIds := by
    intro hid
    obtain ⟨old, hold, -⟩ := h.replied id hid
    rw [hnone] at hold
    cases hold
  exact
    { cached := h.cached_snoc
        (fun other old hold _ => by
          have hne : other ≠ id := by
            rintro rfl
            rw [hnone] at hold
            cases hold
          rw [hothers other hne]
          exact hold)
        (fun other new heq => by
          cases heq
          exact ⟨hself, hnone⟩)
      made := by
        intro other stored hstored
        by_cases hsame : other = id
        · subst hsame
          rw [hself] at hstored
          cases hstored
          exact hmade
        · rw [hothers other hsame] at hstored
          exact h.made other stored hstored
      replied := h.replied_snoc
        (fun other _ hold => by
          have hne : other ≠ id := by
            rintro rfl
            exact hunreplied hold
          exact ⟨hothers other hne, by simp [caches, Ne.symm hne]⟩)
        (fun other hid hold => absurd hid hold)
      retained := h.retained.other rfl
      reads := h.reads_snoc fun message state heq => exec_read heq
      settled := h.settled_snoc (fun other hflight hid _ => ⟨hflight, hid⟩)
        (fun other hsend => by cases hsend)
      completions := h.completions_snoc fun other before old between heq => by cases heq
      repeats := h.repeats_snoc fun other before d between hsend => by cases hsend }

theorem Base.reply {id : String} (h : Base worker (some id) s) {reply : CachedReply}
    (hcached : s.1.memory.cachedReplies id = some reply)
    (hsent : Sent id reply (since (caches id) s.2)) :
    Base worker none (after worker env (.edit (.replied id)) s) := by
  have hmemory := exec_edit worker env (.replied id) s.1
  have hreplied : (worker.exec env (.edit (.replied id)) s.1).2.memory.repliedIds =
      s.1.memory.repliedIds.insert id := by
    rw [hmemory]
    rfl
  have hstored : (worker.exec env (.edit (.replied id)) s.1).2.memory.cachedReplies =
      s.1.memory.cachedReplies := by
    rw [hmemory]
    rfl
  exact
    { cached := h.cached_snoc (fun other old hold _ => hold) (fun other new heq => by cases heq)
      made := h.made
      replied := h.replied_snoc (fun other _ _ => ⟨rfl, rfl⟩)
        (fun other hid hold => by
          rw [hreplied, List.mem_insert_iff] at hid
          cases hid with
          | inl hsame =>
            subst hsame
            refine ⟨reply, hcached, ?_⟩
            rw [since_snoc_not rfl]
            exact List.mem_cons_of_mem _ hsent
          | inr hmem => exact absurd hmem hold)
      retained := h.retained.other rfl
      reads := h.reads_snoc fun message state heq => exec_read heq
      settled := h.settled_snoc
        (fun other _ hid _ => by
          rw [hreplied, List.mem_insert_iff, not_or] at hid
          exact ⟨by simpa using hid.1, hid.2⟩)
        (fun other hsend => by cases hsend)
      completions := h.completions_snoc fun other before old between heq => by cases heq
      repeats := h.repeats_snoc fun other before d between hsend => by cases hsend }

theorem Delivered.mono {id : String} {reply : CachedReply} {a b : List RaftEntry}
    (h : Delivered id reply a) (hsub : ∀ e ∈ a, e ∈ b) : Delivered id reply b := by
  refine ⟨hsub _ h.1, fun hmove => ?_⟩
  obtain ⟨target, number, htarget, hnumber, hmem⟩ := h.2 hmove
  exact ⟨target, number, htarget, hnumber, hsub _ hmem⟩

theorem Base.complete (h : Base worker none s) {id : String}
    (hnew : id ∉ s.1.memory.completedIds)
    (hguard : (∀ reply, s.1.memory.cachedReplies id = some reply →
      Delivered id reply (since (caches id) s.2)) ∨ Unaddressed worker id s.2) :
    Base worker none (after worker env (.edit (.completed id)) s) := by
  have hmemory := exec_edit worker env (.completed id) s.1
  have hself : (worker.exec env (.edit (.completed id)) s.1).2.memory.cachedReplies id = none := by
    rw [hmemory]
    simp [WorkerState.edit]
  have hothers : ∀ other, other ≠ id →
      (worker.exec env (.edit (.completed id)) s.1).2.memory.cachedReplies other =
        s.1.memory.cachedReplies other := by
    intro other hne
    rw [hmemory]
    simp [WorkerState.edit, hne]
  have hreplied : ∀ other,
      other ∈ (worker.exec env (.edit (.completed id)) s.1).2.memory.repliedIds ↔
        other ∈ s.1.memory.repliedIds ∧ other ≠ id := by
    intro other
    rw [hmemory]
    simp [WorkerState.edit]
  have hlimit : 0 < worker.config.processedMessageLimit := by
    have hvalid := worker.config.valid.2.2.2
    omega
  exact
    { cached := h.cached_snoc
        (fun other old hold hne => by
          have hother : other ≠ id := by
            rintro rfl
            exact hne rfl
          rw [hothers other hother]
          exact hold)
        (fun other new heq => by cases heq)
      made := by
        intro other stored hstored
        by_cases hsame : other = id
        · subst hsame
          rw [hself] at hstored
          cases hstored
        · rw [hothers other hsame] at hstored
          exact h.made other stored hstored
      replied := h.replied_snoc
        (fun other hid _ => ⟨hothers other ((hreplied other).mp hid).2, rfl⟩)
        (fun other hid hold => absurd ((hreplied other).mp hid).1 hold)
      retained := h.retained.completed hlimit hnew
      reads := h.reads_snoc fun message state heq => exec_read heq
      settled := h.settled_snoc
        (fun other hflight hid hne => by
          refine ⟨hflight, fun hold => hid ((hreplied other).mpr ⟨hold, ?_⟩)⟩
          rintro rfl
          exact hne rfl)
        (fun other hsend => by cases hsend)
      completions := h.completions_snoc fun other before reply between heq hlog hopen => by
        cases heq
        cases hguard with
        | inl hdelivered =>
          obtain ⟨hstored, hsub⟩ := h.cached id before reply between hlog hopen
          exact .inl ((hdelivered reply hstored).mono hsub)
        | inr hunaddressed => exact .inr hunaddressed
      repeats := h.repeats_snoc fun other before d between hsend => by cases hsend }

/-- The worker has taken the message up, and has not completed it since. -/
def Taken (message : RaftMessage) (s : RaftWorld × List RaftEntry) : Prop :=
  message.messageId ∉ s.1.memory.completedIds ∧ ∃ before state late,
    s.2 = before ++ did (.read .isCompleted message) state :: late ∧
    message.messageId ∉ state.completedIds ∧
    did (.edit (.completed message.messageId)) () ∉ late

/-- A reply is sent for a message that has been taken up and has no reply yet. -/
theorem Base.send (h : Base worker none s) {message : RaftMessage} (htaken : Taken message s)
    (hunreplied : message.messageId ∉ s.1.memory.repliedIds) {target content : String}
    (hok : env.send s.1.steps target content = .ok ()) :
    Base worker (some message.messageId)
      (after worker env (.sendMessage message.messageId target content) s) := by
  have hentry : did (.sendMessage message.messageId target content)
      (worker.exec env (.sendMessage message.messageId target content) s.1).1 =
        did (.sendMessage message.messageId target content) (.ok ()) :=
    congrArg (did (.sendMessage message.messageId target content)) hok
  exact
    { cached := h.cached_snoc (fun other old hold _ => hold) (fun other new heq => by cases heq)
      made := h.made
      replied := h.replied_snoc (fun other _ _ => ⟨rfl, rfl⟩)
        (fun other hid hold => absurd hid hold)
      retained := h.retained.other rfl
      reads := h.reads_snoc fun message state heq => exec_read heq
      settled := h.settled_snoc (fun other _ hid _ => ⟨by simp, hid⟩)
        (fun other hsend => by
          rw [hentry] at hsend
          obtain ⟨_, _, heq⟩ := sends_iff.mp hsend
          cases heq
          rfl)
      completions := h.completions_snoc fun other before old between heq => by cases heq
      repeats := h.repeats_snoc fun other before d between hsend hlog hd => by
        rw [hentry] at hsend
        obtain ⟨_, _, heq⟩ := sends_iff.mp hsend
        cases heq
        -- the earlier send was followed by a completion, which came before the message was taken
        have hcompleted : did (.edit (.completed message.messageId)) () ∈ s.2 := by
          rw [hlog]
          have hafter := h.settled _ (by simp) hunreplied before d between hlog hd
          exact List.mem_append_right before (List.mem_cons_of_mem d hafter)
        obtain ⟨-, early, state, late, hsplit, hstate, hlate⟩ := htaken
        refine ⟨early, message, state, late, hsplit, rfl, hstate, ?_⟩
        rw [hsplit, List.mem_append, List.mem_cons] at hcompleted
        cases hcompleted with
        | inl hearly => exact hearly
        | inr hrest =>
          cases hrest with
          | inl heq => cases heq
          | inr hlater => exact absurd hlater hlate }

theorem Base.send_failed (h : Base worker flight s) (id : String) {target content : String}
    {error : RaftError}
    (hfailed : env.send s.1.steps target content = .error error) :
    Base worker flight (after worker env (.sendMessage id target content) s) := by
  have hentry : did (.sendMessage id target content)
      (worker.exec env (.sendMessage id target content) s.1).1 =
        did (.sendMessage id target content) (.error error) :=
    congrArg (did (.sendMessage id target content)) hfailed
  have hsends : ∀ other, sends other (did (.sendMessage id target content)
      (worker.exec env (.sendMessage id target content) s.1).1) = false := by
    intro other
    rw [hentry]
    rfl
  exact
    { cached := h.cached_snoc (fun other old hold _ => hold) (fun other new heq => by cases heq)
      made := h.made
      replied := h.replied_snoc (fun other _ _ => ⟨rfl, rfl⟩)
        (fun other hid hold => absurd hid hold)
      retained := h.retained.other rfl
      reads := h.reads_snoc fun message state heq => exec_read heq
      settled := h.settled_snoc (fun other hflight hid _ => ⟨hflight, hid⟩)
        (fun other hsend => by
          rw [hsends] at hsend
          cases hsend)
      completions := h.completions_snoc fun other before old between heq => by cases heq
      repeats := h.repeats_snoc fun other before d between hsend => by
        rw [hsends] at hsend
        cases hsend }

end Operations

end Steps

/-! ## The programs -/

section Programs

variable {worker : RaftWorker} {env : RaftEnv} {s : RaftWorld × List RaftEntry}
variable {message : RaftMessage}

abbrev facts (worker : RaftWorker) (env : RaftEnv) :
    Observer RaftOp RaftOp.Ret (RaftWorld × List RaftEntry) :=
  Observer.recording (worker.exec env) fun s => ∃ flight, Base worker flight s

structure Keeps (s s' : RaftWorld × List RaftEntry) : Prop where
  cached : s'.1.memory.cachedReplies = s.1.memory.cachedReplies
  replied : s'.1.memory.repliedIds = s.1.memory.repliedIds
  completed : s'.1.memory.completedIds = s.1.memory.completedIds
  latest : ∀ id, ∀ e ∈ since (caches id) s.2, e ∈ since (caches id) s'.2
  taken : ∀ message, Taken message s → Taken message s'

theorem Keeps.refl (s : RaftWorld × List RaftEntry) : Keeps s s :=
  ⟨rfl, rfl, rfl, fun _ _ he => he, fun _ ht => ht⟩

theorem Keeps.trans {s s' s'' : RaftWorld × List RaftEntry} (h : Keeps s s') (h' : Keeps s' s'') :
    Keeps s s'' where
  cached := h'.cached.trans h.cached
  replied := h'.replied.trans h.replied
  completed := h'.completed.trans h.completed
  latest id e he := h'.latest id e (h.latest id e he)
  taken message ht := h'.taken message (h.taken message ht)

/-- A taken message stays taken under an entry that does not complete it. -/
theorem Taken.snoc (h : Taken message s) {w' : RaftWorld} {e : RaftEntry}
    (hcompleted : w'.memory.completedIds = s.1.memory.completedIds)
    (he : e ≠ did (.edit (.completed message.messageId)) ()) :
    Taken message (w', s.2 ++ [e]) := by
  obtain ⟨hnot, before, state, late, hlog, hstate, hlate⟩ := h
  refine ⟨by rw [hcompleted]; exact hnot, before, state, late ++ [e], by simp [hlog], hstate, ?_⟩
  intro hmem
  cases List.mem_append.mp hmem with
  | inl hold => exact hlate hold
  | inr hlast => exact he (List.mem_singleton.mp hlast).symm

theorem keeps_quiet {o : RaftOp} (ho : quiet o) (s : RaftWorld × List RaftEntry) :
    Keeps s (after worker env o s) := by
  obtain ⟨hcached, hreplied, hcompleted⟩ := exec_quiet worker env ho s.1
  refine ⟨hcached, hreplied, hcompleted, fun id e he => ?_, fun message ht => ht.snoc hcompleted ?_⟩
  · rw [since_snoc_not (quiet_caches ho _ id)]
    exact List.mem_cons_of_mem _ he
  · intro heq
    have hcompletion := quiet_isCompletion ho (worker.exec env o s.1).1
    rw [heq] at hcompletion
    cases hcompletion

theorem Base.allows (h : Base worker none s) {o : RaftOp} (ho : quiet o) :
    Allowed (facts worker env) s o fun r s' => Base worker none s' ∧ Keeps s s' ∧
      r = (worker.exec env o s.1).1 ∧ s'.2 = s.2 ++ [did o r] :=
  Allowed.recording ⟨none, h⟩ ⟨h.quietly ho, keeps_quiet ho s, rfl, rfl⟩

theorem Base.calm_meets {α : Type} {p : RaftProg α} (h : Base worker none s) (hp : p.Only calm) :
    p.Meets (facts worker env) (fun _ s' => Base worker none s' ∧ Keeps s s')
      (fun _ s' => Base worker none s') s := by
  induction p generalizing s with
  | ret a => exact ⟨h, Keeps.refl s⟩
  | raise e => exact h
  | call o k ih =>
    refine (h.allows (quiet_of_calm o hp.1)).call fun r s' hs' => ?_
    refine (ih r hs'.1 (hp.2 r)).weaken fun a s'' hs'' => ?_
    exact ⟨hs''.1, hs'.2.1.trans hs''.2⟩

namespace RaftWorker

/-! ### What is calm -/

theorem edit_calm {change : Edit} (h : calm (.edit change)) : (edit change).Only calm :=
  ⟨h, fun _ => trivial⟩

theorem save_calm : save.Only calm := by
  refine ⟨trivial, fun r => ?_⟩
  cases r with
  | ok u => trivial
  | error e => trivial

theorem startRun_calm (worker : RaftWorker) (message : RaftMessage) :
    (worker.startRun message).Only calm := by
  refine ⟨trivial, fun r => ?_⟩
  cases r with
  | ok result => trivial
  | error e => trivial

theorem resumeRun_calm (worker : RaftWorker) (message : RaftMessage) (waitingRun : String) :
    (worker.resumeRun message waitingRun).Only calm := by
  unfold resumeRun
  cases worker.lib.uuid waitingRun with
  | none => trivial
  | some runId =>
    refine ⟨trivial, fun r => ?_⟩
    cases r with
    | ok result => trivial
    | error e =>
      show (if e.gone then _ else _ : RaftProg (Option AgentResult)).Only calm
      split <;> trivial

theorem execute_calm (worker : RaftWorker) (message : RaftMessage) :
    (worker.execute message).Only calm := by
  refine ⟨trivial, fun state => ?_⟩
  dsimp only [Prog.bind]
  cases state.waitingRuns message.conversationKey with
  | none => exact startRun_calm worker message
  | some waitingRun =>
    refine (resumeRun_calm worker message waitingRun).bind fun resumed => ?_
    cases resumed with
    | some result => trivial
    | none =>
      refine (edit_calm (by trivial)).bind fun _ => (edit_calm (by trivial)).bind fun _ => ?_
      exact save_calm.bind fun _ => startRun_calm worker message

theorem keepWaiting_calm (message : RaftMessage) (result : AgentResult)
    (openTask : Option OpenTask) : (keepWaiting message result openTask).Only calm := by
  unfold keepWaiting
  split
  · cases result.runId with
    | none => trivial
    | some runId =>
      refine ⟨trivial, fun _ => ?_⟩
      cases openTask with
      | none => trivial
      | some task => exact edit_calm trivial
  · exact edit_calm trivial

end RaftWorker

/-! ### The parts of processing a message -/

open RaftWorker

/-- A claim that is refused leaves its trace at the end of the log. -/
theorem Base.claim (h : Base worker none s) :
    (worker.claim message).Meets (facts worker env)
      (fun claimed s' => Base worker none s' ∧ Keeps s s' ∧
        (claimed = false → Unaddressed worker message.messageId s'.2))
      (fun _ s' => Base worker none s') s := by
  unfold RaftWorker.claim
  cases message.taskNumber with
  | none => exact ⟨h, Keeps.refl s, by simp⟩
  | some number =>
    have hrecord : ∀ s', Base worker none s' → Keeps s s' →
        ((edit (.claimed message.messageId)).bind fun _ => save.bind fun _ =>
          (.ret true : RaftProg Bool)).Meets (facts worker env)
          (fun claimed s' => Base worker none s' ∧ Keeps s s' ∧
            (claimed = false → Unaddressed worker message.messageId s'.2))
          (fun _ s' => Base worker none s') s' := by
      intro s' hbase hkeeps
      refine (hbase.calm_meets (edit_calm (by trivial))).bind fun _ s₁ h₁ => ?_
      refine (h₁.1.calm_meets save_calm).bind fun _ s₂ h₂ => ?_
      exact ⟨h₂.1, hkeeps.trans (h₁.2.trans h₂.2), by simp⟩
    refine (h.allows (by trivial)).call fun state s₁ h₁ => ?_
    obtain ⟨hbase, hkeeps, -, -⟩ := h₁
    show (if _ then _ else _ : RaftProg Bool).Meets (facts worker env) _ _ s₁
    split
    · exact ⟨hbase, hkeeps, by simp⟩
    · split
      · exact hrecord s₁ hbase hkeeps
      · refine (hbase.allows (by trivial)).call fun r s₂ h₂ => ?_
        obtain ⟨hbase₂, hkeeps₂, -, hlog⟩ := h₂
        cases r with
        | ok u => exact hrecord s₂ hbase₂ (hkeeps.trans hkeeps₂)
        | error e =>
          show (if e.isCommand then _ else _ : RaftProg Bool).Meets (facts worker env) _ _ s₂
          split
          · rename_i hcommand
            exact ⟨hbase₂, hkeeps.trans hkeeps₂, fun _ => .inr ⟨_, _, _, e, hlog, hcommand⟩⟩
          · exact hbase₂

theorem Base.obtainReply (h : Base worker none s) (htaken : Taken message s) :
    (worker.obtainReply message).Meets (facts worker env)
      (fun cached s' => Base worker none s' ∧ Taken message s' ∧
        s'.1.memory.cachedReplies message.messageId = some cached)
      (fun _ s' => Base worker none s') s := by
  refine (h.allows (by trivial)).call fun state s₁ h₁ => ?_
  obtain ⟨hbase, hkeeps, hstate, -⟩ := h₁
  have hmemory : state.cachedReplies = s₁.1.memory.cachedReplies := by
    rw [hkeeps.cached, hstate]
    rfl
  dsimp only [Prog.bind]
  rw [hmemory]
  cases hcached : s₁.1.memory.cachedReplies message.messageId with
  | some cached => exact ⟨hbase, hkeeps.taken message htaken, hcached⟩
  | none =>
    refine (hbase.calm_meets (execute_calm worker message)).bind fun result s₂ h₂ => ?_
    refine (h₂.1.allows (by trivial)).call fun later s₃ h₃ => ?_
    refine (h₃.1.calm_meets (keepWaiting_calm message result _)).bind fun _ s₄ h₄ => ?_
    have hkeeps₄ : Keeps s₁ s₄ := h₂.2.trans (h₃.2.1.trans h₄.2)
    have hnone : s₄.1.memory.cachedReplies message.messageId = none := by
      rw [hkeeps₄.cached]
      exact hcached
    have htaken₄ := hkeeps₄.taken message (hkeeps.taken message htaken)
    have hmade : (worker.replyFor message result (taskForMessage message later)).moveTaskToReview =
        true → (worker.replyFor message result (taskForMessage message later)).taskTarget.isSome =
          true ∧ (worker.replyFor message result
            (taskForMessage message later)).taskNumber.isSome = true := by
      simp only [replyFor, Bool.and_eq_true, Option.isSome_map]
      exact fun hboth => ⟨hboth.2, hboth.2⟩
    refine (Allowed.recording (P := fun _ s' => Base worker none s' ∧ Taken message s' ∧
      s'.1.memory.cachedReplies message.messageId =
        some (worker.replyFor message result (taskForMessage message later))) ⟨none, h₄.1⟩
      ⟨h₄.1.cache hnone hmade, htaken₄.snoc rfl (fun heq => by cases heq), ?_⟩).call fun _ s₅ h₅ => ?_
    · rw [exec_edit]
      simp [WorkerState.edit]
    · refine (h₅.1.calm_meets save_calm).bind fun _ s₆ h₆ => ?_
      exact ⟨h₆.1, h₆.2.taken message h₅.2.1, by rw [h₆.2.cached]; exact h₅.2.2⟩

/-- The worker holds the reply of the journal, and has sent it. -/
structure Replied (worker : RaftWorker) (message : RaftMessage) (cached : CachedReply)
    (s : RaftWorld × List RaftEntry) : Prop where
  base : Base worker none s
  taken : Taken message s
  stored : s.1.memory.cachedReplies message.messageId = some cached
  sent : Sent message.messageId cached (since (caches message.messageId) s.2)

theorem Replied.keep {cached : CachedReply} {s' : RaftWorld × List RaftEntry}
    (h : Replied worker message cached s) (hbase : Base worker none s') (hkeeps : Keeps s s') :
    Replied worker message cached s' where
  base := hbase
  taken := hkeeps.taken message h.taken
  stored := by
    rw [hkeeps.cached]
    exact h.stored
  sent := hkeeps.latest _ _ h.sent

theorem Base.sendReply (h : Base worker none s) (htaken : Taken message s) {cached : CachedReply}
    (hcached : s.1.memory.cachedReplies message.messageId = some cached) :
    (sendReply message cached).Meets (facts worker env) (fun _ s' => Replied worker message cached s')
      (fun _ s' => Base worker none s') s := by
  refine (h.allows (by trivial)).call fun state s₁ h₁ => ?_
  obtain ⟨hbase, hkeeps, hstate, -⟩ := h₁
  have hmemory : state.repliedIds = s₁.1.memory.repliedIds := by
    rw [hkeeps.replied, hstate]
    rfl
  have htaken₁ := hkeeps.taken message htaken
  have hcached₁ : s₁.1.memory.cachedReplies message.messageId = some cached := by
    rw [hkeeps.cached]
    exact hcached
  show (if message.messageId ∈ state.repliedIds then _ else _ : RaftProg Unit).Meets _ _ _ s₁
  rw [hmemory]
  by_cases hreplied : message.messageId ∈ s₁.1.memory.repliedIds
  · rw [if_pos hreplied]
    obtain ⟨reply, hreply, hsent⟩ := hbase.replied _ hreplied
    rw [hcached₁] at hreply
    cases hreply
    exact ⟨hbase, htaken₁, hcached₁, hsent⟩
  · rw [if_neg hreplied]
    refine ⟨⟨none, hbase⟩, fun r hr => ?_⟩
    cases r with
    | error e => exact hbase.send_failed message.messageId (Eq.symm hr)
    | ok u =>
      have hok : env.send s₁.1.steps cached.target cached.content = .ok () := Eq.symm hr
      have hflight := hbase.send htaken₁ hreplied hok
      have hsent : Sent message.messageId cached (since (caches message.messageId)
          (after worker env (.sendMessage message.messageId cached.target cached.content) s₁).2) := by
        have hentry : did (.sendMessage message.messageId cached.target cached.content)
            (worker.exec env (.sendMessage message.messageId cached.target cached.content) s₁.1).1 =
              did (.sendMessage message.messageId cached.target cached.content) (.ok ()) :=
          congrArg (did (.sendMessage message.messageId cached.target cached.content)) hok
        rw [since_snoc_not rfl, hentry]
        exact List.mem_cons_self
      have htaken₂ : Taken message
          (after worker env (.sendMessage message.messageId cached.target cached.content) s₁) :=
        htaken₁.snoc rfl fun heq => by cases heq
      refine (Allowed.recording (P := fun _ s' => Replied worker message cached s') ⟨_, hflight⟩
        ⟨hflight.reply hcached₁ hsent, htaken₂.snoc rfl (fun heq => by cases heq), hcached₁,
          ?_⟩).call fun _ s₃ h₃ => ?_
      · rw [since_snoc_not rfl]
        exact List.mem_cons_of_mem _ hsent
      · exact (h₃.base.calm_meets save_calm).weaken fun _ s₄ h₄ => h₃.keep h₄.1 h₄.2

theorem Replied.moveTask {cached : CachedReply} (h : Replied worker message cached s) :
    (moveTask message cached).Meets (facts worker env)
      (fun _ s' => Base worker none s' ∧ Taken message s' ∧
        s'.1.memory.cachedReplies message.messageId = some cached ∧
        Delivered message.messageId cached (since (caches message.messageId) s'.2))
      (fun _ s' => Base worker none s') s := by
  have hmade := h.base.made _ cached h.stored
  unfold RaftWorker.moveTask
  split
  · rename_i target number hmove htarget hnumber
    refine (h.base.allows (by trivial)).call fun r s₁ h₁ => ?_
    obtain ⟨hbase, hkeeps, -, hlog⟩ := h₁
    cases r with
    | error e => exact hbase
    | ok u =>
      have hmoved : Moved message.messageId cached (since (caches message.messageId) s₁.2) := by
        refine ⟨target, number, htarget, hnumber, ?_⟩
        rw [hlog, since_snoc_not rfl]
        exact List.mem_cons_self
      have hcalm : ((edit (.closed message.conversationKey)).bind fun _ =>
          (edit (.resumed message.conversationKey)).bind fun _ => save).Only calm :=
        (edit_calm (by trivial)).bind fun _ => (edit_calm (by trivial)).bind fun _ => save_calm
      refine (hbase.calm_meets hcalm).weaken fun _ s₂ h₂ => ?_
      have hreplied := h.keep h₂.1 (hkeeps.trans h₂.2)
      refine ⟨h₂.1, hreplied.taken, hreplied.stored, hreplied.sent, fun _ => ?_⟩
      obtain ⟨t, n, ht, hn, hmem⟩ := hmoved
      exact ⟨t, n, ht, hn, h₂.2.latest _ _ hmem⟩
  · rename_i hother
    refine ⟨h.base, h.taken, h.stored, h.sent, fun hmove => ?_⟩
    obtain ⟨htarget, hnumber⟩ := hmade hmove
    obtain ⟨target, htarget⟩ := Option.isSome_iff_exists.mp htarget
    obtain ⟨number, hnumber⟩ := Option.isSome_iff_exists.mp hnumber
    exact absurd hnumber (hother target number hmove htarget)

theorem Base.markCompleted (h : Base worker none s) {id : String}
    (hnew : id ∉ s.1.memory.completedIds)
    (hguard : (∀ reply, s.1.memory.cachedReplies id = some reply →
      Delivered id reply (since (caches id) s.2)) ∨ Unaddressed worker id s.2) :
    (markCompleted id).Meets (facts worker env) (fun _ s' => Base worker none s')
      (fun _ s' => Base worker none s') s := by
  refine (Allowed.recording (P := fun _ s' => Base worker none s') ⟨none, h⟩
    (h.complete hnew hguard)).call fun _ s₁ h₁ => ?_
  exact (h₁.calm_meets save_calm).weaken fun _ s₂ h₂ => h₂.1

theorem Base.processMessage (h : Base worker none s) (htaken : Taken message s) :
    (worker.processMessage message).Meets (facts worker env) (fun _ s' => Base worker none s')
      (fun _ s' => Base worker none s') s := by
  refine (h.allows (by trivial)).call fun state s₁ h₁ => ?_
  obtain ⟨hbase, hkeeps, hstate, hlog⟩ := h₁
  have htaken₁ := hkeeps.taken message htaken
  show (if worker.shouldHandle message state then _ else _ : RaftProg Bool).Meets _ _ _ s₁
  by_cases hhandle : worker.shouldHandle message state = true
  · rw [if_pos hhandle]
    refine (hbase.claim).bind fun claimed s₂ h₂ => ?_
    obtain ⟨hbase₂, hkeeps₂, hrefused⟩ := h₂
    have htaken₂ := hkeeps₂.taken message htaken₁
    cases claimed with
    | false =>
      exact (hbase₂.markCompleted htaken₂.1 (.inr (hrefused rfl))).bind fun _ s₃ h₃ => h₃
    | true =>
      refine (hbase₂.obtainReply htaken₂).bind fun cached s₃ h₃ => ?_
      refine (h₃.1.sendReply h₃.2.1 h₃.2.2).bind fun _ s₄ h₄ => ?_
      refine h₄.moveTask.bind fun _ s₅ h₅ => ?_
      obtain ⟨hbase₅, htaken₅, hstored, hdelivered⟩ := h₅
      refine (hbase₅.markCompleted htaken₅.1 (.inl fun reply hreply => ?_)).bind fun _ s₆ h₆ => h₆
      rw [hstored] at hreply
      cases hreply
      exact hdelivered
  · rw [if_neg hhandle]
    refine (hbase.markCompleted htaken₁.1 (.inr (.inl ?_))).bind fun _ s₂ h₂ => h₂
    exact ⟨s.2, message, state, hlog, rfl, by simpa using hhandle⟩

theorem Base.processMessages (h : Base worker none s) (messages : List RaftMessage)
    (handled skipped : Nat) :
    (worker.processMessages handled skipped messages).Meets (facts worker env)
      (fun _ s' => Base worker none s') (fun _ s' => Base worker none s') s := by
  induction messages generalizing s handled skipped with
  | nil => exact h
  | cons message rest ih =>
    refine (h.allows (by trivial)).call fun state s₁ h₁ => ?_
    obtain ⟨hbase, hkeeps, hstate, hlog⟩ := h₁
    have hmemory : state.completedIds = s₁.1.memory.completedIds := by
      rw [hkeeps.completed, hstate]
      rfl
    show (if message.messageId ∈ state.completedIds then _ else _ : RaftProg (Nat × Nat)).Meets
      _ _ _ s₁
    by_cases hcompleted : message.messageId ∈ state.completedIds
    · rw [if_pos hcompleted]
      exact ih hbase handled (skipped + 1)
    · rw [if_neg hcompleted]
      have htaken : Taken message s₁ :=
        ⟨by rw [← hmemory]; exact hcompleted, s.2, state, [], hlog, hcompleted, List.not_mem_nil⟩
      refine (hbase.processMessage htaken).bind fun processed s₂ h₂ => ?_
      cases processed with
      | true => exact ih h₂ (handled + 1) skipped
      | false => exact ih h₂ handled (skipped + 1)

theorem Base.drain (h : Base worker none s) (messages : List RaftMessage) :
    (worker.drain messages).Meets (facts worker env) (fun _ s' => Base worker none s')
      (fun _ s' => Base worker none s') s := by
  refine (h.processMessages messages 0 0).bind fun counts s₁ h₁ => ?_
  refine (h₁.allows (by trivial)).call fun r s₂ h₂ => ?_
  cases r with
  | ok u => exact h₂.1
  | error e => exact h₂.1

theorem Base.runOnce (h : Base worker none s) :
    worker.runOnce.Meets (facts worker env) (fun _ s' => Base worker none s')
      (fun _ s' => Base worker none s') s := by
  refine (h.allows (by trivial)).call fun r s₁ h₁ => ?_
  obtain ⟨hbase, -, -, -⟩ := h₁
  cases r with
  | error e => exact hbase
  | ok spool =>
    cases spool with
    | some raw =>
      show ((Prog.ofExcept (parseRaftMessages worker.lib raw)).bind _).Meets _ _ _ s₁
      cases parseRaftMessages worker.lib raw with
      | error e => exact hbase
      | ok messages => exact hbase.drain messages
    | none =>
      refine (hbase.allows (by trivial)).call fun checked s₂ h₂ => ?_
      cases checked with
      | error e => exact h₂.1
      | ok raw =>
        show ((((Prog.ofExcept (parseRaftMessages worker.lib raw)).bind _).bind _)).Meets _ _ _ s₂
        cases parseRaftMessages worker.lib raw with
        | error e => exact h₂.1
        | ok messages =>
          show (if messages.isEmpty then _ else _ : RaftProg RaftDrainResult).Meets _ _ _ s₂
          split
          · exact h₂.1
          · refine (h₂.1.allows (by trivial)).call fun written s₃ h₃ => ?_
            cases written with
            | error e => exact h₃.1
            | ok u => exact h₃.1.drain messages

theorem Base.serve (h : Base worker none s) (calls : Nat) :
    (worker.serve calls).Meets (facts worker env) (fun _ s' => Base worker none s')
      (fun _ s' => Base worker none s') s := by
  induction calls generalizing s with
  | zero => exact h
  | succ n ih =>
    refine h.runOnce.attempt.bind fun outcome s' hs' => ih ?_
    cases outcome with
    | ok result => exact hs'
    | error e => exact hs'

theorem base_start (worker : RaftWorker) : Base worker none ({}, []) where
  cached id before reply between hlog := by simp at hlog
  made id reply hreply := by cases hreply
  replied id hid := by cases hid
  retained id hmarked := by
    obtain ⟨e, he, -⟩ := hmarked
    cases he
  reads before message state after hlog := by simp at hlog
  settled id _ _ before e after hlog := by simp at hlog
  completions id before reply between after hlog := by simp at hlog
  repeats id before e between e' after hlog := by simp at hlog

theorem worker_base (worker : RaftWorker) (env : RaftEnv) (calls : Nat) (schedule : List Unit) :
    ∃ flight, Base worker flight (((worker.pool calls).run (worker.exec env) schedule).shared,
      ((worker.pool calls).run (worker.exec env) schedule).log) := by
  have hmeets : (worker.serve calls).Meets (facts worker env)
      (fun _ s => ∃ flight, Base worker flight s) (fun _ s => ∃ flight, Base worker flight s)
      ({}, []) :=
    ((base_start worker).serve calls).mono (fun _ _ h => ⟨none, h⟩) fun _ _ h => ⟨none, h⟩
  exact Meets.reached (c := worker.pool calls) hmeets schedule

end Programs

end Raft
end BaseAgent

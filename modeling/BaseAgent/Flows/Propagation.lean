import BaseAgent.Flows.Cancellation

/-!
# Which invocation is told to stop

`cancel` reads the Flow Run twice: its own read decides which invocation it will tell, and
the read of the lifecycle operation decides which invocation its commit ends.  Another
coordinator can settle one invocation and begin the next between the two.
-/

namespace BaseAgent
namespace Flows

open Async

section Reads

variable {ι : Type}

theorem exec_states (env : FlowEnv) (o : FlowOp) (w : FlowWorld) :
    (env.exec o w).2.repo.states = w.repo.states ∨
    ∃ s, (env.exec o w).2.repo.states = Function.update w.repo.states s.runId (some s) ∧
      ∀ old, w.repo.states s.runId = some old → old.revision < s.revision := by
  have hquiet : ∀ o, Quiet (.call o fun _ => (.ret () : FlowProg Unit)) →
      (env.exec o w).2.repo.states = w.repo.states := fun o h => Quiet.states h w
  cases o with
  | create state drafts =>
    rcases w.repo.create_cases state drafts with ⟨e, h⟩ | ⟨-, -, hnone, h⟩
    · exact .inl (by simp [FlowEnv.exec, FlowEnv.reply, h])
    · refine .inr ⟨state, by simp [FlowEnv.exec, FlowEnv.reply, h], ?_⟩
      intro old hold
      rw [hnone] at hold
      cases hold
  | commit state expected drafts token =>
    rcases w.repo.commit_cases (env.repositoryClock w.steps) state expected drafts token with
      ⟨e, h⟩ | ⟨current, hcurrent, -, -, hvalid, h⟩
    · exact .inl (by simp [FlowEnv.exec, FlowEnv.reply, h])
    · obtain ⟨hold, -, hnew, -⟩ := InMemoryFlowRepository.validateFlowReplacement_ok hvalid
      refine .inr ⟨state, ?_, ?_⟩
      · simp [FlowEnv.exec, FlowEnv.reply, h, InMemoryFlowRepository.write]
      · intro old hstored
        rw [hcurrent] at hstored
        cases hstored
        omega
  | _ => exact .inl (hquiet _ fun _ => trivial)

theorem Remembered.exec {env : FlowEnv} {w : FlowWorld} {read : FlowRunState}
    (h : Remembered w.repo read) (o : FlowOp) : Remembered (env.exec o w).2.repo read := by
  obtain ⟨stored, hstored, hle, heq⟩ := h
  unfold Remembered
  rcases exec_states env o w with hsame | ⟨s, hs, hnewer⟩
  · rw [hsame]
    exact ⟨stored, hstored, hle, heq⟩
  · rw [hs]
    by_cases hrun : read.runId = s.runId
    · rw [hrun, Function.update_self]
      have hlt := hnewer stored (hrun ▸ hstored)
      exact ⟨s, rfl, by omega, fun hrev => by omega⟩
    · rw [Function.update_of_ne hrun]
      exact ⟨stored, hstored, hle, heq⟩

def readSnapshot : FlowEntry ι → Option (UUID × FlowRunState)
  | ⟨_, .get _ runId, .ok read⟩ => some (runId, read)
  | _ => none

/-- Snapshots are stored under their own identifier, and every snapshot that was read is
remembered. -/
def ReadsRemembered (w : FlowWorld) (log : List (FlowEntry ι)) : Prop :=
  (∀ runId s, w.repo.states runId = some s → s.runId = runId) ∧
    ∀ e ∈ log, ∀ runId read, readSnapshot e = some (runId, read) →
      read.runId = runId ∧ Remembered w.repo read

theorem ReadsRemembered.exec {env : FlowEnv} {w : FlowWorld} {log : List (FlowEntry ι)}
    (h : ReadsRemembered w log) (i : ι) (o : FlowOp) :
    ReadsRemembered (env.exec o w).2 (log ++ [⟨i, o, (env.exec o w).1⟩]) := by
  obtain ⟨hkeyed, hreads⟩ := h
  constructor
  · intro runId s hs
    rcases exec_states env o w with hsame | ⟨new, hnew, -⟩
    · rw [hsame] at hs
      exact hkeyed runId s hs
    · rw [hnew] at hs
      by_cases hrun : runId = new.runId
      · rw [hrun, Function.update_self] at hs
        cases hs
        exact hrun.symm
      · rw [Function.update_of_ne hrun] at hs
        exact hkeyed runId s hs
  · intro e he runId read hread
    cases List.mem_append.mp he with
    | inl hold =>
      obtain ⟨hrun, hremembered⟩ := hreads e hold runId read hread
      exact ⟨hrun, hremembered.exec o⟩
    | inr hnow =>
      rw [List.mem_singleton.mp hnow] at hread
      have hnew : read.runId = runId ∧ Remembered w.repo read := by
        cases o with
        | get reader id =>
          rcases w.repo.get_cases id with ⟨-, hget⟩ | ⟨current, hcurrent, hget⟩
          · simp [readSnapshot, FlowEnv.exec, FlowEnv.reply, hget] at hread
          · simp only [readSnapshot, FlowEnv.exec, FlowEnv.reply, hget, Option.some.injEq,
              Prod.mk.injEq] at hread
            obtain ⟨rfl, rfl⟩ := hread
            have hid := hkeyed id current hcurrent
            refine ⟨hid, current, by rw [hid]; exact hcurrent, Nat.le_refl _, fun _ => rfl⟩
        | _ => simp [readSnapshot] at hread
      exact ⟨hnew.1, hnew.2.exec o⟩

theorem flowPool_reads [DecidableEq ι] (env : FlowEnv) (strategy : ι → SequentialFlowStrategy)
    (calls : ι → FlowCall) (schedule : List ι) :
    ReadsRemembered ((flowPool strategy calls).run env.exec schedule).shared
      ((flowPool strategy calls).run env.exec schedule).log := by
  refine Pool.run_invariant env.exec (fun w log i o h => h.exec i o) ?_ schedule
  exact ⟨fun _ _ h => (by cases h), fun _ h => (by cases h)⟩

end Reads

/-! ## The canceller's path -/

section Canceller

variable {ι : Type} {st : SequentialFlowStrategy} {runId : UUID} {reason : String}

def toldInvocation : FlowEntry ι → Option UUID
  | ⟨_, .cancel request, _⟩ => some request.invocationId
  | _ => none

/-- The invocations that a program will tell to stop, whatever is replied. -/
def Tells {α : Type} : List UUID → FlowProg α → Prop
  | ids, .call (.cancel request) k =>
    ∃ rest, ids = request.invocationId :: rest ∧ ∀ r, Tells rest (k r)
  | ids, .call _ k => ∀ r, Tells ids (k r)
  | ids, _ => ids = []

theorem Tells.bind {α β : Type} {ids : List UUID} {p : FlowProg α} {f : α → FlowProg β}
    (hp : Tells ids p) (hf : ∀ a, Tells [] (f a)) : Tells ids (p.bind f) := by
  induction p generalizing ids with
  | ret a =>
    cases hp
    exact hf a
  | raise e => exact hp
  | call o k ih =>
    cases o with
    | cancel request =>
      obtain ⟨rest, hids, hk⟩ := hp
      exact ⟨rest, hids, fun r => ih r (hk r)⟩
    | _ => exact fun r => ih r (hp r)

theorem Tells.ofExcept {α : Type} (x : Except FlowError α) : Tells [] (Prog.ofExcept x) := by
  cases x <;> rfl

theorem Tells.record (lc : FlowLifecycle) (runId : UUID) (invocation : AgentInvocation)
    (errorType : String) :
    Tells [] (lc.recordCancellationPropagationFailure runId invocation errorType) := by
  intro r
  refine (Tells.ofExcept r).bind fun current => (Tells.ofExcept _).bind fun token => ?_
  exact fun r => (Tells.ofExcept r).bind fun _ => rfl

/-- The invocation a canceller tells: the one its own read found active, if the invoker can be
told at all. -/
def toldBy (st : SequentialFlowStrategy) (current : FlowRunState) : Option UUID :=
  if st.cancellable then current.activeInvocation.map (·.id) else none

theorem Tells.propagateIf (st : SequentialFlowStrategy) (current : FlowRunState)
    (reason : String) :
    Tells (toldBy st current).toList
      (st.propagateIf current.activeInvocation (fun _ => true) reason) := by
  unfold SequentialFlowStrategy.propagateIf SequentialFlowStrategy.propagateCancellation toldBy
  cases current.activeInvocation with
  | none => cases st.cancellable <;> rfl
  | some active =>
    simp only [if_true]
    cases st.cancellable with
    | false => exact Tells.record _ _ _ _
    | true =>
      refine ⟨[], rfl, fun r => ?_⟩
      dsimp only
      split
      · rfl
      · rfl
      · exact Tells.record _ _ _ _

theorem Tells.told {α : Type} {ids : List UUID} {p q : FlowProg α} {entries : List (FlowEntry ι)}
    (h : Tells ids p) (hfollows : Follows p entries q) (hdone : q.done = true) :
    entries.filterMap toldInvocation = ids := by
  induction hfollows generalizing ids with
  | nil p =>
    cases p with
    | ret a => exact h.symm
    | raise e => exact h.symm
    | call o k => cases hdone
  | @cons i o r k entries q hfollows ih =>
    cases o with
    | cancel request =>
      obtain ⟨rest, rfl, hk⟩ := h
      have hrest := ih (hk r) hdone
      simp [toldInvocation, hrest]
    | _ => exact ih (h r) hdone

theorem Quiet.not_commit {α : Type} {p : FlowProg α} (hp : Quiet p)
    {entries : List (FlowEntry ι)} {s : FlowRunState} {expected : Nat}
    {drafts : List FlowEventDraft} {token : Option UUID}
    {k : (FlowOp.commit s expected drafts token).Ret → FlowProg α} :
    ¬ Follows p entries (.call (.commit s expected drafts token) k) := fun h =>
  (h.keeps (P := fun p => Quiet p) (fun _ _ hq r => hq.step r) hp : Quiet _)

theorem terminate_commits (lc : FlowLifecycle) {f : FlowRunState → FlowProg FlowResult}
    (hf : ∀ s, Quiet (f s)) {entries : List (FlowEntry ι)} {s : FlowRunState} {expected : Nat}
    {drafts : List FlowEventDraft} {token : Option UUID}
    {k : (FlowOp.commit s expected drafts token).Ret → FlowProg FlowResult}
    (h : Follows ((lc.cancel runId reason).bind f) entries
      (.call (.commit s expected drafts token) k)) :
    ∃ i old, entries = [⟨i, .get .terminate runId, .ok old⟩] ∧ expected = old.revision ∧
      old.terminate .cancelled reason = .ok s ∧ ∀ events, k (.ok events) = f s := by
  cases h with
  | @cons i _ read _ entries _ h =>
    cases read with
    | error e => cases h
    | ok old =>
      simp only [Prog.bind_eq, Prog.ofExcept_ok, Prog.ret_bind] at h
      cases ht : terminateTransition runId .cancel reason [] old with
      | error e =>
        rw [ht] at h
        cases h
      | ok t =>
        rw [ht] at h
        simp only [Prog.ofExcept_ok, Prog.ret_bind] at h
        obtain ⟨state, hstate, hrest⟩ := Except.bind_ok.mp ht
        obtain ⟨_, -, hrest⟩ := Except.bind_ok.mp hrest
        cases hrest
        cases htoken : lc.executionTokenFor runId with
        | error e =>
          simp only [htoken] at h
          cases h
        | ok presented =>
          simp only [htoken, Prog.ofExcept_ok, Prog.ret_bind] at h
          cases h with
          | nil => exact ⟨i, old, rfl, rfl, hstate, fun _ => rfl⟩
          | @cons _ _ reply _ _ _ h =>
            refine absurd h (Quiet.not_commit ?_)
            refine Quiet.bind ?_ hf
            exact (Quiet.ofExcept reply).bind fun _ => trivial

/-- When `cancel` comes to its commit, it has made its two reads: the first decides whom it will
tell, the second what it commits. -/
theorem cancel_commits {entries : List (FlowEntry ι)} {s : FlowRunState} {expected : Nat}
    {drafts : List FlowEventDraft} {token : Option UUID}
    {k : (FlowOp.commit s expected drafts token).Ret → FlowProg FlowResult}
    (h : Follows (st.cancel runId reason) entries (.call (.commit s expected drafts token) k)) :
    ∃ i j current old,
      entries = [⟨i, .get .cancel runId, .ok current⟩, ⟨j, .get .terminate runId, .ok old⟩] ∧
      expected = old.revision ∧ old.terminate .cancelled reason = .ok s ∧
      ∀ events, k (.ok events) =
        (st.propagateIf current.activeInvocation (fun _ => true) reason).bind fun _ =>
          Prog.ofExcept (flowResult s) := by
  unfold SequentialFlowStrategy.cancel at h
  cases hblank : raiseIf (isBlank reason = true)
      (FlowError.value "Flow cancellation reason must not be blank") with
  | error e =>
    rw [hblank] at h
    cases h
  | ok u =>
    cases hlong : raiseIf (reason.length > 1000)
        (FlowError.value "Flow cancellation reason must not exceed 1000 characters") with
    | error e =>
      rw [hblank, hlong] at h
      cases h
    | ok v =>
      rw [hblank, hlong] at h
      cases h with
      | @cons i _ read _ entries _ h =>
        cases read with
        | error e => cases h
        | ok current =>
          simp only [Prog.bind_eq, Prog.ofExcept_ok, Prog.ret_bind] at h
          split at h
          · exact absurd h (Quiet.not_commit (Quiet.ofExcept _))
          · split at h
            · cases h
            · have hquiet : ∀ cancelled, Quiet
                  ((st.propagateIf current.activeInvocation (fun _ => true) reason).bind fun _ =>
                    Prog.ofExcept (flowResult cancelled)) := fun cancelled =>
                (Quiet.propagateIf st _ _ _).bind fun _ => Quiet.ofExcept _
              obtain ⟨j, old, rfl, hexpected, hterminate, hk⟩ :=
                terminate_commits st.lifecycle hquiet h
              exact ⟨i, j, current, old, rfl, hexpected, hterminate, hk⟩

end Canceller

/-! ## What the commit ends -/

/-- The replacement moves a record of the invocation to `CANCELLED`. -/
def Moved (old new : FlowRunState) (id : UUID) : Prop :=
  ∃ (n : Nat) (before after : AgentInvocation), old.invocations[n]? = some before ∧
    new.invocations[n]? = some after ∧ after.id = id ∧ before.status ≠ .cancelled ∧
    after.status = .cancelled

theorem not_moved_same {old new : FlowRunState} (h : new.invocations = old.invocations)
    (id : UUID) : ¬ Moved old new id := by
  intro hmoved
  obtain ⟨n, before, after, hbefore, hafter, -, hstatus, hcancelled⟩ := hmoved
  rw [h, hbefore] at hafter
  cases hafter
  exact hstatus hcancelled

/-- A cancellation moves the active invocation and no other. -/
theorem moved_iff {old s : FlowRunState} {reason : String}
    (h : old.terminate .cancelled reason = .ok s) (id : UUID) :
    Moved old s id ↔ old.activeInvocation.map (·.id) = some id := by
  obtain ⟨-, -, invocations, hinvocations, rfl⟩ := FlowRunState.terminate_ok h
  unfold FlowRunState.terminateActive at hinvocations
  cases hactive : old.activeInvocation with
  | none =>
    rw [hactive] at hinvocations
    cases hinvocations
    constructor
    · intro hmoved
      exact absurd hmoved (not_moved_same rfl id)
    · intro hnone
      cases hnone
  | some active =>
    rw [hactive] at hinvocations
    obtain ⟨terminated, hterminated, hreplace⟩ := Except.bind_ok.mp hinvocations
    cases hreplace
    obtain ⟨hopen, hid, hstatus⟩ := AgentInvocation.terminate_ok hterminated
    simp only [Option.map_some, Option.some.injEq]
    constructor
    · intro hmoved
      obtain ⟨n, before, after, hbefore, hafter, hafterId, hnot, hcancelled⟩ := hmoved
      have hget : after = if before.id = terminated.id then terminated else before := by
        simpa [FlowRunState.replaceInvocation, hbefore, eq_comm] using hafter
      by_cases hsame : before.id = terminated.id
      · rw [if_pos hsame] at hget
        rw [← hid, ← hget, hafterId]
      · rw [if_neg hsame] at hget
        rw [hget] at hcancelled
        exact absurd hcancelled hnot
    · intro hactiveId
      obtain ⟨-, hmem⟩ := FlowRunState.activeInvocation_id hactive
      obtain ⟨n, hn⟩ := List.mem_iff_getElem?.mp hmem
      refine ⟨n, active, terminated, hn, ?_, by rw [hid, hactiveId], ?_, hstatus⟩
      · simp [FlowRunState.replaceInvocation, hn, hid]
      · intro hcancelled
        rw [hcancelled] at hopen
        cases hopen

theorem toList_mem_iff (a b : Option UUID) :
    (a.toList.length ≤ 1 ∧ ∀ id, id ∈ a.toList ↔ b = some id) ↔ a = b := by
  cases a with
  | none => cases b <;> simp
  | some x =>
    cases b with
    | none => simp
    | some y =>
      simp only [Option.toList_some, List.length_singleton, Nat.le_refl, List.mem_singleton,
        Option.some.injEq, true_and]
      exact ⟨fun h => (h x).mp rfl |>.symm, fun h id => ⟨fun hid => by rw [hid, h], fun hid => by
        rw [h, hid]⟩⟩

section Theorem

variable {ι : Type}

def acceptedSnapshot : List (FlowEntry ι) → Option FlowRunState
  | [⟨_, .commit s _ _ _, .ok _⟩] => some s
  | _ => none

/-- The next step of task `i` is its commit of `s`, and the commit is accepted. -/
def CommitsNext (env : FlowEnv) (c : Pool ι FlowOp FlowOp.Ret FlowError FlowResult FlowWorld)
    (i : ι) (s : FlowRunState) : Prop :=
  acceptedSnapshot (c.entry env.exec i) = some s

theorem CommitsNext.call {env : FlowEnv}
    {c : Pool ι FlowOp FlowOp.Ret FlowError FlowResult FlowWorld} {i : ι} {s : FlowRunState}
    (h : CommitsNext env c i s) :
    ∃ expected drafts token k events, c.tasks i = .call (.commit s expected drafts token) k ∧
      (env.exec (.commit s expected drafts token) c.shared).1 = .ok events := by
  unfold CommitsNext Pool.entry at h
  cases htask : c.tasks i with
  | ret a => simp [htask, acceptedSnapshot] at h
  | raise e => simp [htask, acceptedSnapshot] at h
  | call o k =>
    rw [htask] at h
    cases o with
    | commit state expected drafts token =>
      cases hreply : (env.exec (.commit state expected drafts token) c.shared).1 with
      | error e =>
        simp only [hreply] at h
        cases h
      | ok events =>
        simp only [hreply] at h
        cases h
        exact ⟨expected, drafts, token, k, events, rfl, hreply⟩
    | _ => simp [acceptedSnapshot] at h

variable [DecidableEq ι]

def told (i : ι) (log : List (FlowEntry ι)) : List UUID := (ofTask i log).filterMap toldInvocation

/-- Exactly the invocation that the commit of `s` over `old` moved to `CANCELLED` was told, and
none if it moved none. -/
def ToldMoved (ids : List UUID) (old s : FlowRunState) : Prop :=
  ids.length ≤ 1 ∧ ∀ id, id ∈ ids ↔ Moved old s id

/-- For every interleaving of any calls on the repository: when the commit of a cancellation is
accepted and the call has ended, the invocation it ended is the one that was told exactly when
it was already active at the opening read. -/
theorem cancellation_reaches_invocation (env : FlowEnv) (strategy : ι → SequentialFlowStrategy)
    (calls : ι → FlowCall) (i : ι) (runId : UUID) (reason : String)
    (hcall : calls i = .cancel runId reason) (before after : List ι) (s : FlowRunState)
    (hcommit : CommitsNext env ((flowPool strategy calls).run env.exec before) i s)
    (hdone : (((flowPool strategy calls).run env.exec (before ++ i :: after)).tasks i).done = true) :
    ∃ current old,
      ⟨i, .get .cancel runId, .ok current⟩ ∈ ((flowPool strategy calls).run env.exec before).log ∧
      ((flowPool strategy calls).run env.exec before).shared.repo.states s.runId = some old ∧
      (ToldMoved (told i ((flowPool strategy calls).run env.exec (before ++ i :: after)).log) old s ↔
        toldBy (strategy i) current = old.activeInvocation.map (·.id)) := by
  generalize hc : (flowPool strategy calls).run env.exec before = c at *
  obtain ⟨expected, drafts, token, k, events, htask, hreply⟩ := hcommit.call
  have hlog : c.log = (flowPool strategy calls).trace env.exec before := by
    rw [← hc, Pool.run_log]
    rfl
  have hpath : Follows ((strategy i).cancel runId reason) (ofTask i c.log)
      (.call (.commit s expected drafts token) k) := by
    have hfollows := Pool.run_follows env.exec (flowPool strategy calls) i before
    rw [hc, htask, ← hlog] at hfollows
    simpa [flowPool, hcall, FlowCall.prog] using hfollows
  obtain ⟨i₁, i₂, current, old, hentries, hexpected, hterminate, hk⟩ := cancel_commits hpath
  have hmem : ∀ e ∈ ofTask i c.log, e ∈ c.log ∧ e.task = i := by
    intro e he
    simpa [ofTask] using List.mem_filter.mp he
  have hfirst := hmem ⟨i₁, .get .cancel runId, .ok current⟩ (by simp [hentries])
  have hsecond := hmem ⟨i₂, .get .terminate runId, .ok old⟩ (by simp [hentries])
  obtain rfl : i₁ = i := hfirst.2
  -- the snapshot that was read last is still the stored one
  have hstored : c.shared.repo.states s.runId = some old := by
    have hreads := flowPool_reads env strategy calls before
    rw [hc] at hreads
    obtain ⟨-, stored, hstored, -, hsame⟩ := hreads.2 _ hsecond.1 runId old rfl
    obtain ⟨-, -, _, -, hs⟩ := FlowRunState.terminate_ok hterminate
    have hrun : s.runId = old.runId := by rw [hs]; rfl
    rcases c.shared.repo.commit_cases (env.repositoryClock c.shared.steps) s expected drafts token
      with ⟨e, hcase⟩ | ⟨replaced, hreplaced, -, -, hvalid, -⟩
    · simp [FlowEnv.exec, FlowEnv.reply, hcase] at hreply
    · obtain ⟨hrevision, -, -, -⟩ := InMemoryFlowRepository.validateFlowReplacement_ok hvalid
      rw [hrun, hstored, Option.some.injEq] at hreplaced
      subst hreplaced
      rw [hrun, hstored, hsame (by omega)]
  refine ⟨current, old, hfirst.1, hstored, ?_⟩
  have htold : told i₁ ((flowPool strategy calls).run env.exec (before ++ i₁ :: after)).log =
      (toldBy (strategy i₁) current).toList := by
    have hstep : (c.step env.exec i₁).tasks i₁ =
        ((strategy i₁).propagateIf current.activeInvocation (fun _ => true) reason).bind fun _ =>
          Prog.ofExcept (flowResult s) := by
      rw [Pool.step_call env.exec htask, ← hk events, ← hreply]
      simp
    have hfollows := Pool.run_follows env.exec (c.step env.exec i₁) i₁ after
    rw [hstep] at hfollows
    rw [Pool.run_append, hc, Pool.run_cons] at hdone
    have htells := ((Tells.propagateIf (strategy i₁) current reason).bind fun _ =>
      Tells.ofExcept (flowResult s)).told hfollows hdone
    have hcommits : ofTask i₁ (c.entry env.exec i₁) =
        [⟨i₁, .commit s expected drafts token,
          (env.exec (.commit s expected drafts token) c.shared).1⟩] := by
      simp [Pool.entry, htask, ofTask]
    rw [Pool.run_append, hc, Pool.run_log, told, ofTask_append, List.filterMap_append, hentries,
      Pool.trace, ofTask_append, List.filterMap_append, htells, hcommits]
    rfl
  rw [htold]
  unfold ToldMoved
  simp only [moved_iff hterminate]
  exact toList_mem_iff _ _

end Theorem

/-! ## A handover between the two reads -/

def duoCalls : Actor → FlowCall
  | .coordinator => .run duoDefinition ⟨"write", []⟩ (some 7)
  | .canceller => .cancel 7 "stop"

def duoRun (schedule : List Actor) : Pool Actor FlowOp FlowOp.Ret FlowError FlowResult FlowWorld :=
  (flowPool (fun _ => {}) duoCalls).run completingEnv.exec schedule

def invocationStatuses (c : Pool Actor FlowOp FlowOp.Ret FlowError FlowResult FlowWorld) :
    Option (List (UUID × RunStatus) × Option UUID) :=
  (c.shared.repo.states 7).map fun s =>
    (s.invocations.map fun inv => (inv.id, inv.status), s.activeInvocationId)

/-- The first Agent works while the canceller reads.  When it reads again the first Agent has
completed and the second one works. -/
def handover : List Actor :=
  List.replicate 10 .coordinator ++ [.canceller] ++ List.replicate 9 .coordinator ++
    [.canceller, .canceller, .canceller]

/-- The canceller tells the first Agent, which has completed, and its commit ends the second,
which is told nothing. -/
theorem handover_tells_other_invocation :
    invocationStatuses (duoRun (handover.take 21)) =
      some ([(5, .completed), (15, .running)], some 15) ∧
    invocationStatuses (duoRun (handover.take 22)) =
      some ([(5, .completed), (15, .cancelled)], none) ∧
    told .canceller (duoRun handover).log = [5] ∧
    ((duoRun handover).tasks .canceller).done = true := by
  decide

def steadyReads : List Actor := List.replicate 10 .coordinator ++ [.canceller, .canceller]

theorem cancellation_reaches_invocation_steady :
    told .canceller (duoRun (steadyReads ++ .canceller :: [.canceller])).log = [5] ∧
    ∃ s current old,
      ⟨.canceller, .get .cancel 7, .ok current⟩ ∈ (duoRun steadyReads).log ∧
      (duoRun steadyReads).shared.repo.states s.runId = some old ∧
      (ToldMoved (told .canceller (duoRun (steadyReads ++ .canceller :: [.canceller])).log) old s ↔
        toldBy {} current = old.activeInvocation.map (·.id)) := by
  have hview : (acceptedSnapshot ((duoRun steadyReads).entry completingEnv.exec .canceller)).map
      (·.status) = some .cancelled := by decide
  obtain ⟨s, hs, -⟩ := Option.map_eq_some_iff.mp hview
  refine ⟨by decide, s, ?_⟩
  exact cancellation_reaches_invocation completingEnv (fun _ => {}) duoCalls .canceller 7 "stop" rfl
    steadyReads [.canceller] s hs (by decide)

end Flows
end BaseAgent

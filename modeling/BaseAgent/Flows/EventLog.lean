import BaseAgent.Flows.Service

/-!
# The event log refines the Flow state

A `FlowView` is what the events of a Flow Run say about it: the status, the ordered
invocations with their statuses, and the active invocation.  `replay` folds an event
list into the view, reading only the type and the data of each event.

Coordinators run any lifecycle operations, each chosen from the outcomes of the ones
before, and interleave at every read and commit.  The invariant is that the stored
snapshot of each Run has the view its events replay to.  The step that needs care is
a commit computed from an earlier read: its revision check succeeds only when the
stored snapshot is still the one that was read, which the ghost value of a
coordinator remembers.
-/

namespace BaseAgent
namespace Flows

open Async

structure FlowView where
  status : RunStatus
  invocations : List (UUID × RunStatus)
  active : Option UUID
  deriving DecidableEq, Repr

def FlowRunState.view (s : FlowRunState) : FlowView :=
  { status := s.status
    invocations := s.invocations.map fun inv => (inv.id, inv.status)
    active := s.activeInvocationId }

namespace FlowView

def setStatus (invocations : List (UUID × RunStatus)) (id : UUID) (status : RunStatus) :
    List (UUID × RunStatus) :=
  invocations.map fun p => if p.1 = id then (id, status) else p

/-- An invocation ended, by its own result or with its Flow. -/
def settle (v : FlowView) (id : UUID) (status : RunStatus) : FlowView :=
  { status := .running, invocations := setStatus v.invocations id status, active := none }

def finish (v : FlowView) (status : RunStatus) : FlowView :=
  { v with status := status, active := none }

def applyInvocation (v : FlowView) (type : EventType) (id : UUID) : FlowView :=
  match type with
  | .agentInvocationStarted =>
    { v with invocations := v.invocations ++ [(id, .running)], active := some id }
  | .agentInvocationResumed => { v with invocations := setStatus v.invocations id .running }
  | .agentInvocationWaiting => { v with invocations := setStatus v.invocations id .waiting }
  | .agentInvocationCompleted => v.settle id .completed
  | .agentInvocationFailed => v.settle id .failed
  | .agentInvocationCancelled => v.settle id .cancelled
  | .agentInvocationInterrupted => v.settle id .interrupted
  | .agentInvocationLimitReached => v.settle id .limitReached
  | _ => v

def apply (v : FlowView) (type : EventType) (data : List (String × JsonValue)) : FlowView :=
  match type with
  | .flowStarted | .flowResumed => { v with status := .running }
  | .flowWaiting => { v with status := .waiting }
  | .flowCompleted => v.finish .completed
  | .flowFailed => v.finish .failed
  | .flowCancelled => v.finish .cancelled
  | .flowInterrupted => v.finish .interrupted
  | .flowLimitReached => v.finish .limitReached
  | _ =>
    match JsonValue.lookup data "invocation_id" with
    | some (.uuid id) => v.applyInvocation type id
    | _ => v

def applyDrafts (v : FlowView) (drafts : List FlowEventDraft) : FlowView :=
  drafts.foldl (fun v d => v.apply d.type d.data) v

end FlowView

/-- One step of the replay.  Nothing is known before the Flow was created. -/
def replayStep (v : Option FlowView) (e : RuntimeEvent) : Option FlowView :=
  match v with
  | some v => some (v.apply e.type e.data)
  | none => if e.type = .flowCreated then some ⟨.created, [], none⟩ else none

def replay (events : List RuntimeEvent) : Option FlowView := events.foldl replayStep none

def flowTerminal : EventType → Bool
  | .flowCompleted | .flowFailed | .flowCancelled | .flowInterrupted | .flowLimitReached => true
  | _ => false

/-- A terminal Flow event is present exactly once when the status is terminal, followed
only by cancellation-propagation events, and absent otherwise. -/
def TerminalOnce (status : RunStatus) (types : List EventType) : Prop :=
  if status.terminal = true then
    ∃ before last after, types = before ++ last :: after ∧ flowTerminal last = true ∧
      (∀ t ∈ before, flowTerminal t = false) ∧
      ∀ t ∈ after, t = .agentInvocationCancellationPropagationFailed
  else ∀ t ∈ types, flowTerminal t = false

/-! ## Each transition emits the events its change means -/

def ActiveLast (s : FlowRunState) : Prop :=
  ∀ id, s.activeInvocationId = some id → ∃ inv, s.invocations.getLast? = some inv ∧ inv.id = id

theorem ActiveLast.of_none {s : FlowRunState} (h : s.activeInvocationId = none) :
    ActiveLast s := by
  intro id hid
  rw [h] at hid
  cases hid

theorem ActiveLast.found {s : FlowRunState} (h : ActiveLast s) {id : UUID}
    (hid : s.activeInvocationId = some id) : ∃ active, s.activeInvocation = some active := by
  obtain ⟨inv, hlast, hinv⟩ := h id hid
  have hmem : inv ∈ s.invocations := List.mem_of_getLast? hlast
  unfold FlowRunState.activeInvocation
  rw [hid]
  cases hf : s.invocations.find? fun inv => inv.id == id with
  | some active => exact ⟨active, hf⟩
  | none =>
    rw [List.find?_eq_none] at hf
    exact absurd (by simpa using hinv) (hf inv hmem)

/-- What a transition computed from `current` does, and that its drafts say it. -/
structure Describes (current : FlowRunState) (t : Transition) : Prop where
  runId : t.state.runId = current.runId
  revision : t.state.revision = current.revision + 1
  view : current.view.applyDrafts t.drafts = t.state.view
  activeLast : ActiveLast t.state
  open_ : current.status.terminal = false
  ending : TerminalOnce t.state.status (t.drafts.map (·.type))

section Transitions

attribute [local simp] FlowView.applyDrafts FlowView.apply FlowView.applyInvocation
  FlowView.finish FlowView.settle FlowView.setStatus FlowRunState.view invocationResultEvent
  AgentResultStatus.toRunStatus Termination.status Termination.flowEvent
  Termination.invocationEvent TerminalOnce flowTerminal RunStatus.terminal

theorem replaceInvocation_view (s : FlowRunState) (inv : AgentInvocation) :
    (s.replaceInvocation inv).map (fun i => (i.id, i.status)) =
      FlowView.setStatus s.view.invocations inv.id inv.status := by
  simp only [FlowRunState.replaceInvocation, FlowView.setStatus, FlowRunState.view,
    List.map_map]
  refine List.map_congr_left fun other _ => ?_
  simp only [Function.comp_apply]
  split <;> rfl

theorem replaceInvocation_last {s : FlowRunState} (h : ActiveLast s) {active inv : AgentInvocation}
    (hactive : s.activeInvocation = some active) (hid : inv.id = active.id) :
    (s.replaceInvocation inv).getLast? = some inv := by
  obtain ⟨hact, -⟩ := FlowRunState.activeInvocation_id hactive
  obtain ⟨last, hlast, hlid⟩ := h active.id hact
  rw [FlowRunState.replaceInvocation, List.getLast?_map, hlast]
  simp [hlid, hid]

theorem lookup_invocationData (inv : AgentInvocation) (rest : List (String × JsonValue)) :
    JsonValue.lookup (invocationData inv ++ rest) "invocation_id" = some (.uuid inv.id) := by
  simp [JsonValue.lookup, invocationData]

theorem startTransition_describes {current : FlowRunState} {t : Transition}
    (h : startTransition current = .ok t) (hlast : ActiveLast current) :
    Describes current t := by
  obtain ⟨state, hs, ht⟩ := Except.bind_ok.mp h
  obtain ⟨hcreated, rfl⟩ := FlowRunState.start_ok hs
  obtain rfl := Except.ok.inj ht
  refine ⟨rfl, rfl, rfl, hlast, by rw [hcreated]; rfl, ?_⟩
  simp

theorem beginTransition_describes {current : FlowRunState} {t : Transition}
    {request : AgentInvocationRequest} {definition : FlowDefinition}
    (h : beginTransition request definition current = .ok t) : Describes current t := by
  obtain ⟨state, hs, h'⟩ := Except.bind_ok.mp h
  obtain ⟨inv, hinv, ht⟩ := Except.bind_ok.mp h'
  rw [orRaise_ok] at hinv
  obtain ⟨hrun, -, -, -, -, -, rfl⟩ := FlowRunState.beginInvocation_ok hs
  obtain rfl := Except.ok.inj ht
  have hid : inv.id = request.invocationId :=
    (Option.some.inj (FlowRunState.activeInvocation_id hinv).1).symm
  refine ⟨rfl, rfl, ?_, ?_, by rw [hrun]; rfl, ?_⟩
  · simp [lookup_invocationData, hid, FlowRunState.begunInvocation, FlowRunState.evolve]
  · intro id hactive
    obtain rfl := Option.some.inj hactive
    exact ⟨current.begunInvocation request, by simp, rfl⟩
  · simp [FlowRunState.evolve, hrun]

theorem applyInvocation_result (v : FlowView) (status : AgentResultStatus) (id : UUID)
    (data : List (String × JsonValue))
    (hdata : JsonValue.lookup data "invocation_id" = some (.uuid id)) :
    v.apply (invocationResultEvent status) data =
      if status = .waiting then { v with invocations := FlowView.setStatus v.invocations id .waiting }
      else v.settle id status.toRunStatus := by
  cases status <;> simp [hdata]

theorem settleTransition_describes {current : FlowRunState} {t : Transition} {runId : UUID}
    {result : AgentInvocationResult} (h : settleTransition runId result current = .ok t)
    (hlast : ActiveLast current) : Describes current t := by
  obtain ⟨state, hs, h'⟩ := Except.bind_ok.mp h
  obtain ⟨last, hl, ht⟩ := Except.bind_ok.mp h'
  rw [orRaise_ok] at hl
  obtain ⟨hopen, active, settled, hactive, hsettle, rfl⟩ := FlowRunState.settleInvocation_ok hs
  obtain ⟨-, -, -, -, hsettled⟩ := AgentInvocation.settle_ok hsettle
  obtain rfl := Except.ok.inj ht
  have hid : settled.id = active.id := by rw [hsettled]
  have hst : settled.status = result.status.toRunStatus := by rw [hsettled]
  have hlastInv : last = settled := by
    have hrep := replaceInvocation_last hlast hactive hid
    simpa [hrep] using hl.symm
  have hact : current.activeInvocationId = some settled.id := by
    rw [hid]
    exact (FlowRunState.activeInvocation_id hactive).1
  have hopen' : current.status.terminal = false := by
    rcases hopen with h | h <;> rw [h] <;> rfl
  have hview := replaceInvocation_view current settled
  rw [hst] at hview
  by_cases hw : result.status = .waiting
  · have hw' : settled.status = .waiting := by rw [hst, hw]; rfl
    rw [hw] at hview
    refine ⟨rfl, rfl, ?_, ?_, hopen', ?_⟩
    · simp only [hw, if_true, FlowView.applyDrafts, List.foldl_cons, List.foldl_nil,
        applyInvocation_result _ _ _ _ (lookup_invocationData _ _)]
      simp only [FlowView.apply, FlowRunState.view, hlastInv, hw', if_true, hact, hview]
      rfl
    · intro id hid'
      simp only [hw', if_true, Option.some.injEq] at hid'
      exact ⟨last, hl, by rw [hlastInv]; exact hid'⟩
    · simp [hw, hw']
  · have hw' : settled.status ≠ .waiting := by
      rwa [hst, ne_eq, AgentResultStatus.toRunStatus_waiting]
    refine ⟨rfl, rfl, ?_, ?_, hopen', ?_⟩
    · simp only [hw, if_false, FlowView.applyDrafts, List.foldl_cons, List.foldl_nil,
        applyInvocation_result _ _ _ _ (lookup_invocationData _ _)]
      simp only [FlowView.settle, FlowRunState.view, hlastInv, hw', if_false, hview]
    · exact ActiveLast.of_none (by simp [hw'])
    · simp only [TerminalOnce, hw', if_false, hw, RunStatus.terminal]
      cases result.status <;> simp

theorem resumeTransition_describes {current : FlowRunState} {t : Transition}
    {runId invocationId : UUID} (h : resumeTransition runId invocationId current = .ok t)
    (hlast : ActiveLast current) : Describes current t := by
  obtain ⟨state, hs, h'⟩ := Except.bind_ok.mp h
  obtain ⟨inv, hinv, ht⟩ := Except.bind_ok.mp h'
  rw [orRaise_ok] at hinv
  obtain ⟨hwait, active, resumed, hactive, -, hres, rfl⟩ := FlowRunState.resumeInvocation_ok hs
  obtain ⟨-, rfl⟩ := AgentInvocation.resume_ok hres
  obtain rfl := Except.ok.inj ht
  have hact : current.activeInvocationId = some active.id :=
    (FlowRunState.activeInvocation_id hactive).1
  have hid : inv.id = active.id := by
    have := (FlowRunState.activeInvocation_id hinv).1
    simp only [FlowRunState.evolve, hact, Option.some.injEq] at this
    exact this.symm
  refine ⟨rfl, rfl, ?_, ?_, by rw [hwait]; rfl, ?_⟩
  · simp only [FlowView.applyDrafts, List.foldl_cons, List.foldl_nil, FlowView.apply,
      lookup_invocationData, FlowView.applyInvocation, FlowRunState.view, FlowRunState.evolve,
      FlowView.mk.injEq, true_and, and_true, hid]
    exact (replaceInvocation_view current { active with status := .running }).symm
  · intro id hid'
    simp only [FlowRunState.evolve, hact, Option.some.injEq] at hid'
    exact ⟨_, replaceInvocation_last hlast hactive rfl, hid'⟩
  · simp

theorem completeTransition_describes {current : FlowRunState} {t : Transition} {output : String}
    (h : completeTransition output current = .ok t) : Describes current t := by
  obtain ⟨state, hs, ht⟩ := Except.bind_ok.mp h
  obtain ⟨hrun, hnone, rfl⟩ := FlowRunState.complete_ok hs
  obtain rfl := Except.ok.inj ht
  refine ⟨rfl, rfl, ?_, ActiveLast.of_none hnone, by rw [hrun]; rfl, ?_⟩
  · simp [FlowRunState.evolve, hnone]
  · simp only [TerminalOnce, RunStatus.terminal, if_true]
    exact ⟨[], .flowCompleted, [], by simp, rfl, by simp, by simp⟩

theorem terminateTransition_describes {current : FlowRunState} {t : Transition} {runId : UUID}
    {ending : Termination} {error : String} {metadata : List (String × JsonValue)}
    (h : terminateTransition runId ending error metadata current = .ok t) :
    Describes current t := by
  obtain ⟨state, hs, h'⟩ := Except.bind_ok.mp h
  obtain ⟨drafts, hd, ht⟩ := Except.bind_ok.mp h'
  obtain ⟨hopen, -, invocations, hinv, rfl⟩ := FlowRunState.terminate_ok hs
  obtain rfl := Except.ok.inj ht
  have hterm : ending.status.terminal = true := by cases ending <;> rfl
  have hflow : flowTerminal ending.flowEvent = true := by cases ending <;> rfl
  cases hactive : current.activeInvocation with
  | none =>
    rw [terminatedDrafts, hactive] at hd
    rw [FlowRunState.terminateActive, hactive] at hinv
    obtain rfl := Except.ok.inj hd
    obtain rfl := Except.ok.inj hinv
    refine ⟨rfl, rfl, ?_, ActiveLast.of_none rfl, hopen, ?_⟩
    · cases ending <;> simp
    · simp only [TerminalOnce, hterm, if_true]
      exact ⟨[], ending.flowEvent, [], by simp, hflow, by simp, by simp⟩
  | some active =>
    rw [terminatedDrafts, hactive] at hd
    rw [FlowRunState.terminateActive, hactive] at hinv
    obtain ⟨found, hf, hd'⟩ := Except.bind_ok.mp hd
    obtain ⟨terminated, hterminated, hinv'⟩ := Except.bind_ok.mp hinv
    rw [orRaise_ok] at hf
    obtain rfl := Except.ok.inj hd'
    obtain rfl := Except.ok.inj hinv'
    obtain ⟨-, htid, htst⟩ := AgentInvocation.terminate_ok hterminated
    have hfid : found.id = active.id := by simpa using List.find?_some hf
    have hview := replaceInvocation_view current terminated
    rw [htid, htst] at hview
    refine ⟨rfl, rfl, ?_, ActiveLast.of_none rfl, hopen, ?_⟩
    · simp only [FlowRunState.view, hview]
      cases ending <;> simp [lookup_invocationData, hfid]
    · simp only [TerminalOnce, hterm, if_true]
      exact ⟨[ending.invocationEvent], ending.flowEvent, [], by simp, hflow,
        by cases ending <;> simp, by simp⟩

end Transitions

/-! ## What a write adds to the log -/

theorem materializeEvents_types (runId : UUID) (drafts : List FlowEventDraft) (start : Nat) :
    (materializeEvents runId drafts start).map (·.type) = drafts.map (·.type) := by
  induction drafts generalizing start with
  | nil => rfl
  | cons d rest ih => simp [materializeEvents, ih]

theorem materializeEvents_sequences (runId : UUID) (drafts : List FlowEventDraft) (start : Nat) :
    (materializeEvents runId drafts start).map (·.sequence) =
      List.range' start (materializeEvents runId drafts start).length := by
  induction drafts generalizing start with
  | nil => rfl
  | cons d rest ih => simp [materializeEvents, ih, List.range'_succ]

theorem replay_materialized (runId : UUID) (drafts : List FlowEventDraft) (start : Nat)
    (v : FlowView) :
    (materializeEvents runId drafts start).foldl replayStep (some v) =
      some (v.applyDrafts drafts) := by
  induction drafts generalizing start v with
  | nil => rfl
  | cons d rest ih =>
    rw [materializeEvents, List.foldl_cons, replayStep, ih]
    rfl

theorem sequences_append {events : List RuntimeEvent}
    (h : events.map (·.sequence) = List.range' 1 events.length) (runId : UUID)
    (drafts : List FlowEventDraft) :
    (events ++ materializeEvents runId drafts (events.length + 1)).map (·.sequence) =
      List.range' 1 (events ++ materializeEvents runId drafts (events.length + 1)).length := by
  rw [List.map_append, h, materializeEvents_sequences, List.length_append, Nat.add_comm _ 1,
    List.range'_append_1]

theorem TerminalOnce.append {status status' : RunStatus} {types added : List EventType}
    (h : TerminalOnce status types) (hopen : status.terminal = false)
    (hadded : TerminalOnce status' added) : TerminalOnce status' (types ++ added) := by
  rw [TerminalOnce, if_neg (by simp [hopen])] at h
  unfold TerminalOnce at hadded ⊢
  cases hterm : status'.terminal with
  | false =>
    simp only [hterm, Bool.false_eq_true, if_false] at hadded ⊢
    intro t ht
    rcases List.mem_append.mp ht with ht | ht
    · exact h t ht
    · exact hadded t ht
  | true =>
    simp only [hterm, if_true] at hadded ⊢
    obtain ⟨before, last, after, rfl, hlast, hbefore, hafter⟩ := hadded
    refine ⟨types ++ before, last, after, by simp, hlast, ?_, hafter⟩
    intro t ht
    rcases List.mem_append.mp ht with ht | ht
    · exact h t ht
    · exact hbefore t ht

theorem TerminalOnce.append_propagation {status : RunStatus} {types : List EventType}
    (h : TerminalOnce status types) :
    TerminalOnce status (types ++ [.agentInvocationCancellationPropagationFailed]) := by
  unfold TerminalOnce at h ⊢
  cases hterm : status.terminal with
  | false =>
    simp only [hterm, Bool.false_eq_true, if_false] at h ⊢
    intro t ht
    rcases List.mem_append.mp ht with ht | ht
    · exact h t ht
    · rw [List.mem_singleton.mp ht]
      rfl
  | true =>
    simp only [hterm, if_true] at h ⊢
    obtain ⟨before, last, after, rfl, hlast, hbefore, hafter⟩ := h
    refine ⟨before, last, after ++ [.agentInvocationCancellationPropagationFailed],
      by simp, hlast, hbefore, ?_⟩
    intro t ht
    rcases List.mem_append.mp ht with ht | ht
    · exact hafter t ht
    · exact List.mem_singleton.mp ht

/-! ## Coordinators -/

inductive LifecycleCall where
  | create (definition : FlowDefinition) (runId : Option UUID) (now : Time)
  | get (runId : UUID)
  | recordCancellationPropagationFailure (runId : UUID) (invocation : AgentInvocation)
      (errorType : String)
  | start (runId : UUID)
  | beginInvocation (runId : UUID) (request : AgentInvocationRequest)
      (definition : FlowDefinition)
  | settleInvocation (runId : UUID) (result : AgentInvocationResult)
  | resumeInvocation (runId invocationId : UUID)
  | complete (runId : UUID) (output : String)
  | fail (runId : UUID) (error : String)
  | cancel (runId : UUID) (error : String)
  | interrupt (runId : UUID) (error : String)
  | reachLimit (runId : UUID) (error : String) (metadata : List (String × JsonValue))
  | acquireExecution (runId : UUID) (ownerId : String) (ttlSeconds : ℚ)
  | renewExecution (lease : FlowExecutionLease) (ttlSeconds : ℚ)
  | releaseExecution (lease : FlowExecutionLease)

inductive LifecycleReply where
  | state (state : FlowRunState)
  | lease (lease : FlowExecutionLease)
  | unit

def LifecycleCall.prog (lc : FlowLifecycle) : LifecycleCall → FlowProg LifecycleReply
  | create definition runId now =>
    (FlowLifecycle.create definition runId now).bind (.ret <| .state ·)
  | get runId => (FlowLifecycle.get runId).bind (.ret <| .state ·)
  | recordCancellationPropagationFailure runId invocation errorType =>
    (lc.recordCancellationPropagationFailure runId invocation errorType).bind fun _ => .ret .unit
  | start runId => (lc.start runId).bind (.ret <| .state ·)
  | beginInvocation runId request definition =>
    (lc.beginInvocation runId request definition).bind (.ret <| .state ·)
  | settleInvocation runId result => (lc.settleInvocation runId result).bind (.ret <| .state ·)
  | resumeInvocation runId invocationId =>
    (lc.resumeInvocation runId invocationId).bind (.ret <| .state ·)
  | complete runId output => (lc.complete runId output).bind (.ret <| .state ·)
  | fail runId error => (lc.fail runId error).bind (.ret <| .state ·)
  | cancel runId error => (lc.cancel runId error).bind (.ret <| .state ·)
  | interrupt runId error => (lc.interrupt runId error).bind (.ret <| .state ·)
  | reachLimit runId error metadata =>
    (lc.reachLimit runId error metadata).bind (.ret <| .state ·)
  | acquireExecution runId ownerId ttl =>
    .call (.acquireExecution runId ownerId ttl) fun r => (Prog.ofExcept r).bind (.ret <| .lease ·)
  | renewExecution lease ttl =>
    .call (.renewExecution lease ttl) fun r => (Prog.ofExcept r).bind (.ret <| .lease ·)
  | releaseExecution lease =>
    .call (.releaseExecution lease) fun r => (Prog.ofExcept r).bind fun _ => .ret .unit

/-- A coordinator performs one operation after another, each under a lease of its
choice, and picks the next from what the last one returned or raised. -/
inductive Coordinator where
  | stop
  | perform (lc : FlowLifecycle) (call : LifecycleCall)
      (next : Except FlowError LifecycleReply → Coordinator)

def Coordinator.prog : Coordinator → FlowProg Unit
  | stop => .ret ()
  | perform lc call next => ((call.prog lc).attempt).bind fun outcome => (next outcome).prog

/-! ## The log -/

section Log

variable {ι : Type}

abbrev FlowEntry (ι : Type) := Entry ι FlowOp FlowOp.Ret

def acceptedCommit (runId : UUID) : (o : FlowOp) → o.Ret → Bool
  | .commit state _ _ _, .ok _ => state.runId == runId
  | _, _ => false

def acceptedCommits (log : List (FlowEntry ι)) (runId : UUID) : Nat :=
  log.countP fun e => acceptedCommit runId e.op e.reply

/-- The snapshot of a Run against its events and the number of accepted commits. -/
structure Refines (s : FlowRunState) (events : List RuntimeEvent) (commits : Nat) : Prop where
  view : replay events = some s.view
  sequences : events.map (·.sequence) = List.range' 1 events.length
  revision : s.revision = 1 + commits
  terminal : TerminalOnce s.status (events.map (·.type))

def Recorded (r : InMemoryFlowRepository) (log : List (FlowEntry ι)) (runId : UUID) : Prop :=
  match r.states runId with
  | none => r.events runId = [] ∧ acceptedCommits log runId = 0
  | some s => s.runId = runId ∧ ActiveLast s ∧
      Refines s (r.events runId) (acceptedCommits log runId)

/-- A snapshot that was read is the stored one or an older revision of it. -/
def Remembered (r : InMemoryFlowRepository) (read : FlowRunState) : Prop :=
  ∃ s, r.states read.runId = some s ∧ read.revision ≤ s.revision ∧
    (read.revision = s.revision → read = s)

def logOutline (ι : Type) : Outline ι FlowOp FlowOp.Ret FlowWorld (Option FlowRunState) where
  Inv w log ghost := (∀ runId, Recorded w.repo log runId) ∧
    ∀ i read, ghost i = some read → Remembered w.repo read

theorem acceptedCommits_append (log : List (FlowEntry ι)) (e : FlowEntry ι) (runId : UUID) :
    acceptedCommits (log ++ [e]) runId =
      acceptedCommits log runId + if acceptedCommit runId e.op e.reply = true then 1 else 0 := by
  unfold acceptedCommits
  rw [List.countP_append]
  cases h : acceptedCommit runId e.op e.reply <;> simp [h]

variable [DecidableEq ι]

theorem logOutline_quiet {w : FlowWorld} {log : List (FlowEntry ι)}
    {ghost : ι → Option FlowRunState} (h : (logOutline ι).Inv w log ghost) {w' : FlowWorld}
    {e : FlowEntry ι} (hstates : w'.repo.states = w.repo.states)
    (hevents : w'.repo.events = w.repo.events)
    (he : ∀ runId, acceptedCommit runId e.op e.reply = false) {i : ι} {g : Option FlowRunState}
    (hg : ∀ read, g = some read → Remembered w.repo read) :
    (logOutline ι).Inv w' (log ++ [e]) (Function.update ghost i g) := by
  constructor
  · intro runId
    have hr := h.1 runId
    unfold Recorded at hr ⊢
    rw [hstates, hevents, acceptedCommits_append, he]
    exact hr
  · intro j read hj
    have hold : Remembered w.repo read := by
      by_cases hji : j = i
      · subst hji
        rw [Function.update_self] at hj
        exact hg read hj
      · rw [Function.update_of_ne hji] at hj
        exact h.2 j read hj
    unfold Remembered at hold ⊢
    rw [hstates]
    exact hold

theorem Refines.commit {s : FlowRunState} {events : List RuntimeEvent} {commits : Nat}
    (h : Refines s events commits) {t : Transition} (hd : Describes s t) (runId : UUID) :
    Refines t.state (events ++ materializeEvents runId t.drafts (events.length + 1))
      (commits + 1) := by
  refine ⟨?_, sequences_append h.sequences runId t.drafts, ?_, ?_⟩
  · have hview := h.view
    rw [replay] at hview ⊢
    rw [List.foldl_append, hview, replay_materialized, hd.view]
  · have := h.revision
    have := hd.revision
    omega
  · rw [List.map_append, materializeEvents_types]
    exact h.terminal.append hd.open_ hd.ending

theorem Refines.append {s : FlowRunState} {events : List RuntimeEvent} {commits : Nat}
    (h : Refines s events commits) (runId : UUID) {d : FlowEventDraft}
    (hd : d.type = .agentInvocationCancellationPropagationFailed) :
    Refines s (events ++ materializeEvents runId [d] (events.length + 1)) commits := by
  refine ⟨?_, sequences_append h.sequences runId [d], h.revision, ?_⟩
  · have hview := h.view
    have hsame : s.view.applyDrafts [d] = s.view := by
      simp only [FlowView.applyDrafts, List.foldl_cons, List.foldl_nil, hd, FlowView.apply]
      split <;> rfl
    rw [replay] at hview ⊢
    rw [List.foldl_append, hview, replay_materialized, hsame]
  · rw [List.map_append, materializeEvents_types]
    simp only [List.map_cons, List.map_nil, hd]
    exact h.terminal.append_propagation

theorem Refines.created (definition : FlowDefinition) (runId : UUID) (now : Time)
    (deadlineAt : Option Time) :
    Refines (FlowRunState.initial definition runId now deadlineAt)
      (materializeEvents runId
        [createdDraft (FlowRunState.initial definition runId now deadlineAt)] 1) 0 := by
  refine ⟨rfl, rfl, rfl, ?_⟩
  simp [TerminalOnce, FlowRunState.initial, RunStatus.terminal, materializeEvents, createdDraft,
    flowTerminal]

theorem logOutline_write {w w' : FlowWorld} {log : List (FlowEntry ι)}
    {ghost : ι → Option FlowRunState} (h : (logOutline ι).Inv w log ghost) {e : FlowEntry ι}
    (runId : UUID) (s : FlowRunState)
    (hs : w'.repo.states = Function.update w.repo.states runId (some s))
    (hother : ∀ other, other ≠ runId → w'.repo.events other = w.repo.events other ∧
      acceptedCommit other e.op e.reply = false)
    (hrun : s.runId = runId) (hlast : ActiveLast s)
    (href : Refines s (w'.repo.events runId) (acceptedCommits (log ++ [e]) runId))
    (hnewer : ∀ old, w.repo.states runId = some old →
      old.revision ≤ s.revision ∧ (old.revision = s.revision → old = s))
    {i : ι} {g : Option FlowRunState} (hg : ∀ read, g = some read → Remembered w.repo read) :
    (logOutline ι).Inv w' (log ++ [e]) (Function.update ghost i g) := by
  constructor
  · intro run
    by_cases hr : run = runId
    · subst hr
      unfold Recorded
      rw [hs, Function.update_self]
      exact ⟨hrun, hlast, href⟩
    · have hold := h.1 run
      unfold Recorded at hold ⊢
      rw [hs, Function.update_of_ne hr, (hother run hr).1, acceptedCommits_append,
        (hother run hr).2]
      exact hold
  · intro j read hj
    have hold : Remembered w.repo read := by
      by_cases hji : j = i
      · subst hji
        rw [Function.update_self] at hj
        exact hg read hj
      · rw [Function.update_of_ne hji] at hj
        exact h.2 j read hj
    obtain ⟨old, hold, hle, heq⟩ := hold
    unfold Remembered
    rw [hs]
    by_cases hr : read.runId = runId
    · rw [hr, Function.update_self]
      rw [hr] at hold
      obtain ⟨hle', heq'⟩ := hnewer old hold
      refine ⟨s, rfl, le_trans hle hle', fun hrev => ?_⟩
      have hrevs : read.revision = old.revision := by omega
      rw [heq hrevs]
      exact heq' (by omega)
    · rw [Function.update_of_ne hr]
      exact ⟨old, hold, hle, heq⟩

section Safety

variable (env : FlowEnv) (i : ι)

theorem quiet_safe {α : Type} {Q : α → Option FlowRunState → Prop}
    {E : FlowError → Option FlowRunState → Prop} (o : FlowOp) {k : o.Ret → FlowProg α}
    (hquiet : ∀ w, (env.exec o w).2.repo.states = w.repo.states ∧
      (env.exec o w).2.repo.events = w.repo.events)
    (hcommit : ∀ runId r, acceptedCommit runId o r = false)
    (hk : ∀ r g, (logOutline ι).Safe env.exec i Q E (k r) g) (g : Option FlowRunState) :
    (logOutline ι).Safe env.exec i Q E (.call o k) g := by
  intro w log ghost hg hI _
  refine ⟨g, trivial, ?_, hk _ g⟩
  exact logOutline_quiet hI (hquiet w).1 (hquiet w).2 (fun runId => hcommit runId _)
    fun read hread => hI.2 i read (hg.trans hread)

theorem ofExcept_bind_safe {α β : Type} {f : α → β} (r : Except FlowError α)
    (g : Option FlowRunState) :
    (logOutline ι).Safe env.exec i (fun _ _ => True) (fun _ _ => True)
      ((Prog.ofExcept r : FlowProg α).bind fun a => .ret (f a)) g := by
  cases r <;> trivial

theorem read_safe (reader : Reader) (runId : UUID) (g : Option FlowRunState) :
    (logOutline ι).Safe env.exec i
      (fun cur g => g = some cur ∧ cur.runId = runId ∧ ActiveLast cur) (fun _ _ => True)
      (FlowLifecycle.read reader runId) g := by
  intro w log ghost hg hI _
  rcases w.repo.get_cases runId with ⟨-, hget⟩ | ⟨cur, hcur, hget⟩
  · refine ⟨g, trivial, ?_, ?_⟩
    · refine logOutline_quiet hI ?_ ?_ (fun _ => rfl) fun read hread => hI.2 i read (hg.trans hread)
      · simp [FlowEnv.exec, FlowEnv.reply, hget]
      · simp [FlowEnv.exec, FlowEnv.reply, hget]
    · simp [FlowEnv.exec, FlowEnv.reply, hget, Outline.Safe]
  · have hrec := hI.1 runId
    unfold Recorded at hrec
    rw [hcur] at hrec
    refine ⟨some cur, trivial, ?_, ?_⟩
    · refine logOutline_quiet hI ?_ ?_ (fun _ => rfl) ?_
      · simp [FlowEnv.exec, FlowEnv.reply, hget]
      · simp [FlowEnv.exec, FlowEnv.reply, hget]
      · intro read hread
        obtain rfl := Option.some.inj hread
        exact ⟨cur, by rw [hrec.1]; exact hcur, le_refl _, fun _ => rfl⟩
    · simp [FlowEnv.exec, FlowEnv.reply, hget, Outline.Safe, hrec.1, hrec.2.1]

/-- The commit of a transition that was computed from an earlier read: it is rejected and
changes nothing, or the snapshot that was read is still the stored one and is replaced. -/
theorem commit_step {w : FlowWorld} {log : List (FlowEntry ι)} {ghost : ι → Option FlowRunState}
    (hI : (logOutline ι).Inv w log ghost) {cur : FlowRunState} (hg : ghost i = some cur)
    {t : Transition} (hd : Describes cur t) (token : Option UUID) :
    let o : FlowOp := .commit t.state cur.revision t.drafts token
    let e : FlowEntry ι := ⟨i, o, (env.exec o w).1⟩
    (∃ err, (env.exec o w).1 = .error err ∧ (env.exec o w).2.repo = w.repo ∧
      (logOutline ι).Inv (env.exec o w).2 (log ++ [e]) (Function.update ghost i (some cur))) ∨
    (∃ added, (env.exec o w).1 = .ok added ∧ w.repo.states cur.runId = some cur ∧
      (env.exec o w).2.repo.states = Function.update w.repo.states cur.runId (some t.state) ∧
      (logOutline ι).Inv (env.exec o w).2 (log ++ [e]) (Function.update ghost i none)) := by
  intro o e
  have hgr : ∀ read, some cur = some read → Remembered w.repo read := fun read hread =>
    hI.2 i read (hg.trans hread)
  rcases w.repo.commit_cases (env.repositoryClock w.steps) t.state cur.revision t.drafts token
    with ⟨err, hc⟩ | ⟨stored, hst, -, -, hval, hc⟩
  · have hreply : env.reply w.steps w.repo o = (.error err, w.repo) := hc
    refine .inl ⟨err, congrArg Prod.fst hreply, congrArg Prod.snd hreply, ?_⟩
    refine logOutline_quiet hI ?_ ?_ ?_ hgr
    · simp [FlowEnv.exec, hreply]
    · simp [FlowEnv.exec, hreply]
    · intro run
      simp [e, o, FlowEnv.exec, FlowEnv.reply, hc, acceptedCommit]
  · have hreply : env.reply w.steps w.repo o = (.ok (w.repo.persisted t.state.runId t.drafts),
        w.repo.write t.state (w.repo.persisted t.state.runId t.drafts)) := hc
    obtain ⟨hrev, -, -, -⟩ := InMemoryFlowRepository.validateFlowReplacement_ok hval
    obtain ⟨s, hs, -, heq⟩ := hgr cur rfl
    have htr : t.state.runId = cur.runId := hd.runId
    rw [htr, hs] at hst
    obtain rfl := Option.some.inj hst
    obtain rfl := heq hrev.symm
    have hstates : (env.exec o w).2.repo.states =
        Function.update w.repo.states cur.runId (some t.state) := by
      simp [FlowEnv.exec, hreply, InMemoryFlowRepository.write, htr]
    have hrec := hI.1 cur.runId
    unfold Recorded at hrec
    rw [hs] at hrec
    refine .inr ⟨_, congrArg Prod.fst hreply, hs, hstates, ?_⟩
    refine logOutline_write hI cur.runId t.state hstates ?_ htr hd.activeLast ?_ ?_ (by simp)
    · intro other hne
      simp [e, o, FlowEnv.exec, FlowEnv.reply, hc, InMemoryFlowRepository.write, htr,
        acceptedCommit, Function.update_of_ne hne, Ne.symm hne]
    · rw [acceptedCommits_append]
      have hcommit := hrec.2.2.commit hd cur.runId
      simpa [e, o, FlowEnv.exec, FlowEnv.reply, hc, InMemoryFlowRepository.write, htr,
        acceptedCommit, InMemoryFlowRepository.persisted] using hcommit
    · intro old hold
      rw [hs] at hold
      obtain rfl := Option.some.inj hold
      have := hd.revision
      exact ⟨by omega, by omega⟩

theorem transact_safe (lc : FlowLifecycle) (reader : Reader) (runId : UUID)
    {transition : FlowRunState → Except FlowError Transition}
    (hdesc : ∀ cur t, ActiveLast cur → transition cur = .ok t → Describes cur t)
    (g : Option FlowRunState) :
    (logOutline ι).Safe env.exec i (fun _ _ => True) (fun _ _ => True)
      (lc.transact reader runId transition) g := by
  refine (read_safe env i reader runId g).bind ?_
  rintro cur _ ⟨rfl, hrun, hlast⟩
  cases ht : transition cur with
  | error e => trivial
  | ok t =>
    cases htok : lc.executionTokenFor t.leaseRun with
    | error e => simp [htok, Outline.Safe]
    | ok token =>
      simp only [Prog.bind_eq, Prog.ofExcept_ok, Prog.ret_bind, htok]
      intro w log ghost hg hI _
      rcases commit_step env i hI hg (hdesc cur t hlast ht) token with
        ⟨e, hreply, -, hI'⟩ | ⟨added, hreply, -, -, hI'⟩
      · exact ⟨some cur, trivial, hI', by rw [hreply]; trivial⟩
      · exact ⟨none, trivial, hI', by rw [hreply]; trivial⟩

theorem create_safe (definition : FlowDefinition) (runId : Option UUID) (now : Time)
    (g : Option FlowRunState) :
    (logOutline ι).Safe env.exec i (fun _ _ => True) (fun _ _ => True)
      (FlowLifecycle.create definition runId now) g := by
  have hcreate : ∀ deadlineAt runId g, (logOutline ι).Safe env.exec i (fun _ _ => True)
      (fun _ _ => True)
      (.call (.create (FlowRunState.initial definition runId now deadlineAt)
        [createdDraft (FlowRunState.initial definition runId now deadlineAt)]) fun r =>
          (Prog.ofExcept r).bind fun _ =>
            .ret (FlowRunState.initial definition runId now deadlineAt)) g := by
    intro deadlineAt runId g w log ghost hg hI _
    have hgr : ∀ read, g = some read → Remembered w.repo read := fun read hread =>
      hI.2 i read (hg.trans hread)
    rcases w.repo.create_cases (FlowRunState.initial definition runId now deadlineAt)
      [createdDraft (FlowRunState.initial definition runId now deadlineAt)] with ⟨e, hc⟩ | ⟨-, -, hnone, hc⟩
    · refine ⟨g, trivial, ?_, by simp [FlowEnv.exec, FlowEnv.reply, hc, Outline.Safe]⟩
      refine logOutline_quiet hI ?_ ?_ (fun _ => rfl) hgr
      · simp [FlowEnv.exec, FlowEnv.reply, hc]
      · simp [FlowEnv.exec, FlowEnv.reply, hc]
    · have hrec := hI.1 runId
      unfold Recorded at hrec
      rw [show w.repo.states runId = none from hnone] at hrec
      refine ⟨g, trivial, ?_, by simp [FlowEnv.exec, FlowEnv.reply, hc, Outline.Safe]⟩
      refine logOutline_write hI runId (FlowRunState.initial definition runId now deadlineAt) ?_ ?_ rfl
        (ActiveLast.of_none rfl) ?_ ?_ hgr
      · simp [FlowEnv.exec, FlowEnv.reply, hc]
      · intro other hne
        refine ⟨?_, rfl⟩
        simp [FlowEnv.exec, FlowEnv.reply, hc, Function.update_of_ne hne]
      · have hcreated := Refines.created definition runId now deadlineAt
        rw [acceptedCommits_append, hrec.2]
        simpa [FlowEnv.exec, FlowEnv.reply, hc, acceptedCommit] using hcreated
      · intro old hold
        rw [show w.repo.states runId = none from hnone] at hold
        cases hold
  unfold FlowLifecycle.create
  cases definition.budget.deadline now with
  | error e => simp [Outline.Safe]
  | ok deadlineAt =>
    cases runId with
    | some runId => exact hcreate deadlineAt runId g
    | none =>
      exact quiet_safe env i .uuid4 (fun _ => ⟨rfl, rfl⟩) (fun _ _ => rfl) (hcreate deadlineAt) g

theorem recordCancellationPropagationFailure_safe (lc : FlowLifecycle) (runId : UUID)
    (invocation : AgentInvocation) (errorType : String) (g : Option FlowRunState) :
    (logOutline ι).Safe env.exec i (fun _ _ => True) (fun _ _ => True)
      (lc.recordCancellationPropagationFailure runId invocation errorType) g := by
  refine (read_safe env i _ runId g).bind ?_
  rintro cur _ ⟨rfl, hrun, hlast⟩
  cases htok : lc.executionTokenFor runId with
  | error e => simp [Outline.Safe]
  | ok token =>
    simp only [Prog.bind_eq, Prog.ofExcept_ok, Prog.ret_bind]
    intro w log ghost hg hI _
    have hgr : ∀ read, some cur = some read → Remembered w.repo read := fun read hread =>
      hI.2 i read (hg.trans hread)
    rcases w.repo.appendEvents_cases (env.repositoryClock w.steps) runId cur.revision
      [propagationFailureDraft invocation errorType cur] token with ⟨e, hc⟩ | ⟨stored, hst, -, -, -, hc⟩
    · refine ⟨some cur, trivial, ?_, by simp [FlowEnv.exec, FlowEnv.reply, hc, Outline.Safe]⟩
      refine logOutline_quiet hI ?_ ?_ (fun _ => rfl) hgr
      · simp [FlowEnv.exec, FlowEnv.reply, hc]
      · simp [FlowEnv.exec, FlowEnv.reply, hc]
    · have hrec := hI.1 runId
      unfold Recorded at hrec
      rw [hst] at hrec
      refine ⟨some cur, trivial, ?_, by simp [FlowEnv.exec, FlowEnv.reply, hc, Outline.Safe]⟩
      refine logOutline_write hI runId stored ?_ ?_ hrec.1 hrec.2.1 ?_ ?_ hgr
      · simp [FlowEnv.exec, FlowEnv.reply, hc, InMemoryFlowRepository.extend, ← hst]
      · intro other hne
        refine ⟨?_, rfl⟩
        simp [FlowEnv.exec, FlowEnv.reply, hc, InMemoryFlowRepository.extend,
          Function.update_of_ne hne]
      · rw [acceptedCommits_append]
        simp only [FlowEnv.exec, FlowEnv.reply, hc, InMemoryFlowRepository.extend,
          Function.update_self, acceptedCommit, Bool.false_eq_true, if_false, Nat.add_zero]
        exact hrec.2.2.append runId rfl
      · intro old hold
        rw [hst] at hold
        obtain rfl := Option.some.inj hold
        exact ⟨le_refl _, fun _ => rfl⟩

theorem lifecycleCall_safe (lc : FlowLifecycle) (call : LifecycleCall) (g : Option FlowRunState) :
    (logOutline ι).Safe env.exec i (fun _ _ => True) (fun _ _ => True) (call.prog lc) g := by
  have hret : ∀ {α : Type} {p : FlowProg α} {f : α → LifecycleReply},
      (logOutline ι).Safe env.exec i (fun _ _ => True) (fun _ _ => True) p g →
      (logOutline ι).Safe env.exec i (fun _ _ => True) (fun _ _ => True)
        (p.bind fun a => .ret (f a)) g :=
    fun hp => hp.bind fun _ _ _ => trivial
  cases call with
  | create definition runId now => exact hret (create_safe env i definition runId now g)
  | get runId =>
    exact hret ((read_safe env i .get runId g).mono (fun _ _ _ => trivial) fun _ _ _ => trivial)
  | recordCancellationPropagationFailure runId invocation errorType =>
    exact hret (recordCancellationPropagationFailure_safe env i lc runId invocation errorType g)
  | start runId =>
    exact hret (transact_safe env i lc _ runId (fun _ _ hl h => startTransition_describes h hl) g)
  | beginInvocation runId request definition =>
    exact hret (transact_safe env i lc _ runId (fun _ _ _ h => beginTransition_describes h) g)
  | settleInvocation runId result =>
    exact hret (transact_safe env i lc _ runId (fun _ _ hl h => settleTransition_describes h hl) g)
  | resumeInvocation runId invocationId =>
    exact hret (transact_safe env i lc _ runId (fun _ _ hl h => resumeTransition_describes h hl) g)
  | complete runId output =>
    exact hret (transact_safe env i lc _ runId (fun _ _ _ h => completeTransition_describes h) g)
  | fail runId error =>
    exact hret (transact_safe env i lc _ runId (fun _ _ _ h => terminateTransition_describes h) g)
  | cancel runId error =>
    exact hret (transact_safe env i lc _ runId (fun _ _ _ h => terminateTransition_describes h) g)
  | interrupt runId error =>
    exact hret (transact_safe env i lc _ runId (fun _ _ _ h => terminateTransition_describes h) g)
  | reachLimit runId error metadata =>
    exact hret (transact_safe env i lc _ runId (fun _ _ _ h => terminateTransition_describes h) g)
  | acquireExecution runId ownerId ttl =>
    refine quiet_safe env i (.acquireExecution runId ownerId ttl) ?_ (fun _ _ => rfl)
      (fun r g => ofExcept_bind_safe env i r g) g
    intro w
    rcases w.repo.acquireExecution_cases (env.repositoryClock w.steps) (env.uuid4 w.steps) runId
      ownerId ttl with ⟨e, h⟩ | ⟨_, -, -, -, h⟩
    · simp [FlowEnv.exec, FlowEnv.reply, h]
    · simp [FlowEnv.exec, FlowEnv.reply, h, InMemoryFlowRepository.setLease]
  | renewExecution lease ttl =>
    refine quiet_safe env i (.renewExecution lease ttl) ?_ (fun _ _ => rfl)
      (fun r g => ofExcept_bind_safe env i r g) g
    intro w
    rcases w.repo.renewExecution_cases (env.repositoryClock w.steps) lease ttl with
      ⟨e, h⟩ | ⟨_, -, -, -, h⟩
    · simp [FlowEnv.exec, FlowEnv.reply, h]
    · simp [FlowEnv.exec, FlowEnv.reply, h, InMemoryFlowRepository.setLease]
  | releaseExecution lease =>
    refine quiet_safe env i (.releaseExecution lease) ?_ (fun _ _ => rfl)
      (fun r g => ofExcept_bind_safe env i r g) g
    intro w
    rcases w.repo.releaseExecution_cases lease with ⟨e, h⟩ | ⟨_, _, -, -, h⟩
    · simp [FlowEnv.exec, FlowEnv.reply, h]
    · simp [FlowEnv.exec, FlowEnv.reply, h, InMemoryFlowRepository.setLease]

theorem coordinator_safe (c : Coordinator) (g : Option FlowRunState) :
    (logOutline ι).Safe env.exec i (fun _ _ => True) (fun _ _ => True) c.prog g := by
  induction c generalizing g with
  | stop => trivial
  | perform lc call next ih =>
    have hcall : (logOutline ι).Safe env.exec i (fun _ _ => True) (fun _ _ => True)
        ((call.prog lc).attempt : FlowProg (Except FlowError LifecycleReply)) g :=
      (lifecycleCall_safe env i lc call g).attempt (fun _ _ _ => trivial) fun _ _ _ => trivial
    exact hcall.bind fun outcome g' _ => ih outcome g'

end Safety

theorem event_log_refines_state (env : FlowEnv) (coordinators : ι → Coordinator)
    (schedule : List ι) (runId : UUID) :
    let final := Pool.run env.exec
      { shared := ({} : FlowWorld), tasks := fun i => (coordinators i).prog, log := [] } schedule
    match final.shared.repo.states runId with
    | none => final.shared.repo.events runId = []
    | some s => Refines s (final.shared.repo.events runId) (acceptedCommits final.log runId) := by
  intro final
  have hinit : Outline.Holds env.exec (logOutline ι) (fun _ _ _ => True) (fun _ _ _ => True)
      { shared := ({} : FlowWorld), tasks := fun i => (coordinators i).prog, log := [] }
      fun _ => none := by
    refine ⟨⟨fun _ => ⟨rfl, rfl⟩, by simp⟩, fun i => coordinator_safe env i (coordinators i) none⟩
  obtain ⟨ghost, hholds⟩ := hinit.run_all (fun _ _ _ _ _ => trivial) (fun _ _ => trivial) schedule
  have hrec := hholds.1.1 runId
  unfold Recorded at hrec
  cases hs : final.shared.repo.states runId with
  | none =>
    rw [show (Pool.run env.exec _ schedule).shared.repo.states runId = none from hs] at hrec
    exact hrec.1
  | some s =>
    rw [show (Pool.run env.exec _ schedule).shared.repo.states runId = some s from hs] at hrec
    exact hrec.2.2

end Log

end Flows
end BaseAgent

import BaseAgent.Flows.Service
import BaseAgent.Flows.Work

/-!
# The polling worker

`FlowPollingWorker.run_once` claims one work item and lets `FlowExecutionRunner` execute
the handler under a lease of the Flow Run, with one heartbeat for the delivery of the item
and one for the lease.  `DefinitionResolvingFlowWorkHandler` is the handler: it resolves
the pinned definition and follows the recovery policy.

The runner acquires the lease before the handler runs, and the repository leases no
terminal Flow.  So the decision `NOOP`, which would complete the work item of a finished
Flow, is never reached: the item is scheduled for another attempt.
-/

namespace BaseAgent
namespace Flows

open Async

/-- What a worker awaits: the Flow repository, the work source, the definition resolver and
the reader of side-effect evidence. -/
inductive WorkerOp where
  | flow (op : FlowOp)
  | claim (ownerId : String) (ttlSeconds : ℚ)
  | renew (workId deliveryToken : UUID) (ttlSeconds : ℚ)
  | complete (workId deliveryToken : UUID)
  | block (workId deliveryToken : UUID) (reasonCode : String)
  | retry (workId deliveryToken : UUID) (delaySeconds : ℚ) (errorType : String)
  | resolve (definitionId definitionVersion : String)
  | listForInvocation (invocationId : UUID)
  -- how often a heartbeat of this interval comes due before the next await returns
  | heartbeats (interval : ℚ)

namespace WorkerOp

def Ret : WorkerOp → Type
  | flow o => o.Ret
  | claim .. => Except FlowError (Option FlowWorkItem)
  | renew .. | complete .. | block .. | retry .. => Except FlowError FlowWorkItem
  | resolve .. => Except FlowError FlowDefinition
  | listForInvocation .. => Except FlowError (List FlowSideEffect)
  | heartbeats .. => Nat

/-- What a task sees of an await at which it is cancelled.  The clock and the identifiers
are no awaits. -/
def interrupted : (o : WorkerOp) → Option o.Ret
  | flow (.create ..) | flow (.commit ..) | flow (.appendEvents ..) | flow (.listEvents ..) =>
    some (Except.error FlowError.cancelled)
  | flow (.get ..) => some (Except.error FlowError.cancelled)
  | flow (.acquireExecution ..) | flow (.renewExecution ..) =>
    some (Except.error FlowError.cancelled)
  | flow (.releaseExecution ..) => some (Except.error FlowError.cancelled)
  | flow (.invoke ..) | flow (.resume ..) => some Transported.cancelled
  | flow (.cancel ..) => some (some FlowError.cancelled)
  | claim .. => some (Except.error FlowError.cancelled)
  | renew .. | complete .. | block .. | retry .. => some (Except.error FlowError.cancelled)
  | resolve .. => some (Except.error FlowError.cancelled)
  | listForInvocation .. => some (Except.error FlowError.cancelled)
  | flow .clock | flow .uuid4 | heartbeats .. => none

end WorkerOp

abbrev WorkerProg (α : Type) := Prog WorkerOp WorkerOp.Ret FlowError α

namespace WorkerProg

def acquireExecution (runId : UUID) (ownerId : String) (ttlSeconds : ℚ) :
    WorkerProg FlowExecutionLease :=
  .call (.flow (.acquireExecution runId ownerId ttlSeconds)) Prog.ofExcept

def renewExecution (lease : FlowExecutionLease) (ttlSeconds : ℚ) :
    WorkerProg FlowExecutionLease :=
  .call (.flow (.renewExecution lease ttlSeconds)) Prog.ofExcept

def releaseExecution (lease : FlowExecutionLease) : WorkerProg Unit :=
  .call (.flow (.releaseExecution lease)) Prog.ofExcept

def get (runId : UUID) : WorkerProg FlowRunState := .call (.flow (.get .get runId)) Prog.ofExcept

section Heartbeat

variable {α γ : Type} (interval : ℚ) (beat : γ → WorkerProg γ)

def beats : Nat → γ → WorkerProg γ
  | 0, current => .ret current
  | n + 1, current => (beat current).bind (beats n)

/-- Run the operation beside a heartbeat, until the first of the two ends.  A heartbeat
that raises cancels the operation at the await it stands at, and its exception is the
one that counts. -/
def withHeartbeat : WorkerProg α → γ → WorkerProg α
  | .ret a, _ => .ret a
  | .raise e, _ => .raise e
  | .call o k, current =>
    match o.interrupted with
    | none => .call o fun r => withHeartbeat (k r) current
    | some reply =>
      .call (.heartbeats interval) fun n =>
        (beats beat n current).attempt.bind fun
          | .ok current => .call o fun r => withHeartbeat (k r) current
          | .error e => (k reply).attempt.bind fun _ => .raise e

end Heartbeat

end WorkerProg

structure FlowExecutionRunner where
  ownerId : String
  ttlSeconds : ℚ := 30
  heartbeatInterval : ℚ := 10
  valid : isBlank ownerId = false ∧ ownerId.length ≤ 256 ∧ 0 < ttlSeconds ∧
    0 < heartbeatInterval ∧ heartbeatInterval < ttlSeconds

namespace FlowExecutionRunner

variable {α : Type} (runner : FlowExecutionRunner)

def runOwned (lease : FlowExecutionLease) (handler : FlowExecutionLease → WorkerProg α) :
    WorkerProg α :=
  WorkerProg.withHeartbeat runner.heartbeatInterval
    (fun current => WorkerProg.renewExecution current runner.ttlSeconds) (handler lease) lease

/-- The `finally` clause: a lost lease is the failure only when nothing else failed. -/
def release (lease : FlowExecutionLease) : Except FlowError α → WorkerProg α
  | .ok a => do
    WorkerProg.releaseExecution lease
    return a
  | .error failure => do
    match ← (WorkerProg.releaseExecution lease).attempt with
    | .ok () => .raise failure
    | .error (.leaseLost _) => .raise failure
    | .error e => .raise e

def execute (runId : UUID) (handler : FlowExecutionLease → WorkerProg α) : WorkerProg α := do
  let lease ← WorkerProg.acquireExecution runId runner.ownerId runner.ttlSeconds
  let outcome ← (runner.runOwned lease handler).attempt
  release lease outcome

end FlowExecutionRunner

structure FlowRecoveryContext where
  item : FlowWorkItem
  definition : FlowDefinition
  state : FlowRunState
  decision : FlowRecoveryDecision
  lifecycle : FlowLifecycle
  sideEffects : List FlowSideEffect := []

/-- The handler.  The dispatcher is the application's: any program. -/
structure DefinitionResolvingFlowWorkHandler where
  dispatcher : FlowRecoveryContext → WorkerProg Unit
  policy : FlowRecoveryPolicy
  -- `side_effect_evidence is not None`
  sideEffectEvidence : Bool := false

namespace DefinitionResolvingFlowWorkHandler

variable (handler : DefinitionResolvingFlowWorkHandler)

/-- `FlowWorkBlockedError` of a recovery reason. -/
def blocked (reason : FlowRecoveryReason) : FlowError := .workBlocked reason.value

def resolvePinned (state : FlowRunState) : WorkerProg FlowDefinition :=
  .call (.resolve state.definitionId state.definitionVersion) fun
    | .error (.definitionNotFound _) => .raise (blocked .definitionNotFound)
    | .error e => .raise e
    | .ok definition =>
      if state.matchesDefinition definition then .ret definition
      else .raise (blocked .definitionFingerprintMismatch)

def evidence (state : FlowRunState) : WorkerProg (List FlowSideEffect) :=
  match state.activeInvocation with
  | some active =>
    if handler.sideEffectEvidence then .call (.listForInvocation active.id) Prog.ofExcept
    else .ret []
  | none => .ret []

def call (item : FlowWorkItem) (lease : FlowExecutionLease) : WorkerProg Unit := do
  let state ← WorkerProg.get item.command.runId
  let definition ← resolvePinned state
  let sideEffects ← handler.evidence state
  let decision ← Prog.ofExcept (handler.policy.decide item.command state sideEffects)
  let context : FlowRecoveryContext :=
    { item := item
      definition := definition
      state := state
      decision := decision
      lifecycle := ⟨some lease⟩
      sideEffects := sideEffects }
  match decision.action with
  | .manualReview => .raise (blocked decision.reason)
  | .noop => return ()
  | _ => handler.dispatcher context

end DefinitionResolvingFlowWorkHandler

structure FlowPollingWorker where
  executionRunner : FlowExecutionRunner
  handler : DefinitionResolvingFlowWorkHandler
  ownerId : String
  deliveryTtlSeconds : ℚ := 60
  deliveryHeartbeatInterval : ℚ := 20
  retryDelaySeconds : ℚ := 1
  valid : isBlank ownerId = false ∧ ownerId.length ≤ 256 ∧ 0 < deliveryTtlSeconds ∧
    0 < deliveryHeartbeatInterval ∧ deliveryHeartbeatInterval < deliveryTtlSeconds ∧
    0 ≤ retryDelaySeconds

namespace FlowPollingWorker

variable (worker : FlowPollingWorker)

/-- One renewal of `_delivery_heartbeat`, with the token of the item it holds. -/
def deliveryBeat (item : FlowWorkItem) : WorkerProg FlowWorkItem := do
  let token ← Prog.ofExcept (orRaise item.deliveryToken .assertion)
  .call (.renew item.id token worker.deliveryTtlSeconds) Prog.ofExcept

def runWithDeliveryHeartbeat (item : FlowWorkItem) : WorkerProg Unit :=
  WorkerProg.withHeartbeat worker.deliveryHeartbeatInterval worker.deliveryBeat
    (worker.executionRunner.execute item.command.runId (worker.handler.call item)) item

def retryAfterFailure (item : FlowWorkItem) (token : UUID) (errorType : String)
    (preserveCancellation : Bool) : WorkerProg Unit :=
  .call (.retry item.id token worker.retryDelaySeconds errorType) fun
    | .ok _ => .ret ()
    | .error (.workDeliveryLost _) => .ret ()
    | .error .cancelled => .raise .cancelled
    | .error e => if preserveCancellation then .ret () else .raise e

/-- What `run_once` does with the outcome of the item it claimed. -/
def settle (item : FlowWorkItem) (token : UUID) : Except FlowError Unit → WorkerProg Bool
  | .ok () => .call (.complete item.id token) fun r => (Prog.ofExcept r).bind fun _ => .ret true
  | .error (.workBlocked reasonCode) =>
    .call (.block item.id token reasonCode) fun r => (Prog.ofExcept r).bind fun _ => .ret true
  | .error e =>
    (worker.retryAfterFailure item token e.typeName (e = .cancelled)).bind fun _ => .raise e

def runOnce : WorkerProg Bool :=
  .call (.claim worker.ownerId worker.deliveryTtlSeconds) fun
    | .error e => .raise e
    | .ok none => .ret false
    | .ok (some item) => do
      let token ← Prog.ofExcept (orRaise item.deliveryToken .assertion)
      let outcome ← (worker.runWithDeliveryHeartbeat item).attempt
      worker.settle item token outcome

end FlowPollingWorker

/-- The answers of everything outside the worker's code, by the number of the step. -/
structure WorkerEnv where
  flow : FlowEnv
  workClock : Nat → Time
  workToken : Nat → UUID
  resolve : Nat → String → String → Except FlowError FlowDefinition
  listForInvocation : Nat → UUID → Except FlowError (List FlowSideEffect)
  heartbeats : Nat → ℚ → Nat

structure WorkerWorld where
  repo : InMemoryFlowRepository := {}
  source : InMemoryFlowWorkSource := {}
  steps : Nat := 0

namespace WorkerEnv

def exec (env : WorkerEnv) : (o : WorkerOp) → WorkerWorld → o.Ret × WorkerWorld
  | .flow o, w =>
    let out := env.flow.reply w.steps w.repo o
    (out.1, { w with repo := out.2, steps := w.steps + 1 })
  | .claim ownerId ttl, w =>
    let out := w.source.claim (env.workClock w.steps) (env.workToken w.steps) ownerId ttl
    (out.1, { w with source := out.2, steps := w.steps + 1 })
  | .renew workId token ttl, w =>
    let out := w.source.renew (env.workClock w.steps) workId token ttl
    (out.1, { w with source := out.2, steps := w.steps + 1 })
  | .complete workId token, w =>
    let out := w.source.complete (env.workClock w.steps) workId token
    (out.1, { w with source := out.2, steps := w.steps + 1 })
  | .block workId token reasonCode, w =>
    let out := w.source.block (env.workClock w.steps) workId token reasonCode
    (out.1, { w with source := out.2, steps := w.steps + 1 })
  | .retry workId token delay errorType, w =>
    let out := w.source.retry (env.workClock w.steps) workId token delay (some errorType)
    (out.1, { w with source := out.2, steps := w.steps + 1 })
  | .resolve definitionId version, w =>
    (env.resolve w.steps definitionId version, { w with steps := w.steps + 1 })
  | .listForInvocation invocationId, w =>
    (env.listForInvocation w.steps invocationId, { w with steps := w.steps + 1 })
  | .heartbeats interval, w =>
    (env.heartbeats w.steps interval, { w with steps := w.steps + 1 })

end WorkerEnv

/-! ## Work of a finished Flow -/

/-- The delivery is renewed in time `n` times, from the given step on, and the settlement,
which comes after the attempt to acquire the lease, is in time too. -/
def DeliveryKept (env : WorkerEnv) (ttlSeconds : ℚ) : Nat → Nat → Time → Prop
  | step, 0, expiry => env.workClock (step + 1) < expiry
  | step, n + 1, expiry => env.workClock step < expiry ∧
      DeliveryKept env ttlSeconds (step + 1) n (env.workClock step + timedelta ttlSeconds)

/-- The delivery of the item a claim in this world hands out does not expire. -/
def FlowPollingWorker.keepsDelivery (worker : FlowPollingWorker) (env : WorkerEnv)
    (w : WorkerWorld) : Prop :=
  DeliveryKept env worker.deliveryTtlSeconds (w.steps + 2)
    (env.heartbeats (w.steps + 1) worker.deliveryHeartbeatInterval)
    (env.workClock w.steps + timedelta worker.deliveryTtlSeconds)

section Finished

variable (env : WorkerEnv) (worker : FlowPollingWorker)

/-- The heartbeats of a running delivery touch only the item, which stays delivered, and
fail only by losing the delivery. -/
theorem beats_delivers {workId token : UUID} (n : Nat) {item : FlowWorkItem} {w : WorkerWorld}
    {expiry : Time} (hid : item.id = workId) (htoken : item.deliveryToken = some token)
    (h : w.source.Delivers workId token expiry) :
    ∃ w' expiry', w'.repo = w.repo ∧ w'.source.Delivers workId token expiry' ∧
      ((∃ item', (WorkerProg.beats worker.deliveryBeat n item).eval env.exec w = (.ok item', w') ∧
          (DeliveryKept env worker.deliveryTtlSeconds w.steps n expiry →
            env.workClock (w'.steps + 1) < expiry')) ∨
        ((WorkerProg.beats worker.deliveryBeat n item).eval env.exec w =
            (.error (InMemoryFlowWorkSource.deliveryLost workId), w') ∧
          ¬ DeliveryKept env worker.deliveryTtlSeconds w.steps n expiry)) := by
  induction n generalizing item w expiry with
  | zero => exact ⟨w, expiry, rfl, h, .inl ⟨item, rfl, fun hk => hk⟩⟩
  | succ n ih =>
    have httl : 0 < worker.deliveryTtlSeconds := worker.valid.2.2.1
    have hrenew := h.renew httl (env.workClock w.steps)
    have hbeat : (worker.deliveryBeat item).eval env.exec w =
        ((w.source.renew (env.workClock w.steps) workId token worker.deliveryTtlSeconds).1,
          { w with
            source := (w.source.renew (env.workClock w.steps) workId token
              worker.deliveryTtlSeconds).2
            steps := w.steps + 1 }) := by
      subst hid
      simp only [FlowPollingWorker.deliveryBeat, htoken, orRaise, Prog.bind_eq, Prog.ofExcept_ok,
        Prog.ret_bind, Prog.eval, WorkerEnv.exec]
      cases (w.source.renew (env.workClock w.steps) item.id token worker.deliveryTtlSeconds).1 <;>
        rfl
    rcases lt_or_ge (env.workClock w.steps) expiry with hlt | hle
    · obtain ⟨renewed, source', heq, hid', htoken', hdel⟩ := hrenew.1 hlt
      rw [heq] at hbeat
      obtain ⟨w', expiry', hrepo, hdel', hcases⟩ :=
        ih (w := { w with source := source', steps := w.steps + 1 }) hid' htoken' hdel
      refine ⟨w', expiry', hrepo, hdel', ?_⟩
      rw [WorkerProg.beats, Prog.eval_bind_ok hbeat]
      rcases hcases with ⟨item', heval, hkept⟩ | ⟨heval, hnot⟩
      · exact .inl ⟨item', heval, fun hk => hkept hk.2⟩
      · exact .inr ⟨heval, fun hk => hnot hk.2⟩
    · rw [hrenew.2 hle] at hbeat
      refine ⟨{ w with steps := w.steps + 1 }, expiry, rfl, h, .inr ⟨?_, fun hk => ?_⟩⟩
      · exact Prog.eval_bind_error hbeat
      · exact absurd hk.1 (not_lt.mpr hle)

section Heartbeat

variable {α γ : Type} {env : WorkerEnv} {interval : ℚ} {beat : γ → WorkerProg γ} {o : WorkerOp}
  {k : o.Ret → WorkerProg α} {reply : o.Ret} {current current' : γ} {w w' : WorkerWorld}

theorem withHeartbeat_call (h : o.interrupted = some reply) :
    WorkerProg.withHeartbeat interval beat (.call o k) current =
      .call (.heartbeats interval) fun n =>
        (WorkerProg.beats beat n current).attempt.bind fun
          | .ok current => .call o fun r => WorkerProg.withHeartbeat interval beat (k r) current
          | .error e => (k reply).attempt.bind fun _ => .raise e := by
  rw [WorkerProg.withHeartbeat, h]

/-- The heartbeats due before an await went well: the await returns. -/
theorem eval_withHeartbeat_ok (h : o.interrupted = some reply)
    (hbeats : (WorkerProg.beats beat (env.heartbeats w.steps interval) current).eval env.exec
      { w with steps := w.steps + 1 } = (.ok current', w')) :
    (WorkerProg.withHeartbeat interval beat (.call o k) current).eval env.exec w =
      (WorkerProg.withHeartbeat interval beat (k (env.exec o w').1) current').eval env.exec
        (env.exec o w').2 := by
  have hattempt : ((WorkerProg.beats beat (env.heartbeats w.steps interval) current).attempt :
      WorkerProg (Except FlowError γ)).eval env.exec { w with steps := w.steps + 1 } =
        (.ok (.ok current'), w') := by
    rw [Prog.eval_attempt, hbeats]
  rw [withHeartbeat_call h]
  exact Prog.eval_bind_ok hattempt

/-- A heartbeat raised: its exception counts, after the operation was cancelled. -/
theorem eval_withHeartbeat_error (h : o.interrupted = some reply) {e : FlowError}
    (hbeats : (WorkerProg.beats beat (env.heartbeats w.steps interval) current).eval env.exec
      { w with steps := w.steps + 1 } = (.error e, w')) :
    (WorkerProg.withHeartbeat interval beat (.call o k) current).eval env.exec w =
      (.error e, ((k reply).eval env.exec w').2) := by
  have hattempt : ((WorkerProg.beats beat (env.heartbeats w.steps interval) current).attempt :
      WorkerProg (Except FlowError γ)).eval env.exec { w with steps := w.steps + 1 } =
        (.ok (.error e), w') := by
    rw [Prog.eval_attempt, hbeats]
  have hcancelled : ((k reply).attempt : WorkerProg (Except FlowError α)).eval env.exec w' =
      (.ok ((k reply).eval env.exec w').1, ((k reply).eval env.exec w').2) :=
    Prog.eval_attempt _ _
  rw [withHeartbeat_call h]
  exact (Prog.eval_bind_ok hattempt).trans (Prog.eval_bind_ok hcancelled)

end Heartbeat

/-- `FlowLeaseUnavailableError` of a terminal Flow Run. -/
def terminalUnclaimable (runId : UUID) : FlowError :=
  .leaseUnavailable s!"terminal Flow Run '{uuidText runId}' cannot be claimed"

theorem acquireExecution_terminal {r : InMemoryFlowRepository} {runId : UUID} {s : FlowRunState}
    (hs : r.states runId = some s) (hterm : s.status.terminal = true) {ownerId : String}
    {ttlSeconds : ℚ} (hargs : validateLeaseArguments ownerId ttlSeconds = .ok ()) (now : Time)
    (token : UUID) :
    r.acquireExecution now token runId ownerId ttlSeconds =
      (.error (terminalUnclaimable runId), r) := by
  simp only [InMemoryFlowRepository.acquireExecution, hargs, hs, hterm, if_true]
  rfl

theorem FlowExecutionRunner.arguments_valid (runner : FlowExecutionRunner) :
    validateLeaseArguments runner.ownerId runner.ttlSeconds = .ok () := by
  obtain ⟨hblank, hlength, httl, -, -⟩ := runner.valid
  simp [validateLeaseArguments, hblank, not_lt.mpr hlength, not_le.mpr httl]

/-- On a finished Flow the execution ends before the handler runs, with the lease refused
or the delivery lost. -/
theorem runWithDeliveryHeartbeat_terminal {item : FlowWorkItem} {w : WorkerWorld} {token : UUID}
    {expiry : Time} {s : FlowRunState} (htoken : item.deliveryToken = some token)
    (hdel : w.source.Delivers item.id token expiry)
    (hs : w.repo.states item.command.runId = some s) (hterm : s.status.terminal = true) :
    ∃ e w' expiry', (worker.runWithDeliveryHeartbeat item).eval env.exec w = (.error e, w') ∧
      (e = terminalUnclaimable item.command.runId ∨
        e = InMemoryFlowWorkSource.deliveryLost item.id) ∧
      w'.source.Delivers item.id token expiry' ∧
      (DeliveryKept env worker.deliveryTtlSeconds (w.steps + 1)
          (env.heartbeats w.steps worker.deliveryHeartbeatInterval) expiry →
        e = terminalUnclaimable item.command.runId ∧ env.workClock w'.steps < expiry') := by
  obtain ⟨w', expiry', hrepo, hdel', hcases⟩ := beats_delivers env worker
    (env.heartbeats w.steps worker.deliveryHeartbeatInterval) (w := { w with steps := w.steps + 1 })
    rfl htoken hdel
  rcases hcases with ⟨current, hbeats, hkept⟩ | ⟨hbeats, hnot⟩
  · have hs' : w'.repo.states item.command.runId = some s := by
      rw [hrepo]
      exact hs
    have hacquire := acquireExecution_terminal hs' hterm worker.executionRunner.arguments_valid
      (env.flow.repositoryClock w'.steps) (env.flow.uuid4 w'.steps)
    refine ⟨terminalUnclaimable item.command.runId, { w' with steps := w'.steps + 1 }, expiry', ?_,
      .inl rfl, hdel', fun hk => ⟨rfl, hkept hk⟩⟩
    refine (eval_withHeartbeat_ok rfl hbeats).trans ?_
    simp only [WorkerEnv.exec, FlowEnv.reply, hacquire]
    rfl
  · refine ⟨_, w', expiry', ?_, .inr rfl, hdel', fun hk => absurd hk hnot⟩
    exact eval_withHeartbeat_error (o := .flow (.acquireExecution item.command.runId
      worker.executionRunner.ownerId worker.executionRunner.ttlSeconds)) rfl hbeats

theorem retryArguments_valid {errorType : String} (hblank : isBlank errorType = false)
    (hlength : errorType.length ≤ 256) :
    validateRetryArguments worker.retryDelaySeconds (some errorType) = .ok () := by
  have hdelay := worker.valid.2.2.2.2.2
  simp only [validateRetryArguments, Except.bind_ok, raiseIf_ok, not_lt.mpr hdelay,
    Option.mem_some_iff, exists_eq_left', hblank, not_lt.mpr hlength]
  simp

/-- Settling an item after an exception: it is pending again with the exception's type, or
stays as it is when the delivery was lost, and the exception goes on. -/
theorem settle_retries {item : FlowWorkItem} {token : UUID} {w : WorkerWorld} {expiry : Time}
    {e : FlowError} (hblocked : ∀ reason, e ≠ .workBlocked reason)
    (hblank : isBlank e.typeName = false) (hlength : e.typeName.length ≤ 256)
    (hdel : w.source.Delivers item.id token expiry) :
    ∃ w' final, (worker.settle item token (.error e)).eval env.exec w = (.error e, w') ∧
      w'.source.item item.id = some final ∧ final.status ≠ .completed ∧
      (env.workClock w.steps < expiry →
        final.status = .pending ∧ final.lastErrorType = some e.typeName) := by
  have hprog : worker.settle item token (.error e) =
      (worker.retryAfterFailure item token e.typeName (e = .cancelled)).bind fun _ => .raise e := by
    cases e with
    | workBlocked reason => exact absurd rfl (hblocked reason)
    | _ => rfl
  have hretry := hdel.retry (retryArguments_valid worker hblank hlength) (env.workClock w.steps)
  rw [hprog]
  rcases lt_or_ge (env.workClock w.steps) expiry with hlt | hle
  · obtain ⟨final, source', heq, hitem, hstatus, herror⟩ := hretry.1 hlt
    refine ⟨{ w with source := source', steps := w.steps + 1 }, final, ?_, hitem, ?_,
      fun _ => ⟨hstatus, herror⟩⟩
    · simp only [FlowPollingWorker.retryAfterFailure, Prog.call_bind, Prog.eval, WorkerEnv.exec, heq]
      rfl
    · simp [hstatus]
  · obtain ⟨current, hitem, -, hstatus, -⟩ := hdel
    refine ⟨{ w with steps := w.steps + 1 }, current, ?_, hitem, by simp [hstatus],
      fun hlt => absurd hlt (not_lt.mpr hle)⟩
    simp only [FlowPollingWorker.retryAfterFailure, Prog.call_bind, Prog.eval, WorkerEnv.exec,
      hretry.2 hle]
    rfl

/-- Whatever the world, the heartbeats and the history of the item: `run_once` raises, and
the item of a finished Flow is not completed.  With its delivery kept it is pending again,
with the refused lease as its error. -/
theorem finished_flow_work_retried (w : WorkerWorld) (item : FlowWorkItem)
    (source : InMemoryFlowWorkSource) (s : FlowRunState)
    (hclaim : w.source.claim (env.workClock w.steps) (env.workToken w.steps) worker.ownerId
      worker.deliveryTtlSeconds = (.ok (some item), source))
    (hs : w.repo.states item.command.runId = some s) (hterm : s.status.terminal = true) :
    ∃ e w' final, worker.runOnce.eval env.exec w = (.error e, w') ∧
      w'.source.item item.id = some final ∧ final.status ≠ .completed ∧
      (worker.keepsDelivery env w → e = terminalUnclaimable item.command.runId ∧
        final.status = .pending ∧ final.lastErrorType = some "FlowLeaseUnavailableError") := by
  obtain ⟨htoken, hdel⟩ := InMemoryFlowWorkSource.claim_delivers hclaim
  obtain ⟨e, w₁, expiry₁, hrun, he, hdel₁, hkept⟩ := runWithDeliveryHeartbeat_terminal env worker
    (w := { w with source := source, steps := w.steps + 1 }) htoken hdel hs hterm
  have hprog : worker.runOnce.eval env.exec w =
      (worker.settle item (env.workToken w.steps) (.error e)).eval env.exec w₁ := by
    have hexec : env.exec (.claim worker.ownerId worker.deliveryTtlSeconds) w =
        (.ok (some item), { w with source := source, steps := w.steps + 1 }) := by
      simp only [WorkerEnv.exec, hclaim]
    have hattempt : ((worker.runWithDeliveryHeartbeat item).attempt :
        WorkerProg (Except FlowError Unit)).eval env.exec
          { w with source := source, steps := w.steps + 1 } = (.ok (.error e), w₁) := by
      rw [Prog.eval_attempt, hrun]
    rw [FlowPollingWorker.runOnce, Prog.eval, hexec]
    simp only [htoken, orRaise, Prog.bind_eq, Prog.ofExcept_ok, Prog.ret_bind]
    exact Prog.eval_bind_ok hattempt
  rw [hprog]
  rcases he with rfl | rfl
  · have hblank : isBlank "FlowLeaseUnavailableError" = false := by decide
    have hlength : "FlowLeaseUnavailableError".length ≤ 256 := by decide
    obtain ⟨w₂, final, heval, hitem, hstatus, hpending⟩ := settle_retries env worker
      (e := terminalUnclaimable item.command.runId) (fun _ h => by cases h) hblank hlength hdel₁
    refine ⟨_, w₂, final, heval, hitem, hstatus, fun hk => ⟨rfl, ?_⟩⟩
    exact hpending (hkept hk).2
  · have hblank : isBlank "FlowWorkDeliveryLostError" = false := by decide
    have hlength : "FlowWorkDeliveryLostError".length ≤ 256 := by decide
    obtain ⟨w₂, final, heval, hitem, hstatus, -⟩ := settle_retries env worker
      (e := InMemoryFlowWorkSource.deliveryLost item.id) (fun _ h => by cases h) hblank hlength
      hdel₁
    refine ⟨_, w₂, final, heval, hitem, hstatus, fun hk => ?_⟩
    have hsame := (hkept hk).1
    cases hsame

end Finished

def finishedState : FlowRunState :=
  { FlowRunState.initial soloDefinition 7 0 none with
    revision := 2
    status := .cancelled
    error := some "stop" }

def finishedWorld : WorkerWorld where
  repo := { states := Function.update (fun _ => none) 7 (some finishedState) }
  source :=
    { items := [(1, { command := { id := 1, runId := 7, idempotencyKey := "key" }
                      availableAt := 0
                      updatedAt := 0 })] }

def idleFlowEnv : FlowEnv :=
  { clock := fun _ => 0, repositoryClock := fun _ => 0, uuid4 := fun n => n
    invoke := fun _ _ _ => .timeout
    resume := fun _ _ _ => .timeout
    cancel := fun _ _ => none }

def idleEnv : WorkerEnv :=
  { flow := idleFlowEnv, workClock := fun _ => 0, workToken := fun n => n
    resolve := fun _ _ _ => .ok soloDefinition
    listForInvocation := fun _ _ => .ok []
    heartbeats := fun _ _ => 1 }

def defaultWorker : FlowPollingWorker :=
  { executionRunner := { ownerId := "worker", valid := by decide }
    handler := { dispatcher := fun _ => .ret (), policy := ⟨fun _ => none⟩ }
    ownerId := "worker"
    valid := by decide }

def claimedItem : FlowWorkItem :=
  { command := { id := 1, runId := 7, idempotencyKey := "key" }
    status := .claimed
    attempt := 1
    availableAt := 0
    ownerId := some "worker"
    deliveryToken := some 0
    claimedAt := some 0
    leaseExpiresAt := some (0 + timedelta 60)
    updatedAt := 0 }

theorem finished_flow_work_retried_pending :
    ∃ w' final, defaultWorker.runOnce.eval idleEnv.exec finishedWorld =
        (.error (terminalUnclaimable 7), w') ∧
      w'.source.item 1 = some final ∧ final.status = .pending ∧
      final.lastErrorType = some "FlowLeaseUnavailableError" := by
  have hclaim : finishedWorld.source.claim (idleEnv.workClock finishedWorld.steps)
      (idleEnv.workToken finishedWorld.steps) defaultWorker.ownerId
      defaultWorker.deliveryTtlSeconds = (.ok (some claimedItem), { items := [(1, claimedItem)] }) := by
    have hvalid : validateDeliveryArguments "worker" 60 = .ok () := by decide
    have hclaimable : (finishedWorld.source.items.map (·.2)).filter (fun item => item.claimable 0) =
        finishedWorld.source.items.map (·.2) := by rfl
    show finishedWorld.source.claim 0 0 "worker" 60 = _
    rw [InMemoryFlowWorkSource.claim, hvalid, hclaimable]
    rfl
  have hkept : defaultWorker.keepsDelivery idleEnv finishedWorld := by
    have hlater : (0 : Time) < 0 + timedelta 60 := by decide +kernel
    exact ⟨hlater, hlater⟩
  obtain ⟨e, w', final, heval, hitem, -, hpending⟩ := finished_flow_work_retried idleEnv
    defaultWorker finishedWorld claimedItem _ finishedState hclaim rfl rfl
  obtain ⟨rfl, hstatus, herror⟩ := hpending hkept
  exact ⟨w', final, heval, hitem, hstatus, herror⟩

theorem finished_flow_work_not_completed :
    ((defaultWorker.runOnce.eval idleEnv.exec finishedWorld).2.source.item 1).map
        (fun item => (item.status, item.lastErrorType)) =
      some (.pending, some "FlowLeaseUnavailableError") := by
  decide +kernel

end Flows
end BaseAgent

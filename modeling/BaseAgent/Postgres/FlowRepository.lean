import BaseAgent.Flows.Validity
import BaseAgent.Postgres.Rows

/-!
# The PostgreSQL Flow repository

`PostgresFlowRepository` keeps each Flow Run as a JSON payload beside its revision, each event under
its Run and its sequence number, and one lease row for a Run.  An operation is one transaction, which
raises or leaves new tables.  A state that is read from its payload is validated again.

The checks of this repository are written a second time; they are modelled from there.  Only
`validate_flow_replacement` is shared with the in-memory repository.
-/

namespace BaseAgent
namespace Postgres

open BaseAgent.Flows

/-! ## Rows -/

/-- A row of `base_agent_flow_runs`. -/
structure FlowRunRow where
  id : UUID
  revision : Nat
  status : RunStatus
  payload : FlowRunState

def flowValues (state : FlowRunState) : FlowRunRow where
  id := state.runId
  revision := state.revision
  status := state.status
  payload := state

/-- A row of `base_agent_flow_events`. -/
structure FlowEventRow where
  runId : UUID
  sequence : Nat
  eventType : EventType
  payload : RuntimeEvent

/-- The values that `_insert_events` gives for an event. -/
def eventValues (event : RuntimeEvent) : FlowEventRow where
  runId := event.runId
  sequence := event.sequence
  eventType := event.type
  payload := event

/-- A row of `base_agent_flow_leases`. -/
structure FlowLeaseRow where
  runId : UUID
  token : UUID
  ownerId : String
  attempt : Nat
  active : Bool
  acquiredAt : Time
  heartbeatAt : Time
  expiresAt : Time

def leaseValues (lease : FlowExecutionLease) (active : Bool) : FlowLeaseRow where
  runId := lease.runId
  token := lease.token
  ownerId := lease.ownerId
  attempt := lease.attempt
  active := active
  acquiredAt := lease.acquiredAt
  heartbeatAt := lease.heartbeatAt
  expiresAt := lease.expiresAt

/-! ## Validation -/

/-- `^[0-9a-f]{64}$`. -/
def fingerprintPattern (text : String) : Bool :=
  text.length == 64 && text.toList.all fun c => c.isDigit || ('a' ≤ c && c ≤ 'f')

instance (b : FlowBudget) : Decidable b.Valid :=
  inferInstanceAs (Decidable (1 ≤ b.maxInvocations ∧ (∀ n ∈ b.maxInputTokens, 1 ≤ n) ∧
    (∀ n ∈ b.maxOutputTokens, 1 ≤ n) ∧ (∀ n ∈ b.maxTotalTokens, 1 ≤ n) ∧
    (∀ n ∈ b.maxModelCalls, 1 ≤ n) ∧ (∀ n ∈ b.maxToolCalls, 1 ≤ n) ∧ ∀ t ∈ b.timeoutSeconds, 0 < t))

/-- A `ValueError` of a validator becomes a `ValidationError`. -/
def validator (model : String) (check : Except FlowError Unit) : Except FlowError Unit :=
  check.mapError fun e => .validation model "" e.text

def validateInvocation (inv : AgentInvocation) : Except FlowError Unit := do
  raiseIf (inv.sequence < 1) (.validation "AgentInvocation" "sequence"
    "Input should be greater than or equal to 1")
  raiseIf (¬ fingerprintPattern inv.definitionFingerprint = true)
    (.validation "AgentInvocation" "definition_fingerprint"
      "String should match pattern '^[0-9a-f]\x7b64\x7d$'")
  validator "AgentInvocation" inv.validateResult

/-- The checks of a `FlowRunState`: its fields, its invocations and `validate_state`. -/
def checkFlow (state : FlowRunState) : Except FlowError Unit := do
  raiseIf (¬ fingerprintPattern state.definitionFingerprint = true)
    (.validation "FlowRunState" "definition_fingerprint"
      "String should match pattern '^[0-9a-f]\x7b64\x7d$'")
  raiseIf (¬ state.budget.Valid) (.validation "FlowRunState" "budget"
    "Input should be greater than or equal to 1")
  raiseIf (state.revision < 1) (.validation "FlowRunState" "revision"
    "Input should be greater than or equal to 1")
  state.invocations.forM validateInvocation
  validator "FlowRunState" state.validateState

/-- `FlowRunState.model_validate(payload)`. -/
def validateFlow (state : FlowRunState) : Except FlowError FlowRunState := do
  checkFlow state
  return state

theorem validator_ok {model : String} {check : Except FlowError Unit} :
    validator model check = .ok () ↔ check = .ok () := by
  cases check with
  | error e => simp [validator, Except.mapError]
  | ok u => simp [validator, Except.mapError]

theorem validateInvocation_ok {inv : AgentInvocation} :
    validateInvocation inv = .ok () ↔ 1 ≤ inv.sequence ∧
      fingerprintPattern inv.definitionFingerprint = true ∧ inv.validateResult = .ok () := by
  unfold validateInvocation
  simp only [AgentInvocation.checked_ok, raiseIf_ok, validator_ok, not_lt, not_not]

theorem forM_validateInvocation {invocations : List AgentInvocation} :
    invocations.forM validateInvocation = .ok () ↔
      ∀ inv ∈ invocations, validateInvocation inv = .ok () := by
  induction invocations with
  | nil => simp [pure, Except.pure]
  | cons inv rest ih =>
    show (validateInvocation inv >>= fun _ => rest.forM validateInvocation) = .ok () ↔ _
    rw [AgentInvocation.checked_ok, ih, List.forall_mem_cons]

/-- A payload is read back exactly when its fields are in range and the state loads. -/
theorem validateFlow_ok {state : FlowRunState} :
    validateFlow state = .ok state ↔
      fingerprintPattern state.definitionFingerprint = true ∧ state.budget.Valid ∧
      1 ≤ state.revision ∧
      (∀ inv ∈ state.invocations, 1 ≤ inv.sequence ∧
        fingerprintPattern inv.definitionFingerprint = true) ∧ state.Loads := by
  have hcheck : validateFlow state = .ok state ↔ checkFlow state = .ok () := by
    unfold validateFlow
    rw [Except.bind_ok]
    constructor
    · rintro ⟨u, hu, -⟩
      exact hu
    · intro hu
      exact ⟨(), hu, rfl⟩
  rw [hcheck]
  unfold checkFlow FlowRunState.Loads
  simp only [AgentInvocation.checked_ok, raiseIf_ok, forM_validateInvocation,
    validateInvocation_ok, validator_ok, not_lt, not_not]
  constructor
  · intro h
    exact ⟨h.1, h.2.1, h.2.2.1, fun inv hinv => ⟨(h.2.2.2.1 inv hinv).1, (h.2.2.2.1 inv hinv).2.1⟩,
      h.2.2.2.2, fun inv hinv => (h.2.2.2.1 inv hinv).2.2⟩
  · intro h
    exact ⟨h.1, h.2.1, h.2.2.1, fun inv hinv => ⟨(h.2.2.2.1 inv hinv).1, (h.2.2.2.1 inv hinv).2,
      h.2.2.2.2.2 inv hinv⟩, h.2.2.2.2.1⟩

/-- `RuntimeEvent.model_validate(payload)`. -/
def validateEvent (event : RuntimeEvent) : Except FlowError RuntimeEvent := do
  raiseIf (event.sequence < 1) (.validation "RuntimeEvent" "sequence"
    "Input should be greater than or equal to 1")
  return event

/-- The constructor of `FlowExecutionLease`. -/
def constructLease (lease : FlowExecutionLease) : Except FlowError FlowExecutionLease := do
  raiseIf (lease.ownerId.length < 1) (.validation "FlowExecutionLease" "owner_id"
    "String should have at least 1 character")
  raiseIf (lease.ownerId.length > 256) (.validation "FlowExecutionLease" "owner_id"
    "String should have at most 256 characters")
  raiseIf (lease.attempt < 1) (.validation "FlowExecutionLease" "attempt"
    "Input should be greater than or equal to 1")
  return lease

def FlowLeaseRow.lease (row : FlowLeaseRow) : FlowExecutionLease where
  runId := row.runId
  token := row.token
  ownerId := row.ownerId
  attempt := row.attempt
  acquiredAt := row.acquiredAt
  heartbeatAt := row.heartbeatAt
  expiresAt := row.expiresAt

def leaseFromRow (row : FlowLeaseRow) : Except FlowError FlowExecutionLease :=
  constructLease row.lease

/-! ## Transactions -/

structure PostgresFlowRepository where
  flowRuns : List FlowRunRow := []
  flowEvents : List FlowEventRow := []
  flowLeases : List FlowLeaseRow := []

namespace PostgresFlowRepository

def materializeEvents (runId : UUID) (drafts : List FlowEventDraft) (startSequence : Nat) :
    List RuntimeEvent :=
  drafts.mapIdx fun offset draft =>
    { runId := runId, sequence := startSequence + offset, type := draft.type, data := draft.data }

def validateLeaseArguments (ownerId : String) (ttlSeconds : ℚ) : Except FlowError Unit := do
  raiseIf (isBlank ownerId = true) (.value "Flow lease owner_id must not be blank")
  raiseIf (ownerId.length > 256) (.value "Flow lease owner_id must not exceed 256 characters")
  raiseIf (ttlSeconds ≤ 0) (.value "Flow lease ttl_seconds must be greater than zero")

def notFound (runId : UUID) : FlowError :=
  .notFound s!"Flow Run '{uuidText runId}' was not found"

def leaseLost (runId : UUID) : FlowError :=
  .leaseLost s!"Flow execution lease for '{uuidText runId}' was lost"

def integrityError : FlowError := .other "IntegrityError" "violates a constraint"

variable (repo : PostgresFlowRepository)

def lockState (runId : UUID) : Except FlowError FlowRunState :=
  match rowOf (·.id) repo.flowRuns runId with
  | none => .error (notFound runId)
  | some row => validateFlow row.payload

def nextSequence (runId : UUID) : Nat :=
  maximum (·.sequence) (repo.flowEvents.filter fun row => row.runId = runId) + 1

def leaseRow (runId : UUID) : Option FlowLeaseRow := rowOf (·.runId) repo.flowLeases runId

def validateExecutionToken (runId : UUID) (executionToken : Option UUID) (now : Time) :
    Except FlowError Unit :=
  match repo.leaseRow runId with
  | none =>
    raiseIf (executionToken ≠ none)
      (.leaseLost s!"Flow Run '{uuidText runId}' has no execution lease")
  | some row =>
    raiseIf (executionToken = none ∨ row.active = false ∨ some row.token ≠ executionToken ∨
      row.expiresAt ≤ now)
      (.leaseLost s!"Flow execution lease for '{uuidText runId}' is not valid")

-- A statement that would leave a table with two rows under one unique key, or with a row for a Flow
-- Run that does not exist, raises.

def insertRun (state : FlowRunState) : Except FlowError PostgresFlowRepository := do
  let rows := repo.flowRuns ++ [flowValues state]
  raiseIf (¬ (rows.map (·.id)).Nodup) integrityError
  return { repo with flowRuns := rows }

def insertEvents (events : List RuntimeEvent) : Except FlowError PostgresFlowRepository := do
  let rows := repo.flowEvents ++ events.map eventValues
  raiseIf (¬ (rows.map fun row => (row.runId, row.sequence)).Nodup) integrityError
  raiseIf (∃ event ∈ events, event.runId ∉ repo.flowRuns.map (·.id)) integrityError
  return { repo with flowEvents := rows }

def insertLease (row : FlowLeaseRow) : Except FlowError PostgresFlowRepository := do
  let rows := repo.flowLeases ++ [row]
  raiseIf (¬ (rows.map (·.runId)).Nodup) integrityError
  raiseIf (¬ (rows.map (·.token)).Nodup) integrityError
  raiseIf (row.runId ∉ repo.flowRuns.map (·.id)) integrityError
  return { repo with flowLeases := rows }

def updateLease (row : FlowLeaseRow) : Except FlowError PostgresFlowRepository := do
  let rows := setRow (·.runId) repo.flowLeases row
  raiseIf (¬ (rows.map (·.token)).Nodup) integrityError
  return { repo with flowLeases := rows }

def create (state : FlowRunState) (drafts : List FlowEventDraft) :
    Except FlowError (List RuntimeEvent × PostgresFlowRepository) := do
  raiseIf (state.revision ≠ 1) (.value "a new Flow Run must start at revision 1")
  raiseIf (drafts.isEmpty = true) (.value "creating a Flow Run requires at least one event")
  let persisted := materializeEvents state.runId drafts 1
  match repo.insertRun state >>= fun inserted => inserted.insertEvents persisted with
  | .ok after => return (persisted, after)
  | .error e =>
    throw (if e = integrityError then
      .alreadyExists s!"Flow Run '{uuidText state.runId}' already exists" else e)

def get (runId : UUID) : Except FlowError (FlowRunState × PostgresFlowRepository) :=
  match rowOf (·.id) repo.flowRuns runId with
  | none => throw (notFound runId)
  | some row => do return (← validateFlow row.payload, repo)

/-- The rows that the update of `commit` changes. -/
def committing (runId : UUID) (expectedRevision : Nat) (row : FlowRunRow) : Bool :=
  row.id = runId ∧ row.revision = expectedRevision

def commit (now : Time) (state : FlowRunState) (expectedRevision : Nat)
    (drafts : List FlowEventDraft) (executionToken : Option UUID) :
    Except FlowError (List RuntimeEvent × PostgresFlowRepository) := do
  raiseIf (drafts.isEmpty = true) (.value "committing a Flow Run requires at least one event")
  let current ← repo.lockState state.runId
  repo.validateExecutionToken state.runId executionToken now
  validateFlowReplacement current state expectedRevision
  let persisted := materializeEvents state.runId drafts (repo.nextSequence state.runId)
  let rowcount := (repo.flowRuns.filter (committing state.runId expectedRevision)).length
  raiseIf (rowcount ≠ 1)
    (.revisionConflict s!"Flow Run '{uuidText state.runId}' changed while committing")
  let updated := { repo with
    flowRuns := repo.flowRuns.map fun row =>
      if committing state.runId expectedRevision row then flowValues state else row }
  return (persisted, ← updated.insertEvents persisted)

def appendEvents (now : Time) (runId : UUID) (expectedRevision : Nat)
    (drafts : List FlowEventDraft) (executionToken : Option UUID) :
    Except FlowError (List RuntimeEvent × PostgresFlowRepository) := do
  raiseIf (drafts.isEmpty = true) (.value "appending Flow events requires at least one event")
  let current ← repo.lockState runId
  repo.validateExecutionToken runId executionToken now
  raiseIf (current.revision ≠ expectedRevision)
    (.revisionConflict (s!"Flow Run '{uuidText runId}' revision conflict: " ++
      s!"expected {expectedRevision}, found {current.revision}"))
  let persisted := materializeEvents runId drafts (repo.nextSequence runId)
  return (persisted, ← repo.insertEvents persisted)

def events (runId : UUID) : Except FlowError (List RuntimeEvent × PostgresFlowRepository) := do
  raiseIf (rowOf (·.id) repo.flowRuns runId).isNone (notFound runId)
  let rows := orderBy (·.sequence) (repo.flowEvents.filter fun row => row.runId = runId)
  return (← rows.mapM fun row => validateEvent row.payload, repo)

/-- A lease that another worker still holds is not granted again. -/
def refuseHeld (runId : UUID) (now : Time) (prior : Option FlowLeaseRow) : Except FlowError Unit :=
  match prior with
  | none => .ok ()
  | some row =>
    raiseIf (row.active = true ∧ row.expiresAt > now)
      (.leaseUnavailable s!"Flow Run '{uuidText runId}' is leased by '{row.ownerId}'")

/-- The lease of an acquisition, after the row there was before. -/
def acquiredLease (now : Time) (token runId : UUID) (ownerId : String) (ttlSeconds : ℚ)
    (prior : Option FlowLeaseRow) : FlowExecutionLease where
  runId := runId
  token := token
  ownerId := ownerId
  attempt := match prior with
    | some row => row.attempt + 1
    | none => 1
  acquiredAt := now
  heartbeatAt := now
  expiresAt := now + timedelta ttlSeconds

def storeLease (prior : Option FlowLeaseRow) (values : FlowLeaseRow) :
    Except FlowError PostgresFlowRepository :=
  match prior with
  | none => repo.insertLease values
  | some _ => repo.updateLease values

def acquireExecution (now : Time) (token runId : UUID) (ownerId : String) (ttlSeconds : ℚ) :
    Except FlowError (FlowExecutionLease × PostgresFlowRepository) := do
  validateLeaseArguments ownerId ttlSeconds
  let state ← repo.lockState runId
  raiseIf (state.status.terminal = true)
    (.leaseUnavailable s!"terminal Flow Run '{uuidText runId}' cannot be claimed")
  let prior := repo.leaseRow runId
  refuseHeld runId now prior
  let lease ← constructLease (acquiredLease now token runId ownerId ttlSeconds prior)
  return (lease, ← repo.storeLease prior (leaseValues lease true))

def renewExecution (now : Time) (lease : FlowExecutionLease) (ttlSeconds : ℚ) :
    Except FlowError (FlowExecutionLease × PostgresFlowRepository) := do
  validateLeaseArguments lease.ownerId ttlSeconds
  let _ ← repo.lockState lease.runId
  match repo.leaseRow lease.runId with
  | none => throw (leaseLost lease.runId)
  | some row =>
    raiseIf (row.active = false ∨ row.token ≠ lease.token ∨ row.expiresAt ≤ now)
      (leaseLost lease.runId)
    let current ← leaseFromRow row
    let renewed : FlowExecutionLease :=
      { current with heartbeatAt := now, expiresAt := now + timedelta ttlSeconds }
    return (renewed, ← repo.updateLease (leaseValues renewed true))

def releaseExecution (lease : FlowExecutionLease) :
    Except FlowError (Unit × PostgresFlowRepository) := do
  let _ ← repo.lockState lease.runId
  match repo.leaseRow lease.runId with
  | none => throw (leaseLost lease.runId)
  | some row =>
    raiseIf (row.token ≠ lease.token) (leaseLost lease.runId)
    if row.active then return ((), ← repo.updateLease { row with active := false })
    else return ((), repo)

end PostgresFlowRepository

/-! ## Both repositories -/

/-- An operation; `token` is what `uuid4()` returns during an acquisition. -/
inductive FlowRepositoryOp where
  | create (state : FlowRunState) (drafts : List FlowEventDraft)
  | get (runId : UUID)
  | commit (state : FlowRunState) (expectedRevision : Nat) (drafts : List FlowEventDraft)
      (executionToken : Option UUID)
  | appendEvents (runId : UUID) (expectedRevision : Nat) (drafts : List FlowEventDraft)
      (executionToken : Option UUID)
  | events (runId : UUID)
  | acquireExecution (token runId : UUID) (ownerId : String) (ttlSeconds : ℚ)
  | renewExecution (lease : FlowExecutionLease) (ttlSeconds : ℚ)
  | releaseExecution (lease : FlowExecutionLease)

structure FlowRepositoryCall where
  now : Time
  op : FlowRepositoryOp

inductive FlowRepositoryReply where
  | state (state : FlowRunState)
  | events (events : List RuntimeEvent)
  | lease (lease : FlowExecutionLease)
  | released

namespace PostgresFlowRepository

variable (repo : PostgresFlowRepository)

def transaction (call : FlowRepositoryCall) :
    Except FlowError (FlowRepositoryReply × PostgresFlowRepository) :=
  match call.op with
  | .create state drafts => (repo.create state drafts).map (Prod.map .events id)
  | .get runId => (repo.get runId).map (Prod.map .state id)
  | .commit state expected drafts token =>
    (repo.commit call.now state expected drafts token).map (Prod.map .events id)
  | .appendEvents runId expected drafts token =>
    (repo.appendEvents call.now runId expected drafts token).map (Prod.map .events id)
  | .events runId => (repo.events runId).map (Prod.map .events id)
  | .acquireExecution token runId ownerId ttl =>
    (repo.acquireExecution call.now token runId ownerId ttl).map (Prod.map .lease id)
  | .renewExecution lease ttl => (repo.renewExecution call.now lease ttl).map (Prod.map .lease id)
  | .releaseExecution lease =>
    (repo.releaseExecution lease).map (Prod.map (fun _ => .released) id)

/-- Perform one operation.  A transaction that raises is rolled back. -/
def perform (call : FlowRepositoryCall) :
    Except FlowError FlowRepositoryReply × PostgresFlowRepository :=
  match repo.transaction call with
  | .ok (reply, after) => (.ok reply, after)
  | .error e => (.error e, repo)

def after (calls : List FlowRepositoryCall) : PostgresFlowRepository :=
  calls.foldl (fun repo call => (repo.perform call).2) {}

end PostgresFlowRepository

def FlowRepositoryCall.perform (call : FlowRepositoryCall) (memory : InMemoryFlowRepository) :
    Except FlowError FlowRepositoryReply × InMemoryFlowRepository :=
  match call.op with
  | .create state drafts => Prod.map (·.map .events) id (memory.create state drafts)
  | .get runId => Prod.map (·.map .state) id (memory.get runId)
  | .commit state expected drafts token =>
    Prod.map (·.map .events) id (memory.commit call.now state expected drafts token)
  | .appendEvents runId expected drafts token =>
    Prod.map (·.map .events) id (memory.appendEvents call.now runId expected drafts token)
  | .events runId => Prod.map (·.map .events) id (memory.listEvents runId)
  | .acquireExecution token runId ownerId ttl =>
    Prod.map (·.map .lease) id (memory.acquireExecution call.now token runId ownerId ttl)
  | .renewExecution lease ttl =>
    Prod.map (·.map .lease) id (memory.renewExecution call.now lease ttl)
  | .releaseExecution lease =>
    Prod.map (·.map fun _ => .released) id (memory.releaseExecution lease)

def memoryAfter (calls : List FlowRepositoryCall) : InMemoryFlowRepository :=
  calls.foldl (fun memory call => (call.perform memory).2) {}

end Postgres
end BaseAgent

import Mathlib.Data.Prod.Lex
import BaseAgent.Flows.Delivery
import BaseAgent.Models.Uuid
import BaseAgent.Postgres.Rows

/-!
# The PostgreSQL work source

`PostgresFlowWorkSource` keeps each work item as a JSON payload beside the columns that its queries
select and order by, and each review likewise.  An operation is one transaction, which raises or
leaves new tables.  Whatever is read from a payload is validated again.

The checks and the transitions of the items are written a second time in this source; they are
modelled from there.
-/

namespace BaseAgent
namespace Postgres

open BaseAgent.Flows

/-! ## Rows -/

structure WorkRow where
  id : UUID
  runId : UUID
  idempotencyKey : String
  kind : FlowWorkKind
  status : FlowWorkStatus
  attempt : Nat
  availableAt : Time
  ownerId : Option String
  deliveryToken : Option UUID
  lastDeliveryToken : Option UUID
  claimedAt : Option Time
  leaseExpiresAt : Option Time
  lastErrorType : Option String
  blockedReason : Option String
  createdAt : Time
  updatedAt : Time
  payload : FlowWorkItem

def workValues (item : FlowWorkItem) : WorkRow where
  id := item.id
  runId := item.command.runId
  idempotencyKey := item.command.idempotencyKey
  kind := item.command.kind
  status := item.status
  attempt := item.attempt
  availableAt := item.availableAt
  ownerId := item.ownerId
  deliveryToken := item.deliveryToken
  lastDeliveryToken := item.lastDeliveryToken
  claimedAt := item.claimedAt
  leaseExpiresAt := item.leaseExpiresAt
  lastErrorType := item.lastErrorType
  blockedReason := item.blockedReason
  createdAt := item.command.createdAt
  updatedAt := item.updatedAt
  payload := item

structure ReviewRow where
  id : UUID
  workId : UUID
  decision : FlowWorkReviewDecision
  reviewerId : String
  reasonCode : String
  idempotencyKey : String
  delaySeconds : ℚ
  createdAt : Time
  payload : FlowWorkReview

def reviewValues (review : FlowWorkReview) : ReviewRow where
  id := review.id
  workId := review.workId
  decision := review.decision
  reviewerId := review.reviewerId
  reasonCode := review.reasonCode
  idempotencyKey := review.idempotencyKey
  delaySeconds := review.delaySeconds
  createdAt := review.createdAt
  payload := review

def validateText (field : String) (text : Option String) : Except FlowError Unit := do
  raiseIf (∃ t ∈ text, t.length < 1)
    (.validation "FlowWorkItem" field "String should have at least 1 character")
  raiseIf (∃ t ∈ text, t.length > 256)
    (.validation "FlowWorkItem" field "String should have at most 256 characters")

/-- `FlowWorkItem.model_validate(payload)`. -/
def modelValidate (item : FlowWorkItem) : Except FlowError FlowWorkItem := do
  validateText "command.idempotency_key" (some item.command.idempotencyKey)
  validateText "owner_id" item.ownerId
  validateText "last_error_type" item.lastErrorType
  validateText "blocked_reason" item.blockedReason
  item.validateDelivery

/-! ## Checks and transitions -/

def deliveryLost (workId : UUID) : FlowError :=
  .workDeliveryLost s!"Flow work delivery for '{uuidText workId}' was lost"

def validateActiveDelivery (current : FlowWorkItem) (token : UUID) (now : Time) :
    Except FlowError Unit :=
  raiseIf (current.status ≠ .claimed ∨ current.deliveryToken ≠ some token ∨
    current.leaseExpiresAt = none ∨ ∃ expiry ∈ current.leaseExpiresAt, expiry ≤ now)
    (deliveryLost current.id)

def validateDelivery (current : FlowWorkItem) (token : UUID) (now : Time)
    (idempotentStatus : FlowWorkStatus) : Except FlowError Unit :=
  if current.status = idempotentStatus ∧ current.lastDeliveryToken = some token then .ok ()
  else
    raiseIf (current.status ≠ .claimed ∨ current.deliveryToken ≠ some token ∨
      current.leaseExpiresAt = none ∨ ∃ expiry ∈ current.leaseExpiresAt, expiry ≤ now)
      (deliveryLost current.id)

def validateDeliveryArguments (ownerId : String) (ttlSeconds : ℚ) : Except FlowError Unit := do
  raiseIf (isBlank ownerId = true) (.value "Flow work owner_id must not be blank")
  raiseIf (ownerId.length > 256) (.value "Flow work owner_id must not exceed 256 characters")
  raiseIf (ttlSeconds ≤ 0) (.value "Flow work ttl_seconds must be greater than zero")

def validateRetry (delaySeconds : ℚ) (errorType : Option String) : Except FlowError Unit := do
  raiseIf (delaySeconds < 0) (.value "Flow work retry delay_seconds must not be negative")
  raiseIf (∃ e ∈ errorType, isBlank e = true ∨ e.length > 256)
    (.value "Flow work retry error_type must be 1 to 256 characters")

def validateReasonCode (reasonCode : String) : Except FlowError Unit :=
  raiseIf (isBlank reasonCode = true ∨ reasonCode.length > 256)
    (.value "Flow work blocked reason_code must be 1 to 256 characters")

def validateListLimit (limit : Int) : Except FlowError Unit :=
  raiseIf (¬ (1 ≤ limit ∧ limit ≤ 1000)) (.value "Flow work list limit must be between 1 and 1000")

def validateReviewIntent (existing requested : FlowWorkReview) : Except FlowError Unit :=
  raiseIf (¬ existing.hasSameIntent requested = true) (.workReviewConflict
    s!"Flow work review idempotency key '{requested.idempotencyKey}' has different intent")

def applyReview (current : FlowWorkItem) (review : FlowWorkReview) (now : Time) : FlowWorkItem :=
  if review.decision = .approveRetry then
    { current with
      status := .pending
      availableAt := now + timedelta review.delaySeconds
      blockedReason := none
      lastErrorType := none
      updatedAt := now }
  else { current with status := .discarded, blockedReason := none, updatedAt := now }

/-! ## Transactions -/

/-- The identifiers of the Flow Runs, the work items and their reviews. -/
structure PostgresFlowWorkSource where
  flowRuns : List UUID := []
  items : List WorkRow := []
  reviews : List ReviewRow := []

namespace PostgresFlowWorkSource

-- A transaction gives what it returns and the tables it leaves.  One that raises is rolled back.

variable (source : PostgresFlowWorkSource)

def workNotFound (workId : UUID) : FlowError :=
  .workNotFound s!"Flow work item '{uuidText workId}' was not found"

def integrityError : FlowError :=
  .other "IntegrityError" "duplicate key value violates unique constraint"

def selectItem (workId : UUID) : Except FlowError FlowWorkItem :=
  match source.items.find? fun row => row.id = workId with
  | none => .error (workNotFound workId)
  | some row => modelValidate row.payload

def updateItem (item : FlowWorkItem) : PostgresFlowWorkSource :=
  { source with
    items := source.items.map fun row => if row.id = item.id then workValues item else row }

def findReview (idempotencyKey : String) : Option FlowWorkReview :=
  (source.reviews.find? fun row => row.idempotencyKey = idempotencyKey).map (·.payload)

def enqueue (now : Time) (command : FlowWorkCommand) :
    Except FlowError (FlowWorkItem × PostgresFlowWorkSource) := do
  let item : FlowWorkItem := { command := command, availableAt := now, updatedAt := now }
  raiseIf (command.runId ∉ source.flowRuns)
    (.notFound s!"Flow Run '{uuidText command.runId}' was not found")
  match source.items.find? fun row => row.idempotencyKey = command.idempotencyKey with
  | none =>
    -- only a conflict of the idempotency key is passed over
    raiseIf (∃ row ∈ source.items, row.id = item.id) integrityError
    let inserted ← modelValidate item
    return (inserted, { source with items := source.items ++ [workValues item] })
  | some row =>
    let existing ← modelValidate row.payload
    raiseIf (¬ existing.command.hasSameIntent command = true) (.workIdempotencyConflict
      s!"Flow work idempotency key '{command.idempotencyKey}' has different intent")
    return (existing, source)

def get (workId : UUID) : Except FlowError (FlowWorkItem × PostgresFlowWorkSource) := do
  return (← source.selectItem workId, source)

/-- `order_by(updated_at, id)`. -/
def blockedKey (row : WorkRow) : ℤ ×ₗ ℕ := toLex (row.updatedAt, row.id)

def listBlocked (limit : Int) : Except FlowError (List FlowWorkItem × PostgresFlowWorkSource) := do
  validateListLimit limit
  let rows := (orderBy blockedKey (source.items.filter fun row => row.status = .blocked)).take
    limit.toNat
  let items ← rows.mapM fun row => modelValidate row.payload
  return (items, source)

/-- The part of `review` after its first lookup.  In one transaction the second lookup finds what
the first one did. -/
def addReview (now : Time) (review : FlowWorkReview) :
    Except FlowError ((FlowWorkReview × FlowWorkItem) × PostgresFlowWorkSource) := do
  let current ← source.selectItem review.workId
  raiseIf (current.status ≠ .blocked)
    (.workReviewState s!"Flow work item '{uuidText review.workId}' is not blocked")
  let persistedReview : FlowWorkReview := { review with createdAt := now }
  raiseIf (∃ row ∈ source.reviews, row.id = review.id) integrityError
  let replacement := applyReview current persistedReview now
  let inserted := { source with reviews := source.reviews ++ [reviewValues persistedReview] }
  return ((persistedReview, replacement), inserted.updateItem replacement)

def review (now : Time) (review : FlowWorkReview) :
    Except FlowError ((FlowWorkReview × FlowWorkItem) × PostgresFlowWorkSource) := do
  match source.findReview review.idempotencyKey with
  | some existing =>
    validateReviewIntent existing review
    let item ← source.selectItem existing.workId
    return ((existing, item), source)
  | none => source.addReview now review

/-- `eligible`.  A comparison with `NULL` does not select the row. -/
def eligible (now : Time) (row : WorkRow) : Bool :=
  (row.status = .pending ∧ row.availableAt ≤ now) ∨
    (row.status = .claimed ∧ ∃ expiry ∈ row.leaseExpiresAt, expiry ≤ now)

/-- `order_by(available_at, created_at, id)`. -/
def claimKey (row : WorkRow) : ℤ ×ₗ ℤ ×ₗ ℕ :=
  toLex (row.availableAt, toLex (row.createdAt, row.id))

def claim (now : Time) (token : UUID) (ownerId : String) (ttlSeconds : ℚ) :
    Except FlowError (Option FlowWorkItem × PostgresFlowWorkSource) := do
  validateDeliveryArguments ownerId ttlSeconds
  match (orderBy claimKey (source.items.filter (eligible now))).head? with
  | none => return (none, source)
  | some row =>
    let current ← modelValidate row.payload
    let claimed : FlowWorkItem :=
      { current with
        status := .claimed
        attempt := current.attempt + 1
        ownerId := some ownerId
        deliveryToken := some token
        claimedAt := some now
        leaseExpiresAt := some (now + timedelta ttlSeconds)
        updatedAt := now }
    return (some claimed, source.updateItem claimed)

def complete (now : Time) (workId token : UUID) :
    Except FlowError (FlowWorkItem × PostgresFlowWorkSource) := do
  let current ← source.selectItem workId
  validateDelivery current token now .completed
  if current.status = .completed then return (current, source)
  else
    let completed : FlowWorkItem :=
      { current with
        status := .completed
        ownerId := none
        lastDeliveryToken := current.deliveryToken
        deliveryToken := none
        claimedAt := none
        leaseExpiresAt := none
        updatedAt := now }
    return (completed, source.updateItem completed)

def renew (now : Time) (workId token : UUID) (ttlSeconds : ℚ) :
    Except FlowError (FlowWorkItem × PostgresFlowWorkSource) := do
  raiseIf (ttlSeconds ≤ 0) (.value "Flow work ttl_seconds must be greater than zero")
  let current ← source.selectItem workId
  validateActiveDelivery current token now
  let renewed : FlowWorkItem :=
    { current with leaseExpiresAt := some (now + timedelta ttlSeconds), updatedAt := now }
  return (renewed, source.updateItem renewed)

def block (now : Time) (workId token : UUID) (reasonCode : String) :
    Except FlowError (FlowWorkItem × PostgresFlowWorkSource) := do
  validateReasonCode reasonCode
  let current ← source.selectItem workId
  validateDelivery current token now .blocked
  if current.status = .blocked then return (current, source)
  else
    let blocked : FlowWorkItem :=
      { current with
        status := .blocked
        ownerId := none
        lastDeliveryToken := current.deliveryToken
        deliveryToken := none
        claimedAt := none
        leaseExpiresAt := none
        blockedReason := some reasonCode
        updatedAt := now }
    return (blocked, source.updateItem blocked)

def retry (now : Time) (workId token : UUID) (delaySeconds : ℚ) (errorType : Option String) :
    Except FlowError (FlowWorkItem × PostgresFlowWorkSource) := do
  validateRetry delaySeconds errorType
  let current ← source.selectItem workId
  validateDelivery current token now .pending
  if current.status = .pending then return (current, source)
  else
    let pending : FlowWorkItem :=
      { current with
        status := .pending
        availableAt := now + timedelta delaySeconds
        ownerId := none
        lastDeliveryToken := current.deliveryToken
        deliveryToken := none
        claimedAt := none
        leaseExpiresAt := none
        lastErrorType := errorType
        updatedAt := now }
    return (pending, source.updateItem pending)

end PostgresFlowWorkSource

/-! ## Both sources -/

inductive SourceOp where
  | work (op : WorkOp)
  | get (workId : UUID)
  | listBlocked (limit : Int)

structure SourceCall where
  now : Time
  op : SourceOp

inductive SourceReply where
  | work (reply : WorkReply)
  | item (item : FlowWorkItem)
  | items (items : List FlowWorkItem)

namespace PostgresFlowWorkSource

variable (source : PostgresFlowWorkSource)

def work (call : WorkCall) : Except FlowError (WorkReply × PostgresFlowWorkSource) :=
  match call.op with
  | .enqueue command => (source.enqueue call.now command).map (Prod.map .item id)
  | .claim token ownerId ttl => (source.claim call.now token ownerId ttl).map (Prod.map .claimed id)
  | .renew workId token ttl => (source.renew call.now workId token ttl).map (Prod.map .item id)
  | .complete workId token => (source.complete call.now workId token).map (Prod.map .item id)
  | .block workId token reasonCode =>
    (source.block call.now workId token reasonCode).map (Prod.map .item id)
  | .retry workId token delay errorType =>
    (source.retry call.now workId token delay errorType).map (Prod.map .item id)
  | .review review =>
    (source.review call.now review).map (Prod.map (fun found => .reviewed found.1 found.2) id)

def perform (call : SourceCall) : Except FlowError SourceReply × PostgresFlowWorkSource :=
  let outcome : Except FlowError (SourceReply × PostgresFlowWorkSource) := match call.op with
    | .work op => (source.work ⟨call.now, op⟩).map (Prod.map .work id)
    | .get workId => (source.get workId).map (Prod.map .item id)
    | .listBlocked limit => (source.listBlocked limit).map (Prod.map .items id)
  match outcome with
  | .ok (reply, after) => (.ok reply, after)
  | .error e => (.error e, source)

/-- The outcomes of a sequence of calls, and the tables after it. -/
def run (source : PostgresFlowWorkSource) :
    List SourceCall → List (Except FlowError SourceReply) × PostgresFlowWorkSource
  | [] => ([], source)
  | call :: calls =>
    let rest := run (source.perform call).2 calls
    ((source.perform call).1 :: rest.1, rest.2)

end PostgresFlowWorkSource

def performInMemory (source : InMemoryFlowWorkSource) (call : SourceCall) :
    Except FlowError SourceReply × InMemoryFlowWorkSource :=
  match call.op with
  | .work op => Prod.map (·.map .work) id (source.perform ⟨call.now, op⟩)
  | .get workId => ((source.get workId).map .item, source)
  | .listBlocked limit => ((source.listBlocked limit).map .items, source)

def runInMemory (source : InMemoryFlowWorkSource) :
    List SourceCall → List (Except FlowError SourceReply) × InMemoryFlowWorkSource
  | [] => ([], source)
  | call :: calls =>
    let rest := runInMemory (performInMemory source call).2 calls
    ((performInMemory source call).1 :: rest.1, rest.2)

end Postgres
end BaseAgent

import Mathlib.Data.List.Sort
import BaseAgent.Flows.Recovery

/-!
# The in-memory work source

`InMemoryFlowWorkSource` keeps the scheduling state of work items and hands out fenced
deliveries of them.  Like the Flow repository it holds one lock from the first check of
an operation to its last write, so an operation is one function from a work source to
an outcome and the work source it leaves.

Here are the operations a worker performs on the items, the claim of a delivery, its
renewal, and the three ways to settle it, and those of its clients: the enqueueing of a
command, and the review of an item that is blocked.
-/

namespace BaseAgent
namespace Flows

inductive FlowWorkStatus where
  | pending | claimed | completed | blocked | discarded
  deriving DecidableEq, Repr

inductive FlowWorkReviewDecision where
  | approveRetry | reject
  deriving DecidableEq, Repr

/-- An operator's decision on a blocked item, with what its validation established. -/
structure FlowWorkReview where
  id : UUID
  workId : UUID
  decision : FlowWorkReviewDecision
  reviewerId : String
  reasonCode : String
  idempotencyKey : String
  delaySeconds : ℚ := 0
  createdAt : Time := 0
  valid : (0 < reviewerId.length ∧ reviewerId.length ≤ 256) ∧
    (0 < reasonCode.length ∧ reasonCode.length ≤ 256) ∧
    (0 < idempotencyKey.length ∧ idempotencyKey.length ≤ 256) ∧ 0 ≤ delaySeconds ∧
    (decision = .reject → delaySeconds = 0)

def FlowWorkReview.hasSameIntent (review other : FlowWorkReview) : Bool :=
  review.workId = other.workId ∧ review.decision = other.decision ∧
    review.reviewerId = other.reviewerId ∧ review.reasonCode = other.reasonCode ∧
    review.delaySeconds = other.delaySeconds

structure FlowWorkItem where
  command : FlowWorkCommand
  status : FlowWorkStatus := .pending
  attempt : Nat := 0
  availableAt : Time
  ownerId : Option String := none
  deliveryToken : Option UUID := none
  lastDeliveryToken : Option UUID := none
  claimedAt : Option Time := none
  leaseExpiresAt : Option Time := none
  lastErrorType : Option String := none
  blockedReason : Option String := none
  updatedAt : Time

namespace FlowWorkItem

def id (item : FlowWorkItem) : UUID := item.command.id

def validateDelivery (item : FlowWorkItem) : Except FlowError FlowWorkItem := do
  let missing := item.ownerId.isNone ∨ item.deliveryToken.isNone ∨ item.claimedAt.isNone ∨
    item.leaseExpiresAt.isNone
  let present := item.ownerId.isSome ∨ item.deliveryToken.isSome ∨ item.claimedAt.isSome ∨
    item.leaseExpiresAt.isSome
  raiseIf (item.status = .claimed ∧ missing)
    (.validation "FlowWorkItem" "" "a claimed Flow work item requires delivery fields")
  raiseIf (item.status = .claimed ∧ item.attempt < 1)
    (.validation "FlowWorkItem" "" "a claimed Flow work item requires an attempt")
  raiseIf (item.status ≠ .claimed ∧ present)
    (.validation "FlowWorkItem" "" "only a claimed Flow work item may retain delivery fields")
  raiseIf (item.status = .blocked ∧ item.blockedReason.isNone)
    (.validation "FlowWorkItem" "" "a blocked Flow work item requires blocked_reason")
  raiseIf (item.status ≠ .blocked ∧ item.blockedReason.isSome)
    (.validation "FlowWorkItem" "" "only a blocked Flow work item may retain blocked_reason")
  return item

/-- The key `claim` orders its candidates by. -/
def before (a b : FlowWorkItem) : Bool :=
  if a.availableAt ≠ b.availableAt then a.availableAt < b.availableAt
  else if a.command.createdAt ≠ b.command.createdAt then a.command.createdAt < b.command.createdAt
  else uuidText a.id < uuidText b.id

/-- The key `list_blocked` orders its items by. -/
def reviewedBefore (a b : FlowWorkItem) : Bool :=
  if a.updatedAt ≠ b.updatedAt then a.updatedAt < b.updatedAt else uuidText a.id < uuidText b.id

/-- Available, or delivered to a worker whose delivery has expired. -/
def claimable (item : FlowWorkItem) (now : Time) : Bool :=
  (item.status = .pending ∧ item.availableAt ≤ now) ∨
    (item.status = .claimed ∧ ∃ expiry ∈ item.leaseExpiresAt, expiry ≤ now)

def claim (item : FlowWorkItem) (now : Time) (token : UUID) (ownerId : String)
    (ttlSeconds : ℚ) : FlowWorkItem :=
  { item with
    status := .claimed
    attempt := item.attempt + 1
    ownerId := some ownerId
    deliveryToken := some token
    claimedAt := some now
    leaseExpiresAt := some (now + timedelta ttlSeconds)
    updatedAt := now }

def renew (item : FlowWorkItem) (now : Time) (ttlSeconds : ℚ) : FlowWorkItem :=
  { item with leaseExpiresAt := some (now + timedelta ttlSeconds), updatedAt := now }

def settle (item : FlowWorkItem) (now : Time) (status : FlowWorkStatus) : FlowWorkItem :=
  { item with
    status := status
    ownerId := none
    lastDeliveryToken := item.deliveryToken
    deliveryToken := none
    claimedAt := none
    leaseExpiresAt := none
    updatedAt := now }

def complete (item : FlowWorkItem) (now : Time) : FlowWorkItem := item.settle now .completed

def block (item : FlowWorkItem) (now : Time) (reasonCode : String) : FlowWorkItem :=
  { item.settle now .blocked with blockedReason := some reasonCode }

def retry (item : FlowWorkItem) (now : Time) (delaySeconds : ℚ) (errorType : Option String) :
    FlowWorkItem :=
  { item.settle now .pending with
    availableAt := now + timedelta delaySeconds
    lastErrorType := errorType }

def applyReview (item : FlowWorkItem) (now : Time) (review : FlowWorkReview) : FlowWorkItem :=
  match review.decision with
  | .approveRetry =>
    { item with
      status := .pending
      availableAt := now + timedelta review.delaySeconds
      blockedReason := none
      lastErrorType := none
      updatedAt := now }
  | .reject => { item with status := .discarded, blockedReason := none, updatedAt := now }

/-- The delivery of `token` is still running. -/
def delivering (item : FlowWorkItem) (token : UUID) (now : Time) : Bool :=
  item.status = .claimed ∧ item.deliveryToken = some token ∧
    ∃ expiry ∈ item.leaseExpiresAt, now < expiry

end FlowWorkItem

def validateDeliveryArguments (ownerId : String) (ttlSeconds : ℚ) : Except FlowError Unit := do
  raiseIf (isBlank ownerId = true) (.value "Flow work owner_id must not be blank")
  raiseIf (ownerId.length > 256) (.value "Flow work owner_id must not exceed 256 characters")
  raiseIf (ttlSeconds ≤ 0) (.value "Flow work ttl_seconds must be greater than zero")

def validateReasonCode (reasonCode : String) : Except FlowError Unit :=
  raiseIf (isBlank reasonCode = true ∨ reasonCode.length > 256)
    (.value "Flow work blocked reason_code must be 1 to 256 characters")

/-- The checks of the arguments of `retry`. -/
def validateRetryArguments (delaySeconds : ℚ) (errorType : Option String) :
    Except FlowError Unit := do
  raiseIf (delaySeconds < 0) (.value "Flow work retry delay_seconds must not be negative")
  raiseIf (∃ e ∈ errorType, isBlank e = true ∨ e.length > 256)
    (.value "Flow work retry error_type must be 1 to 256 characters")

def validateListLimit (limit : Int) : Except FlowError Unit :=
  raiseIf (¬ (1 ≤ limit ∧ limit ≤ 1000)) (.value "Flow work list limit must be between 1 and 1000")

structure InMemoryFlowWorkSource where
  items : List (UUID × FlowWorkItem) := []
  idempotency : List (String × UUID) := []
  reviews : List (UUID × List FlowWorkReview) := []
  reviewIdempotency : List (String × FlowWorkReview) := []

namespace InMemoryFlowWorkSource

variable (source : InMemoryFlowWorkSource)

def item (workId : UUID) : Option FlowWorkItem := dictGet source.items workId

def setItem (workId : UUID) (item : FlowWorkItem) : InMemoryFlowWorkSource :=
  { source with items := dictSet source.items workId item }

def workNotFound (workId : UUID) : FlowError :=
  .workNotFound s!"Flow work item '{uuidText workId}' was not found"

def deliveryLost (workId : UUID) : FlowError :=
  .workDeliveryLost s!"Flow work delivery for '{uuidText workId}' was lost"

def enqueue (now : Time) (command : FlowWorkCommand) :
    Except FlowError FlowWorkItem × InMemoryFlowWorkSource :=
  match dictGet source.idempotency command.idempotencyKey with
  | some existingId =>
    match source.item existingId with
    -- `self._items[existing_id]`
    | none => (.error (.key (uuidText existingId)), source)
    | some existing =>
      if existing.command.hasSameIntent command then (.ok existing, source)
      else
        (.error (.workIdempotencyConflict
          s!"Flow work idempotency key '{command.idempotencyKey}' has different intent"), source)
  | none =>
    let item : FlowWorkItem := { command := command, availableAt := now, updatedAt := now }
    (.ok item,
      { source.setItem item.id item with
        idempotency := dictSet source.idempotency command.idempotencyKey item.id })

/-- `_copy_item`. -/
def get (workId : UUID) : Except FlowError FlowWorkItem :=
  orRaise (source.item workId) (workNotFound workId)

def listBlocked (limit : Int) : Except FlowError (List FlowWorkItem) := do
  validateListLimit limit
  let blocked := (source.items.map (·.2)).filter fun item => item.status = .blocked
  return (blocked.insertionSort fun a b => ¬ b.reviewedBefore a = true).take limit.toNat

def addReview (now : Time) (review : FlowWorkReview) (current : FlowWorkItem) :
    InMemoryFlowWorkSource :=
  { source.setItem current.id (current.applyReview now review) with
    reviews := dictSet source.reviews current.id
      ((dictGet source.reviews current.id).getD [] ++ [{ review with createdAt := now }])
    reviewIdempotency :=
      dictSet source.reviewIdempotency review.idempotencyKey { review with createdAt := now } }

/-- `review`: the review on record and the item it is about. -/
def review (now : Time) (review : FlowWorkReview) :
    Except FlowError (FlowWorkReview × FlowWorkItem) × InMemoryFlowWorkSource :=
  match dictGet source.reviewIdempotency review.idempotencyKey with
  | some existing =>
    if existing.hasSameIntent review then
      match source.item existing.workId with
      | none => (.error (workNotFound existing.workId), source)
      | some item => (.ok (existing, item), source)
    else
      (.error (.workReviewConflict
        s!"Flow work review idempotency key '{review.idempotencyKey}' has different intent"),
        source)
  | none =>
    match source.item review.workId with
    | none => (.error (workNotFound review.workId), source)
    | some current =>
      if current.status = .blocked then
        (.ok ({ review with createdAt := now }, current.applyReview now review),
          source.addReview now review current)
      else
        (.error (.workReviewState
          s!"Flow work item '{uuidText review.workId}' is not blocked"), source)

def listReviews (workId : UUID) : Except FlowError (List FlowWorkReview) :=
  if (source.item workId).isSome then .ok ((dictGet source.reviews workId).getD [])
  else .error (workNotFound workId)

/-- `min(candidates, key=...)`, the first of the least ones. -/
def leastItem : List FlowWorkItem → Option FlowWorkItem
  | [] => none
  | item :: rest => some (rest.foldl (fun best next => if next.before best then next else best) item)

def claim (now : Time) (token : UUID) (ownerId : String) (ttlSeconds : ℚ) :
    Except FlowError (Option FlowWorkItem) × InMemoryFlowWorkSource :=
  match validateDeliveryArguments ownerId ttlSeconds with
  | .error e => (.error e, source)
  | .ok () =>
    match leastItem ((source.items.map (·.2)).filter fun item => item.claimable now) with
    | none => (.ok none, source)
    | some current =>
      let claimed := current.claim now token ownerId ttlSeconds
      (.ok (some claimed), source.setItem current.id claimed)

def requireActiveDelivery (workId token : UUID) (now : Time) : Except FlowError FlowWorkItem :=
  match source.item workId with
  | none => .error (workNotFound workId)
  | some current =>
    if current.delivering token now then .ok current else .error (deliveryLost workId)

def renew (now : Time) (workId token : UUID) (ttlSeconds : ℚ) :
    Except FlowError FlowWorkItem × InMemoryFlowWorkSource :=
  if ttlSeconds ≤ 0 then (.error (.value "Flow work ttl_seconds must be greater than zero"), source)
  else
    match source.requireActiveDelivery workId token now with
    | .error e => (.error e, source)
    | .ok current =>
      let renewed := current.renew now ttlSeconds
      (.ok renewed, source.setItem workId renewed)

/-- `_require_delivery` and the write of a settlement: a replayed one finds the item in
the status it left and changes nothing. -/
def settle (now : Time) (workId token : UUID) (idempotentStatus : FlowWorkStatus)
    (settled : FlowWorkItem → FlowWorkItem) :
    Except FlowError FlowWorkItem × InMemoryFlowWorkSource :=
  match source.item workId with
  | none => (.error (workNotFound workId), source)
  | some current =>
    if current.status = idempotentStatus ∧ current.lastDeliveryToken = some token then
      (.ok current, source)
    else if current.delivering token now then
      -- `CLAIMED` is none of the settled statuses
      (.ok (settled current), source.setItem workId (settled current))
    else (.error (deliveryLost workId), source)

def complete (now : Time) (workId token : UUID) :
    Except FlowError FlowWorkItem × InMemoryFlowWorkSource :=
  source.settle now workId token .completed fun current => current.complete now

def block (now : Time) (workId token : UUID) (reasonCode : String) :
    Except FlowError FlowWorkItem × InMemoryFlowWorkSource :=
  match validateReasonCode reasonCode with
  | .error e => (.error e, source)
  | .ok () => source.settle now workId token .blocked fun current => current.block now reasonCode

def retry (now : Time) (workId token : UUID) (delaySeconds : ℚ) (errorType : Option String) :
    Except FlowError FlowWorkItem × InMemoryFlowWorkSource :=
  match validateRetryArguments delaySeconds errorType with
  | .error e => (.error e, source)
  | .ok () =>
    source.settle now workId token .pending fun current => current.retry now delaySeconds errorType

/-! ## A running delivery -/

/-- The item is delivered under `token` until `expiry`. -/
def Delivers (workId token : UUID) (expiry : Time) : Prop :=
  ∃ current, source.item workId = some current ∧ current.id = workId ∧
    current.status = .claimed ∧ current.deliveryToken = some token ∧
    current.leaseExpiresAt = some expiry

variable {source} {source' : InMemoryFlowWorkSource} {item : FlowWorkItem} {workId token : UUID}
  {now expiry : Time} {ownerId : String} {ttlSeconds : ℚ}

theorem claim_delivers
    (h : source.claim now token ownerId ttlSeconds = (.ok (some item), source')) :
    item.deliveryToken = some token ∧
      source'.Delivers item.id token (now + timedelta ttlSeconds) := by
  unfold claim at h
  split at h
  · cases h
  · split at h
    · cases h
    · simp only [Prod.mk.injEq, Except.ok.injEq, Option.some.injEq] at h
      obtain ⟨rfl, rfl⟩ := h
      refine ⟨rfl, _, ?_, rfl, rfl, rfl, rfl⟩
      simp only [setItem, InMemoryFlowWorkSource.item]
      exact dictGet_set_self _ _ _

/-- A renewal in time moves the expiry, a late one changes nothing. -/
theorem Delivers.renew (h : source.Delivers workId token expiry) (httl : 0 < ttlSeconds)
    (now : Time) :
    (now < expiry → ∃ renewed source', source.renew now workId token ttlSeconds =
        (.ok renewed, source') ∧ renewed.id = workId ∧ renewed.deliveryToken = some token ∧
        source'.Delivers workId token (now + timedelta ttlSeconds)) ∧
      (expiry ≤ now → source.renew now workId token ttlSeconds =
        (.error (deliveryLost workId), source)) := by
  obtain ⟨current, hitem, hid, hstatus, htoken, hexpiry⟩ := h
  have hdeliver : current.delivering token now = true ↔ now < expiry := by
    simp [FlowWorkItem.delivering, hstatus, htoken, hexpiry]
  constructor
  · intro hlt
    have hstored : (source.setItem workId (current.renew now ttlSeconds)).item workId =
        some (current.renew now ttlSeconds) := by
      simp [setItem, InMemoryFlowWorkSource.item]
    refine ⟨current.renew now ttlSeconds, source.setItem workId (current.renew now ttlSeconds), ?_,
      hid, htoken, _, hstored, hid, hstatus, htoken, rfl⟩
    · simp only [InMemoryFlowWorkSource.renew, not_le.mpr httl, if_false, requireActiveDelivery,
        hitem, hdeliver.mpr hlt, if_true]
  · intro hle
    have hnot : ¬ current.delivering token now = true := fun hd =>
      absurd (hdeliver.mp hd) (not_lt.mpr hle)
    simp [InMemoryFlowWorkSource.renew, not_le.mpr httl, requireActiveDelivery, hitem, hnot]

/-- A retry in time leaves the item pending, a late one changes nothing. -/
theorem Delivers.retry (h : source.Delivers workId token expiry) {delaySeconds : ℚ}
    {errorType : Option String}
    (hvalid : validateRetryArguments delaySeconds errorType = .ok ()) (now : Time) :
    (now < expiry → ∃ final source', source.retry now workId token delaySeconds errorType =
        (.ok final, source') ∧ source'.item workId = some final ∧ final.status = .pending ∧
        final.lastErrorType = errorType) ∧
      (expiry ≤ now → source.retry now workId token delaySeconds errorType =
        (.error (deliveryLost workId), source)) := by
  obtain ⟨current, hitem, hid, hstatus, htoken, hexpiry⟩ := h
  have hdeliver : current.delivering token now = true ↔ now < expiry := by
    simp [FlowWorkItem.delivering, hstatus, htoken, hexpiry]
  constructor
  · intro hlt
    refine ⟨current.retry now delaySeconds errorType,
      source.setItem workId (current.retry now delaySeconds errorType), ?_, ?_, rfl, rfl⟩
    · simp only [InMemoryFlowWorkSource.retry, hvalid, settle, hitem, hstatus, hdeliver.mpr hlt,
        if_true, reduceCtorEq, false_and, if_false]
    · simp [setItem, InMemoryFlowWorkSource.item]
  · intro hle
    have hnot : ¬ current.delivering token now = true := fun hd =>
      absurd (hdeliver.mp hd) (not_lt.mpr hle)
    simp [InMemoryFlowWorkSource.retry, hvalid, settle, hitem, hstatus, hnot]

end InMemoryFlowWorkSource

end Flows
end BaseAgent

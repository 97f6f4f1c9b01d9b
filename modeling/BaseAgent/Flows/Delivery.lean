import Mathlib.Data.List.Induction
import Mathlib.Data.List.Nodup
import BaseAgent.Flows.Work

/-!
# Fenced deliveries

A run of the work source is any sequence of its operations.  Along every run the items stay
valid, an item counts its claims, and a delivery ends once: only the token of the latest claim
changes an item, and only until the claim expires.
-/

namespace BaseAgent
namespace Flows

/-- An operation of the work source.  `token` is the `uuid4` of a claim. -/
inductive WorkOp where
  | enqueue (command : FlowWorkCommand)
  | claim (token : UUID) (ownerId : String) (ttlSeconds : ℚ)
  | renew (workId token : UUID) (ttlSeconds : ℚ)
  | complete (workId token : UUID)
  | block (workId token : UUID) (reasonCode : String)
  | retry (workId token : UUID) (delaySeconds : ℚ) (errorType : Option String)
  | review (review : FlowWorkReview)

/-- An operation at the time it reads from its argument or from the clock. -/
structure WorkCall where
  now : Time
  op : WorkOp

inductive WorkReply where
  | item (item : FlowWorkItem)
  | claimed (item : Option FlowWorkItem)
  | reviewed (review : FlowWorkReview) (item : FlowWorkItem)

namespace InMemoryFlowWorkSource

def perform (source : InMemoryFlowWorkSource) (call : WorkCall) :
    Except FlowError WorkReply × InMemoryFlowWorkSource :=
  match call.op with
  | .enqueue command => Prod.map (·.map .item) id (source.enqueue call.now command)
  | .claim token ownerId ttl =>
    Prod.map (·.map .claimed) id (source.claim call.now token ownerId ttl)
  | .renew workId token ttl => Prod.map (·.map .item) id (source.renew call.now workId token ttl)
  | .complete workId token => Prod.map (·.map .item) id (source.complete call.now workId token)
  | .block workId token reasonCode =>
    Prod.map (·.map .item) id (source.block call.now workId token reasonCode)
  | .retry workId token delay errorType =>
    Prod.map (·.map .item) id (source.retry call.now workId token delay errorType)
  | .review review =>
    Prod.map (·.map fun found => .reviewed found.1 found.2) id (source.review call.now review)

end InMemoryFlowWorkSource

/-- A run: the source, and for each claim that returned an item the item and the token. -/
structure WorkRun where
  source : InMemoryFlowWorkSource := {}
  claims : List (UUID × UUID) := []

namespace WorkRun

def delivered (call : WorkCall) (reply : Except FlowError WorkReply) : List (UUID × UUID) :=
  match call.op, reply with
  | .claim token .., .ok (.claimed (some item)) => [(item.id, token)]
  | _, _ => []

def step (run : WorkRun) (call : WorkCall) : WorkRun :=
  { source := (run.source.perform call).2
    claims := run.claims ++ delivered call (run.source.perform call).1 }

def of (calls : List WorkCall) : WorkRun := calls.foldl step {}

@[simp] theorem of_append (calls more : List WorkCall) :
    of (calls ++ more) = more.foldl step (of calls) := by
  simp [of]

end WorkRun

/-! ## What an operation changes -/

namespace WorkOp

def delivery : WorkOp → Option (UUID × UUID)
  | renew workId token _ | complete workId token | block workId token _
  | retry workId token _ _ => some (workId, token)
  | _ => none

def settles : WorkOp → Option UUID
  | complete _ token | block _ token _ | retry _ token _ _ => some token
  | _ => none

def claims : WorkOp → Option UUID
  | claim token .. => some token
  | _ => none

end WorkOp

theorem WorkRun.delivered_eq_nil {call : WorkCall} {reply : Except FlowError WorkReply}
    {target : UUID × UUID} (h : call.op.delivery = some target) :
    WorkRun.delivered call reply = [] := by
  unfold WorkRun.delivered
  cases hop : call.op with
  | claim token ownerId ttl =>
    rw [hop] at h
    cases h
  | _ => rfl

/-- The change that an operation makes to one item. -/
inductive ItemChange (now : Time) : WorkOp → Option FlowWorkItem → FlowWorkItem → Prop where
  | enqueued (command : FlowWorkCommand) (old : Option FlowWorkItem) :
    ItemChange now (.enqueue command) old
      { command := command, availableAt := now, updatedAt := now }
  | claimed (token : UUID) (ownerId : String) (ttl : ℚ) (item : FlowWorkItem) :
    item.claimable now = true →
    ItemChange now (.claim token ownerId ttl) (some item) (item.claim now token ownerId ttl)
  | renewed (workId token : UUID) (ttl : ℚ) (item : FlowWorkItem) :
    item.delivering token now = true →
    ItemChange now (.renew workId token ttl) (some item) (item.renew now ttl)
  | completed (workId token : UUID) (item : FlowWorkItem) : item.delivering token now = true →
    ItemChange now (.complete workId token) (some item) (item.complete now)
  | blocked (workId token : UUID) (reasonCode : String) (item : FlowWorkItem) :
    item.delivering token now = true →
    ItemChange now (.block workId token reasonCode) (some item) (item.block now reasonCode)
  | retried (workId token : UUID) (delay : ℚ) (errorType : Option String) (item : FlowWorkItem) :
    item.delivering token now = true →
    ItemChange now (.retry workId token delay errorType) (some item)
      (item.retry now delay errorType)
  | reviewed (review : FlowWorkReview) (item : FlowWorkItem) : item.status = .blocked →
    ItemChange now (.review review) (some item) (item.applyReview now review)

/-- The item that an operation changes, when it is not found by the operation itself. -/
def WorkOp.about : WorkOp → Option UUID
  | .enqueue command => some command.id
  | .renew workId _ _ | .complete workId _ | .block workId _ _ | .retry workId _ _ _ => some workId
  | .review r => some r.workId
  | .claim .. => none

namespace InMemoryFlowWorkSource

/-- Each item is stored once, under its own identifier. -/
structure Keyed (source : InMemoryFlowWorkSource) : Prop where
  nodup : (source.items.map (·.1)).Nodup
  id : ∀ workId item, source.item workId = some item → item.id = workId

variable {source : InMemoryFlowWorkSource}

/-- An operation that changed the source changed one item of it. -/
structure Changed (source : InMemoryFlowWorkSource) (call : WorkCall) (workId : UUID)
    (new : FlowWorkItem) : Prop where
  change : ItemChange call.now call.op (source.item workId) new
  about : ∀ target, call.op.about = some target → target = workId
  id : new.id = workId
  items : (source.perform call).2.items = dictSet source.items workId new
  idempotency : (source.perform call).2.idempotency =
    match call.op with
    | .enqueue command => dictSet source.idempotency command.idempotencyKey workId
    | _ => source.idempotency
  unknown : ∀ command, call.op = .enqueue command →
    dictGet source.idempotency command.idempotencyKey = none
  delivered : WorkRun.delivered call (source.perform call).1 =
    match call.op with
    | .claim token .. => [(workId, token)]
    | _ => []

theorem foldl_before_mem (rest : List FlowWorkItem) (first : FlowWorkItem) :
    rest.foldl (fun best next => if next.before best then next else best) first ∈
      first :: rest := by
  induction rest generalizing first with
  | nil => simp
  | cons next rest ih =>
    simp only [List.foldl_cons]
    have hmem := ih (if next.before first then next else first)
    by_cases hbefore : next.before first = true
    · rw [if_pos hbefore] at hmem ⊢
      exact List.mem_cons_of_mem _ hmem
    · rw [if_neg hbefore] at hmem ⊢
      cases List.mem_cons.mp hmem with
      | inl heq => rw [heq]; simp
      | inr hrest => exact List.mem_cons_of_mem _ (List.mem_cons_of_mem _ hrest)

theorem leastItem_mem {items : List FlowWorkItem} {item : FlowWorkItem}
    (h : leastItem items = some item) : item ∈ items := by
  cases items with
  | nil => cases h
  | cons first rest =>
    simp only [leastItem, Option.some.injEq] at h
    rw [← h]
    exact foldl_before_mem rest first

theorem settle_cases (source : InMemoryFlowWorkSource) (now : Time) (workId token : UUID)
    (status : FlowWorkStatus) (settled : FlowWorkItem → FlowWorkItem) :
    (source.settle now workId token status settled).2 = source ∨
    ∃ current, source.item workId = some current ∧ current.delivering token now = true ∧
      source.settle now workId token status settled =
        (.ok (settled current), source.setItem workId (settled current)) := by
  unfold settle
  cases hitem : source.item workId with
  | none => exact .inl rfl
  | some current =>
    simp only
    by_cases hreplay : current.status = status ∧ current.lastDeliveryToken = some token
    · rw [if_pos hreplay]
      exact .inl rfl
    · rw [if_neg hreplay]
      by_cases hdeliver : current.delivering token now = true
      · rw [if_pos hdeliver]
        exact .inr ⟨current, rfl, hdeliver, rfl⟩
      · rw [if_neg hdeliver]
        exact .inl rfl

theorem changed_of_delivery {call : WorkCall} {workId token : UUID} {current new : FlowWorkItem}
    (hdelivery : call.op.delivery = some (workId, token)) (hitem : source.item workId = some current)
    (hchange : ItemChange call.now call.op (some current) new) (hid : new.id = workId)
    (hperform : source.perform call = (.ok (.item new), source.setItem workId new)) :
    source.Changed call workId new := by
  refine ⟨by rw [hitem]; exact hchange, ?_, hid, by rw [hperform]; rfl, ?_, ?_, ?_⟩
  · intro target htarget
    cases hop : call.op <;> rw [hop] at hdelivery htarget <;> cases hdelivery <;> cases htarget <;> rfl
  · rw [hperform]
    cases hop : call.op <;> first | rfl | (rw [hop] at hdelivery; cases hdelivery)
  · intro command hop
    rw [hop] at hdelivery
    cases hdelivery
  · rw [WorkRun.delivered_eq_nil hdelivery]
    cases hop : call.op with
    | claim token ownerId ttl =>
      rw [hop] at hdelivery
      cases hdelivery
    | _ => rfl

/-- The call leaves the source as it was and delivers nothing, or changes one item. -/
def Moved (source : InMemoryFlowWorkSource) (call : WorkCall) : Prop :=
  ((source.perform call).2 = source ∧ WorkRun.delivered call (source.perform call).1 = []) ∨
    ∃ workId new, source.Changed call workId new

theorem enqueue_moved (source : InMemoryFlowWorkSource) (now : Time)
    (command : FlowWorkCommand) : source.Moved ⟨now, .enqueue command⟩ := by
  cases hkey : dictGet source.idempotency command.idempotencyKey with
  | some existingId =>
    left
    simp only [perform, enqueue, hkey]
    split
    · exact ⟨rfl, rfl⟩
    · split
      · exact ⟨rfl, rfl⟩
      · exact ⟨rfl, rfl⟩
  | none =>
    right
    refine ⟨command.id, { command := command, availableAt := now, updatedAt := now },
      .enqueued command _, ?_, rfl, ?_, ?_, ?_, ?_⟩
    · intro target htarget
      exact (Option.some.inj htarget).symm
    · simp only [perform, enqueue, hkey]
      rfl
    · simp only [perform, enqueue, hkey]
      rfl
    · intro command' hop
      cases hop
      exact hkey
    · simp only [perform, enqueue, hkey]
      rfl

theorem claim_moved (h : source.Keyed) (now : Time) (token : UUID) (ownerId : String)
    (ttl : ℚ) : source.Moved ⟨now, .claim token ownerId ttl⟩ := by
  cases hargs : validateDeliveryArguments ownerId ttl with
  | error e =>
    left
    simp only [perform, claim, hargs]
    exact ⟨rfl, rfl⟩
  | ok u =>
    cases hleast : leastItem ((source.items.map (·.2)).filter fun item => item.claimable now) with
    | none =>
      left
      simp only [perform, claim, hargs, hleast]
      exact ⟨rfl, rfl⟩
    | some current =>
      right
      have hmem := List.mem_filter.mp (leastItem_mem hleast)
      obtain ⟨entry, hentry, rfl⟩ := List.mem_map.mp hmem.1
      have hitem : source.item entry.1 = some entry.2 :=
        dictGet_of_mem h.nodup (by simpa using hentry)
      have hid : entry.2.id = entry.1 := h.id _ _ hitem
      refine ⟨entry.2.id, entry.2.claim now token ownerId ttl, ?_, ?_, rfl, ?_, ?_, ?_, ?_⟩
      · rw [hid, hitem]
        exact .claimed token ownerId ttl entry.2 hmem.2
      · intro target htarget
        cases htarget
      · simp only [perform, claim, hargs, hleast]
        rfl
      · simp only [perform, claim, hargs, hleast]
        rfl
      · intro command hop
        cases hop
      · simp only [perform, claim, hargs, hleast]
        rfl

theorem requireActiveDelivery_ok {workId token : UUID} {now : Time} {current : FlowWorkItem}
    (h : source.requireActiveDelivery workId token now = .ok current) :
    source.item workId = some current ∧ current.delivering token now = true := by
  unfold requireActiveDelivery at h
  cases hitem : source.item workId with
  | none =>
    rw [hitem] at h
    cases h
  | some found =>
    rw [hitem] at h
    by_cases hdeliver : found.delivering token now = true
    · simp only [if_pos hdeliver] at h
      cases h
      exact ⟨rfl, hdeliver⟩
    · simp only [if_neg hdeliver] at h
      cases h

theorem renew_moved (h : source.Keyed) (now : Time) (workId token : UUID) (ttl : ℚ) :
    source.Moved ⟨now, .renew workId token ttl⟩ := by
  by_cases httl : ttl ≤ 0
  · left
    simp only [perform, renew, if_pos httl]
    exact ⟨rfl, rfl⟩
  · cases hrequire : source.requireActiveDelivery workId token now with
    | error e =>
      left
      simp only [perform, renew, if_neg httl, hrequire]
      exact ⟨rfl, rfl⟩
    | ok current =>
      right
      obtain ⟨hitem, hdeliver⟩ := requireActiveDelivery_ok hrequire
      refine ⟨workId, current.renew now ttl, changed_of_delivery rfl hitem
        (.renewed workId token ttl current hdeliver) (h.id workId current hitem) ?_⟩
      simp only [perform, renew, if_neg httl, hrequire]
      rfl

theorem settle_moved (h : source.Keyed) {call : WorkCall} {workId token : UUID}
    (status : FlowWorkStatus) (settled : FlowWorkItem → FlowWorkItem)
    (hdelivery : call.op.delivery = some (workId, token))
    (hperform : source.perform call =
      Prod.map (·.map .item) id (source.settle call.now workId token status settled))
    (hid : ∀ item, (settled item).id = item.id)
    (hchange : ∀ item, item.delivering token call.now = true →
      ItemChange call.now call.op (some item) (settled item)) :
    source.Moved call := by
  cases settle_cases source call.now workId token status settled with
  | inl hsame =>
    left
    refine ⟨?_, WorkRun.delivered_eq_nil hdelivery⟩
    rw [hperform]
    exact hsame
  | inr hwritten =>
    right
    obtain ⟨current, hitem, hdeliver, heq⟩ := hwritten
    refine ⟨workId, settled current, changed_of_delivery hdelivery hitem
      (hchange current hdeliver) ((hid current).trans (h.id workId current hitem)) ?_⟩
    rw [hperform, heq]
    rfl

theorem block_moved (h : source.Keyed) (now : Time) (workId token : UUID)
    (reasonCode : String) : source.Moved ⟨now, .block workId token reasonCode⟩ := by
  cases hargs : validateReasonCode reasonCode with
  | error e =>
    left
    simp only [perform, block, hargs]
    exact ⟨rfl, rfl⟩
  | ok u =>
    apply settle_moved h .blocked (fun current => current.block now reasonCode) rfl
    · simp only [perform, block, hargs]
    · intro item
      rfl
    · intro item hdeliver
      exact .blocked workId token reasonCode item hdeliver

theorem retry_moved (h : source.Keyed) (now : Time) (workId token : UUID) (delay : ℚ)
    (errorType : Option String) : source.Moved ⟨now, .retry workId token delay errorType⟩ := by
  cases hargs : validateRetryArguments delay errorType with
  | error e =>
    left
    simp only [perform, retry, hargs]
    exact ⟨rfl, rfl⟩
  | ok u =>
    apply settle_moved h .pending (fun current => current.retry now delay errorType) rfl
    · simp only [perform, retry, hargs]
    · intro item
      rfl
    · intro item hdeliver
      exact .retried workId token delay errorType item hdeliver

theorem review_moved (h : source.Keyed) (now : Time) (review : FlowWorkReview) :
    source.Moved ⟨now, .review review⟩ := by
  cases hkey : dictGet source.reviewIdempotency review.idempotencyKey with
  | some existing =>
    left
    simp only [perform, InMemoryFlowWorkSource.review, hkey]
    split
    · split
      · exact ⟨rfl, rfl⟩
      · exact ⟨rfl, rfl⟩
    · exact ⟨rfl, rfl⟩
  | none =>
    cases hitem : source.item review.workId with
    | none =>
      left
      simp only [perform, InMemoryFlowWorkSource.review, hkey, hitem]
      exact ⟨rfl, rfl⟩
    | some current =>
      by_cases hblocked : current.status = .blocked
      · right
        have hid : current.id = review.workId := h.id _ _ hitem
        have hnew : (current.applyReview now review).id = review.workId := by
          rw [← hid]
          unfold FlowWorkItem.applyReview
          split <;> rfl
        refine ⟨review.workId, current.applyReview now review, ?_, ?_, hnew, ?_, ?_, ?_, ?_⟩
        · rw [hitem]
          exact .reviewed review current hblocked
        · intro target htarget
          exact (Option.some.inj htarget).symm
        · simp only [perform, InMemoryFlowWorkSource.review, hkey, hitem, if_pos hblocked]
          rw [← hid]
          rfl
        · simp only [perform, InMemoryFlowWorkSource.review, hkey, hitem, if_pos hblocked]
          rfl
        · intro command hop
          cases hop
        · rfl
      · left
        simp only [perform, InMemoryFlowWorkSource.review, hkey, hitem, if_neg hblocked]
        exact ⟨rfl, rfl⟩

theorem perform_cases (h : source.Keyed) (call : WorkCall) : source.Moved call := by
  obtain ⟨now, op⟩ := call
  cases op with
  | enqueue command => exact source.enqueue_moved now command
  | claim token ownerId ttl => exact claim_moved h now token ownerId ttl
  | renew workId token ttl => exact renew_moved h now workId token ttl
  | complete workId token =>
    apply settle_moved h .completed (fun current => current.complete now) rfl rfl
    · intro item
      rfl
    · intro item hdeliver
      exact .completed workId token item hdeliver
  | block workId token reasonCode => exact block_moved h now workId token reasonCode
  | retry workId token delay errorType => exact retry_moved h now workId token delay errorType
  | review review => exact review_moved h now review

theorem Changed.item {call : WorkCall} {workId : UUID} {new : FlowWorkItem}
    (h : source.Changed call workId new) (other : UUID) :
    (source.perform call).2.item other = if other = workId then some new else source.item other := by
  show dictGet (source.perform call).2.items other = _
  rw [h.items, dictGet_set]
  rfl

theorem Keyed.changed {call : WorkCall} {workId : UUID} {new : FlowWorkItem} (h : source.Keyed)
    (hchanged : source.Changed call workId new) : (source.perform call).2.Keyed := by
  constructor
  · rw [hchanged.items]
    exact dictSet_nodup _ _ h.nodup
  · intro other item hitem
    rw [hchanged.item] at hitem
    by_cases hother : other = workId
    · rw [if_pos hother] at hitem
      rw [← Option.some.inj hitem, hother]
      exact hchanged.id
    · rw [if_neg hother] at hitem
      exact h.id other item hitem

end InMemoryFlowWorkSource

/-! ## The items along a run -/

structure FlowWorkItem.Sane (item : FlowWorkItem) : Prop where
  claimed : item.status = .claimed → item.ownerId.isSome = true ∧ item.deliveryToken.isSome = true ∧
    item.claimedAt.isSome = true ∧ item.leaseExpiresAt.isSome = true ∧ 1 ≤ item.attempt
  unclaimed : item.status ≠ .claimed → item.ownerId = none ∧ item.deliveryToken = none ∧
    item.claimedAt = none ∧ item.leaseExpiresAt = none
  blocked : item.status = .blocked ↔ item.blockedReason.isSome = true

theorem FlowWorkItem.Sane.validateDelivery {item : FlowWorkItem} (h : item.Sane) :
    item.validateDelivery = .ok item := by
  have hblocked := h.blocked
  by_cases hstatus : item.status = .claimed
  · obtain ⟨howner, htoken, hclaimed, hexpires, hattempt⟩ := h.claimed hstatus
    have hreason : item.blockedReason = none := by simpa [hstatus] using hblocked
    simp [FlowWorkItem.validateDelivery, raiseIf, hstatus, hreason, bind, Except.bind,
      Option.isNone_iff_eq_none, Option.isSome_iff_ne_none.mp howner,
      Option.isSome_iff_ne_none.mp htoken, Option.isSome_iff_ne_none.mp hclaimed,
      Option.isSome_iff_ne_none.mp hexpires, Nat.one_le_iff_ne_zero.mp hattempt]
    rfl
  · obtain ⟨howner, htoken, hclaimed, hexpires⟩ := h.unclaimed hstatus
    by_cases hb : item.status = .blocked
    · have hreason := hblocked.mp hb
      simp [FlowWorkItem.validateDelivery, raiseIf, hb, howner, htoken, hclaimed, hexpires, bind,
        Except.bind, Option.isSome_iff_ne_none.mp hreason]
      rfl
    · have hreason : item.blockedReason = none := by simpa [hb] using hblocked
      simp [FlowWorkItem.validateDelivery, raiseIf, hstatus, hb, howner, htoken, hclaimed, hexpires,
        hreason, bind, Except.bind]
      rfl

namespace ItemChange

variable {now : Time} {op : WorkOp} {old : Option FlowWorkItem} {new : FlowWorkItem}

theorem sane (h : ItemChange now op old new) (hold : ∀ item, old = some item → item.Sane) :
    new.Sane := by
  have hunblocked : ∀ item token, old = some item → item.delivering token now = true →
      item.status = .claimed ∧ item.blockedReason = none := by
    intro item token hitem hdeliver
    have hstatus : item.status = .claimed := by
      simp only [FlowWorkItem.delivering, decide_eq_true_eq] at hdeliver
      exact hdeliver.1
    refine ⟨hstatus, ?_⟩
    have := (hold item hitem).blocked
    simpa [hstatus] using this
  cases h with
  | enqueued command => exact ⟨by simp, by simp, by simp⟩
  | claimed token ownerId ttl item hclaimable =>
    have hreason : item.blockedReason = none := by
      have hblocked := (hold item rfl).blocked
      simp only [FlowWorkItem.claimable, decide_eq_true_eq] at hclaimable
      cases hclaimable with
      | inl hp => simpa [hp.1] using hblocked
      | inr hc => simpa [hc.1] using hblocked
    exact ⟨by simp [FlowWorkItem.claim], by simp [FlowWorkItem.claim],
      by simp [FlowWorkItem.claim, hreason]⟩
  | renewed workId token ttl item hdeliver =>
    obtain ⟨hstatus, hreason⟩ := hunblocked item token rfl hdeliver
    obtain ⟨howner, htoken, hclaimed, -, hattempt⟩ := (hold item rfl).claimed hstatus
    exact ⟨fun _ => ⟨howner, htoken, hclaimed, rfl, hattempt⟩, fun hne => absurd hstatus hne,
      (hold item rfl).blocked⟩
  | completed workId token item hdeliver =>
    obtain ⟨-, hreason⟩ := hunblocked item token rfl hdeliver
    exact ⟨by simp [FlowWorkItem.complete, FlowWorkItem.settle],
      by simp [FlowWorkItem.complete, FlowWorkItem.settle],
      by simp [FlowWorkItem.complete, FlowWorkItem.settle, hreason]⟩
  | blocked workId token reasonCode item hdeliver =>
    exact ⟨by simp [FlowWorkItem.block, FlowWorkItem.settle],
      by simp [FlowWorkItem.block, FlowWorkItem.settle],
      by simp [FlowWorkItem.block, FlowWorkItem.settle]⟩
  | retried workId token delay errorType item hdeliver =>
    obtain ⟨-, hreason⟩ := hunblocked item token rfl hdeliver
    exact ⟨by simp [FlowWorkItem.retry, FlowWorkItem.settle],
      by simp [FlowWorkItem.retry, FlowWorkItem.settle],
      by simp [FlowWorkItem.retry, FlowWorkItem.settle, hreason]⟩
  | reviewed review item hblocked =>
    obtain ⟨howner, htoken, hclaimed, hexpires⟩ :=
      (hold item rfl).unclaimed (by rw [hblocked]; simp)
    unfold FlowWorkItem.applyReview
    split
    · exact ⟨by simp, fun _ => ⟨howner, htoken, hclaimed, hexpires⟩, by simp⟩
    · exact ⟨by simp, fun _ => ⟨howner, htoken, hclaimed, hexpires⟩, by simp⟩

/-- Apart from an enqueueing and a claim, a change keeps the command, the attempts and the
token, or drops the token. -/
theorem kept (h : ItemChange now op old new) (henqueue : ∀ command, op ≠ .enqueue command)
    (hclaim : op.claims = none) :
    ∃ item, old = some item ∧ new.command = item.command ∧ new.attempt = item.attempt ∧
      ∀ token, new.deliveryToken = some token → item.deliveryToken = some token := by
  cases h with
  | enqueued command => exact absurd rfl (henqueue command)
  | claimed token ownerId ttl item hclaimable => cases hclaim
  | renewed workId token ttl item hdeliver => exact ⟨item, rfl, rfl, rfl, fun _ ht => ht⟩
  | completed workId token item hdeliver =>
    exact ⟨item, rfl, rfl, rfl, fun _ ht => (by cases ht)⟩
  | blocked workId token reasonCode item hdeliver =>
    exact ⟨item, rfl, rfl, rfl, fun _ ht => (by cases ht)⟩
  | retried workId token delay errorType item hdeliver =>
    exact ⟨item, rfl, rfl, rfl, fun _ ht => (by cases ht)⟩
  | reviewed review item hblocked =>
    refine ⟨item, rfl, ?_⟩
    unfold FlowWorkItem.applyReview
    split <;> exact ⟨rfl, rfl, fun _ ht => ht⟩

theorem not_settled (h : ItemChange now op old new) (henqueue : ∀ command, op ≠ .enqueue command)
    {item : FlowWorkItem} (hold : old = some item) :
    item.status ≠ .completed ∧ item.status ≠ .discarded := by
  have hclaimed : ∀ token, item.delivering token now = true → item.status = .claimed := by
    intro token hdeliver
    simp only [FlowWorkItem.delivering, decide_eq_true_eq] at hdeliver
    exact hdeliver.1
  cases h with
  | enqueued command => exact absurd rfl (henqueue command)
  | claimed token ownerId ttl item' hclaimable =>
    cases hold
    simp only [FlowWorkItem.claimable, decide_eq_true_eq] at hclaimable
    cases hclaimable with
    | inl hp => simp [hp.1]
    | inr hc => simp [hc.1]
  | renewed workId token ttl item' hdeliver =>
    cases hold
    simp [hclaimed token hdeliver]
  | completed workId token item' hdeliver =>
    cases hold
    simp [hclaimed token hdeliver]
  | blocked workId token reasonCode item' hdeliver =>
    cases hold
    simp [hclaimed token hdeliver]
  | retried workId token delay errorType item' hdeliver =>
    cases hold
    simp [hclaimed token hdeliver]
  | reviewed review item' hblocked =>
    cases hold
    simp [hblocked]

theorem delivering (h : ItemChange now op old new) {workId token : UUID}
    (hop : op.delivery = some (workId, token)) :
    ∃ item, old = some item ∧ item.delivering token now = true := by
  cases h <;> cases hop <;> exact ⟨_, rfl, ‹_›⟩

theorem settled (h : ItemChange now op old new) {token : UUID} (hop : op.settles = some token) :
    new.deliveryToken = none := by
  cases h <;> cases hop <;> rfl

end ItemChange

/-- Commands with one identifier have one idempotency key. -/
def DistinctCommands (calls : List WorkCall) : Prop :=
  ∀ a ∈ calls, ∀ b ∈ calls, ∀ command other, a.op = .enqueue command → b.op = .enqueue other →
    command.id = other.id → command.idempotencyKey = other.idempotencyKey

/-- The tokens that claims draw are all different. -/
def FreshTokens (calls : List WorkCall) : Prop := (calls.filterMap (·.op.claims)).Nodup

instance (calls : List WorkCall) : Decidable (FreshTokens calls) :=
  inferInstanceAs (Decidable (calls.filterMap (·.op.claims)).Nodup)

/-- The items of a run and the claims that were made. -/
structure FencedDeliveries (calls : List WorkCall) (run : WorkRun) : Prop where
  keyed : run.source.Keyed
  sane : ∀ workId item, run.source.item workId = some item → item.Sane
  attempt : ∀ workId item, run.source.item workId = some item →
    item.attempt = run.claims.countP (·.1 = workId)
  claimed : ∀ workId token, (workId, token) ∈ run.claims → run.source.item workId ≠ none
  latest : ∀ workId item token, run.source.item workId = some item →
    item.deliveryToken = some token →
    (run.claims.filter (·.1 = workId)).getLast? = some (workId, token)
  tokens : (run.claims.map (·.2)).Sublist (calls.filterMap (·.op.claims))
  enqueued : ∀ workId item, run.source.item workId = some item →
    ∃ call ∈ calls, call.op = .enqueue item.command
  indexed : ∀ workId item, run.source.item workId = some item →
    dictGet run.source.idempotency item.command.idempotencyKey = some workId

namespace FencedDeliveries

variable {calls : List WorkCall} {run : WorkRun} {call : WorkCall}

theorem item_changed {workId : UUID} {new : FlowWorkItem}
    (h : run.source.Changed call workId new) (other : UUID) :
    (run.step call).source.item other =
      if other = workId then some new else run.source.item other :=
  h.item other

theorem sane_changed (h : FencedDeliveries calls run) {workId : UUID} {new : FlowWorkItem}
    (hchanged : run.source.Changed call workId new) (other : UUID) (item : FlowWorkItem)
    (hitem : (run.step call).source.item other = some item) : item.Sane := by
  rw [item_changed hchanged] at hitem
  by_cases hother : other = workId
  · rw [if_pos hother] at hitem
    rw [← Option.some.inj hitem]
    exact hchanged.change.sane fun old hold => h.sane workId old hold
  · rw [if_neg hother] at hitem
    exact h.sane other item hitem

theorem absent (h : FencedDeliveries calls run) (hcommands : DistinctCommands (calls ++ [call]))
    {workId : UUID} {new : FlowWorkItem} (hchanged : run.source.Changed call workId new)
    {command : FlowWorkCommand} (hop : call.op = .enqueue command) :
    run.source.item workId = none := by
  have hid : command.id = workId := hchanged.about command.id (by rw [hop]; rfl)
  cases hitem : run.source.item workId with
  | none => rfl
  | some item =>
    obtain ⟨earlier, hmem, hearlier⟩ := h.enqueued workId item hitem
    have hsame : item.command.id = command.id := (h.keyed.id workId item hitem).trans hid.symm
    have hkey := hcommands earlier (List.mem_append_left _ hmem) call (by simp) _ _ hearlier hop
      hsame
    have hknown := h.indexed workId item hitem
    rw [hkey, hchanged.unknown command hop] at hknown
    cases hknown

theorem step_same (h : FencedDeliveries calls run) (hsource : (run.source.perform call).2 = run.source)
    (hdelivered : WorkRun.delivered call (run.source.perform call).1 = []) :
    FencedDeliveries (calls ++ [call]) (run.step call) := by
  have hstep : run.step call = run := by
    unfold WorkRun.step
    rw [hsource, hdelivered, List.append_nil]
  rw [hstep]
  exact
    { h with
      tokens := by
        rw [List.filterMap_append]
        exact h.tokens.trans (List.sublist_append_left _ _)
      enqueued := by
        intro workId item hitem
        obtain ⟨earlier, hmem, hearlier⟩ := h.enqueued workId item hitem
        exact ⟨earlier, List.mem_append_left _ hmem, hearlier⟩ }

theorem step_enqueued (h : FencedDeliveries calls run) (hcommands : DistinctCommands (calls ++ [call]))
    {workId : UUID} {new : FlowWorkItem} (hchanged : run.source.Changed call workId new)
    {command : FlowWorkCommand} (hop : call.op = .enqueue command) :
    FencedDeliveries (calls ++ [call]) (run.step call) := by
  have habsent := h.absent hcommands hchanged hop
  have hclaims : (run.step call).claims = run.claims := by
    show run.claims ++ WorkRun.delivered call (run.source.perform call).1 = run.claims
    rw [hchanged.delivered, hop]
    exact List.append_nil _
  have hnew : new = { command := command, availableAt := call.now, updatedAt := call.now } := by
    have hchange := hchanged.change
    rw [hop] at hchange
    cases hchange
    rfl
  have hidempotency : (run.step call).source.idempotency =
      dictSet run.source.idempotency command.idempotencyKey workId := by
    show (run.source.perform call).2.idempotency = _
    rw [hchanged.idempotency, hop]
  have hunclaimed : ∀ token, (workId, token) ∉ run.claims :=
    fun token hmem => h.claimed workId token hmem habsent
  have hcases : ∀ other item, (run.step call).source.item other = some item →
      (other = workId ∧ item = new) ∨ (other ≠ workId ∧ run.source.item other = some item) := by
    intro other item hitem
    rw [item_changed hchanged] at hitem
    by_cases hother : other = workId
    · rw [if_pos hother] at hitem
      exact .inl ⟨hother, (Option.some.inj hitem).symm⟩
    · rw [if_neg hother] at hitem
      exact .inr ⟨hother, hitem⟩
  refine ⟨h.keyed.changed hchanged, h.sane_changed hchanged, ?_, ?_, ?_, ?_, ?_, ?_⟩
  · intro other item hitem
    rw [hclaims]
    cases hcases other item hitem with
    | inl hfresh =>
      rw [hfresh.1, hfresh.2, hnew]
      symm
      rw [List.countP_eq_zero]
      intro entry hentry heq
      have heq : entry.1 = workId := by simpa using heq
      exact hunclaimed entry.2 (by rw [← heq]; exact hentry)
    | inr hold => exact h.attempt other item hold.2
  · intro other token hmem
    rw [hclaims] at hmem
    rw [item_changed hchanged]
    split
    · simp
    · exact h.claimed other token hmem
  · intro other item token hitem htoken
    rw [hclaims]
    cases hcases other item hitem with
    | inl hfresh =>
      rw [hfresh.2, hnew] at htoken
      cases htoken
    | inr hold => exact h.latest other item token hold.2 htoken
  · rw [hclaims, List.filterMap_append]
    exact h.tokens.trans (List.sublist_append_left _ _)
  · intro other item hitem
    cases hcases other item hitem with
    | inl hfresh =>
      refine ⟨call, by simp, ?_⟩
      rw [hop, hfresh.2, hnew]
    | inr hold =>
      obtain ⟨earlier, hmem, hearlier⟩ := h.enqueued other item hold.2
      exact ⟨earlier, List.mem_append_left _ hmem, hearlier⟩
  · intro other item hitem
    rw [hidempotency, dictGet_set]
    cases hcases other item hitem with
    | inl hfresh =>
      rw [hfresh.1, hfresh.2, hnew]
      exact if_pos rfl
    | inr hold =>
      have hindexed := h.indexed other item hold.2
      have hkey : item.command.idempotencyKey ≠ command.idempotencyKey := by
        intro heq
        rw [heq, hchanged.unknown command hop] at hindexed
        cases hindexed
      rw [if_neg hkey]
      exact hindexed

/-- A change of a stored item: its command is kept, its attempts are counted, and the token it
has is the one of its latest claim. -/
theorem step_stored (h : FencedDeliveries calls run) {workId : UUID} {new old : FlowWorkItem}
    (hchanged : run.source.Changed call workId new) (hop : ∀ command, call.op ≠ .enqueue command)
    (hold : run.source.item workId = some old) (hcommand : new.command = old.command)
    (hattempt : new.attempt = (run.step call).claims.countP (·.1 = workId))
    (hlatest : ∀ token, new.deliveryToken = some token →
      ((run.step call).claims.filter (·.1 = workId)).getLast? = some (workId, token))
    (hdelivered : ∀ entry ∈ WorkRun.delivered call (run.source.perform call).1,
      entry.1 = workId)
    (htokens : ((run.step call).claims.map (·.2)).Sublist
      ((calls ++ [call]).filterMap (·.op.claims))) :
    FencedDeliveries (calls ++ [call]) (run.step call) := by
  have hidempotency : (run.step call).source.idempotency = run.source.idempotency := by
    show (run.source.perform call).2.idempotency = _
    rw [hchanged.idempotency]
    split
    · rename_i command heq
      exact absurd heq (hop command)
    · rfl
  have hclaims : ∀ other, other ≠ workId →
      (run.step call).claims.filter (·.1 = other) = run.claims.filter (·.1 = other) := by
    intro other hother
    show (run.claims ++ WorkRun.delivered call (run.source.perform call).1).filter _ = _
    rw [List.filter_append]
    have hnone : (WorkRun.delivered call (run.source.perform call).1).filter (·.1 = other) = [] := by
      rw [List.filter_eq_nil_iff]
      intro entry hentry heq
      have heq : entry.1 = other := by simpa using heq
      exact hother (heq.symm.trans (hdelivered entry hentry))
    rw [hnone, List.append_nil]
  have hcases : ∀ other item, (run.step call).source.item other = some item →
      (other = workId ∧ item = new) ∨ (other ≠ workId ∧ run.source.item other = some item) := by
    intro other item hitem
    rw [item_changed hchanged] at hitem
    by_cases hother : other = workId
    · rw [if_pos hother] at hitem
      exact .inl ⟨hother, (Option.some.inj hitem).symm⟩
    · rw [if_neg hother] at hitem
      exact .inr ⟨hother, hitem⟩
  refine ⟨h.keyed.changed hchanged, h.sane_changed hchanged, ?_, ?_, ?_, htokens, ?_, ?_⟩
  · intro other item hitem
    cases hcases other item hitem with
    | inl hfresh =>
      rw [hfresh.1, hfresh.2]
      exact hattempt
    | inr hstored =>
      rw [List.countP_eq_length_filter, hclaims other hstored.1, ← List.countP_eq_length_filter]
      exact h.attempt other item hstored.2
  · intro other token hmem
    rw [item_changed hchanged]
    split
    · simp
    · rename_i hother
      have hmem : (other, token) ∈ run.claims ++ _ := hmem
      cases List.mem_append.mp hmem with
      | inl hbefore => exact h.claimed other token hbefore
      | inr hnow => exact absurd (hdelivered _ hnow) hother
  · intro other item token hitem htoken
    cases hcases other item hitem with
    | inl hfresh =>
      rw [hfresh.2] at htoken
      rw [hfresh.1]
      exact hlatest token htoken
    | inr hstored =>
      rw [hclaims other hstored.1]
      exact h.latest other item token hstored.2 htoken
  · intro other item hitem
    have hfound : ∀ workId item, run.source.item workId = some item →
        ∃ c ∈ calls ++ [call], c.op = .enqueue item.command := by
      intro workId item hitem
      obtain ⟨earlier, hmem, hearlier⟩ := h.enqueued workId item hitem
      exact ⟨earlier, List.mem_append_left _ hmem, hearlier⟩
    cases hcases other item hitem with
    | inl hfresh =>
      rw [hfresh.2, hcommand]
      exact hfound workId old hold
    | inr hstored => exact hfound other item hstored.2
  · intro other item hitem
    rw [hidempotency]
    cases hcases other item hitem with
    | inl hfresh =>
      rw [hfresh.1, hfresh.2, hcommand]
      exact h.indexed workId old hold
    | inr hstored => exact h.indexed other item hstored.2

theorem step_claimed (h : FencedDeliveries calls run) {workId : UUID} {new : FlowWorkItem}
    (hchanged : run.source.Changed call workId new) {token : UUID} {ownerId : String} {ttl : ℚ}
    (hop : call.op = .claim token ownerId ttl) :
    FencedDeliveries (calls ++ [call]) (run.step call) := by
  have hdelivered : WorkRun.delivered call (run.source.perform call).1 = [(workId, token)] := by
    rw [hchanged.delivered, hop]
  have hclaims : (run.step call).claims = run.claims ++ [(workId, token)] := by
    show run.claims ++ _ = _
    rw [hdelivered]
  obtain ⟨old, hold, hnew⟩ : ∃ old, run.source.item workId = some old ∧
      new = old.claim call.now token ownerId ttl := by
    have hchange := hchanged.change
    rw [hop] at hchange
    generalize hitem : run.source.item workId = stored at hchange
    cases hchange with
    | claimed _ _ _ item _ => exact ⟨item, rfl, rfl⟩
  refine h.step_stored hchanged (by simp [hop]) hold (by rw [hnew]; rfl) ?_ ?_ ?_ ?_
  · rw [hclaims, List.countP_append, ← h.attempt workId old hold, hnew]
    simp [FlowWorkItem.claim]
  · intro token' htoken
    rw [hnew] at htoken
    cases htoken
    rw [hclaims, List.filter_append]
    simp
  · intro entry hentry
    rw [hdelivered] at hentry
    rw [List.mem_singleton.mp hentry]
  · rw [hclaims, List.map_append, List.filterMap_append]
    refine List.Sublist.append h.tokens ?_
    simp [hop, WorkOp.claims]

theorem step_kept (h : FencedDeliveries calls run) {workId : UUID} {new : FlowWorkItem}
    (hchanged : run.source.Changed call workId new) (hop : ∀ command, call.op ≠ .enqueue command)
    (hclaim : call.op.claims = none) : FencedDeliveries (calls ++ [call]) (run.step call) := by
  obtain ⟨old, hold, hcommand, hattempt, htoken⟩ := hchanged.change.kept hop hclaim
  have hdelivered : WorkRun.delivered call (run.source.perform call).1 = [] := by
    rw [hchanged.delivered]
    split
    · rename_i heq
      rw [heq] at hclaim
      cases hclaim
    · rfl
  have hclaims : (run.step call).claims = run.claims := by
    show run.claims ++ _ = _
    rw [hdelivered, List.append_nil]
  refine h.step_stored hchanged hop hold hcommand ?_ ?_ ?_ ?_
  · rw [hclaims, hattempt]
    exact h.attempt workId old hold
  · intro token ht
    rw [hclaims]
    exact h.latest workId old token hold (htoken token ht)
  · intro entry hentry
    rw [hdelivered] at hentry
    cases hentry
  · rw [hclaims, List.filterMap_append]
    exact h.tokens.trans (List.sublist_append_left _ _)

theorem step (h : FencedDeliveries calls run) (hcommands : DistinctCommands (calls ++ [call])) :
    FencedDeliveries (calls ++ [call]) (run.step call) := by
  cases InMemoryFlowWorkSource.perform_cases h.keyed call with
  | inl hsame => exact h.step_same hsame.1 hsame.2
  | inr hchanged =>
    obtain ⟨workId, new, hchanged⟩ := hchanged
    cases hop : call.op with
    | enqueue command => exact h.step_enqueued hcommands hchanged hop
    | claim token ownerId ttl => exact h.step_claimed hchanged hop
    | renew workId token ttl => exact h.step_kept hchanged (by simp [hop]) (by rw [hop]; rfl)
    | complete workId token => exact h.step_kept hchanged (by simp [hop]) (by rw [hop]; rfl)
    | block workId token reason => exact h.step_kept hchanged (by simp [hop]) (by rw [hop]; rfl)
    | retry workId token delay errorType =>
      exact h.step_kept hchanged (by simp [hop]) (by rw [hop]; rfl)
    | review r => exact h.step_kept hchanged (by simp [hop]) (by rw [hop]; rfl)

end FencedDeliveries

theorem DistinctCommands.of_append {calls more : List WorkCall}
    (h : DistinctCommands (calls ++ more)) : DistinctCommands calls :=
  fun a ha b hb => h a (List.mem_append_left _ ha) b (List.mem_append_left _ hb)

theorem fenced (calls : List WorkCall) (hcommands : DistinctCommands calls) :
    FencedDeliveries calls (WorkRun.of calls) := by
  induction calls using List.reverseRecOn with
  | nil =>
    exact
      { keyed := ⟨List.nodup_nil, fun _ _ h => (by cases h)⟩
        sane := fun _ _ h => (by cases h)
        attempt := fun _ _ h => (by cases h)
        claimed := fun _ _ h => (by cases h)
        latest := fun _ _ _ h => (by cases h)
        tokens := List.Sublist.refl _
        enqueued := fun _ _ h => (by cases h)
        indexed := fun _ _ h => (by cases h) }
  | append_singleton calls call ih =>
    rw [WorkRun.of_append]
    exact (ih hcommands.of_append).step hcommands

namespace InMemoryFlowWorkSource

variable {source : InMemoryFlowWorkSource}

/-- A failed operation leaves the source as it was. -/
def Atomic {α : Type} (source : InMemoryFlowWorkSource)
    (outcome : Except FlowError α × InMemoryFlowWorkSource) : Prop :=
  ∀ e, outcome.1 = .error e → outcome.2 = source

theorem Atomic.error {α : Type} (e : FlowError) :
    source.Atomic ((.error e, source) : Except FlowError α × InMemoryFlowWorkSource) :=
  fun _ _ => rfl

theorem Atomic.ok {α : Type} (a : α) (source' : InMemoryFlowWorkSource) :
    source.Atomic ((.ok a, source') : Except FlowError α × InMemoryFlowWorkSource) :=
  fun _ h => by cases h

theorem Atomic.map {α β : Type} {outcome : Except FlowError α × InMemoryFlowWorkSource}
    (h : source.Atomic outcome) (f : α → β) : source.Atomic (Prod.map (·.map f) id outcome) := by
  intro e he
  obtain ⟨reply, source'⟩ := outcome
  cases reply with
  | ok a => cases he
  | error e' => exact h e' rfl

theorem settle_atomic (now : Time) (workId token : UUID) (status : FlowWorkStatus)
    (settled : FlowWorkItem → FlowWorkItem) :
    source.Atomic (source.settle now workId token status settled) := by
  unfold settle
  split
  · exact Atomic.error _
  · split
    · exact Atomic.ok _ _
    · split
      · exact Atomic.ok _ _
      · exact Atomic.error _

theorem enqueue_atomic (now : Time) (command : FlowWorkCommand) :
    source.Atomic (source.enqueue now command) := by
  unfold enqueue
  split
  · split
    · exact Atomic.error _
    · split
      · exact Atomic.ok _ _
      · exact Atomic.error _
  · exact Atomic.ok _ _

theorem claim_atomic (now : Time) (token : UUID) (ownerId : String) (ttl : ℚ) :
    source.Atomic (source.claim now token ownerId ttl) := by
  unfold claim
  split
  · exact Atomic.error _
  · split
    · exact Atomic.ok _ _
    · exact Atomic.ok _ _

theorem renew_atomic (now : Time) (workId token : UUID) (ttl : ℚ) :
    source.Atomic (source.renew now workId token ttl) := by
  unfold renew
  split
  · exact Atomic.error _
  · split
    · exact Atomic.error _
    · exact Atomic.ok _ _

theorem review_atomic (now : Time) (review : FlowWorkReview) :
    source.Atomic (source.review now review) := by
  unfold InMemoryFlowWorkSource.review
  split
  · split
    · split
      · exact Atomic.error _
      · exact Atomic.ok _ _
    · exact Atomic.error _
  · split
    · exact Atomic.error _
    · split
      · exact Atomic.ok _ _
      · exact Atomic.error _

theorem perform_atomic (call : WorkCall) : source.Atomic (source.perform call) := by
  unfold perform
  split
  · exact (enqueue_atomic _ _).map _
  · exact (claim_atomic _ _ _ _).map _
  · exact (renew_atomic _ _ _ _).map _
  · exact (settle_atomic _ _ _ _ _).map _
  · refine Atomic.map ?_ _
    unfold block
    split
    · exact Atomic.error _
    · exact settle_atomic _ _ _ _ _
  · refine Atomic.map ?_ _
    unfold retry
    split
    · exact Atomic.error _
    · exact settle_atomic _ _ _ _ _
  · exact (review_atomic _ _).map _

end InMemoryFlowWorkSource

theorem FencedDeliveries.step_settled {calls : List WorkCall} {run : WorkRun} {call : WorkCall}
    (h : FencedDeliveries calls run) (hcommands : DistinctCommands (calls ++ [call])) {workId : UUID}
    {item : FlowWorkItem} (hitem : run.source.item workId = some item)
    (hsettled : item.status = .completed ∨ item.status = .discarded) :
    (run.step call).source.item workId = some item := by
  cases InMemoryFlowWorkSource.perform_cases h.keyed call with
  | inl hsame =>
    show (run.source.perform call).2.item workId = some item
    rw [hsame.1]
    exact hitem
  | inr hchanged =>
    obtain ⟨other, new, hchanged⟩ := hchanged
    rw [FencedDeliveries.item_changed hchanged]
    have hne : workId ≠ other := by
      rintro rfl
      have henqueue : ∀ command, call.op ≠ .enqueue command := by
        intro command hop
        rw [h.absent hcommands hchanged hop] at hitem
        cases hitem
      obtain ⟨hcompleted, hdiscarded⟩ := hchanged.change.not_settled henqueue hitem
      cases hsettled with
      | inl hc => exact hcompleted hc
      | inr hd => exact hdiscarded hd
    rw [if_neg hne]
    exact hitem

theorem settled_stays {before : List WorkCall} (after : List WorkCall)
    (hcommands : DistinctCommands (before ++ after)) {workId : UUID} {item : FlowWorkItem}
    (hitem : (WorkRun.of before).source.item workId = some item)
    (hsettled : item.status = .completed ∨ item.status = .discarded) :
    (WorkRun.of (before ++ after)).source.item workId = some item := by
  induction after using List.reverseRecOn with
  | nil =>
    rw [List.append_nil]
    exact hitem
  | append_singleton after call ih =>
    rw [← List.append_assoc] at hcommands ⊢
    rw [WorkRun.of_append]
    have hcommands' := hcommands.of_append
    exact (fenced _ hcommands').step_settled hcommands (ih hcommands') hsettled

/-- A renewal or a settlement that changes something changes its own item, under the token of
the item's latest claim and before that claim has expired. -/
theorem FencedDeliveries.change_fenced {calls : List WorkCall} {run : WorkRun} {call : WorkCall}
    (h : FencedDeliveries calls run) {workId token : UUID} (hop : call.op.delivery = some (workId, token))
    (hchange : (run.step call).source ≠ run.source) :
    (run.claims.filter (·.1 = workId)).getLast? = some (workId, token) ∧
    (∃ item expiry, run.source.item workId = some item ∧ item.deliveryToken = some token ∧
      item.leaseExpiresAt = some expiry ∧ call.now < expiry) ∧
    ∀ other, other ≠ workId → (run.step call).source.item other = run.source.item other := by
  cases InMemoryFlowWorkSource.perform_cases h.keyed call with
  | inl hsame => exact absurd hsame.1 hchange
  | inr hchanged =>
    obtain ⟨changed, new, hchanged⟩ := hchanged
    have habout : call.op.about = some workId := by
      cases hcall : call.op <;> rw [hcall] at hop <;> cases hop <;> rfl
    obtain rfl := hchanged.about workId habout
    obtain ⟨item, hitem, hdeliver⟩ := hchanged.change.delivering hop
    simp only [FlowWorkItem.delivering, decide_eq_true_eq] at hdeliver
    obtain ⟨-, htoken, expiry, hexpiry, hlt⟩ := hdeliver
    refine ⟨h.latest workId item token hitem htoken, ⟨item, expiry, hitem, htoken, hexpiry, hlt⟩, ?_⟩
    intro other hother
    rw [FencedDeliveries.item_changed hchanged, if_neg hother]

/-- A token that was drawn and that no item holds. -/
def Spent (calls : List WorkCall) (run : WorkRun) (token : UUID) : Prop :=
  token ∈ calls.filterMap (·.op.claims) ∧
    ∀ workId item, run.source.item workId = some item → item.deliveryToken ≠ some token

theorem FencedDeliveries.step_spent {calls : List WorkCall} {run : WorkRun} {call : WorkCall}
    (h : FencedDeliveries calls run) (htokens : FreshTokens (calls ++ [call])) {token : UUID}
    (hspent : Spent calls run token) : Spent (calls ++ [call]) (run.step call) token := by
  constructor
  · rw [List.filterMap_append]
    exact List.mem_append_left _ hspent.1
  · intro workId item hitem htoken
    cases InMemoryFlowWorkSource.perform_cases h.keyed call with
    | inl hsame =>
      have hitem : (run.source.perform call).2.item workId = some item := hitem
      rw [hsame.1] at hitem
      exact hspent.2 workId item hitem htoken
    | inr hchanged =>
      obtain ⟨changed, new, hchanged⟩ := hchanged
      rw [FencedDeliveries.item_changed hchanged] at hitem
      by_cases hid : workId = changed
      · rw [if_pos hid] at hitem
        cases hitem
        generalize hstored : run.source.item changed = stored at hchanged
        cases hop : call.op with
        | enqueue command =>
          have hchange := hchanged.change
          rw [hop] at hchange
          cases hchange
          cases htoken
        | claim drawn ownerId ttl =>
          have hchange := hchanged.change
          rw [hop] at hchange
          generalize run.source.item changed = old at hchange
          cases hchange
          have hdrawn : drawn = token := Option.some.inj htoken
          -- the claim drew a token that had been drawn before
          unfold FreshTokens at htokens
          rw [List.filterMap_append] at htokens
          have hdisjoint := (List.nodup_append.mp htokens).2.2
          refine hdisjoint token hspent.1 token ?_ rfl
          simp [hop, WorkOp.claims, hdrawn]
        | _ =>
          obtain ⟨old, hold, -, -, hkept⟩ := hchanged.change.kept (by simp [hop])
            (by rw [hop]; rfl)
          exact hspent.2 changed old hold (hkept token htoken)
      · rw [if_neg hid] at hitem
        exact hspent.2 workId item hitem htoken

theorem FencedDeliveries.settle_spent {calls : List WorkCall} {run : WorkRun} {call : WorkCall}
    (h : FencedDeliveries calls run) (htokens : FreshTokens calls) {token : UUID}
    (hop : call.op.settles = some token) (hchange : (run.step call).source ≠ run.source) :
    Spent (calls ++ [call]) (run.step call) token := by
  cases InMemoryFlowWorkSource.perform_cases h.keyed call with
  | inl hsame => exact absurd hsame.1 hchange
  | inr hchanged =>
    obtain ⟨workId, new, hchanged⟩ := hchanged
    obtain ⟨target, hdelivery⟩ : ∃ target, call.op.delivery = some (target, token) := by
      cases hcall : call.op <;> rw [hcall] at hop <;> cases hop <;> exact ⟨_, rfl⟩
    obtain ⟨old, hold, hdeliver⟩ := hchanged.change.delivering hdelivery
    have htoken : old.deliveryToken = some token := by
      simp only [FlowWorkItem.delivering, decide_eq_true_eq] at hdeliver
      exact hdeliver.2.1
    have hclaim : ∀ other item, run.source.item other = some item →
        item.deliveryToken = some token → (other, token) ∈ run.claims := by
      intro other item hitem ht
      have hlast := h.latest other item token hitem ht
      exact (List.mem_filter.mp (List.mem_of_getLast? hlast)).1
    have hunique : (run.claims.map (·.2)).Nodup := h.tokens.nodup htokens
    constructor
    · rw [List.filterMap_append]
      refine List.mem_append_left _ (h.tokens.subset ?_)
      exact List.mem_map.mpr ⟨_, hclaim workId old hold htoken, rfl⟩
    · intro other item hitem ht
      rw [FencedDeliveries.item_changed hchanged] at hitem
      by_cases hid : other = workId
      · rw [if_pos hid] at hitem
        cases hitem
        rw [hchanged.change.settled hop] at ht
        cases ht
      · rw [if_neg hid] at hitem
        -- a token was drawn for one item
        have hsame := List.inj_on_of_nodup_map hunique (hclaim other item hitem ht)
          (hclaim workId old hold htoken) rfl
        exact hid (congrArg Prod.fst hsame)

theorem spent_stays {before : List WorkCall} (after : List WorkCall)
    (hcommands : DistinctCommands (before ++ after)) (htokens : FreshTokens (before ++ after))
    {token : UUID} (hspent : Spent before (WorkRun.of before) token) :
    Spent (before ++ after) (WorkRun.of (before ++ after)) token := by
  induction after using List.reverseRecOn with
  | nil =>
    rw [List.append_nil]
    exact hspent
  | append_singleton after call ih =>
    rw [← List.append_assoc] at hcommands htokens ⊢
    have hcommands' := hcommands.of_append
    have htokens' : FreshTokens (before ++ after) := by
      unfold FreshTokens at htokens ⊢
      rw [List.filterMap_append] at htokens
      exact (List.nodup_append.mp htokens).1
    have hstep := (fenced _ hcommands').step_spent htokens (ih hcommands' htokens')
    rw [WorkRun.of_append (before ++ after) [call]]
    exact hstep

/-- Along every run of the work source, in which commands with one identifier have one key and
claims draw different tokens: every item is valid and counts its claims, settled items stay, a
renewal or a settlement changes its item only under the token of the latest claim and before it
expires, a token settles at most once, and an operation that raises changes nothing. -/
theorem work_source_fences_deliveries (calls : List WorkCall)
    (hcommands : DistinctCommands calls) (htokens : FreshTokens calls) :
    (∀ workId item, (WorkRun.of calls).source.item workId = some item →
      item.validateDelivery = .ok item ∧
        item.attempt = (WorkRun.of calls).claims.countP (·.1 = workId)) ∧
    (∀ before after workId item, calls = before ++ after →
      (WorkRun.of before).source.item workId = some item →
      (item.status = .completed ∨ item.status = .discarded) →
      (WorkRun.of calls).source.item workId = some item) ∧
    (∀ before call after workId token, calls = before ++ call :: after →
      call.op.delivery = some (workId, token) →
      (WorkRun.of (before ++ [call])).source ≠ (WorkRun.of before).source →
      ((WorkRun.of before).claims.filter (·.1 = workId)).getLast? = some (workId, token) ∧
      (∃ item expiry, (WorkRun.of before).source.item workId = some item ∧
        item.deliveryToken = some token ∧ item.leaseExpiresAt = some expiry ∧
        call.now < expiry) ∧
      ∀ other, other ≠ workId → (WorkRun.of (before ++ [call])).source.item other =
        (WorkRun.of before).source.item other) ∧
    (∀ before call between call' after token,
      calls = before ++ call :: between ++ call' :: after →
      call.op.settles = some token → call'.op.settles = some token →
      (WorkRun.of (before ++ [call])).source ≠ (WorkRun.of before).source →
      (WorkRun.of (before ++ call :: between ++ [call'])).source =
        (WorkRun.of (before ++ call :: between)).source) ∧
    ∀ source call e source',
      InMemoryFlowWorkSource.perform source call = (.error e, source') → source' = source := by
  refine ⟨?_, ?_, ?_, ?_, ?_⟩
  · intro workId item hitem
    have hfenced := fenced calls hcommands
    exact ⟨(hfenced.sane workId item hitem).validateDelivery, hfenced.attempt workId item hitem⟩
  · rintro before after workId item rfl hitem hsettled
    exact settled_stays after hcommands hitem hsettled
  · rintro before call after workId token rfl hop hchange
    rw [WorkRun.of_append] at hchange ⊢
    exact (fenced before hcommands.of_append).change_fenced hop hchange
  · rintro before call between call' after token rfl hop hop' hchange
    have hsplit : before ++ call :: between ++ call' :: after =
        (before ++ [call] ++ between) ++ (call' :: after) := by simp
    have hfresh : FreshTokens (before ++ [call] ++ between) := by
      unfold FreshTokens at htokens ⊢
      rw [hsplit, List.filterMap_append] at htokens
      exact (List.nodup_append.mp htokens).1
    have hfresh' : FreshTokens before := by
      unfold FreshTokens at hfresh ⊢
      rw [List.append_assoc, List.filterMap_append] at hfresh
      exact (List.nodup_append.mp hfresh).1
    have hdistinct : DistinctCommands (before ++ [call] ++ between) := by
      rw [hsplit] at hcommands
      exact hcommands.of_append
    have hfenced := fenced before hdistinct.of_append.of_append
    have hchange' : ((WorkRun.of before).step call).source ≠ (WorkRun.of before).source := by
      rw [WorkRun.of_append] at hchange
      exact hchange
    have hspent : Spent (before ++ [call]) (WorkRun.of (before ++ [call])) token := by
      rw [WorkRun.of_append]
      exact hfenced.settle_spent hfresh' hop hchange'
    have hspent' := spent_stays between hdistinct hfresh hspent
    have hlist : before ++ [call] ++ between = before ++ call :: between := by simp
    rw [hlist] at hspent' hdistinct
    by_contra hagain
    rw [WorkRun.of_append (before ++ call :: between)] at hagain
    obtain ⟨target, hdelivery⟩ : ∃ target, call'.op.delivery = some (target, token) := by
      cases hcall : call'.op <;> rw [hcall] at hop' <;> cases hop' <;> exact ⟨_, rfl⟩
    obtain ⟨-, ⟨item, expiry, hitem, htoken, -⟩, -⟩ :=
      (fenced _ hdistinct).change_fenced hdelivery hagain
    exact hspent'.2 target item hitem htoken
  · intro source call e source' h
    have hatomic := source.perform_atomic call e (by rw [h])
    rw [h] at hatomic
    exact hatomic

def completedCalls : List WorkCall :=
  [⟨0, .enqueue { id := 1, runId := 7, idempotencyKey := "key" }⟩, ⟨0, .claim 5 "worker" 60⟩,
    ⟨1, .complete 1 5⟩, ⟨2, .complete 1 5⟩]

theorem work_source_fences_deliveries_completed :
    (WorkRun.of completedCalls).claims = [(1, 5)] ∧
    ((WorkRun.of completedCalls).source.item 1).map (·.status) = some .completed ∧
    (WorkRun.of completedCalls).source =
      (WorkRun.of (completedCalls.take 3)).source := by
  -- one call alone is an enqueue
  have henqueue : ∀ call ∈ completedCalls, ∀ command, call.op = .enqueue command →
      command = { id := 1, runId := 7, idempotencyKey := "key" } := by
    intro call hcall command hop
    simp only [completedCalls, List.mem_cons, List.not_mem_nil, or_false] at hcall
    rcases hcall with rfl | rfl | rfl | rfl
    · cases hop
      rfl
    · cases hop
    · cases hop
    · cases hop
  have hcommands : DistinctCommands completedCalls := by
    intro a ha b hb command other hop hop' _
    rw [henqueue a ha command hop, henqueue b hb other hop']
  have hfences := work_source_fences_deliveries completedCalls hcommands (by decide)
  refine ⟨by decide +kernel, by decide +kernel, ?_⟩
  refine hfences.2.2.2.1 (completedCalls.take 2) ⟨1, .complete 1 5⟩ [] ⟨2, .complete 1 5⟩ [] 5 rfl
    rfl rfl ?_
  intro hsame
  have hstatus := congrArg (fun source => (source.item 1).map (·.status)) hsame
  revert hstatus
  decide +kernel

end Flows
end BaseAgent

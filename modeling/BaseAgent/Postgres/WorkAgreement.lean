import BaseAgent.Postgres.WorkSource

/-!
# The two work sources agree

The rows of the PostgreSQL source are the dictionaries of the in-memory one: a row for each item, in
the order in which they were enqueued, with the columns that its payload gives.  Every operation
keeps this and returns the same in both sources.
-/

namespace BaseAgent
namespace Postgres

open BaseAgent.Flows

/-! ## Dictionaries as rows -/

section Rows

variable {ρ κ β : Type} [DecidableEq κ] {key : ρ → κ} {value : ρ → β} {rows : List ρ}

theorem dictGet_rows (k : κ) :
    dictGet (rows.map fun row => (key row, value row)) k =
      (rows.find? fun row => key row = k).map value := by
  induction rows with
  | nil => rfl
  | cons row rest ih =>
    by_cases h : key row = k
    · simp [dictGet, h]
    · simp [dictGet, h, ih]

theorem dictSet_rows_new {k : κ} {v : β} (h : rows.find? (fun row => key row = k) = none) :
    dictSet (rows.map fun row => (key row, value row)) k v =
      (rows.map fun row => (key row, value row)) ++ [(k, v)] := by
  induction rows with
  | nil => rfl
  | cons row rest ih =>
    simp only [List.find?_eq_none, List.mem_cons, forall_eq_or_imp, decide_eq_true_eq] at h
    rw [List.map_cons, dictSet, if_neg h.1, ih (by simpa using h.2), List.cons_append]

theorem dictSet_rows_old {k : κ} {v : β} (hnodup : (rows.map key).Nodup) (h : k ∈ rows.map key) :
    dictSet (rows.map fun row => (key row, value row)) k v =
      rows.map fun row => if key row = k then (k, v) else (key row, value row) := by
  induction rows with
  | nil => simp at h
  | cons row rest ih =>
    rw [List.map_cons, List.nodup_cons] at hnodup
    rw [List.map_cons, List.map_cons, dictSet]
    by_cases hk : key row = k
    · rw [if_pos hk, if_pos hk, hk]
      congr 1
      apply List.map_congr_left
      intro other hother
      have hne : key other ≠ k := by
        intro heq
        exact hnodup.1 (List.mem_map.mpr ⟨other, hother, heq.trans hk.symm⟩)
      rw [if_neg hne]
    · rw [if_neg hk, if_neg hk]
      congr 1
      apply ih hnodup.2
      rw [List.map_cons, List.mem_cons] at h
      exact h.resolve_left fun heq => hk heq.symm

end Rows

/-! ## Items that can be stored -/

def Bounded (text : String) : Prop := 1 ≤ text.length ∧ text.length ≤ 256

structure Constructed (command : FlowWorkCommand) : Prop where
  id : command.id < 2 ^ 128
  key : Bounded command.idempotencyKey

structure Storable (item : FlowWorkItem) : Prop where
  command : Constructed item.command
  owner : ∀ text, item.ownerId = some text → Bounded text
  error : ∀ text, item.lastErrorType = some text → Bounded text
  reason : ∀ text, item.blockedReason = some text → Bounded text
  sane : item.Sane

theorem validateText_ok {field : String} {text : Option String}
    (h : ∀ t, text = some t → Bounded t) : validateText field text = .ok () := by
  have hmin : ¬ ∃ t ∈ text, t.length < 1 := by
    rintro ⟨t, ht, hlt⟩
    have hbound := (h t ht).1
    omega
  have hmax : ¬ ∃ t ∈ text, t.length > 256 := by
    rintro ⟨t, ht, hgt⟩
    have hbound := (h t ht).2
    omega
  unfold validateText raiseIf
  rw [if_neg hmin, if_neg hmax]
  rfl

theorem Storable.validates {item : FlowWorkItem} (h : Storable item) :
    modelValidate item = .ok item := by
  have hkey : validateText "command.idempotency_key" (some item.command.idempotencyKey) = .ok () :=
    validateText_ok fun t ht => by
      cases ht
      exact h.command.key
  unfold modelValidate
  rw [hkey, validateText_ok h.owner, validateText_ok h.error, validateText_ok h.reason]
  exact h.sane.validateDelivery

theorem bounded_of_not_blank {text : String} (hblank : isBlank text = false)
    (hlength : text.length ≤ 256) : Bounded text :=
  ⟨length_pos_of_not_blank hblank, hlength⟩

section Transitions

variable {item : FlowWorkItem} {now : Time} {token : UUID}

theorem Storable.enqueued {command : FlowWorkCommand} (h : Constructed command) :
    Storable { command := command, availableAt := now, updatedAt := now } where
  command := h
  owner _ ht := nomatch ht
  error _ ht := nomatch ht
  reason _ ht := nomatch ht
  sane := (ItemChange.enqueued command none).sane fun _ ht => nomatch ht

theorem Storable.claim (h : Storable item) (hclaimable : item.claimable now = true)
    {ownerId : String} (howner : Bounded ownerId) (ttl : ℚ) :
    Storable (item.claim now token ownerId ttl) where
  command := h.command
  owner text ht := by
    cases ht
    exact howner
  error := h.error
  reason := h.reason
  sane := (ItemChange.claimed token ownerId ttl item hclaimable).sane fun _ ht => by
    cases ht
    exact h.sane

theorem Storable.renew (h : Storable item) (hdelivering : item.delivering token now = true)
    (ttl : ℚ) : Storable (item.renew now ttl) where
  command := h.command
  owner := h.owner
  error := h.error
  reason := h.reason
  sane := (ItemChange.renewed item.id token ttl item hdelivering).sane fun _ ht => by
    cases ht
    exact h.sane

theorem Storable.complete (h : Storable item) (hdelivering : item.delivering token now = true) :
    Storable (item.complete now) where
  command := h.command
  owner _ ht := nomatch ht
  error := h.error
  reason := h.reason
  sane := (ItemChange.completed item.id token item hdelivering).sane fun _ ht => by
    cases ht
    exact h.sane

theorem Storable.block (h : Storable item) (hdelivering : item.delivering token now = true)
    {reasonCode : String} (hreason : Bounded reasonCode) :
    Storable (item.block now reasonCode) where
  command := h.command
  owner _ ht := nomatch ht
  error := h.error
  reason text ht := by
    cases ht
    exact hreason
  sane := (ItemChange.blocked item.id token reasonCode item hdelivering).sane fun _ ht => by
    cases ht
    exact h.sane

theorem Storable.retry (h : Storable item) (hdelivering : item.delivering token now = true)
    (delay : ℚ) {errorType : Option String}
    (herror : ∀ text, errorType = some text → Bounded text) :
    Storable (item.retry now delay errorType) where
  command := h.command
  owner _ ht := nomatch ht
  error := herror
  reason := h.reason
  sane := (ItemChange.retried item.id token delay errorType item hdelivering).sane fun _ ht => by
    cases ht
    exact h.sane

theorem Storable.applyReview (h : Storable item) (hblocked : item.status = .blocked)
    (review : FlowWorkReview) : Storable (item.applyReview now review) := by
  have hchange : ItemChange now (.review review) (some item) (item.applyReview now review) :=
    .reviewed review item hblocked
  have hsane := hchange.sane fun _ ht => by
    cases ht
    exact h.sane
  have howner : (item.applyReview now review).ownerId = item.ownerId := by
    unfold FlowWorkItem.applyReview
    split <;> rfl
  have hcommand : (item.applyReview now review).command = item.command := by
    unfold FlowWorkItem.applyReview
    split <;> rfl
  have hreason : (item.applyReview now review).blockedReason = none := by
    unfold FlowWorkItem.applyReview
    split <;> rfl
  refine ⟨by rw [hcommand]; exact h.command, by rw [howner]; exact h.owner, ?_, ?_, hsane⟩
  · intro text ht
    unfold FlowWorkItem.applyReview at ht
    split at ht
    · cases ht
    · exact h.error text ht
  · intro text ht
    rw [hreason] at ht
    cases ht

end Transitions

/-! ## The relation -/

structure Requests where
  commands : List FlowWorkCommand
  reviews : List FlowWorkReview

/-- The Flow Runs of the commands exist, and what has one identifier has one idempotency key. -/
structure Requests.Admissible (requests : Requests) (flowRuns : List UUID) : Prop where
  constructed : ∀ command ∈ requests.commands, Constructed command
  runs : ∀ command ∈ requests.commands, command.runId ∈ flowRuns
  commands : ∀ command ∈ requests.commands, ∀ other ∈ requests.commands,
    command.id = other.id → command.idempotencyKey = other.idempotencyKey
  reviews : ∀ review ∈ requests.reviews, ∀ other ∈ requests.reviews,
    review.id = other.id → review.idempotencyKey = other.idempotencyKey

structure Agrees (requests : Requests) (memory : InMemoryFlowWorkSource)
    (source : PostgresFlowWorkSource) : Prop where
  admissible : requests.Admissible source.flowRuns
  items : memory.items = source.items.map fun row => (row.id, row.payload)
  idempotency : memory.idempotency = source.items.map fun row => (row.idempotencyKey, row.id)
  reviews : memory.reviewIdempotency =
    source.reviews.map fun row => (row.idempotencyKey, row.payload)
  columns : ∀ row ∈ source.items, row = workValues row.payload
  reviewColumns : ∀ row ∈ source.reviews, row = reviewValues row.payload
  ids : (source.items.map (·.id)).Nodup
  stored : ∀ row ∈ source.items, Storable row.payload
  known : ∀ row ∈ source.items, row.payload.command ∈ requests.commands
  reviewKnown : ∀ row ∈ source.reviews, ∃ review ∈ requests.reviews,
    review.id = row.id ∧ review.idempotencyKey = row.idempotencyKey

section Agrees

variable {requests : Requests} {memory : InMemoryFlowWorkSource} {source : PostgresFlowWorkSource}
variable {now : Time} {workId token : UUID}

def Matches (requests : Requests) (source : PostgresFlowWorkSource) {α : Type} :
    Except FlowError α × InMemoryFlowWorkSource →
      Except FlowError (α × PostgresFlowWorkSource) → Prop
  | (outcome, memory), .ok (reply, after) => outcome = .ok reply ∧ Agrees requests memory after
  | (outcome, memory), .error e => outcome = .error e ∧ Agrees requests memory source

theorem Agrees.item (h : Agrees requests memory source) (workId : UUID) :
    memory.item workId = (source.items.find? fun row => row.id = workId).map (·.payload) := by
  unfold InMemoryFlowWorkSource.item
  rw [h.items]
  exact dictGet_rows workId

theorem Agrees.row (h : Agrees requests memory source) {current : FlowWorkItem}
    (hitem : memory.item workId = some current) :
    workValues current ∈ source.items ∧ current.id = workId := by
  rw [h.item] at hitem
  obtain ⟨row, hfind, rfl⟩ := Option.map_eq_some_iff.mp hitem
  have hmem := List.mem_of_find?_eq_some hfind
  have hid : row.id = workId := by simpa using List.find?_some hfind
  have hrow := h.columns row hmem
  refine ⟨?_, ?_⟩
  · rw [← hrow]
    exact hmem
  · rw [← hid, hrow]
    rfl

theorem Agrees.storable (h : Agrees requests memory source) {current : FlowWorkItem}
    (hitem : memory.item workId = some current) : Storable current :=
  h.stored _ (h.row hitem).1

theorem Agrees.selectItem (h : Agrees requests memory source) (workId : UUID) :
    source.selectItem workId =
      orRaise (memory.item workId) (PostgresFlowWorkSource.workNotFound workId) := by
  unfold PostgresFlowWorkSource.selectItem
  rw [h.item]
  cases hfind : source.items.find? fun row => row.id = workId with
  | none => rfl
  | some row => exact (h.stored row (List.mem_of_find?_eq_some hfind)).validates

theorem Agrees.setItem (h : Agrees requests memory source) {current new : FlowWorkItem}
    (hitem : memory.item workId = some current) (hcommand : new.command = current.command)
    (hnew : Storable new) : Agrees requests (memory.setItem workId new) (source.updateItem new) := by
  obtain ⟨hmem, hid⟩ := h.row hitem
  have hnewId : new.id = workId := by
    rw [← hid]
    exact congrArg FlowWorkCommand.id hcommand
  -- the row of the item keeps its identifier and its key
  have hsame : ∀ row ∈ source.items, row.id = new.id → row = workValues current := by
    intro row hrow hrowId
    apply List.inj_on_of_nodup_map h.ids hrow hmem
    rw [hrowId, hnewId, ← hid]
    rfl
  have hkey : ∀ row ∈ source.items,
      (if row.id = new.id then workValues new else row).idempotencyKey = row.idempotencyKey := by
    intro row hrow
    split
    · rename_i hrowId
      rw [hsame row hrow hrowId]
      exact congrArg FlowWorkCommand.idempotencyKey hcommand
    · rfl
  have hrowIds : ∀ row : WorkRow, (if row.id = new.id then workValues new else row).id = row.id := by
    intro row
    split
    · rename_i hrowId
      rw [hrowId]
      rfl
    · rfl
  constructor
  · exact h.admissible
  · show dictSet memory.items workId new = _
    rw [h.items, dictSet_rows_old h.ids]
    · show _ = (source.items.map _).map _
      rw [List.map_map]
      apply List.map_congr_left
      intro row _
      show _ = ((if row.id = new.id then workValues new else row).id,
        (if row.id = new.id then workValues new else row).payload)
      rw [hrowIds]
      by_cases hrowId : row.id = workId
      · rw [if_pos hrowId, if_pos (hrowId.trans hnewId.symm), hrowId]
        rfl
      · rw [if_neg hrowId, if_neg fun heq : row.id = new.id => hrowId (heq.trans hnewId)]
    · rw [← hid]
      exact List.mem_map.mpr ⟨_, hmem, rfl⟩
  · show memory.idempotency = (source.items.map _).map _
    rw [h.idempotency, List.map_map]
    apply List.map_congr_left
    intro row hrow
    show _ = ((if row.id = new.id then workValues new else row).idempotencyKey,
      (if row.id = new.id then workValues new else row).id)
    rw [hkey row hrow, hrowIds]
  · exact h.reviews
  · intro row hrow
    obtain ⟨old, hold, rfl⟩ := List.mem_map.mp hrow
    split
    · rfl
    · exact h.columns old hold
  · exact h.reviewColumns
  · show ((source.items.map _).map _).Nodup
    rw [List.map_map]
    have hids : source.items.map ((·.id) ∘ fun row => if row.id = new.id then workValues new else row)
        = source.items.map (·.id) := List.map_congr_left fun row _ => hrowIds row
    rw [hids]
    exact h.ids
  · intro row hrow
    obtain ⟨old, hold, rfl⟩ := List.mem_map.mp hrow
    split
    · exact hnew
    · exact h.stored old hold
  · intro row hrow
    obtain ⟨old, hold, rfl⟩ := List.mem_map.mp hrow
    split
    · show new.command ∈ _
      rw [hcommand]
      exact h.known _ hmem
    · exact h.known old hold
  · exact h.reviewKnown

/-! ## Deliveries -/

theorem lost_iff (current : FlowWorkItem) :
    (current.status ≠ .claimed ∨ current.deliveryToken ≠ some token ∨
      current.leaseExpiresAt = none ∨ ∃ expiry ∈ current.leaseExpiresAt, expiry ≤ now) ↔
      ¬ current.delivering token now = true := by
  unfold FlowWorkItem.delivering
  cases current.leaseExpiresAt with
  | none => simp
  | some expiry =>
    simp only [Option.mem_def, Option.some.injEq, exists_eq_left', reduceCtorEq, false_or,
      decide_eq_true_eq, not_and_or, not_lt, ne_eq]

/-- What the three settlements of the PostgreSQL source have in common. -/
def settled (source : PostgresFlowWorkSource) (now : Time) (workId token : UUID)
    (status : FlowWorkStatus) (change : FlowWorkItem → FlowWorkItem) :
    Except FlowError (FlowWorkItem × PostgresFlowWorkSource) := do
  let current ← source.selectItem workId
  validateDelivery current token now status
  if current.status = status then return (current, source)
  else return (change current, source.updateItem (change current))

theorem Agrees.settle (h : Agrees requests memory source) {status : FlowWorkStatus}
    {change : FlowWorkItem → FlowWorkItem} (hstatus : status ≠ .claimed)
    (hcommand : ∀ current, (change current).command = current.command)
    (hstorable : ∀ current, Storable current → current.delivering token now = true →
      Storable (change current)) :
    Matches requests source (memory.settle now workId token status change)
      (settled source now workId token status change) := by
  unfold InMemoryFlowWorkSource.settle settled
  rw [h.selectItem]
  cases hitem : memory.item workId with
  | none => exact ⟨rfl, h⟩
  | some current =>
    have hid := (h.row hitem).2
    simp only [orRaise, bind, Except.bind, validateDelivery]
    by_cases hreplay : current.status = status ∧ current.lastDeliveryToken = some token
    · rw [if_pos hreplay, if_pos hreplay]
      simp only [hreplay.1, if_true]
      exact ⟨rfl, h⟩
    · rw [if_neg hreplay, if_neg hreplay]
      unfold raiseIf
      by_cases hdelivering : current.delivering token now = true
      · have hne : ¬ current.status = status := by
          intro heq
          have hclaimed : current.status = .claimed := by
            simp only [FlowWorkItem.delivering, decide_eq_true_eq] at hdelivering
            exact hdelivering.1
          exact hstatus (heq.symm.trans hclaimed)
        rw [if_pos hdelivering, if_neg fun hlost => (lost_iff current).mp hlost hdelivering]
        simp only [if_neg hne]
        exact ⟨rfl, h.setItem hitem (hcommand current)
          (hstorable current (h.storable hitem) hdelivering)⟩
      · rw [if_neg hdelivering, if_pos ((lost_iff current).mpr hdelivering), ← hid]
        exact ⟨rfl, h⟩

theorem Agrees.complete (h : Agrees requests memory source) :
    Matches requests source (memory.complete now workId token)
      (source.complete now workId token) :=
  h.settle (by decide) (fun _ => rfl) fun _ hcurrent hdelivering => hcurrent.complete hdelivering

theorem Agrees.block (h : Agrees requests memory source) (reasonCode : String) :
    Matches requests source (memory.block now workId token reasonCode)
      (source.block now workId token reasonCode) := by
  unfold InMemoryFlowWorkSource.block PostgresFlowWorkSource.block validateReasonCode
    Flows.validateReasonCode raiseIf
  by_cases hreason : isBlank reasonCode = true ∨ reasonCode.length > 256
  · rw [if_pos hreason]
    exact ⟨rfl, h⟩
  · rw [if_neg hreason]
    simp only [not_or, Bool.not_eq_true, not_lt] at hreason
    have hbounded := bounded_of_not_blank hreason.1 hreason.2
    exact h.settle (by decide) (fun _ => rfl) fun _ hcurrent hdelivering =>
      hcurrent.block hdelivering hbounded

theorem Agrees.retry (h : Agrees requests memory source) (delaySeconds : ℚ)
    (errorType : Option String) :
    Matches requests source (memory.retry now workId token delaySeconds errorType)
      (source.retry now workId token delaySeconds errorType) := by
  unfold InMemoryFlowWorkSource.retry PostgresFlowWorkSource.retry validateRetry
    validateRetryArguments raiseIf
  by_cases hdelay : delaySeconds < 0
  · rw [if_pos hdelay]
    exact ⟨rfl, h⟩
  · rw [if_neg hdelay]
    by_cases herror : ∃ e ∈ errorType, isBlank e = true ∨ e.length > 256
    · rw [if_pos herror]
      exact ⟨rfl, h⟩
    · rw [if_neg herror]
      refine h.settle (by decide) (fun _ => rfl) fun _ hcurrent hdelivering =>
        hcurrent.retry hdelivering delaySeconds fun text htext => ?_
      have hfine : ¬ (isBlank text = true ∨ text.length > 256) := fun hbad =>
        herror ⟨text, htext, hbad⟩
      simp only [not_or, Bool.not_eq_true, not_lt] at hfine
      exact bounded_of_not_blank hfine.1 hfine.2

theorem Agrees.renew (h : Agrees requests memory source) (ttlSeconds : ℚ) :
    Matches requests source (memory.renew now workId token ttlSeconds)
      (source.renew now workId token ttlSeconds) := by
  unfold InMemoryFlowWorkSource.renew PostgresFlowWorkSource.renew
    InMemoryFlowWorkSource.requireActiveDelivery
  by_cases httl : ttlSeconds ≤ 0
  · rw [if_pos httl, raiseIf, if_pos httl]
    exact ⟨rfl, h⟩
  · rw [if_neg httl, raiseIf, if_neg httl, h.selectItem]
    cases hitem : memory.item workId with
    | none => exact ⟨rfl, h⟩
    | some current =>
      have hid := (h.row hitem).2
      simp only [orRaise, bind, Except.bind, validateActiveDelivery, raiseIf]
      by_cases hdelivering : current.delivering token now = true
      · rw [if_pos hdelivering, if_neg fun hlost => (lost_iff current).mp hlost hdelivering]
        exact ⟨rfl, h.setItem hitem rfl ((h.storable hitem).renew hdelivering ttlSeconds)⟩
      · rw [if_neg hdelivering, if_pos ((lost_iff current).mpr hdelivering), ← hid]
        exact ⟨rfl, h⟩

/-! ## Commands -/

theorem Agrees.item_of_mem (h : Agrees requests memory source) {row : WorkRow}
    (hrow : row ∈ source.items) :
    memory.item row.id = some row.payload ∧ row.id = row.payload.id := by
  have hid : row.id = row.payload.id := by
    rw [h.columns row hrow]
    rfl
  refine ⟨?_, hid⟩
  unfold InMemoryFlowWorkSource.item
  apply dictGet_of_mem
  · rw [h.items, List.map_map]
    exact h.ids
  · rw [h.items]
    exact List.mem_map.mpr ⟨row, hrow, rfl⟩

theorem Agrees.enqueue (h : Agrees requests memory source) {command : FlowWorkCommand}
    (hcommand : command ∈ requests.commands) :
    Matches requests source (memory.enqueue now command) (source.enqueue now command) := by
  have hrun : ¬ command.runId ∉ source.flowRuns := not_not.mpr (h.admissible.runs command hcommand)
  unfold InMemoryFlowWorkSource.enqueue PostgresFlowWorkSource.enqueue
  simp only [raiseIf, if_neg hrun, bind, Except.bind]
  rw [h.idempotency, dictGet_rows]
  cases hfind : source.items.find? fun row => row.idempotencyKey = command.idempotencyKey with
  | some row =>
    have hrow := List.mem_of_find?_eq_some hfind
    simp only [Option.map_some, (h.item_of_mem hrow).1, (h.stored row hrow).validates]
    by_cases hintent : row.payload.command.hasSameIntent command = true
    · rw [if_pos hintent, if_neg (not_not.mpr hintent)]
      exact ⟨rfl, h⟩
    · rw [if_neg hintent, if_pos hintent]
      exact ⟨rfl, h⟩
  | none =>
    have hfresh : ∀ row ∈ source.items, row.id ≠ command.id := by
      intro row hrow heq
      have hsame : row.payload.command.id = command.id := by
        rw [← heq, (h.item_of_mem hrow).2]
        rfl
      have hkey := h.admissible.commands _ (h.known row hrow) _ hcommand hsame
      have hother := List.find?_eq_none.mp hfind row hrow
      rw [h.columns row hrow] at hother
      exact hother (decide_eq_true hkey)
    have hnone : ¬ ∃ row ∈ source.items, row.id =
        FlowWorkItem.id { command := command, availableAt := now, updatedAt := now } := by
      rintro ⟨row, hrow, heq⟩
      exact hfresh row hrow heq
    have hstorable : Storable { command := command, availableAt := now, updatedAt := now } :=
      Storable.enqueued (h.admissible.constructed command hcommand)
    simp only [Option.map_none]
    rw [if_neg hnone]
    simp only [hstorable.validates]
    refine ⟨rfl, h.admissible, ?_, ?_, h.reviews, ?_, h.reviewColumns, ?_, ?_, ?_, h.reviewKnown⟩
    · show dictSet memory.items command.id _ = _
      rw [h.items, dictSet_rows_new, List.map_append]
      · rfl
      · rw [List.find?_eq_none]
        intro row hrow
        simpa using hfresh row hrow
    · show dictSet (source.items.map _) command.idempotencyKey command.id = _
      rw [dictSet_rows_new hfind, List.map_append]
      rfl
    · intro row hrow
      cases List.mem_append.mp hrow with
      | inl hold => exact h.columns row hold
      | inr hnew =>
        rw [List.mem_singleton.mp hnew]
        rfl
    · rw [List.map_append, List.nodup_append]
      refine ⟨h.ids, by simp, ?_⟩
      intro id hid other hother
      obtain ⟨row, hrow, rfl⟩ := List.mem_map.mp hid
      rw [List.map_singleton, List.mem_singleton] at hother
      rw [hother]
      exact hfresh row hrow
    · intro row hrow
      cases List.mem_append.mp hrow with
      | inl hold => exact h.stored row hold
      | inr hnew =>
        rw [List.mem_singleton.mp hnew]
        exact hstorable
    · intro row hrow
      cases List.mem_append.mp hrow with
      | inl hold => exact h.known row hold
      | inr hnew =>
        rw [List.mem_singleton.mp hnew]
        exact hcommand

/-! ## Reviews -/

theorem Agrees.addReview (h : Agrees requests memory source) {review : FlowWorkReview}
    (hreview : review ∈ requests.reviews)
    (hnew : source.reviews.find? (fun row => row.idempotencyKey = review.idempotencyKey) = none)
    (reviews : List (UUID × List FlowWorkReview)) :
    Agrees requests
      { memory with
        reviews := reviews
        reviewIdempotency := dictSet memory.reviewIdempotency review.idempotencyKey
          { review with createdAt := now } }
      { source with
        reviews := source.reviews ++ [reviewValues { review with createdAt := now }] } where
  admissible := h.admissible
  items := h.items
  idempotency := h.idempotency
  reviews := by
    show dictSet memory.reviewIdempotency _ _ = _
    rw [h.reviews, dictSet_rows_new hnew, List.map_append]
    rfl
  columns := h.columns
  reviewColumns := by
    intro row hrow
    cases List.mem_append.mp hrow with
    | inl hold => exact h.reviewColumns row hold
    | inr hadded =>
      rw [List.mem_singleton.mp hadded]
      rfl
  ids := h.ids
  stored := h.stored
  known := h.known
  reviewKnown := by
    intro row hrow
    cases List.mem_append.mp hrow with
    | inl hold => exact h.reviewKnown row hold
    | inr hadded =>
      rw [List.mem_singleton.mp hadded]
      exact ⟨review, hreview, rfl, rfl⟩

theorem applyReview_eq (current : FlowWorkItem) (review : FlowWorkReview) (now : Time) :
    applyReview current { review with createdAt := now } now = current.applyReview now review := by
  obtain ⟨id, workId, decision, reviewerId, reasonCode, key, delay, createdAt, valid⟩ := review
  cases decision with
  | approveRetry => rfl
  | reject => rfl

theorem Agrees.review (h : Agrees requests memory source) {review : FlowWorkReview}
    (hreview : review ∈ requests.reviews) :
    Matches requests source (memory.review now review) (source.review now review) := by
  unfold InMemoryFlowWorkSource.review PostgresFlowWorkSource.review
    PostgresFlowWorkSource.findReview
  rw [h.reviews, dictGet_rows]
  cases hfind : source.reviews.find? fun row => row.idempotencyKey = review.idempotencyKey with
  | some row =>
    simp only [Option.map_some, validateReviewIntent, raiseIf, bind, Except.bind]
    by_cases hintent : row.payload.hasSameIntent review = true
    · rw [if_pos hintent, if_neg (not_not.mpr hintent)]
      simp only [h.selectItem]
      cases memory.item row.payload.workId with
      | none => exact ⟨rfl, h⟩
      | some item => exact ⟨rfl, h⟩
    · rw [if_neg hintent, if_pos hintent]
      exact ⟨rfl, h⟩
  | none =>
    simp only [Option.map_none, PostgresFlowWorkSource.addReview, h.selectItem, raiseIf, bind,
      Except.bind]
    cases hitem : memory.item review.workId with
    | none => exact ⟨rfl, h⟩
    | some current =>
      simp only [orRaise]
      by_cases hblocked : current.status = .blocked
      · have hnone : ¬ ∃ row ∈ source.reviews, row.id = review.id := by
          rintro ⟨row, hrow, heq⟩
          obtain ⟨other, hother, hid, hkey⟩ := h.reviewKnown row hrow
          have hsame := h.admissible.reviews other hother review hreview (hid.trans heq)
          have hne := List.find?_eq_none.mp hfind row hrow
          exact hne (decide_eq_true (hkey.symm.trans hsame))
        rw [if_pos hblocked, if_neg (not_not.mpr hblocked)]
        simp only [if_neg hnone, applyReview_eq]
        have hcurrent := (h.row hitem).2
        have hstorable : Storable (current.applyReview now review) :=
          (h.storable hitem).applyReview hblocked review
        have hcommand : (current.applyReview now review).command = current.command := by
          unfold FlowWorkItem.applyReview
          split <;> rfl
        rw [← hcurrent] at hitem
        exact ⟨rfl, (h.addReview hreview hfind _).setItem hitem hcommand hstorable⟩
      · rw [if_neg hblocked, if_pos hblocked]
        exact ⟨rfl, h⟩

/-! ## Claims and lists -/

/-- The key of `min` in the in-memory source. -/
def itemKey (item : FlowWorkItem) : ℤ ×ₗ ℤ ×ₗ String :=
  toLex (item.availableAt, toLex (item.command.createdAt, uuidText item.id))

theorem before_iff (a b : FlowWorkItem) : a.before b = true ↔ itemKey a < itemKey b := by
  unfold FlowWorkItem.before itemKey
  simp only [Prod.Lex.toLex_lt_toLex]
  by_cases havailable : a.availableAt = b.availableAt
  · by_cases hcreated : a.command.createdAt = b.command.createdAt
    · simp [havailable, hcreated]
    · simp [havailable, hcreated]
  · simp [havailable]

theorem leastItem_eq (items : List FlowWorkItem) :
    InMemoryFlowWorkSource.leastItem items = leastBy itemKey items := by
  have hstep : (fun best next : FlowWorkItem => if next.before best = true then next else best) =
      smaller itemKey := by
    funext best next
    unfold smaller
    by_cases hbefore : next.before best = true
    · rw [if_pos hbefore, if_pos ((before_iff next best).mp hbefore)]
    · rw [if_neg hbefore, if_neg fun hlt => hbefore ((before_iff next best).mpr hlt)]
  cases items with
  | nil => rfl
  | cons item rest =>
    unfold InMemoryFlowWorkSource.leastItem leastBy
    rw [hstep]

theorem Agrees.claimKey_le (h : Agrees requests memory source) {a b : WorkRow}
    (ha : a ∈ source.items) (hb : b ∈ source.items) :
    PostgresFlowWorkSource.claimKey a ≤ PostgresFlowWorkSource.claimKey b ↔
      itemKey a.payload ≤ itemKey b.payload := by
  have hid : uuidText b.payload.id < uuidText a.payload.id ↔ b.payload.id < a.payload.id :=
    uuidText_lt (h.stored b hb).command.id (h.stored a ha).command.id
  rw [← not_lt, ← not_lt, not_iff_not, h.columns a ha, h.columns b hb]
  unfold PostgresFlowWorkSource.claimKey itemKey workValues
  simp only [Prod.Lex.toLex_lt_toLex]
  rw [hid]

/-- Rows that are selected by a column are selected by their payload. -/
theorem Agrees.filter_payload (h : Agrees requests memory source) {p : WorkRow → Bool}
    {q : FlowWorkItem → Bool} (hpq : ∀ item, p (workValues item) = q item) :
    (memory.items.map (·.2)).filter q = (source.items.filter p).map (·.payload) := by
  rw [h.items, List.map_map, List.filter_map]
  congr 1
  apply List.filter_congr
  intro row hrow
  rw [h.columns row hrow]
  exact (hpq row.payload).symm

theorem Agrees.claim (h : Agrees requests memory source) (ownerId : String) (ttlSeconds : ℚ) :
    Matches requests source (memory.claim now token ownerId ttlSeconds)
      (source.claim now token ownerId ttlSeconds) := by
  unfold InMemoryFlowWorkSource.claim PostgresFlowWorkSource.claim
  have hsame : validateDeliveryArguments ownerId ttlSeconds =
      Flows.validateDeliveryArguments ownerId ttlSeconds := rfl
  rw [hsame]
  cases harguments : Flows.validateDeliveryArguments ownerId ttlSeconds with
  | error e => exact ⟨rfl, h⟩
  | ok u =>
    have hcandidates : (memory.items.map (·.2)).filter (fun item => item.claimable now) =
        (source.items.filter (PostgresFlowWorkSource.eligible now)).map (·.payload) :=
      h.filter_payload fun _ => rfl
    have hleast : InMemoryFlowWorkSource.leastItem
        ((memory.items.map (·.2)).filter fun item => item.claimable now) =
        (orderBy PostgresFlowWorkSource.claimKey
          (source.items.filter (PostgresFlowWorkSource.eligible now))).head?.map (·.payload) := by
      have hmap : (orderBy PostgresFlowWorkSource.claimKey
          (source.items.filter (PostgresFlowWorkSource.eligible now))).map (·.payload) =
          orderBy itemKey ((source.items.filter (PostgresFlowWorkSource.eligible now)).map
            (·.payload)) := map_orderBy fun a ha b hb =>
        h.claimKey_le (List.mem_filter.mp ha).1 (List.mem_filter.mp hb).1
      rw [leastItem_eq, hcandidates, ← head_orderBy, ← hmap, List.head?_map]
    simp only [bind, Except.bind]
    rw [hleast]
    cases hhead : (orderBy PostgresFlowWorkSource.claimKey
        (source.items.filter (PostgresFlowWorkSource.eligible now))).head? with
    | none => exact ⟨rfl, h⟩
    | some row =>
      have hselected : row ∈ source.items.filter (PostgresFlowWorkSource.eligible now) :=
        (List.perm_insertionSort _ _).subset (List.mem_of_mem_head? hhead)
      obtain ⟨hrow, heligible⟩ := List.mem_filter.mp hselected
      have hstored := h.stored row hrow
      have hclaimable : row.payload.claimable now = true := by
        rw [h.columns row hrow] at heligible
        exact heligible
      have howner : Bounded ownerId := by
        unfold Flows.validateDeliveryArguments at harguments
        obtain ⟨_, hblank, harguments⟩ := Except.bind_ok.mp harguments
        obtain ⟨_, hlength, -⟩ := Except.bind_ok.mp harguments
        rw [raiseIf_ok] at hblank hlength
        exact bounded_of_not_blank (by simpa using hblank) (by omega)
      obtain ⟨hitem, hid⟩ := h.item_of_mem hrow
      rw [hid] at hitem
      simp only [Option.map_some, hstored.validates]
      exact ⟨rfl, h.setItem hitem rfl (hstored.claim hclaimable howner ttlSeconds)⟩

theorem reviewedBefore_iff (a b : FlowWorkItem) :
    a.reviewedBefore b = true ↔
      a.updatedAt < b.updatedAt ∨ a.updatedAt = b.updatedAt ∧ uuidText a.id < uuidText b.id := by
  unfold FlowWorkItem.reviewedBefore
  by_cases hupdated : a.updatedAt = b.updatedAt <;> simp [hupdated]

theorem Agrees.blockedKey_le (h : Agrees requests memory source) {a b : WorkRow}
    (ha : a ∈ source.items) (hb : b ∈ source.items) :
    PostgresFlowWorkSource.blockedKey a ≤ PostgresFlowWorkSource.blockedKey b ↔
      ¬ b.payload.reviewedBefore a.payload = true := by
  have hid : uuidText b.payload.id < uuidText a.payload.id ↔ b.payload.id < a.payload.id :=
    uuidText_lt (h.stored b hb).command.id (h.stored a ha).command.id
  rw [← not_lt, not_iff_not, reviewedBefore_iff, hid, h.columns a ha, h.columns b hb]
  unfold PostgresFlowWorkSource.blockedKey workValues
  rw [Prod.Lex.toLex_lt_toLex]

theorem mapM_validate {rows : List WorkRow} (h : ∀ row ∈ rows, Storable row.payload) :
    rows.mapM (fun row => modelValidate row.payload) = .ok (rows.map (·.payload)) := by
  induction rows with
  | nil => rfl
  | cons row rest ih =>
    rw [List.mapM_cons, (h row List.mem_cons_self).validates,
      ih fun other hother => h other (List.mem_cons_of_mem _ hother)]
    rfl

theorem Agrees.listBlocked (h : Agrees requests memory source) (limit : Int) :
    source.listBlocked limit = (memory.listBlocked limit).map fun items => (items, source) := by
  unfold InMemoryFlowWorkSource.listBlocked PostgresFlowWorkSource.listBlocked
  have hsame : validateListLimit limit = Flows.validateListLimit limit := rfl
  rw [hsame]
  cases Flows.validateListLimit limit with
  | error e => rfl
  | ok u =>
    have hblocked : (memory.items.map (·.2)).filter (fun item => item.status = .blocked) =
        (source.items.filter fun row => row.status = .blocked).map (·.payload) :=
      h.filter_payload fun _ => rfl
    have hsorted : ((source.items.filter fun row => row.status = .blocked).map
        (·.payload)).insertionSort (fun a b => ¬ b.reviewedBefore a = true) =
        (orderBy PostgresFlowWorkSource.blockedKey
          (source.items.filter fun row => row.status = .blocked)).map (·.payload) := by
      symm
      apply List.map_insertionSort
      intro a ha b hb
      exact h.blockedKey_le (List.mem_filter.mp ha).1 (List.mem_filter.mp hb).1
    have hstored : ∀ row ∈ (orderBy PostgresFlowWorkSource.blockedKey
        (source.items.filter fun row => row.status = .blocked)).take limit.toNat,
        Storable row.payload := by
      intro row hrow
      have hselected := (List.perm_insertionSort _ _).subset (List.mem_of_mem_take hrow)
      exact h.stored row (List.mem_filter.mp hselected).1
    simp only [bind, Except.bind]
    rw [mapM_validate hstored, hblocked, hsorted, ← List.map_take]
    rfl

theorem Agrees.get (h : Agrees requests memory source) (workId : UUID) :
    source.get workId = (memory.get workId).map fun item => (item, source) := by
  unfold InMemoryFlowWorkSource.get PostgresFlowWorkSource.get
  rw [h.selectItem]
  cases memory.item workId with
  | none => rfl
  | some item => rfl

/-! ## Runs -/

def SourceCall.command (call : SourceCall) : Option FlowWorkCommand :=
  match call.op with
  | .work (.enqueue command) => some command
  | _ => none

def SourceCall.review (call : SourceCall) : Option FlowWorkReview :=
  match call.op with
  | .work (.review review) => some review
  | _ => none

def Requests.of (calls : List SourceCall) : Requests :=
  ⟨calls.filterMap SourceCall.command, calls.filterMap SourceCall.review⟩

theorem Matches.map {α β : Type} {outcome : Except FlowError α × InMemoryFlowWorkSource}
    {transaction : Except FlowError (α × PostgresFlowWorkSource)}
    (h : Matches requests source outcome transaction) (f : α → β) :
    Matches requests source (Prod.map (·.map f) id outcome) (transaction.map (Prod.map f id)) := by
  obtain ⟨outcome, after⟩ := outcome
  cases transaction with
  | error e =>
    obtain ⟨rfl, hagrees⟩ := h
    exact ⟨rfl, hagrees⟩
  | ok result =>
    obtain ⟨rfl, hagrees⟩ := h
    exact ⟨rfl, hagrees⟩

theorem Agrees.work (h : Agrees requests memory source) {call : WorkCall}
    (hcommand : ∀ command, call.op = .enqueue command → command ∈ requests.commands)
    (hreview : ∀ review, call.op = .review review → review ∈ requests.reviews) :
    Matches requests source (memory.perform call) (source.work call) := by
  unfold InMemoryFlowWorkSource.perform PostgresFlowWorkSource.work
  cases hop : call.op with
  | enqueue command => exact (h.enqueue (hcommand command hop)).map _
  | claim token ownerId ttl => exact (h.claim ownerId ttl).map _
  | renew workId token ttl => exact (h.renew ttl).map _
  | complete workId token => exact h.complete.map _
  | block workId token reasonCode => exact (h.block reasonCode).map _
  | retry workId token delay errorType => exact (h.retry delay errorType).map _
  | review review => exact (h.review (hreview review hop)).map _

/-- One operation returns the same in both sources and keeps them in agreement. -/
theorem Agrees.step (h : Agrees requests memory source) {call : SourceCall}
    (hcommand : ∀ command, call.command = some command → command ∈ requests.commands)
    (hreview : ∀ review, call.review = some review → review ∈ requests.reviews) :
    (performInMemory memory call).1 = (source.perform call).1 ∧
      Agrees requests (performInMemory memory call).2 (source.perform call).2 := by
  unfold performInMemory PostgresFlowWorkSource.perform
  cases hop : call.op with
  | get workId =>
    simp only [h.get]
    cases memory.get workId with
    | error e => exact ⟨rfl, h⟩
    | ok item => exact ⟨rfl, h⟩
  | listBlocked limit =>
    simp only [h.listBlocked]
    cases memory.listBlocked limit with
    | error e => exact ⟨rfl, h⟩
    | ok items => exact ⟨rfl, h⟩
  | work op =>
    have hwork : Matches requests source (memory.perform ⟨call.now, op⟩)
        (source.work ⟨call.now, op⟩) := by
      apply h.work
      · intro command (heq : op = .enqueue command)
        exact hcommand command (by simp [SourceCall.command, hop, heq])
      · intro review (heq : op = .review review)
        exact hreview review (by simp [SourceCall.review, hop, heq])
    simp only
    cases hmemory : memory.perform ⟨call.now, op⟩ with
    | mk outcome after =>
      rw [hmemory] at hwork
      cases htransaction : source.work ⟨call.now, op⟩ with
      | error e =>
        rw [htransaction] at hwork
        obtain ⟨rfl, hagrees⟩ := hwork
        exact ⟨rfl, hagrees⟩
      | ok result =>
        rw [htransaction] at hwork
        obtain ⟨rfl, hagrees⟩ := hwork
        exact ⟨rfl, hagrees⟩

theorem Agrees.run (h : Agrees requests memory source) {calls : List SourceCall}
    (hcommands : ∀ call ∈ calls, ∀ command, call.command = some command →
      command ∈ requests.commands)
    (hreviews : ∀ call ∈ calls, ∀ review, call.review = some review → review ∈ requests.reviews) :
    (runInMemory memory calls).1 = (source.run calls).1 ∧
      Agrees requests (runInMemory memory calls).2 (source.run calls).2 := by
  induction calls generalizing memory source with
  | nil => exact ⟨rfl, h⟩
  | cons call calls ih =>
    obtain ⟨hreply, hagrees⟩ := h.step (hcommands call List.mem_cons_self)
      (hreviews call List.mem_cons_self)
    obtain ⟨hreplies, hafter⟩ := ih hagrees
      (fun other hother => hcommands other (List.mem_cons_of_mem _ hother))
      (fun other hother => hreviews other (List.mem_cons_of_mem _ hother))
    refine ⟨?_, hafter⟩
    show _ :: _ = _ :: _
    rw [hreply, hreplies]

end Agrees

/-- Along every sequence of operations both sources return the same, and the columns of the
PostgreSQL source are those of its payloads. -/
theorem work_sources_agree (flowRuns : List UUID) (calls : List SourceCall)
    (hcalls : (Requests.of calls).Admissible flowRuns) :
    (runInMemory {} calls).1 = (PostgresFlowWorkSource.run { flowRuns := flowRuns } calls).1 ∧
      (∀ row ∈ (PostgresFlowWorkSource.run { flowRuns := flowRuns } calls).2.items,
        row = workValues row.payload) ∧
      ∀ row ∈ (PostgresFlowWorkSource.run { flowRuns := flowRuns } calls).2.reviews,
        row = reviewValues row.payload := by
  have hstart : Agrees (Requests.of calls) {} { flowRuns := flowRuns } :=
    ⟨hcalls, rfl, rfl, rfl, by simp, by simp, by simp, by simp, by simp, by simp⟩
  obtain ⟨hreplies, hagrees⟩ := hstart.run
    (fun call hcall command hcommand => List.mem_filterMap.mpr ⟨call, hcall, hcommand⟩)
    (fun call hcall review hreview => List.mem_filterMap.mpr ⟨call, hcall, hreview⟩)
  exact ⟨hreplies, hagrees.columns, hagrees.reviewColumns⟩

def sampleReview : FlowWorkReview :=
  { id := 30, workId := 10, decision := .approveRetry, reviewerId := "ann", reasonCode := "checked"
    idempotencyKey := "r", valid := by decide }

/-- Two commands, of which the first is delivered, blocked and reviewed. -/
def sampleCalls : List SourceCall :=
  [⟨0, .work (.enqueue { id := 10, runId := 5, idempotencyKey := "a" })⟩,
    ⟨0, .work (.enqueue { id := 11, runId := 5, idempotencyKey := "b" })⟩,
    ⟨1, .work (.claim 20 "worker" 60)⟩, ⟨2, .work (.block 10 20 "unclear")⟩,
    ⟨3, .listBlocked 100⟩, ⟨4, .work (.review sampleReview)⟩, ⟨5, .get 10⟩,
    ⟨6, .work (.complete 10 20)⟩]

-- The last call comes too late in both sources.
theorem work_sources_agree_reviewed :
    (runInMemory {} sampleCalls).1 = (PostgresFlowWorkSource.run { flowRuns := [5] } sampleCalls).1 ∧
      (runInMemory {} sampleCalls).1.map (·.isOk) =
        [true, true, true, true, true, true, true, false] := by
  refine ⟨(work_sources_agree [5] sampleCalls ?_).1, by decide +kernel⟩
  have hcommands : (Requests.of sampleCalls).commands =
      [{ id := 10, runId := 5, idempotencyKey := "a" },
        { id := 11, runId := 5, idempotencyKey := "b" }] := rfl
  have hreviews : (Requests.of sampleCalls).reviews = [sampleReview] := rfl
  constructor
  · rw [hcommands]
    simp only [List.mem_cons, List.not_mem_nil, or_false, forall_eq_or_imp, forall_eq]
    exact ⟨⟨by decide, by decide, by decide⟩,
      by decide, by decide, by decide⟩
  · rw [hcommands]
    simp
  · rw [hcommands]
    simp
  · rw [hreviews]
    simp

end Postgres
end BaseAgent

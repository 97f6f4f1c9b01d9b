import BaseAgent.Postgres.Rows
import BaseAgent.Runtime.Engine
import BaseAgent.Runtime.Subscriptions

/-!
# Event subscriptions of the PostgreSQL store

The subscription reads the events of a Run, hands out those after its cursor and then asks for the
status of the Run; it ends when that is a terminal one.  `_finalize_run` saves the terminal status
and emits the terminal event in two transactions.  A subscription that reads the events before the
second and the status after the first ends without the terminal event.
-/

namespace BaseAgent
namespace Postgres

open BaseAgent.Runtime

/-- The payloads of the `runs` and `events` tables.  Runs have a primary key. -/
structure PostgresStore where
  runs : UUID → Option Run := fun _ => none
  events : List RuntimeEvent := []

namespace PostgresStore

variable (store : PostgresStore)

def runNotFound (runId : UUID) : RuntimeError :=
  .runNotFound s!"run '{uuidText runId}' was not found"

def setRun (run : Run) : PostgresStore :=
  { store with runs := Function.update store.runs run.id (some run) }

def create (run : Run) : Except RuntimeError PostgresStore :=
  match store.runs run.id with
  | some _ => .error (.runAlreadyExists s!"run '{uuidText run.id}' already exists")
  | none => .ok (store.setRun run)

def get (runId : UUID) : Except RuntimeError Run :=
  match store.runs runId with
  | some run => .ok run
  | none => .error (runNotFound runId)

def saveRun (run : Run) : Except RuntimeError PostgresStore := do
  let current ← store.get run.id
  let updated :=
    if current.cancelRequested && !run.cancelRequested then { run with cancelRequested := true }
    else run
  return store.setRun updated

def requestCancel (runId : UUID) : Except RuntimeError PostgresStore := do
  let run ← store.get runId
  if run.status = .created ∨ run.status = .running ∨ run.status = .waiting then
    return store.setRun { run with cancelRequested := true }
  else .error (.runNotCancellable
    s!"run '{uuidText runId}' in state '{run.status.value}' cannot be cancelled")

def rows (runId : UUID) : List RuntimeEvent := store.events.filter fun event => event.runId = runId

/-- `emit`.  The identifiers of the events are unique. -/
def emit (emission : Emission) : Except RuntimeError PostgresStore := do
  let _ ← store.get emission.runId
  let event : RuntimeEvent :=
    { id := emission.id
      runId := emission.runId
      sequence := maximum RuntimeEvent.sequence (store.rows emission.runId) + 1
      type := emission.type
      timestamp := emission.now
      data := emission.data }
  if store.events.any fun other => other.id = event.id then
    .error (.other "IntegrityError" "duplicate key value violates unique constraint")
  else .ok { store with events := store.events ++ [event] }

def list (runId : UUID) : List RuntimeEvent := orderBy RuntimeEvent.sequence (store.rows runId)

end PostgresStore

inductive Transaction where
  | create (run : Run)
  | save (run : Run)
  | requestCancel (runId : UUID)
  | emit (emission : Emission)

namespace PostgresStore

def write (store : PostgresStore) (transaction : Transaction) : PostgresStore :=
  let outcome := match transaction with
    | .create run => store.create run
    | .save run => store.saveRun run
    | .requestCancel runId => store.requestCancel runId
    | .emit emission => store.emit emission
  match outcome with
  | .ok after => after
  | .error _ => store

end PostgresStore

/-- The transactions of `_finalize_run`, with the Run that its snapshot starts from. -/
def finalizeRun (context : RuntimeContext) (existing : Run) (id : UUID) (now : Time) :
    List Transaction :=
  .save (context.snapshot existing) ::
    ((AgentRuntime.terminalEvent context.state).map fun type =>
      Transaction.emit { id, now, runId := context.runId, type }).toList

/-- Where the task of `subscribe` stands: before its first query, suspended at a `yield`, before
its second query, or in `sleep`. -/
inductive PostgresPoint where
  | listing
  | yielding (event : RuntimeEvent) (rest : List RuntimeEvent)
  | checking
  | sleeping
  | raised (error : RuntimeError)
  | ended

structure PostgresSubscription where
  point : PostgresPoint := .listing
  nextSequence : Nat
  yielded : List RuntimeEvent := []
  lastRead : List RuntimeEvent := []

namespace PostgresSubscription

def start (afterSequence : Int) : Except String PostgresSubscription :=
  (firstSequence afterSequence).map fun nextSequence => { nextSequence := nextSequence }

variable (s : PostgresSubscription)

def deliver : List RuntimeEvent → PostgresSubscription
  | event :: rest => { s with point := .yielding event rest, yielded := s.yielded ++ [event] }
  | [] => { s with point := .checking }

def resume (runId : UUID) (store : PostgresStore) : PostgresSubscription :=
  match s.point with
  | .listing =>
    { s with lastRead := store.list runId }.deliver
      ((store.list runId).filter fun event => s.nextSequence ≤ event.sequence)
  | .yielding event rest =>
    let s := { s with nextSequence := event.sequence + 1 }
    if event.boundary then { s with point := .ended } else s.deliver rest
  | .checking =>
    match store.get runId with
    | .error e => { s with point := .raised e }
    | .ok run => { s with point := if run.status.terminal then .ended else .sleeping }
  | .sleeping => { s with point := .listing }
  | .raised _ | .ended => s

end PostgresSubscription

/-- A transaction of the Run code, or a step of the subscription. -/
inductive PostgresAction where
  | write (transaction : Transaction)
  | resume

structure PostgresStream where
  store : PostgresStore := {}
  subscription : PostgresSubscription

namespace PostgresStream

def step (runId : UUID) (stream : PostgresStream) : PostgresAction → PostgresStream
  | .write transaction => { stream with store := stream.store.write transaction }
  | .resume => { stream with subscription := stream.subscription.resume runId stream.store }

/-- The status query of the subscription finds a Run that has ended. -/
def cut (runId : UUID) (stream : PostgresStream) : PostgresAction → Bool
  | .write _ => false
  | .resume =>
    match stream.subscription.point, stream.store.runs runId with
    | .checking, some run => run.status.terminal
    | _, _ => false

def uncut (runId : UUID) (stream : PostgresStream) : List PostgresAction → Bool
  | [] => true
  | action :: actions => !cut runId stream action && uncut runId (stream.step runId action) actions

/-- If the subscription has ended, the last event it was given is a boundary, and it was given
every event after the cursor up to that one. -/
def Complete (runId : UUID) (cursor : Nat) (stream : PostgresStream) : Prop :=
  stream.subscription.point = .ended →
    AtBoundary stream.subscription.yielded ∧
      ExactStream runId cursor (stream.store.list runId) stream.subscription.yielded

end PostgresStream

/-! ## The rows of the events -/

def Ordered (store : PostgresStore) : Prop :=
  ∀ runId, Consecutive RuntimeEvent.sequence (store.rows runId)

section Rows

variable {store : PostgresStore} {runId : UUID}

theorem Ordered.list_eq (h : Ordered store) : store.list runId = store.rows runId :=
  (h runId).orderBy_eq

theorem Ordered.numbered (h : Ordered store) : Numbered runId (store.list runId) := by
  rw [h.list_eq]
  refine ⟨fun event hevent => ?_, h runId⟩
  simpa using (List.mem_filter.mp hevent).2

/-- A transaction of a Run leaves the events alone; the others add one row. -/
theorem write_cases (store : PostgresStore) (transaction : Transaction) :
    (store.write transaction).events = store.events ∨
      ∃ event : RuntimeEvent,
        event.sequence = maximum RuntimeEvent.sequence (store.rows event.runId) + 1 ∧
          (store.write transaction).events = store.events ++ [event] := by
  cases transaction with
  | create run =>
    refine .inl ?_
    simp only [PostgresStore.write, PostgresStore.create]
    cases store.runs run.id <;> rfl
  | save run =>
    refine .inl ?_
    simp only [PostgresStore.write, PostgresStore.saveRun]
    cases store.get run.id <;> rfl
  | requestCancel runId =>
    refine .inl ?_
    simp only [PostgresStore.write, PostgresStore.requestCancel]
    cases store.get runId with
    | error e => rfl
    | ok run =>
      by_cases hstatus : run.status = .created ∨ run.status = .running ∨ run.status = .waiting
      · simp only [bind, Except.bind, if_pos hstatus]
        rfl
      · simp only [bind, Except.bind, if_neg hstatus]
  | emit emission =>
    simp only [PostgresStore.write, PostgresStore.emit]
    cases store.get emission.runId with
    | error e => exact .inl rfl
    | ok run =>
      simp only [bind, Except.bind]
      split
      · rename_i after hafter
        split at hafter
        · cases hafter
        · cases hafter
          exact .inr ⟨_, rfl, rfl⟩
      · exact .inl rfl

theorem rows_snoc {event : RuntimeEvent} {after : PostgresStore}
    (h : after.events = store.events ++ [event]) (runId : UUID) :
    after.rows runId =
      if event.runId = runId then store.rows runId ++ [event] else store.rows runId := by
  unfold PostgresStore.rows
  rw [h, List.filter_append]
  by_cases hrun : event.runId = runId <;> simp [hrun]

theorem Ordered.write (h : Ordered store) (transaction : Transaction) :
    Ordered (store.write transaction) := by
  intro runId
  cases write_cases store transaction with
  | inl hsame =>
    show Consecutive _ (List.filter _ (store.write transaction).events)
    rw [hsame]
    exact h runId
  | inr hadded =>
    obtain ⟨event, hsequence, hadded⟩ := hadded
    rw [rows_snoc hadded]
    split
    · rename_i hrun
      subst hrun
      refine consecutive_snoc.mpr ⟨h _, ?_⟩
      rw [hsequence, (h _).maximum_eq]
    · exact h runId

theorem Ordered.grows (h : Ordered store) (transaction : Transaction) :
    store.list runId <+: (store.write transaction).list runId := by
  rw [h.list_eq, (h.write transaction).list_eq]
  cases write_cases store transaction with
  | inl hsame =>
    show _ <+: List.filter _ (store.write transaction).events
    rw [hsame]
    exact List.prefix_rfl
  | inr hadded =>
    obtain ⟨event, -, hadded⟩ := hadded
    rw [rows_snoc hadded]
    split
    · exact List.prefix_append _ _
    · exact List.prefix_rfl

end Rows

/-! ## The subscription along a run -/

namespace PostgresStream

def AtPoint (cursor : Nat) (s : PostgresSubscription) : Prop :=
  match s.point with
  | .listing | .checking | .sleeping => Between cursor s.nextSequence s.yielded
  | .yielding event rest => AtYield cursor s.yielded s.lastRead event rest
  | .raised _ => True
  | .ended => AtBoundary s.yielded

structure Invariant (runId : UUID) (cursor : Nat) (stream : PostgresStream) : Prop where
  ordered : Ordered stream.store
  following : Following cursor (stream.store.list runId) stream.subscription.yielded
    stream.subscription.lastRead
  point : AtPoint cursor stream.subscription

section Along

variable {runId : UUID} {cursor : Nat} {stream : PostgresStream}

/-- The rest of the batch is handed out, or the status is asked for. -/
theorem deliver_invariant {store : PostgresStore} {s : PostgresSubscription}
    {batch : List RuntimeEvent} (hordered : Ordered store)
    (hread : s.lastRead <+: store.list runId) (hbetween : Between cursor s.nextSequence s.yielded)
    (hbatch : s.yielded ++ batch = s.lastRead.drop cursor) :
    Invariant runId cursor ⟨store, s.deliver batch⟩ := by
  cases batch with
  | cons event rest =>
    have hat : AtYield cursor (s.yielded ++ [event]) s.lastRead event rest :=
      ⟨s.yielded, rfl, hbetween.quiet, hbatch⟩
    exact ⟨hordered, ⟨hread, hat.given⟩, hat⟩
  | nil => exact ⟨hordered, ⟨hread, ⟨[], hbatch⟩⟩, hbetween⟩

theorem Invariant.resume (h : Invariant runId cursor stream)
    (huncut : cut runId stream .resume = false) :
    Invariant runId cursor (stream.step runId .resume) := by
  obtain ⟨hordered, hfollowing, hpoint⟩ := h
  obtain ⟨store, s⟩ := stream
  have hnumbered : Numbered runId (store.list runId) := hordered.numbered
  simp only [AtPoint] at hpoint
  simp only [step, PostgresSubscription.resume]
  cases hwhere : s.point with
  | listing =>
    rw [hwhere] at hpoint
    have hbetween : Between cursor s.nextSequence s.yielded := hpoint
    have hfilter : ((store.list runId).filter fun event => s.nextSequence ≤ event.sequence) =
        (store.list runId).drop (cursor + s.yielded.length) := by
      rw [hbetween.next]
      exact hnumbered.filter_eq_drop _
    simp only
    rw [hfilter]
    exact deliver_invariant hordered (List.prefix_refl _) hbetween hfollowing.reread
  | yielding event rest =>
    rw [hwhere] at hpoint
    have hat : AtYield cursor s.yielded s.lastRead event rest := hpoint
    simp only
    by_cases hboundary : event.boundary = true
    · rw [if_pos hboundary]
      exact ⟨hordered, hfollowing, hat.boundary hboundary⟩
    · rw [if_neg hboundary]
      have hquiet : event.boundary = false := by simpa using hboundary
      refine deliver_invariant hordered hfollowing.read ⟨?_, hat.quiet hquiet⟩ ?_
      · show event.sequence + 1 = cursor + s.yielded.length + 1
        rw [hat.sequence (hnumbered.of_prefix hfollowing.read)]
      · obtain ⟨before, hyielded, -, hread⟩ := hat
        show s.yielded ++ rest = s.lastRead.drop cursor
        rw [hyielded, ← hread]
        simp
  | checking =>
    rw [hwhere] at hpoint
    simp only [cut, hwhere] at huncut
    simp only [PostgresStore.get]
    cases hrun : store.runs runId with
    | none => exact ⟨hordered, hfollowing, trivial⟩
    | some run =>
      rw [hrun] at huncut
      have hlive : run.status.terminal = false := huncut
      simp only [hlive]
      exact ⟨hordered, hfollowing, hpoint⟩
  | sleeping =>
    rw [hwhere] at hpoint
    exact ⟨hordered, hfollowing, hpoint⟩
  | raised e =>
    refine ⟨hordered, hfollowing, ?_⟩
    simp only [AtPoint, hwhere]
  | ended =>
    rw [hwhere] at hpoint
    refine ⟨hordered, hfollowing, ?_⟩
    simp only [AtPoint, hwhere]
    exact hpoint

theorem Invariant.write (h : Invariant runId cursor stream) (transaction : Transaction) :
    Invariant runId cursor (stream.step runId (.write transaction)) where
  ordered := h.ordered.write transaction
  following := h.following.mono (h.ordered.grows transaction)
  point := h.point

theorem start_invariant {afterSequence : Int} {s : PostgresSubscription}
    (h : PostgresSubscription.start afterSequence = .ok s) (runId : UUID) :
    Invariant runId afterSequence.toNat ⟨{}, s⟩ := by
  unfold PostgresSubscription.start firstSequence at h
  split at h
  · cases h
  · cases h
    refine ⟨fun runId => Consecutive.nil, ⟨List.nil_prefix, ?_⟩, ⟨rfl, ?_⟩⟩
    · simp
    · simp [Quiet]

/-- A subscription that was cut: it has ended, and no event that it was given is a boundary. -/
def Short (stream : PostgresStream) : Prop :=
  stream.subscription.point = .ended ∧ Quiet stream.subscription.yielded

theorem Short.of_cut (h : Invariant runId cursor stream) {action : PostgresAction}
    (hcut : cut runId stream action = true) : Short (stream.step runId action) := by
  cases action with
  | write transaction => cases hcut
  | resume =>
    obtain ⟨-, -, hpoint⟩ := h
    obtain ⟨store, s⟩ := stream
    simp only [cut] at hcut
    split at hcut
    · rename_i run hwhere hrun
      simp only [AtPoint, hwhere] at hpoint
      simp only [Short, step, PostgresSubscription.resume, hwhere, PostgresStore.get, hrun, hcut]
      exact ⟨rfl, hpoint.quiet⟩
    · cases hcut

theorem Short.step (h : Short stream) (action : PostgresAction) :
    Short (stream.step runId action) := by
  cases action with
  | write transaction => exact h
  | resume =>
    have hsame : stream.subscription.resume runId stream.store = stream.subscription := by
      simp only [PostgresSubscription.resume, h.1]
    show Short ⟨stream.store, stream.subscription.resume runId stream.store⟩
    rw [hsame]
    exact h

theorem Short.run (h : Short stream) (actions : List PostgresAction) :
    Short (actions.foldl (PostgresStream.step runId) stream) := by
  induction actions generalizing stream with
  | nil => exact h
  | cons action actions ih => exact ih (h.step action)

theorem Short.incomplete (h : Short stream) : ¬ Complete runId cursor stream := by
  intro hcomplete
  obtain ⟨⟨before, event, hyielded, hboundary, -⟩, -⟩ := hcomplete h.1
  rw [h.2 event (by rw [hyielded]; simp)] at hboundary
  cases hboundary

theorem Invariant.complete (h : Invariant runId cursor stream) : Complete runId cursor stream := by
  intro hended
  have hpoint := h.point
  simp only [AtPoint, hended] at hpoint
  exact ⟨hpoint, h.following.exactStream h.ordered.numbered⟩

/-- From a state of the invariant, the subscription is complete exactly when it is not cut. -/
theorem Invariant.complete_iff (h : Invariant runId cursor stream)
    (actions : List PostgresAction) :
    Complete runId cursor (actions.foldl (PostgresStream.step runId) stream) ↔
      uncut runId stream actions = true := by
  induction actions generalizing stream with
  | nil => exact iff_of_true h.complete rfl
  | cons action actions ih =>
    rw [List.foldl_cons, uncut]
    cases hcut : cut runId stream action with
    | true =>
      have hshort : Short (stream.step runId action) := Short.of_cut h hcut
      refine iff_of_false (hshort.run actions).incomplete ?_
      simp
    | false =>
      rw [Bool.not_false, Bool.true_and]
      apply ih
      cases action with
      | write transaction => exact h.write transaction
      | resume => exact h.resume hcut

end Along

end PostgresStream

/-- Along every interleaving of the subscription's queries with the transactions of the Run code,
the subscription is complete exactly when none of its status queries finds the Run ended. -/
theorem postgres_subscription_complete (runId : UUID) {afterSequence : Int}
    {s : PostgresSubscription} (hstart : PostgresSubscription.start afterSequence = .ok s)
    (actions : List PostgresAction) :
    PostgresStream.Complete runId afterSequence.toNat
        (actions.foldl (PostgresStream.step runId) ⟨{}, s⟩) ↔
      PostgresStream.uncut runId ⟨{}, s⟩ actions = true :=
  (PostgresStream.start_invariant hstart runId).complete_iff actions

def completedContext : RuntimeContext :=
  { runId := 1, profile := { id := "agent", instructions := "" }, messages := []
    state := .completed }

def runningRun : Run := { id := 1, profileId := "agent", status := .running }

/-- The subscription is given the first event.  The rest is the order of its status query and the
two transactions of `_finalize_run`. -/
def streamed (actions : List PostgresAction) : List PostgresAction :=
  [.write (.create runningRun), .write (.emit { id := 10, now := 0, runId := 1, type := .runStarted }),
    .resume, .resume] ++ actions

/-- The writes of `_finalize_run`. -/
def finalWrites : List PostgresAction := (finalizeRun completedContext runningRun 11 0).map .write

-- The status is asked for between the two transactions, and the last event is never given.
theorem status_between_writes_ends_early :
    PostgresSubscription.start 0 = .ok { nextSequence := 1 } ∧ finalWrites.length = 2 ∧
      ¬ PostgresStream.Complete 1 0
        ((streamed (finalWrites.take 1 ++ [.resume] ++ finalWrites.drop 1)).foldl
          (PostgresStream.step 1) ⟨{}, { nextSequence := 1 }⟩) := by
  refine ⟨rfl, rfl, fun hcomplete => ?_⟩
  have hstart : PostgresStream.Invariant 1 0 ⟨{}, { nextSequence := 1 }⟩ :=
    PostgresStream.start_invariant (show PostgresSubscription.start 0 = .ok _ from rfl) 1
  have huncut := (hstart.complete_iff _).mp hcomplete
  revert huncut
  decide

-- The status is asked for before them, and the last event is given.
theorem postgres_subscription_complete_early_status :
    PostgresStream.uncut 1 ⟨{}, { nextSequence := 1 }⟩
        (streamed ([.resume, .resume] ++ finalWrites ++ [.resume, .resume])) = true ∧
      PostgresStream.Complete 1 0
        ((streamed ([.resume, .resume] ++ finalWrites ++ [.resume, .resume])).foldl
          (PostgresStream.step 1) ⟨{}, { nextSequence := 1 }⟩) := by
  have hstart : PostgresSubscription.start 0 = .ok { nextSequence := 1 } := rfl
  have huncut : PostgresStream.uncut 1 ⟨{}, { nextSequence := 1 }⟩
      (streamed ([.resume, .resume] ++ finalWrites ++ [.resume, .resume])) = true := by
    decide
  exact ⟨huncut, (postgres_subscription_complete 1 hstart _).mpr huncut⟩

end Postgres
end BaseAgent

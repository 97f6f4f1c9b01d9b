import Mathlib.Data.List.Basic
import BaseAgent.Models.Run

/-!
# Live event subscriptions

A subscription is an asynchronous generator: it reads the events of a Run, hands them out
one by one, and reads again.  Each of its points below is a place where its task can be
suspended, so that any number of events can be emitted before it goes on.

The in-memory store wakes its subscribers through a condition variable.  The Redis store
reads a durable store, and its notifications only say when to read again.
-/

namespace BaseAgent
namespace Runtime

/-- Membership in `terminal_types` and in `_STREAM_BOUNDARIES`. -/
def streamBoundary : EventType → Bool
  | .runCompleted | .runFailed | .runCancelled | .runInterrupted | .runLimitReached
  | .runWaiting => true
  | _ => false

/-- Membership in `permanent_terminal_types` and in `_PERMANENT_BOUNDARIES`. -/
def permanentBoundary (type : EventType) : Bool :=
  streamBoundary type && type ≠ .runWaiting

structure RuntimeEvent where
  id : UUID
  runId : UUID
  sequence : Nat
  type : EventType
  timestamp : Time
  data : List (String × JsonValue) := []

namespace RuntimeEvent

def boundary (event : RuntimeEvent) : Bool := streamBoundary event.type

def permanent (event : RuntimeEvent) : Bool := permanentBoundary event.type

end RuntimeEvent

/-- The arguments of one `emit`, and the identity and time its event gets. -/
structure Emission where
  id : UUID
  now : Time
  runId : UUID
  type : EventType
  data : List (String × JsonValue) := []

structure InMemoryEventStore where
  events : UUID → List RuntimeEvent := fun _ => []

def InMemoryEventStore.emit (store : InMemoryEventStore) (emission : Emission) :
    InMemoryEventStore :=
  let events := store.events emission.runId
  let event : RuntimeEvent :=
    { id := emission.id
      runId := emission.runId
      sequence := events.length + 1
      type := emission.type
      timestamp := emission.now
      data := emission.data }
  { store with events := Function.update store.events emission.runId (events ++ [event]) }

/-- The cursor of `subscribe`. -/
def firstSequence (afterSequence : Int) : Except String Nat :=
  if afterSequence < 0 then .error "after_sequence must be non-negative"
  else .ok (afterSequence.toNat + 1)

/-! ## The in-memory store -/

/-- Where the task of `InMemoryEventStore.subscribe` stands: before the lock, in `wait`,
suspended at a `yield` with the rest of its batch, or at its end. -/
inductive InMemoryPoint where
  | locking
  | waiting (notified : Bool)
  | yielding (event : RuntimeEvent) (rest : List RuntimeEvent)
  | ended

/-- `yielded` is what the subscriber has been given, and `lastRead` the events of the Run
when they were last read. -/
structure InMemorySubscription where
  point : InMemoryPoint := .locking
  nextSequence : Nat
  yielded : List RuntimeEvent := []
  lastRead : List RuntimeEvent := []

namespace InMemorySubscription

def start (afterSequence : Int) : Except String InMemorySubscription :=
  (firstSequence afterSequence).map fun nextSequence => { nextSequence := nextSequence }

variable (s : InMemorySubscription)

def deliver (event : RuntimeEvent) (rest : List RuntimeEvent) : InMemorySubscription :=
  { s with point := .yielding event rest, yielded := s.yielded ++ [event] }

/-- The body of `async with self._changed`, from the test of its loop. -/
def examine (events : List RuntimeEvent) : InMemorySubscription :=
  let s := { s with lastRead := events }
  if events.length < s.nextSequence then
    if events.any (·.permanent) then { s with point := .ended }
    else { s with point := .waiting false }
  else
    match events.drop (s.nextSequence - 1) with
    | [] => { s with point := .ended }
    | event :: rest => s.deliver event rest

/-- The task goes on.  It stays in `wait` until it is notified. -/
def resume (events : List RuntimeEvent) : InMemorySubscription :=
  match s.point with
  | .locking | .waiting true => s.examine events
  | .waiting false | .ended => s
  | .yielding event rest =>
    let s := { s with nextSequence := event.sequence + 1 }
    if event.boundary then { s with point := .ended }
    else
      match rest with
      | [] => { s with point := .locking }
      | event :: rest => s.deliver event rest

/-- `notify_all`. -/
def notify : InMemorySubscription :=
  match s.point with
  | .waiting _ => { s with point := .waiting true }
  | _ => s

end InMemorySubscription

/-! ## The Redis store -/

/-- Where the task of `RedisEventStore.subscribe` stands.  `connected` says that it is inside
the `async with` statement of its pubsub connection. -/
inductive RedisPoint where
  | listing (connected : Bool)
  | yielding (connected : Bool) (event : RuntimeEvent) (rest : List RuntimeEvent)
  | opening
  | awaiting
  | closing
  | sleeping
  | ended

structure RedisSubscription where
  point : RedisPoint := .listing false
  nextSequence : Nat
  yielded : List RuntimeEvent := []
  lastRead : List RuntimeEvent := []

namespace RedisSubscription

def start (afterSequence : Int) : Except String RedisSubscription :=
  (firstSequence afterSequence).map fun nextSequence => { nextSequence := nextSequence }

variable (s : RedisSubscription)

/-- `return`.  Inside the `async with` statement its connection is closed first. -/
def leave (connected : Bool) : RedisSubscription :=
  { s with point := if connected then .closing else .ended }

def deliver (connected : Bool) : List RuntimeEvent → RedisSubscription
  | event :: rest =>
    { s with point := .yielding connected event rest, yielded := s.yielded ++ [event] }
  | [] =>
    if s.lastRead.any (·.permanent) then s.leave connected
    else { s with point := if connected then .awaiting else .opening }

/-- The task goes on.  `failed` says that the call of the Redis client at this point raises
`RedisError`; the handler is the same for all of them. -/
def resume (failed : Bool) (events : List RuntimeEvent) : RedisSubscription :=
  match s.point with
  | .listing connected =>
    { s with lastRead := events }.deliver connected
      (events.filter fun event => s.nextSequence ≤ event.sequence)
  | .yielding connected event rest =>
    let s := { s with nextSequence := event.sequence + 1 }
    if event.boundary then s.leave connected else s.deliver connected rest
  | .opening | .awaiting => { s with point := if failed then .sleeping else .listing true }
  | .closing => { s with point := if failed then .sleeping else .ended }
  | .sleeping => { s with point := .listing false }
  | .ended => s

end RedisSubscription

/-! ## Emits and a subscriber -/

/-- A step of the whole: an event is emitted, or the task of the subscription goes on with
the reply `ρ`. -/
inductive StreamAction (ρ : Type) where
  | emit (emission : Emission)
  | resume (reply : ρ)

structure Live (σ : Type) where
  store : InMemoryEventStore := {}
  subscription : σ

namespace InMemorySubscription

def step (runId : UUID) (live : Live InMemorySubscription) :
    StreamAction Unit → Live InMemorySubscription
  | .emit emission => ⟨live.store.emit emission, live.subscription.notify⟩
  | .resume () => ⟨live.store, live.subscription.resume (live.store.events runId)⟩

end InMemorySubscription

namespace RedisSubscription

/-- The durable store behind Redis keeps events as the in-memory one does.  That the
publication of an event fails or is lost changes nothing here. -/
def step (runId : UUID) (live : Live RedisSubscription) :
    StreamAction Bool → Live RedisSubscription
  | .emit emission => ⟨live.store.emit emission, live.subscription⟩
  | .resume failed => ⟨live.store, live.subscription.resume failed (live.store.events runId)⟩

end RedisSubscription

/-- Events of one Run, numbered from one. -/
structure Numbered (runId : UUID) (events : List RuntimeEvent) : Prop where
  runs : ∀ event ∈ events, event.runId = runId
  sequences : events.map (·.sequence) = List.range' 1 events.length

namespace Numbered

variable {runId : UUID} {events : List RuntimeEvent}

theorem sequence_eq (h : Numbered runId events) {i : Nat} {event : RuntimeEvent}
    (hevent : events[i]? = some event) : event.sequence = i + 1 := by
  have hget := congrArg (·[i]?) h.sequences
  simp only [List.getElem?_map, hevent, Option.map_some] at hget
  obtain ⟨hi, -⟩ := List.getElem?_eq_some_iff.mp hevent
  rw [List.getElem?_range' hi] at hget
  simp only [Option.some.injEq] at hget
  omega

theorem sequence_le (h : Numbered runId events) {event : RuntimeEvent} (hevent : event ∈ events) :
    event.sequence ≤ events.length := by
  obtain ⟨i, hi⟩ := List.mem_iff_getElem?.mp hevent
  obtain ⟨hlt, -⟩ := List.getElem?_eq_some_iff.mp hi
  rw [h.sequence_eq hi]
  omega

theorem of_prefix {first : List RuntimeEvent} (h : Numbered runId events)
    (hpre : first <+: events) : Numbered runId first := by
  obtain ⟨rest, rfl⟩ := hpre
  constructor
  · intro event hevent
    exact h.runs event (List.mem_append_left rest hevent)
  · have hsequences := h.sequences
    rw [List.map_append, List.length_append, ← List.range'_append_1] at hsequences
    exact (List.append_inj hsequences (by simp)).1

theorem filter_eq_drop (h : Numbered runId events) (first : Nat) :
    (events.filter fun event => first + 1 ≤ event.sequence) = events.drop first := by
  have hsplit : events = events.take first ++ events.drop first :=
    (List.take_append_drop first events).symm
  have hlow : ∀ event ∈ events.take first, ¬ decide (first + 1 ≤ event.sequence) = true := by
    intro event hevent
    have htake := h.of_prefix (List.take_prefix first events)
    have hle := htake.sequence_le hevent
    have hlength := List.length_take_le first events
    simp only [decide_eq_true_eq]
    omega
  have hhigh : ∀ event ∈ events.drop first, decide (first + 1 ≤ event.sequence) = true := by
    intro event hevent
    obtain ⟨i, hi⟩ := List.mem_iff_getElem?.mp hevent
    rw [List.getElem?_drop] at hi
    have hsequence := h.sequence_eq hi
    simp only [decide_eq_true_eq]
    omega
  conv_lhs => rw [hsplit]
  rw [List.filter_append, List.filter_eq_nil_iff.mpr hlow, List.filter_eq_self.mpr hhigh,
    List.nil_append]

end Numbered

namespace InMemoryEventStore

variable (store : InMemoryEventStore) (emission : Emission) (runId : UUID)

theorem prefix_emit : store.events runId <+: (store.emit emission).events runId := by
  by_cases hrun : runId = emission.runId
  · subst hrun
    simp only [emit, Function.update_self]
    exact List.prefix_append _ _
  · simp only [emit, Function.update_of_ne hrun]
    exact List.prefix_refl _

theorem numbered_emit (h : Numbered runId (store.events runId)) :
    Numbered runId ((store.emit emission).events runId) := by
  by_cases hrun : runId = emission.runId
  · subst hrun
    simp only [emit, Function.update_self]
    constructor
    · intro event hevent
      cases List.mem_append.mp hevent with
      | inl hold => exact h.runs event hold
      | inr hnew => rw [List.mem_singleton.mp hnew]
    · rw [List.map_append, h.sequences, List.length_append, List.length_singleton,
        List.range'_concat]
      simp [Nat.add_comm]
  · simpa only [emit, Function.update_of_ne hrun] using h

end InMemoryEventStore

/-! ## What a subscriber has seen -/

def Quiet (events : List RuntimeEvent) : Prop := ∀ event ∈ events, event.boundary = false

/-- What was read is what is stored, and what was handed out is what was read after the
cursor. -/
structure Following (cursor : Nat) (events yielded lastRead : List RuntimeEvent) : Prop where
  read : lastRead <+: events
  given : yielded <+: lastRead.drop cursor

/-- The batch is handed out: the next number is the one after the last event. -/
structure Between (cursor nextSequence : Nat) (yielded : List RuntimeEvent) : Prop where
  next : nextSequence = cursor + yielded.length + 1
  quiet : Quiet yielded

/-- Suspended at the `yield` of `event`, with `rest` to come. -/
def AtYield (cursor : Nat) (yielded lastRead : List RuntimeEvent) (event : RuntimeEvent)
    (rest : List RuntimeEvent) : Prop :=
  ∃ before, yielded = before ++ [event] ∧ Quiet before ∧
    before ++ event :: rest = lastRead.drop cursor

def AtBoundary (yielded : List RuntimeEvent) : Prop :=
  ∃ before event, yielded = before ++ [event] ∧ event.boundary = true ∧ Quiet before

/-- No boundary was handed out, but a permanent one lies at or before the current position,
and the last read found nothing later. -/
def PastEnd (cursor : Nat) (yielded lastRead : List RuntimeEvent) : Prop :=
  Quiet yielded ∧
    (∃ event ∈ lastRead, event.permanent = true ∧ event.sequence ≤ cursor + yielded.length) ∧
    lastRead.length ≤ cursor + yielded.length

namespace Following

variable {cursor : Nat} {events yielded lastRead : List RuntimeEvent}

theorem mono {later : List RuntimeEvent} (h : Following cursor events yielded lastRead)
    (hlater : events <+: later) : Following cursor later yielded lastRead :=
  ⟨h.read.trans hlater, h.given⟩

theorem prefix_drop {first second : List RuntimeEvent} (h : first <+: second) (n : Nat) :
    first.drop n <+: second.drop n := by
  obtain ⟨rest, rfl⟩ := h
  by_cases hn : n ≤ first.length
  · rw [List.drop_append_of_le_length hn]
    exact List.prefix_append _ _
  · rw [List.drop_eq_nil_of_le (by omega)]
    exact List.nil_prefix

/-- What was handed out, followed by what a new read finds after it. -/
theorem reread (h : Following cursor events yielded lastRead) :
    yielded ++ events.drop (cursor + yielded.length) = events.drop cursor := by
  have hgiven : yielded <+: events.drop cursor := h.given.trans (prefix_drop h.read cursor)
  rw [← List.drop_drop]
  exact (List.prefix_iff_eq_append.mp hgiven)

end Following

theorem AtYield.sequence {runId : UUID} {cursor : Nat} {yielded lastRead rest : List RuntimeEvent}
    {event : RuntimeEvent} (h : AtYield cursor yielded lastRead event rest)
    (hnumbered : Numbered runId lastRead) : event.sequence = cursor + yielded.length := by
  obtain ⟨before, rfl, -, hread⟩ := h
  have hget : lastRead[cursor + before.length]? = some event := by
    rw [← List.getElem?_drop, ← hread]
    simp
  rw [hnumbered.sequence_eq hget]
  simp only [List.length_append, List.length_singleton]
  omega

theorem AtYield.next {cursor : Nat} {yielded lastRead rest : List RuntimeEvent}
    {event following : RuntimeEvent}
    (h : AtYield cursor yielded lastRead event (following :: rest))
    (hquiet : event.boundary = false) :
    AtYield cursor (yielded ++ [following]) lastRead following rest := by
  obtain ⟨before, rfl, hbefore, hread⟩ := h
  refine ⟨before ++ [event], rfl, ?_, by simpa using hread⟩
  intro e he
  cases List.mem_append.mp he with
  | inl hold => exact hbefore e hold
  | inr hnew => rw [List.mem_singleton.mp hnew, hquiet]

theorem AtYield.quiet {cursor : Nat} {yielded lastRead rest : List RuntimeEvent}
    {event : RuntimeEvent} (h : AtYield cursor yielded lastRead event rest)
    (hquiet : event.boundary = false) : Quiet yielded := by
  obtain ⟨before, rfl, hbefore, -⟩ := h
  intro e he
  cases List.mem_append.mp he with
  | inl hold => exact hbefore e hold
  | inr hnew => rw [List.mem_singleton.mp hnew, hquiet]

theorem AtYield.given {cursor : Nat} {yielded lastRead rest : List RuntimeEvent}
    {event : RuntimeEvent} (h : AtYield cursor yielded lastRead event rest) :
    yielded <+: lastRead.drop cursor := by
  obtain ⟨before, rfl, -, hread⟩ := h
  rw [← hread]
  exact ⟨rest, by simp⟩

theorem AtYield.boundary {cursor : Nat} {yielded lastRead rest : List RuntimeEvent}
    {event : RuntimeEvent} (h : AtYield cursor yielded lastRead event rest)
    (hboundary : event.boundary = true) : AtBoundary yielded := by
  obtain ⟨before, hyielded, hbefore, -⟩ := h
  exact ⟨before, event, hyielded, hboundary, hbefore⟩

/-- The subscriber was given the events of the Run after the cursor, each one once and in
their order. -/
structure ExactStream (runId : UUID) (cursor : Nat) (events yielded : List RuntimeEvent) : Prop where
  given : yielded <+: events.drop cursor
  runs : ∀ event ∈ yielded, event.runId = runId
  sequences : yielded.map (·.sequence) = List.range' (cursor + 1) yielded.length

theorem Following.exactStream {runId : UUID} {cursor : Nat}
    {events yielded lastRead : List RuntimeEvent} (h : Following cursor events yielded lastRead)
    (hnumbered : Numbered runId events) : ExactStream runId cursor events yielded := by
  have hgiven : yielded <+: events.drop cursor :=
    h.given.trans (Following.prefix_drop h.read cursor)
  refine ⟨hgiven, ?_, ?_⟩
  · intro event hevent
    exact hnumbered.runs event (List.mem_of_mem_drop (hgiven.subset hevent))
  · apply List.ext_getElem?
    intro i
    by_cases hi : i < yielded.length
    · rw [List.getElem?_range' hi, List.getElem?_map, List.getElem?_eq_getElem hi]
      obtain ⟨rest, hrest⟩ := hgiven
      have hget : events[cursor + i]? = some yielded[i] := by
        rw [← List.getElem?_drop, ← hrest, List.getElem?_append_left hi,
          List.getElem?_eq_getElem hi]
      simp only [Option.map_some, Option.some.injEq]
      rw [hnumbered.sequence_eq hget]
      omega
    · rw [List.getElem?_eq_none (by simpa using hi), List.getElem?_eq_none (by simpa using hi)]

theorem boundary_last {before after quiet : List RuntimeEvent} {event last : RuntimeEvent}
    (hquiet : Quiet quiet) (h : quiet ++ [last] = before ++ event :: after)
    (hboundary : event.boundary = true) : after = [] ∧ event = last := by
  cases List.eq_nil_or_concat after with
  | inl hnil =>
    subst hnil
    obtain ⟨-, hlast⟩ := List.append_inj' h rfl
    simp only [List.cons.injEq, and_true] at hlast
    exact ⟨rfl, hlast.symm⟩
  | inr hconcat =>
    obtain ⟨more, final, rfl⟩ := hconcat
    have hsplit : quiet ++ [last] = (before ++ event :: more) ++ [final] := by simpa using h
    obtain ⟨hinit, -⟩ := List.append_inj' hsplit rfl
    have hevent : event ∈ quiet := by simp [hinit]
    rw [hquiet event hevent] at hboundary
    cases hboundary

theorem Quiet.no_boundary {yielded before after : List RuntimeEvent} {event : RuntimeEvent}
    (h : Quiet yielded) (hyielded : yielded = before ++ event :: after) :
    event.boundary = false :=
  h event (by simp [hyielded])

/-! ## The in-memory subscription along a run -/

namespace InMemorySubscription

/-- What holds at each point.  A subscriber in `wait` that nobody has notified has seen
everything that is stored. -/
def AtPoint (cursor : Nat) (events : List RuntimeEvent) (s : InMemorySubscription) : Prop :=
  match s.point with
  | .locking | .waiting true => Between cursor s.nextSequence s.yielded
  | .waiting false =>
    Between cursor s.nextSequence s.yielded ∧ events.length < s.nextSequence ∧
      ∀ event ∈ events, event.permanent = false
  | .yielding event rest => AtYield cursor s.yielded s.lastRead event rest
  | .ended => AtBoundary s.yielded ∨ PastEnd cursor s.yielded s.lastRead

structure Invariant (runId : UUID) (cursor : Nat) (live : Live InMemorySubscription) : Prop where
  numbered : Numbered runId (live.store.events runId)
  following : Following cursor (live.store.events runId) live.subscription.yielded
    live.subscription.lastRead
  point : AtPoint cursor (live.store.events runId) live.subscription

theorem examine_invariant {runId : UUID} {cursor : Nat} {store : InMemoryEventStore}
    {s : InMemorySubscription} (hnumbered : Numbered runId (store.events runId))
    (hfollowing : Following cursor (store.events runId) s.yielded s.lastRead)
    (hbetween : Between cursor s.nextSequence s.yielded) :
    Invariant runId cursor ⟨store, s.examine (store.events runId)⟩ := by
  have hnext := hbetween.next
  have hreread := hfollowing.reread
  have hgiven : s.yielded <+: (store.events runId).drop cursor := ⟨_, hreread⟩
  unfold examine
  by_cases hshort : (store.events runId).length < s.nextSequence
  · simp only [if_pos hshort]
    split
    · rename_i hpermanent
      obtain ⟨event, hevent, hpermanent⟩ := List.any_eq_true.mp hpermanent
      refine ⟨hnumbered, ⟨List.prefix_refl _, hgiven⟩, .inr ⟨hbetween.quiet, ?_, ?_⟩⟩
      · have hle := hnumbered.sequence_le hevent
        have hposition : event.sequence ≤ cursor + s.yielded.length := by omega
        exact ⟨event, hevent, hpermanent, hposition⟩
      · show (store.events runId).length ≤ cursor + s.yielded.length
        omega
    · rename_i hnone
      refine ⟨hnumbered, ⟨List.prefix_refl _, hgiven⟩, hbetween, hshort, ?_⟩
      simpa using hnone
  · simp only [if_neg hshort]
    have hdrop : s.nextSequence - 1 = cursor + s.yielded.length := by omega
    rw [hdrop]
    cases hbatch : (store.events runId).drop (cursor + s.yielded.length) with
    | nil =>
      have hlength := List.drop_eq_nil_iff.mp hbatch
      omega
    | cons event rest =>
      rw [hbatch] at hreread
      refine ⟨hnumbered, ⟨List.prefix_refl _, ?_⟩, s.yielded, rfl, hbetween.quiet, hreread⟩
      exact ⟨rest, by simpa [deliver] using hreread⟩

theorem resume_invariant {runId : UUID} {cursor : Nat} {live : Live InMemorySubscription}
    (h : Invariant runId cursor live) : Invariant runId cursor (step runId live (.resume ())) := by
  obtain ⟨hnumbered, hfollowing, hpoint⟩ := h
  obtain ⟨store, s⟩ := live
  simp only [step, resume]
  simp only [AtPoint] at hpoint
  split
  · rename_i hlocking
    rw [hlocking] at hpoint
    exact examine_invariant hnumbered hfollowing hpoint
  · rename_i hwaiting
    rw [hwaiting] at hpoint
    exact examine_invariant hnumbered hfollowing hpoint
  · rename_i hwaiting
    refine ⟨hnumbered, hfollowing, ?_⟩
    simpa only [AtPoint, hwaiting] using hpoint
  · rename_i hended
    refine ⟨hnumbered, hfollowing, ?_⟩
    simpa only [AtPoint, hended] using hpoint
  · rename_i event rest hyielding
    rw [hyielding] at hpoint
    have hat : AtYield cursor s.yielded s.lastRead event rest := hpoint
    split
    · rename_i hboundary
      exact ⟨hnumbered, hfollowing, .inl (hat.boundary hboundary)⟩
    · rename_i hquiet
      have hquiet : event.boundary = false := by simpa using hquiet
      cases rest with
      | nil =>
        refine ⟨hnumbered, hfollowing, ?_, hat.quiet hquiet⟩
        show event.sequence + 1 = cursor + s.yielded.length + 1
        rw [hat.sequence (hnumbered.of_prefix hfollowing.read)]
      | cons following rest =>
        have hnext := hat.next hquiet
        exact ⟨hnumbered, ⟨hfollowing.read, hnext.given⟩, hnext⟩

theorem emit_invariant {runId : UUID} {cursor : Nat} {live : Live InMemorySubscription}
    (h : Invariant runId cursor live) (emission : Emission) :
    Invariant runId cursor (step runId live (.emit emission)) := by
  obtain ⟨hnumbered, hfollowing, hpoint⟩ := h
  obtain ⟨store, s⟩ := live
  have hnumbered' := store.numbered_emit emission runId hnumbered
  have hfollowing' := hfollowing.mono (store.prefix_emit emission runId)
  simp only [step, notify]
  simp only [AtPoint] at hpoint
  split
  · rename_i notified hwaiting
    rw [hwaiting] at hpoint
    refine ⟨hnumbered', hfollowing', ?_⟩
    cases notified with
    | true => exact hpoint
    | false => exact hpoint.1
  · rename_i hother
    refine ⟨hnumbered', hfollowing', ?_⟩
    simp only [AtPoint]
    split
    · rename_i hlocking
      rw [hlocking] at hpoint
      exact hpoint
    · rename_i hwaiting
      exact absurd hwaiting (hother true)
    · rename_i hwaiting
      exact absurd hwaiting (hother false)
    · rename_i hyielding
      rw [hyielding] at hpoint
      exact hpoint
    · rename_i hended
      rw [hended] at hpoint
      exact hpoint

theorem run_invariant {runId : UUID} {cursor : Nat} {live : Live InMemorySubscription}
    (h : Invariant runId cursor live) (actions : List (StreamAction Unit)) :
    Invariant runId cursor (actions.foldl (step runId) live) := by
  induction actions generalizing live with
  | nil => exact h
  | cons action actions ih =>
    cases action with
    | emit emission => exact ih (emit_invariant h emission)
    | resume reply => exact ih (resume_invariant h)

theorem start_invariant {afterSequence : Int} {s : InMemorySubscription}
    (h : start afterSequence = .ok s) (runId : UUID) :
    Invariant runId afterSequence.toNat ⟨{}, s⟩ := by
  unfold start firstSequence at h
  split at h
  · cases h
  · cases h
    exact ⟨⟨by simp, rfl⟩, ⟨List.prefix_refl _, by simp⟩, ⟨rfl, by simp [Quiet]⟩⟩

/-- After a boundary the subscription hands out nothing more and ends. -/
theorem Invariant.boundary {runId : UUID} {cursor : Nat} {live : Live InMemorySubscription}
    (h : Invariant runId cursor live) {before after : List RuntimeEvent} {event : RuntimeEvent}
    (hyielded : live.subscription.yielded = before ++ event :: after)
    (hboundary : event.boundary = true) (events : List RuntimeEvent) :
    after = [] ∧ (live.subscription.resume events).point = .ended := by
  have hpoint := h.point
  have hnot : ¬ Quiet live.subscription.yielded := by
    intro hquiet
    rw [hquiet.no_boundary hyielded] at hboundary
    cases hboundary
  simp only [AtPoint] at hpoint
  simp only [resume]
  split at hpoint
  · exact absurd hpoint.quiet hnot
  · exact absurd hpoint.quiet hnot
  · exact absurd hpoint.1.quiet hnot
  · rename_i last rest hyielding
    obtain ⟨quiet, hlast, hquiet, -⟩ := hpoint
    obtain ⟨hafter, rfl⟩ := boundary_last hquiet (hlast ▸ hyielded) hboundary
    simp [hyielding, hboundary, hafter]
  · rename_i hended
    cases hpoint with
    | inl hat =>
      obtain ⟨quiet, last, hlast, -, hquiet⟩ := hat
      obtain ⟨hafter, -⟩ := boundary_last hquiet (hlast ▸ hyielded) hboundary
      simp [hended, hafter]
    | inr hpast => exact absurd hpast.1 hnot

end InMemorySubscription

/-! ## The Redis subscription along a run -/

namespace RedisSubscription

/-- What holds at each point.  A connection is closed after a boundary, or past the end. -/
def AtPoint (cursor : Nat) (s : RedisSubscription) : Prop :=
  match s.point with
  | .listing _ | .opening | .awaiting | .sleeping => Between cursor s.nextSequence s.yielded
  | .yielding _ event rest => AtYield cursor s.yielded s.lastRead event rest
  | .closing =>
    AtBoundary s.yielded ∨
      (PastEnd cursor s.yielded s.lastRead ∧ Between cursor s.nextSequence s.yielded)
  | .ended => AtBoundary s.yielded ∨ PastEnd cursor s.yielded s.lastRead

structure Invariant (runId : UUID) (cursor : Nat) (live : Live RedisSubscription) : Prop where
  numbered : Numbered runId (live.store.events runId)
  following : Following cursor (live.store.events runId) live.subscription.yielded
    live.subscription.lastRead
  point : AtPoint cursor live.subscription

/-- Closing the connection after a boundary raises `RedisError`. -/
def abandons (s : RedisSubscription) (failed : Bool) : Bool :=
  match s.point with
  | .closing => failed && (s.yielded.getLast?.map (·.boundary)).getD false
  | _ => false

/-- The connection of the subscription can be closed after a boundary. -/
def clean (s : RedisSubscription) : StreamAction Bool → Bool
  | .emit _ => true
  | .resume failed => !s.abandons failed

def cleanRun (runId : UUID) (live : Live RedisSubscription) : List (StreamAction Bool) → Bool
  | [] => true
  | action :: actions =>
    live.subscription.clean action && cleanRun runId (step runId live action) actions

theorem leave_point {cursor : Nat} {s : RedisSubscription} (connected : Bool)
    (h : AtBoundary s.yielded ∨
      (PastEnd cursor s.yielded s.lastRead ∧ Between cursor s.nextSequence s.yielded)) :
    AtPoint cursor (s.leave connected) := by
  cases connected with
  | true => exact h
  | false => exact h.imp_right And.left

/-- The rest of the batch is handed out, or the subscription sees whether to go on. -/
theorem deliver_invariant {runId : UUID} {cursor : Nat} {store : InMemoryEventStore}
    {s : RedisSubscription} (connected : Bool) {batch : List RuntimeEvent}
    (hnumbered : Numbered runId (store.events runId))
    (hread : s.lastRead <+: store.events runId) (hbetween : Between cursor s.nextSequence s.yielded)
    (hbatch : s.yielded ++ batch = s.lastRead.drop cursor) :
    Invariant runId cursor ⟨store, s.deliver connected batch⟩ := by
  cases batch with
  | cons event rest =>
    have hat : AtYield cursor (s.yielded ++ [event]) s.lastRead event rest :=
      ⟨s.yielded, rfl, hbetween.quiet, hbatch⟩
    exact ⟨hnumbered, ⟨hread, hat.given⟩, hat⟩
  | nil =>
    have hgiven : s.yielded <+: s.lastRead.drop cursor := ⟨[], hbatch⟩
    have hlength : s.lastRead.length ≤ cursor + s.yielded.length := by
      have hcount := congrArg List.length hbatch
      simp only [List.append_nil, List.length_drop] at hcount
      omega
    simp only [deliver]
    split
    · rename_i hpermanent
      obtain ⟨event, hevent, hpermanent⟩ := List.any_eq_true.mp hpermanent
      have hposition : event.sequence ≤ cursor + s.yielded.length :=
        ((hnumbered.of_prefix hread).sequence_le hevent).trans hlength
      refine ⟨hnumbered, ⟨hread, hgiven⟩, leave_point connected (.inr ⟨?_, hbetween⟩)⟩
      exact ⟨hbetween.quiet, ⟨event, hevent, hpermanent, hposition⟩, hlength⟩
    · refine ⟨hnumbered, ⟨hread, hgiven⟩, ?_⟩
      cases connected <;> exact hbetween

theorem resume_invariant {runId : UUID} {cursor : Nat} {live : Live RedisSubscription}
    (h : Invariant runId cursor live) {failed : Bool}
    (hclean : live.subscription.abandons failed = false) :
    Invariant runId cursor (step runId live (.resume failed)) := by
  obtain ⟨hnumbered, hfollowing, hpoint⟩ := h
  obtain ⟨store, s⟩ := live
  simp only [step, resume]
  simp only [AtPoint] at hpoint
  split
  · rename_i connected hlisting
    rw [hlisting] at hpoint
    have hbetween : Between cursor s.nextSequence s.yielded := hpoint
    have hfilter : ((store.events runId).filter fun event => s.nextSequence ≤ event.sequence) =
        (store.events runId).drop (cursor + s.yielded.length) := by
      rw [hbetween.next]
      exact hnumbered.filter_eq_drop _
    rw [hfilter]
    exact deliver_invariant connected hnumbered (List.prefix_refl _) hbetween hfollowing.reread
  · rename_i connected event rest hyielding
    rw [hyielding] at hpoint
    have hat : AtYield cursor s.yielded s.lastRead event rest := hpoint
    split
    · rename_i hboundary
      refine ⟨hnumbered, hfollowing, leave_point connected (.inl ?_)⟩
      exact hat.boundary hboundary
    · rename_i hquiet
      have hquiet : event.boundary = false := by simpa using hquiet
      refine deliver_invariant connected hnumbered hfollowing.read ⟨?_, hat.quiet hquiet⟩ ?_
      · show event.sequence + 1 = cursor + s.yielded.length + 1
        rw [hat.sequence (hnumbered.of_prefix hfollowing.read)]
      · obtain ⟨before, hyielded, -, hread⟩ := hat
        show s.yielded ++ rest = s.lastRead.drop cursor
        rw [hyielded, ← hread]
        simp
  · rename_i hopening
    rw [hopening] at hpoint
    refine ⟨hnumbered, hfollowing, ?_⟩
    cases failed <;> exact hpoint
  · rename_i hawaiting
    rw [hawaiting] at hpoint
    refine ⟨hnumbered, hfollowing, ?_⟩
    cases failed <;> exact hpoint
  · rename_i hclosing
    rw [hclosing] at hpoint
    refine ⟨hnumbered, hfollowing, ?_⟩
    cases failed with
    | false =>
      have hended : AtBoundary s.yielded ∨ PastEnd cursor s.yielded s.lastRead :=
        hpoint.imp_right And.left
      exact hended
    | true =>
      cases hpoint with
      | inl hat =>
        obtain ⟨before, event, hyielded, hboundary, -⟩ := hat
        simp [abandons, hclosing, hyielded, hboundary] at hclean
      | inr hpast => exact hpast.2
  · rename_i hsleeping
    rw [hsleeping] at hpoint
    exact ⟨hnumbered, hfollowing, hpoint⟩
  · rename_i hended
    refine ⟨hnumbered, hfollowing, ?_⟩
    simpa only [AtPoint, hended] using hpoint

theorem emit_invariant {runId : UUID} {cursor : Nat} {live : Live RedisSubscription}
    (h : Invariant runId cursor live) (emission : Emission) :
    Invariant runId cursor (step runId live (.emit emission)) :=
  ⟨live.store.numbered_emit emission runId h.numbered,
    h.following.mono (live.store.prefix_emit emission runId), h.point⟩

theorem run_invariant {runId : UUID} {cursor : Nat} {live : Live RedisSubscription}
    (h : Invariant runId cursor live) {actions : List (StreamAction Bool)}
    (hclean : cleanRun runId live actions = true) :
    Invariant runId cursor (actions.foldl (step runId) live) := by
  induction actions generalizing live with
  | nil => exact h
  | cons action actions ih =>
    simp only [cleanRun, Bool.and_eq_true] at hclean
    cases action with
    | emit emission => exact ih (emit_invariant h emission) hclean.2
    | resume failed =>
      have hstep := hclean.1
      simp only [clean, Bool.not_eq_true'] at hstep
      exact ih (resume_invariant h hstep) hclean.2

theorem start_invariant {afterSequence : Int} {s : RedisSubscription}
    (h : start afterSequence = .ok s) (runId : UUID) :
    Invariant runId afterSequence.toNat ⟨{}, s⟩ := by
  unfold start firstSequence at h
  split at h
  · cases h
  · cases h
    exact ⟨⟨by simp, rfl⟩, ⟨List.prefix_refl _, by simp⟩, ⟨rfl, by simp [Quiet]⟩⟩

/-- After a boundary the subscription hands out nothing more, closes its connection and
ends. -/
theorem Invariant.boundary {runId : UUID} {cursor : Nat} {live : Live RedisSubscription}
    (h : Invariant runId cursor live) {before after : List RuntimeEvent} {event : RuntimeEvent}
    (hyielded : live.subscription.yielded = before ++ event :: after)
    (hboundary : event.boundary = true) (events later : List RuntimeEvent) :
    after = [] ∧ ((live.subscription.resume false events).resume false later).point = .ended := by
  have hpoint := h.point
  have hnot : ¬ Quiet live.subscription.yielded := by
    intro hquiet
    rw [hquiet.no_boundary hyielded] at hboundary
    cases hboundary
  have hlast : AtBoundary live.subscription.yielded → after = [] := by
    intro hat
    obtain ⟨quiet, last, hlast, -, hquiet⟩ := hat
    exact (boundary_last hquiet (hlast ▸ hyielded) hboundary).1
  simp only [AtPoint] at hpoint
  split at hpoint
  · exact absurd hpoint.quiet hnot
  · exact absurd hpoint.quiet hnot
  · exact absurd hpoint.quiet hnot
  · exact absurd hpoint.quiet hnot
  · rename_i connected last rest hyielding
    obtain ⟨quiet, hlast, hquiet, -⟩ := hpoint
    obtain ⟨hafter, rfl⟩ := boundary_last hquiet (hlast ▸ hyielded) hboundary
    refine ⟨hafter, ?_⟩
    cases connected <;> simp [resume, hyielding, hboundary, leave]
  · rename_i hclosing
    cases hpoint with
    | inl hat => exact ⟨hlast hat, by simp [resume, hclosing]⟩
    | inr hpast => exact absurd hpast.1.1 hnot
  · rename_i hended
    cases hpoint with
    | inl hat => exact ⟨hlast hat, by simp [resume, hended]⟩
    | inr hpast => exact absurd hpast.1 hnot

end RedisSubscription

/-- What an in-memory subscriber can rely on: it is given the events after its cursor, the
stream ends right after the first boundary, and it ends without one only past a permanent
boundary.  It sleeps only when it has been given everything. -/
structure InMemorySubscription.Sound (runId : UUID) (cursor : Nat)
    (live : Live InMemorySubscription) : Prop where
  stream : ExactStream runId cursor (live.store.events runId) live.subscription.yielded
  boundary : ∀ before event after, live.subscription.yielded = before ++ event :: after →
    event.boundary = true →
      after = [] ∧ ∀ events, (live.subscription.resume events).point = .ended
  ended : live.subscription.point = .ended →
    AtBoundary live.subscription.yielded ∨
      PastEnd cursor live.subscription.yielded live.subscription.lastRead
  asleep : live.subscription.point = .waiting false →
    live.subscription.yielded = (live.store.events runId).drop cursor

/-- The same for Redis.  After a boundary the connection is closed on the way to the end. -/
structure RedisSubscription.Sound (runId : UUID) (cursor : Nat)
    (live : Live RedisSubscription) : Prop where
  stream : ExactStream runId cursor (live.store.events runId) live.subscription.yielded
  boundary : ∀ before event after, live.subscription.yielded = before ++ event :: after →
    event.boundary = true →
      after = [] ∧
        ∀ events later, ((live.subscription.resume false events).resume false later).point = .ended
  ended : live.subscription.point = .ended →
    AtBoundary live.subscription.yielded ∨
      PastEnd cursor live.subscription.yielded live.subscription.lastRead

theorem InMemorySubscription.Invariant.sound {runId : UUID} {cursor : Nat}
    {live : Live InMemorySubscription} (h : Invariant runId cursor live) :
    Sound runId cursor live where
  stream := h.following.exactStream h.numbered
  boundary := by
    intro before event after hyielded hboundary
    have hafter := (h.boundary hyielded hboundary []).1
    exact ⟨hafter, fun events => (h.boundary hyielded hboundary events).2⟩
  ended := by
    intro hended
    have hpoint := h.point
    simpa only [AtPoint, hended] using hpoint
  asleep := by
    intro hasleep
    have hpoint := h.point
    simp only [AtPoint, hasleep] at hpoint
    obtain ⟨hbetween, hlength, -⟩ := hpoint
    have hreread := h.following.reread
    rw [hbetween.next] at hlength
    rw [List.drop_eq_nil_of_le (by omega), List.append_nil] at hreread
    exact hreread

theorem RedisSubscription.Invariant.sound {runId : UUID} {cursor : Nat}
    {live : Live RedisSubscription} (h : Invariant runId cursor live) :
    Sound runId cursor live where
  stream := h.following.exactStream h.numbered
  boundary := by
    intro before event after hyielded hboundary
    have hafter := (h.boundary hyielded hboundary [] []).1
    exact ⟨hafter, fun events later => (h.boundary hyielded hboundary events later).2⟩
  ended := by
    intro hended
    have hpoint := h.point
    simpa only [AtPoint, hended] using hpoint

/-- Along every interleaving of emits with one subscriber, both subscriptions are sound.  For
Redis this takes that the connection can be closed after a boundary; every other failure is
harmless. -/
theorem subscriptions_exact (runId : UUID) (afterSequence : Int) :
    (∀ (s : InMemorySubscription) (actions : List (StreamAction Unit)),
      InMemorySubscription.start afterSequence = .ok s →
      InMemorySubscription.Sound runId afterSequence.toNat
        (actions.foldl (InMemorySubscription.step runId) ⟨{}, s⟩)) ∧
    (∀ (s : RedisSubscription) (actions : List (StreamAction Bool)),
      RedisSubscription.start afterSequence = .ok s →
      RedisSubscription.cleanRun runId ⟨{}, s⟩ actions = true →
      RedisSubscription.Sound runId afterSequence.toNat
        (actions.foldl (RedisSubscription.step runId) ⟨{}, s⟩)) := by
  constructor
  · intro s actions hstart
    have hinvariant := InMemorySubscription.start_invariant hstart runId
    exact (InMemorySubscription.run_invariant hinvariant actions).sound
  · intro s actions hstart hclean
    have hinvariant := RedisSubscription.start_invariant hstart runId
    exact (RedisSubscription.run_invariant hinvariant hclean).sound

def emitted (type : EventType) : StreamAction Bool := .emit ⟨0, 0, 1, type, []⟩

/-- A subscriber replays, connects, is given the waiting boundary over the connection and
closes it.  `failed` says how that goes.  Afterwards the Run goes on. -/
def waitingActions (failed : Bool) : List (StreamAction Bool) :=
  [emitted .runCreated, .resume false, .resume false, .resume false, .resume false,
    emitted .runWaiting, .resume false, .resume false, .resume false, .resume failed,
    emitted .runResumed, .resume false, .resume false]

def waitingStream (failed : Bool) : Live RedisSubscription :=
  (waitingActions failed).foldl (RedisSubscription.step 1) ⟨{}, { nextSequence := 1 }⟩

/-- The connection closes, and the stream ends at the boundary. -/
theorem subscriptions_exact_waiting :
    RedisSubscription.cleanRun 1 ⟨{}, { nextSequence := 1 }⟩ (waitingActions false) = true ∧
    ((waitingStream false).store.events 1).map (·.type) =
      [.runCreated, .runWaiting, .runResumed] ∧
    (waitingStream false).subscription.yielded.map (·.type) = [.runCreated, .runWaiting] ∧
    (AtBoundary (waitingStream false).subscription.yielded ∨
      PastEnd 0 (waitingStream false).subscription.yielded
        (waitingStream false).subscription.lastRead) :=
  ⟨by decide, by decide, by decide,
    ((subscriptions_exact 1 0).2 { nextSequence := 1 } (waitingActions false) rfl
      (by decide)).ended rfl⟩

/-- Closing the connection times out.  The subscription goes on behind the boundary. -/
theorem unclosed_connection_passes_boundary :
    RedisSubscription.start 0 = .ok { nextSequence := 1 } ∧
    (waitingStream true).subscription.yielded.map (fun event => (event.type, event.boundary)) =
      [(.runCreated, false), (.runWaiting, true), (.runResumed, false)] :=
  ⟨rfl, by decide⟩

end Runtime
end BaseAgent

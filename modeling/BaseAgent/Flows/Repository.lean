import BaseAgent.Flows.Lifecycle
import Mathlib.Logic.Function.Basic

/-!
# The in-memory Flow repository

`InMemoryFlowRepository` stores one snapshot, one ordered event list and at most
one lease record for each Flow Run.  Every operation holds the repository's lock
from its first check to its last write and awaits nothing in between, so an
operation is one function from a repository to an outcome and the repository it
leaves.  The repository is returned also when the operation raises: that a
rejected operation wrote nothing is proved, not built in.

The lemmas of this file are what the rest of the development knows about the
repository.  Each operation has one lemma for the case that it raises and one for
the case that it is accepted.
-/

namespace BaseAgent
namespace Flows

structure FlowExecutionLease where
  runId : UUID
  token : UUID
  ownerId : String
  attempt : Nat
  acquiredAt : Time
  heartbeatAt : Time
  expiresAt : Time
  deriving DecidableEq, Repr

namespace FlowExecutionLease

def isExpired (lease : FlowExecutionLease) (now : Time) : Bool := decide (lease.expiresAt ≤ now)

def renewed (lease : FlowExecutionLease) (now : Time) (ttlSeconds : ℚ) : FlowExecutionLease :=
  { lease with heartbeatAt := now, expiresAt := now + timedelta ttlSeconds }

end FlowExecutionLease

structure FlowEventDraft where
  type : EventType
  data : List (String × JsonValue) := []
  deriving Repr

structure RuntimeEvent where
  runId : UUID
  sequence : Nat
  type : EventType
  data : List (String × JsonValue)
  deriving Repr

def materializeEvents (runId : UUID) : List FlowEventDraft → Nat → List RuntimeEvent
  | [], _ => []
  | draft :: rest, start =>
    { runId := runId, sequence := start, type := draft.type, data := draft.data } ::
      materializeEvents runId rest (start + 1)

def validateLeaseArguments (ownerId : String) (ttlSeconds : ℚ) : Except FlowError Unit :=
  if isBlank ownerId then .error (.value "Flow lease owner_id must not be blank")
  else if ownerId.length > 256 then
    .error (.value "Flow lease owner_id must not exceed 256 characters")
  else if ttlSeconds ≤ 0 then
    .error (.value "Flow lease ttl_seconds must be greater than zero")
  else .ok ()

def validateFlowReplacement (current replacement : FlowRunState) (expectedRevision : Nat) :
    Except FlowError Unit :=
  if current.revision ≠ expectedRevision then
    .error (.revisionConflict (s!"Flow Run '{uuidText current.runId}' revision conflict: " ++
      s!"expected {expectedRevision}, found {current.revision}"))
  else if replacement.runId ≠ current.runId then
    .error (.value "committed Flow Run changed its run_id")
  else if replacement.revision ≠ expectedRevision + 1 then
    .error (.value ("committed Flow Run revision must be exactly one greater " ++
      "than expected_revision"))
  else if replacement.definitionId ≠ current.definitionId ∨
      replacement.definitionVersion ≠ current.definitionVersion ∨
      replacement.definitionFingerprint ≠ current.definitionFingerprint ∨
      replacement.budget ≠ current.budget ∨ replacement.deadlineAt ≠ current.deadlineAt ∨
      replacement.createdAt ≠ current.createdAt then
    .error (.value "committed Flow Run changed immutable identity")
  else .ok ()

structure InMemoryFlowRepository where
  states : UUID → Option FlowRunState := fun _ => none
  events : UUID → List RuntimeEvent := fun _ => []
  leases : UUID → Option (FlowExecutionLease × Bool) := fun _ => none

namespace InMemoryFlowRepository

def notFound (runId : UUID) : FlowError :=
  .notFound s!"Flow Run '{uuidText runId}' was not found"

def write (r : InMemoryFlowRepository) (state : FlowRunState) (added : List RuntimeEvent) :
    InMemoryFlowRepository :=
  { r with
    states := Function.update r.states state.runId (some state)
    events := Function.update r.events state.runId (r.events state.runId ++ added) }

def extend (r : InMemoryFlowRepository) (runId : UUID) (added : List RuntimeEvent) :
    InMemoryFlowRepository :=
  { r with events := Function.update r.events runId (r.events runId ++ added) }

def setLease (r : InMemoryFlowRepository) (runId : UUID) (lease : FlowExecutionLease)
    (active : Bool) : InMemoryFlowRepository :=
  { r with leases := Function.update r.leases runId (some (lease, active)) }

def persisted (r : InMemoryFlowRepository) (runId : UUID) (drafts : List FlowEventDraft) :
    List RuntimeEvent :=
  materializeEvents runId drafts ((r.events runId).length + 1)

def create (r : InMemoryFlowRepository) (state : FlowRunState) (drafts : List FlowEventDraft) :
    Except FlowError (List RuntimeEvent) × InMemoryFlowRepository :=
  if state.revision ≠ 1 then (.error (.value "a new Flow Run must start at revision 1"), r)
  else if drafts.isEmpty then
    (.error (.value "creating a Flow Run requires at least one event"), r)
  else
    match r.states state.runId with
    | some _ =>
      (.error (.alreadyExists s!"Flow Run '{uuidText state.runId}' already exists"), r)
    | none =>
      let persisted := materializeEvents state.runId drafts 1
      (.ok persisted,
        { r with
          states := Function.update r.states state.runId (some state)
          events := Function.update r.events state.runId persisted })

def get (r : InMemoryFlowRepository) (runId : UUID) :
    Except FlowError FlowRunState × InMemoryFlowRepository :=
  match r.states runId with
  | some state => (.ok state, r)
  | none => (.error (notFound runId), r)

/-- `_validate_execution_token`.  A Run that was never leased accepts writes
without a token only. -/
def validateExecutionToken (r : InMemoryFlowRepository) (runId : UUID) (token : Option UUID)
    (now : Time) : Except FlowError Unit :=
  match r.leases runId with
  | none =>
    if token.isSome then
      .error (.leaseLost s!"Flow Run '{uuidText runId}' has no execution lease")
    else .ok ()
  | some (lease, active) =>
    if token = none ∨ active = false ∨ some lease.token ≠ token ∨ lease.isExpired now = true then
      .error (.leaseLost s!"Flow execution lease for '{uuidText runId}' is not valid")
    else .ok ()

def commit (r : InMemoryFlowRepository) (now : Time) (state : FlowRunState)
    (expectedRevision : Nat) (drafts : List FlowEventDraft) (token : Option UUID) :
    Except FlowError (List RuntimeEvent) × InMemoryFlowRepository :=
  if drafts.isEmpty then
    (.error (.value "committing a Flow Run requires at least one event"), r)
  else
    match r.states state.runId with
    | none => (.error (notFound state.runId), r)
    | some current =>
      match r.validateExecutionToken state.runId token now with
      | .error e => (.error e, r)
      | .ok () =>
        match validateFlowReplacement current state expectedRevision with
        | .error e => (.error e, r)
        | .ok () =>
          let added := r.persisted state.runId drafts
          (.ok added, r.write state added)

def appendEvents (r : InMemoryFlowRepository) (now : Time) (runId : UUID)
    (expectedRevision : Nat) (drafts : List FlowEventDraft) (token : Option UUID) :
    Except FlowError (List RuntimeEvent) × InMemoryFlowRepository :=
  if drafts.isEmpty then
    (.error (.value "appending Flow events requires at least one event"), r)
  else
    match r.states runId with
    | none => (.error (notFound runId), r)
    | some current =>
      match r.validateExecutionToken runId token now with
      | .error e => (.error e, r)
      | .ok () =>
        if current.revision ≠ expectedRevision then
          (.error (.revisionConflict (s!"Flow Run '{uuidText runId}' revision conflict: " ++
            s!"expected {expectedRevision}, found {current.revision}")), r)
        else
          let added := r.persisted runId drafts
          (.ok added, r.extend runId added)

/-- `events` of a Run. -/
def listEvents (r : InMemoryFlowRepository) (runId : UUID) :
    Except FlowError (List RuntimeEvent) × InMemoryFlowRepository :=
  match r.states runId with
  | some _ => (.ok (r.events runId), r)
  | none => (.error (notFound runId), r)

/-- The lease an accepted acquisition grants, `token` being the fresh `uuid4()`. -/
def grantedLease (r : InMemoryFlowRepository) (now : Time) (token runId : UUID)
    (ownerId : String) (ttlSeconds : ℚ) : FlowExecutionLease :=
  { runId := runId
    token := token
    ownerId := ownerId
    attempt := match r.leases runId with
      | some (prior, _) => prior.attempt + 1
      | none => 1
    acquiredAt := now
    heartbeatAt := now
    expiresAt := now + timedelta ttlSeconds }

def acquireExecution (r : InMemoryFlowRepository) (now : Time) (token runId : UUID)
    (ownerId : String) (ttlSeconds : ℚ) :
    Except FlowError FlowExecutionLease × InMemoryFlowRepository :=
  match validateLeaseArguments ownerId ttlSeconds with
  | .error e => (.error e, r)
  | .ok () =>
    match r.states runId with
    | none => (.error (notFound runId), r)
    | some state =>
      if state.status.terminal then
        (.error (.leaseUnavailable
          s!"terminal Flow Run '{uuidText runId}' cannot be claimed"), r)
      else
        match r.leases runId with
        | some (prior, true) =>
          if prior.isExpired now then
            let lease := r.grantedLease now token runId ownerId ttlSeconds
            (.ok lease, r.setLease runId lease true)
          else
            (.error (.leaseUnavailable
              s!"Flow Run '{uuidText runId}' is leased by '{prior.ownerId}'"), r)
        | _ =>
          let lease := r.grantedLease now token runId ownerId ttlSeconds
          (.ok lease, r.setLease runId lease true)

def requireLease (r : InMemoryFlowRepository) (runId : UUID) :
    Except FlowError (FlowExecutionLease × Bool) :=
  match r.leases runId with
  | some stored => .ok stored
  | none => .error (.leaseLost s!"Flow Run '{uuidText runId}' has no execution lease")

def lost (runId : UUID) : FlowError :=
  .leaseLost s!"Flow execution lease for '{uuidText runId}' was lost"

/-- A renewal rewrites the stored lease, not the copy the worker holds. -/
def renewExecution (r : InMemoryFlowRepository) (now : Time) (lease : FlowExecutionLease)
    (ttlSeconds : ℚ) : Except FlowError FlowExecutionLease × InMemoryFlowRepository :=
  match validateLeaseArguments lease.ownerId ttlSeconds with
  | .error e => (.error e, r)
  | .ok () =>
    match r.requireLease lease.runId with
    | .error e => (.error e, r)
    | .ok (current, active) =>
      if active = false ∨ current.token ≠ lease.token ∨ current.isExpired now = true then
        (.error (lost lease.runId), r)
      else
        let renewed := current.renewed now ttlSeconds
        (.ok renewed, r.setLease lease.runId renewed true)

def releaseExecution (r : InMemoryFlowRepository) (lease : FlowExecutionLease) :
    Except FlowError Unit × InMemoryFlowRepository :=
  match r.requireLease lease.runId with
  | .error e => (.error e, r)
  | .ok (current, active) =>
    if current.token ≠ lease.token then (.error (lost lease.runId), r)
    else if active then (.ok (), r.setLease lease.runId current false)
    else (.ok (), r)

/-! ## What each operation can do -/

/-- The fields a commit may not change. -/
def SameIdentity (a b : FlowRunState) : Prop :=
  a.definitionId = b.definitionId ∧ a.definitionVersion = b.definitionVersion ∧
    a.definitionFingerprint = b.definitionFingerprint ∧ a.budget = b.budget ∧
    a.deadlineAt = b.deadlineAt ∧ a.createdAt = b.createdAt

theorem validateFlowReplacement_ok {current replacement : FlowRunState} {expected : Nat}
    (h : validateFlowReplacement current replacement expected = .ok ()) :
    current.revision = expected ∧ replacement.runId = current.runId ∧
      replacement.revision = expected + 1 ∧ SameIdentity replacement current := by
  unfold validateFlowReplacement at h
  split at h
  · cases h
  · split at h
    · cases h
    · split at h
      · cases h
      · split at h
        · cases h
        · rename_i h₁ h₂ h₃ h₄
          simp only [not_or, not_not] at h₁ h₂ h₃ h₄
          exact ⟨h₁, h₂, h₃, h₄⟩

theorem create_cases (r : InMemoryFlowRepository) (state : FlowRunState)
    (drafts : List FlowEventDraft) :
    (∃ e, r.create state drafts = (.error e, r)) ∨
    (state.revision = 1 ∧ drafts ≠ [] ∧ r.states state.runId = none ∧
      r.create state drafts = (.ok (materializeEvents state.runId drafts 1),
        { r with
          states := Function.update r.states state.runId (some state)
          events := Function.update r.events state.runId
            (materializeEvents state.runId drafts 1) })) := by
  unfold create
  by_cases hrev : state.revision = 1
  · by_cases hd : drafts = []
    · exact .inl ⟨_, by simp [hrev, hd]; rfl⟩
    · cases hs : r.states state.runId with
      | none => exact .inr ⟨hrev, hd, rfl, by simp [hrev, hd]⟩
      | some current => exact .inl ⟨_, by simp [hrev, hd]; rfl⟩
  · exact .inl ⟨_, by simp [hrev]; rfl⟩

theorem get_cases (r : InMemoryFlowRepository) (runId : UUID) :
    (r.states runId = none ∧ r.get runId = (.error (notFound runId), r)) ∨
    (∃ state, r.states runId = some state ∧ r.get runId = (.ok state, r)) := by
  unfold get
  cases hs : r.states runId with
  | none => exact .inl ⟨rfl, rfl⟩
  | some state => exact .inr ⟨state, rfl, rfl⟩

theorem commit_cases (r : InMemoryFlowRepository) (now : Time) (state : FlowRunState)
    (expected : Nat) (drafts : List FlowEventDraft) (token : Option UUID) :
    (∃ e, r.commit now state expected drafts token = (.error e, r)) ∨
    (∃ current, r.states state.runId = some current ∧ drafts ≠ [] ∧
      r.validateExecutionToken state.runId token now = .ok () ∧
      validateFlowReplacement current state expected = .ok () ∧
      r.commit now state expected drafts token =
        (.ok (r.persisted state.runId drafts),
          r.write state (r.persisted state.runId drafts))) := by
  unfold commit
  by_cases hd : drafts = []
  · exact .inl ⟨_, by simp [hd]; rfl⟩
  · cases hs : r.states state.runId with
    | none => exact .inl ⟨_, by simp [hd]; rfl⟩
    | some current =>
      cases ht : r.validateExecutionToken state.runId token now with
      | error e => exact .inl ⟨e, by simp [hd]⟩
      | ok u =>
        cases hv : validateFlowReplacement current state expected with
        | error e => exact .inl ⟨e, by simp [hd, hv]⟩
        | ok v => exact .inr ⟨current, rfl, hd, rfl, hv, by simp [hd, hv]⟩

theorem appendEvents_cases (r : InMemoryFlowRepository) (now : Time) (runId : UUID)
    (expected : Nat) (drafts : List FlowEventDraft) (token : Option UUID) :
    (∃ e, r.appendEvents now runId expected drafts token = (.error e, r)) ∨
    (∃ current, r.states runId = some current ∧ drafts ≠ [] ∧
      r.validateExecutionToken runId token now = .ok () ∧ current.revision = expected ∧
      r.appendEvents now runId expected drafts token =
        (.ok (r.persisted runId drafts), r.extend runId (r.persisted runId drafts))) := by
  unfold appendEvents
  by_cases hd : drafts = []
  · exact .inl ⟨_, by simp [hd]; rfl⟩
  · cases hs : r.states runId with
    | none => exact .inl ⟨_, by simp [hd]; rfl⟩
    | some current =>
      cases ht : r.validateExecutionToken runId token now with
      | error e => exact .inl ⟨e, by simp [hd]⟩
      | ok u =>
        by_cases hrev : current.revision = expected
        · exact .inr ⟨current, rfl, hd, rfl, hrev, by simp [hd, hrev]⟩
        · exact .inl ⟨_, by simp [hd, hrev]; rfl⟩

theorem acquireExecution_cases (r : InMemoryFlowRepository) (now : Time) (token runId : UUID)
    (ownerId : String) (ttlSeconds : ℚ) :
    (∃ e, r.acquireExecution now token runId ownerId ttlSeconds = (.error e, r)) ∨
    (∃ state, r.states runId = some state ∧ state.status.terminal = false ∧
      (∀ prior, r.leases runId = some (prior, true) → prior.isExpired now = true) ∧
      r.acquireExecution now token runId ownerId ttlSeconds =
        (.ok (r.grantedLease now token runId ownerId ttlSeconds),
          r.setLease runId (r.grantedLease now token runId ownerId ttlSeconds) true)) := by
  unfold acquireExecution
  cases ha : validateLeaseArguments ownerId ttlSeconds with
  | error e => exact .inl ⟨e, rfl⟩
  | ok u =>
    cases hs : r.states runId with
    | none => exact .inl ⟨_, rfl⟩
    | some state =>
      cases hterm : state.status.terminal with
      | true => exact .inl ⟨_, by simp [hterm]; rfl⟩
      | false =>
        cases hl : r.leases runId with
        | none => exact .inr ⟨state, rfl, hterm, by simp, by simp [hterm]⟩
        | some stored =>
          obtain ⟨prior, active⟩ := stored
          cases active with
          | false => exact .inr ⟨state, rfl, hterm, by simp, by simp [hterm]⟩
          | true =>
            cases hx : prior.isExpired now with
            | false => exact .inl ⟨_, by simp [hterm, hx]; rfl⟩
            | true => exact .inr ⟨state, rfl, hterm, by simp [hx], by simp [hterm, hx]⟩

theorem renewExecution_cases (r : InMemoryFlowRepository) (now : Time)
    (lease : FlowExecutionLease) (ttlSeconds : ℚ) :
    (∃ e, r.renewExecution now lease ttlSeconds = (.error e, r)) ∨
    (∃ current, r.leases lease.runId = some (current, true) ∧ current.token = lease.token ∧
      current.isExpired now = false ∧
      r.renewExecution now lease ttlSeconds =
        (.ok (current.renewed now ttlSeconds),
          r.setLease lease.runId (current.renewed now ttlSeconds) true)) := by
  unfold renewExecution requireLease
  cases ha : validateLeaseArguments lease.ownerId ttlSeconds with
  | error e => exact .inl ⟨e, rfl⟩
  | ok u =>
    cases hl : r.leases lease.runId with
    | none => exact .inl ⟨_, rfl⟩
    | some stored =>
      obtain ⟨current, active⟩ := stored
      by_cases hbad : active = false ∨ current.token ≠ lease.token ∨ current.isExpired now = true
      · exact .inl ⟨_, by simp only [if_pos hbad]; rfl⟩
      · have hgood := hbad
        simp only [not_or, not_not, Bool.not_eq_false, Bool.not_eq_true] at hgood
        obtain ⟨rfl, htok, hx⟩ := hgood
        exact .inr ⟨current, rfl, htok, hx, by simp only [if_neg hbad]⟩

theorem releaseExecution_cases (r : InMemoryFlowRepository) (lease : FlowExecutionLease) :
    (∃ e, r.releaseExecution lease = (.error e, r)) ∨
    (∃ current active, r.leases lease.runId = some (current, active) ∧
      current.token = lease.token ∧
      r.releaseExecution lease = (.ok (), r.setLease lease.runId current false)) := by
  unfold releaseExecution requireLease
  cases hl : r.leases lease.runId with
  | none => exact .inl ⟨_, rfl⟩
  | some stored =>
    obtain ⟨current, active⟩ := stored
    by_cases htok : current.token = lease.token
    · cases active with
      | true => exact .inr ⟨current, true, rfl, htok, by simp [htok]⟩
      | false =>
        have hsame : r.setLease lease.runId current false = r := by
          rw [setLease, ← hl, Function.update_eq_self]
        exact .inr ⟨current, false, rfl, htok, by simp [htok, hsame]⟩
    · exact .inl ⟨_, by simp only [ne_eq, htok, not_false_eq_true, if_true]; rfl⟩

/-- A token is accepted for a Run exactly when it is that of the active, unexpired
lease, or when there is no token and the Run was never leased. -/
theorem validateExecutionToken_ok {r : InMemoryFlowRepository} {runId : UUID}
    {token : Option UUID} {now : Time} (h : r.validateExecutionToken runId token now = .ok ()) :
    (r.leases runId = none ∧ token = none) ∨
    ∃ lease, r.leases runId = some (lease, true) ∧ token = some lease.token ∧
      lease.isExpired now = false := by
  unfold validateExecutionToken at h
  cases hl : r.leases runId with
  | none =>
    rw [hl] at h
    cases token with
    | none => exact .inl ⟨rfl, rfl⟩
    | some t => simp at h
  | some stored =>
    obtain ⟨lease, active⟩ := stored
    rw [hl] at h
    by_cases hbad : token = none ∨ active = false ∨ some lease.token ≠ token ∨
        lease.isExpired now = true
    · simp only [if_pos hbad] at h
      cases h
    · simp only [not_or, not_not, Bool.not_eq_false, Bool.not_eq_true] at hbad
      obtain ⟨-, rfl, htok, hx⟩ := hbad
      exact .inr ⟨lease, rfl, htok.symm, hx⟩

end InMemoryFlowRepository

end Flows
end BaseAgent

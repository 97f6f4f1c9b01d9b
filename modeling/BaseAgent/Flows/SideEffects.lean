import BaseAgent.Async.Pool
import BaseAgent.Flows.Recovery

/-!
# The side-effect ledger

`InMemoryFlowSideEffectLedger` keeps one record for each operation of an invocation: the
intent before the transport, and the phase the effect is known to have reached.  A transition
names the revision it expects, so a writer with a stale record is refused.

The ledger holds its lock for the whole of an operation.  Timestamps are left out: no
transition reads them.
-/

namespace BaseAgent
namespace Flows

open Async

/-- What the ledger and the recorder over it raise.  `exhausted` is no exception of the
program: it marks a loop that was followed for as many iterations as asked for. -/
inductive EffectError where
  | notFound (message : String)
  | conflict (message : String)
  | revisionConflict (message : String)
  | invalidTransition (message : String)
  | value (message : String)
  | validation (field message : String)
  | recorder (message : String)
  | context (message : String)
  | replayUnsafe (message : String)
  | exhausted
  deriving DecidableEq, Repr

/-- Neither a refused transition nor the end of the fuel. -/
def EffectError.mild (e : EffectError) : Prop :=
  e ≠ .exhausted ∧ ∀ message, e ≠ .invalidTransition message

def FlowSideEffectPhase.value : FlowSideEffectPhase → String
  | prepared => "prepared"
  | started => "started"
  | confirmed => "confirmed"
  | aborted => "aborted"

/-- `_validate_transition`. -/
def FlowSideEffectPhase.allows : FlowSideEffectPhase → FlowSideEffectPhase → Bool
  | prepared, started | prepared, aborted | started, confirmed | aborted, started => true
  | _, _ => false

/-- One record.  Recovery reads its phase and its retry mode only. -/
structure LedgerEffect extends FlowSideEffect where
  id : UUID
  flowRunId : UUID
  invocationId : UUID
  operationKey : String
  operationName : String
  idempotencyKeyDigest : Option String := none
  revision : Nat := 1
  deriving DecidableEq, Repr

namespace LedgerEffect

def keyChar (c : Char) : Bool :=
  c.isAlphanum || c == '_' || c == '.' || c == ':' || c == '/' || c == '-'

/-- `_KEY_PATTERN` with the length bounds of a field. -/
def validKey (maxLength : Nat) (key : String) : Bool :=
  match key.toList with
  | [] => false
  | c :: rest => c.isAlphanum && rest.all keyChar && rest.length < maxLength

/-- `^[0-9a-f]{64}$`. -/
def validDigest (digest : String) : Bool :=
  digest.length == 64 && digest.toList.all fun c => c.isDigit || ('a' ≤ c && c ≤ 'f')

/-- The checks of a new record, in the order of its fields and its validator. -/
def validate (effect : LedgerEffect) : Except EffectError LedgerEffect :=
  if !validKey 256 effect.operationKey then
    .error (.validation "operation_key" "String should match pattern")
  else if !validKey 128 effect.operationName then
    .error (.validation "operation_name" "String should match pattern")
  else if effect.idempotencyKeyDigest.any fun digest => !validDigest digest then
    .error (.validation "idempotency_key_digest" "String should match pattern")
  else if effect.retryMode = .idempotent ∧ effect.idempotencyKeyDigest = none then
    .error (.validation "" "idempotent side effects require an idempotency key digest")
  else if effect.retryMode = .unsafeRetry ∧ effect.idempotencyKeyDigest ≠ none then
    .error (.validation "" "unsafe side effects cannot claim an idempotency key digest")
  else .ok effect

theorem validate_ok {effect found : LedgerEffect} (h : effect.validate = .ok found) :
    found = effect := by
  unfold validate at h
  repeat' split at h
  all_goals cases h
  rfl

/-- What `_operations` finds a record by. -/
def operation (effect : LedgerEffect) : UUID × UUID × String :=
  (effect.flowRunId, effect.invocationId, effect.operationKey)

def hasSameIntent (effect other : LedgerEffect) : Bool :=
  effect.flowRunId = other.flowRunId ∧ effect.invocationId = other.invocationId ∧
    effect.operationKey = other.operationKey ∧ effect.operationName = other.operationName ∧
    effect.retryMode = other.retryMode ∧
    effect.idempotencyKeyDigest = other.idempotencyKeyDigest

def moveTo (effect : LedgerEffect) (target : FlowSideEffectPhase) : LedgerEffect :=
  { effect with phase := target, revision := effect.revision + 1 }

end LedgerEffect

structure InMemoryFlowSideEffectLedger where
  effects : UUID → Option LedgerEffect := fun _ => none
  operations : UUID × UUID × String → Option UUID := fun _ => none

namespace InMemoryFlowSideEffectLedger

variable (ledger : InMemoryFlowSideEffectLedger)

def notFound (effectId : UUID) : EffectError :=
  .notFound s!"side-effect evidence '{uuidText effectId}' was not found"

/-- `prepare`.  The key of `_operations` without a record is the `KeyError` of the lookup. -/
def prepare (effect : LedgerEffect) :
    Except EffectError LedgerEffect × InMemoryFlowSideEffectLedger :=
  if effect.phase ≠ .prepared ∨ effect.revision ≠ 1 then
    (.error (.value "new side-effect evidence must be prepared at revision 1"), ledger)
  else
    match ledger.operations effect.operation with
    | some existingId =>
      match ledger.effects existingId with
      | none => (.error (notFound existingId), ledger)
      | some existing =>
        if existing.hasSameIntent effect then (.ok existing, ledger)
        else
          (.error (.conflict
            s!"side-effect operation '{effect.operationKey}' has different intent"), ledger)
    | none =>
      (.ok effect,
        { effects := Function.update ledger.effects effect.id (some effect)
          operations := Function.update ledger.operations effect.operation (some effect.id) })

def get (effectId : UUID) : Except EffectError LedgerEffect :=
  orRaise (ledger.effects effectId) (notFound effectId)

def transition (effectId : UUID) (expectedRevision : Nat) (target : FlowSideEffectPhase) :
    Except EffectError LedgerEffect × InMemoryFlowSideEffectLedger :=
  match ledger.effects effectId with
  | none => (.error (notFound effectId), ledger)
  | some current =>
    if current.revision ≠ expectedRevision then
      (.error (.revisionConflict
        (s!"side-effect evidence '{uuidText effectId}' expected revision " ++
          s!"{expectedRevision}, found {current.revision}")), ledger)
    else if current.phase.allows target then
      (.ok (current.moveTo target),
        { ledger with
          effects := Function.update ledger.effects effectId (some (current.moveTo target)) })
    else
      (.error (.invalidTransition
        (s!"cannot move side-effect evidence from '{current.phase.value}' " ++
          s!"to '{target.value}'")), ledger)

end InMemoryFlowSideEffectLedger

/-- The operations of the ledger, each one atomic step. -/
inductive LedgerOp where
  | prepare (effect : LedgerEffect)
  | get (effectId : UUID)
  | markStarted (effectId : UUID) (expectedRevision : Nat)
  | confirm (effectId : UUID) (expectedRevision : Nat)
  | abort (effectId : UUID) (expectedRevision : Nat)

abbrev LedgerOp.Ret (_ : LedgerOp) : Type := Except EffectError LedgerEffect

abbrev LedgerProg (α : Type) := Prog LedgerOp LedgerOp.Ret EffectError α

def LedgerOp.exec (o : LedgerOp) (ledger : InMemoryFlowSideEffectLedger) :
    o.Ret × InMemoryFlowSideEffectLedger :=
  match o with
  | prepare effect => ledger.prepare effect
  | get effectId => (ledger.get effectId, ledger)
  | markStarted effectId revision => ledger.transition effectId revision .started
  | confirm effectId revision => ledger.transition effectId revision .confirmed
  | abort effectId revision => ledger.transition effectId revision .aborted

/-! ## What an operation does to the records -/

namespace LedgerEffect

/-- The transport may have happened. -/
def begun (effect : LedgerEffect) : Prop := effect.phase = .started ∨ effect.phase = .confirmed

/-- A record before its start has a revision that tells its phase. -/
def Early (effect : LedgerEffect) : Prop :=
  (effect.phase = .prepared → effect.revision = 1) ∧
    (effect.phase = .aborted → effect.revision = 2)

/-- The record `later` is what became of `effect`. -/
structure Grows (effect later : LedgerEffect) : Prop where
  id : later.id = effect.id
  operation : later.operation = effect.operation
  retryMode : later.retryMode = effect.retryMode
  revision : effect.revision ≤ later.revision
  same : later.revision = effect.revision → later = effect
  begun : effect.begun → later.begun

theorem Grows.refl (effect : LedgerEffect) : effect.Grows effect :=
  ⟨rfl, rfl, rfl, Nat.le_refl _, fun _ => rfl, fun h => h⟩

theorem Grows.trans {a b c : LedgerEffect} (hab : a.Grows b) (hbc : b.Grows c) : a.Grows c where
  id := hbc.id.trans hab.id
  operation := hbc.operation.trans hab.operation
  retryMode := hbc.retryMode.trans hab.retryMode
  revision := Nat.le_trans hab.revision hbc.revision
  same := by
    intro heq
    have hle := hab.revision
    have hle' := hbc.revision
    rw [hbc.same (by omega), hab.same (by omega)]
  begun h := hbc.begun (hab.begun h)

/-- An allowed transition lets the record grow, and keeps the revisions before the start. -/
theorem moveTo_grows {effect : LedgerEffect} {target : FlowSideEffectPhase}
    (h : effect.phase.allows target = true) (hearly : effect.Early) :
    effect.Grows (effect.moveTo target) ∧ (effect.moveTo target).Early := by
  constructor
  · refine ⟨rfl, rfl, rfl, Nat.le_succ _, fun heq => ?_, fun hbegun => ?_⟩
    · have : effect.revision + 1 = effect.revision := heq
      omega
    · show target = .started ∨ target = .confirmed
      cases hbegun with
      | inl hphase => cases target <;> simp_all [FlowSideEffectPhase.allows]
      | inr hphase => cases target <;> simp_all [FlowSideEffectPhase.allows]
  · refine ⟨fun hphase => ?_, fun hphase => ?_⟩
    · have htarget : target = .prepared := hphase
      cases hp : effect.phase <;> simp_all [FlowSideEffectPhase.allows]
    · have htarget : target = .aborted := hphase
      have hprepared : effect.phase = .prepared := by
        cases hp : effect.phase <;> simp_all [FlowSideEffectPhase.allows]
      show effect.revision + 1 = 2
      have := hearly.1 hprepared
      omega

end LedgerEffect

namespace InMemoryFlowSideEffectLedger

variable {ledger : InMemoryFlowSideEffectLedger}

theorem transition_stale {effectId : UUID} {current : LedgerEffect} {revision : Nat}
    (target : FlowSideEffectPhase) (hcurrent : ledger.effects effectId = some current)
    (hrevision : current.revision ≠ revision) :
    ∃ message, ledger.transition effectId revision target =
      (.error (.revisionConflict message), ledger) := by
  unfold transition
  simp only [hcurrent, if_pos hrevision]
  exact ⟨_, rfl⟩

/-- A transition is refused, or moves the record it names at the revision it names. -/
theorem transition_cases (ledger : InMemoryFlowSideEffectLedger) (effectId : UUID) (revision : Nat) (target : FlowSideEffectPhase) :
    (∃ e, ledger.transition effectId revision target = (.error e, ledger)) ∨
    ∃ current, ledger.effects effectId = some current ∧ current.revision = revision ∧
      current.phase.allows target = true ∧
      ledger.transition effectId revision target =
        (.ok (current.moveTo target), { ledger with
          effects := Function.update ledger.effects effectId (some (current.moveTo target)) }) := by
  cases hcurrent : ledger.effects effectId with
  | none => exact .inl ⟨_, by rw [transition, hcurrent]⟩
  | some current =>
    by_cases hrevision : current.revision = revision
    · by_cases hallows : current.phase.allows target = true
      · exact .inr ⟨current, rfl, hrevision, hallows,
          by simp [transition, hcurrent, hrevision, hallows]⟩
      · left
        simp only [transition, hcurrent, ne_eq, hrevision, not_true_eq_false, if_false, hallows]
        exact ⟨_, rfl⟩
    · obtain ⟨message, hstale⟩ := transition_stale target hcurrent hrevision
      exact .inl ⟨_, hstale⟩

/-- The records of a ledger: each is stored under its own identifier, is the one its operation
finds, and has the revision its phase admits. -/
structure Sound (ledger : InMemoryFlowSideEffectLedger) : Prop where
  found : ∀ operation effectId, ledger.operations operation = some effectId →
    ∃ effect, ledger.effects effectId = some effect
  stored : ∀ effectId effect, ledger.effects effectId = some effect →
    effect.id = effectId ∧ ledger.operations effect.operation = some effectId ∧ effect.Early

/-- Every record of `ledger` is still in `later`, grown. -/
def Grows (ledger later : InMemoryFlowSideEffectLedger) : Prop :=
  ∀ effectId effect, ledger.effects effectId = some effect →
    ∃ effect', later.effects effectId = some effect' ∧ effect.Grows effect'

theorem Grows.refl (ledger : InMemoryFlowSideEffectLedger) : ledger.Grows ledger :=
  fun _ effect h => ⟨effect, h, LedgerEffect.Grows.refl effect⟩

theorem transition_sound (h : ledger.Sound) (effectId : UUID) (revision : Nat)
    (target : FlowSideEffectPhase) :
    (ledger.transition effectId revision target).2.Sound ∧
      ledger.Grows (ledger.transition effectId revision target).2 := by
  cases transition_cases ledger effectId revision target with
  | inl hrefused =>
    obtain ⟨e, he⟩ := hrefused
    rw [he]
    exact ⟨h, Grows.refl ledger⟩
  | inr hmoved =>
    obtain ⟨current, hcurrent, -, hallows, heq⟩ := hmoved
    rw [heq]
    obtain ⟨hid, hoperation, hearly⟩ := h.stored effectId current hcurrent
    obtain ⟨hgrows, hearly'⟩ := LedgerEffect.moveTo_grows hallows hearly
    have hother : ∀ other, other ≠ effectId →
        Function.update ledger.effects effectId (some (current.moveTo target)) other =
          ledger.effects other := fun other hne => Function.update_of_ne hne _ _
    refine ⟨⟨?_, ?_⟩, ?_⟩
    · intro operation other hother'
      by_cases hne : other = effectId
      · subst hne
        exact ⟨_, Function.update_self _ _ _⟩
      · obtain ⟨effect, heffect⟩ := h.found operation other hother'
        exact ⟨effect, (hother other hne).trans heffect⟩
    · intro other effect heffect
      by_cases hne : other = effectId
      · subst hne
        have hmove : current.moveTo target = effect := by simpa using heffect
        rw [← hmove]
        exact ⟨hid, hoperation, hearly'⟩
      · have hold : ledger.effects other = some effect := (hother other hne).symm.trans heffect
        exact h.stored other effect hold
    · intro other effect heffect
      by_cases hne : other = effectId
      · subst hne
        rw [hcurrent] at heffect
        cases heffect
        exact ⟨_, Function.update_self _ _ _, hgrows⟩
      · exact ⟨effect, (hother other hne).trans heffect, LedgerEffect.Grows.refl effect⟩

/-- A new record is prepared under an identifier of its own, or the record of its operation
answers. -/
theorem prepare_cases (h : ledger.Sound) (effect : LedgerEffect) :
    (∃ e : EffectError, e.mild ∧ ledger.prepare effect = (.error e, ledger)) ∨
    (∃ existing, ledger.effects existing.id = some existing ∧
      existing.operation = effect.operation ∧ existing.retryMode = effect.retryMode ∧
      ledger.prepare effect = (.ok existing, ledger)) ∨
    (effect.phase = .prepared ∧ effect.revision = 1 ∧
      ledger.operations effect.operation = none ∧
      ledger.prepare effect = (.ok effect,
        { effects := Function.update ledger.effects effect.id (some effect)
          operations :=
            Function.update ledger.operations effect.operation (some effect.id) })) := by
  unfold prepare
  by_cases hnew : effect.phase ≠ .prepared ∨ effect.revision ≠ 1
  · rw [if_pos hnew]
    exact .inl ⟨_, ⟨by simp, by simp⟩, rfl⟩
  · rw [if_neg hnew]
    push Not at hnew
    cases hfound : ledger.operations effect.operation with
    | none => exact .inr (.inr ⟨hnew.1, hnew.2, rfl, rfl⟩)
    | some existingId =>
      obtain ⟨existing, hexisting⟩ := h.found _ _ hfound
      obtain ⟨hid, -, -⟩ := h.stored _ _ hexisting
      simp only [hexisting]
      by_cases hintent : existing.hasSameIntent effect = true
      · rw [if_pos hintent]
        have hintent' := hintent
        simp only [LedgerEffect.hasSameIntent, decide_eq_true_eq] at hintent'
        obtain ⟨hflow, hinvocation, hkey, -, hmode, -⟩ := hintent'
        refine .inr (.inl ⟨existing, by rw [hid]; exact hexisting, ?_, hmode, rfl⟩)
        simp only [LedgerEffect.operation, hflow, hinvocation, hkey]
      · rw [if_neg hintent]
        exact .inl ⟨_, ⟨by simp, by simp⟩, rfl⟩

theorem prepare_sound (h : ledger.Sound) {effect : LedgerEffect}
    (hfresh : ledger.effects effect.id = none) :
    (ledger.prepare effect).2.Sound ∧ ledger.Grows (ledger.prepare effect).2 := by
  obtain ⟨e, -, he⟩ | ⟨existing, -, -, -, heq⟩ | ⟨hphase, hrevision, hfree, heq⟩ :=
    prepare_cases h effect
  · rw [he]
    exact ⟨h, Grows.refl ledger⟩
  · rw [heq]
    exact ⟨h, Grows.refl ledger⟩
  · rw [heq]
    refine ⟨⟨?_, ?_⟩, ?_⟩
    · intro operation effectId hfound
      by_cases hid : effectId = effect.id
      · subst hid
        exact ⟨effect, Function.update_self _ _ _⟩
      · have hne : operation ≠ effect.operation := by
          rintro rfl
          simp only [Function.update_self, Option.some.injEq] at hfound
          exact hid hfound.symm
        simp only [Function.update_of_ne hne] at hfound
        obtain ⟨found, hstored⟩ := h.found _ _ hfound
        exact ⟨found, by simp only [Function.update_of_ne hid]; exact hstored⟩
    · intro effectId found hstored
      by_cases hid : effectId = effect.id
      · subst hid
        simp only [Function.update_self, Option.some.injEq] at hstored
        subst hstored
        refine ⟨rfl, Function.update_self _ _ _, fun _ => hrevision, fun haborted => ?_⟩
        rw [hphase] at haborted
        cases haborted
      · simp only [Function.update_of_ne hid] at hstored
        obtain ⟨hid', hoperation, hearly⟩ := h.stored _ _ hstored
        refine ⟨hid', ?_, hearly⟩
        have hne : found.operation ≠ effect.operation := by
          intro heq'
          rw [heq', hfree] at hoperation
          cases hoperation
        simp only [Function.update_of_ne hne]
        exact hoperation
    · intro effectId found hstored
      have hid : effectId ≠ effect.id := by
        rintro rfl
        rw [hfresh] at hstored
        cases hstored
      exact ⟨found, by simp only [Function.update_of_ne hid]; exact hstored,
        LedgerEffect.Grows.refl found⟩

end InMemoryFlowSideEffectLedger

end Flows
end BaseAgent

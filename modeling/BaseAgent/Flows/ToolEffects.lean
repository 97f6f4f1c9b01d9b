import BaseAgent.Flows.SideEffects
import BaseAgent.Runtime.Protocol

/-!
# Evidence around Tool calls

`FlowToolSideEffectRecorder` brackets the transport of a governed Tool with records of the
ledger: `start` prepares the record of the call and moves it to `STARTED` before the transport,
`confirm` moves it to `CONFIRMED` after it.  A start competes with other starts of the same
call, and with aborts, at every one of its steps.

For an unsafe effect the receipt of a start is the permission to execute.  The last theorem
here says that it is given once, along every interleaving of any number of these calls.
-/

namespace BaseAgent
namespace Flows

open Async BaseAgent.Runtime

structure FlowEffectReceipt where
  effectId : UUID
  expectedRevision : Nat
  confirmationRequired : Bool
  deriving DecidableEq, Repr

/-- `ToolSideEffectReceipt`.  A token of another recorder is `none`. -/
structure ToolSideEffectReceipt where
  token : Option FlowEffectReceipt
  idempotencyKey : Option String := none
  deriving DecidableEq, Repr

/-- The part of a `ToolContext` that the recorder reads. -/
structure EffectContext where
  flowRunId : Option UUID
  invocationId : Option UUID
  deriving DecidableEq, Repr

namespace FlowToolSideEffectRecorder

variable (digest : String → String)

def operationKey (toolCallId : String) : String := s!"tool:{digest toolCallId}"

def idempotencyKey (flowRunId invocationId : UUID) (toolCallId : String) : String :=
  s!"base-agent-v1:{uuidText flowRunId}:{uuidText invocationId}:{digest toolCallId}"

def retryMode (mode : ToolSideEffectMode) : FlowSideEffectRetryMode :=
  if mode = .idempotent then .idempotent else .unsafeRetry

def keyFor (mode : ToolSideEffectMode) (flowRunId invocationId : UUID) (call : ToolCall) :
    Option String :=
  if mode = .idempotent then some (idempotencyKey digest flowRunId invocationId call.id) else none

/-- The record that `start` prepares.  `effectId` is its `uuid4`. -/
def newEffect (effectId : UUID) (call : ToolCall) (toolName : String) (mode : ToolSideEffectMode)
    (flowRunId invocationId : UUID) : LedgerEffect :=
  { id := effectId
    flowRunId := flowRunId
    invocationId := invocationId
    operationKey := operationKey digest call.id
    operationName := toolName
    retryMode := retryMode mode
    idempotencyKeyDigest := (keyFor digest mode flowRunId invocationId call).map digest }

/-- `_start_or_replay`, followed for at most `fuel` rounds of its loop. -/
def startOrReplay : Nat → LedgerEffect → LedgerProg LedgerEffect
  | 0, _ => .raise .exhausted
  | fuel + 1, effect =>
    if effect.phase = .prepared ∨ effect.phase = .aborted then
      .call (.markStarted effect.id effect.revision) fun
        | .ok started => .ret started
        | .error (.revisionConflict _) =>
          .call (.get effect.id) fun
            | .ok current => startOrReplay fuel current
            | .error e => .raise e
        | .error e => .raise e
    else if effect.retryMode = .idempotent then .ret effect
    else .raise (.replayUnsafe "unprotected side effect may already have executed")

def receipt (started : LedgerEffect) (key : Option String) : ToolSideEffectReceipt :=
  { token := some ⟨started.id, started.revision, started.phase ≠ .confirmed⟩
    idempotencyKey := key }

def begin (fuel : Nat) (effect : LedgerEffect) (key : Option String) :
    LedgerProg ToolSideEffectReceipt :=
  .call (.prepare effect) fun
    | .error e => .raise e
    | .ok prepared => (startOrReplay fuel prepared).bind fun started => .ret (receipt started key)

def start (fuel : Nat) (effectId : UUID) (call : ToolCall) (toolName : String)
    (mode : ToolSideEffectMode) (context : EffectContext) : LedgerProg ToolSideEffectReceipt :=
  match context.flowRunId, context.invocationId with
  | some flowRunId, some invocationId =>
    if mode = .unsafeEffect ∨ mode = .idempotent then
      match (newEffect digest effectId call toolName mode flowRunId invocationId).validate with
      | .error e => .raise e
      | .ok effect => begin fuel effect (keyFor digest mode flowRunId invocationId call)
    else .raise (.recorder "only side-effecting Tools require Flow evidence")
  | _, _ => .raise (.context "Flow Tool evidence requires Flow Run and Invocation IDs")

def confirm (receipt : ToolSideEffectReceipt) : LedgerProg Unit :=
  match receipt.token with
  | none => .raise (.recorder "side-effect receipt belongs to another recorder")
  | some token =>
    if token.confirmationRequired then
      .call (.confirm token.effectId token.expectedRevision) fun
        | .ok _ => .ret ()
        | .error (.revisionConflict _) =>
          .call (.get token.effectId) fun
            | .error e => .raise e
            | .ok current =>
              if current.phase = .confirmed then .ret ()
              else .raise (.recorder "side-effect confirmation lost revision ownership")
        | .error e => .raise e
    else .ret ()

end FlowToolSideEffectRecorder

/-- A call on the recorder, or an operation on its ledger. -/
inductive EffectCall where
  | start (effectId : UUID) (call : ToolCall) (toolName : String) (mode : ToolSideEffectMode)
      (context : EffectContext)
  | confirm (receipt : ToolSideEffectReceipt)
  | confirmEffect (effectId : UUID) (expectedRevision : Nat)
  | abortEffect (effectId : UUID) (expectedRevision : Nat)

namespace EffectCall

def effectId : EffectCall → Option UUID
  | start effectId .. => some effectId
  | _ => none

/-- The Flow Run, the invocation and the call that an unsafe start is for. -/
def unsafeTarget : EffectCall → Option (UUID × UUID × String)
  | start _ call _ .unsafeEffect ⟨some flowRunId, some invocationId⟩ =>
    some (flowRunId, invocationId, call.id)
  | _ => none

def starts : EffectCall → Bool
  | start .. => true
  | _ => false

def task (digest : String → String) (fuel : Nat) :
    EffectCall → LedgerProg (Option ToolSideEffectReceipt)
  | start effectId call toolName mode context =>
    (FlowToolSideEffectRecorder.start digest fuel effectId call toolName mode context).bind
      fun receipt => .ret (some receipt)
  | confirm receipt => (FlowToolSideEffectRecorder.confirm receipt).bind fun _ => .ret none
  | confirmEffect effectId revision =>
    .call (.confirm effectId revision) fun reply =>
      (Prog.ofExcept reply).bind fun _ => .ret none
  | abortEffect effectId revision =>
    .call (.abort effectId revision) fun reply =>
      (Prog.ofExcept reply).bind fun _ => .ret none

end EffectCall

def startEffects {ι : Type} (digest : String → String) (fuel : Nat) (calls : ι → EffectCall) :
    Pool ι LedgerOp LedgerOp.Ret EffectError (Option ToolSideEffectReceipt)
      InMemoryFlowSideEffectLedger :=
  { shared := {}, tasks := fun i => (calls i).task digest fuel }

/-! ## Receipts and records -/

/-- What a task knows: nothing yet, a record as it was read, or a record it has started. -/
inductive EffectStage where
  | fresh
  | seen (effect : LedgerEffect)
  | held (effect : LedgerEffect)
  | past

def EffectStage.effect : EffectStage → Option LedgerEffect
  | seen effect | held effect => some effect
  | fresh | past => none

section Evidence

variable {ι : Type}

/-- The ledger and what the tasks know of it: a record that was read or started is still there,
grown, and an unsafe record has at most one starter and stays begun. -/
structure Evidence (calls : ι → EffectCall) (ledger : InMemoryFlowSideEffectLedger)
    (ghost : ι → EffectStage) : Prop where
  sound : ledger.Sound
  fresh : ∀ i effectId, ghost i = .fresh → (calls i).effectId = some effectId →
    ledger.effects effectId = none
  known : ∀ i x, (ghost i).effect = some x → ∃ e, ledger.effects x.id = some e ∧ x.Grows e
  begun : ∀ i x, ghost i = .held x → x.retryMode = .unsafeRetry → x.begun
  single : ∀ i j x y, ghost i = .held x → ghost j = .held y → x.id = y.id →
    x.retryMode = .unsafeRetry → i = j

theorem Evidence.read {calls : ι → EffectCall} {ledger : InMemoryFlowSideEffectLedger}
    {ghost : ι → EffectStage} (h : Evidence calls ledger ghost) {i : ι} {x : LedgerEffect}
    (hi : (ghost i).effect = some x) :
    ∃ e, ledger.effects x.id = some e ∧ x.Grows e ∧ e.id = x.id ∧ e.Early := by
  obtain ⟨e, he, hgrows⟩ := h.known i x hi
  obtain ⟨hid, -, hearly⟩ := h.sound.stored _ _ he
  exact ⟨e, he, hgrows, hid, hearly⟩

def evidenceOutline (calls : ι → EffectCall) :
    Outline ι LedgerOp LedgerOp.Ret InMemoryFlowSideEffectLedger EffectStage where
  Inv ledger _ ghost := Evidence calls ledger ghost

variable [DecidableEq ι] {calls : ι → EffectCall} {ghost : ι → EffectStage} {i : ι}
variable {ledger ledger' : InMemoryFlowSideEffectLedger} {g : EffectStage}

/-- What a task does to the ledger and to its own knowledge keeps the evidence of the others. -/
theorem Evidence.step (h : Evidence calls ledger ghost)
    (hdistinct : ∀ j k x, (calls j).effectId = some x → (calls k).effectId = some x → j = k)
    (hsound : ledger'.Sound) (hgrows : ledger.Grows ledger')
    (hnew : ∀ x, ledger.effects x = none → ledger'.effects x = none ∨
      (calls i).effectId = some x)
    (hfresh : g ≠ .fresh)
    (hknown : ∀ x, g.effect = some x → ∃ e, ledger'.effects x.id = some e ∧ x.Grows e)
    (hheld : ∀ x, g = .held x → x.retryMode = .unsafeRetry →
      x.begun ∧ ∀ j y, j ≠ i → ghost j = .held y → y.id ≠ x.id) :
    Evidence calls ledger' (Function.update ghost i g) := by
  have hcases : ∀ j, (j = i ∧ Function.update ghost i g j = g) ∨
      (j ≠ i ∧ Function.update ghost i g j = ghost j) := by
    intro j
    by_cases hj : j = i
    · subst hj
      exact .inl ⟨rfl, Function.update_self _ _ _⟩
    · exact .inr ⟨hj, Function.update_of_ne hj _ _⟩
  have hknown' : ∀ j x, (Function.update ghost i g j).effect = some x →
      ∃ e, ledger'.effects x.id = some e ∧ x.Grows e := by
    intro j x hx
    obtain ⟨-, hj⟩ | ⟨-, hj⟩ := hcases j
    · rw [hj] at hx
      exact hknown x hx
    · rw [hj] at hx
      obtain ⟨e, he, hxe⟩ := h.known j x hx
      obtain ⟨e', he', hee'⟩ := hgrows x.id e he
      exact ⟨e', he', hxe.trans hee'⟩
  -- two records read under one identifier are read in one mode
  have hmode : ∀ j k x y, (Function.update ghost i g j).effect = some x →
      (Function.update ghost i g k).effect = some y → x.id = y.id →
      x.retryMode = y.retryMode := by
    intro j k x y hx hy hid
    obtain ⟨e, he, hxe⟩ := hknown' j x hx
    obtain ⟨e', he', hye⟩ := hknown' k y hy
    rw [hid, he'] at he
    cases he
    exact hxe.retryMode.symm.trans hye.retryMode
  refine ⟨hsound, ?_, hknown', ?_, ?_⟩
  · intro j x hj hid
    obtain ⟨-, hg⟩ | ⟨hne, hg⟩ := hcases j
    · rw [hg] at hj
      exact absurd hj hfresh
    · rw [hg] at hj
      cases hnew x (h.fresh j x hj hid) with
      | inl hnone => exact hnone
      | inr hmine => exact absurd (hdistinct j i x hid hmine) hne
  · intro j x hj hunguarded
    obtain ⟨-, hg⟩ | ⟨-, hg⟩ := hcases j
    · rw [hg] at hj
      exact (hheld x hj hunguarded).1
    · rw [hg] at hj
      exact h.begun j x hj hunguarded
  · intro j k x y hj hk hid hunguarded
    have hunguarded' : y.retryMode = .unsafeRetry := by
      rw [← hmode j k x y (by rw [hj]; rfl) (by rw [hk]; rfl) hid]
      exact hunguarded
    obtain ⟨hji, hg⟩ | ⟨hji, hg⟩ := hcases j
    · obtain ⟨hki, -⟩ | ⟨hki, hg'⟩ := hcases k
      · rw [hji, hki]
      · rw [hg] at hj
        rw [hg'] at hk
        exact absurd hid.symm ((hheld x hj hunguarded).2 k y hki hk)
    · obtain ⟨-, hg'⟩ | ⟨-, hg'⟩ := hcases k
      · rw [hg] at hj
        rw [hg'] at hk
        exact absurd hid ((hheld y hk hunguarded').2 j x hji hj)
      · rw [hg] at hj
        rw [hg'] at hk
        exact h.single j k x y hj hk hid hunguarded

section Steps

variable (hdistinct : ∀ j k x, (calls j).effectId = some x → (calls k).effectId = some x → j = k)

include hdistinct in
/-- A transition of the ledger by anyone, who then knows nothing. -/
theorem evidence_transition {o : LedgerOp} {effectId : UUID} {revision : Nat}
    {target : FlowSideEffectPhase}
    (ho : ∀ ledger, o.exec ledger = ledger.transition effectId revision target) :
    (evidenceOutline calls).Step LedgerOp.exec i o g fun _ g' => g' = .past := by
  intro ledger log ghost _ hI _
  refine ⟨.past, trivial, ?_, rfl⟩
  obtain ⟨hsound, hgrows⟩ :=
    InMemoryFlowSideEffectLedger.transition_sound hI.sound effectId revision target
  rw [ho]
  refine Evidence.step hI hdistinct hsound hgrows (fun x hx => .inl ?_) (by simp)
    (fun x hx => by cases hx) (fun x hx => by cases hx)
  -- a transition stores no record where there was none
  cases InMemoryFlowSideEffectLedger.transition_cases ledger effectId revision target with
  | inl hrefused =>
    obtain ⟨e, he⟩ := hrefused
    rw [he]
    exact hx
  | inr hmoved =>
    obtain ⟨current, hcurrent, -, -, heq⟩ := hmoved
    rw [heq]
    have hne : x ≠ effectId := by
      rintro rfl
      rw [hcurrent] at hx
      cases hx
    simp only [Function.update_of_ne hne]
    exact hx

include hdistinct in
theorem evidence_get (effectId : UUID) :
    (evidenceOutline calls).Step LedgerOp.exec i (.get effectId) g fun _ g' => g' = .past := by
  intro ledger log ghost _ hI _
  refine ⟨.past, trivial, ?_, rfl⟩
  exact Evidence.step hI hdistinct hI.sound (InMemoryFlowSideEffectLedger.Grows.refl ledger)
    (fun x hx => .inl hx) (by simp) (fun x hx => by cases hx) (fun x hx => by cases hx)

include hdistinct in
theorem evidence_reread {x : LedgerEffect} :
    (evidenceOutline calls).Step LedgerOp.exec i (.get x.id) (.seen x) fun r g' =>
      ∃ e, r = .ok e ∧ g' = .seen e ∧ x.Grows e ∧ e.Early := by
  intro ledger log ghost hg hI _
  obtain ⟨e, he, hgrows, hid, hearly⟩ := Evidence.read hI (by rw [hg]; rfl)
  refine ⟨.seen e, trivial, ?_, e, ?_, rfl, hgrows, hearly⟩
  · refine Evidence.step hI hdistinct hI.sound (InMemoryFlowSideEffectLedger.Grows.refl ledger)
      (fun y hy => .inl hy) (by simp) ?_ (fun y hy => by cases hy)
    intro y hy
    cases hy
    exact ⟨e, by rw [hid]; exact he, LedgerEffect.Grows.refl e⟩
  · simp [LedgerOp.exec, InMemoryFlowSideEffectLedger.get, orRaise, he]

include hdistinct in
theorem evidence_markStarted {x : LedgerEffect} (hx : x.phase = .prepared ∨ x.phase = .aborted) :
    (evidenceOutline calls).Step LedgerOp.exec i (.markStarted x.id x.revision) (.seen x)
      fun r g' =>
        (r = .ok (x.moveTo .started) ∧ g' = .held (x.moveTo .started)) ∨
        ∃ message e, r = .error (.revisionConflict message) ∧ g' = .seen e ∧ x.Grows e ∧
          x.revision < e.revision := by
  intro ledger log ghost hg hI _
  obtain ⟨e, he, hgrows, hid, hearly⟩ := Evidence.read hI (by rw [hg]; rfl)
  by_cases hrevision : e.revision = x.revision
  · obtain rfl := hgrows.same hrevision
    have hallows : e.phase.allows .started = true := by
      cases hx with
      | inl hp => rw [hp]; rfl
      | inr hp => rw [hp]; rfl
    have hexec : LedgerOp.exec (.markStarted e.id e.revision) ledger =
        (.ok (e.moveTo .started), { ledger with
          effects := Function.update ledger.effects e.id (some (e.moveTo .started)) }) := by
      simp [LedgerOp.exec, InMemoryFlowSideEffectLedger.transition, he, hallows]
    obtain ⟨hsound, hgrows'⟩ :=
      InMemoryFlowSideEffectLedger.transition_sound hI.sound e.id e.revision .started
    have htransition : ledger.transition e.id e.revision .started =
        LedgerOp.exec (.markStarted e.id e.revision) ledger := rfl
    rw [htransition, hexec] at hsound hgrows'
    rw [hexec]
    refine ⟨.held (e.moveTo .started), trivial, ?_, .inl ⟨rfl, rfl⟩⟩
    refine Evidence.step hI hdistinct hsound hgrows' (fun y hy => .inl ?_) (by simp) ?_ ?_
    · have hne : y ≠ e.id := by
        rintro rfl
        rw [he] at hy
        cases hy
      simp only [Function.update_of_ne hne]
      exact hy
    · intro y hy
      cases hy
      exact ⟨_, Function.update_self _ _ _, LedgerEffect.Grows.refl _⟩
    · intro y hy hunguarded
      cases hy
      refine ⟨.inl rfl, fun j y _ hj hsame => ?_⟩
      -- whoever holds this record has begun it, and it is not begun
      obtain ⟨e', he', hye, -, -⟩ := hI.read (by rw [hj]; rfl)
      have hsame : y.id = e.id := hsame
      rw [hsame, he] at he'
      cases he'
      have hmode : y.retryMode = .unsafeRetry := hye.retryMode.symm.trans hunguarded
      have hbegun := hye.begun (hI.begun j y hj hmode)
      cases hx with
      | inl hp => cases hbegun <;> simp_all
      | inr hp => cases hbegun <;> simp_all
  · obtain ⟨message, hstale⟩ :=
      InMemoryFlowSideEffectLedger.transition_stale .started he hrevision
    have hexec : LedgerOp.exec (.markStarted x.id x.revision) ledger =
        (.error (.revisionConflict message), ledger) := hstale
    rw [hexec]
    refine ⟨.seen e, trivial, ?_, .inr ⟨message, e, rfl, rfl, hgrows, ?_⟩⟩
    · refine Evidence.step hI hdistinct hI.sound (InMemoryFlowSideEffectLedger.Grows.refl ledger)
        (fun y hy => .inl hy) (by simp) ?_ (fun y hy => by cases hy)
      intro y hy
      cases hy
      exact ⟨e, by rw [hid]; exact he, LedgerEffect.Grows.refl e⟩
    · have := hgrows.revision
      omega

include hdistinct in
/-- A start prepares its record under an identifier of its own, or reads the one there is. -/
theorem evidence_prepare {effect : LedgerEffect} (hid : (calls i).effectId = some effect.id) :
    (evidenceOutline calls).Step LedgerOp.exec i (.prepare effect) .fresh fun r g' =>
      (∃ e : EffectError, e.mild ∧ r = .error e) ∨
      ∃ x, r = .ok x ∧ g' = .seen x ∧ x.Early ∧ x.operation = effect.operation ∧
        x.retryMode = effect.retryMode := by
  intro ledger log ghost hg hI _
  have hnone : ledger.effects effect.id = none := hI.fresh i effect.id hg hid
  obtain ⟨e, hmild, heq⟩ | ⟨existing, hstored, hoperation, hmode, heq⟩ |
    ⟨hphase, hrevision, -, heq⟩ := InMemoryFlowSideEffectLedger.prepare_cases hI.sound effect
  · have hexec : LedgerOp.exec (.prepare effect) ledger = (.error e, ledger) := heq
    rw [hexec]
    refine ⟨.past, trivial, ?_, .inl ⟨e, hmild, rfl⟩⟩
    exact Evidence.step hI hdistinct hI.sound (InMemoryFlowSideEffectLedger.Grows.refl ledger)
      (fun x hx => .inl hx) (by simp) (fun x hx => by cases hx) (fun x hx => by cases hx)
  · have hexec : LedgerOp.exec (.prepare effect) ledger = (.ok existing, ledger) := heq
    rw [hexec]
    refine ⟨.seen existing, trivial, ?_, .inr ⟨existing, rfl, rfl,
      (hI.sound.stored _ _ hstored).2.2, hoperation, hmode⟩⟩
    refine Evidence.step hI hdistinct hI.sound (InMemoryFlowSideEffectLedger.Grows.refl ledger)
      (fun x hx => .inl hx) (by simp) ?_ (fun x hx => by cases hx)
    intro x hx
    cases hx
    exact ⟨existing, hstored, LedgerEffect.Grows.refl existing⟩
  · obtain ⟨hsound, hgrows⟩ := InMemoryFlowSideEffectLedger.prepare_sound hI.sound hnone
    have hexec : LedgerOp.exec (.prepare effect) ledger = ledger.prepare effect := rfl
    rw [hexec]
    rw [heq] at hsound hgrows ⊢
    refine ⟨.seen effect, trivial, ?_, .inr ⟨effect, rfl, rfl, ⟨fun _ => hrevision, ?_⟩, rfl, rfl⟩⟩
    · refine Evidence.step hI hdistinct hsound hgrows (fun x hx => ?_) (by simp) ?_
        (fun x hx => by cases hx)
      · by_cases hx' : x = effect.id
        · subst hx'
          exact .inr hid
        · left
          simp only [Function.update_of_ne hx']
          exact hx
      · intro x hx
        cases hx
        exact ⟨effect, Function.update_self _ _ _, LedgerEffect.Grows.refl effect⟩
    · intro haborted
      rw [hphase] at haborted
      cases haborted

def rounds (x : LedgerEffect) : Nat :=
  match x.phase with
  | .prepared => 3
  | .aborted => 2
  | .started | .confirmed => 1

theorem rounds_lt {x e : LedgerEffect} (hx : x.phase = .prepared ∨ x.phase = .aborted)
    (hearly : x.Early) (hlater : e.Early) (hlt : x.revision < e.revision) :
    rounds e < rounds x := by
  have hprepared := hearly.1
  have haborted := hearly.2
  have hprepared' := hlater.1
  have haborted' := hlater.2
  unfold rounds
  cases hx with
  | inl hp =>
    have hone := hprepared hp
    cases he : e.phase <;> simp only [hp] <;> first | omega | (have hp' := hprepared' he; omega)
  | inr hp =>
    have htwo := haborted hp
    cases he : e.phase <;> simp only [hp] <;>
      first | omega | (have hp' := hprepared' he; omega) | (have ha' := haborted' he; omega)

/-- How a started record is handed over: held, or read by an idempotent start. -/
def Handed (x started : LedgerEffect) (g : EffectStage) : Prop :=
  started.operation = x.operation ∧ started.retryMode = x.retryMode ∧
    (g = .held started ∨ (g = .seen started ∧ started.retryMode = .idempotent))

include hdistinct in
theorem evidence_startOrReplay {fuel : Nat} {x : LedgerEffect} (hearly : x.Early)
    (hfuel : rounds x ≤ fuel) :
    (evidenceOutline calls).Safe LedgerOp.exec i (Handed x) (fun e _ => e.mild)
      (FlowToolSideEffectRecorder.startOrReplay fuel x) (.seen x) := by
  induction fuel generalizing x with
  | zero =>
    have : 1 ≤ rounds x := by
      unfold rounds
      split <;> omega
    omega
  | succ fuel ih =>
    unfold FlowToolSideEffectRecorder.startOrReplay
    by_cases hx : x.phase = .prepared ∨ x.phase = .aborted
    · rw [if_pos hx]
      refine (evidence_markStarted hdistinct hx).safe ?_
      intro r g' hr
      cases hr with
      | inl hstarted =>
        obtain ⟨rfl, rfl⟩ := hstarted
        exact ⟨rfl, rfl, .inl rfl⟩
      | inr hstale =>
        obtain ⟨message, e, rfl, rfl, hgrows, hlt⟩ := hstale
        have hid : x.id = e.id := hgrows.id.symm
        simp only
        rw [hid]
        refine (evidence_reread hdistinct).safe ?_
        intro r g'' hr
        obtain ⟨e', rfl, rfl, hgrows', hearly'⟩ := hr
        have hrevision := hgrows'.revision
        have hrounds := rounds_lt hx hearly hearly' (by omega)
        refine (ih hearly' (by omega)).mono ?_ fun _ _ he => he
        intro started g hhanded
        obtain ⟨hoperation, hmode, hstage⟩ := hhanded
        exact ⟨(hoperation.trans hgrows'.operation).trans hgrows.operation,
          (hmode.trans hgrows'.retryMode).trans hgrows.retryMode, hstage⟩
    · rw [if_neg hx]
      by_cases hmode : x.retryMode = .idempotent
      · rw [if_pos hmode]
        exact ⟨rfl, rfl, .inr ⟨rfl, hmode⟩⟩
      · rw [if_neg hmode]
        exact ⟨by simp, by simp⟩

/-- What the task of a call knows when it returns a receipt: the record of the receipt is the
one its call is for. -/
def Receipted (digest : String → String) (call : EffectCall)
    (outcome : Option ToolSideEffectReceipt) (g : EffectStage) : Prop :=
  ∀ receipt, outcome = some receipt → ∃ x token, receipt.token = some token ∧
    token.effectId = x.id ∧ (g = .held x ∨ (g = .seen x ∧ x.retryMode = .idempotent)) ∧
    ∀ flowRunId invocationId callId,
      call.unsafeTarget = some (flowRunId, invocationId, callId) →
      x.retryMode = .unsafeRetry ∧ x.operation =
        (flowRunId, invocationId, FlowToolSideEffectRecorder.operationKey digest callId)

include hdistinct in
theorem evidence_start (digest : String → String) {fuel : Nat} (hfuel : 3 ≤ fuel)
    {effectId : UUID} {call : ToolCall} {toolName : String} {mode : ToolSideEffectMode}
    {context : EffectContext} (hcall : calls i = .start effectId call toolName mode context) :
    (evidenceOutline calls).Safe LedgerOp.exec i
      (fun receipt g => Receipted digest (calls i) (some receipt) g) (fun e _ => e.mild)
      (FlowToolSideEffectRecorder.start digest fuel effectId call toolName mode context)
      .fresh := by
  unfold FlowToolSideEffectRecorder.start
  split
  · rename_i flowRunId invocationId hflow hinvocation
    split
    · split
      · rename_i e hvalidate
        unfold LedgerEffect.validate at hvalidate
        repeat' split at hvalidate
        all_goals cases hvalidate
        all_goals exact ⟨by simp, by simp⟩
      · rename_i effect hvalidate
        obtain rfl := LedgerEffect.validate_ok hvalidate
        unfold FlowToolSideEffectRecorder.begin
        refine (evidence_prepare hdistinct (by rw [hcall]; rfl)).safe ?_
        intro r g' hr
        cases hr with
        | inl hrefused =>
          obtain ⟨e, hmild, rfl⟩ := hrefused
          exact hmild
        | inr hread =>
          obtain ⟨x, rfl, rfl, hearly, hoperation, hmode⟩ := hread
          have hrounds : rounds x ≤ fuel := by
            unfold rounds
            split <;> omega
          refine (evidence_startOrReplay hdistinct hearly hrounds).bind ?_
          intro started g hhanded receipt hreceipt
          cases hreceipt
          obtain ⟨hsame, hsameMode, hstage⟩ := hhanded
          refine ⟨started, _, rfl, rfl, hstage, fun flow invocation callId htarget => ?_⟩
          rw [hcall] at htarget
          unfold EffectCall.unsafeTarget at htarget
          split at htarget
          · rename_i heq
            cases heq
            cases htarget
            cases hflow
            cases hinvocation
            exact ⟨hsameMode.trans hmode, hsame.trans hoperation⟩
          · cases htarget
    · exact ⟨by simp, by simp⟩
  · exact ⟨by simp, by simp⟩

include hdistinct in
theorem evidence_confirm {receipt : ToolSideEffectReceipt} :
    (evidenceOutline calls).Safe LedgerOp.exec i (fun _ _ => True) (fun _ _ => True)
      (FlowToolSideEffectRecorder.confirm receipt) g := by
  unfold FlowToolSideEffectRecorder.confirm
  split
  · trivial
  · split
    · refine (evidence_transition hdistinct fun _ => rfl).safe ?_
      intro r g' _
      split
      · trivial
      · refine (evidence_get hdistinct _).safe ?_
        intro r g'' _
        split
        · trivial
        · split <;> trivial
      · trivial
    · trivial

include hdistinct in
theorem evidence_task {digest : String → String} {fuel : Nat} (hfuel : 3 ≤ fuel) :
    (evidenceOutline calls).Safe LedgerOp.exec i (Receipted digest (calls i))
      (fun e _ => (calls i).starts = true → e.mild) ((calls i).task digest fuel) .fresh := by
  have hnone : ∀ g, Receipted digest (calls i) none g := by
    intro g receipt hreceipt
    cases hreceipt
  cases hcall : calls i with
  | start effectId call toolName mode context =>
    have hstart := evidence_start hdistinct digest hfuel hcall
    rw [hcall] at hstart
    refine (hstart.mono (fun _ _ hq => hq) fun _ _ he _ => he).bind ?_
    intro receipt g hreceipt
    exact hreceipt
  | confirm receipt =>
    refine ((evidence_confirm hdistinct).mono (fun _ _ hq => hq)
      fun _ _ _ hstarts => (by cases hstarts)).bind ?_
    intro _ g _
    rw [← hcall]
    exact hnone g
  | confirmEffect effectId revision =>
    refine (evidence_transition hdistinct fun _ => rfl).safe ?_
    intro r g' _
    cases r with
    | error e => exact fun hstarts => (by cases hstarts)
    | ok effect =>
      rw [← hcall]
      exact hnone g'
  | abortEffect effectId revision =>
    refine (evidence_transition hdistinct fun _ => rfl).safe ?_
    intro r g' _
    cases r with
    | error e => exact fun hstarts => (by cases hstarts)
    | ok effect =>
      rw [← hcall]
      exact hnone g'

end Steps

/-- Along every run of any number of calls on one ledger, with identifiers of their own for the
records of the starts: of the unsafe starts for one call at most one has a receipt, no start has
a receipt for an unsafe record that is retry-safe, and no start ends in a refused transition or
for want of rounds. -/
theorem unsafe_effects_started_once (digest : String → String) (fuel : Nat) (hfuel : 3 ≤ fuel)
    (calls : ι → EffectCall)
    (hdistinct : ∀ i j x, (calls i).effectId = some x → (calls j).effectId = some x → i = j)
    (schedule : List ι) :
    (∀ i j receipt receipt' target, (calls i).unsafeTarget = some target →
      (calls j).unsafeTarget = some target →
      ((startEffects digest fuel calls).run LedgerOp.exec schedule).tasks i =
        .ret (some receipt) →
      ((startEffects digest fuel calls).run LedgerOp.exec schedule).tasks j =
        .ret (some receipt') → i = j) ∧
    (∀ effectId effect,
      ((startEffects digest fuel calls).run LedgerOp.exec schedule).shared.effects effectId =
        some effect →
      effect.retryMode = .unsafeRetry → effect.retrySafe = true →
      ∀ i receipt token,
        ((startEffects digest fuel calls).run LedgerOp.exec schedule).tasks i =
          .ret (some receipt) → receipt.token = some token → token.effectId ≠ effectId) ∧
    ∀ i, (calls i).starts = true →
      ((startEffects digest fuel calls).run LedgerOp.exec schedule).tasks i ≠ .raise .exhausted ∧
      ∀ message, ((startEffects digest fuel calls).run LedgerOp.exec schedule).tasks i ≠
        .raise (.invalidTransition message) := by
  have hsound : ({} : InMemoryFlowSideEffectLedger).Sound :=
    ⟨fun _ _ h => (by cases h), fun _ _ h => (by cases h)⟩
  have hinit : Evidence calls {} fun _ => .fresh :=
    { sound := hsound
      fresh := fun _ _ _ _ => rfl
      known := fun _ _ h => (by cases h)
      begun := fun _ _ h => (by cases h)
      single := fun _ _ _ _ h => (by cases h) }
  have hholds : Outline.Holds LedgerOp.exec (evidenceOutline calls)
      (fun i => Receipted digest (calls i)) (fun i e _ => (calls i).starts = true → e.mild)
      (startEffects digest fuel calls) fun _ => .fresh :=
    ⟨hinit, fun i => evidence_task hdistinct hfuel⟩
  obtain ⟨ghost, hinv, hsafe⟩ :=
    hholds.run_all (fun _ _ _ _ _ => trivial) (fun _ _ => trivial) schedule
  have hreceipt : ∀ i receipt,
      ((startEffects digest fuel calls).run LedgerOp.exec schedule).tasks i =
        .ret (some receipt) → Receipted digest (calls i) (some receipt) (ghost i) := by
    intro i receipt hret
    have hi := hsafe i
    rw [hret] at hi
    exact hi
  have hheld : ∀ {i : ι} {x : LedgerEffect}, (ghost i = .held x ∨
      (ghost i = .seen x ∧ x.retryMode = .idempotent)) → x.retryMode = .unsafeRetry →
      ghost i = .held x := by
    intro i x hstage hunguarded
    cases hstage with
    | inl hheld => exact hheld
    | inr hseen =>
      rw [hunguarded] at hseen
      cases hseen.2
  refine ⟨?_, ?_, ?_⟩
  · intro i j receipt receipt' target hi hj hreti hretj
    obtain ⟨flowRunId, invocationId, callId⟩ := target
    obtain ⟨x, token, -, -, hx, hxt⟩ := hreceipt i receipt hreti receipt rfl
    obtain ⟨y, token', -, -, hy, hyt⟩ := hreceipt j receipt' hretj receipt' rfl
    obtain ⟨hxmode, hxop⟩ := hxt _ _ _ hi
    obtain ⟨hymode, hyop⟩ := hyt _ _ _ hj
    have hxheld := hheld hx hxmode
    have hyheld := hheld hy hymode
    -- both records are the one the operation finds
    obtain ⟨e, he, hxe⟩ := hinv.known i x (by rw [hxheld]; rfl)
    obtain ⟨e', he', hye⟩ := hinv.known j y (by rw [hyheld]; rfl)
    have hfound := (hinv.sound.stored _ _ he).2.1
    have hfound' := (hinv.sound.stored _ _ he').2.1
    rw [hxe.operation, hxop] at hfound
    rw [hye.operation, hyop, hfound] at hfound'
    exact hinv.single i j x y hxheld hyheld (Option.some.inj hfound') hxmode
  · intro effectId effect heffect hunguarded hsafe' i receipt token hret htoken hid
    obtain ⟨x, token', htoken', hxid, hx, -⟩ := hreceipt i receipt hret receipt rfl
    rw [htoken] at htoken'
    cases htoken'
    have hxid : x.id = effectId := hxid.symm.trans hid
    obtain ⟨e, he, hxe⟩ := hinv.known i x (by
      cases hx with
      | inl h => rw [h]; rfl
      | inr h => rw [h.1]; rfl)
    rw [hxid, heffect] at he
    cases he
    have hmode : x.retryMode = .unsafeRetry := hxe.retryMode.symm.trans hunguarded
    have hbegun := hxe.begun (hinv.begun i x (hheld hx hmode) hmode)
    simp only [FlowSideEffect.retrySafe, decide_eq_true_eq] at hsafe'
    cases hbegun with
    | inl hphase => simp_all
    | inr hphase => simp_all
  · intro i hstarts
    have hmild : ∀ e, ((startEffects digest fuel calls).run LedgerOp.exec schedule).tasks i =
        .raise e → e.mild := by
      intro e hraise
      have hi := hsafe i
      rw [hraise] at hi
      exact hi hstarts
    exact ⟨fun hraise => (hmild _ hraise).1 rfl,
      fun message hraise => (hmild _ hraise).2 message rfl⟩

end Evidence

/-! ## Two starts and an abort -/

def callDigest (_ : String) : String :=
  "6b86b273ff34fce19d6b804eff5a3f5747ada4eaa22f1d49c01e52ddb7875b4b"

/-- Two starts for one call, and an abort of the record that the first prepares. -/
def racingCalls : Fin 3 → EffectCall
  | 0 => .start 1 ⟨"1", "pay", []⟩ "pay" .unsafeEffect ⟨some 7, some 8⟩
  | 1 => .start 2 ⟨"1", "pay", []⟩ "pay" .unsafeEffect ⟨some 7, some 8⟩
  | 2 => .abortEffect 1 1

/-- The abort comes between the two steps of the first start, and the second start before its
next attempt. -/
def racingRun :
    Pool (Fin 3) LedgerOp LedgerOp.Ret EffectError (Option ToolSideEffectReceipt)
      InMemoryFlowSideEffectLedger :=
  (startEffects callDigest 3 racingCalls).run LedgerOp.exec [0, 2, 1, 0, 1, 0]

/-- The second start has the receipt and the first is refused. -/
theorem unsafe_effects_started_once_raced :
    ((racingRun.tasks 1).done = true ∧ (racingRun.tasks 1).raised = none) ∧
    (racingRun.tasks 0).raised =
      some (.replayUnsafe "unprotected side effect may already have executed") ∧
    ∀ message, racingRun.tasks 0 ≠ .raise (.invalidTransition message) := by
  refine ⟨by decide, by decide, ?_⟩
  have honce := unsafe_effects_started_once callDigest 3 (by decide) racingCalls
    (by decide) [0, 2, 1, 0, 1, 0]
  exact (honce.2.2 0 rfl).2

end Flows
end BaseAgent

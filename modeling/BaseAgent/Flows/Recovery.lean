import BaseAgent.Flows.Lifecycle

/-!
# Recovery decisions

`FlowRecoveryPolicy.decide` maps a work command and the stored Flow state to the
action a worker may take.  It continues a Flow on its own only at states where no
transport can be in flight.
-/

namespace BaseAgent
namespace Flows

inductive FlowWorkKind where
  | execute | resume | cancel | recover
  deriving DecidableEq, Repr

structure FlowWorkCommand where
  id : UUID
  runId : UUID
  kind : FlowWorkKind := .execute
  idempotencyKey : String
  data : List (String × JsonValue) := []
  createdAt : Time := 0

def FlowWorkCommand.hasSameIntent (command other : FlowWorkCommand) : Bool :=
  command.runId = other.runId ∧ command.kind = other.kind ∧
    JsonValue.equal (.obj command.data) (.obj other.data) = true

inductive FlowSideEffectPhase where
  | prepared | started | confirmed | aborted
  deriving DecidableEq, Repr

inductive FlowSideEffectRetryMode where
  | unsafeRetry | idempotent
  deriving DecidableEq, Repr

structure FlowSideEffect where
  phase : FlowSideEffectPhase := .prepared
  retryMode : FlowSideEffectRetryMode := .unsafeRetry
  deriving DecidableEq, Repr

def FlowSideEffect.retrySafe (effect : FlowSideEffect) : Bool :=
  effect.phase = .prepared ∨ effect.phase = .aborted ∨ effect.retryMode = .idempotent

inductive FlowRecoveryAction where
  | start | advance | resume | finalize | cancel | noop | manualReview
  deriving DecidableEq, Repr

inductive FlowRecoveryReason where
  | createdSafeToStart | idleSafeToAdvance | settledFailureSafeToFinalize
  | waitingInputAvailable | waitingConfirmationAvailable | cancellationRequested
  | terminalAlreadySettled | activeInvocationUncertain | activeSideEffectRetryUnsafe
  | waitingInputRequired | resumeStateMismatch | unsupportedState
  | definitionNotFound | definitionFingerprintMismatch
  deriving DecidableEq, Repr

def FlowRecoveryReason.value : FlowRecoveryReason → String
  | createdSafeToStart => "created_safe_to_start"
  | idleSafeToAdvance => "idle_safe_to_advance"
  | settledFailureSafeToFinalize => "settled_failure_safe_to_finalize"
  | waitingInputAvailable => "waiting_input_available"
  | waitingConfirmationAvailable => "waiting_confirmation_available"
  | cancellationRequested => "cancellation_requested"
  | terminalAlreadySettled => "terminal_already_settled"
  | activeInvocationUncertain => "active_invocation_uncertain"
  | activeSideEffectRetryUnsafe => "active_side_effect_retry_unsafe"
  | waitingInputRequired => "waiting_input_required"
  | resumeStateMismatch => "resume_state_mismatch"
  | unsupportedState => "unsupported_state"
  | definitionNotFound => "definition_not_found"
  | definitionFingerprintMismatch => "definition_fingerprint_mismatch"

structure FlowRecoveryDecision where
  action : FlowRecoveryAction
  reason : FlowRecoveryReason
  deriving DecidableEq, Repr

/-- The policy.  `modelValidate` is the validation of a confirmation payload, which
the model library performs. -/
structure FlowRecoveryPolicy where
  modelValidate : List (String × JsonValue) → Option ToolConfirmation

namespace FlowRecoveryPolicy

variable (policy : FlowRecoveryPolicy)

def confirmationFromCommand (command : FlowWorkCommand) : Option ToolConfirmation :=
  match JsonValue.lookup command.data "confirmation" with
  | some (.obj fields) => policy.modelValidate fields
  | _ => none

/-- `isinstance(user_input, str) and bool(user_input.strip())`. -/
def hasUserInput (command : FlowWorkCommand) : Bool :=
  match JsonValue.lookup command.data "user_input" with
  | some (.str text) => !isBlank text
  | some (.uuid _) | some (.time _) => true
  | _ => false

def decideResume (command : FlowWorkCommand) (s : FlowRunState) : FlowRecoveryDecision :=
  let hasConfirmation := (policy.confirmationFromCommand command).isSome
  if s.status = .waiting ∧ hasUserInput command ≠ hasConfirmation then
    ⟨.resume, if hasConfirmation then .waitingConfirmationAvailable else .waitingInputAvailable⟩
  else
    ⟨.manualReview, if s.status = .waiting then .waitingInputRequired else .resumeStateMismatch⟩

def decideExecute (s : FlowRunState) (sideEffects : List FlowSideEffect) :
    FlowRecoveryDecision :=
  match s.status with
  | .created => ⟨.start, .createdSafeToStart⟩
  | .waiting => ⟨.manualReview, .waitingInputRequired⟩
  | .running =>
    match s.activeInvocation with
    | some _ =>
      ⟨.manualReview, if sideEffects.any fun effect => !effect.retrySafe then
        .activeSideEffectRetryUnsafe else .activeInvocationUncertain⟩
    | none =>
      match s.invocations.getLast? with
      | none => ⟨.advance, .idleSafeToAdvance⟩
      | some last =>
        if last.status = .completed then ⟨.advance, .idleSafeToAdvance⟩
        else ⟨.finalize, .settledFailureSafeToFinalize⟩
  | _ => ⟨.manualReview, .unsupportedState⟩

def decide (command : FlowWorkCommand) (s : FlowRunState) (sideEffects : List FlowSideEffect) :
    Except FlowError FlowRecoveryDecision :=
  if command.runId ≠ s.runId then
    .error (.value "Flow work command targets another Flow Run")
  else if s.status.terminal then .ok ⟨.noop, .terminalAlreadySettled⟩
  else
    match command.kind with
    | .cancel => .ok ⟨.cancel, .cancellationRequested⟩
    | .resume => .ok (policy.decideResume command s)
    | .execute | .recover => .ok (decideExecute s sideEffects)

theorem decide_active {command : FlowWorkCommand} {s : FlowRunState}
    {sideEffects : List FlowSideEffect} (hrun : command.runId = s.runId)
    (hstatus : s.status = .running) (hactive : s.activeInvocation.isSome = true)
    (hkind : command.kind ≠ .cancel) :
    ∃ reason, policy.decide command s sideEffects = .ok ⟨.manualReview, reason⟩ := by
  obtain ⟨active, hactive⟩ := Option.isSome_iff_exists.mp hactive
  unfold decide
  rw [if_neg (by simpa using hrun), if_neg (by simp [hstatus, RunStatus.terminal])]
  cases hk : command.kind with
  | cancel => exact absurd hk hkind
  | resume => exact ⟨_, by simp [decideResume, hstatus]; rfl⟩
  | execute => exact ⟨_, by simp [decideExecute, hstatus, hactive]; rfl⟩
  | recover => exact ⟨_, by simp [decideExecute, hstatus, hactive]; rfl⟩

end FlowRecoveryPolicy

end Flows
end BaseAgent

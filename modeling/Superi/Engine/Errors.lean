import Superi.Core.Diagnostics
import Superi.Engine.Lifecycle

/-!
# Errors — classified failures and their recovery

The error coordinator keeps one active failure per subsystem beside the lifecycle and routes
failures and recoveries through it.  A recovery is named by a token that carries the lifecycle
action behind it.  Calls work on the coordinator and the lifecycle together; what a failed call has
changed in the lifecycle stays changed.
-/

namespace Superi
namespace Engine

open Core Concurrency Stateful

/-! ## Failures and recoveries -/

inductive EngineFailureDisposition
  | retryAvailable
  | continueDegraded
  | userCorrectionRequired
  | restartRequired
  deriving DecidableEq, Repr

inductive EngineRecoveryRequest
  | retryOperation
  | restoreSubsystem
  | applyUserCorrection
  deriving DecidableEq, Repr

def EngineSubsystem.code : EngineSubsystem → String
  | .sharedState => "shared_state"
  | .projects => "projects"
  | .devices => "devices"
  | .playback => "playback"
  | .rendering => "rendering"
  | .exports => "export"

def recoverabilityCode : Recoverability → String
  | .retryable => "retryable"
  | .degraded => "degraded"
  | .userCorrectable => "user_correctable"
  | .terminal => "terminal"

namespace EngineFailureDisposition

def code : EngineFailureDisposition → String
  | .retryAvailable => "retry_available"
  | .continueDegraded => "continue_degraded"
  | .userCorrectionRequired => "user_correction_required"
  | .restartRequired => "restart_required"

def fromRecoverability : Recoverability → EngineFailureDisposition
  | .retryable => .retryAvailable
  | .degraded => .continueDegraded
  | .userCorrectable => .userCorrectionRequired
  | .terminal => .restartRequired

/-- The recovery intent that a disposition accepts. -/
def recoveryRequest : EngineFailureDisposition → Option EngineRecoveryRequest
  | .retryAvailable => some .retryOperation
  | .continueDegraded => some .restoreSubsystem
  | .userCorrectionRequired => some .applyUserCorrection
  | .restartRequired => none

end EngineFailureDisposition

def EngineRecoveryRequest.code : EngineRecoveryRequest → String
  | .retryOperation => "retry_operation"
  | .restoreSubsystem => "restore_subsystem"
  | .applyUserCorrection => "apply_user_correction"

/-- Evidence of one active failure. -/
structure EngineFailureRecord where
  sequence : Nat
  subsystem : EngineSubsystem
  operation : String
  recoveryAttempts : Nat
  disposition : EngineFailureDisposition
  engineLifetime : Nat
  stateRevision : Nat
  diagnostic : DiagnosticEvent

/-- The token of one recovery attempt. -/
structure EngineRecoveryAction where
  sequence : Nat
  subsystem : EngineSubsystem
  request : EngineRecoveryRequest
  attempt : Nat
  lifecycleAction : EngineLifecycleAction
  deriving DecidableEq, Repr

structure EngineFailureReport where
  failure : EngineFailureRecord
  lifecycle : EngineLifecycleSnapshot

structure EngineRecoveryStart where
  action : EngineRecoveryAction
  lifecycle : EngineLifecycleSnapshot

structure EngineRecoveryReport where
  sequence : Nat
  subsystem : EngineSubsystem
  request : EngineRecoveryRequest
  attempt : Nat
  diagnostic : DiagnosticEvent
  lifecycle : EngineLifecycleSnapshot

/-- Failure evidence as a subsystem supplies it. -/
structure EngineReportedFailure where
  category : ErrorCategory
  recoverability : Recoverability
  message : String
  contexts : List ErrorContext
  deriving DecidableEq, Repr

def EngineReportedFailure.intoError (failure : EngineReportedFailure) : Error :=
  failure.contexts.foldl Error.withContext
    (.new failure.category failure.recoverability failure.message)

/-! ## Owned state -/

def defaultErrorHistoryCapacity : Nat := 64

structure EngineErrorState where
  lastSequence : Nat
  active : EngineSubsystem → Option EngineFailureRecord
  history : List DiagnosticEvent
  historyCapacity : Nat

namespace EngineErrorState

def new (historyCapacity : Nat) : EngineErrorState := ⟨0, fun _ => none, [], historyCapacity⟩

def setActive (errors : EngineErrorState) (subsystem : EngineSubsystem)
    (failure : Option EngineFailureRecord) : EngineErrorState :=
  { errors with active := Function.update errors.active subsystem failure }

/-- Keep a diagnostic, and forget the oldest one when the history is full. -/
def pushHistory (errors : EngineErrorState) (diagnostic : DiagnosticEvent) : EngineErrorState :=
  { errors with
    history := (if errors.history.length = errors.historyCapacity then errors.history.tail
      else errors.history) ++ [diagnostic] }

end EngineErrorState

/-- The coordinator together with the lifecycle it is lent. -/
structure EngineControl where
  errors : EngineErrorState
  lifecycle : EngineOwnedState

abbrev ControlM := EStateM Error EngineControl

/-- Call the lifecycle. -/
def onLifecycle {α : Type} (call : EngineM α) : ControlM α :=
  onPart EngineControl.lifecycle (fun control lifecycle => { control with lifecycle }) call

def coordinatorError (category : ErrorCategory) (recoverability : Recoverability)
    (message operation : String) : Error :=
  (Error.new category recoverability message).withContext ⟨"superi-engine.error", operation⟩

def staleFailureError (operation : String) : Error :=
  (coordinatorError .conflict .retryable "failure sequence is stale or no longer active"
    operation).withContext ⟨"superi-engine.error", "stale_failure"⟩

/-! ## Operation labels -/

def maxFailureOperationBytes : Nat := 128

/-- A character of the white space that labels are trimmed of. -/
def isWhitespace (c : Char) : Bool :=
  (9 ≤ c.toNat && c.toNat ≤ 13) || (0x2000 ≤ c.toNat && c.toNat ≤ 0x200A) ||
    [0x20, 0x85, 0xA0, 0x1680, 0x2028, 0x2029, 0x202F, 0x205F, 0x3000].contains c.toNat

def trim (value : String) : String :=
  .ofList ((value.toList.dropWhile isWhitespace).reverse.dropWhile isWhitespace).reverse

def validateOperation (operation : String) : Except Error String :=
  let trimmed := trim operation
  if trimmed = "" ∨ maxFailureOperationBytes < trimmed.utf8ByteSize then
    .error ((coordinatorError .invalidInput .userCorrectable
      "engine failure operation must be a nonempty bounded label"
      "validate_operation").withContext ⟨"superi-engine.error", "operation_label"⟩)
  else .ok trimmed

/-! ## Diagnostics -/

def failureEvent (error : Error) (subsystem : EngineSubsystem) (operation : String)
    (sequence recoveryAttempts : Nat) (disposition : EngineFailureDisposition) :
    Except Error DiagnosticEvent := do
  let event ← DiagnosticEvent.fromError "engine.subsystem.failed" "superi-engine.error" error
  event.withFields [
    ("subsystem", ⟨.text subsystem.code, .userSafe⟩),
    ("recoverability", ⟨.text (recoverabilityCode error.recoverability), .userSafe⟩),
    ("disposition", ⟨.text disposition.code, .userSafe⟩),
    ("operation", ⟨.text operation, .internal⟩),
    ("failure_sequence", ⟨.unsigned sequence, .internal⟩),
    ("recovery_attempt", ⟨.unsigned recoveryAttempts, .internal⟩)]

def recoveryEvent (active : EngineFailureRecord) (action : EngineRecoveryAction) :
    Except Error DiagnosticEvent := do
  let event ← DiagnosticEvent.new "engine.subsystem.recovered" "superi-engine.error" .info
    "engine subsystem recovered"
  event.withFields [
    ("subsystem", ⟨.text action.subsystem.code, .userSafe⟩),
    ("disposition", ⟨.text active.disposition.code, .userSafe⟩),
    ("recovery_request", ⟨.text action.request.code, .userSafe⟩),
    ("operation", ⟨.text active.operation, .internal⟩),
    ("failure_sequence", ⟨.unsigned action.sequence, .internal⟩),
    ("recovery_attempt", ⟨.unsigned action.attempt, .internal⟩)]

/-! ## Calls -/

def nextFailureSequence : ControlM Nat := do
  let control ← get
  refuseIf (maxCounter ≤ control.errors.lastSequence) (coordinatorError .resourceExhausted .terminal
    "engine failure sequence is exhausted" "allocate_failure_sequence")
  return control.errors.lastSequence + 1

/-- The active failure of a subsystem, which has to carry the sequence. -/
def activeFailure (subsystem : EngineSubsystem) (sequence : Nat) (operation : String) :
    ControlM EngineFailureRecord := do
  let control ← get
  match control.errors.active subsystem with
  | none => throw (staleFailureError operation)
  | some active => do
      refuseIf (active.sequence ≠ sequence) (staleFailureError operation)
      return active

def validateRecoveryAction (action : EngineRecoveryAction) (operation : String) :
    ControlM EngineFailureRecord := do
  let active ← activeFailure action.subsystem action.sequence operation
  refuseIf (active.recoveryAttempts ≠ action.attempt ∨
      active.disposition.recoveryRequest ≠ some action.request)
    ((coordinatorError .conflict .retryable
      "recovery action refers to stale or reclassified failure state" operation).withContext
      ⟨"superi-engine.error", "recover_subsystem"⟩)
  return active

/-- Remember a failure that the lifecycle has published. -/
def keepFailure (failure : EngineFailureRecord) (lifecycle : EngineLifecycleSnapshot) :
    ControlM EngineFailureReport := do
  modify fun control => { control with
    errors := ({ control.errors with lastSequence := failure.sequence }.setActive failure.subsystem
      (some failure)).pushHistory failure.diagnostic }
  return ⟨failure, lifecycle⟩

/-- Report the failure of a ready subsystem. -/
def reportFailure (subsystem : EngineSubsystem) (operation : String) (error : Error) :
    ControlM EngineFailureReport := do
  let operation ← ofExcept (validateOperation operation)
  let control ← get
  refuseIf ((control.errors.active subsystem).isSome = true)
    ((coordinatorError .conflict .retryable "subsystem already has an active propagated failure"
      "report_failure").withContext ⟨"superi-engine.error", "active_failure"⟩)
  let sequence ← nextFailureSequence
  let disposition := EngineFailureDisposition.fromRecoverability error.recoverability
  let error := error.withContext ⟨"superi-engine.error", "propagate_failure"⟩
  let diagnostic ← ofExcept (failureEvent error subsystem operation sequence 0 disposition)
  let lifecycle ← onLifecycle (reportRuntimeFailure subsystem error)
  keepFailure ⟨sequence, subsystem, operation, 0, disposition, lifecycle.lifetime,
    lifecycle.stateRevision, diagnostic⟩ lifecycle

def maxRecoveryAttempts : Nat := 2 ^ 32 - 1

/-- Take the action that the lifecycle has published for a recovery. -/
def acceptRecovery (subsystem : EngineSubsystem) (active : EngineFailureRecord)
    (request : EngineRecoveryRequest) (lifecycle : EngineLifecycleSnapshot) :
    ControlM EngineRecoveryStart :=
  match lifecycle.pendingAction with
  | none => throw (coordinatorError .internal .terminal
      "engine lifecycle did not publish the requested recovery action" "begin_recovery")
  | some lifecycleAction => do
      refuseIf (lifecycleAction.subsystem ≠ subsystem ∨ lifecycleAction.kind ≠ .recover)
        ((coordinatorError .internal .terminal
          "engine lifecycle published a mismatched recovery action" "begin_recovery").withContext
          ⟨"superi-engine.error", "recover_subsystem"⟩)
      modify fun control => { control with
        errors := control.errors.setActive subsystem
          (some { active with recoveryAttempts := active.recoveryAttempts + 1 }) }
      return ⟨⟨active.sequence, subsystem, request, active.recoveryAttempts + 1,
        lifecycleAction⟩, lifecycle⟩

namespace EngineErrorCoordinator

/-- Begin the recovery from the active failure of a subsystem. -/
def beginRecovery (subsystem : EngineSubsystem) (sequence : Nat) (request : EngineRecoveryRequest) :
    ControlM EngineRecoveryStart := do
  let active ← activeFailure subsystem sequence "begin_recovery"
  refuseIf (active.disposition = .restartRequired)
    ((coordinatorError .conflict .terminal "terminal engine failure requires a new engine lifetime"
      "begin_recovery").withContext ⟨"superi-engine.error", "recover_subsystem"⟩)
  refuseIf (active.disposition.recoveryRequest ≠ some request)
    ((coordinatorError .invalidInput .userCorrectable
      "recovery request does not match the active failure classification"
      "begin_recovery").withContext ⟨"superi-engine.error", "recover_subsystem"⟩)
  refuseIf (maxRecoveryAttempts ≤ active.recoveryAttempts)
    ((coordinatorError .resourceExhausted .terminal "engine recovery attempt counter is exhausted"
      "begin_recovery").withContext ⟨"superi-engine.error", "recover_subsystem"⟩)
  let lifecycle ← onLifecycle (Engine.beginRecovery subsystem)
  acceptRecovery subsystem active request lifecycle

/-- Complete a recovery and clear its failure. -/
def completeRecovery (action : EngineRecoveryAction) : ControlM EngineRecoveryReport := do
  let active ← validateRecoveryAction action "complete_recovery"
  let diagnostic ← ofExcept (recoveryEvent active action)
  let lifecycle ← onLifecycle (completeAction action.lifecycleAction)
  modify fun control => { control with
    errors := (control.errors.setActive action.subsystem none).pushHistory diagnostic }
  return ⟨action.sequence, action.subsystem, action.request, action.attempt, diagnostic, lifecycle⟩

/-- Fail a recovery, which leaves a newly classified failure. -/
def failRecovery (action : EngineRecoveryAction) (error : Error) : ControlM EngineFailureReport := do
  let active ← validateRecoveryAction action "fail_recovery"
  let sequence ← nextFailureSequence
  let disposition := EngineFailureDisposition.fromRecoverability error.recoverability
  let error := error.withContext ⟨"superi-engine.error", "fail_recovery"⟩
  let diagnostic ← ofExcept (failureEvent error action.subsystem active.operation sequence
    action.attempt disposition)
  let lifecycle ← onLifecycle (failAction action.lifecycleAction error)
  keepFailure ⟨sequence, action.subsystem, active.operation, action.attempt, disposition,
    lifecycle.lifetime, lifecycle.stateRevision, diagnostic⟩ lifecycle

end EngineErrorCoordinator

end Engine
end Superi

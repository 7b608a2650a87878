import Mathlib
import Superi.Concurrency.Lifecycle

/-!
# Lifecycle — engine subsystems and their lifecycle actions

The engine owns six subsystems with fixed dependencies.  It issues one action at a time to the
owner of a subsystem and moves on when exactly that action is completed or failed.  Every change is
published as an immutable snapshot; work is admitted from the latest one.  A call that fails keeps
what it changed before it failed, as the source does.
-/

namespace Superi
namespace Engine

open Core Concurrency Stateful

/-- The largest value of a 64-bit counter. -/
def maxCounter : Nat := 2 ^ 64 - 1

/-! ## Subsystems -/

/-- One canonical subsystem; the last one is `Export` in the source. -/
inductive EngineSubsystem
  | sharedState
  | projects
  | devices
  | playback
  | rendering
  | exports
  deriving DecidableEq, Repr

namespace EngineSubsystem

/-- Every subsystem in initialization order. -/
def all : List EngineSubsystem :=
  [.sharedState, .projects, .devices, .playback, .rendering, .exports]

def dependencies : EngineSubsystem → List EngineSubsystem
  | .sharedState => []
  | .projects | .devices => [.sharedState]
  | .playback | .rendering => [.projects, .devices]
  | .exports => [.projects, .rendering]

/-- Whether the subsystem receives sleep and wake actions. -/
def participatesInSleep (subsystem : EngineSubsystem) : Bool := decide (subsystem ≠ .sharedState)

/-- Whether the subsystem keeps its resources while the system sleeps. -/
def retainsResourcesDuringSleep : EngineSubsystem → Bool
  | .sharedState | .projects => true
  | _ => false

end EngineSubsystem

inductive EngineSubsystemState
  | offline
  | initializing
  | ready
  | degraded
  | recovering
  | preparingSleep
  | sleeping
  | waking
  | stopping
  | failed
  deriving DecidableEq, Repr

inductive EngineHealth
  | healthy
  | degraded
  | failed
  deriving DecidableEq, Repr

/-! ## Actions and snapshots -/

/-- What an action asks of its owner; the first kind is `Initialize` in the source. -/
inductive EngineLifecycleActionKind
  | initializes
  | recover
  | prepareSleep
  | wake
  | teardown
  deriving DecidableEq, Repr

/-- The token of exactly one action. -/
structure EngineLifecycleAction where
  subsystem : EngineSubsystem
  kind : EngineLifecycleActionKind
  lifetime : Nat
  revision : Nat
  deriving DecidableEq, Repr

structure EngineFailureSnapshot where
  subsystem : EngineSubsystem
  category : ErrorCategory
  recoverability : Recoverability
  message : String
  contexts : List ErrorContext
  deriving DecidableEq, Repr

def EngineFailureSnapshot.fromError (subsystem : EngineSubsystem) (error : Error) :
    EngineFailureSnapshot where
  subsystem
  category := error.category
  recoverability := error.recoverability
  message := error.message
  contexts := error.contexts

structure EngineSubsystemSnapshot where
  subsystem : EngineSubsystem
  state : EngineSubsystemState
  ownsResources : Bool
  failure : Option EngineFailureSnapshot
  deriving DecidableEq, Repr

structure EngineLifecycleSnapshot where
  phase : LifecyclePhase
  lifecycleRevision : Nat
  stateRevision : Nat
  lifetime : Nat
  health : EngineHealth
  subsystems : List EngineSubsystemSnapshot
  pendingAction : Option EngineLifecycleAction
  failure : Option EngineFailureSnapshot
  deriving DecidableEq, Repr

/-! ## Admission of work -/

inductive EngineWorkKind
  | playback
  | rendering
  | exports
  deriving DecidableEq, Repr

/-- The subsystems a kind of work needs, in dependency order. -/
def EngineWorkKind.requiredSubsystems : EngineWorkKind → List EngineSubsystem
  | .playback => [.sharedState, .projects, .devices, .playback]
  | .rendering => [.sharedState, .projects, .devices, .rendering]
  | .exports => [.sharedState, .projects, .devices, .rendering, .exports]

/-- A permit of one state revision of one lifetime. -/
structure EngineWorkPermit where
  work : EngineWorkKind
  lifetime : Nat
  stateRevision : Nat
  deriving DecidableEq, Repr

structure EngineWorkDenial where
  work : EngineWorkKind
  phase : LifecyclePhase
  blockingSubsystem : Option EngineSubsystem
  failure : Option EngineFailureSnapshot
  deriving DecidableEq, Repr

inductive EngineWorkAdmission
  | granted (permit : EngineWorkPermit)
  | denied (denial : EngineWorkDenial)
  deriving DecidableEq, Repr

def EngineWorkAdmission.permit : EngineWorkAdmission → Option EngineWorkPermit
  | .granted permit => some permit
  | .denied _ => none

namespace EngineLifecycleSnapshot

def subsystem (snapshot : EngineLifecycleSnapshot) (subsystem : EngineSubsystem) :
    Option EngineSubsystemSnapshot :=
  snapshot.subsystems.find? fun entry => entry.subsystem = subsystem

/-- The first requirement that is not ready, with the denial it causes. -/
def firstDenial (snapshot : EngineLifecycleSnapshot) (work : EngineWorkKind) :
    List EngineSubsystem → Option EngineWorkDenial
  | [] => none
  | required :: rest =>
      match snapshot.subsystem required with
      | none => some ⟨work, snapshot.phase, some required, snapshot.failure⟩
      | some entry =>
          if entry.state ≠ .ready then
            some ⟨work, snapshot.phase, some required, entry.failure <|> snapshot.failure⟩
          else snapshot.firstDenial work rest

/-- Evaluate one workflow against this snapshot. -/
def admitWork (snapshot : EngineLifecycleSnapshot) (work : EngineWorkKind) : EngineWorkAdmission :=
  if snapshot.phase ≠ .running then .denied ⟨work, snapshot.phase, none, snapshot.failure⟩
  else
    match snapshot.firstDenial work work.requiredSubsystems with
    | some denial => .denied denial
    | none => .granted ⟨work, snapshot.lifetime, snapshot.stateRevision⟩

def isPermitCurrent (snapshot : EngineLifecycleSnapshot) (permit : EngineWorkPermit) : Bool :=
  decide (permit.lifetime = snapshot.lifetime) &&
    decide (permit.stateRevision = snapshot.stateRevision) &&
    decide ((snapshot.admitWork permit.work).permit = some permit)

end EngineLifecycleSnapshot

/-! ## Owned state -/

inductive EngineMode
  | starting
  | running
  | recovering
  | preparingSleep
  | sleeping
  | waking
  | stopping
  | rollingBack
  | idle
  deriving DecidableEq, Repr

structure SubsystemRecord where
  state : EngineSubsystemState
  ownsResources : Bool
  failure : Option EngineFailureSnapshot
  deriving DecidableEq, Repr

def SubsystemRecord.offline : SubsystemRecord := ⟨.offline, false, none⟩

/-- The state of the engine-control domain.  Every canonical subsystem has a record; a snapshot is
published before the state can be observed. -/
structure EngineOwnedState where
  coordinator : SharedLifecycle
  generation : Nat
  latest : EngineLifecycleSnapshot
  records : EngineSubsystem → SubsystemRecord
  mode : EngineMode
  lifetime : Nat
  stateRevision : Nat
  actionRevision : Nat
  currentAction : Option EngineLifecycleAction
  sleepPending : Finset EngineSubsystem
  wakePending : Finset EngineSubsystem
  teardownAttempted : Finset EngineSubsystem
  restartAfterStop : Bool
  lastFailure : Option EngineFailureSnapshot

/-- The only participant of the coordinator. -/
def participant : String := "superi-engine"

def engineError (category : ErrorCategory) (recoverability : Recoverability)
    (message operation : String) : Error :=
  (Error.new category recoverability message).withContext ⟨"superi-engine.lifecycle", operation⟩

def invalidState (operation : String) : Error :=
  engineError .conflict .userCorrectable
    "engine lifecycle operation is invalid in the current state" operation

abbrev EngineM := EStateM Error EngineOwnedState

namespace EngineOwnedState

def phase (owned : EngineOwnedState) : LifecyclePhase := owned.coordinator.state.phase

/-- A subsystem that can serve the subsystems that depend on it. -/
def serves (owned : EngineOwnedState) (subsystem : EngineSubsystem) : Bool :=
  (owned.records subsystem).ownsResources && (owned.records subsystem).state == .ready

def dependenciesServe (owned : EngineOwnedState) (subsystem : EngineSubsystem) : Bool :=
  subsystem.dependencies.all owned.serves

def health (owned : EngineOwnedState) : EngineHealth :=
  let terminal (failure : EngineFailureSnapshot) : Bool := failure.recoverability == .terminal
  if owned.phase = .failed ∨ EngineSubsystem.all.any (fun subsystem =>
      (owned.records subsystem).state == .failed &&
        (owned.records subsystem).failure.any terminal) = true then .failed
  else if EngineSubsystem.all.any (fun subsystem => (owned.records subsystem).state == .degraded ||
      (owned.records subsystem).state == .recovering ||
      (owned.records subsystem).state == .failed) = true then .degraded
  else .healthy

/-- The snapshot of this state under its state revision. -/
def view (owned : EngineOwnedState) : EngineLifecycleSnapshot where
  phase := owned.phase
  lifecycleRevision := owned.coordinator.state.revision
  stateRevision := owned.stateRevision
  lifetime := owned.lifetime
  health := owned.health
  subsystems := EngineSubsystem.all.map fun subsystem =>
    { subsystem
      state := (owned.records subsystem).state
      ownsResources := (owned.records subsystem).ownsResources
      failure := (owned.records subsystem).failure }
  pendingAction := owned.currentAction
  failure := owned.lastFailure

def setRecord (owned : EngineOwnedState) (subsystem : EngineSubsystem) (record : SubsystemRecord) :
    EngineOwnedState :=
  { owned with records := Function.update owned.records subsystem record }

/-- The state before the first action, with an empty snapshot. -/
def new : EngineOwnedState where
  coordinator := .new ((∅ : Std.ExtTreeSet String).insert participant)
  generation := 0
  latest := ⟨.starting, 0, 0, 1, .healthy, [], none, none⟩
  records := fun _ => .offline
  mode := .starting
  lifetime := 1
  stateRevision := 0
  actionRevision := 0
  currentAction := none
  sleepPending := ∅
  wakePending := ∅
  teardownAttempted := ∅
  restartAfterStop := false
  lastFailure := none

end EngineOwnedState

/-! ## Steps shared by the calls -/

/-- Call the coordinator. -/
def onCoordinator {α : Type} (call : EStateM Error SharedLifecycle α) : EngineM α :=
  onPart EngineOwnedState.coordinator (fun owned coordinator => { owned with coordinator }) call

/-- Publish a snapshot of the state under the next state revision. -/
def publish : EngineM EngineLifecycleSnapshot := do
  let owned ← get
  refuseIf (maxCounter ≤ owned.stateRevision) (engineError .resourceExhausted .terminal
    "engine lifecycle state revision exhausted" "publish")
  refuseIf (maxCounter ≤ owned.generation)
    ((Error.new .resourceExhausted .terminal "shared snapshot generation is exhausted").withContext
      ⟨"superi-concurrency.shared", "publish_snapshot"⟩)
  let snapshot := { owned.view with stateRevision := owned.stateRevision + 1 }
  set { owned with
    generation := owned.generation + 1
    stateRevision := owned.stateRevision + 1
    latest := snapshot }
  return snapshot

def latest : EngineM EngineLifecycleSnapshot := do
  let owned ← get
  return owned.latest

def issueAction (subsystem : EngineSubsystem) (kind : EngineLifecycleActionKind) :
    EngineM PUnit := do
  let owned ← get
  refuseIf (maxCounter ≤ owned.actionRevision) (engineError .resourceExhausted .terminal
    "engine lifecycle action revision exhausted" "issue_action")
  set { owned with
    actionRevision := owned.actionRevision + 1
    currentAction := some ⟨subsystem, kind, owned.lifetime, owned.actionRevision + 1⟩ }

def validateAction (action : EngineLifecycleAction) : EngineM PUnit := do
  let owned ← get
  refuseIf (owned.currentAction ≠ some action)
    ((engineError .conflict .retryable
      "lifecycle completion refers to a stale or out-of-order action" "validate_action").withContext
      ⟨"superi-engine.lifecycle", "stale_action"⟩)

/-- Put one subsystem into a state and hand its owner an action. -/
def assign (subsystem : EngineSubsystem) (record : SubsystemRecord)
    (kind : EngineLifecycleActionKind) : EngineM PUnit := do
  modify (·.setRecord subsystem record)
  issueAction subsystem kind

/-- Acknowledge the transition under way; it has to reach `expected`. -/
def acknowledgeTransition (expected : LifecyclePhase) (message operation : String) :
    EngineM PUnit := do
  let owned ← get
  let completed ← onCoordinator (acknowledge participant (decodeSignal owned.coordinator.signal))
  refuseIf (completed.phase ≠ expected) (engineError .internal .terminal message operation)

/-- Report a failure of the engine to the coordinator. -/
def failCoordinator (error : Error) : EngineM PUnit := do
  let _ ← onCoordinator (fail participant error)

/-! ## Initialization -/

/-- Whether a subsystem waits for its resources and could get them now. -/
def EngineOwnedState.canInitialize (owned : EngineOwnedState) (subsystem : EngineSubsystem) :
    Bool :=
  !((owned.records subsystem).ownsResources || (owned.records subsystem).state != .offline) &&
    owned.dependenciesServe subsystem

def completeInitialization : EngineM PUnit := do
  let owned ← get
  refuseIf (EngineSubsystem.all.any (fun subsystem => !(owned.records subsystem).ownsResources &&
      (owned.records subsystem).state == .offline) = true)
    (engineError .internal .terminal
      "engine lifecycle dependency plan cannot make initialization progress"
      "schedule_initialization")
  acknowledgeTransition .running "engine initialization acknowledgement did not reach running"
    "complete_initialization"
  modify fun owned => { owned with mode := .running }

def scheduleNextInitialization : EngineM PUnit := do
  let owned ← get
  match EngineSubsystem.all.find? owned.canInitialize with
  | some subsystem =>
      assign subsystem { owned.records subsystem with state := .initializing, failure := none }
        .initializes
  | none => completeInitialization

/-! ## Sleep and wake -/

def completeSleepPreparation : EngineM PUnit := do
  acknowledgeTransition .sleeping "engine sleep acknowledgement did not reach sleeping"
    "complete_sleep_preparation"
  modify fun owned => { owned with mode := .sleeping }

def scheduleNextSleepPreparation : EngineM PUnit := do
  let owned ← get
  match EngineSubsystem.all.reverse.find? fun subsystem =>
      decide (subsystem ∈ owned.sleepPending) with
  | some subsystem =>
      assign subsystem { owned.records subsystem with state := .preparingSleep } .prepareSleep
  | none => completeSleepPreparation

def completeWakeUp : EngineM PUnit := do
  acknowledgeTransition .running "engine wake acknowledgement did not reach running" "complete_wake"
  modify fun owned => { owned with mode := .running }

def scheduleNextWake : EngineM PUnit := do
  let owned ← get
  match EngineSubsystem.all.find? fun subsystem => decide (subsystem ∈ owned.wakePending) with
  | some subsystem => assign subsystem { owned.records subsystem with state := .waking } .wake
  | none => completeWakeUp

/-! ## Teardown and restart -/

def EngineOwnedState.hasOwnedDependent (owned : EngineOwnedState) (dependency : EngineSubsystem) :
    Bool :=
  EngineSubsystem.all.any fun subsystem =>
    decide (subsystem ≠ dependency) && (owned.records subsystem).ownsResources &&
      decide (dependency ∈ subsystem.dependencies)

/-- Whether a subsystem is the next one that could release its resources. -/
def EngineOwnedState.canTearDown (owned : EngineOwnedState) (subsystem : EngineSubsystem) : Bool :=
  (owned.records subsystem).ownsResources && decide (subsystem ∉ owned.teardownAttempted) &&
    !owned.hasOwnedDependent subsystem

def startNewLifetime : EngineM PUnit := do
  let owned ← get
  refuseIf (owned.phase ≠ .stopped) (invalidState "start_new_lifetime")
  let _ ← onCoordinator requestRestart
  refuseIf (maxCounter ≤ owned.lifetime) (engineError .resourceExhausted .terminal
    "engine lifecycle lifetime exhausted" "restart")
  modify fun owned => { owned with
    lifetime := owned.lifetime + 1
    records := fun _ => .offline
    mode := .starting
    currentAction := none
    teardownAttempted := ∅
    sleepPending := ∅
    wakePending := ∅
    lastFailure := none }
  scheduleNextInitialization

/-- Begin the lifetime a restart asked for, once the engine has stopped. -/
def restartIfRequested : EngineM PUnit := do
  let owned ← get
  if owned.restartAfterStop = true then do
    set { owned with restartAfterStop := false }
    startNewLifetime
  else return

/-- Acknowledge the stop; a failed engine has nothing to acknowledge. -/
def acknowledgeStop : EngineM PUnit := do
  let owned ← get
  if owned.phase = .stopping then
    acknowledgeTransition .stopped "engine teardown acknowledgement did not reach stopped"
      "complete_teardown"
  else return

/-- What follows the last teardown. -/
def finishTeardown : EngineM PUnit := do
  let owned ← get
  match owned.mode with
  | .stopping => do
      acknowledgeStop
      modify fun owned => { owned with mode := .idle }
      restartIfRequested
  | .rollingBack => set { owned with mode := .idle }
  | _ => throw (invalidState "schedule_teardown")

/-- No teardown is possible: rest, or finish if nothing is owned any more. -/
def settleTeardown : EngineM PUnit := do
  modify fun owned => { owned with currentAction := none }
  let owned ← get
  if EngineSubsystem.all.any (fun subsystem => (owned.records subsystem).ownsResources) = true then
    set { owned with mode := .idle }
  else finishTeardown

def scheduleNextTeardown : EngineM PUnit := do
  let owned ← get
  match EngineSubsystem.all.reverse.find? owned.canTearDown with
  | some subsystem => assign subsystem { owned.records subsystem with state := .stopping } .teardown
  | none => settleTeardown

/-! ## Completing an action -/

section Complete

variable (action : EngineLifecycleAction)

/-- A ready subsystem that owns its resources and has no failure. -/
def SubsystemRecord.served : SubsystemRecord := ⟨.ready, true, none⟩

def completeInitialize : EngineM PUnit := do
  let owned ← get
  refuseIf (owned.mode ≠ .starting ∨ (owned.records action.subsystem).state ≠ .initializing)
    (invalidState "complete_initialization")
  set (owned.setRecord action.subsystem .served)
  scheduleNextInitialization

def completeRecover : EngineM PUnit := do
  let owned ← get
  refuseIf (owned.mode ≠ .recovering ∨ (owned.records action.subsystem).state ≠ .recovering)
    (invalidState "complete_recovery")
  set { owned.setRecord action.subsystem .served with mode := .running }

/-- What both ends of a sleep preparation check. -/
def preparesSleep (owned : EngineOwnedState) : Prop :=
  owned.mode = .preparingSleep ∧ (owned.records action.subsystem).state = .preparingSleep ∧
    action.subsystem ∈ owned.sleepPending

instance (owned : EngineOwnedState) : Decidable (preparesSleep action owned) :=
  inferInstanceAs (Decidable (_ ∧ _ ∧ _))

/-- What both ends of a wake check. -/
def wakesUp (owned : EngineOwnedState) : Prop :=
  owned.mode = .waking ∧ (owned.records action.subsystem).state = .waking ∧
    action.subsystem ∈ owned.wakePending

instance (owned : EngineOwnedState) : Decidable (wakesUp action owned) :=
  inferInstanceAs (Decidable (_ ∧ _ ∧ _))

def completePrepareSleep : EngineM PUnit := do
  let owned ← get
  refuseIf (¬ preparesSleep action owned) (invalidState "complete_sleep_preparation")
  set { owned.setRecord action.subsystem { owned.records action.subsystem with
      state := .sleeping
      ownsResources := action.subsystem.retainsResourcesDuringSleep } with
    sleepPending := owned.sleepPending.erase action.subsystem }
  scheduleNextSleepPreparation

def completeWake : EngineM PUnit := do
  let owned ← get
  refuseIf (¬ wakesUp action owned) (invalidState "complete_wake")
  set { owned.setRecord action.subsystem .served with
    wakePending := owned.wakePending.erase action.subsystem }
  scheduleNextWake

/-- Whether resources are being released. -/
def tearsDown (owned : EngineOwnedState) : Prop :=
  owned.mode = .stopping ∨ owned.mode = .rollingBack

instance (owned : EngineOwnedState) : Decidable (tearsDown owned) :=
  inferInstanceAs (Decidable (_ ∨ _))

def completeTeardown : EngineM PUnit := do
  let owned ← get
  refuseIf (¬ tearsDown owned ∨ (owned.records action.subsystem).state ≠ .stopping)
    (invalidState "complete_teardown")
  set { owned.setRecord action.subsystem .offline with
    teardownAttempted := insert action.subsystem owned.teardownAttempted }
  scheduleNextTeardown

def completeKind : EngineM PUnit :=
  match action.kind with
  | .initializes => completeInitialize action
  | .recover => completeRecover action
  | .prepareSleep => completePrepareSleep action
  | .wake => completeWake action
  | .teardown => completeTeardown action

def completeAction : EngineM EngineLifecycleSnapshot := do
  validateAction action
  modify fun owned => { owned with currentAction := none }
  completeKind action
  publish

end Complete

/-! ## Failing an action -/

section Fail

variable (action : EngineLifecycleAction) (error : Error)

def isTerminal : Bool := decide (error.recoverability = .terminal)

/-- The state a failed subsystem is left in. -/
def failedState : EngineSubsystemState := if isTerminal error then .failed else .degraded

def failInitialize : EngineM PUnit := do
  let owned ← get
  refuseIf (owned.mode ≠ .starting) (invalidState "fail_initialization")
  set (owned.setRecord action.subsystem
    ⟨.failed, false, some (.fromError action.subsystem error)⟩)
  failCoordinator error
  modify fun owned => { owned with mode := .rollingBack, teardownAttempted := ∅ }
  scheduleNextTeardown

/-- The coordinator fails and the engine rests. -/
def failEngine : EngineM PUnit := do
  failCoordinator error
  modify fun owned => { owned with mode := .idle }

def failRecover : EngineM PUnit := do
  let owned ← get
  refuseIf (owned.mode ≠ .recovering) (invalidState "fail_recovery")
  set (owned.setRecord action.subsystem { owned.records action.subsystem with
    state := failedState error, failure := some (.fromError action.subsystem error) })
  if isTerminal error then failEngine error
  else modify fun owned => { owned with mode := .running }

def failPrepareSleep : EngineM PUnit := do
  let owned ← get
  refuseIf (¬ preparesSleep action owned) (invalidState "fail_sleep_preparation")
  set { owned.setRecord action.subsystem
      ⟨failedState error, true, some (.fromError action.subsystem error)⟩ with
    sleepPending := if isTerminal error then ∅ else owned.sleepPending.erase action.subsystem }
  if isTerminal error then failEngine error else scheduleNextSleepPreparation

def failWake : EngineM PUnit := do
  let owned ← get
  refuseIf (¬ wakesUp action owned) (invalidState "fail_wake")
  set { owned.setRecord action.subsystem
      ⟨failedState error, true, some (.fromError action.subsystem error)⟩ with
    wakePending := if isTerminal error then ∅ else owned.wakePending.erase action.subsystem }
  if isTerminal error then failEngine error else scheduleNextWake

def failTeardown : EngineM PUnit := do
  let owned ← get
  refuseIf (¬ tearsDown owned) (invalidState "fail_teardown")
  set { owned.setRecord action.subsystem
      ⟨.failed, true, some (.fromError action.subsystem error)⟩ with
    teardownAttempted := insert action.subsystem owned.teardownAttempted }
  failCoordinator error
  scheduleNextTeardown

def failKind : EngineM PUnit :=
  match action.kind with
  | .initializes => failInitialize action error
  | .recover => failRecover action error
  | .prepareSleep => failPrepareSleep action error
  | .wake => failWake action error
  | .teardown => failTeardown action error

def failAction : EngineM EngineLifecycleSnapshot := do
  validateAction action
  modify fun owned => { owned with
    lastFailure := some (.fromError action.subsystem error), currentAction := none }
  failKind action error
  publish

end Fail

/-! ## Requests -/

/-- Whether the engine runs and has nothing under way. -/
def EngineOwnedState.settled (owned : EngineOwnedState) : Prop :=
  owned.phase = .running ∧ owned.mode = .running ∧ owned.currentAction = none

instance (owned : EngineOwnedState) : Decidable owned.settled :=
  inferInstanceAs (Decidable (_ ∧ _ ∧ _))

def reportRuntimeFailure (subsystem : EngineSubsystem) (error : Error) :
    EngineM EngineLifecycleSnapshot := do
  let owned ← get
  refuseIf (¬ owned.settled) (invalidState "report_runtime_failure")
  refuseIf ((owned.records subsystem).state ≠ .ready ∨
      (owned.records subsystem).ownsResources = false)
    ((engineError .conflict .userCorrectable
      "only a ready owned subsystem may report a runtime failure"
      "report_runtime_failure").withContext ⟨"superi-engine.lifecycle", "runtime_failure"⟩)
  set { owned.setRecord subsystem { owned.records subsystem with
      state := failedState error, failure := some (.fromError subsystem error) } with
    lastFailure := some (.fromError subsystem error) }
  if isTerminal error then failEngine error else pure ⟨⟩
  publish

def beginRecovery (subsystem : EngineSubsystem) : EngineM EngineLifecycleSnapshot := do
  let owned ← get
  refuseIf (¬ owned.settled ∨ (owned.records subsystem).state ≠ .degraded)
    (invalidState "begin_recovery")
  refuseIf (owned.dependenciesServe subsystem = false)
    ((engineError .unavailable .retryable "subsystem recovery dependencies are not ready"
      "begin_recovery").withContext ⟨"superi-engine.lifecycle", "recovery_dependency"⟩)
  set { owned.setRecord subsystem { owned.records subsystem with state := .recovering } with
    mode := .recovering }
  issueAction subsystem .recover
  publish

/-- The state a cancelled sleep or wake action leaves a subsystem in. -/
def restoreStableState (record : SubsystemRecord) : SubsystemRecord :=
  { record with
    state := match record.failure with
      | some failure => if failure.recoverability = .terminal then .failed else .degraded
      | none => if record.ownsResources then .ready else .sleeping }

/-- Cancel the action under way, which has to be of one kind. -/
def cancelTransitionAction (expected : EngineLifecycleActionKind) : EngineM PUnit := do
  let owned ← get
  match owned.currentAction with
  | none => return
  | some action => do
      refuseIf (action.kind ≠ expected) (invalidState "cancel_transition")
      set { owned.setRecord action.subsystem (restoreStableState (owned.records action.subsystem))
        with currentAction := none }

/-- What a sleep request needs before it begins. -/
def admitSleep (owned : EngineOwnedState) : EngineM PUnit :=
  if owned.phase = .running ∧ owned.mode = .running then
    refuseIf (owned.currentAction ≠ none) (invalidState "begin_sleep")
  else if owned.phase = .waking ∧ owned.mode = .waking then cancelTransitionAction .wake
  else throw (invalidState "begin_sleep")

def startSleep : EngineM EngineLifecycleSnapshot := do
  let _ ← onCoordinator requestSleep
  modify fun owned => { owned with
    mode := .preparingSleep
    wakePending := ∅
    sleepPending := (EngineSubsystem.all.filter fun subsystem =>
      subsystem.participatesInSleep && (owned.records subsystem).ownsResources).toFinset }
  scheduleNextSleepPreparation
  publish

def beginSleep : EngineM EngineLifecycleSnapshot := do
  let owned ← get
  if owned.phase = .preparingSleep ∨ owned.phase = .sleeping then latest
  else do
    admitSleep owned
    startSleep

/-- What a wake request needs before it begins. -/
def admitWake (owned : EngineOwnedState) : EngineM PUnit :=
  if owned.phase = .preparingSleep ∧ owned.mode = .preparingSleep then
    cancelTransitionAction .prepareSleep
  else if owned.phase = .sleeping ∧ owned.mode = .sleeping then pure ⟨⟩
  else if owned.phase = .running ∧ owned.mode = .running then
    refuseIf (owned.currentAction ≠ none) (invalidState "begin_wake")
  else throw (invalidState "begin_wake")

def startWake : EngineM EngineLifecycleSnapshot := do
  let _ ← onCoordinator requestWake
  modify fun owned => { owned with
    mode := .waking
    sleepPending := ∅
    wakePending := (EngineSubsystem.all.filter EngineSubsystem.participatesInSleep).toFinset }
  scheduleNextWake
  publish

def beginWake : EngineM EngineLifecycleSnapshot := do
  let owned ← get
  if owned.phase = .waking then do
    refuseIf (owned.mode ≠ .waking) (invalidState "begin_wake")
    latest
  else do
    admitWake owned
    startWake

/-- The record a cancelled action leaves behind. -/
def cancelledRecord (kind : EngineLifecycleActionKind) (record : SubsystemRecord) :
    SubsystemRecord :=
  match kind with
  | .initializes => { record with state := .offline, ownsResources := false }
  | .recover => { record with state := .degraded, ownsResources := true }
  | .prepareSleep | .wake => restoreStableState record
  | .teardown => { record with
      state := if record.failure.isSome then .failed else .ready, ownsResources := true }

/-- Cancel whatever action is under way. -/
def EngineOwnedState.cancelPendingAction (owned : EngineOwnedState) : EngineOwnedState :=
  match owned.currentAction with
  | none => owned
  | some action =>
      { owned.setRecord action.subsystem (cancelledRecord action.kind
          (owned.records action.subsystem)) with currentAction := none }

/-- A subsystem asleep without resources has nothing left to release. -/
def forgetSleep (record : SubsystemRecord) : SubsystemRecord :=
  if record.ownsResources = false ∧ (record.state = .preparingSleep ∨ record.state = .sleeping ∨
      record.state = .waking) then { record with state := .offline, failure := none }
  else record

def startShutdown (restartAfterStop : Bool) : EngineM EngineLifecycleSnapshot := do
  modify fun owned =>
    let owned := { owned with restartAfterStop }.cancelPendingAction
    { owned with
      sleepPending := ∅
      wakePending := ∅
      records := fun subsystem => forgetSleep (owned.records subsystem) }
  let _ ← onCoordinator requestShutdown
  modify fun owned => { owned with mode := .stopping, teardownAttempted := ∅ }
  scheduleNextTeardown
  publish

/-- A new lifetime of a stopped engine. -/
def startRestart : EngineM EngineLifecycleSnapshot := do
  modify fun owned => { owned with restartAfterStop := false }
  startNewLifetime
  publish

def beginShutdownWith (restartAfterStop : Bool) : EngineM EngineLifecycleSnapshot := do
  let owned ← get
  if owned.phase = .stopped then
    if restartAfterStop then startRestart else latest
  else if owned.mode = .stopping ∧ owned.currentAction.isSome = true then do
    set (if restartAfterStop then { owned with restartAfterStop := true } else owned)
    latest
  else startShutdown restartAfterStop

def beginShutdown : EngineM EngineLifecycleSnapshot := beginShutdownWith false

def beginRestart : EngineM EngineLifecycleSnapshot := do
  let owned ← get
  if owned.phase = .stopped then startRestart else beginShutdownWith true

/-! ## Calls -/

/-- Create the dependency plan and emit the first action. -/
def EngineLifecycle.new : Except Error EngineOwnedState :=
  match (do scheduleNextInitialization; publish : EngineM EngineLifecycleSnapshot) .new with
  | .ok _ owned => .ok owned
  | .error error _ => .error error

/-- One call of the owner of the lifecycle. -/
inductive LifecycleCall
  | completeAction (action : EngineLifecycleAction)
  | failAction (action : EngineLifecycleAction) (error : Error)
  | reportRuntimeFailure (subsystem : EngineSubsystem) (error : Error)
  | beginRecovery (subsystem : EngineSubsystem)
  | beginSleep
  | beginWake
  | beginShutdown
  | beginRestart
  deriving DecidableEq, Repr

def LifecycleCall.run : LifecycleCall → EngineM EngineLifecycleSnapshot
  | .completeAction action => Engine.completeAction action
  | .failAction action error => Engine.failAction action error
  | .reportRuntimeFailure subsystem error => Engine.reportRuntimeFailure subsystem error
  | .beginRecovery subsystem => Engine.beginRecovery subsystem
  | .beginSleep => Engine.beginSleep
  | .beginWake => Engine.beginWake
  | .beginShutdown => Engine.beginShutdown
  | .beginRestart => Engine.beginRestart

/-- The state a call leaves, whether it fails or not. -/
def EngineOwnedState.after (owned : EngineOwnedState) (call : LifecycleCall) : EngineOwnedState :=
  match call.run owned with
  | .ok _ last => last
  | .error _ last => last

end Engine
end Superi

import Superi.Engine.Errors

/-!
# Dispatcher — serialized engine commands and their state events

The dispatcher owns the lifecycle, the error coordinator and a bounded queue of state events;
playback commands go through a bridge to an executor in another domain.  Commands of the other
owners (the scenario, the project with its history, settings and recovery, audio automation and
export jobs) are a parameter: they see the latest lifecycle snapshot and change only their own
state.
-/

namespace Superi
namespace Engine

open Core Concurrency Stateful

/-! ## Bounds and errors -/

def maxPendingEngineEvents : Nat := 64
def maxPendingPlaybackCommands : Nat := 1
def maxReportedFailureContexts : Nat := 16
def maxReportedFailureMessageBytes : Nat := 1024

def dispatcherError (category : ErrorCategory) (recoverability : Recoverability)
    (message operation : String) : Error :=
  (Error.new category recoverability message).withContext ⟨"superi-engine.dispatcher", operation⟩

def dispatchConflict (operation message : String) : Error :=
  dispatcherError .conflict .retryable message operation

def dispatchUnavailable (operation message : String) : Error :=
  dispatcherError .unavailable .degraded message operation

def dispatchInternal (operation message : String) : Error :=
  dispatcherError .internal .terminal message operation

def missingLifecycle : Error :=
  dispatchUnavailable "require_lifecycle"
    "lifecycle commands are unavailable on the scenario-only dispatcher"

def missingErrorCoordinator : Error :=
  dispatchUnavailable "require_error_coordinator"
    "classified failure commands are unavailable on the scenario-only dispatcher"

/-- The longest beginning of a text that fits. -/
def boundedUtf8Prefix (value : String) (maximumBytes : Nat) : String :=
  .ofList (go value.toList maximumBytes)
where
  go : List Char → Nat → List Char
    | [], _ => []
    | c :: rest, room => if c.utf8Size ≤ room then c :: go rest (room - c.utf8Size) else []

def EngineReportedFailure.fromError (error : Error) : EngineReportedFailure where
  category := error.category
  recoverability := error.recoverability
  message := boundedUtf8Prefix error.message maxReportedFailureMessageBytes
  contexts := error.contexts.take maxReportedFailureContexts

/-! ## Other owners -/

/-- The revisions that an event envelope repeats from its event. -/
structure EventRevisions where
  project : Option Nat
  lifecycleState : Option Nat
  playbackEpoch : Option Nat
  exportState : Option Nat
  recoveryState : Option Nat
  audioAutomation : Option Nat
  deriving DecidableEq, Repr

/-- What the dispatcher owns beside the lifecycle: the state and the commands of the other owners,
and the vocabulary of the playback transport. -/
structure OtherOwners where
  State : Type
  Command : Type
  Result : Type
  Event : Type
  PlaybackCommand : Type
  PlaybackSnapshot : Type
  emitsStateEvent : Command → State → Except Error Bool
  execute : Command → Option EngineLifecycleSnapshot → Nat → EStateM Error State
    (Result × Option Event)
  revisions : Event → EventRevisions
  logicalJobsFinal : State → Except Error Bool
  inspects : PlaybackCommand → Bool
  epoch : PlaybackSnapshot → Nat

variable (owners : OtherOwners)

/-! ## Commands, results and events -/

/-- The caller's name for one command. -/
structure EngineTransactionId where
  value : String
  deriving DecidableEq, Repr

inductive EngineCommand
  | others (command : owners.Command)
  | inspectLifecycle
  | inspectRecoveryState
  | completeLifecycleAction (action : EngineLifecycleAction)
  | failLifecycleAction (action : EngineLifecycleAction) (failure : EngineReportedFailure)
  | reportRuntimeFailure (subsystem : EngineSubsystem) (failure : EngineReportedFailure)
  | reportClassifiedFailure (subsystem : EngineSubsystem) (operation : String)
      (failure : EngineReportedFailure)
  | beginRecovery (subsystem : EngineSubsystem)
  | beginClassifiedRecovery (subsystem : EngineSubsystem) (sequence : Nat)
      (request : EngineRecoveryRequest)
  | completeRecovery (action : EngineRecoveryAction)
  | failRecovery (action : EngineRecoveryAction) (failure : EngineReportedFailure)
  | beginSleep
  | beginWake
  | beginShutdown
  | beginRestart
  | admitWork (work : EngineWorkKind)
  | validateWorkPermit (permit : EngineWorkPermit)
  | executePlayback (command : owners.PlaybackCommand)

structure EngineCommandRequest where
  transactionId : EngineTransactionId
  command : EngineCommand owners

/-- Complete replacement state of failures and recoveries. -/
structure EngineRecoveryState where
  revision : Nat
  lifecycle : EngineLifecycleSnapshot
  activeFailures : List EngineFailureRecord
  diagnosticHistory : List DiagnosticEvent
  pendingRecovery : Option EngineRecoveryAction

inductive EngineCommandResult
  | others (result : owners.Result)
  | lifecycle (snapshot : EngineLifecycleSnapshot)
  | recovery (state : EngineRecoveryState)
  | workAdmission (admission : EngineWorkAdmission)
  | workPermitCurrent (current : Bool)
  | playbackAccepted (permit : Option EngineWorkPermit)

structure EngineCommandOutcome where
  transactionId : EngineTransactionId
  commandSequence : Nat
  result : EngineCommandResult owners

inductive EngineEvent
  | others (event : owners.Event)
  | lifecycleStateChanged (snapshot : EngineLifecycleSnapshot)
  | recoveryStateChanged (state : EngineRecoveryState)
  | playbackStateChanged (snapshot : owners.PlaybackSnapshot)
      (failure : Option EngineReportedFailure)

structure EngineEventEnvelope where
  sequence : Nat
  commandSequence : Nat
  transactionId : EngineTransactionId
  revisions : EventRevisions
  event : EngineEvent owners

def EngineEvent.revisions : EngineEvent owners → EventRevisions
  | .others event => owners.revisions event
  | .lifecycleStateChanged snapshot =>
      ⟨none, some snapshot.stateRevision, none, none, none, none⟩
  | .recoveryStateChanged state =>
      ⟨none, some state.lifecycle.stateRevision, none, none, some state.revision, none⟩
  | .playbackStateChanged snapshot _ => ⟨none, none, some (owners.epoch snapshot), none, none, none⟩

def EngineEvent.isPlayback : EngineEvent owners → Bool
  | .playbackStateChanged .. => true
  | _ => false

/-- Whether a command announces a state event; some commands of the other owners look first. -/
def EngineCommand.emitsStateEvent : EngineCommand owners → owners.State → Except Error Bool
  | .others command, state => owners.emitsStateEvent command state
  | .inspectLifecycle, _ | .inspectRecoveryState, _ | .admitWork _, _ | .validateWorkPermit _, _ =>
      .ok false
  | _, _ => .ok true

/-- What a command leaves for its outcome and its event. -/
structure CommandExecution where
  result : EngineCommandResult owners
  event : Option (EngineEvent owners)

/-! ## The playback bridge -/

structure QueuedPlaybackCommand where
  transactionId : EngineTransactionId
  commandSequence : Nat
  eventSequence : Nat
  permit : Option EngineWorkPermit
  command : owners.PlaybackCommand

structure PlaybackCommandExecution where
  transactionId : EngineTransactionId
  commandSequence : Nat
  eventSequence : Nat
  permit : Option EngineWorkPermit
  snapshot : owners.PlaybackSnapshot
  failure : Option EngineReportedFailure

/-- Both bounded channels of the bridge, and whether the executor still holds its ends. -/
structure PlaybackCommandBridge where
  requests : List (QueuedPlaybackCommand owners)
  completions : List (PlaybackCommandExecution owners)
  connected : Bool

structure PendingPlaybackCommand where
  transactionId : EngineTransactionId
  commandSequence : Nat
  eventSequence : Nat
  deriving DecidableEq, Repr

/-! ## The dispatcher -/

structure EngineCommandDispatcher where
  others : owners.State
  lifecycle : Option EngineOwnedState
  errors : Option EngineErrorState
  recoveryStateRevision : Nat
  pendingRecovery : Option EngineRecoveryAction
  commandSequence : Nat
  eventSequence : Nat
  events : List (EngineEventEnvelope owners)
  playbackBridge : Option (PlaybackCommandBridge owners)
  pendingPlayback : Option PendingPlaybackCommand
  latestPlayback : Option (owners.PlaybackSnapshot × Option EngineReportedFailure)

abbrev DispatcherM := EStateM Error (EngineCommandDispatcher owners)

namespace EngineCommandDispatcher

/-- The dispatcher of a lifecycle that has just begun, with or without a playback bridge. -/
def new (others : owners.State) (bridged : Bool) :
    Except Error (EngineCommandDispatcher owners) := do
  let lifecycle ← EngineLifecycle.new
  return {
    others
    lifecycle := some lifecycle
    errors := some (.new defaultErrorHistoryCapacity)
    recoveryStateRevision := 0
    pendingRecovery := none
    commandSequence := 0
    eventSequence := 0
    events := []
    playbackBridge := if bridged then some ⟨[], [], true⟩ else none
    pendingPlayback := none
    latestPlayback := none }

/-- The dispatcher without a lifecycle. -/
def scenarioOnly (others : owners.State) : EngineCommandDispatcher owners where
  others
  lifecycle := none
  errors := none
  recoveryStateRevision := 0
  pendingRecovery := none
  commandSequence := 0
  eventSequence := 0
  events := []
  playbackBridge := none
  pendingPlayback := none
  latestPlayback := none

end EngineCommandDispatcher

section Calls

variable {owners}

/-! ## Parts -/

/-- Call the lifecycle. -/
def onLifecyclePart {α : Type} (call : EngineM α) : DispatcherM owners α := fun dispatcher =>
  match dispatcher.lifecycle with
  | none => .error missingLifecycle dispatcher
  | some lifecycle =>
      match call lifecycle with
      | .ok value last => .ok value { dispatcher with lifecycle := some last }
      | .error error last => .error error { dispatcher with lifecycle := some last }

/-- Call the error coordinator with the lifecycle. -/
def onControl {α : Type} (call : ControlM α) : DispatcherM owners α := fun dispatcher =>
  match dispatcher.errors, dispatcher.lifecycle with
  | some errors, some lifecycle =>
      match call ⟨errors, lifecycle⟩ with
      | .ok value last =>
          .ok value { dispatcher with errors := some last.errors, lifecycle := some last.lifecycle }
      | .error error last =>
          .error error { dispatcher with
            errors := some last.errors, lifecycle := some last.lifecycle }
  | _, _ => .error missingErrorCoordinator dispatcher

/-- Execute a command of another owner. -/
def onOthers {α : Type} (call : EStateM Error owners.State α) : DispatcherM owners α :=
  onPart EngineCommandDispatcher.others (fun dispatcher others => { dispatcher with others }) call

/-- Queue one event. -/
def EngineCommandDispatcher.pushEvent (dispatcher : EngineCommandDispatcher owners)
    (sequence commandSequence : Nat) (transactionId : EngineTransactionId)
    (event : EngineEvent owners) : EngineCommandDispatcher owners :=
  { dispatcher with
    events := dispatcher.events ++
      [⟨sequence, commandSequence, transactionId, event.revisions owners, event⟩]
    eventSequence := sequence }

def nextSequence (current : Nat) (operation : String) : DispatcherM owners Nat := do
  refuseIf (maxCounter ≤ current) (dispatcherError .resourceExhausted .terminal
    "engine dispatcher sequence is exhausted" operation)
  return current + 1

/-- The latest lifecycle snapshot. -/
def lifecycleSnapshot : DispatcherM owners EngineLifecycleSnapshot := onLifecyclePart latest

/-! ## Recovery -/

def errorCoordinatorRef : ControlM EngineErrorState := do
  let control ← get
  return control.errors

def recoverySnapshot : DispatcherM owners EngineRecoveryState := do
  let lifecycle ← lifecycleSnapshot
  let errors ← onControl errorCoordinatorRef
  let dispatcher ← get
  return {
    revision := dispatcher.recoveryStateRevision
    lifecycle
    activeFailures := EngineSubsystem.all.filterMap errors.active
    diagnosticHistory := errors.history
    pendingRecovery := dispatcher.pendingRecovery }

def reportClassifiedFailure (subsystem : EngineSubsystem) (operation : String)
    (failure : EngineReportedFailure) : DispatcherM owners EngineRecoveryState := do
  let dispatcher ← get
  let revision ← nextSequence dispatcher.recoveryStateRevision "advance_recovery_state_revision"
  let _ ← onControl (reportFailure subsystem operation failure.intoError)
  modify fun dispatcher => { dispatcher with recoveryStateRevision := revision }
  recoverySnapshot

def beginClassifiedRecovery (subsystem : EngineSubsystem) (sequence : Nat)
    (request : EngineRecoveryRequest) : DispatcherM owners EngineRecoveryState := do
  let dispatcher ← get
  let revision ← nextSequence dispatcher.recoveryStateRevision "advance_recovery_state_revision"
  let start ← onControl (EngineErrorCoordinator.beginRecovery subsystem sequence request)
  modify fun dispatcher => { dispatcher with
    pendingRecovery := some start.action, recoveryStateRevision := revision }
  recoverySnapshot

/-- The active failure a plain recovery command means. -/
def legacyFailure (subsystem : EngineSubsystem) : ControlM EngineFailureRecord := do
  let control ← get
  match control.errors.active subsystem with
  | none => throw (dispatchConflict "begin_legacy_recovery"
      "subsystem has no active classified failure")
  | some active => return active

def legacyRequest (active : EngineFailureRecord) : Except Error EngineRecoveryRequest :=
  match active.disposition.recoveryRequest with
  | none => .error (dispatcherError .conflict .terminal
      "terminal engine failure requires a new engine lifetime" "begin_legacy_recovery")
  | some request => .ok request

def beginLegacyRecovery (subsystem : EngineSubsystem) : DispatcherM owners EngineRecoveryState := do
  let active ← onControl (legacyFailure subsystem)
  let request ← ofExcept (legacyRequest active)
  beginClassifiedRecovery subsystem active.sequence request

def completeClassifiedRecovery (action : EngineRecoveryAction) :
    DispatcherM owners EngineRecoveryState := do
  let dispatcher ← get
  let revision ← nextSequence dispatcher.recoveryStateRevision "advance_recovery_state_revision"
  let _ ← onControl (EngineErrorCoordinator.completeRecovery action)
  modify fun dispatcher => { dispatcher with
    pendingRecovery := none, recoveryStateRevision := revision }
  recoverySnapshot

def failClassifiedRecovery (action : EngineRecoveryAction) (failure : EngineReportedFailure) :
    DispatcherM owners EngineRecoveryState := do
  let dispatcher ← get
  let revision ← nextSequence dispatcher.recoveryStateRevision "advance_recovery_state_revision"
  let _ ← onControl (EngineErrorCoordinator.failRecovery action failure.intoError)
  modify fun dispatcher => { dispatcher with
    pendingRecovery := none, recoveryStateRevision := revision }
  recoverySnapshot

/-! ## Executing a command -/

section Changes

def lifecycleChange (snapshot : EngineLifecycleSnapshot) : CommandExecution owners :=
  ⟨.lifecycle snapshot, some (.lifecycleStateChanged snapshot)⟩

def recoveryChange (state : EngineRecoveryState) : CommandExecution owners :=
  ⟨.recovery state, some (.recoveryStateChanged state)⟩

def legacyRecoveryChange (state : EngineRecoveryState) : CommandExecution owners :=
  ⟨.lifecycle state.lifecycle, some (.recoveryStateChanged state)⟩

end Changes

/-- Export jobs have to be final before their subsystem is torn down. -/
def requireExportTeardownReady (action : EngineLifecycleAction) : DispatcherM owners PUnit :=
  if action.subsystem ≠ .exports ∨ action.kind ≠ .teardown then return
  else do
    let dispatcher ← get
    let final ← ofExcept (owners.logicalJobsFinal dispatcher.others)
    refuseIf (final = false) (dispatchConflict "complete_export_teardown"
      "logical export jobs must reach final state before export teardown completes")

/-- The recovery that the pending action of the lifecycle belongs to, if the action is this one. -/
def routedRecovery (action : EngineLifecycleAction) :
    DispatcherM owners (Option EngineRecoveryAction) := do
  let snapshot ← lifecycleSnapshot
  let dispatcher ← get
  return if snapshot.pendingAction = some action then dispatcher.pendingRecovery else none

def completeRouted (action : EngineLifecycleAction) :
    Option EngineRecoveryAction → DispatcherM owners (CommandExecution owners)
  | some recovery => do
      let state ← completeClassifiedRecovery recovery
      return legacyRecoveryChange state
  | none => do
      let snapshot ← onLifecyclePart (completeAction action)
      return lifecycleChange snapshot

def failRouted (action : EngineLifecycleAction) (failure : EngineReportedFailure) :
    Option EngineRecoveryAction → DispatcherM owners (CommandExecution owners)
  | some recovery => do
      let state ← failClassifiedRecovery recovery failure
      return legacyRecoveryChange state
  | none => do
      let snapshot ← onLifecyclePart (failAction action failure.intoError)
      return lifecycleChange snapshot

/-- A command of another owner, with what it may see of the lifecycle. -/
def executeOther (command : owners.Command) (commandSequence : Nat) :
    DispatcherM owners (CommandExecution owners) := do
  let dispatcher ← get
  let (result, event) ← onOthers (owners.execute command (dispatcher.lifecycle.map (·.latest))
    commandSequence)
  return ⟨.others result, event.map .others⟩

/-- A request to the lifecycle that every subsystem takes part in. -/
def executeTransition (call : EngineM EngineLifecycleSnapshot) :
    DispatcherM owners (CommandExecution owners) := do
  let snapshot ← onLifecyclePart call
  return lifecycleChange snapshot

def executeCommand (command : EngineCommand owners) (commandSequence : Nat) :
    DispatcherM owners (CommandExecution owners) :=
  match command with
  | .others command => executeOther command commandSequence
  | .inspectLifecycle => do
      let snapshot ← lifecycleSnapshot
      return ⟨.lifecycle snapshot, none⟩
  | .inspectRecoveryState => do
      let state ← recoverySnapshot
      return ⟨.recovery state, none⟩
  | .completeLifecycleAction action => do
      requireExportTeardownReady action
      let recovery ← routedRecovery action
      completeRouted action recovery
  | .failLifecycleAction action failure => do
      let recovery ← routedRecovery action
      failRouted action failure recovery
  | .reportRuntimeFailure subsystem failure => do
      let state ← reportClassifiedFailure subsystem "runtime_failure" failure
      return legacyRecoveryChange state
  | .reportClassifiedFailure subsystem operation failure => do
      let state ← reportClassifiedFailure subsystem operation failure
      return recoveryChange state
  | .beginRecovery subsystem => do
      let state ← beginLegacyRecovery subsystem
      return legacyRecoveryChange state
  | .beginClassifiedRecovery subsystem sequence request => do
      let state ← beginClassifiedRecovery subsystem sequence request
      return recoveryChange state
  | .completeRecovery action => do
      let state ← completeClassifiedRecovery action
      return recoveryChange state
  | .failRecovery action failure => do
      let state ← failClassifiedRecovery action failure
      return recoveryChange state
  | .beginSleep => executeTransition Engine.beginSleep
  | .beginWake => executeTransition Engine.beginWake
  | .beginShutdown => executeTransition Engine.beginShutdown
  | .beginRestart => executeTransition Engine.beginRestart
  | .admitWork work => do
      let snapshot ← lifecycleSnapshot
      return ⟨.workAdmission (snapshot.admitWork work), none⟩
  | .validateWorkPermit permit => do
      let snapshot ← lifecycleSnapshot
      return ⟨.workPermitCurrent (snapshot.isPermitCurrent permit), none⟩
  -- never reached: playback commands are queued before
  | .executePlayback _ => throw (dispatchInternal "execute_command"
      "playback commands are queued before synchronous command execution")

/-! ## Playback -/

/-- Take the completion of the pending playback command, if it is there, and publish its event. -/
def takeCompletion (pending : PendingPlaybackCommand) (bridge : PlaybackCommandBridge owners) :
    DispatcherM owners PUnit :=
  match bridge.completions with
  | [] => refuseIf (bridge.connected = false) (dispatchUnavailable "collect_playback_completion"
      "playback command executor disconnected before completion")
  | completion :: rest => do
      modify fun dispatcher => { dispatcher with
        playbackBridge := some { bridge with completions := rest } }
      refuseIf (completion.transactionId ≠ pending.transactionId ∨
          completion.commandSequence ≠ pending.commandSequence ∨
          completion.eventSequence ≠ pending.eventSequence)
        (dispatchInternal "collect_playback_completion"
          "playback completion did not match the reserved engine command")
      let dispatcher ← get
      refuseIf (maxPendingEngineEvents ≤ dispatcher.events.length)
        (dispatchInternal "collect_playback_completion"
          "reserved playback event capacity was unavailable")
      set { dispatcher.pushEvent completion.eventSequence completion.commandSequence
          completion.transactionId
          (.playbackStateChanged completion.snapshot completion.failure) with
        latestPlayback := some (completion.snapshot, completion.failure)
        pendingPlayback := none }

def collectPlaybackCompletion : DispatcherM owners PUnit := do
  let dispatcher ← get
  match dispatcher.pendingPlayback, dispatcher.playbackBridge with
  | none, _ => return
  | some _, none => throw (dispatchInternal "collect_playback_completion"
      "pending playback command has no attached bridge")
  | some pending, some bridge => takeCompletion pending bridge

/-- The permit of a playback command; looking at the transport needs none. -/
def playbackPermit (command : owners.PlaybackCommand) :
    DispatcherM owners (Option EngineWorkPermit) :=
  if owners.inspects command then return none
  else do
    let snapshot ← lifecycleSnapshot
    let permit := (snapshot.admitWork .playback).permit
    refuseIf (permit = none) (dispatchConflict "admit_playback_command"
      "current engine state does not admit playback transport commands")
    return permit

/-- Hand a command to the executor. -/
def sendPlayback (queued : QueuedPlaybackCommand owners) : DispatcherM owners PUnit := do
  let dispatcher ← get
  match dispatcher.playbackBridge with
  | none => throw (dispatchUnavailable "enqueue_playback_command"
      "playback command bridge is not attached to this dispatcher")
  | some bridge => do
      refuseIf (bridge.connected = false) (dispatchUnavailable "enqueue_playback_command"
        "playback command executor is disconnected")
      refuseIf (maxPendingPlaybackCommands ≤ bridge.requests.length)
        (dispatchConflict "enqueue_playback_command"
          "playback command bridge already owns one pending command")
      set { dispatcher with
        playbackBridge := some { bridge with requests := bridge.requests ++ [queued] } }

def enqueuePlaybackCommand (transactionId : EngineTransactionId) (commandSequence eventSequence : Nat)
    (command : owners.PlaybackCommand) : DispatcherM owners (EngineCommandOutcome owners) := do
  let permit ← playbackPermit command
  sendPlayback ⟨transactionId, commandSequence, eventSequence, permit, command⟩
  modify fun dispatcher => { dispatcher with
    pendingPlayback := some ⟨transactionId, commandSequence, eventSequence⟩, commandSequence }
  return ⟨transactionId, commandSequence, .playbackAccepted permit⟩

/-! ## Dispatch -/

/-- How a dispatch goes wrong: with an error, or by unwrapping an event that was not reserved. -/
inductive DispatchFault
  | refused (error : Error)
  | panicked (message : String)
  deriving DecidableEq, Repr

abbrev DispatchM (owners : OtherOwners) := EStateM DispatchFault (EngineCommandDispatcher owners)

/-- The next event sequence, if the command announces an event and there is room for it. -/
def reserveEvent (emits : Bool) : DispatcherM owners (Option Nat) := do
  let dispatcher ← get
  if emits then do
    let sequence ← nextSequence dispatcher.eventSequence "advance_event_sequence"
    refuseIf (maxPendingEngineEvents ≤ dispatcher.events.length) (dispatcherError
      .resourceExhausted .userCorrectable "engine state-event queue reached its capacity"
      "enqueue_event")
    return some sequence
  else return none

/-- What is checked before a command changes anything: whether it emits an event, the next command
sequence, and the reserved event sequence. -/
def admitCommand (command : EngineCommand owners) : DispatcherM owners (Nat × Option Nat) := do
  collectPlaybackCompletion
  let dispatcher ← get
  let emits ← ofExcept (command.emitsStateEvent owners dispatcher.others)
  refuseIf (emits = true ∧ dispatcher.pendingPlayback.isSome = true)
    (dispatchConflict "serialize_state_command"
      "a playback state event must complete before another state-changing command")
  let commandSequence ← nextSequence dispatcher.commandSequence "advance_command_sequence"
  let eventSequence ← reserveEvent emits
  return (commandSequence, eventSequence)

def publishEvent (transactionId : EngineTransactionId) (commandSequence : Nat) :
    Option (EngineEvent owners) → Option Nat → DispatchM owners PUnit
  | none, _ => return
  | some _, none => throw (.panicked "state-changing command reserved an event")
  | some event, some sequence =>
      modify (·.pushEvent sequence commandSequence transactionId event)

def dispatchPlayback (transactionId : EngineTransactionId) (command : owners.PlaybackCommand)
    (commandSequence : Nat) : Option Nat → DispatchM owners (EngineCommandOutcome owners)
  | none => throw (.panicked "playback command reserved an event")
  | some eventSequence => raising .refused
      (enqueuePlaybackCommand transactionId commandSequence eventSequence command)

def dispatchCommand (transactionId : EngineTransactionId) (command : EngineCommand owners)
    (commandSequence : Nat) (eventSequence : Option Nat) :
    DispatchM owners (EngineCommandOutcome owners) := do
  let execution ← raising .refused (executeCommand command commandSequence)
  modify fun dispatcher => { dispatcher with commandSequence }
  publishEvent transactionId commandSequence execution.event eventSequence
  return ⟨transactionId, commandSequence, execution.result⟩

/-- Execute one command and publish at most one state event. -/
def dispatch (request : EngineCommandRequest owners) :
    DispatchM owners (EngineCommandOutcome owners) := do
  let (commandSequence, eventSequence) ← raising .refused (admitCommand request.command)
  match request.command with
  | .executePlayback command =>
      dispatchPlayback request.transactionId command commandSequence eventSequence
  | command => dispatchCommand request.transactionId command commandSequence eventSequence

def drainEvents : DispatcherM owners (List (EngineEventEnvelope owners)) := do
  collectPlaybackCompletion
  let dispatcher ← get
  set { dispatcher with events := [] }
  return dispatcher.events

/-- Drop the playback events and count them. -/
def discardPlaybackEvents : DispatcherM owners Nat := do
  collectPlaybackCompletion
  let dispatcher ← get
  let events := dispatcher.events.filter fun envelope => !envelope.event.isPlayback
  set { dispatcher with events }
  return dispatcher.events.length - events.length

/-! ## The executor -/

/-- The executor takes one queued command; the transport answers with its snapshot and its error. -/
def PlaybackCommandBridge.executeNext (bridge : PlaybackCommandBridge owners)
    (snapshot : owners.PlaybackSnapshot) (failure : Option Error) : PlaybackCommandBridge owners :=
  match bridge.requests with
  | [] => bridge
  | queued :: rest =>
      let execution : PlaybackCommandExecution owners := ⟨queued.transactionId,
        queued.commandSequence, queued.eventSequence, queued.permit, snapshot,
        failure.map .fromError⟩
      { bridge with
        requests := rest
        completions := if bridge.completions.length < maxPendingPlaybackCommands then
          bridge.completions ++ [execution] else bridge.completions }

/-- One step of the engine and its playback executor. -/
inductive EngineCall (owners : OtherOwners)
  | dispatch (request : EngineCommandRequest owners)
  | drainEvents
  | discardPlaybackEvents
  | executePlayback (snapshot : owners.PlaybackSnapshot) (failure : Option Error)
  | dropExecutor

namespace EngineCommandDispatcher

/-- What a call leaves, whether it fails or not. -/
def leftBy {ε α : Type} : EStateM.Result ε (EngineCommandDispatcher owners) α →
    EngineCommandDispatcher owners
  | .ok _ last => last
  | .error _ last => last

def after (dispatcher : EngineCommandDispatcher owners) :
    EngineCall owners → EngineCommandDispatcher owners
  | .dispatch request => leftBy (Engine.dispatch request dispatcher)
  | .drainEvents => leftBy (Engine.drainEvents dispatcher)
  | .discardPlaybackEvents => leftBy (Engine.discardPlaybackEvents dispatcher)
  -- a dropped executor takes no more steps
  | .executePlayback snapshot failure => { dispatcher with
      playbackBridge := dispatcher.playbackBridge.map fun bridge =>
        if bridge.connected then bridge.executeNext snapshot failure else bridge }
  | .dropExecutor => { dispatcher with
      playbackBridge := dispatcher.playbackBridge.map fun bridge => { bridge with connected := false } }

end EngineCommandDispatcher

end Calls

end Engine
end Superi

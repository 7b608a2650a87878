import Superi.Graph.Node
import Superi.Lib.Stateful
import Superi.Timeline.Validate

/-!
# EventStream — bounded ordered delivery of public events

A stream numbers the events published on it and keeps the newest ones for replay.  It holds no
cursor: a subscriber brings the sequence it has handled and gets the records that follow, or is told
to refresh the complete state because some of them are gone.  The replacement state inside an event
is left out, but for what the stream checks and copies of it.
-/

namespace Superi
namespace Api

open Core Graph Stateful

def streamError (category : ErrorCategory) (recoverability : Recoverability)
    (operation message : String) : Error :=
  (Error.new category recoverability message).withContext ⟨"superi-api.event-stream", operation⟩

def maxEventIdentifierBytes : Nat := 128

/-- Upper bound for retained events, subscriptions, and one poll batch. -/
def maxEventStreamBound : Nat := 4096

/-- The largest value of a 64-bit sequence. -/
def maxSequence : Nat := 2 ^ 64 - 1

/-! ## Identifiers and bounds -/

def isAsciiLower (c : Char) : Bool := 'a' ≤ c && c ≤ 'z'

def isIdentifierChar (c : Char) : Bool :=
  isAsciiLower c || c.isDigit || c = '.' || c = '_' || c = '-' || c = ':'

/-- Bounded canonical lowercase ASCII. -/
def IsIdentifier (value : String) : Prop :=
  value.utf8ByteSize ≤ maxEventIdentifierBytes ∧ value.toList.all isIdentifierChar = true ∧
    value.toList.head?.any isAsciiLower = true

structure EventStreamId where
  value : String
  valid : IsIdentifier value
  deriving DecidableEq, Repr

structure SubscriptionId where
  value : String
  valid : IsIdentifier value
  deriving DecidableEq, Repr

namespace SubscriptionId

instance : Ord SubscriptionId := ⟨compareOn value⟩

instance : Std.TransOrd SubscriptionId :=
  inferInstanceAs (Std.TransCmp (compareOn value))

end SubscriptionId

def IsBound (value : Nat) : Prop := 0 < value ∧ value ≤ maxEventStreamBound

/-- Storage and delivery limits of one stream. -/
structure EventStreamConfig where
  retainedEvents : Nat
  maxSubscriptions : Nat
  maxBatchSize : Nat
  retained : IsBound retainedEvents
  subscriptions : IsBound maxSubscriptions
  batch : IsBound maxBatchSize
  deriving DecidableEq, Repr

/-! ## Events -/

inductive PublicMethodKind
  | command
  | query
  deriving DecidableEq, Repr

/-- One authoritative state resource and the typed method that refreshes it. -/
structure ResyncResource where
  resource : String
  method : String
  methodKind : PublicMethodKind
  schemaVersion : SemanticVersion
  deriving DecidableEq, Repr

/-- The resource revision that an event replaces. -/
structure EventReplacementResource where
  descriptor : ResyncResource
  revision : Nat
  projectRevision : Option Nat
  deriving DecidableEq, Repr

/-- What an event tells about where it came from. -/
inductive PublicEventCorrelation
  | command (sourceEventSequence commandSequence : Nat) (transactionId : String)
  | observation (revision : Nat)
  deriving DecidableEq, Repr

def projectHistoryResource : ResyncResource :=
  ⟨"superi.project.history", "superi.project.command.execute", .command, .new 1 7 0⟩
def asyncJobsResource : ResyncResource :=
  ⟨"superi.jobs", "superi.jobs.get", .query, .new 1 0 0⟩
def projectRecoveryResource : ResyncResource :=
  ⟨"superi.project.recovery", "superi.project.recovery.get", .query, .new 1 0 0⟩
def audioAutomationResource : ResyncResource :=
  ⟨"superi.audio.automation", "superi.audio.automation.get", .query, .new 1 0 0⟩
def projectSettingsResource : ResyncResource :=
  ⟨"superi.project.settings", "superi.project.settings.get", .query, .new 1 0 0⟩
def mediaCapabilitiesResource : ResyncResource :=
  ⟨"superi.media.capabilities", "superi.media.capabilities.get", .query, .new 2 0 0⟩
def engineIntrospectionResource : ResyncResource :=
  ⟨"superi.engine.introspection", "superi.engine.introspection.get", .query, .new 1 0 0⟩
def extensionsResource : ResyncResource :=
  ⟨"superi.extensions", "superi.extensions.get", .query, .new 1 0 0⟩
def scenarioStateResource : ResyncResource :=
  ⟨"superi.slice.scenario.state", "superi.slice.scenario.action.execute", .command, .new 1 0 0⟩

/-- Every resource to refresh after a gap. -/
def replacementResourceManifest : List ResyncResource :=
  [audioAutomationResource,
   ⟨"superi.editor.state", "superi.editor.state.get", .query, .new 1 0 0⟩,
   ⟨"superi.engine.integration.validation", "superi.engine.integration.validation.get", .query,
    .new 1 0 0⟩,
   engineIntrospectionResource,
   extensionsResource,
   asyncJobsResource,
   mediaCapabilitiesResource,
   ⟨"superi.project.command_log", "superi.project.command_log.get", .query, .new 1 0 0⟩,
   projectHistoryResource,
   projectRecoveryResource,
   projectSettingsResource,
   scenarioStateResource]

/-- The command that a state change came from. -/
structure CommandOrigin where
  sequence : Nat
  commandSequence : Nat
  transactionId : String
  deriving DecidableEq, Repr

/-- What the stream reads of an event: its revisions, those of the complete state inside, and the
schema of that state. -/
inductive PublicApiEvent
  | projectStateChanged (origin : CommandOrigin) (projectRevision stateProjectRevision : Nat)
      (commandLogSequence stateCommandLogSequence : Nat) (stateSchema : SemanticVersion)
  | asyncJobsChanged (origin : CommandOrigin) (jobsRevision snapshotRevision : Nat)
      (snapshotSchema : SemanticVersion)
  | projectRecoveryChanged (origin : CommandOrigin) (projectRevision snapshotProjectRevision : Nat)
      (catalogRevision snapshotCatalogRevision : Nat) (snapshotSchema : SemanticVersion)
  | audioAutomationChanged (origin : CommandOrigin) (revision snapshotRevision : Nat)
      (snapshotSchema : SemanticVersion)
  | projectSettingsChanged (origin : CommandOrigin) (projectRevision snapshotProjectRevision : Nat)
      (snapshotSchema : SemanticVersion)
  | mediaCapabilitiesChanged (revision : Nat) (snapshotSchema : SemanticVersion)
  | engineIntrospectionChanged (revision : Nat) (snapshotSchema : SemanticVersion)
  | extensionsChanged (revision : Nat) (snapshotSchema : SemanticVersion)
  | scenarioStateChanged (origin : CommandOrigin) (projectRevision stateRevision : Nat)
      (stateSchema : SemanticVersion)
  deriving DecidableEq, Repr

def validateCommandEvent (origin : CommandOrigin) : Except Error Unit :=
  Result.rejectIf (origin.sequence = 0 ∨ origin.commandSequence = 0 ∨
      Editorial.isBlank origin.transactionId = true)
    (streamError .corruptData .terminal "validate_command_correlation"
      "command event correlation must contain nonzero sequences and a transaction identity")

def validateRevision (operation : String) (event snapshot : Nat) : Except Error Unit :=
  Result.rejectIf (event ≠ snapshot) (streamError .corruptData .terminal operation
    "event revision does not match its complete replacement snapshot")

def validateSchema (operation : String) (actual expected : SemanticVersion) : Except Error Unit :=
  Result.rejectIf (actual ≠ expected) (streamError .corruptData .terminal operation
    "event replacement snapshot uses an incompatible schema version")

namespace PublicApiEvent

/-- The permanent name of an event. -/
def name : PublicApiEvent → String
  | projectStateChanged .. => "superi.project.state.changed"
  | asyncJobsChanged .. => "superi.jobs.changed"
  | projectRecoveryChanged .. => "superi.project.recovery.changed"
  | audioAutomationChanged .. => "superi.audio.automation.changed"
  | projectSettingsChanged .. => "superi.project.settings.changed"
  | mediaCapabilitiesChanged .. => "superi.media.capabilities.changed"
  | engineIntrospectionChanged .. => "superi.engine.introspection.changed"
  | extensionsChanged .. => "superi.extensions.changed"
  | scenarioStateChanged .. => "superi.slice.scenario.state.changed"

/-- The resource revision that the event replaces. -/
def replacementResource : PublicApiEvent → EventReplacementResource
  | projectStateChanged _ projectRevision _ commandLogSequence _ _ =>
      ⟨projectHistoryResource, commandLogSequence, some projectRevision⟩
  | asyncJobsChanged _ jobsRevision _ _ => ⟨asyncJobsResource, jobsRevision, none⟩
  | projectRecoveryChanged _ projectRevision _ catalogRevision _ _ =>
      ⟨projectRecoveryResource, catalogRevision, some projectRevision⟩
  | audioAutomationChanged _ revision _ _ => ⟨audioAutomationResource, revision, none⟩
  | projectSettingsChanged _ projectRevision _ _ => ⟨projectSettingsResource, projectRevision, none⟩
  | mediaCapabilitiesChanged revision _ => ⟨mediaCapabilitiesResource, revision, none⟩
  | engineIntrospectionChanged revision _ => ⟨engineIntrospectionResource, revision, none⟩
  | extensionsChanged revision _ => ⟨extensionsResource, revision, none⟩
  | scenarioStateChanged _ projectRevision _ _ => ⟨scenarioStateResource, projectRevision, none⟩

/-- Every event carries the schema of the resource that it replaces. -/
def schemaVersion (event : PublicApiEvent) : SemanticVersion :=
  event.replacementResource.descriptor.schemaVersion

def correlation : PublicApiEvent → PublicEventCorrelation
  | projectStateChanged origin .. | asyncJobsChanged origin .. | projectRecoveryChanged origin ..
  | audioAutomationChanged origin .. | projectSettingsChanged origin ..
  | scenarioStateChanged origin .. =>
      .command origin.sequence origin.commandSequence origin.transactionId
  | mediaCapabilitiesChanged revision _ | engineIntrospectionChanged revision _
  | extensionsChanged revision _ => .observation revision

def validate (event : PublicApiEvent) : Except Error Unit :=
  match event with
  | projectStateChanged origin projectRevision stateProjectRevision commandLogSequence
      stateCommandLogSequence stateSchema => do
      validateCommandEvent origin
      validateRevision "validate_project_state_event" projectRevision stateProjectRevision
      validateRevision "validate_project_state_command_log" commandLogSequence
        stateCommandLogSequence
      validateSchema "validate_project_state_event" stateSchema event.schemaVersion
  | asyncJobsChanged origin jobsRevision snapshotRevision snapshotSchema => do
      validateCommandEvent origin
      validateRevision "validate_async_jobs_event" jobsRevision snapshotRevision
      validateSchema "validate_async_jobs_event" snapshotSchema event.schemaVersion
  | projectRecoveryChanged origin projectRevision snapshotProjectRevision catalogRevision
      snapshotCatalogRevision snapshotSchema => do
      validateCommandEvent origin
      validateRevision "validate_project_recovery_event" projectRevision snapshotProjectRevision
      validateRevision "validate_project_recovery_event" catalogRevision snapshotCatalogRevision
      validateSchema "validate_project_recovery_event" snapshotSchema event.schemaVersion
  | audioAutomationChanged origin revision snapshotRevision snapshotSchema => do
      validateCommandEvent origin
      validateRevision "validate_audio_automation_event" revision snapshotRevision
      validateSchema "validate_audio_automation_event" snapshotSchema event.schemaVersion
  | projectSettingsChanged origin projectRevision snapshotProjectRevision snapshotSchema => do
      validateCommandEvent origin
      validateRevision "validate_project_settings_event" projectRevision snapshotProjectRevision
      validateSchema "validate_project_settings_event" snapshotSchema event.schemaVersion
  | mediaCapabilitiesChanged _ snapshotSchema =>
      validateSchema "validate_media_capabilities_event" snapshotSchema event.schemaVersion
  | engineIntrospectionChanged _ snapshotSchema =>
      validateSchema "validate_engine_introspection_event" snapshotSchema event.schemaVersion
  | extensionsChanged _ snapshotSchema =>
      validateSchema "validate_extensions_event" snapshotSchema event.schemaVersion
  | scenarioStateChanged origin projectRevision stateRevision stateSchema => do
      validateCommandEvent origin
      validateRevision "validate_scenario_state_event" projectRevision stateRevision
      validateSchema "validate_scenario_state_event" stateSchema event.schemaVersion

end PublicApiEvent

/-- One immutable retained record. -/
structure PublicEventRecord where
  streamId : EventStreamId
  sequence : Nat
  eventName : String
  schemaVersion : SemanticVersion
  correlation : PublicEventCorrelation
  replacementResource : EventReplacementResource
  event : PublicApiEvent
  deriving DecidableEq, Repr

def PublicEventRecord.validate (record : PublicEventRecord) : Except Error Unit := do
  record.event.validate
  Result.rejectIf (record.eventName ≠ record.event.name ∨
      record.schemaVersion ≠ record.event.schemaVersion ∨
      record.correlation ≠ record.event.correlation ∨
      record.replacementResource ≠ record.event.replacementResource)
    (streamError .corruptData .terminal "validate_event_record"
      "public event record metadata does not match its typed payload")

/-! ## Commands and answers -/

/-- Where a new subscriber begins. -/
inductive SubscriptionStart
  | latest
  | earliestAvailable
  deriving DecidableEq, Repr

structure OpenEventSubscription where
  subscriptionId : SubscriptionId
  start : SubscriptionStart
  deriving DecidableEq, Repr

structure CloseEventSubscription where
  streamId : EventStreamId
  subscriptionId : SubscriptionId
  deriving DecidableEq, Repr

/-- A query with a cursor that the caller holds. -/
structure PollEvents where
  streamId : EventStreamId
  subscriptionId : SubscriptionId
  afterSequence : Nat
  requestedLimit : Nat
  limit : IsBound requestedLimit
  deriving DecidableEq, Repr

structure EventBatch where
  streamId : EventStreamId
  subscriptionId : SubscriptionId
  afterSequence : Nat
  throughSequence : Nat
  records : List PublicEventRecord
  deriving DecidableEq, Repr

inductive EventGapReason
  | streamRestarted
  | cursorEvicted
  deriving DecidableEq, Repr

/-- The barrier of a replay that cannot be complete. -/
structure EventGap where
  reason : EventGapReason
  requestedStreamId : EventStreamId
  currentStreamId : EventStreamId
  subscriptionId : SubscriptionId
  requestedAfterSequence : Nat
  oldestAvailableSequence : Option Nat
  latestSequence : Nat
  resetBarrier : Nat
  replacementResources : List ResyncResource
  deriving DecidableEq, Repr

inductive PollEventsResult
  | events (batch : EventBatch)
  | resyncRequired (gap : EventGap)
  deriving DecidableEq, Repr

structure EventStreamSnapshot where
  streamId : EventStreamId
  config : EventStreamConfig
  oldestAvailableSequence : Option Nat
  latestSequence : Nat
  retainedEventCount : Nat
  activeSubscriptionCount : Nat
  deriving DecidableEq, Repr

structure OpenEventSubscriptionResult where
  streamId : EventStreamId
  subscriptionId : SubscriptionId
  initialAfterSequence : Nat
  snapshot : EventStreamSnapshot
  deriving DecidableEq, Repr

structure CloseEventSubscriptionResult where
  streamId : EventStreamId
  subscriptionId : SubscriptionId
  snapshot : EventStreamSnapshot
  deriving DecidableEq, Repr

/-! ## The stream -/

structure EventStreamApi where
  streamId : EventStreamId
  config : EventStreamConfig
  lastSequence : Nat
  records : List PublicEventRecord
  subscriptions : Std.ExtTreeSet SubscriptionId

abbrev EventStreamM := EStateM Error EventStreamApi

namespace EventStreamApi

def new (streamId : EventStreamId) (config : EventStreamConfig) : EventStreamApi where
  streamId
  config
  lastSequence := 0
  records := []
  subscriptions := ∅

def oldestSequence (api : EventStreamApi) : Option Nat :=
  api.records.head?.map PublicEventRecord.sequence

def snapshot (api : EventStreamApi) : EventStreamSnapshot where
  streamId := api.streamId
  config := api.config
  oldestAvailableSequence := api.oldestSequence
  latestSequence := api.lastSequence
  retainedEventCount := api.records.length
  activeSubscriptionCount := api.subscriptions.size

/-- The cursor of a new subscriber. -/
def initialCursor (api : EventStreamApi) : SubscriptionStart → Nat
  | .latest => api.lastSequence
  | .earliestAvailable => (api.oldestSequence.map fun sequence => sequence - 1).getD api.lastSequence

/-- The record of an event under the next sequence. -/
def recordOf (api : EventStreamApi) (sequence : Nat) (event : PublicApiEvent) :
    PublicEventRecord where
  streamId := api.streamId
  sequence
  eventName := event.name
  schemaVersion := event.schemaVersion
  correlation := event.correlation
  replacementResource := event.replacementResource
  event

def nextSequence (api : EventStreamApi) : Except Error Nat :=
  if maxSequence ≤ api.lastSequence then
    .error (streamError .resourceExhausted .terminal "allocate_event_sequence"
      "public event sequence space is exhausted")
  else .ok (api.lastSequence + 1)

/-- Drop the oldest records until at most `bound` are left. -/
def trim (bound : Nat) : List PublicEventRecord → List PublicEventRecord
  | [] => []
  | record :: rest => if bound < (record :: rest).length then trim bound rest else record :: rest

def gap (api : EventStreamApi) (reason : EventGapReason) (query : PollEvents) : EventGap where
  reason
  requestedStreamId := query.streamId
  currentStreamId := api.streamId
  subscriptionId := query.subscriptionId
  requestedAfterSequence := query.afterSequence
  oldestAvailableSequence := api.oldestSequence
  latestSequence := api.lastSequence
  resetBarrier := api.lastSequence
  replacementResources := replacementResourceManifest

/-- Whether records that the cursor still needs are gone; the sum saturates. -/
def hasEvicted (api : EventStreamApi) (afterSequence : Nat) : Bool :=
  api.oldestSequence.any fun oldest => min (afterSequence + 1) maxSequence < oldest

/-- The retained records after the cursor, as many as the caller and the stream allow. -/
def batch (api : EventStreamApi) (query : PollEvents) : EventBatch :=
  let records := (api.records.filter fun record => query.afterSequence < record.sequence).take
    (min query.requestedLimit api.config.maxBatchSize)
  { streamId := api.streamId
    subscriptionId := query.subscriptionId
    afterSequence := query.afterSequence
    throughSequence := (records.getLast?.map PublicEventRecord.sequence).getD query.afterSequence
    records }

/-- A suffix of the stream, or a barrier where it would not be complete. -/
def poll (api : EventStreamApi) (query : PollEvents) : Except Error PollEventsResult :=
  if query.streamId ≠ api.streamId then .ok (.resyncRequired (api.gap .streamRestarted query))
  else if query.subscriptionId ∉ api.subscriptions then
    .error (streamError .notFound .userCorrectable "poll_events"
      "event subscription identity is not registered")
  else if api.lastSequence < query.afterSequence then
    .error (streamError .invalidInput .userCorrectable "poll_events"
      "event cursor is newer than the current stream")
  else if api.hasEvicted query.afterSequence then
    .ok (.resyncRequired (api.gap .cursorEvicted query))
  else .ok (.events (api.batch query))

end EventStreamApi

/-- Register a subscriber. -/
def openSubscription (command : OpenEventSubscription) :
    EventStreamM OpenEventSubscriptionResult := do
  let api ← get
  refuseIf (command.subscriptionId ∈ api.subscriptions) (streamError .conflict .userCorrectable
    "open_subscription" "event subscription identity is already registered")
  refuseIf (api.config.maxSubscriptions ≤ api.subscriptions.size) (streamError .resourceExhausted
    .retryable "open_subscription" "event subscription registry reached its configured bound")
  let initialAfterSequence := api.initialCursor command.start
  let api := { api with subscriptions := api.subscriptions.insert command.subscriptionId }
  set api
  return { streamId := api.streamId, subscriptionId := command.subscriptionId,
           initialAfterSequence, snapshot := api.snapshot }

/-- Remove a subscriber. -/
def closeSubscription (command : CloseEventSubscription) :
    EventStreamM CloseEventSubscriptionResult := do
  let api ← get
  refuseIf (command.streamId ≠ api.streamId) (streamError .conflict .userCorrectable
    "close_subscription" "event stream identity changed before the subscription was closed")
  refuseIf (command.subscriptionId ∉ api.subscriptions) (streamError .notFound .userCorrectable
    "close_subscription" "event subscription identity is not registered")
  let api := { api with subscriptions := api.subscriptions.erase command.subscriptionId }
  set api
  return { streamId := api.streamId, subscriptionId := command.subscriptionId,
           snapshot := api.snapshot }

/-- Number an event, retain it and drop what is older than the bound allows. -/
def publish (event : PublicApiEvent) : EventStreamM PublicEventRecord := do
  ofExcept event.validate
  let api ← get
  let sequence ← ofExcept api.nextSequence
  let record := api.recordOf sequence event
  ofExcept record.validate
  set { api with
    lastSequence := sequence
    records := EventStreamApi.trim api.config.retainedEvents (api.records ++ [record]) }
  return record

end Api
end Superi

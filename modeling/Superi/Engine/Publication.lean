import Superi.Engine.DispatcherLaws

/-!
# Publication — command order, the event queue and the playback bridge

A command is executed without touching what the dispatcher publishes; a playback command reserves
the next event, which nobody else takes before its completion is collected.  The command on its way
is in exactly one place: in the request channel, in the completion channel, or nowhere after it was
collected.
-/

namespace Superi
namespace Engine

open Core Stateful

variable {owners : OtherOwners} {dispatcher last : EngineCommandDispatcher owners}

/-! ## Published state -/

/-- The part of a dispatcher that orders commands and events. -/
structure Publication (owners : OtherOwners) where
  commandSequence : Nat
  eventSequence : Nat
  events : List (EngineEventEnvelope owners)
  playbackBridge : Option (PlaybackCommandBridge owners)
  pendingPlayback : Option PendingPlaybackCommand

def EngineCommandDispatcher.publication (dispatcher : EngineCommandDispatcher owners) :
    Publication owners where
  commandSequence := dispatcher.commandSequence
  eventSequence := dispatcher.eventSequence
  events := dispatcher.events
  playbackBridge := dispatcher.playbackBridge
  pendingPlayback := dispatcher.pendingPlayback

/-- The command publishes nothing by itself. -/
abbrev Quiet {ε α : Type} (call : EStateM ε (EngineCommandDispatcher owners) α) : Prop :=
  Frames EngineCommandDispatcher.publication call

section Execution

variable {α : Type}

theorem onLifecyclePart_quiet (call : EngineM α) :
    Quiet (onLifecyclePart call : DispatcherM owners α) := by
  intro dispatcher
  refine onLifecyclePart_ensures ?_ ?_
  · rfl
  · intro lifecycle hlifecycle
    unfold Ensures
    cases call lifecycle with
    | ok value last => rfl
    | error error last => rfl

theorem onControl_quiet (call : ControlM α) : Quiet (onControl call : DispatcherM owners α) := by
  intro dispatcher
  refine onControl_ensures ?_ ?_
  · rfl
  · intro errors lifecycle herrors hlifecycle
    unfold Ensures
    cases call ⟨errors, lifecycle⟩ with
    | ok value last => rfl
    | error error last => rfl

theorem onOthers_quiet (call : EStateM Error owners.State α) : Quiet (onOthers call) := by
  intro dispatcher
  apply Ensures.onPart
  unfold Ensures
  cases call dispatcher.others with
  | ok value last => rfl
  | error error last => rfl

theorem lifecycleSnapshot_quiet : Quiet (lifecycleSnapshot : DispatcherM owners _) :=
  onLifecyclePart_quiet _

theorem recoverySnapshot_quiet : Quiet (recoverySnapshot : DispatcherM owners _) :=
  lifecycleSnapshot_quiet.bind fun _ => (onControl_quiet _).bind fun _ => Frames.get.bind fun _ => .ret

theorem nextSequence_quiet (current : Nat) (operation : String) :
    Quiet (nextSequence current operation : DispatcherM owners Nat) :=
  Frames.check.bind fun _ => .ret

/-- Every step of recovery is a call of the coordinator between two counters. -/
theorem classified_quiet {β : Type} (operation : String) (call : ControlM β)
    (change : Nat → β → EngineCommandDispatcher owners → EngineCommandDispatcher owners)
    (hchange : ∀ revision value dispatcher,
      (change revision value dispatcher).publication = dispatcher.publication) :
    Quiet (do
      let dispatcher ← get
      let revision ← nextSequence dispatcher.recoveryStateRevision operation
      let value ← onControl call
      modify (change revision value)
      recoverySnapshot) :=
  Frames.get.bind fun _ => (nextSequence_quiet _ _).bind fun revision =>
    (onControl_quiet call).bind fun value =>
      (Frames.change (hchange revision value)).bind fun _ => recoverySnapshot_quiet

theorem reportClassifiedFailure_quiet (subsystem : EngineSubsystem) (operation : String)
    (failure : EngineReportedFailure) :
    Quiet (reportClassifiedFailure subsystem operation failure : DispatcherM owners _) :=
  classified_quiet _ _ _ fun _ _ _ => rfl

theorem beginClassifiedRecovery_quiet (subsystem : EngineSubsystem) (sequence : Nat)
    (request : EngineRecoveryRequest) :
    Quiet (beginClassifiedRecovery subsystem sequence request : DispatcherM owners _) :=
  classified_quiet _ _ _ fun _ _ _ => rfl

theorem beginLegacyRecovery_quiet (subsystem : EngineSubsystem) :
    Quiet (beginLegacyRecovery subsystem : DispatcherM owners _) :=
  (onControl_quiet _).bind fun _ => Frames.ofExcept.bind fun _ => beginClassifiedRecovery_quiet _ _ _

theorem completeClassifiedRecovery_quiet (action : EngineRecoveryAction) :
    Quiet (completeClassifiedRecovery action : DispatcherM owners _) :=
  classified_quiet _ _ _ fun _ _ _ => rfl

theorem failClassifiedRecovery_quiet (action : EngineRecoveryAction)
    (failure : EngineReportedFailure) :
    Quiet (failClassifiedRecovery action failure : DispatcherM owners _) :=
  classified_quiet _ _ _ fun _ _ _ => rfl

theorem requireExportTeardownReady_quiet (action : EngineLifecycleAction) :
    Quiet (requireExportTeardownReady action : DispatcherM owners _) := by
  unfold requireExportTeardownReady
  split
  · exact .ret
  · exact Frames.get.bind fun _ => Frames.ofExcept.bind fun _ => .check

theorem routedRecovery_quiet (action : EngineLifecycleAction) :
    Quiet (routedRecovery action : DispatcherM owners _) :=
  lifecycleSnapshot_quiet.bind fun _ => Frames.get.bind fun _ => .ret

theorem completeRouted_quiet (action : EngineLifecycleAction)
    (recovery : Option EngineRecoveryAction) :
    Quiet (completeRouted action recovery : DispatcherM owners _) := by
  cases recovery with
  | none => exact (onLifecyclePart_quiet _).bind fun _ => .ret
  | some recovery => exact (completeClassifiedRecovery_quiet recovery).bind fun _ => .ret

theorem failRouted_quiet (action : EngineLifecycleAction) (failure : EngineReportedFailure)
    (recovery : Option EngineRecoveryAction) :
    Quiet (failRouted action failure recovery : DispatcherM owners _) := by
  cases recovery with
  | none => exact (onLifecyclePart_quiet _).bind fun _ => .ret
  | some recovery => exact (failClassifiedRecovery_quiet recovery failure).bind fun _ => .ret

theorem executeCommand_quiet (command : EngineCommand owners) (commandSequence : Nat) :
    Quiet (executeCommand command commandSequence) := by
  cases command with
  | others command => exact Frames.get.bind fun _ => (onOthers_quiet _).bind fun _ => .ret
  | inspectLifecycle => exact lifecycleSnapshot_quiet.bind fun _ => .ret
  | inspectRecoveryState => exact recoverySnapshot_quiet.bind fun _ => .ret
  | completeLifecycleAction action =>
      exact (requireExportTeardownReady_quiet action).bind fun _ =>
        (routedRecovery_quiet action).bind fun recovery => completeRouted_quiet action recovery
  | failLifecycleAction action failure =>
      exact (routedRecovery_quiet action).bind fun recovery => failRouted_quiet action failure recovery
  | reportRuntimeFailure subsystem failure =>
      exact (reportClassifiedFailure_quiet _ _ _).bind fun _ => .ret
  | reportClassifiedFailure subsystem operation failure =>
      exact (reportClassifiedFailure_quiet _ _ _).bind fun _ => .ret
  | beginRecovery subsystem => exact (beginLegacyRecovery_quiet _).bind fun _ => .ret
  | beginClassifiedRecovery subsystem sequence request =>
      exact (beginClassifiedRecovery_quiet _ _ _).bind fun _ => .ret
  | completeRecovery action => exact (completeClassifiedRecovery_quiet _).bind fun _ => .ret
  | failRecovery action failure => exact (failClassifiedRecovery_quiet _ _).bind fun _ => .ret
  | beginSleep => exact (onLifecyclePart_quiet _).bind fun _ => .ret
  | beginWake => exact (onLifecyclePart_quiet _).bind fun _ => .ret
  | beginShutdown => exact (onLifecyclePart_quiet _).bind fun _ => .ret
  | beginRestart => exact (onLifecyclePart_quiet _).bind fun _ => .ret
  | admitWork work => exact lifecycleSnapshot_quiet.bind fun _ => .ret
  | validateWorkPermit permit => exact lifecycleSnapshot_quiet.bind fun _ => .ret
  | executePlayback command => exact .raised

end Execution

/-! ## The command on its way -/

def QueuedPlaybackCommand.pending (queued : QueuedPlaybackCommand owners) : PendingPlaybackCommand :=
  ⟨queued.transactionId, queued.commandSequence, queued.eventSequence⟩

def PlaybackCommandExecution.pending (completion : PlaybackCommandExecution owners) :
    PendingPlaybackCommand :=
  ⟨completion.transactionId, completion.commandSequence, completion.eventSequence⟩

/-- The bridge holds the pending command, either as a request or as a completion. -/
inductive PlaybackCommandBridge.Carries (bridge : PlaybackCommandBridge owners)
    (pending : PendingPlaybackCommand) : Prop
  | requested {queued : QueuedPlaybackCommand owners} (hrequests : bridge.requests = [queued])
      (hcompletions : bridge.completions = []) (hqueued : queued.pending = pending)
  | completed {completion : PlaybackCommandExecution owners} (hrequests : bridge.requests = [])
      (hcompletions : bridge.completions = [completion]) (hcompletion : completion.pending = pending)

/-- Queue and bridge agree with the pending playback command. -/
structure Coherent (state : Publication owners) : Prop where
  bounded : state.events.length ≤ maxPendingEngineEvents
  idle : state.pendingPlayback = none → ∀ bridge, state.playbackBridge = some bridge →
    bridge.requests = [] ∧ bridge.completions = []
  reserved : ∀ pending, state.pendingPlayback = some pending →
    pending.eventSequence = state.eventSequence + 1 ∧ state.events.length < maxPendingEngineEvents
  carried : ∀ pending, state.pendingPlayback = some pending →
    ∃ bridge, state.playbackBridge = some bridge ∧ bridge.Carries pending

/-! ## Collecting a completion -/

/-- The dispatcher after it collected a completion. -/
def EngineCommandDispatcher.collected (dispatcher : EngineCommandDispatcher owners)
    (bridge : PlaybackCommandBridge owners) (completion : PlaybackCommandExecution owners) :
    EngineCommandDispatcher owners :=
  { dispatcher.pushEvent completion.eventSequence completion.commandSequence
      completion.transactionId (.playbackStateChanged completion.snapshot completion.failure) with
    playbackBridge := some { bridge with completions := [] }
    latestPlayback := some (completion.snapshot, completion.failure)
    pendingPlayback := none }

/-- What collecting can find. -/
inductive Collection (dispatcher : EngineCommandDispatcher owners) : Prop
  | idle (hpending : dispatcher.pendingPlayback = none)
      (hcollect : collectPlaybackCompletion dispatcher = .ok ⟨⟩ dispatcher)
  | waits {pending : PendingPlaybackCommand} {bridge : PlaybackCommandBridge owners}
      (hpending : dispatcher.pendingPlayback = some pending)
      (hbridge : dispatcher.playbackBridge = some bridge) (hcompletions : bridge.completions = [])
      (hconnected : bridge.connected = true)
      (hcollect : collectPlaybackCompletion dispatcher = .ok ⟨⟩ dispatcher)
  | lost {pending : PendingPlaybackCommand} {bridge : PlaybackCommandBridge owners} {error : Error}
      (hpending : dispatcher.pendingPlayback = some pending)
      (hbridge : dispatcher.playbackBridge = some bridge) (hcompletions : bridge.completions = [])
      (hconnected : bridge.connected = false)
      (hcollect : collectPlaybackCompletion dispatcher = .error error dispatcher)
  | completes {bridge : PlaybackCommandBridge owners} {completion : PlaybackCommandExecution owners}
      (hpending : dispatcher.pendingPlayback = some completion.pending)
      (hbridge : dispatcher.playbackBridge = some bridge) (hrequests : bridge.requests = [])
      (hcompletions : bridge.completions = [completion])
      (hcollect : collectPlaybackCompletion dispatcher =
        .ok ⟨⟩ (dispatcher.collected bridge completion))

theorem collectPlaybackCompletion_run :
    collectPlaybackCompletion dispatcher =
      (match dispatcher.pendingPlayback, dispatcher.playbackBridge with
        | none, _ => pure ⟨⟩
        | some _, none => throw (dispatchInternal "collect_playback_completion"
            "pending playback command has no attached bridge")
        | some pending, some bridge => takeCompletion pending bridge : DispatcherM owners PUnit)
        dispatcher := rfl

theorem collect_eq {pending : PendingPlaybackCommand} {bridge : PlaybackCommandBridge owners}
    (hpending : dispatcher.pendingPlayback = some pending)
    (hbridge : dispatcher.playbackBridge = some bridge) :
    collectPlaybackCompletion dispatcher = takeCompletion pending bridge dispatcher := by
  rw [collectPlaybackCompletion_run, hpending, hbridge]

/-- The reserved completion is there when it is collected, and it fits into the queue. -/
theorem Coherent.collection (h : Coherent dispatcher.publication) : Collection dispatcher := by
  cases hpending : dispatcher.pendingPlayback with
  | none =>
      refine .idle hpending ?_
      rw [collectPlaybackCompletion_run, hpending]
      rfl
  | some pending =>
      obtain ⟨hreserved, hroom⟩ := h.reserved pending hpending
      obtain ⟨bridge, hbridge, hcarries⟩ := h.carried pending hpending
      have hcollect := collect_eq hpending hbridge
      cases hcarries with
      | requested hrequests hcompletions hqueued =>
          rw [takeCompletion, hcompletions] at hcollect
          cases hconnected : bridge.connected with
          | true =>
              rw [hconnected] at hcollect
              exact .waits hpending hbridge hcompletions hconnected hcollect
          | false =>
              rw [hconnected] at hcollect
              exact .lost hpending hbridge hcompletions hconnected hcollect
      | @completed completion hrequests hcompletions hcompletion =>
          subst hcompletion
          have htaken : Succeeds (takeCompletion completion.pending bridge) dispatcher fun _ last =>
              last = dispatcher.collected bridge completion := by
            rw [takeCompletion, hcompletions]
            refine .change (.passes (by simp [PlaybackCommandExecution.pending]) (.get
              (.passes (Nat.not_le.2 hroom) ?_)))
            exact ⟨⟨⟩, _, rfl, rfl⟩
          obtain ⟨_, last, hcall, rfl⟩ := htaken
          exact .completes hpending hbridge hrequests hcompletions (hcollect.trans hcall)

/-! ## Dispatching a command -/

namespace Publication

variable (state : Publication owners)

/-- A command took the next number. -/
def numbered : Publication owners := { state with commandSequence := state.commandSequence + 1 }

/-- An event took its place in the queue. -/
def emitting (envelope : EngineEventEnvelope owners) : Publication owners :=
  { state with eventSequence := envelope.sequence, events := state.events ++ [envelope] }

/-- A playback command is on its way. -/
def queueing (bridge : PlaybackCommandBridge owners) (queued : QueuedPlaybackCommand owners) :
    Publication owners :=
  { state with
    playbackBridge := some { bridge with requests := bridge.requests ++ [queued] }
    pendingPlayback := some queued.pending }

end Publication

/-- An accepted command is named after its request and takes the next number. -/
structure Numbers (transactionId : EngineTransactionId) (state : Publication owners)
    (outcome : EngineCommandOutcome owners) : Prop where
  transactionId : outcome.transactionId = transactionId
  commandSequence : outcome.commandSequence = state.commandSequence + 1

/-- What an accepted command publishes: nothing, its event, or a playback command. -/
inductive Publishes (transactionId : EngineTransactionId) (state : Publication owners) :
    Publication owners → Prop
  | numbered : Publishes transactionId state state.numbered
  | emitted {envelope : EngineEventEnvelope owners} (hidle : state.pendingPlayback = none)
      (hroom : state.events.length < maxPendingEngineEvents)
      (hsequence : envelope.sequence = state.eventSequence + 1)
      (hcommand : envelope.commandSequence = state.commandSequence + 1)
      (htransaction : envelope.transactionId = transactionId) :
      Publishes transactionId state (state.numbered.emitting envelope)
  | queued {bridge : PlaybackCommandBridge owners} {queued : QueuedPlaybackCommand owners}
      (hidle : state.pendingPlayback = none) (hroom : state.events.length < maxPendingEngineEvents)
      (hbridge : state.playbackBridge = some bridge) (hconnected : bridge.connected = true)
      (hqueued : queued.pending =
        ⟨transactionId, state.commandSequence + 1, state.eventSequence + 1⟩) :
      Publishes transactionId state (state.numbered.queueing bridge queued)

section Dispatch

variable {mid : EngineCommandDispatcher owners}

theorem nextSequence_succ (current : Nat) (operation : String) :
    Ensures (nextSequence current operation) dispatcher
      (fun sequence last => sequence = current + 1 ∧ last = dispatcher) fun last => last = dispatcher :=
  .check rfl fun _ => .ret ⟨rfl, rfl⟩

/-- A command is admitted with the next sequences, and with an event only where there is room. -/
theorem admitCommand_ensures (command : EngineCommand owners)
    (hcollect : collectPlaybackCompletion dispatcher = .ok ⟨⟩ mid) :
    Ensures (admitCommand command) dispatcher (fun sequences last => last = mid ∧ ∃ emits,
      command.emitsStateEvent owners mid.others = .ok emits ∧
      (emits = true → mid.pendingPlayback = none ∧ mid.events.length < maxPendingEngineEvents) ∧
      sequences = (mid.commandSequence + 1, if emits then some (mid.eventSequence + 1) else none))
      fun last => last = mid := by
  refine .through (fun _ last => last = mid) ?_ ?_
  · simp only [Ensures, hcollect]
  rintro _ mid rfl
  refine .get (.through (fun emits last => last = mid ∧
    command.emitsStateEvent owners mid.others = .ok emits) (.ofExcept rfl fun _ h => ⟨rfl, h⟩) ?_)
  rintro emits mid ⟨rfl, hemits⟩
  refine .check rfl fun hfree => (nextSequence_succ _ _).bind ?_
  rintro commandSequence mid ⟨rfl, rfl⟩
  refine .through (fun sequence last => last = mid ∧
    (emits = true → mid.events.length < maxPendingEngineEvents) ∧
    sequence = if emits then some (mid.eventSequence + 1) else none) (.get ?_) ?_
  · cases emits with
    | false => exact .ret ⟨rfl, (fun hemits => by cases hemits), rfl⟩
    | true =>
        refine (nextSequence_succ _ _).bind ?_
        rintro sequence mid ⟨rfl, rfl⟩
        exact .check rfl fun hroom => .ret ⟨rfl, fun _ => Nat.not_le.1 hroom, rfl⟩
  · rintro eventSequence mid ⟨rfl, hroom, rfl⟩
    refine .ret ⟨rfl, emits, hemits, fun hemits => ⟨?_, hroom hemits⟩, rfl⟩
    simpa [hemits] using hfree

theorem pushEvent_publication (sequence commandSequence : Nat) (transactionId : EngineTransactionId)
    (event : EngineEvent owners) :
    (dispatcher.pushEvent sequence commandSequence transactionId event).publication =
      dispatcher.publication.emitting
        ⟨sequence, commandSequence, transactionId, event.revisions owners, event⟩ := rfl

/-- A command that does not go to the playback takes its number, and its event the reserved one. -/
theorem dispatchCommand_ensures (transactionId : EngineTransactionId) (command : EngineCommand owners)
    {eventSequence : Option Nat} (hreserved : ∀ sequence, eventSequence = some sequence →
      sequence = mid.eventSequence + 1 ∧ mid.pendingPlayback = none ∧
        mid.events.length < maxPendingEngineEvents) :
    Ensures (dispatchCommand transactionId command (mid.commandSequence + 1) eventSequence) mid
      (fun outcome last => Numbers transactionId mid.publication outcome ∧
        Publishes transactionId mid.publication last.publication)
      fun last => last.publication = mid.publication ∨
        last.publication = mid.publication.numbered := by
  refine Ensures.bind (.raising ((executeCommand_quiet command _ mid).mono (fun _ _ h => h)
    fun _ => .inl)) ?_
  intro execution current hcurrent
  refine .change (.through (fun _ last => Publishes transactionId mid.publication last.publication)
    ?_ fun _ last hlast => .ret ⟨⟨rfl, rfl⟩, hlast⟩)
  have hnumbered : ({ current with commandSequence := mid.commandSequence + 1 } :
      EngineCommandDispatcher owners).publication = mid.publication.numbered := by
    show { current.publication with commandSequence := mid.commandSequence + 1 } = _
    rw [hcurrent]
    rfl
  cases execution.event with
  | none =>
      refine .ret ?_
      rw [hnumbered]
      exact .numbered
  | some event =>
      cases eventSequence with
      | none => exact .raised (.inr hnumbered)
      | some sequence =>
          obtain ⟨rfl, hidle, hroom⟩ := hreserved sequence rfl
          refine .change_last ?_
          rw [pushEvent_publication, hnumbered]
          exact .emitted hidle hroom rfl rfl rfl

theorem sendPlayback_ensures (queued : QueuedPlaybackCommand owners) :
    Ensures (sendPlayback queued) mid (fun _ last => ∃ bridge, mid.playbackBridge = some bridge ∧
      bridge.connected = true ∧ last = { mid with
        playbackBridge := some { bridge with requests := bridge.requests ++ [queued] } })
      fun last => last = mid := by
  refine .get ?_
  cases hbridge : mid.playbackBridge with
  | none => exact .raised rfl
  | some bridge =>
      refine .check rfl fun hconnected => .check rfl fun _ => .put_last ⟨bridge, rfl, ?_, rfl⟩
      simpa using hconnected

theorem playbackPermit_ensures (command : owners.PlaybackCommand) :
    Ensures (playbackPermit command) mid (fun _ last => last = mid) fun last => last = mid := by
  unfold playbackPermit
  split
  · exact .ret rfl
  · refine (lifecycleSnapshot_ensures.mono (fun _ _ h => h) fun _ h => h).bind ?_
    rintro snapshot mid ⟨rfl, -⟩
    exact .check rfl fun _ => .ret rfl

/-- A playback command takes its number, and reserves its event while it is on its way. -/
theorem dispatchPlayback_ensures (transactionId : EngineTransactionId)
    (command : owners.PlaybackCommand) (hidle : mid.pendingPlayback = none)
    (hroom : mid.events.length < maxPendingEngineEvents) :
    Ensures (dispatchPlayback transactionId command (mid.commandSequence + 1)
        (some (mid.eventSequence + 1))) mid
      (fun outcome last => Numbers transactionId mid.publication outcome ∧
        Publishes transactionId mid.publication last.publication)
      fun last => last = mid := by
  refine .raising ((playbackPermit_ensures command).bind ?_)
  rintro permit mid rfl
  refine (sendPlayback_ensures _).bind ?_
  rintro _ _ ⟨bridge, hbridge, hconnected, rfl⟩
  exact .change (.ret ⟨⟨rfl, rfl⟩, .queued hidle hroom hbridge hconnected rfl⟩)

/-- After a completion was collected, a command is accepted and publishes, or leaves what is
published as it was; only an event nobody reserved costs a number. -/
theorem dispatch_ensures (request : EngineCommandRequest owners)
    (hcollect : collectPlaybackCompletion dispatcher = .ok ⟨⟩ mid) :
    Ensures (dispatch request) dispatcher
      (fun outcome last => Numbers request.transactionId mid.publication outcome ∧
        Publishes request.transactionId mid.publication last.publication)
      fun last => last.publication = mid.publication ∨
        last.publication = mid.publication.numbered := by
  refine .bind (.raising ((admitCommand_ensures request.command hcollect).mono (fun _ _ h => h) ?_)) ?_
  · rintro _ rfl
    exact .inl rfl
  rintro _ mid ⟨rfl, emits, hemits, hfree, rfl⟩
  dsimp only
  split
  · rename_i command hcommand
    rw [hcommand] at hemits
    cases hemits
    obtain ⟨hidle, hroom⟩ := hfree rfl
    refine (dispatchPlayback_ensures _ command hidle hroom).mono (fun _ _ h => h) ?_
    rintro _ rfl
    exact .inl rfl
  · refine dispatchCommand_ensures _ _ ?_
    intro sequence hsequence
    cases emits with
    | false => cases hsequence
    | true =>
        cases hsequence
        exact ⟨rfl, hfree rfl⟩

end Dispatch

/-! ## Transitions -/

/-- What a call publishes first: the completion that waits for it, if there is one. -/
inductive Collects (before : Publication owners) : Publication owners → Prop
  | nothing : Collects before before
  | completion {bridge : PlaybackCommandBridge owners} {envelope : EngineEventEnvelope owners}
      (hpending : before.pendingPlayback =
        some ⟨envelope.transactionId, envelope.commandSequence, envelope.sequence⟩)
      (hbridge : before.playbackBridge = some bridge) (hrequests : bridge.requests = [])
      (hplayback : envelope.event.isPlayback owners = true) :
      Collects before { before.emitting envelope with
        playbackBridge := some { bridge with completions := [] }
        pendingPlayback := none }

/-- The executor is gone and has left the pending command without a completion. -/
def Publication.Lost (state : Publication owners) : Prop :=
  ∃ pending bridge, state.pendingPlayback = some pending ∧ state.playbackBridge = some bridge ∧
    bridge.connected = false ∧ bridge.completions = []

/-- What one call makes of the published state, with the outcome of a command that is accepted. -/
inductive Transition (before : Publication owners) :
    EngineCall owners → Option (EngineCommandOutcome owners) → Publication owners → Prop
  | lost {call : EngineCall owners} (hlost : before.Lost) : Transition before call none before
  | refused {request : EngineCommandRequest owners} {mid : Publication owners}
      (hcollects : Collects before mid) : Transition before (.dispatch request) none mid
  -- the command wanted to publish an event that it had not reserved
  | unreserved {request : EngineCommandRequest owners} {mid : Publication owners}
      (hcollects : Collects before mid) : Transition before (.dispatch request) none mid.numbered
  | accepted {request : EngineCommandRequest owners} {mid after : Publication owners}
      {outcome : EngineCommandOutcome owners} (hcollects : Collects before mid)
      (hnumbers : Numbers request.transactionId mid outcome)
      (hpublishes : Publishes request.transactionId mid after) :
      Transition before (.dispatch request) (some outcome) after
  | drained {mid : Publication owners} (hcollects : Collects before mid) :
      Transition before .drainEvents none { mid with events := [] }
  | discarded {mid : Publication owners} (hcollects : Collects before mid) :
      Transition before .discardPlaybackEvents none { mid with
        events := mid.events.filter fun envelope => !envelope.event.isPlayback owners }
  | executed {snapshot : owners.PlaybackSnapshot} {failure : Option Error} :
      Transition before (.executePlayback snapshot failure) none { before with
        playbackBridge := before.playbackBridge.map fun bridge =>
          if bridge.connected then bridge.executeNext snapshot failure else bridge }
  | dropped : Transition before .dropExecutor none { before with
      playbackBridge := before.playbackBridge.map fun bridge => { bridge with connected := false } }

/-- The outcome of a command that is accepted. -/
def EngineCommandDispatcher.accepts (dispatcher : EngineCommandDispatcher owners) :
    EngineCall owners → Option (EngineCommandOutcome owners)
  | .dispatch request =>
      match dispatch request dispatcher with
      | .ok outcome _ => some outcome
      | .error _ _ => none
  | _ => none

section Transitions

theorem collects_of_completes {bridge : PlaybackCommandBridge owners}
    {completion : PlaybackCommandExecution owners}
    (hpending : dispatcher.pendingPlayback = some completion.pending)
    (hbridge : dispatcher.playbackBridge = some bridge) (hrequests : bridge.requests = []) :
    Collects dispatcher.publication (dispatcher.collected bridge completion).publication := by
  let event : EngineEvent owners := .playbackStateChanged completion.snapshot completion.failure
  let envelope : EngineEventEnvelope owners := ⟨completion.eventSequence,
    completion.commandSequence, completion.transactionId, event.revisions owners, event⟩
  have hcollects : Collects dispatcher.publication { dispatcher.publication.emitting envelope with
      playbackBridge := some { bridge with completions := [] }, pendingPlayback := none } :=
    .completion hpending hbridge hrequests rfl
  exact hcollects

/-- Either the completion is lost, or collecting leaves what it says. -/
theorem Coherent.collects (h : Coherent dispatcher.publication) :
    (dispatcher.publication.Lost ∧
      ∃ error, collectPlaybackCompletion dispatcher = .error error dispatcher) ∨
    ∃ mid, collectPlaybackCompletion dispatcher = .ok ⟨⟩ mid ∧
      Collects dispatcher.publication mid.publication := by
  cases h.collection with
  | idle hpending hcollect => exact .inr ⟨dispatcher, hcollect, .nothing⟩
  | waits hpending hbridge hcompletions hconnected hcollect =>
      exact .inr ⟨dispatcher, hcollect, .nothing⟩
  | lost hpending hbridge hcompletions hconnected hcollect =>
      exact .inl ⟨⟨_, _, hpending, hbridge, hconnected, hcompletions⟩, _, hcollect⟩
  | completes hpending hbridge hrequests hcompletions hcollect =>
      exact .inr ⟨_, hcollect, collects_of_completes hpending hbridge hrequests⟩

theorem transition_dispatch (h : Coherent dispatcher.publication)
    (request : EngineCommandRequest owners) : Transition dispatcher.publication (.dispatch request)
      (dispatcher.accepts (.dispatch request)) (dispatcher.after (.dispatch request)).publication := by
  simp only [EngineCommandDispatcher.accepts, EngineCommandDispatcher.after,
    EngineCommandDispatcher.leftBy]
  obtain ⟨hlost, error, hcollect⟩ | ⟨mid, hcollect, hcollects⟩ := h.collects
  · have hadmits : admitCommand request.command dispatcher = .error error dispatcher :=
      bind_of_error hcollect
    have hdispatch : dispatch request dispatcher = .error (.refused error) dispatcher :=
      bind_of_error (by simp only [raising, hadmits])
    rw [hdispatch]
    exact .lost hlost
  · have hensures := dispatch_ensures request hcollect
    unfold Ensures at hensures
    cases hdispatch : dispatch request dispatcher with
    | ok outcome last =>
        rw [hdispatch] at hensures
        exact .accepted hcollects hensures.1 hensures.2
    | error fault last =>
        rw [hdispatch] at hensures
        obtain hlast | hlast := hensures
        · dsimp only
          rw [hlast]
          exact .refused hcollects
        · dsimp only
          rw [hlast]
          exact .unreserved hcollects

/-- Every call makes one of the transitions. -/
theorem Coherent.transition (h : Coherent dispatcher.publication) (call : EngineCall owners) :
    Transition dispatcher.publication call (dispatcher.accepts call)
      (dispatcher.after call).publication := by
  cases call with
  | dispatch request => exact transition_dispatch h request
  | drainEvents =>
      obtain ⟨hlost, error, hcollect⟩ | ⟨mid, hcollect, hcollects⟩ := h.collects
      · have hdrain : drainEvents dispatcher = .error error dispatcher := bind_of_error hcollect
        simp only [EngineCommandDispatcher.after, hdrain]
        exact .lost hlost
      · have hdrain : drainEvents dispatcher = .ok mid.events { mid with events := [] } :=
          bind_of_ok hcollect
        simp only [EngineCommandDispatcher.after, hdrain]
        exact .drained hcollects
  | discardPlaybackEvents =>
      obtain ⟨hlost, error, hcollect⟩ | ⟨mid, hcollect, hcollects⟩ := h.collects
      · have hdiscard : discardPlaybackEvents dispatcher = .error error dispatcher :=
          bind_of_error hcollect
        simp only [EngineCommandDispatcher.after, hdiscard]
        exact .lost hlost
      · have hdiscard : ∃ count, discardPlaybackEvents dispatcher = .ok count { mid with
            events := mid.events.filter fun envelope => !envelope.event.isPlayback owners } :=
          ⟨_, bind_of_ok hcollect⟩
        obtain ⟨count, hdiscard⟩ := hdiscard
        simp only [EngineCommandDispatcher.after, hdiscard]
        exact .discarded hcollects
  | executePlayback snapshot failure => exact .executed
  | dropExecutor => exact .dropped

end Transitions

/-! ## Coherence over a run -/

section Coherence

variable {state next : Publication owners} {transactionId : EngineTransactionId}

theorem Coherent.numbered (h : Coherent state) : Coherent state.numbered :=
  ⟨h.bounded, h.idle, h.reserved, h.carried⟩

theorem Coherent.publishes (h : Coherent state) (hpublishes : Publishes transactionId state next) :
    Coherent next := by
  cases hpublishes with
  | numbered => exact h.numbered
  | emitted hidle hroom hsequence hcommand htransaction =>
      refine ⟨?_, h.idle, fun pending hpending => ?_, fun pending hpending => ?_⟩
      · show (state.events ++ [_]).length ≤ maxPendingEngineEvents
        rw [List.length_append]
        exact hroom
      · exact absurd (hidle.symm.trans hpending) (Option.some_ne_none pending).symm
      · exact absurd (hidle.symm.trans hpending) (Option.some_ne_none pending).symm
  | queued hidle hroom hbridge hconnected hqueued =>
      obtain ⟨hrequests, hcompletions⟩ := h.idle hidle _ hbridge
      refine ⟨h.bounded, nofun, fun pending hpending => ?_, fun pending hpending => ?_⟩
      · cases hpending
        exact ⟨congrArg PendingPlaybackCommand.eventSequence hqueued, hroom⟩
      · cases hpending
        exact ⟨_, rfl, .requested (by rw [hrequests]; rfl) hcompletions rfl⟩

theorem Coherent.collected (h : Coherent state) (hcollects : Collects state next) :
    Coherent next := by
  cases hcollects with
  | nothing => exact h
  | completion hpending hbridge hrequests hplayback =>
      refine ⟨?_, fun _ other hother => ?_, nofun, nofun⟩
      · show (state.events ++ [_]).length ≤ maxPendingEngineEvents
        rw [List.length_append]
        exact (h.reserved _ hpending).2
      · cases hother
        exact ⟨hrequests, rfl⟩

/-- Fewer events are queued. -/
theorem Coherent.fewer (h : Coherent state) {events : List (EngineEventEnvelope owners)}
    (hfewer : events.length ≤ state.events.length) : Coherent { state with events } :=
  ⟨hfewer.trans h.bounded, h.idle,
    fun pending hpending => ⟨(h.reserved pending hpending).1,
      hfewer.trans_lt (h.reserved pending hpending).2⟩, h.carried⟩

/-- The executor moves the pending command from one channel to the other. -/
theorem PlaybackCommandBridge.Carries.executeNext {bridge : PlaybackCommandBridge owners}
    {pending : PendingPlaybackCommand} (h : bridge.Carries pending)
    (snapshot : owners.PlaybackSnapshot) (failure : Option Error) :
    ∃ completion, (bridge.executeNext snapshot failure).requests = [] ∧
      (bridge.executeNext snapshot failure).completions = [completion] ∧
      completion.pending = pending := by
  cases h with
  | @requested queued hrequests hcompletions hqueued =>
      refine ⟨⟨queued.transactionId, queued.commandSequence, queued.eventSequence, queued.permit,
        snapshot, failure.map .fromError⟩, ?_, ?_, hqueued⟩
      · rw [PlaybackCommandBridge.executeNext, hrequests]
      · rw [PlaybackCommandBridge.executeNext, hrequests, hcompletions]
        rfl
  | @completed completion hrequests hcompletions hcompletion =>
      refine ⟨completion, ?_, ?_, hcompletion⟩
      · rw [PlaybackCommandBridge.executeNext, hrequests]
        exact hrequests
      · rw [PlaybackCommandBridge.executeNext, hrequests]
        exact hcompletions

theorem executeNext_connected (bridge : PlaybackCommandBridge owners)
    (snapshot : owners.PlaybackSnapshot) (failure : Option Error) :
    (bridge.executeNext snapshot failure).connected = bridge.connected := by
  unfold PlaybackCommandBridge.executeNext
  split
  · rfl
  · rfl

/-- Both ends of the bridge keep the pending command in one place. -/
theorem Coherent.onBridge (h : Coherent state)
    {f : PlaybackCommandBridge owners → PlaybackCommandBridge owners}
    (hidle : ∀ bridge, bridge.requests = [] ∧ bridge.completions = [] →
      (f bridge).requests = [] ∧ (f bridge).completions = [])
    (hcarries : ∀ bridge pending, bridge.Carries pending → (f bridge).Carries pending) :
    Coherent { state with playbackBridge := state.playbackBridge.map f } := by
  refine ⟨h.bounded, fun hpending bridge hbridge => ?_, h.reserved, fun pending hpending => ?_⟩
  · obtain ⟨before, hbefore, rfl⟩ := Option.map_eq_some_iff.1 hbridge
    exact hidle before (h.idle hpending before hbefore)
  · obtain ⟨before, hbefore, hbridge⟩ := h.carried pending hpending
    exact ⟨f before, Option.map_eq_some_iff.2 ⟨before, hbefore, rfl⟩, hcarries before pending hbridge⟩

/-- Step lemma: every transition keeps the published state coherent. -/
theorem Coherent.step (h : Coherent state) {call : EngineCall owners}
    {outcome : Option (EngineCommandOutcome owners)}
    (htransition : Transition state call outcome next) : Coherent next := by
  cases htransition with
  | lost hlost => exact h
  | refused hcollects => exact h.collected hcollects
  | unreserved hcollects => exact (h.collected hcollects).numbered
  | accepted hcollects hnumbers hpublishes => exact (h.collected hcollects).publishes hpublishes
  | drained hcollects => exact (h.collected hcollects).fewer (Nat.zero_le _)
  | discarded hcollects => exact (h.collected hcollects).fewer (List.length_filter_le _ _)
  | executed =>
      apply h.onBridge
      · rintro bridge ⟨hrequests, hcompletions⟩
        split
        · rw [PlaybackCommandBridge.executeNext, hrequests]
          exact ⟨hrequests, hcompletions⟩
        · exact ⟨hrequests, hcompletions⟩
      · intro bridge pending hcarries
        split
        · obtain ⟨completion, hrequests, hcompletions, hcompletion⟩ := hcarries.executeNext _ _
          exact .completed hrequests hcompletions hcompletion
        · exact hcarries
  | dropped =>
      apply h.onBridge
      · exact fun bridge hidle => hidle
      · intro bridge pending hcarries
        cases hcarries with
        | requested hrequests hcompletions hqueued => exact .requested hrequests hcompletions hqueued
        | completed hrequests hcompletions hcompletion =>
            exact .completed hrequests hcompletions hcompletion

theorem Coherent.after (h : Coherent dispatcher.publication) (call : EngineCall owners) :
    Coherent (dispatcher.after call).publication :=
  h.step (h.transition call)

theorem new_coherent {others : owners.State} {bridged : Bool}
    {start : EngineCommandDispatcher owners}
    (hnew : EngineCommandDispatcher.new owners others bridged = .ok start) :
    Coherent start.publication := by
  unfold EngineCommandDispatcher.new at hnew
  cases hlifecycle : EngineLifecycle.new with
  | error error =>
      rw [hlifecycle] at hnew
      cases hnew
  | ok lifecycle =>
      rw [hlifecycle] at hnew
      cases hnew
      refine ⟨Nat.zero_le _, fun _ bridge hbridge => ?_, nofun, nofun⟩
      cases bridged with
      | false => cases hbridge
      | true =>
          cases hbridge
          exact ⟨rfl, rfl⟩

end Coherence

end Engine
end Superi

import Superi.Engine.DispatcherRuns
import Superi.Engine.Publication

/-!
# LostPlayback — the dispatcher after its playback executor is dropped

An executor that is dropped while it owes no completion leaves a dispatcher that serves every
command which does not go to the playback.  One that takes an accepted command with it leaves a
dispatcher that refuses every call.
-/

namespace Superi
namespace Engine

open Core Stateful

variable {owners : OtherOwners} {dispatcher last : EngineCommandDispatcher owners}

/-! ## Connection -/

/-- Whether the executor is still there, where there is a bridge at all. -/
def Publication.connection (state : Publication owners) : Option Bool :=
  state.playbackBridge.map (·.connected)

/-- No playback command is pending, or its completion is already there. -/
def Publication.Delivered (state : Publication owners) : Prop :=
  ∀ pending bridge, state.pendingPlayback = some pending → state.playbackBridge = some bridge →
    bridge.completions ≠ []

/-- Whether a call drops the executor. -/
def EngineCall.drops : EngineCall owners → Bool
  | .dropExecutor => true
  | _ => false

/-- The executor is dropped only where every accepted command is delivered. -/
def DropsDelivered (dispatcher : EngineCommandDispatcher owners) : EngineCall owners → Prop
  | .dropExecutor => dispatcher.publication.Delivered
  | _ => True

section Steps

variable {state next mid : Publication owners} {transactionId : EngineTransactionId}

theorem Collects.connection (h : Collects state mid) : mid.connection = state.connection := by
  cases h with
  | nothing => rfl
  | completion hpending hbridge hrequests hplayback =>
      simp only [Publication.connection, hbridge]
      rfl

theorem Publishes.connection (h : Publishes transactionId state next) :
    next.connection = state.connection := by
  cases h with
  | numbered => rfl
  | emitted hidle hroom hsequence hcommand htransaction => rfl
  | queued hidle hroom hbridge hconnected hqueued =>
      simp only [Publication.connection, hbridge]
      rfl

/-- Only dropping the executor changes the connection. -/
theorem Transition.connection {call : EngineCall owners}
    {outcome : Option (EngineCommandOutcome owners)} (h : Transition state call outcome next) :
    next.connection =
      if call.drops then state.connection.map fun _ => false
      else state.connection := by
  cases h with
  | lost hlost =>
      obtain ⟨pending, bridge, hpending, hbridge, hconnected, hcompletions⟩ := hlost
      have hlost : state.connection = some false := by
        rw [Publication.connection, hbridge]
        exact congrArg some hconnected
      rw [hlost]
      split
      · rfl
      · rfl
  | refused hcollects => exact hcollects.connection
  | unreserved hcollects => exact hcollects.connection
  | accepted hcollects hnumbers hpublishes => exact hpublishes.connection.trans hcollects.connection
  | drained hcollects => exact hcollects.connection
  | discarded hcollects => exact hcollects.connection
  | executed =>
      simp only [Publication.connection, Option.map_map]
      congr 1
      funext bridge
      simp only [Function.comp_apply]
      split
      · exact executeNext_connected _ _ _
      · rfl
  | dropped =>
      simp only [Publication.connection, Option.map_map]
      rfl

theorem Collects.not_lost (h : Collects state mid) (hstate : ¬ state.Lost) : ¬ mid.Lost := by
  cases h with
  | nothing => exact hstate
  | completion hpending hbridge hrequests hplayback =>
      rintro ⟨pending, bridge, hlost, -⟩
      cases hlost

theorem Publishes.not_lost (h : Publishes transactionId state next) (hstate : ¬ state.Lost) :
    ¬ next.Lost := by
  cases h with
  | numbered => exact hstate
  | emitted hidle hroom hsequence hcommand htransaction =>
      rintro ⟨pending, bridge, hlost, -⟩
      cases hidle.symm.trans hlost
  | queued hidle hroom hbridge hconnected hqueued =>
      rintro ⟨pending, bridge, hlost, hother, hgone, -⟩
      cases hother
      rw [hconnected] at hgone
      cases hgone

/-- Step lemma: a command is lost only when the executor is dropped. -/
theorem Transition.not_lost {call : EngineCall owners}
    {outcome : Option (EngineCommandOutcome owners)} (h : Transition state call outcome next)
    (hstate : ¬ state.Lost) (hdrop : call.drops = true → state.Delivered) : ¬ next.Lost := by
  cases h with
  | lost hlost => exact hstate
  | refused hcollects => exact hcollects.not_lost hstate
  | unreserved hcollects => exact hcollects.not_lost hstate
  | accepted hcollects hnumbers hpublishes => exact hpublishes.not_lost (hcollects.not_lost hstate)
  | drained hcollects => exact hcollects.not_lost hstate
  | discarded hcollects => exact hcollects.not_lost hstate
  | executed =>
      rintro ⟨pending, bridge, hpending, hbridge, hgone, hcompletions⟩
      obtain ⟨before, hbefore, rfl⟩ := Option.map_eq_some_iff.1 hbridge
      by_cases hconnected : before.connected = true
      · rw [if_pos hconnected, executeNext_connected, hconnected] at hgone
        cases hgone
      · rw [if_neg hconnected] at hgone hcompletions
        exact hstate ⟨pending, before, hpending, hbefore, hgone, hcompletions⟩
  | dropped =>
      rintro ⟨pending, bridge, hpending, hbridge, -, hcompletions⟩
      obtain ⟨before, hbefore, rfl⟩ := Option.map_eq_some_iff.1 hbridge
      exact hdrop rfl pending before hpending hbefore hcompletions

end Steps

/-! ## Serving commands without the executor -/

def EngineCommand.isPlayback : EngineCommand owners → Bool
  | .executePlayback _ => true
  | _ => false

/-- The dispatcher serves every command that does not go to the playback: the events can be drained,
and a command whose event fits, below the sequence counters, is executed on the state that the calls
before it have left. -/
def Serves (dispatcher : EngineCommandDispatcher owners) : Prop :=
  ∃ mid, SameControl dispatcher mid ∧ mid.others = dispatcher.others ∧
    mid.commandSequence = dispatcher.commandSequence ∧
    drainEvents dispatcher = .ok mid.events { mid with events := [] } ∧
    (∃ count last, discardPlaybackEvents dispatcher = .ok count last) ∧
    ∀ request emits, request.command.isPlayback = false →
      request.command.emitsStateEvent owners dispatcher.others = .ok emits →
      mid.commandSequence < maxCounter →
      (emits = true → mid.eventSequence < maxCounter ∧ mid.events.length < maxPendingEngineEvents) →
      ∃ eventSequence, dispatch request dispatcher = dispatchCommand request.transactionId
        request.command (mid.commandSequence + 1) eventSequence mid

section Serving

variable {mid : EngineCommandDispatcher owners}

/-- Without a pending playback command, a command for which there is room is admitted. -/
theorem admitCommand_admits {command : EngineCommand owners} {emits : Bool}
    (hcollect : collectPlaybackCompletion dispatcher = .ok ⟨⟩ mid)
    (hidle : mid.pendingPlayback = none)
    (hemits : command.emitsStateEvent owners mid.others = .ok emits)
    (hcommand : mid.commandSequence < maxCounter)
    (hevent : emits = true →
      mid.eventSequence < maxCounter ∧ mid.events.length < maxPendingEngineEvents) :
    ∃ eventSequence, admitCommand command dispatcher =
      .ok (mid.commandSequence + 1, eventSequence) mid := by
  have hadmits : Succeeds (admitCommand command) dispatcher fun sequences last =>
      sequences.1 = mid.commandSequence + 1 ∧ last = mid := by
    refine .through (fun _ last => last = mid) ⟨⟨⟩, mid, hcollect, rfl⟩ ?_
    rintro _ mid rfl
    refine .get (.through (fun value last => value = emits ∧ last = mid)
      (.ofExcept hemits ⟨rfl, rfl⟩) ?_)
    rintro emits mid ⟨rfl, rfl⟩
    refine .passes (by simp [hidle]) ?_
    refine .through (fun sequence last => sequence = mid.commandSequence + 1 ∧ last = mid)
      (.passes (Nat.not_le.2 hcommand) (.ret ⟨rfl, rfl⟩)) ?_
    rintro commandSequence mid ⟨rfl, rfl⟩
    refine .through (fun _ last => last = mid) (.get ?_) ?_
    · cases emits with
      | false => exact .ret rfl
      | true =>
          obtain ⟨hsequence, hroom⟩ := hevent rfl
          refine (nextSequence_spec _ hsequence).bind ?_
          rintro sequence mid rfl
          exact .passes (Nat.not_le.2 hroom) (.ret rfl)
    · rintro eventSequence mid rfl
      exact .ret ⟨rfl, rfl⟩
  obtain ⟨⟨commandSequence, eventSequence⟩, last, hcall, rfl, rfl⟩ := hadmits
  exact ⟨eventSequence, hcall⟩

theorem dispatch_eq_dispatchCommand {request : EngineCommandRequest owners} {commandSequence : Nat}
    {eventSequence : Option Nat} (hplayback : request.command.isPlayback = false)
    (hadmits : admitCommand request.command dispatcher = .ok (commandSequence, eventSequence) mid) :
    dispatch request dispatcher =
      dispatchCommand request.transactionId request.command commandSequence eventSequence mid := by
  have hraised : raising DispatchFault.refused (admitCommand request.command) dispatcher =
      .ok (commandSequence, eventSequence) mid := by
    simp only [raising, hadmits]
  obtain ⟨transactionId, command⟩ := request
  refine (bind_of_ok hraised).trans ?_
  cases command with
  | executePlayback command => cases hplayback
  | _ => rfl

/-- A dispatcher without its executor that has lost no command serves. -/
theorem serves_of_not_lost (h : Coherent dispatcher.publication)
    (hgone : dispatcher.publication.connection = some false) (hlost : ¬ dispatcher.publication.Lost) :
    Serves dispatcher := by
  have hcollected : ∃ mid, collectPlaybackCompletion dispatcher = .ok ⟨⟩ mid ∧
      mid.pendingPlayback = none ∧ SameControl dispatcher mid ∧ mid.others = dispatcher.others ∧
      mid.commandSequence = dispatcher.commandSequence := by
    cases h.collection with
    | idle hpending hcollect => exact ⟨dispatcher, hcollect, hpending, .refl _, rfl, rfl⟩
    | waits hpending hbridge hcompletions hconnected hcollect =>
        have hstays : dispatcher.publication.connection = some true := by
          rw [Publication.connection]
          show dispatcher.playbackBridge.map _ = some true
          rw [hbridge, ← hconnected]
          rfl
        rw [hstays] at hgone
        cases hgone
    | lost hpending hbridge hcompletions hconnected hcollect =>
        exact absurd ⟨_, _, hpending, hbridge, hconnected, hcompletions⟩ hlost
    | completes hpending hbridge hrequests hcompletions hcollect =>
        exact ⟨_, hcollect, rfl, ⟨rfl, rfl, rfl⟩, rfl, rfl⟩
  obtain ⟨mid, hcollect, hidle, hcontrol, hothers, hcommand⟩ := hcollected
  refine ⟨mid, hcontrol, hothers, hcommand, bind_of_ok hcollect, ⟨_, _, bind_of_ok hcollect⟩, ?_⟩
  intro request emits hplayback hemits hsequence hevent
  rw [← hothers] at hemits
  obtain ⟨eventSequence, hadmits⟩ := admitCommand_admits hcollect hidle hemits hsequence hevent
  exact ⟨eventSequence, dispatch_eq_dispatchCommand hplayback hadmits⟩

end Serving

/-! ## Runs -/

/-- What holds of a dispatcher whose executor is dropped only after it has delivered. -/
structure Undisturbed (dropped : Bool) (dispatcher : EngineCommandDispatcher owners) : Prop where
  coherent : Coherent dispatcher.publication
  not_lost : ¬ dispatcher.publication.Lost
  connection : dispatcher.publication.connection = some (!dropped)

theorem Undisturbed.after {dropped : Bool} (h : Undisturbed dropped dispatcher)
    {call : EngineCall owners} (hdrops : DropsDelivered dispatcher call) :
    Undisturbed (dropped || call.drops) (dispatcher.after call) := by
  have htransition := h.coherent.transition call
  refine ⟨h.coherent.after call, htransition.not_lost h.not_lost ?_, ?_⟩
  · intro hcall
    cases call with
    | dropExecutor => exact hdrops
    | dispatch _ | drainEvents | discardPlaybackEvents | executePlayback _ _ => cases hcall
  · rw [htransition.connection, h.connection]
    cases call with
    | dropExecutor => simp [EngineCall.drops]
    | dispatch _ | drainEvents | discardPlaybackEvents | executePlayback _ _ => simp [EngineCall.drops]

theorem new_undisturbed {others : owners.State} {start : EngineCommandDispatcher owners}
    (hnew : EngineCommandDispatcher.new owners others true = .ok start) : Undisturbed false start := by
  refine ⟨new_coherent hnew, ?_, ?_⟩ <;>
  · unfold EngineCommandDispatcher.new at hnew
    cases hlifecycle : EngineLifecycle.new with
    | error error =>
        rw [hlifecycle] at hnew
        cases hnew
    | ok lifecycle =>
        rw [hlifecycle] at hnew
        cases hnew
        first
        | rfl
        | exact fun ⟨pending, _, hpending, _⟩ => nomatch hpending

/-- Run lemma: the executor is gone when one of the calls has dropped it. -/
theorem Undisturbed.run {dropped : Bool} {calls : List (EngineCall owners)}
    (h : Undisturbed dropped dispatcher)
    (hdrops : Machine.EveryStep dispatcherStep DropsDelivered dispatcher calls)
    (hrun : Machine.run dispatcherStep dispatcher calls = some last) :
    Undisturbed (dropped || calls.any EngineCall.drops) last := by
  induction calls generalizing dispatcher dropped with
  | nil =>
      cases hrun
      simpa using h
  | cons call rest ih =>
      have hrest := ih (h.after hdrops.head) (hdrops.tail rfl) hrun
      rw [List.any_cons, ← Bool.or_assoc]
      exact hrest

/-- Once every accepted command was delivered when the executor was dropped, the engine serves. -/
theorem lost_playback_owner_serves {others : owners.State} {start last : EngineCommandDispatcher owners}
    {calls : List (EngineCall owners)}
    (hstart : EngineCommandDispatcher.new owners others true = .ok start)
    (hrun : Machine.run dispatcherStep start calls = some last)
    (hdrops : Machine.EveryStep dispatcherStep DropsDelivered start calls)
    (hdropped : .dropExecutor ∈ calls) : Serves last := by
  have hlast := (new_undisturbed hstart).run hdrops hrun
  have hgone : calls.any EngineCall.drops = true :=
    List.any_eq_true.2 ⟨.dropExecutor, hdropped, rfl⟩
  apply serves_of_not_lost hlast.coherent ?_ hlast.not_lost
  rw [hlast.connection, hgone]
  rfl

/-! ## A transport that is only looked at -/

def onlyPlayback : OtherOwners where
  State := Unit
  Command := Empty
  Result := Empty
  Event := Empty
  PlaybackCommand := Unit
  PlaybackSnapshot := Unit
  emitsStateEvent := nofun
  execute := nofun
  revisions := nofun
  logicalJobsFinal := fun _ => .ok true
  inspects := fun _ => true
  epoch := fun _ => 0

def bridgedDispatcher : EngineCommandDispatcher onlyPlayback :=
  match EngineCommandDispatcher.new onlyPlayback () true with
  | .ok dispatcher => dispatcher
  | .error _ => .scenarioOnly onlyPlayback ()

/-- The executor answers the command it has accepted, and is dropped. -/
def answeredDrop : List (EngineCall onlyPlayback) :=
  [.dispatch ⟨⟨"inspect"⟩, .executePlayback ()⟩, .executePlayback () none, .dropExecutor]

theorem lost_playback_owner_serves_answered : ∃ last,
    Machine.run dispatcherStep bridgedDispatcher answeredDrop = some last ∧ Serves last := by
  refine ⟨_, rfl, ?_⟩
  have hstart : EngineCommandDispatcher.new onlyPlayback () true = .ok bridgedDispatcher := rfl
  have hdelivered : DropsDelivered ((bridgedDispatcher.after
      (.dispatch ⟨⟨"inspect"⟩, .executePlayback ()⟩)).after (.executePlayback () none))
      (.dropExecutor) := by
    rintro pending bridge - hbridge hnone
    cases hbridge
    cases hnone
  have hexecute : DropsDelivered (bridgedDispatcher.after
      (.dispatch ⟨⟨"inspect"⟩, .executePlayback ()⟩)) (.executePlayback () none) := trivial
  have hdispatch : DropsDelivered bridgedDispatcher
      (.dispatch ⟨⟨"inspect"⟩, .executePlayback ()⟩) := trivial
  exact lost_playback_owner_serves hstart rfl
    (.cons hdispatch rfl (.cons hexecute rfl (.cons hdelivered rfl .nil)))
    (by simp only [List.mem_cons, true_or, or_true])

/-- The executor is dropped while it owes the completion of an accepted command. -/
def abandonedDispatcher : EngineCommandDispatcher onlyPlayback :=
  (bridgedDispatcher.after (.dispatch ⟨⟨"inspect"⟩, .executePlayback ()⟩)).after .dropExecutor

/-- From then on the engine can neither be inspected nor drained nor shut down. -/
theorem lost_playback_owner_wedges :
    Machine.run dispatcherStep bridgedDispatcher
      [.dispatch ⟨⟨"inspect"⟩, .executePlayback ()⟩, .dropExecutor] = some abandonedDispatcher ∧
    (∀ request, ∃ error,
      dispatch request abandonedDispatcher = .error (.refused error) abandonedDispatcher) ∧
    (∃ error, drainEvents abandonedDispatcher = .error error abandonedDispatcher) ∧
    ¬ Serves abandonedDispatcher := by
  have hdrained : ∃ error, drainEvents abandonedDispatcher = .error error abandonedDispatcher :=
    ⟨_, rfl⟩
  refine ⟨rfl, fun request => ⟨_, rfl⟩, hdrained, ?_⟩
  rintro ⟨mid, -, -, -, hdrain, -⟩
  obtain ⟨error, hfails⟩ := hdrained
  rw [hfails] at hdrain
  cases hdrain

end Engine
end Superi

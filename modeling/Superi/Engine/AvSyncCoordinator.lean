import Superi.Concurrency.AvSyncLaws

/-!
# AvSyncCoordinator — one clock and one scheduler for the frames of a playback

The coordinator reads its clock, asks the scheduler and, where the scheduler asks for a rebase,
moves the clock to the frame and asks again.  An error leaves it with what was changed before.

A device is known by its sample timebase; the instants and the samples that a call reads are inputs.
-/

namespace Superi
namespace Concurrency

open Core Result

/-! ## The clock -/

/-- What a call reads: the process clock, and the device each time it is asked for its position. -/
structure ClockReading where
  now : Nat
  observed : I64
  anchored : I64

namespace PlaybackClock

variable (clock : PlaybackClock Timebase) (reading : ClockReading)

def audioMaster (timelineAnchor : RationalTime) (source : Timebase) (sample : I64) :
    Except Error (PlaybackClock Timebase) := do
  validateAudioTimebase timelineAnchor source "anchor_audio_master"
  pure ⟨timelineAnchor, .audioMaster source sample⟩

def positionAt : Except Error RationalTime :=
  match clock.source with
  | .playback monotonicAnchor => playbackPosition clock.timelineAnchor monotonicAnchor reading.now
  | .audioMaster source sampleAnchor =>
      audioMasterPosition clock.timelineAnchor sampleAnchor reading.observed source

def reanchorAt (timelineAnchor : RationalTime) : Except Error (PlaybackClock Timebase) :=
  match clock.source with
  | .playback _ => pure ⟨timelineAnchor, .playback reading.now⟩
  | .audioMaster source _ => do
      validateAudioTimebase timelineAnchor source "reanchor_audio_master"
      pure ⟨timelineAnchor, .audioMaster source reading.anchored⟩

def switchToPlaybackAt : Except Error (PlaybackClock Timebase) := do
  let timelineAnchor ← clock.positionAt reading
  pure ⟨timelineAnchor, .playback reading.now⟩

def switchToAudioMasterAt (source : Timebase) : Except Error (PlaybackClock Timebase) := do
  let timelineAnchor ← clock.positionAt reading
  validateAudioTimebase timelineAnchor source "switch_to_audio_master"
  pure ⟨timelineAnchor, .audioMaster source reading.anchored⟩

end PlaybackClock

end Concurrency

namespace Engine

open Core Concurrency Result

/-! ## Outcomes -/

structure AvSyncFrameTiming where
  presentationTime : RationalTime
  duration : Duration
  deriving DecidableEq

structure AvSyncFrameReadiness where
  followingFrameReady : Bool
  dropEligible : Bool

def AvSyncFrameReadiness.lastReady : AvSyncFrameReadiness := ⟨false, false⟩

structure AvSyncRecovery where
  previousMasterTime : RationalTime
  targetMasterTime : RationalTime
  discontinuity : AvDriftMeasurement
  deriving DecidableEq

inductive AvSyncOutcome
  | hold (timing : AvSyncFrameTiming) (masterTime : RationalTime) (drift : AvDriftMeasurement)
      (waitFor : Nat)
  | present (timing : AvSyncFrameTiming) (masterTime : RationalTime) (drift : AvDriftMeasurement)
      (displayFor : Nat) (correction : AvFrameCorrection) (reason : AvPresentationReason)
      (recovery : Option AvSyncRecovery)
  | drop (timing : AvSyncFrameTiming) (masterTime : RationalTime) (drift : AvDriftMeasurement)
  deriving DecidableEq

namespace AvSyncOutcome

def isHold : AvSyncOutcome → Bool
  | .hold .. => true
  | _ => false

def isPresent : AvSyncOutcome → Bool
  | .present .. => true
  | _ => false

def isDrop : AvSyncOutcome → Bool
  | .drop .. => true
  | _ => false

end AvSyncOutcome

structure LivePresentationTiming where
  deadline : RationalTime
  duration : Duration

structure DiscontinuityRequest where
  previousMasterTime : RationalTime
  requestedTarget : RationalTime
  discontinuity : AvDriftMeasurement

/-! ## The coordinator -/

structure AvSyncCoordinator where
  clock : PlaybackClock Timebase
  scheduler : AvSyncScheduler

namespace AvSyncCoordinator

def syncContext (operation : String) : ErrorContext := ⟨"superi-engine.av-sync", operation⟩

def audioMasterWithPolicy (timelineAnchor : RationalTime) (source : Timebase) (sample : I64)
    (policy : AvSyncPolicy) : Except Error AvSyncCoordinator := do
  let clock ← withErrorContext (PlaybackClock.audioMaster timelineAnchor source sample)
    (syncContext "create_audio_master")
  let scheduler ← withErrorContext (AvSyncScheduler.new policy) (syncContext "create_scheduler")
  pure ⟨clock, scheduler⟩

variable (coordinator : AvSyncCoordinator)

def clockTimebase : Timebase := coordinator.clock.timelineAnchor.timebase

/-- What a call answers, and the coordinator after it; none where a step of the scheduler wraps. -/
abbrev Answer (α : Type) := Option (Except Error α × AvSyncCoordinator)

/-- The clock changes, unless the change is refused. -/
def changeClock (operation : String) (changed : Except Error (PlaybackClock Timebase)) :
    Except Error RationalTime × AvSyncCoordinator :=
  match changed with
  | .ok clock => (.ok clock.timelineAnchor, { coordinator with clock })
  | .error error => (.error (error.withContext (syncContext operation)), coordinator)

def reanchorClockAt (timelineAnchor : RationalTime) (reading : ClockReading) :
    Except Error RationalTime × AvSyncCoordinator :=
  coordinator.changeClock "reanchor_clock" (coordinator.clock.reanchorAt reading timelineAnchor)

def fallbackToPlaybackAt (reading : ClockReading) : Except Error RationalTime × AvSyncCoordinator :=
  coordinator.changeClock "fallback_to_playback" (coordinator.clock.switchToPlaybackAt reading)

def recoverAudioMasterAt (source : Timebase) (reading : ClockReading) :
    Except Error RationalTime × AvSyncCoordinator :=
  coordinator.changeClock "recover_audio_master"
    (coordinator.clock.switchToAudioMasterAt reading source)

/-- Ask the scheduler; `next` goes on with its decision. -/
def schedule {α : Type} (presentation : LivePresentationTiming) (readiness : AvSyncFrameReadiness)
    (masterTime : RationalTime) (operation : String)
    (next : AvScheduleDecision → AvSyncCoordinator → Answer α) : Answer α :=
  (coordinator.scheduler.schedule ⟨presentation.deadline, masterTime, presentation.duration,
    readiness.followingFrameReady, readiness.dropEligible⟩).run.bind fun
    | .ok (decision, scheduler) => next decision { coordinator with scheduler }
    | .error error => some (.error (error.withContext (syncContext operation)), coordinator)

/-- The outcome of a decision that was taken at a clock moved to the frame. -/
def resynchronize (timing : AvSyncFrameTiming) (request : DiscontinuityRequest)
    (targetMasterTime : RationalTime) (aligned : AvScheduleDecision) :
    Except Error AvSyncOutcome :=
  match aligned.action with
  | .present displayFor correction reason =>
      .ok (.present timing targetMasterTime aligned.drift displayFor correction reason
        (some ⟨request.previousMasterTime, targetMasterTime, request.discontinuity⟩))
  | _ => .error ((Error.new .internal .terminal
      "rebased frame did not produce an aligned presentation").withContext
        (syncContext "schedule_rebased_frame"))

def recoverDiscontinuity (timing : AvSyncFrameTiming) (presentation : LivePresentationTiming)
    (readiness : AvSyncFrameReadiness) (reading : ClockReading) (request : DiscontinuityRequest) :
    Answer AvSyncOutcome :=
  match withErrorContext (request.requestedTarget.checkedRescale coordinator.clockTimebase .exact)
    (syncContext "rescale_rebase_target") with
  | .error error => some (.error error, coordinator)
  | .ok targetMasterTime =>
      match withErrorContext (coordinator.clock.reanchorAt reading targetMasterTime)
        (syncContext "apply_rebase") with
      | .error error => some (.error error, coordinator)
      | .ok clock =>
          { coordinator with clock }.schedule presentation readiness targetMasterTime
            "schedule_rebased_frame" fun aligned coordinator =>
              some (resynchronize timing request targetMasterTime aligned, coordinator)

def coordinateAtDeadline (timing : AvSyncFrameTiming) (presentationDeadline : RationalTime)
    (presentationDuration : Duration) (readiness : AvSyncFrameReadiness) (reading : ClockReading) :
    Answer AvSyncOutcome :=
  let presentation := ⟨presentationDeadline, presentationDuration⟩
  match withErrorContext (coordinator.clock.positionAt reading) (syncContext "observe_master") with
  | .error error => some (.error error, coordinator)
  | .ok masterTime =>
      coordinator.schedule presentation readiness masterTime "schedule_frame"
        fun decision coordinator =>
          match decision.action with
          | .wait duration =>
              some (.ok (.hold timing masterTime decision.drift duration), coordinator)
          | .present displayFor correction reason =>
              some (.ok (.present timing masterTime decision.drift displayFor correction reason
                none), coordinator)
          | .dropLate => some (.ok (.drop timing masterTime decision.drift), coordinator)
          | .rebase targetMasterTime =>
              coordinator.recoverDiscontinuity timing presentation readiness reading
                ⟨masterTime, targetMasterTime, decision.drift⟩

/-! ## The policy stays -/

theorem audioMasterWithPolicy_valid {timelineAnchor : RationalTime} {source : Timebase}
    {sample : I64} {policy : AvSyncPolicy} {coordinator : AvSyncCoordinator}
    (h : audioMasterWithPolicy timelineAnchor source sample policy = .ok coordinator) :
    coordinator.scheduler.policy.Valid := by
  obtain ⟨clock, -, h⟩ := Result.bind_eq_ok.1 h
  obtain ⟨scheduler, hscheduler, h⟩ := Result.bind_eq_ok.1 h
  cases h
  obtain ⟨_, hvalid, hpolicy⟩ := Result.bind_eq_ok.1 (withErrorContext_eq_ok.1 hscheduler)
  cases hpolicy
  exact AvSyncPolicy.validate_eq_ok.1 hvalid

variable {coordinator} {α : Type}

/-- A call returns, and keeps the policy. -/
def Keeps (policy : AvSyncPolicy) (answer : Answer α) : Prop :=
  ∃ result next, answer = some (result, next) ∧ next.scheduler.policy = policy

theorem schedule_keeps (hvalid : coordinator.scheduler.policy.Valid)
    {presentation : LivePresentationTiming} {readiness : AvSyncFrameReadiness}
    {masterTime : RationalTime} {operation : String}
    {next : AvScheduleDecision → AvSyncCoordinator → Answer α}
    (hnext : ∀ decision after,
      after.scheduler.policy = coordinator.scheduler.policy →
        Keeps coordinator.scheduler.policy (next decision after)) :
    Keeps coordinator.scheduler.policy
      (coordinator.schedule presentation readiness masterTime operation next) := by
  obtain ⟨error, heq⟩ | ⟨frame, drift, action, -, -, -, heq⟩ := AvSyncScheduler.schedule_spec hvalid
    ⟨presentation.deadline, masterTime, presentation.duration, readiness.followingFrameReady,
      readiness.dropEligible⟩
  all_goals rw [schedule, heq]
  · exact ⟨_, coordinator, rfl, rfl⟩
  · exact hnext _ _ rfl

theorem recoverDiscontinuity_keeps (hvalid : coordinator.scheduler.policy.Valid)
    (timing : AvSyncFrameTiming) (presentation : LivePresentationTiming)
    (readiness : AvSyncFrameReadiness) (reading : ClockReading) (request : DiscontinuityRequest) :
    Keeps coordinator.scheduler.policy
      (coordinator.recoverDiscontinuity timing presentation readiness reading request) := by
  unfold recoverDiscontinuity
  split
  · exact ⟨_, coordinator, rfl, rfl⟩
  · next targetMasterTime _ =>
      split
      · exact ⟨_, coordinator, rfl, rfl⟩
      · next clock _ =>
          have hmoved : ({ coordinator with clock } : AvSyncCoordinator).scheduler.policy.Valid :=
            hvalid
          apply schedule_keeps hmoved
          intro aligned after hafter
          exact ⟨_, after, rfl, hafter⟩

/-- No call of a valid policy is lost to a wrapped step. -/
theorem coordinateAtDeadline_keeps (hvalid : coordinator.scheduler.policy.Valid)
    (timing : AvSyncFrameTiming) (presentationDeadline : RationalTime)
    (presentationDuration : Duration) (readiness : AvSyncFrameReadiness) (reading : ClockReading) :
    Keeps coordinator.scheduler.policy (coordinator.coordinateAtDeadline timing presentationDeadline
      presentationDuration readiness reading) := by
  unfold coordinateAtDeadline
  split
  · exact ⟨_, coordinator, rfl, rfl⟩
  · apply schedule_keeps hvalid
    intro decision after hafter
    split
    · exact ⟨_, after, rfl, hafter⟩
    · exact ⟨_, after, rfl, hafter⟩
    · exact ⟨_, after, rfl, hafter⟩
    · rw [← hafter] at hvalid ⊢
      exact recoverDiscontinuity_keeps hvalid _ _ _ _ _

theorem changeClock_policy (operation : String) (changed : Except Error (PlaybackClock Timebase)) :
    (coordinator.changeClock operation changed).2.scheduler = coordinator.scheduler := by
  unfold changeClock
  cases changed with
  | error error => rfl
  | ok clock => rfl

end AvSyncCoordinator

end Engine
end Superi

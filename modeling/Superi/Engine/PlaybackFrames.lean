import Superi.Engine.AvSyncCoordinator
import Superi.Engine.Prefetch

/-!
# PlaybackFrames — one frame at a time, from the request to the viewport

The orchestrator owns at most one frame: first as the handle of a job that evaluates it, then as the
evaluated frame, until its time has come and the viewport has room for it.  A caller submits, polls
and cancels; workers go on with the jobs, and the viewport takes frames from its queue.

What the pool answers to a submission and what the evaluator answers for a frame are inputs.
-/

namespace Superi
namespace Engine

open Core Concurrency Result

/-! ## The viewport queue -/

structure Handoff (α : Type) where
  capacity : Nat
  items : List α

namespace Handoff

variable {α : Type} (handoff : Handoff α)

/-- `try_send`; without room the sender keeps the item. -/
def trySend (item : α) : Option (Handoff α) :=
  if handoff.items.length < handoff.capacity then
    some { handoff with items := handoff.items ++ [item] }
  else none

def tryReceive : Option (α × Handoff α) :=
  match handoff.items with
  | [] => none
  | item :: items => some (item, { handoff with items })

end Handoff

/-! ## Jobs -/

structure PlaybackViewportFrame (Ω : Type) where
  output : Ω
  timestamp : RationalTime
  duration : Duration

variable {Ω : Type}

/-- How far a job is; its channel holds the outcome that was sent until it is collected. -/
inductive FrameJobStage (Ω : Type)
  | queued
  | begun
  | evaluating
  | evaluated (output : PlaybackViewportFrame Ω)
  | finished (outcome : JobOutcome (PlaybackViewportFrame Ω))
  | sent (outcome : JobOutcome (PlaybackViewportFrame Ω))
  | collected (outcome : JobOutcome (PlaybackViewportFrame Ω))
  | vanished

/-- The evaluation of a frame, with its token. -/
structure FrameJob (Ω : Type) where
  jobId : JobId
  frame : RationalTime
  progress : JobProgress
  cancelled : Bool
  stage : FrameJobStage Ω

namespace FrameJob

variable (job : FrameJob Ω)

/-- The control of a frame has no deadline. -/
def check (operation : String) : Except Error Unit :=
  rejectIf (job.cancelled = true) ((Error.new .cancelled .degraded "job was cancelled").withContext
    ⟨"superi-concurrency.job", operation⟩)

/-- The task ends with an error. -/
def fail (error : Error) : FrameJob Ω := { job with stage := .finished (outcomeFromError error) }

/-- Go on, unless the job was cancelled. -/
def unlessCancelled (operation : String) (next : FrameJob Ω) : FrameJob Ω :=
  match job.check operation with
  | .ok () => next
  | .error error => job.fail error

/-- The end of the task. -/
def complete (output : PlaybackViewportFrame Ω) : FrameJob Ω :=
  match job.progress.advanceTo 1 with
  | .ok progress => { job with progress, stage := .finished (.succeeded output) }
  | .error error => job.fail error

/-- The worker goes on with the task; the evaluator gives the answer for its frame. -/
def work (answer : Except Error (PlaybackViewportFrame Ω)) : FrameJob Ω :=
  match job.stage with
  | .queued => job.unlessCancelled "begin_job" { job with stage := .begun }
  | .begun => job.unlessCancelled "evaluate_playback_frame" { job with stage := .evaluating }
  | .evaluating =>
      match answer with
      | .ok output => { job with stage := .evaluated output }
      | .error error => job.fail error
  | .evaluated output => job.unlessCancelled "complete_playback_frame" (job.complete output)
  | .finished outcome => { job with stage := .sent outcome }
  | _ => job

/-- The task panics, which the worker catches. -/
def panic : FrameJob Ω :=
  match job.stage with
  | .queued | .begun | .evaluating | .evaluated _ =>
      { job with stage := .finished (.failed ((poolError .internal .terminal
        "worker job panicked during execution" "execute").withContext
          ⟨"superi-concurrency.worker_pool", "panic"⟩)) }
  | _ => job

/-- The worker vanishes with the task. -/
def vanish : FrameJob Ω :=
  match job.stage with
  | .sent _ | .collected _ => job
  | _ => { job with stage := .vanished }

def cancel : FrameJob Ω := { job with cancelled := true }

/-- `try_completion` of its handle. -/
def tryCompletion : Except Error (Option (JobOutcome (PlaybackViewportFrame Ω))) :=
  match job.stage with
  | .sent outcome => .ok (some outcome)
  | .collected _ | .vanished => .error PlaybackPrefetcher.disconnectedError
  | _ => .ok none

/-- The outcome is taken from the channel. -/
def collect : FrameJob Ω :=
  match job.stage with
  | .sent outcome => { job with stage := .collected outcome }
  | _ => job

end FrameJob

/-! ## The orchestrator -/

inductive PlaybackPoll
  | idle
  | rendering (jobId : JobId) (frame : RationalTime)
  | waiting (frame dueClock clock : RationalTime) (sync : AvSyncOutcome)
  | viewportBackpressured (frame : RationalTime) (sync : AvSyncOutcome)
  | presented (frame : RationalTime) (sync : AvSyncOutcome)
  | dropped (frame : RationalTime) (sync : AvSyncOutcome)
  | failed (jobId : JobId) (frame : RationalTime) (error : Error)

/-- The handle of a job: its place among the jobs. -/
structure JobTaskHandle where
  jobId : JobId
  place : Nat

structure PendingPlaybackFrame where
  frame : RationalTime
  dueClock : RationalTime
  presentationDuration : Option Duration
  handle : JobTaskHandle

structure ReadyPlaybackFrame (Ω : Type) where
  dueClock : RationalTime
  presentationDuration : Option Duration
  frame : PlaybackViewportFrame Ω
  presentation : Option AvSyncOutcome

/-- The orchestrator, the jobs it submitted and the queue it sends to. -/
structure PlaybackOrchestrator (Ω : Type) where
  audio : Timebase
  avSync : AvSyncCoordinator
  pending : Option PendingPlaybackFrame
  ready : Option (ReadyPlaybackFrame Ω)
  viewport : Handoff (PlaybackViewportFrame Ω)
  jobs : List (FrameJob Ω)

namespace PlaybackOrchestrator

def orchestrationError (category : ErrorCategory) (recoverability : Recoverability)
    (message operation : String) : Error :=
  (Error.new category recoverability message).withContext
    ⟨"superi-engine.playback_orchestration", operation⟩

/-- The orchestrator of a device that is at `sample`. -/
def audioMasterWithPolicy (capacity : Nat) (audio : Timebase) (sample : I64)
    (timelineAnchor : RationalTime) (policy : AvSyncPolicy) :
    Except Error (PlaybackOrchestrator Ω) := do
  let avSync ← AvSyncCoordinator.audioMasterWithPolicy timelineAnchor audio sample policy
  pure ⟨audio, avSync, none, none, ⟨capacity, []⟩, []⟩

variable (state : PlaybackOrchestrator Ω)

/-! ## Submission -/

def checkTiming (dueClock : RationalTime) (presentationDuration : Option Duration) :
    Except Error Unit := do
  rejectIf (dueClock.timebase ≠ state.avSync.clockTimebase) (orchestrationError .invalidInput
    .userCorrectable "playback presentation deadline must use the shared clock timebase"
    "submit_frame")
  rejectIf (∃ duration ∈ presentationDuration,
      duration.timebase ≠ dueClock.timebase ∨ duration.isZero = true)
    (orchestrationError .invalidInput .userCorrectable
      "playback presentation duration must be nonzero in the shared clock timebase" "submit_frame")
  rejectIf (state.pending.isSome ∨ state.ready.isSome) (orchestrationError .conflict .retryable
    "playback already owns an in-flight or unpresented frame" "submit_frame")

/-- Without an answer the pool is gone. -/
def submitFrameWithTiming (jobId : JobId) (frame dueClock : RationalTime)
    (presentationDuration : Option Duration) (pool : Option (Except Error Unit)) :
    Except Error (PlaybackOrchestrator Ω) := do
  state.checkTiming dueClock presentationDuration
  let answer ← okOr pool (orchestrationError .unavailable .degraded
    "playback worker pool is no longer available" "submit_frame")
  let progress ← JobProgress.withTotal 1
  answer
  pure { state with
    pending := some ⟨frame, dueClock, presentationDuration, ⟨jobId, state.jobs.length⟩⟩
    jobs := state.jobs ++ [⟨jobId, frame, progress, false, .queued⟩] }

def submitFrame (jobId : JobId) (frame : RationalTime) (pool : Option (Except Error Unit)) :
    Except Error (PlaybackOrchestrator Ω) := do
  let dueClock ← frame.checkedRescale state.avSync.clockTimebase .ceil
  state.submitFrameWithTiming jobId frame dueClock none pool

def submitFrameAt (jobId : JobId) (frame dueClock : RationalTime)
    (pool : Option (Except Error Unit)) : Except Error (PlaybackOrchestrator Ω) :=
  state.submitFrameWithTiming jobId frame dueClock none pool

def submitFrameAtWithDuration (jobId : JobId) (frame dueClock : RationalTime)
    (presentationDuration : Duration) (pool : Option (Except Error Unit)) :
    Except Error (PlaybackOrchestrator Ω) :=
  state.submitFrameWithTiming jobId frame dueClock (some presentationDuration) pool

/-! ## Cancellation -/

/-- Whether there was a frame, and the orchestrator without it. -/
def cancelFrame : Bool × PlaybackOrchestrator Ω :=
  match state.pending with
  | some pending => (true, { state with
      pending := none
      ready := none
      jobs := state.jobs.modify pending.handle.place FrameJob.cancel })
  | none => (state.ready.isSome, { state with ready := none })

/-! ## Polling -/

/-- What a poll answers, and the orchestrator after it. -/
abbrev Answer (Ω : Type) := Except Error PlaybackPoll × PlaybackOrchestrator Ω

/-- A frame with a decision to present it goes to the viewport, if there is room. -/
def handOff (ready : ReadyPlaybackFrame Ω) (sync : AvSyncOutcome) : Answer Ω :=
  match state.viewport.trySend ready.frame with
  | some viewport => (.ok (.presented ready.frame.timestamp sync), { state with viewport })
  | none => (.ok (.viewportBackpressured ready.frame.timestamp sync),
      { state with ready := some { ready with presentation := some sync } })

/-- The frame was taken out of the state; what becomes of it after the outcome. -/
def settle (ready : ReadyPlaybackFrame Ω) (sync : AvSyncOutcome) : Answer Ω :=
  match sync with
  | .hold _ masterTime _ _ =>
      (.ok (.waiting ready.frame.timestamp ready.dueClock masterTime sync),
        { state with ready := some { ready with presentation := none } })
  | .drop .. => (.ok (.dropped ready.frame.timestamp sync), state)
  | .present .. => state.handOff ready sync

/-- The retained frame, which is not in the state any more. -/
def presentReady (ready : ReadyPlaybackFrame Ω) (reading : ClockReading) : Option (Answer Ω) :=
  match ready.presentation with
  | some sync => some (state.settle ready sync)
  | none =>
      (state.avSync.coordinateAtDeadline ⟨ready.frame.timestamp, ready.frame.duration⟩
        ready.dueClock (ready.presentationDuration.getD ready.frame.duration) .lastReady
        reading).map fun (result, avSync) =>
          match result with
          | .ok sync => { state with avSync }.settle ready sync
          | .error error => (.error error, { state with avSync, ready := some ready })

/-- How a job that did not succeed is reported. -/
def failureOf : JobOutcome (PlaybackViewportFrame Ω) → Error
  | .succeeded _ => orchestrationError .corruptData .degraded
      "playback evaluator returned a different frame timestamp" "poll_frame"
  | .failed error => error
  | .cancelled => orchestrationError .cancelled .degraded "playback frame evaluation was cancelled"
      "poll_frame"
  | .deadlineExceeded => orchestrationError .timeout .retryable
      "playback frame evaluation exceeded its deadline" "poll_frame"
  | .dependencyFailed _ => orchestrationError .unavailable .degraded
      "playback frame dependency did not complete" "poll_frame"

/-- The output that can be presented: of a success, with the requested timestamp. -/
def outputFor (frame : RationalTime) :
    JobOutcome (PlaybackViewportFrame Ω) → Option (PlaybackViewportFrame Ω)
  | .succeeded output => if output.timestamp ≈ frame then some output else none
  | _ => none

/-- The job of the frame has ended. -/
def receive (pending : PendingPlaybackFrame) (outcome : JobOutcome (PlaybackViewportFrame Ω))
    (reading : ClockReading) : Option (Answer Ω) :=
  let state := { state with
    pending := none
    jobs := state.jobs.modify pending.handle.place FrameJob.collect }
  match outputFor pending.frame outcome with
  | some output => state.presentReady
      ⟨pending.dueClock, pending.presentationDuration, output, none⟩ reading
  | none => some (.ok (.failed pending.handle.jobId pending.frame (failureOf outcome)), state)

/-- `try_completion` of a handle. -/
def tryCompletion (handle : JobTaskHandle) :
    Except Error (Option (JobOutcome (PlaybackViewportFrame Ω))) :=
  match state.jobs[handle.place]? with
  | some job => job.tryCompletion
  | none => .error PlaybackPrefetcher.disconnectedError

def pollPending (pending : PendingPlaybackFrame) (reading : ClockReading) : Option (Answer Ω) :=
  match state.tryCompletion pending.handle with
  | .error error => some (.error error, state)
  | .ok none => some (.ok (.rendering pending.handle.jobId pending.frame), state)
  | .ok (some outcome) => state.receive pending outcome reading

def pollAt (reading : ClockReading) : Option (Answer Ω) :=
  match state.ready, state.pending with
  | some ready, _ => { state with ready := none }.presentReady ready reading
  | none, some pending => state.pollPending pending reading
  | none, none => some (.ok .idle, state)

end PlaybackOrchestrator

/-! ## Runs -/

/-- What a call answered; frames are numbered as they are accepted. -/
inductive PlaybackEvent
  | accepted (number : Nat) (frame : RationalTime)
  | cancelled (number : Nat) (found : Bool)
  | polled (number : Nat) (poll : PlaybackPoll)

/-- The orchestrator, the frames that the viewport took and what the calls answered. -/
structure PlaybackSession (Ω : Type) where
  state : PlaybackOrchestrator Ω
  received : List (PlaybackViewportFrame Ω)
  log : List PlaybackEvent

inductive PlaybackAction (Ω : Type)
  | submitFrame (jobId : JobId) (frame : RationalTime) (pool : Option (Except Error Unit))
  | submitFrameAt (jobId : JobId) (frame dueClock : RationalTime)
      (pool : Option (Except Error Unit))
  | submitFrameAtWithDuration (jobId : JobId) (frame dueClock : RationalTime)
      (presentationDuration : Duration) (pool : Option (Except Error Unit))
  | cancelFrame
  | pollAt (reading : ClockReading)
  | reanchorClock (timelineAnchor : RationalTime) (reading : ClockReading)
  | fallbackToPlayback (reading : ClockReading)
  | recoverAudioMaster (reading : ClockReading)
  | work (place : Nat) (answer : Except Error (PlaybackViewportFrame Ω))
  | panic (place : Nat)
  | vanish (place : Nat)
  | receive

namespace PlaybackSession

def start (state : PlaybackOrchestrator Ω) : PlaybackSession Ω := ⟨state, [], []⟩

variable (session : PlaybackSession Ω)

/-- The number of the frame that was accepted last. -/
def latest : Nat := session.state.jobs.length - 1

/-- A submission returns. -/
def submitted (frame : RationalTime) (result : Except Error (PlaybackOrchestrator Ω)) :
    PlaybackSession Ω :=
  match result with
  | .ok state => { session with
      state
      log := session.log ++ [.accepted session.state.jobs.length frame] }
  | .error _ => session

/-- A poll returns. -/
def polled (answer : PlaybackOrchestrator.Answer Ω) : PlaybackSession Ω :=
  match answer with
  | (.ok poll, state) =>
      { session with state, log := session.log ++ [.polled session.latest poll] }
  | (.error _, state) => { session with state }

/-- A worker changes a job. -/
def onJob (place : Nat) (change : FrameJob Ω → FrameJob Ω) : PlaybackSession Ω :=
  { session with state := { session.state with jobs := session.state.jobs.modify place change } }

/-- The clock changes, or not. -/
def onClock (answer : Except Error RationalTime × AvSyncCoordinator) : PlaybackSession Ω :=
  { session with state := { session.state with avSync := answer.2 } }

/-- One action; none where a step of the scheduler wraps. -/
def step : PlaybackAction Ω → Option (PlaybackSession Ω)
  | .submitFrame jobId frame pool =>
      some (session.submitted frame (session.state.submitFrame jobId frame pool))
  | .submitFrameAt jobId frame dueClock pool =>
      some (session.submitted frame (session.state.submitFrameAt jobId frame dueClock pool))
  | .submitFrameAtWithDuration jobId frame dueClock presentationDuration pool =>
      some (session.submitted frame (session.state.submitFrameAtWithDuration jobId frame dueClock
        presentationDuration pool))
  | .cancelFrame =>
      let (found, state) := session.state.cancelFrame
      some { session with state, log := session.log ++ [.cancelled session.latest found] }
  | .pollAt reading => (session.state.pollAt reading).map session.polled
  | .reanchorClock timelineAnchor reading =>
      some (session.onClock (session.state.avSync.reanchorClockAt timelineAnchor reading))
  | .fallbackToPlayback reading =>
      some (session.onClock (session.state.avSync.fallbackToPlaybackAt reading))
  | .recoverAudioMaster reading => some (session.onClock
      (session.state.avSync.recoverAudioMasterAt session.state.audio reading))
  | .work place answer => some (session.onJob place (·.work answer))
  | .panic place => some (session.onJob place FrameJob.panic)
  | .vanish place => some (session.onJob place FrameJob.vanish)
  | .receive => some (match session.state.viewport.tryReceive with
      | some (frame, viewport) => { session with
          state := { session.state with viewport }
          received := session.received ++ [frame] }
      | none => session)

end PlaybackSession

end Engine
end Superi

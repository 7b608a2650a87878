import Superi.Core.Time
import Superi.Engine.ExportJobs

/-!
# Prefetch — predicted frames, evaluated in the background

Every observation of the transport publishes one generation of predicted frames and cancels the one
before.  A generation without frames is complete at once; the others are jobs of the worker pool,
each with a channel for its one result.  Polling collects what has ended.

What the pool answers to a submission and what the evaluator answers for a frame are inputs.
-/

namespace Superi
namespace Engine

open Core Concurrency Stateful

/-! ## Progress -/

structure JobProgress where
  completedUnits : Nat
  totalUnits : Option Nat
  revision : Nat
  deriving DecidableEq, Repr

namespace JobProgress

def progressError (category : ErrorCategory) (recoverability : Recoverability)
    (message operation : String) : Error :=
  (Error.new category recoverability message).withContext
    ⟨"superi-concurrency.job_progress", operation⟩

def withTotal (totalUnits : Nat) : Except Error JobProgress := do
  Result.rejectIf (totalUnits = 0) (progressError .invalidInput .userCorrectable
    "job progress total must be greater than zero" "create")
  pure { completedUnits := 0, totalUnits := some totalUnits, revision := 0 }

def advanceTo (progress : JobProgress) (completedUnits : Nat) : Except Error JobProgress := do
  Result.rejectIf (completedUnits < progress.completedUnits)
    ((progressError .conflict .degraded "job progress cannot move backwards" "advance").withContext
      ⟨"superi-concurrency.job_progress", "current"⟩)
  Result.rejectIf (∃ total ∈ progress.totalUnits, total < completedUnits)
    ((progressError .invalidInput .userCorrectable "job progress cannot exceed its known total"
      "advance").withContext ⟨"superi-concurrency.job_progress", "bounds"⟩)
  if completedUnits = progress.completedUnits then pure progress
  else do
    Result.rejectIf (progress.revision = 18446744073709551615)
      (progressError .resourceExhausted .terminal "job progress revision space is exhausted"
        "advance")
    pure { progress with completedUnits, revision := progress.revision + 1 }

end JobProgress

/-! ## Jobs -/

def JobOutcome.status : JobOutcome Nat → JobTerminalState
  | .succeeded _ => .succeeded
  | .failed _ => .failed
  | .cancelled => .cancelled
  | .deadlineExceeded => .deadlineExceeded
  | .dependencyFailed _ => .dependencyFailed

/-- The result of a job: how it ended, and how far it was. -/
structure JobCompletion where
  jobId : JobId
  outcome : JobOutcome Nat
  progress : JobProgress

/-- How many frames a job prefetched. -/
def JobCompletion.completedFrames (completion : JobCompletion) : Nat :=
  match completion.outcome with
  | .succeeded frameCount => frameCount
  | _ => completion.progress.completedUnits

/-- The channel of a job: nothing sent, the result, nothing any more; or its sender is gone without
a result. -/
inductive JobChannel
  | empty
  | holds (completion : JobCompletion)
  | taken
  | closed

structure PrefetchJob where
  jobId : JobId
  requests : List RationalTime
  plannedFrames : Nat
  index : Nat
  progress : JobProgress
  cancelled : Bool
  channel : JobChannel

def outcomeFromError {R : Type} (error : Error) : JobOutcome R :=
  match error.category with
  | .cancelled => .cancelled
  | .timeout => .deadlineExceeded
  | _ => .failed error

namespace PrefetchJob

variable (job : PrefetchJob)

def send (outcome : JobOutcome Nat) : PrefetchJob :=
  { job with channel := .holds ⟨job.jobId, outcome, job.progress⟩ }

/-- The control of a prefetch has no deadline. -/
def check (operation : String) : Except Error Unit :=
  Result.rejectIf (job.cancelled = true)
    ((Error.new .cancelled .degraded "job was cancelled").withContext
      ⟨"superi-concurrency.job", operation⟩)

/-- The worker goes on with the task: one frame, for which the evaluator gives the answer, or the
result after the last. -/
def work (answer : Except Error Unit) : PrefetchJob :=
  match job.channel with
  | .empty =>
      match job.requests with
      | [] => job.send (.succeeded job.plannedFrames)
      | _ :: requests =>
          let outcome : Except Error JobProgress := do
            job.check "prefetch_frame"
            answer
            job.progress.advanceTo (job.index + 1)
          match outcome with
          | .ok progress => { job with requests, index := job.index + 1, progress }
          | .error error => job.send (outcomeFromError error)
  | _ => job

/-- The task panics, which the worker catches. -/
def panic : PrefetchJob :=
  match job.channel with
  | .empty => job.send (.failed ((poolError .internal .terminal
      "worker job panicked during execution" "execute").withContext
        ⟨"superi-concurrency.worker_pool", "panic"⟩))
  | _ => job

/-- The worker vanishes with the task. -/
def vanish : PrefetchJob :=
  match job.channel with
  | .empty => { job with channel := .closed }
  | _ => job

def cancel : PrefetchJob := { job with cancelled := true }

def take : PrefetchJob := { job with channel := .taken }

end PrefetchJob

/-! ## The publisher -/

structure PlaybackPrefetchSubmission where
  generation : Nat
  jobId : JobId
  plannedFrames : Nat
  queued : Bool
  deriving DecidableEq

structure PlaybackPrefetchCompletion where
  generation : Nat
  jobId : JobId
  plannedFrames : Nat
  completedFrames : Nat
  status : JobTerminalState
  error : Option Error
  deriving DecidableEq

/-- The handle of a job is its place among the jobs. -/
structure PendingPrefetch where
  generation : Nat
  plannedFrames : Nat
  handle : Nat
  deriving DecidableEq

/-- The publisher and the jobs it submitted; the token of the active generation is that of its
job. -/
structure PlaybackPrefetcher where
  generation : Nat
  active : Option Nat
  pending : List PendingPrefetch
  ready : List PlaybackPrefetchCompletion
  jobs : List PrefetchJob

namespace PlaybackPrefetcher

def new : PlaybackPrefetcher := ⟨0, none, [], [], []⟩

def playbackError (category : ErrorCategory) (recoverability : Recoverability)
    (message operation : String) : Error :=
  (Error.new category recoverability message).withContext
    ⟨"superi-engine.playback_prefetch", operation⟩

abbrev Call (α : Type) := EStateM Error PlaybackPrefetcher α

/-- The active generation is cancelled, if there is one. -/
def cancelActive (state : PlaybackPrefetcher) : PlaybackPrefetcher :=
  match state.active with
  | none => state
  | some handle => { state with
      active := none
      jobs := state.jobs.modify handle PrefetchJob.cancel }

def cancel : Call Unit := modify cancelActive

/-- The generation of the next submission. -/
def nextGeneration : Call Nat := do
  let state ← get
  refuseIf (state.generation = 18446744073709551615) (playbackError .resourceExhausted .terminal
    "playback prefetch generation space is exhausted" "submit")
  set { state with generation := state.generation + 1 }
  return state.generation + 1

/-- A generation without frames. -/
def finishEmpty (generation : Nat) (jobId : JobId) : Call Unit :=
  modify fun state => { state with
    ready := state.ready ++ [⟨generation, jobId, 0, 0, .succeeded, none⟩] }

/-- Hand the frames to the pool; without an answer the pool is gone. -/
def submitJob (generation : Nat) (jobId : JobId) (plan : List RationalTime)
    (pool : Option (Except Error Unit)) : Call Unit := do
  let answer ← MonadExcept.ofExcept (Result.okOr pool (playbackError .unavailable .degraded
    "playback prefetch worker pool is no longer available" "submit"))
  let progress ← MonadExcept.ofExcept (JobProgress.withTotal plan.length)
  MonadExcept.ofExcept answer
  modify fun state => { state with
    active := some state.jobs.length
    pending := state.pending ++ [⟨generation, plan.length, state.jobs.length⟩]
    jobs := state.jobs ++ [⟨jobId, plan, plan.length, 0, progress, false, .empty⟩] }

def publish (generation : Nat) (jobId : JobId) (plan : List RationalTime)
    (pool : Option (Except Error Unit)) : Call Unit :=
  if plan = [] then finishEmpty generation jobId else submitJob generation jobId plan pool

def submit (jobId : JobId) (plan : List RationalTime) (pool : Option (Except Error Unit)) :
    Call PlaybackPrefetchSubmission := do
  cancel
  let generation ← nextGeneration
  publish generation jobId plan pool
  return ⟨generation, jobId, plan.length, !plan.isEmpty⟩

def disconnectedError : Error :=
  (poolError .unavailable .terminal "worker result disconnected before terminal publication"
    "observe").withContext ⟨"superi-concurrency.worker_pool", "disconnected"⟩

/-- `try_completion` of a handle. -/
def tryCompletion (handle : Nat) : Call (Option JobCompletion) := do
  let state ← get
  match (state.jobs[handle]?).map PrefetchJob.channel with
  | some (.holds completion) =>
      set { state with jobs := state.jobs.modify handle PrefetchJob.take }
      return some completion
  | some .empty => return none
  | _ => throw disconnectedError

/-- What is reported of a job that has ended. -/
def report (pending : PendingPrefetch) (completion : JobCompletion) :
    PlaybackPrefetchCompletion where
  generation := pending.generation
  jobId := completion.jobId
  plannedFrames := pending.plannedFrames
  completedFrames := completion.completedFrames
  status := completion.outcome.status
  error := match completion.outcome with
    | .failed error => some error
    | _ => none

/-- The loop of `poll`: those before are `kept`, and `completed` is what is reported so far. -/
def pollPending (kept : List PendingPrefetch) (completed : List PlaybackPrefetchCompletion) :
    List PendingPrefetch → Call (List PlaybackPrefetchCompletion)
  | [] => return completed
  | pending :: rest => do
      match ← tryCompletion pending.handle with
      | none => pollPending (kept ++ [pending]) completed rest
      | some completion => do
          modify fun state => { state with pending := kept ++ rest }
          pollPending kept (completed ++ [report pending completion]) rest

def poll : Call (List PlaybackPrefetchCompletion) := do
  let state ← get
  set { state with ready := [] }
  pollPending [] state.ready state.pending

end PlaybackPrefetcher

/-! ## Runs -/

/-- A submission that returned, with the handle of its job. -/
structure AcceptedPrefetch where
  submission : PlaybackPrefetchSubmission
  handle : Option Nat

/-- The publisher, and what its caller was told. -/
structure PrefetchSession where
  state : PlaybackPrefetcher
  accepted : List AcceptedPrefetch
  delivered : List PlaybackPrefetchCompletion

inductive PrefetchAction
  | submit (jobId : JobId) (plan : List RationalTime) (pool : Option (Except Error Unit))
  | cancel
  | poll
  | work (handle : Nat) (answer : Except Error Unit)
  | panic (handle : Nat)
  | vanish (handle : Nat)

namespace PrefetchSession

def start : PrefetchSession := ⟨.new, [], []⟩

variable (session : PrefetchSession)

/-- A worker changes a job. -/
def onJob (handle : Nat) (change : PrefetchJob → PrefetchJob) : PrefetchSession :=
  { session with state := { session.state with
      jobs := session.state.jobs.modify handle change } }

def step : PrefetchAction → PrefetchSession
  | .submit jobId plan pool =>
      match PlaybackPrefetcher.submit jobId plan pool session.state with
      | .ok submission state => { session with
          state
          accepted := session.accepted ++
            [⟨submission, if submission.queued then some session.state.jobs.length else none⟩] }
      | .error _ state => { session with state }
  | .cancel => { session with state := session.state.cancelActive }
  | .poll =>
      match PlaybackPrefetcher.poll session.state with
      | .ok completed state =>
          { session with state, delivered := session.delivered ++ completed }
      | .error _ state => { session with state }
  | .work handle answer => session.onJob handle (·.work answer)
  | .panic handle => session.onJob handle PrefetchJob.panic
  | .vanish handle => session.onJob handle PrefetchJob.vanish

/-- One action after another. -/
def run : List PrefetchAction → PrefetchSession := List.foldl step session

end PrefetchSession

end Engine
end Superi

import Superi.Concurrency.Dependencies
import Superi.Concurrency.WorkerPool
import Superi.Lib.Stateful

/-!
# ExportJobs — logical export jobs over the worker pool

The worker pool owns one execution attempt; the queue owns the longer lifetime of a job that waits
for its prerequisites, pauses, resumes, retries and keeps a result.  What the handle of an attempt
tells when it is polled and what the pool answers to a submission are inputs; progress, elapsed time
and the executors are left out.
-/

namespace Superi
namespace Engine

open Core Concurrency Stateful

def queueError (category : ErrorCategory) (recoverability : Recoverability)
    (message operation : String) : Error :=
  (Error.new category recoverability message).withContext ⟨"superi-engine.export_jobs", operation⟩

def exportJobError (category : ErrorCategory) (recoverability : Recoverability)
    (message operation : String) : Error :=
  (queueError category recoverability message operation).withContext
    ⟨"superi-engine.export_jobs", "job"⟩

def attemptContext : ErrorContext := ⟨"superi-engine.export_jobs", "attempt"⟩

def missingJob (operation : String) : Error :=
  exportJobError .notFound .userCorrectable "export job is not retained" operation

def invalidExportTransition (operation message : String) : Error :=
  (exportJobError .conflict .userCorrectable message operation).withContext
    ⟨"superi-engine.export_jobs", "state"⟩

/-- The largest value of the 32-bit attempt counter. -/
def maxAttempts : Nat := 2 ^ 32 - 1

/-! ## Jobs -/

/-- Observable state of one logical export job. -/
inductive ExportJobStatus
  | waiting
  | pending
  | queued
  | running
  | pausing
  | paused
  | failed
  | cancelling
  | cancelled
  | dependencyFailed
  | completed
  deriving DecidableEq, Repr

namespace ExportJobStatus

/-- The states a refresh looks at. -/
def isUnstarted : ExportJobStatus → Bool
  | waiting | pending => true
  | _ => false

/-- The states that own an attempt. -/
def isActive : ExportJobStatus → Bool
  | queued | running | pausing | cancelling => true
  | _ => false

end ExportJobStatus

/-- What was requested of an active attempt. -/
inductive AttemptIntent
  | none
  | pause
  | cancel
  deriving DecidableEq, Repr

/-- A typed terminal outcome of one attempt. -/
inductive JobOutcome (R : Type)
  | succeeded (value : R)
  | failed (error : Error)
  | cancelled
  | deadlineExceeded
  | dependencyFailed (failure : JobDependencyFailure)

/-- What the handle of an attempt tells when it is polled. -/
inductive AttemptObservation (R : Type)
  | pending (started : Bool)
  | completed (outcome : JobOutcome R)
  | disconnected (error : Error)

structure ExportJobRecord (R : Type) where
  dependencies : JobDependencyTracker
  status : ExportJobStatus
  attempt : Nat
  active : Option AttemptIntent
  result : Option R
  failure : Option Error
  dependencyFailures : List JobDependencyFailure

/-- Immutable observation of one logical export job. -/
structure ExportJobSnapshot where
  jobId : JobId
  status : ExportJobStatus
  attempt : Nat
  dependencies : List JobId
  failure : Option Error
  dependencyFailures : List JobDependencyFailure
  hasResult : Bool
  retryAllowed : Bool
  deriving DecidableEq, Repr

/-- Whether dependency history may treat the job as finalized. -/
def ExportJobSnapshot.isFinal (snapshot : ExportJobSnapshot) : Bool :=
  match snapshot.status with
  | .completed | .cancelled | .dependencyFailed => true
  | .failed => !snapshot.retryAllowed
  | _ => false

namespace ExportJobRecord

variable {R : Type}

/-- A failure that another attempt may follow. -/
def failedRetryably (record : ExportJobRecord R) : Bool :=
  match record.failure with
  | some error => error.recoverability ≠ .terminal
  | none => false

def failedTerminally (record : ExportJobRecord R) : Bool :=
  match record.failure with
  | some error => error.recoverability = .terminal
  | none => false

def snapshot (record : ExportJobRecord R) (jobId : JobId) : ExportJobSnapshot where
  jobId
  status := record.status
  attempt := record.attempt
  dependencies := record.dependencies.dependencies.required.toList
  failure := record.failure
  dependencyFailures := record.dependencyFailures
  hasResult := record.result.isSome
  retryAllowed := record.status = .failed && record.failedRetryably

/-- What dependents are told about a job that will not change any more. -/
def terminalState (record : ExportJobRecord R) : Option JobTerminalState :=
  match record.status with
  | .completed => some .succeeded
  | .cancelled => some .cancelled
  | .dependencyFailed => some .dependencyFailed
  | .failed => if record.failedTerminally then some .failed else none
  | _ => none

def resetForAttempt (record : ExportJobRecord R) : ExportJobRecord R :=
  { record with result := none, failure := none, dependencyFailures := [] }

/-- The record of a job whose next attempt was admitted. -/
def startAttempt (record : ExportJobRecord R) : ExportJobRecord R :=
  { record with
    attempt := record.attempt + 1, failure := none, dependencyFailures := [], result := none
    active := some .none, status := .queued }

/-- The record of a job whose prerequisites ended without success. -/
def block (record : ExportJobRecord R) (failures : List JobDependencyFailure) : ExportJobRecord R :=
  { record with status := .dependencyFailed, dependencyFailures := failures, result := none }

/-! ## Attempts that end -/

def failWith (record : ExportJobRecord R) (error : Error) : ExportJobRecord R :=
  { record with status := .failed, failure := some error, result := none }

/-- An attempt that ended while nothing was requested of it. -/
def finishUnrequested (record : ExportJobRecord R) : JobOutcome R → ExportJobRecord R
  | .succeeded value => { record with status := .completed, result := some value, failure := none }
  | .failed error => record.failWith (error.withContext attemptContext)
  | .cancelled => record.failWith ((exportJobError .cancelled .degraded
      "export attempt stopped without a pause or cancel request" "finish_attempt").withContext
      attemptContext)
  | .deadlineExceeded => record.failWith ((exportJobError .timeout .retryable
      "export attempt exceeded its deadline" "finish_attempt").withContext attemptContext)
  | .dependencyFailed failure => record.block [failure]

def finishAttempt (record : ExportJobRecord R) (outcome : JobOutcome R) :
    AttemptIntent → ExportJobRecord R
  | .pause => { record with status := .paused, result := none, failure := none }
  | .cancel => { record with status := .cancelled, result := none }
  | .none => record.finishUnrequested outcome

def finishDisconnected (record : ExportJobRecord R) (error : Error) :
    AttemptIntent → ExportJobRecord R
  | .pause => { record with status := .paused, result := none }
  | .cancel => { record with status := .cancelled, result := none }
  | .none => record.failWith error

/-- One look at the handle of the active attempt, and whether something changed. -/
def observe (record : ExportJobRecord R) (observation : AttemptObservation R) :
    ExportJobRecord R × Bool :=
  match record.active with
  | none => (record, false)
  | some intent =>
      match observation with
      | .pending started =>
          if intent = .none ∧ started = true ∧ record.status = .queued then
            ({ record with status := .running }, true)
          else (record, false)
      | .completed outcome => ({ record with active := none }.finishAttempt outcome intent, true)
      | .disconnected error =>
          ({ record with active := none }.finishDisconnected (error.withContext attemptContext)
            intent, true)

end ExportJobRecord

/-! ## The queue -/

/-- Bounds of one export queue and of the pool that it owns. -/
structure ExportJobQueueConfig where
  workers : WorkerPoolConfig
  retainedCapacity : Nat
  covers : workers.workerCount + workers.queueCapacity ≤ retainedCapacity
  deriving DecidableEq, Repr

structure ExportJobQueue (R : Type) where
  config : ExportJobQueueConfig
  jobs : Std.ExtTreeMap JobId (ExportJobRecord R)

/-- What the pool answers to a submission. -/
inductive PoolAnswer
  | admitted
  | refused (error : Error)
  deriving DecidableEq, Repr

/-- The answers of the pool, by refresh pass and job. -/
abbrev Admissions : Type := Nat → JobId → PoolAnswer

/-- What one poll finds. -/
structure QueueNews (R : Type) where
  attempts : JobId → AttemptObservation R
  admissions : Admissions

variable {R : Type}

abbrev ExportQueueM (R : Type) := EStateM Error (ExportJobQueue R)

namespace ExportJobQueue

def new (config : ExportJobQueueConfig) : ExportJobQueue R where
  config
  jobs := ∅

/-- Change the record of one job. -/
def change (queue : ExportJobQueue R) (jobId : JobId)
    (f : ExportJobRecord R → ExportJobRecord R) : ExportJobQueue R :=
  { queue with jobs := queue.jobs.modify jobId f }

def logicalTerminalState (queue : ExportJobQueue R) (jobId : JobId) : Option JobTerminalState :=
  queue.jobs[jobId]?.bind ExportJobRecord.terminalState

/-- The prerequisites of a job that are final, with their states. -/
def finalized (queue : ExportJobQueue R) (record : ExportJobRecord R) :
    List (JobId × JobTerminalState) :=
  record.dependencies.dependencies.required.toList.filterMap fun dependency =>
    (queue.logicalTerminalState dependency).map fun state => (dependency, state)

end ExportJobQueue

/-! ## Refreshing -/

abbrev ExportJobM (R : Type) := EStateM Error (ExportJobRecord R)

/-- Record what became of prerequisites, one after the other. -/
def recordOutcomes : List (JobId × JobTerminalState) → ExportJobM R PUnit
  | [] => return
  | (dependency, state) :: rest => do
      let record ← get
      let dependencies ← ofExcept (record.dependencies.record dependency state)
      set { record with dependencies }
      recordOutcomes rest

/-- Submit one attempt to the pool, and say whether the job changed. -/
def dispatchAttempt (answer : PoolAnswer) : ExportJobM R Bool := do
  let record ← get
  refuseIf (maxAttempts ≤ record.attempt) (exportJobError .internal .terminal
    "export attempt counter is exhausted" "dispatch")
  match answer with
  | .admitted => do
      set record.startAttempt
      return true
  | .refused error =>
      if error.category = .resourceExhausted then return false
      else do
        set (record.failWith (error.withContext attemptContext))
        return true

/-- What follows from the status of the prerequisites; the number of changes. -/
def applyDependencyStatus (answer : PoolAnswer) : JobDependencyStatus → ExportJobM R Nat
  | .ready => do
      let record ← get
      set { record with status := .pending }
      let dispatched ← dispatchAttempt answer
      return (if record.status = .waiting then 1 else 0) + (if dispatched then 1 else 0)
  | .waiting _ => do
      let record ← get
      set { record with status := .waiting }
      return if record.status = .waiting then 0 else 1
  | .blocked failures => do
      let record ← get
      set (record.block failures)
      return 1

/-- Look at the prerequisites of a waiting or pending job, given those that are final. -/
def refreshUnstarted (answer : PoolAnswer) (outcomes : List (JobId × JobTerminalState)) :
    ExportJobM R Nat := do
  recordOutcomes outcomes
  let record ← get
  applyDependencyStatus answer record.dependencies.status

/-- Change one record by a call that may fail. -/
def onRecord {α : Type} (jobId : JobId) (call : ExportJobM R α) (record : ExportJobRecord R) :
    ExportQueueM R α := fun queue =>
  match call record with
  | .ok value last => .ok value (queue.change jobId fun _ => last)
  | .error error last => .error error (queue.change jobId fun _ => last)

def refreshJob (answer : PoolAnswer) (jobId : JobId) : ExportQueueM R Nat := do
  let queue ← get
  match queue.jobs[jobId]? with
  | none => return 0
  | some record =>
      if record.status.isUnstarted then
        onRecord jobId (refreshUnstarted answer (queue.finalized record)) record
      else return 0

/-- One pass over the jobs. -/
def refreshPass (answers : JobId → PoolAnswer) : List JobId → ExportQueueM R Nat
  | [] => return 0
  | jobId :: rest => do
      let changes ← refreshJob (answers jobId) jobId
      let more ← refreshPass answers rest
      return changes + more

/-- At most `fuel` passes, until one changes nothing. -/
def refreshPasses (answers : Admissions) : Nat → Nat → ExportQueueM R Nat
  | 0, _ => return 0
  | fuel + 1, pass => do
      let queue ← get
      let changes ← refreshPass (answers pass) queue.jobs.keys
      if changes = 0 then return 0
      else do
        let more ← refreshPasses answers fuel (pass + 1)
        return changes + more

def refreshUntilStable (answers : Admissions) : ExportQueueM R Nat := do
  let queue ← get
  refreshPasses answers (queue.jobs.size + 1) 0

/-! ## Operations -/

def snapshotJob (operation : String) (jobId : JobId) : ExportQueueM R ExportJobSnapshot := do
  let queue ← get
  match queue.jobs[jobId]? with
  | none => throw (missingJob operation)
  | some record => return record.snapshot jobId

/-- Every retained job, in identity order. -/
def ExportJobQueue.snapshots (queue : ExportJobQueue R) : List ExportJobSnapshot :=
  queue.jobs.toList.map fun (jobId, record) => record.snapshot jobId

/-- Poll active attempts and dispatch newly ready jobs. -/
def pollJobs (news : QueueNews R) : ExportQueueM R Nat := do
  let queue ← get
  let changes := queue.jobs.toList.countP fun (jobId, record) =>
    (record.observe (news.attempts jobId)).2
  set { queue with
    jobs := queue.jobs.map fun jobId (record : ExportJobRecord R) =>
      (record.observe (news.attempts jobId)).1 }
  let more ← refreshUntilStable news.admissions
  return changes + more

/-- Admit one unique logical job after its prerequisites. -/
def submitJob (jobId : JobId) (dependencies : List JobId) (admissions : Admissions) :
    ExportQueueM R ExportJobSnapshot := do
  let queue ← get
  refuseIf (queue.config.retainedCapacity ≤ queue.jobs.size) (exportJobError .resourceExhausted
    .retryable "export queue retained-job capacity is full" "submit")
  refuseIf (jobId ∈ queue.jobs) (exportJobError .conflict .userCorrectable
    "export job identity is already retained" "submit")
  let dependencies ← ofExcept (JobDependencies.new jobId dependencies)
  refuseIf (dependencies.required.toList.any fun dependency => dependency ∉ queue.jobs)
    ((exportJobError .notFound .userCorrectable
      "export dependency must be admitted before its dependent" "submit_dependency").withContext
      ⟨"superi-engine.export_jobs", "missing_dependency"⟩)
  set { queue with jobs := queue.jobs.insert jobId {
    dependencies := .new dependencies
    status := if dependencies.required.isEmpty then .pending else .waiting
    attempt := 0, active := none, result := none, failure := none, dependencyFailures := [] } }
  let _ ← refreshUntilStable admissions
  snapshotJob "snapshot" jobId

/-- The record of a job that an operation is about. -/
def retainedJob (operation : String) (jobId : JobId) : ExportQueueM R (ExportJobRecord R) := do
  let queue ← get
  match queue.jobs[jobId]? with
  | none => throw (missingJob operation)
  | some record => return record

/-- Replace the record of a job and report it. -/
def replaceJob (jobId : JobId) (record : ExportJobRecord R) : ExportQueueM R ExportJobSnapshot := do
  modify (·.change jobId fun _ => record)
  return record.snapshot jobId

/-- Request a cooperative pause, or pause pending work immediately. -/
def pauseJob (jobId : JobId) (news : QueueNews R) : ExportQueueM R ExportJobSnapshot := do
  let _ ← pollJobs news
  let record ← retainedJob "pause" jobId
  match record.status with
  | .waiting | .pending => replaceJob jobId { record with status := .paused }
  | .queued | .running =>
      replaceJob jobId { record with status := .pausing, active := record.active.map fun _ => .pause }
  | .pausing | .paused => replaceJob jobId record
  | _ => throw (invalidExportTransition "pause"
      "job is not waiting, pending, queued, running, or paused")

/-- Start over with a fresh attempt. -/
def restartJob (jobId : JobId) (record : ExportJobRecord R) (admissions : Admissions) :
    ExportQueueM R ExportJobSnapshot := do
  modify (·.change jobId fun _ => { record.resetForAttempt with status := .waiting })
  let _ ← refreshUntilStable admissions
  snapshotJob "snapshot" jobId

/-- Start a fresh attempt after a pause acknowledgement. -/
def resumeJob (jobId : JobId) (news : QueueNews R) (admissions : Admissions) :
    ExportQueueM R ExportJobSnapshot := do
  let _ ← pollJobs news
  let record ← retainedJob "resume" jobId
  refuseIf (record.status ≠ .paused) (invalidExportTransition "resume"
    "only a fully paused export job can resume")
  restartJob jobId record admissions

/-- Start a fresh attempt after a nonterminal failure. -/
def retryJob (jobId : JobId) (news : QueueNews R) (admissions : Admissions) :
    ExportQueueM R ExportJobSnapshot := do
  let _ ← pollJobs news
  let record ← retainedJob "retry" jobId
  refuseIf (record.status ≠ .failed) (invalidExportTransition "retry"
    "only a failed export job can retry")
  refuseIf (record.failedRetryably = false) (invalidExportTransition "retry"
    "terminal export failures cannot retry in the current logical lifetime")
  restartJob jobId record admissions

/-- Request cooperative cancellation; it takes precedence over a pause in flight. -/
def cancelJob (jobId : JobId) (news : QueueNews R) : ExportQueueM R ExportJobSnapshot := do
  let _ ← pollJobs news
  let record ← retainedJob "cancel" jobId
  match record.status with
  | .waiting | .pending | .paused =>
      replaceJob jobId { record with status := .cancelled, result := none }
  | .failed => do
      refuseIf (record.failedRetryably = false) (invalidExportTransition "cancel"
        "final export job state cannot be replaced by cancellation")
      replaceJob jobId { record with status := .cancelled, result := none }
  | .queued | .running | .pausing => replaceJob jobId { record with
      status := .cancelling, active := record.active.map fun _ => .cancel }
  | .cancelling | .cancelled => replaceJob jobId record
  | _ => throw (invalidExportTransition "cancel"
      "final export job state cannot be replaced by cancellation")

/-- Whether another retained job names this one as a prerequisite. -/
def ExportJobQueue.isReferenced (queue : ExportJobQueue R) (jobId : JobId) : Bool :=
  queue.jobs.toList.any fun (dependentId, record) =>
    dependentId ≠ jobId ∧ jobId ∈ record.dependencies.dependencies.required

/-- Remove a finalized job that no retained job names as a prerequisite. -/
def removeJob (jobId : JobId) (news : QueueNews R) : ExportQueueM R ExportJobSnapshot := do
  let _ ← pollJobs news
  let snapshot ← snapshotJob "snapshot" jobId
  refuseIf (snapshot.isFinal = false) (invalidExportTransition "remove"
    "only a finalized export job can be removed")
  let queue ← get
  refuseIf (queue.isReferenced jobId) ((exportJobError .conflict .userCorrectable
    "retained dependent still references export job" "remove").withContext
    ⟨"superi-engine.export_jobs", "dependent_reference"⟩)
  set { queue with jobs := queue.jobs.erase jobId }
  return snapshot

/-- One call of the queue, with what it finds. -/
inductive QueueCall (R : Type)
  | submit (jobId : JobId) (dependencies : List JobId) (admissions : Admissions)
  | poll (news : QueueNews R)
  | pause (jobId : JobId) (news : QueueNews R)
  | resume (jobId : JobId) (news : QueueNews R) (admissions : Admissions)
  | retry (jobId : JobId) (news : QueueNews R) (admissions : Admissions)
  | cancel (jobId : JobId) (news : QueueNews R)
  | remove (jobId : JobId) (news : QueueNews R)

/-- Make one call; every call but a poll reports the snapshot of its job. -/
def QueueCall.make : QueueCall R → ExportQueueM R (Option ExportJobSnapshot)
  | .submit jobId dependencies admissions => some <$> submitJob jobId dependencies admissions
  | .poll news => (fun _ => none) <$> pollJobs news
  | .pause jobId news => some <$> pauseJob jobId news
  | .resume jobId news admissions => some <$> resumeJob jobId news admissions
  | .retry jobId news admissions => some <$> retryJob jobId news admissions
  | .cancel jobId news => some <$> cancelJob jobId news
  | .remove jobId news => some <$> removeJob jobId news

/-- The queue after a call, whether it fails or not. -/
def ExportJobQueue.after (queue : ExportJobQueue R) (call : QueueCall R) : ExportJobQueue R :=
  match call.make queue with
  | .ok _ last => last
  | .error _ last => last

end Engine
end Superi

import Superi.Concurrency.PlaybackClock
import Superi.Core.Int128

/-!
# AvSync — scheduling of video frames against the master clock

For every observed frame the scheduler returns one action.  The drift, the presentation time less
the master time, decides between five bands; late frames may be dropped where the caller permits it,
but only so often in a row.  Durations of the policy are nanoseconds, of any size that a duration
can have.

The casts between `u64` and `i64` and the subtractions are not checked: one whose result does not
fit has no outcome here.
-/

namespace Superi
namespace Concurrency

open Core Result

/-! ## Steps that are not checked -/

/-- A cast to `u64`. -/
def asU64 (value : Int) : Machine Nat :=
  if 0 ≤ value ∧ value < 18446744073709551616 then pure value.toNat else ExceptT.mk none

/-- A cast to `i64`, also for the result of an operator. -/
def asI64 (value : Int) : Machine Int :=
  if InI64 value then pure value else ExceptT.mk none

/-- Subtraction on `u64`. -/
def subU64 (left right : Nat) : Machine Nat := asU64 ((left : Int) - right)

/-- One more on a counter that stays at its largest value. -/
def saturatingSucc (limit count : Nat) : Nat := min (count + 1) limit

/-! ## Drift -/

structure AvDriftMeasurement where
  nanoseconds : I64
  deriving DecidableEq, Repr

def measureAvDrift (videoPresentationTime masterTime : RationalTime) :
    Except Error AvDriftMeasurement :=
  withErrorContext
    ((fun drift => ⟨drift.value, drift.inRange⟩) <$>
      videoPresentationTime.checkedSubAt masterTime nanoseconds .nearestTiesEven)
    ⟨"superi-concurrency.clock", "measure_av_drift"⟩

/-! ## Policies -/

structure AvSyncPolicy where
  presentationTolerance : Nat
  dropLateness : Nat
  discontinuityThreshold : Nat
  maximumCorrection : Nat
  maxConsecutiveDrops : UInt32
  deriving DecidableEq, Repr

def invalidPolicy (message : String) : Error :=
  clockError .invalidInput .userCorrectable message "validate_policy"

def durationNanoseconds (duration : Nat) : Except Error Nat := do
  rejectIf (18446744073709551616 ≤ duration)
    (invalidPolicy "A/V policy duration exceeds scheduler precision")
  rejectIf (i64Max < duration)
    (invalidPolicy "A/V policy duration exceeds signed scheduler precision")
  pure duration

namespace AvSyncPolicy

def validate (policy : AvSyncPolicy) : Except Error Unit := do
  let toleranceNs ← durationNanoseconds policy.presentationTolerance
  let dropNs ← durationNanoseconds policy.dropLateness
  let discontinuityNs ← durationNanoseconds policy.discontinuityThreshold
  let correctionNs ← durationNanoseconds policy.maximumCorrection
  rejectIf (toleranceNs = 0) (invalidPolicy "presentation tolerance must be greater than zero")
  rejectIf (dropNs ≤ toleranceNs)
    (invalidPolicy "drop lateness must exceed presentation tolerance")
  rejectIf (discontinuityNs ≤ dropNs)
    (invalidPolicy "discontinuity threshold must exceed drop lateness")
  rejectIf (correctionNs = 0 ∨ dropNs < correctionNs)
    (invalidPolicy "maximum correction must be nonzero and no greater than drop lateness")
  rejectIf (policy.maxConsecutiveDrops = 0)
    (invalidPolicy "maximum consecutive drops must be greater than zero")

def default : AvSyncPolicy where
  presentationTolerance := 20000000
  dropLateness := 40000000
  discontinuityThreshold := 10000000000
  maximumCorrection := 20000000
  maxConsecutiveDrops := 4

end AvSyncPolicy

/-! ## Decisions -/

structure AvFrameObservation where
  videoPresentationTime : RationalTime
  masterTime : RationalTime
  frameDuration : Duration
  followingFrameReady : Bool
  dropEligible : Bool

inductive AvFrameCorrection
  | none
  | shortenBy (duration : Nat)
  deriving DecidableEq, Repr

inductive AvPresentationReason
  | inTolerance
  | correctedLate
  | protectedFromDrop
  | noReadySuccessor
  | starvationGuard
  deriving DecidableEq, Repr

inductive AvFrameAction
  | wait (duration : Nat)
  | present (displayFor : Nat) (correction : AvFrameCorrection) (reason : AvPresentationReason)
  | dropLate
  | rebase (targetMasterTime : RationalTime)
  deriving DecidableEq

structure AvScheduleDecision where
  drift : AvDriftMeasurement
  action : AvFrameAction
  deriving DecidableEq

/-! ## Counters -/

structure AvSyncStatistics where
  observations : Nat
  waited : Nat
  presented : Nat
  corrected : Nat
  dropped : Nat
  rebases : Nat
  protectedPresentations : Nat
  starvationPresentations : Nat
  consecutiveDrops : Nat
  maximumAbsoluteDriftNs : Nat
  lastDrift : Option AvDriftMeasurement
  deriving DecidableEq, Repr

namespace AvSyncStatistics

def default : AvSyncStatistics := ⟨0, 0, 0, 0, 0, 0, 0, 0, 0, 0, none⟩

/-- One more of the counters of 64 bits. -/
def increase (count : Nat) : Nat := saturatingSucc 18446744073709551615 count

/-- The counters of a presentation. -/
def recordPresentation (statistics : AvSyncStatistics) (correction : AvFrameCorrection)
    (reason : AvPresentationReason) : AvSyncStatistics :=
  { statistics with
    presented := increase statistics.presented
    consecutiveDrops := 0
    corrected := match correction with
      | .shortenBy _ => increase statistics.corrected
      | .none => statistics.corrected
    protectedPresentations := match reason with
      | .protectedFromDrop | .noReadySuccessor | .starvationGuard =>
          increase statistics.protectedPresentations
      | _ => statistics.protectedPresentations
    starvationPresentations :=
      if reason = .starvationGuard then increase statistics.starvationPresentations
      else statistics.starvationPresentations }

def record (statistics : AvSyncStatistics) (decision : AvScheduleDecision) : AvSyncStatistics :=
  let observed := { statistics with
    observations := increase statistics.observations
    maximumAbsoluteDriftNs :=
      max statistics.maximumAbsoluteDriftNs decision.drift.nanoseconds.1.natAbs
    lastDrift := some decision.drift }
  match decision.action with
  | .wait _ => { observed with waited := increase observed.waited }
  | .present _ correction reason => observed.recordPresentation correction reason
  | .dropLate => { observed with
      dropped := increase observed.dropped
      consecutiveDrops := saturatingSucc 4294967295 observed.consecutiveDrops }
  | .rebase _ => { observed with
      rebases := increase observed.rebases
      consecutiveDrops := 0 }

end AvSyncStatistics

/-! ## The scheduler -/

structure AvSyncScheduler where
  policy : AvSyncPolicy
  statistics : AvSyncStatistics

namespace AvSyncScheduler

def new (policy : AvSyncPolicy) : Except Error AvSyncScheduler := do
  policy.validate
  pure { policy, statistics := .default }

variable (scheduler : AvSyncScheduler)

def reset : AvSyncScheduler :=
  { scheduler with statistics := .default }

/-- Why a late frame is shown; without a reason it is dropped. -/
def lateReason (observation : AvFrameObservation) (magnitudeNs dropNs : Nat) :
    Option AvPresentationReason :=
  if magnitudeNs < dropNs then some .correctedLate
  else if !observation.dropEligible then some .protectedFromDrop
  else if !observation.followingFrameReady then some .noReadySuccessor
  else if scheduler.policy.maxConsecutiveDrops.toNat ≤ scheduler.statistics.consecutiveDrops then
    some .starvationGuard
  else none

def correctedPresentation (frameDurationNs latenessNs toleranceNs : Nat)
    (reason : AvPresentationReason) : Machine AvFrameAction := do
  let maximumCorrectionNs ← asU64 scheduler.policy.maximumCorrection
  -- the first subtraction saturates
  let correctionNs := min (min (latenessNs - toleranceNs) maximumCorrectionNs) frameDurationNs
  let displayFor ← subU64 frameDurationNs correctionNs
  pure (.present displayFor
    (if correctionNs = 0 then .none else .shortenBy correctionNs) reason)

def chooseAction (observation : AvFrameObservation) (frameDurationNs : Nat)
    (drift : AvDriftMeasurement) : Machine AvFrameAction := do
  let driftNs := drift.nanoseconds.1
  let magnitudeNs := driftNs.natAbs
  let toleranceNs ← asU64 scheduler.policy.presentationTolerance
  let dropNs ← asU64 scheduler.policy.dropLateness
  let discontinuityNs ← asU64 scheduler.policy.discontinuityThreshold
  if discontinuityNs ≤ magnitudeNs then pure (.rebase observation.videoPresentationTime)
  else do
    let upper ← asI64 toleranceNs
    if upper < driftNs then do
      let aheadNs ← asU64 driftNs
      let duration ← subU64 aheadNs toleranceNs
      pure (.wait duration)
    else do
      let lower ← asI64 (-upper)
      if lower ≤ driftNs then pure (.present frameDurationNs .none .inTolerance)
      else
        match scheduler.lateReason observation magnitudeNs dropNs with
        | some reason =>
            scheduler.correctedPresentation frameDurationNs magnitudeNs toleranceNs reason
        | none => pure .dropLate

/-- The frame's duration in nanoseconds. -/
def frameNanoseconds (observation : AvFrameObservation) : Except Error Nat := do
  let frameDuration ← withErrorContext
    (observation.frameDuration.checkedRescale nanoseconds .nearestTiesEven)
    ⟨"superi-concurrency.clock", "validate_observation"⟩
  rejectIf (frameDuration.value = 0) (clockError .invalidInput .userCorrectable
    "frame duration must be positive at scheduler precision" "validate_observation")
  pure frameDuration.value

/-- One decision, and the scheduler after it; after an error the scheduler is as before. -/
def schedule (observation : AvFrameObservation) :
    Machine (AvScheduleDecision × AvSyncScheduler) := do
  let frameDurationNs ← .lift (frameNanoseconds observation)
  let drift ← .lift (measureAvDrift observation.videoPresentationTime observation.masterTime)
  let action ← scheduler.chooseAction observation frameDurationNs drift
  let decision : AvScheduleDecision := ⟨drift, action⟩
  pure (decision, { scheduler with statistics := scheduler.statistics.record decision })

/-! ## Runs -/

inductive Call
  | schedule (observation : AvFrameObservation)
  | reset

/-- What a call was and what it answered. -/
inductive Entry
  | decided (observation : AvFrameObservation) (decision : AvScheduleDecision)
  | refused (observation : AvFrameObservation) (error : Error)
  | reset

/-- One call; none where a step wraps. -/
def call : Call → Option (Entry × AvSyncScheduler)
  | .schedule observation =>
      (scheduler.schedule observation).run.map fun
        | .ok (decision, next) => (.decided observation decision, next)
        | .error error => (.refused observation error, scheduler)
  | .reset => some (.reset, scheduler.reset)

/-- Calls one after another, and what they answered. -/
def run (scheduler : AvSyncScheduler) : List Call → Option (List Entry × AvSyncScheduler)
  | [] => some ([], scheduler)
  | first :: rest => do
      let (entry, next) ← scheduler.call first
      let (entries, last) ← next.run rest
      pure (entry :: entries, last)

end AvSyncScheduler

end Concurrency
end Superi

import Mathlib
import Superi.Core.Ids
import Superi.Core.Time
import Superi.Lib.Keyed

/-!
# Schedule — clip placements against a device clock

A schedule holds placements of source samples on timeline tracks.  A callback of the device asks for
a window of device samples; the anchors of the current epoch say which timeline samples these are,
and an iterator over the placements yields what the window needs of each.
-/

namespace Superi
namespace Audio

open Core Result

/-! ## Errors -/

def scheduleError (category : ErrorCategory) (operation message : String) : Error :=
  (Error.new category .userCorrectable message).withContext ⟨"superi-audio.sync", operation⟩

/-- A signed sample coordinate on a sample clock. -/
structure SampleTime where
  sample : Int
  sampleRate : Nat
  inRange : InI64 sample
  deriving Repr

theorem SampleTime.fields_injective : Function.Injective fun x : SampleTime =>
    (x.sample, x.sampleRate) := by
  rintro ⟨⟩ ⟨⟩ h
  simpa using h

instance : DecidableEq SampleTime := SampleTime.fields_injective.decidableEq

/-- A checked result in `i64`. -/
def checkedSample (value : Int) : Option {sample : Int // InI64 sample} :=
  if h : InI64 value then some ⟨value, h⟩ else none

/-- `i64::try_from` of an unsigned 64-bit count. -/
def signedCount (count : Nat) : Option Int := if InI64 count then some count else none

def SampleTime.new (sample : {sample : Int // InI64 sample}) (sampleRate : Nat) :
    Except Error SampleTime :=
  if sampleRate = 0 then
    .error (invalidTime "create_sample_time" "sample rate must be greater than zero")
  else .ok { sample := sample.1, sampleRate, inRange := sample.2 }

/-- The exclusive end of a sample window. -/
def checkedSampleEnd (start : SampleTime) (frameCount : Nat) (operation : String) :
    Except Error SampleTime := do
  let failure := scheduleError .invalidInput operation
    "sample window exceeds the supported coordinate range"
  let count ← okOr (signedCount frameCount) failure
  let stop ← okOr (checkedSample (start.sample + count)) failure
  SampleTime.new stop start.sampleRate

/-! ## Placements -/

/-- One stretch of source samples at its place on a track. -/
structure AudioTimelinePlacement where
  trackId : TrackId
  clipId : ClipId
  trackOrder : Nat
  recordStart : SampleTime
  sourceStart : SampleTime
  frameCount : Nat
  sameClock : recordStart.sampleRate = sourceStart.sampleRate
  recordStart_nonneg : 0 ≤ recordStart.sample
  frameCount_pos : 0 < frameCount
  record_fits : InI64 (recordStart.sample + frameCount)
  source_fits : InI64 (sourceStart.sample + frameCount)
  deriving Repr

theorem AudioTimelinePlacement.fields_injective : Function.Injective fun x : AudioTimelinePlacement =>
    (x.trackId, x.clipId, x.trackOrder, x.recordStart, x.sourceStart, x.frameCount) := by
  rintro ⟨⟩ ⟨⟩ h
  simpa using h

instance : DecidableEq AudioTimelinePlacement := AudioTimelinePlacement.fields_injective.decidableEq

theorem checkedSample_eq_some {value : Int} {sample : {sample : Int // InI64 sample}} :
    checkedSample value = some sample ↔ sample.1 = value := by
  unfold checkedSample
  constructor
  · intro h
    split at h
    · cases h
      rfl
    · cases h
  · rintro rfl
    rw [dif_pos sample.2]

theorem signedCount_eq_some {count : Nat} {value : Int} :
    signedCount count = some value ↔ InI64 count ∧ (count : Int) = value := by
  rw [signedCount, Option.ite_none_right_eq_some, Option.some_inj]

theorem SampleTime.new_eq_ok {sample : {sample : Int // InI64 sample}} {sampleRate : Nat}
    {time : SampleTime} : SampleTime.new sample sampleRate = .ok time ↔
      sampleRate ≠ 0 ∧ time.sample = sample.1 ∧ time.sampleRate = sampleRate := by
  cases time
  by_cases hrate : sampleRate = 0
  · simp [SampleTime.new, hrate]
  · simp only [SampleTime.new, hrate, if_false, Except.ok.injEq, SampleTime.mk.injEq, ne_eq,
      not_false_eq_true, true_and]
    exact and_congr eq_comm eq_comm

theorem checkedSampleEnd_eq_ok {start stop : SampleTime} {frameCount : Nat} {operation : String} :
    checkedSampleEnd start frameCount operation = .ok stop ↔
      InI64 frameCount ∧ start.sampleRate ≠ 0 ∧ stop.sample = start.sample + frameCount ∧
        stop.sampleRate = start.sampleRate := by
  simp only [checkedSampleEnd, bind_eq_ok, okOr_eq_ok, signedCount_eq_some, checkedSample_eq_some,
    SampleTime.new_eq_ok]
  constructor
  · rintro ⟨_, ⟨hcount, rfl⟩, sample, hsample, hrate, hstop, hsame⟩
    exact ⟨hcount, hrate, hstop.trans hsample, hsame⟩
  · rintro ⟨hcount, hrate, hstop, hsame⟩
    exact ⟨_, ⟨hcount, rfl⟩, ⟨stop.sample, stop.inRange⟩, hstop, hrate, rfl, hsame⟩

namespace AudioTimelinePlacement

/-- The exclusive end on the timeline. -/
def recordEnd (placement : AudioTimelinePlacement) : Except Error SampleTime :=
  checkedSampleEnd placement.recordStart placement.frameCount "placement_record_end"

/-- Authored track order first, then record order, then the clip. -/
def sortKey (placement : AudioTimelinePlacement) : ℕ ×ₗ ℤ ×ₗ ℕ :=
  toLex (placement.trackOrder, toLex (placement.recordStart.sample, placement.clipId.raw.toNat))

end AudioTimelinePlacement

/-! ## The schedule -/

structure AudioTimelineSchedule where
  timelineId : TimelineId
  timelineRevision : Nat
  sampleRate : Nat
  placements : List AudioTimelinePlacement
  deriving DecidableEq

/-- The identities met so far while a schedule is validated. -/
structure SeenIdentities where
  tracksByOrder : Std.ExtTreeMap Nat TrackId
  ordersByTrack : Std.ExtTreeMap TrackId Nat
  clipIds : Std.ExtTreeSet ClipId

namespace AudioTimelineSchedule

def conflict (message : String) : Error := scheduleError .conflict "create_schedule" message

/-- An entry that is there must agree with the one that replaces it. -/
def requireSame {α : Type} [DecidableEq α] (existing : Option α) (value : α) (message : String) :
    Except Error Unit :=
  rejectIf (existing.any (· ≠ value) = true) (conflict message)

def checkIdentity (sampleRate : Nat) (seen : SeenIdentities) (placement : AudioTimelinePlacement) :
    Except Error SeenIdentities := do
  rejectIf (placement.recordStart.sampleRate ≠ sampleRate)
    (scheduleError .invalidInput "create_schedule"
      "every placement must use the schedule sample rate")
  requireSame seen.tracksByOrder[placement.trackOrder]? placement.trackId
    "one track order cannot identify multiple tracks"
  requireSame seen.ordersByTrack[placement.trackId]? placement.trackOrder
    "one track cannot use multiple authored orders"
  rejectIf (placement.clipId ∈ seen.clipIds)
    (conflict "timeline audio schedule contains a duplicate clip identity")
  pure
    { tracksByOrder := seen.tracksByOrder.insert placement.trackOrder placement.trackId
      ordersByTrack := seen.ordersByTrack.insert placement.trackId placement.trackOrder
      clipIds := seen.clipIds.insert placement.clipId }

/-- A placement of the same track ends before its neighbour starts. -/
def checkNeighbours (left right : AudioTimelinePlacement) : Except Error Unit :=
  if left.trackId = right.trackId then do
    let stop ← left.recordEnd
    rejectIf (stop.sample > right.recordStart.sample)
      (conflict "timeline audio placements on one track must not overlap")
  else .ok ()

/-- Every pair of neighbours in the canonical order. -/
def checkOverlaps : List AudioTimelinePlacement → Except Error Unit
  | left :: right :: rest => do
      checkNeighbours left right
      checkOverlaps (right :: rest)
  | _ => .ok ()

/-- The canonical sequence of the placements. -/
def sortPlacements (placements : List AudioTimelinePlacement) : List AudioTimelinePlacement :=
  placements.insertionSort fun left right => left.sortKey ≤ right.sortKey

def new (timelineId : TimelineId) (timelineRevision sampleRate : Nat)
    (placements : List AudioTimelinePlacement) : Except Error AudioTimelineSchedule := do
  rejectIf (sampleRate = 0)
    (invalidTime "create_timebase" "timebase numerator must be greater than zero")
  let _ ← placements.foldlM (checkIdentity sampleRate) ⟨∅, ∅, ∅⟩
  checkOverlaps (sortPlacements placements)
  pure { timelineId, timelineRevision, sampleRate, placements := sortPlacements placements }

end AudioTimelineSchedule

/-! ## The device clock -/

/-- A fixed mapping between device and timeline samples. -/
structure AudioScheduleEpoch where
  deviceAnchor : SampleTime
  timelineAnchor : SampleTime
  sameClock : deviceAnchor.sampleRate = timelineAnchor.sampleRate
  deriving DecidableEq

structure AudioTimelineScheduler where
  schedule : AudioTimelineSchedule
  epoch : AudioScheduleEpoch

/-- One callback window with the placements it is played from. -/
structure AudioCallbackPlan where
  placements : List AudioTimelinePlacement
  deviceStart : SampleTime
  deviceEnd : SampleTime
  timelineStart : SampleTime
  timelineEnd : SampleTime
  frameCount : Nat

namespace AudioTimelineScheduler

def validateEpoch (sampleRate : Nat) (epoch : AudioScheduleEpoch) (operation : String) :
    Except Error Unit :=
  rejectIf (epoch.deviceAnchor.sampleRate ≠ sampleRate)
    (scheduleError .invalidInput operation "transport epoch must use the schedule sample rate")

def new (schedule : AudioTimelineSchedule) (epoch : AudioScheduleEpoch) :
    Except Error AudioTimelineScheduler := do
  validateEpoch schedule.sampleRate epoch "create_scheduler"
  pure { schedule, epoch }

/-- Map one device window.  `inAudioDomain` is the answer of the check that the calling thread
belongs to the audio domain. -/
def planCallback (scheduler : AudioTimelineScheduler) (inAudioDomain : Except Error Unit)
    (deviceStart : SampleTime) (frameCount : Nat) : Except Error AudioCallbackPlan := do
  let invalid := scheduleError .invalidInput "plan_callback"
  inAudioDomain
  rejectIf (deviceStart.sampleRate ≠ scheduler.schedule.sampleRate)
    (invalid "device callback must use the schedule sample rate")
  rejectIf (frameCount = 0) (invalid "device callback must contain at least one sample frame")
  let deviceEnd ← checkedSampleEnd deviceStart frameCount "plan_callback"
  let elapsed ← okOr (checkedSample (deviceStart.sample - scheduler.epoch.deviceAnchor.sample))
    (invalid "device epoch distance overflowed")
  rejectIf (elapsed.1 < 0)
    (invalid "device callback must not precede the active transport epoch")
  let timelineStartValue ← okOr
    (checkedSample (scheduler.epoch.timelineAnchor.sample + elapsed.1))
    (invalid "timeline callback start overflowed")
  let timelineStart ← SampleTime.new timelineStartValue scheduler.schedule.sampleRate
  let timelineEnd ← checkedSampleEnd timelineStart frameCount "plan_callback"
  pure
    { placements := scheduler.schedule.placements
      deviceStart, deviceEnd, timelineStart, timelineEnd, frameCount }

end AudioTimelineScheduler

/-! ## Slices -/

/-- One stretch of source samples at its place in a callback window. -/
structure ScheduledAudioSlice where
  trackId : TrackId
  clipId : ClipId
  trackOrder : Nat
  outputOffset : Nat
  sourceStart : SampleTime
  frameCount : Nat
  deriving DecidableEq

structure ScheduledAudioSlices where
  placements : List AudioTimelinePlacement
  nextIndex : Nat
  timelineStart : SampleTime
  timelineEnd : SampleTime

def AudioCallbackPlan.slices (plan : AudioCallbackPlan) : ScheduledAudioSlices :=
  { placements := plan.placements
    nextIndex := 0
    timelineStart := plan.timelineStart
    timelineEnd := plan.timelineEnd }

/-- A coordinate difference as an unsigned count. -/
def checkedCount (value : Int) : Option Nat := do
  let difference ← checkedSample value
  difference.1.toNat?

/-- What a window needs of one placement.  A checked step that fails ends the whole iteration, which
is the outer `none`. -/
def intersect (timelineStart timelineEnd : SampleTime) (placement : AudioTimelinePlacement) :
    Option (Option ScheduledAudioSlice) := do
  let recordStart := placement.recordStart.sample
  let recordEnd ← checkedSample (recordStart + (← signedCount placement.frameCount))
  let intersectionStart := max recordStart timelineStart.sample
  let intersectionEnd := min recordEnd.1 timelineEnd.sample
  if intersectionStart ≥ intersectionEnd then
    some none
  else do
    let outputOffset ← checkedCount (intersectionStart - timelineStart.sample)
    let sourceOffset ← checkedSample (intersectionStart - recordStart)
    let sourceStart ← checkedSample (placement.sourceStart.sample + sourceOffset.1)
    let frameCount ← checkedCount (intersectionEnd - intersectionStart)
    let sourceStart ← (SampleTime.new sourceStart placement.sourceStart.sampleRate).toOption
    some (some
      { trackId := placement.trackId
        clipId := placement.clipId
        trackOrder := placement.trackOrder
        outputOffset, sourceStart, frameCount })

namespace ScheduledAudioSlices

/-- One call of the iterator. -/
def next (slices : ScheduledAudioSlices) : Option ScheduledAudioSlice × ScheduledAudioSlices :=
  match _hget : slices.placements[slices.nextIndex]? with
  | none => (none, slices)
  | some placement =>
      let advanced := { slices with nextIndex := slices.nextIndex + 1 }
      match intersect slices.timelineStart slices.timelineEnd placement with
      | none => (none, advanced)
      | some none => next advanced
      | some (some slice) => (some slice, advanced)
termination_by slices.placements.length - slices.nextIndex
decreasing_by
  have hlt := (List.getElem?_eq_some_iff.1 _hget).1
  omega

/-- A call that yields a slice has moved on. -/
theorem next_advances {slices rest : ScheduledAudioSlices} {slice : ScheduledAudioSlice}
    (h : slices.next = (some slice, rest)) :
    rest.placements = slices.placements ∧ slices.nextIndex < rest.nextIndex ∧
      rest.nextIndex ≤ slices.placements.length := by
  fun_induction next slices with
  | case1 slices hget => cases h
  | case2 slices placement hget advanced hended => cases h
  | case3 slices placement hget advanced hskip ih =>
      obtain ⟨hsame, hlt, hle⟩ := ih h
      exact ⟨hsame, Nat.lt_of_succ_lt hlt, hle⟩
  | case4 slices placement hget advanced slice' hslice =>
      obtain ⟨-, hrest⟩ := Prod.mk.inj h
      rw [← hrest]
      exact ⟨rfl, Nat.lt_succ_self _, (List.getElem?_eq_some_iff.1 hget).1⟩

/-- The slices a caller sees that asks until the iterator answers `None`. -/
def collect (slices : ScheduledAudioSlices) : List ScheduledAudioSlice :=
  match _hnext : slices.next with
  | (none, _) => []
  | (some slice, rest) => slice :: collect rest
termination_by slices.placements.length - slices.nextIndex
decreasing_by
  obtain ⟨hsame, hlt, hle⟩ := next_advances _hnext
  rw [hsame]
  omega

end ScheduledAudioSlices
end Audio
end Superi

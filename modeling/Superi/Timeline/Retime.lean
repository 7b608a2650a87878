import Superi.Core.Time
import Superi.Lib.Tiling

/-!
# Retime — exact clip-local playback timing

A clip maps its record time to source time by a `ClipTimeMap`: linear sections that cover the
clip's record duration without holes and join continuously on the source clock.

The checks of the source's constructors are fields of `PlaybackRate`, `RetimeSegment` and
`ClipTimeMap`.  A constructor returns its value together with the arguments it was built from, so
that `Clip` can carry the binding between its ranges and its time map as a field too.
-/

namespace Superi
namespace Editorial

open Core Result

def invalidRetime (operation message : String) : Error :=
  (Error.new .invalidInput .userCorrectable message).withContext
    ⟨"superi-timeline.retime", operation⟩

def overflowRetime (operation : String) : Error :=
  invalidRetime operation "retime value exceeds the supported exact coordinate range"

/-! ## Playback rates -/

/-- A reduced signed ratio of sampled source time to elapsed record time. -/
structure PlaybackRate where
  numerator : Int
  denominator : Nat
  numerator_fits : InI64 numerator
  denominator_pos : 0 < denominator
  denominator_fits : denominator < 18446744073709551616
  reduced : Nat.Coprime numerator.natAbs denominator
  deriving Repr

theorem PlaybackRate.fields_injective : Function.Injective fun x : PlaybackRate =>
    (x.numerator, x.denominator) := by
  rintro ⟨⟩ ⟨⟩ h
  simpa using h

instance : DecidableEq PlaybackRate := PlaybackRate.fields_injective.decidableEq

namespace PlaybackRate

def normal : PlaybackRate :=
  ⟨1, 1, inI64_one, Nat.one_pos, one_lt_word, by decide⟩

def reverse : PlaybackRate :=
  ⟨-1, 1, by decide, Nat.one_pos, one_lt_word, by decide⟩

def isFreeze (rate : PlaybackRate) : Bool := rate.numerator == 0
def isReverse (rate : PlaybackRate) : Bool := decide (rate.numerator < 0)

/-- Source seconds per record second. -/
def ratio (rate : PlaybackRate) : ℚ := rate.numerator / rate.denominator

theorem ratio_of_isFreeze {rate : PlaybackRate} (h : rate.isFreeze = true) : rate.ratio = 0 := by
  have hn : rate.numerator = 0 := by simpa [isFreeze] using h
  simp [ratio, hn]

end PlaybackRate

/-! ## Linear sections -/

/-- `i64::try_from` on a rounded quotient, with the exactness flag it is reported with. -/
def fitRetime (value : Int) (isExact : Bool) (operation : String) : Except Error (Int × Bool) :=
  if InI64 value then .ok (value, isExact) else .error (overflowRetime operation)

theorem fitRetime_eq_ok {value : Int} {isExact : Bool} {operation : String} {result : Int × Bool} :
    fitRetime value isExact operation = .ok result ↔ InI64 value ∧ (value, isExact) = result := by
  by_cases h : InI64 value <;> simp [fitRetime, h]

/-- Round a 128-bit quotient (`denominator > 0`) to `i64`, and say whether it was exact. -/
def divideRetime (numerator denominator : Int) (rounding : TimeRounding) (operation : String) :
    Except Error (Int × Bool) :=
  let quotient := numerator.tdiv denominator
  let remainder := numerator.tmod denominator
  if remainder = 0 then
    fitRetime quotient true operation
  else
    match rounding with
    | .exact =>
        .error (invalidRetime operation "retime mapping is not exact at the requested source clock")
    | .floor => fitRetime (if remainder < 0 then quotient - 1 else quotient) false operation
    | .ceil => fitRetime (if remainder > 0 then quotient + 1 else quotient) false operation
    | .towardZero => fitRetime quotient false operation
    | .nearestTiesEven =>
        let rounded :=
          match Ord.compare ((remainder.natAbs : Int) * 2) denominator with
          | .lt => quotient
          | .gt => quotient + numerator.sign
          | .eq => if quotient.tmod 2 = 0 then quotient else quotient + numerator.sign
        fitRetime rounded false operation

/-- The source coordinate reached `offset` after the start of a linear section. -/
def sourceTimeAtOffset (sourceStart : RationalTime) (rate : PlaybackRate) (offset : RationalTime)
    (rounding : TimeRounding) (operation : String) : Except Error (RationalTime × Bool) :=
  if rate.isFreeze then
    .ok (sourceStart, true)
  else do
    let recordTimebase := offset.timebase
    let sourceTimebase := sourceStart.timebase
    let n₁ ← okOr (checkedI128 (offset.value * recordTimebase.denominator)) (overflowRetime operation)
    let n₂ ← okOr (checkedI128 (n₁ * rate.numerator)) (overflowRetime operation)
    let numerator ← okOr (checkedI128 (n₂ * sourceTimebase.numerator)) (overflowRetime operation)
    let d₁ ← okOr (checkedI128 (recordTimebase.numerator * rate.denominator))
      (overflowRetime operation)
    let denominator ← okOr (checkedI128 (d₁ * sourceTimebase.denominator))
      (overflowRetime operation)
    let (delta, isExact) ← divideRetime numerator denominator rounding operation
    let time ← RationalTime.tryFrom (sourceStart.value + delta) sourceTimebase
      (overflowRetime operation)
    pure (time, isExact)

/-- One directly inspectable linear section of a clip time map. -/
structure RetimeSegment where
  recordRange : TimeRange
  sourceStart : RationalTime
  rate : PlaybackRate
  nonempty : recordRange.isEmpty = false
  nonnegative : recordRange.start.isNegative = false
  lands : (sourceTimeAtOffset sourceStart rate recordRange.duration.rationalTime .exact
    "create_retime_segment").isOk = true
  deriving DecidableEq, Repr

namespace RetimeSegment

/-- Create one nonempty clip-local section whose end lands on the source clock. -/
def new (recordRange : TimeRange) (sourceStart : RationalTime) (rate : PlaybackRate) :
    Except Error RetimeSegment :=
  if hne : recordRange.isEmpty = true then
    .error (invalidRetime "create_retime_segment" "retime segment record range must be nonempty")
  else if hneg : recordRange.start.isNegative = true then
    .error (invalidRetime "create_retime_segment"
      "retime segment record range must not start before clip-local zero")
  else
    match h : sourceTimeAtOffset sourceStart rate recordRange.duration.rationalTime .exact
        "create_retime_segment" with
    | .error error => .error error
    | .ok _ =>
        .ok {
          recordRange, sourceStart, rate
          nonempty := by simpa using hne
          nonnegative := by simpa using hneg
          lands := by rw [h]; rfl }

def sourceTimeAt (segment : RetimeSegment) (recordTime : RationalTime) (rounding : TimeRounding)
    (operation : String) : Except Error (RationalTime × Bool) := do
  let offset ← recordTime.checkedSubAt segment.recordRange.start segment.recordRange.timebase .exact
  sourceTimeAtOffset segment.sourceStart segment.rate offset rounding operation

def sourceEnd (segment : RetimeSegment) : Except Error RationalTime := do
  let (time, _) ← sourceTimeAtOffset segment.sourceStart segment.rate
    segment.recordRange.duration.rationalTime .exact "validate_retime_continuity"
  pure time

/-- Clip-local start and end of the section, in seconds. -/
def lo (segment : RetimeSegment) : ℚ := segment.recordRange.start.seconds
def hi (segment : RetimeSegment) : ℚ := segment.recordRange.endExclusive.seconds

/-- The linear law of the section, on instants. -/
def position (segment : RetimeSegment) (instant : ℚ) : ℚ :=
  segment.sourceStart.seconds + segment.rate.ratio * (instant - segment.lo)

theorem new_spec {recordRange : TimeRange} {sourceStart : RationalTime} {rate : PlaybackRate}
    {segment : RetimeSegment} (h : new recordRange sourceStart rate = .ok segment) :
    segment.recordRange = recordRange ∧ segment.sourceStart = sourceStart ∧
      segment.rate = rate := by
  unfold new at h
  split at h
  · cases h
  · split at h
    · cases h
    · split at h
      · cases h
      · cases h
        exact ⟨rfl, rfl, rfl⟩

end RetimeSegment

/-! ## Clip time maps -/

/-- The source mapping must reach the next section's source start. -/
def checkSeam (segment : RetimeSegment) : Option RetimeSegment → Except Error Unit
  | none => pure ()
  | some next => do
      let sourceEnd ← segment.sourceEnd
      rejectIf (¬ sourceEnd ≈ next.sourceStart)
        (invalidRetime "create_clip_time_map"
          "retime segment source mapping must remain continuous at every seam")

/-- The seam and coverage checks of the constructor, section by section. -/
def checkSegments (recordDuration : Duration) (sourceTimebase : Timebase) :
    List RetimeSegment → RationalTime → Except Error Unit
  | [], expectedStart =>
      rejectIf (¬ expectedStart ≈ recordDuration.rationalTime)
        (invalidRetime "create_clip_time_map"
          "retime segments must exactly cover the complete clip duration")
  | segment :: rest, expectedStart => do
      rejectIf (segment.recordRange.timebase ≠ recordDuration.timebase)
        (invalidRetime "create_clip_time_map"
          "every retime segment must use the clip record clock")
      rejectIf (segment.sourceStart.timebase ≠ sourceTimebase)
        (invalidRetime "create_clip_time_map"
          "every retime segment must use the clip source clock")
      rejectIf (¬ segment.recordRange.start ≈ expectedStart)
        (invalidRetime "create_clip_time_map"
          "retime segments must provide contiguous gapless record coverage")
      checkSeam segment rest.head?
      checkSegments recordDuration sourceTimebase rest segment.recordRange.endExclusive

/-- An immutable complete record-to-source map for one clip. -/
structure ClipTimeMap where
  recordDuration : Duration
  sourceTimebase : Timebase
  segments : List RetimeSegment
  durationNonzero : recordDuration.isZero = false
  nonempty : segments ≠ []
  checked : checkSegments recordDuration sourceTimebase segments
    (RationalTime.zero recordDuration.timebase) = .ok ()
  deriving DecidableEq, Repr

/-- The directly inspectable high-level shape of one clip time map. -/
inductive RetimeMode
  | identity
  | speedChange
  | reverse
  | freeze
  | timeRemap
  deriving DecidableEq, Repr

/-- How a discrete source coordinate was resolved for transport. -/
inductive RetimeResolution
  | exact
  | held
  | rounded (rounding : TimeRounding)
  deriving DecidableEq, Repr

structure MappedSourceTime where
  time : RationalTime
  resolution : RetimeResolution
  segmentIndex : Nat
  deriving DecidableEq, Repr

namespace ClipTimeMap

/-- A time map bound to the record duration and source clock it was built for. -/
abbrev Bound (recordDuration : Duration) (sourceTimebase : Timebase) : Type :=
  { map : ClipTimeMap // map.recordDuration = recordDuration ∧ map.sourceTimebase = sourceTimebase }

/-- Create a complete continuous piecewise-linear clip time map. -/
def new (recordDuration : Duration) (sourceTimebase : Timebase) (segments : List RetimeSegment) :
    Except Error (Bound recordDuration sourceTimebase) :=
  if hd : recordDuration.isZero = true then
    .error (invalidRetime "create_clip_time_map" "clip time map duration must be nonzero")
  else if hs : segments = [] then
    .error (invalidRetime "create_clip_time_map"
      "clip time map must contain at least one segment")
  else
    match h : checkSegments recordDuration sourceTimebase segments
        (RationalTime.zero recordDuration.timebase) with
    | .error error => .error error
    | .ok () =>
        .ok ⟨{
          recordDuration, sourceTimebase, segments
          durationNonzero := by simpa using hd
          nonempty := hs
          checked := h }, rfl, rfl⟩

/-- One constant speed, reverse, or freeze section. -/
def speed (recordDuration : Duration) (sourceStart : RationalTime) (rate : PlaybackRate) :
    Except Error (Bound recordDuration sourceStart.timebase) := do
  let recordRange ← TimeRange.new (RationalTime.zero recordDuration.timebase) recordDuration
  let segment ← RetimeSegment.new recordRange sourceStart rate
  new recordDuration sourceStart.timebase [segment]

def identity (recordDuration : Duration) (sourceStart : RationalTime) :
    Except Error (Bound recordDuration sourceStart.timebase) :=
  speed recordDuration sourceStart .normal

/-- Classify the directly editable timing shape. -/
def mode (map : ClipTimeMap) : RetimeMode :=
  match map.segments with
  | [segment] =>
      if segment.rate.isFreeze then .freeze
      else if segment.rate.isReverse then .reverse
      else if segment.rate = .normal then .identity
      else .speedChange
  | _ => .timeRemap

/-- The index of the last section starting at or before the queried time. -/
def segmentIndexAt (map : ClipTimeMap) (recordTime : RationalTime) : Nat :=
  (map.segments.takeWhile fun segment => decide (segment.recordRange.start ≤ recordTime)).length - 1

theorem segmentIndexAt_lt (map : ClipTimeMap) (recordTime : RationalTime) :
    map.segmentIndexAt recordTime < map.segments.length := by
  have hpos : 0 < map.segments.length := List.length_pos_iff.2 map.nonempty
  have hle := (map.segments.takeWhile_prefix
    (fun segment => decide (segment.recordRange.start ≤ recordTime))).length_le
  unfold segmentIndexAt
  omega

/-- The whole clip-local record range. -/
def complete (map : ClipTimeMap) : Except Error TimeRange :=
  TimeRange.new (RationalTime.zero map.recordDuration.timebase) map.recordDuration

/-- Resolve one clip-local record coordinate. -/
def sourceTimeAt (map : ClipTimeMap) (recordTime : RationalTime) (rounding : TimeRounding) :
    Except Error MappedSourceTime := do
  let complete ← map.complete
  rejectIf (complete.contains recordTime = false)
    (invalidRetime "resolve_retime_source"
      "retime query must lie inside the half-open clip record duration")
  let index := map.segmentIndexAt recordTime
  let segment := map.segments.get ⟨index, map.segmentIndexAt_lt recordTime⟩
  rejectIf (segment.recordRange.contains recordTime = false)
    (invalidRetime "resolve_retime_source"
      "retime query did not resolve to complete segment coverage")
  let (time, isExact) ← segment.sourceTimeAt recordTime rounding "resolve_retime_source"
  let resolution :=
    if segment.rate.isFreeze then .held else if isExact then .exact else .rounded rounding
  pure { time, resolution, segmentIndex := index }

/-- `validate_binding`: the map must exactly fit the clip it is installed on.  The proof it
returns is what `Clip` keeps. -/
def validateBinding (map : ClipTimeMap) (recordDuration : Duration) (sourceTimebase : Timebase) :
    Except Error (PLift (map.recordDuration = recordDuration ∧
      map.sourceTimebase = sourceTimebase)) :=
  if hd : ¬ map.recordDuration ≈ recordDuration ∨
      map.recordDuration.timebase ≠ recordDuration.timebase then
    .error (invalidRetime "bind_clip_time_map"
      "clip time map must use and exactly cover the clip record duration")
  else if hs : map.sourceTimebase ≠ sourceTimebase then
    .error (invalidRetime "bind_clip_time_map" "clip time map must use the clip source clock")
  else
    .ok ⟨by
      simp only [not_or, not_not] at hd
      exact ⟨Duration.ext_of_seconds hd.2 (Duration.equiv_iff_seconds.1 hd.1), not_not.1 hs⟩⟩

/-- Where the part of a section inside `range` starts and stops. -/
def sliceStart (range : TimeRange) (segment : RetimeSegment) : RationalTime :=
  if range.start < segment.recordRange.start then segment.recordRange.start else range.start

def sliceEnd (range : TimeRange) (segment : RetimeSegment) : RationalTime :=
  if segment.recordRange.endExclusive < range.endExclusive then segment.recordRange.endExclusive
  else range.endExclusive

/-- The part of one section inside `range`, rebased to the start of `range`. -/
def sliceSegment (range : TimeRange) (segment : RetimeSegment) :
    Except Error (Option RetimeSegment) := do
  if sliceEnd range segment ≤ sliceStart range segment then
    pure none
  else do
    let (sourceStart, _) ← segment.sourceTimeAt (sliceStart range segment) .exact
      "slice_clip_time_map"
    let rebasedStart ← (sliceStart range segment).checkedSubAt range.start range.timebase .exact
    let rebasedEnd ← (sliceEnd range segment).checkedSubAt range.start range.timebase .exact
    let rebased ← TimeRange.fromStartEnd rebasedStart rebasedEnd
    let sliced ← RetimeSegment.new rebased sourceStart segment.rate
    pure (some sliced)

/-- The map restricted to a clip-local subrange. -/
def slice (map : ClipTimeMap) (range : TimeRange) :
    Except Error (Bound range.duration map.sourceTimebase) := do
  let complete ← map.complete
  rejectIf (range.isEmpty = true ∨ range.timebase ≠ complete.timebase ∨
      range.start < complete.start ∨ complete.endExclusive < range.endExclusive)
    (invalidRetime "slice_clip_time_map"
      "retime slice must be a nonempty subrange of the clip duration")
  let segments ← map.segments.mapM (sliceSegment range)
  new range.duration map.sourceTimebase (segments.filterMap id)

/-- One section on the record clock of a replacement duration. -/
def rescaleSegment (timebase : Timebase) (segment : RetimeSegment) : Except Error RetimeSegment := do
  let recordRange ← segment.recordRange.checkedRescale timebase .exact
  RetimeSegment.new recordRange segment.sourceStart segment.rate

/-- The same map on another record clock. -/
def rescaleRecordClock (map : ClipTimeMap) (duration : Duration) :
    Except Error (Bound duration map.sourceTimebase) := do
  rejectIf (¬ map.recordDuration ≈ duration)
    (invalidRetime "rescale_clip_time_map"
      "record clock replacement must preserve the clip duration")
  let segments ← map.segments.mapM (rescaleSegment duration.timebase)
  new duration map.sourceTimebase segments

/-- One section with its source anchored elsewhere. -/
def translateSegment (oldAnchor newAnchor : RationalTime) (segment : RetimeSegment) :
    Except Error RetimeSegment := do
  let offset ← segment.sourceStart.checkedSubAt oldAnchor oldAnchor.timebase .exact
  let offset ← offset.checkedRescale newAnchor.timebase .exact
  let sourceStart ← newAnchor.checkedAddAt offset newAnchor.timebase .exact
  RetimeSegment.new segment.recordRange sourceStart segment.rate

/-- The same map, moved on the source from one anchor to another. -/
def translateSource (map : ClipTimeMap) (oldAnchor newAnchor : RationalTime) :
    Except Error (Bound map.recordDuration newAnchor.timebase) := do
  rejectIf (oldAnchor.timebase ≠ map.sourceTimebase)
    (invalidRetime "translate_clip_time_map"
      "old source anchor must use the current retime source clock")
  let segments ← map.segments.mapM (translateSegment oldAnchor newAnchor)
  new map.recordDuration newAnchor.timebase segments

end ClipTimeMap

end Editorial
end Superi

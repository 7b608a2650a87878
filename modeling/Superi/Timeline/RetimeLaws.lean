import Mathlib
import Superi.Timeline.Retime

/-!
# RetimeLaws — the source position a clip time map assigns to an instant

A `ClipTimeMap` denotes a function from clip-local instants to source instants, linear on each of
its sections.  The transport query returns values of this function whenever it does not
round, and slicing, changing the record clock and translating the source each act on the function
the way their names say.
-/

namespace Superi
namespace Editorial

open Core Result Tiling

/-! ## Linear sections -/

theorem divideRetime_exact {numerator denominator : Int} {rounding : TimeRounding}
    {operation : String} {value : Int}
    (h : divideRetime numerator denominator rounding operation = .ok (value, true)) :
    denominator ∣ numerator ∧ value = numerator.tdiv denominator := by
  unfold divideRetime at h
  by_cases hrem : numerator.tmod denominator = 0
  · simp only [hrem, if_true, fitRetime_eq_ok, Prod.mk.injEq] at h
    exact ⟨Int.dvd_of_tmod_eq_zero hrem, h.2.1.symm⟩
  · -- every rounding policy reports an inexact quotient as such
    cases rounding <;> simp [hrem, fitRetime_eq_ok] at h

theorem divideRetime_of_exact {numerator denominator : Int} {operation : String}
    {value : Int} {isExact : Bool}
    (h : divideRetime numerator denominator .exact operation = .ok (value, isExact)) :
    isExact = true := by
  unfold divideRetime at h
  by_cases hrem : numerator.tmod denominator = 0
  · simp only [hrem, if_true, fitRetime_eq_ok, Prod.mk.injEq] at h
    exact h.2.2.symm
  · simp [hrem] at h

/-- An unrounded query follows the linear law of its section. -/
theorem sourceTimeAtOffset_spec {sourceStart offset time : RationalTime} {rate : PlaybackRate}
    {rounding : TimeRounding} {operation : String}
    (h : sourceTimeAtOffset sourceStart rate offset rounding operation = .ok (time, true)) :
    time.timebase = sourceStart.timebase ∧
      time.seconds = sourceStart.seconds + rate.ratio * offset.seconds := by
  unfold sourceTimeAtOffset at h
  split at h
  · rename_i hfreeze
    cases h
    simp [PlaybackRate.ratio_of_isFreeze hfreeze]
  · simp only [bind_eq_ok, okOr_eq_ok, pure_eq_ok, Prod.exists, Prod.mk.injEq,
      RationalTime.tryFrom_eq_ok] at h
    obtain ⟨n₁, hn₁, n₂, hn₂, numerator, hn, d₁, hd₁, denominator, hd, delta, isExact, hdiv,
      result, ⟨hvalue, htb⟩, rfl, rfl⟩ := h
    obtain ⟨hdvd, hdelta⟩ := divideRetime_exact hdiv
    refine ⟨htb, ?_⟩
    have hmul : denominator * delta = numerator := by
      rw [hdelta]
      exact Int.mul_tdiv_cancel' hdvd
    -- undo the five overflow checks
    have hn' := checkedI128_eq_some hn
    have hn₂' := checkedI128_eq_some hn₂
    have hn₁' := checkedI128_eq_some hn₁
    have hd' := checkedI128_eq_some hd
    have hd₁' := checkedI128_eq_some hd₁
    subst hn' hn₂' hn₁' hd' hd₁'
    have h₁ : (offset.timebase.numerator : ℚ) ≠ 0 := by
      exact_mod_cast offset.timebase.numerator_pos.ne'
    have h₂ : (rate.denominator : ℚ) ≠ 0 := by exact_mod_cast rate.denominator_pos.ne'
    have h₃ : (sourceStart.timebase.numerator : ℚ) ≠ 0 := by
      exact_mod_cast sourceStart.timebase.numerator_pos.ne'
    have h₄ : (sourceStart.timebase.denominator : ℚ) ≠ 0 := by
      exact_mod_cast sourceStart.timebase.denominator_pos.ne'
    have hmulq : (offset.timebase.numerator * rate.denominator * sourceStart.timebase.denominator
        * delta : ℚ) = offset.value * offset.timebase.denominator * rate.numerator *
          sourceStart.timebase.numerator := by
      exact_mod_cast hmul
    rw [RationalTime.seconds_of_timebase_eq htb, hvalue, RationalTime.seconds,
      RationalTime.seconds, PlaybackRate.ratio, Timebase.unit, Timebase.unit]
    push_cast
    field_simp
    linear_combination hmulq

theorem sourceTimeAtOffset_of_exact {sourceStart offset time : RationalTime} {rate : PlaybackRate}
    {operation : String} {isExact : Bool}
    (h : sourceTimeAtOffset sourceStart rate offset .exact operation = .ok (time, isExact)) :
    time.timebase = sourceStart.timebase ∧
      time.seconds = sourceStart.seconds + rate.ratio * offset.seconds := by
  have hexact : isExact = true := by
    unfold sourceTimeAtOffset at h
    split at h
    · cases h
      rfl
    · simp only [bind_eq_ok, okOr_eq_ok, pure_eq_ok, Prod.exists, Prod.mk.injEq] at h
      obtain ⟨_, _, _, _, _, _, _, _, _, _, _, flag, hdiv, _, _, _, rfl⟩ := h
      exact divideRetime_of_exact hdiv
  subst hexact
  exact sourceTimeAtOffset_spec h

namespace RetimeSegment

theorem lo_lt_hi (segment : RetimeSegment) : segment.lo < segment.hi :=
  TimeRange.start_lt_end_iff.2 segment.nonempty

theorem sourceTimeAt_of_exact {segment : RetimeSegment} {recordTime time : RationalTime}
    {operation : String} {isExact : Bool}
    (h : segment.sourceTimeAt recordTime .exact operation = .ok (time, isExact)) :
    time.timebase = segment.sourceStart.timebase ∧
      time.seconds = segment.position recordTime.seconds := by
  unfold sourceTimeAt at h
  rw [bind_eq_ok] at h
  obtain ⟨offset, hoffset, h⟩ := h
  obtain ⟨-, hsec⟩ := RationalTime.checkedSubAt_spec hoffset
  obtain ⟨htb, htime⟩ := sourceTimeAtOffset_of_exact h
  exact ⟨htb, by rw [htime, hsec, position, lo]⟩

end RetimeSegment

/-! ## Coverage of a time map -/

theorem checkSegments_tiles {recordDuration : Duration} {sourceTimebase : Timebase}
    {segments : List RetimeSegment} {expectedStart : RationalTime}
    (h : checkSegments recordDuration sourceTimebase segments expectedStart = .ok ()) :
    Tiles RetimeSegment.lo RetimeSegment.hi expectedStart.seconds segments
      recordDuration.seconds := by
  induction segments generalizing expectedStart with
  | nil =>
      simp only [checkSegments, rejectIf_eq_ok, not_not, RationalTime.equiv_iff_seconds] at h
      exact h
  | cons segment rest ih =>
      simp only [checkSegments, bind_eq_ok, rejectIf_eq_ok, not_not,
        RationalTime.equiv_iff_seconds] at h
      obtain ⟨_, -, _, -, _, hstart, _, -, hrest⟩ := h
      exact ⟨hstart, segment.lo_lt_hi.le, ih hrest⟩

namespace ClipTimeMap

theorem tiles (map : ClipTimeMap) :
    Tiles RetimeSegment.lo RetimeSegment.hi 0 map.segments map.recordDuration.seconds := by
  have h := checkSegments_tiles map.checked
  rwa [RationalTime.seconds_zero] at h

theorem new_segments {recordDuration : Duration} {sourceTimebase : Timebase}
    {segments : List RetimeSegment} {map : Bound recordDuration sourceTimebase}
    (h : new recordDuration sourceTimebase segments = .ok map) : map.1.segments = segments := by
  unfold new at h
  split at h
  · cases h
  · split at h
    · cases h
    · split at h
      · cases h
      · cases h
        rfl

/-- The section whose half-open range holds a clip-local instant. -/
def segmentAt (map : ClipTimeMap) (instant : ℚ) : Option RetimeSegment :=
  map.segments.find? fun segment => decide (segment.lo ≤ instant ∧ instant < segment.hi)

/-- The source instant the map assigns to a clip-local instant inside its duration. -/
def sourcePosition (map : ClipTimeMap) (instant : ℚ) : ℚ :=
  match map.segmentAt instant with
  | some segment => segment.position instant
  | none => 0

theorem sourcePosition_of_covers {map : ClipTimeMap} {segment : RetimeSegment} {instant : ℚ}
    (hmem : segment ∈ map.segments)
    (hcov : Covers RetimeSegment.lo RetimeSegment.hi instant segment) :
    map.sourcePosition instant = segment.position instant := by
  have hfound : map.segmentAt instant = some segment := by
    cases hfind : map.segmentAt instant with
    | none =>
        have := List.find?_eq_none.1 hfind segment hmem
        simp only [decide_eq_true_eq] at this
        exact absurd hcov this
    | some found =>
        have hfcov := List.find?_some hfind
        simp only [decide_eq_true_eq] at hfcov
        rw [map.tiles.covers_unique (List.mem_of_find?_eq_some hfind) hmem hfcov hcov]
  rw [sourcePosition, hfound]

/-- Two maps agree up to a shift of the record instant and an offset of the source when every
section of the first comes from a section of the second. -/
theorem sourcePosition_of_origin (map origin : ClipTimeMap) (shift offset : ℚ) {instant : ℚ}
    (horigin : ∀ segment ∈ map.segments, ∃ source ∈ origin.segments,
      ∀ t, Covers RetimeSegment.lo RetimeSegment.hi t segment →
        Covers RetimeSegment.lo RetimeSegment.hi (t + shift) source ∧
          segment.position t = source.position (t + shift) + offset)
    (hlo : 0 ≤ instant) (hhi : instant < map.recordDuration.seconds) :
    map.sourcePosition instant = origin.sourcePosition (instant + shift) + offset := by
  obtain ⟨segment, hmem, hcov⟩ := map.tiles.exists_covers hlo hhi
  obtain ⟨source, hsource, hrel⟩ := horigin segment hmem
  obtain ⟨hscov, hpos⟩ := hrel instant hcov
  rw [sourcePosition_of_covers hmem hcov, sourcePosition_of_covers hsource hscov, hpos]

/-! ## Operations on time maps -/

theorem lo_le_sliceStart (range : TimeRange) (segment : RetimeSegment) :
    segment.lo ≤ (sliceStart range segment).seconds := by
  unfold sliceStart
  split
  · exact le_refl _
  · rename_i hnlt
    exact not_lt.1 fun hlt => hnlt (RationalTime.lt_iff_seconds.2 hlt)

theorem sliceEnd_le_hi (range : TimeRange) (segment : RetimeSegment) :
    (sliceEnd range segment).seconds ≤ segment.hi := by
  unfold sliceEnd
  split
  · exact le_refl _
  · rename_i hnlt
    exact not_lt.1 fun hlt => hnlt (RationalTime.lt_iff_seconds.2 hlt)

theorem sliceSegment_spec {range : TimeRange} {segment sliced : RetimeSegment}
    (h : sliceSegment range segment = .ok (some sliced)) (t : ℚ)
    (hcov : Covers RetimeSegment.lo RetimeSegment.hi t sliced) :
    Covers RetimeSegment.lo RetimeSegment.hi (t + range.start.seconds) segment ∧
      sliced.position t = segment.position (t + range.start.seconds) := by
  unfold sliceSegment at h
  split at h
  · simp [pure_eq_ok] at h
  · simp only [bind_eq_ok, pure_eq_ok, Prod.exists, Option.some.injEq] at h
    obtain ⟨sourceStart, isExact, hsource, rebasedStart, hstart, rebasedEnd, hend, rebased,
      hrebased, result, hnew, rfl⟩ := h
    obtain ⟨-, hposition⟩ := RetimeSegment.sourceTimeAt_of_exact hsource
    obtain ⟨-, hstart⟩ := RationalTime.checkedSubAt_spec hstart
    obtain ⟨-, hend⟩ := RationalTime.checkedSubAt_spec hend
    obtain ⟨hrs, hre⟩ := TimeRange.fromStartEnd_spec hrebased
    obtain ⟨hrange, hsrc, hrate⟩ := RetimeSegment.new_spec hnew
    have hlo : result.lo = rebasedStart.seconds := by rw [RetimeSegment.lo, hrange, hrs]
    have hhi : result.hi = rebasedEnd.seconds := by rw [RetimeSegment.hi, hrange, hre]
    obtain ⟨hc₁, hc₂⟩ := hcov
    rw [hlo, hstart] at hc₁
    rw [hhi, hend] at hc₂
    refine ⟨⟨?_, ?_⟩, ?_⟩
    · have := lo_le_sliceStart range segment
      linarith
    · have := sliceEnd_le_hi range segment
      linarith
    · rw [RetimeSegment.position, hlo, hstart, hsrc, hrate, hposition, RetimeSegment.position,
        RetimeSegment.position]
      ring

/-- Slicing restricts the map: the source position of every kept instant is unchanged. -/
theorem slice_sourcePosition {map : ClipTimeMap} {range : TimeRange}
    {sliced : Bound range.duration map.sourceTimebase} (h : map.slice range = .ok sliced)
    {instant : ℚ} (hlo : 0 ≤ instant) (hhi : instant < range.duration.seconds) :
    sliced.1.sourcePosition instant = map.sourcePosition (instant + range.start.seconds) := by
  unfold slice at h
  simp only [bind_eq_ok] at h
  obtain ⟨complete, -, _, -, parts, hparts, hnew⟩ := h
  have hsegments := new_segments hnew
  have horigin := sourcePosition_of_origin sliced.1 map range.start.seconds 0 ?_ hlo
    (by rwa [sliced.2.1])
  · rw [horigin, add_zero]
  · intro segment hmem
    rw [hsegments, List.mem_filterMap] at hmem
    obtain ⟨part, hpart, hsome⟩ := hmem
    obtain ⟨source, hsource, hslice⟩ := exists_of_mem_mapM hparts hpart
    have hsome' : part = some segment := hsome
    rw [hsome'] at hslice
    refine ⟨source, hsource, fun t ht => ?_⟩
    obtain ⟨hcov, hpos⟩ := sliceSegment_spec hslice t ht
    exact ⟨hcov, by rw [hpos, add_zero]⟩

theorem rescaleSegment_spec {timebase : Timebase} {segment rescaled : RetimeSegment}
    (h : rescaleSegment timebase segment = .ok rescaled) :
    rescaled.lo = segment.lo ∧ rescaled.hi = segment.hi ∧
      ∀ t, rescaled.position t = segment.position t := by
  unfold rescaleSegment at h
  rw [bind_eq_ok] at h
  obtain ⟨recordRange, hrange, hnew⟩ := h
  obtain ⟨-, hstart, hend⟩ := TimeRange.checkedRescale_spec hrange
  obtain ⟨hr, hsrc, hrate⟩ := RetimeSegment.new_spec hnew
  have hlo : rescaled.lo = segment.lo := by rw [RetimeSegment.lo, hr, hstart, RetimeSegment.lo]
  refine ⟨hlo, by rw [RetimeSegment.hi, hr, hend, RetimeSegment.hi], fun t => ?_⟩
  rw [RetimeSegment.position, RetimeSegment.position, hlo, hsrc, hrate]

/-- Changing the record clock changes no source position. -/
theorem rescaleRecordClock_sourcePosition {map : ClipTimeMap} {duration : Duration}
    {rescaled : Bound duration map.sourceTimebase}
    (h : map.rescaleRecordClock duration = .ok rescaled) {instant : ℚ} (hlo : 0 ≤ instant)
    (hhi : instant < duration.seconds) :
    rescaled.1.sourcePosition instant = map.sourcePosition instant := by
  unfold rescaleRecordClock at h
  simp only [bind_eq_ok] at h
  obtain ⟨_, -, segments, hparts, hnew⟩ := h
  have hsegments := new_segments hnew
  have horigin := sourcePosition_of_origin rescaled.1 map 0 0 ?_ hlo (by rwa [rescaled.2.1])
  · rw [horigin, add_zero, add_zero]
  · intro segment hmem
    rw [hsegments] at hmem
    obtain ⟨source, hsource, hrescale⟩ := exists_of_mem_mapM hparts hmem
    obtain ⟨hslo, hshi, hpos⟩ := rescaleSegment_spec hrescale
    refine ⟨source, hsource, fun t ht => ?_⟩
    rw [add_zero, add_zero]
    exact ⟨⟨hslo ▸ ht.1, hshi ▸ ht.2⟩, hpos t⟩

theorem rescaleRecordClock_duration {map : ClipTimeMap} {duration : Duration}
    {rescaled : Bound duration map.sourceTimebase}
    (h : map.rescaleRecordClock duration = .ok rescaled) :
    duration.seconds = map.recordDuration.seconds := by
  unfold rescaleRecordClock at h
  simp only [bind_eq_ok, rejectIf_eq_ok, not_not] at h
  obtain ⟨_, hdur, -⟩ := h
  exact (Duration.equiv_iff_seconds.1 hdur).symm

end ClipTimeMap

end Editorial
end Superi

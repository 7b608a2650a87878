import Superi.Lib.Polyline
import Superi.Timeline.Items
import Superi.Timeline.RetimeLaws

/-!
# RetimeDirection — the direction a time map plays in

A time map is a continuous piecewise-linear function.  A map that shows no source instant twice
plays in one direction throughout, and so does the path of a clip with such a map.
-/

namespace Superi
namespace Editorial

open Core Result Tiling Polyline Playback

/-- Coordinates are ordered by the instants they denote, whatever their clocks. -/
instance : Preorder RationalTime where
  le := (· ≤ ·)
  lt := (· < ·)
  le_refl time := RationalTime.le_iff_seconds.2 le_rfl
  le_trans first second third hle hle' := RationalTime.le_iff_seconds.2
    ((RationalTime.le_iff_seconds.1 hle).trans (RationalTime.le_iff_seconds.1 hle'))
  lt_iff_le_not_ge first second := by
    rw [RationalTime.lt_iff_seconds, RationalTime.le_iff_seconds, RationalTime.le_iff_seconds]
    exact lt_iff_le_not_ge

namespace RetimeSegment

/-- The source instant a section starts at, in seconds. -/
def opening (segment : RetimeSegment) : ℚ := segment.sourceStart.seconds

def slope (segment : RetimeSegment) : ℚ := segment.rate.ratio

theorem sourceEnd_spec {segment : RetimeSegment} {time : RationalTime}
    (h : segment.sourceEnd = .ok time) : time.seconds = segment.position segment.hi := by
  unfold sourceEnd at h
  simp only [bind_eq_ok, Prod.exists, pure_eq_ok] at h
  obtain ⟨reached, isExact, hreached, rfl⟩ := h
  obtain ⟨-, htime⟩ := sourceTimeAtOffset_of_exact hreached
  have hspan : segment.hi - segment.lo = segment.recordRange.duration.seconds := by
    rw [hi, lo, TimeRange.seconds_endExclusive, add_sub_cancel_left]
  rw [htime, position, hspan, Duration.seconds_rationalTime]

end RetimeSegment

open RetimeSegment (lo hi opening slope)

theorem checkSegments_seams {recordDuration : Duration} {sourceTimebase : Timebase}
    {segments : List RetimeSegment} {expectedStart : RationalTime}
    (h : checkSegments recordDuration sourceTimebase segments expectedStart = .ok ()) :
    segments.IsChain fun left right => law lo opening slope left left.hi = right.opening := by
  induction segments generalizing expectedStart with
  | nil => exact .nil
  | cons segment rest ih =>
      simp only [checkSegments, bind_eq_ok, rejectIf_eq_ok] at h
      obtain ⟨_, -, _, -, _, -, _, hseam, hrest⟩ := h
      cases rest with
      | nil => exact .singleton _
      | cons next rest =>
          simp only [List.head?_cons, checkSeam, bind_eq_ok, rejectIf_eq_ok, not_not,
            RationalTime.equiv_iff_seconds] at hseam
          obtain ⟨sourceEnd, hend, hequal⟩ := hseam
          refine List.isChain_cons_cons.2 ⟨?_, ih hrest⟩
          exact (RetimeSegment.sourceEnd_spec hend).symm.trans hequal

namespace ClipTimeMap

/-- The sections of a time map draw a continuous function. -/
theorem joined (map : ClipTimeMap) :
    Joined lo hi opening slope 0 map.segments map.recordDuration.seconds where
  tiles := map.tiles
  positive segment _ := segment.lo_lt_hi
  seams := checkSegments_seams map.checked

/-- No source instant is shown at two instants of the clip. -/
def PlaysOnce (map : ClipTimeMap) : Prop :=
  ∀ x y, 0 ≤ x → x < map.recordDuration.seconds → 0 ≤ y → y < map.recordDuration.seconds →
    map.sourcePosition x = map.sourcePosition y → x = y

theorem sourcePosition_of_on {map : ClipTimeMap} {x y : ℚ}
    (h : On lo hi opening slope map.segments x y) :
    0 ≤ x ∧ x < map.recordDuration.seconds ∧ map.sourcePosition x = y := by
  obtain ⟨segment, hmem, hcovers, rfl⟩ := h
  obtain ⟨hlow, hhigh⟩ := hcovers.mem_segment map.tiles hmem
  exact ⟨hlow, hhigh, sourcePosition_of_covers hmem hcovers⟩

/-- A single section that does not hold its sample shows nothing twice. -/
theorem playsOnce_of_single {map : ClipTimeMap} {segment : RetimeSegment}
    (hsegments : map.segments = [segment]) (hslope : segment.slope ≠ 0) : map.PlaysOnce := by
  have htiles := map.tiles
  rw [hsegments, tiles_singleton] at htiles
  have hposition : ∀ x, 0 ≤ x → x < map.recordDuration.seconds →
      map.sourcePosition x = segment.position x := by
    intro x hlow hhigh
    refine sourcePosition_of_covers (by rw [hsegments]; exact List.mem_singleton_self _) ⟨?_, ?_⟩
    · exact htiles.1.trans_le hlow
    · exact hhigh.trans_eq htiles.2.2.symm
  intro x y hxlow hxhigh hylow hyhigh heq
  rw [hposition x hxlow hxhigh, hposition y hylow hyhigh, RetimeSegment.position,
    RetimeSegment.position] at heq
  exact sub_left_injective (mul_left_cancel₀ hslope (add_left_cancel heq))

/-- A map that shows nothing twice plays forward in all its sections, or backward in all of them. -/
theorem PlaysOnce.one_sign {map : ClipTimeMap} (h : map.PlaysOnce) :
    (∀ segment ∈ map.segments, 0 < segment.slope) ∨ ∀ segment ∈ map.segments, segment.slope < 0 := by
  apply map.joined.one_sign
  intro x y w hx hy
  obtain ⟨hxlow, hxhigh, hxw⟩ := sourcePosition_of_on hx
  obtain ⟨hylow, hyhigh, hyw⟩ := sourcePosition_of_on hy
  exact h x y hxlow hxhigh hylow hyhigh (hxw.trans hyw.symm)

/-- Every exact query returns a value of the drawn function. -/
theorem sourceTimeAt_on {map : ClipTimeMap} {recordTime : RationalTime} {mapped : MappedSourceTime}
    (h : map.sourceTimeAt recordTime .exact = .ok mapped) :
    On lo hi opening slope map.segments recordTime.seconds mapped.time.seconds := by
  unfold sourceTimeAt at h
  simp only [bind_eq_ok, rejectIf_eq_ok, pure_eq_ok, Prod.exists] at h
  obtain ⟨complete, -, _, -, _, hcontains, time, isExact, hsegment, rfl⟩ := h
  refine ⟨_, List.get_mem map.segments ⟨map.segmentIndexAt recordTime,
    map.segmentIndexAt_lt recordTime⟩, TimeRange.contains_iff_seconds.1 (by simpa using hcontains), ?_⟩
  exact (RetimeSegment.sourceTimeAt_of_exact hsegment).2.symm

end ClipTimeMap

/-! ## The path of a clip -/

namespace Clip

/-- The path of a clip: the source coordinate of a record instant. -/
def path (clip : Clip) (recordTime : RationalTime) : Option RationalTime :=
  (clip.sourceTimeAt recordTime .exact).toOption.map MappedSourceTime.time

theorem path_eq_some {clip : Clip} {recordTime x : RationalTime} :
    clip.path recordTime = some x ↔
      ∃ mapped, clip.sourceTimeAt recordTime .exact = .ok mapped ∧ mapped.time = x := by
  unfold path
  cases clip.sourceTimeAt recordTime .exact <;> simp [Except.toOption]

/-- The path is the function of the time map, seen from the start of the clip. -/
theorem path_on {clip : Clip} {recordTime x : RationalTime} (h : clip.path recordTime = some x) :
    On lo hi opening slope clip.timeMap.segments
      (recordTime.seconds - clip.recordRange.start.seconds) x.seconds := by
  obtain ⟨mapped, hmapped, rfl⟩ := path_eq_some.1 h
  unfold sourceTimeAt at hmapped
  simp only [bind_eq_ok, rejectIf_eq_ok] at hmapped
  obtain ⟨_, -, localTime, hlocal, hmapped⟩ := hmapped
  obtain ⟨-, hseconds⟩ := RationalTime.checkedSubAt_spec hlocal
  rw [← hseconds]
  exact ClipTimeMap.sourceTimeAt_on hmapped

theorem path_forward {clip : Clip} (h : ∀ segment ∈ clip.timeMap.segments, 0 < segment.slope) :
    Forward clip.path := by
  intro t u x y ht hu
  have hiff := clip.timeMap.joined.le_iff_of_rising h (path_on ht) (path_on hu)
  rw [sub_le_sub_iff_right] at hiff
  exact RationalTime.le_iff_seconds.trans (hiff.trans RationalTime.le_iff_seconds.symm)

theorem path_backward {clip : Clip} (h : ∀ segment ∈ clip.timeMap.segments, segment.slope < 0) :
    Backward clip.path := by
  intro t u x y ht hu
  have hiff := clip.timeMap.joined.le_iff_of_falling h (path_on ht) (path_on hu)
  rw [sub_le_sub_iff_right] at hiff
  exact RationalTime.le_iff_seconds.trans (hiff.trans RationalTime.le_iff_seconds.symm)

/-- A clip that shows nothing twice plays forward or backward. -/
theorem path_directed {clip : Clip} (h : clip.timeMap.PlaysOnce) :
    Forward clip.path ∨ Backward clip.path :=
  h.one_sign.imp path_forward path_backward

end Clip

end Editorial
end Superi

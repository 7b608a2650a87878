import Superi.Timeline.EditOps
import Superi.Timeline.RetimeLaws

/-!
# EditLaws — what the item helpers do to record time and to content

Each helper is described once, on instants: where the item it returns starts and ends, whose
identity it carries, and what it shows.  `Piece old new id lo hi δ` says that `new` occupies
`[lo, hi)` under the identity `id` and shows at every instant what `old` showed `δ` earlier.
-/

namespace Superi
namespace Editorial

open Core Result Tiling

/-! ## What an item shows -/

/-- Everything of a timed item that is not identity, placement or timing. -/
inductive Payload
  | clip (name : String) (source : ClipSource)
  | gap (name : String)
  | generator (name kind : String) (parameters : Std.ExtTreeMap String String)
  | caption (name text : String) (language : Option String)
  deriving DecidableEq

def TimedItem.payload : TimedItem → Payload
  | .clip value => .clip value.name value.source
  | .gap value => .gap value.name
  | .generator value => .generator value.name value.kind value.parameters
  | .caption value => .caption value.name value.text value.language

/-- The source instant a clip plays at a record instant. -/
def Clip.positionAt (clip : Clip) (instant : ℚ) : ℚ :=
  clip.timeMap.sourcePosition (instant - clip.recordRange.start.seconds)

/-- The source instant the synchronized range map assigns to a record instant. -/
def Clip.selectedAt (clip : Clip) (instant : ℚ) : ℚ :=
  clip.sourceRange.start.seconds + (instant - clip.recordRange.start.seconds)

/-- Played and selected source instants of a clip; other items have no source. -/
def TimedItem.sourceAt (item : TimedItem) (instant : ℚ) : Option (ℚ × ℚ) :=
  match item with
  | .clip value => some (value.positionAt instant, value.selectedAt instant)
  | _ => none

/-- `new` shows at every instant it covers what `old` showed `shift` earlier. -/
structure Carries (shift : ℚ) (old new : TimedItem) : Prop where
  payload : new.payload = old.payload
  source : ∀ t, Covers TimedItem.lo TimedItem.hi t new →
    new.sourceAt t = old.sourceAt (t - shift)

/-! ## Texts and kinds depend on the payload only -/

theorem TimedItem.validateTexts_of_payload {old new : TimedItem} (h : new.payload = old.payload) :
    new.validateTexts = old.validateTexts := by
  cases old <;> cases new <;> simp_all [TimedItem.payload, TimedItem.validateTexts]

theorem TimedItem.isGap_of_payload {old new : TimedItem} (h : new.payload = old.payload) :
    new.isGap = old.isGap := by
  cases old <;> cases new <;> simp_all [TimedItem.payload, TimedItem.isGap]

theorem TimedItem.isEmpty_iff {item : TimedItem} :
    item.recordRange.isEmpty = false ↔ item.lo < item.hi :=
  TimeRange.start_lt_end_iff.symm

theorem TimedItem.duration_seconds (item : TimedItem) :
    item.recordRange.duration.seconds = item.hi - item.lo := by
  have h := item.recordRange.seconds_endExclusive
  rw [TimedItem.hi, TimedItem.lo]
  linarith

theorem TimedItem.duration_timebase (item : TimedItem) :
    item.recordRange.duration.timebase = item.recordRange.timebase :=
  TimeRange.duration_timebase _

/-- What an editing helper makes of an item. -/
structure Piece (old new : TimedItem) (id : EditorialObjectId) (lo hi shift : ℚ) : Prop where
  id : new.id = id
  clock : new.recordRange.timebase = old.recordRange.timebase
  lo : new.lo = lo
  hi : new.hi = hi
  carries : Carries shift old new

namespace Piece

variable {old new : TimedItem} {id : EditorialObjectId} {lo hi shift : ℚ}

theorem refl (item : TimedItem) : Piece item item item.id item.lo item.hi 0 where
  id := rfl
  clock := rfl
  lo := rfl
  hi := rfl
  carries := ⟨rfl, fun t _ => by rw [sub_zero]⟩

theorem isGap (h : Piece old new id lo hi shift) : new.isGap = old.isGap :=
  TimedItem.isGap_of_payload h.carries.payload

/-- A nonempty piece of a valid item is valid. -/
theorem valid {editRate : Timebase} (h : Piece old new id lo hi shift) (hold : old.Valid editRate)
    (hne : old.isGap = true ∨ lo < hi) : new.Valid editRate where
  texts := by rw [TimedItem.validateTexts_of_payload h.carries.payload, hold.texts]
  clock := h.clock.trans hold.clock
  nonempty := by
    rcases hne with hgap | hlt
    · exact .inl (h.isGap.trans hgap)
    · exact .inr (TimedItem.isEmpty_iff.2 (by rw [h.lo, h.hi]; exact hlt))

theorem covers_iff (h : Piece old new id lo hi shift) {t : ℚ} :
    Covers TimedItem.lo TimedItem.hi t new ↔ lo ≤ t ∧ t < hi := by
  rw [Covers, h.lo, h.hi]

theorem tiles (h : Piece old new id lo hi shift) : Tiles TimedItem.lo TimedItem.hi lo [new] hi :=
  tiles_singleton.2 ⟨h.lo, new.lo_le_hi, h.hi⟩

/-- Moving a piece moves its content. -/
theorem trans {newer : TimedItem} {id' : EditorialObjectId} {δ : ℚ}
    (h : Piece old new id lo hi shift) (h' : Piece new newer id' (lo + δ) (hi + δ) δ) :
    Piece old newer id' (lo + δ) (hi + δ) (shift + δ) where
  id := h'.id
  clock := h'.clock.trans h.clock
  lo := h'.lo
  hi := h'.hi
  carries := by
    refine ⟨h'.carries.payload.trans h.carries.payload, fun t ht => ?_⟩
    have hcov : Covers TimedItem.lo TimedItem.hi (t - δ) new := by
      rw [h'.covers_iff] at ht
      rw [h.covers_iff]
      exact ⟨by linarith [ht.1], by linarith [ht.2]⟩
    rw [h'.carries.source t ht, h.carries.source _ hcov]
    congr 1
    ring

end Piece

/-! ## Durations -/

theorem exactDurationAt_spec {duration result : Duration} {timebase : Timebase}
    {operation : String} (h : exactDurationAt duration timebase operation = .ok result) :
    result.seconds = duration.seconds ∧ result.timebase = timebase :=
  Duration.checkedRescale_spec (withErrorContext_eq_ok.1 h)

/-! ## Placement -/

theorem Clip.setRecordRange_spec {clip edited : Clip} {range : TimeRange}
    (h : clip.setRecordRange range = .ok edited) :
    edited.id = clip.id ∧ edited.name = clip.name ∧ edited.source = clip.source ∧
      edited.recordRange = range ∧ edited.sourceRange = clip.sourceRange ∧
      range.duration.seconds = clip.recordRange.duration.seconds ∧
      ∀ u, 0 ≤ u → u < range.duration.seconds →
        edited.timeMap.sourcePosition u = clip.timeMap.sourcePosition u := by
  unfold Clip.setRecordRange at h
  simp only [bind_eq_ok, pure_eq_ok] at h
  obtain ⟨ranges, -, timeMap, hmap, rfl⟩ := h
  refine ⟨rfl, rfl, rfl, ranges.2.2, ranges.2.1, ?_, fun u hlo hhi => ?_⟩
  · rw [ClipTimeMap.rescaleRecordClock_duration hmap, clip.bound.1]
    rfl
  · exact ClipTimeMap.rescaleRecordClock_sourcePosition hmap hlo hhi

/-- Placing an item on another range moves its content with its start. -/
theorem setRecordRange_spec {item placed : TimedItem} {range : TimeRange}
    (h : setRecordRange item range = .ok placed) :
    placed.recordRange = range ∧ placed.id = item.id ∧
      Carries (range.start.seconds - item.lo) item placed := by
  cases item with
  | clip value =>
      simp only [setRecordRange, bind_eq_ok, pure_eq_ok] at h
      obtain ⟨edited, hedit, rfl⟩ := h
      obtain ⟨hid, hname, hsource, hrange, hsrc, hdur, hpos⟩ := Clip.setRecordRange_spec hedit
      refine ⟨hrange, by simp [TimedItem.id, hid], by simp [TimedItem.payload, hname, hsource],
        fun t ht => ?_⟩
      have hlo : (TimedItem.clip edited).lo = range.start.seconds := by
        simp [TimedItem.lo, TimedItem.recordRange, hrange]
      have hhi : (TimedItem.clip edited).hi = range.start.seconds + range.duration.seconds := by
        rw [← TimeRange.seconds_endExclusive]
        simp [TimedItem.hi, TimedItem.recordRange, hrange]
      obtain ⟨ht₁, ht₂⟩ := ht
      rw [hlo] at ht₁
      rw [hhi] at ht₂
      have hu := hpos (t - range.start.seconds) (by linarith) (by linarith)
      have hshift : t - (range.start.seconds - (TimedItem.clip value).lo) -
          value.recordRange.start.seconds = t - range.start.seconds := by
        simp only [TimedItem.lo, TimedItem.recordRange]
        ring
      simp only [TimedItem.sourceAt, Clip.positionAt, Clip.selectedAt, hrange, hsrc, hshift, hu]
  | gap value =>
      simp only [setRecordRange, pure_eq_ok] at h
      subst h
      exact ⟨rfl, rfl, rfl, fun t _ => rfl⟩
  | generator value =>
      simp only [setRecordRange, pure_eq_ok] at h
      subst h
      exact ⟨rfl, rfl, rfl, fun t _ => rfl⟩
  | caption value =>
      simp only [setRecordRange, pure_eq_ok] at h
      subst h
      exact ⟨rfl, rfl, rfl, fun t _ => rfl⟩

/-- Moving an item without changing its duration. -/
theorem repositionItem_piece {item placed : TimedItem} {start : RationalTime} {range : TimeRange}
    (hrange : TimeRange.new start item.recordRange.duration = .ok range)
    (h : repositionItem item range = .ok placed) :
    Piece item placed item.id start.seconds (start.seconds + (item.hi - item.lo))
      (start.seconds - item.lo) := by
  obtain ⟨hs, hd⟩ := TimeRange.new_eq_ok.1 hrange
  obtain ⟨hplaced, hid, hcarries⟩ := setRecordRange_spec h
  refine ⟨hid, ?_, ?_, ?_, hs ▸ hcarries⟩
  · rw [hplaced, ← TimeRange.duration_timebase, hd, TimeRange.duration_timebase]
  · rw [TimedItem.lo, hplaced, hs]
  · rw [TimedItem.hi, hplaced, TimeRange.seconds_endExclusive, hs, hd, item.duration_seconds]

theorem shiftItemBy_piece {item shifted : TimedItem} {delta : RationalTime} {timebase : Timebase}
    (h : shiftItemBy item delta timebase = .ok shifted) :
    Piece item shifted item.id (item.lo + delta.seconds) (item.hi + delta.seconds)
      delta.seconds := by
  unfold shiftItemBy at h
  simp only [bind_eq_ok] at h
  obtain ⟨start, hstart, range, hrange, hplace⟩ := h
  obtain ⟨-, hsec⟩ := RationalTime.checkedAddAt_spec hstart
  have hlo : start.seconds = item.lo + delta.seconds := hsec
  have hpiece := repositionItem_piece hrange hplace
  rw [hlo] at hpiece
  convert hpiece using 1 <;> ring

theorem shiftItemRight_piece {item shifted : TimedItem} {duration : Duration}
    {timebase : Timebase} (h : shiftItemRight item duration timebase = .ok shifted) :
    Piece item shifted item.id (item.lo + duration.seconds) (item.hi + duration.seconds)
      duration.seconds :=
  shiftItemBy_piece h

theorem shiftItemLeft_piece {item shifted : TimedItem} {duration : Duration}
    {timebase : Timebase} (h : shiftItemLeft item duration timebase = .ok shifted) :
    Piece item shifted item.id (item.lo + -duration.seconds) (item.hi + -duration.seconds)
      (-duration.seconds) := by
  unfold shiftItemLeft at h
  simp only [bind_eq_ok] at h
  obtain ⟨start, hstart, range, hrange, hplace⟩ := h
  obtain ⟨-, hsec⟩ := RationalTime.checkedSubAt_spec hstart
  have hlo : start.seconds = item.lo + -duration.seconds := hsec.trans (sub_eq_add_neg _ _)
  have hpiece := repositionItem_piece hrange hplace
  rw [hlo] at hpiece
  convert hpiece using 1 <;> ring

/-! ## Slices -/

theorem cloneWithId_spec {item cloned : TimedItem} {id : EditorialObjectId} {operation : String}
    (h : cloneWithId item id operation = .ok cloned) :
    cloned.id = id ∧ cloned.recordRange = item.recordRange ∧ Carries 0 item cloned := by
  have hsub : ∀ t : ℚ, t - 0 = t := fun t => sub_zero t
  cases item <;> cases id <;> simp only [cloneWithId, pure_eq_ok, reduceCtorEq] at h <;>
    subst h <;> exact ⟨rfl, rfl, rfl, fun t _ => by rw [hsub]; rfl⟩

theorem Clip.sliceWithId_spec {clip sliced : Clip} {id : ClipId} {range : TimeRange}
    (h : clip.sliceWithId id range = .ok sliced) :
    sliced.id = id ∧ sliced.name = clip.name ∧ sliced.source = clip.source ∧
      sliced.recordRange = range ∧
      sliced.sourceRange.start.seconds = clip.sourceRange.start.seconds +
        (range.start.seconds - clip.recordRange.start.seconds) ∧
      ∀ u, 0 ≤ u → u < range.duration.seconds →
        sliced.timeMap.sourcePosition u = clip.timeMap.sourcePosition
          (u + (range.start.seconds - clip.recordRange.start.seconds)) := by
  unfold Clip.sliceWithId at h
  split at h
  · cases h
  · rename_i sourceRange hsource
    rw [bind_eq_ok] at h
    obtain ⟨localStart, hlocalStart, h⟩ := h
    split at h
    · cases h
    · rename_i localRange hlocal
      simp only [bind_eq_ok, pure_eq_ok] at h
      obtain ⟨timeMap, hmap, ranges, -, rfl⟩ := h
      obtain ⟨hls, hld⟩ := TimeRange.new_eq_ok.1 hlocal
      obtain ⟨-, hlsec⟩ := RationalTime.checkedSubAt_spec hlocalStart
      refine ⟨rfl, rfl, rfl, ranges.2.2, ?_, fun u hlo hhi => ?_⟩
      · unfold ClipRangeMap.recordRangeToSource mapClipSubrange at hsource
        simp only [bind_eq_ok] at hsource
        obtain ⟨_, -, start, hstart, stop, -, hrange⟩ := hsource
        have hstart' := (ClipRangeMap.mapClipEndpoint_spec hstart).2
        simp only [Clip.sourceRange, Clip.recordRange, ranges.2.1,
          (TimeRange.fromStartEnd_spec hrange).1, hstart']
      · have := ClipTimeMap.slice_sourcePosition hmap hlo (by rwa [hld])
        rw [hls, hlsec] at this
        exact this

/-- A slice keeps its part of the record range and everything the item showed there. -/
theorem sliceItem_piece {item sliced : TimedItem} {start stop : RationalTime}
    {id : EditorialObjectId} {operation : String}
    (h : sliceItem item start stop id operation = .ok sliced) :
    Piece item sliced id start.seconds stop.seconds 0 := by
  unfold sliceItem at h
  simp only [bind_eq_ok, rejectIf_eq_ok, not_or, not_not] at h
  obtain ⟨_, ⟨hstb, -⟩, newRange, hnew, h⟩ := h
  obtain ⟨hrs, hre⟩ := TimeRange.fromStartEnd_spec hnew
  have htb : newRange.timebase = item.recordRange.timebase := by
    rw [← TimeRange.start_timebase, hrs, hstb]
  -- everything follows from the new range and the content
  have finish : sliced.id = id → sliced.recordRange = newRange → Carries 0 item sliced →
      Piece item sliced id start.seconds stop.seconds 0 := fun hid hrange hcarries =>
    ⟨hid, by rw [hrange, htb], by rw [TimedItem.lo, hrange, hrs], by rw [TimedItem.hi, hrange, hre],
      hcarries⟩
  have other : (do
        let cloned ← cloneWithId item id operation
        setRecordRange cloned newRange) = Except.ok sliced → item.asClip = none →
      Piece item sliced id start.seconds stop.seconds 0 := by
    intro hother hclip
    rw [bind_eq_ok] at hother
    obtain ⟨cloned, hclone, hset⟩ := hother
    obtain ⟨hcid, -, hccarries⟩ := cloneWithId_spec hclone
    obtain ⟨hrange, hsid, hscarries⟩ := setRecordRange_spec hset
    have hpayload := hscarries.payload.trans hccarries.payload
    refine finish (hsid.trans hcid) hrange ⟨hpayload, fun t _ => ?_⟩
    cases item <;> cases sliced <;> simp_all [TimedItem.payload, TimedItem.sourceAt,
      TimedItem.asClip]
  cases item with
  | clip clip =>
      cases id with
      | clip clipId =>
          simp only [bind_eq_ok, pure_eq_ok] at h
          obtain ⟨edited, hslice, rfl⟩ := h
          obtain ⟨hid, hname, hsource, hrange, hsrc, hpos⟩ := Clip.sliceWithId_spec hslice
          refine finish (by simp [TimedItem.id, hid]) hrange
            ⟨by simp [TimedItem.payload, hname, hsource], fun t ht => ?_⟩
          obtain ⟨ht₁, ht₂⟩ := ht
          have hlo : (TimedItem.clip edited).lo = newRange.start.seconds := by
            simp [TimedItem.lo, TimedItem.recordRange, hrange]
          have hhi : (TimedItem.clip edited).hi =
              newRange.start.seconds + newRange.duration.seconds := by
            rw [← TimeRange.seconds_endExclusive]
            simp [TimedItem.hi, TimedItem.recordRange, hrange]
          rw [hlo] at ht₁
          rw [hhi] at ht₂
          have hu := hpos (t - newRange.start.seconds) (by linarith) (by linarith)
          have hplay : t - newRange.start.seconds +
              (newRange.start.seconds - clip.recordRange.start.seconds) =
              t - 0 - clip.recordRange.start.seconds := by ring
          rw [hplay] at hu
          simp only [TimedItem.sourceAt, Clip.positionAt, Clip.selectedAt, hrange, hsrc, hu,
            Option.some.injEq, Prod.mk.injEq, true_and]
          ring
      | gap _ => cases h
      | transition _ => cases h
      | generator _ => cases h
      | caption _ => cases h
  | gap value => exact other h rfl
  | generator value => exact other h rfl
  | caption value => exact other h rfl

/-! ## Trims -/

theorem Clip.setRanges_spec {clip edited : Clip} {sourceRange recordRange : TimeRange}
    (h : clip.setRanges sourceRange recordRange = .ok edited) :
    edited.id = clip.id ∧ edited.name = clip.name ∧ edited.source = clip.source ∧
      edited.recordRange = recordRange ∧ edited.sourceRange = sourceRange := by
  unfold Clip.setRanges at h
  rw [bind_eq_ok] at h
  obtain ⟨ranges, -, h⟩ := h
  split at h
  · simp only [bind_eq_ok, pure_eq_ok] at h
    obtain ⟨_, -, _, -, rfl⟩ := h
    exact ⟨rfl, rfl, rfl, ranges.2.2, ranges.2.1⟩
  · split at h
    · simp only [bind_eq_ok, pure_eq_ok] at h
      obtain ⟨_, -, rfl⟩ := h
      exact ⟨rfl, rfl, rfl, ranges.2.2, ranges.2.1⟩
    · cases h

/-- A trimmed item occupies exactly the range it was trimmed to, under its own identity. -/
theorem trimItem_spec {item trimmed : TimedItem} {newRange : TimeRange} {side : EditSide}
    {operation : String} (h : trimItem item newRange side operation = .ok trimmed) :
    trimmed.id = item.id ∧ trimmed.payload = item.payload ∧ trimmed.recordRange = newRange := by
  cases item with
  | clip clip =>
      simp only [trimItem, bind_eq_ok, pure_eq_ok] at h
      obtain ⟨_, -, _, -, _, -, edited, hset, rfl⟩ := h
      obtain ⟨hid, hname, hsource, hrange, -⟩ := Clip.setRanges_spec hset
      exact ⟨by simp [TimedItem.id, hid], by simp [TimedItem.payload, hname, hsource], hrange⟩
  | gap value =>
      obtain ⟨hrange, hid, hcarries⟩ :=
        setRecordRange_spec (show setRecordRange (.gap value) newRange = .ok trimmed from h)
      exact ⟨hid, hcarries.payload, hrange⟩
  | generator value =>
      obtain ⟨hrange, hid, hcarries⟩ :=
        setRecordRange_spec (show setRecordRange (.generator value) newRange = .ok trimmed from h)
      exact ⟨hid, hcarries.payload, hrange⟩
  | caption value =>
      obtain ⟨hrange, hid, hcarries⟩ :=
        setRecordRange_spec (show setRecordRange (.caption value) newRange = .ok trimmed from h)
      exact ⟨hid, hcarries.payload, hrange⟩

/-- An item with the payload of a valid one is valid on a nonempty range of the clock. -/
theorem TimedItem.Valid.of_payload {editRate : Timebase} {old new : TimedItem}
    (hold : old.Valid editRate) (hpayload : new.payload = old.payload)
    (hclock : new.recordRange.timebase = editRate) (hne : old.isGap = true ∨ new.lo < new.hi) :
    new.Valid editRate where
  texts := by rw [TimedItem.validateTexts_of_payload hpayload, hold.texts]
  clock := hclock
  nonempty := by
    rcases hne with hgap | hlt
    · exact .inl ((TimedItem.isGap_of_payload hpayload).trans hgap)
    · exact .inr (TimedItem.isEmpty_iff.2 hlt)

/-! ## Material -/

/-- Normalized material starts at the edit point, lasts as long as supplied, and keeps its
identity and content. -/
theorem normalizeMaterial_spec {material : TrackItem} {at' : RationalTime} {timebase : Timebase}
    {operation : String} {placed : TimedItem}
    (h : normalizeMaterial material at' timebase operation = .ok placed) :
    ∃ item, material = .timed item ∧ placed.id = item.id ∧
      placed.recordRange.start = at' ∧ placed.recordRange.timebase = timebase ∧
      placed.recordRange.duration.seconds = item.recordRange.duration.seconds ∧
      placed.lo < placed.hi ∧ Carries (at'.seconds - item.lo) item placed := by
  cases material with
  | transition _ => cases h
  | timed item =>
      simp only [normalizeMaterial, bind_eq_ok, rejectIf_eq_ok] at h
      obtain ⟨duration, hduration, _, hzero, range, hrange, hplace⟩ := h
      obtain ⟨hsec, htb⟩ := exactDurationAt_spec hduration
      obtain ⟨hrs, hrd⟩ := TimeRange.new_eq_ok.1 hrange
      obtain ⟨hplaced, hid, hcarries⟩ := setRecordRange_spec hplace
      refine ⟨item, rfl, hid, by rw [hplaced, hrs], ?_, by rw [hplaced, hrd, hsec], ?_,
        hrs ▸ hcarries⟩
      · rw [hplaced, ← TimeRange.duration_timebase, hrd, htb]
      · refine TimedItem.isEmpty_iff.1 ?_
        rw [hplaced, TimeRange.isEmpty, hrd]
        simpa using hzero

end Editorial
end Superi

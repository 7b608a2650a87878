import Superi.Timeline.Closure

/-!
# Material — no material is lost or displaced

Insert, overwrite, lift, extract and razor each replace one span of a track.  `Replacement` names
the span, the displacement of what lies behind it and what fills it; `Replacement.Realized` says on
instants what the new track must be.
-/

namespace Superi
namespace Editorial

open Core Result Tiling

/-! ## What an operation replaces -/

/-- The span `[start, stop)` of the old track makes room for `filler`, and everything from `stop`
on moves by `shift`. -/
structure Replacement where
  start : ℚ
  stop : ℚ
  shift : ℚ
  filler : Option TimedItem

/-- The operations that replace one span, and the span each of them replaces. -/
def EditOperation.replacement : EditOperation → Option Replacement
  | insert _ _ at' (.timed item) _ =>
      some ⟨at'.seconds, at'.seconds, item.recordRange.duration.seconds, some item⟩
  | overwrite _ _ at' (.timed item) _ =>
      some ⟨at'.seconds, at'.seconds + item.recordRange.duration.seconds, 0, some item⟩
  | lift _ _ range gap _ =>
      some ⟨range.start.seconds, range.endExclusive.seconds, 0,
        some (.gap { gap with recordRange := range })⟩
  | extract _ _ range _ =>
      some ⟨range.start.seconds, range.endExclusive.seconds, -range.duration.seconds, none⟩
  | razor _ _ _ at' _ => some ⟨at'.seconds, at'.seconds, 0, none⟩
  | _ => none

/-- `item` fills `[a, b)` of the track alone: it is there from end to end under its own identity,
showing its content from its own start on, and nothing else covers an instant of the span. -/
structure FilledBy (track : Track) (item : TimedItem) (a b : ℚ) : Prop where
  placed : ∃ placed ∈ timedItems track.items, placed.id = item.id ∧ placed.lo = a ∧
    placed.hi = b ∧ Carries (a - item.lo) item placed ∧
    ∀ other ∈ timedItems track.items, ∀ t, a ≤ t → t < b →
      Covers TimedItem.lo TimedItem.hi t other → other = placed

/-- The new track holds exactly the old instants outside the span and the filler. -/
structure Replacement.Realized (replacement : Replacement) (track track' : Track)
    (fragments : List EditFragment) : Prop where
  bounds : 0 ≤ replacement.start ∧ replacement.start ≤ replacement.stop ∧
    replacement.stop ≤ (trackEnd track).seconds
  trackEnd : (trackEnd track').seconds = (trackEnd track).seconds + replacement.shift
  covered : ∀ t, 0 ≤ t → t < (Editorial.trackEnd track).seconds →
    ∃ item ∈ timedItems track.items, Covers TimedItem.lo TimedItem.hi t item
  front : ∀ item ∈ timedItems track.items, ∀ t, Covers TimedItem.lo TimedItem.hi t item →
    t < replacement.start → ∃ heir ∈ timedItems track'.items, Continues fragments item t heir t
  back : ∀ item ∈ timedItems track.items, ∀ t, Covers TimedItem.lo TimedItem.hi t item →
    replacement.stop ≤ t →
      ∃ heir ∈ timedItems track'.items, Continues fragments item t heir (t + replacement.shift)
  filled : match replacement.filler with
    | some item => FilledBy track' item replacement.start (replacement.stop + replacement.shift)
    | none => replacement.stop + replacement.shift = replacement.start

/-! ## Each operation realizes its replacement -/

theorem FilledBy.of_placed {track : Track} {item placed : TimedItem} {a b stop : ℚ}
    (htiles : Tiles TimedItem.lo TimedItem.hi 0 (timedItems track.items) stop)
    (hmem : placed ∈ timedItems track.items) (hid : placed.id = item.id) (hlo : placed.lo = a)
    (hhi : placed.hi = b) (hcarries : Carries (a - item.lo) item placed) :
    FilledBy track item a b := by
  refine ⟨placed, hmem, hid, hlo, hhi, hcarries, fun other hother t ha hb hcov => ?_⟩
  exact htiles.covers_unique hother hmem hcov ⟨hlo ▸ ha, hhi ▸ hb⟩

/-- A span edit realizes its replacement once the filler is in place. -/
theorem SpanEdit.realized {track track' : Track} {fragments : List EditFragment}
    {replacement : Replacement}
    (h : SpanEdit track track' fragments replacement.start replacement.stop replacement.shift)
    (hfilled : ∀ stop, Tiles TimedItem.lo TimedItem.hi 0 (timedItems track'.items) stop →
      match replacement.filler with
      | some item => FilledBy track' item replacement.start (replacement.stop + replacement.shift)
      | none => replacement.stop + replacement.shift = replacement.start) :
    replacement.Realized track track' fragments := by
  obtain ⟨stop, htiles, htiles', hstart, hspan, hstop⟩ := h.ends
  have hend := trackEnd_seconds htiles
  exact {
    bounds := ⟨hstart, hspan, hend ▸ hstop⟩
    trackEnd := by rw [trackEnd_seconds htiles', hend]
    covered := fun t hlo hhi => htiles.exists_covers hlo (hend ▸ hhi)
    front := h.carried.front
    back := h.carried.back
    filled := hfilled _ htiles' }

theorem applyInsert_realized {track track' : Track} {timelineId : TimelineId} {trackId : TrackId}
    {at' : RationalTime} {material : TrackItem} {fragmentIds : List EditorialObjectId}
    {outcome : EditOutcome} (hsound : track.Sound)
    (h : applyInsert track timelineId trackId at' material fragmentIds = .ok (track', outcome)) :
    ∃ item, material = .timed item ∧
      Replacement.Realized ⟨at'.seconds, at'.seconds, item.recordRange.duration.seconds, some item⟩
        track track' outcome.fragments := by
  obtain ⟨placed, hmem, hfills, -, hspan, -⟩ := applyInsert_spanEdit hsound h
  obtain ⟨item, rfl, hid, hduration, hcarries⟩ := hfills.supplied
  rw [hduration] at hspan
  refine ⟨item, rfl, hspan.realized fun stop htiles => ?_⟩
  exact .of_placed htiles hmem hid hfills.lo (by rw [hfills.hi, hduration]) hcarries

theorem applyOverwrite_realized {track track' : Track} {timelineId : TimelineId}
    {trackId : TrackId} {at' : RationalTime} {material : TrackItem}
    {fragmentIds : List EditorialObjectId} {outcome : EditOutcome} (hsound : track.Sound)
    (h : applyOverwrite track timelineId trackId at' material fragmentIds = .ok (track', outcome)) :
    ∃ item, material = .timed item ∧
      Replacement.Realized ⟨at'.seconds, at'.seconds + item.recordRange.duration.seconds, 0,
        some item⟩ track track' outcome.fragments := by
  obtain ⟨placed, hmem, hfills, hspan, -⟩ := applyOverwrite_spanEdit hsound h
  obtain ⟨item, rfl, hid, hduration, hcarries⟩ := hfills.supplied
  rw [hduration] at hspan
  refine ⟨item, rfl, hspan.realized fun stop htiles => ?_⟩
  exact .of_placed htiles hmem hid hfills.lo (by rw [hfills.hi, hduration, add_zero]) hcarries

theorem applyLift_realized {track track' : Track} {timelineId : TimelineId} {trackId : TrackId}
    {range : TimeRange} {gap : Gap} {fragmentIds : List EditorialObjectId} {outcome : EditOutcome}
    (hsound : track.Sound)
    (h : applyLift track timelineId trackId range gap fragmentIds = .ok (track', outcome)) :
    Replacement.Realized ⟨range.start.seconds, range.endExclusive.seconds, 0,
      some (.gap { gap with recordRange := range })⟩ track track' outcome.fragments := by
  obtain ⟨hmem, hspan, -⟩ := applyLift_spanEdit hsound h
  refine SpanEdit.realized hspan fun stop htiles => ?_
  refine .of_placed htiles hmem rfl rfl (add_zero _).symm ⟨rfl, fun t _ => ?_⟩
  rfl

/-- A successful insert, overwrite, lift, extract or razor of a valid track loses and displaces
nothing: every old instant outside the replaced span is shown at its place by the item that showed
it or a fragment of that item, the filler alone covers the span, and the track ends where it
should. -/
theorem edits_keep_material (operation : EditOperation)
    (hkind : operation.kind ∈ [EditKind.insert, .overwrite, .lift, .extract, .razor])
    (edit : Track → Except Error TrackEdit) (hedit : operation.onTrack = some edit)
    (track track' : Track) (outcome : EditOutcome) (claimed claimed' : Finset EditorialObjectId)
    (hvalid : validateTrack track claimed = .ok claimed')
    (h : edit track = .ok (track', outcome)) :
    ∃ replacement, operation.replacement = some replacement ∧
      replacement.Realized track track' outcome.fragments := by
  obtain ⟨hwell, hids, -⟩ := validateTrack_eq_ok_iff.1 hvalid
  have hsound : track.Sound := ⟨hwell, hids⟩
  cases operation with
  | insert =>
      cases hedit
      obtain ⟨item, rfl, hrealized⟩ := applyInsert_realized hsound h
      exact ⟨_, rfl, hrealized⟩
  | overwrite =>
      cases hedit
      obtain ⟨item, rfl, hrealized⟩ := applyOverwrite_realized hsound h
      exact ⟨_, rfl, hrealized⟩
  | lift =>
      cases hedit
      exact ⟨_, rfl, applyLift_realized hsound h⟩
  | extract =>
      cases hedit
      refine ⟨_, rfl, SpanEdit.realized (applyExtract_spanEdit hsound h).2.1 fun _ _ => ?_⟩
      simp only [TimeRange.seconds_endExclusive]
      ring
  | razor =>
      cases hedit
      exact ⟨_, rfl, SpanEdit.realized (applyRazor_spanEdit hsound h).1 fun _ _ => add_zero _⟩
  | _ => simp [EditOperation.kind] at hkind

/-- Extract the middle of the slate. -/
theorem edits_keep_material_slate :
    ∃ track' outcome, applyExtract slateTrack ⟨1⟩ ⟨1⟩ (filmRange 3 4 (by decide)) [.gap ⟨2⟩] =
        .ok (track', outcome) ∧
      (trackEnd track').seconds = (trackEnd slateTrack).seconds +
        -(filmRange 3 4 (by decide)).duration.seconds := by
  obtain ⟨⟨track', outcome⟩, hedit⟩ := exists_ok_of_isSome (x := applyExtract slateTrack ⟨1⟩ ⟨1⟩
    (filmRange 3 4 (by decide)) [.gap ⟨2⟩]) (by decide)
  obtain ⟨replacement, hreplacement, hrealized⟩ := edits_keep_material
    (.extract ⟨1⟩ ⟨1⟩ (filmRange 3 4 (by decide)) [.gap ⟨2⟩]) (by decide) _ rfl slateTrack track'
    outcome ∅ {.gap ⟨1⟩} (by decide) hedit
  cases hreplacement
  exact ⟨track', outcome, hedit, hrealized.trackEnd⟩

end Editorial
end Superi

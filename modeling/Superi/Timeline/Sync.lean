import Superi.Timeline.Closure

/-!
# Sync — a ripple keeps sync-locked tracks aligned

A synchronized ripple trims one item of its target track and moves what follows; each sync-locked
companion opens or closes the same stretch of time at the old end of that item.  The two paths use
different clocks and different edits, and agree on instants.
-/

namespace Superi
namespace Editorial

open Core Result Tiling Sequence

/-! ## One companion -/

/-- What a ripple with pivot `pivot` and signed change `change` makes of a companion track. -/
structure RippledBy (track track' : Track) (fragments : List EditFragment) (pivot change : ℚ) :
    Prop where
  trackEnd : (trackEnd track').seconds = (trackEnd track).seconds + change
  before : ∀ item ∈ timedItems track.items, ∀ t, Covers TimedItem.lo TimedItem.hi t item →
    t < min pivot (pivot + change) →
      ∃ heir ∈ timedItems track'.items, Continues fragments item t heir t
  after : ∀ item ∈ timedItems track.items, ∀ t, Covers TimedItem.lo TimedItem.hi t item →
    pivot ≤ t → ∃ heir ∈ timedItems track'.items, Continues fragments item t heir (t + change)
  clock : ∃ units : ℤ, change = units * track.timebase.unit

theorem SpanEdit.rippledBy {track track' : Track} {fragments : List EditFragment}
    {a b pivot change : ℚ} (h : SpanEdit track track' fragments a b change) (units : ℤ)
    (ha : a = min pivot (pivot + change)) (hb : b = pivot)
    (hclock : change = units * track.timebase.unit) :
    RippledBy track track' fragments pivot change := by
  obtain ⟨stop, htiles, htiles', -⟩ := h.ends
  subst ha hb
  exact {
    trackEnd := by rw [trackEnd_seconds htiles, trackEnd_seconds htiles']
    before := h.carried.front
    after := h.carried.back
    clock := ⟨units, hclock⟩ }

/-- The signed change a magnitude and a direction stand for. -/
def signedChange (magnitude : Duration) (extending : Bool) : ℚ :=
  if extending then magnitude.seconds else -magnitude.seconds

theorem rippleChange_spec {change : TrackDurationChange} {magnitude : Duration} {extending : Bool}
    (h : rippleChange change = .ok (magnitude, extending)) :
    change.seconds = signedChange magnitude extending := by
  cases change with
  | unchanged => cases h
  | extended duration => cases h; rfl
  | shortened duration => cases h; rfl

/-- A companion inserts a gap at the pivot or extracts the stretch before it; on instants both are
the displacement of the target. -/
theorem rippleCompanion_spec {timelineId : TimelineId} {pivot : RationalTime}
    {magnitude : Duration} {extending : Bool} {companion companion' : Track}
    {adjustment : RippleSyncAdjustment} {outcome : EditOutcome} (hsound : companion.Sound)
    (h : rippleCompanion timelineId pivot magnitude extending companion adjustment =
      .ok (companion', outcome)) :
    RippledBy companion companion' outcome.fragments pivot.seconds
      (signedChange magnitude extending) := by
  simp only [rippleCompanion, bind_eq_ok] at h
  obtain ⟨companionPivot, hpivot, companionDuration, hduration, h⟩ := h
  obtain ⟨hpivot, -⟩ := RationalTime.checkedRescale_spec hpivot
  obtain ⟨hduration, hclock⟩ := exactDurationAt_spec hduration
  have hunits := companionDuration.seconds_eq_units
  rw [hclock, hduration] at hunits
  have hnonneg := magnitude.seconds_nonneg
  cases extending with
  | true =>
      simp only [if_true, bind_eq_ok] at h
      obtain ⟨recordRange, hrange, hinsert⟩ := h
      obtain ⟨-, hlength⟩ := TimeRange.new_eq_ok.1 hrange
      obtain ⟨placed, -, hfills, -, hspan, -⟩ := applyInsert_spanEdit hsound hinsert
      obtain ⟨item, hitem, -, hplaced, -⟩ := hfills.supplied
      cases hitem
      have hshift : placed.recordRange.duration.seconds = signedChange magnitude true := by
        rw [hplaced, TimedItem.recordRange, hlength, hduration, signedChange, if_pos rfl]
      rw [hshift, hpivot] at hspan
      refine hspan.rippledBy _ (min_eq_left ?_).symm rfl hunits
      exact le_add_of_nonneg_right hnonneg
  | false =>
      simp only [Bool.false_eq_true, if_false, bind_eq_ok] at h
      obtain ⟨start, hstart, range, hrange, hextract⟩ := h
      obtain ⟨-, hstart⟩ := RationalTime.checkedSubAt_spec hstart
      obtain ⟨hrs, hrd⟩ := TimeRange.new_eq_ok.1 hrange
      have hspan := (applyExtract_spanEdit hsound hextract).2.1
      have hshift : -range.duration.seconds = signedChange magnitude false := by
        rw [hrd, hduration]
        rfl
      have hlo : range.start.seconds = pivot.seconds + signedChange magnitude false := by
        rw [hrs, hstart, hpivot, ← hshift, hrd]
        exact sub_eq_add_neg _ _
      rw [hshift] at hspan
      refine hspan.rippledBy (-companionDuration.value) ?_ ?_ ?_
      · rw [hlo, min_eq_right]
        have : signedChange magnitude false = -magnitude.seconds := rfl
        linarith
      · rw [TimeRange.seconds_endExclusive, hlo, ← hshift]
        ring
      · rw [signedChange, if_neg Bool.false_ne_true, hunits]
        push_cast
        ring

theorem rippleCompanion_id {timelineId : TimelineId} {pivot : RationalTime}
    {magnitude : Duration} {extending : Bool} {companion companion' : Track}
    {adjustment : RippleSyncAdjustment} {outcome : EditOutcome}
    (h : rippleCompanion timelineId pivot magnitude extending companion adjustment =
      .ok (companion', outcome)) : companion'.id = companion.id := by
  simp only [rippleCompanion, bind_eq_ok] at h
  obtain ⟨_, -, _, -, h⟩ := h
  split at h
  · rw [bind_eq_ok] at h
    obtain ⟨_, -, hinsert⟩ := h
    rw [applyInsert_replaceItems hinsert, Track.replaceItems]
  · simp only [bind_eq_ok] at h
    obtain ⟨_, -, _, -, hextract⟩ := h
    rw [applyExtract_replaceItems hextract, Track.replaceItems]

/-! ## The companions of a timeline -/

/-- Whether a track follows ripples of the other tracks. -/
def Timeline.syncLocked (timeline : Timeline) (track : Track) : Bool :=
  ((timeline.editState.trackState track.id).map TrackEditState.syncLocked).getD false

/-- Storing a changed track changes the track of that identity and no other. -/
theorem Timeline.setTrack_forall₂ {timeline : Timeline} {trackId : TrackId} {track track' : Track}
    (hids : (timeline.tracks.map Track.id).Nodup) (hfind : timeline.trackMut trackId = .ok track)
    (hid : track'.id = track.id) :
    List.Forall₂ (fun old new => new.id = old.id ∧ (old.id = trackId → old = track ∧ new = track') ∧
      (old.id ≠ trackId → new = old)) timeline.tracks (timeline.setTrack track').tracks := by
  obtain ⟨before, after, hsplit, htrack, hstore⟩ := Timeline.trackMut_eq_ok hfind
  rw [hstore track' (hid.trans htrack), hsplit]
  refine forall₂_exchange ⟨hid, fun _ => ⟨rfl, rfl⟩, fun hne => absurd htrack hne⟩ ?_
  intro other hother
  refine ⟨rfl, fun heq => ?_, fun _ => rfl⟩
  rw [hsplit, List.map_append, List.map_cons, List.nodup_middle, ← List.map_append, htrack,
    ← heq] at hids
  exact absurd (List.mem_map_of_mem hother) (List.nodup_cons.1 hids).1

/-- What the companion loop makes of one track: exactly one adjustment names it and is applied to
it once, or none does and it stays. -/
structure AdjustedOnce (edit : Track → RippleSyncAdjustment → Except Error TrackEdit)
    (adjustments : List RippleSyncAdjustment) (track track' : Track) : Prop where
  id : track'.id = track.id
  untouched : track.id ∉ adjustments.map RippleSyncAdjustment.trackId → track' = track
  adjusted : ∀ adjustment ∈ adjustments, adjustment.trackId = track.id →
    ∃ outcome, edit track adjustment = .ok (track', outcome)

/-- The companion loop changes every named track once and no other, by induction on the
adjustments: a track named now is not named again. -/
theorem rippleCompanions_adjust {timelineId : TimelineId} {pivot : RationalTime}
    {magnitude : Duration} {extending : Bool} {adjustments : List RippleSyncAdjustment} :
    ∀ {state state' : Timeline × List EditFragment}, (state.1.tracks.map Track.id).Nodup →
      (adjustments.map RippleSyncAdjustment.trackId).Nodup →
      adjustments.foldlM (rippleCompanionStep timelineId pivot magnitude extending) state =
        .ok state' →
      List.Forall₂ (AdjustedOnce (rippleCompanion timelineId pivot magnitude extending)
        adjustments) state.1.tracks state'.1.tracks := by
  induction adjustments with
  | nil =>
      intro state state' _ _ h
      rw [List.foldlM_nil, pure_eq_ok] at h
      subst h
      exact List.forall₂_same.2 fun track _ => ⟨rfl, fun _ => rfl, by simp⟩
  | cons adjustment rest ih =>
      intro state state' hids hnodup h
      rw [List.map_cons, List.nodup_cons] at hnodup
      simp only [List.foldlM_cons, bind_eq_ok, rippleCompanionStep, pure_eq_ok, Prod.exists,
        Prod.mk.injEq] at h
      obtain ⟨_, _, ⟨companion, hfind, companion', outcome, hcompanion, rfl, rfl⟩, hrest⟩ := h
      have hstep := Timeline.setTrack_forall₂ hids hfind (rippleCompanion_id hcompanion)
      have hids' : (state.1.setTrack companion').tracks.map Track.id =
          state.1.tracks.map Track.id :=
        map_eq_of_forall₂ (hstep.imp fun _ _ h => h.1)
      refine (forall₂_trans hstep (@ih (state.1.setTrack companion', _) _
        (hids' ▸ hids) hnodup.2 hrest)).imp ?_
      rintro track track' ⟨next, ⟨hid, hnamed, hother⟩, hid', huntouched, hadjusted⟩
      refine ⟨hid'.trans hid, fun hnot => ?_, fun named hmem hname => ?_⟩
      · rw [List.map_cons, List.mem_cons, not_or] at hnot
        rw [huntouched (hid ▸ hnot.2), hother hnot.1]
      · rcases List.mem_cons.1 hmem with rfl | hrestMem
        · obtain ⟨rfl, rfl⟩ := hnamed hname.symm
          rw [huntouched (by rw [hid, ← hname]; exact hnodup.1)]
          exact ⟨outcome, hcompanion⟩
        · have hne : track.id ≠ adjustment.trackId := fun heq =>
            hnodup.1 (List.mem_map.2 ⟨named, hrestMem, hname.trans heq⟩)
          obtain rfl := hother hne
          exact hadjusted named hrestMem hname

/-! ## The ripple -/

/-- What a synchronized ripple of the track `trackId` makes of one track of the timeline. -/
structure KeptInSync (timeline : Timeline) (trackId : TrackId)
    (edit : Track → RippleSyncAdjustment → Except Error TrackEdit)
    (adjustments : List RippleSyncAdjustment) (pivot change : ℚ) (track track' : Track) :
    Prop where
  id : track'.id = track.id
  target : track.id = trackId → (trackEnd track').seconds = (trackEnd track).seconds + change
  companion : track.id ≠ trackId → timeline.syncLocked track = true →
    ∃ adjustment ∈ adjustments, adjustment.trackId = track.id ∧
      (∀ other ∈ adjustments, other.trackId = track.id → other = adjustment) ∧
      ∃ outcome, edit track adjustment = .ok (track', outcome) ∧
        RippledBy track track' outcome.fragments pivot change
  bystander : track.id ≠ trackId → timeline.syncLocked track = false → track' = track

/-- The sync-locked tracks other than the target, in timeline order. -/
def Timeline.companionIds (timeline : Timeline) (trackId : TrackId) : List TrackId :=
  (timeline.tracks.map Track.id).filter fun id => decide (id ≠ trackId) &&
    ((timeline.editState.trackState id).map TrackEditState.syncLocked).getD false

theorem companionIds_nodup {timeline : Timeline} (trackId : TrackId)
    (h : (timeline.tracks.map Track.id).Nodup) : (timeline.companionIds trackId).Nodup :=
  h.filter _

theorem mem_companionIds_iff {timeline : Timeline} {trackId : TrackId} {track : Track}
    (hmem : track ∈ timeline.tracks) :
    track.id ∈ timeline.companionIds trackId ↔
      track.id ≠ trackId ∧ timeline.syncLocked track = true := by
  have hid := List.mem_map_of_mem (f := Track.id) hmem
  simp [Timeline.companionIds, Timeline.syncLocked, List.mem_filter, -List.mem_map, hid]

/-- The affected tracks without the explicit one are the companions. -/
theorem tracksAffectedBySync_companions {timeline : Timeline} {trackId : TrackId}
    {affected : List TrackId} (h : timeline.tracksAffectedBySync [trackId] = .ok affected) :
    affected.filter (fun candidate => candidate ≠ trackId) = timeline.companionIds trackId := by
  simp only [Timeline.tracksAffectedBySync, bind_eq_ok, pure_eq_ok] at h
  obtain ⟨_, -, rfl⟩ := h
  rw [Timeline.companionIds, List.filter_map, List.filter_map, List.filter_filter]
  congr 1
  refine List.filter_congr fun track _ => ?_
  by_cases hid : track.id = trackId <;> simp [hid]

theorem applySynchronizedRipple_keepsInSync {timeline timeline' : Timeline}
    {timelineId : TimelineId} {trackId : TrackId} {targetId : EditorialObjectId} {side : EditSide}
    {to' : RationalTime} {adjustments : List RippleSyncAdjustment} {outcome : EditOutcome}
    (hsound : timeline.TracksSound)
    (h : applySynchronizedRipple timeline timelineId trackId targetId side to' adjustments =
      .ok (timeline', outcome)) :
    ∃ target item magnitude extending, timeline.track trackId = some target ∧
      target.item targetId = some (.timed item) ∧
      outcome.durationChange.seconds = signedChange magnitude extending ∧
      adjustments.map RippleSyncAdjustment.trackId = timeline.companionIds trackId ∧
      outcome.synchronizedTracks = timeline.companionIds trackId ∧
      List.Forall₂ (KeptInSync timeline trackId
        (rippleCompanion timelineId item.recordRange.endExclusive magnitude extending) adjustments
        item.hi (signedChange magnitude extending)) timeline.tracks timeline'.tracks := by
  simp only [applySynchronizedRipple, bind_eq_ok, pure_eq_ok, Prod.exists, Prod.mk.injEq,
    okOr_eq_ok, rejectIf_eq_ok, not_not, Option.bind_eq_some_iff] at h
  obtain ⟨_, -, affected, haffected, _, hexpected, range, ⟨object, ⟨target, htarget, hobject⟩,
    hrange⟩, found, hfind, target', rippleOutcome, hripple, magnitude, extending, hchange, rippled,
    fragments, hcompanions, final, hinherit, rfl, rfl⟩ := h
  rw [tracksAffectedBySync_companions haffected] at hexpected ⊢
  have hfound : found = target := by
    rw [Timeline.trackMut, okOr_eq_ok, htarget] at hfind
    exact (Option.some.inj hfind).symm
  subst hfound
  cases object with
  | transition _ => cases hrange
  | timed item =>
      cases hrange
      have hmem : found ∈ timeline.tracks := List.mem_of_find?_eq_some htarget
      obtain ⟨hevolves, htiles'⟩ := applyRipple_evolves (hsound.sound found hmem) hripple
      have hsigned := rippleChange_spec hchange
      refine ⟨found, item, magnitude, extending, htarget, hobject, hsigned, hexpected, rfl, ?_⟩
      have hstep := Timeline.setTrack_forall₂ hsound.trackIds hfind hevolves.id
      have hids' : (timeline.setTrack target').tracks.map Track.id =
          timeline.tracks.map Track.id := map_eq_of_forall₂ (hstep.imp fun _ _ h => h.1)
      have hnodup := companionIds_nodup trackId hsound.trackIds
      have hids'' : ((timeline.setTrack target', ([] : List EditFragment)).1.tracks.map
          Track.id).Nodup := hids' ▸ hsound.trackIds
      have hrun := rippleCompanions_adjust hids'' (hexpected ▸ hnodup) hcompanions
      rw [(inheritFragmentIntent_sameTracks hinherit).tracks]
      have hall := (List.forall₂_and_left _ _).2 ⟨fun track hmem => hmem, forall₂_trans hstep hrun⟩
      refine hall.imp ?_
      rintro track track' ⟨htrack, next, ⟨hid, hnamed, hother⟩, hadjusted⟩
      have hsoundTrack := hsound.sound track htrack
      refine ⟨hadjusted.id.trans hid, fun heq => ?_, fun hne hlocked => ?_, fun hne hunlocked => ?_⟩
      · obtain ⟨rfl, rfl⟩ := hnamed heq
        obtain ⟨stop, htiles⟩ := hsoundTrack.timed.tiles
        have hlast : track' = next := hadjusted.untouched (by
          rw [hexpected, hid, mem_companionIds_iff htrack]
          exact fun hcomp => hcomp.1 heq)
        rw [hlast, trackEnd_seconds htiles, trackEnd_seconds (htiles' stop htiles), hsigned]
      · obtain rfl := hother hne
        have hcomp := (mem_companionIds_iff htrack).2 ⟨hne, hlocked⟩
        rw [← hexpected] at hcomp
        obtain ⟨adjustment, hadjustment, hname⟩ := List.mem_map.1 hcomp
        obtain ⟨companionOutcome, hedit⟩ := hadjusted.adjusted adjustment hadjustment hname
        refine ⟨adjustment, hadjustment, hname, fun other hother hotherName => ?_,
          companionOutcome, hedit, rippleCompanion_spec hsoundTrack hedit⟩
        exact List.inj_on_of_nodup_map (hexpected ▸ hnodup) hother hadjustment
          (hotherName.trans hname.symm)
      · obtain rfl := hother hne
        refine hadjusted.untouched ?_
        rw [hexpected, mem_companionIds_iff htrack, hunlocked]
        simp

/-! ## Alignment -/

/-- A successful ripple of a valid timeline moves every sync-locked companion by the change of the
target track: exactly once, from the old end of the target item on, on the clock of the companion.
Other tracks stay as they are. -/
theorem ripple_keeps_sync (operation : EditOperation) (hsync : operation.synchronized = true)
    (timeline timeline' : Timeline) (outcome : EditOutcome)
    (claimed claimed' : EditorialProject.Claimed)
    (hvalid : EditorialProject.validateTimeline claimed timeline = .ok claimed')
    (h : applyToTimeline timeline operation = .ok (timeline', outcome)) :
    ∃ target targetId item magnitude extending,
      timeline.track operation.trackId = some target ∧ operation.rippleTarget = some targetId ∧
      target.item targetId = some (.timed item) ∧
      outcome.durationChange.seconds = signedChange magnitude extending ∧
      operation.adjustments.map RippleSyncAdjustment.trackId =
        timeline.companionIds operation.trackId ∧
      outcome.synchronizedTracks = timeline.companionIds operation.trackId ∧
      (timeline.companionIds operation.trackId).Nodup ∧
      List.Forall₂ (KeptInSync timeline operation.trackId
        (rippleCompanion operation.timelineId item.recordRange.endExclusive magnitude extending)
        operation.adjustments item.hi outcome.durationChange.seconds)
        timeline.tracks timeline'.tracks := by
  have hsound := EditorialProject.tracksSound_of_validateTimeline hvalid
  obtain ⟨targetId, side, to', rippled, rippleOutcome, htarget, hripple, hsame, hchange, hsyncs⟩ :=
    applyToTimeline_synchronized hsync h
  obtain ⟨target, item, magnitude, extending, htrack, hitem, hsigned, hnames, hreported, hrun⟩ :=
    applySynchronizedRipple_keepsInSync hsound hripple
  refine ⟨target, targetId, item, magnitude, extending, htrack, htarget, hitem,
    hchange ▸ hsigned, hnames, hsyncs ▸ hreported, companionIds_nodup _ hsound.trackIds, ?_⟩
  rw [hsame.tracks, hchange, hsigned]
  exact hrun

/-! ### An instance -/

/-- A companion of the slate on a clock of 48 units a second. -/
def followTrack : Track where
  id := ⟨2⟩
  name := "V2"
  semantics := .video (Timebase.integer 48 (by decide) (by decide)) .over
  items := [.timed (.gap {
    id := ⟨2⟩, name := "follow"
    recordRange := {
      start := ⟨0, Timebase.integer 48 (by decide) (by decide), inI64_zero⟩
      duration := ⟨30, Timebase.integer 48 (by decide) (by decide), by decide⟩
      oneTimebase := rfl
      endFits := by decide } })]

def slatePair : Timeline :=
  .new ⟨1⟩ "Pair" filmClock (RationalTime.zero filmClock) [slateTrack, followTrack]

/-- Let the slate end two frames later. -/
def slateRipple : EditOperation :=
  .ripple ⟨1⟩ ⟨1⟩ (.gap ⟨1⟩) .stop ⟨12, filmClock, by decide⟩ [⟨⟨2⟩, ⟨3⟩, [.gap ⟨4⟩]⟩]

theorem ripple_keeps_sync_slate :
    ∃ timeline' outcome, applyToTimeline slatePair slateRipple = .ok (timeline', outcome) ∧
      outcome.synchronizedTracks = [⟨2⟩] := by
  obtain ⟨claimed, hvalid⟩ := exists_ok_of_isSome
    (x := EditorialProject.validateTimeline ⟨∅, ∅, ∅⟩ slatePair) (by decide)
  obtain ⟨⟨timeline', outcome⟩, hripple⟩ := exists_ok_of_isSome
    (x := applyToTimeline slatePair slateRipple) (by decide)
  obtain ⟨_, _, _, _, _, -, -, -, -, -, hsynced, -⟩ := ripple_keeps_sync slateRipple rfl slatePair
    timeline' outcome _ claimed hvalid hripple
  exact ⟨timeline', outcome, hripple, hsynced.trans (by decide)⟩

end Editorial
end Superi

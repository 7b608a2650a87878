import Superi.Timeline.EditCut

/-!
# EditSpans — inserting, replacing and removing a span of a track

The three shapes a cut track is closed up again: material fills the hole in place, material is
inserted at a point, or the hole is closed.  For each of them the module gives the exact new end of
the track, the item that fills the hole, and the new home of every old instant.
-/

namespace Superi
namespace Editorial

open Core Result Tiling Sequence

/-! ## Ends and order on instants -/

theorem tiles_getLast {items : List TimedItem} {start stop : ℚ}
    (h : Tiles TimedItem.lo TimedItem.hi start items stop) :
    stop = match items.getLast? with
      | some item => item.hi
      | none => start := by
  induction items generalizing start with
  | nil => exact (Eq.symm h)
  | cons item rest ih =>
      have := ih h.2.2
      cases rest with
      | nil => exact this
      | cons next rest =>
          rw [List.getLast?_cons_cons]
          cases hlast : (next :: rest).getLast? with
          | none => simp at hlast
          | some last => rwa [hlast] at this

/-- `track_end` is where the tiling of a sound track stops. -/
theorem trackEnd_seconds {track : Track} {stop : ℚ}
    (h : Tiles TimedItem.lo TimedItem.hi 0 (timedItems track.items) stop) :
    (trackEnd track).seconds = stop := by
  rw [tiles_getLast h, trackEnd]
  cases (timedItems track.items).getLast? with
  | none => simp
  | some item => rfl

/-- Items that use the record clock of their track. -/
def OnClock (editRate : Timebase) (items : List TimedItem) : Prop :=
  ∀ item ∈ items, item.recordRange.timebase = editRate

theorem OnClock.append {editRate : Timebase} {left right : List TimedItem}
    (hleft : OnClock editRate left) (hright : OnClock editRate right) :
    OnClock editRate (left ++ right) := fun item hmem =>
  (List.mem_append.1 hmem).elim (hleft item) (hright item)

/-- On one clock the sort key orders items as their starts do. -/
theorem start_value_le_iff {editRate : Timebase} {left right : TimedItem}
    (hleft : left.recordRange.timebase = editRate)
    (hright : right.recordRange.timebase = editRate) :
    left.recordRange.start.value ≤ right.recordRange.start.value ↔ left.lo ≤ right.lo :=
  RationalTime.value_le_iff_seconds (hleft.trans hright.symm)

theorem sortTimed_sorted {editRate : Timebase} {items : List TimedItem} {start stop : ℚ}
    (hclock : OnClock editRate items)
    (h : Tiles TimedItem.lo TimedItem.hi start items stop) : sortTimed items = items := by
  have hsorted : items.Pairwise fun left right =>
      left.recordRange.start.value ≤ right.recordRange.start.value :=
    h.pairwise_lo.imp_of_mem fun hl hr hle =>
      (start_value_le_iff (hclock _ hl) (hclock _ hr)).2 hle
  exact hsorted.insertionSort_eq

theorem sortTimed_splice {editRate : Timebase} {front back : List TimedItem} {filler : TimedItem}
    {start a b stop : ℚ} (hclock : OnClock editRate (front ++ back ++ [filler]))
    (hfront : Tiles TimedItem.lo TimedItem.hi start front a)
    (hback : Tiles TimedItem.lo TimedItem.hi b back stop) (hlo : filler.lo = a) (hab : a < b) :
    sortTimed (front ++ back ++ [filler]) = front ++ filler :: back := by
  have key : ∀ {left right : TimedItem}, left ∈ front ++ back ++ [filler] →
      right ∈ front ++ back ++ [filler] → (left.recordRange.start.value ≤
        right.recordRange.start.value ↔ left.lo ≤ right.lo) :=
    fun hl hr => start_value_le_iff (hclock _ hl) (hclock _ hr)
  refine insertionSort_splice (fun item => item.recordRange.start.value) filler front back ?_ ?_ ?_
  · refine List.pairwise_append.2 ⟨?_, List.pairwise_singleton _ _, ?_⟩
    · exact hfront.pairwise_lo.imp_of_mem fun hl hr hle => (key (by simp [hl]) (by simp [hr])).2 hle
    · intro item hitem other hother
      have : other = filler := by simpa using hother
      subst this
      refine (key (by simp [hitem]) (by simp)).2 ?_
      obtain ⟨-, hle, hhi⟩ := hfront.mem_bounds hitem
      rw [hlo]
      exact hle.trans hhi
  · exact hback.pairwise_lo.imp_of_mem fun hl hr hle => (key (by simp [hl]) (by simp [hr])).2 hle
  · intro item hitem
    refine not_le.1 fun hle => ?_
    have := (key (by simp [hitem]) (by simp)).1 hle
    have hge := (hback.mem_bounds hitem).1
    linarith

/-! ## Old instants in the new list -/

/-- Instants before `a` keep their place, instants from `b` on move by `shift`; each is taken over
by the old item itself or by a reported fragment of it, showing the same thing. -/
structure Carried (fragments : List EditFragment) (a b shift : ℚ) (old new : List TimedItem) :
    Prop where
  front : ∀ item ∈ old, ∀ t, Covers TimedItem.lo TimedItem.hi t item → t < a →
    ∃ heir ∈ new, Continues fragments item t heir t
  back : ∀ item ∈ old, ∀ t, Covers TimedItem.lo TimedItem.hi t item → b ≤ t →
    ∃ heir ∈ new, Continues fragments item t heir (t + shift)

namespace CutRun

variable {a b shift : ℚ} {items pieces : List TimedItem} {used : List EditorialObjectId}
  {created : List EditFragment} {editRate : Timebase} {stop : ℚ}

theorem onClock (h : CutRun a b shift items pieces used created)
    (hitems : ∀ item ∈ items, item.Valid editRate) : OnClock editRate pieces := fun piece hmem =>
  (h.valid hitems piece hmem).clock

theorem carried (h : CutRun a b shift items pieces used created) (hab : a ≤ b)
    {new : List TimedItem} (hsub : ∀ piece ∈ pieces, piece ∈ new) :
    Carried created a b shift items new where
  front := fun _ hitem _ ht hta =>
    let ⟨heir, hmem, hheir⟩ := (h.continues hab hitem ht).1 hta
    ⟨heir, hsub heir hmem, hheir⟩
  back := fun _ hitem _ ht hb =>
    let ⟨heir, hmem, hheir⟩ := (h.continues hab hitem ht).2 hb
    ⟨heir, hsub heir hmem, hheir⟩

/-- The pieces of a cut track: a tiling up to the hole and one of the moved rest. -/
theorem parts (h : CutRun a b shift items pieces used created) (hab : a ≤ b) (ha : 0 ≤ a)
    (hb : b ≤ stop) (htiles : Tiles TimedItem.lo TimedItem.hi 0 items stop) :
    ∃ front back, pieces = front ++ back ∧ Tiles TimedItem.lo TimedItem.hi 0 front a ∧
      Tiles TimedItem.lo TimedItem.hi (b + shift) back (stop + shift) := by
  obtain ⟨front, back, hsplit, hfront, hback, -⟩ := (h.cutAll hab).split htiles
  rw [min_eq_left ha, min_eq_right (hab.trans hb)] at hfront
  rw [max_eq_right (ha.trans hab), max_eq_left hb] at hback
  exact ⟨front, back, hsplit, hfront, hback⟩

/-- Filling the hole: the sorted result tiles the track with the filler in the hole. -/
theorem fill (h : CutRun a b shift items pieces used created) (hab : a ≤ b) (ha : 0 ≤ a)
    (hb : b ≤ stop) (hitems : ∀ item ∈ items, item.Valid editRate)
    (htiles : Tiles TimedItem.lo TimedItem.hi 0 items stop) {filler : TimedItem}
    (hfiller : filler.recordRange.timebase = editRate) (hlo : filler.lo = a)
    (hhi : filler.hi = b + shift) (hlt : a < b + shift) :
    Tiles TimedItem.lo TimedItem.hi 0 (sortTimed (pieces ++ [filler])) (stop + shift) ∧
      (sortTimed (pieces ++ [filler])).Perm (pieces ++ [filler]) := by
  obtain ⟨front, back, rfl, hfront, hback⟩ := h.parts hab ha hb htiles
  have hclock : OnClock editRate (front ++ back ++ [filler]) :=
    (h.onClock hitems).append (by simpa [OnClock] using hfiller)
  refine ⟨?_, List.perm_insertionSort _ _⟩
  rw [sortTimed_splice hclock hfront hback hlo hlt]
  exact hfront.append ⟨hlo, hlo ▸ hhi ▸ hlt.le, hhi ▸ hback⟩

/-- Closing the hole: the pieces already tile the shortened track. -/
theorem close (h : CutRun a b shift items pieces used created) (hab : a ≤ b) (ha : 0 ≤ a)
    (hb : b ≤ stop) (hitems : ∀ item ∈ items, item.Valid editRate)
    (htiles : Tiles TimedItem.lo TimedItem.hi 0 items stop) (hclose : b + shift = a) :
    sortTimed pieces = pieces ∧ Tiles TimedItem.lo TimedItem.hi 0 pieces (stop + shift) := by
  obtain ⟨front, back, rfl, hfront, hback⟩ := h.parts hab ha hb htiles
  rw [hclose] at hback
  have htiles' := hfront.append hback
  exact ⟨sortTimed_sorted (h.onClock hitems) htiles', htiles'⟩

end CutRun

/-! ## The operations -/

/-- What a finished edit reports. -/
theorem finishEdit_report {track track' : Track} {timelineId : TimelineId} {trackId : TrackId}
    {kind : EditKind} {timed : List TimedItem} {report : Except Error EditReport}
    {outcome : EditOutcome}
    (h : finishEdit track timelineId trackId kind timed report = .ok (track', outcome)) :
    ∃ r, report = .ok r ∧ outcome.fragments = r.fragments ∧
      outcome.durationChange = r.durationChange ∧ outcome.insertedIds = r.insertedIds ∧
      outcome.removedIds = r.removedIds := by
  unfold finishEdit at h
  simp only [bind_eq_ok, pure_eq_ok, Prod.exists, Prod.mk.injEq] at h
  obtain ⟨_, _, -, r, hr, -, rfl⟩ := h
  exact ⟨r, hr, rfl, rfl, rfl, rfl⟩

theorem validateEditRange_spec {track : Track} {range : TimeRange} {operation : String} {u : Unit}
    {stop : ℚ} (htiles : Tiles TimedItem.lo TimedItem.hi 0 (timedItems track.items) stop)
    (h : validateEditRange track range operation = .ok u) :
    range.timebase = track.timebase ∧ range.isEmpty = false ∧ 0 ≤ range.start.seconds ∧
      range.endExclusive.seconds ≤ stop := by
  unfold validateEditRange at h
  simp only [bind_eq_ok, rejectIf_eq_ok, not_or, not_not] at h
  obtain ⟨_, hclock, _, hne, hneg, hend⟩ := h
  refine ⟨hclock, by simpa using hne, ?_, ?_⟩
  · rw [RationalTime.isNegative_iff_seconds] at hneg
    exact not_lt.1 hneg
  · rw [RationalTime.lt_iff_seconds, trackEnd_seconds htiles] at hend
    exact not_lt.1 hend

/-- Identities the caller supplies for one edit of `track`: new to the track and distinct. -/
structure FreshFor (track : Track) (supplied : List EditorialObjectId) : Prop where
  nodup : supplied.Nodup
  fresh : ∀ id ∈ supplied, id ∉ track.objectIds

theorem FreshFor.timed {track : Track} {supplied : List EditorialObjectId}
    (h : FreshFor track supplied) :
    ∀ id ∈ supplied, id ∉ (timedItems track.items).map TimedItem.id := fun id hid hmem =>
  h.fresh id hid (mem_objectIds_iff.2 (.inl hmem))

theorem mem_objectIds_of_timed {track : Track} {id : EditorialObjectId}
    (h : id ∈ (timedItems track.items).map TimedItem.id) : id ∈ track.objectIds :=
  mem_objectIds_iff.2 (.inl h)

/-- Where supplied material ends up: under its own identity, in `[a, b)`, showing its content
from its own start on. -/
structure Fills (material : TrackItem) (a b : ℚ) (placed : TimedItem) : Prop where
  supplied : ∃ item, material = .timed item ∧ placed.id = item.id ∧
    placed.recordRange.duration.seconds = item.recordRange.duration.seconds ∧
    Carries (a - item.lo) item placed
  lo : placed.lo = a
  hi : placed.hi = b

theorem normalizeMaterial_fills {material : TrackItem} {at' : RationalTime} {timebase : Timebase}
    {operation : String} {placed : TimedItem}
    (h : normalizeMaterial material at' timebase operation = .ok placed) :
    Fills material at'.seconds (at'.seconds + placed.recordRange.duration.seconds) placed := by
  obtain ⟨item, hitem, hid, hstart, -, hduration, -, hcarries⟩ := normalizeMaterial_spec h
  have hlo : placed.lo = at'.seconds := by rw [TimedItem.lo, hstart]
  refine ⟨⟨item, hitem, hid, hduration, hcarries⟩, hlo, ?_⟩
  rw [placed.duration_seconds, hlo]
  ring

/-- The text checks of supplied material. -/
def TrackItem.Named : TrackItem → Prop
  | .timed item => item.validateTexts = .ok ()
  | .transition _ => True

theorem normalizeMaterial_clock {material : TrackItem} {at' : RationalTime} {timebase : Timebase}
    {operation : String} {placed : TimedItem}
    (h : normalizeMaterial material at' timebase operation = .ok placed) :
    placed.recordRange.timebase = timebase := by
  obtain ⟨_, -, -, -, hclock, -⟩ := normalizeMaterial_spec h
  exact hclock

theorem normalizeMaterial_valid {material : TrackItem} {at' : RationalTime} {timebase : Timebase}
    {operation : String} {placed : TimedItem} (hnamed : material.Named)
    (h : normalizeMaterial material at' timebase operation = .ok placed) :
    placed.Valid timebase := by
  obtain ⟨item, rfl, -, -, hclock, -, hlt, hcarries⟩ := normalizeMaterial_spec h
  exact ⟨by rw [TimedItem.validateTexts_of_payload hcarries.payload]; exact hnamed, hclock,
    .inr (TimedItem.isEmpty_iff.2 hlt)⟩

/-- The identity of timed material. -/
def TrackItem.suppliedId : TrackItem → List EditorialObjectId
  | .timed item => [item.id]
  | .transition _ => []

theorem Fills.suppliedId {material : TrackItem} {a b : ℚ} {placed : TimedItem}
    (h : Fills material a b placed) : material.suppliedId = [placed.id] := by
  obtain ⟨item, rfl, hid, -⟩ := h.supplied
  rw [TrackItem.suppliedId, hid]

/-- A span edit: the new track ends where it should, and carries every old instant outside the
span. -/
structure SpanEdit (track track' : Track) (fragments : List EditFragment) (a b shift : ℚ) :
    Prop where
  ends : ∃ stop, Tiles TimedItem.lo TimedItem.hi 0 (timedItems track.items) stop ∧
    Tiles TimedItem.lo TimedItem.hi 0 (timedItems track'.items) (stop + shift) ∧
    0 ≤ a ∧ a ≤ b ∧ b ≤ stop
  carried : Carried fragments a b shift (timedItems track.items) (timedItems track'.items)

section SpanEdit

variable {track track' : Track} {timelineId : TimelineId} {trackId : TrackId} {kind : EditKind}
  {timed : List TimedItem} {report : Except Error EditReport} {outcome : EditOutcome}
  {a b shift : ℚ} {pieces : List TimedItem} (filler : List TimedItem)
  {used : List EditorialObjectId} {created : List EditFragment} {stop : ℚ}

/-- A finished edit whose timed list is a filled or closed cut is a span edit. -/
theorem CutRun.spanEdit (hsound : track.Sound)
    (hrun : CutRun a b shift (timedItems track.items) pieces used created)
    (hab : a ≤ b) (ha : 0 ≤ a) (hb : b ≤ stop)
    (htiles : Tiles TimedItem.lo TimedItem.hi 0 (timedItems track.items) stop)
    (hnew : Tiles TimedItem.lo TimedItem.hi 0 timed (stop + shift))
    (hperm : timed.Perm (pieces ++ filler)) (hfiller : OnClock track.timebase filler)
    (hreport : ∀ r, report = .ok r → r.fragments = created)
    (h : finishEdit track timelineId trackId kind timed report = .ok (track', outcome)) :
    SpanEdit track track' outcome.fragments a b shift ∧ timedItems track'.items = timed := by
  have hclock : OnClock track.timebase timed := fun item hmem =>
    (hrun.onClock hsound.timed.valid).append hfiller item (hperm.mem_iff.1 hmem)
  have htimed := finishEdit_timed hsound hclock h
  obtain ⟨r, hr, hfragments, -⟩ := finishEdit_report h
  refine ⟨⟨⟨stop, htiles, htimed ▸ hnew, ha, hab, hb⟩, ?_⟩, htimed⟩
  rw [hfragments, hreport r hr, htimed]
  exact hrun.carried hab fun piece hpiece => hperm.mem_iff.2 (List.mem_append_left _ hpiece)

/-- With distinct new identities and valid material the new track is sound again. -/
theorem CutRun.evolves (hsound : track.Sound)
    (hrun : CutRun a b shift (timedItems track.items) pieces used created)
    (hnew : Tiles TimedItem.lo TimedItem.hi 0 timed (stop + shift))
    (hperm : timed.Perm (pieces ++ filler))
    (hfiller : ∀ item ∈ filler, item.Valid track.timebase)
    (hfresh : FreshFor track (filler.map TimedItem.id ++ used))
    (h : finishEdit track timelineId trackId kind timed report = .ok (track', outcome)) :
    Evolves track track' (filler.map TimedItem.id ++ used) := by
  have hold := hsound.timed
  obtain ⟨hfillerNodup, husedNodup, hdisj⟩ := List.nodup_append.1 hfresh.nodup
  have hpieces := hrun.ids_nodup hold.nodup husedNodup fun id hid =>
    hfresh.timed id (List.mem_append_right _ hid)
  have hmem : ∀ item ∈ timed, item ∈ pieces ∨ item ∈ filler := fun item hitem =>
    List.mem_append.1 (hperm.mem_iff.1 hitem)
  have hvalid : ∀ item ∈ timed, item.Valid track.timebase := fun item hitem =>
    (hmem item hitem).elim (hrun.valid hold.valid item) (hfiller item)
  have hnodup : (timed.map TimedItem.id).Nodup := by
    rw [(hperm.map TimedItem.id).nodup_iff, List.map_append]
    refine List.nodup_append.2 ⟨hpieces, hfillerNodup, fun x hx y hy hxy => ?_⟩
    subst hxy
    obtain ⟨piece, hpiece, rfl⟩ := List.mem_map.1 hx
    rcases hrun.ids_subset piece hpiece with hid | hid
    · exact hfresh.timed _ (List.mem_append_left _ hy) hid
    · exact hdisj _ hy _ hid rfl
  refine (finishEdit_evolves hsound ⟨hvalid, ⟨_, hnew⟩, hnodup⟩ (fun item hitem => ?_) h).1
  rcases hmem item hitem with hpiece | hfill
  · exact (hrun.ids_subset item hpiece).imp mem_objectIds_of_timed (List.mem_append_right _)
  · exact .inr (List.mem_append_left _ (List.mem_map_of_mem hfill))

end SpanEdit

theorem applyInsert_spanEdit {track track' : Track} {timelineId : TimelineId} {trackId : TrackId}
    {at' : RationalTime} {material : TrackItem} {fragmentIds : List EditorialObjectId}
    {outcome : EditOutcome} (hsound : track.Sound)
    (h : applyInsert track timelineId trackId at' material fragmentIds = .ok (track', outcome)) :
    ∃ placed ∈ timedItems track'.items,
      Fills material at'.seconds (at'.seconds + placed.recordRange.duration.seconds) placed ∧
      outcome.durationChange = .extended placed.recordRange.duration ∧
      SpanEdit track track' outcome.fragments at'.seconds at'.seconds
        placed.recordRange.duration.seconds ∧
      (material.Named → FreshFor track (material.suppliedId ++ fragmentIds) →
        Evolves track track' (material.suppliedId ++ fragmentIds)) := by
  unfold applyInsert at h
  simp only [bind_eq_ok, rejectIf_eq_ok, not_or] at h
  obtain ⟨_, -, _, ⟨hneg, hend⟩, placed, hplaced, affectedRange, -, scan, hscan, _, hfinish, h⟩ := h
  have hold := hsound.timed
  obtain ⟨stop, htiles⟩ := hold.tiles
  rw [RationalTime.isNegative_iff_seconds, not_lt] at hneg
  rw [RationalTime.lt_iff_seconds, trackEnd_seconds htiles, not_lt] at hend
  obtain ⟨pieces, used, created, hrun, hout, hused, hcreated⟩ :=
    (insertStep_cuts at' placed.recordRange.duration track.timebase).run hscan
  have hfills := normalizeMaterial_fills hplaced
  have hlt : at'.seconds < at'.seconds + placed.recordRange.duration.seconds := by
    have := (normalizeMaterial_spec hplaced).choose_spec.2.2.2.2.2.1
    rwa [hfills.lo, hfills.hi] at this
  have hclock : placed.recordRange.timebase = track.timebase := normalizeMaterial_clock hplaced
  simp only [EditScan.start, List.nil_append] at hout hused hcreated
  rw [finishFragments_eq_ok.1 hfinish, List.append_nil] at hused
  obtain ⟨hnew, hperm⟩ := hrun.fill le_rfl hneg hend hold.valid htiles hclock hfills.lo hfills.hi hlt
  rw [hout] at h
  obtain ⟨hspan, htimed⟩ := hrun.spanEdit [placed] hsound le_rfl hneg hend htiles hnew
    hperm (by simpa [OnClock] using hclock) (fun r hr => by rw [← pure_eq_ok.1 hr, hcreated]) h
  obtain ⟨r, hr, -, hchange, -⟩ := finishEdit_report h
  refine ⟨placed, ?_, hfills, by rw [hchange, ← pure_eq_ok.1 hr], hspan, fun hnamed hfresh => ?_⟩
  · rw [htimed]
    exact hperm.mem_iff.2 (by simp)
  · rw [hfills.suppliedId, hused] at hfresh ⊢
    exact hrun.evolves [placed] hsound hnew hperm
      (by simpa using normalizeMaterial_valid hnamed hplaced) hfresh h

theorem applyInsert_replaceItems {track track' : Track} {timelineId : TimelineId}
    {trackId : TrackId} {at' : RationalTime} {material : TrackItem}
    {fragmentIds : List EditorialObjectId} {outcome : EditOutcome}
    (h : applyInsert track timelineId trackId at' material fragmentIds = .ok (track', outcome)) :
    track' = track.replaceItems track'.items := by
  simp only [applyInsert, bind_eq_ok] at h
  obtain ⟨_, -, _, -, _, -, _, -, _, -, _, -, h⟩ := h
  exact finishEdit_replaceItems h

theorem applyExtract_replaceItems {track track' : Track} {timelineId : TimelineId}
    {trackId : TrackId} {range : TimeRange} {fragmentIds : List EditorialObjectId}
    {outcome : EditOutcome}
    (h : applyExtract track timelineId trackId range fragmentIds = .ok (track', outcome)) :
    track' = track.replaceItems track'.items := by
  simp only [applyExtract, applyRangeReplacement, bind_eq_ok] at h
  obtain ⟨_, -, _, -, _, -, h⟩ := h
  exact finishEdit_replaceItems h

theorem applyRangeReplacement_fill {track track' : Track} {timelineId : TimelineId}
    {trackId : TrackId} {kind : EditKind} {range : TimeRange} {fragmentIds : List EditorialObjectId}
    {change : TrackDurationChange} {outcome : EditOutcome} {operation : String} {u : Unit}
    (placed : TimedItem) (hsound : track.Sound)
    (hclock : placed.recordRange.timebase = track.timebase)
    (hlo : placed.lo = range.start.seconds) (hhi : placed.hi = range.endExclusive.seconds)
    (hrange : validateEditRange track range operation = .ok u)
    (h : applyRangeReplacement track timelineId trackId kind range (some placed) fragmentIds false
      change = .ok (track', outcome)) :
    placed ∈ timedItems track'.items ∧
      SpanEdit track track' outcome.fragments range.start.seconds range.endExclusive.seconds 0 ∧
      (placed.Valid track.timebase → FreshFor track (placed.id :: fragmentIds) →
        Evolves track track' (placed.id :: fragmentIds)) := by
  have hold := hsound.timed
  obtain ⟨stop, htiles⟩ := hold.tiles
  obtain ⟨-, hne, hstart, hend⟩ := validateEditRange_spec htiles hrange
  have hab := TimeRange.start_lt_end_iff.2 hne
  unfold applyRangeReplacement at h
  simp only [bind_eq_ok] at h
  obtain ⟨scan, hscan, _, hfinish, h⟩ := h
  obtain ⟨pieces, used, created, hrun, hout, hused, hcreated⟩ :=
    (replacementStep_cuts range false track.timebase kind.code hne).run hscan
  simp only [EditScan.start, List.nil_append] at hout hused hcreated
  simp only [closingShift, Bool.false_eq_true, if_false] at hrun
  rw [finishFragments_eq_ok.1 hfinish, List.append_nil] at hused
  obtain ⟨hnew, hperm⟩ := hrun.fill hab.le hstart hend hold.valid htiles hclock hlo
    (by rw [hhi, add_zero]) (by rwa [add_zero])
  rw [hout] at h
  obtain ⟨hspan, htimed⟩ := hrun.spanEdit [placed] hsound hab.le hstart hend htiles hnew
    hperm (by simpa [OnClock] using hclock) (fun r hr => by rw [← pure_eq_ok.1 hr, hcreated]) h
  refine ⟨?_, hspan, fun hvalid hfresh => ?_⟩
  · rw [htimed]
    exact hperm.mem_iff.2 (by simp)
  · rw [hused] at hfresh ⊢
    exact hrun.evolves [placed] hsound hnew hperm (by simpa using hvalid) hfresh h

theorem applyOverwrite_spanEdit {track track' : Track} {timelineId : TimelineId}
    {trackId : TrackId} {at' : RationalTime} {material : TrackItem}
    {fragmentIds : List EditorialObjectId} {outcome : EditOutcome} (hsound : track.Sound)
    (h : applyOverwrite track timelineId trackId at' material fragmentIds = .ok (track', outcome)) :
    ∃ placed ∈ timedItems track'.items,
      Fills material at'.seconds (at'.seconds + placed.recordRange.duration.seconds) placed ∧
      SpanEdit track track' outcome.fragments at'.seconds
        (at'.seconds + placed.recordRange.duration.seconds) 0 ∧
      (material.Named → FreshFor track (material.suppliedId ++ fragmentIds) →
        Evolves track track' (material.suppliedId ++ fragmentIds)) := by
  unfold applyOverwrite at h
  simp only [bind_eq_ok] at h
  obtain ⟨_, -, placed, hplaced, range, hrange, _, hvalidate, h⟩ := h
  have hfills := normalizeMaterial_fills hplaced
  obtain ⟨hrs, hrd⟩ := TimeRange.new_eq_ok.1 hrange
  have hend : range.endExclusive.seconds =
      at'.seconds + placed.recordRange.duration.seconds := by
    rw [TimeRange.seconds_endExclusive, hrs, hrd]
  obtain ⟨hmem, hspan, hevolves⟩ := applyRangeReplacement_fill _ hsound
    (normalizeMaterial_clock hplaced) (by rw [hfills.lo, hrs]) (by rw [hfills.hi, hend]) hvalidate h
  rw [hend, hrs] at hspan
  refine ⟨placed, hmem, hfills, hspan, fun hnamed hfresh => ?_⟩
  rw [hfills.suppliedId] at hfresh ⊢
  exact hevolves (normalizeMaterial_valid hnamed hplaced) hfresh

theorem applyLift_spanEdit {track track' : Track} {timelineId : TimelineId} {trackId : TrackId}
    {range : TimeRange} {gap : Gap} {fragmentIds : List EditorialObjectId} {outcome : EditOutcome}
    (hsound : track.Sound)
    (h : applyLift track timelineId trackId range gap fragmentIds = .ok (track', outcome)) :
    .gap { gap with recordRange := range } ∈ timedItems track'.items ∧
      SpanEdit track track' outcome.fragments range.start.seconds range.endExclusive.seconds 0 ∧
      (isBlank gap.name = false → FreshFor track (.gap gap.id :: fragmentIds) →
        Evolves track track' (.gap gap.id :: fragmentIds)) := by
  unfold applyLift at h
  simp only [bind_eq_ok] at h
  obtain ⟨_, hvalidate, _, -, h⟩ := h
  obtain ⟨_, htiles⟩ := hsound.timed.tiles
  have hclock := (validateEditRange_spec htiles hvalidate).1
  obtain ⟨hmem, hspan, hevolves⟩ := applyRangeReplacement_fill
    (.gap { gap with recordRange := range }) hsound hclock rfl rfl hvalidate h
  exact ⟨hmem, hspan, fun hnamed => hevolves ⟨requireText_eq_ok.2 hnamed, hclock, .inl rfl⟩⟩

theorem applyExtract_spanEdit {track track' : Track} {timelineId : TimelineId} {trackId : TrackId}
    {range : TimeRange} {fragmentIds : List EditorialObjectId} {outcome : EditOutcome}
    (hsound : track.Sound)
    (h : applyExtract track timelineId trackId range fragmentIds = .ok (track', outcome)) :
    outcome.durationChange = .shortened range.duration ∧
      SpanEdit track track' outcome.fragments range.start.seconds range.endExclusive.seconds
        (-range.duration.seconds) ∧
      (FreshFor track fragmentIds → Evolves track track' fragmentIds) := by
  unfold applyExtract applyRangeReplacement at h
  simp only [bind_eq_ok] at h
  obtain ⟨_, hvalidate, scan, hscan, _, hfinish, h⟩ := h
  have hold := hsound.timed
  obtain ⟨stop, htiles⟩ := hold.tiles
  obtain ⟨hclock, hne, hstart, hend⟩ := validateEditRange_spec htiles hvalidate
  have hab := TimeRange.start_lt_end_iff.2 hne
  obtain ⟨pieces, used, created, hrun, hout, hused, hcreated⟩ :=
    (replacementStep_cuts range true track.timebase _ hne).run hscan
  simp only [EditScan.start, List.nil_append] at hout hused hcreated
  simp only [closingShift, if_true] at hrun
  rw [finishFragments_eq_ok.1 hfinish, List.append_nil] at hused
  obtain ⟨hsort, hnew⟩ := hrun.close hab.le hstart hend hold.valid htiles
    (by rw [TimeRange.seconds_endExclusive]; ring)
  rw [hout, Option.toList_none, List.append_nil, hsort] at h
  obtain ⟨hspan, -⟩ := hrun.spanEdit [] hsound hab.le hstart hend htiles hnew
    (by simp) (by simp [OnClock]) (fun r hr => by rw [← pure_eq_ok.1 hr, hcreated]) h
  obtain ⟨r, hr, -, hchange, -⟩ := finishEdit_report h
  refine ⟨by rw [hchange, ← pure_eq_ok.1 hr], hspan, fun hfresh => ?_⟩
  rw [hused] at hfresh ⊢
  exact hrun.evolves [] hsound hnew (by simp) (by simp) hfresh h

end Editorial
end Superi

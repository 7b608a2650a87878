import Superi.Timeline.EditSpans

/-!
# EditLocal — edits around one or a few neighbouring items

Replace, ripple, roll, slide, razor and trim rewrite a short run of neighbours and leave what
lies before it alone; a ripple also moves everything behind it.  `finishEdit_splice` is the common
rule.  Slip and retime change a clip where it stands and touch no other item.
-/

namespace Superi
namespace Editorial

open Core Result Tiling Sequence

/-! ## Replacing a run of neighbours -/

/-- The items behind the run, moved as a whole. -/
abbrev Moved (shift : ℚ) (old new : List TimedItem) : Prop :=
  List.Forall₂ (fun a b => Piece a b a.id (a.lo + shift) (a.hi + shift) shift) old new

theorem Moved.refl (items : List TimedItem) : Moved 0 items items :=
  List.forall₂_same.2 fun item _ => by
    have := Piece.refl item
    rwa [← add_zero item.lo, ← add_zero item.hi] at this

theorem Moved.ids {shift : ℚ} {old new : List TimedItem} (h : Moved shift old new) :
    new.map TimedItem.id = old.map TimedItem.id := by
  induction h with
  | nil => rfl
  | cons hab _ ih => simp [hab.id, ih]

theorem Moved.valid {shift : ℚ} {editRate : Timebase} {old new : List TimedItem}
    (h : Moved shift old new) (hold : ∀ item ∈ old, item.Valid editRate) :
    ∀ item ∈ new, item.Valid editRate := by
  induction h with
  | nil => exact fun _ hmem => (List.not_mem_nil hmem).elim
  | @cons a b _ _ hab _ ih =>
      intro item hmem
      rcases List.mem_cons.1 hmem with rfl | hmem
      · have ha := hold a List.mem_cons_self
        exact hab.valid ha (ha.nonempty.imp_right fun hne => by
          have := TimedItem.isEmpty_iff.1 hne
          linarith)
      · exact ih (fun x hx => hold x (List.mem_cons_of_mem _ hx)) item hmem

theorem Moved.tiles {shift start stop : ℚ} {old new : List TimedItem} (h : Moved shift old new)
    (hold : Tiles TimedItem.lo TimedItem.hi start old stop) :
    Tiles TimedItem.lo TimedItem.hi (start + shift) new (stop + shift) :=
  hold.of_forall₂ (σ := (· + shift)) (fun _ _ hle => by simpa using hle)
    (h.imp fun _ _ hab => ⟨hab.lo, hab.hi⟩)

/-- The rewritten run of neighbours, relative to the old one. -/
structure Rewrite (editRate : Timebase) (shift : ℚ) (supplied : List EditorialObjectId)
    (old new : List TimedItem) : Prop where
  valid : ∀ item ∈ new, item.Valid editRate
  tiles : ∀ start stop, Tiles TimedItem.lo TimedItem.hi start old stop →
    Tiles TimedItem.lo TimedItem.hi start new (stop + shift)
  nodup : (new.map TimedItem.id).Nodup
  ids : ∀ item ∈ new, item.id ∈ old.map TimedItem.id ∨ item.id ∈ supplied

theorem finishEdit_splice {track track' : Track} {timelineId : TimelineId} {trackId : TrackId}
    {kind : EditKind} {report : Except Error EditReport} {outcome : EditOutcome}
    {supplied : List EditorialObjectId} {before after after' : List TimedItem} {shift : ℚ}
    (run run' : List TimedItem) (hsound : track.Sound) (hsplit : timedItems track.items = before ++ (run ++ after))
    (hrun : Rewrite track.timebase shift supplied run run') (hafter : Moved shift after after')
    (hfresh : ∀ id ∈ supplied, id ∉ track.objectIds)
    (h : finishEdit track timelineId trackId kind (before ++ (run' ++ after')) report =
      .ok (track', outcome)) :
    Evolves track track' supplied ∧ timedItems track'.items = before ++ (run' ++ after') ∧
      ∀ stop, Tiles TimedItem.lo TimedItem.hi 0 (timedItems track.items) stop →
        Tiles TimedItem.lo TimedItem.hi 0 (timedItems track'.items) (stop + shift) := by
  have hold := hsound.timed
  rw [hsplit] at hold
  have hnew : ∀ stop, Tiles TimedItem.lo TimedItem.hi 0 (before ++ (run ++ after)) stop →
      Tiles TimedItem.lo TimedItem.hi 0 (before ++ (run' ++ after')) (stop + shift) := by
    intro stop htiles
    obtain ⟨p, hbefore, hrest⟩ := tiles_append.1 htiles
    obtain ⟨q, hmid, hback⟩ := tiles_append.1 hrest
    exact hbefore.append ((hrun.tiles p q hmid).append (hafter.tiles hback))
  have hids : ∀ item ∈ before ++ (run' ++ after'),
      item.id ∈ (before ++ (run ++ after)).map TimedItem.id ∨ item.id ∈ supplied := by
    intro item hmem
    simp only [List.mem_append, List.map_append] at hmem ⊢
    rcases hmem with hmem | hmem | hmem
    · exact .inl (.inl (List.mem_map_of_mem hmem))
    · exact (hrun.ids item hmem).imp (fun h => .inr (.inl h)) id
    · exact .inl (.inr (.inr (hafter.ids ▸ List.mem_map_of_mem hmem)))
  have hnodup : ((before ++ (run' ++ after')).map TimedItem.id).Nodup := by
    have hdistinct := hold.nodup
    simp only [List.map_append] at hdistinct ⊢
    obtain ⟨hb, hra, hbra⟩ := List.nodup_append.1 hdistinct
    obtain ⟨-, ha, hrunAfter⟩ := List.nodup_append.1 hra
    have hsupplied : ∀ id ∈ supplied, id ∉ (before ++ (run ++ after)).map TimedItem.id :=
      fun id hid hmem => hfresh id hid (mem_objectIds_of_timed (hsplit ▸ hmem))
    simp only [List.map_append, List.mem_append, not_or] at hsupplied
    have hrunIds : ∀ x ∈ run'.map TimedItem.id, x ∈ run.map TimedItem.id ∨ x ∈ supplied := by
      intro x hx
      obtain ⟨item, hitem, rfl⟩ := List.mem_map.1 hx
      exact hrun.ids item hitem
    refine List.nodup_append.2 ⟨hb, List.nodup_append.2 ⟨hrun.nodup, hafter.ids ▸ ha, ?_⟩, ?_⟩
    · intro x hx y hy hxy
      subst hxy
      rw [hafter.ids] at hy
      rcases hrunIds x hx with hx | hx
      · exact hrunAfter x hx x hy rfl
      · exact (hsupplied x hx).2.2 hy
    · intro x hx y hy hxy
      subst hxy
      rw [hafter.ids] at hy
      rcases List.mem_append.1 hy with hy | hy
      · rcases hrunIds x hy with hy | hy
        · exact hbra x hx x (List.mem_append_left _ hy) rfl
        · exact (hsupplied x hy).1 hx
      · exact hbra x hx x (List.mem_append_right _ hy) rfl
  have hvalid : ∀ item ∈ before ++ (run' ++ after'), item.Valid track.timebase := by
    intro item hmem
    simp only [List.mem_append] at hmem
    rcases hmem with hmem | hmem | hmem
    · exact hold.valid item (List.mem_append_left _ hmem)
    · exact hrun.valid item hmem
    · exact hafter.valid (fun x hx => hold.valid x (by simp [hx])) item hmem
  obtain ⟨stop, htiles⟩ := hold.tiles
  obtain ⟨hevolves, htimed⟩ := finishEdit_evolves hsound
    ⟨hvalid, ⟨_, hnew stop htiles⟩, hnodup⟩
    (fun item hmem => (hids item hmem).imp_left fun hid =>
      mem_objectIds_of_timed (hsplit ▸ hid)) h
  refine ⟨hevolves, htimed, fun stop htiles => ?_⟩
  rw [htimed]
  exact hnew stop (hsplit ▸ htiles)

/-- A rewrite that keeps every identity of the run. -/
theorem Rewrite.of_sameIds {editRate : Timebase} {shift : ℚ} {supplied : List EditorialObjectId}
    {old new : List TimedItem} (hvalid : ∀ item ∈ new, item.Valid editRate)
    (htiles : ∀ start stop, Tiles TimedItem.lo TimedItem.hi start old stop →
      Tiles TimedItem.lo TimedItem.hi start new (stop + shift))
    (hids : new.map TimedItem.id = old.map TimedItem.id)
    (hnodup : (old.map TimedItem.id).Nodup) : Rewrite editRate shift supplied old new where
  valid := hvalid
  tiles := htiles
  nodup := hids ▸ hnodup
  ids := fun _ hmem => .inl (hids ▸ List.mem_map_of_mem hmem)

/-! ## Finding the target -/

theorem locate_spec {timed before after : List TimedItem} {id : EditorialObjectId} {error : Error}
    {item : TimedItem} (h : locate timed id error = .ok (before, item, after)) :
    timed = before ++ item :: after ∧ item.id = id := by
  unfold locate at h
  obtain ⟨hsplit, hid, -⟩ := splitFirst_eq_some (okOr_eq_ok.1 h)
  exact ⟨hsplit, by simpa using hid⟩

theorem TimedSound.of_split {editRate : Timebase} {timed before after : List TimedItem}
    {item : TimedItem} (h : TimedSound editRate timed) (hsplit : timed = before ++ item :: after) :
    item.Valid editRate ∧ (∀ x ∈ after, x.Valid editRate) ∧ (∀ x ∈ before, x.Valid editRate) := by
  subst hsplit
  exact ⟨h.valid item (by simp), fun x hx => h.valid x (by simp [hx]),
    fun x hx => h.valid x (by simp [hx])⟩

theorem TimedSound.nodup_run {editRate : Timebase} {timed before after : List TimedItem}
    (h : TimedSound editRate timed) (run : List TimedItem) (hsplit : timed = before ++ (run ++ after)) :
    (run.map TimedItem.id).Nodup := by
  have := h.nodup
  rw [hsplit, List.map_append, List.map_append] at this
  exact (List.nodup_append.1 (List.nodup_append.1 this).2.1).1

/-- A trimmed item on a nonempty range of the track clock. -/
theorem trimItem_valid {editRate : Timebase} {item trimmed : TimedItem} {newRange : TimeRange}
    {side : EditSide} {operation : String} (hitem : item.Valid editRate)
    (hclock : newRange.timebase = editRate)
    (hne : newRange.start.seconds < newRange.endExclusive.seconds)
    (h : trimItem item newRange side operation = .ok trimmed) : trimmed.Valid editRate := by
  obtain ⟨-, hpayload, hrange⟩ := trimItem_spec h
  refine hitem.of_payload hpayload (by rw [hrange, hclock]) (.inr ?_)
  rw [TimedItem.lo, TimedItem.hi, hrange]
  exact hne

/-! ## Append and replace -/

theorem applyAppend_evolves {track track' : Track} {timelineId : TimelineId} {trackId : TrackId}
    {material : TrackItem} {outcome : EditOutcome} (hsound : track.Sound)
    (hnamed : material.Named) (hfresh : FreshFor track material.suppliedId)
    (h : applyAppend track timelineId trackId material = .ok (track', outcome)) :
    Evolves track track' material.suppliedId := by
  unfold applyAppend at h
  simp only [bind_eq_ok] at h
  obtain ⟨placed, hplaced, _, -, h⟩ := h
  have hold := hsound.timed
  obtain ⟨stop, htiles⟩ := hold.tiles
  have hfills := normalizeMaterial_fills hplaced
  rw [hfills.suppliedId] at hfresh ⊢
  have hvalid := normalizeMaterial_valid hnamed hplaced
  have hlo : placed.lo = stop := by rw [hfills.lo, trackEnd_seconds htiles]
  have hnew : Tiles TimedItem.lo TimedItem.hi 0 (timedItems track.items ++ [placed])
      placed.hi := htiles.append ⟨hlo, placed.lo_le_hi, rfl⟩
  have hallValid : ∀ item ∈ timedItems track.items ++ [placed], item.Valid track.timebase := by
    intro item hmem
    rcases List.mem_append.1 hmem with hmem | hmem
    · exact hold.valid item hmem
    · have : item = placed := by simpa using hmem
      exact this ▸ hvalid
  rw [sortTimed_sorted (fun item hmem => (hallValid item hmem).clock) hnew] at h
  refine (finishEdit_evolves hsound ⟨hallValid, ⟨_, hnew⟩, ?_⟩ ?_ h).1
  · rw [List.map_append]
    refine List.nodup_append.2 ⟨hold.nodup, by simp, fun x hx y hy hxy => ?_⟩
    subst hxy
    exact hfresh.timed x (by simpa using hy) hx
  · intro item hmem
    rcases List.mem_append.1 hmem with hmem | hmem
    · exact .inl (mem_objectIds_of_timed (List.mem_map_of_mem hmem))
    · have : item = placed := by simpa using hmem
      exact .inr (by simp [this])

theorem applyReplace_evolves {track track' : Track} {timelineId : TimelineId} {trackId : TrackId}
    {targetId : EditorialObjectId} {material : TrackItem} {outcome : EditOutcome}
    (hsound : track.Sound) (hnamed : material.Named)
    (hfresh : FreshFor track material.suppliedId)
    (h : applyReplace track timelineId trackId targetId material = .ok (track', outcome)) :
    Evolves track track' material.suppliedId := by
  unfold applyReplace at h
  simp only [bind_eq_ok, rejectIf_eq_ok, not_not, Prod.exists] at h
  obtain ⟨_, -, before, target, after, hlocate, placed, hplaced, _, hduration, h⟩ := h
  obtain ⟨hsplit, -⟩ := locate_spec hlocate
  have hfills := normalizeMaterial_fills hplaced
  rw [hfills.suppliedId] at hfresh ⊢
  rw [Duration.equiv_iff_seconds, target.duration_seconds] at hduration
  have hrun : Rewrite track.timebase 0 [placed.id] [target] [placed] := by
    refine ⟨by simpa using normalizeMaterial_valid hnamed hplaced, ?_, by simp, by simp⟩
    rintro start stop ⟨hlo, -, hhi⟩
    have hplacedLo : placed.lo = target.lo := hfills.lo
    refine ⟨hplacedLo.trans hlo, placed.lo_le_hi, ?_⟩
    have htargetHi : target.hi = stop := hhi
    rw [tiles_nil, hfills.hi, hduration, ← htargetHi]
    simp only [TimedItem.lo]
    ring
  exact (finishEdit_splice [target] [placed] hsound hsplit hrun (Moved.refl _)
    hfresh.fresh h).1

/-! ## Ripple -/

/-- A ripple keeps the target's start and moves its end, and everything behind it, by `delta`. -/
theorem rippleRange_spec {oldRange range : TimeRange} {side : EditSide} {to' delta : RationalTime}
    {timebase : Timebase} (h : rippleRange oldRange side to' timebase = .ok (range, delta)) :
    range.start = oldRange.start ∧
      range.endExclusive.seconds = oldRange.endExclusive.seconds + delta.seconds ∧
      range.start.seconds < range.endExclusive.seconds ∧ delta.timebase = timebase := by
  cases side with
  | start =>
      simp only [rippleRange, bind_eq_ok, rejectIf_eq_ok, pure_eq_ok, Prod.mk.injEq,
        RationalTime.le_iff_seconds, not_le] at h
      obtain ⟨_, hbefore, removed, hremoved, newEnd, hnewEnd, newRange, hrange, delta', hdelta,
        rfl, rfl⟩ := h
      obtain ⟨-, hremoved⟩ := RationalTime.checkedSubAt_spec hremoved
      obtain ⟨-, hnewEnd⟩ := RationalTime.checkedSubAt_spec hnewEnd
      obtain ⟨htb, hdelta⟩ := RationalTime.checkedSubAt_spec hdelta
      obtain ⟨hrs, hre⟩ := TimeRange.fromStartEnd_spec hrange
      refine ⟨hrs, by rw [hre, hdelta]; ring, ?_, htb⟩
      rw [hrs, hre, hnewEnd, hremoved]
      linarith
  | stop =>
      simp only [rippleRange, bind_eq_ok, rejectIf_eq_ok, pure_eq_ok, Prod.mk.injEq,
        RationalTime.le_iff_seconds, not_le] at h
      obtain ⟨_, hafter, newRange, hrange, delta', hdelta, rfl, rfl⟩ := h
      obtain ⟨htb, hdelta⟩ := RationalTime.checkedSubAt_spec hdelta
      obtain ⟨hrs, hre⟩ := TimeRange.fromStartEnd_spec hrange
      refine ⟨hrs, by rw [hre, hdelta]; ring, ?_, htb⟩
      rw [hrs, hre]
      exact hafter

/-- The reported signed change is the displacement. -/
theorem durationChange_seconds {delta : RationalTime} {magnitude : Duration}
    (h : Duration.new delta.value.natAbs delta.timebase = .ok magnitude) :
    (if delta.isNegative then TrackDurationChange.shortened magnitude
      else .extended magnitude).seconds = delta.seconds := by
  obtain ⟨hvalue, htb⟩ := Duration.new_eq_ok.1 h
  have hsec : magnitude.seconds = (delta.value.natAbs : ℚ) * delta.timebase.unit := by
    rw [← htb, ← hvalue]
    simp [Duration.seconds, Duration.rationalTime, RationalTime.seconds]
  by_cases hneg : delta.value < 0
  · have habs : ((delta.value.natAbs : Int) : ℚ) = -delta.value := by
      rw [Int.ofNat_natAbs_of_nonpos hneg.le]
      push_cast
      rfl
    simp only [RationalTime.isNegative, hneg, decide_true, if_true, TrackDurationChange.seconds]
    rw [hsec, RationalTime.seconds, show (delta.value.natAbs : ℚ) = -delta.value from habs]
    ring
  · have habs : ((delta.value.natAbs : Int) : ℚ) = delta.value := by
      rw [Int.natAbs_of_nonneg (not_lt.1 hneg)]
    simp only [RationalTime.isNegative, hneg, decide_false, Bool.false_eq_true, if_false,
      TrackDurationChange.seconds]
    rw [hsec, RationalTime.seconds, show (delta.value.natAbs : ℚ) = delta.value from habs]

theorem applyRipple_evolves {track track' : Track} {timelineId : TimelineId} {trackId : TrackId}
    {targetId : EditorialObjectId} {side : EditSide} {to' : RationalTime} {outcome : EditOutcome}
    (hsound : track.Sound)
    (h : applyRipple track timelineId trackId targetId side to' = .ok (track', outcome)) :
    Evolves track track' [] ∧
      ∀ stop, Tiles TimedItem.lo TimedItem.hi 0 (timedItems track.items) stop →
        Tiles TimedItem.lo TimedItem.hi 0 (timedItems track'.items)
          (stop + outcome.durationChange.seconds) := by
  unfold applyRipple at h
  simp only [bind_eq_ok, Prod.exists] at h
  obtain ⟨_, -, _, -, before, target, after, hlocate, newRange, delta, hrange, _, -, trimmed, htrim,
    shifted, hshifted, h⟩ := h
  obtain ⟨hsplit, -⟩ := locate_spec hlocate
  have hold := hsound.timed
  obtain ⟨htarget, -, -⟩ := hold.of_split hsplit
  obtain ⟨hstart, hend, hne, htb⟩ := rippleRange_spec hrange
  obtain ⟨hid, -, htrimmed⟩ := trimItem_spec htrim
  have hclock : newRange.timebase = track.timebase := by
    rw [← TimeRange.start_timebase, hstart, TimeRange.start_timebase, htarget.clock]
  obtain ⟨r, hr, -, hchange, -⟩ := finishEdit_report h
  simp only [bind_eq_ok, pure_eq_ok] at hr
  obtain ⟨magnitude, hmagnitude, _, -, hr⟩ := hr
  have hseconds : outcome.durationChange.seconds = delta.seconds := by
    rw [hchange, ← hr]
    exact durationChange_seconds (htb ▸ hmagnitude)
  have hrun : Rewrite track.timebase delta.seconds [] [target] [trimmed] := by
    refine .of_sameIds (by simpa using trimItem_valid htarget hclock hne htrim) ?_
      (by simp [hid]) (by simp)
    rintro start stop ⟨hlo, -, hhi⟩
    have hhi' : target.hi = stop := hhi
    have hnewLo : trimmed.lo = target.lo := by
      rw [TimedItem.lo, TimedItem.lo, htrimmed, hstart]
    refine ⟨hnewLo.trans hlo, trimmed.lo_le_hi, ?_⟩
    rw [tiles_nil, TimedItem.hi, htrimmed, hend, ← hhi']
    rfl
  have hmoved : Moved delta.seconds after shifted :=
    (mapM_eq_ok.1 hshifted).imp fun _ _ hshift => shiftItemBy_piece hshift
  obtain ⟨hevolves, -, htiles⟩ := finishEdit_splice [target] [trimmed] hsound
    hsplit hrun hmoved (by simp) h
  exact ⟨hevolves, hseconds ▸ htiles⟩

/-! ## Roll and slide -/

theorem applyRoll_evolves {track track' : Track} {timelineId : TimelineId} {trackId : TrackId}
    {leftId rightId : EditorialObjectId} {to' : RationalTime} {outcome : EditOutcome}
    (hsound : track.Sound)
    (h : applyRoll track timelineId trackId leftId rightId to' = .ok (track', outcome)) :
    Evolves track track' [] := by
  unfold applyRoll validatePointClock at h
  simp only [bind_eq_ok, rejectIf_eq_ok, not_not, not_or, Prod.exists,
    RationalTime.le_iff_seconds, not_le] at h
  obtain ⟨_, hclock, before, left, after', hleft, before', right, after, hright, _, hadjacent, _, -,
    _, ⟨hlo, hhi⟩, _, -, _, -, newLeft, hnewLeft, left', htrimLeft, newRight, hnewRight, right',
    htrimRight, h⟩ := h
  obtain ⟨-, hsplit⟩ := split_adjacent (locate_spec hleft).1 (locate_spec hright).1 hadjacent
  have hold := hsound.timed
  obtain ⟨hleftValid, hrest, -⟩ := hold.of_split hsplit
  have hrightValid := hrest right (by simp)
  obtain ⟨hls, hle⟩ := TimeRange.fromStartEnd_spec hnewLeft
  obtain ⟨hrs, hre⟩ := TimeRange.fromStartEnd_spec hnewRight
  obtain ⟨hleftId, -, hleftRange⟩ := trimItem_spec htrimLeft
  obtain ⟨hrightId, -, hrightRange⟩ := trimItem_spec htrimRight
  have hrun : Rewrite track.timebase 0 [] [left, right] [left', right'] := by
    refine .of_sameIds ?_ ?_ (by simp [hleftId, hrightId])
      (hold.nodup_run [left, right] hsplit)
    · simp only [List.mem_cons, List.not_mem_nil, or_false, forall_eq_or_imp, forall_eq]
      constructor
      · refine trimItem_valid hleftValid ?_ (by rw [hls, hle]; exact hlo) htrimLeft
        rw [← TimeRange.start_timebase, hls, TimeRange.start_timebase, hleftValid.clock]
      · refine trimItem_valid hrightValid ?_ (by rw [hrs, hre]; exact hhi) htrimRight
        rw [← TimeRange.start_timebase, hrs, hclock]
    · rintro start stop ⟨hlo', -, -, -, hhi'⟩
      refine ⟨?_, left'.lo_le_hi, ?_, right'.lo_le_hi, ?_⟩
      · rw [TimedItem.lo, hleftRange, hls]
        exact hlo'
      · rw [TimedItem.lo, TimedItem.hi, hleftRange, hrightRange, hrs, hle]
      · rw [tiles_nil, TimedItem.hi, hrightRange, hre, add_zero]
        exact hhi'
  exact (finishEdit_splice [left, right] [left', right'] hsound hsplit hrun
    (Moved.refl _) (by simp) h).1

theorem slideNeighbours_spec {before after before' after' : List TimedItem}
    {left right : TimedItem}
    (h : slideNeighbours before after = .ok ((before', left), (right, after'))) :
    before = before' ++ [left] ∧ after = right :: after' := by
  unfold slideNeighbours at h
  split at h
  · rename_i last next rest hlast
    simp only [pure_eq_ok, Prod.mk.injEq] at h
    obtain ⟨⟨rfl, rfl⟩, rfl, rfl⟩ := h
    exact ⟨(List.dropLast_append_getLast? _ hlast).symm, rfl⟩
  · cases h

theorem applySlide_evolves {track track' : Track} {timelineId : TimelineId} {trackId : TrackId}
    {clipId : ClipId} {to' : RationalTime} {outcome : EditOutcome} (hsound : track.Sound)
    (h : applySlide track timelineId trackId clipId to' = .ok (track', outcome)) :
    Evolves track track' [] := by
  unfold applySlide validatePointClock at h
  simp only [bind_eq_ok, rejectIf_eq_ok, not_not, not_or, Prod.exists,
    RationalTime.le_iff_seconds, not_le] at h
  obtain ⟨_, hclock, allBefore, center, allAfter, hlocate, before, left, right, after, hneighbours,
    _, -, newCenterEnd, hcenterEnd, _, ⟨hlo, hhi⟩, _, -, newLeft, hnewLeft, left', htrimLeft,
    newCenter, hnewCenter, center', hplace, newRight, hnewRight, right', htrimRight, _, -, h⟩ := h
  obtain ⟨rfl, rfl⟩ := slideNeighbours_spec hneighbours
  have hsplit : timedItems track.items = before ++ ([left, center, right] ++ after) := by
    rw [(locate_spec hlocate).1]
    simp
  have hold := hsound.timed
  have hvalid : ∀ item ∈ [left, center, right], item.Valid track.timebase := fun item hmem =>
    hold.valid item (hsplit ▸ List.mem_append_right _ (List.mem_append_left _ hmem))
  have hcenterValid := hvalid center (by simp)
  obtain ⟨hls, hle⟩ := TimeRange.fromStartEnd_spec hnewLeft
  obtain ⟨hrs, hre⟩ := TimeRange.fromStartEnd_spec hnewRight
  obtain ⟨hleftId, -, hleftRange⟩ := trimItem_spec htrimLeft
  obtain ⟨hrightId, -, hrightRange⟩ := trimItem_spec htrimRight
  obtain ⟨htb, hcenterSec⟩ := RationalTime.checkedAddAt_spec hcenterEnd
  have hpiece := repositionItem_piece hnewCenter hplace
  have hcenterHi : newCenterEnd.seconds = to'.seconds + (center.hi - center.lo) := by
    rw [hcenterSec, Duration.seconds_rationalTime, center.duration_seconds]
  have hrun : Rewrite track.timebase 0 [] [left, center, right] [left', center', right'] := by
    refine .of_sameIds ?_ ?_ (by simp [hleftId, hrightId, hpiece.id]) (hold.nodup_run _ hsplit)
    · simp only [List.mem_cons, List.not_mem_nil, or_false, forall_eq_or_imp, forall_eq]
      refine ⟨?_, ?_, ?_⟩
      · refine trimItem_valid (hvalid left (by simp)) ?_ (by rw [hls, hle]; exact hlo) htrimLeft
        rw [← TimeRange.start_timebase, hls, TimeRange.start_timebase,
          (hvalid left (by simp)).clock]
      · exact hpiece.valid hcenterValid (hcenterValid.nonempty.imp_right fun hne => by
          have := TimedItem.isEmpty_iff.1 hne
          linarith)
      · refine trimItem_valid (hvalid right (by simp)) ?_ (by rw [hrs, hre]; exact hhi) htrimRight
        rw [← TimeRange.start_timebase, hrs, htb]
    · rintro start stop ⟨hlo', -, -, -, -, -, hhi'⟩
      refine ⟨?_, left'.lo_le_hi, ?_, center'.lo_le_hi, ?_, right'.lo_le_hi, ?_⟩
      · rw [TimedItem.lo, hleftRange, hls]
        exact hlo'
      · rw [hpiece.lo, TimedItem.hi, hleftRange, hle]
      · rw [hpiece.hi, TimedItem.lo, hrightRange, hrs, hcenterHi]
      · rw [tiles_nil, TimedItem.hi, hrightRange, hre, add_zero]
        exact hhi'
  exact (finishEdit_splice [left, center, right] [left', center', right'] hsound
    hsplit hrun (Moved.refl _) (by simp) h).1

/-! ## Razor -/

theorem applyRazor_spanEdit {track track' : Track} {timelineId : TimelineId} {trackId : TrackId}
    {targetId fragmentId : EditorialObjectId} {at' : RationalTime} {outcome : EditOutcome}
    (hsound : track.Sound)
    (h : applyRazor track timelineId trackId targetId at' fragmentId = .ok (track', outcome)) :
    SpanEdit track track' outcome.fragments at'.seconds at'.seconds 0 ∧
      (FreshFor track [fragmentId] → Evolves track track' [fragmentId]) := by
  unfold applyRazor at h
  simp only [bind_eq_ok, rejectIf_eq_ok, not_or, Prod.exists, RationalTime.le_iff_seconds,
    not_le] at h
  obtain ⟨_, -, _, -, _, -, before, target, after, hlocate, _, ⟨hlo, hhi⟩, left, hleft, right,
    hright, h⟩ := h
  obtain ⟨hsplit, htargetId⟩ := locate_spec hlocate
  have hold := hsound.timed
  obtain ⟨htarget, hafter, hbefore⟩ := hold.of_split hsplit
  have hleftPiece := sliceItem_piece hleft
  have hrightPiece := sliceItem_piece hright
  have hleftValid := hleftPiece.valid htarget (.inr hlo)
  have hrightValid := hrightPiece.valid htarget (.inr hhi)
  have htimed : timedItems track'.items = before ++ left :: right :: after := by
    refine finishEdit_timed hsound (fun item hmem => ?_) h
    simp only [List.mem_append, List.mem_cons] at hmem
    rcases hmem with hmem | rfl | rfl | hmem
    · exact (hbefore item hmem).clock
    · exact hleftValid.clock
    · exact hrightValid.clock
    · exact (hafter item hmem).clock
  have hcut : ∀ start stop, Tiles TimedItem.lo TimedItem.hi start [target] stop →
      Tiles TimedItem.lo TimedItem.hi start [left, right] (stop + 0) := by
    rintro start stop ⟨hlo', -, hhi'⟩
    refine ⟨hleftPiece.lo.trans hlo', left.lo_le_hi, ?_, right.lo_le_hi, ?_⟩
    · rw [hrightPiece.lo, hleftPiece.hi]
    · rw [tiles_nil, hrightPiece.hi, add_zero]
      exact hhi'
  obtain ⟨stop, htiles⟩ := hold.tiles
  have hnew : Tiles TimedItem.lo TimedItem.hi 0 (timedItems track'.items) (stop + 0) := by
    rw [hsplit] at htiles
    obtain ⟨p, hfront, hrest⟩ := tiles_append.1 htiles
    rw [← List.singleton_append, tiles_append] at hrest
    obtain ⟨q, hmid, hback⟩ := hrest
    rw [htimed, add_zero]
    have := hcut p q hmid
    rw [add_zero] at this
    exact hfront.append (this.append hback)
  obtain ⟨r, hr, hfragments, -⟩ := finishEdit_report h
  have hreported : (⟨target.id, fragmentId⟩ : EditFragment) ∈ outcome.fragments := by
    rw [hfragments, ← pure_eq_ok.1 hr, htargetId]
    simp
  have htargetMem : target ∈ timedItems track.items := by simp [hsplit]
  obtain ⟨hge, -, hle⟩ := htiles.mem_bounds htargetMem
  -- only the target's own instants change hands
  have hheir : ∀ item ∈ timedItems track.items, ∀ t, Covers TimedItem.lo TimedItem.hi t item →
      ∃ heir ∈ timedItems track'.items, Continues outcome.fragments item t heir t := by
    intro item hmem t ht
    rw [htimed]
    rw [hsplit, List.mem_append, List.mem_cons] at hmem
    rcases hmem with hmem | rfl | hmem
    · exact ⟨item, by simp [hmem], Continues.refl ht⟩
    · by_cases hta : t < at'.seconds
      · exact ⟨left, by simp, hleftPiece.keeps (.inl htargetId.symm) ht.1 hta⟩
      · exact ⟨right, by simp, hrightPiece.keeps (.inr hreported) (not_lt.1 hta) ht.2⟩
    · exact ⟨item, by simp [hmem], Continues.refl ht⟩
  refine ⟨⟨⟨stop, htiles, hnew, ?_, le_rfl, ?_⟩, fun item hmem t ht _ => hheir item hmem t ht,
    fun item hmem t ht _ => ?_⟩, fun hfresh => ?_⟩
  · exact hge.trans hlo.le
  · exact hhi.le.trans hle
  · rw [add_zero]
    exact hheir item hmem t ht
  · have hne : fragmentId ≠ targetId := by
      rintro rfl
      refine hfresh.timed fragmentId (by simp) ?_
      rw [hsplit]
      simp [htargetId]
    refine (finishEdit_splice [target] [left, right] hsound hsplit
      ⟨by simpa using ⟨hleftValid, hrightValid⟩, hcut, ?_, ?_⟩ (Moved.refl _) hfresh.fresh h).1
    · simp [hleftPiece.id, hrightPiece.id, hne.symm]
    · simp [hleftPiece.id, hrightPiece.id, htargetId]

end Editorial
end Superi

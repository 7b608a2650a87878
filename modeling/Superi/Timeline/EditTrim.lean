import Superi.Timeline.EditLocal

/-!
# EditTrim — moving one edge of an item against a gap

A trim keeps the end of the track where it is: the time the target gives up goes to a gap beside
it, which is grown or inserted, and the time it takes comes out of a gap beside it, which is
shrunk or consumed.
-/

namespace Superi
namespace Editorial

open Core Result Tiling Sequence

/-! ## Trim -/

/-- What each of the four trims owes: a rewrite of the run around the target, with the gap
identity it inserted. -/
def TrimRewrites (editRate : Timebase) (timed : List TimedItem) (gapId : Option GapId)
    (result : TrimResult) : Prop :=
  ∃ before run after run', timed = before ++ (run ++ after) ∧
    result.timed = before ++ (run' ++ after) ∧
    Rewrite editRate 0 (gapId.toList.map .gap) run run'

theorem trimGap_named : isBlank "trim gap" = false := by decide

theorem trimGap_spec {gapId : Option GapId} {range : TimeRange} {gap : TimedItem}
    (h : trimGap gapId range = .ok gap) :
    gap.isGap = true ∧ gap.recordRange = range ∧ gap.validateTexts = .ok () ∧
      gap.id ∈ gapId.toList.map EditorialObjectId.gap := by
  unfold trimGap at h
  simp only [bind_eq_ok, okOr_eq_ok, pure_eq_ok] at h
  obtain ⟨id, rfl, rfl⟩ := h
  refine ⟨rfl, rfl, requireText_eq_ok.2 trimGap_named, by simp⟩

/-- A gap placed on another range of the clock stays valid. -/
theorem setRecordRange_gap {editRate : Timebase} {gap : Gap} {range : TimeRange}
    {placed : TimedItem} (hgap : (TimedItem.gap gap).Valid editRate)
    (hclock : range.timebase = editRate) (h : setRecordRange (.gap gap) range = .ok placed) :
    placed.Valid editRate ∧ placed.id = .gap gap.id ∧ placed.recordRange = range := by
  obtain ⟨hrange, hid, hcarries⟩ := setRecordRange_spec h
  exact ⟨hgap.of_payload hcarries.payload (hrange ▸ hclock) (.inl rfl), hid, hrange⟩

section TrimCases

variable {editRate : Timebase} {before after : List TimedItem} {target : TimedItem}
  {newRange : TimeRange} {to' : RationalTime} {gapId : Option GapId} {result : TrimResult}

/-- The target trimmed at its end, with the record range it has before and after. -/
theorem trimEnd_facts {trimmed : TimedItem} (htarget : target.Valid editRate)
    (hclock : to'.timebase = editRate) (hrange : newRange.start = target.recordRange.start)
    (hend : newRange.endExclusive = to') (hne : target.lo < to'.seconds)
    (h : trimItem target newRange .stop "trim" = .ok trimmed) :
    trimmed.Valid editRate ∧ trimmed.id = target.id ∧ trimmed.lo = target.lo ∧
      trimmed.hi = to'.seconds := by
  obtain ⟨hid, -, htrimmed⟩ := trimItem_spec h
  have htb : newRange.timebase = editRate := by
    rw [← TimeRange.endExclusive_timebase, hend, hclock]
  refine ⟨trimItem_valid htarget htb (by rw [hrange, hend]; exact hne) h, hid, ?_, ?_⟩
  · rw [TimedItem.lo, htrimmed, hrange]
    rfl
  · rw [TimedItem.hi, htrimmed, hend]

theorem trimStart_facts {trimmed : TimedItem} (htarget : target.Valid editRate)
    (hclock : to'.timebase = editRate) (hrange : newRange.start = to')
    (hend : newRange.endExclusive = target.recordRange.endExclusive) (hne : to'.seconds < target.hi)
    (h : trimItem target newRange .start "trim" = .ok trimmed) :
    trimmed.Valid editRate ∧ trimmed.id = target.id ∧ trimmed.lo = to'.seconds ∧
      trimmed.hi = target.hi := by
  obtain ⟨hid, -, htrimmed⟩ := trimItem_spec h
  have htb : newRange.timebase = editRate := by
    rw [← TimeRange.start_timebase, hrange, hclock]
  refine ⟨trimItem_valid htarget htb (by rw [hrange, hend]; exact hne) h, hid, ?_, ?_⟩
  · rw [TimedItem.lo, htrimmed, hrange]
  · rw [TimedItem.hi, htrimmed, hend]
    rfl

theorem trimEndInward_rewrites (htimed : TimedSound editRate (before ++ target :: after))
    (hclock : to'.timebase = editRate) (hrange : newRange.start = target.recordRange.start)
    (hend : newRange.endExclusive = to') (hne : target.lo < to'.seconds)
    (hfresh : ∀ id ∈ gapId.toList.map EditorialObjectId.gap,
      id ∉ (before ++ target :: after).map TimedItem.id)
    (h : trimEndInward before target after newRange to' gapId = .ok result) :
    TrimRewrites editRate (before ++ target :: after) gapId result := by
  obtain ⟨htarget, hafter, -⟩ := htimed.of_split rfl
  unfold trimEndInward at h
  simp only [bind_eq_ok] at h
  obtain ⟨trimmed, htrim, gapRange, hgapRange, h⟩ := h
  obtain ⟨hvalid, hid, hlo, hhi⟩ := trimEnd_facts htarget hclock hrange hend hne htrim
  split at h
  · rename_i next rest
    simp only [bind_eq_ok, pure_eq_ok] at h
    obtain ⟨range, hnextRange, placed, hplaced, rfl⟩ := h
    obtain ⟨hrs, hre⟩ := TimeRange.fromStartEnd_spec hnextRange
    obtain ⟨hpvalid, hpid, hprange⟩ := setRecordRange_gap (hafter _ List.mem_cons_self)
      (by rw [← TimeRange.start_timebase, hrs, hclock]) hplaced
    refine ⟨before, [target, .gap next], rest, [trimmed, placed], by simp, by simp,
      .of_sameIds ?_ ?_ (by simp [hid, hpid])
        (htimed.nodup_run [target, .gap next] rfl)⟩
    · simpa using ⟨hvalid, hpvalid⟩
    · rintro start stop ⟨hlo', -, -, -, hhi'⟩
      refine ⟨hlo.trans hlo', trimmed.lo_le_hi, ?_, placed.lo_le_hi, ?_⟩
      · rw [hhi, TimedItem.lo, hprange, hrs]
      · rw [tiles_nil, TimedItem.hi, hprange, hre, add_zero]
        exact hhi'
  · simp only [bind_eq_ok, pure_eq_ok] at h
    obtain ⟨gap, hgap, rfl⟩ := h
    obtain ⟨hisGap, hgrange, htexts, hgid⟩ := trimGap_spec hgap
    obtain ⟨hgs, hge⟩ := TimeRange.fromStartEnd_spec hgapRange
    have hgclock : gap.recordRange.timebase = editRate := by
      rw [hgrange, ← TimeRange.start_timebase, hgs, hclock]
    have hgne : gap.id ≠ target.id := fun heq => hfresh gap.id hgid (by simp [heq])
    refine ⟨before, [target], after, [trimmed, gap], by simp, by simp, ?_, ?_, ?_, ?_⟩
    · simpa using ⟨hvalid, ⟨htexts, hgclock, .inl hisGap⟩⟩
    · rintro start stop ⟨hlo', -, hhi'⟩
      refine ⟨hlo.trans hlo', trimmed.lo_le_hi, ?_, gap.lo_le_hi, ?_⟩
      · rw [hhi, TimedItem.lo, hgrange, hgs]
      · rw [tiles_nil, TimedItem.hi, hgrange, hge, add_zero]
        exact hhi'
    · simpa [hid] using hgne.symm
    · simpa [hid] using Or.inr (by simpa using hgid)

theorem trimEndOutward_rewrites (htimed : TimedSound editRate (before ++ target :: after))
    (hclock : to'.timebase = editRate) (hrange : newRange.start = target.recordRange.start)
    (hend : newRange.endExclusive = to') (hne : target.lo < to'.seconds)
    (h : trimEndOutward before target after newRange to' = .ok result) :
    TrimRewrites editRate (before ++ target :: after) gapId result := by
  obtain ⟨htarget, hafter, -⟩ := htimed.of_split rfl
  unfold trimEndOutward at h
  split at h
  · cases h
  · rename_i next rest
    simp only [bind_eq_ok] at h
    obtain ⟨_, -, trimmed, htrim, h⟩ := h
    obtain ⟨hvalid, hid, hlo, hhi⟩ := trimEnd_facts htarget hclock hrange hend hne htrim
    split at h
    · rename_i hconsumed
      rw [pure_eq_ok] at h
      subst h
      rw [RationalTime.equiv_iff_seconds] at hconsumed
      refine ⟨before, [target, .gap next], rest, [trimmed], by simp, by simp, by simpa using hvalid,
        ?_, by simp, by simp [hid]⟩
      rintro start stop ⟨hlo', -, -, -, hhi'⟩
      refine ⟨hlo.trans hlo', trimmed.lo_le_hi, ?_⟩
      rw [tiles_nil, hhi, hconsumed, add_zero]
      exact hhi'
    · simp only [bind_eq_ok, pure_eq_ok] at h
      obtain ⟨range, hnextRange, placed, hplaced, rfl⟩ := h
      obtain ⟨hrs, hre⟩ := TimeRange.fromStartEnd_spec hnextRange
      obtain ⟨hpvalid, hpid, hprange⟩ := setRecordRange_gap (hafter _ List.mem_cons_self)
        (by rw [← TimeRange.start_timebase, hrs, hclock]) hplaced
      refine ⟨before, [target, .gap next], rest, [trimmed, placed], by simp, by simp,
        .of_sameIds ?_ ?_ (by simp [hid, hpid])
          (htimed.nodup_run [target, .gap next] rfl)⟩
      · simpa using ⟨hvalid, hpvalid⟩
      · rintro start stop ⟨hlo', -, -, -, hhi'⟩
        refine ⟨hlo.trans hlo', trimmed.lo_le_hi, ?_, placed.lo_le_hi, ?_⟩
        · rw [hhi, TimedItem.lo, hprange, hrs]
        · rw [tiles_nil, TimedItem.hi, hprange, hre, add_zero]
          exact hhi'
  · cases h

theorem trimStartInward_rewrites (htimed : TimedSound editRate (before ++ target :: after))
    (hclock : to'.timebase = editRate) (hrange : newRange.start = to')
    (hend : newRange.endExclusive = target.recordRange.endExclusive) (hne : to'.seconds < target.hi)
    (hfresh : ∀ id ∈ gapId.toList.map EditorialObjectId.gap,
      id ∉ (before ++ target :: after).map TimedItem.id)
    (h : trimStartInward before target after newRange to' gapId = .ok result) :
    TrimRewrites editRate (before ++ target :: after) gapId result := by
  obtain ⟨htarget, -, hbefore⟩ := htimed.of_split rfl
  unfold trimStartInward at h
  simp only [bind_eq_ok] at h
  obtain ⟨trimmed, htrim, h⟩ := h
  obtain ⟨hvalid, hid, hlo, hhi⟩ := trimStart_facts htarget hclock hrange hend hne htrim
  split at h
  · rename_i previous hlast
    have hsplit := List.dropLast_append_getLast? _ hlast
    simp only [bind_eq_ok, pure_eq_ok] at h
    obtain ⟨range, hprevRange, placed, hplaced, rfl⟩ := h
    obtain ⟨hrs, hre⟩ := TimeRange.fromStartEnd_spec hprevRange
    obtain ⟨hpvalid, hpid, hprange⟩ := setRecordRange_gap
      (hbefore _ (List.mem_of_getLast? hlast))
      (by rw [← TimeRange.endExclusive_timebase, hre, hclock]) hplaced
    have hwhole : before ++ target :: after =
        before.dropLast ++ ([.gap previous, target] ++ after) := by
      conv_lhs => rw [← hsplit]
      simp
    refine ⟨before.dropLast, [.gap previous, target], after, [placed, trimmed], hwhole, by simp,
      .of_sameIds ?_ ?_ (by simp [hid, hpid]) (htimed.nodup_run _ hwhole)⟩
    · simpa using ⟨hpvalid, hvalid⟩
    · rintro start stop ⟨hlo', -, -, -, hhi'⟩
      refine ⟨?_, placed.lo_le_hi, ?_, trimmed.lo_le_hi, ?_⟩
      · rw [TimedItem.lo, hprange, hrs]
        exact hlo'
      · rw [hlo, TimedItem.hi, hprange, hre]
      · rw [tiles_nil, hhi, add_zero]
        exact hhi'
  · simp only [bind_eq_ok, pure_eq_ok, okOr_eq_ok] at h
    obtain ⟨id, rfl, gapRange, hgapRange, rfl⟩ := h
    obtain ⟨hgs, hge⟩ := TimeRange.fromStartEnd_spec hgapRange
    have hgclock : gapRange.timebase = editRate := by
      rw [← TimeRange.endExclusive_timebase, hge, hclock]
    have hgne : EditorialObjectId.gap id ≠ target.id := fun heq =>
      hfresh (.gap id) (by simp) (by simp [heq])
    refine ⟨before, [target], after, [.gap { id, name := "trim gap", recordRange := gapRange },
      trimmed], by simp, by simp, ?_, ?_, ?_, ?_⟩
    · simpa using ⟨⟨requireText_eq_ok.2 trimGap_named, hgclock, .inl rfl⟩, hvalid⟩
    · rintro start stop ⟨hlo', -, hhi'⟩
      refine ⟨?_, TimedItem.lo_le_hi _, ?_, trimmed.lo_le_hi, ?_⟩
      · simp only [TimedItem.lo, TimedItem.recordRange, hgs]
        exact hlo'
      · simp only [hlo, TimedItem.hi, TimedItem.recordRange, hge]
      · rw [tiles_nil, hhi, add_zero]
        exact hhi'
    · simpa [hid] using hgne
    · simp [hid]

theorem trimStartOutward_rewrites (htimed : TimedSound editRate (before ++ target :: after))
    (hclock : to'.timebase = editRate) (hrange : newRange.start = to')
    (hend : newRange.endExclusive = target.recordRange.endExclusive) (hne : to'.seconds < target.hi)
    (h : trimStartOutward before target after newRange to' = .ok result) :
    TrimRewrites editRate (before ++ target :: after) gapId result := by
  obtain ⟨htarget, -, hbefore⟩ := htimed.of_split rfl
  unfold trimStartOutward at h
  split at h
  · rename_i previous hlast
    have hsplit := List.dropLast_append_getLast? _ hlast
    have hwhole : before ++ target :: after =
        before.dropLast ++ ([.gap previous, target] ++ after) := by
      conv_lhs => rw [← hsplit]
      simp
    simp only [bind_eq_ok] at h
    obtain ⟨_, -, trimmed, htrim, h⟩ := h
    obtain ⟨hvalid, hid, hlo, hhi⟩ := trimStart_facts htarget hclock hrange hend hne htrim
    split at h
    · rename_i hconsumed
      rw [pure_eq_ok] at h
      subst h
      rw [RationalTime.equiv_iff_seconds] at hconsumed
      refine ⟨before.dropLast, [.gap previous, target], after, [trimmed], hwhole, by simp,
        by simpa using hvalid, ?_, by simp, by simp [hid]⟩
      rintro start stop ⟨hlo', -, -, -, hhi'⟩
      refine ⟨?_, trimmed.lo_le_hi, ?_⟩
      · rw [hlo, hconsumed]
        exact hlo'
      · rw [tiles_nil, hhi, add_zero]
        exact hhi'
    · simp only [bind_eq_ok, pure_eq_ok] at h
      obtain ⟨range, hprevRange, placed, hplaced, rfl⟩ := h
      obtain ⟨hrs, hre⟩ := TimeRange.fromStartEnd_spec hprevRange
      obtain ⟨hpvalid, hpid, hprange⟩ := setRecordRange_gap
        (hbefore _ (List.mem_of_getLast? hlast))
        (by rw [← TimeRange.endExclusive_timebase, hre, hclock]) hplaced
      refine ⟨before.dropLast, [.gap previous, target], after, [placed, trimmed], hwhole, by simp,
        .of_sameIds ?_ ?_ (by simp [hid, hpid]) (htimed.nodup_run _ hwhole)⟩
      · simpa using ⟨hpvalid, hvalid⟩
      · rintro start stop ⟨hlo', -, -, -, hhi'⟩
        refine ⟨?_, placed.lo_le_hi, ?_, trimmed.lo_le_hi, ?_⟩
        · rw [TimedItem.lo, hprange, hrs]
          exact hlo'
        · rw [hlo, TimedItem.hi, hprange, hre]
        · rw [tiles_nil, hhi, add_zero]
          exact hhi'
  · cases h

end TrimCases

theorem trimRange_spec {oldRange range : TimeRange} {side : EditSide} {to' : RationalTime}
    (h : trimRange oldRange side to' = .ok range) :
    match side with
    | .start => range.start = to' ∧ range.endExclusive = oldRange.endExclusive ∧
        to'.seconds < oldRange.endExclusive.seconds
    | .stop => range.start = oldRange.start ∧ range.endExclusive = to' ∧
        oldRange.start.seconds < to'.seconds := by
  cases side <;> simp only [trimRange] at h <;> split at h <;> try cases h
  · rename_i hlt
    obtain ⟨hrs, hre⟩ := TimeRange.fromStartEnd_spec h
    exact ⟨hrs, hre, RationalTime.lt_iff_seconds.1 hlt⟩
  · rename_i hlt
    obtain ⟨hrs, hre⟩ := TimeRange.fromStartEnd_spec h
    exact ⟨hrs, hre, RationalTime.lt_iff_seconds.1 hlt⟩

theorem applyTrim_evolves {track track' : Track} {timelineId : TimelineId} {trackId : TrackId}
    {targetId : EditorialObjectId} {side : EditSide} {to' : RationalTime} {gapId : Option GapId}
    {outcome : EditOutcome} (hsound : track.Sound)
    (hfresh : ∀ id ∈ gapId.toList.map EditorialObjectId.gap, id ∉ track.objectIds)
    (h : applyTrim track timelineId trackId targetId side to' gapId = .ok (track', outcome)) :
    Evolves track track' (gapId.toList.map .gap) := by
  unfold applyTrim at h
  simp only [bind_eq_ok, Prod.exists] at h
  obtain ⟨_, -, _, hclock, before, target, after, hlocate, _, -, newRange, hnewRange, result,
    hresult, _, -, _, -, h⟩ := h
  obtain ⟨hsplit, -⟩ := locate_spec hlocate
  have hold := hsound.timed
  rw [hsplit] at hold
  have hclock' : to'.timebase = track.timebase := by
    simpa [validatePointClock, rejectIf_eq_ok] using hclock
  have hfreshTimed : ∀ id ∈ gapId.toList.map EditorialObjectId.gap,
      id ∉ (before ++ target :: after).map TimedItem.id := fun id hid hmem =>
    hfresh id hid (mem_objectIds_of_timed (hsplit ▸ hmem))
  have hrewrites : TrimRewrites track.timebase (before ++ target :: after) gapId result := by
    have hspec := trimRange_spec hnewRange
    unfold trimSide at hresult
    cases side with
    | start =>
        obtain ⟨hrs, hre, hlt⟩ := hspec
        simp only at hresult
        split at hresult
        · exact trimStartInward_rewrites hold hclock' hrs hre hlt hfreshTimed hresult
        · exact trimStartOutward_rewrites hold hclock' hrs hre hlt hresult
    | stop =>
        obtain ⟨hrs, hre, hlt⟩ := hspec
        simp only at hresult
        split at hresult
        · exact trimEndInward_rewrites hold hclock' hrs hre hlt hfreshTimed hresult
        · exact trimEndOutward_rewrites hold hclock' hrs hre hlt hresult
  obtain ⟨before', run, after', run', hrun, hresultTimed, hrewrite⟩ := hrewrites
  rw [hresultTimed] at h
  exact (finishEdit_splice _ _ hsound (hsplit.trans hrun) hrewrite (Moved.refl _) hfresh h).1

end Editorial
end Superi

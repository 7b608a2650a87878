import Superi.Timeline.EditLocal

/-!
# EditPlace — edits of one clip, and placements that reuse another edit

Slip and retime change which source instants a clip shows and leave its seat on the track alone.
Extend is a ripple or a roll; three-point and four-point placements derive the missing range and
overwrite.
-/

namespace Superi
namespace Editorial

open Core Result Tiling Sequence

/-! ## Slip and retime -/

/-- Two items that occupy the same place for their neighbours. -/
def SameSeat : TrackItem → TrackItem → Prop
  | .timed old, .timed new => new.id = old.id ∧ new.recordRange = old.recordRange ∧
      new.payload = old.payload
  | .transition old, .transition new => new = old
  | _, _ => False

theorem SameSeat.refl : ∀ item : TrackItem, SameSeat item item
  | .timed _ => ⟨rfl, rfl, rfl⟩
  | .transition _ => rfl

theorem SameSeat.list {old new : List TrackItem} (h : List.Forall₂ SameSeat old new) :
    new.map TrackItem.id = old.map TrackItem.id ∧ transitionsOf new = transitionsOf old ∧
      List.Forall₂ (fun a b => b.id = a.id ∧ b.recordRange = a.recordRange ∧
        b.payload = a.payload) (timedItems old) (timedItems new) := by
  induction h with
  | nil => exact ⟨rfl, rfl, .nil⟩
  | @cons a b _ _ hab _ ih =>
      obtain ⟨hids, htr, htimed⟩ := ih
      cases a <;> cases b
      case timed.timed old new =>
        exact ⟨by simp [TrackItem.id, hids, hab.1], by simpa using htr, .cons hab htimed⟩
      case transition.transition old new =>
        cases hab
        exact ⟨by simp [hids], by simp [htr], htimed⟩
      all_goals cases hab

theorem SameSeat.seamsFit {old new : List TrackItem} (h : List.Forall₂ SameSeat old new) :
    ∀ {previous previous' : Option TrackItem},
      Option.Rel SameSeat previous previous' → SeamsFit previous old → SeamsFit previous' new := by
  have incoming : ∀ {p p' : Option TrackItem}, Option.Rel SameSeat p p' →
      incomingOffset p' = incomingOffset p := by
    intro p p' hp
    cases hp with
    | none => rfl
    | @some a b hab => cases a <;> cases b <;> simp_all [SameSeat, incomingOffset]
  have outgoing : ∀ {xs ys : List TrackItem}, List.Forall₂ SameSeat xs ys →
      outgoingOffset ys.head? = outgoingOffset xs.head? := by
    intro xs ys hxy
    cases hxy with
    | nil => rfl
    | @cons a b _ _ hab _ => cases a <;> cases b <;> simp_all [SameSeat, outgoingOffset]
  induction h with
  | nil => exact fun _ _ => trivial
  | @cons a b as bs hab hrest ih =>
      intro previous previous' hprev hfit
      cases a <;> cases b
      case timed.timed old new =>
        obtain ⟨hroom, hrestFit⟩ := hfit
        refine ⟨?_, ih (.some hab) hrestFit⟩
        rw [incoming hprev, outgoing hrest, hab.2.1]
        exact hroom
      case transition.transition old new =>
        cases hab
        obtain ⟨⟨before, after, hbefore, hafter, hjoins⟩, hrestFit⟩ := hfit
        refine ⟨?_, ih (.some (SameSeat.refl _)) hrestFit⟩
        subst hbefore
        cases hprev with
        | @some _ before' hseat =>
            cases hrest with
            | nil => cases hafter
            | @cons x y _ _ hxy _ =>
                cases hafter
                cases before' with
                | transition _ => cases hseat
                | timed before' =>
                    cases y with
                    | transition _ => cases hxy
                    | timed after' =>
                        exact ⟨before', after', rfl, rfl, hseat.1 ▸ hjoins.fromId,
                          hxy.1 ▸ hjoins.toId, hseat.2.1 ▸ hjoins.fromFits,
                          hxy.2.1 ▸ hjoins.toFits⟩
      all_goals cases hab

/-- Replacing items in place, by items with the same identity, range and texts, keeps a track
sound. -/
theorem sound_of_sameSeat {track : Track} {items : List TrackItem} (hsound : track.Sound)
    (h : List.Forall₂ SameSeat track.items items) :
    Evolves track (track.replaceItems items) [] := by
  obtain ⟨hids, htr, htimed⟩ := SameSeat.list h
  obtain ⟨hnamed, hvalid, htransitions, ⟨stop, htiles⟩, hseams⟩ := hsound.wellFormed
  have hlaid : List.Forall₂ (fun a b => b.lo = a.lo ∧ b.hi = a.hi) (timedItems track.items)
      (timedItems items) := htimed.imp fun a b hab => by
    simp [TimedItem.lo, TimedItem.hi, hab.2.1]
  have hitems : ∀ {old new : List TimedItem}, List.Forall₂ (fun a b => b.id = a.id ∧
      b.recordRange = a.recordRange ∧ b.payload = a.payload) old new →
      (∀ item ∈ old, item.Valid track.timebase) → ∀ item ∈ new, item.Valid track.timebase := by
    intro old new hrel
    induction hrel with
    | nil => exact fun _ _ hmem => (List.not_mem_nil hmem).elim
    | @cons a b _ _ hab _ ih =>
        intro hold item hmem
        rcases List.mem_cons.1 hmem with rfl | hmem
        · have ha := hold a List.mem_cons_self
          exact ⟨by rw [TimedItem.validateTexts_of_payload hab.2.2]; exact ha.texts,
            hab.2.1 ▸ ha.clock,
            ha.nonempty.imp (fun hgap => (TimedItem.isGap_of_payload hab.2.2).trans hgap)
              (fun hne => hab.2.1 ▸ hne)⟩
        · exact ih (fun x hx => hold x (List.mem_cons_of_mem _ hx)) item hmem
  refine ⟨⟨⟨hnamed, hitems htimed hvalid, ?_, ⟨stop, ?_⟩, ?_⟩, ?_⟩, rfl, rfl, rfl, ?_⟩
  · rw [Track.replaceItems_items, htr]
    exact htransitions
  · exact htiles.of_forall₂ (σ := id) monotone_id hlaid
  · exact SameSeat.seamsFit h .none hseams
  · rw [Track.objectIds, Track.replaceItems_items, hids]
    exact hsound.nodup
  · intro id hid
    rw [Track.objectIds, Track.replaceItems_items, hids] at hid
    exact .inl hid

theorem editClip_evolves {track track' : Track} {timelineId : TimelineId} {trackId : TrackId}
    {kind : EditKind} {clipId : ClipId} {notAClip : Error} {edit : Clip → Except Error Clip}
    {outcome : EditOutcome} (hsound : track.Sound)
    (hedit : ∀ clip edited, edit clip = .ok edited →
      edited.id = clip.id ∧ edited.name = clip.name ∧ edited.source = clip.source ∧
        edited.recordRange = clip.recordRange)
    (h : editClip track timelineId trackId kind clipId notAClip edit = .ok (track', outcome)) :
    Evolves track track' [] := by
  unfold editClip at h
  simp only [bind_eq_ok, okOr_eq_ok, Prod.exists] at h
  obtain ⟨before, item, after, hfind, h⟩ := h
  obtain ⟨hsplit, -, -⟩ := splitFirst_eq_some hfind
  split at h
  · rename_i clip
    simp only [bind_eq_ok, pure_eq_ok, Prod.mk.injEq] at h
    obtain ⟨edited, hedited, rfl, -⟩ := h
    obtain ⟨hid, hname, hsource, hrange⟩ := hedit clip edited hedited
    refine sound_of_sameSeat hsound ?_
    rw [hsplit]
    have hsame : ∀ items : List TrackItem, List.Forall₂ SameSeat items items := fun items =>
      List.forall₂_same.2 fun item _ => SameSeat.refl item
    exact List.rel_append (hsame before) (.cons ⟨by simp [TimedItem.id, hid], hrange,
      by simp [TimedItem.payload, hname, hsource]⟩ (hsame after))
  · cases h

theorem slipClip_spec {sourceStart : RationalTime} {clip edited : Clip}
    (h : slipClip sourceStart clip = .ok edited) :
    edited.id = clip.id ∧ edited.name = clip.name ∧ edited.source = clip.source ∧
      edited.recordRange = clip.recordRange := by
  simp only [slipClip, Clip.setSourceRange, bind_eq_ok, pure_eq_ok] at h
  obtain ⟨_, -, _, -, _, -, ranges, -, _, -, rfl⟩ := h
  exact ⟨rfl, rfl, rfl, ranges.2.2⟩

theorem retimeClip_spec {timeMap : ClipTimeMap} {clip edited : Clip}
    (h : retimeClip timeMap clip = .ok edited) :
    edited.id = clip.id ∧ edited.name = clip.name ∧ edited.source = clip.source ∧
      edited.recordRange = clip.recordRange := by
  simp only [retimeClip, Clip.setTimeMap, bind_eq_ok, pure_eq_ok] at h
  obtain ⟨_, -, _, -, rfl⟩ := h
  exact ⟨rfl, rfl, rfl, rfl⟩

/-! ## Extend, three-point and four-point -/

theorem applyExtend_evolves {track track' : Track} {timelineId : TimelineId} {trackId : TrackId}
    {targetId : EditorialObjectId} {side : EditSide} {to' : RationalTime} {mode : ExtendMode}
    {outcome : EditOutcome} (hsound : track.Sound)
    (h : applyExtend track timelineId trackId targetId side to' mode = .ok (track', outcome)) :
    Evolves track track' [] := by
  unfold applyExtend at h
  cases mode with
  | ripple =>
      simp only [bind_eq_ok, pure_eq_ok, Prod.exists, Prod.mk.injEq] at h
      obtain ⟨edited, _, hripple, rfl, -⟩ := h
      exact (applyRipple_evolves hsound hripple).1
  | roll =>
      simp only [bind_eq_ok, pure_eq_ok, Prod.exists, Prod.mk.injEq] at h
      obtain ⟨_, _, -, edited, _, hroll, rfl, -⟩ := h
      exact applyRoll_evolves hsound hroll

theorem clip_named_of_setRanges {clip placed : Clip} {sourceRange recordRange : TimeRange}
    (hnamed : isBlank clip.name = false)
    (h : clip.setRanges sourceRange recordRange = .ok placed) :
    (TrackItem.timed (.clip placed)).Named ∧
      (TrackItem.timed (.clip placed)).suppliedId = [.clip clip.id] := by
  obtain ⟨hid, hname, -⟩ := Clip.setRanges_spec h
  exact ⟨requireText_eq_ok.2 (hname ▸ hnamed), by simp [TrackItem.suppliedId, TimedItem.id, hid]⟩

theorem applyThreePoint_evolves {track track' : Track} {timelineId : TimelineId}
    {trackId : TrackId} {clip : Clip} {placement : ThreePointPlacement}
    {fragmentIds : List EditorialObjectId} {outcome : EditOutcome} (hsound : track.Sound)
    (hnamed : isBlank clip.name = false) (hfresh : FreshFor track (.clip clip.id :: fragmentIds))
    (h : applyThreePoint track timelineId trackId clip placement fragmentIds =
      .ok (track', outcome)) :
    Evolves track track' (.clip clip.id :: fragmentIds) := by
  unfold applyThreePoint at h
  simp only [bind_eq_ok, pure_eq_ok, Prod.exists, Prod.mk.injEq] at h
  obtain ⟨_, _, -, placed, hplaced, edited, outcome', hoverwrite, rfl, -⟩ := h
  obtain ⟨hplacedNamed, hsupplied⟩ := clip_named_of_setRanges hnamed hplaced
  obtain ⟨_, -, -, -, hevolves⟩ := applyOverwrite_spanEdit hsound hoverwrite
  rw [hsupplied] at hevolves
  exact hevolves hplacedNamed hfresh

theorem applyFourPoint_evolves {track track' : Track} {timelineId : TimelineId}
    {trackId : TrackId} {clip : Clip} {sourceRange recordRange : TimeRange}
    {fragmentIds : List EditorialObjectId} {outcome : EditOutcome} (hsound : track.Sound)
    (hnamed : isBlank clip.name = false) (hfresh : FreshFor track (.clip clip.id :: fragmentIds))
    (h : applyFourPoint track timelineId trackId clip sourceRange recordRange fragmentIds =
      .ok (track', outcome)) :
    Evolves track track' (.clip clip.id :: fragmentIds) := by
  unfold applyFourPoint at h
  simp only [bind_eq_ok, pure_eq_ok, Prod.exists, Prod.mk.injEq] at h
  obtain ⟨_, -, _, -, placed, hplaced, edited, outcome', hoverwrite, rfl, -⟩ := h
  obtain ⟨hplacedNamed, hsupplied⟩ := clip_named_of_setRanges hnamed hplaced
  obtain ⟨_, -, -, -, hevolves⟩ := applyOverwrite_spanEdit hsound hoverwrite
  rw [hsupplied] at hevolves
  exact hevolves hplacedNamed hfresh

end Editorial
end Superi

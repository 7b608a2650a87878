import Superi.Timeline.EditPlace
import Superi.Timeline.EditTrim
import Superi.Timeline.ProjectLaws

/-!
# Closure — edits keep tracks valid

Every edit of a track that succeeds leaves a track that passes `validate_track` again, as long as
what the caller supplies is named and brings new, distinct identities.  On a project this makes the
walk over the tracks, with all its timing and transition checks, succeed for the candidate of every
such edit, companion tracks of a synchronized ripple included.
-/

namespace Superi
namespace Editorial

open Core Result Tiling

/-! ## What the caller supplies -/

/-- What an adjustment may insert on its companion track. -/
def RippleSyncAdjustment.suppliedIds (adjustment : RippleSyncAdjustment) :
    List EditorialObjectId :=
  .gap adjustment.gapId :: adjustment.fragmentIds

namespace EditOperation

/-- The material, gap or clip an operation brings along is named. -/
def Named : EditOperation → Prop
  | insert _ _ _ material _ | overwrite _ _ _ material _ | append _ _ material
  | replace _ _ _ material => material.Named
  | lift _ _ _ gap _ => isBlank gap.name = false
  | threePoint _ _ clip _ _ | fourPoint _ _ clip _ _ _ => isBlank clip.name = false
  | _ => True

/-- The identities supplied for the target track. -/
def targetIds : EditOperation → List EditorialObjectId
  | insert _ _ _ material fragmentIds | overwrite _ _ _ material fragmentIds =>
      material.suppliedId ++ fragmentIds
  | append _ _ material | replace _ _ _ material => material.suppliedId
  | lift _ _ _ gap fragmentIds => .gap gap.id :: fragmentIds
  | extract _ _ _ fragmentIds => fragmentIds
  | razor _ _ _ _ fragmentId => [fragmentId]
  | trim _ _ _ _ _ gapId => gapId.toList.map .gap
  | threePoint _ _ clip _ fragmentIds | fourPoint _ _ clip _ _ fragmentIds =>
      .clip clip.id :: fragmentIds
  | _ => []

/-- The adjustments of a synchronized ripple. -/
def adjustments : EditOperation → List RippleSyncAdjustment
  | ripple _ _ _ _ _ syncAdjustments | extend _ _ _ _ _ _ syncAdjustments => syncAdjustments
  | _ => []

def suppliedIds (operation : EditOperation) : List EditorialObjectId :=
  operation.targetIds ++ operation.adjustments.flatMap RippleSyncAdjustment.suppliedIds

end EditOperation

/-! ## One track -/

/-- Every edit of a sound track leaves a sound track. -/
theorem EditOperation.onTrack_evolves {operation : EditOperation}
    {edit : Track → Except Error TrackEdit} {track track' : Track} {outcome : EditOutcome}
    (hedit : operation.onTrack = some edit) (hkind : operation.kind ≠ .setTransition)
    (hsound : track.Sound) (hnamed : operation.Named)
    (hfresh : FreshFor track operation.targetIds) (h : edit track = .ok (track', outcome)) :
    Evolves track track' operation.targetIds := by
  cases operation with
  | linkAudioVideo | synchronizeAudioVideo | detachAudio => cases hedit
  | setTransition => exact absurd rfl hkind
  | insert =>
      cases hedit
      obtain ⟨_, -, -, -, -, hevolves⟩ := applyInsert_spanEdit hsound h
      exact hevolves hnamed hfresh
  | overwrite =>
      cases hedit
      obtain ⟨_, -, -, -, hevolves⟩ := applyOverwrite_spanEdit hsound h
      exact hevolves hnamed hfresh
  | append => cases hedit; exact applyAppend_evolves hsound hnamed hfresh h
  | replace => cases hedit; exact applyReplace_evolves hsound hnamed hfresh h
  | lift => cases hedit; exact (applyLift_spanEdit hsound h).2.2 hnamed hfresh
  | extract => cases hedit; exact (applyExtract_spanEdit hsound h).2.2 hfresh
  | ripple => cases hedit; exact (applyRipple_evolves hsound h).1
  | roll => cases hedit; exact applyRoll_evolves hsound h
  | slip =>
      cases hedit
      exact editClip_evolves hsound (fun _ _ => slipClip_spec) h
  | retime =>
      cases hedit
      exact editClip_evolves hsound (fun _ _ => retimeClip_spec) h
  | slide => cases hedit; exact applySlide_evolves hsound h
  | razor => cases hedit; exact (applyRazor_spanEdit hsound h).2 hfresh
  | trim => cases hedit; exact applyTrim_evolves hsound hfresh.fresh h
  | extend => cases hedit; exact applyExtend_evolves hsound h
  | threePoint => cases hedit; exact applyThreePoint_evolves hsound hnamed hfresh h
  | fourPoint => cases hedit; exact applyFourPoint_evolves hsound hnamed hfresh h

/-! ## The layout of a valid track -/

/-- How the items of a valid track lie on its clock. -/
structure Track.Laid (track : Track) : Prop where
  contiguous : ∃ stop, Tiles TimedItem.lo TimedItem.hi 0 (timedItems track.items) stop
  clock : ∀ item ∈ timedItems track.items, item.recordRange.timebase = track.timebase
  nonempty : ∀ item ∈ timedItems track.items,
    item.isGap = true ∨ item.recordRange.isEmpty = false
  durations : ∀ clip : Clip, .clip clip ∈ timedItems track.items →
    clip.sourceRange.duration ≈ clip.recordRange.duration
  transitions : ∀ transition ∈ transitionsOf track.items, transition.Valid track.timebase
  joined : ∀ front transition back, track.items = front ++ .transition transition :: back →
    ∃ before after, front.getLast? = some (.timed before) ∧ back.head? = some (.timed after) ∧
      transition.Joins before after
  apart : ∀ front into item out back,
    track.items = front ++ .transition into :: .timed item :: .transition out :: back →
    into.toOffset.value + out.fromOffset.value ≤ item.recordRange.duration.value

theorem SeamsFit.joined {transition : Transition} {back : List TrackItem} :
    ∀ {front : List TrackItem} {previous : Option TrackItem},
      SeamsFit previous (front ++ .transition transition :: back) →
      ∃ before after, (front.getLast?.or previous) = some (.timed before) ∧
        back.head? = some (.timed after) ∧ transition.Joins before after
  | [], _, h => by simpa using h.1
  | .timed item :: front, previous, h => by
      simpa [List.getLast?_cons] using SeamsFit.joined h.2
  | .transition item :: front, previous, h => by
      simpa [List.getLast?_cons] using SeamsFit.joined h.2

theorem SeamsFit.apart {into out : Transition} {item : TimedItem} {back : List TrackItem} :
    ∀ {front : List TrackItem} {previous : Option TrackItem},
      SeamsFit previous (front ++ .transition into :: .timed item :: .transition out :: back) →
      into.toOffset.value + out.fromOffset.value ≤ item.recordRange.duration.value
  | [], _, h => h.2.1
  | .timed _ :: _, _, h => SeamsFit.apart h.2
  | .transition _ :: _, _, h => SeamsFit.apart h.2

theorem Track.WellFormed.laid {track : Track} (h : track.WellFormed) : track.Laid where
  contiguous := h.tiles
  clock := fun item hmem => (h.timed item hmem).clock
  nonempty := fun item hmem => (h.timed item hmem).nonempty
  durations := fun clip _ => clip.ranges.synchronized
  transitions := h.transitions
  joined := fun front transition back hitems => by
    have hseams : SeamsFit none (front ++ .transition transition :: back) := hitems ▸ h.seams
    simpa using hseams.joined
  apart := fun front into item out back hitems => SeamsFit.apart (hitems ▸ h.seams)

/-! ## One timeline -/

/-- One track edited in place, with its intent handed on. -/
theorem editTrack_evolvesTo {timeline timeline' : Timeline} {trackId : TrackId}
    {edit : Track → Except Error TrackEdit} {outcome : EditOutcome}
    {supplied : List EditorialObjectId} (hsound : timeline.TracksSound)
    (hedit : ∀ track track' outcome, track ∈ timeline.tracks → edit track = .ok (track', outcome) →
      Evolves track track' supplied)
    (hfresh : ∀ id ∈ supplied, id ∉ objectsOf timeline.tracks)
    (h : editTrack timeline trackId edit = .ok (timeline', outcome)) :
    timeline.EvolvesTo timeline' supplied := by
  simp only [editTrack, bind_eq_ok, pure_eq_ok, Prod.exists, Prod.mk.injEq] at h
  obtain ⟨track, hfind, track', outcome', hedited, inherited, hfragments, final, hreplacement, rfl,
    rfl⟩ := h
  obtain ⟨before, after, hsplit, hid, hstore⟩ := Timeline.trackMut_eq_ok hfind
  have hevolves := hedit track track' outcome' (by simp [hsplit]) hedited
  refine (hsound.setTrack hsplit hevolves hfresh).of_tracks ?_
  rw [(inheritReplacementIntent_sameTracks hreplacement).tracks,
    (inheritFragmentIntent_sameTracks hfragments).tracks,
    hstore track' (hevolves.id.trans hid)]

theorem objectIds_sub_objectsOf {tracks : List Track} {track : Track} (hmem : track ∈ tracks) :
    ∀ id ∈ track.objectIds, id ∈ objectsOf tracks := fun _ hid =>
  List.mem_flatMap.2 ⟨track, hmem, hid⟩

theorem FreshFor.of_timeline {tracks : List Track} {track : Track}
    {supplied : List EditorialObjectId} (hmem : track ∈ tracks) (hnodup : supplied.Nodup)
    (hfresh : ∀ id ∈ supplied, id ∉ objectsOf tracks) : FreshFor track supplied :=
  ⟨hnodup, fun id hid hin => hfresh id hid (objectIds_sub_objectsOf hmem id hin)⟩

theorem syncGap_named {gapId : GapId} {range : TimeRange} :
    (TrackItem.timed
      (.gap { id := gapId, name := "sync ripple gap", recordRange := range })).Named :=
  requireText_eq_ok.2 (show isBlank "sync ripple gap" = false by decide)

/-- A companion opens or closes time and stays sound. -/
theorem rippleCompanion_evolves {timelineId : TimelineId} {pivot : RationalTime}
    {magnitude : Duration} {extending : Bool} {companion companion' : Track}
    {adjustment : RippleSyncAdjustment} {outcome : EditOutcome} (hsound : companion.Sound)
    (hfresh : FreshFor companion adjustment.suppliedIds)
    (h : rippleCompanion timelineId pivot magnitude extending companion adjustment =
      .ok (companion', outcome)) :
    Evolves companion companion' adjustment.suppliedIds := by
  simp only [rippleCompanion, bind_eq_ok] at h
  obtain ⟨companionPivot, -, companionDuration, -, h⟩ := h
  split at h
  · rw [bind_eq_ok] at h
    obtain ⟨recordRange, -, hinsert⟩ := h
    obtain ⟨_, -, -, -, -, hevolves⟩ := applyInsert_spanEdit hsound hinsert
    exact hevolves (syncGap_named) hfresh
  · simp only [bind_eq_ok] at h
    obtain ⟨_, -, range, -, hextract⟩ := h
    have hevolves := (applyExtract_spanEdit hsound hextract).2.2
      ⟨(List.nodup_cons.1 hfresh.nodup).2, fun id hid => hfresh.fresh id (List.mem_cons_of_mem _ hid)⟩
    exact ⟨hevolves.sound, hevolves.id, hevolves.name, hevolves.semantics, fun id hid =>
      (hevolves.ids id hid).imp_right (List.mem_cons_of_mem _)⟩

/-- The loop over the companions, by induction on the adjustments: what one adjustment is supplied
is new to the timeline the adjustments before it leave. -/
theorem rippleCompanions_evolveTo {timelineId : TimelineId} {pivot : RationalTime}
    {magnitude : Duration} {extending : Bool} {adjustments : List RippleSyncAdjustment} :
    ∀ {state state' : Timeline × List EditFragment}, state.1.TracksSound →
      (adjustments.flatMap RippleSyncAdjustment.suppliedIds).Nodup →
      (∀ id ∈ adjustments.flatMap RippleSyncAdjustment.suppliedIds, id ∉ objectsOf state.1.tracks) →
      adjustments.foldlM (rippleCompanionStep timelineId pivot magnitude extending) state =
        .ok state' →
      state.1.EvolvesTo state'.1 (adjustments.flatMap RippleSyncAdjustment.suppliedIds) := by
  induction adjustments with
  | nil =>
      intro state state' hsound _ _ h
      rw [List.foldlM_nil, pure_eq_ok] at h
      subst h
      exact ⟨hsound, rfl, fun id hid => .inl hid⟩
  | cons adjustment rest ih =>
      intro state state' hsound hnodup hfresh h
      rw [List.flatMap_cons] at hnodup hfresh ⊢
      obtain ⟨hhead, htail, hdisj⟩ := List.nodup_append.1 hnodup
      simp only [List.foldlM_cons, bind_eq_ok, rippleCompanionStep, pure_eq_ok, Prod.exists,
        Prod.mk.injEq] at h
      obtain ⟨_, _, ⟨companion, hfind, companion', outcome, hcompanion, rfl, rfl⟩, hrest⟩ := h
      obtain ⟨before, after, hsplit, hid, hstore⟩ := Timeline.trackMut_eq_ok hfind
      have hmem : companion ∈ state.1.tracks := by simp [hsplit]
      have hheadFresh : ∀ id ∈ adjustment.suppliedIds, id ∉ objectsOf state.1.tracks :=
        fun id hid => hfresh id (List.mem_append_left _ hid)
      have hevolves := rippleCompanion_evolves (hsound.sound companion hmem)
        (.of_timeline hmem hhead hheadFresh) hcompanion
      have hstep := hsound.setTrack hsplit hevolves hheadFresh
      rw [← hstore companion' (hevolves.id.trans hid)] at hstep
      refine hstep.trans (@ih (state.1.setTrack companion', _) _ hstep.sound htail
        (fun id hid hin => ?_) hrest)
      rcases hstep.ids id hin with hin | hin
      · exact hfresh id (List.mem_append_right _ hid) hin
      · exact hdisj id hin id hid rfl

/-- A synchronized ripple keeps every track of its timeline sound. -/
theorem applySynchronizedRipple_evolvesTo {timeline timeline' : Timeline} {timelineId : TimelineId}
    {trackId : TrackId} {targetId : EditorialObjectId} {side : EditSide} {to' : RationalTime}
    {adjustments : List RippleSyncAdjustment} {outcome : EditOutcome}
    (hsound : timeline.TracksSound)
    (hnodup : (adjustments.flatMap RippleSyncAdjustment.suppliedIds).Nodup)
    (hfresh : ∀ id ∈ adjustments.flatMap RippleSyncAdjustment.suppliedIds,
      id ∉ objectsOf timeline.tracks)
    (h : applySynchronizedRipple timeline timelineId trackId targetId side to' adjustments =
      .ok (timeline', outcome)) :
    timeline.EvolvesTo timeline' (adjustments.flatMap RippleSyncAdjustment.suppliedIds) := by
  simp only [applySynchronizedRipple, bind_eq_ok, pure_eq_ok, Prod.exists, Prod.mk.injEq] at h
  obtain ⟨_, -, _, -, _, -, _, -, track, hfind, track', _, hripple, _, _, -, rippled, fragments,
    hcompanions, final, hinherit, rfl, -⟩ := h
  obtain ⟨before, after, hsplit, hid, hstore⟩ := Timeline.trackMut_eq_ok hfind
  have hevolves := (applyRipple_evolves (hsound.sound track (by simp [hsplit])) hripple).1
  have hstep := hsound.setTrack hsplit hevolves (by simp)
  rw [← hstore track' (hevolves.id.trans hid)] at hstep
  have hrest := rippleCompanions_evolveTo
    (show (timeline.setTrack track', ([] : List EditFragment)).1.TracksSound from hstep.sound)
    hnodup (fun id hid hin => hfresh id hid ((hstep.ids id hin).resolve_right (by simp))) hcompanions
  exact (hstep.trans hrest).of_tracks (inheritFragmentIntent_sameTracks hinherit).tracks

/-! ## Operations -/

/-- Ripples adjust companion tracks too. -/
def EditOperation.synchronized : EditOperation → Bool
  | ripple .. => true
  | extend _ _ _ _ _ .ripple _ => true
  | _ => false

/-- The item a ripple starts from. -/
def EditOperation.rippleTarget : EditOperation → Option EditorialObjectId
  | ripple _ _ targetId .. | extend _ _ targetId .. => some targetId
  | _ => none

/-- Every other operation with a track edit edits that track only. -/
theorem applyToTimeline_eq_editTrack {timeline : Timeline} {operation : EditOperation}
    {edit : Track → Except Error TrackEdit} (hedit : operation.onTrack = some edit)
    (hsync : operation.synchronized = false) :
    applyToTimeline timeline operation = editTrack timeline operation.trackId edit := by
  cases operation with
  | linkAudioVideo | synchronizeAudioVideo | detachAudio => cases hedit
  | ripple => cases hsync
  | extend _ _ _ _ _ mode =>
      cases mode with
      | ripple => cases hsync
      | roll => cases hedit; rfl
  | _ => cases hedit; rfl

/-- A synchronized operation runs the synchronized ripple of its timeline. -/
theorem applyToTimeline_synchronized {timeline timeline' : Timeline} {operation : EditOperation}
    {outcome : EditOutcome} (hsync : operation.synchronized = true)
    (h : applyToTimeline timeline operation = .ok (timeline', outcome)) :
    ∃ targetId side to' rippled rippleOutcome, operation.rippleTarget = some targetId ∧
      applySynchronizedRipple timeline operation.timelineId operation.trackId targetId side to'
        operation.adjustments = .ok (rippled, rippleOutcome) ∧
      rippled.SameTracks timeline' ∧ outcome.durationChange = rippleOutcome.durationChange ∧
      outcome.synchronizedTracks = rippleOutcome.synchronizedTracks := by
  cases operation with
  | ripple timelineId trackId targetId side to' adjustments =>
      simp only [applyToTimeline, bind_eq_ok, pure_eq_ok, Prod.exists, Prod.mk.injEq] at h
      obtain ⟨rippled, rippleOutcome, hripple, final, hinherit, rfl, rfl⟩ := h
      exact ⟨targetId, side, to', rippled, rippleOutcome, rfl, hripple,
        inheritFragmentIntent_sameTracks hinherit, rfl, rfl⟩
  | extend timelineId trackId targetId side to' mode adjustments =>
      cases mode with
      | roll => cases hsync
      | ripple =>
          simp only [applyToTimeline, bind_eq_ok, pure_eq_ok, Prod.exists, Prod.mk.injEq] at h
          obtain ⟨rippled, rippleOutcome, hripple, final, hinherit, rfl, rfl⟩ := h
          exact ⟨targetId, side, to', rippled, rippleOutcome, rfl, hripple,
            inheritFragmentIntent_sameTracks hinherit, rfl, rfl⟩
  | _ => cases hsync

theorem targetIds_of_synchronized {operation : EditOperation}
    (hsync : operation.synchronized = true) : operation.targetIds = [] := by
  cases operation <;> first | rfl | cases hsync

theorem applyToTimeline_evolvesTo {timeline timeline' : Timeline} {operation : EditOperation}
    {outcome : EditOutcome} (hedit : operation.onTrack ≠ none)
    (hkind : operation.kind ≠ .setTransition) (hsound : timeline.TracksSound)
    (hnamed : operation.Named) (hnodup : operation.suppliedIds.Nodup)
    (hfresh : ∀ id ∈ operation.suppliedIds, id ∉ objectsOf timeline.tracks)
    (h : applyToTimeline timeline operation = .ok (timeline', outcome)) :
    timeline.EvolvesTo timeline' operation.suppliedIds := by
  cases hsync : operation.synchronized with
  | true =>
      obtain ⟨targetId, side, to', rippled, _, -, hripple, hsame, -⟩ :=
        applyToTimeline_synchronized hsync h
      rw [EditOperation.suppliedIds, targetIds_of_synchronized hsync] at hnodup hfresh ⊢
      exact (applySynchronizedRipple_evolvesTo hsound hnodup hfresh hripple).of_tracks hsame.tracks
  | false =>
      obtain ⟨edit, hedit⟩ := Option.ne_none_iff_exists'.1 hedit
      rw [applyToTimeline_eq_editTrack hedit hsync] at h
      have htarget : ∀ id ∈ operation.targetIds, id ∉ objectsOf timeline.tracks :=
        fun id hid => hfresh id (List.mem_append_left _ hid)
      have hevolves := editTrack_evolvesTo hsound (fun track track' _ hmem hok =>
        EditOperation.onTrack_evolves hedit hkind (hsound.sound track hmem) hnamed
          (.of_timeline hmem (List.nodup_append.1 hnodup).1 htarget) hok) htarget h
      exact ⟨hevolves.sound, hevolves.trackIds, fun id hid =>
        (hevolves.ids id hid).imp_right (List.mem_append_left _)⟩

/-! ## Projects -/

/-- Some object on a track of the project has the identity. -/
def EditorialProject.Mentions (project : EditorialProject) (id : EditorialObjectId) : Prop :=
  ∃ (key : TimelineId) (timeline : Timeline), project.timelines[key]? = some timeline ∧
    id ∈ objectsOf timeline.tracks

/-- The candidate of one operation has sound tracks in every timeline. -/
theorem applyOperation_candidate_sound {project : EditorialProject} {operation : EditOperation}
    {draft : ProjectDraft} {outcome : EditOutcome} (hedit : operation.onTrack ≠ none)
    (hkind : operation.kind ≠ .setTransition) (hsound : TimelinesSound project.timelines)
    (hnamed : operation.Named) (hnodup : operation.suppliedIds.Nodup)
    (hfresh : ∀ id ∈ operation.suppliedIds, ¬ project.Mentions id)
    (h : applyOperation project.draft operation = .ok (draft, outcome)) :
    TimelinesSound (project.candidate draft).timelines := by
  simp only [applyOperation, bind_eq_ok, pure_eq_ok, Prod.exists, Prod.mk.injEq,
    ProjectDraft.timelineMut, okOr_eq_ok] at h
  obtain ⟨timeline, hfind, _, -, timeline', _, happly, rfl, rfl⟩ := h
  have hfresh' : ∀ (key : TimelineId) (other : Timeline), project.timelines[key]? = some other →
      ∀ id ∈ operation.suppliedIds, id ∉ objectsOf other.tracks :=
    fun key other hkey id hid hmem => hfresh id hid ⟨key, other, hkey, hmem⟩
  have hevolves := applyToTimeline_evolvesTo hedit hkind (hsound.timeline _ _ hfind) hnamed hnodup
    (hfresh' _ _ hfind) happly
  exact (hsound.insert hfind hevolves hfresh').reconcile

/-! ## Closure -/

/-- A successful edit of a valid track, supplied with named material and new, distinct identities,
leaves a valid track.  On a valid project the candidate of such an operation passes every check on
its tracks, so whether it is rejected depends on the other checks alone. -/
theorem edits_preserve_validity (operation : EditOperation)
    (hkind : operation.kind ≠ .setTransition) (hnamed : operation.Named)
    (hnodup : operation.suppliedIds.Nodup) :
    (∀ (edit : Track → Except Error TrackEdit) (track track' : Track) (outcome : EditOutcome)
        (claimed claimed' : Finset EditorialObjectId), operation.onTrack = some edit →
      validateTrack track claimed = .ok claimed' →
      (∀ id ∈ operation.targetIds, id ∉ claimed') → edit track = .ok (track', outcome) →
      (∃ result, validateTrack track' claimed = .ok result) ∧ track'.Laid) ∧
    (∀ (project : EditorialProject) (draft : ProjectDraft) (outcome : EditOutcome),
      operation.onTrack ≠ none → project.validate = .ok () →
      (∀ id ∈ operation.suppliedIds, ¬ project.Mentions id) →
      applyOperation project.draft operation = .ok (draft, outcome) →
      (∃ claimed, (project.candidate draft).validateTracks = .ok claimed) ∧
      (project.candidate draft).validate = (project.candidate draft).validateOthers) := by
  constructor
  · intro edit track track' outcome claimed claimed' hedit hvalid hfresh hok
    obtain ⟨hwell, hids, hclaimed, rfl⟩ := validateTrack_eq_ok_iff.1 hvalid
    have hevolves := EditOperation.onTrack_evolves hedit hkind ⟨hwell, hids⟩ hnamed
      ⟨(List.nodup_append.1 hnodup).1, fun id hid hmem => hfresh id hid (by simp [hmem])⟩ hok
    refine ⟨⟨_, validateTrack_eq_ok_iff.2 ⟨hevolves.sound.wellFormed, hevolves.sound.nodup,
      fun id hid => ?_, rfl⟩⟩, hevolves.sound.wellFormed.laid⟩
    rcases hevolves.ids id hid with hold | hsupplied
    · exact hclaimed id hold
    · exact fun hmem => hfresh id hsupplied (by simp [hmem])
  · intro project draft outcome hedit hvalid hfresh hok
    have hsound := applyOperation_candidate_sound hedit hkind
      (EditorialProject.timelinesSound_of_validate hvalid) hnamed hnodup hfresh hok
    exact ⟨EditorialProject.validateTracks_ok_iff.2 hsound,
      EditorialProject.validate_eq_validateOthers hsound⟩

/-! ### An instance -/

/-- A clock of 24 units a second. -/
def filmClock : Timebase := Timebase.integer 24 Timebase.pos_24 Timebase.fits_24

def filmRange (start length : Nat)
    (h : (length : Int) ≤ i64Max ∧ InI64 start ∧ InI64 ((start : Int) + length)) : TimeRange where
  start := ⟨start, filmClock, h.2.1⟩
  duration := ⟨length, filmClock, h.1⟩
  oneTimebase := rfl
  endFits := h.2.2

theorem ten_fit : ((10 : Nat) : Int) ≤ i64Max ∧ InI64 (0 : Nat) ∧ InI64 (((0 : Nat) : Int) + (10 : Nat)) := by
  decide

/-- A project with one track that holds one gap of ten frames. -/
def slateTrack : Track where
  id := ⟨1⟩
  name := "V1"
  semantics := .video filmClock .over
  items := [.timed (.gap { id := ⟨1⟩, name := "slate", recordRange := filmRange 0 10 ten_fit })]

def slateTimeline : Timeline :=
  .new ⟨1⟩ "Slate" filmClock (RationalTime.zero filmClock) [slateTrack]

def slateProject : EditorialProject where
  id := ⟨1⟩
  name := "Slate"
  revision := 0
  mediaReferences := ∅
  mediaLibrary := ⟨∅, ∅⟩
  timelines := (∅ : Std.ExtTreeMap TimelineId Timeline).insert ⟨1⟩ slateTimeline

/-- Split the gap at its fourth frame. -/
def slateRazor : EditOperation :=
  .razor ⟨1⟩ ⟨1⟩ (.gap ⟨1⟩) ⟨4, filmClock, by decide⟩ (.gap ⟨2⟩)

theorem slate_mentions {id : EditorialObjectId} (h : slateProject.Mentions id) : id = .gap ⟨1⟩ := by
  obtain ⟨key, timeline, hkey, hid⟩ := h
  simp only [slateProject, Std.ExtTreeMap.getElem?_insert] at hkey
  split at hkey
  · cases hkey
    simpa [slateTimeline, Timeline.new, slateTrack, objectsOf, Track.objectIds,
      TrackItem.id] using hid
  · simp at hkey

theorem edits_preserve_validity_slate :
    (∃ track' outcome result,
      applyRazor slateTrack ⟨1⟩ ⟨1⟩ (.gap ⟨1⟩) ⟨4, filmClock, by decide⟩ (.gap ⟨2⟩) =
        .ok (track', outcome) ∧
      validateTrack track' ∅ = .ok result ∧ track'.Laid) ∧
    ∃ draft outcome, applyOperation slateProject.draft slateRazor = .ok (draft, outcome) ∧
      (slateProject.candidate draft).validate = (slateProject.candidate draft).validateOthers := by
  obtain ⟨htrack, hproject⟩ := edits_preserve_validity slateRazor (by decide) trivial (by decide)
  obtain ⟨⟨track', outcome⟩, hedit⟩ := exists_ok_of_isSome (x := applyRazor slateTrack ⟨1⟩ ⟨1⟩
    (.gap ⟨1⟩) ⟨4, filmClock, by decide⟩ (.gap ⟨2⟩)) (by decide)
  obtain ⟨⟨draft, reported⟩, hoperation⟩ := exists_ok_of_isSome
    (x := applyOperation slateProject.draft slateRazor) (by decide)
  obtain ⟨⟨result, hvalid⟩, hlaid⟩ := htrack _ slateTrack track' outcome ∅ {.gap ⟨1⟩} rfl
    (by decide) (by decide) hedit
  refine ⟨⟨track', outcome, result, hedit, hvalid, hlaid⟩, draft, reported, hoperation,
    (hproject slateProject draft reported (by simp [slateRazor, EditOperation.onTrack])
      (by decide +kernel) (fun id hid hmentions => ?_) hoperation).2⟩
  have hnew : id = .gap ⟨2⟩ := by simpa [slateRazor, EditOperation.suppliedIds,
    EditOperation.targetIds, EditOperation.adjustments] using hid
  have hold := slate_mentions hmentions
  rw [hnew] at hold
  simp at hold

end Editorial
end Superi

import Superi.Timeline.MulticamOps
import Superi.Timeline.Relations

/-!
# Settled — publishing keeps what a project already has

Every edit of a project reconciles its timelines before it is published.  The timelines of a
published project are settled: nothing they keep refers to anything that is gone, and their
components are in order.  Reconciliation leaves a settled timeline alone, so that an edit changes
the timelines it touches and no other.
-/

namespace Superi
namespace Editorial

open Core Result Keyed

/-! ## Maps and components -/

section Maps

variable {α β : Type*} [Ord α] [Std.TransOrd α] [Std.LawfulEqOrd α]

theorem filter_map_eq_self {map : Std.ExtTreeMap α β} {keep : α → β → Bool}
    (h : ∀ (key : α) (value : β), map[key]? = some value → keep key value = true) :
    map.filter keep = map := by
  refine Std.ExtTreeMap.ext_getElem? fun key => ?_
  rw [Std.ExtTreeMap.getElem?_filter']
  cases hvalue : map[key]? with
  | none => rfl
  | some value => exact Option.filter_eq_some_iff.2 ⟨rfl, h key value hvalue⟩

theorem filter_set_eq_self {set : Std.ExtTreeSet α} {keep : α → Bool}
    (h : ∀ key ∈ set, keep key = true) : set.filter keep = set := by
  refine Std.ExtTreeSet.ext_mem fun key => ?_
  rw [Std.ExtTreeSet.mem_filter]
  constructor
  · exact fun ⟨hmem, _⟩ => hmem
  · intro hmem
    refine ⟨hmem, ?_⟩
    rw [Std.ExtTreeSet.get_eq]
    exact h key hmem

theorem insertIfNew_of_mem {map : Std.ExtTreeMap α β} {key : α} {value : β} (h : key ∈ map) :
    map.insertIfNew key value = map := by
  refine Std.ExtTreeMap.ext_getElem? fun other => ?_
  rw [Std.ExtTreeMap.getElem?_insertIfNew, if_neg fun hnew => hnew.2 h]

end Maps

/-- Components whose members are all kept stay as they are. -/
theorem restrictRelations_eq_self {relations : List ClipRelation} {keep : ClipId → Bool}
    (hsize : ∀ relation ∈ relations, 2 ≤ relation.members.size)
    (hkeep : ∀ relation ∈ relations, ∀ id ∈ relation.members, keep id = true)
    (hordered : relations.Pairwise NotAfter) : restrictRelations relations keep = relations := by
  have hmap : (relations.map fun relation => (⟨relation.members.filter keep⟩ : ClipRelation)) =
      relations := by
    refine (List.map_congr_left fun relation hmem => ?_).trans (List.map_id _)
    exact congrArg ClipRelation.mk (filter_set_eq_self (hkeep relation hmem))
  rw [restrictRelations, hmap, List.filter_eq_self.2 fun relation hmem =>
    decide_eq_true (hsize relation hmem)]
  exact hordered.insertionSort_eq

/-- What the validation of components says about each. -/
theorem of_validateRelations {operation : String} {relations : List ClipRelation}
    {clipIds : Finset ClipId} (h : validateRelations operation relations clipIds = .ok ()) :
    ∀ relation ∈ relations, 2 ≤ relation.members.size ∧ ∀ id ∈ relation.members, id ∈ clipIds := by
  rw [validateRelations, bind_eq_ok] at h
  obtain ⟨_, hall, -⟩ := h
  intro relation hmem
  obtain ⟨claimed, claimed', hrelation⟩ := exists_ok_of_foldlM hall relation hmem
  rw [validateRelation, bind_eq_ok] at hrelation
  obtain ⟨_, hsize, hmembers⟩ := hrelation
  refine ⟨Nat.le_of_not_lt (rejectIf_eq_ok.1 hsize), fun id hid => ?_⟩
  obtain ⟨_, _, hclaim⟩ := exists_ok_of_foldlM hmembers id (Std.ExtTreeSet.mem_toList.2 hid)
  rw [claimMember, bind_eq_ok] at hclaim
  obtain ⟨_, hclip, -⟩ := hclaim
  exact not_not.1 (rejectIf_eq_ok.1 hclip)

/-! ## The parts of a timeline -/

/-- Links and groups in canonical order. -/
def TimelineEditState.Ordered (state : TimelineEditState) : Prop :=
  state.links.Pairwise NotAfter ∧ state.groups.Pairwise NotAfter

namespace TimelineEditState

variable {state : TimelineEditState} {tracks : List Track}

theorem ordered_reconcile (state : TimelineEditState) (tracks : List Track) :
    (state.reconcile tracks).Ordered :=
  ⟨pairwise_sortRelations _, pairwise_sortRelations _⟩

/-- A valid state has a record for every track, and no others. -/
theorem mem_trackStates_of_validate (h : state.validate tracks = .ok ()) (trackId : TrackId) :
    trackId ∈ state.trackStates ↔ trackId ∈ trackIdsOf tracks := by
  rw [validate, bind_eq_ok] at h
  obtain ⟨_, hcover, -⟩ := h
  obtain ⟨hsize, hkeys⟩ := not_or.1 (rejectIf_eq_ok.1 hcover)
  have hsub : state.trackStates.keys.toFinset ⊆ trackIdsOf tracks := by
    intro id hid
    by_contra hnot
    exact hkeys ⟨id, List.mem_toFinset.1 hid, hnot⟩
  have hcard : (trackIdsOf tracks).card ≤ state.trackStates.keys.toFinset.card := by
    rw [List.toFinset_card_of_nodup (nodup_keys _), Std.ExtTreeMap.length_keys, ← not_not.1 hsize]
  rw [← Finset.eq_of_subset_of_card_le hsub hcard, List.mem_toFinset, Std.ExtTreeMap.mem_keys]

theorem foldl_insertIfNew_eq_self {states : Std.ExtTreeMap TrackId TrackEditState}
    (h : ∀ track ∈ tracks, track.id ∈ states) :
    tracks.foldl (fun states track => states.insertIfNew track.id (TrackEditState.new track.id))
      states = states := by
  induction tracks with
  | nil => rfl
  | cons track tracks ih =>
      rw [List.foldl_cons, insertIfNew_of_mem (h track List.mem_cons_self)]
      exact ih fun other hmem => h other (List.mem_cons_of_mem _ hmem)

/-- A valid state in order has nothing to reconcile. -/
theorem reconcile_eq_self (h : state.validate tracks = .ok ()) (hordered : state.Ordered) :
    state.reconcile tracks = state := by
  have htracks := mem_trackStates_of_validate h
  simp only [validate, bind_eq_ok] at h
  obtain ⟨_, -, _, -, _, hselected, _, hlinks, hgroups⟩ := h
  have hkept : (state.trackStates.filter fun trackId _ => trackId ∈ trackIdsOf tracks) =
      state.trackStates :=
    filter_map_eq_self fun id _ hid => decide_eq_true ((htracks id).1 (mem_of_getElem?_eq_some hid))
  have hselection : (state.selectedObjects.filter fun object => object ∈ objectIdsOf tracks) =
      state.selectedObjects := by
    refine filter_set_eq_self fun object hmem => decide_eq_true ?_
    by_contra hnot
    exact rejectIf_eq_ok.1 hselected ⟨object, Std.ExtTreeSet.mem_toList.2 hmem, hnot⟩
  have hrelations : ∀ {operation relations},
      validateRelations operation relations (clipIdsOf tracks) = .ok () →
      relations.Pairwise NotAfter → reconcileRelations relations (clipIdsOf tracks) = relations :=
    fun hvalid => restrictRelations_eq_self (fun relation hmem => (of_validateRelations hvalid
      relation hmem).1) fun relation hmem id hid =>
        decide_eq_true ((of_validateRelations hvalid relation hmem).2 id hid)
  unfold reconcile
  rw [hkept, hselection, hrelations hlinks hordered.1, hrelations hgroups hordered.2]
  dsimp only
  rw [foldl_insertIfNew_eq_self fun track hmem => (htracks track.id).2
    (mem_trackIdsOf.2 ⟨track, hmem, rfl⟩)]

/-- The steps of an edit state keep its components in order. -/
theorem Ordered.of_steps {state : TimelineEditState} {tracks : List Track}
    (h : Relation.ReflTransGen RelationStep (.fromTracks tracks) state) : state.Ordered := by
  have hrelated : Related state := by
    induction h with
    | refl => exact related_fromTracks tracks
    | tail _ hstep ih => exact hstep.related ih
  have hordered : ∀ {relations : List ClipRelation}, WellFormed relations →
      relations.Pairwise NotAfter :=
    fun hwell => hwell.ordered.imp fun hlt => by rw [NotAfter, hlt]; rfl
  exact ⟨hordered hrelated.links, hordered hrelated.groups⟩

end TimelineEditState

namespace TimelineAnnotations

variable {annotations : TimelineAnnotations} {editRate : Timebase} {tracks : List Track}
  {claimed claimed' : Finset MarkerId}

/-- An owner with a clock exists. -/
theorem markerOwnerExists_of_ownerClock {owner : MarkerOwner} {clock : Timebase}
    (h : ownerClock owner editRate tracks = some clock) :
    markerOwnerExists owner tracks = true := by
  cases owner with
  | timeline => rfl
  | track trackId =>
      obtain ⟨track, hfind, -⟩ := Option.map_eq_some_iff.1 h
      exact List.any_eq_true.2 ⟨track, List.mem_of_find?_eq_some hfind,
        by simpa using List.find?_some hfind⟩
  | object object =>
      obtain ⟨found, hfind, -⟩ := Option.bind_eq_some_iff.1 h
      exact Option.isSome_iff_exists.2 ⟨found, hfind⟩

/-- Valid annotations have nothing to reconcile. -/
theorem reconcile_eq_self
    (h : annotations.validate editRate tracks claimed = .ok claimed') :
    annotations.reconcile tracks = annotations := by
  simp only [validate, bind_eq_ok, pure_eq_ok] at h
  obtain ⟨_, hmarkers, _, hmetadata, -⟩ := h
  have hkept : (annotations.markers.filter fun _ marker => markerOwnerExists marker.owner tracks) =
      annotations.markers := by
    refine filter_map_eq_self fun id marker hmarker => ?_
    obtain ⟨_, _, hstep⟩ := exists_ok_of_foldlM hmarkers (id, marker)
      (Std.ExtTreeMap.mem_toList_iff_getElem?_eq_some.2 hmarker)
    simp only [bind_eq_ok, validateMarker, okOr_eq_ok] at hstep
    obtain ⟨_, -, _, ⟨clock, hclock, -⟩, -⟩ := hstep
    exact markerOwnerExists_of_ownerClock hclock
  unfold reconcile
  rw [hkept]
  dsimp only
  rw [filter_map_eq_self]
  intro owner _ howner
  have hvalid := forM_eq_ok.1 hmetadata owner
    (Std.ExtTreeMap.mem_keys.2 (mem_of_getElem?_eq_some howner))
  simpa using rejectIf_eq_ok.1 hvalid

end TimelineAnnotations

/-! ## Timelines -/

namespace Timeline

variable {timeline timeline' : Timeline}

/-- Components are in order, and every program belongs to a clip that is there. -/
structure Settled (timeline : Timeline) : Prop where
  ordered : timeline.editState.Ordered
  programs : ∀ id ∈ timeline.multicamClips, id ∈ timeline.existingClips

theorem mem_existingClips {id : ClipId} {clip : Clip}
    (h : timeline.findClip id = some clip) : id ∈ timeline.existingClips := by
  have hid : clip.id = id := by simpa using List.find?_some h
  rw [existingClips, List.mem_toFinset, ← hid]
  exact List.mem_map_of_mem (List.mem_of_find?_eq_some h)

theorem multicamClip_reconcile (timeline : Timeline) (id : ClipId) :
    timeline.reconcile.multicamClip id =
      (timeline.multicamClip id).filter fun _ => id ∈ timeline.existingClips := by
  unfold multicamClip reconcile reconcileMulticamState
  rw [Std.ExtTreeMap.getElem?_filter']
  rfl

theorem settled_reconcile (timeline : Timeline) : timeline.reconcile.Settled where
  ordered := TimelineEditState.ordered_reconcile _ _
  programs id hid := by
    obtain ⟨clip, hclip⟩ := Option.isSome_iff_exists.1
      (Std.ExtTreeMap.isSome_getElem?_iff_mem.2 hid)
    have hget := multicamClip_reconcile timeline id
    rw [multicamClip, hclip] at hget
    exact of_decide_eq_true (Option.filter_eq_some_iff.1 hget.symm).2

/-- The angles of a valid source have nothing to reconcile. -/
theorem reconcile_source_eq_self {claimed claimed' : Finset MulticamAngleId}
    (h : EditorialProject.validateMulticamSource claimed timeline = .ok claimed') :
    (timeline.multicamSource.map fun source => source.reconcile timeline.existingClips) =
      timeline.multicamSource := by
  cases hsource : timeline.multicamSource with
  | none => rfl
  | some source =>
      simp only [EditorialProject.validateMulticamSource, hsource, bind_eq_ok] at h
      obtain ⟨_, -, hangles⟩ := h
      have hangle : ∀ angle ∈ source.angles, angle.reconcile timeline.existingClips = angle := by
        intro angle hmem
        obtain ⟨_, _, hvalid⟩ := exists_ok_of_foldlM hangles angle hmem
        simp only [EditorialProject.validateMulticamAngle, bind_eq_ok] at hvalid
        obtain ⟨_, -, _, hranges, -⟩ := hvalid
        have hclips : angle.sourceClips.filter (fun id => id ∈ timeline.existingClips) =
            angle.sourceClips := by
          refine List.filter_eq_self.2 fun id hid => decide_eq_true ?_
          obtain ⟨_, hrange⟩ := exists_ok_of_mapM hranges hid
          simp only [EditorialProject.multicamSourceRange, bind_eq_ok, okOr_eq_ok] at hrange
          obtain ⟨clip, hclip, -⟩ := hrange
          exact mem_existingClips hclip
        rw [MulticamAngle.reconcile, hclips]
      have hangles : (source.angles.map fun angle => angle.reconcile timeline.existingClips) =
          source.angles :=
        (List.map_congr_left hangle).trans (List.map_id _)
      rw [Option.map_some, MulticamSource.reconcile, hangles]

/-- A settled timeline that passes the checks of its project has nothing to reconcile. -/
theorem reconcile_eq_self (hsettled : timeline.Settled)
    {claimed claimed' : EditorialProject.Claimed} {angles angles' : Finset MulticamAngleId}
    (hvalid : EditorialProject.validateTimeline claimed timeline = .ok claimed')
    (hsource : EditorialProject.validateMulticamSource angles timeline = .ok angles') :
    timeline.reconcile = timeline := by
  simp only [EditorialProject.validateTimeline, bind_eq_ok, Prod.exists] at hvalid
  obtain ⟨_, -, _, -, _, _, -, _, hstate, _, hannotations, -⟩ := hvalid
  have hprograms : (timeline.multicamClips.filter fun id _ => id ∈ timeline.existingClips) =
      timeline.multicamClips :=
    filter_map_eq_self fun id _ hid =>
      decide_eq_true (hsettled.programs id (mem_of_getElem?_eq_some hid))
  have hsame : reconcile timeline = { timeline with
      editState := timeline.editState.reconcile timeline.tracks
      annotations := timeline.annotations.reconcile timeline.tracks
      multicamClips := timeline.multicamClips.filter fun id _ => id ∈ timeline.existingClips
      multicamSource := timeline.multicamSource.map fun source =>
        source.reconcile timeline.existingClips } := rfl
  rw [hsame, TimelineEditState.reconcile_eq_self hstate hsettled.ordered,
    TimelineAnnotations.reconcile_eq_self hannotations, hprograms, reconcile_source_eq_self hsource]

/-! ### Timelines under construction -/

/-- One step of the programs of a timeline. -/
inductive ProgramStep : Timeline → Timeline → Prop
  | put (timeline : Timeline) (clip : MulticamClip) :
      ProgramStep timeline (timeline.putMulticamClip clip.clipId clip)
  | remove (timeline : Timeline) (id : ClipId) :
      ProgramStep timeline (timeline.removeMulticamClip id)
  | inherit (timeline : Timeline) (original created : ClipId) :
      ProgramStep timeline (timeline.inheritMulticamFragment original created)
  | transfer (timeline : Timeline) (removed inserted : ClipId) :
      ProgramStep timeline (timeline.transferMulticamClip removed inserted)
  | reconcile (timeline : Timeline) : ProgramStep timeline timeline.reconcileMulticamState
  -- tracks, edit state, annotations and angles
  | other {timeline timeline' : Timeline} (h : timeline'.multicamClips = timeline.multicamClips) :
      ProgramStep timeline timeline'

/-- Every program is filed under its clip. -/
def Filed (timeline : Timeline) : Prop :=
  ∀ (id : ClipId) (clip : MulticamClip), timeline.multicamClips[id]? = some clip → clip.clipId = id

theorem ProgramStep.filed (hstep : ProgramStep timeline timeline') (h : timeline.Filed) :
    timeline'.Filed := by
  intro id clip hclip
  cases hstep with
  | put made =>
      rw [putMulticamClip, getElem?_insert_eq] at hclip
      split at hclip
      · rename_i heq
        cases hclip
        exact heq.symm
      · exact h id clip hclip
  | remove removed =>
      rw [removeMulticamClip, getElem?_erase_eq] at hclip
      split at hclip
      · cases hclip
      · exact h id clip hclip
  | inherit original created =>
      rw [inheritMulticamFragment] at hclip
      dsimp only at hclip
      split at hclip
      · rw [getElem?_insert_eq] at hclip
        split at hclip
        · rename_i heq
          cases hclip
          exact heq.symm
        · exact h id clip hclip
      · exact h id clip hclip
  | transfer removed inserted =>
      rw [transferMulticamClip] at hclip
      dsimp only at hclip
      split at hclip
      · rw [getElem?_insert_eq] at hclip
        split at hclip
        · rename_i heq
          cases hclip
          exact heq.symm
        · rw [getElem?_erase_eq] at hclip
          split at hclip
          · cases hclip
          · exact h id clip hclip
      · exact h id clip hclip
  | reconcile =>
      rw [reconcileMulticamState, Std.ExtTreeMap.getElem?_filter', Option.filter_eq_some_iff]
        at hclip
      exact h id clip hclip.1
  | other hsame => exact h id clip (hsame ▸ hclip)

/-- A timeline as its methods build it: its components and its programs come from nothing. -/
structure Built (timeline : Timeline) : Prop where
  relations : ∃ tracks,
    Relation.ReflTransGen RelationStep (.fromTracks tracks) timeline.editState
  programs : ∃ start : Timeline, start.multicamClips = ∅ ∧
    Relation.ReflTransGen ProgramStep start timeline

theorem Built.filed (h : timeline.Built) : timeline.Filed := by
  obtain ⟨start, hempty, hsteps⟩ := h.programs
  clear h
  induction hsteps with
  | refl =>
      intro id clip hclip
      rw [hempty] at hclip
      cases hclip
  | tail _ hstep ih => exact hstep.filed ih

end Timeline

/-! ## Projects -/

namespace EditorialProject

variable {project edited : EditorialProject}

/-- A project as it can be published: checked when it is created or restored, and from then on
changed by edits. -/
inductive Published : EditorialProject → Prop
  | new {project : EditorialProject} (hvalid : project.validate = .ok ())
      (hbuilt : ∀ (id : TimelineId) (timeline : Timeline),
        project.timelines[id]? = some timeline → timeline.Built) : Published project
  | edit {α : Type} {project edited : EditorialProject} {expectedRevision : Nat}
      {change : ProjectDraft → Except Error (ProjectDraft × α)} {reported : α}
      (h : project.edit expectedRevision change = .ok (edited, reported)) : Published edited

theorem edit_eq_ok {α : Type} {expectedRevision : Nat}
    {change : ProjectDraft → Except Error (ProjectDraft × α)} {reported : α} :
    project.edit expectedRevision change = .ok (edited, reported) ↔
      expectedRevision = project.revision ∧ project.revision < 18446744073709551615 ∧
      (∃ draft, change project.draft = .ok (draft, reported) ∧ edited = project.candidate draft) ∧
      edited.validate = .ok () := by
  simp only [EditorialProject.edit, bind_eq_ok, rejectIf_eq_ok, pure_eq_ok, Prod.exists,
    Prod.mk.injEq, not_le, not_not, ne_eq]
  constructor
  · rintro ⟨_, hrevision, draft, _, hchange, _, hroom, _, hvalid, rfl, rfl⟩
    exact ⟨hrevision, hroom, ⟨draft, hchange, rfl⟩, hvalid⟩
  · rintro ⟨hrevision, hroom, ⟨draft, hchange, rfl⟩, hvalid⟩
    exact ⟨(), hrevision, draft, reported, hchange, (), hroom, (), hvalid, rfl, rfl⟩

theorem Published.valid (h : project.Published) : project.validate = .ok () := by
  cases h with
  | new hvalid _ => exact hvalid
  | edit hedit => exact (edit_eq_ok.1 hedit).2.2.2

/-- What a valid project says about each of its timelines. -/
theorem of_validate (h : project.validate = .ok ()) {id : TimelineId} {timeline : Timeline}
    (hid : project.timelines[id]? = some timeline) :
    (∃ claimed claimed', validateTimeline claimed timeline = .ok claimed') ∧
      (∃ angles angles', validateMulticamSource angles timeline = .ok angles') ∧
      ∀ (clipId : ClipId) (state : MulticamClip), timeline.multicamClips[clipId]? = some state →
        ∃ clip, timeline.findClip state.clipId = some clip := by
  have hmem : timeline ∈ valuesOf project.timelines := mem_valuesOf.2 ⟨id, hid⟩
  simp only [validate, validateTimelines, validateMulticam, bind_eq_ok] at h
  obtain ⟨_, -, _, -, _, -, _, htimelines, _, -, _, -, _, -, _, hsources, htargets⟩ := h
  refine ⟨exists_ok_of_foldlM htimelines timeline hmem, exists_ok_of_foldlM hsources timeline hmem,
    fun clipId state hstate => ?_⟩
  have htarget := forM_eq_ok.1 (forM_eq_ok.1 htargets timeline hmem) state
    (mem_valuesOf.2 ⟨clipId, hstate⟩)
  simp only [validateMulticamTarget, bind_eq_ok, okOr_eq_ok] at htarget
  obtain ⟨clip, hclip, -⟩ := htarget
  exact ⟨clip, hclip⟩

/-- The timelines of a published project are settled. -/
theorem Published.settled (h : project.Published) {id : TimelineId} {timeline : Timeline}
    (hid : project.timelines[id]? = some timeline) : timeline.Settled := by
  cases h with
  | new hvalid hbuilt =>
      have hbuilt := hbuilt id timeline hid
      obtain ⟨tracks, hsteps⟩ := hbuilt.relations
      refine ⟨.of_steps hsteps, fun clipId hclip => ?_⟩
      obtain ⟨state, hstate⟩ := Option.isSome_iff_exists.1
        (Std.ExtTreeMap.isSome_getElem?_iff_mem.2 hclip)
      obtain ⟨clip, hfound⟩ := (of_validate hvalid hid).2.2 clipId state hstate
      rw [hbuilt.filed clipId state hstate] at hfound
      exact Timeline.mem_existingClips hfound
  | edit hedit =>
      obtain ⟨-, -, ⟨draft, -, rfl⟩, -⟩ := edit_eq_ok.1 hedit
      rw [candidate, reconcileTimelineState, Std.ExtTreeMap.getElem?_map, Option.map_eq_some_iff]
        at hid
      obtain ⟨old, -, rfl⟩ := hid
      exact old.settled_reconcile

/-- Publishing keeps the timelines of a published project that an edit leaves alone. -/
theorem Published.reconcile_timelines (h : project.Published) :
    (project.timelines.map fun _ timeline => timeline.reconcile) = project.timelines := by
  refine Std.ExtTreeMap.ext_getElem? fun id => ?_
  rw [Std.ExtTreeMap.getElem?_map]
  cases hid : project.timelines[id]? with
  | none => rfl
  | some timeline =>
      obtain ⟨⟨_, _, hvalid⟩, ⟨_, _, hsource⟩, -⟩ := of_validate h.valid hid
      exact congrArg some (Timeline.reconcile_eq_self (h.settled hid) hvalid hsource)

/-- A project with one timeline without tracks. -/
def reelProject : EditorialProject where
  id := ⟨2⟩
  name := "reel"
  revision := 0
  mediaReferences := ∅
  mediaLibrary := ⟨∅, ∅⟩
  timelines := (∅ : Std.ExtTreeMap TimelineId Timeline).insert ⟨1⟩
    (.new ⟨1⟩ "sequence" filmClock (.zero filmClock) [])

theorem reelProject_checks : reelProject.validate.toOption.isSome = true ∧
    (reelProject.candidate { reelProject.draft with name := "cut" }).validate.toOption.isSome
      = true := by
  decide +kernel

theorem reelProject_published : reelProject.Published := by
  obtain ⟨⟨⟩, hvalid⟩ := exists_ok_of_isSome reelProject_checks.1
  refine .new hvalid fun id timeline hid => ?_
  rw [reelProject, getElem?_insert_eq] at hid
  split at hid
  · cases hid
    exact ⟨⟨[], .refl⟩, ⟨_, rfl, .refl⟩⟩
  · cases hid

/-- An edit of a published project takes the next revision, and a timeline it does not touch is the
timeline it was. -/
theorem Published.edit_frame {α : Type} {expectedRevision : Nat}
    {change : ProjectDraft → Except Error (ProjectDraft × α)} {draft : ProjectDraft} {reported : α}
    (h : project.Published) (hchange : change project.draft = .ok (draft, reported))
    (hedit : project.edit expectedRevision change = .ok (edited, reported)) :
    expectedRevision = project.revision ∧ edited.revision = project.revision + 1 ∧
      edited.id = project.id ∧ edited.Published ∧
      ∀ id : TimelineId, draft.timelines[id]? = project.timelines[id]? →
        edited.timelines[id]? = project.timelines[id]? := by
  obtain ⟨hrevision, -, ⟨last, hlast, rfl⟩, -⟩ := edit_eq_ok.1 hedit
  cases hchange.symm.trans hlast
  refine ⟨hrevision, rfl, rfl, .edit hedit, fun id hsame => ?_⟩
  have hkept := congrArg (fun timelines : Std.ExtTreeMap TimelineId Timeline => timelines[id]?)
    h.reconcile_timelines
  simp only [Std.ExtTreeMap.getElem?_map] at hkept
  rw [candidate, reconcileTimelineState, Std.ExtTreeMap.getElem?_map, hsame, hkept]

/-- The project is renamed. -/
theorem edit_frame_reel : ∃ edited,
    reelProject.edit 0 (fun draft => .ok ({ draft with name := "cut" }, ())) = .ok (edited, ()) ∧
      edited.revision = 1 ∧
      edited.timelines[(⟨1⟩ : TimelineId)]? = reelProject.timelines[(⟨1⟩ : TimelineId)]? := by
  obtain ⟨⟨⟩, hvalid⟩ := exists_ok_of_isSome reelProject_checks.2
  have hedit : reelProject.edit 0 (fun draft => .ok ({ draft with name := "cut" }, ())) =
      .ok (reelProject.candidate { reelProject.draft with name := "cut" }, ()) :=
    edit_eq_ok.2 ⟨rfl, by decide, ⟨_, rfl, rfl⟩, hvalid⟩
  obtain ⟨-, hrevision, -, -, hkept⟩ := reelProject_published.edit_frame rfl hedit
  exact ⟨_, hedit, hrevision, hkept ⟨1⟩ rfl⟩

end EditorialProject

end Editorial
end Superi

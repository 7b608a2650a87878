import Superi.Timeline.Batch
import Superi.Timeline.EditRebuild

/-!
# ProjectLaws — what editing does to the tracks of a project

Validating the tracks of a project in turn, with the identities they claim, comes to three facts:
every track is well formed, and no track or object identity occurs twice.  Handing intent on and
reconciling it leave the tracks alone, so an operation is judged by the tracks it stores.
-/

namespace Superi
namespace Editorial

open Core Result Sequence Keyed

/-! ## Tracks in turn -/

/-- The object identities on some tracks, in order. -/
abbrev objectsOf (tracks : List Track) : List EditorialObjectId :=
  tracks.flatMap Track.objectIds

theorem validateTimelineTracks_eq_ok_iff {tracks : List Track}
    {claimed result : Finset TrackId × Finset EditorialObjectId} :
    tracks.foldlM EditorialProject.validateTimelineTrack claimed = .ok result ↔
      (∀ track ∈ tracks, track.WellFormed) ∧ (tracks.map Track.id).Nodup ∧
      (∀ track ∈ tracks, track.id ∉ claimed.1) ∧ (objectsOf tracks).Nodup ∧
      (∀ id ∈ objectsOf tracks, id ∉ claimed.2) ∧
      result = (claimed.1 ∪ (tracks.map Track.id).toFinset,
        claimed.2 ∪ (objectsOf tracks).toFinset) := by
  induction tracks generalizing claimed with
  | nil => simp only [List.foldlM_nil, pure_eq_ok]; simp [eq_comm]
  | cons track rest ih =>
      simp only [List.foldlM_cons, bind_eq_ok, EditorialProject.validateTimelineTrack,
        rejectIf_eq_ok, pure_eq_ok, validateTrack_eq_ok_iff, ih, List.map_cons, List.nodup_cons,
        List.flatMap_cons, List.nodup_append, List.forall_mem_cons, List.forall_mem_append]
      constructor
      · rintro ⟨_, ⟨_, hid, objects, ⟨hwell, hnodup, hfresh, rfl⟩, rfl⟩, hwells, hids, hidsFresh,
          hobjects, hobjectsFresh, rfl⟩
        simp only [Finset.mem_insert, not_or] at hidsFresh
        simp only [Finset.mem_union, List.mem_toFinset, not_or] at hobjectsFresh
        refine ⟨⟨hwell, hwells⟩, ⟨fun hmem => ?_, hids⟩, ⟨hid, fun t ht => (hidsFresh t ht).2⟩,
          ⟨hnodup, hobjects, fun a ha b hb hab => (hobjectsFresh b hb).2 (hab ▸ ha)⟩,
          ⟨hfresh, fun id hmem => (hobjectsFresh id hmem).1⟩, ?_⟩
        · obtain ⟨t, ht, heq⟩ := List.mem_map.1 hmem
          exact (hidsFresh t ht).1 heq
        · ext <;> simp
      · rintro ⟨⟨hwell, hwells⟩, ⟨hid, hids⟩, ⟨hidFresh, hidsFresh⟩, ⟨hnodup, hobjects, hdisj⟩,
          ⟨hfresh, hobjectsFresh⟩, rfl⟩
        refine ⟨_, ⟨(), hidFresh, _, ⟨hwell, hnodup, hfresh, rfl⟩, rfl⟩, hwells, hids,
          fun t ht => ?_, hobjects, fun id hmem => ?_, ?_⟩
        · simp only [Finset.mem_insert, not_or]
          exact ⟨fun heq => hid (heq ▸ List.mem_map_of_mem ht), hidsFresh t ht⟩
        · simp only [Finset.mem_union, List.mem_toFinset, not_or]
          exact ⟨hobjectsFresh id hmem, fun hmem' => hdisj id hmem' id hmem rfl⟩
        · ext <;> simp

/-- The tracks of one timeline are sound and share no identity. -/
structure Timeline.TracksSound (timeline : Timeline) : Prop where
  sound : ∀ track ∈ timeline.tracks, track.Sound
  trackIds : (timeline.tracks.map Track.id).Nodup
  objectIds : (objectsOf timeline.tracks).Nodup

/-- The tracks of all timelines are sound and share no identity. -/
structure TimelinesSound (timelines : Std.ExtTreeMap TimelineId Timeline) : Prop where
  timeline : ∀ (id : TimelineId) (timeline : Timeline), timelines[id]? = some timeline →
    timeline.TracksSound
  trackIds : ∀ (id id' : TimelineId) (timeline timeline' : Timeline), id ≠ id' →
    timelines[id]? = some timeline → timelines[id']? = some timeline' →
    List.Disjoint (timeline.tracks.map Track.id) (timeline'.tracks.map Track.id)
  objectIds : ∀ (id id' : TimelineId) (timeline timeline' : Timeline), id ≠ id' →
    timelines[id]? = some timeline → timelines[id']? = some timeline' →
    List.Disjoint (objectsOf timeline.tracks) (objectsOf timeline'.tracks)

namespace EditorialProject

/-- A valid timeline has sound tracks. -/
theorem tracksSound_of_validateTimeline {timeline : Timeline} {claimed result : Claimed}
    (h : validateTimeline claimed timeline = .ok result) : timeline.TracksSound := by
  simp only [validateTimeline, bind_eq_ok, Prod.exists] at h
  obtain ⟨_, -, _, -, tracks, objects, htracks, -⟩ := h
  obtain ⟨hwell, hids, -, hobjects, -⟩ := validateTimelineTracks_eq_ok_iff.1 htracks
  exact ⟨fun track hmem => ⟨hwell track hmem, (List.nodup_flatMap.1 hobjects).1 track hmem⟩, hids,
    hobjects⟩

/-- The part of validation that walks over the tracks of the project. -/
def validateTracks (project : EditorialProject) :
    Except Error (Finset TrackId × Finset EditorialObjectId) :=
  ((valuesOf project.timelines).flatMap Timeline.tracks).foldlM validateTimelineTrack (∅, ∅)

theorem validateTracks_ok_iff {project : EditorialProject} :
    (∃ claimed, project.validateTracks = .ok claimed) ↔ TimelinesSound project.timelines := by
  have hmap : ((valuesOf project.timelines).flatMap Timeline.tracks).map Track.id =
      (valuesOf project.timelines).flatMap fun timeline => timeline.tracks.map Track.id :=
    List.map_flatMap
  have hobjects : objectsOf ((valuesOf project.timelines).flatMap Timeline.tracks) =
      (valuesOf project.timelines).flatMap fun timeline => objectsOf timeline.tracks :=
    List.flatMap_assoc
  simp only [validateTracks, validateTimelineTracks_eq_ok_iff, hmap, hobjects,
    nodup_flatMap_valuesOf, List.mem_flatMap, mem_valuesOf]
  constructor
  · rintro ⟨_, hwell, ⟨hids, hidsApart⟩, -, ⟨hobjects, hobjectsApart⟩, -⟩
    refine ⟨fun id timeline hid => ⟨fun track hmem => ⟨hwell track ⟨timeline, ⟨id, hid⟩, hmem⟩, ?_⟩,
      hids id timeline hid, hobjects id timeline hid⟩, hidsApart, hobjectsApart⟩
    exact (List.nodup_flatMap.1 (hobjects id timeline hid)).1 track hmem
  · intro h
    refine ⟨_, ?_, ⟨fun id timeline hid => (h.timeline id timeline hid).trackIds, h.trackIds⟩,
      by simp, ⟨fun id timeline hid => (h.timeline id timeline hid).objectIds, h.objectIds⟩,
      by simp, rfl⟩
    rintro track ⟨timeline, ⟨id, hid⟩, hmem⟩
    exact ((h.timeline id timeline hid).sound track hmem).wellFormed

theorem validateTimelines_tracks {timelines : List Timeline} {claimed result : Claimed}
    (h : timelines.foldlM validateTimeline claimed = .ok result) :
    (timelines.flatMap Timeline.tracks).foldlM validateTimelineTrack
      (claimed.tracks, claimed.objects) = .ok (result.tracks, result.objects) := by
  induction timelines generalizing claimed with
  | nil =>
      rw [List.foldlM_nil, pure_eq_ok] at h
      subst h
      rfl
  | cons timeline rest ih =>
      simp only [List.foldlM_cons, bind_eq_ok, validateTimeline, pure_eq_ok, Prod.exists] at h
      obtain ⟨_, ⟨_, -, _, -, tracks, objects, htracks, _, -, markers, -, rfl⟩, hrest⟩ := h
      rw [List.flatMap_cons, List.foldlM_append, bind_eq_ok]
      exact ⟨_, htracks, ih hrest⟩

/-- A valid project has sound tracks. -/
theorem timelinesSound_of_validate {project : EditorialProject} {u : Unit}
    (h : project.validate = .ok u) : TimelinesSound project.timelines := by
  simp only [validate, bind_eq_ok] at h
  obtain ⟨_, -, _, -, _, -, claimed, htimelines, -⟩ := h
  exact validateTracks_ok_iff.1 ⟨_, validateTimelines_tracks htimelines⟩

/-! ### Validation without the tracks -/

/-- The checks on one timeline other than those on its tracks. -/
def validateTimelineOthers (markers : Finset MarkerId) (timeline : Timeline) :
    Except Error (Finset MarkerId) := do
  requireText "validate_timeline" "timeline name" timeline.name
  rejectIf (timeline.globalStart.timebase ≠ timeline.editRate)
    (invalid "validate_timeline" "timeline global start must use its edit rate")
  timeline.editState.validate timeline.tracks
  timeline.annotations.validate timeline.editRate timeline.tracks markers

/-- The checks on a project other than those on its tracks: texts, clocks of timelines, intent,
annotations, source links, nesting and multicam. -/
def validateOthers (project : EditorialProject) : Except Error Unit := do
  requireText "validate_project" "project name" project.name
  (valuesOf project.mediaReferences).forM LinkedMediaReference.validate
  project.mediaLibrary.validate project.mediaReferences
  let _ ← (valuesOf project.timelines).foldlM validateTimelineOthers ∅
  project.validateSourceLinks
  project.validateNestingCycles
  project.validateNestedRanges
  project.validateMulticam

theorem foldlM_validateTimelineOthers {timelines : List Timeline} {claimed : Claimed}
    {result : Finset TrackId × Finset EditorialObjectId}
    (h : (timelines.flatMap Timeline.tracks).foldlM validateTimelineTrack
      (claimed.tracks, claimed.objects) = .ok result) :
    timelines.foldlM validateTimelineOthers claimed.markers =
      (timelines.foldlM validateTimeline claimed).map Claimed.markers := by
  induction timelines generalizing claimed with
  | nil => rfl
  | cons timeline rest ih =>
      rw [List.flatMap_cons, List.foldlM_append, bind_eq_ok] at h
      obtain ⟨⟨tracks, objects⟩, htracks, hrest⟩ := h
      simp only [List.foldlM_cons, validateTimelineOthers, validateTimeline, htracks]
      cases requireText "validate_timeline" "timeline name" timeline.name with
      | error e => rfl
      | ok _ =>
          cases rejectIf (timeline.globalStart.timebase ≠ timeline.editRate)
              (invalid "validate_timeline" "timeline global start must use its edit rate") with
          | error e => rfl
          | ok _ =>
              cases timeline.editState.validate timeline.tracks with
              | error e => rfl
              | ok _ =>
                  cases timeline.annotations.validate timeline.editRate timeline.tracks
                      claimed.markers with
                  | error e => rfl
                  | ok markers => exact @ih ⟨tracks, objects, markers⟩ hrest

/-- With sound tracks, validation comes down to its other checks. -/
theorem validate_eq_validateOthers {project : EditorialProject}
    (h : TimelinesSound project.timelines) : project.validate = project.validateOthers := by
  obtain ⟨result, htracks⟩ := validateTracks_ok_iff.2 h
  have hothers : (valuesOf project.timelines).foldlM validateTimelineOthers ∅ =
      ((valuesOf project.timelines).foldlM validateTimeline ⟨∅, ∅, ∅⟩).map Claimed.markers :=
    @foldlM_validateTimelineOthers _ ⟨∅, ∅, ∅⟩ _ htracks
  simp only [validate, validateOthers, validateTimelines, hothers]
  cases (valuesOf project.timelines).foldlM validateTimeline ⟨∅, ∅, ∅⟩ <;> rfl

end EditorialProject

/-! ## Handing intent on leaves the tracks alone -/

/-- Two timelines that differ at most in selection, relationships, annotations and multicam
state. -/
structure Timeline.SameTracks (timeline timeline' : Timeline) : Prop where
  id : timeline'.id = timeline.id
  name : timeline'.name = timeline.name
  editRate : timeline'.editRate = timeline.editRate
  globalStart : timeline'.globalStart = timeline.globalStart
  tracks : timeline'.tracks = timeline.tracks

namespace Timeline.SameTracks

@[simp] theorem refl (timeline : Timeline) : timeline.SameTracks timeline :=
  ⟨rfl, rfl, rfl, rfl, rfl⟩

theorem trans {first second third : Timeline} (h : first.SameTracks second)
    (h' : second.SameTracks third) : first.SameTracks third :=
  ⟨h'.id.trans h.id, h'.name.trans h.name, h'.editRate.trans h.editRate,
    h'.globalStart.trans h.globalStart, h'.tracks.trans h.tracks⟩

end Timeline.SameTracks

theorem Timeline.setMetadata_sameTracks {timeline timeline' : Timeline} {owner : MetadataOwner}
    {metadata : TimelineMetadata} (h : timeline.setMetadata owner metadata = .ok timeline') :
    timeline.SameTracks timeline' := by
  simp only [Timeline.setMetadata, bind_eq_ok, pure_eq_ok] at h
  obtain ⟨_, -, rfl⟩ := h
  exact ⟨rfl, rfl, rfl, rfl, rfl⟩

theorem inheritFragment_sameTracks {timeline timeline' : Timeline} {fragment : EditFragment}
    (h : inheritFragment timeline fragment = .ok timeline') : timeline.SameTracks timeline' := by
  unfold inheritFragment at h
  split at h
  · split at h
    · exact Timeline.setMetadata_sameTracks h
    · rw [pure_eq_ok] at h
      exact h ▸ .refl _
  · simp only [bind_eq_ok, pure_eq_ok] at h
    obtain ⟨selected, hselected, linked, hlinked, grouped, hgrouped, rfl⟩ := h
    have hfirst : timeline.SameTracks selected := by
      unfold inheritSelection at hselected
      split at hselected
      · simp only [Timeline.updateSelection, bind_eq_ok, pure_eq_ok] at hselected
        obtain ⟨_, -, rfl⟩ := hselected
        exact ⟨rfl, rfl, rfl, rfl, rfl⟩
      · rw [pure_eq_ok] at hselected
        exact hselected ▸ .refl _
    have hsecond : selected.SameTracks linked := by
      unfold inheritLink at hlinked
      split at hlinked
      · simp only [Timeline.linkClips, bind_eq_ok, pure_eq_ok] at hlinked
        obtain ⟨_, -, rfl⟩ := hlinked
        exact ⟨rfl, rfl, rfl, rfl, rfl⟩
      · rw [pure_eq_ok] at hlinked
        exact hlinked ▸ .refl _
    have hthird : linked.SameTracks grouped := by
      unfold inheritGroup at hgrouped
      split at hgrouped
      · simp only [Timeline.groupClips, bind_eq_ok, pure_eq_ok] at hgrouped
        obtain ⟨_, -, rfl⟩ := hgrouped
        exact ⟨rfl, rfl, rfl, rfl, rfl⟩
      · rw [pure_eq_ok] at hgrouped
        exact hgrouped ▸ .refl _
    exact ((hfirst.trans hsecond).trans hthird).trans ⟨rfl, rfl, rfl, rfl, rfl⟩
  · rw [pure_eq_ok] at h
    exact h ▸ .refl _

theorem inheritFragmentIntent_sameTracks {timeline timeline' : Timeline}
    {fragments : List EditFragment} (h : inheritFragmentIntent timeline fragments = .ok timeline') :
    timeline.SameTracks timeline' := by
  unfold inheritFragmentIntent at h
  induction fragments generalizing timeline with
  | nil =>
      rw [List.foldlM_nil, pure_eq_ok] at h
      exact h ▸ .refl _
  | cons fragment rest ih =>
      rw [List.foldlM_cons, bind_eq_ok] at h
      obtain ⟨next, hnext, hrest⟩ := h
      exact (inheritFragment_sameTracks hnext).trans (ih hrest)

theorem inheritReplacementIntent_sameTracks {timeline timeline' : Timeline} {outcome : EditOutcome}
    (h : inheritReplacementIntent timeline outcome = .ok timeline') :
    timeline.SameTracks timeline' := by
  unfold inheritReplacementIntent at h
  split at h
  · split at h
    · simp only [Timeline.transferClipIntent, bind_eq_ok, pure_eq_ok] at h
      obtain ⟨_, ⟨_, -, rfl⟩, rfl⟩ := h
      exact ⟨rfl, rfl, rfl, rfl, rfl⟩
    · rw [pure_eq_ok] at h
      exact h ▸ .refl _
  · rw [pure_eq_ok] at h
    exact h ▸ .refl _

theorem Timeline.reconcile_sameTracks (timeline : Timeline) :
    timeline.SameTracks timeline.reconcile :=
  ⟨rfl, rfl, rfl, rfl, rfl⟩

/-- Soundness of the tracks only depends on the tracks. -/
theorem TimelinesSound.reconcile {timelines : Std.ExtTreeMap TimelineId Timeline}
    (h : TimelinesSound timelines) :
    TimelinesSound (timelines.map fun _ timeline => Timeline.reconcile timeline) := by
  have hget : ∀ (id : TimelineId) (timeline : Timeline),
      (timelines.map fun _ timeline => Timeline.reconcile timeline)[id]? = some timeline →
      ∃ old, timelines[id]? = some old ∧ timeline.tracks = old.tracks := by
    intro id timeline hid
    rw [Std.ExtTreeMap.getElem?_map, Option.map_eq_some_iff] at hid
    obtain ⟨old, hold, rfl⟩ := hid
    exact ⟨old, hold, old.reconcile_sameTracks.tracks⟩
  refine ⟨fun id timeline hid => ?_, fun id id' timeline timeline' hne hid hid' => ?_,
    fun id id' timeline timeline' hne hid hid' => ?_⟩
  · obtain ⟨old, hold, htracks⟩ := hget id timeline hid
    obtain ⟨h₁, h₂, h₃⟩ := h.timeline id old hold
    exact ⟨htracks ▸ h₁, htracks ▸ h₂, htracks ▸ h₃⟩
  · obtain ⟨old, hold, htracks⟩ := hget id timeline hid
    obtain ⟨old', hold', htracks'⟩ := hget id' timeline' hid'
    rw [htracks, htracks']
    exact h.trackIds _ _ _ _ hne hold hold'
  · obtain ⟨old, hold, htracks⟩ := hget id timeline hid
    obtain ⟨old', hold', htracks'⟩ := hget id' timeline' hid'
    rw [htracks, htracks']
    exact h.objectIds _ _ _ _ hne hold hold'

/-! ## Storing a track -/

theorem Timeline.trackMut_eq_ok {timeline : Timeline} {id : TrackId} {track : Track}
    (h : timeline.trackMut id = .ok track) :
    ∃ before after, timeline.tracks = before ++ track :: after ∧ track.id = id ∧
      ∀ track' : Track, track'.id = id →
        timeline.setTrack track' = { timeline with tracks := before ++ track' :: after } := by
  rw [Timeline.trackMut, okOr_eq_ok, Timeline.track, find?_eq_splitFirst,
    Option.map_eq_some_iff] at h
  obtain ⟨⟨before, found, after⟩, hsplit, rfl⟩ := h
  obtain ⟨htracks, hid, -⟩ := splitFirst_eq_some hsplit
  refine ⟨before, after, htracks, by simpa using hid, fun track' hid' => ?_⟩
  rw [Timeline.setTrack, hid', hsplit]

/-- What a change of tracks that was supplied some identities makes of a timeline. -/
structure Timeline.EvolvesTo (timeline timeline' : Timeline) (supplied : List EditorialObjectId) :
    Prop where
  sound : timeline'.TracksSound
  trackIds : timeline'.tracks.map Track.id = timeline.tracks.map Track.id
  ids : ∀ id ∈ objectsOf timeline'.tracks, id ∈ objectsOf timeline.tracks ∨ id ∈ supplied

theorem Timeline.EvolvesTo.trans {first second third : Timeline}
    {supplied supplied' : List EditorialObjectId} (h : first.EvolvesTo second supplied)
    (h' : second.EvolvesTo third supplied') : first.EvolvesTo third (supplied ++ supplied') where
  sound := h'.sound
  trackIds := h'.trackIds.trans h.trackIds
  ids id hid := by
    rcases h'.ids id hid with hid | hid
    · exact (h.ids id hid).imp_right (List.mem_append_left _)
    · exact .inr (List.mem_append_right _ hid)

theorem Timeline.EvolvesTo.of_tracks {timeline other timeline' : Timeline}
    {supplied : List EditorialObjectId} (h : timeline.EvolvesTo other supplied)
    (htracks : timeline'.tracks = other.tracks) :
    timeline.EvolvesTo timeline' supplied where
  sound := ⟨htracks ▸ h.sound.sound, htracks ▸ h.sound.trackIds, htracks ▸ h.sound.objectIds⟩
  trackIds := htracks ▸ h.trackIds
  ids := htracks ▸ h.ids

/-- Storing one evolved track, when what it was supplied is new to the timeline. -/
theorem Timeline.TracksSound.setTrack {timeline : Timeline} {before after : List Track}
    {track track' : Track} {supplied : List EditorialObjectId} (h : timeline.TracksSound)
    (hsplit : timeline.tracks = before ++ track :: after) (hevolves : Evolves track track' supplied)
    (hfresh : ∀ id ∈ supplied, id ∉ objectsOf timeline.tracks) :
    timeline.EvolvesTo { timeline with tracks := before ++ track' :: after } supplied := by
  have hold := h.objectIds
  simp only [hsplit, objectsOf, List.flatMap_append, List.flatMap_cons] at hold
  simp only [hsplit, objectsOf, List.flatMap_append, List.flatMap_cons, List.mem_append,
    not_or] at hfresh
  obtain ⟨hbefore, hrest, hbeforeRest⟩ := List.nodup_append.1 hold
  obtain ⟨-, hafter, htrackAfter⟩ := List.nodup_append.1 hrest
  refine ⟨⟨fun other hmem => ?_, ?_, ?_⟩, ?_, fun id hid => ?_⟩
  · simp only [List.mem_append, List.mem_cons] at hmem
    rcases hmem with hmem | rfl | hmem
    · exact h.sound other (hsplit ▸ List.mem_append_left _ hmem)
    · exact hevolves.sound
    · exact h.sound other (hsplit ▸ List.mem_append_right _ (List.mem_cons_of_mem _ hmem))
  · have := h.trackIds
    simpa [hsplit, hevolves.id] using this
  · simp only [objectsOf, List.flatMap_append, List.flatMap_cons]
    refine List.nodup_append.2 ⟨hbefore, List.nodup_append.2 ⟨hevolves.sound.nodup, hafter,
      fun a ha b hb hab => ?_⟩, fun a ha b hb hab => ?_⟩
    · subst hab
      rcases hevolves.ids a ha with ha | ha
      · exact htrackAfter a ha a hb rfl
      · exact (hfresh a ha).2.2 hb
    · subst hab
      rcases List.mem_append.1 hb with hb | hb
      · rcases hevolves.ids a hb with hb | hb
        · exact hbeforeRest a ha a (List.mem_append_left _ hb) rfl
        · exact (hfresh a hb).1 ha
      · exact hbeforeRest a ha a (List.mem_append_right _ hb) rfl
  · simp [hsplit, hevolves.id]
  · simp only [objectsOf, List.flatMap_append, List.flatMap_cons, List.mem_append, hsplit] at hid ⊢
    rcases hid with hid | hid | hid
    · exact .inl (.inl hid)
    · exact (hevolves.ids id hid).imp_left fun hid => .inr (.inl hid)
    · exact .inl (.inr (.inr hid))

/-- Storing one evolved timeline, when what it was supplied is new to the project. -/
theorem TimelinesSound.insert {timelines : Std.ExtTreeMap TimelineId Timeline} {id : TimelineId}
    {timeline timeline' : Timeline} {supplied : List EditorialObjectId}
    (h : TimelinesSound timelines) (hid : timelines[id]? = some timeline)
    (hevolves : timeline.EvolvesTo timeline' supplied)
    (hfresh : ∀ (key : TimelineId) (other : Timeline), timelines[key]? = some other →
      ∀ object ∈ supplied, object ∉ objectsOf other.tracks) :
    TimelinesSound (timelines.insert id timeline') := by
  have hget : ∀ (key : TimelineId) (other : Timeline), (timelines.insert id timeline')[key]? =
      some other → (key = id ∧ other = timeline') ∨ (key ≠ id ∧ timelines[key]? = some other) := by
    intro key other hkey
    rw [Std.ExtTreeMap.getElem?_insert] at hkey
    split at hkey
    · rename_i heq
      exact .inl ⟨(Std.LawfulEqOrd.eq_of_compare heq).symm, by simpa using hkey.symm⟩
    · rename_i hne
      exact .inr ⟨fun heq => hne (by rw [heq]; exact Std.ReflCmp.compare_self), hkey⟩
  refine ⟨fun key other hkey => ?_, fun key key' other other' hne hkey hkey' => ?_,
    fun key key' other other' hne hkey hkey' => ?_⟩
  · rcases hget key other hkey with ⟨-, rfl⟩ | ⟨-, hkey⟩
    · exact hevolves.sound
    · exact h.timeline key other hkey
  · rcases hget key other hkey with ⟨rfl, rfl⟩ | ⟨-, hold⟩ <;>
      rcases hget key' other' hkey' with ⟨rfl, rfl⟩ | ⟨-, hold'⟩
    · exact absurd rfl hne
    · rw [hevolves.trackIds]
      exact h.trackIds _ _ _ _ hne hid hold'
    · rw [hevolves.trackIds]
      exact h.trackIds _ _ _ _ hne hold hid
    · exact h.trackIds _ _ _ _ hne hold hold'
  · rcases hget key other hkey with ⟨rfl, rfl⟩ | ⟨-, hold⟩ <;>
      rcases hget key' other' hkey' with ⟨rfl, rfl⟩ | ⟨-, hold'⟩
    · exact absurd rfl hne
    · intro object hmem hmem'
      rcases hevolves.ids object hmem with hmem | hmem
      · exact h.objectIds _ _ _ _ hne hid hold' hmem hmem'
      · exact hfresh _ _ hold' object hmem hmem'
    · intro object hmem hmem'
      rcases hevolves.ids object hmem' with hmem' | hmem'
      · exact h.objectIds _ _ _ _ hne hold hid hmem hmem'
      · exact hfresh _ _ hold object hmem' hmem
    · exact h.objectIds _ _ _ _ hne hold hold'

end Editorial
end Superi

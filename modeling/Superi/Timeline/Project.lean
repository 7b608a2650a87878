import Superi.Timeline.EditItems
import Superi.Timeline.EditState
import Superi.Timeline.Media
import Superi.Timeline.Multicam

/-!
# Project — timelines, the project snapshot and its edit transaction

A project is edited through a private draft: the closure changes the draft, the candidate is
reconciled and validated as a whole, and only then published under the next revision.
-/

namespace Superi
namespace Editorial

open Core Result Sequence Keyed

/-! ## Timelines -/

/-- One editable sequence with an exact record clock. -/
structure Timeline where
  id : TimelineId
  name : String
  editRate : Timebase
  globalStart : RationalTime
  tracks : List Track
  editState : TimelineEditState
  annotations : TimelineAnnotations
  multicamSource : Option MulticamSource
  multicamClips : Std.ExtTreeMap ClipId MulticamClip

namespace Timeline

def new (id : TimelineId) (name : String) (editRate : Timebase) (globalStart : RationalTime)
    (tracks : List Track) : Timeline where
  id
  name
  editRate
  globalStart
  tracks
  editState := .fromTracks tracks
  annotations := .default
  multicamSource := none
  multicamClips := ∅

def track (timeline : Timeline) (id : TrackId) : Option Track :=
  timeline.tracks.find? fun track => track.id = id

/-- Look up a track to change it. -/
def trackMut (timeline : Timeline) (id : TrackId) : Except Error Track :=
  okOr (timeline.track id) (notFound "find_track" "editorial track was not found")

/-- Store a changed track in place of the first one with its identity. -/
def setTrack (timeline : Timeline) (track : Track) : Timeline :=
  match splitFirst (fun other => other.id = track.id) timeline.tracks with
  | some (before, _, after) => { timeline with tracks := before ++ track :: after }
  | none => timeline

/-- Every clip of the timeline, in track and item order. -/
def clips (timeline : Timeline) : List Clip :=
  timeline.tracks.flatMap fun track => (timedItems track.items).filterMap TimedItem.asClip

def findClip (timeline : Timeline) (id : ClipId) : Option Clip :=
  timeline.clips.find? fun clip => clip.id = id

/-- Tracks shifted by a synchronization-sensitive operation, in timeline order. -/
def tracksAffectedBySync (timeline : Timeline) (explicit : List TrackId) :
    Except Error (List TrackId) := do
  rejectIf (∃ trackId ∈ explicit, timeline.track trackId = none)
    (notFound "resolve_sync_tracks" "editorial track was not found")
  pure ((timeline.tracks.filter fun track =>
    decide (track.id ∈ explicit) ||
      ((timeline.editState.trackState track.id).map TrackEditState.syncLocked).getD false).map
    Track.id)

/-- The longest track, on the record clock of the timeline. -/
def duration (timeline : Timeline) : Except Error Duration := do
  let longest ← (timeline.tracks.foldl
    (fun longest track => if longest < trackEnd track then trackEnd track else longest)
    (RationalTime.zero timeline.editRate)).checkedRescale timeline.editRate .exact
  rejectIf (longest.value < 0)
    (invalid "timeline_duration" "timeline duration must not end before timeline zero")
  Duration.new longest.value.toNat timeline.editRate

def metadata (timeline : Timeline) (owner : MetadataOwner) : Option TimelineMetadata :=
  timeline.annotations.metadataOf owner

def setMetadata (timeline : Timeline) (owner : MetadataOwner) (metadata : TimelineMetadata) :
    Except Error Timeline := do
  let annotations ← timeline.annotations.setMetadata owner metadata timeline.tracks
  pure { timeline with annotations }

def updateSelection (timeline : Timeline) (objects : List EditorialObjectId)
    (update : SelectionUpdate) (expansion : SelectionExpansion) : Except Error Timeline := do
  let editState ← timeline.editState.updateSelection objects update expansion timeline.tracks
  pure { timeline with editState }

def linkClips (timeline : Timeline) (clips : List ClipId) : Except Error Timeline := do
  let editState ← timeline.editState.linkClips clips timeline.tracks
  pure { timeline with editState }

def unlinkClips (timeline : Timeline) (clips : List ClipId) : Except Error Timeline := do
  let editState ← timeline.editState.unlinkClips clips timeline.tracks
  pure { timeline with editState }

def groupClips (timeline : Timeline) (clips : List ClipId) : Except Error Timeline := do
  let editState ← timeline.editState.groupClips clips timeline.tracks
  pure { timeline with editState }

def transferClipIntent (timeline : Timeline) (removed inserted : ClipId) :
    Except Error Timeline := do
  let editState ← timeline.editState.transferClipIntent removed inserted timeline.tracks
  pure { timeline with editState }

/-- A split multicam clip keeps its program on both sides, a split source clip its angle. -/
def inheritMulticamFragment (timeline : Timeline) (original created : ClipId) : Timeline :=
  { timeline with
    multicamClips := match timeline.multicamClips[original]? with
      | some state => timeline.multicamClips.insert created (state.cloneWithClipId created)
      | none => timeline.multicamClips
    multicamSource := timeline.multicamSource.map fun source =>
      source.inheritSourceFragment original created }

def transferMulticamClip (timeline : Timeline) (removed inserted : ClipId) : Timeline :=
  { timeline with
    multicamClips := match timeline.multicamClips[removed]? with
      | some state =>
          (timeline.multicamClips.erase removed).insert inserted (state.cloneWithClipId inserted)
      | none => timeline.multicamClips
    multicamSource := timeline.multicamSource.map fun source =>
      source.transferSourceClip removed inserted }

/-- The clip identities on the tracks of a timeline. -/
def existingClips (timeline : Timeline) : Finset ClipId :=
  (timeline.clips.map Clip.id).toFinset

def reconcileMulticamState (timeline : Timeline) : Timeline :=
  { timeline with
    multicamClips := timeline.multicamClips.filter fun id _ => id ∈ timeline.existingClips
    multicamSource := timeline.multicamSource.map fun source =>
      source.reconcile timeline.existingClips }

/-- Drop every piece of intent that refers to something the tracks no longer have. -/
def reconcile (timeline : Timeline) : Timeline :=
  { timeline with
    editState := timeline.editState.reconcile timeline.tracks
    annotations := timeline.annotations.reconcile timeline.tracks }.reconcileMulticamState

/-- The timelines a timeline nests, in track and item order. -/
def nestedSources (timeline : Timeline) : List TimelineId :=
  timeline.clips.filterMap fun clip =>
    match clip.source with
    | .timeline id => some id
    | .media _ => none

end Timeline

/-! ## The project -/

/-- A complete editorial snapshot. -/
structure EditorialProject where
  id : ProjectId
  name : String
  revision : Nat
  mediaReferences : Std.ExtTreeMap MediaId LinkedMediaReference
  mediaLibrary : MediaLibrary
  timelines : Std.ExtTreeMap TimelineId Timeline

/-- Mutable state exposed while one project edit is unpublished. -/
structure ProjectDraft where
  name : String
  mediaReferences : Std.ExtTreeMap MediaId LinkedMediaReference
  mediaLibrary : MediaLibrary
  timelines : Std.ExtTreeMap TimelineId Timeline

namespace ProjectDraft

def timelineMut (draft : ProjectDraft) (id : TimelineId) : Except Error Timeline :=
  okOr draft.timelines[id]? (notFound "find_timeline" "editorial timeline was not found")

/-- Look up linked media to change it. -/
def mediaReferenceMut (draft : ProjectDraft) (id : MediaId) : Except Error LinkedMediaReference :=
  okOr draft.mediaReferences[id]? (notFound "find_media_reference" "linked media was not found")

/-- Store changed media under its key. -/
def setMediaReference (draft : ProjectDraft) (id : MediaId) (media : LinkedMediaReference) :
    ProjectDraft :=
  { draft with mediaReferences := draft.mediaReferences.insert id media }

/-- Store a changed timeline under its key. -/
def setTimeline (draft : ProjectDraft) (id : TimelineId) (timeline : Timeline) : ProjectDraft :=
  { draft with timelines := draft.timelines.insert id timeline }

end ProjectDraft

namespace EditorialProject

def timeline (project : EditorialProject) (id : TimelineId) : Option Timeline :=
  project.timelines[id]?

def mediaReference (project : EditorialProject) (id : MediaId) : Option LinkedMediaReference :=
  project.mediaReferences[id]?

def draft (project : EditorialProject) : ProjectDraft where
  name := project.name
  mediaReferences := project.mediaReferences
  mediaLibrary := project.mediaLibrary
  timelines := project.timelines

/-! ## Validation -/

/-- The identities claimed by the tracks and markers validated so far. -/
structure Claimed where
  tracks : Finset TrackId
  objects : Finset EditorialObjectId
  markers : Finset MarkerId

def validateTimelineTrack (claimed : Finset TrackId × Finset EditorialObjectId) (track : Track) :
    Except Error (Finset TrackId × Finset EditorialObjectId) := do
  rejectIf (track.id ∈ claimed.1) (conflict "validate_timeline" "duplicate track identity")
  let objects ← validateTrack track claimed.2
  pure (insert track.id claimed.1, objects)

def validateTimeline (claimed : Claimed) (timeline : Timeline) : Except Error Claimed := do
  requireText "validate_timeline" "timeline name" timeline.name
  rejectIf (timeline.globalStart.timebase ≠ timeline.editRate)
    (invalid "validate_timeline" "timeline global start must use its edit rate")
  let (tracks, objects) ← timeline.tracks.foldlM validateTimelineTrack
    (claimed.tracks, claimed.objects)
  timeline.editState.validate timeline.tracks
  let markers ← timeline.annotations.validate timeline.editRate timeline.tracks claimed.markers
  pure { tracks, objects, markers }

def validateSourceLink (project : EditorialProject) (clip : Clip) : Except Error Unit :=
  match clip.source with
  | .media id =>
      rejectIf (id ∉ project.mediaReferences)
        (notFound "validate_clip_source" "clip references missing linked media")
  | .timeline id =>
      rejectIf (id ∉ project.timelines)
        (notFound "validate_clip_source" "clip references missing nested timeline")

def validateSourceLinks (project : EditorialProject) : Except Error Unit :=
  (valuesOf project.timelines).forM fun timeline =>
    timeline.clips.forM project.validateSourceLink

/-- Depth-first search for a nesting cycle.  `visiting` is the path from the root, the result the
timelines known to be free of cycles. -/
def visitTimeline (project : EditorialProject) (id : TimelineId)
    (visiting visited : Finset TimelineId) : Except Error (Finset TimelineId) :=
  if id ∈ visited then pure visited
  else if id ∈ visiting then
    .error (conflict "validate_nesting" "timeline nesting contains a cycle")
  else if hid : id ∈ project.timelines then do
    let visited ← project.timelines[id].nestedSources.foldlM
      (fun visited child => visitTimeline project child (insert id visiting) visited) visited
    pure (insert id visited)
  -- the source's `expect`: source links were validated before
  else .error (notFound "validate_clip_source" "clip references missing nested timeline")
termination_by (project.timelines.keys.toFinset \ visiting).card
decreasing_by
  rename_i _ hnew
  have hin : id ∈ project.timelines.keys.toFinset := by simpa using hid
  refine Finset.card_lt_card ⟨Finset.sdiff_subset_sdiff (Finset.Subset.refl _)
    (Finset.subset_insert _ _), fun hback => ?_⟩
  simpa using hback (Finset.mem_sdiff.2 ⟨hin, hnew⟩)

def validateNestingCycles (project : EditorialProject) : Except Error Unit := do
  let _ ← project.timelines.keys.foldlM (fun visited id => project.visitTimeline id ∅ visited) ∅
  pure ()

def validateNestedRange (project : EditorialProject) (clip : Clip) : Except Error Unit :=
  match clip.source with
  | .media _ => pure ()
  | .timeline id => do
      -- the source's `expect`: source links were validated before
      let nested ← okOr project.timelines[id]?
        (notFound "validate_clip_source" "clip references missing nested timeline")
      rejectIf (clip.sourceRange.timebase ≠ nested.editRate)
        (invalid "validate_nested_range"
          "nested source range must use the nested timeline edit rate")
      rejectIf (clip.sourceRange.start.isNegative = true)
        (invalid "validate_nested_range"
          "nested source range must not start before timeline zero")
      let duration ← nested.duration
      rejectIf ((duration.value : Int) < clip.sourceRange.endExclusive.value)
        (invalid "validate_nested_range"
          "nested source range exceeds the nested timeline duration")

def validateNestedRanges (project : EditorialProject) : Except Error Unit :=
  (valuesOf project.timelines).forM fun timeline =>
    timeline.clips.forM project.validateNestedRange

/-- The record range of one synchronized source clip. -/
def multicamSourceRange (timeline : Timeline) (id : ClipId) : Except Error TimeRange := do
  let clip ← okOr (timeline.findClip id)
    (notFound "validate_multicam" "multicam angle references a missing local source clip")
  rejectIf (clip.recordRange.timebase ≠ timeline.editRate)
    (invalid "validate_multicam"
      "multicam source clip must use the synchronized timeline clock")
  pure clip.recordRange

def validateMulticamAngle (timeline : Timeline) (angleIds : Finset MulticamAngleId)
    (angle : MulticamAngle) : Except Error (Finset MulticamAngleId) := do
  rejectIf (angle.id ∈ angleIds)
    (conflict "validate_multicam" "duplicate multicam angle identity across project timelines")
  let ranges ← angle.sourceClips.mapM (multicamSourceRange timeline)
  rejectIf (¬ List.IsChain (fun left right => ¬ right.start < left.endExclusive)
      (ranges.insertionSort fun left right => left.start.value ≤ right.start.value))
    (invalid "validate_multicam" "source clips in one multicam angle must not overlap")
  pure (insert angle.id angleIds)

def validateMulticamSource (angleIds : Finset MulticamAngleId) (timeline : Timeline) :
    Except Error (Finset MulticamAngleId) :=
  match timeline.multicamSource with
  | none => pure angleIds
  | some source => do
      source.validate
      source.angles.foldlM (validateMulticamAngle timeline) angleIds

def validateMulticamTarget (project : EditorialProject) (timeline : Timeline)
    (state : MulticamClip) : Except Error Unit := do
  let clip ← okOr (timeline.findClip state.clipId)
    (notFound "validate_multicam" "multicam target clip was not found on its owning timeline")
  match clip.source with
  | .media _ =>
      .error (invalid "validate_multicam"
        "multicam target must retain an ordinary nested timeline source")
  | .timeline id => do
      -- the source's `expect`: source links were validated before
      let sourceTimeline ← okOr project.timelines[id]?
        (notFound "validate_clip_source" "clip references missing nested timeline")
      let source ← okOr sourceTimeline.multicamSource
        (invalid "validate_multicam"
          "multicam target source timeline has no synchronized angle state")
      let duration ← sourceTimeline.duration
      let complete ← TimeRange.new (RationalTime.zero sourceTimeline.editRate) duration
      state.validateAgainst source complete

def validateMulticam (project : EditorialProject) : Except Error Unit := do
  let _ ← (valuesOf project.timelines).foldlM validateMulticamSource ∅
  (valuesOf project.timelines).forM fun timeline =>
    (valuesOf timeline.multicamClips).forM (project.validateMulticamTarget timeline)

/-- The passes over timelines and tracks, with the identities shared by the whole project. -/
def validateTimelines (project : EditorialProject) : Except Error Claimed :=
  (valuesOf project.timelines).foldlM validateTimeline ⟨∅, ∅, ∅⟩

def validate (project : EditorialProject) : Except Error Unit := do
  requireText "validate_project" "project name" project.name
  (valuesOf project.mediaReferences).forM LinkedMediaReference.validate
  project.mediaLibrary.validate project.mediaReferences
  let _ ← project.validateTimelines
  project.validateSourceLinks
  project.validateNestingCycles
  project.validateNestedRanges
  project.validateMulticam

/-! ## The edit transaction -/

def reconcileTimelineState (project : EditorialProject) : EditorialProject :=
  { project with timelines := project.timelines.map fun _ timeline => timeline.reconcile }

/-- The candidate an edited draft is committed as. -/
def candidate (project : EditorialProject) (draft : ProjectDraft) : EditorialProject :=
  { id := project.id
    name := draft.name
    revision := project.revision + 1
    mediaReferences := draft.mediaReferences
    mediaLibrary := draft.mediaLibrary
    timelines := draft.timelines : EditorialProject }.reconcileTimelineState

/-- Apply one atomic edit against an expected revision.  The closure also returns what it reports
to its caller. -/
def edit {α : Type} (project : EditorialProject) (expectedRevision : Nat)
    (change : ProjectDraft → Except Error (ProjectDraft × α)) :
    Except Error (EditorialProject × α) := do
  rejectIf (expectedRevision ≠ project.revision)
    ((conflict "begin_edit" "editorial project revision is stale").withContext
      ⟨"superi-timeline.model", "begin_edit"⟩)
  let (draft, reported) ← change project.draft
  rejectIf (18446744073709551615 ≤ project.revision)
    (conflict "commit_edit" "editorial project revision is exhausted")
  (project.candidate draft).validate
  pure (project.candidate draft, reported)

end EditorialProject

end Editorial
end Superi

import Superi.Timeline.EditOps
import Superi.Timeline.Project

/-!
# Batch — operations on a timeline and batches of operations on a project

An operation edits one track, or a ripple target with its sync-locked companions, and hands the
selection, relationships, multicam programs and caption metadata of a split or replaced clip on to
what took its place.  A batch runs its operations on one draft and commits them together.
-/

namespace Superi
namespace Editorial

open Core Result Sequence

def requireUnlockedTrack (timeline : Timeline) (trackId : TrackId) : Except Error Unit := do
  let state ← okOr (timeline.editState.trackState trackId)
    (notFoundEdit "edit_locked_track" "editorial track was not found")
  rejectIf (state.locked = true)
    ((Error.new .conflict .userCorrectable
      "locked tracks must be unlocked before authored item changes").withContext
      ⟨"superi-timeline.edit_ops", "edit_locked_track"⟩)

/-! ## Handing intent on -/

/-- The right fragment of a selected clip is selected. -/
def inheritSelection (timeline : Timeline) (selected : Bool) (created : ClipId) :
    Except Error Timeline :=
  if selected then timeline.updateSelection [.clip created] .add .direct else pure timeline

def inheritLink (timeline : Timeline) (linked : Option ClipRelation) (created : ClipId) :
    Except Error Timeline :=
  match linked with
  | some relation => timeline.linkClips (relation.members.toList ++ [created])
  | none => pure timeline

def inheritGroup (timeline : Timeline) (grouped : Option ClipRelation) (created : ClipId) :
    Except Error Timeline :=
  match grouped with
  | some relation => timeline.groupClips (relation.members.toList ++ [created])
  | none => pure timeline

/-- A right fragment inherits from its original: a clip its selection, link, group and multicam
state as they were before the fragment was added, a caption its metadata. -/
def inheritFragment (timeline : Timeline) (fragment : EditFragment) : Except Error Timeline :=
  match fragment.original, fragment.created with
  | .caption original, .caption created =>
      match timeline.metadata (.object (.caption original)) with
      | some metadata => timeline.setMetadata (.object (.caption created)) metadata
      | none => pure timeline
  | .clip original, .clip created => do
      let linked := timeline.editState.linkFor original
      let grouped := timeline.editState.groupFor original
      let selected := decide (.clip original ∈ timeline.editState.selectedObjects)
      let timeline ← inheritSelection timeline selected created
      let timeline ← inheritLink timeline linked created
      let timeline ← inheritGroup timeline grouped created
      pure (timeline.inheritMulticamFragment original created)
  | _, _ => pure timeline

def inheritFragmentIntent (timeline : Timeline) (fragments : List EditFragment) :
    Except Error Timeline :=
  fragments.foldlM inheritFragment timeline

/-- A clip that replaces a clip takes over its intent. -/
def inheritReplacementIntent (timeline : Timeline) (outcome : EditOutcome) :
    Except Error Timeline :=
  if outcome.kind = .replace then
    match outcome.removedIds, outcome.insertedIds with
    | [.clip removed], [.clip inserted] => do
        let timeline ← timeline.transferClipIntent removed inserted
        pure (timeline.transferMulticamClip removed inserted)
    | _, _ => pure timeline
  else pure timeline

/-! ## Audio and video -/

/-- The clip an identity names on a track. -/
def Track.clip (track : Track) (id : ClipId) : Option Clip :=
  (track.item (.clip id)).bind fun item =>
    match item with
    | .timed item => item.asClip
    | .transition _ => none

def checkedAudioVideoClips (timeline : Timeline) (operation : String) (videoTrackId : TrackId)
    (videoClipId : ClipId) (audioTrackId : TrackId) (audioClipId : ClipId) :
    Except Error (Clip × Clip) := do
  requireUnlockedTrack timeline videoTrackId
  let videoTrack ← okOr (timeline.track videoTrackId)
    (notFoundEdit operation "the video track was not found on the timeline")
  rejectIf (videoTrack.kind ≠ .video)
    (invalidEdit operation "the video side must name a video track")
  let audioTrack ← okOr (timeline.track audioTrackId)
    (notFoundEdit operation "the audio track was not found on the timeline")
  rejectIf (audioTrack.kind ≠ .audio)
    (invalidEdit operation "the audio side must name an audio track")
  let video ← okOr (videoTrack.clip videoClipId)
    (notFoundEdit operation "the video clip was not found on the named video track")
  let audio ← okOr (audioTrack.clip audioClipId)
    (notFoundEdit operation "the audio clip was not found on the named audio track")
  pure (video, audio)

/-- Whether the audio clip's link contains the video clip. -/
def alreadyLinked (timeline : Timeline) (videoClipId audioClipId : ClipId) : Bool :=
  match timeline.editState.linkFor audioClipId with
  | some relation => decide (videoClipId ∈ relation.members)
  | none => false

def audioVideoOutcome (kind : EditKind) (timelineId : TimelineId) (videoTrackId : TrackId)
    (videoClipId : ClipId) (audioTrackId : TrackId) (audioClipId : ClipId)
    (affectedRange : TimeRange) : EditOutcome where
  kind
  timelineId
  trackId := audioTrackId
  affectedRange
  durationChange := .unchanged
  insertedIds := []
  removedIds := []
  modifiedIds := [.clip audioClipId, .clip videoClipId]
  fragments := []
  removedTransitions := []
  synchronizedTracks := [videoTrackId]

def applyLinkAudioVideo (timeline : Timeline) (timelineId : TimelineId) (videoTrackId : TrackId)
    (videoClipId : ClipId) (audioTrackId : TrackId) (audioClipId : ClipId) :
    Except Error (Timeline × EditOutcome) := do
  let (_, audio) ← checkedAudioVideoClips timeline "link_audio_video" videoTrackId videoClipId
    audioTrackId audioClipId
  rejectIf (alreadyLinked timeline videoClipId audioClipId = true)
    (invalidEdit "link_audio_video" "the audio and video clips are already linked")
  let timeline ← timeline.linkClips [videoClipId, audioClipId]
  pure (timeline, audioVideoOutcome .linkAudioVideo timelineId videoTrackId videoClipId
    audioTrackId audioClipId audio.recordRange)

/-- The source range that shows the audio in step with the video. -/
def synchronizedRange (video audio : Clip) : Except Error TimeRange := do
  let sourceTimebase := audio.sourceRange.timebase
  let videoSourceStart ← video.sourceRange.start.checkedRescale sourceTimebase .exact
  let recordOffset ← audio.recordRange.start.checkedSubAt video.recordRange.start sourceTimebase
    .exact
  let sourceStart ← videoSourceStart.checkedAddAt recordOffset sourceTimebase .exact
  TimeRange.new sourceStart audio.sourceRange.duration

/-- Move the source of the audio clip where its new source range differs. -/
def synchronizeClip (timeline : Timeline) (timelineId : TimelineId) (audioTrackId : TrackId)
    (audioClipId : ClipId) (audio : Clip) (sourceRange : TimeRange) : Except Error Timeline :=
  if sourceRange ≈ audio.sourceRange then pure timeline
  else do
    let track ← timeline.trackMut audioTrackId
    let (track, _) ← editClip track timelineId audioTrackId .synchronizeAudioVideo audioClipId
      (invalidEdit "synchronize_audio_video" "checked audio clip remains a clip")
      fun clip => clip.setSourceRange sourceRange
    pure (timeline.setTrack track)

def linkUnless (linked : Bool) (timeline : Timeline) (clips : List ClipId) :
    Except Error Timeline :=
  if linked then pure timeline else timeline.linkClips clips

def applySynchronizeAudioVideo (timeline : Timeline) (timelineId : TimelineId)
    (videoTrackId : TrackId) (videoClipId : ClipId) (audioTrackId : TrackId)
    (audioClipId : ClipId) : Except Error (Timeline × EditOutcome) := do
  let (video, audio) ← checkedAudioVideoClips timeline "synchronize_audio_video" videoTrackId
    videoClipId audioTrackId audioClipId
  let sourceRange ← synchronizedRange video audio
  let linked := alreadyLinked timeline videoClipId audioClipId
  rejectIf (sourceRange ≈ audio.sourceRange ∧ linked = true)
    (invalidEdit "synchronize_audio_video"
      "the audio clip is already synchronized and linked to the video clip")
  let timeline ← synchronizeClip timeline timelineId audioTrackId audioClipId audio sourceRange
  let timeline ← linkUnless linked timeline [videoClipId, audioClipId]
  pure (timeline, audioVideoOutcome .synchronizeAudioVideo timelineId videoTrackId videoClipId
    audioTrackId audioClipId audio.recordRange)

def applyDetachAudio (timeline : Timeline) (timelineId : TimelineId) (videoTrackId : TrackId)
    (videoClipId : ClipId) (audioTrackId : TrackId) (audioClipId : ClipId) :
    Except Error (Timeline × EditOutcome) := do
  let (_, audio) ← checkedAudioVideoClips timeline "detach_audio" videoTrackId videoClipId
    audioTrackId audioClipId
  rejectIf (alreadyLinked timeline videoClipId audioClipId = false)
    (invalidEdit "detach_audio" "the audio clip is not linked to the named video clip")
  let timeline ← timeline.unlinkClips [audioClipId]
  pure (timeline, audioVideoOutcome .detachAudio timelineId videoTrackId videoClipId
    audioTrackId audioClipId audio.recordRange)

/-! ## Synchronized ripple -/

/-- Open or close the time a ripple gained or lost on one companion track. -/
def rippleCompanion (timelineId : TimelineId) (pivot : RationalTime) (magnitude : Duration)
    (extending : Bool) (companion : Track) (adjustment : RippleSyncAdjustment) :
    Except Error TrackEdit := do
  let timebase := companion.timebase
  let companionPivot ← pivot.checkedRescale timebase .exact
  let companionDuration ← exactDurationAt magnitude timebase "ripple"
  if extending then do
    let recordRange ← TimeRange.new companionPivot companionDuration
    applyInsert companion timelineId adjustment.trackId companionPivot
      (.timed (.gap { id := adjustment.gapId, name := "sync ripple gap", recordRange }))
      adjustment.fragmentIds
  else do
    let start ← companionPivot.checkedSubAt companionDuration.rationalTime timebase .exact
    let range ← TimeRange.new start companionDuration
    applyExtract companion timelineId adjustment.trackId range adjustment.fragmentIds

/-- One step of the companion loop: the timeline and the fragments reported so far. -/
def rippleCompanionStep (timelineId : TimelineId) (pivot : RationalTime) (magnitude : Duration)
    (extending : Bool) (state : Timeline × List EditFragment)
    (adjustment : RippleSyncAdjustment) : Except Error (Timeline × List EditFragment) := do
  let companion ← state.1.trackMut adjustment.trackId
  let (companion, outcome) ← rippleCompanion timelineId pivot magnitude extending companion
    adjustment
  pure (state.1.setTrack companion, state.2 ++ outcome.fragments)

/-- The magnitude of a duration change, and whether it extends the track. -/
def rippleChange : TrackDurationChange → Except Error (Duration × Bool)
  | .extended duration => pure (duration, true)
  | .shortened duration => pure (duration, false)
  | .unchanged => .error (invalidEdit "ripple" "ripple must change the target-track duration")

def applySynchronizedRipple (timeline : Timeline) (timelineId : TimelineId) (trackId : TrackId)
    (targetId : EditorialObjectId) (side : EditSide) (to' : RationalTime)
    (syncAdjustments : List RippleSyncAdjustment) : Except Error (Timeline × EditOutcome) := do
  syncAdjustments.forM fun adjustment => requireUnlockedTrack timeline adjustment.trackId
  let affected ← timeline.tracksAffectedBySync [trackId]
  let expected := affected.filter fun candidate => candidate ≠ trackId
  rejectIf (syncAdjustments.map RippleSyncAdjustment.trackId ≠ expected)
    (invalidEdit "ripple"
      "ripple sync adjustments must name every other sync-locked track exactly once in timeline order")
  let primaryRange ← okOr
    (((timeline.track trackId).bind fun track => track.item targetId).bind TrackItem.recordRange)
    (notFoundEdit "ripple" "ripple target was not found on the target track")
  let pivot := primaryRange.endExclusive
  let track ← timeline.trackMut trackId
  let (track, outcome) ← applyRipple track timelineId trackId targetId side to'
  let (magnitude, extending) ← rippleChange outcome.durationChange
  let (timeline, companionFragments) ← syncAdjustments.foldlM
    (rippleCompanionStep timelineId pivot magnitude extending) (timeline.setTrack track, [])
  let timeline ← inheritFragmentIntent timeline companionFragments
  pure (timeline, { outcome with synchronizedTracks := expected })

/-! ## Operations -/

namespace EditOperation

/-- The edit an operation makes of its target track.  Audio-video operations have none. -/
def onTrack : EditOperation → Option (Track → Except Error TrackEdit)
  | insert timelineId trackId at' material fragmentIds =>
      some fun track => applyInsert track timelineId trackId at' material fragmentIds
  | overwrite timelineId trackId at' material fragmentIds =>
      some fun track => applyOverwrite track timelineId trackId at' material fragmentIds
  | append timelineId trackId material =>
      some fun track => applyAppend track timelineId trackId material
  | replace timelineId trackId targetId material =>
      some fun track => applyReplace track timelineId trackId targetId material
  | linkAudioVideo .. | synchronizeAudioVideo .. | detachAudio .. => none
  | lift timelineId trackId range gap fragmentIds =>
      some fun track => applyLift track timelineId trackId range gap fragmentIds
  | extract timelineId trackId range fragmentIds =>
      some fun track => applyExtract track timelineId trackId range fragmentIds
  | ripple timelineId trackId targetId side to' _ =>
      some fun track => applyRipple track timelineId trackId targetId side to'
  | roll timelineId trackId leftId rightId to' =>
      some fun track => applyRoll track timelineId trackId leftId rightId to'
  | slip timelineId trackId clipId sourceStart =>
      some fun track => applySlip track timelineId trackId clipId sourceStart
  | retime timelineId trackId clipId timeMap =>
      some fun track => applyRetime track timelineId trackId clipId timeMap
  | slide timelineId trackId clipId to' =>
      some fun track => applySlide track timelineId trackId clipId to'
  | razor timelineId trackId targetId at' fragmentId =>
      some fun track => applyRazor track timelineId trackId targetId at' fragmentId
  | trim timelineId trackId targetId side to' gapId =>
      some fun track => applyTrim track timelineId trackId targetId side to' gapId
  | extend timelineId trackId targetId side to' mode _ =>
      some fun track => applyExtend track timelineId trackId targetId side to' mode
  | setTransition timelineId trackId transitionId fromOffset toOffset =>
      some fun track =>
        applySetTransition track timelineId trackId transitionId fromOffset toOffset
  | threePoint timelineId trackId clip placement fragmentIds =>
      some fun track => applyThreePoint track timelineId trackId clip placement fragmentIds
  | fourPoint timelineId trackId clip sourceRange recordRange fragmentIds =>
      some fun track =>
        applyFourPoint track timelineId trackId clip sourceRange recordRange fragmentIds

end EditOperation

/-- Edit one track and hand on the intent of what the edit split or replaced. -/
def editTrack (timeline : Timeline) (trackId : TrackId) (edit : Track → Except Error TrackEdit) :
    Except Error (Timeline × EditOutcome) := do
  let track ← timeline.trackMut trackId
  let (track, outcome) ← edit track
  let timeline ← inheritFragmentIntent (timeline.setTrack track) outcome.fragments
  let timeline ← inheritReplacementIntent timeline outcome
  pure (timeline, outcome)

/-- Apply one operation to the timeline it names. -/
def applyToTimeline (timeline : Timeline) (operation : EditOperation) :
    Except Error (Timeline × EditOutcome) :=
  match operation with
  | .linkAudioVideo timelineId videoTrackId videoClipId audioTrackId audioClipId =>
      applyLinkAudioVideo timeline timelineId videoTrackId videoClipId audioTrackId audioClipId
  | .synchronizeAudioVideo timelineId videoTrackId videoClipId audioTrackId audioClipId =>
      applySynchronizeAudioVideo timeline timelineId videoTrackId videoClipId audioTrackId
        audioClipId
  | .detachAudio timelineId videoTrackId videoClipId audioTrackId audioClipId =>
      applyDetachAudio timeline timelineId videoTrackId videoClipId audioTrackId audioClipId
  | .ripple timelineId trackId targetId side to' syncAdjustments => do
      let (timeline, outcome) ← applySynchronizedRipple timeline timelineId trackId targetId side
        to' syncAdjustments
      let timeline ← inheritFragmentIntent timeline outcome.fragments
      pure (timeline, outcome)
  | .extend timelineId trackId targetId side to' .ripple syncAdjustments => do
      let (timeline, outcome) ← applySynchronizedRipple timeline timelineId trackId targetId side
        to' syncAdjustments
      let outcome := { outcome with kind := .extend }
      let timeline ← inheritFragmentIntent timeline outcome.fragments
      pure (timeline, outcome)
  | operation =>
      match operation.onTrack with
      | some edit => editTrack timeline operation.trackId edit
      -- every operation without a track edit is handled above
      | none => .error (invalidEdit operation.kind.code "operation does not edit a track")

def applyOperation (draft : ProjectDraft) (operation : EditOperation) :
    Except Error (ProjectDraft × EditOutcome) := do
  let timeline ← draft.timelineMut operation.timelineId
  requireUnlockedTrack timeline operation.trackId
  let (timeline, outcome) ← applyToTimeline timeline operation
  pure (draft.setTimeline operation.timelineId timeline, outcome)

end Editorial
end Superi

import Superi.Core.Int128
import Superi.Timeline.Batch
import Superi.Timeline.MulticamSwitching

/-!
# MulticamOps — multicam mutations, and the frame a record instant shows

A mutation is given in the record time of a target clip and stored in the coordinates of the source
timeline the clip nests.  A batch applies its mutations to one draft and commits them together.  A
record instant shows the angle that the switch program of the clip has at its source coordinate.
-/

namespace Superi
namespace Editorial

open Core Result

/-! ## Multicam state of a timeline -/

def MulticamSource.setSyncMethod (source : MulticamSource) (syncMethod : MulticamSyncMethod) :
    Except Error MulticamSource := do
  syncMethod.validate
  pure { source with syncMethod }

def MulticamClip.setAudioPolicy (clip : MulticamClip) (audioPolicy : MulticamAudioPolicy) :
    MulticamClip :=
  { clip with audioPolicy }

namespace Timeline

def multicamSourceMut (timeline : Timeline) : Except Error MulticamSource :=
  okOr timeline.multicamSource
    (notFound "find_multicam_source" "timeline has no multicam source state")

/-- Store a changed source in place of the one there is. -/
def putMulticamSource (timeline : Timeline) (source : MulticamSource) : Timeline :=
  { timeline with multicamSource := some source }

def setMulticamSource (timeline : Timeline) (source : MulticamSource) : Except Error Timeline := do
  source.validate
  pure (timeline.putMulticamSource source)

def multicamClip (timeline : Timeline) (id : ClipId) : Option MulticamClip :=
  timeline.multicamClips[id]?

def multicamClipMut (timeline : Timeline) (id : ClipId) : Except Error MulticamClip :=
  okOr (timeline.multicamClip id) (notFound "find_multicam_clip" "multicam clip state was not found")

/-- Store a changed program under its key. -/
def putMulticamClip (timeline : Timeline) (id : ClipId) (clip : MulticamClip) : Timeline :=
  { timeline with multicamClips := timeline.multicamClips.insert id clip }

def upsertMulticamClip (timeline : Timeline) (clip : MulticamClip) : Except Error Timeline := do
  let target ← okOr (timeline.findClip clip.clipId)
    (notFound "upsert_multicam_clip" "multicam target clip was not found on this timeline")
  match target.source with
  | .media _ =>
      .error (invalid "upsert_multicam_clip"
        "multicam target must be an ordinary nested timeline clip")
  | .timeline _ => pure (timeline.putMulticamClip clip.clipId clip)

def removeMulticamClip (timeline : Timeline) (id : ClipId) : Timeline :=
  { timeline with multicamClips := timeline.multicamClips.erase id }

end Timeline

/-! ## Mutations -/

/-- One authored multicam mutation. -/
inductive MulticamMutation
  | setSource (timelineId : TimelineId) (source : MulticamSource)
  | setSyncMethod (timelineId : TimelineId) (syncMethod : MulticamSyncMethod)
  | attachClip (timelineId : TimelineId) (clipId : ClipId) (initialAngleId : MulticamAngleId)
      (audioPolicy : MulticamAudioPolicy)
  | switchAt (timelineId : TimelineId) (clipId : ClipId) (recordTime : RationalTime)
      (angleId : MulticamAngleId)
  | moveCut (timelineId : TimelineId) (clipId : ClipId) (atRecordTime toRecordTime : RationalTime)
  | setAudioPolicy (timelineId : TimelineId) (clipId : ClipId) (audioPolicy : MulticamAudioPolicy)
  | detachClip (timelineId : TimelineId) (clipId : ClipId)

inductive MulticamMutationKind
  | setSource
  | setSyncMethod
  | attachClip
  | switchAt
  | moveCut
  | setAudioPolicy
  | detachClip
  deriving DecidableEq, Repr

structure MulticamMutationOutcome where
  timelineId : TimelineId
  clipId : Option ClipId
  kind : MulticamMutationKind
  deriving DecidableEq, Repr

namespace MulticamMutation

def timelineId : MulticamMutation → TimelineId
  | setSource timelineId _ | setSyncMethod timelineId _ | attachClip timelineId _ _ _
  | switchAt timelineId _ _ _ | moveCut timelineId _ _ _ | setAudioPolicy timelineId _ _
  | detachClip timelineId _ => timelineId

def clipId : MulticamMutation → Option ClipId
  | setSource _ _ | setSyncMethod _ _ => none
  | attachClip _ clipId _ _ | switchAt _ clipId _ _ | moveCut _ clipId _ _
  | setAudioPolicy _ clipId _ | detachClip _ clipId => some clipId

def kind : MulticamMutation → MulticamMutationKind
  | setSource _ _ => .setSource
  | setSyncMethod _ _ => .setSyncMethod
  | attachClip _ _ _ _ => .attachClip
  | switchAt _ _ _ _ => .switchAt
  | moveCut _ _ _ _ => .moveCut
  | setAudioPolicy _ _ _ => .setAudioPolicy
  | detachClip _ _ => .detachClip

def outcome (mutation : MulticamMutation) : MulticamMutationOutcome where
  timelineId := mutation.timelineId
  clipId := mutation.clipId
  kind := mutation.kind

end MulticamMutation

/-- Errors of `multicam_ops.rs`. -/
def multicamError (category : ErrorCategory) (operation message : String) : Error :=
  (Error.new category .userCorrectable message).withContext
    ⟨"superi-timeline.multicam-ops", operation⟩

def targetClip (draft : ProjectDraft) (timelineId : TimelineId) (clipId : ClipId) :
    Except Error Clip := do
  let timeline ← okOr draft.timelines[timelineId]?
    (multicamError .notFound "find_multicam_target" "multicam target timeline was not found")
  okOr (timeline.findClip clipId)
    (multicamError .notFound "find_multicam_target" "multicam target clip was not found")

/-- The complete range of the timeline a clip nests. -/
def attachedRange (draft : ProjectDraft) (target : Clip) : Except Error TimeRange :=
  match target.source with
  | .media _ =>
      .error (multicamError .invalidInput "attach_multicam_clip"
        "multicam target must be an ordinary nested timeline clip")
  | .timeline sourceTimelineId => do
      let source ← okOr draft.timelines[sourceTimelineId]?
        (multicamError .notFound "attach_multicam_clip" "multicam source timeline was not found")
      let duration ← source.duration
      TimeRange.new (RationalTime.zero source.editRate) duration

/-- From a source time to the end of the switch that contains it. -/
def switchedRange (multicam : MulticamClip) (sourceTime : RationalTime) : Except Error TimeRange := do
  -- the source's `expect`: a program has a switch
  let coverage ← okOr multicam.coverage
    (multicamError .internal "switch_multicam_angle" "multicam clip has coverage")
  rejectIf (coverage.contains sourceTime = false)
    (multicamError .invalidInput "switch_multicam_angle"
      "target record point lies outside the multicam switch program")
  let switch ← okOr (multicam.switches.find? fun switch => switch.sourceRange.contains sourceTime)
    (multicamError .invalidInput "switch_multicam_angle"
      "multicam switch program does not completely cover its source range")
  TimeRange.fromStartEnd sourceTime switch.sourceRange.endExclusive

/-- The program a call leaves behind.  An error leaves nothing, since the draft is given up. -/
def SwitchCall.perform (call : SwitchCall) (clip : MulticamClip) : Except Error MulticamClip :=
  match call.apply clip with
  | some (.ok _ next) => .ok next
  | some (.error error _) => .error error
  -- the source's `expect`: a program has a switch
  | none => .error (multicamError .internal "switch_multicam_angle" "multicam clip has coverage")

/-- Change the switch program of one clip of a draft. -/
def editMulticamClip (draft : ProjectDraft) (timelineId : TimelineId) (clipId : ClipId)
    (change : MulticamClip → Except Error MulticamClip) : Except Error ProjectDraft := do
  let timeline ← draft.timelineMut timelineId
  let clip ← timeline.multicamClipMut clipId
  let clip ← change clip
  pure (draft.setTimeline timelineId (timeline.putMulticamClip clipId clip))

def applyMulticamMutation (draft : ProjectDraft) : MulticamMutation → Except Error ProjectDraft
  | .setSource timelineId source => do
      let timeline ← draft.timelineMut timelineId
      let timeline ← timeline.setMulticamSource source
      pure (draft.setTimeline timelineId timeline)
  | .setSyncMethod timelineId syncMethod => do
      let timeline ← draft.timelineMut timelineId
      let source ← timeline.multicamSourceMut
      let source ← source.setSyncMethod syncMethod
      pure (draft.setTimeline timelineId (timeline.putMulticamSource source))
  | .attachClip timelineId clipId initialAngleId audioPolicy => do
      let target ← targetClip draft timelineId clipId
      let sourceRange ← attachedRange draft target
      let clip ← MulticamClip.new clipId sourceRange initialAngleId audioPolicy
      let timeline ← draft.timelineMut timelineId
      let timeline ← timeline.upsertMulticamClip clip
      pure (draft.setTimeline timelineId timeline)
  | .switchAt timelineId clipId recordTime angleId => do
      let target ← targetClip draft timelineId clipId
      let mapped ← target.sourceTimeAt recordTime .exact
      let multicam ← okOr
        (draft.timelines[timelineId]?.bind fun timeline => timeline.multicamClip clipId)
        (multicamError .notFound "switch_multicam_angle" "multicam clip state was not found")
      let sourceRange ← switchedRange multicam mapped.time
      editMulticamClip draft timelineId clipId (SwitchCall.switchRange sourceRange angleId).perform
  | .moveCut timelineId clipId atRecordTime toRecordTime => do
      let target ← targetClip draft timelineId clipId
      let cut ← target.sourceTimeAt atRecordTime .exact
      let moved ← target.sourceTimeAt toRecordTime .exact
      editMulticamClip draft timelineId clipId (SwitchCall.moveCut cut.time moved.time).perform
  | .setAudioPolicy timelineId clipId audioPolicy =>
      editMulticamClip draft timelineId clipId fun clip => pure (clip.setAudioPolicy audioPolicy)
  | .detachClip timelineId clipId => do
      let timeline ← draft.timelineMut timelineId
      rejectIf (timeline.multicamClip clipId = none)
        (multicamError .notFound "detach_multicam_clip" "multicam clip state was not found")
      pure (draft.setTimeline timelineId (timeline.removeMulticamClip clipId))

/-! ## Batches -/

structure MulticamMutationBatchResult where
  revision : Nat
  outcomes : List MulticamMutationOutcome
  deriving DecidableEq, Repr

/-- Apply one mutation of a batch behind the outcomes reported before it. -/
def applyMulticamStep (state : ProjectDraft × List MulticamMutationOutcome)
    (mutation : MulticamMutation) : Except Error (ProjectDraft × List MulticamMutationOutcome) := do
  let draft ← withErrorContext (applyMulticamMutation state.1 mutation)
    ⟨"superi-timeline.multicam-ops", "apply_multicam_mutation"⟩
  pure (draft, state.2 ++ [mutation.outcome])

/-- Apply a nonempty ordered batch of mutations as one validated project edit. -/
def applyMulticamMutationBatch (project : EditorialProject) (expectedRevision : Nat)
    (mutations : List MulticamMutation) :
    Except Error (EditorialProject × MulticamMutationBatchResult) := do
  rejectIf (mutations.isEmpty = true)
    (multicamError .invalidInput "apply_multicam_mutation_batch"
      "a multicam mutation batch must contain at least one mutation")
  let (project, outcomes) ← project.edit expectedRevision fun draft =>
    mutations.foldlM applyMulticamStep (draft, [])
  pure (project, { revision := project.revision, outcomes })

/-! ## Resolution -/

/-- A multicam clip, its program and the timeline it nests. -/
structure MulticamTarget where
  clip : Clip
  state : MulticamClip
  sourceTimelineId : TimelineId

def findMulticamTarget (timelines : Std.ExtTreeMap TimelineId Timeline) (timelineId : TimelineId)
    (clipId : ClipId) : Except Error MulticamTarget := do
  let timeline ← okOr timelines[timelineId]?
    (notFoundMulticam "resolve_multicam_frame" "target timeline was not found")
  let clip ← okOr (timeline.findClip clipId)
    (notFoundMulticam "resolve_multicam_frame" "target multicam clip was not found")
  let state ← okOr (timeline.multicamClip clipId)
    (notFoundMulticam "resolve_multicam_frame" "target clip has no multicam switch state")
  match clip.source with
  | .media _ =>
      .error (invalidMulticam "resolve_multicam_frame"
        "multicam target must retain an ordinary nested timeline source")
  | .timeline sourceTimelineId => pure { clip, state, sourceTimelineId }

/-- The source coordinate and the angle a target has at a record instant. -/
def MulticamTarget.select (target : MulticamTarget) (recordTime : RationalTime) :
    Except Error (RationalTime × MulticamAngleId) := do
  let mapped ← target.clip.sourceTimeAt recordTime .exact
  let angleId ← target.state.angleAt mapped.time
  pure (mapped.time, angleId)

/-- The first half of the resolution: the angle a record instant selects. -/
def selectAngle (timelines : Std.ExtTreeMap TimelineId Timeline) (timelineId : TimelineId)
    (clipId : ClipId) (recordTime : RationalTime) :
    Except Error (MulticamTarget × RationalTime × MulticamAngleId) := do
  let target ← findMulticamTarget timelines timelineId clipId
  let selected ← target.select recordTime
  pure (target, selected)

structure ResolvedMulticamFrame where
  targetTimelineId : TimelineId
  targetClipId : ClipId
  sourceTimelineId : TimelineId
  sourceTimelineTime : RationalTime
  angleId : MulticamAngleId
  sourceClipId : ClipId
  source : ClipSource
  sourceTime : RationalTime
  audioAngleIds : List MulticamAngleId

/-- A value the source takes for granted with `expect`; a missing one has no outcome. -/
def expected {α : Type} (value : Option α) : Machine α := ExceptT.mk (value.map .ok)

/-- The first clip of an angle that contains the time. -/
def selectSourceClip (timeline : Timeline) (sourceTime : RationalTime) :
    List ClipId → Machine (Option Clip)
  | [] => pure none
  | id :: rest => do
      let clip ← expected (timeline.findClip id)
      if clip.recordRange.contains sourceTime then pure (some clip)
      else selectSourceClip timeline sourceTime rest

def audioAngles (source : MulticamSource) (angleId : MulticamAngleId) :
    MulticamAudioPolicy → List MulticamAngleId
  | .followVideo => [angleId]
  | .fixed fixed => [fixed]
  | .allAngles => (source.angles.filter fun angle => angle.enabled).map MulticamAngle.id

def resolveMulticamFrame (project : EditorialProject) (targetTimelineId : TimelineId)
    (targetClipId : ClipId) (targetRecordTime : RationalTime) : Machine ResolvedMulticamFrame := do
  let (target, sourceTimelineTime, angleId) ← Machine.lift
    (selectAngle project.timelines targetTimelineId targetClipId targetRecordTime)
  let sourceTimeline ← expected (project.timeline target.sourceTimelineId)
  let source ← expected sourceTimeline.multicamSource
  let angle ← expected (source.angle angleId)
  let selected ← selectSourceClip sourceTimeline sourceTimelineTime angle.sourceClips
  let sourceClip ← Machine.lift (okOr selected
    (notFoundMulticam "resolve_multicam_frame"
      "active multicam angle has no source clip at this synchronized time"))
  let mapped ← Machine.lift (sourceClip.sourceTimeAt sourceTimelineTime .exact)
  pure {
    targetTimelineId
    targetClipId
    sourceTimelineId := target.sourceTimelineId
    sourceTimelineTime
    angleId
    sourceClipId := sourceClip.id
    source := sourceClip.source
    sourceTime := mapped.time
    audioAngleIds := audioAngles source angleId target.state.audioPolicy }

end Editorial
end Superi

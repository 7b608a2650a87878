import Superi.Timeline.Items

/-!
# EditTypes — operations, fragments and outcomes

The vocabulary of `edit_ops.rs`: the twenty editorial operations with everything the caller
supplies for them, and the structured result of a successful one.
-/

namespace Superi
namespace Editorial

open Core Result

/-! ## Errors -/

def invalidEdit (operation message : String) : Error :=
  (Error.new .invalidInput .userCorrectable message).withContext
    ⟨"superi-timeline.edit_ops", operation⟩

def notFoundEdit (operation message : String) : Error :=
  (Error.new .notFound .userCorrectable message).withContext
    ⟨"superi-timeline.edit_ops", operation⟩

def unsupportedEdit (operation message : String) : Error :=
  (Error.new .unsupported .userCorrectable message).withContext
    ⟨"superi-timeline.edit_ops", operation⟩

/-! ## Operations -/

inductive EditKind
  | insert
  | overwrite
  | append
  | replace
  | linkAudioVideo
  | synchronizeAudioVideo
  | detachAudio
  | lift
  | extract
  | ripple
  | roll
  | slip
  | slide
  | razor
  | trim
  | extend
  | setTransition
  | threePoint
  | fourPoint
  | retime
  deriving DecidableEq, Repr

/-- The stable operation code. -/
def EditKind.code : EditKind → String
  | insert => "insert"
  | overwrite => "overwrite"
  | append => "append"
  | replace => "replace"
  | linkAudioVideo => "link_audio_video"
  | synchronizeAudioVideo => "synchronize_audio_video"
  | detachAudio => "detach_audio"
  | lift => "lift"
  | extract => "extract"
  | ripple => "ripple"
  | roll => "roll"
  | slip => "slip"
  | slide => "slide"
  | razor => "razor"
  | trim => "trim"
  | extend => "extend"
  | setTransition => "set_transition"
  | threePoint => "three_point"
  | fourPoint => "four_point"
  | retime => "retime"

inductive EditSide
  | start
  | stop
  deriving DecidableEq, Repr

inductive ExtendMode
  | ripple
  | roll
  deriving DecidableEq, Repr

/-- The four ways three given points determine a placement. -/
inductive ThreePointPlacement
  | sourceRangeAtRecordStart (sourceRange : TimeRange) (recordStart : RationalTime)
  | sourceStartOverRecordRange (sourceStart : RationalTime) (recordRange : TimeRange)
  | sourceRangeBacktimedToRecordEnd (sourceRange : TimeRange) (recordEnd : RationalTime)
  | sourceEndBacktimedOverRecordRange (sourceEnd : RationalTime) (recordRange : TimeRange)
  deriving DecidableEq, Repr

/-- What a synchronized ripple may need on one companion track. -/
structure RippleSyncAdjustment where
  trackId : TrackId
  gapId : GapId
  fragmentIds : List EditorialObjectId
  deriving DecidableEq, Repr

inductive EditOperation
  | insert (timelineId : TimelineId) (trackId : TrackId) (at' : RationalTime)
      (material : TrackItem) (fragmentIds : List EditorialObjectId)
  | overwrite (timelineId : TimelineId) (trackId : TrackId) (at' : RationalTime)
      (material : TrackItem) (fragmentIds : List EditorialObjectId)
  | append (timelineId : TimelineId) (trackId : TrackId) (material : TrackItem)
  | replace (timelineId : TimelineId) (trackId : TrackId) (targetId : EditorialObjectId)
      (material : TrackItem)
  | linkAudioVideo (timelineId : TimelineId) (videoTrackId : TrackId) (videoClipId : ClipId)
      (audioTrackId : TrackId) (audioClipId : ClipId)
  | synchronizeAudioVideo (timelineId : TimelineId) (videoTrackId : TrackId)
      (videoClipId : ClipId) (audioTrackId : TrackId) (audioClipId : ClipId)
  | detachAudio (timelineId : TimelineId) (videoTrackId : TrackId) (videoClipId : ClipId)
      (audioTrackId : TrackId) (audioClipId : ClipId)
  | lift (timelineId : TimelineId) (trackId : TrackId) (range : TimeRange) (gap : Gap)
      (fragmentIds : List EditorialObjectId)
  | extract (timelineId : TimelineId) (trackId : TrackId) (range : TimeRange)
      (fragmentIds : List EditorialObjectId)
  | ripple (timelineId : TimelineId) (trackId : TrackId) (targetId : EditorialObjectId)
      (side : EditSide) (to' : RationalTime) (syncAdjustments : List RippleSyncAdjustment)
  | roll (timelineId : TimelineId) (trackId : TrackId) (leftId rightId : EditorialObjectId)
      (to' : RationalTime)
  | slip (timelineId : TimelineId) (trackId : TrackId) (clipId : ClipId)
      (sourceStart : RationalTime)
  | slide (timelineId : TimelineId) (trackId : TrackId) (clipId : ClipId) (to' : RationalTime)
  | razor (timelineId : TimelineId) (trackId : TrackId) (targetId : EditorialObjectId)
      (at' : RationalTime) (fragmentId : EditorialObjectId)
  | trim (timelineId : TimelineId) (trackId : TrackId) (targetId : EditorialObjectId)
      (side : EditSide) (to' : RationalTime) (gapId : Option GapId)
  | extend (timelineId : TimelineId) (trackId : TrackId) (targetId : EditorialObjectId)
      (side : EditSide) (to' : RationalTime) (mode : ExtendMode)
      (syncAdjustments : List RippleSyncAdjustment)
  | setTransition (timelineId : TimelineId) (trackId : TrackId) (transitionId : TransitionId)
      (fromOffset toOffset : Duration)
  | threePoint (timelineId : TimelineId) (trackId : TrackId) (clip : Clip)
      (placement : ThreePointPlacement) (fragmentIds : List EditorialObjectId)
  | fourPoint (timelineId : TimelineId) (trackId : TrackId) (clip : Clip)
      (sourceRange recordRange : TimeRange) (fragmentIds : List EditorialObjectId)
  | retime (timelineId : TimelineId) (trackId : TrackId) (clipId : ClipId)
      (timeMap : ClipTimeMap)
  deriving DecidableEq, Repr

namespace EditOperation

def kind : EditOperation → EditKind
  | insert .. => .insert
  | overwrite .. => .overwrite
  | append .. => .append
  | replace .. => .replace
  | linkAudioVideo .. => .linkAudioVideo
  | synchronizeAudioVideo .. => .synchronizeAudioVideo
  | detachAudio .. => .detachAudio
  | lift .. => .lift
  | extract .. => .extract
  | ripple .. => .ripple
  | roll .. => .roll
  | slip .. => .slip
  | slide .. => .slide
  | razor .. => .razor
  | trim .. => .trim
  | extend .. => .extend
  | setTransition .. => .setTransition
  | threePoint .. => .threePoint
  | fourPoint .. => .fourPoint
  | retime .. => .retime

def timelineId : EditOperation → TimelineId
  | insert timelineId .. | overwrite timelineId .. | append timelineId ..
  | replace timelineId .. | linkAudioVideo timelineId .. | synchronizeAudioVideo timelineId ..
  | detachAudio timelineId .. | lift timelineId .. | extract timelineId ..
  | ripple timelineId .. | roll timelineId .. | slip timelineId .. | slide timelineId ..
  | razor timelineId .. | trim timelineId .. | extend timelineId ..
  | setTransition timelineId .. | threePoint timelineId .. | fourPoint timelineId ..
  | retime timelineId .. => timelineId

/-- The track whose lock is checked; audio-video operations report the audio track. -/
def trackId : EditOperation → TrackId
  | insert _ trackId .. | overwrite _ trackId .. | append _ trackId .. | replace _ trackId ..
  | lift _ trackId .. | extract _ trackId .. | ripple _ trackId .. | roll _ trackId ..
  | slip _ trackId .. | slide _ trackId .. | razor _ trackId .. | trim _ trackId ..
  | extend _ trackId .. | setTransition _ trackId .. | threePoint _ trackId ..
  | fourPoint _ trackId .. | retime _ trackId .. => trackId
  | linkAudioVideo _ _ _ audioTrackId _ | synchronizeAudioVideo _ _ _ audioTrackId _
  | detachAudio _ _ _ audioTrackId _ => audioTrackId

end EditOperation

/-! ## Outcomes -/

inductive TrackDurationChange
  | unchanged
  | extended (duration : Duration)
  | shortened (duration : Duration)
  deriving DecidableEq, Repr

/-- The signed change in seconds. -/
def TrackDurationChange.seconds : TrackDurationChange → ℚ
  | unchanged => 0
  | extended duration => duration.seconds
  | shortened duration => -duration.seconds

/-- One right fragment created from an original object. -/
structure EditFragment where
  original : EditorialObjectId
  created : EditorialObjectId
  deriving DecidableEq, Repr

structure EditOutcome where
  kind : EditKind
  timelineId : TimelineId
  trackId : TrackId
  affectedRange : TimeRange
  durationChange : TrackDurationChange
  insertedIds : List EditorialObjectId
  removedIds : List EditorialObjectId
  modifiedIds : List EditorialObjectId
  fragments : List EditFragment
  removedTransitions : List TransitionId
  synchronizedTracks : List TrackId
  deriving DecidableEq, Repr

/-- An edit of one track: the track it leaves and the outcome it reports. -/
abbrev TrackEdit : Type := Track × EditOutcome

end Editorial
end Superi

import Superi.Timeline.Batch

/-!
# TrackOps — track creation, deletion, order, control state and audio routing

A mutation names one track of one timeline.  A batch applies its mutations to one draft, in order,
and commits them together.
-/

namespace Superi
namespace Editorial

open Core Result

/-- Errors of `track_ops.rs`. -/
def trackError (category : ErrorCategory) (operation message : String) : Error :=
  (Error.new category .userCorrectable message).withContext
    ⟨"superi-timeline.track-ops", operation⟩

/-! ## Language tags -/

def grandfatheredTags : List String :=
  ["art-lojban", "cel-gaulish", "en-gb-oed", "i-ami", "i-bnn", "i-default", "i-enochian", "i-hak",
    "i-klingon", "i-lux", "i-mingo", "i-navajo", "i-pwn", "i-tao", "i-tay", "i-tsu", "no-bok",
    "no-nyn", "sgn-be-fr", "sgn-be-nl", "sgn-ch-de", "zh-guoyu", "zh-hakka", "zh-min", "zh-min-nan",
    "zh-xiang"]

def allAlpha (subtag : List Char) : Bool := subtag.all Char.isAlpha
def allDigit (subtag : List Char) : Bool := subtag.all Char.isDigit
def allAlphanumeric (subtag : List Char) : Bool := subtag.all Char.isAlphanum

def isLanguageVariant (subtag : List Char) : Bool :=
  (5 ≤ subtag.length && allAlphanumeric subtag) ||
    (subtag.length = 4 && subtag.head?.any Char.isDigit && allAlphanumeric subtag.tail)

/-- Drop the first subtag if it has the shape. -/
def dropIf (shape : List Char → Bool) : List (List Char) → List (List Char)
  | [] => []
  | subtag :: rest => if shape subtag then rest else subtag :: rest

/-- At most `count` extended language subtags. -/
def dropExtended : Nat → List (List Char) → List (List Char)
  | 0, subtags => subtags
  | _, [] => []
  | count + 1, subtag :: rest =>
      if subtag.length = 3 ∧ allAlpha subtag = true then dropExtended count rest
      else subtag :: rest

/-- Variants, none of them twice. -/
def dropVariants (seen : List (List Char)) : List (List Char) → Option (List (List Char))
  | [] => some []
  | subtag :: rest =>
      if isLanguageVariant subtag then
        if subtag ∈ seen then none else dropVariants (subtag :: seen) rest
      else some (subtag :: rest)

/-- Extensions: a singleton, none of them twice, and at least one longer subtag after it. -/
def dropExtensions (seen : List (List Char)) (started : Bool) :
    List (List Char) → Option (List (List Char))
  | [] => if started then none else some []
  | subtag :: rest =>
      if 2 ≤ subtag.length ∧ seen ≠ [] then dropExtensions seen false rest
      else if started then none
      else if subtag.length = 1 ∧ subtag ≠ ['x'] then
        if subtag ∈ seen then none else dropExtensions (subtag :: seen) true rest
      else some (subtag :: rest)

/-- What may come last is a private part with something in it. -/
def endsPrivate : List (List Char) → Bool
  | [] => true
  | subtag :: rest => subtag = ['x'] && !rest.isEmpty

/-- The parts after the primary language. -/
def isLanguageRest (language : List Char) (rest : List (List Char)) : Bool :=
  let rest := if language.length ≤ 3 then dropExtended 3 rest else rest
  let rest := dropIf (fun subtag => subtag.length = 4 && allAlpha subtag) rest
  let rest := dropIf (fun subtag => (subtag.length = 2 && allAlpha subtag) ||
    (subtag.length = 3 && allDigit subtag)) rest
  match (dropVariants [] rest).bind (dropExtensions [] false) with
  | some rest => endsPrivate rest
  | none => false

def isWellFormedLanguageTag (tag : String) : Bool :=
  if tag ∈ grandfatheredTags then true
  else
    let subtags := tag.toList.splitOn '-'
    if subtags.any fun subtag =>
      subtag.isEmpty || 8 < subtag.length || !allAlphanumeric subtag then false
    else
      match subtags with
      | [] => false
      | language :: rest =>
          if language = ['x'] then !rest.isEmpty
          else if ¬ (2 ≤ language.length ∧ language.length ≤ 8) ∨ allAlpha language = false then false
          else isLanguageRest language rest

/-- Validate subtag syntax, and normalize case. -/
def languageTag (tag : String) : Except Error String := do
  let tag := String.ofList (tag.toList.map Char.toLower)
  rejectIf (tag.isEmpty = true ∨ 255 < tag.utf8ByteSize ∨
      tag.toList.any (fun c => 128 ≤ c.toNat) = true)
    (invalid "create_language_tag" "language tag must contain between 1 and 255 ASCII bytes")
  rejectIf (isWellFormedLanguageTag tag = false)
    (invalid "create_language_tag" "language tag contains invalid BCP 47 syntax")
  pure tag

/-! ## Timeline operations -/

namespace TimelineEditState

/-- Change the record of one track. -/
def setTrackState (state : TimelineEditState) (operation : String) (trackId : TrackId)
    (change : TrackEditState → TrackEditState) : Except Error TimelineEditState := do
  let trackState ← okOr state.trackStates[trackId]?
    (notFoundState operation "editorial track was not found")
  pure { state with trackStates := state.trackStates.insert trackId (change trackState) }

def setTrackTargeted (state : TimelineEditState) (trackId : TrackId) (targeted : Bool) :
    Except Error TimelineEditState :=
  state.setTrackState "set_track_targeted" trackId fun track => { track with targeted }

def setTrackHeight (state : TimelineEditState) (trackId : TrackId) (height : Nat) :
    Except Error TimelineEditState := do
  rejectIf (¬ (minTrackHeight ≤ height ∧ height ≤ maxTrackHeight))
    (invalidState "set_track_height" "track height must be between 48 and 320 logical pixels")
  state.setTrackState "set_track_height" trackId fun track => { track with height }

def setTrackLocked (state : TimelineEditState) (trackId : TrackId) (locked : Bool) :
    Except Error TimelineEditState :=
  state.setTrackState "set_track_locked" trackId fun track => { track with locked }

def setTrackSyncLocked (state : TimelineEditState) (trackId : TrackId) (syncLocked : Bool) :
    Except Error TimelineEditState :=
  state.setTrackState "set_track_sync_locked" trackId fun track => { track with syncLocked }

def setTrackMuted (state : TimelineEditState) (trackId : TrackId) (muted : Bool) :
    Except Error TimelineEditState :=
  state.setTrackState "set_track_muted" trackId fun track => { track with muted }

def setTrackSolo (state : TimelineEditState) (trackId : TrackId) (solo : Bool) :
    Except Error TimelineEditState :=
  state.setTrackState "set_track_solo" trackId fun track => { track with solo }

def setTrackEnabled (state : TimelineEditState) (trackId : TrackId) (enabled : Bool) :
    Except Error TimelineEditState :=
  state.setTrackState "set_track_enabled" trackId fun track => { track with enabled }

end TimelineEditState

namespace Timeline

/-- Replace the command state of a timeline. -/
def withEditState (timeline : Timeline) (result : Except Error TimelineEditState) :
    Except Error Timeline := do
  let editState ← result
  pure { timeline with editState }

/-- Mute and solo are states of audio tracks only. -/
def requireAudio (timeline : Timeline) (trackId : TrackId) (requested : Bool)
    (operation message : String) : Except Error Unit :=
  rejectIf (requested = true ∧ ∃ track, timeline.track trackId = some track ∧ track.kind ≠ .audio)
    (invalid operation message)

def setTrackMuted (timeline : Timeline) (trackId : TrackId) (muted : Bool) :
    Except Error Timeline := do
  timeline.requireAudio trackId muted "set_track_muted"
    "mute state is supported only for audio tracks"
  timeline.withEditState (timeline.editState.setTrackMuted trackId muted)

def setTrackSolo (timeline : Timeline) (trackId : TrackId) (solo : Bool) :
    Except Error Timeline := do
  timeline.requireAudio trackId solo "set_track_solo"
    "solo state is supported only for audio tracks"
  timeline.withEditState (timeline.editState.setTrackSolo trackId solo)

/-- Insert one track at a canonical bottom-to-top position. -/
def insertTrack (timeline : Timeline) (position : Nat) (track : Track) (height : Nat) :
    Except Error Timeline := do
  rejectIf (¬ (minTrackHeight ≤ height ∧ height ≤ maxTrackHeight))
    (invalid "insert_track" "track height is outside the supported editor lane bounds")
  rejectIf (timeline.tracks.length < position)
    (invalid "insert_track" "track position must not exceed the current track count")
  rejectIf ((timeline.track track.id).isSome = true)
    (conflict "insert_track" "duplicate track identity on timeline")
  let tracks := timeline.tracks.insertIdx position track
  let editState ← (timeline.editState.reconcile tracks).setTrackHeight track.id height
  pure { timeline with tracks, editState }

/-- Remove one unlocked track. -/
def removeTrack (timeline : Timeline) (id : TrackId) : Except Error Timeline := do
  let position ← okOr (timeline.tracks.findIdx? fun track => track.id = id)
    (notFound "remove_track" "editorial track was not found")
  rejectIf ((timeline.editState.trackState id).any TrackEditState.locked = true)
    (conflict "remove_track" "locked tracks must be unlocked before deletion")
  pure { timeline with tracks := timeline.tracks.eraseIdx position }.reconcile

/-- Move one track to its final position. -/
def reorderTrack (timeline : Timeline) (id : TrackId) (position : Nat) :
    Except Error Timeline := do
  rejectIf (timeline.tracks.length ≤ position)
    (invalid "reorder_track" "track position must identify one final position in the timeline")
  let current ← okOr (timeline.tracks.findIdx? fun track => track.id = id)
    (notFound "reorder_track" "editorial track was not found")
  pure (match timeline.tracks[current]? with
    | some track => { timeline with
        tracks := (timeline.tracks.eraseIdx current).insertIdx position track }
    | none => timeline)

end Timeline

/-! ## Mutations -/

/-- The semantic template of an empty track. -/
inductive TrackCreationKind
  | video
  | audio
  | caption
  | data
  deriving DecidableEq, Repr

inductive TrackMutation
  | create (timelineId : TimelineId) (trackId : TrackId) (name : String) (kind : TrackCreationKind)
      (position height : Nat)
  | delete (timelineId : TimelineId) (trackId : TrackId)
  | rename (timelineId : TimelineId) (trackId : TrackId) (name : String)
  | setHeight (timelineId : TimelineId) (trackId : TrackId) (height : Nat)
  | setCaptionSemantics (timelineId : TimelineId) (trackId : TrackId) (language : String)
      (purpose : CaptionPurpose)
  | reorder (timelineId : TimelineId) (trackId : TrackId) (position : Nat)
  | setTargeted (timelineId : TimelineId) (trackId : TrackId) (targeted : Bool)
  | setLocked (timelineId : TimelineId) (trackId : TrackId) (locked : Bool)
  | setSyncLocked (timelineId : TimelineId) (trackId : TrackId) (syncLocked : Bool)
  | setMuted (timelineId : TimelineId) (trackId : TrackId) (muted : Bool)
  | setSolo (timelineId : TimelineId) (trackId : TrackId) (solo : Bool)
  | setAudioRouting (timelineId : TimelineId) (trackId : TrackId) (routing : AudioRouting)
  | setEnabled (timelineId : TimelineId) (trackId : TrackId) (enabled : Bool)
  deriving DecidableEq, Repr

namespace TrackMutation

def timelineId : TrackMutation → TimelineId
  | create timelineId .. | delete timelineId _ | rename timelineId .. | setHeight timelineId ..
  | setCaptionSemantics timelineId .. | reorder timelineId .. | setTargeted timelineId ..
  | setLocked timelineId .. | setSyncLocked timelineId .. | setMuted timelineId ..
  | setSolo timelineId .. | setAudioRouting timelineId .. | setEnabled timelineId .. => timelineId

def trackId : TrackMutation → TrackId
  | create _ trackId .. | delete _ trackId | rename _ trackId .. | setHeight _ trackId ..
  | setCaptionSemantics _ trackId .. | reorder _ trackId .. | setTargeted _ trackId ..
  | setLocked _ trackId .. | setSyncLocked _ trackId .. | setMuted _ trackId ..
  | setSolo _ trackId .. | setAudioRouting _ trackId .. | setEnabled _ trackId .. => trackId

end TrackMutation

inductive TrackMutationKind
  | create
  | delete
  | rename
  | setHeight
  | setCaptionSemantics
  | reorder
  | setTargeted
  | setLocked
  | setSyncLocked
  | setMuted
  | setSolo
  | setAudioRouting
  | setEnabled
  deriving DecidableEq, Repr

def TrackMutation.kind : TrackMutation → TrackMutationKind
  | create .. => .create
  | delete .. => .delete
  | rename .. => .rename
  | setHeight .. => .setHeight
  | setCaptionSemantics .. => .setCaptionSemantics
  | reorder .. => .reorder
  | setTargeted .. => .setTargeted
  | setLocked .. => .setLocked
  | setSyncLocked .. => .setSyncLocked
  | setMuted .. => .setMuted
  | setSolo .. => .setSolo
  | setAudioRouting .. => .setAudioRouting
  | setEnabled .. => .setEnabled

/-- The routing of a new audio track. -/
def defaultRouting : AudioRouting where
  destination := .main
  destinationLayout := [.frontLeft, .frontRight]
  routes := [⟨.frontLeft, .channel .frontLeft⟩, ⟨.frontRight, .channel .frontRight⟩]

def defaultSemantics (kind : TrackCreationKind) (editRate : Timebase) : TrackSemantics :=
  match kind with
  | .video => .video editRate .over
  | .audio => .audio 48000 Timebase.pos_48000 Timebase.fits_48000 [.frontLeft, .frontRight] defaultRouting
  | .caption => .caption (Timebase.integer 1000 Timebase.pos_1000 Timebase.fits_1000) "en-us" .captions
  | .data => .data editRate { schemeIdUri := "urn:superi:track:data", value := none }

/-- An audio track's routing describes its source channels in stream order. -/
def requireSources (channelLayout : List ChannelPosition) (routing : AudioRouting) :
    Except Error Unit :=
  rejectIf (routing.routes.map AudioChannelRoute.source ≠ channelLayout)
    (invalid "create_audio_track_semantics"
      "audio routing must describe every source channel exactly once in stream order")

/-- The destination of a routing is Main or another audio track. -/
def checkDestination (timeline : Timeline) (trackId : TrackId) (routing : AudioRouting) :
    Except Error Unit :=
  match routing.destination with
  | .main => pure ()
  | .track destination => do
      rejectIf (destination = trackId)
        (trackError .invalidInput "set_audio_routing" "an audio track cannot route into itself")
      let destinationTrack ← okOr (timeline.track destination)
        (trackError .notFound "set_audio_routing" "the routed destination track was not found")
      rejectIf (destinationTrack.kind ≠ .audio)
        (trackError .invalidInput "set_audio_routing"
          "audio routing destinations must be audio tracks")

/-- The semantics of an audio track under another routing. -/
def replaceRouting (semantics : TrackSemantics) (routing : AudioRouting) :
    Except Error TrackSemantics :=
  match semantics with
  | .audio sampleRate nonzero fits channelLayout current => do
      rejectIf (current = routing) (trackError .invalidInput "set_audio_routing"
        "audio routing replacement must change routing intent")
      requireSources channelLayout routing
      pure (.audio sampleRate nonzero fits channelLayout routing)
  | _ => .error (trackError .invalidInput "set_audio_routing"
      "audio routing is supported only for audio tracks")

def setAudioRouting (timeline : Timeline) (trackId : TrackId) (routing : AudioRouting) :
    Except Error Timeline := do
  checkDestination timeline trackId routing
  let track ← okOr (timeline.track trackId)
    (trackError .notFound "set_audio_routing" "the audio track was not found")
  let semantics ← replaceRouting track.semantics routing
  pure (timeline.setTrack { track with semantics })

/-- The semantics of a caption track under another language and purpose. -/
def replaceCaption (semantics : TrackSemantics) (language : String) (purpose : CaptionPurpose) :
    Except Error TrackSemantics :=
  match semantics with
  | .caption timebase _ _ => do
      let language ← languageTag language
      pure (.caption timebase language purpose)
  | _ => .error (trackError .invalidInput "set_caption_semantics"
      "caption semantics can be set only on a caption track")

/-- Apply one mutation to the timeline it names. -/
def mutateTimeline (timeline : Timeline) : TrackMutation → Except Error Timeline
  | .create _ trackId name kind position height =>
      timeline.insertTrack position
        { id := trackId, name, semantics := defaultSemantics kind timeline.editRate, items := [] }
        height
  | .delete _ trackId => timeline.removeTrack trackId
  | .rename _ trackId name => do
      let track ← timeline.trackMut trackId
      pure (timeline.setTrack { track with name })
  | .setHeight _ trackId height =>
      timeline.withEditState (timeline.editState.setTrackHeight trackId height)
  | .setCaptionSemantics _ trackId language purpose => do
      let track ← timeline.trackMut trackId
      let semantics ← replaceCaption track.semantics language purpose
      pure (timeline.setTrack { track with semantics })
  | .reorder _ trackId position => timeline.reorderTrack trackId position
  | .setTargeted _ trackId targeted =>
      timeline.withEditState (timeline.editState.setTrackTargeted trackId targeted)
  | .setLocked _ trackId locked =>
      timeline.withEditState (timeline.editState.setTrackLocked trackId locked)
  | .setSyncLocked _ trackId syncLocked =>
      timeline.withEditState (timeline.editState.setTrackSyncLocked trackId syncLocked)
  | .setMuted _ trackId muted => timeline.setTrackMuted trackId muted
  | .setSolo _ trackId solo => timeline.setTrackSolo trackId solo
  | .setAudioRouting _ trackId routing => setAudioRouting timeline trackId routing
  | .setEnabled _ trackId enabled =>
      timeline.withEditState (timeline.editState.setTrackEnabled trackId enabled)

def applyMutation (draft : ProjectDraft) (mutation : TrackMutation) : Except Error ProjectDraft := do
  let timeline ← draft.timelineMut mutation.timelineId
  let timeline ← mutateTimeline timeline mutation
  pure (draft.setTimeline mutation.timelineId timeline)

/-! ## Batches -/

structure TrackMutationOutcome where
  timelineId : TimelineId
  trackId : TrackId
  kind : TrackMutationKind
  deriving DecidableEq, Repr

structure TrackMutationBatchResult where
  revision : Nat
  outcomes : List TrackMutationOutcome
  deriving DecidableEq, Repr

/-- Apply one mutation of a batch behind the outcomes reported before it. -/
def applyMutationStep (state : ProjectDraft × List TrackMutationOutcome)
    (mutation : TrackMutation) : Except Error (ProjectDraft × List TrackMutationOutcome) := do
  let draft ← withErrorContext (applyMutation state.1 mutation)
    ⟨"superi-timeline.track-ops", "apply_track_mutation"⟩
  pure (draft, state.2 ++ [⟨mutation.timelineId, mutation.trackId, mutation.kind⟩])

/-- Apply a nonempty ordered batch of track mutations atomically. -/
def applyTrackMutationBatch (project : EditorialProject) (expectedRevision : Nat)
    (mutations : List TrackMutation) :
    Except Error (EditorialProject × TrackMutationBatchResult) := do
  rejectIf (mutations.isEmpty = true) (trackError .invalidInput "apply_track_mutation_batch"
    "a track mutation batch must contain at least one mutation")
  let (project, outcomes) ← project.edit expectedRevision fun draft =>
    mutations.foldlM applyMutationStep (draft, [])
  pure (project, { revision := project.revision, outcomes })

end Editorial
end Superi

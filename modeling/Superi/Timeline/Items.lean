import Superi.Core.Ids
import Superi.Timeline.Retime

/-!
# Items — the editorial objects of a track

Clips, gaps, generators, captions and transitions, as an editorial track stores them.  Timed
objects are kept apart from transitions by type: the source's `expect("timed edit output")` is the
statement that only the former ever reach the editing code.

A `Clip` carries the two facts its constructors check: its source and record ranges span the same
physical time, and its time map is bound to its record duration and source clock.
-/

namespace Superi
namespace Editorial

open Core Result

/-- Errors of `model.rs`. -/
def invalid (operation message : String) : Error :=
  (Error.new .invalidInput .userCorrectable message).withContext
    ⟨"superi-timeline.model", operation⟩

def notFound (operation message : String) : Error :=
  (Error.new .notFound .userCorrectable message).withContext
    ⟨"superi-timeline.model", operation⟩

def conflict (operation message : String) : Error :=
  (Error.new .conflict .userCorrectable message).withContext
    ⟨"superi-timeline.model", operation⟩

/-! ## Identities -/

/-- The stable identity of any item that can appear in an editorial track. -/
inductive EditorialObjectId
  | clip (id : ClipId)
  | gap (id : GapId)
  | transition (id : TransitionId)
  | generator (id : GeneratorId)
  | caption (id : CaptionId)
  deriving DecidableEq, Repr

namespace EditorialObjectId

/-- Position in the derived order: by domain, then by value. -/
def rank : EditorialObjectId → Nat
  | clip id => id.raw.toNat
  | gap id => 2 ^ 128 + id.raw.toNat
  | transition id => 2 * 2 ^ 128 + id.raw.toNat
  | generator id => 3 * 2 ^ 128 + id.raw.toNat
  | caption id => 4 * 2 ^ 128 + id.raw.toNat

theorem rank_injective {left right : EditorialObjectId} (h : left.rank = right.rank) :
    left = right := by
  have toNat_lt : ∀ {kind : IdentifierKind} (id : Identifier kind), id.raw.toNat < 2 ^ 128 :=
    fun id => id.raw.isLt
  have ext : ∀ {kind : IdentifierKind} (a b : Identifier kind), a.raw.toNat = b.raw.toNat →
      a = b := fun a b hraw => by
    cases a
    cases b
    simpa using BitVec.eq_of_toNat_eq hraw
  cases left with
  | _ a =>
      cases right with
      | _ b =>
          have ha := toNat_lt a
          have hb := toNat_lt b
          simp only [rank] at h
          first
            | exact congrArg _ (ext _ _ (by omega))
            | exact absurd h (by omega)

instance : Ord EditorialObjectId := ⟨compareOn rank⟩

instance : Std.TransOrd EditorialObjectId :=
  inferInstanceAs (Std.TransCmp (compareOn rank))

instance : Std.LawfulEqOrd EditorialObjectId :=
  Keyed.lawfulEqCmp_compareOn fun _ _ => rank_injective

end EditorialObjectId

/-- The source relationship retained by a clip. -/
inductive ClipSource
  | media (id : MediaId)
  | timeline (id : TimelineId)
  deriving DecidableEq, Repr

/-! ## Clip ranges -/

/-- One exact, synchronized mapping between source and record coordinates. -/
structure ClipRangeMap where
  sourceRange : TimeRange
  recordRange : TimeRange
  sourceNonempty : sourceRange.isEmpty = false
  recordNonempty : recordRange.isEmpty = false
  synchronized : sourceRange.duration ≈ recordRange.duration
  deriving Repr

theorem ClipRangeMap.fields_injective : Function.Injective fun x : ClipRangeMap =>
    (x.sourceRange, x.recordRange) := by
  rintro ⟨⟩ ⟨⟩ h
  simpa using h

instance : DecidableEq ClipRangeMap := ClipRangeMap.fields_injective.decidableEq

/-- The linear map between two ranges, on one endpoint. -/
def mapClipEndpoint (source target : TimeRange) (time : RationalTime) : Except Error RationalTime := do
  let offset ← time.checkedSubAt source.start source.timebase .exact
  let offset ← offset.checkedRescale target.timebase .exact
  target.start.checkedAddAt offset target.timebase .exact

/-- The linear map between two ranges, on a subrange. -/
def mapClipSubrange (source target range : TimeRange) (operation : String) :
    Except Error TimeRange := do
  rejectIf (range.start < source.start ∨ source.endExclusive < range.endExclusive)
    (invalid operation "mapped range must lie inside the clip range")
  let start ← mapClipEndpoint source target range.start
  let stop ← mapClipEndpoint source target range.endExclusive
  TimeRange.fromStartEnd start stop

namespace ClipRangeMap

/-- A range map together with the ranges it was built from. -/
abbrev Of (sourceRange recordRange : TimeRange) : Type :=
  { map : ClipRangeMap // map.sourceRange = sourceRange ∧ map.recordRange = recordRange }

/-- Create a nonempty synchronized source-to-record mapping. -/
def new (sourceRange recordRange : TimeRange) : Except Error (Of sourceRange recordRange) :=
  if hne : sourceRange.isEmpty = true ∨ recordRange.isEmpty = true then
    .error (invalid "create_clip_range_map"
      "clip source and record ranges must both be nonempty")
  else if hsync : sourceRange.duration ≈ recordRange.duration then
    .ok ⟨{
      sourceRange, recordRange
      sourceNonempty := by simpa using (not_or.1 hne).1
      recordNonempty := by simpa using (not_or.1 hne).2
      synchronized := hsync }, rfl, rfl⟩
  else
    .error (invalid "create_clip_range_map"
      "clip source and record durations must represent equal rational time")

def recordRangeToSource (map : ClipRangeMap) (range : TimeRange) : Except Error TimeRange :=
  mapClipSubrange map.recordRange map.sourceRange range "map_clip_record_range"

theorem mapClipEndpoint_spec {source target : TimeRange} {time result : RationalTime}
    (h : mapClipEndpoint source target time = .ok result) :
    result.timebase = target.timebase ∧
      result.seconds = target.start.seconds + (time.seconds - source.start.seconds) := by
  unfold mapClipEndpoint at h
  simp only [bind_eq_ok] at h
  obtain ⟨offset, hoffset, rescaled, hrescaled, hadd⟩ := h
  obtain ⟨-, hoffset⟩ := RationalTime.checkedSubAt_spec hoffset
  obtain ⟨hrescaled, -⟩ := RationalTime.checkedRescale_spec hrescaled
  obtain ⟨htb, hsec⟩ := RationalTime.checkedAddAt_spec hadd
  exact ⟨htb, by rw [hsec, hrescaled, hoffset]⟩

/-- The source range of a record subrange stays on the source clock. -/
theorem recordRangeToSource_timebase {map : ClipRangeMap} {range result : TimeRange}
    (h : map.recordRangeToSource range = .ok result) :
    result.timebase = map.sourceRange.timebase := by
  unfold recordRangeToSource mapClipSubrange at h
  simp only [bind_eq_ok] at h
  obtain ⟨_, -, start, hstart, stop, -, hrange⟩ := h
  obtain ⟨htb, -⟩ := mapClipEndpoint_spec hstart
  rw [← htb, ← (TimeRange.fromStartEnd_spec hrange).1, TimeRange.start_timebase]

end ClipRangeMap

/-! ## Timed items -/

/-- A source-bearing clip instance. -/
structure Clip where
  id : ClipId
  name : String
  source : ClipSource
  ranges : ClipRangeMap
  timeMap : ClipTimeMap
  bound : timeMap.recordDuration = ranges.recordRange.duration ∧
    timeMap.sourceTimebase = ranges.sourceRange.timebase
  deriving DecidableEq, Repr

namespace Clip

def sourceRange (clip : Clip) : TimeRange := clip.ranges.sourceRange
def recordRange (clip : Clip) : TimeRange := clip.ranges.recordRange

/-- Create a clip instance with identity playback timing. -/
def new (id : ClipId) (name : String) (source : ClipSource) (sourceRange recordRange : TimeRange) :
    Except Error Clip := do
  let ranges ← ClipRangeMap.new sourceRange recordRange
  let timeMap ← ClipTimeMap.identity recordRange.duration sourceRange.start
  pure {
    id, name, source
    ranges := ranges.1
    timeMap := timeMap.1
    bound := ⟨by rw [timeMap.2.1, ranges.2.2], by rw [timeMap.2.2, ranges.2.1]; rfl⟩ }

/-- Resolve one absolute record coordinate through the clip's time map. -/
def sourceTimeAt (clip : Clip) (recordTime : RationalTime) (rounding : TimeRounding) :
    Except Error MappedSourceTime := do
  rejectIf (clip.recordRange.contains recordTime = false)
    (invalid "resolve_clip_source_time"
      "playback query must lie inside the half-open clip record range")
  let localTime ← recordTime.checkedSubAt clip.recordRange.start clip.recordRange.timebase .exact
  clip.timeMap.sourceTimeAt localTime rounding

/-- Replace the selected source interval. -/
def setSourceRange (clip : Clip) (sourceRange : TimeRange) : Except Error Clip := do
  let ranges ← ClipRangeMap.new sourceRange clip.recordRange
  let timeMap ← clip.timeMap.translateSource clip.sourceRange.start sourceRange.start
  pure { clip with
    ranges := ranges.1
    timeMap := timeMap.1
    bound := ⟨by rw [timeMap.2.1, clip.bound.1, ranges.2.2]; rfl,
      by rw [timeMap.2.2, ranges.2.1]; rfl⟩ }

/-- Replace the timeline placement. -/
def setRecordRange (clip : Clip) (recordRange : TimeRange) : Except Error Clip := do
  let ranges ← ClipRangeMap.new clip.sourceRange recordRange
  let timeMap ← clip.timeMap.rescaleRecordClock recordRange.duration
  pure { clip with
    ranges := ranges.1
    timeMap := timeMap.1
    bound := ⟨by rw [timeMap.2.1, ranges.2.2], by rw [timeMap.2.2, clip.bound.2, ranges.2.1]; rfl⟩ }

/-- Replace source selection and record placement as one checked operation. -/
def setRanges (clip : Clip) (sourceRange recordRange : TimeRange) : Except Error Clip := do
  let ranges ← ClipRangeMap.new sourceRange recordRange
  if clip.recordRange.duration ≈ recordRange.duration then do
    let rescaled ← clip.timeMap.rescaleRecordClock recordRange.duration
    let timeMap ← rescaled.1.translateSource clip.sourceRange.start sourceRange.start
    pure { clip with
      ranges := ranges.1
      timeMap := timeMap.1
      bound := ⟨by rw [timeMap.2.1, rescaled.2.1, ranges.2.2],
        by rw [timeMap.2.2, ranges.2.1]; rfl⟩ }
  else if clip.timeMap.mode = .identity then do
    let timeMap ← ClipTimeMap.identity recordRange.duration sourceRange.start
    pure { clip with
      ranges := ranges.1
      timeMap := timeMap.1
      bound := ⟨by rw [timeMap.2.1, ranges.2.2], by rw [timeMap.2.2, ranges.2.1]; rfl⟩ }
  else
    .error (invalid "replace_clip_ranges"
      "retimed range replacement must preserve the clip duration or supply a new time map")

/-- Replace the complete playback timing. -/
def setTimeMap (clip : Clip) (timeMap : ClipTimeMap) : Except Error Clip := do
  let binding ← timeMap.validateBinding clip.recordRange.duration clip.sourceRange.timebase
  pure { clip with timeMap, bound := binding.down }

def cloneWithId (clip : Clip) (id : ClipId) : Clip := { clip with id }

/-- The part of the clip inside `recordRange`, under the identity `id`. -/
def sliceWithId (clip : Clip) (id : ClipId) (recordRange : TimeRange) : Except Error Clip :=
  match hsource : clip.ranges.recordRangeToSource recordRange with
  | .error error => .error error
  | .ok sourceRange => do
      let localStart ← recordRange.start.checkedSubAt clip.recordRange.start
        clip.recordRange.timebase .exact
      match hlocal : TimeRange.new localStart recordRange.duration with
      | .error error => .error error
      | .ok localRange => do
          let timeMap ← clip.timeMap.slice localRange
          let ranges ← ClipRangeMap.new sourceRange recordRange
          pure {
            id
            name := clip.name
            source := clip.source
            ranges := ranges.1
            timeMap := timeMap.1
            bound := ⟨by rw [timeMap.2.1, (TimeRange.new_eq_ok.1 hlocal).2, ranges.2.2],
              by rw [timeMap.2.2, clip.bound.2, ranges.2.1,
                ClipRangeMap.recordRangeToSource_timebase hsource]⟩ }

end Clip

/-- An explicit empty interval on a track. -/
structure Gap where
  id : GapId
  name : String
  recordRange : TimeRange
  deriving DecidableEq, Repr

/-- An editable generated-media item. -/
structure Generator where
  id : GeneratorId
  name : String
  kind : String
  parameters : Std.ExtTreeMap String String
  recordRange : TimeRange
  deriving DecidableEq, Repr

/-- An editable timed caption. -/
structure Caption where
  id : CaptionId
  name : String
  text : String
  language : Option String
  recordRange : TimeRange
  deriving DecidableEq, Repr

/-- A transition between two adjacent timed items. -/
structure Transition where
  id : TransitionId
  name : String
  fromId : EditorialObjectId
  toId : EditorialObjectId
  fromOffset : Duration
  toOffset : Duration
  deriving DecidableEq, Repr

/-- A track item that owns a record range. -/
inductive TimedItem
  | clip (value : Clip)
  | gap (value : Gap)
  | generator (value : Generator)
  | caption (value : Caption)
  deriving DecidableEq, Repr

/-- One ordered item in an editorial track. -/
inductive TrackItem
  | timed (item : TimedItem)
  | transition (value : Transition)
  deriving DecidableEq, Repr

namespace TimedItem

def id : TimedItem → EditorialObjectId
  | clip value => .clip value.id
  | gap value => .gap value.id
  | generator value => .generator value.id
  | caption value => .caption value.id

@[simp] theorem id_clip (value : Clip) : (clip value).id = .clip value.id := rfl
@[simp] theorem id_gap (value : Gap) : (gap value).id = .gap value.id := rfl
@[simp] theorem id_generator (value : Generator) : (generator value).id = .generator value.id := rfl
@[simp] theorem id_caption (value : Caption) : (caption value).id = .caption value.id := rfl

def recordRange : TimedItem → TimeRange
  | clip value => value.recordRange
  | gap value => value.recordRange
  | generator value => value.recordRange
  | caption value => value.recordRange

def asClip : TimedItem → Option Clip
  | clip value => some value
  | _ => none

def isGap : TimedItem → Bool
  | gap _ => true
  | _ => false

end TimedItem

namespace TrackItem

def id : TrackItem → EditorialObjectId
  | timed item => item.id
  | transition value => .transition value.id

def recordRange : TrackItem → Option TimeRange
  | timed item => some item.recordRange
  | transition _ => none

end TrackItem

/-! ## Tracks -/

/-- The semantic media class of an editorial track. -/
inductive TrackKind
  | video
  | audio
  | caption
  | data
  deriving DecidableEq, Repr

inductive VideoCompositing
  | over
  | replace
  deriving DecidableEq, Repr

inductive ChannelPosition
  | frontLeft
  | frontRight
  | frontCenter
  | lowFrequency
  | backLeft
  | backRight
  | frontLeftOfCenter
  | frontRightOfCenter
  | backCenter
  | sideLeft
  | sideRight
  | topCenter
  | topFrontLeft
  | topFrontCenter
  | topFrontRight
  | topBackLeft
  | topBackCenter
  | topBackRight
  | discrete (index : BitVec 16)
  deriving DecidableEq, Repr

inductive AudioRouteDestination
  | main
  | track (id : TrackId)
  deriving DecidableEq, Repr

inductive AudioChannelTarget
  | channel (position : ChannelPosition)
  | muted
  deriving DecidableEq, Repr

structure AudioChannelRoute where
  source : ChannelPosition
  target : AudioChannelTarget
  deriving DecidableEq, Repr

/-- Ordered routing intent for an audio track. -/
structure AudioRouting where
  destination : AudioRouteDestination
  destinationLayout : List ChannelPosition
  routes : List AudioChannelRoute
  deriving DecidableEq, Repr

inductive CaptionPurpose
  | captions
  | subtitles
  | descriptions
  | chapters
  deriving DecidableEq, Repr

/-- The application-defined type identity of timed data events. -/
structure DataSchema where
  schemeIdUri : String
  value : Option String
  deriving DecidableEq, Repr

/-- Complete embeddable semantics for one editorial track.  The audio sample rate keeps the
nonzero check of its constructor. -/
inductive TrackSemantics
  | video (frameRate : Timebase) (compositing : VideoCompositing)
  | audio (sampleRate : Nat) (nonzero : 0 < sampleRate) (fits : sampleRate < 4294967296)
      (channelLayout : List ChannelPosition) (routing : AudioRouting)
  | caption (timebase : Timebase) (language : String) (purpose : CaptionPurpose)
  | data (timebase : Timebase) (schema : DataSchema)
  deriving Repr

/-- The bounds on a sample rate are not data, so only the other fields are compared. -/
instance : DecidableEq TrackSemantics
  | .video a b, .video c d => decidable_of_iff (a = c ∧ b = d) (by simp)
  | .audio a _ _ b c, .audio d _ _ e f => decidable_of_iff (a = d ∧ b = e ∧ c = f) (by simp)
  | .caption a b c, .caption d e f => decidable_of_iff (a = d ∧ b = e ∧ c = f) (by simp)
  | .data a b, .data c d => decidable_of_iff (a = c ∧ b = d) (by simp)
  | .video .., .audio .. | .video .., .caption .. | .video .., .data .. => isFalse (by simp)
  | .audio .., .video .. | .audio .., .caption .. | .audio .., .data .. => isFalse (by simp)
  | .caption .., .video .. | .caption .., .audio .. | .caption .., .data .. => isFalse (by simp)
  | .data .., .video .. | .data .., .audio .. | .data .., .caption .. => isFalse (by simp)

namespace TrackSemantics

def kind : TrackSemantics → TrackKind
  | video .. => .video
  | audio .. => .audio
  | caption .. => .caption
  | data .. => .data

/-- The exact clock used for direct track edits. -/
def timebase : TrackSemantics → Timebase
  | video frameRate _ => frameRate
  | audio sampleRate nonzero fits _ _ => Timebase.integer sampleRate nonzero fits
  | caption timebase _ _ => timebase
  | data timebase _ => timebase

end TrackSemantics

/-- One ordered editorial track. -/
structure Track where
  id : TrackId
  name : String
  semantics : TrackSemantics
  items : List TrackItem
  deriving DecidableEq, Repr

namespace Track

def kind (track : Track) : TrackKind := track.semantics.kind
def timebase (track : Track) : Timebase := track.semantics.timebase

/-- Look up an item by its stable typed identity. -/
def item (track : Track) (id : EditorialObjectId) : Option TrackItem :=
  track.items.find? fun item => item.id = id

/-- Replace the complete item order. -/
def replaceItems (track : Track) (items : List TrackItem) : Track := { track with items }

@[simp] theorem replaceItems_items (track : Track) (items : List TrackItem) :
    (track.replaceItems items).items = items := rfl

@[simp] theorem replaceItems_id (track : Track) (items : List TrackItem) :
    (track.replaceItems items).id = track.id := rfl

@[simp] theorem replaceItems_name (track : Track) (items : List TrackItem) :
    (track.replaceItems items).name = track.name := rfl

@[simp] theorem replaceItems_semantics (track : Track) (items : List TrackItem) :
    (track.replaceItems items).semantics = track.semantics := rfl

@[simp] theorem replaceItems_timebase (track : Track) (items : List TrackItem) :
    (track.replaceItems items).timebase = track.timebase := rfl

end Track

end Editorial
end Superi

import Superi.Audio.Schedule
import Superi.Core.Geometry
import Superi.Core.Text
import Superi.Lib.Json
import Superi.Timeline.Items
import Superi.Wire.IdText

/-!
# Primitives — the stable serialization of shared values

Wide integers are canonical decimal strings, identifiers and names are their canonical text, and
composite values are records with explicit fields.  Reading goes through the checked constructors of
the types.
-/

namespace Superi
namespace Serialization

open Core Result Json
open Editorial (ChannelPosition)
open Graph (SemanticVersion)

/-! ## Reasons -/

inductive ParseVersionIdentifierError
  | missingSeparator
  | component (error : ParseSharedNameError)
  | version (error : Graph.ParseSemanticVersionError)

/-- What a type says when it refuses a value. -/
inductive Reason
  | message (text : String)
  | core (error : Error)
  | timecode (error : TimecodeError)
  | identifier (error : ParseIdentifierError)
  | name (error : ParseSharedNameError)
  | version (error : Graph.ParseSemanticVersionError)
  | versionIdentifier (error : ParseVersionIdentifierError)

/-- A check of a type, as a reason for a reader to stop. -/
def custom {ε α : Type} (reason : ε → Reason) (x : Except ε α) : Except (Fault Reason) α :=
  x.mapError fun error => .custom (reason error)

/-! ## Integers -/

abbrev I64 := {value : Int // InI64 value}
abbrev U32 := {value : Nat // value < 4294967296}
abbrev U64 := {value : Nat // value < 18446744073709551616}

def toI64 (value : Int) : Option I64 := if h : InI64 value then some ⟨value, h⟩ else none

def toU32 (value : Int) : Option U32 :=
  if h : 0 ≤ value ∧ value.toNat < 4294967296 then some ⟨value.toNat, h.2⟩ else none

def u32 : Wire Reason U32 := .number (fun value => value.1) toU32

def i32 : Wire Reason I32 := .number (fun value => value.1) toI32

/-- `text.strip_prefix('-')`. -/
def stripMinus : List Char → Option (List Char)
  | '-' :: digits => some digits
  | _ => none

def parseCanonicalI64 (text : List Char) : Except Reason I64 :=
  let digits := (stripMinus text).getD text
  if text = ['0'] then .ok ⟨0, inI64_zero⟩
  else if stripMinus text = some ['0'] then
    .error (.message "negative zero is not a canonical signed integer")
  else if digits = [] ∨ digits.head? = some '0' ∨ ¬ Decimal.IsDigits digits then
    .error (.message "expected a canonical signed decimal integer string")
  else
    okOr (toI64 (if (stripMinus text).isSome then -(Decimal.value digits : Int)
      else Decimal.value digits)) (.message "signed decimal integer is outside the i64 range")

def parseCanonicalU64 (text : List Char) : Except Reason U64 :=
  if text = ['0'] then .ok ⟨0, zero_lt_word⟩
  else if text = [] ∨ text.head? = some '0' ∨ ¬ Decimal.IsDigits text then
    .error (.message "expected a canonical unsigned decimal integer string")
  else if h : Decimal.value text < 18446744073709551616 then .ok ⟨Decimal.value text, h⟩
  else .error (.message "unsigned decimal integer is outside the u64 range")

def displayI64 (value : I64) : List Char :=
  if value.1 < 0 then '-' :: Nat.toDigits 10 value.1.natAbs else Nat.toDigits 10 value.1.natAbs

def displayU64 (value : U64) : List Char := Nat.toDigits 10 value.1

def canonicalI64 : Wire Reason I64 := .text displayI64 parseCanonicalI64

def canonicalU64 : Wire Reason U64 := .text displayU64 parseCanonicalU64

/-! ## Names, versions and identifiers -/

def sharedName : Wire Reason CanonicalName :=
  .text CanonicalName.text fun input => (CanonicalName.parse input).mapError .name

/-- A version a program can hold. -/
abbrev Version := {version : SemanticVersion // version.Valid}

def versionFromStr (input : List Char) : Except Graph.ParseSemanticVersionError Version :=
  match h : SemanticVersion.parse input with
  | .ok version => .ok ⟨version, SemanticVersion.valid_of_parse h⟩
  | .error error => .error error

def displayVersion (version : Version) : List Char := version.1.display.toList

def semanticVersion : Wire Reason Version :=
  .text displayVersion fun input => (versionFromStr input).mapError .version

/-- A component-qualified version. -/
structure VersionIdentifier where
  component : ComponentId
  version : Version

def VersionIdentifier.display (identifier : VersionIdentifier) : List Char :=
  identifier.component.text ++ '@' :: displayVersion identifier.version

def VersionIdentifier.fromStr (input : List Char) :
    Except ParseVersionIdentifierError VersionIdentifier := do
  let (component, version) ← okOr (Graph.splitOnce '@' input) .missingSeparator
  let component ← (CanonicalName.parse component).mapError .component
  let version ← (versionFromStr version).mapError .version
  pure { component, version }

def versionIdentifier : Wire Reason VersionIdentifier :=
  .text VersionIdentifier.display fun input =>
    (VersionIdentifier.fromStr input).mapError .versionIdentifier

def typedId (kind : IdentifierKind) : Wire Reason (Identifier kind) :=
  .text displayIdentifier fun input => (identifierFromStr input).mapError .identifier

def identifierKind : Wire Reason IdentifierKind :=
  .code (allKinds.map fun kind => (kind, kindCode kind))

/-! ## Times -/

def timeRounding : Wire Reason TimeRounding :=
  .code [(.exact, "exact"), (.floor, "floor"), (.ceil, "ceil"), (.towardZero, "toward_zero"),
    (.nearestTiesEven, "nearest_ties_even")]

/-- Terms are refused that the constructor would reduce. -/
def buildTimebase (message : String) (terms : U32 × U32) : Except (Fault Reason) Timebase := do
  let value ← custom .core (Timebase.new terms.1.1 terms.2.1 terms.1.2 terms.2.2)
  rejectIf (value.numerator ≠ terms.1.1 ∨ value.denominator ≠ terms.2.1)
    (.custom (.message message))
  pure value

def timebaseTerms (timebase : Timebase) : U32 × U32 :=
  (⟨timebase.numerator, timebase.numerator_fits⟩, ⟨timebase.denominator, timebase.denominator_fits⟩)

def timebase : Wire Reason Timebase :=
  .pair "numerator" u32 "denominator" u32 timebaseTerms
    (buildTimebase "timebase terms must already be reduced")

def frameRate : Wire Reason FrameRate :=
  .pair "numerator" u32 "denominator" u32 (fun rate => timebaseTerms rate.timebase) fun terms => do
    let timebase ← buildTimebase "frame-rate terms must already be reduced" terms
    pure { timebase }

def rationalTime : Wire Reason RationalTime :=
  .pair "value" canonicalI64 "timebase" timebase
    (fun time => (⟨time.value, time.inRange⟩, time.timebase))
    fun (value, timebase) => .ok { value := value.1, timebase, inRange := value.2 }

/-- A sample position of a clock that ticks. -/
abbrev SampleTime :=
  {time : Audio.SampleTime // time.sampleRate ≠ 0 ∧ time.sampleRate < 4294967296}

def buildSampleTime (parts : I64 × U32) : Except (Fault Reason) SampleTime :=
  match h : Audio.SampleTime.new parts.1 parts.2.1 with
  | .ok time =>
      have hnew := Audio.SampleTime.new_eq_ok.1 h
      .ok ⟨time, hnew.2.2.symm ▸ hnew.1, hnew.2.2.symm ▸ parts.2.2⟩
  | .error error => .error (.custom (.core error))

def sampleTime : Wire Reason SampleTime :=
  .pair "sample" canonicalI64 "sample_rate" u32
    (fun time => (⟨time.1.sample, time.1.inRange⟩, ⟨time.1.sampleRate, time.2.2⟩)) buildSampleTime

def durationValue (duration : Duration) : U64 :=
  ⟨duration.value, by
    have hfits := duration.fits
    rw [i64Max] at hfits
    omega⟩

def duration : Wire Reason Duration :=
  .pair "value" canonicalU64 "timebase" timebase
    (fun duration => (durationValue duration, duration.timebase))
    fun (value, timebase) => custom .core (Duration.new value.1 timebase)

def timeRange : Wire Reason TimeRange :=
  .pair "start" rationalTime "duration" duration (fun range => (range.start, range.duration))
    fun (start, duration) => custom .core (TimeRange.new start duration)

/-! ## Timecodes -/

def timecodeMode : Wire Reason TimecodeMode :=
  .code [(.nonDropFrame, "non_drop_frame"), (.dropFrame, "drop_frame")]

def timecodeComponent : Wire Reason TimecodeComponent :=
  .code [(.hours, "hours"), (.minutes, "minutes"), (.seconds, "seconds"), (.frames, "frames")]

def buildFormat (parts : FrameRate × TimecodeMode) : Except (Fault Reason) TimecodeFormat :=
  match parts.2 with
  | .nonDropFrame => .ok (.nonDrop parts.1)
  | .dropFrame => custom .timecode (TimecodeFormat.dropFrame parts.1)

def timecodeFormat : Wire Reason TimecodeFormat :=
  .pair "rate" frameRate "mode" timecodeMode (fun format => (format.rate, format.mode)) buildFormat

def timecode : Wire Reason Timecode :=
  .pair "frames" canonicalI64 "format" timecodeFormat
    (fun timecode => (⟨timecode.frames, timecode.inRange⟩, timecode.format))
    fun (frames, format) => .ok { frames := frames.1, format, inRange := frames.2 }

/-! ## Bounds -/

def buildRatio (terms : U32 × U32) : Except (Fault Reason) AspectRatio := do
  let value ← custom .core (AspectRatio.new terms.1.1 terms.2.1 terms.1.2 terms.2.2)
  rejectIf (value.numerator ≠ terms.1.1 ∨ value.denominator ≠ terms.2.1)
    (.custom (.message "aspect-ratio terms must already be reduced"))
  pure value

def aspectRatio : Wire Reason AspectRatio :=
  .pair "numerator" u32 "denominator" u32
    (fun ratio => (⟨ratio.numerator, ratio.numerator_fits⟩,
      ⟨ratio.denominator, ratio.denominator_fits⟩)) buildRatio

def buildBounds : List I32 → Except (Fault Reason) PixelBounds
  | [minX, minY, maxX, maxY] => custom .core (PixelBounds.new minX minY maxX maxY)
  | _ => .error .invalidLength

def pixelBounds : Wire Reason PixelBounds :=
  .uniform ["min_x", "min_y", "max_x", "max_y"] i32
    (fun bounds => [bounds.minX, bounds.minY, bounds.maxX, bounds.maxY]) buildBounds

/-! ## Channels -/

/-- The positions that stand for a speaker, with their codes. -/
def speakers : List (ChannelPosition × String) :=
  [(.frontLeft, "front_left"), (.frontRight, "front_right"), (.frontCenter, "front_center"),
    (.lowFrequency, "low_frequency"), (.backLeft, "back_left"), (.backRight, "back_right"),
    (.frontLeftOfCenter, "front_left_of_center"), (.frontRightOfCenter, "front_right_of_center"),
    (.backCenter, "back_center"), (.sideLeft, "side_left"), (.sideRight, "side_right"),
    (.topCenter, "top_center"), (.topFrontLeft, "top_front_left"),
    (.topFrontCenter, "top_front_center"), (.topFrontRight, "top_front_right"),
    (.topBackLeft, "top_back_left"), (.topBackCenter, "top_back_center"),
    (.topBackRight, "top_back_right")]

def discretePrefix : List Char := "discrete:".toList

def displayPosition : ChannelPosition → List Char
  | .discrete index => discretePrefix ++ Nat.toDigits 10 index.toNat
  | position => ((speakers.find? fun entry => entry.1 = position).elim "" Prod.snd).toList

def parsePosition (code : List Char) : Except Reason ChannelPosition :=
  match speakers.find? fun entry => entry.2.toList = code with
  | some entry => .ok entry.1
  | none => do
      let index ← okOr (code.dropPrefix? discretePrefix) (.message "unknown channel position code")
      let index ← parseCanonicalU64 index
      if index.1 < 65536 then pure (.discrete (BitVec.ofNat 16 index.1))
      else .error (.message "discrete channel index exceeds u16")

def channelPosition : Wire Reason ChannelPosition := .text displayPosition parsePosition

/-- An ordered layout in which no position is repeated. -/
structure ChannelLayout where
  positions : List ChannelPosition
  nonempty : positions ≠ []
  distinct : positions.Nodup

def ChannelLayout.new (positions : List ChannelPosition) : Except Error ChannelLayout :=
  let invalidLayout (message : String) : Error :=
    (Error.new .invalidInput .userCorrectable message).withContext
      ⟨"superi-core.pixel", "create_channel_layout"⟩
  if hempty : positions = [] then
    .error (invalidLayout "channel layout must contain at least one position")
  else if hdistinct : positions.Nodup then .ok ⟨positions, hempty, hdistinct⟩
  else .error (invalidLayout "channel layout contains a duplicate position")

def channelLayout : Wire Reason ChannelLayout where
  serialize layout := .array (layout.positions.map channelPosition.serialize)
  deserialize
    | .array items => do
        let positions ← items.mapM channelPosition.deserialize
        custom .core (ChannelLayout.new positions)
    | _ => .error .invalidType

/-! ## All of them -/

/-- The primitives with a stable serialization that hold no floating-point value and no unit of
another domain. -/
inductive Primitive
  | canonicalI64
  | canonicalU64
  | settingKey
  | capabilityId
  | featureId
  | componentId
  | semanticVersion
  | versionIdentifier
  | typedId (kind : IdentifierKind)
  | identifierKind
  | timebase
  | frameRate
  | rationalTime
  | sampleTime
  | duration
  | timeRange
  | timeRounding
  | timecodeFormat
  | timecode
  | timecodeMode
  | timecodeComponent
  | aspectRatio
  | pixelBounds
  | channelPosition
  | channelLayout

def Primitive.Value : Primitive → Type
  | .canonicalI64 => I64
  | .canonicalU64 => U64
  | .settingKey | .capabilityId | .featureId | .componentId => CanonicalName
  | .semanticVersion => Version
  | .versionIdentifier => VersionIdentifier
  | .typedId kind => Identifier kind
  | .identifierKind => IdentifierKind
  | .timebase => Timebase
  | .frameRate => FrameRate
  | .rationalTime => RationalTime
  | .sampleTime => SampleTime
  | .duration => Duration
  | .timeRange => TimeRange
  | .timeRounding => TimeRounding
  | .timecodeFormat => TimecodeFormat
  | .timecode => Timecode
  | .timecodeMode => TimecodeMode
  | .timecodeComponent => TimecodeComponent
  | .aspectRatio => AspectRatio
  | .pixelBounds => PixelBounds
  | .channelPosition => ChannelPosition
  | .channelLayout => ChannelLayout

def Primitive.wire : (primitive : Primitive) → Wire Reason primitive.Value
  | .canonicalI64 => Serialization.canonicalI64
  | .canonicalU64 => Serialization.canonicalU64
  | .settingKey => sharedName
  | .capabilityId => sharedName
  | .featureId => sharedName
  | .componentId => sharedName
  | .semanticVersion => Serialization.semanticVersion
  | .versionIdentifier => Serialization.versionIdentifier
  | .typedId kind => Serialization.typedId kind
  | .identifierKind => Serialization.identifierKind
  | .timebase => Serialization.timebase
  | .frameRate => Serialization.frameRate
  | .rationalTime => Serialization.rationalTime
  | .sampleTime => Serialization.sampleTime
  | .duration => Serialization.duration
  | .timeRange => Serialization.timeRange
  | .timeRounding => Serialization.timeRounding
  | .timecodeFormat => Serialization.timecodeFormat
  | .timecode => Serialization.timecode
  | .timecodeMode => Serialization.timecodeMode
  | .timecodeComponent => Serialization.timecodeComponent
  | .aspectRatio => Serialization.aspectRatio
  | .pixelBounds => Serialization.pixelBounds
  | .channelPosition => Serialization.channelPosition
  | .channelLayout => Serialization.channelLayout

end Serialization
end Superi

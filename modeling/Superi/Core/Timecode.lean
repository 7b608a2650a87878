import Superi.Core.Int128
import Superi.Lib.Decimal
import Superi.Lib.Delimited

/-!
# Timecode — frame-accurate editorial labels

A timecode stores a continuous signed frame index and an explicit format.  Drop-frame mode omits
labels, never media frames.  Labels are texts of characters; lengths of fields are counted in bytes
as in the source.
-/

namespace Superi
namespace Core

open Result

/-! ## Formats -/

/-- An exact positive rational video frame rate. -/
structure FrameRate where
  timebase : Timebase
  deriving DecidableEq, Repr

namespace FrameRate

def numerator (rate : FrameRate) : Nat := rate.timebase.numerator
def denominator (rate : FrameRate) : Nat := rate.timebase.denominator

/-- The nearest integral counting rate used by timecode labels. -/
def nominalFps (rate : FrameRate) : Nat :=
  (rate.numerator + rate.denominator / 2) / rate.denominator

end FrameRate

/-- The counting convention used by an editorial timecode label. -/
inductive TimecodeMode
  | nonDropFrame
  | dropFrame
  deriving DecidableEq, Repr

def TimecodeMode.separator : TimecodeMode → Char
  | .nonDropFrame => ':'
  | .dropFrame => ';'

inductive TimecodeComponent
  | hours
  | minutes
  | seconds
  | frames
  deriving DecidableEq, Repr

/-- The failures of parsing and of choosing a format. -/
inductive TimecodeError
  | invalidSyntax
  | separatorMismatch (expected found : Char)
  | componentOutOfRange (component : TimecodeComponent) (value maximum : Nat)
  | droppedFrameLabel (minute frame : Nat)
  | unsupportedDropFrameRate (rate : FrameRate)
  | arithmeticOverflow
  | negativeZero
  deriving DecidableEq, Repr

/-- `u32::checked_mul`. -/
def checkedMulU32 (left right : Nat) : Option Nat :=
  if left * right < 4294967296 then some (left * right) else none

/-- The rates that drop-frame counting is defined for. -/
def supportsDropFrame (rate : FrameRate) : Prop :=
  rate.denominator = 1001 ∧ checkedMulU32 rate.nominalFps 1000 = some rate.numerator ∧
    rate.nominalFps % 30 = 0

instance (rate : FrameRate) : Decidable (supportsDropFrame rate) :=
  inferInstanceAs (Decidable (_ ∧ _ ∧ _))

/-- An exact frame rate paired with a counting convention.  The fields are private in the source;
`counting` says what its two constructors leave in them. -/
structure TimecodeFormat where
  rate : FrameRate
  mode : TimecodeMode
  dropFramesPerMinute : Nat
  counting : match mode with
    | .nonDropFrame => dropFramesPerMinute = 0
    | .dropFrame => supportsDropFrame rate ∧ dropFramesPerMinute = rate.nominalFps / 15
  deriving DecidableEq

namespace TimecodeFormat

/-- A non-drop-frame format for any valid frame rate. -/
def nonDrop (rate : FrameRate) : TimecodeFormat :=
  ⟨rate, .nonDropFrame, 0, rfl⟩

/-- A drop-frame format for an exact NTSC-related rate. -/
def dropFrame (rate : FrameRate) : Except TimecodeError TimecodeFormat :=
  if h : supportsDropFrame rate then .ok ⟨rate, .dropFrame, rate.nominalFps / 15, h, rfl⟩
  else .error (.unsupportedDropFrameRate rate)

def nominalFps (format : TimecodeFormat) : Nat := max format.rate.nominalFps 1

end TimecodeFormat

/-! ## Labels -/

/-- A continuous signed frame position with an explicit display format. -/
structure Timecode where
  frames : Int
  format : TimecodeFormat
  inRange : InI64 frames

theorem Timecode.fields_injective : Function.Injective fun x : Timecode =>
    (x.frames, x.format) := by
  rintro ⟨⟩ ⟨⟩ h
  simpa using h

instance : DecidableEq Timecode := Timecode.fields_injective.decidableEq

/-- The digits of a `u32`, at least one. -/
def digitCount (n : Nat) : Nat :=
  if n = 0 then 1 else go n
where
  go (remaining : Nat) : Nat :=
    if remaining = 0 then 0 else go (remaining / 10) + 1

/-- `text.parse::<u64>()` of a nonempty text of ASCII digits. -/
def parseDigits (text : List Char) : Except TimecodeError Nat :=
  if text = [] ∨ ¬ Decimal.IsDigits text then .error .invalidSyntax
  else if Decimal.value text < 18446744073709551616 then .ok (Decimal.value text)
  else .error .arithmeticOverflow

def validateComponent (component : TimecodeComponent) (value maximum : Nat) :
    Except TimecodeError Unit :=
  rejectIf (maximum < value) (.componentOutOfRange component value maximum)

/-- `str::len`. -/
def byteLength (text : List Char) : Nat := (text.map Char.utf8Size).sum

def isDelimiter (c : Char) : Bool := c == ':' || c == ';'

/-- The four fields of an unsigned label. -/
structure LabelFields where
  hours : List Char
  minutes : List Char
  seconds : List Char
  frames : List Char

/-- How wide the frame field of a format is. -/
def TimecodeFormat.frameWidth (format : TimecodeFormat) : Nat :=
  max (digitCount (format.nominalFps - 1)) 2

/-- `strip_prefix('-')`. -/
def stripSign : List Char → Bool × List Char
  | '-' :: rest => (true, rest)
  | label => (false, label)

/-- The first part of `parse`: an unsigned label cut at its delimiters into fields of the right
lengths. -/
def splitFields (unsigned : List Char) (format : TimecodeFormat) :
    Except TimecodeError LabelFields :=
  match Delimited.marks isDelimiter 0 unsigned with
  | [(firstDelimiter, first), (secondDelimiter, second), (foundSeparator, third)] => do
      rejectIf (firstDelimiter ≠ ':' ∨ secondDelimiter ≠ ':') .invalidSyntax
      rejectIf (foundSeparator ≠ format.mode.separator)
        (.separatorMismatch format.mode.separator foundSeparator)
      let hoursText := unsigned.take first
      let minutesText := (unsigned.take second).drop (first + 1)
      let secondsText := (unsigned.take third).drop (second + 1)
      let framesText := unsigned.drop (third + 1)
      rejectIf (byteLength hoursText < 2 ∨ byteLength minutesText ≠ 2 ∨
        byteLength secondsText ≠ 2 ∨ byteLength framesText ≠ format.frameWidth) .invalidSyntax
      pure ⟨hoursText, minutesText, secondsText, framesText⟩
  | _ => .error .invalidSyntax

/-- The arithmetic of `parse`: the frames that valid components stand for, in checked 128-bit
steps. -/
def labelMagnitude (hours minutes seconds frames : Nat) (format : TimecodeFormat) :
    Except TimecodeError Int := do
  let hourMinutes ← okOr (checkedI128 (hours * 60)) .arithmeticOverflow
  let totalMinutes ← okOr (checkedI128 (hourMinutes + minutes)) .arithmeticOverflow
  let minuteSeconds ← okOr (checkedI128 (totalMinutes * 60)) .arithmeticOverflow
  let totalSeconds ← okOr (checkedI128 (minuteSeconds + seconds)) .arithmeticOverflow
  let secondFrames ← okOr (checkedI128 (totalSeconds * format.nominalFps)) .arithmeticOverflow
  let nominalCount ← okOr (checkedI128 (secondFrames + frames)) .arithmeticOverflow
  let droppedMinutes := totalMinutes - totalMinutes.tdiv 10
  let droppedLabels ← okOr (checkedI128 (droppedMinutes * format.dropFramesPerMinute))
    .arithmeticOverflow
  okOr (checkedI128 (nominalCount - droppedLabels)) .arithmeticOverflow

/-- The sign of a label on its magnitude. -/
def applySign (negative : Bool) (magnitude : Int) : Except TimecodeError Int :=
  if negative then okOr (checkedI128 (-magnitude)) .arithmeticOverflow else pure magnitude

namespace Timecode

/-- Parse a canonical label using an explicit format. -/
def parse (label : String) (format : TimecodeFormat) : Except TimecodeError Timecode := do
  let (negative, unsigned) := stripSign label.toList
  let fields ← splitFields unsigned format
  let hours ← parseDigits fields.hours
  let minutes ← parseDigits fields.minutes
  let seconds ← parseDigits fields.seconds
  let frames ← parseDigits fields.frames
  validateComponent .minutes minutes 59
  validateComponent .seconds seconds 59
  validateComponent .frames frames (format.nominalFps - 1)
  rejectIf (format.mode = .dropFrame ∧ minutes % 10 ≠ 0 ∧ seconds = 0 ∧
    frames < format.dropFramesPerMinute) (.droppedFrameLabel minutes frames)
  let magnitude ← labelMagnitude hours minutes seconds frames format
  let signed ← applySign negative magnitude
  if h : InI64 signed then do
    rejectIf (negative = true ∧ signed = 0) .negativeZero
    pure ⟨signed, format, h⟩
  else .error .arithmeticOverflow

/-- The label count of a frame: in drop-frame mode the omitted labels are added back. -/
def displayCount (timecode : Timecode) : Nat :=
  let continuous := timecode.frames.natAbs
  if timecode.format.mode = .nonDropFrame then continuous
  else
    let nominal := timecode.format.nominalFps
    let drop := timecode.format.dropFramesPerMinute
    let framesPerMinute := nominal * 60 - drop
    let framesPerTenMinutes := nominal * 600 - drop * 9
    let tenMinuteCycles := continuous / framesPerTenMinutes
    let remainder := continuous % framesPerTenMinutes
    let labelCount := continuous + tenMinuteCycles * drop * 9
    if drop ≤ remainder then labelCount + drop * ((remainder - drop) / framesPerMinute)
    else labelCount

/-- The characters of the canonical label. -/
def label (timecode : Timecode) : List Char :=
  let nominal := timecode.format.nominalFps
  let count := timecode.displayCount
  let framesPerHour := nominal * 3600
  let framesPerMinute := nominal * 60
  let hours := count / framesPerHour
  let afterHours := count % framesPerHour
  let minutes := afterHours / framesPerMinute
  let afterMinutes := afterHours % framesPerMinute
  let seconds := afterMinutes / nominal
  let frames := afterMinutes % nominal
  (if timecode.frames < 0 then ['-'] else []) ++
    (Decimal.padded 2 hours ++ ':' :: (Decimal.padded 2 minutes ++ ':' ::
      (Decimal.padded 2 seconds ++ timecode.format.mode.separator ::
        Decimal.padded timecode.format.frameWidth frames)))

/-- `Display`. -/
def display (timecode : Timecode) : String := String.ofList timecode.label

end Timecode

end Core
end Superi

import Mathlib
import Superi.Lib.Stateful
import Superi.Timeline.Markers

/-!
# Multicam — synchronized angles and clip-local switching

A multicam source timeline owns a catalog of angles, each naming its source clips; a multicam
clip owns a gapless program of angle switches over the complete source.
-/

namespace Superi
namespace Editorial

open Core Result

/-- Errors of `multicam.rs`. -/
def invalidMulticam (operation message : String) : Error :=
  (Error.new .invalidInput .userCorrectable message).withContext
    ⟨"superi-timeline.multicam", operation⟩

def notFoundMulticam (operation message : String) : Error :=
  (Error.new .notFound .userCorrectable message).withContext
    ⟨"superi-timeline.multicam", operation⟩

def conflictMulticam (operation message : String) : Error :=
  (Error.new .conflict .userCorrectable message).withContext
    ⟨"superi-timeline.multicam", operation⟩

def requireMulticamText (operation value : String) : Except Error Unit :=
  rejectIf (isBlank value = true)
    (invalidMulticam operation "multicam text value must not be blank")

/-- The evidence a source timeline was synchronized by. -/
inductive MulticamSyncMethod
  | manual
  | timecode
  | inPoints
  | outPoints
  | clipMarker (name : String)
  | audio
  deriving DecidableEq, Repr

def MulticamSyncMethod.validate : MulticamSyncMethod → Except Error Unit
  | clipMarker name => requireMulticamText "validate_sync_method" name
  | _ => pure ()

/-! ## Angles -/

structure MulticamAngle where
  id : MulticamAngleId
  name : String
  cameraLabel : String
  enabled : Bool
  metadata : TimelineMetadata
  sourceClips : List ClipId

/-- Insert `created` behind the first occurrence of `original`. -/
def insertBehind (original created : ClipId) : List ClipId → List ClipId
  | [] => []
  | id :: rest =>
      if id = original then id :: created :: rest else id :: insertBehind original created rest

namespace MulticamAngle

def validate (angle : MulticamAngle) : Except Error Unit := do
  requireMulticamText "validate_angle" angle.name
  requireMulticamText "validate_angle" angle.cameraLabel
  rejectIf (¬ angle.sourceClips.Nodup)
    (conflictMulticam "validate_angle"
      "duplicate source clip identity within one multicam angle")

def inheritSourceFragment (angle : MulticamAngle) (original created : ClipId) : MulticamAngle :=
  if created ∈ angle.sourceClips then angle
  else { angle with sourceClips := insertBehind original created angle.sourceClips }

/-- The replaced list loses consecutive duplicates. -/
def transferSourceClip (angle : MulticamAngle) (removed inserted : ClipId) : MulticamAngle :=
  if removed ∈ angle.sourceClips then
    { angle with
      sourceClips := (angle.sourceClips.replace removed inserted).destutter (· ≠ ·) }
  else angle

def reconcile (angle : MulticamAngle) (existing : Finset ClipId) : MulticamAngle :=
  { angle with sourceClips := angle.sourceClips.filter fun id => id ∈ existing }

end MulticamAngle

structure MulticamSource where
  syncMethod : MulticamSyncMethod
  angles : List MulticamAngle

namespace MulticamSource

def angle (source : MulticamSource) (id : MulticamAngleId) : Option MulticamAngle :=
  source.angles.find? fun angle => angle.id = id

/-- One angle against the angle and clip identities of the angles before it. -/
def validateAngle (claimed : Finset MulticamAngleId × Finset ClipId) (angle : MulticamAngle) :
    Except Error (Finset MulticamAngleId × Finset ClipId) := do
  angle.validate
  rejectIf (angle.id ∈ claimed.1)
    (conflictMulticam "validate_source" "duplicate multicam angle identity")
  let clips ← angle.sourceClips.foldlM (fun (clips : Finset ClipId) id => do
    rejectIf (id ∈ clips)
      (conflictMulticam "validate_source"
        "one source clip cannot belong to multiple multicam angles")
    pure (insert id clips)) claimed.2
  pure (insert angle.id claimed.1, clips)

def validate (source : MulticamSource) : Except Error Unit := do
  source.syncMethod.validate
  rejectIf (source.angles.length < 2)
    (invalidMulticam "validate_source"
      "a multicam source must retain at least two camera angles")
  let _ ← source.angles.foldlM validateAngle (∅, ∅)
  pure ()

def inheritSourceFragment (source : MulticamSource) (original created : ClipId) :
    MulticamSource :=
  { source with angles := source.angles.map fun angle =>
      angle.inheritSourceFragment original created }

def transferSourceClip (source : MulticamSource) (removed inserted : ClipId) : MulticamSource :=
  { source with angles := source.angles.map fun angle => angle.transferSourceClip removed inserted }

def reconcile (source : MulticamSource) (existing : Finset ClipId) : MulticamSource :=
  { source with angles := source.angles.map fun angle => angle.reconcile existing }

end MulticamSource

/-! ## Switch programs -/

inductive MulticamAudioPolicy
  | followVideo
  | fixed (angle : MulticamAngleId)
  | allAngles
  deriving DecidableEq, Repr

structure MulticamSwitch where
  sourceRange : TimeRange
  angleId : MulticamAngleId
  deriving DecidableEq, Repr

structure MulticamClip where
  clipId : ClipId
  switches : List MulticamSwitch
  audioPolicy : MulticamAudioPolicy
  deriving DecidableEq, Repr

namespace MulticamClip

def cloneWithClipId (clip : MulticamClip) (clipId : ClipId) : MulticamClip :=
  { clip with clipId }

/-- From the first switch to the end of the last.  `none` stands for the source's `expect`s, which
`validate_partition` rules out. -/
def coverage (clip : MulticamClip) : Option TimeRange := do
  let first ← clip.switches.head?
  let last ← clip.switches.getLast?
  (TimeRange.fromStartEnd first.sourceRange.start last.sourceRange.endExclusive).toOption

def validateSwitches (expected : RationalTime) : List MulticamSwitch → Except Error Unit
  | [] => pure ()
  | switch :: rest => do
      rejectIf (switch.sourceRange.isEmpty = true ∨ ¬ switch.sourceRange.start ≈ expected ∨
          switch.sourceRange.timebase ≠ expected.timebase)
        (invalidMulticam "validate_switches"
          "multicam switch intervals must be nonempty, gapless, and use one source clock")
      validateSwitches switch.sourceRange.endExclusive rest

def validatePartition (clip : MulticamClip) : Except Error Unit :=
  match clip.switches with
  | [] =>
      .error (invalidMulticam "validate_switches"
        "multicam clip must retain one or more switch intervals")
  | first :: rest => validateSwitches first.sourceRange.start (first :: rest)

/-- A referenced angle exists and is enabled. -/
def requireAngle (source : MulticamSource) (id : MulticamAngleId) (missing disabled : String) :
    Except Error Unit := do
  let angle ← okOr (source.angle id) (notFoundMulticam "validate_multicam_clip" missing)
  rejectIf (angle.enabled = false) (invalidMulticam "validate_multicam_clip" disabled)

def validateAgainst (clip : MulticamClip) (source : MulticamSource)
    (completeSourceRange : TimeRange) : Except Error Unit := do
  clip.validatePartition
  rejectIf (¬ ∃ covered ∈ clip.coverage, covered ≈ completeSourceRange)
    (invalidMulticam "validate_multicam_clip"
      "multicam switch program must exactly cover the complete source timeline")
  clip.switches.forM fun switch =>
    requireAngle source switch.angleId "multicam switch references a missing source angle"
      "multicam switch references a disabled source angle"
  match clip.audioPolicy with
  | .fixed angle =>
      requireAngle source angle "fixed multicam audio references a missing source angle"
        "fixed multicam audio references a disabled source angle"
  | _ => pure ()

/-! ### Switching -/

def new (clipId : ClipId) (sourceRange : TimeRange) (initialAngle : MulticamAngleId)
    (audioPolicy : MulticamAudioPolicy) : Except Error MulticamClip := do
  rejectIf (sourceRange.isEmpty = true ∨ sourceRange.start.isNegative = true)
    (invalidMulticam "create_multicam_clip"
      "multicam switch coverage must be nonempty and start at or after source zero")
  pure { clipId, switches := [⟨sourceRange, initialAngle⟩], audioPolicy }

/-- The angle of the first switch that contains the time. -/
def angleAt (clip : MulticamClip) (sourceTime : RationalTime) : Except Error MulticamAngleId := do
  let switch ← okOr (clip.switches.find? fun switch => switch.sourceRange.contains sourceTime)
    (invalidMulticam "resolve_angle" "multicam source time lies outside the clip switch program")
  pure switch.angleId

/-- Append a switch, or let the last one grow when it has the same angle and ends where the new one
starts. -/
def pushSwitch (output : List MulticamSwitch) (next : MulticamSwitch) :
    Except Error (List MulticamSwitch) :=
  match output.getLast? with
  | none => pure [next]
  | some last =>
      if last.angleId = next.angleId ∧
          last.sourceRange.endExclusive ≈ next.sourceRange.start then do
        let sourceRange ← TimeRange.fromStartEnd last.sourceRange.start
          next.sourceRange.endExclusive
        pure (output.dropLast ++ [{ last with sourceRange }])
      else pure (output ++ [next])

/-- Push the switch to `angleId` between two coordinates. -/
def pushBetween (output : List MulticamSwitch) (start endExclusive : RationalTime)
    (angleId : MulticamAngleId) : Except Error (List MulticamSwitch) := do
  let sourceRange ← TimeRange.fromStartEnd start endExclusive
  pushSwitch output { sourceRange, angleId }

/-- Push what a switch keeps between two coordinates, unless there is nothing between them. -/
def pushRemainder (output : List MulticamSwitch) (start endExclusive : RationalTime)
    (angleId : MulticamAngleId) : Except Error (List MulticamSwitch) :=
  if start < endExclusive then pushBetween output start endExclusive angleId else pure output

/-- One turn of the loop of `switchRange`: what `range` leaves of a switch, and its overlap. -/
def switchOverlap (range : TimeRange) (angleId : MulticamAngleId) (output : List MulticamSwitch)
    (switch : MulticamSwitch) : Except Error (List MulticamSwitch) := do
  let switchStart := switch.sourceRange.start
  let switchEnd := switch.sourceRange.endExclusive
  if switchEnd ≤ range.start ∨ range.endExclusive ≤ switchStart then
    pushSwitch output switch
  else
    let output ← pushRemainder output switchStart range.start switch.angleId
    let overlapStart := if range.start < switchStart then switchStart else range.start
    let overlapEnd := if switchEnd < range.endExclusive then switchEnd else range.endExclusive
    let output ← pushBetween output overlapStart overlapEnd angleId
    pushRemainder output range.endExclusive switchEnd switch.angleId

open Stateful MonadExcept in
/-- The body of `switch_range` once the coverage is known. -/
def switchWithin (coverage sourceRange : TimeRange) (angleId : MulticamAngleId) :
    EStateM Error MulticamClip Unit := do
  refuseIf (sourceRange.isEmpty = true ∨ sourceRange.timebase ≠ coverage.timebase ∨
      sourceRange.start < coverage.start ∨ coverage.endExclusive < sourceRange.endExclusive)
    (invalidMulticam "switch_angle"
      "multicam switch range must be a nonempty subrange of complete source coverage")
  let clip ← get
  let switches ← ofExcept (clip.switches.foldlM (switchOverlap sourceRange angleId) [])
  modify fun clip => { clip with switches }
  let clip ← get
  ofExcept clip.validatePartition

/-- Select one angle over a part of the coverage.  `none` stands for the panic of `coverage`. -/
def switchRange (sourceRange : TimeRange) (angleId : MulticamAngleId) (clip : MulticamClip) :
    Option (EStateM.Result Error MulticamClip Unit) :=
  clip.coverage.map fun coverage => switchWithin coverage sourceRange angleId clip

/-- The first two neighbours that meet at `at`, and the index of the left one. -/
def findCut (cut : RationalTime) : List MulticamSwitch → Option (Nat × MulticamSwitch × MulticamSwitch)
  | left :: right :: rest =>
      if left.sourceRange.endExclusive ≈ cut ∧ right.sourceRange.start ≈ cut then
        some (0, left, right)
      else (findCut cut (right :: rest)).map fun found => (found.1 + 1, found.2)
  | _ => none

/-- Replace the range of the switch at `index`. -/
def setRange (clip : MulticamClip) (index : Nat) (sourceRange : TimeRange) : MulticamClip :=
  { clip with switches := clip.switches.modify index fun switch => { switch with sourceRange } }

open Stateful MonadExcept in
/-- Move the cut at `cut` to `target`; the angles on its two sides stay. -/
def moveCut (cut target : RationalTime) : EStateM Error MulticamClip Unit := do
  refuseIf (cut.timebase ≠ target.timebase)
    (invalidMulticam "move_switch_cut" "multicam cut coordinates must use one exact source clock")
  let clip ← get
  let (index, left, right) ← ofExcept (okOr (findCut cut clip.switches)
    (notFoundMulticam "move_switch_cut" "multicam switch cut was not found"))
  let leftStart := left.sourceRange.start
  let rightEnd := right.sourceRange.endExclusive
  refuseIf (target ≤ leftStart ∨ rightEnd ≤ target ∨ target ≈ cut)
    (invalidMulticam "move_switch_cut"
      "moved multicam cut must stay inside both neighboring switch extents")
  let leftRange ← ofExcept (TimeRange.fromStartEnd leftStart target)
  modify fun clip => clip.setRange index leftRange
  let rightRange ← ofExcept (TimeRange.fromStartEnd target rightEnd)
  modify fun clip => clip.setRange (index + 1) rightRange
  let clip ← get
  ofExcept clip.validatePartition

end MulticamClip

end Editorial
end Superi

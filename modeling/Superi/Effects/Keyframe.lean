import Superi.Core.Int128
import Superi.Lib.Sequence

/-!
# Keyframe — animation curves and their roving keys

A curve keeps its authored keyframes.  A fixed key has a time of its own; a roving one is placed
between the fixed keys around it, in proportion to the distance its value has covered, and at least
one tick away from its neighbours.

Component values and distances are floating-point numbers, which only the operations of `Arithmetic`
look into.  What the source would not survive, a clamp whose bounds are crossed, has no outcome.
-/

namespace Superi
namespace Effects

open Core Result

/-- The floating-point operations on components. -/
structure Arithmetic (F : Type) where
  zero : F
  add : F → F → F
  mul : F → F → F
  div : F → F → F
  /-- `(right - left).abs()` -/
  distance : F → F → F
  isFinite : F → Bool
  isZero : F → Bool
  /-- `numerator as f64 / denominator as f64` -/
  fraction : Int → Int → F
  /-- `(span as f64 * ratio).round().clamp(0.0, span as f64) as i64` -/
  roundWithin : Int → F → Int

def maxComponents : Nat := 64

def maxKeyframes : Nat := 100000

def animationError (operation message : String) : Error :=
  (Error.new .invalidInput .userCorrectable message).withContext
    ⟨"superi-effects.keyframe", operation⟩

/-! ## Keyframes -/

/-- The components of one property value. -/
structure AnimationValue (F : Type) where
  components : List F
  deriving DecidableEq

/-- Slope components in value units per second. -/
structure ValueTangent (F : Type) where
  components : List F
  deriving DecidableEq

/-- Authored placement of one keyframe. -/
inductive KeyframeTiming
  | fixed (time : RationalTime)
  | roving
  deriving DecidableEq, Repr

def KeyframeTiming.isFixed : KeyframeTiming → Bool
  | .fixed _ => true
  | .roving => false

def KeyframeTiming.time? : KeyframeTiming → Option RationalTime
  | .fixed time => some time
  | .roving => none

inductive Interpolation
  | linear
  | cubic
  | hold
  deriving DecidableEq, Repr

inductive Easing (F : Type)
  | linear
  | cubicBezier (x1 y1 x2 y2 : F)
  deriving DecidableEq

/-- One authored keyframe, whose tangents are as wide as its value. -/
structure Keyframe (F : Type) where
  timing : KeyframeTiming
  value : AnimationValue F
  outgoing : Interpolation
  easing : Easing F
  incomingTangent : Option (ValueTangent F)
  outgoingTangent : Option (ValueTangent F)
  sameWidth : ∀ tangent ∈ [incomingTangent, outgoingTangent].reduceOption,
    tangent.components.length = value.components.length
  deriving DecidableEq

section

variable {F : Type}

def validateComponents (arithmetic : Arithmetic F) (components : List F) (operation : String) :
    Except Error Unit := do
  rejectIf (components = []) (animationError operation "animation components cannot be empty")
  rejectIf (maxComponents < components.length)
    (animationError operation "animation components exceed the supported width")
  rejectIf (components.all arithmetic.isFinite = false)
    (animationError operation "animation components must be finite")

def ValueTangent.new (arithmetic : Arithmetic F) (components : List F) :
    Except Error (ValueTangent F) := do
  validateComponents arithmetic components "create_tangent"
  return { components }

def ValueTangent.scaled (arithmetic : Arithmetic F) (tangent : ValueTangent F) (factor : F) :
    Except Error (ValueTangent F) :=
  ValueTangent.new arithmetic (tangent.components.map (arithmetic.mul · factor))

def Keyframe.new (timing : KeyframeTiming) (value : AnimationValue F) (outgoing : Interpolation)
    (easing : Easing F) (incomingTangent outgoingTangent : Option (ValueTangent F)) :
    Except Error (Keyframe F) :=
  if h : ∀ tangent ∈ [incomingTangent, outgoingTangent].reduceOption,
      tangent.components.length = value.components.length then
    .ok { timing, value, outgoing, easing, incomingTangent, outgoingTangent, sameWidth := h }
  else
    .error (animationError "create_keyframe"
      "keyframe tangent and value component counts must match")

/-! ## Placing the roving keys -/

/-- `i64::try_from(count).unwrap_or(i64::MAX)` -/
def i64OrMax (count : Nat) : Int := if (count : Int) ≤ i64Max then count else i64Max

/-- A sum or difference of coordinates, checked. -/
def checkedRoving (value : Int) (message : String) : Except Error Int :=
  if InI64 value then .ok value else .error (animationError "resolve_roving" message)

/-- `Ord::clamp`, which panics on crossed bounds.  A coordinate between two coordinates is one. -/
def clampTime (value minimum maximum : Int) (timebase : Timebase) : Machine RationalTime :=
  let candidate := max minimum (min value maximum)
  if h : minimum ≤ maximum ∧ InI64 candidate then
    pure { value := candidate, timebase, inRange := h.2 }
  else ExceptT.mk none

/-- The distances between consecutive keys. -/
def spanWeights (arithmetic : Arithmetic F) : List (Keyframe F) → Except Error (List F)
  | left :: right :: rest => do
      let distance := (List.zipWith arithmetic.distance left.value.components
        right.value.components).foldl arithmetic.add arithmetic.zero
      rejectIf (arithmetic.isFinite distance = false)
        (animationError "resolve_roving" "roving value distance must remain finite")
      let weights ← spanWeights arithmetic (right :: rest)
      return distance :: weights
  | _ => .ok []

/-- How much of the way to the right anchor has been covered. -/
def rovingRatio (arithmetic : Arithmetic F) (cumulative total : F) (offset intervals : Nat) : F :=
  if arithmetic.isZero total then arithmetic.fraction offset intervals
  else arithmetic.div cumulative total

/-- The roving keys from `offset` on, each with the distance that leads to it. -/
def placeRoving (arithmetic : Arithmetic F) (start stop : RationalTime) (span : Int) (total : F)
    (intervals : Nat) : Nat → F → Int → List F → Machine (List RationalTime)
  | _, _, _, [] => pure []
  | offset, cumulative, previous, weight :: weights => do
      let cumulative := arithmetic.add cumulative weight
      let ratio := rovingRatio arithmetic cumulative total offset intervals
      let relative := arithmetic.roundWithin span ratio
      let remaining := i64OrMax (intervals - offset)
      let minimum ← Machine.lift (checkedRoving (previous + 1)
        "roving allocation exceeded the supported time range")
      let maximum ← Machine.lift (checkedRoving (stop.value - remaining)
        "roving allocation exceeded the supported time range")
      let position ← Machine.lift (checkedRoving (start.value + relative)
        "roving allocation exceeded the supported time range")
      let candidate ← clampTime position minimum maximum start.timebase
      let later ← placeRoving arithmetic start stop span total intervals (offset + 1) cumulative
        candidate.value weights
      return candidate :: later

/-- `allocate_roving_span`: the times of the keys between two anchors. -/
def allocateRovingSpan (arithmetic : Arithmetic F) (keyframes : List (Keyframe F))
    (start stop : RationalTime) : Machine (List RationalTime) := do
  let intervals := keyframes.length - 1
  let span ← Machine.lift (checkedRoving (stop.value - start.value)
    "roving fixed-anchor span exceeds the supported time range")
  Machine.lift (rejectIf (span < i64OrMax intervals) (animationError "resolve_roving"
    "roving span has too few integer ticks for distinct keyframes"))
  let weights ← Machine.lift (spanWeights arithmetic keyframes)
  let total := weights.foldl arithmetic.add arithmetic.zero
  Machine.lift (rejectIf (arithmetic.isFinite total = false) (animationError "resolve_roving"
    "roving total value distance must remain finite"))
  -- the last distance leads to the right anchor
  placeRoving arithmetic start stop span total intervals 1 arithmetic.zero start.value
    weights.dropLast

/-- Two fixed keys with roving ones between them, or next to each other. -/
def resolveSpan (arithmetic : Arithmetic F) (keyframes : List (Keyframe F))
    (start stop : RationalTime) : Machine (List RationalTime) :=
  if 1 < keyframes.length - 1 then allocateRovingSpan arithmetic keyframes start stop else pure []

/-- The times of all keys, from one fixed key to the next. -/
def resolveRovingTimes (arithmetic : Arithmetic F) :
    List (Keyframe F) → Machine (List RationalTime)
  | [] => pure []
  | left :: rest =>
      match left.timing with
      | .roving => Machine.lift (.error (animationError "resolve_roving"
          "roving keyframe has no fixed left anchor"))
      | .fixed leftTime =>
          if rest = [] then pure [leftTime]
          else
            match _hsplit : Sequence.splitFirst (·.timing.isFixed) rest with
            | none => Machine.lift (.error (animationError "resolve_roving"
                "roving keyframe has no fixed right anchor"))
            | some (between, right, after) =>
                match right.timing with
                | .roving => ExceptT.mk none
                | .fixed rightTime => do
                    let roving ← resolveSpan arithmetic (left :: between ++ [right]) leftTime
                      rightTime
                    let later ← resolveRovingTimes arithmetic (right :: after)
                    return leftTime :: roving ++ later
termination_by keyframes => keyframes.length
decreasing_by
  have hrest := congrArg List.length (Sequence.splitFirst_eq_some _hsplit).1
  simp only [List.length_append, List.length_cons] at hrest ⊢
  omega

/-! ## Curves -/

/-- One key after another: its width, its tangents, and a fixed time on the clock of the curve,
after the fixed times before. -/
def checkKeyframes (timebase : Timebase) (componentCount : Nat) :
    Option Int → List (Keyframe F) → Except Error Unit
  | _, [] => .ok ()
  | previousFixed, keyframe :: rest => do
      rejectIf (keyframe.value.components.length ≠ componentCount)
        ((animationError "create_curve"
          "every animation keyframe must use the same component count").withContext
          ⟨"superi-effects.keyframe", "create_curve"⟩)
      rejectIf ([keyframe.incomingTangent, keyframe.outgoingTangent].reduceOption.any
          fun tangent => tangent.components.length != componentCount)
        ((animationError "create_curve"
          "keyframe tangent and curve component counts must match").withContext
          ⟨"superi-effects.keyframe", "create_curve"⟩)
      match keyframe.timing with
      | .fixed time =>
          rejectIf (time.timebase ≠ timebase)
            ((animationError "create_curve"
              "fixed keyframe time must use the curve timebase").withContext
              ⟨"superi-effects.keyframe", "create_curve"⟩)
          rejectIf (previousFixed.any (time.value ≤ ·))
            ((animationError "create_curve"
              "fixed keyframe times must increase strictly").withContext
              ⟨"superi-effects.keyframe", "create_curve"⟩)
          checkKeyframes timebase componentCount (some time.value) rest
      | .roving => checkKeyframes timebase componentCount previousFixed rest

/-- The checks on authored state. -/
def checkCurve (timebase : Timebase) (keyframes : List (Keyframe F)) : Except Error Unit :=
  match keyframes with
  | [] => .error (animationError "create_curve"
      "animation curve must contain at least one keyframe")
  | first :: rest => do
      rejectIf (maxKeyframes < (first :: rest).length)
        (animationError "create_curve" "animation curve exceeds the supported keyframe count")
      rejectIf (first.timing.isFixed = false ∨
          ((first :: rest).getLast (List.cons_ne_nil _ _)).timing.isFixed = false)
        (animationError "create_curve" "the first and last animation keyframes must be fixed")
      checkKeyframes timebase first.value.components.length none (first :: rest)

/-- A validated curve with its derived times.  `E` is an expression over time. -/
structure AnimationCurve (E : Type) (arithmetic : Arithmetic F) where
  timebase : Timebase
  keyframes : List (Keyframe F)
  resolvedTimes : List RationalTime
  expression : Option E
  checked : checkCurve timebase keyframes = .ok ()
  resolved : (resolveRovingTimes arithmetic keyframes).run = some (.ok resolvedTimes)

variable {E : Type}

def AnimationCurve.new (arithmetic : Arithmetic F) (timebase : Timebase)
    (keyframes : List (Keyframe F)) (expression : Option E) :
    Machine (AnimationCurve E arithmetic) :=
  match hchecked : checkCurve timebase keyframes with
  | .error error => Machine.lift (.error error)
  | .ok () =>
      match hresolved : (resolveRovingTimes arithmetic keyframes).run with
      | none => ExceptT.mk none
      | some (.error error) => Machine.lift (.error error)
      | some (.ok resolvedTimes) =>
          pure { timebase, keyframes, resolvedTimes, expression,
                 checked := hchecked, resolved := hresolved }

/-! ## Retiming -/

def rescaleRetimeEndpoint (time : RationalTime) (timebase : Timebase) : Except Error RationalTime :=
  (time.checkedRescale timebase .exact).mapError fun _ =>
    animationError "retime_curve"
      "retime endpoint cannot be represented exactly on the curve clock"

/-- The exact affine image of a fixed time. -/
def retimeFixed (oldStart oldSpan newStart newSpan : Int) (timebase : Timebase)
    (time : RationalTime) : Machine RationalTime := do
  let offset ← sub128 time.value oldStart
  let numerator ← Machine.lift (okOr (checkedI128 (offset * newSpan))
    (animationError "retime_curve" "fixed keyframe retime arithmetic overflowed"))
  let remainder ← rem128 numerator oldSpan
  Machine.lift (rejectIf (remainder ≠ 0)
    (animationError "retime_curve" "fixed keyframe cannot map exactly to the curve clock"))
  let quotient ← div128 numerator oldSpan
  let mapped ← add128 newStart quotient
  Machine.lift (RationalTime.tryFrom mapped timebase
    (animationError "retime_curve" "fixed keyframe retime exceeds the supported time range"))

def retimeTiming (oldStart oldSpan newStart newSpan : Int) (timebase : Timebase) :
    KeyframeTiming → Machine KeyframeTiming
  | .fixed time => do
      let mapped ← retimeFixed oldStart oldSpan newStart newSpan timebase time
      return .fixed mapped
  | .roving => pure .roving

def scaleTangent (arithmetic : Arithmetic F) (factor : F) (tangent : Option (ValueTangent F)) :
    Except Error (Option (ValueTangent F)) :=
  tangent.mapM (·.scaled arithmetic factor)

def retimeKeyframe (arithmetic : Arithmetic F) (oldStart oldSpan newStart newSpan : Int)
    (timebase : Timebase) (keyframe : Keyframe F) : Machine (Keyframe F) := do
  let factor := arithmetic.fraction oldSpan newSpan
  let timing ← retimeTiming oldStart oldSpan newStart newSpan timebase keyframe.timing
  let incomingTangent ← Machine.lift (scaleTangent arithmetic factor keyframe.incomingTangent)
  let outgoingTangent ← Machine.lift (scaleTangent arithmetic factor keyframe.outgoingTangent)
  Machine.lift (Keyframe.new timing keyframe.value keyframe.outgoing keyframe.easing incomingTangent
    outgoingTangent)

namespace AnimationCurve

variable {arithmetic : Arithmetic F}

/-- The first and the last resolved time. -/
def endpoints (curve : AnimationCurve E arithmetic) : Machine (RationalTime × RationalTime) :=
  match curve.resolvedTimes.head?, curve.resolvedTimes.getLast? with
  | some first, some last => pure (first, last)
  | _, _ => ExceptT.mk none

def retimed (curve : AnimationCurve E arithmetic) (newStart newEnd : RationalTime) :
    Machine (AnimationCurve E arithmetic) := do
  Machine.lift (rejectIf (curve.keyframes.length < 2)
    (animationError "retime_curve" "retiming requires at least two keyframes"))
  let newStart ← Machine.lift (rescaleRetimeEndpoint newStart curve.timebase)
  let newEnd ← Machine.lift (rescaleRetimeEndpoint newEnd curve.timebase)
  Machine.lift (rejectIf (newEnd.value ≤ newStart.value)
    (animationError "retime_curve" "retime end must occur after retime start"))
  let (oldStart, oldEnd) ← curve.endpoints
  let oldSpan ← sub128 oldEnd.value oldStart.value
  let newSpan ← sub128 newEnd.value newStart.value
  let keyframes ← curve.keyframes.mapM
    (retimeKeyframe arithmetic oldStart.value oldSpan newStart.value newSpan curve.timebase)
  AnimationCurve.new arithmetic curve.timebase keyframes curve.expression

end AnimationCurve

end

end Effects
end Superi

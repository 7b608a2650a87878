import Superi.Core.Int128
import Superi.Timeline.Retime

/-!
# TransportCadence — which frame is due when

The transport counts cadence steps from an anchor: a clock position and the frame that was due
there.  Reading the clock counts the steps that have passed, and scheduling a frame asks when its
step is due.  The two mappings are written apart, each with its own products of timebases and rate
on `i128`.

Only what a running playback does to the cadence is here.  The calls to the frame workers, the
prefetcher and the audio output may fail, and where one does the operation ends with its error.
-/

namespace Superi
namespace Engine

open Core Editorial Result

/-! ## Modes and policies -/

inductive PlaybackTransportMode
  | paused
  | playing
  | scrubbing
  | ended
  deriving DecidableEq, Repr

/-- Signed traversal direction independent of rate magnitude. -/
inductive PlaybackDirection
  | forward
  | reverse
  deriving DecidableEq, Repr

def PlaybackDirection.sign : PlaybackDirection → Int
  | .forward => 1
  | .reverse => -1

inductive DroppedFramePolicy
  | preserveEveryFrame
  | dropLate (maxConsecutive : Nat)
  deriving DecidableEq, Repr

/-- Counters that stop at the bounds of `u64`, `u32` and `u64`. -/
structure DropStatistics where
  totalDropped : Nat
  consecutiveDropped : Nat
  forcedPresentations : Nat
  deriving DecidableEq, Repr

inductive FrameProtection
  | ordinary
  | discontinuity
  | loopBoundary
  deriving DecidableEq, Repr

def FrameProtection.isDroppable : FrameProtection → Bool
  | .ordinary => true
  | .discontinuity => false
  | .loopBoundary => false

structure ScheduledFrame where
  frame : RationalTime
  dueClock : RationalTime
  protection : FrameProtection
  deriving DecidableEq, Repr

/-- The cadence of a transport.  A zero rate and an empty range are refused before they get here. -/
structure PlaybackTransport where
  bounds : TimeRange
  loopRange : Option TimeRange
  mode : PlaybackTransportMode
  playhead : RationalTime
  rate : PlaybackRate
  dropPolicy : DroppedFramePolicy
  dropStatistics : DropStatistics
  forcedNoted : Bool
  clockAnchor : RationalTime
  frameAnchor : RationalTime
  cadenceOffset : Nat
  scheduled : Option ScheduledFrame
  epoch : Nat
  rate_moves : rate.isFreeze = false
  offset_fits : cadenceOffset < 18446744073709551616
  bounds_nonempty : bounds.isEmpty = false
  loop_nonempty : ∀ range ∈ loopRange, range.isEmpty = false

/-! ## Errors -/

def transportError (category : ErrorCategory) (recoverability : Recoverability)
    (message operation : String) : Error :=
  (Error.new category recoverability message).withContext ⟨"superi-engine.transport", operation⟩

def invalidTransport (operation message : String) : Error :=
  transportError .invalidInput .userCorrectable message operation

def overflowTransport (operation message : String) : Error :=
  transportError .resourceExhausted .terminal message operation

/-! ## Arithmetic -/

/-- A chain of `checked_mul` on `i128`. -/
def checkedProduct (first : Int) (factors : List Int) : Option Int :=
  factors.foldlM (fun value factor => checkedI128 (value * factor)) first

/-- `checked_add` and `checked_sub` on `u64`. -/
def checkedU64 (value : Nat) : Option Nat :=
  if value < 18446744073709551616 then some value else none

/-- `i128::clamp`, which refuses bounds in the wrong order by a panic. -/
def clamp128 (value low high : Int) : Machine Int :=
  if high < low then ExceptT.mk none
  else pure (if value < low then low else if high < value then high else value)

def ceilDivPositive (numerator denominator : Int) : Machine Int := do
  Machine.lift (rejectIf (numerator < 0 ∨ denominator ≤ 0)
    (invalidTransport "divide" "transport cadence division requires nonnegative values"))
  let adjustment ← Machine.lift (okOr (checkedI128 (denominator - 1))
    (overflowTransport "divide" "cadence divisor underflowed"))
  let value ← Machine.lift (okOr (checkedI128 (numerator + adjustment))
    (overflowTransport "divide" "cadence ceiling overflowed"))
  div128 value denominator

namespace PlaybackTransport

variable (transport : PlaybackTransport)

def direction : PlaybackDirection :=
  if transport.rate.isReverse then .reverse else .forward

def activeRange : TimeRange :=
  transport.loopRange.getD transport.bounds

/-- How far `last` lies from `origin` in the playing direction. -/
def directionalDistance (origin last : RationalTime) : Except Error Int := do
  rejectIf (origin.timebase ≠ last.timebase)
    (invalidTransport "distance" "transport frame coordinates must share one timebase")
  let raw ← RationalTime.tryFrom (last.value - origin.value) origin.timebase
    (overflowTransport "distance" "transport frame distance overflowed")
  let signed ← RationalTime.tryFrom (raw.value * transport.direction.sign) origin.timebase
    (overflowTransport "distance" "signed transport distance overflowed")
  pure signed.value

/-! ## From the clock to frames -/

/-- The steps in `elapsed` units of the clock. -/
def elapsedSteps (elapsed : Int) (clockTimebase : Timebase) : Machine Int := do
  let frameTimebase := transport.frameAnchor.timebase
  let numerator ← Machine.lift (okOr (checkedProduct elapsed
    [clockTimebase.denominator, frameTimebase.numerator, transport.rate.numerator.natAbs])
    (overflowTransport "map_clock" "clock-to-frame numerator overflowed"))
  let denominator ← Machine.lift (okOr (checkedProduct clockTimebase.numerator
    [frameTimebase.denominator, transport.rate.denominator])
    (overflowTransport "map_clock" "clock-to-frame denominator overflowed"))
  div128 numerator denominator

/-- The steps counted at a clock position; none are counted up to the anchor. -/
def intendedSteps (clock : RationalTime) : Machine (Option Int) := do
  let elapsed ← Machine.lift (RationalTime.tryFrom (clock.value - transport.clockAnchor.value)
    clock.timebase (overflowTransport "map_clock" "shared clock delta overflowed"))
  if elapsed.value ≤ 0 then pure none
  else some <$> transport.elapsedSteps elapsed.value clock.timebase

/-- The frame of a step, held inside the active range. -/
def frameOfSteps (totalSteps : Int) : Machine RationalTime := do
  if totalSteps < transport.cadenceOffset then pure transport.playhead
  else
    let localSteps ← sub128 totalSteps transport.cadenceOffset
    let signedSteps ← Machine.lift (okOr (checkedI128 (localSteps * transport.direction.sign))
      (overflowTransport "map_clock" "signed frame delta overflowed"))
    let intended ← Machine.lift (okOr (checkedI128 (transport.frameAnchor.value + signedSteps))
      (overflowTransport "map_clock" "intended frame overflowed"))
    let range := transport.activeRange
    let last ← Machine.lift (RationalTime.tryFrom (range.endExclusive.value - 1) range.timebase
      (overflowTransport "map_clock" "active range boundary underflowed"))
    let clamped ← clamp128 intended range.start.value last.value
    Machine.lift (RationalTime.tryFrom clamped transport.frameAnchor.timebase
      (overflowTransport "map_clock" "intended frame exceeds signed range"))

def intendedFrameAt (clock : RationalTime) : Machine RationalTime := do
  match ← transport.intendedSteps clock with
  | none => pure transport.frameAnchor
  | some totalSteps => transport.frameOfSteps totalSteps

/-! ## From frames to the clock -/

def cadenceStepFor (frame : RationalTime) : Except Error Nat := do
  let steps ← transport.directionalDistance transport.frameAnchor frame
  rejectIf (steps < 0)
    (invalidTransport "map_frame" "scheduled frame lies behind the current transport anchor")
  okOr (checkedU64 (transport.cadenceOffset + steps.toNat))
    (overflowTransport "map_frame" "frame cadence step space is exhausted")

def dueClockForStep (totalSteps : Nat) : Machine RationalTime := do
  let frameTimebase := transport.frameAnchor.timebase
  let clockTimebase := transport.clockAnchor.timebase
  let numerator ← Machine.lift (okOr (checkedProduct totalSteps
    [frameTimebase.denominator, clockTimebase.numerator, transport.rate.denominator])
    (overflowTransport "map_frame" "frame-to-clock numerator overflowed"))
  let denominator ← Machine.lift (okOr (checkedProduct frameTimebase.numerator
    [clockTimebase.denominator, transport.rate.numerator.natAbs])
    (overflowTransport "map_frame" "frame-to-clock denominator overflowed"))
  let delta ← ceilDivPositive numerator denominator
  let value ← Machine.lift (okOr (checkedI128 (transport.clockAnchor.value + delta))
    (overflowTransport "map_frame" "presentation deadline overflowed"))
  Machine.lift (RationalTime.tryFrom value clockTimebase
    (overflowTransport "map_frame" "presentation deadline exceeds signed range"))

def dueClockFor (frame : RationalTime) : Machine RationalTime := do
  let step ← Machine.lift (transport.cadenceStepFor frame)
  transport.dueClockForStep step

def presentationDurationFor (frame dueClock : RationalTime) : Machine Duration := do
  let step ← Machine.lift (transport.cadenceStepFor frame)
  let nextStep ← Machine.lift (okOr (checkedU64 (step + 1))
    (overflowTransport "map_frame" "frame cadence step space is exhausted"))
  let nextDue ← transport.dueClockForStep nextStep
  let duration ← Machine.lift (RationalTime.tryFrom (nextDue.value - dueClock.value)
    dueClock.timebase (overflowTransport "map_frame" "presentation duration underflowed"))
  Machine.lift (rejectIf (duration.value < 0)
    (overflowTransport "map_frame" "presentation duration is not positive"))
  Machine.lift (Duration.new duration.value.toNat dueClock.timebase)

/-! ## Playing -/

/-- Ask for a frame at its deadline, with the duration it will stand. -/
def schedule (frame dueClock : RationalTime) (protection : FrameProtection) :
    Machine PlaybackTransport := do
  let _ ← transport.presentationDurationFor frame dueClock
  pure { transport with scheduled := some { frame, dueClock, protection } }

/-- The last frame of a range. -/
def lastFrame (range : TimeRange) (error : Error) : Except Error RationalTime :=
  RationalTime.tryFrom (range.endExclusive.value - 1) range.timebase error

/-- The frame at which a range ends in the playing direction. -/
def boundaryOf (range : TimeRange) (error : Error) : Except Error RationalTime :=
  match transport.direction with
  | .forward => lastFrame range error
  | .reverse => .ok range.start

/-- The frame at which a loop starts over. -/
def wrappedOf (loopRange : TimeRange) : Except Error RationalTime :=
  match transport.direction with
  | .forward => .ok loopRange.start
  | .reverse => lastFrame loopRange (overflowTransport "loop" "reverse loop boundary underflowed")

/-- Start over at `wrapped`: the step after the presented one is counted from there. -/
def wrapAround (presented : RationalTime) (wrapped : RationalTime) : Except Error PlaybackTransport :=
  if transport.epoch + 1 < 18446744073709551616 then do
    let boundarySteps ← transport.directionalDistance transport.frameAnchor presented
    rejectIf (boundarySteps < 0)
      (overflowTransport "loop" "loop boundary lies behind the cadence anchor")
    if h : transport.cadenceOffset + boundarySteps.toNat + 1 < 18446744073709551616 then
      pure { transport with
        epoch := transport.epoch + 1
        cadenceOffset := transport.cadenceOffset + boundarySteps.toNat + 1
        offset_fits := h
        frameAnchor := wrapped
        playhead := presented }
    else .error (overflowTransport "loop" "loop cadence step space is exhausted")
  else .error (overflowTransport "loop" "playback transport epoch space is exhausted")

def scheduleAfterPresentation (presented : ScheduledFrame) : Machine PlaybackTransport := do
  let boundary ← Machine.lift (transport.boundaryOf transport.activeRange
    (overflowTransport "advance" "loop boundary underflowed"))
  if presented.frame ≈ boundary then
    match transport.loopRange with
    | none => pure { transport with mode := .ended }
    | some loopRange =>
        let wrapped ← Machine.lift (transport.wrappedOf loopRange)
        let next ← Machine.lift (transport.wrapAround presented.frame wrapped)
        let nextDue ← next.dueClockFor wrapped
        next.schedule wrapped nextDue .loopBoundary
  else
    let next ← Machine.lift (RationalTime.tryFrom
      (presented.frame.value + transport.direction.sign) presented.frame.timebase
      (overflowTransport "advance" "next playback frame overflowed"))
    let protection := if transport.loopRange.isSome ∧ next ≈ boundary then .loopBoundary
      else .ordinary
    let due ← transport.dueClockFor next
    transport.schedule next due protection

/-- A presentation the frame workers report. -/
def observePresented : Machine PlaybackTransport :=
  match transport.scheduled with
  | none => Machine.lift (.error (transportError .internal .terminal
      "foreground presented a frame not owned by transport" "observe_playback"))
  | some presented =>
      let shown : PlaybackTransport := { transport with
        playhead := presented.frame
        dropStatistics := { transport.dropStatistics with consecutiveDropped := 0 }
        forcedNoted := false
        scheduled := none }
      if shown.mode = .playing then shown.scheduleAfterPresentation presented else pure shown

/-! ## Starting a cadence -/

/-- Anchor a new cadence: `target` is due at the clock position read now. -/
def discontinuityTo (target : RationalTime) (protection : FrameProtection)
    (clock : RationalTime) : Machine PlaybackTransport := do
  let range := transport.activeRange
  Machine.lift (rejectIf (target.timebase ≠ range.timebase ∨ range.contains target = false)
    (invalidTransport "target" "transport target must lie inside the active exact frame range"))
  Machine.lift (rejectIf (18446744073709551616 ≤ transport.epoch + 1)
    (overflowTransport "discontinuity" "playback transport epoch space is exhausted"))
  let anchored : PlaybackTransport := { transport with
    epoch := transport.epoch + 1
    clockAnchor := clock
    frameAnchor := target
    cadenceOffset := 0
    offset_fits := zero_lt_word
    playhead := target
    scheduled := none
    dropStatistics := { transport.dropStatistics with consecutiveDropped := 0 }
    forcedNoted := false }
  anchored.schedule target clock protection

/-! ## Dropping late frames -/

def isLoopBoundary (frame : RationalTime) : Except Error Bool :=
  match transport.loopRange with
  | none => .ok false
  | some range => do
      let boundary ← transport.boundaryOf range
        (overflowTransport "loop" "loop boundary underflowed")
      pure (decide (frame ≈ boundary))

/-- Note once that the ceiling of consecutive drops forces a presentation. -/
def noteForced : PlaybackTransport :=
  if transport.forcedNoted then transport
  else { transport with
    forcedNoted := true
    dropStatistics := { transport.dropStatistics with
      forcedPresentations :=
        min (transport.dropStatistics.forcedPresentations + 1) 18446744073709551615 } }

/-- The scheduled frame is given up, and `skipped` more frames are dropped. -/
def countDropped (skipped maxConsecutive : Nat) : PlaybackTransport :=
  let dropped : PlaybackTransport := { transport with
    scheduled := none
    dropStatistics := { transport.dropStatistics with
      totalDropped := min (transport.dropStatistics.totalDropped + skipped) 18446744073709551615
      consecutiveDropped :=
        min (transport.dropStatistics.consecutiveDropped + skipped) 4294967295 } }
  if maxConsecutive ≤ dropped.dropStatistics.consecutiveDropped then dropped.noteForced
  else dropped

/-- Go on with the frame `skipped` steps after the scheduled one. -/
def skipTo (scheduled : ScheduledFrame) (skipped maxConsecutive : Nat) :
    Machine PlaybackTransport := do
  let target ← Machine.lift (RationalTime.tryFrom
    (scheduled.frame.value + skipped * transport.direction.sign) scheduled.frame.timebase
    (overflowTransport "drop_late" "late-frame target overflowed"))
  let dropped := transport.countDropped skipped maxConsecutive
  let forced := decide (maxConsecutive ≤ dropped.dropStatistics.consecutiveDropped)
  let boundary ← Machine.lift (dropped.isLoopBoundary target)
  let due ← dropped.dueClockFor target
  dropped.schedule target due
    (if boundary then .loopBoundary else if forced then .discontinuity else .ordinary)

/-- Drop what is late at the clock position `now`; the number is how many steps were skipped. -/
def applyDropPolicy (now : RationalTime) : Machine (PlaybackTransport × Nat) :=
  match transport.mode, transport.dropPolicy, transport.scheduled with
  | .playing, .dropLate maxConsecutive, some scheduled =>
      if scheduled.protection.isDroppable then do
        let desired ← transport.intendedFrameAt now
        let distance ← Machine.lift (transport.directionalDistance scheduled.frame desired)
        let remaining := maxConsecutive - transport.dropStatistics.consecutiveDropped
        if distance ≤ 0 then pure (transport, 0)
        else if remaining = 0 then pure (transport.noteForced, 0)
        else
          let skipped := min (min distance.toNat 4294967295) remaining
          let next ← transport.skipTo scheduled skipped maxConsecutive
          pure (next, skipped)
      else pure (transport, 0)
  | _, _, _ => pure (transport, 0)

/-! ## Runs -/

/-- What moves a cadence on: a frame was presented, or the late ones are dropped at a clock
position. -/
inductive CadenceEvent
  | presented
  | late (now : RationalTime)

/-- One event, counting the cadence steps it moves on by. -/
def cadenceEvent (state : PlaybackTransport × Nat) :
    CadenceEvent → Machine (PlaybackTransport × Nat)
  | .presented => do
      let next ← state.1.observePresented
      pure (next, state.2 + 1)
  | .late now => do
      let (next, skipped) ← state.1.applyDropPolicy now
      pure (next, state.2 + skipped)

end PlaybackTransport

end Engine
end Superi

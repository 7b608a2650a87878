import Mathlib
import Superi.Core.Time
import Superi.Lib.Coherent

/-!
# PlaybackClock — one timeline over two sources

The playback scheduler owns a clock that maps one progressing source to timeline time: the process
clock, or the sample position an audio device has published.  Reads are computed from stored anchors
and change nothing; a switch of the source stores the position it read as the new anchor.

Audio positions are published by any number of threads through one atomic value for each device.
All accesses to it are relaxed: a load may return an older value than the newest one, but a thread
never goes back behind what it has seen.
-/

namespace Superi
namespace Concurrency

open Core Result Coherent

/-! ## Errors -/

def clockError (category : ErrorCategory) (recoverability : Recoverability)
    (message operation : String) : Error :=
  (Error.new category recoverability message).withContext ⟨"superi-concurrency.clock", operation⟩

/-! ## Audio devices -/

/-- A machine word of 64 bits with a sign. -/
abbrev I64 := { value : Int // InI64 value }

/-- A fixed-frequency device position shared with the playback scheduler. -/
structure AudioMasterClock where
  sampleRate : Nat
  sample : Location I64
  rate_pos : 0 < sampleRate
  rate_fits : sampleRate < 4294967296

def AudioMasterClock.timebase (device : AudioMasterClock) : Timebase :=
  .integer device.sampleRate device.rate_pos device.rate_fits

inductive AudioClockUpdate
  | advanced
  | unchanged
  deriving DecidableEq, Repr

/-- What `publish_sample` answers without writing; a position that is further on has to be
written. -/
def answer (observed current : I64) : Option (Except Error AudioClockUpdate) :=
  if observed < current then
    some (.error (clockError .conflict .retryable
      "audio clock position moved backwards and requires re-anchoring" "publish_audio_position"))
  else if observed = current then some (.ok .unchanged)
  else none

/-! ## The clock of the scheduler -/

/-- What drives the timeline.  The rate of a sample anchor is that of its device. -/
inductive ClockSource (δ : Type*)
  | playback (monotonicAnchor : Nat)
  | audioMaster (source : δ) (sampleAnchor : I64)

structure PlaybackClock (δ : Type*) where
  timelineAnchor : RationalTime
  source : ClockSource δ

def nanoseconds : Timebase :=
  .integer 1000000000 (by decide) (by decide)

/-- Elapsed nanoseconds as a coordinate. -/
def durationTime (elapsed : Nat) : Except Error RationalTime :=
  RationalTime.tryFrom elapsed nanoseconds (clockError .invalidInput .userCorrectable
    "playback clock duration exceeds the shared signed time domain" "read_position")

/-- The position `now - anchor` nanoseconds after the timeline anchor; instants are nanoseconds of
the process clock. -/
def playbackPosition (timelineAnchor : RationalTime) (anchor now : Nat) :
    Except Error RationalTime := do
  rejectIf (now < anchor) (clockError .conflict .retryable
    "monotonic playback clock moved backwards" "read_position")
  let elapsed ← durationTime (now - anchor)
  (timelineAnchor.checkedAddAt elapsed timelineAnchor.timebase .nearestTiesEven).mapError
    (·.withContext ⟨"superi-concurrency.clock", "read_position"⟩)

/-- The position at an observed sample. -/
def audioMasterPosition (timelineAnchor : RationalTime) (sampleAnchor observed : I64)
    (timebase : Timebase) : Except Error RationalTime := do
  let elapsedSamples ← RationalTime.tryFrom (observed.1 - sampleAnchor.1) timebase
    (clockError .internal .terminal "audio clock elapsed sample count overflowed" "read_position")
  rejectIf (elapsedSamples.value < 0) (clockError .conflict .retryable
    "audio clock position moved behind its timeline anchor" "read_position")
  (timelineAnchor.checkedAddAt elapsedSamples timelineAnchor.timebase .exact).mapError
    (·.withContext ⟨"superi-concurrency.clock", "read_position"⟩)

def validateAudioTimebase (timelineAnchor : RationalTime) (timebase : Timebase)
    (operation : String) : Except Error Unit :=
  rejectIf (timelineAnchor.timebase ≠ timebase) (clockError .invalidInput .userCorrectable
    "audio-master timeline timebase must match the device sample clock" operation)

/-! ## Threads -/

variable {δ π : Type*} [DecidableEq δ] [DecidableEq π]

/-- A publisher inside the loop of `publish_sample`. -/
structure Publication (δ : Type*) where
  device : δ
  observed : I64
  current : I64

/-- The devices, the threads that publish to them and the scheduler that reads them, each with how
far it has seen every device, and what their callers were told. -/
structure World (δ π : Type*) where
  devices : δ → AudioMasterClock
  publishers : π → Option (Publication δ)
  published : π → δ → Nat
  clock : PlaybackClock δ
  view : δ → Nat
  instant : Nat
  positions : List RationalTime
  accepted : List (δ × I64)

/-- New devices, and a new clock at a process instant. -/
def World.start (devices : δ → AudioMasterClock) (clock : PlaybackClock δ) (instant : Nat) :
    World δ π where
  devices := devices
  publishers := fun _ => none
  published := fun _ _ => 0
  clock := clock
  view := fun _ => 0
  instant := instant
  positions := []
  accepted := []

namespace World

variable (world : World δ π)

/-! ## Publishing -/

/-- The load before the loop of `publish_sample`. -/
def publishSample (publisher : π) (device : δ) (observed : I64) (index : Nat) :
    Option (World δ π) :=
  match world.publishers publisher with
  | some _ => none
  | none =>
      ((world.devices device).sample.load (world.published publisher device) index).map
        fun current => { world with
          publishers := Function.update world.publishers publisher
            (some { device, observed, current })
          published := Function.update world.published publisher
            (Function.update (world.published publisher) device index) }

/-- The publisher returns; what it published is accepted unless it was refused. -/
def finish (publisher : π) (publication : Publication δ)
    (result : Except Error AudioClockUpdate) : World δ π :=
  { world with
    publishers := Function.update world.publishers publisher none
    accepted := match result with
      | .ok _ => world.accepted ++ [(publication.device, publication.observed)]
      | .error _ => world.accepted }

/-- What `compare_exchange_weak` does: it works, or it fails and loads a value; it may also fail on
the value it expects. -/
inductive Exchange
  | works
  | fails (index : Nat)

/-- One pass through the loop of `publish_sample`. -/
def tryPublish (publisher : π) (exchange : Exchange) : Option (World δ π) :=
  match world.publishers publisher with
  | none => none
  | some publication =>
      let device := world.devices publication.device
      match answer publication.observed publication.current, exchange with
      | some result, _ => some (world.finish publisher publication result)
      | none, .works =>
          (device.sample.exchange publication.current publication.observed).map fun sample =>
            { world.finish publisher publication (.ok .advanced) with
              devices := Function.update world.devices publication.device { device with sample }
              published := Function.update world.published publisher
                (Function.update (world.published publisher) publication.device
                  device.sample.values.length) }
      | none, .fails index =>
          (device.sample.load (world.published publisher publication.device) index).map
            fun current => { world with
              publishers := Function.update world.publishers publisher
                (some { publication with current })
              published := Function.update world.published publisher
                (Function.update (world.published publisher) publication.device index) }

/-! ## Reading -/

/-- `AudioMasterClock::position` on the scheduler's thread. -/
def observe (device : δ) (index : Nat) : Option (World δ π × I64) :=
  ((world.devices device).sample.load (world.view device) index).map fun sample =>
    ({ world with view := Function.update world.view device index }, sample)

/-- `position_at`; only an audio device is loaded from. -/
def positionAt (now index : Nat) : Option (World δ π × Except Error RationalTime) :=
  match world.clock.source with
  | .playback monotonicAnchor =>
      some (world, playbackPosition world.clock.timelineAnchor monotonicAnchor now)
  | .audioMaster source sampleAnchor =>
      (world.observe source index).map fun (next, observed) =>
        (next, audioMasterPosition world.clock.timelineAnchor sampleAnchor observed
          (world.devices source).timebase)

/-- A position is returned to the caller. -/
def tell (position : RationalTime) : World δ π :=
  { world with positions := world.positions ++ [position] }

def read (now index : Nat) : Option (World δ π) :=
  (world.positionAt now index).map fun (next, result) =>
    match result with
    | .ok position => next.tell position
    | .error _ => next

/-! ## Switching -/

def switchToPlaybackAt (now index : Nat) : Option (World δ π) :=
  (world.positionAt now index).map fun (next, result) =>
    match result with
    | .ok position => { next with clock := ⟨position, .playback now⟩ }.tell position
    | .error _ => next

def switchToAudioMasterAt (source : δ) (now index anchorIndex : Nat) : Option (World δ π) :=
  (world.positionAt now index).bind fun (next, result) =>
    match result with
    | .ok position => (next.observe source anchorIndex).map fun (next, sampleAnchor) =>
        match validateAudioTimebase position (world.devices source).timebase
          "switch_to_audio_master" with
        | .ok () =>
            { next with clock := ⟨position, .audioMaster source sampleAnchor⟩ }.tell position
        | .error _ => next
    | .error _ => some next

/-! ## Runs -/

inductive Action (δ π : Type*)
  | publishSample (publisher : π) (device : δ) (observed : I64) (index : Nat)
  | tryPublish (publisher : π) (exchange : Exchange)
  | read (now index : Nat)
  | switchToPlayback (now index : Nat)
  | switchToAudioMaster (source : δ) (now index anchorIndex : Nat)

/-- The process clock is at `now`, which is not before any instant used so far. -/
def tick (now : Nat) : Option (World δ π) :=
  if now < world.instant then none else some { world with instant := now }

def step : Action δ π → Option (World δ π)
  | .publishSample publisher device observed index =>
      world.publishSample publisher device observed index
  | .tryPublish publisher exchange => world.tryPublish publisher exchange
  | .read now index => (world.tick now).bind (·.read now index)
  | .switchToPlayback now index => (world.tick now).bind (·.switchToPlaybackAt now index)
  | .switchToAudioMaster source now index anchorIndex =>
      (world.tick now).bind (·.switchToAudioMasterAt source now index anchorIndex)

end World

end Concurrency
end Superi

import Superi.Core.Time
import Superi.Lib.History
import Superi.Lib.Machine

/-!
# Playback — the sample path from the engine to an output device

One control thread admits interleaved samples to a bounded ring and asks for discontinuities; one
device callback empties the ring and publishes the sample clock.  The two share the ring, a pair of
discard generations, the clock and counters, and every access to one of these is a step of its own.

The ring is the lock-free queue of an external package: it is used here through what that package
documents of it, a bounded first-in first-out queue whose indices each belong to one side.
-/

namespace Superi
namespace Audio

open Core

/-! ## Shared cells -/

/-- The bounded lock-free queue between the two threads. -/
structure Ring (S : Type) where
  capacity : Nat
  items : List S
  deriving DecidableEq

namespace Ring

variable {S : Type}

def new (capacity : Nat) : Ring S := { capacity, items := [] }

def occupiedLen (ring : Ring S) : Nat := ring.items.length

def vacantLen (ring : Ring S) : Nat := ring.capacity - ring.items.length

/-- As many samples as fit, made visible at once. -/
def pushSlice (ring : Ring S) (samples : List S) : Ring S × Nat :=
  let written := min samples.length ring.vacantLen
  ({ ring with items := ring.items ++ samples.take written }, written)

def tryPop (ring : Ring S) : Option S × Ring S :=
  match ring.items with
  | [] => (none, ring)
  | sample :: rest => (some sample, { ring with items := rest })

/-- Remove the samples that were counted before. -/
def skip (ring : Ring S) (count : Nat) : Ring S := { ring with items := ring.items.drop count }

end Ring

/-- Latest generation asked for by the producer, and latest one applied by the callback. -/
structure OutputDiscardState where
  requestedGeneration : Nat
  appliedGeneration : Nat
  deriving DecidableEq, Repr

structure OutputDiscardStatus where
  requestedGeneration : Nat
  appliedGeneration : Nat
  deriving DecidableEq, Repr

def OutputDiscardStatus.isPending (status : OutputDiscardStatus) : Bool :=
  status.requestedGeneration != status.appliedGeneration

/-- The largest discard generation. -/
def maxGeneration : Nat := 2 ^ 64 - 1

/-- The counters the two threads keep. -/
structure OutputTelemetry where
  renderedFrames : Nat
  silenceSamples : Nat
  underruns : Nat
  droppedSamples : Nat
  discardRequests : Nat
  discardedSamples : Nat
  callbackShapeErrors : Nat
  callbackDomainErrors : Nat
  clockErrors : Nat
  deriving DecidableEq, Repr

def OutputTelemetry.zero : OutputTelemetry := ⟨0, 0, 0, 0, 0, 0, 0, 0, 0⟩

/-- Atomic addition on a 64-bit counter. -/
def fetchAdd (counter amount : Nat) : Nat := (counter + amount) % 2 ^ 64

/-! ## The sample clock -/

/-- A fixed-frequency device position that never decreases. -/
structure AudioMasterClock where
  sampleRate : Nat
  sample : Int
  deriving DecidableEq, Repr

inductive AudioClockUpdate
  | advanced
  | unchanged
  deriving DecidableEq, Repr

/-- Publish one raw position.  The callback is the sole writer, so the exchange succeeds. -/
def AudioMasterClock.publishSample (clock : AudioMasterClock) (observedSample : Int) :
    Except Error (AudioClockUpdate × AudioMasterClock) :=
  if observedSample < clock.sample then
    .error ((Error.new .conflict .retryable
      "audio clock position moved backwards and requires re-anchoring").withContext
      ⟨"superi-concurrency.clock", "publish_audio_position"⟩)
  else if observedSample = clock.sample then .ok (.unchanged, clock)
  else .ok (.advanced, { clock with sample := observedSample })

/-! ## Configuration and results -/

structure OutputBufferConfig where
  channels : Nat
  sampleRate : Nat
  capacityFrames : Nat
  initialSample : Int
  initialInRange : InI64 initialSample

theorem OutputBufferConfig.fields_injective : Function.Injective fun x : OutputBufferConfig =>
    (x.channels, x.sampleRate, x.capacityFrames, x.initialSample) := by
  rintro ⟨⟩ ⟨⟩ h
  simpa using h

instance : DecidableEq OutputBufferConfig := OutputBufferConfig.fields_injective.decidableEq

inductive OutputBufferError
  | zeroChannels
  | zeroSampleRate
  | zeroCapacity
  | capacityOverflow
  | capacityTooLarge (requestedSamples maxSamples : Nat)
  | sampleCountNotFrameAligned (samples channels : Nat)
  | nonFiniteSample (index : Nat)
  | sampleOutOfRange (index : Nat)
  | insufficientCapacity (requestedSamples availableSamples : Nat)
  | discardPending (requestedGeneration appliedGeneration : Nat)
  | discardGenerationExhausted
  | callbackNotFrameAligned (samples channels : Nat)
  deriving DecidableEq, Repr

structure OutputWrite where
  frames : Nat
  samples : Nat
  deriving DecidableEq, Repr

structure OutputRenderReport where
  frames : Nat
  consumedSamples : Nat
  silenceSamples : Nat
  underrun : Bool
  deriving DecidableEq, Repr

/-- The floating-point tests on one sample and its conversion for the device. -/
structure SampleFormat (S T : Type) where
  isFinite : S → Bool
  isNormalized : S → Bool
  zero : S
  fromSample : S → T

/-- A sample with the two generations at the moment it was admitted. -/
structure Admitted (S : Type) where
  sample : S
  requested : Nat
  applied : Nat
  deriving DecidableEq

/-- How a sample left the ring: rendered by a callback that had observed a generation, or dropped by
a callback that moved the applied generation. -/
inductive Fate
  | rendered (observed : Nat)
  | discarded (applied requested : Nat)
  deriving DecidableEq, Repr

/-- One finished device callback.  `written` is its buffer: a sample, or silence. -/
structure Callback (S : Type) where
  observed : Option Nat
  written : List (Option S)
  report : Except OutputBufferError OutputRenderReport

namespace Callback

variable {S T : Type}

/-- Frames presented to the device, unless the buffer was malformed. -/
def frames? (callback : Callback S) : Option Nat :=
  match callback.report with
  | .ok report => some report.frames
  | .error _ => none

/-- The samples presented, with the generation the callback had observed. -/
def played (callback : Callback S) : List (S × Option Nat) :=
  callback.written.reduceOption.map (·, callback.observed)

end Callback

/-! ## The two threads -/

/-- Where the control thread stands. -/
inductive ProducerPoint (S : Type)
  | idle
  | readApplied (samples : List S)
  | readRequested (samples : List S) (applied : Nat)
  | readVacancy (samples : List S)
  | publish (samples : List S)
  | reportRequest (generation : Nat)
  deriving DecidableEq

/-- Where the device callback stands. -/
inductive ConsumerPoint (S : Type)
  | idle
  | readRequested (length : Nat)
  | readApplied (length requested : Nat)
  | countQueued (length requested applied : Nat)
  | dropQueued (length requested applied count : Nat)
  | storeApplied (length requested discarded : Nat)
  | enterDomain (length observed : Nat)
  | pop (length observed : Nat) (written : List (Option S)) (consumedSamples : Nat)
  | finish (observed : Nat) (written : List (Option S)) (report : OutputRenderReport)
  deriving DecidableEq

structure OutputConsumer where
  channels : Nat
  sampleRate : Nat
  nextSample : Int
  deriving DecidableEq, Repr

/-- The shared cells, the two threads, and the record of what happened. -/
structure OutputPath (S : Type) where
  ring : Ring S
  discard : OutputDiscardState
  clock : AudioMasterClock
  telemetry : OutputTelemetry
  channels : Nat
  producer : ProducerPoint S
  consumer : OutputConsumer
  callback : ConsumerPoint S
  tape : Tape (Admitted S) Fate
  writes : List (List S × Except OutputBufferError OutputWrite)
  requests : List (Except OutputBufferError OutputDiscardStatus)
  callbacks : List (Callback S)

namespace OutputPath

variable {S T : Type}

/-! ## The producer -/

/-- The first sample that is not finite or not normalized. -/
def checkSamples (format : SampleFormat S T) (index : Nat) :
    List S → Except OutputBufferError Unit
  | [] => .ok ()
  | sample :: rest =>
      if format.isFinite sample = false then .error (.nonFiniteSample index)
      else if format.isNormalized sample = false then .error (.sampleOutOfRange index)
      else checkSamples format (index + 1) rest

/-- A submission ends with a result. -/
def endPush (path : OutputPath S) (samples : List S)
    (result : Except OutputBufferError OutputWrite) : OutputPath S :=
  { path with producer := .idle, writes := path.writes ++ [(samples, result)] }

/-- `push_interleaved`, up to its first access to a shared cell. -/
def beginPush (format : SampleFormat S T) (path : OutputPath S) (samples : List S) :
    OutputPath S :=
  if samples.length % path.channels ≠ 0 then
    path.endPush samples (.error (.sampleCountNotFrameAligned samples.length path.channels))
  else
    match checkSamples format 0 samples with
    | .error error => path.endPush samples (.error error)
    | .ok () => { path with producer := .readApplied samples }

/-- The generations have been read: go on, or reject the submission. -/
def admitUnlessPending (path : OutputPath S) (samples : List S) (discard : OutputDiscardStatus) :
    OutputPath S :=
  if discard.isPending then
    path.endPush samples
      (.error (.discardPending discard.requestedGeneration discard.appliedGeneration))
  else { path with producer := .readVacancy samples }

/-- The vacancy is read: go on, or count and reject the submission. -/
def admitIfVacant (path : OutputPath S) (samples : List S) : OutputPath S :=
  let availableSamples := path.ring.vacantLen
  if availableSamples < samples.length then
    { path with
      telemetry := { path.telemetry with
        droppedSamples := fetchAdd path.telemetry.droppedSamples samples.length } }.endPush samples
      (.error (.insufficientCapacity samples.length availableSamples))
  else { path with producer := .publish samples }

/-- `push_slice`, the one access that admits samples. -/
def publishSamples (path : OutputPath S) (samples : List S) : OutputPath S :=
  let pushed := path.ring.pushSlice samples
  { path with
    ring := pushed.1
    tape := path.tape.write ((samples.take pushed.2).map fun sample =>
      { sample
        requested := path.discard.requestedGeneration
        applied := path.discard.appliedGeneration }) }.endPush samples
    (.ok { frames := pushed.2 / path.channels, samples := pushed.2 })

/-- `request_discard`, up to its advance of the requested generation. -/
def beginRequest (path : OutputPath S) : OutputPath S :=
  if path.discard.requestedGeneration < maxGeneration then
    { path with
      discard := { path.discard with requestedGeneration := path.discard.requestedGeneration + 1 }
      telemetry := { path.telemetry with
        discardRequests := fetchAdd path.telemetry.discardRequests 1 }
      producer := .reportRequest (path.discard.requestedGeneration + 1) }
  else
    { path with requests := path.requests ++ [.error .discardGenerationExhausted] }

/-- The next access of the control thread to a shared cell. -/
def stepProducer (path : OutputPath S) : Option (OutputPath S) :=
  match path.producer with
  | .idle => none
  | .readApplied samples =>
      some { path with producer := .readRequested samples path.discard.appliedGeneration }
  | .readRequested samples applied =>
      some (path.admitUnlessPending samples ⟨path.discard.requestedGeneration, applied⟩)
  | .readVacancy samples => some (path.admitIfVacant samples)
  | .publish samples => some (path.publishSamples samples)
  | .reportRequest generation =>
      some { path with
        producer := .idle
        requests := path.requests ++ [.ok ⟨generation, path.discard.appliedGeneration⟩] }

/-! ## The callback -/

/-- A callback returns. -/
def endCallback (path : OutputPath S) (callback : Callback S) : OutputPath S :=
  { path with callback := .idle, callbacks := path.callbacks ++ [callback] }

/-- `render`, up to its first access to a discard generation. -/
def beginRender (path : OutputPath S) (length : Nat) : OutputPath S :=
  if length % path.consumer.channels ≠ 0 then
    { path with
      telemetry := { path.telemetry with
        callbackShapeErrors := fetchAdd path.telemetry.callbackShapeErrors 1 } }.endCallback {
      observed := none
      written := List.replicate length none
      report := .error (.callbackNotFrameAligned length path.consumer.channels) }
  else { path with callback := .readRequested length }

/-- `finish_callback`: count, and publish the clock. -/
def finishCallback (path : OutputPath S) (frames silenceSamples : Nat) (underrun : Bool) :
    OutputPath S :=
  let telemetry := { path.telemetry with
    renderedFrames := fetchAdd path.telemetry.renderedFrames frames
    silenceSamples := fetchAdd path.telemetry.silenceSamples silenceSamples
    underruns := if underrun then fetchAdd path.telemetry.underruns 1 else path.telemetry.underruns }
  let refused := { telemetry with clockErrors := fetchAdd telemetry.clockErrors 1 }
  let nextSample := path.consumer.nextSample + frames
  if (frames : Int) ≤ i64Max ∧ InI64 nextSample then
    match path.clock.publishSample nextSample with
    | .ok (_, clock) =>
        { path with telemetry, clock, consumer := { path.consumer with nextSample } }
    | .error _ => { path with telemetry := refused }
  else { path with telemetry := refused }

/-- Entering the audio domain failed: the whole buffer is silence. -/
def silentReport (path : OutputPath S) (length : Nat) : OutputRenderReport :=
  { frames := length / path.consumer.channels
    consumedSamples := 0
    silenceSamples := length
    underrun := true }

/-- One destination of the buffer: a sample from the ring, or silence. -/
def popOne (path : OutputPath S) (length observed : Nat) (written : List (Option S))
    (consumedSamples : Nat) : OutputPath S :=
  match path.ring.tryPop with
  | (some sample, ring) =>
      { path with
        ring
        tape := path.tape.settle 1 (.rendered observed)
        callback := .pop length observed (written ++ [some sample]) (consumedSamples + 1) }
  | (none, _) => { path with callback := .pop length observed (written ++ [none]) consumedSamples }

/-- The buffer is full. -/
def renderReport (path : OutputPath S) (length consumedSamples : Nat) : OutputRenderReport :=
  { frames := length / path.consumer.channels
    consumedSamples
    silenceSamples := length - consumedSamples
    underrun := length - consumedSamples != 0 }

/-- The next access of the callback to a shared cell.  Whether the thread can enter the audio domain
is up to its environment. -/
def stepConsumer (path : OutputPath S) (domainEntered : Bool) : Option (OutputPath S) :=
  match path.callback with
  | .idle => none
  | .readRequested length =>
      some { path with callback := .readApplied length path.discard.requestedGeneration }
  | .readApplied length requested =>
      if requested = path.discard.appliedGeneration then
        some { path with callback := .enterDomain length requested }
      else
        some { path with callback := .countQueued length requested path.discard.appliedGeneration }
  | .countQueued length requested applied =>
      some { path with callback := .dropQueued length requested applied path.ring.occupiedLen }
  | .dropQueued length requested applied count =>
      some { path with
        ring := path.ring.skip count
        tape := path.tape.settle count (.discarded applied requested)
        callback := .storeApplied length requested count }
  | .storeApplied length requested discarded =>
      some { path with
        telemetry := { path.telemetry with
          discardedSamples := fetchAdd path.telemetry.discardedSamples discarded }
        discard := { path.discard with appliedGeneration := requested }
        callback := .enterDomain length requested }
  | .enterDomain length observed =>
      if domainEntered then some { path with callback := .pop length observed [] 0 }
      else
        some { path with
          telemetry := { path.telemetry with
            callbackDomainErrors := fetchAdd path.telemetry.callbackDomainErrors 1 }
          callback := .finish observed (List.replicate length none) (path.silentReport length) }
  | .pop length observed written consumedSamples =>
      if written.length < length then some (path.popOne length observed written consumedSamples)
      else
        some { path with
          callback := .finish observed written (path.renderReport length consumedSamples) }
  | .finish observed written report =>
      some ((path.finishCallback report.frames report.silenceSamples report.underrun).endCallback
        { observed := some observed, written, report := .ok report })

/-! ## Interleavings -/

/-- What a thread does next.  A call can begin only where its thread is idle. -/
inductive Action (S : Type)
  | push (samples : List S)
  | requestDiscard
  | producer
  | render (length : Nat)
  | consumer (domainEntered : Bool)
  deriving DecidableEq

def step (format : SampleFormat S T) (path : OutputPath S) : Action S → Option (OutputPath S)
  | .push samples =>
      match path.producer with
      | .idle => some (path.beginPush format samples)
      | _ => none
  | .requestDiscard =>
      match path.producer with
      | .idle => some path.beginRequest
      | _ => none
  | .producer => path.stepProducer
  | .render length =>
      match path.callback with
      | .idle => some (path.beginRender length)
      | _ => none
  | .consumer domainEntered => path.stepConsumer domainEntered

end OutputPath
end Audio
end Superi

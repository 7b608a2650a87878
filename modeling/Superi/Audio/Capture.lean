import Superi.Audio.Playback

/-!
# Capture — the sample path from an input device to recording and monitoring

One device callback stamps the input with its physical position and offers it to two bounded rings;
a reader empties each of them.  The callback and the two readers share the rings, the two switches
of the control and the counters, and every access to a ring or a switch is a step of its own.

A side of a ring may see the other one late: what it counts as vacant or occupied is then less than
what is there, by an amount that belongs to the step.
-/

namespace Superi
namespace Audio

open Core

/-- One element, unless the ring is full. -/
def Ring.tryPush {S : Type} (ring : Ring S) (sample : S) : Option (Ring S) :=
  if ring.vacantLen = 0 then none else some { ring with items := ring.items ++ [sample] }

/-! ## Configuration and results -/

structure CaptureBufferConfig where
  channels : Nat
  sampleRate : Nat
  capacityFrames : Nat
  initialSample : Int
  channelsInRange : channels < 2 ^ 16
  initialInRange : InI64 initialSample

theorem CaptureBufferConfig.fields_injective : Function.Injective fun x : CaptureBufferConfig =>
    (x.channels, x.sampleRate, x.capacityFrames, x.initialSample) := by
  rintro ⟨⟩ ⟨⟩ h
  simpa using h

instance : DecidableEq CaptureBufferConfig := CaptureBufferConfig.fields_injective.decidableEq

inductive CaptureBufferError
  | zeroChannels
  | zeroSampleRate
  | zeroCapacity
  | capacityOverflow
  | capacityTooLarge (requestedSamples maxSamples : Nat)
  | callbackNotFrameAligned (samples channels : Nat)
  | nonFiniteSample (index : Nat)
  | sampleOutOfRange (index : Nat)
  | samplePositionOverflow
  | channelIndexOverflow
  deriving DecidableEq, Repr

/-- Maximum preallocated samples in each capture destination. -/
def maxCaptureBufferSamples : Nat := 1048576

/-- One normalized captured sample with its physical frame coordinate and channel index. -/
structure CapturedSample (S : Type) where
  sample : Int
  sampleRate : Nat
  channelIndex : Nat
  value : S
  deriving DecidableEq

/-- The conversion of a device sample and the floating-point tests on the result. -/
structure InputFormat (T S : Type) where
  fromSample : T → S
  isFinite : S → Bool
  isNormalized : S → Bool

structure CaptureControl where
  armed : Bool
  monitoring : Bool
  deriving DecidableEq, Repr

structure CaptureTelemetry where
  inputFrames : Nat
  recordedFrames : Nat
  monitoredFrames : Nat
  recordDroppedFrames : Nat
  monitorDroppedFrames : Nat
  callbackShapeErrors : Nat
  callbackDomainErrors : Nat
  sampleClockErrors : Nat
  deriving DecidableEq, Repr

def CaptureTelemetry.zero : CaptureTelemetry := ⟨0, 0, 0, 0, 0, 0, 0, 0⟩

/-- Result of one valid physical input callback. -/
structure CaptureReport where
  frames : Nat
  armed : Bool
  monitoring : Bool
  recordDropped : Bool
  monitorDropped : Bool
  domainConflict : Bool
  deriving DecidableEq, Repr

/-- The recording ring takes the callback. -/
def CaptureReport.records (report : CaptureReport) : Bool := report.armed && !report.recordDropped

/-- The monitoring ring takes the callback. -/
def CaptureReport.monitors (report : CaptureReport) : Bool :=
  report.monitoring && !report.monitorDropped

/-- One finished device callback. -/
structure Capture (T : Type) where
  input : List T
  result : Except CaptureBufferError CaptureReport

/-! ## The readers -/

/-- `drain` leaves out what it cannot pop; `read_interleaved` expects every pop to succeed. -/
inductive ReadCall
  | drain
  | readInterleaved
  deriving DecidableEq, Repr

/-- Where a reader stands. -/
inductive ReaderPoint (A : Type)
  | idle
  | observe (call : ReadCall) (maxSamples : Nat)
  | pop (call : ReadCall) (remaining : Nat) (samples : List A)
  | panicked
  deriving DecidableEq

/-- The consuming side of a ring, and what its finished reads have returned. -/
structure Reader (A : Type) where
  channels : Nat
  point : ReaderPoint A
  reads : List (List A)
  deriving DecidableEq

namespace Reader

variable {A : Type}

def new (channels : Nat) : Reader A := { channels, point := .idle, reads := [] }

def beginRead (reader : Reader A) (call : ReadCall) (maxSamples : Nat) : Option (Reader A) :=
  match reader.point with
  | .idle => some { reader with point := .observe call maxSamples }
  | _ => none

/-- How many samples to take, rounded down to complete frames. -/
def wholeFrames (reader : Reader A) (occupied maxSamples : Nat) : Nat :=
  let count := min occupied maxSamples
  count - count % reader.channels

def popOne (reader : Reader A) (ring : Ring A) (call : ReadCall) (remaining : Nat)
    (samples : List A) : Reader A × Ring A :=
  match ring.tryPop, call with
  | (some sample, ring), _ =>
      ({ reader with point := .pop call remaining (samples ++ [sample]) }, ring)
  | (none, ring), .drain => ({ reader with point := .pop call remaining samples }, ring)
  | (none, ring), .readInterleaved => ({ reader with point := .panicked }, ring)

/-- The next access of a reader to its ring, `behind` samples of which it does not see yet. -/
def step (reader : Reader A) (ring : Ring A) (behind : Nat) : Option (Reader A × Ring A) :=
  match reader.point with
  | .idle => none
  | .panicked => none
  | .observe call maxSamples =>
      let count := reader.wholeFrames (ring.occupiedLen - behind) maxSamples
      some ({ reader with point := .pop call count [] }, ring)
  | .pop _ 0 samples =>
      some ({ reader with point := .idle, reads := reader.reads ++ [samples] }, ring)
  | .pop call (remaining + 1) samples => some (reader.popOne ring call remaining samples)

end Reader

/-! ## The callback -/

/-- A callback whose input has been accepted, with the position after it and its report so far. -/
structure CaptureCall (T : Type) where
  input : List T
  nextSample : Int
  report : CaptureReport
  deriving DecidableEq

/-- Where the device callback stands. -/
inductive CapturePoint (T : Type)
  | idle
  | readArmed (call : CaptureCall T)
  | readMonitoring (call : CaptureCall T)
  | enterDomain (call : CaptureCall T)
  | readRecordVacancy (call : CaptureCall T)
  | readMonitorVacancy (call : CaptureCall T)
  | record (call : CaptureCall T) (index : Nat)
  | monitor (call : CaptureCall T) (index : Nat)
  | finish (call : CaptureCall T)
  | panicked
  deriving DecidableEq

structure CaptureCallback (T : Type) where
  channels : Nat
  sampleRate : Nat
  nextSample : Int
  point : CapturePoint T
  deriving DecidableEq

/-- The shared cells, the callback, the two readers, and the finished callbacks. -/
structure CapturePath (T S : Type) where
  control : CaptureControl
  captureRing : Ring (CapturedSample S)
  monitorRing : Ring S
  telemetry : CaptureTelemetry
  callback : CaptureCallback T
  captureReader : Reader (CapturedSample S)
  monitorReader : Reader S
  captures : List (Capture T)

/-- One preallocated lock-free device-to-recording and monitoring path. -/
def createCaptureBuffer (T S : Type) (config : CaptureBufferConfig) :
    Except CaptureBufferError (CapturePath T S) :=
  if config.channels = 0 then .error .zeroChannels
  else if config.sampleRate = 0 then .error .zeroSampleRate
  else if config.capacityFrames = 0 then .error .zeroCapacity
  else
    let capacitySamples := config.capacityFrames * config.channels
    if 2 ^ 64 ≤ capacitySamples then .error .capacityOverflow
    else if maxCaptureBufferSamples < capacitySamples then
      .error (.capacityTooLarge capacitySamples maxCaptureBufferSamples)
    else .ok {
      control := ⟨false, false⟩
      captureRing := .new capacitySamples
      monitorRing := .new capacitySamples
      telemetry := .zero
      callback := {
        channels := config.channels
        sampleRate := config.sampleRate
        nextSample := config.initialSample
        point := .idle }
      captureReader := .new config.channels
      monitorReader := .new config.channels
      captures := [] }

/-- The first sample that is not finite or not normalized. -/
def checkInput {T S : Type} (format : InputFormat T S) (index : Nat) :
    List T → Except CaptureBufferError Unit
  | [] => .ok ()
  | sample :: rest =>
      if format.isFinite (format.fromSample sample) = false then .error (.nonFiniteSample index)
      else if format.isNormalized (format.fromSample sample) = false then
        .error (.sampleOutOfRange index)
      else checkInput format (index + 1) rest

namespace CapturePath

variable {T S : Type}

def withPoint (path : CapturePath T S) (point : CapturePoint T) : CapturePath T S :=
  { path with callback := { path.callback with point } }

/-- A callback returns. -/
def endCapture (path : CapturePath T S) (input : List T)
    (result : Except CaptureBufferError CaptureReport) : CapturePath T S :=
  { path.withPoint .idle with captures := path.captures ++ [⟨input, result⟩] }

/-- A callback returns after its frames have passed. -/
def endValid (path : CapturePath T S) (call : CaptureCall T) : CapturePath T S :=
  { path with callback := { path.callback with nextSample := call.nextSample } }.endCapture
    call.input (.ok call.report)

def countShapeError (path : CapturePath T S) : CapturePath T S :=
  { path with telemetry := { path.telemetry with
      callbackShapeErrors := fetchAdd path.telemetry.callbackShapeErrors 1 } }

def countClockError (path : CapturePath T S) : CapturePath T S :=
  { path with telemetry := { path.telemetry with
      sampleClockErrors := fetchAdd path.telemetry.sampleClockErrors 1 } }

/-- `capture`, up to its first access to the control. -/
def beginCapture (format : InputFormat T S) (path : CapturePath T S) (input : List T) :
    CapturePath T S :=
  let channels := path.callback.channels
  if input.length % channels ≠ 0 then
    path.countShapeError.endCapture input (.error (.callbackNotFrameAligned input.length channels))
  else
    match checkInput format 0 input with
    | .error error => path.countShapeError.endCapture input (.error error)
    | .ok () =>
        let frames := input.length / channels
        let nextSample := path.callback.nextSample + frames
        if i64Max < frames then path.endCapture input (.error .samplePositionOverflow)
        else if InI64 nextSample then
          path.withPoint (.readArmed {
            input
            nextSample
            report := {
              frames
              armed := false
              monitoring := false
              recordDropped := false
              monitorDropped := false
              domainConflict := false } })
        else path.countClockError.endCapture input (.error .samplePositionOverflow)

/-- Another domain owns the thread: the frames pass, and both destinations drop them. -/
def conflict (path : CapturePath T S) (call : CaptureCall T) : CapturePath T S :=
  let frames := call.report.frames
  let telemetry := { path.telemetry with
    callbackDomainErrors := fetchAdd path.telemetry.callbackDomainErrors 1
    inputFrames := fetchAdd path.telemetry.inputFrames frames
    recordDroppedFrames :=
      if call.report.armed then fetchAdd path.telemetry.recordDroppedFrames frames
      else path.telemetry.recordDroppedFrames
    monitorDroppedFrames :=
      if call.report.monitoring then fetchAdd path.telemetry.monitorDroppedFrames frames
      else path.telemetry.monitorDroppedFrames }
  { path with telemetry }.endValid { call with report := { call.report with
    recordDropped := call.report.armed
    monitorDropped := call.report.monitoring
    domainConflict := true } }

/-- One sample for the recording ring. -/
def pushRecord (format : InputFormat T S) (path : CapturePath T S) (call : CaptureCall T)
    (index : Nat) (value : T) : CapturePath T S :=
  let sample := path.callback.nextSample + (index / path.callback.channels : Nat)
  let channelIndex := index % path.callback.channels
  if 2 ^ 16 ≤ channelIndex then path.endCapture call.input (.error .channelIndexOverflow)
  -- the sum is not checked in the source
  else if ¬ InI64 sample then path.withPoint .panicked
  else
    match path.captureRing.tryPush
      ⟨sample, path.callback.sampleRate, channelIndex, format.fromSample value⟩ with
    | some captureRing => { path with captureRing }.withPoint (.record call (index + 1))
    | none => path.withPoint .panicked

/-- The recording half of a callback. -/
def stepRecord (format : InputFormat T S) (path : CapturePath T S) (call : CaptureCall T)
    (index : Nat) : CapturePath T S :=
  if call.report.records then
    match call.input[index]? with
    | some value => path.pushRecord format call index value
    | none =>
        { path with telemetry := { path.telemetry with
            recordedFrames := fetchAdd path.telemetry.recordedFrames call.report.frames } }.withPoint
          (.monitor call 0)
  else if call.report.recordDropped then
    { path with telemetry := { path.telemetry with
        recordDroppedFrames :=
          fetchAdd path.telemetry.recordDroppedFrames call.report.frames } }.withPoint
      (.monitor call 0)
  else path.withPoint (.monitor call 0)

/-- One sample for the monitoring ring. -/
def pushMonitor (format : InputFormat T S) (path : CapturePath T S) (call : CaptureCall T)
    (index : Nat) (value : T) : CapturePath T S :=
  match path.monitorRing.tryPush (format.fromSample value) with
  | some monitorRing => { path with monitorRing }.withPoint (.monitor call (index + 1))
  | none => path.withPoint .panicked

/-- The monitoring half of a callback. -/
def stepMonitor (format : InputFormat T S) (path : CapturePath T S) (call : CaptureCall T)
    (index : Nat) : CapturePath T S :=
  if call.report.monitors then
    match call.input[index]? with
    | some value => path.pushMonitor format call index value
    | none =>
        { path with telemetry := { path.telemetry with
            monitoredFrames := fetchAdd path.telemetry.monitoredFrames call.report.frames } }.withPoint
          (.finish call)
  else if call.report.monitorDropped then
    { path with telemetry := { path.telemetry with
        monitorDroppedFrames :=
          fetchAdd path.telemetry.monitorDroppedFrames call.report.frames } }.withPoint
      (.finish call)
  else path.withPoint (.finish call)

/-- The next access of the callback to a shared cell.  Whether the thread can enter the audio domain
is up to its environment, and so is how much of a reader's progress it sees. -/
def stepCallback (format : InputFormat T S) (path : CapturePath T S) (domainEntered : Bool)
    (behind : Nat) : Option (CapturePath T S) :=
  match path.callback.point with
  | .idle => none
  | .panicked => none
  | .readArmed call =>
      some (path.withPoint (.readMonitoring
        { call with report := { call.report with armed := path.control.armed } }))
  | .readMonitoring call =>
      some (path.withPoint (.enterDomain
        { call with report := { call.report with monitoring := path.control.monitoring } }))
  | .enterDomain call =>
      if domainEntered then some (path.withPoint (.readRecordVacancy call))
      else some (path.conflict call)
  | .readRecordVacancy call =>
      let recordDropped := call.report.armed &&
        decide (path.captureRing.vacantLen - behind < call.input.length)
      some (path.withPoint (.readMonitorVacancy
        { call with report := { call.report with recordDropped } }))
  | .readMonitorVacancy call =>
      let monitorDropped := call.report.monitoring &&
        decide (path.monitorRing.vacantLen - behind < call.input.length)
      some (path.withPoint (.record
        { call with report := { call.report with monitorDropped } } 0))
  | .record call index => some (path.stepRecord format call index)
  | .monitor call index => some (path.stepMonitor format call index)
  | .finish call =>
      some ({ path with telemetry := { path.telemetry with
          inputFrames := fetchAdd path.telemetry.inputFrames call.report.frames } }.endValid call)

/-! ## Interleavings -/

/-- What the control, the device callback or a reader does next.  A call can begin only where its
thread is idle. -/
inductive CaptureAction (T : Type)
  | arm
  | disarm
  | setMonitoring (enabled : Bool)
  | capture (input : List T)
  | callback (domainEntered : Bool) (behind : Nat)
  | drain (maxSamples : Nat)
  | captureReader (behind : Nat)
  | readMonitor (call : ReadCall) (maxSamples : Nat)
  | monitorReader (behind : Nat)
  deriving DecidableEq

def step (format : InputFormat T S) (path : CapturePath T S) :
    CaptureAction T → Option (CapturePath T S)
  | .arm => some { path with control := { path.control with armed := true } }
  | .disarm => some { path with control := { path.control with armed := false } }
  | .setMonitoring enabled =>
      some { path with control := { path.control with monitoring := enabled } }
  | .capture input =>
      match path.callback.point with
      | .idle => some (path.beginCapture format input)
      | _ => none
  | .callback domainEntered behind => path.stepCallback format domainEntered behind
  | .drain maxSamples =>
      (path.captureReader.beginRead .drain maxSamples).map fun captureReader =>
        { path with captureReader }
  | .captureReader behind =>
      (path.captureReader.step path.captureRing behind).map fun (captureReader, captureRing) =>
        { path with captureReader, captureRing }
  | .readMonitor call maxSamples =>
      (path.monitorReader.beginRead call maxSamples).map fun monitorReader =>
        { path with monitorReader }
  | .monitorReader behind =>
      (path.monitorReader.step path.monitorRing behind).map fun (monitorReader, monitorRing) =>
        { path with monitorReader, monitorRing }

end CapturePath
end Audio
end Superi

import Superi.Audio.CaptureDelivery
import Superi.Lib.Machine

/-!
# CaptureLaws — what the readers get

Between two accesses of the callback its pushed samples, its counted frames and the room that it has
seen are in step, whatever the readers and the control do meanwhile.
-/

namespace Superi
namespace Audio

open Core Machine

variable {T S A : Type}

/-! ## The running callback -/

namespace CapturePoint

/-- What a running callback has pushed into the recording ring. -/
def recorded (format : InputFormat T S) (config : CaptureBufferConfig) (position : Int) :
    CapturePoint T → List (CapturedSample S)
  | .record call index => (call.report.recording format config position call.input).take index
  | .monitor call _ => call.report.recording format config position call.input
  | .finish call => call.report.recording format config position call.input
  | _ => []

/-- What a running callback has pushed into the monitoring ring. -/
def monitored (format : InputFormat T S) : CapturePoint T → List S
  | .monitor call index => (call.report.monitoringOf format call.input).take index
  | .finish call => call.report.monitoringOf format call.input
  | _ => []

/-- What the recording half of a running callback has been counted as. -/
def recordCounted (count : CaptureReport → Nat) : CapturePoint T → Nat
  | .monitor call _ => count call.report
  | .finish call => count call.report
  | _ => 0

/-- What the monitoring half of a running callback has been counted as. -/
def monitorCounted (count : CaptureReport → Nat) : CapturePoint T → Nat
  | .finish call => count call.report
  | _ => 0

end CapturePoint

/-- Only what is switched on is dropped. -/
structure CaptureReport.Sound (report : CaptureReport) : Prop where
  record : report.recordDropped = true → report.armed = true
  monitor : report.monitorDropped = true → report.monitoring = true

namespace CaptureReport.Sound

variable {report : CaptureReport}

theorem frames_eq_record (h : report.Sound) :
    report.frames = report.recordedFrames + report.recordDroppedFrames + report.unarmedFrames := by
  have hrecord := h.record
  unfold recordedFrames recordDroppedFrames unarmedFrames framesIf records
  cases harmed : report.armed <;> cases hdropped : report.recordDropped <;> simp_all

theorem frames_eq_monitor (h : report.Sound) :
    report.frames =
      report.monitoredFrames + report.monitorDroppedFrames + report.unmonitoredFrames := by
  have hmonitor := h.monitor
  unfold monitoredFrames monitorDroppedFrames unmonitoredFrames framesIf monitors
  cases hmonitoring : report.monitoring <;> cases hdropped : report.monitorDropped <;> simp_all

end CaptureReport.Sound

/-- An accepted callback: whole frames, which the clock has room for. -/
structure CaptureCall.Sound (config : CaptureBufferConfig) (position : Int) (call : CaptureCall T) :
    Prop where
  whole : call.input.length = call.report.frames * config.channels
  next : call.nextSample = position + call.report.frames
  inRange : InI64 call.nextSample
  report : call.report.Sound

/-- The room that a callback has seen is still there. -/
def CapturePoint.Sound (config : CaptureBufferConfig) (position : Int)
    (recordRoom monitorRoom : Nat) : CapturePoint T → Prop
  | .idle => True
  | .panicked => False
  | .readArmed call => call.Sound config position ∧ call.report.recordDropped = false ∧
      call.report.monitorDropped = false
  | .readMonitoring call => call.Sound config position ∧ call.report.monitorDropped = false
  | .enterDomain call => call.Sound config position
  | .readRecordVacancy call => call.Sound config position
  | .readMonitorVacancy call => call.Sound config position ∧
      (call.report.records = true → call.input.length ≤ recordRoom)
  | .record call index => call.Sound config position ∧
      (call.report.records = true → call.input.length - index ≤ recordRoom) ∧
      (call.report.monitors = true → call.input.length ≤ monitorRoom)
  | .monitor call index => call.Sound config position ∧
      (call.report.monitors = true → call.input.length - index ≤ monitorRoom)
  | .finish call => call.Sound config position

/-- The readers only make room. -/
theorem CapturePoint.Sound.mono {config : CaptureBufferConfig} {position : Int}
    {recordRoom recordRoom' monitorRoom monitorRoom' : Nat} {point : CapturePoint T}
    (h : point.Sound config position recordRoom monitorRoom) (hrecord : recordRoom ≤ recordRoom')
    (hmonitor : monitorRoom ≤ monitorRoom') :
    point.Sound config position recordRoom' monitorRoom' := by
  cases point with
  | readMonitorVacancy call => exact ⟨h.1, fun hon => (h.2 hon).trans hrecord⟩
  | record call index =>
      exact ⟨h.1, fun hon => (h.2.1 hon).trans hrecord, fun hon => (h.2.2 hon).trans hmonitor⟩
  | monitor call index => exact ⟨h.1, fun hon => (h.2 hon).trans hmonitor⟩
  | idle => exact h
  | readArmed call => exact h
  | readMonitoring call => exact h
  | enterDomain call => exact h
  | readRecordVacancy call => exact h
  | finish call => exact h
  | panicked => exact h

namespace CapturePath

/-- The counters say what became of the frames, up to the running callback. -/
structure Counted (telemetry : CaptureTelemetry) (captures : List (Capture T))
    (point : CapturePoint T) : Prop where
  input : telemetry.inputFrames = total CaptureReport.frames captures
  recorded : telemetry.recordedFrames = total CaptureReport.recordedFrames captures +
    point.recordCounted CaptureReport.recordedFrames
  recordDropped : telemetry.recordDroppedFrames =
    total CaptureReport.recordDroppedFrames captures +
      point.recordCounted CaptureReport.recordDroppedFrames
  monitored : telemetry.monitoredFrames = total CaptureReport.monitoredFrames captures +
    point.monitorCounted CaptureReport.monitoredFrames
  monitorDropped : telemetry.monitorDroppedFrames =
    total CaptureReport.monitorDroppedFrames captures +
      point.monitorCounted CaptureReport.monitorDroppedFrames

/-- A rejected callback adds nothing. -/
theorem Counted.error {telemetry : CaptureTelemetry} {captures : List (Capture T)}
    (h : Counted telemetry captures .idle) (input : List T) (error : CaptureBufferError) :
    Counted telemetry (captures ++ [⟨input, .error error⟩]) .idle where
  input := h.input.trans (total_error _ captures input error).symm
  recorded := by
    rw [total_error]
    exact h.recorded
  recordDropped := by
    rw [total_error]
    exact h.recordDropped
  monitored := by
    rw [total_error]
    exact h.monitored
  monitorDropped := by
    rw [total_error]
    exact h.monitorDropped

/-- The two rings deliver what the callbacks offered, and the clock counts the valid frames. -/
structure Sound (format : InputFormat T S) (config : CaptureBufferConfig)
    (path : CapturePath T S) : Prop where
  positive : 0 < config.channels
  sameChannels : path.callback.channels = config.channels
  sameRate : path.callback.sampleRate = config.sampleRate
  clock : path.callback.nextSample =
    config.initialSample + total CaptureReport.frames path.captures
  inRange : InI64 path.callback.nextSample
  reports : ∀ capture ∈ path.captures, ∀ report, capture.result = .ok report →
    capture.input.length = report.frames * config.channels ∧ report.Sound
  recording : Delivers config.channels path.captureReader path.captureRing
    (recording format config config.initialSample path.captures ++
      path.callback.point.recorded format config path.callback.nextSample)
  monitoring : Delivers config.channels path.monitorReader path.monitorRing
    (monitored format path.captures ++ path.callback.point.monitored format)
  point : path.callback.point.Sound config path.callback.nextSample path.captureRing.vacantLen
    path.monitorRing.vacantLen
  counted : Counted path.telemetry path.captures path.callback.point

namespace Sound

variable {format : InputFormat T S} {config : CaptureBufferConfig} {path next : CapturePath T S}
  {call : CaptureCall T}

theorem create {start : CapturePath T S}
    (hcreate : createCaptureBuffer T S config = .ok start) : start.Sound format config := by
  unfold createCaptureBuffer at hcreate
  split at hcreate
  · cases hcreate
  · next hchannels =>
      split at hcreate
      · cases hcreate
      · split at hcreate
        · cases hcreate
        · dsimp only at hcreate
          split at hcreate
          · cases hcreate
          · split at hcreate
            · cases hcreate
            · cases hcreate
              exact {
                positive := Nat.pos_of_ne_zero hchannels
                sameChannels := rfl
                sameRate := rfl
                clock := (Int.add_zero _).symm
                inRange := config.initialInRange
                reports := fun _ hmem => by (cases hmem)
                recording := .new _ _
                monitoring := .new _ _
                point := trivial
                counted := ⟨rfl, rfl, rfl, rfl, rfl⟩ }

/-! ### The callback moves on -/

/-- Between two accesses that push and count nothing. -/
theorem moves (h : path.Sound format config) {before point : CapturePoint T}
    (hbefore : path.callback.point = before)
    (hpoint : point.Sound config path.callback.nextSample path.captureRing.vacantLen
      path.monitorRing.vacantLen)
    (hrecorded : point.recorded format config path.callback.nextSample =
      before.recorded format config path.callback.nextSample)
    (hmonitored : point.monitored format = before.monitored format)
    (hrecord : ∀ count, point.recordCounted count = before.recordCounted count)
    (hmonitor : ∀ count, point.monitorCounted count = before.monitorCounted count) :
    (path.withPoint point).Sound format config where
  positive := h.positive
  sameChannels := h.sameChannels
  sameRate := h.sameRate
  clock := h.clock
  inRange := h.inRange
  reports := h.reports
  recording := by
    rw [withPoint, hrecorded, ← hbefore]
    exact h.recording
  monitoring := by
    rw [withPoint, hmonitored, ← hbefore]
    exact h.monitoring
  point := hpoint
  counted :=
    { input := h.counted.input
      recorded := (hbefore ▸ h.counted).recorded.trans (congrArg _ (hrecord _).symm)
      recordDropped := (hbefore ▸ h.counted).recordDropped.trans (congrArg _ (hrecord _).symm)
      monitored := (hbefore ▸ h.counted).monitored.trans (congrArg _ (hmonitor _).symm)
      monitorDropped := (hbefore ▸ h.counted).monitorDropped.trans (congrArg _ (hmonitor _).symm) }

/-- The clock has room for a running callback, so no counter wraps. -/
theorem room (h : path.Sound format config) (hcall : call.Sound config path.callback.nextSample) :
    total CaptureReport.frames path.captures + call.report.frames < 2 ^ 64 := by
  have hclock := h.clock
  have hnext := hcall.next
  have hend := hcall.inRange.2
  have hstart := config.initialInRange.1
  unfold i64Max at hend
  unfold i64Min at hstart
  omega

theorem fetchAdd_total (h : path.Sound format config)
    (hcall : call.Sound config path.callback.nextSample) {count : CaptureReport → Nat}
    (hcount : ∀ report, count report ≤ report.frames) :
    fetchAdd (total count path.captures) call.report.frames =
      total count path.captures + call.report.frames := by
  have htotal : total count path.captures ≤ total CaptureReport.frames path.captures :=
    total_mono path.captures hcount
  have hroom := h.room hcall
  exact Nat.mod_eq_of_lt (by omega)

/-- Counting the frames of a callback where its flag is set, and leaving the counter elsewhere. -/
theorem count_framesIf (h : path.Sound format config)
    (hcall : call.Sound config path.callback.nextSample) (flag : CaptureReport → Bool)
    {counter : Nat}
    (hcounter : counter = total (fun report => report.framesIf (flag report)) path.captures) :
    (if flag call.report then fetchAdd counter call.report.frames else counter) =
      total (fun report => report.framesIf (flag report)) path.captures +
        call.report.framesIf (flag call.report) := by
  rw [CaptureReport.framesIf, hcounter]
  split
  · exact h.fetchAdd_total hcall fun report => report.framesIf_le _
  · rfl

/-- A rejected callback counts an error at most. -/
theorem reject (h : path.Sound format config) (hidle : path.callback.point = .idle)
    {telemetry : CaptureTelemetry} (hcounted : Counted telemetry path.captures .idle)
    (input : List T) (error : CaptureBufferError) :
    ({ path with telemetry }.endCapture input (.error error)).Sound format config where
  positive := h.positive
  sameChannels := h.sameChannels
  sameRate := h.sameRate
  clock := h.clock.trans (by rw [endCapture, total_error])
  inRange := h.inRange
  reports := by
    intro capture hcapture report hresult
    rcases List.mem_append.1 hcapture with hold | hnew
    · exact h.reports capture hold report hresult
    · rw [List.mem_singleton.1 hnew] at hresult
      cases hresult
  recording := by
    have hbefore := h.recording
    rw [hidle] at hbefore
    rw [endCapture, recording_error]
    exact hbefore
  monitoring := by
    have hbefore := h.monitoring
    rw [hidle] at hbefore
    rw [endCapture, monitored_error]
    exact hbefore
  point := trivial
  counted := hcounted.error input error

theorem beginCapture (h : path.Sound format config) (hidle : path.callback.point = .idle)
    (input : List T) : (path.beginCapture format input).Sound format config := by
  have hcounted : Counted path.telemetry path.captures .idle := hidle ▸ h.counted
  have hshape : Counted path.countShapeError.telemetry path.captures .idle := { hcounted with }
  have hclock : Counted path.countClockError.telemetry path.captures .idle := { hcounted with }
  unfold CapturePath.beginCapture
  dsimp only
  split
  · exact h.reject hidle hshape input _
  · next haligned =>
      split
      · exact h.reject hidle hshape input _
      · split
        · exact h.reject hidle hcounted input _
        · split
          · next hnext =>
              -- the length is a multiple, so the frames are all of it
              have hwhole : input.length = input.length / config.channels * config.channels := by
                rw [← h.sameChannels]
                exact (Nat.div_mul_cancel (Nat.dvd_of_mod_eq_zero (not_not.1 haligned))).symm
              refine h.moves hidle ⟨⟨?_, rfl, hnext, ?_, ?_⟩, rfl, rfl⟩ rfl rfl (fun _ => rfl)
                fun _ => rfl
              · rw [h.sameChannels]
                exact hwhole
              · intro hdropped
                cases hdropped
              · intro hdropped
                cases hdropped
          · exact h.reject hidle hclock input _

/-! ### A valid callback ends -/

/-- The frames have passed: the recording, the monitoring and the counters of the callback become
part of those of the finished ones. -/
theorem endValid (h : path.Sound format config) (hcall : call.Sound config path.callback.nextSample)
    (hrecorded : path.callback.point.recorded format config path.callback.nextSample =
      call.report.recording format config path.callback.nextSample call.input)
    (hmonitored : path.callback.point.monitored format = call.report.monitoringOf format call.input)
    {telemetry : CaptureTelemetry}
    (hcounted : Counted telemetry (path.captures ++ [⟨call.input, .ok call.report⟩]) .idle) :
    ({ path with telemetry }.endValid call).Sound format config where
  positive := h.positive
  sameChannels := h.sameChannels
  sameRate := h.sameRate
  clock := by
    have hclock := h.clock
    have hnext := hcall.next
    simp only [CapturePath.endValid, endCapture, withPoint, total_ok]
    omega
  inRange := hcall.inRange
  reports := by
    intro capture hcapture report hresult
    rcases List.mem_append.1 hcapture with hold | hnew
    · exact h.reports capture hold report hresult
    · rw [List.mem_singleton.1 hnew] at hresult ⊢
      cases hresult
      exact ⟨hcall.whole, hcall.report⟩
  recording := by
    have hbefore := h.recording
    rw [hrecorded, h.clock] at hbefore
    simp only [CapturePath.endValid, endCapture, withPoint, recording_ok]
    exact (List.append_nil _).symm ▸ hbefore
  monitoring := by
    have hbefore := h.monitoring
    rw [hmonitored] at hbefore
    simp only [CapturePath.endValid, endCapture, withPoint, monitored_ok]
    exact (List.append_nil _).symm ▸ hbefore
  point := trivial
  counted := hcounted

/-! ### Pushing -/

theorem take_recording {position : Int} {input : List T} {report : CaptureReport} {index : Nat}
    {value : T} (hrecords : report.records = true) (hvalue : input[index]? = some value) :
    (report.recording format config position input).take (index + 1) =
      (report.recording format config position input).take index ++
        [stamp format config position index value] := by
  rw [CaptureReport.recording, if_pos hrecords, List.take_add_one, stamped, List.getElem?_mapIdx,
    hvalue]
  rfl

theorem take_monitoring {input : List T} {report : CaptureReport} {index : Nat} {value : T}
    (hmonitors : report.monitors = true) (hvalue : input[index]? = some value) :
    (report.monitoringOf format input).take (index + 1) =
      (report.monitoringOf format input).take index ++ [format.fromSample value] := by
  rw [CaptureReport.monitoringOf, if_pos hmonitors, List.take_add_one, List.getElem?_map, hvalue]
  rfl

theorem vacantLen_push (ring : Ring A) (sample : A) :
    ({ ring with items := ring.items ++ [sample] } : Ring A).vacantLen = ring.vacantLen - 1 := by
  simp only [Ring.vacantLen, List.length_append, List.length_singleton]
  omega

/-- The frame of a sample lies before the end of its callback. -/
theorem inRange_of_lt (h : path.Sound format config)
    (hcall : call.Sound config path.callback.nextSample) {index : Nat}
    (hindex : index < call.input.length) :
    InI64 (path.callback.nextSample + (index / config.channels : Nat)) := by
  have hframe : index / config.channels < call.report.frames := by
    rw [Nat.div_lt_iff_lt_mul h.positive, ← hcall.whole]
    exact hindex
  have hstart := h.inRange.1
  have hend := hcall.inRange.2
  have hnext := hcall.next
  generalize index / config.channels = frame at hframe ⊢
  constructor
  · omega
  · omega

/-- A sample finds the room that was seen, and its position and channel are in range. -/
theorem pushRecord_eq (h : path.Sound format config) {index : Nat} {value : T}
    (hpoint : path.callback.point = .record call index) (hrecords : call.report.records = true)
    (hvalue : call.input[index]? = some value) :
    path.pushRecord format call index value =
      { path with captureRing := { path.captureRing with
          items := path.captureRing.items ++
            [stamp format config path.callback.nextSample index value] } }.withPoint
        (.record call (index + 1)) := by
  obtain ⟨hcall, hroom, -⟩ :
      CapturePoint.Sound config path.callback.nextSample path.captureRing.vacantLen
        path.monitorRing.vacantLen (.record call index) := hpoint ▸ h.point
  have hindex : index < call.input.length := (List.getElem?_eq_some_iff.1 hvalue).1
  have hvacant : 0 < path.captureRing.vacantLen :=
    Nat.lt_of_lt_of_le (Nat.sub_pos_of_lt hindex) (hroom hrecords)
  have hchannel : ¬ 2 ^ 16 ≤ index % config.channels :=
    Nat.not_le.2 ((Nat.mod_lt _ h.positive).trans config.channelsInRange)
  have hpush := Ring.tryPush_of_vacant hvacant
    (stamp format config path.callback.nextSample index value)
  rw [stamp] at hpush ⊢
  simp only [CapturePath.pushRecord, h.sameChannels, h.sameRate, hchannel, if_false,
    not_true_eq_false, h.inRange_of_lt hcall hindex, hpush]

theorem pushRecord (h : path.Sound format config) {index : Nat} {value : T}
    (hpoint : path.callback.point = .record call index) (hrecords : call.report.records = true)
    (hvalue : call.input[index]? = some value) :
    (path.pushRecord format call index value).Sound format config := by
  obtain ⟨hcall, hroom, hmonitor⟩ :
      CapturePoint.Sound config path.callback.nextSample path.captureRing.vacantLen
        path.monitorRing.vacantLen (.record call index) := hpoint ▸ h.point
  rw [h.pushRecord_eq hpoint hrecords hvalue]
  have hrecording := h.recording
  have hmonitoring := h.monitoring
  have hcounted := h.counted
  rw [hpoint] at hrecording hmonitoring hcounted
  exact {
    positive := h.positive
    sameChannels := h.sameChannels
    sameRate := h.sameRate
    clock := h.clock
    inRange := h.inRange
    reports := h.reports
    recording := by
      have hpushed := hrecording.push [stamp format config path.callback.nextSample index value]
      rw [CapturePoint.recorded, List.append_assoc, ← take_recording hrecords hvalue] at hpushed
      exact hpushed
    monitoring := hmonitoring
    point := by
      refine ⟨hcall, fun _ => ?_, hmonitor⟩
      have hbefore := hroom hrecords
      simp only [withPoint]
      rw [vacantLen_push]
      omega
    counted := { hcounted with } }

theorem pushMonitor (h : path.Sound format config) {index : Nat} {value : T}
    (hpoint : path.callback.point = .monitor call index) (hmonitors : call.report.monitors = true)
    (hvalue : call.input[index]? = some value) :
    (path.pushMonitor format call index value).Sound format config := by
  obtain ⟨hcall, hroom⟩ :
      CapturePoint.Sound config path.callback.nextSample path.captureRing.vacantLen
        path.monitorRing.vacantLen (.monitor call index) := hpoint ▸ h.point
  have hindex : index < call.input.length := (List.getElem?_eq_some_iff.1 hvalue).1
  have hvacant : 0 < path.monitorRing.vacantLen :=
    Nat.lt_of_lt_of_le (Nat.sub_pos_of_lt hindex) (hroom hmonitors)
  have hstep : path.pushMonitor format call index value =
      { path with monitorRing := { path.monitorRing with
          items := path.monitorRing.items ++ [format.fromSample value] } }.withPoint
        (.monitor call (index + 1)) := by
    simp only [CapturePath.pushMonitor, Ring.tryPush_of_vacant hvacant]
  rw [hstep]
  have hrecording := h.recording
  have hmonitoring := h.monitoring
  have hcounted := h.counted
  rw [hpoint] at hrecording hmonitoring hcounted
  exact {
    positive := h.positive
    sameChannels := h.sameChannels
    sameRate := h.sameRate
    clock := h.clock
    inRange := h.inRange
    reports := h.reports
    recording := hrecording
    monitoring := by
      have hpushed := hmonitoring.push [format.fromSample value]
      rw [CapturePoint.monitored, List.append_assoc, ← take_monitoring hmonitors hvalue] at hpushed
      exact hpushed
    point := by
      refine ⟨hcall, fun _ => ?_⟩
      have hbefore := hroom hmonitors
      simp only [withPoint]
      rw [vacantLen_push]
      omega
    counted := { hcounted with } }

/-! ### One half after the other -/

/-- The recording half is over: everything it takes is pushed, and it is counted. -/
theorem toMonitor (h : path.Sound format config) {index : Nat}
    (hpoint : path.callback.point = .record call index)
    (hover : call.report.records = true → call.input.length ≤ index)
    {telemetry : CaptureTelemetry}
    (hcounted : Counted telemetry path.captures (.monitor call 0)) :
    ({ path with telemetry }.withPoint (.monitor call 0)).Sound format config := by
  obtain ⟨hcall, -, hmonitor⟩ :
      CapturePoint.Sound config path.callback.nextSample path.captureRing.vacantLen
        path.monitorRing.vacantLen (.record call index) := hpoint ▸ h.point
  have hrecorded : (call.report.recording format config path.callback.nextSample call.input).take
      index = call.report.recording format config path.callback.nextSample call.input := by
    rw [CaptureReport.recording]
    split
    · next hrecords =>
        apply List.take_of_length_le
        rw [stamped, List.length_mapIdx]
        exact hover hrecords
    · exact List.take_nil
  have hrecording := h.recording
  have hmonitoring := h.monitoring
  rw [hpoint] at hrecording hmonitoring
  rw [CapturePoint.recorded, hrecorded] at hrecording
  exact {
    positive := h.positive
    sameChannels := h.sameChannels
    sameRate := h.sameRate
    clock := h.clock
    inRange := h.inRange
    reports := h.reports
    recording := hrecording
    monitoring := hmonitoring
    point := ⟨hcall, hmonitor⟩
    counted := hcounted }

theorem stepRecord (h : path.Sound format config) {index : Nat}
    (hpoint : path.callback.point = .record call index) :
    (path.stepRecord format call index).Sound format config := by
  have hcall : call.Sound config path.callback.nextSample := by
    have hsound := h.point
    rw [hpoint] at hsound
    exact hsound.1
  have hcounted := h.counted
  rw [hpoint] at hcounted
  have hrecorded := h.count_framesIf hcall CaptureReport.records hcounted.recorded
  have hdropped := h.count_framesIf hcall CaptureReport.recordDropped hcounted.recordDropped
  unfold CapturePath.stepRecord
  split
  · next hrecords =>
      have hkept : ¬ call.report.recordDropped = true := by
        have hboth := (Bool.and_eq_true_iff.1 hrecords).2
        simpa using hboth
      split
      · next value hvalue => exact h.pushRecord hpoint hrecords hvalue
      · next hnone =>
          rw [if_pos hrecords] at hrecorded
          rw [if_neg hkept] at hdropped
          exact h.toMonitor hpoint (fun _ => List.getElem?_eq_none_iff.1 hnone)
            { hcounted with recorded := hrecorded, recordDropped := hdropped }
  · next hrecords =>
      rw [if_neg hrecords] at hrecorded
      have hover : call.report.records = true → call.input.length ≤ index :=
        fun hon => absurd hon hrecords
      split
      · next hlost =>
          rw [if_pos hlost] at hdropped
          exact h.toMonitor hpoint hover
            { hcounted with recorded := hrecorded, recordDropped := hdropped }
      · next hlost =>
          rw [if_neg hlost] at hdropped
          exact h.toMonitor hpoint hover
            { hcounted with recorded := hrecorded, recordDropped := hdropped }

/-- The monitoring half is over: everything it takes is pushed, and it is counted. -/
theorem toFinish (h : path.Sound format config) {index : Nat}
    (hpoint : path.callback.point = .monitor call index)
    (hover : call.report.monitors = true → call.input.length ≤ index)
    {telemetry : CaptureTelemetry} (hcounted : Counted telemetry path.captures (.finish call)) :
    ({ path with telemetry }.withPoint (.finish call)).Sound format config := by
  obtain ⟨hcall, -⟩ :
      CapturePoint.Sound config path.callback.nextSample path.captureRing.vacantLen
        path.monitorRing.vacantLen (.monitor call index) := hpoint ▸ h.point
  have hmonitored : (call.report.monitoringOf format call.input).take index =
      call.report.monitoringOf format call.input := by
    rw [CaptureReport.monitoringOf]
    split
    · next hmonitors =>
        apply List.take_of_length_le
        rw [List.length_map]
        exact hover hmonitors
    · exact List.take_nil
  have hrecording := h.recording
  have hmonitoring := h.monitoring
  rw [hpoint] at hrecording hmonitoring
  rw [CapturePoint.monitored, hmonitored] at hmonitoring
  exact {
    positive := h.positive
    sameChannels := h.sameChannels
    sameRate := h.sameRate
    clock := h.clock
    inRange := h.inRange
    reports := h.reports
    recording := hrecording
    monitoring := hmonitoring
    point := hcall
    counted := hcounted }

theorem stepMonitor (h : path.Sound format config) {index : Nat}
    (hpoint : path.callback.point = .monitor call index) :
    (path.stepMonitor format call index).Sound format config := by
  have hcall : call.Sound config path.callback.nextSample := by
    have hsound := h.point
    rw [hpoint] at hsound
    exact hsound.1
  have hcounted := h.counted
  rw [hpoint] at hcounted
  have hmonitored := h.count_framesIf hcall CaptureReport.monitors hcounted.monitored
  have hdropped := h.count_framesIf hcall CaptureReport.monitorDropped hcounted.monitorDropped
  unfold CapturePath.stepMonitor
  split
  · next hmonitors =>
      have hkept : ¬ call.report.monitorDropped = true := by
        have hboth := (Bool.and_eq_true_iff.1 hmonitors).2
        simpa using hboth
      split
      · next value hvalue => exact h.pushMonitor hpoint hmonitors hvalue
      · next hnone =>
          rw [if_pos hmonitors] at hmonitored
          rw [if_neg hkept] at hdropped
          exact h.toFinish hpoint (fun _ => List.getElem?_eq_none_iff.1 hnone)
            { hcounted with monitored := hmonitored, monitorDropped := hdropped }
  · next hmonitors =>
      rw [if_neg hmonitors] at hmonitored
      have hover : call.report.monitors = true → call.input.length ≤ index :=
        fun hon => absurd hon hmonitors
      split
      · next hlost =>
          rw [if_pos hlost] at hdropped
          exact h.toFinish hpoint hover
            { hcounted with monitored := hmonitored, monitorDropped := hdropped }
      · next hlost =>
          rw [if_neg hlost] at hdropped
          exact h.toFinish hpoint hover
            { hcounted with monitored := hmonitored, monitorDropped := hdropped }

/-! ### The end of a callback -/

theorem finish (h : path.Sound format config) (hpoint : path.callback.point = .finish call) :
    ({ path with telemetry := { path.telemetry with
        inputFrames := fetchAdd path.telemetry.inputFrames call.report.frames } }.endValid
      call).Sound format config := by
  have hcall : call.Sound config path.callback.nextSample := by
    have hsound := h.point
    rw [hpoint] at hsound
    exact hsound
  have hcounted := h.counted
  rw [hpoint] at hcounted
  apply h.endValid hcall
  · rw [hpoint]
    rfl
  · rw [hpoint]
    rfl
  · exact {
      input := by
        rw [total_ok, hcounted.input]
        exact h.fetchAdd_total hcall fun _ => Nat.le_refl _
      recorded := hcounted.recorded.trans (total_ok _ path.captures call.input call.report).symm
      recordDropped :=
        hcounted.recordDropped.trans (total_ok _ path.captures call.input call.report).symm
      monitored := hcounted.monitored.trans (total_ok _ path.captures call.input call.report).symm
      monitorDropped :=
        hcounted.monitorDropped.trans (total_ok _ path.captures call.input call.report).symm }

/-- A callback on a thread of another domain: the frames pass and nothing is pushed. -/
theorem conflict (h : path.Sound format config)
    (hpoint : path.callback.point = .enterDomain call) :
    (path.conflict call).Sound format config := by
  have hcall : call.Sound config path.callback.nextSample := by
    have hsound := h.point
    rw [hpoint] at hsound
    exact hsound
  have hcounted := h.counted
  rw [hpoint] at hcounted
  obtain ⟨report, hreport⟩ : ∃ report : CaptureReport, report = { call.report with
    recordDropped := call.report.armed
    monitorDropped := call.report.monitoring
    domainConflict := true } := ⟨_, rfl⟩
  have hlost : CaptureCall.Sound config path.callback.nextSample { call with report } := by
    rw [hreport]
    exact ⟨hcall.whole, hcall.next, hcall.inRange, id, id⟩
  have hrecords : report.records = false := by
    rw [hreport]
    exact Bool.and_not_self _
  have hmonitors : report.monitors = false := by
    rw [hreport]
    exact Bool.and_not_self _
  have hrecorded := h.count_framesIf hlost CaptureReport.records hcounted.recorded
  have hdropped := h.count_framesIf hlost CaptureReport.recordDropped hcounted.recordDropped
  have hmonitored := h.count_framesIf hlost CaptureReport.monitors hcounted.monitored
  have hmonitorDropped := h.count_framesIf hlost CaptureReport.monitorDropped hcounted.monitorDropped
  rw [if_neg (Bool.eq_false_iff.1 hrecords)] at hrecorded
  rw [if_neg (Bool.eq_false_iff.1 hmonitors)] at hmonitored
  have hframes : report.frames = call.report.frames := by rw [hreport]
  unfold CapturePath.conflict
  rw [← hreport]
  apply h.endValid hlost
  · rw [hpoint, CaptureReport.recording, if_neg (Bool.eq_false_iff.1 hrecords)]
    rfl
  · rw [hpoint, CaptureReport.monitoringOf, if_neg (Bool.eq_false_iff.1 hmonitors)]
    rfl
  · exact {
      input := by
        rw [total_ok, hcounted.input, hframes]
        exact h.fetchAdd_total hcall fun _ => Nat.le_refl _
      recorded := hrecorded.trans (total_ok _ path.captures call.input report).symm
      recordDropped := by
        refine Eq.trans ?_ (hdropped.trans (total_ok _ path.captures call.input report).symm)
        rw [hreport]
      monitored := hmonitored.trans (total_ok _ path.captures call.input report).symm
      monitorDropped := by
        refine Eq.trans ?_ (hmonitorDropped.trans (total_ok _ path.captures call.input report).symm)
        rw [hreport] }

theorem stepCallback (h : path.Sound format config) {domainEntered : Bool} {behind : Nat}
    (hstep : path.stepCallback format domainEntered behind = some next) :
    next.Sound format config := by
  have hsound := h.point
  unfold CapturePath.stepCallback at hstep
  cases hpoint : path.callback.point with
  | idle =>
      rw [hpoint] at hstep
      cases hstep
  | panicked =>
      rw [hpoint] at hstep
      cases hstep
  | readArmed call =>
      rw [hpoint] at hstep hsound
      cases hstep
      obtain ⟨hcall, hrecord, hmonitor⟩ := hsound
      refine h.moves hpoint ⟨⟨hcall.whole, hcall.next, hcall.inRange, ?_, ?_⟩, hmonitor⟩ rfl rfl
        (fun _ => rfl) fun _ => rfl
      · intro hdropped
        exact absurd (hrecord.symm.trans hdropped) Bool.false_ne_true
      · exact hcall.report.monitor
  | readMonitoring call =>
      rw [hpoint] at hstep hsound
      cases hstep
      obtain ⟨hcall, hmonitor⟩ := hsound
      refine h.moves hpoint ⟨hcall.whole, hcall.next, hcall.inRange, hcall.report.record, ?_⟩ rfl
        rfl (fun _ => rfl) fun _ => rfl
      · intro hdropped
        exact absurd (hmonitor.symm.trans hdropped) Bool.false_ne_true
  | enterDomain call =>
      rw [hpoint] at hstep hsound
      dsimp only at hstep
      split at hstep
      · cases hstep
        exact h.moves hpoint hsound rfl rfl (fun _ => rfl) fun _ => rfl
      · cases hstep
        exact h.conflict hpoint
  | readRecordVacancy call =>
      rw [hpoint] at hstep hsound
      cases hstep
      refine h.moves hpoint
        ⟨⟨hsound.whole, hsound.next, hsound.inRange, ?_, hsound.report.monitor⟩, ?_⟩ rfl rfl
        (fun _ => rfl) fun _ => rfl
      · intro hdropped
        exact (Bool.and_eq_true_iff.1 hdropped).1
      · -- what is seen as vacant is vacant
        intro hrecords
        simp only [CaptureReport.records, Bool.and_eq_true, Bool.not_eq_true', Bool.and_eq_false_iff,
          decide_eq_false_iff_not] at hrecords
        rcases hrecords with ⟨harmed, hoff | hroom⟩
        · exact absurd (harmed.symm.trans hoff) Bool.noConfusion
        · exact (Nat.not_lt.1 hroom).trans (Nat.sub_le _ _)
  | readMonitorVacancy call =>
      rw [hpoint] at hstep hsound
      cases hstep
      obtain ⟨hcall, hrecord⟩ := hsound
      refine h.moves hpoint
        ⟨⟨hcall.whole, hcall.next, hcall.inRange, hcall.report.record, ?_⟩, hrecord, ?_⟩ rfl rfl
        (fun _ => rfl) fun _ => rfl
      · intro hdropped
        exact (Bool.and_eq_true_iff.1 hdropped).1
      · intro hmonitors
        simp only [CaptureReport.monitors, Bool.and_eq_true, Bool.not_eq_true', Bool.and_eq_false_iff,
          decide_eq_false_iff_not] at hmonitors
        rcases hmonitors with ⟨hmonitoring, hoff | hroom⟩
        · exact absurd (hmonitoring.symm.trans hoff) Bool.noConfusion
        · exact (Nat.not_lt.1 hroom).trans (Nat.sub_le _ _)
  | record call index =>
      rw [hpoint] at hstep
      cases hstep
      exact h.stepRecord hpoint
  | monitor call index =>
      rw [hpoint] at hstep
      cases hstep
      exact h.stepMonitor hpoint
  | finish call =>
      rw [hpoint] at hstep
      cases hstep
      exact h.finish hpoint

/-! ### The readers -/

theorem captureReader (h : path.Sound format config) {behind : Nat}
    {reader : Reader (CapturedSample S)} {ring : Ring (CapturedSample S)}
    (hstep : path.captureReader.step path.captureRing behind = some (reader, ring)) :
    Sound format config { path with captureReader := reader, captureRing := ring } := by
  obtain ⟨hdelivers, hroom⟩ := h.recording.step hstep
  exact { h with recording := hdelivers, point := h.point.mono hroom (Nat.le_refl _) }

theorem monitorReader (h : path.Sound format config) {behind : Nat} {reader : Reader S}
    {ring : Ring S} (hstep : path.monitorReader.step path.monitorRing behind = some (reader, ring)) :
    Sound format config { path with monitorReader := reader, monitorRing := ring } := by
  obtain ⟨hdelivers, hroom⟩ := h.monitoring.step hstep
  exact { h with monitoring := hdelivers, point := h.point.mono (Nat.le_refl _) hroom }

theorem step (h : path.Sound format config) {action : CaptureAction T}
    (hstep : path.step format action = some next) : next.Sound format config := by
  cases action with
  | arm =>
      cases hstep
      exact { h with }
  | disarm =>
      cases hstep
      exact { h with }
  | setMonitoring enabled =>
      cases hstep
      exact { h with }
  | capture input =>
      simp only [CapturePath.step] at hstep
      split at hstep
      · next hidle =>
          cases hstep
          exact h.beginCapture hidle input
      · cases hstep
  | callback domainEntered behind => exact h.stepCallback hstep
  | drain maxSamples =>
      obtain ⟨reader, hbegin, rfl⟩ := Option.map_eq_some_iff.1 hstep
      exact { h with recording := h.recording.beginRead hbegin }
  | captureReader behind =>
      obtain ⟨⟨reader, ring⟩, hread, rfl⟩ := Option.map_eq_some_iff.1 hstep
      exact h.captureReader hread
  | readMonitor call maxSamples =>
      obtain ⟨reader, hbegin, rfl⟩ := Option.map_eq_some_iff.1 hstep
      exact { h with monitoring := h.monitoring.beginRead hbegin }
  | monitorReader behind =>
      obtain ⟨⟨reader, ring⟩, hread, rfl⟩ := Option.map_eq_some_iff.1 hstep
      exact h.monitorReader hread

/-- Nothing but the invariant is needed of a run. -/
theorem run (h : path.Sound format config) {actions : List (CaptureAction T)}
    (hrun : Machine.run (CapturePath.step format) path actions = some next) :
    next.Sound format config :=
  invariant_of_any_run (fun hsound hstep => hsound.step hstep) h hrun

/-! ### Rejections -/

/-- A callback that has been accepted ends with a report. -/
theorem stepCallback_captures (h : path.Sound format config) {domainEntered : Bool} {behind : Nat}
    (hstep : path.stepCallback format domainEntered behind = some next) :
    next.captures = path.captures ∨
      ∃ input report, next.captures = path.captures ++ [⟨input, .ok report⟩] := by
  unfold CapturePath.stepCallback at hstep
  cases hpoint : path.callback.point with
  | record call index =>
      rw [hpoint] at hstep
      cases hstep
      left
      unfold CapturePath.stepRecord
      split
      · next hrecords =>
          split
          · next value hvalue =>
              rw [h.pushRecord_eq hpoint hrecords hvalue]
              rfl
          · rfl
      · split <;> rfl
  | monitor call index =>
      rw [hpoint] at hstep
      cases hstep
      left
      unfold CapturePath.stepMonitor CapturePath.pushMonitor
      split
      · split
        · split <;> rfl
        · rfl
      · split <;> rfl
  | enterDomain call =>
      rw [hpoint] at hstep
      dsimp only at hstep
      split at hstep
      · cases hstep
        exact .inl rfl
      · cases hstep
        exact .inr ⟨_, _, rfl⟩
  | finish call =>
      rw [hpoint] at hstep
      cases hstep
      exact .inr ⟨_, _, rfl⟩
  | idle =>
      rw [hpoint] at hstep
      cases hstep
  | panicked =>
      rw [hpoint] at hstep
      cases hstep
  | readArmed call =>
      rw [hpoint] at hstep
      cases hstep
      exact .inl rfl
  | readMonitoring call =>
      rw [hpoint] at hstep
      cases hstep
      exact .inl rfl
  | readRecordVacancy call =>
      rw [hpoint] at hstep
      cases hstep
      exact .inl rfl
  | readMonitorVacancy call =>
      rw [hpoint] at hstep
      cases hstep
      exact .inl rfl

end Sound

/-- All that a rejected callback has changed. -/
def Rejects (path next : CapturePath T S) : Prop :=
  ∃ callbackShapeErrors sampleClockErrors,
    next = { path with
      telemetry := { path.telemetry with callbackShapeErrors, sampleClockErrors }
      captures := next.captures }

theorem endCapture_rejects {path : CapturePath T S} (hidle : path.callback.point = .idle)
    (callbackShapeErrors sampleClockErrors : Nat) (input : List T)
    (result : Except CaptureBufferError CaptureReport) :
    path.Rejects ({ path with telemetry := { path.telemetry with
      callbackShapeErrors, sampleClockErrors } }.endCapture input result) := by
  have hpoint : ({ path.callback with point := .idle } : CaptureCallback T) = path.callback := by
    rw [← hidle]
  refine ⟨callbackShapeErrors, sampleClockErrors, ?_⟩
  simp only [endCapture, withPoint, hpoint]

theorem beginCapture_captures {format : InputFormat T S} {path : CapturePath T S}
    (hidle : path.callback.point = .idle) (input : List T) :
    (path.beginCapture format input).captures = path.captures ∨
      path.Rejects (path.beginCapture format input) := by
  unfold beginCapture
  dsimp only
  split
  · exact .inr (endCapture_rejects hidle _ path.telemetry.sampleClockErrors _ _)
  · split
    · exact .inr (endCapture_rejects hidle _ path.telemetry.sampleClockErrors _ _)
    · split
      · exact .inr (endCapture_rejects hidle path.telemetry.callbackShapeErrors
          path.telemetry.sampleClockErrors _ _)
      · split
        · exact .inl rfl
        · exact .inr (endCapture_rejects hidle path.telemetry.callbackShapeErrors _ _ _)

theorem step_rejects {format : InputFormat T S} {config : CaptureBufferConfig}
    {path next : CapturePath T S} (h : path.Sound format config) {action : CaptureAction T}
    (hstep : path.step format action = some next) {input : List T} {error : CaptureBufferError}
    (hrejected : next.captures = path.captures ++ [⟨input, .error error⟩]) :
    path.Rejects next := by
  have hgrown : next.captures ≠ path.captures := by
    rw [hrejected]
    exact fun hsame => List.cons_ne_nil _ _ (List.append_right_eq_self.1 hsame)
  cases action with
  | capture input =>
      simp only [step] at hstep
      split at hstep
      · next hidle =>
          cases hstep
          exact (beginCapture_captures hidle _).resolve_left hgrown
      · cases hstep
  | callback domainEntered behind =>
      rcases h.stepCallback_captures hstep with hsame | ⟨input, report, haccepted⟩
      · exact absurd hsame hgrown
      · rw [hrejected] at haccepted
        cases List.append_cancel_left haccepted
  | arm =>
      cases hstep
      exact absurd rfl hgrown
  | disarm =>
      cases hstep
      exact absurd rfl hgrown
  | setMonitoring enabled =>
      cases hstep
      exact absurd rfl hgrown
  | drain maxSamples =>
      obtain ⟨reader, -, rfl⟩ := Option.map_eq_some_iff.1 hstep
      exact absurd rfl hgrown
  | captureReader behind =>
      obtain ⟨read, -, rfl⟩ := Option.map_eq_some_iff.1 hstep
      exact absurd rfl hgrown
  | readMonitor call maxSamples =>
      obtain ⟨reader, -, rfl⟩ := Option.map_eq_some_iff.1 hstep
      exact absurd rfl hgrown
  | monitorReader behind =>
      obtain ⟨read, -, rfl⟩ := Option.map_eq_some_iff.1 hstep
      exact absurd rfl hgrown

/-! ## Reading everything -/

theorem run_captureReader {format : InputFormat T S} {path : CapturePath T S} {count : Nat}
    {reader : Reader (CapturedSample S)} {ring : Ring (CapturedSample S)}
    (hrun : run Reader.alone (path.captureReader, path.captureRing) (List.replicate count ()) =
      some (reader, ring)) :
    run (step format) path (List.replicate count (.captureReader 0)) =
      some { path with captureReader := reader, captureRing := ring } := by
  induction count generalizing path with
  | zero =>
      cases hrun
      rfl
  | succ count ih =>
      obtain ⟨⟨first, rest⟩, hfirst, hrest⟩ := Option.bind_eq_some_iff.1 hrun
      have hstep : step format path (.captureReader 0) =
          some { path with captureReader := first, captureRing := rest } :=
        Option.map_eq_some_iff.2 ⟨_, hfirst, rfl⟩
      rw [List.replicate_succ, run, hstep, Option.bind_some,
        @ih { path with captureReader := first, captureRing := rest } hrest]

theorem run_monitorReader {format : InputFormat T S} {path : CapturePath T S} {count : Nat}
    {reader : Reader S} {ring : Ring S}
    (hrun : run Reader.alone (path.monitorReader, path.monitorRing) (List.replicate count ()) =
      some (reader, ring)) :
    run (step format) path (List.replicate count (.monitorReader 0)) =
      some { path with monitorReader := reader, monitorRing := ring } := by
  induction count generalizing path with
  | zero =>
      cases hrun
      rfl
  | succ count ih =>
      obtain ⟨⟨first, rest⟩, hfirst, hrest⟩ := Option.bind_eq_some_iff.1 hrun
      have hstep : step format path (.monitorReader 0) =
          some { path with monitorReader := first, monitorRing := rest } :=
        Option.map_eq_some_iff.2 ⟨_, hfirst, rfl⟩
      rw [List.replicate_succ, run, hstep, Option.bind_some,
        @ih { path with monitorReader := first, monitorRing := rest } hrest]

namespace Sound

variable {format : InputFormat T S} {config : CaptureBufferConfig} {path : CapturePath T S}

theorem whole (h : path.Sound format config) : ∀ capture ∈ path.captures, ∀ report,
    capture.result = .ok report → config.channels ∣ capture.input.length := by
  intro capture hcapture report hresult
  rw [(h.reports capture hcapture report hresult).1]
  exact Nat.dvd_mul_left _ _

/-- Between callbacks, one undisturbed drain gets the rest of the recording. -/
theorem drain_all (h : path.Sound format config) (hidle : path.callback.point = .idle)
    (hreader : path.captureReader.point = .idle) :
    ∃ actions last, Machine.run (CapturePath.step format) path actions = some last ∧
      last.captures = path.captures ∧
      last.captureReader.reads.flatten =
        Audio.recording format config config.initialSample path.captures := by
  have hrecording := h.recording
  rw [hidle, CapturePoint.recorded, List.append_nil] at hrecording
  · obtain ⟨begun, last, rest, hbegin, hread, hall⟩ :=
      hrecording.read_all hreader (dvd_recording format config _ h.whole) .drain
    have hstep : CapturePath.step format path (.drain path.captureRing.items.length) =
        some { path with captureReader := begun } := by
      rw [CapturePath.step, hbegin]
      rfl
    have hrest := @run_captureReader _ _ format { path with captureReader := begun } _ _ _ hread
    exact ⟨.drain path.captureRing.items.length :: _, _,
      Option.bind_eq_some_iff.2 ⟨_, hstep, hrest⟩, rfl, hall⟩
  all_goals
    intros
    contradiction

/-- One undisturbed read gets the rest of the monitoring. -/
theorem readMonitor_all (h : path.Sound format config) (hidle : path.callback.point = .idle)
    (hreader : path.monitorReader.point = .idle) (call : ReadCall) :
    ∃ actions last, Machine.run (CapturePath.step format) path actions = some last ∧
      last.captures = path.captures ∧
      last.monitorReader.reads.flatten = monitored format path.captures := by
  have hmonitoring := h.monitoring
  rw [hidle, CapturePoint.monitored, List.append_nil] at hmonitoring
  · obtain ⟨begun, last, rest, hbegin, hread, hall⟩ :=
      hmonitoring.read_all hreader (dvd_monitored format config.channels h.whole) call
    have hstep : CapturePath.step format path
        (.readMonitor call path.monitorRing.items.length) =
        some { path with monitorReader := begun } := by
      rw [CapturePath.step, hbegin]
      rfl
    have hrest := @run_monitorReader _ _ format { path with monitorReader := begun } _ _ _ hread
    exact ⟨.readMonitor call path.monitorRing.items.length :: _, _,
      Option.bind_eq_some_iff.2 ⟨_, hstep, hrest⟩, rfl, hall⟩
  all_goals
    intros
    contradiction

/-- Every frame went where its callback says. -/
theorem balanced (h : path.Sound format config) (hidle : path.callback.point = .idle) :
    path.telemetry.inputFrames = path.telemetry.recordedFrames +
        path.telemetry.recordDroppedFrames + total CaptureReport.unarmedFrames path.captures ∧
      path.telemetry.inputFrames = path.telemetry.monitoredFrames +
        path.telemetry.monitorDroppedFrames +
          total CaptureReport.unmonitoredFrames path.captures := by
  have hcounted := h.counted
  rw [hidle] at hcounted
  have hrecord : total CaptureReport.frames path.captures =
      total CaptureReport.recordedFrames path.captures +
        total CaptureReport.recordDroppedFrames path.captures +
        total CaptureReport.unarmedFrames path.captures := by
    rw [← total_add, ← total_add]
    refine total_congr fun capture hcapture report hresult => ?_
    exact (h.reports capture hcapture report hresult).2.frames_eq_record
  have hmonitor : total CaptureReport.frames path.captures =
      total CaptureReport.monitoredFrames path.captures +
        total CaptureReport.monitorDroppedFrames path.captures +
        total CaptureReport.unmonitoredFrames path.captures := by
    rw [← total_add, ← total_add]
    refine total_congr fun capture hcapture report hresult => ?_
    exact (h.reports capture hcapture report hresult).2.frames_eq_monitor
  constructor
  · rw [hcounted.input, hcounted.recorded, hcounted.recordDropped, hrecord]
    rfl
  · rw [hcounted.input, hcounted.monitored, hcounted.monitorDropped, hmonitor]
    rfl

end Sound

/-! ## Whole, ordered and timed -/

/-- Each reader has, and its ring holds, what the callbacks that were let in offered, in order and
stamped with the frames before them; the counters share out the frames. -/
structure Truthful (format : InputFormat T S) (config : CaptureBufferConfig)
    (path : CapturePath T S) : Prop where
  recording : Delivers config.channels path.captureReader path.captureRing
    (recording format config config.initialSample path.captures ++
      path.callback.point.recorded format config path.callback.nextSample)
  monitoring : Delivers config.channels path.monitorReader path.monitorRing
    (monitored format path.captures ++ path.callback.point.monitored format)
  clock : path.callback.nextSample =
    config.initialSample + total CaptureReport.frames path.captures
  inRange : InI64 path.callback.nextSample
  frames : ∀ capture ∈ path.captures, ∀ report, capture.result = .ok report →
    capture.input.length = report.frames * config.channels
  unbroken : path.callback.point ≠ .panicked
  rejected : ∀ action next input error, step format path action = some next →
    next.captures = path.captures ++ [⟨input, .error error⟩] → path.Rejects next
  counted : path.callback.point = .idle → Counted path.telemetry path.captures .idle
  recordBalance : path.callback.point = .idle →
    path.telemetry.inputFrames = path.telemetry.recordedFrames +
      path.telemetry.recordDroppedFrames + total CaptureReport.unarmedFrames path.captures
  monitorBalance : path.callback.point = .idle →
    path.telemetry.inputFrames = path.telemetry.monitoredFrames +
      path.telemetry.monitorDroppedFrames + total CaptureReport.unmonitoredFrames path.captures
  drained : path.callback.point = .idle → path.captureReader.point = .idle →
    ∃ actions last, run (step format) path actions = some last ∧ last.captures = path.captures ∧
      last.captureReader.reads.flatten =
        Audio.recording format config config.initialSample path.captures
  heard : path.callback.point = .idle → path.monitorReader.point = .idle →
    ∃ actions last, run (step format) path actions = some last ∧ last.captures = path.captures ∧
      last.monitorReader.reads.flatten = monitored format path.captures

/-- Captured audio is whole, ordered and truthfully timed in every interleaving. -/
theorem capture_truthful (format : InputFormat T S) (config : CaptureBufferConfig)
    (actions : List (CaptureAction T)) {start path : CapturePath T S}
    (hcreate : createCaptureBuffer T S config = .ok start)
    (hrun : run (step format) start actions = some path) : path.Truthful format config := by
  have h : path.Sound format config := (Sound.create hcreate).run hrun
  exact {
    recording := h.recording
    monitoring := h.monitoring
    clock := h.clock
    inRange := h.inRange
    frames := fun capture hcapture report hresult =>
      (h.reports capture hcapture report hresult).1
    unbroken := by
      intro hpanicked
      have hsound := h.point
      rw [hpanicked] at hsound
      exact hsound
    rejected := fun action next input error hstep hrejected => step_rejects h hstep hrejected
    counted := fun hidle => hidle ▸ h.counted
    recordBalance := fun hidle => (h.balanced hidle).1
    monitorBalance := fun hidle => (h.balanced hidle).2
    drained := h.drain_all
    heard := fun hidle hreader => h.readMonitor_all hidle hreader .readInterleaved }

/-- Whole numbers as samples. -/
def wholeInput : InputFormat Int Int where
  fromSample := id
  isFinite _ := true
  isNormalized sample := -1 ≤ sample && sample ≤ 1

/-- Two channels and room for two frames. -/
def stereoConfig : CaptureBufferConfig where
  channels := 2
  sampleRate := 48000
  capacityFrames := 2
  initialSample := 100
  channelsInRange := by decide
  initialInRange := by decide

/-- One frame passes unarmed; of the next two callbacks, of two frames and of one, the second finds
the ring full. -/
def stereoActions : List (CaptureAction Int) :=
  [.capture [0, 0]] ++ List.replicate 8 (.callback true 0) ++
    [.arm, .capture [1, -1, 0, 1]] ++ List.replicate 12 (.callback true 0) ++
    [.capture [1, 1]] ++ List.replicate 8 (.callback true 0) ++
    [.drain 3] ++ List.replicate 4 (.captureReader 0)

theorem capture_truthful_stereo : ∃ start path : CapturePath Int Int,
    createCaptureBuffer Int Int stereoConfig = .ok start ∧
      run (step wholeInput) start stereoActions = some path ∧
        path.captureReader.reads = [[⟨101, 48000, 0, 1⟩, ⟨101, 48000, 1, -1⟩]] ∧
          path.telemetry.recordDroppedFrames = 1 ∧ path.Truthful wholeInput stereoConfig := by
  refine ⟨_, _, rfl, rfl, ?_, ?_, ?_⟩
  · decide
  · decide
  · exact capture_truthful wholeInput stereoConfig stereoActions rfl rfl

end CapturePath

end Audio
end Superi

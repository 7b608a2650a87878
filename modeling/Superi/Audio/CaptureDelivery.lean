import Mathlib
import Superi.Audio.Capture
import Superi.Lib.Machine

/-!
# CaptureDelivery — from the callbacks that were let in to what a reader has

A ring hands over what is pushed, in order, and its reader takes whole frames.  What is to be pushed
is said here from the finished callbacks alone: the input of those that found room, stamped with the
number of frames that had passed before.
-/

namespace Superi
namespace Audio

open Core Machine

variable {T S A : Type}

/-! ## A ring and its reader -/

/-- What a running read has taken. -/
def ReaderPoint.samples : ReaderPoint A → List A
  | .pop _ _ samples => samples
  | _ => []

/-- Everything a reader has taken out of its ring. -/
def Reader.taken (reader : Reader A) : List A := reader.reads.flatten ++ reader.point.samples

/-- What a running read still has to take is in the ring, and completes a frame. -/
def ReaderPoint.Sound (channels : Nat) (ring : Ring A) : ReaderPoint A → Prop
  | .pop _ remaining samples =>
      remaining ≤ ring.items.length ∧ channels ∣ samples.length + remaining
  | .panicked => False
  | _ => True

/-- What was pushed has been taken or waits, in order, and finished reads are whole frames. -/
structure Delivers (channels : Nat) (reader : Reader A) (ring : Ring A) (pushed : List A) : Prop where
  sameChannels : reader.channels = channels
  order : reader.taken ++ ring.items = pushed
  whole : ∀ read ∈ reader.reads, channels ∣ read.length
  point : reader.point.Sound channels ring

theorem Ring.tryPop_cons {ring : Ring A} {sample : A} {rest : List A}
    (hitems : ring.items = sample :: rest) :
    ring.tryPop = (some sample, { ring with items := rest }) := by
  unfold Ring.tryPop
  rw [hitems]

theorem Ring.tryPush_of_vacant {ring : Ring A} (hvacant : 0 < ring.vacantLen) (sample : A) :
    ring.tryPush sample = some { ring with items := ring.items ++ [sample] } :=
  if_neg (Nat.pos_iff_ne_zero.1 hvacant)

theorem Reader.wholeFrames_le (reader : Reader A) (occupied maxSamples : Nat) :
    reader.wholeFrames occupied maxSamples ≤ occupied :=
  (Nat.sub_le _ _).trans (Nat.min_le_left _ _)

theorem Reader.dvd_wholeFrames (reader : Reader A) (occupied maxSamples : Nat) :
    reader.channels ∣ reader.wholeFrames occupied maxSamples :=
  Nat.dvd_sub_mod _

namespace Delivers

variable {channels : Nat} {reader next : Reader A} {ring rest : Ring A} {pushed : List A}

theorem new (channels capacity : Nat) :
    Delivers channels (Reader.new channels) (Ring.new capacity : Ring A) [] :=
  ⟨rfl, rfl, fun _ hmem => by (cases hmem), trivial⟩

/-- Pushing leaves what the reader has and what it counts on. -/
theorem push (h : Delivers channels reader ring pushed) (samples : List A) :
    Delivers channels reader { ring with items := ring.items ++ samples } (pushed ++ samples) := by
  refine ⟨h.sameChannels, ?_, h.whole, ?_⟩
  · rw [← h.order, List.append_assoc]
  · have hsound := h.point
    cases hpoint : reader.point with
    | pop call remaining samples' =>
        rw [hpoint] at hsound
        refine ⟨?_, hsound.2⟩
        rw [List.length_append]
        exact Nat.le_add_right_of_le hsound.1
    | panicked =>
        rw [hpoint] at hsound
        exact hsound
    | idle => trivial
    | observe call maxSamples => trivial

theorem beginRead (h : Delivers channels reader ring pushed) {call : ReadCall} {maxSamples : Nat}
    (hbegin : reader.beginRead call maxSamples = some next) :
    Delivers channels next ring pushed := by
  unfold Reader.beginRead at hbegin
  split at hbegin
  · next hidle =>
      cases hbegin
      refine ⟨h.sameChannels, ?_, h.whole, trivial⟩
      rw [← h.order, Reader.taken, Reader.taken, hidle]
      rfl
  · cases hbegin

/-- The next sample is there, because it was counted. -/
theorem popOne (h : Delivers channels reader ring pushed) {call : ReadCall} {remaining : Nat}
    {samples : List A} (hpoint : reader.point = .pop call (remaining + 1) samples) :
    ∃ sample items, ring.items = sample :: items ∧
      reader.popOne ring call remaining samples =
        ({ reader with point := .pop call remaining (samples ++ [sample]) },
          { ring with items }) ∧
      Delivers channels { reader with point := .pop call remaining (samples ++ [sample]) }
        { ring with items } pushed := by
  have hsound := h.point
  rw [hpoint] at hsound
  obtain ⟨hremaining, hwhole⟩ := hsound
  cases hitems : ring.items with
  | nil =>
      rw [hitems] at hremaining
      cases hremaining
  | cons sample items =>
      refine ⟨sample, items, rfl, ?_, h.sameChannels, ?_, h.whole, ?_, ?_⟩
      · simp only [Reader.popOne, Ring.tryPop_cons hitems]
      · rw [← h.order, Reader.taken, Reader.taken, hpoint, hitems]
        simp [ReaderPoint.samples]
      · rw [hitems, List.length_cons] at hremaining
        exact Nat.le_of_succ_le_succ hremaining
      · rw [List.length_append, List.length_singleton, Nat.add_assoc, Nat.add_comm 1]
        exact hwhole

theorem step (h : Delivers channels reader ring pushed) {behind : Nat}
    (hstep : reader.step ring behind = some (next, rest)) :
    Delivers channels next rest pushed ∧ ring.vacantLen ≤ rest.vacantLen := by
  unfold Reader.step at hstep
  split at hstep
  · cases hstep
  · cases hstep
  · next call maxSamples hpoint =>
      cases hstep
      refine ⟨⟨h.sameChannels, ?_, h.whole, ?_, ?_⟩, Nat.le_refl _⟩
      · rw [← h.order, Reader.taken, Reader.taken, hpoint]
        rfl
      · exact (reader.wholeFrames_le _ _).trans (Nat.sub_le _ _)
      · rw [List.length_nil, Nat.zero_add, ← h.sameChannels]
        exact reader.dvd_wholeFrames _ _
  · next call samples hpoint =>
      cases hstep
      have hsound := h.point
      rw [hpoint] at hsound
      refine ⟨⟨h.sameChannels, ?_, ?_, trivial⟩, Nat.le_refl _⟩
      · rw [← h.order, Reader.taken, Reader.taken, hpoint]
        simp [ReaderPoint.samples]
      · intro read hread
        rcases List.mem_append.1 hread with hread | hread
        · exact h.whole read hread
        · rw [List.mem_singleton.1 hread]
          exact hsound.2
  · next call remaining samples hpoint =>
      obtain ⟨sample, items, hitems, hpop, hnext⟩ := h.popOne hpoint
      rw [hpop] at hstep
      cases hstep
      refine ⟨hnext, ?_⟩
      simp only [Ring.vacantLen, hitems, List.length_cons]
      exact Nat.sub_le_sub_left (Nat.le_succ _) _

/-- A reader at rest has taken whole frames. -/
theorem dvd_taken (h : Delivers channels reader ring pushed) (hidle : reader.point = .idle) :
    channels ∣ reader.taken.length := by
  have hsamples : reader.point.samples = [] := by
    rw [hidle]
    rfl
  rw [Reader.taken, hsamples, List.append_nil, List.length_flatten]
  apply List.dvd_sum
  intro length hlength
  obtain ⟨read, hread, rfl⟩ := List.mem_map.1 hlength
  exact h.whole read hread

end Delivers

/-! ### A reader left alone -/

/-- The accesses of a reader that sees the whole ring, with nothing in between. -/
def Reader.alone (state : Reader A × Ring A) (_ : Unit) : Option (Reader A × Ring A) :=
  state.1.step state.2 0

/-- It takes what it has counted. -/
theorem Reader.run_pop {reader : Reader A} {ring : Ring A} {call : ReadCall} {remaining : Nat}
    {samples : List A} (hpoint : reader.point = .pop call remaining samples)
    (hremaining : remaining ≤ ring.items.length) :
    run Reader.alone (reader, ring) (List.replicate (remaining + 1) ()) =
      some ({ reader with
          point := .idle
          reads := reader.reads ++ [samples ++ ring.items.take remaining] },
        { ring with items := ring.items.drop remaining }) := by
  induction remaining generalizing reader ring samples with
  | zero =>
      rw [List.replicate_succ, run, Reader.alone, Reader.step, hpoint]
      simp [run]
  | succ remaining ih =>
      cases hitems : ring.items with
      | nil =>
          rw [hitems] at hremaining
          cases hremaining
      | cons sample items =>
          have hstep : Reader.alone (reader, ring) () =
              some ({ reader with point := .pop call remaining (samples ++ [sample]) },
                { ring with items }) := by
            simp only [Reader.alone, Reader.step, hpoint, Reader.popOne, Ring.tryPop_cons hitems]
          rw [List.replicate_succ, run, hstep, Option.bind_some, ih rfl]
          · simp
          · rw [hitems, List.length_cons] at hremaining
            exact Nat.le_of_succ_le_succ hremaining

/-- A read that asks for all of a ring of whole frames empties it. -/
theorem Reader.run_read {reader : Reader A} {ring : Ring A} {call : ReadCall}
    (hpoint : reader.point = .observe call ring.items.length)
    (hwhole : reader.channels ∣ ring.items.length) :
    run Reader.alone (reader, ring) (List.replicate (ring.items.length + 2) ()) =
      some ({ reader with point := .idle, reads := reader.reads ++ [ring.items] },
        { ring with items := [] }) := by
  have hcount : reader.wholeFrames (ring.occupiedLen - 0) ring.items.length =
      ring.items.length := by
    rw [Reader.wholeFrames, Ring.occupiedLen, Nat.sub_zero, Nat.min_self,
      Nat.mod_eq_zero_of_dvd hwhole, Nat.sub_zero]
  have hstep : Reader.alone (reader, ring) () =
      some ({ reader with point := .pop call ring.items.length [] }, ring) := by
    simp only [Reader.alone, Reader.step, hpoint, hcount]
  rw [List.replicate_succ, run, hstep, Option.bind_some,
    Reader.run_pop rfl (Nat.le_refl _), List.nil_append, List.take_length, List.drop_length]

/-- One undisturbed read gets the rest of what was pushed, if that is whole frames. -/
theorem Delivers.read_all {channels : Nat} {reader : Reader A} {ring : Ring A} {pushed : List A}
    (h : Delivers channels reader ring pushed) (hidle : reader.point = .idle)
    (hwhole : channels ∣ pushed.length) (call : ReadCall) :
    ∃ begun last rest, reader.beginRead call ring.items.length = some begun ∧
      run Reader.alone (begun, ring) (List.replicate (ring.items.length + 2) ()) =
        some (last, rest) ∧
      last.reads.flatten = pushed := by
  have htaken : reader.taken = reader.reads.flatten := by
    rw [Reader.taken, hidle]
    exact List.append_nil _
  have hitems : reader.channels ∣ ring.items.length := by
    rw [← h.order, List.length_append] at hwhole
    rw [h.sameChannels]
    exact (Nat.dvd_add_right (h.dvd_taken hidle)).1 hwhole
  have hbegin : reader.beginRead call ring.items.length =
      some { reader with point := .observe call ring.items.length } := by
    simp only [Reader.beginRead, hidle]
  refine ⟨_, _, _, hbegin, Reader.run_read rfl hitems, ?_⟩
  rw [← h.order, htaken, List.flatten_append, List.flatten_singleton]

/-! ## What the callbacks offer -/

/-- A sample of a callback with the position of its frame and its channel. -/
def stamp (format : InputFormat T S) (config : CaptureBufferConfig) (position : Int) (index : Nat)
    (value : T) : CapturedSample S where
  sample := position + (index / config.channels : Nat)
  sampleRate := config.sampleRate
  channelIndex := index % config.channels
  value := format.fromSample value

def stamped (format : InputFormat T S) (config : CaptureBufferConfig) (position : Int)
    (input : List T) : List (CapturedSample S) :=
  input.mapIdx (stamp format config position)

/-- What the recording ring takes of a callback that begins at `position`. -/
def CaptureReport.recording (format : InputFormat T S) (config : CaptureBufferConfig)
    (position : Int) (input : List T) (report : CaptureReport) : List (CapturedSample S) :=
  if report.records then stamped format config position input else []

/-- What the monitoring ring takes of a callback. -/
def CaptureReport.monitoringOf (format : InputFormat T S) (input : List T)
    (report : CaptureReport) : List S :=
  if report.monitors then input.map format.fromSample else []

/-- The recording of finished callbacks, the first of which begins at `position`: a valid callback
moves the position by its frames, whatever becomes of them. -/
def recording (format : InputFormat T S) (config : CaptureBufferConfig) :
    Int → List (Capture T) → List (CapturedSample S)
  | _, [] => []
  | position, capture :: rest =>
      match capture.result with
      | .ok report =>
          report.recording format config position capture.input ++
            recording format config (position + report.frames) rest
      | .error _ => recording format config position rest

/-- The monitoring of finished callbacks. -/
def monitored (format : InputFormat T S) (captures : List (Capture T)) : List S :=
  captures.flatMap fun capture =>
    match capture.result with
    | .ok report => report.monitoringOf format capture.input
    | .error _ => []

/-- What the valid callbacks add up to. -/
def total (count : CaptureReport → Nat) (captures : List (Capture T)) : Nat :=
  (captures.map fun capture =>
    match capture.result with
    | .ok report => count report
    | .error _ => 0).sum

namespace CaptureReport

/-- The frames of a callback that goes where `flag` says. -/
def framesIf (report : CaptureReport) (flag : Bool) : Nat := if flag then report.frames else 0

theorem framesIf_le (report : CaptureReport) (flag : Bool) : report.framesIf flag ≤ report.frames := by
  unfold framesIf
  split
  · exact Nat.le_refl _
  · exact Nat.zero_le _

def recordedFrames (report : CaptureReport) : Nat := report.framesIf report.records

def recordDroppedFrames (report : CaptureReport) : Nat := report.framesIf report.recordDropped

def unarmedFrames (report : CaptureReport) : Nat := report.framesIf !report.armed

def monitoredFrames (report : CaptureReport) : Nat := report.framesIf report.monitors

def monitorDroppedFrames (report : CaptureReport) : Nat := report.framesIf report.monitorDropped

def unmonitoredFrames (report : CaptureReport) : Nat := report.framesIf !report.monitoring

end CaptureReport

section Totals

variable (format : InputFormat T S) (config : CaptureBufferConfig) (count : CaptureReport → Nat)
  (captures : List (Capture T)) (input : List T)

theorem total_ok (report : CaptureReport) :
    total count (captures ++ [⟨input, .ok report⟩]) = total count captures + count report := by
  simp [total]

theorem total_error (error : CaptureBufferError) :
    total count (captures ++ [⟨input, .error error⟩]) = total count captures := by
  simp [total]

theorem total_mono {small large : CaptureReport → Nat} (hle : ∀ report, small report ≤ large report) :
    total small captures ≤ total large captures := by
  apply List.sum_le_sum
  intro capture _
  cases capture.result with
  | ok report => exact hle report
  | error error => exact Nat.le_refl 0

theorem total_add (left right : CaptureReport → Nat) :
    total (fun report => left report + right report) captures =
      total left captures + total right captures := by
  rw [total, total, total, ← List.sum_map_add]
  congr 2
  funext capture
  cases capture.result with
  | ok report => rfl
  | error error => rfl

variable {captures} in
theorem total_congr {left right : CaptureReport → Nat}
    (hsame : ∀ capture ∈ captures, ∀ report, capture.result = .ok report →
      left report = right report) : total left captures = total right captures := by
  rw [total, total]
  congr 1
  apply List.map_congr_left
  intro capture hcapture
  cases hresult : capture.result with
  | ok report => exact hsame capture hcapture report hresult
  | error error => rfl

theorem monitored_ok (report : CaptureReport) :
    monitored format (captures ++ [⟨input, .ok report⟩]) =
      monitored format captures ++ report.monitoringOf format input := by
  simp [monitored]

theorem monitored_error (error : CaptureBufferError) :
    monitored format (captures ++ [⟨input, .error error⟩]) = monitored format captures := by
  simp [monitored]

theorem recording_append (position : Int) (captures later : List (Capture T)) :
    recording format config position (captures ++ later) =
      recording format config position captures ++
        recording format config (position + total CaptureReport.frames captures) later := by
  induction captures generalizing position with
  | nil => simp [recording, total]
  | cons capture rest ih =>
      cases hresult : capture.result with
      | ok report =>
          have hposition : position + report.frames + (total CaptureReport.frames rest : Nat) =
              position + (total CaptureReport.frames (capture :: rest) : Nat) := by
            simp only [total, List.map_cons, List.sum_cons, hresult]
            push_cast
            exact add_assoc _ _ _
          rw [List.cons_append]
          simp only [recording, hresult]
          rw [ih, hposition, List.append_assoc]
      | error error =>
          have hposition : (total CaptureReport.frames rest : Nat) =
              total CaptureReport.frames (capture :: rest) := by
            simp only [total, List.map_cons, List.sum_cons, hresult, Nat.zero_add]
          rw [List.cons_append]
          simp only [recording, hresult]
          rw [ih, hposition]

theorem recording_ok (position : Int) (report : CaptureReport) :
    recording format config position (captures ++ [⟨input, .ok report⟩]) =
      recording format config position captures ++
        report.recording format config (position + total CaptureReport.frames captures) input := by
  rw [recording_append]
  simp [recording]

theorem recording_error (position : Int) (error : CaptureBufferError) :
    recording format config position (captures ++ [⟨input, .error error⟩]) =
      recording format config position captures := by
  rw [recording_append]
  simp [recording]

variable {captures} in
/-- The recording of valid callbacks is made of whole frames. -/
theorem dvd_recording (position : Int)
    (hwhole : ∀ capture ∈ captures, ∀ report, capture.result = .ok report →
      config.channels ∣ capture.input.length) :
    config.channels ∣ (recording format config position captures).length := by
  induction captures generalizing position with
  | nil => exact Nat.dvd_zero _
  | cons capture rest ih =>
      have hrest := fun position => ih position fun other hother =>
        hwhole other (List.mem_cons_of_mem capture hother)
      cases hresult : capture.result with
      | ok report =>
          simp only [recording, hresult, List.length_append, CaptureReport.recording]
          apply Nat.dvd_add
          · split
            · rw [stamped, List.length_mapIdx]
              exact hwhole capture List.mem_cons_self report hresult
            · exact Nat.dvd_zero _
          · exact hrest _
      | error error =>
          simp only [recording, hresult]
          exact hrest _

variable {captures} in
/-- So is the monitoring. -/
theorem dvd_monitored (channels : Nat)
    (hwhole : ∀ capture ∈ captures, ∀ report, capture.result = .ok report →
      channels ∣ capture.input.length) :
    channels ∣ (monitored format captures).length := by
  rw [monitored, List.length_flatMap]
  apply List.dvd_sum
  intro length hlength
  obtain ⟨capture, hcapture, rfl⟩ := List.mem_map.1 hlength
  cases hresult : capture.result with
  | ok report =>
      dsimp only
      rw [CaptureReport.monitoringOf]
      split
      · rw [List.length_map]
        exact hwhole capture hcapture report hresult
      · exact Nat.dvd_zero _
  | error error => exact Nat.dvd_zero _

end Totals

end Audio
end Superi

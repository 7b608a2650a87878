import Mathlib
import Superi.Audio.Playback

/-!
# PlaybackLaws — discontinuities on the output path

While a discontinuity is pending the producer admits nothing, so everything in the ring was admitted
under the generation that is applied.  A callback that finds a later one empties the ring before it
renders, and drops nothing but what was admitted before.
-/

namespace Superi
namespace Audio

open Core Machine

variable {S T : Type}

/-! ## What is compared -/

/-- What a settled sample contributes to the sound: itself, and what its callback had observed. -/
def Fate.image (entry : Admitted S) : Fate → Option (S × Option Nat)
  | .rendered observed => some (entry.sample, some observed)
  | .discarded _ _ => none

/-- A frame count moves the clock, unless the position would leave its range.  The second component
counts the refusals. -/
def tick (clock : Int × Nat) (frames : Nat) : Int × Nat :=
  if (frames : Int) ≤ i64Max ∧ InI64 (clock.1 + frames) then (clock.1 + frames, clock.2)
  else (clock.1, clock.2 + 1)

/-- What a running callback has put into its buffer. -/
def ConsumerPoint.playing : ConsumerPoint S → List (S × Option Nat)
  | .pop _ observed written _ => written.reduceOption.map (·, some observed)
  | .finish observed written _ => written.reduceOption.map (·, some observed)
  | _ => []

namespace OutputPath

/-- Everything given to the device so far. -/
def heard (path : OutputPath S) : List (S × Option Nat) :=
  path.callbacks.flatMap Callback.played ++ path.callback.playing

/-- The samples of the submissions that were accepted. -/
def accepted (path : OutputPath S) : List S :=
  path.writes.flatMap fun write =>
    match write.2 with
    | .ok _ => write.1
    | .error _ => []

/-- The clock position and the refusals that the finished callbacks account for. -/
def ticks (initialSample : Int) (path : OutputPath S) : Int × Nat :=
  (path.callbacks.filterMap Callback.frames?).foldl tick (initialSample, 0)

/-! ## The discard generations -/

/-- What the control thread has read is still so. -/
def ProducerSound (path : OutputPath S) : Prop :=
  match path.producer with
  | .readRequested _ applied => applied ≤ path.discard.appliedGeneration
  | .readVacancy _ => path.discard.requestedGeneration = path.discard.appliedGeneration
  | .publish samples =>
      path.discard.requestedGeneration = path.discard.appliedGeneration ∧
        samples.length ≤ path.ring.vacantLen
  | _ => True

/-- What the callback has read is still so. -/
def ConsumerSound (path : OutputPath S) : Prop :=
  match path.callback with
  | .readApplied _ requested =>
      path.discard.appliedGeneration ≤ requested ∧ requested ≤ path.discard.requestedGeneration
  | .countQueued _ requested applied =>
      applied = path.discard.appliedGeneration ∧ applied < requested ∧
        requested ≤ path.discard.requestedGeneration
  | .dropQueued _ requested applied count =>
      applied = path.discard.appliedGeneration ∧ applied < requested ∧
        requested ≤ path.discard.requestedGeneration ∧ path.ring.items.length ≤ count
  | .storeApplied _ requested _ =>
      path.discard.appliedGeneration < requested ∧
        requested ≤ path.discard.requestedGeneration ∧ path.tape.waiting = []
  | .enterDomain _ observed => observed = path.discard.appliedGeneration
  | .pop _ observed _ _ => observed = path.discard.appliedGeneration
  | _ => True

/-- Everything in the ring was admitted under the applied generation. -/
structure Guarded (path : OutputPath S) : Prop where
  queued : path.ring.items = path.tape.waiting.map Admitted.sample
  ordered : path.discard.appliedGeneration ≤ path.discard.requestedGeneration
  stamped : ∀ entry ∈ path.tape.waiting,
    entry.requested = path.discard.appliedGeneration ∧
      entry.applied = path.discard.appliedGeneration
  producer : path.ProducerSound
  consumer : path.ConsumerSound

namespace Guarded

variable {format : SampleFormat S T} {path next : OutputPath S}

theorem endPush (h : path.Guarded) (samples : List S)
    (result : Except OutputBufferError OutputWrite) : (path.endPush samples result).Guarded :=
  { h with producer := trivial }

theorem endCallback (h : path.Guarded) (callback : Callback S) :
    (path.endCallback callback).Guarded :=
  { h with consumer := trivial }

theorem telemetry (h : path.Guarded) (telemetry : OutputTelemetry) :
    { path with telemetry }.Guarded :=
  { h with }

theorem beginPush (h : path.Guarded) (samples : List S) :
    (path.beginPush format samples).Guarded := by
  unfold OutputPath.beginPush
  split
  · exact h.endPush samples _
  · split
    · exact h.endPush samples _
    · exact { h with producer := trivial }

theorem admitUnlessPending (h : path.Guarded) (samples : List S) {applied : Nat}
    (happlied : applied ≤ path.discard.appliedGeneration) :
    (path.admitUnlessPending samples ⟨path.discard.requestedGeneration, applied⟩).Guarded := by
  unfold OutputPath.admitUnlessPending
  split
  · exact h.endPush samples _
  · next hpending =>
      -- the request cannot lie behind what was read as applied
      have hequal : path.discard.requestedGeneration = applied := by
        simpa [OutputDiscardStatus.isPending] using hpending
      have hsame : path.discard.requestedGeneration = path.discard.appliedGeneration :=
        Nat.le_antisymm (hequal ▸ happlied) h.ordered
      exact { h with producer := hsame }

theorem admitIfVacant (h : path.Guarded) (samples : List S)
    (hsame : path.discard.requestedGeneration = path.discard.appliedGeneration) :
    (path.admitIfVacant samples).Guarded := by
  unfold OutputPath.admitIfVacant
  dsimp only
  split
  · exact (h.telemetry _).endPush samples _
  · next hvacant => exact { h with producer := ⟨hsame, Nat.le_of_not_lt hvacant⟩ }

/-- While nothing is pending the callback has read nothing that an admission could change. -/
theorem consumer_of_settled (h : path.Guarded)
    (hsame : path.discard.requestedGeneration = path.discard.appliedGeneration)
    (hcallback : next.callback = path.callback) (hdiscard : next.discard = path.discard) :
    next.ConsumerSound := by
  have hconsumer := h.consumer
  unfold ConsumerSound at hconsumer ⊢
  rw [hcallback, hdiscard]
  cases hpoint : path.callback with
  | countQueued length requested applied =>
      rw [hpoint] at hconsumer
      obtain ⟨happlied, hlt, hle⟩ := hconsumer
      omega
  | dropQueued length requested applied count =>
      rw [hpoint] at hconsumer
      obtain ⟨happlied, hlt, hle, -⟩ := hconsumer
      omega
  | storeApplied length requested discarded =>
      rw [hpoint] at hconsumer
      obtain ⟨hlt, hle, -⟩ := hconsumer
      omega
  | readApplied length requested =>
      rw [hpoint] at hconsumer
      exact hconsumer
  | enterDomain length observed =>
      rw [hpoint] at hconsumer
      exact hconsumer
  | pop length observed written consumedSamples =>
      rw [hpoint] at hconsumer
      exact hconsumer
  | idle => trivial
  | readRequested length => trivial
  | finish observed written report => trivial

theorem publishSamples (h : path.Guarded) (samples : List S)
    (hsame : path.discard.requestedGeneration = path.discard.appliedGeneration) :
    (path.publishSamples samples).Guarded where
  queued := by
    simp only [OutputPath.publishSamples, OutputPath.endPush, Ring.pushSlice, Tape.waiting_write,
      List.map_append, List.map_map, h.queued, Function.comp_def, List.map_id']
  ordered := h.ordered
  stamped := by
    intro entry hentry
    simp only [OutputPath.publishSamples, OutputPath.endPush, Tape.waiting_write,
      List.mem_append, List.mem_map] at hentry
    rcases hentry with hentry | ⟨sample, -, rfl⟩
    · exact h.stamped entry hentry
    · exact ⟨hsame, rfl⟩
  producer := trivial
  consumer := h.consumer_of_settled hsame rfl rfl

/-- A request only widens what is pending. -/
theorem beginRequest (h : path.Guarded) (hidle : path.producer = .idle) :
    path.beginRequest.Guarded := by
  unfold OutputPath.beginRequest
  split
  · refine ⟨h.queued, Nat.le_succ_of_le h.ordered, h.stamped, trivial, ?_⟩
    have hconsumer := h.consumer
    unfold ConsumerSound at hconsumer ⊢
    dsimp only
    cases hpoint : path.callback with
    | readApplied length requested =>
        rw [hpoint] at hconsumer
        exact ⟨hconsumer.1, Nat.le_succ_of_le hconsumer.2⟩
    | countQueued length requested applied =>
        rw [hpoint] at hconsumer
        exact ⟨hconsumer.1, hconsumer.2.1, Nat.le_succ_of_le hconsumer.2.2⟩
    | dropQueued length requested applied count =>
        rw [hpoint] at hconsumer
        exact ⟨hconsumer.1, hconsumer.2.1, Nat.le_succ_of_le hconsumer.2.2.1, hconsumer.2.2.2⟩
    | storeApplied length requested discarded =>
        rw [hpoint] at hconsumer
        exact ⟨hconsumer.1, Nat.le_succ_of_le hconsumer.2.1, hconsumer.2.2⟩
    | enterDomain length observed =>
        rw [hpoint] at hconsumer
        exact hconsumer
    | pop length observed written consumedSamples =>
        rw [hpoint] at hconsumer
        exact hconsumer
    | idle => trivial
    | readRequested length => trivial
    | finish observed written report => trivial
  · refine ⟨h.queued, h.ordered, h.stamped, ?_, h.consumer⟩
    unfold ProducerSound
    dsimp only
    rw [hidle]
    trivial

theorem stepProducer (h : path.Guarded) (hstep : path.stepProducer = some next) :
    next.Guarded := by
  have hproducer := h.producer
  unfold ProducerSound at hproducer
  unfold OutputPath.stepProducer at hstep
  cases hpoint : path.producer with
  | idle =>
      rw [hpoint] at hstep
      cases hstep
  | readApplied samples =>
      rw [hpoint] at hstep
      cases hstep
      exact { h with producer := Nat.le_refl _ }
  | readRequested samples applied =>
      rw [hpoint] at hstep hproducer
      cases hstep
      exact h.admitUnlessPending samples hproducer
  | readVacancy samples =>
      rw [hpoint] at hstep hproducer
      cases hstep
      exact h.admitIfVacant samples hproducer
  | publish samples =>
      rw [hpoint] at hstep hproducer
      cases hstep
      exact h.publishSamples samples hproducer.1
  | reportRequest generation =>
      rw [hpoint] at hstep
      cases hstep
      exact { h with producer := trivial }

/-- Taking samples out leaves the producer the room it counted on. -/
theorem producer_of_shorter (h : path.Guarded) (hproducer : next.producer = path.producer)
    (hdiscard : next.discard = path.discard) (hcapacity : next.ring.capacity = path.ring.capacity)
    (hshorter : next.ring.items.length ≤ path.ring.items.length) : next.ProducerSound := by
  have hbefore := h.producer
  unfold ProducerSound Ring.vacantLen at hbefore ⊢
  rw [hproducer, hdiscard]
  cases hpoint : path.producer with
  | publish samples =>
      rw [hpoint] at hbefore
      obtain ⟨hsame, hroom⟩ := hbefore
      refine ⟨hsame, ?_⟩
      omega
  | readRequested samples applied =>
      rw [hpoint] at hbefore
      exact hbefore
  | readVacancy samples =>
      rw [hpoint] at hbefore
      exact hbefore
  | idle => trivial
  | readApplied samples => trivial
  | reportRequest generation => trivial

/-- Applying what is pending: the ring is empty, so no stamp falls behind. -/
theorem storeApplied (h : path.Guarded) {length requested discarded : Nat}
    (hpoint : path.callback = .storeApplied length requested discarded)
    (telemetry : OutputTelemetry) :
    Guarded { path with
      telemetry
      discard := { path.discard with appliedGeneration := requested }
      callback := .enterDomain length requested } := by
  have hconsumer := h.consumer
  unfold ConsumerSound at hconsumer
  rw [hpoint] at hconsumer
  obtain ⟨hlt, hle, hempty⟩ := hconsumer
  refine ⟨h.queued, hle, ?_, ?_, rfl⟩
  · intro entry hentry
    rw [hempty] at hentry
    cases hentry
  · have hbefore := h.producer
    unfold ProducerSound at hbefore ⊢
    dsimp only
    cases hproducer : path.producer with
    | readRequested samples applied =>
        rw [hproducer] at hbefore
        exact hbefore.trans (Nat.le_of_lt hlt)
    | readVacancy samples =>
        rw [hproducer] at hbefore
        dsimp only at hbefore
        omega
    | publish samples =>
        rw [hproducer] at hbefore
        obtain ⟨hsame, -⟩ := hbefore
        omega
    | idle => trivial
    | readApplied samples => trivial
    | reportRequest generation => trivial

/-- Samples leave the ring from its front, on the tape as in the ring. -/
theorem settle (h : path.Guarded) (count : Nat) (fate : Fate) {callback : ConsumerPoint S}
    (hconsumer : ConsumerSound { path with
      ring := path.ring.skip count
      tape := path.tape.settle count fate
      callback }) :
    Guarded { path with
      ring := path.ring.skip count
      tape := path.tape.settle count fate
      callback } where
  queued := by
    simp only [Ring.skip, Tape.waiting_settle, List.map_drop, h.queued]
  ordered := h.ordered
  stamped := fun entry hentry => h.stamped entry (List.mem_of_mem_drop hentry)
  producer := by
    refine h.producer_of_shorter rfl rfl rfl ?_
    change (path.ring.items.drop count).length ≤ path.ring.items.length
    rw [List.length_drop]
    exact Nat.sub_le _ _
  consumer := hconsumer

theorem tryPop_eq (ring : Ring S) :
    ring.tryPop = (ring.items.head?, ring.skip 1) := by
  unfold Ring.tryPop Ring.skip
  obtain ⟨capacity, items⟩ := ring
  cases items with
  | nil => rfl
  | cons sample rest => rfl

theorem popOne (h : path.Guarded) {length observed consumedSamples : Nat}
    {written : List (Option S)} (hobserved : observed = path.discard.appliedGeneration) :
    (path.popOne length observed written consumedSamples).Guarded := by
  unfold OutputPath.popOne
  rw [tryPop_eq]
  cases hhead : path.ring.items.head? with
  | none => exact { h with consumer := hobserved }
  | some sample => exact h.settle 1 _ hobserved

theorem finishCallback (h : path.Guarded) (frames silenceSamples : Nat) (underrun : Bool) :
    (path.finishCallback frames silenceSamples underrun).Guarded := by
  unfold OutputPath.finishCallback
  dsimp only
  split
  · split
    · exact { h with }
    · exact h.telemetry _
  · exact h.telemetry _

theorem beginRender (h : path.Guarded) (length : Nat) : (path.beginRender length).Guarded := by
  unfold OutputPath.beginRender
  split
  · exact (h.telemetry _).endCallback _
  · exact { h with consumer := trivial }

theorem stepConsumer (h : path.Guarded) {domainEntered : Bool}
    (hstep : path.stepConsumer domainEntered = some next) : next.Guarded := by
  have hconsumer := h.consumer
  unfold ConsumerSound at hconsumer
  unfold OutputPath.stepConsumer at hstep
  cases hpoint : path.callback with
  | idle =>
      rw [hpoint] at hstep
      cases hstep
  | readRequested length =>
      rw [hpoint] at hstep
      cases hstep
      exact { h with consumer := ⟨h.ordered, Nat.le_refl _⟩ }
  | readApplied length requested =>
      rw [hpoint] at hstep hconsumer
      obtain ⟨hbehind, hbound⟩ := hconsumer
      dsimp only at hstep
      split at hstep
      · next hsame =>
          cases hstep
          exact { h with consumer := hsame }
      · next hpending =>
          cases hstep
          have hlt : path.discard.appliedGeneration < requested :=
            Nat.lt_of_le_of_ne hbehind (Ne.symm hpending)
          exact { h with consumer := ⟨rfl, hlt, hbound⟩ }
  | countQueued length requested applied =>
      rw [hpoint] at hstep hconsumer
      cases hstep
      obtain ⟨happlied, hlt, hbound⟩ := hconsumer
      exact { h with consumer := ⟨happlied, hlt, hbound, Nat.le_refl _⟩ }
  | dropQueued length requested applied count =>
      rw [hpoint] at hstep hconsumer
      cases hstep
      obtain ⟨happlied, hlt, hbound, hcount⟩ := hconsumer
      refine h.settle count _ ⟨happlied ▸ hlt, hbound, ?_⟩
      rw [h.queued, List.length_map] at hcount
      exact List.drop_eq_nil_of_le hcount
  | storeApplied length requested discarded =>
      rw [hpoint] at hstep
      cases hstep
      exact h.storeApplied hpoint _
  | enterDomain length observed =>
      rw [hpoint] at hstep hconsumer
      dsimp only at hstep
      split at hstep
      · cases hstep
        exact { h with consumer := hconsumer }
      · cases hstep
        exact { h with consumer := trivial }
  | pop length observed written consumedSamples =>
      rw [hpoint] at hstep hconsumer
      dsimp only at hstep
      split at hstep
      · cases hstep
        exact h.popOne hconsumer
      · cases hstep
        exact { h with consumer := trivial }
  | finish observed written report =>
      rw [hpoint] at hstep
      cases hstep
      exact (h.finishCallback _ _ _).endCallback _

theorem step (h : path.Guarded) {action : Action S} (hstep : path.step format action = some next) :
    next.Guarded := by
  cases action with
  | push samples =>
      simp only [OutputPath.step] at hstep
      split at hstep
      · cases hstep
        exact h.beginPush samples
      · cases hstep
  | requestDiscard =>
      simp only [OutputPath.step] at hstep
      split at hstep
      · next hidle =>
          cases hstep
          exact h.beginRequest hidle
      · cases hstep
  | producer => exact h.stepProducer hstep
  | render length =>
      simp only [OutputPath.step] at hstep
      split at hstep
      · cases hstep
        exact h.beginRender length
      · cases hstep
  | consumer domainEntered => exact h.stepConsumer hstep

end Guarded

/-! ## What becomes of the samples -/

/-- A rendered sample was admitted under the generation its callback had observed; a dropped one was
admitted under the generation that its callback moved away from. -/
def Fits (entry : Admitted S) : Fate → Prop
  | .rendered observed => entry.requested = observed
  | .discarded applied requested => entry.applied = applied ∧ applied < requested

/-- Submissions are on the tape whole, and what is settled as rendered is what was heard. -/
structure Accounted (path : OutputPath S) : Prop where
  fates : ∀ entry ∈ path.tape.settled, Fits entry.1 entry.2
  whole : path.tape.written.map Admitted.sample = path.accepted
  results : ∀ samples result, (samples, .ok result) ∈ path.writes →
    result = { frames := samples.length / path.channels, samples := samples.length }
  heard : path.heard = path.tape.shown Fate.image

namespace Accounted

variable {format : SampleFormat S T} {path next : OutputPath S}

/-- Steps that neither admit nor settle a sample and end no call. -/
theorem keeps (h : path.Accounted) (htape : next.tape = path.tape)
    (hwrites : next.writes = path.writes) (hchannels : next.channels = path.channels)
    (hheard : next.heard = path.heard) : next.Accounted where
  fates := by
    rw [htape]
    exact h.fates
  whole := by
    rw [htape, accepted, hwrites]
    exact h.whole
  results := by
    rw [hwrites, hchannels]
    exact h.results
  heard := by
    rw [hheard, htape]
    exact h.heard

theorem accepted_endPush_error (path : OutputPath S) (samples : List S)
    (error : OutputBufferError) : (path.endPush samples (.error error)).accepted = path.accepted := by
  simp only [accepted, endPush, List.flatMap_append, List.flatMap_singleton, List.append_nil]

/-- A rejected submission leaves nothing behind. -/
theorem endPush_error (h : path.Accounted) (samples : List S) (error : OutputBufferError) :
    (path.endPush samples (.error error)).Accounted where
  fates := h.fates
  whole := h.whole.trans (accepted_endPush_error path samples error).symm
  results := by
    intro written result hmem
    rcases List.mem_append.1 hmem with hmem | hmem
    · exact h.results written result hmem
    · cases List.mem_singleton.1 hmem
  heard := h.heard

theorem beginPush (h : path.Accounted) (samples : List S) :
    (path.beginPush format samples).Accounted := by
  unfold OutputPath.beginPush
  split
  · exact h.endPush_error samples _
  · split
    · exact h.endPush_error samples _
    · exact h.keeps rfl rfl rfl rfl

/-- The room that was seen is still there, so a submission is admitted whole. -/
theorem publishSamples (h : path.Accounted) (samples : List S)
    (hroom : samples.length ≤ path.ring.vacantLen) : (path.publishSamples samples).Accounted := by
  have hwritten : (path.ring.pushSlice samples).2 = samples.length := Nat.min_eq_left hroom
  refine ⟨h.fates, ?_, ?_, h.heard⟩
  · simp only [OutputPath.publishSamples, OutputPath.endPush, accepted, hwritten,
      List.take_length, Tape.written_write, List.map_append, h.whole, List.map_map,
      Function.comp_def, List.map_id', List.flatMap_append, List.flatMap_singleton]
  · intro written result hmem
    rcases List.mem_append.1 hmem with hmem | hmem
    · exact h.results written result hmem
    · cases List.mem_singleton.1 hmem
      rw [hwritten]
      rfl

theorem stepProducer (h : path.Accounted) (hguard : path.Guarded)
    (hstep : path.stepProducer = some next) : next.Accounted := by
  have hproducer := hguard.producer
  unfold ProducerSound at hproducer
  unfold OutputPath.stepProducer at hstep
  cases hpoint : path.producer with
  | idle =>
      rw [hpoint] at hstep
      cases hstep
  | readApplied samples =>
      rw [hpoint] at hstep
      cases hstep
      exact h.keeps rfl rfl rfl rfl
  | readRequested samples applied =>
      rw [hpoint] at hstep
      cases hstep
      unfold OutputPath.admitUnlessPending
      split
      · exact h.endPush_error samples _
      · exact h.keeps rfl rfl rfl rfl
  | readVacancy samples =>
      rw [hpoint] at hstep
      cases hstep
      unfold OutputPath.admitIfVacant
      dsimp only
      split
      · refine endPush_error ?_ samples _
        exact h.keeps rfl rfl rfl rfl
      · exact h.keeps rfl rfl rfl rfl
  | publish samples =>
      rw [hpoint] at hstep hproducer
      cases hstep
      exact h.publishSamples samples hproducer.2
  | reportRequest generation =>
      rw [hpoint] at hstep
      cases hstep
      exact h.keeps rfl rfl rfl rfl

theorem beginRequest (h : path.Accounted) : path.beginRequest.Accounted := by
  unfold OutputPath.beginRequest
  split
  · exact h.keeps rfl rfl rfl rfl
  · exact h.keeps rfl rfl rfl rfl

/-! ### The callback -/

theorem heard_of_idle {callback : ConsumerPoint S} (path : OutputPath S)
    (hplaying : callback.playing = path.callback.playing) :
    { path with callback }.heard = path.heard := by
  rw [OutputPath.heard, OutputPath.heard, hplaying]

/-- A callback that returns has given the device what it had put into its buffer. -/
theorem heard_endCallback (path : OutputPath S) {callback : Callback S}
    (hplayed : callback.played = path.callback.playing) :
    (path.endCallback callback).heard = path.heard := by
  rw [OutputPath.heard, OutputPath.heard, ← hplayed]
  simp only [endCallback, ConsumerPoint.playing, List.flatMap_append, List.flatMap_singleton,
    List.append_nil]

theorem popOne (h : path.Accounted) (hguard : path.Guarded) {length observed consumedSamples : Nat}
    {written : List (Option S)}
    (hpoint : path.callback = .pop length observed written consumedSamples)
    (hobserved : observed = path.discard.appliedGeneration) :
    (path.popOne length observed written consumedSamples).Accounted := by
  have hplaying : path.callback.playing = written.reduceOption.map (·, some observed) := by
    rw [hpoint, ConsumerPoint.playing]
  unfold OutputPath.popOne
  rw [Guarded.tryPop_eq, hguard.queued]
  cases hwaiting : path.tape.waiting with
  | nil =>
      refine h.keeps rfl rfl rfl (heard_of_idle path ?_)
      rw [hplaying, ConsumerPoint.playing]
      simp [List.reduceOption_append]
  | cons entry rest =>
      have hstamp := hguard.stamped entry (hwaiting ▸ List.mem_cons_self)
      rw [List.map_cons, List.head?_cons]
      refine ⟨?_, ?_, h.results, ?_⟩
      · intro settled hsettled
        rcases Tape.mem_settled_settle.1 hsettled with hold | ⟨hfirst, hfate⟩
        · exact h.fates settled hold
        · rw [hwaiting] at hfirst
          obtain rfl : settled.1 = entry := List.mem_singleton.1 hfirst
          rw [hfate]
          exact hstamp.1.trans hobserved.symm
      · exact (congrArg _ (Tape.written_settle _ _ _)).trans h.whole
      · have hbefore := h.heard
        rw [OutputPath.heard, hplaying] at hbefore
        rw [Tape.shown_settle, hwaiting, ← hbefore, OutputPath.heard, ConsumerPoint.playing]
        simp [Fate.image, List.reduceOption_append]

/-- Dropping what was counted: everything there was admitted before the request. -/
theorem dropQueued (h : path.Accounted) (hguard : path.Guarded)
    {length requested applied count : Nat}
    (hpoint : path.callback = .dropQueued length requested applied count) :
    Accounted { path with
      ring := path.ring.skip count
      tape := path.tape.settle count (.discarded applied requested)
      callback := .storeApplied length requested count } := by
  have hconsumer := hguard.consumer
  unfold ConsumerSound at hconsumer
  rw [hpoint] at hconsumer
  obtain ⟨happlied, hlt, -, -⟩ := hconsumer
  refine ⟨?_, ?_, h.results, ?_⟩
  · intro settled hsettled
    rcases Tape.mem_settled_settle.1 hsettled with hold | ⟨hfirst, hfate⟩
    · exact h.fates settled hold
    · rw [hfate]
      refine ⟨?_, hlt⟩
      rw [(hguard.stamped settled.1 (List.mem_of_mem_take hfirst)).2, happlied]
  · exact (congrArg _ (Tape.written_settle _ _ _)).trans h.whole
  · dsimp only
    rw [Tape.shown_settle_hidden _ _ fun _ => rfl, ← h.heard]
    rw [OutputPath.heard, OutputPath.heard, hpoint]
    rfl

/-- Only the counters, the clock and the position of the callback move. -/
theorem finishCallback_frame (path : OutputPath S) (frames silenceSamples : Nat) (underrun : Bool) :
    ∃ telemetry clock consumer,
      path.finishCallback frames silenceSamples underrun = { path with telemetry, clock, consumer } := by
  unfold OutputPath.finishCallback
  dsimp only
  split
  · split
    · exact ⟨_, _, _, rfl⟩
    · exact ⟨_, _, _, rfl⟩
  · exact ⟨_, _, _, rfl⟩

theorem finish (h : path.Accounted) {observed : Nat} {written : List (Option S)}
    {report : OutputRenderReport} (hpoint : path.callback = .finish observed written report) :
    ((path.finishCallback report.frames report.silenceSamples report.underrun).endCallback
      { observed := some observed, written, report := .ok report }).Accounted := by
  obtain ⟨telemetry, clock, consumer, hframe⟩ :=
    finishCallback_frame path report.frames report.silenceSamples report.underrun
  rw [hframe]
  refine h.keeps rfl rfl rfl ?_
  have hheard : { path with telemetry, clock, consumer }.heard = path.heard := rfl
  rw [← hheard]
  apply heard_endCallback
  rw [hpoint]
  rfl

theorem beginRender (h : path.Accounted) (hidle : path.callback = .idle) (length : Nat) :
    (path.beginRender length).Accounted := by
  have hplaying : path.callback.playing = [] := by
    rw [hidle]
    rfl
  unfold OutputPath.beginRender
  split
  · refine h.keeps rfl rfl rfl (heard_endCallback _ ?_)
    refine Eq.trans ?_ hplaying.symm
    rw [Callback.played, List.reduceOption_replicate_none]
    rfl
  · exact h.keeps rfl rfl rfl (heard_of_idle path hplaying.symm)

/-- The callback moves on without touching the ring or its buffer. -/
theorem advance (h : path.Accounted) {callback : ConsumerPoint S}
    (hplaying : callback.playing = path.callback.playing) : Accounted { path with callback } :=
  h.keeps rfl rfl rfl (heard_of_idle path hplaying)

theorem stepConsumer (h : path.Accounted) (hguard : path.Guarded) {domainEntered : Bool}
    (hstep : path.stepConsumer domainEntered = some next) : next.Accounted := by
  unfold OutputPath.stepConsumer at hstep
  cases hpoint : path.callback with
  | idle =>
      rw [hpoint] at hstep
      cases hstep
  | readRequested length =>
      rw [hpoint] at hstep
      cases hstep
      exact h.advance (by rw [hpoint]; rfl)
  | readApplied length requested =>
      rw [hpoint] at hstep
      dsimp only at hstep
      split at hstep
      · cases hstep
        exact h.advance (by rw [hpoint]; rfl)
      · cases hstep
        exact h.advance (by rw [hpoint]; rfl)
  | countQueued length requested applied =>
      rw [hpoint] at hstep
      cases hstep
      exact h.advance (by rw [hpoint]; rfl)
  | dropQueued length requested applied count =>
      rw [hpoint] at hstep
      cases hstep
      exact h.dropQueued hguard hpoint
  | storeApplied length requested discarded =>
      rw [hpoint] at hstep
      cases hstep
      refine h.keeps rfl rfl rfl ?_
      rw [OutputPath.heard, OutputPath.heard, hpoint]
      rfl
  | enterDomain length observed =>
      rw [hpoint] at hstep
      dsimp only at hstep
      split at hstep
      · cases hstep
        exact h.advance (by rw [hpoint]; rfl)
      · cases hstep
        refine h.keeps rfl rfl rfl ?_
        rw [OutputPath.heard, OutputPath.heard, hpoint]
        simp only [ConsumerPoint.playing, List.reduceOption_replicate_none, List.map_nil]
  | pop length observed written consumedSamples =>
      have hconsumer := hguard.consumer
      unfold ConsumerSound at hconsumer
      rw [hpoint] at hstep hconsumer
      dsimp only at hstep
      split at hstep
      · cases hstep
        exact h.popOne hguard hpoint hconsumer
      · cases hstep
        exact h.advance (by rw [hpoint]; rfl)
  | finish observed written report =>
      rw [hpoint] at hstep
      cases hstep
      exact h.finish hpoint

theorem step (h : path.Accounted) (hguard : path.Guarded) {action : Action S}
    (hstep : path.step format action = some next) : next.Accounted := by
  cases action with
  | push samples =>
      simp only [OutputPath.step] at hstep
      split at hstep
      · cases hstep
        exact h.beginPush samples
      · cases hstep
  | requestDiscard =>
      simp only [OutputPath.step] at hstep
      split at hstep
      · cases hstep
        exact h.beginRequest
      · cases hstep
  | producer => exact h.stepProducer hguard hstep
  | render length =>
      simp only [OutputPath.step] at hstep
      split at hstep
      · next hidle =>
          cases hstep
          exact h.beginRender hidle length
      · cases hstep
  | consumer domainEntered => exact h.stepConsumer hguard hstep

end Accounted

/-! ## The clock -/

/-- The published position is the one the finished callbacks account for. -/
structure Timed (initialSample : Int) (path : OutputPath S) : Prop where
  next : path.consumer.nextSample = path.clock.sample
  position : path.clock.sample = (path.ticks initialSample).1
  refused : path.telemetry.clockErrors = (path.ticks initialSample).2 % 2 ^ 64

namespace Timed

variable {format : SampleFormat S T} {initialSample : Int} {path next : OutputPath S}

/-- Steps that end no well-formed callback. -/
theorem keeps (h : path.Timed initialSample) (hclock : next.clock = path.clock)
    (hconsumer : next.consumer = path.consumer)
    (herrors : next.telemetry.clockErrors = path.telemetry.clockErrors)
    (hframes : next.callbacks.filterMap Callback.frames? =
      path.callbacks.filterMap Callback.frames?) : next.Timed initialSample where
  next := by
    rw [hconsumer, hclock]
    exact h.next
  position := by
    rw [hclock, ticks, hframes]
    exact h.position
  refused := by
    rw [herrors, ticks, hframes]
    exact h.refused

theorem publishSample_forward (clock : AudioMasterClock) (observedSample : Int)
    (hforward : clock.sample ≤ observedSample) :
    ∃ update, clock.publishSample observedSample =
      .ok (update, { clock with sample := observedSample }) := by
  unfold AudioMasterClock.publishSample
  rw [if_neg (Int.not_lt.2 hforward)]
  split
  · next hsame =>
      refine ⟨.unchanged, ?_⟩
      rw [hsame]
  · exact ⟨.advanced, rfl⟩

theorem ticks_endCallback (path : OutputPath S) (callback : Callback S) (frames : Nat)
    (hframes : callback.frames? = some frames) :
    (path.endCallback callback).ticks initialSample = tick (path.ticks initialSample) frames := by
  simp only [ticks, endCallback, List.filterMap_append, List.foldl_append]
  rw [List.filterMap_cons_some hframes]
  rfl

/-- A finished callback moves the clock by its frames, or counts a clock error. -/
theorem finish (h : path.Timed initialSample) (observed : Nat) (written : List (Option S))
    (report : OutputRenderReport) :
    ((path.finishCallback report.frames report.silenceSamples report.underrun).endCallback
      { observed := some observed, written, report := .ok report }).Timed initialSample := by
  have hticks : ((path.finishCallback report.frames report.silenceSamples
      report.underrun).endCallback { observed := some observed, written, report := .ok report }).ticks
        initialSample = tick (path.ticks initialSample) report.frames := by
    obtain ⟨telemetry, clock, consumer, hframe⟩ := Accounted.finishCallback_frame path report.frames
      report.silenceSamples report.underrun
    rw [hframe]
    exact ticks_endCallback _ _ report.frames rfl
  have hposition := h.position
  have hrefused := h.refused
  by_cases hfits : (report.frames : Int) ≤ i64Max ∧
      InI64 (path.consumer.nextSample + report.frames)
  · obtain ⟨update, hpublish⟩ := publishSample_forward path.clock
      (path.consumer.nextSample + report.frames) (by rw [h.next]; omega)
    have htick : tick (path.ticks initialSample) report.frames =
        ((path.ticks initialSample).1 + report.frames, (path.ticks initialSample).2) := by
      rw [tick, if_pos (by rw [← hposition, ← h.next]; exact hfits)]
    refine ⟨?_, ?_, ?_⟩
    · simp only [finishCallback, if_pos hfits, hpublish, endCallback]
    · rw [hticks, htick, ← hposition, ← h.next]
      simp only [finishCallback, if_pos hfits, hpublish, endCallback]
    · rw [hticks, htick, ← hrefused]
      simp only [finishCallback, if_pos hfits, hpublish, endCallback]
  · have htick : tick (path.ticks initialSample) report.frames =
        ((path.ticks initialSample).1, (path.ticks initialSample).2 + 1) := by
      rw [tick, if_neg (by rw [← hposition, ← h.next]; exact hfits)]
    refine ⟨?_, ?_, ?_⟩
    · simp only [finishCallback, if_neg hfits, endCallback]
      exact h.next
    · rw [hticks, htick, ← hposition]
      simp only [finishCallback, if_neg hfits, endCallback]
    · rw [hticks, htick]
      simp only [finishCallback, if_neg hfits, endCallback, fetchAdd]
      rw [hrefused, Nat.mod_add_mod]

/-- The control thread has no hand in the clock. -/
theorem stepProducer (h : path.Timed initialSample) (hstep : path.stepProducer = some next) :
    next.Timed initialSample := by
  unfold OutputPath.stepProducer at hstep
  split at hstep
  · cases hstep
  · cases hstep
    exact h.keeps rfl rfl rfl rfl
  · cases hstep
    unfold OutputPath.admitUnlessPending
    split
    · exact h.keeps rfl rfl rfl rfl
    · exact h.keeps rfl rfl rfl rfl
  · cases hstep
    unfold OutputPath.admitIfVacant
    dsimp only
    split
    · exact h.keeps rfl rfl rfl rfl
    · exact h.keeps rfl rfl rfl rfl
  · cases hstep
    exact h.keeps rfl rfl rfl rfl
  · cases hstep
    exact h.keeps rfl rfl rfl rfl

theorem beginPush (h : path.Timed initialSample) (samples : List S) :
    (path.beginPush format samples).Timed initialSample := by
  unfold OutputPath.beginPush
  split
  · exact h.keeps rfl rfl rfl rfl
  · split
    · exact h.keeps rfl rfl rfl rfl
    · exact h.keeps rfl rfl rfl rfl

theorem beginRequest (h : path.Timed initialSample) : path.beginRequest.Timed initialSample := by
  unfold OutputPath.beginRequest
  split
  · exact h.keeps rfl rfl rfl rfl
  · exact h.keeps rfl rfl rfl rfl

/-- A malformed buffer presents no frames. -/
theorem beginRender (h : path.Timed initialSample) (length : Nat) :
    (path.beginRender length).Timed initialSample := by
  unfold OutputPath.beginRender
  split
  · refine h.keeps rfl rfl rfl ?_
    simp only [endCallback, List.filterMap_append]
    exact List.append_nil _
  · exact h.keeps rfl rfl rfl rfl

theorem stepConsumer (h : path.Timed initialSample) {domainEntered : Bool}
    (hstep : path.stepConsumer domainEntered = some next) : next.Timed initialSample := by
  unfold OutputPath.stepConsumer at hstep
  split at hstep
  · cases hstep
  · cases hstep
    exact h.keeps rfl rfl rfl rfl
  · split at hstep
    · cases hstep
      exact h.keeps rfl rfl rfl rfl
    · cases hstep
      exact h.keeps rfl rfl rfl rfl
  · cases hstep
    exact h.keeps rfl rfl rfl rfl
  · cases hstep
    exact h.keeps rfl rfl rfl rfl
  · cases hstep
    exact h.keeps rfl rfl rfl rfl
  · split at hstep
    · cases hstep
      exact h.keeps rfl rfl rfl rfl
    · cases hstep
      exact h.keeps rfl rfl rfl rfl
  · split at hstep
    · cases hstep
      unfold OutputPath.popOne
      split
      · exact h.keeps rfl rfl rfl rfl
      · exact h.keeps rfl rfl rfl rfl
    · cases hstep
      exact h.keeps rfl rfl rfl rfl
  · cases hstep
    exact h.finish _ _ _

theorem step (h : path.Timed initialSample) {action : Action S}
    (hstep : path.step format action = some next) : next.Timed initialSample := by
  cases action with
  | push samples =>
      simp only [OutputPath.step] at hstep
      split at hstep
      · cases hstep
        exact h.beginPush samples
      · cases hstep
  | requestDiscard =>
      simp only [OutputPath.step] at hstep
      split at hstep
      · cases hstep
        exact h.beginRequest
      · cases hstep
  | producer => exact h.stepProducer hstep
  | render length =>
      simp only [OutputPath.step] at hstep
      split at hstep
      · cases hstep
        exact h.beginRender length
      · cases hstep
  | consumer domainEntered => exact h.stepConsumer hstep

end Timed

/-! ## Runs -/

/-- What holds of the path whatever the order of the steps. -/
structure Sound (initialSample : Int) (path : OutputPath S) : Prop where
  guarded : path.Guarded
  accounted : path.Accounted
  timed : path.Timed initialSample

theorem run_sound {format : SampleFormat S T} {initialSample : Int} {path last : OutputPath S}
    {actions : List (Action S)} (h : path.Sound initialSample)
    (hrun : run (step format) path actions = some last) : last.Sound initialSample := by
  have hkeep : ∀ {state next : OutputPath S} {action : Action S}, state.Sound initialSample →
      True → step format state action = some next → next.Sound initialSample := by
    intro state next action hstate _ hstep
    exact {
      guarded := hstate.guarded.step hstep
      accounted := hstate.accounted.step hstate.guarded hstep
      timed := hstate.timed.step hstep }
  exact invariant_of_run hkeep h hrun fun _ _ _ _ _ _ => trivial

/-- The frames that the finished callbacks presented. -/
def presented (path : OutputPath S) : List Nat :=
  path.callbacks.filterMap Callback.frames?

/-- What an output path promises about discontinuities, whatever the order of the steps. -/
structure Delivers (config : OutputBufferConfig) (path : OutputPath S) : Prop where
  /-- What was admitted before a request is not rendered by a callback that observes the request. -/
  neverHeard : ∀ entry observed request, (entry, .rendered observed) ∈ path.tape.settled →
    entry.requested < request → ¬ request ≤ observed
  /-- What was admitted after a request was applied is not dropped by it. -/
  neverDropped : ∀ entry applied requested request,
    (entry, .discarded applied requested) ∈ path.tape.settled →
      request ≤ entry.applied → ¬ (applied < request ∧ request ≤ requested)
  /-- Nothing was admitted but the whole submissions that were accepted. -/
  whole : path.tape.written.map Admitted.sample = path.accepted
  wholeResult : ∀ samples result, (samples, .ok result) ∈ path.writes →
    result = { frames := samples.length / path.channels, samples := samples.length }
  /-- What has met no fate is still in the ring. -/
  queued : path.ring.items = path.tape.waiting.map Admitted.sample
  /-- The device was given exactly the samples that were not dropped, in order. -/
  heard : path.heard = path.tape.shown Fate.image
  /-- The clock went on by the frames presented, save those that would have left its range. -/
  position : path.clock.sample = (path.ticks config.initialSample).1
  refused : path.telemetry.clockErrors = (path.ticks config.initialSample).2 % 2 ^ 64
  /-- While the frames stay in range, none is refused. -/
  advanced : (∀ count ∈ path.presented, (count : Int) ≤ i64Max) →
    config.initialSample + (path.presented.sum : Int) ≤ i64Max →
      path.clock.sample = config.initialSample + (path.presented.sum : Int)

end OutputPath
end Audio
end Superi

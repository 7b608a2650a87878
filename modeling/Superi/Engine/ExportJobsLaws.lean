import Superi.Engine.ExportJobs
import Superi.Lib.Digraph

/-!
# ExportJobsLaws — what every operation of the export queue keeps

A record is sound by itself if its attempt, its result and its failure fit its status.  A queue is
sound if its records are and if what a job has recorded about its prerequisites is what they are.
-/

namespace Superi
namespace Engine

open Core Concurrency Stateful

variable {R : Type}

/-! ## One record -/

/-- What was requested of the attempt that a status owns. -/
def ExportJobStatus.intent? : ExportJobStatus → Option AttemptIntent
  | .queued | .running => some .none
  | .pausing => some .pause
  | .cancelling => some .cancel
  | _ => none

theorem ExportJobStatus.isSome_intent? (status : ExportJobStatus) :
    status.intent?.isSome = status.isActive := by
  cases status <;> rfl

namespace ExportJobRecord

variable {record : ExportJobRecord R}

structure Sound (record : ExportJobRecord R) : Prop where
  active : record.active = record.status.intent?
  result : record.result.isSome = true ↔ record.status = .completed
  failure : record.status = .failed → record.failure ≠ none

/-- The terminal states are the final ones of the snapshot. -/
theorem terminalState_ne_none (h : record.Sound) (jobId : JobId) :
    record.terminalState ≠ none ↔ (record.snapshot jobId).isFinal = true := by
  have hfailure := h.failure
  unfold terminalState ExportJobSnapshot.isFinal snapshot
  cases hstatus : record.status with
  | failed =>
      obtain ⟨error, herror⟩ := Option.ne_none_iff_exists'.1 (hfailure hstatus)
      simp [failedTerminally, failedRetryably, herror]
  | _ => simp

/-- A job with a terminal state has no attempt. -/
theorem active_of_terminal (h : record.Sound) (hterminal : record.terminalState ≠ none) :
    record.active = none := by
  rw [h.active]
  unfold terminalState at hterminal
  cases hstatus : record.status <;> rw [hstatus] at hterminal <;>
    first | rfl | exact absurd rfl hterminal

theorem isUnstarted_of_terminal (hterminal : record.terminalState ≠ none) :
    record.status.isUnstarted = false := by
  unfold terminalState at hterminal
  cases hstatus : record.status <;> rw [hstatus] at hterminal <;>
    first | rfl | exact absurd rfl hterminal

theorem waiting_or_pending (h : record.status.isUnstarted = true) :
    record.status = .waiting ∨ record.status = .pending := by
  cases hstatus : record.status with
  | waiting => exact .inl rfl
  | pending => exact .inr rfl
  | _ => rw [hstatus] at h; cases h

/-! ### Looking at the attempt -/

theorem observe_of_inactive (h : record.active = none) (observation : AttemptObservation R) :
    record.observe observation = (record, false) := by
  unfold observe
  rw [h]

theorem failWith_sound (h : record.active = none) (error : Error) :
    (record.failWith error).Sound where
  active := h
  result := ⟨nofun, nofun⟩
  failure := fun _ => Option.some_ne_none error

theorem block_sound (h : record.active = none) (failures : List JobDependencyFailure) :
    (record.block failures).Sound where
  active := h
  result := ⟨nofun, nofun⟩
  failure := nofun

theorem finishUnrequested_sound (h : record.active = none) (outcome : JobOutcome R) :
    (record.finishUnrequested outcome).Sound := by
  cases outcome with
  | succeeded value => exact ⟨h, ⟨fun _ => rfl, fun _ => rfl⟩, nofun⟩
  | failed error => exact failWith_sound h _
  | cancelled => exact failWith_sound h _
  | deadlineExceeded => exact failWith_sound h _
  | dependencyFailed failure => exact block_sound h _

theorem finishAttempt_sound (h : record.active = none) (outcome : JobOutcome R)
    (intent : AttemptIntent) : (record.finishAttempt outcome intent).Sound := by
  cases intent with
  | none => exact finishUnrequested_sound h outcome
  | pause => exact ⟨h, ⟨nofun, nofun⟩, nofun⟩
  | cancel => exact ⟨h, ⟨nofun, nofun⟩, nofun⟩

theorem finishDisconnected_sound (h : record.active = none) (error : Error)
    (intent : AttemptIntent) : (record.finishDisconnected error intent).Sound := by
  cases intent with
  | none => exact failWith_sound h error
  | pause => exact ⟨h, ⟨nofun, nofun⟩, nofun⟩
  | cancel => exact ⟨h, ⟨nofun, nofun⟩, nofun⟩

theorem observe_sound (h : record.Sound) (observation : AttemptObservation R) :
    (record.observe observation).1.Sound := by
  unfold observe
  split
  · exact h
  · rename_i intent hactive
    cases observation with
    | completed outcome => exact finishAttempt_sound rfl outcome intent
    | disconnected error => exact finishDisconnected_sound rfl _ intent
    | pending started =>
        dsimp only
        split
        · rename_i hstarted
          refine ⟨?_, ?_, nofun⟩
          · rw [h.active, hstarted.2.2]
            rfl
          · have hresult := h.result
            rw [hstarted.2.2] at hresult
            refine ⟨fun hsome => ?_, nofun⟩
            cases hresult.1 hsome
        · exact h

/-- Looking at an attempt changes neither the prerequisites nor the count of attempts. -/
theorem observe_frame (record : ExportJobRecord R) (observation : AttemptObservation R) :
    (record.observe observation).1.dependencies = record.dependencies ∧
      (record.observe observation).1.attempt = record.attempt := by
  unfold observe
  split
  · exact ⟨rfl, rfl⟩
  · rename_i intent _
    cases observation with
    | pending started => dsimp only; split <;> exact ⟨rfl, rfl⟩
    | completed outcome =>
        cases intent with
        | none => cases outcome <;> exact ⟨rfl, rfl⟩
        | pause => exact ⟨rfl, rfl⟩
        | cancel => exact ⟨rfl, rfl⟩
    | disconnected error => cases intent <;> exact ⟨rfl, rfl⟩

/-- Looking at an attempt does not make a job wait for dispatch. -/
theorem isUnstarted_of_observe {observation : AttemptObservation R}
    (h : (record.observe observation).1.status.isUnstarted = true) :
    (record.observe observation).1 = record := by
  unfold observe at h ⊢
  split at h
  · rfl
  · rename_i intent _
    cases observation with
    | pending started =>
        dsimp only at h ⊢
        split at h
        · cases h
        · rw [if_neg ‹_›]
    | completed outcome =>
        cases intent with
        | none => cases outcome <;> cases h
        | pause => cases h
        | cancel => cases h
    | disconnected error => cases intent <;> cases h

/-! ### Prerequisites -/

variable {states : JobId → Option JobTerminalState}

/-- What is recorded about prerequisites is what they are. -/
def Agrees (states : JobId → Option JobTerminalState) (tracker : JobDependencyTracker) : Prop :=
  ∀ dependency state, tracker.recorded dependency = some state → states dependency = some state

/-- Everything that is final is recorded. -/
def Current (states : JobId → Option JobTerminalState) (tracker : JobDependencyTracker) : Prop :=
  ∀ dependency ∈ tracker.dependencies.required, tracker.recorded dependency = states dependency

/-- The outcomes are states of prerequisites. -/
def Reports (states : JobId → Option JobTerminalState) (tracker : JobDependencyTracker)
    (outcomes : List (JobId × JobTerminalState)) : Prop :=
  ∀ outcome ∈ outcomes, outcome.1 ∈ tracker.dependencies.required ∧
    states outcome.1 = some outcome.2

/-- Outcomes that are states of prerequisites never conflict with what is recorded. -/
theorem recordOutcomes_spec {outcomes : List (JobId × JobTerminalState)}
    (hagrees : Agrees states record.dependencies)
    (hreports : Reports states record.dependencies outcomes) :
    Succeeds (recordOutcomes outcomes) record fun _ last => ∃ tracker,
      last = { record with dependencies := tracker } ∧
      tracker.dependencies = record.dependencies.dependencies ∧ Agrees states tracker ∧
      (∀ outcome ∈ outcomes, tracker.recorded outcome.1 = some outcome.2) ∧
      ∀ dependency state, record.dependencies.recorded dependency = some state →
        tracker.recorded dependency = some state := by
  induction outcomes generalizing record with
  | nil =>
      exact .ret ⟨record.dependencies, rfl, rfl, hagrees,
        fun _ hmem => absurd hmem List.not_mem_nil, fun _ _ h => h⟩
  | cons outcome rest ih =>
      obtain ⟨dependency, state⟩ := outcome
      obtain ⟨⟨hrequired, hstate⟩, hrest⟩ := List.forall_mem_cons.1 hreports
      have hsame : ∀ existing, record.dependencies.recorded dependency = some existing →
          existing = state := fun existing hexisting =>
        Option.some.inj ((hagrees _ _ hexisting).symm.trans hstate)
      obtain ⟨tracker, htracker⟩ := JobDependencyTracker.record_succeeds hrequired hsame
      obtain ⟨hdeclared, hself, hothers⟩ := JobDependencyTracker.record_eq_ok htracker
      have hkept : ∀ other found, record.dependencies.recorded other = some found →
          tracker.recorded other = some found := by
        intro other found hfound
        by_cases hother : other = dependency
        · rw [hother] at hfound ⊢
          rw [hself, ← hstate, hagrees _ _ hfound]
        · rw [hothers other hother, hfound]
      have htracks : Agrees states tracker := by
        intro other found hfound
        by_cases hother : other = dependency
        · rw [hother] at hfound ⊢
          rw [hstate, ← hself, hfound]
        · exact hagrees other found (hothers other hother ▸ hfound)
      have hnext : Reports states tracker rest := fun outcome hmem => by
        rw [hdeclared]
        exact hrest outcome hmem
      refine .get (.through (fun value last => value = tracker ∧ last = record)
        (.ofExcept htracker ⟨rfl, rfl⟩) ?_)
      rintro _ _ ⟨rfl, rfl⟩
      refine .put ((ih htracks hnext).mono ?_)
      rintro _ _ ⟨final, rfl, hfinal, hagree, hrecorded, hkeeps⟩
      refine ⟨final, rfl, hfinal.trans hdeclared, hagree, ?_, fun other found hfound =>
        hkeeps other found (hkept other found hfound)⟩
      exact List.forall_mem_cons.2 ⟨hkeeps dependency state hself, hrecorded⟩

/-- Outcomes that are recorded already change nothing. -/
theorem recordOutcomes_again {outcomes : List (JobId × JobTerminalState)}
    (h : ∀ outcome ∈ outcomes, record.dependencies.recorded outcome.1 = some outcome.2) :
    Succeeds (recordOutcomes outcomes) record fun _ last => last = record := by
  induction outcomes with
  | nil => exact .ret rfl
  | cons outcome rest ih =>
      obtain ⟨hfirst, hrest⟩ := List.forall_mem_cons.1 h
      refine .get (.through (fun value last => value = record.dependencies ∧ last = record)
        (.ofExcept (JobDependencyTracker.record_again hfirst) ⟨rfl, rfl⟩) ?_)
      rintro _ _ ⟨rfl, rfl⟩
      exact .put (ih hrest)

/-! ### Refreshing one record -/

/-- A job that is ready to run, or ran before, has only prerequisites that succeeded. -/
def Ripe (record : ExportJobRecord R) : Prop :=
  record.status = .pending ∨ record.attempt ≠ 0 → record.dependencies.status = .ready

/-- What a refresh keeps of a record whose prerequisites are recorded. -/
structure Advanced (record last : ExportJobRecord R) : Prop where
  sound : last.Sound
  dependencies : last.dependencies = record.dependencies
  ripe : last.Ripe
  unfinished : last.status ≠ .completed

/-- A refresh that finds a full pool leaves the record as it is. -/
def Settled (record : ExportJobRecord R) : Prop :=
  (record.status = .waiting ∧ ∃ jobs, record.dependencies.status = .waiting jobs) ∨
    (record.status = .pending ∧ record.dependencies.status = .ready ∧ record.attempt < maxAttempts)

/-- A refresh that changes nothing finds the job settled; one that changes something starts it, ends
it, or finds it newly ready. -/
structure Refreshed (record : ExportJobRecord R) (changes : Nat) (last : ExportJobRecord R) :
    Prop extends Advanced record last where
  idle : changes = 0 → last = record ∧ record.Settled
  busy : changes ≠ 0 → last.status.isUnstarted = false ∨
    (record.status = .waiting ∧ record.dependencies.status = .ready ∧ last.status = .pending)

theorem startAttempt_sound (record : ExportJobRecord R) : record.startAttempt.Sound where
  active := rfl
  result := ⟨nofun, nofun⟩
  failure := nofun

/-- What dispatching does to a pending job. -/
theorem dispatchAttempt_ensures (record : ExportJobRecord R) (hactive : record.active = none)
    (hready : record.dependencies.status = .ready) (answer : PoolAnswer) :
    Ensures (dispatchAttempt answer) record
      (fun dispatched last => record.attempt < maxAttempts ∧
        if dispatched then Advanced record last ∧ last.status.isUnstarted = false else last = record)
      fun last => last = record := by
  refine .get (.check rfl fun hattempt => ?_)
  have hroom : record.attempt < maxAttempts := Nat.lt_of_not_le hattempt
  cases answer with
  | admitted =>
      exact .put (.ret ⟨hroom, ⟨startAttempt_sound record, rfl, fun _ => hready, nofun⟩, rfl⟩)
  | refused error =>
      dsimp only
      split
      · exact .ret ⟨hroom, rfl⟩
      · exact .put (.ret ⟨hroom, ⟨failWith_sound hactive _, rfl, fun _ => hready, nofun⟩, rfl⟩)

/-- What follows from the status of the prerequisites of a waiting or pending job. -/
theorem applyDependencyStatus_ensures (h : record.Sound) (hripe : record.Ripe)
    (hunstarted : record.status.isUnstarted = true) (answer : PoolAnswer) :
    Ensures (applyDependencyStatus answer record.dependencies.status) record
      (Refreshed record) (Advanced record) := by
  have hactive : record.active = none := by
    rw [h.active]
    rcases waiting_or_pending hunstarted with hstatus | hstatus <;> rw [hstatus] <;> rfl
  have hresult : record.result.isSome ≠ true := by
    intro hsome
    rw [h.result.1 hsome] at hunstarted
    cases hunstarted
  cases hdependencies : record.dependencies.status with
  | blocked failures =>
      have hnew : record.attempt = 0 := by
        by_contra hattempt
        have hready := hripe (.inr hattempt)
        rw [hdependencies] at hready
        cases hready
      refine .get (.put (.ret ⟨⟨block_sound hactive failures, rfl, ?_, nofun⟩, nofun, fun _ => .inl rfl⟩))
      exact fun hpast => hpast.elim nofun fun hattempt => absurd hnew hattempt
  | waiting jobs =>
      have hnot : ¬ (record.status = .pending ∨ record.attempt ≠ 0) := by
        intro hpast
        have hready := hripe hpast
        rw [hdependencies] at hready
        cases hready
      have hwaiting : record.status = .waiting :=
        (waiting_or_pending hunstarted).resolve_right fun hpending => hnot (.inl hpending)
      have hsame : { record with status := .waiting } = record := by rw [← hwaiting]
      refine .get (.put (.ret ?_))
      rw [hsame, if_pos hwaiting]
      exact ⟨⟨h, rfl, hripe, hwaiting ▸ nofun⟩, fun _ => ⟨rfl, .inl ⟨hwaiting, jobs, hdependencies⟩⟩,
        fun hzero => absurd rfl hzero⟩
  | ready =>
      have hpending : ({ record with status := .pending } : ExportJobRecord R).Sound :=
        ⟨hactive, ⟨fun hsome => absurd hsome hresult, nofun⟩, nofun⟩
      have hadvanced : Advanced record { record with status := .pending } :=
        ⟨hpending, rfl, fun _ => hdependencies, nofun⟩
      have hdispatch := dispatchAttempt_ensures { record with status := .pending } hactive
        hdependencies answer
      refine .get (.put (.bind (hdispatch.mono (fun _ _ hpost => hpost) ?_) ?_))
      · rintro _ rfl
        exact hadvanced
      rintro dispatched last ⟨hroom, hlast⟩
      cases dispatched with
      | true =>
          obtain ⟨hlast, hstarted⟩ := hlast
          exact .ret ⟨⟨hlast.sound, hlast.dependencies, hlast.ripe, hlast.unfinished⟩,
            fun hzero => by simp at hzero, fun _ => .inl hstarted⟩
      | false =>
          obtain rfl : last = { record with status := .pending } := hlast
          by_cases hwaiting : record.status = .waiting
          · refine .ret ⟨hadvanced, fun hzero => ?_, fun _ => .inr ⟨hwaiting, hdependencies, rfl⟩⟩
            rw [if_pos hwaiting] at hzero
            cases hzero
          · have hstatus := (waiting_or_pending hunstarted).resolve_left hwaiting
            have hsame : { record with status := .pending } = record := by rw [← hstatus]
            refine .ret ⟨hadvanced, fun _ => ⟨hsame, .inr ⟨hstatus, hdependencies, hroom⟩⟩, ?_⟩
            rw [if_neg hwaiting]
            exact fun hzero => absurd rfl hzero

/-- `tracker` has caught up with the prerequisites. -/
structure CaughtUp (states : JobId → Option JobTerminalState) (record : ExportJobRecord R)
    (tracker : JobDependencyTracker) : Prop where
  declared : tracker.dependencies = record.dependencies.dependencies
  agrees : Agrees states tracker
  current : Current states tracker

/-- What a refresh of a waiting or pending job does, given all prerequisites that are final. -/
theorem refreshUnstarted_ensures {outcomes : List (JobId × JobTerminalState)} (h : record.Sound)
    (hripe : record.Ripe) (hunstarted : record.status.isUnstarted = true)
    (hagrees : Agrees states record.dependencies)
    (hreports : Reports states record.dependencies outcomes)
    (hcovers : ∀ dependency ∈ record.dependencies.dependencies.required, ∀ state,
      states dependency = some state → (dependency, state) ∈ outcomes) (answer : PoolAnswer) :
    Ensures (refreshUnstarted answer outcomes) record
      (fun changes last => ∃ tracker, CaughtUp states record tracker ∧
        Refreshed { record with dependencies := tracker } changes last)
      fun last => ∃ tracker, CaughtUp states record tracker ∧
        Advanced { record with dependencies := tracker } last := by
  refine .bind (.of_succeeds (recordOutcomes_spec hagrees hreports)) ?_
  rintro _ _ ⟨tracker, rfl, hdeclared, htracks, hrecorded, hkeeps⟩
  have hcaught : CaughtUp states record tracker := by
    refine ⟨hdeclared, htracks, fun dependency hrequired => ?_⟩
    rw [hdeclared] at hrequired
    cases hstate : states dependency with
    | some state => exact hrecorded _ (hcovers dependency hrequired state hstate)
    | none =>
        cases hfound : tracker.recorded dependency with
        | none => rfl
        | some state => exact absurd (htracks _ _ hfound) (hstate ▸ nofun)
  have hnext : Ripe { record with dependencies := tracker } := by
    intro hpast
    have hready := JobDependencyTracker.status_eq_ready.1 (hripe hpast)
    refine JobDependencyTracker.status_eq_ready.2 fun dependency hrequired => ?_
    exact hkeeps _ _ (hready dependency (hdeclared ▸ hrequired))
  have hsound : Sound { record with dependencies := tracker } := ⟨h.active, h.result, h.failure⟩
  exact .get ((applyDependencyStatus_ensures hsound hnext hunstarted answer).mono
    (fun _ _ hlast => ⟨tracker, hcaught, hlast⟩) fun _ hlast => ⟨tracker, hcaught, hlast⟩)

/-- A full pool leaves a settled job whose prerequisites are recorded as it is. -/
theorem refreshUnstarted_settled {outcomes : List (JobId × JobTerminalState)}
    (h : record.Settled) (hreports : Reports states record.dependencies outcomes)
    (hcurrent : Current states record.dependencies) {error : Error}
    (hfull : error.category = .resourceExhausted) :
    Succeeds (refreshUnstarted (.refused error) outcomes) record
      fun changes last => changes = 0 ∧ last = record := by
  refine .through (fun _ last => last = record) (recordOutcomes_again fun outcome houtcome => ?_) ?_
  · obtain ⟨hrequired, hstate⟩ := hreports outcome houtcome
    rw [hcurrent _ hrequired, hstate]
  rintro _ record rfl
  refine .get ?_
  rcases h with ⟨hstatus, jobs, hwaiting⟩ | ⟨hstatus, hready, hroom⟩
  · rw [hwaiting]
    refine .get (.put (.ret ⟨if_pos hstatus, ?_⟩))
    rw [← hstatus]
  · rw [hready]
    have hsame : { record with status := .pending } = record := by rw [← hstatus]
    refine .get (.put ?_)
    rw [hsame]
    have hrefused : Succeeds (dispatchAttempt (.refused error)) record fun dispatched last =>
        dispatched = false ∧ last = record := by
      refine .get (.passes (Nat.not_le.2 hroom) ?_)
      exact ⟨false, record, by simp only [hfull, if_true]; rfl, rfl, rfl⟩
    refine .through _ hrefused ?_
    rintro _ _ ⟨rfl, rfl⟩
    refine .ret ⟨?_, rfl⟩
    rw [if_neg (hstatus ▸ nofun)]
    rfl

end ExportJobRecord

/-! ## One queue -/

namespace ExportJobQueue

variable {queue last : ExportJobQueue R} {jobId : JobId} {record : ExportJobRecord R}

/-- Only the record of one job is another one. -/
structure Replaces (queue : ExportJobQueue R) (jobId : JobId) (record : ExportJobRecord R)
    (last : ExportJobQueue R) : Prop where
  config : last.config = queue.config
  self : last.jobs[jobId]? = some record
  others : ∀ other, other ≠ jobId → last.jobs[other]? = queue.jobs[other]?

theorem change_replaces {old : ExportJobRecord R} (h : queue.jobs[jobId]? = some old)
    (f : ExportJobRecord R → ExportJobRecord R) :
    Replaces queue jobId (f old) (queue.change jobId f) where
  config := rfl
  self := by rw [change, Keyed.getElem?_modify_eq, if_pos rfl, h]; rfl
  others := fun other hother => by rw [change, Keyed.getElem?_modify_eq, if_neg hother]

/-- A job names another one as a prerequisite. -/
def DependsOn (queue : ExportJobQueue R) (dependent dependency : JobId) : Prop :=
  ∃ record, queue.jobs[dependent]? = some record ∧
    dependency ∈ record.dependencies.dependencies.required

structure Sound (queue : ExportJobQueue R) : Prop where
  records : ∀ (jobId : JobId) (record : ExportJobRecord R),
    queue.jobs[jobId]? = some record → record.Sound
  owners : ∀ (jobId : JobId) (record : ExportJobRecord R),
    queue.jobs[jobId]? = some record →
    record.dependencies.dependencies.owner = jobId
  retained : ∀ dependent dependency, queue.DependsOn dependent dependency → dependency ∈ queue.jobs
  acyclic : Digraph.Acyclic queue.DependsOn
  agrees : ∀ (jobId : JobId) (record : ExportJobRecord R),
    queue.jobs[jobId]? = some record →
    ExportJobRecord.Agrees queue.logicalTerminalState record.dependencies
  ripe : ∀ (jobId : JobId) (record : ExportJobRecord R),
    queue.jobs[jobId]? = some record → record.Ripe

theorem finalized_reports (queue : ExportJobQueue R) (record : ExportJobRecord R) :
    ExportJobRecord.Reports queue.logicalTerminalState record.dependencies
      (queue.finalized record) := by
  intro outcome houtcome
  obtain ⟨dependency, hrequired, hfound⟩ := List.mem_filterMap.1 houtcome
  obtain ⟨state, hstate, rfl⟩ := Option.map_eq_some_iff.1 hfound
  exact ⟨Std.ExtTreeSet.mem_toList.1 hrequired, hstate⟩

theorem finalized_covers (queue : ExportJobQueue R) (record : ExportJobRecord R) :
    ∀ dependency ∈ record.dependencies.dependencies.required, ∀ state,
      queue.logicalTerminalState dependency = some state →
        (dependency, state) ∈ queue.finalized record := by
  intro dependency hrequired state hstate
  refine List.mem_filterMap.2 ⟨dependency, Std.ExtTreeSet.mem_toList.2 hrequired, ?_⟩
  rw [hstate]
  rfl

/-- What every call that removes nothing does to a sound queue. -/
structure Evolves (queue last : ExportJobQueue R) : Prop where
  sound : last.Sound
  config : last.config = queue.config
  retained : ∀ jobId, jobId ∈ queue.jobs → jobId ∈ last.jobs
  /-- Final jobs do not change any more. -/
  keeps : ∀ (jobId : JobId) (record : ExportJobRecord R), queue.jobs[jobId]? = some record →
    record.terminalState ≠ none → last.jobs[jobId]? = some record

theorem Evolves.refl (h : queue.Sound) : Evolves queue queue :=
  ⟨h, rfl, fun _ hmem => hmem, fun _ _ hrecord _ => hrecord⟩

theorem Evolves.trans {mid : ExportJobQueue R} (h : Evolves queue mid) (h' : Evolves mid last) :
    Evolves queue last where
  sound := h'.sound
  config := h'.config.trans h.config
  retained := fun jobId hmem => h'.retained jobId (h.retained jobId hmem)
  keeps := fun jobId record hrecord hterminal =>
    h'.keeps jobId record (h.keeps jobId record hrecord hterminal) hterminal

theorem mem_jobs : jobId ∈ queue.jobs ↔ ∃ record, queue.jobs[jobId]? = some record := by
  rw [← Std.ExtTreeMap.isSome_getElem?_iff_mem, Option.isSome_iff_exists]

/-- What became of final jobs is not rewritten. -/
theorem logicalTerminalState_mono
    (h : ∀ (jobId : JobId) (record : ExportJobRecord R), queue.jobs[jobId]? = some record →
      record.terminalState ≠ none → last.jobs[jobId]? = some record)
    {state : JobTerminalState} (hstate : queue.logicalTerminalState jobId = some state) :
    last.logicalTerminalState jobId = some state := by
  obtain ⟨record, hrecord, hterminal⟩ := Option.bind_eq_some_iff.1 hstate
  have hsame := h jobId record hrecord (hterminal ▸ Option.some_ne_none state)
  rw [logicalTerminalState, hsame]
  exact hterminal

/-- A queue whose records changed one by one, each as a sound record may, is sound again. -/
theorem Sound.evolve (h : queue.Sound) (hconfig : last.config = queue.config)
    (hforth : ∀ (jobId : JobId) (old : ExportJobRecord R), queue.jobs[jobId]? = some old →
      ∃ record, last.jobs[jobId]? = some record ∧
        (old.terminalState ≠ none → record = old))
    (hback : ∀ (jobId : JobId) (record : ExportJobRecord R), last.jobs[jobId]? = some record →
      ∃ old, queue.jobs[jobId]? = some old ∧ record.Sound ∧ record.Ripe ∧
        record.dependencies.dependencies = old.dependencies.dependencies ∧
        ExportJobRecord.Agrees queue.logicalTerminalState record.dependencies) :
    Evolves queue last := by
  have hkeeps : ∀ (jobId : JobId) (record : ExportJobRecord R), queue.jobs[jobId]? = some record →
      record.terminalState ≠ none → last.jobs[jobId]? = some record := by
    intro jobId record hrecord hterminal
    obtain ⟨next, hnext, hsame⟩ := hforth jobId record hrecord
    rw [hnext, hsame hterminal]
  have hdepends : ∀ a b, last.DependsOn a b → queue.DependsOn a b := by
    rintro a b ⟨record, hrecord, hmem⟩
    obtain ⟨old, hold, -, -, hdeclared, -⟩ := hback a record hrecord
    exact ⟨old, hold, hdeclared ▸ hmem⟩
  have hretained : ∀ jobId, jobId ∈ queue.jobs → jobId ∈ last.jobs := by
    intro jobId hmem
    obtain ⟨old, hold⟩ := mem_jobs.1 hmem
    obtain ⟨record, hrecord, -⟩ := hforth jobId old hold
    exact mem_jobs.2 ⟨record, hrecord⟩
  refine ⟨⟨?_, ?_, ?_, ?_, ?_, ?_⟩, hconfig, hretained, hkeeps⟩
  · intro jobId record hrecord
    obtain ⟨_, _, hsound, _⟩ := hback jobId record hrecord
    exact hsound
  · intro jobId record hrecord
    obtain ⟨old, hold, -, -, hdeclared, -⟩ := hback jobId record hrecord
    rw [hdeclared, h.owners jobId old hold]
  · intro a b hab
    exact hretained b (h.retained a b (hdepends a b hab))
  · exact h.acyclic.mono hdepends
  · intro jobId record hrecord dependency state hstate
    obtain ⟨_, _, -, -, -, hagrees⟩ := hback jobId record hrecord
    exact logicalTerminalState_mono hkeeps (hagrees dependency state hstate)
  · intro jobId record hrecord
    obtain ⟨_, _, -, hripe, -, -⟩ := hback jobId record hrecord
    exact hripe

/-- One record is replaced. -/
theorem Sound.replace {old : ExportJobRecord R} (h : queue.Sound)
    (hold : queue.jobs[jobId]? = some old) (hreplaces : Replaces queue jobId record last)
    (hsound : record.Sound) (hripe : record.Ripe)
    (hdeclared : record.dependencies.dependencies = old.dependencies.dependencies)
    (hagrees : ExportJobRecord.Agrees queue.logicalTerminalState record.dependencies)
    (hfinal : old.terminalState ≠ none → record = old) : Evolves queue last := by
  refine h.evolve hreplaces.config (fun other found hfound => ?_) fun other found hfound => ?_
  · by_cases hother : other = jobId
    · subst hother
      rw [hold] at hfound
      cases hfound
      exact ⟨record, hreplaces.self, hfinal⟩
    · exact ⟨found, (hreplaces.others other hother).trans hfound, fun _ => rfl⟩
  · by_cases hother : other = jobId
    · subst hother
      rw [hreplaces.self] at hfound
      cases hfound
      exact ⟨old, hold, hsound, hripe, hdeclared, hagrees⟩
    · rw [hreplaces.others other hother] at hfound
      exact ⟨found, hfound, h.records other found hfound, h.ripe other found hfound, rfl,
        h.agrees other found hfound⟩

end ExportJobQueue

/-! ## Refreshing -/

section Refresh

variable {queue : ExportJobQueue R}

/-- A call that leaves every sound queue sound, and its final jobs as they are. -/
def Safe {α : Type} (call : ExportQueueM R α) : Prop :=
  ∀ queue : ExportJobQueue R, queue.Sound →
    Ensures call queue (fun _ last => queue.Evolves last) queue.Evolves

namespace Safe

variable {α β : Type}

theorem bind {call : ExportQueueM R α} {next : α → ExportQueueM R β} (h : Safe call)
    (hnext : ∀ value, Safe (next value)) : Safe (call >>= next) := by
  intro queue hsound
  refine .bind (h queue hsound) fun value mid hmid => ?_
  exact (hnext value mid hmid.sound).mono (fun _ _ hlast => hmid.trans hlast)
    fun _ hlast => hmid.trans hlast

theorem get {next : ExportJobQueue R → ExportQueueM R β}
    (h : ∀ queue : ExportJobQueue R, queue.Sound →
      Ensures (next queue) queue (fun _ last => queue.Evolves last) queue.Evolves) :
    Safe (MonadState.get >>= next) :=
  fun queue hsound => .get (h queue hsound)

end Safe

/-- A call on one record changes that record only. -/
theorem onRecord_ensures {α : Type} {jobId : JobId} {record : ExportJobRecord R}
    {call : ExportJobM R α} {post : α → ExportJobRecord R → Prop} {fault : ExportJobRecord R → Prop}
    (hrecord : queue.jobs[jobId]? = some record) (h : Ensures call record post fault) :
    Ensures (onRecord jobId call record) queue
      (fun value last => ∃ next, queue.Replaces jobId next last ∧ post value next)
      fun last => ∃ next, queue.Replaces jobId next last ∧ fault next := by
  unfold Ensures at h ⊢
  unfold onRecord
  cases hcall : call record with
  | ok value next =>
      rw [hcall] at h
      exact ⟨next, ExportJobQueue.change_replaces hrecord fun _ => next, h⟩
  | error error next =>
      rw [hcall] at h
      exact ⟨next, ExportJobQueue.change_replaces hrecord fun _ => next, h⟩

/-- What a refresh of one job does to its record. -/
theorem refreshJob_ensures (h : queue.Sound) {jobId : JobId} {record : ExportJobRecord R}
    (hrecord : queue.jobs[jobId]? = some record) (hunstarted : record.status.isUnstarted = true)
    (answer : PoolAnswer) :
    Ensures (refreshJob answer jobId) queue
      (fun changes last => ∃ tracker next, queue.Replaces jobId next last ∧
        ExportJobRecord.CaughtUp queue.logicalTerminalState record tracker ∧
        ExportJobRecord.Refreshed { record with dependencies := tracker } changes next)
      fun last => ∃ tracker next, queue.Replaces jobId next last ∧
        ExportJobRecord.CaughtUp queue.logicalTerminalState record tracker ∧
        ExportJobRecord.Advanced { record with dependencies := tracker } next := by
  refine .get ?_
  rw [hrecord]
  dsimp only
  rw [if_pos hunstarted]
  refine (onRecord_ensures hrecord (ExportJobRecord.refreshUnstarted_ensures
    (h.records jobId record hrecord) (h.ripe jobId record hrecord) hunstarted
    (h.agrees jobId record hrecord) (queue.finalized_reports record)
    (queue.finalized_covers record) answer)).mono ?_ ?_
  · rintro changes last ⟨next, hreplaces, tracker, hcaught, hrefreshed⟩
    exact ⟨tracker, next, hreplaces, hcaught, hrefreshed⟩
  · rintro last ⟨next, hreplaces, tracker, hcaught, hadvanced⟩
    exact ⟨tracker, next, hreplaces, hcaught, hadvanced⟩

/-- A job that is not waiting for dispatch is passed over. -/
theorem refreshJob_passes {jobId : JobId} (answer : PoolAnswer)
    (h : ∀ record : ExportJobRecord R, queue.jobs[jobId]? = some record →
      record.status.isUnstarted = false) :
    Succeeds (refreshJob answer jobId) queue fun changes last => changes = 0 ∧ last = queue := by
  refine .get ?_
  cases hrecord : queue.jobs[jobId]? with
  | none => exact .ret ⟨rfl, rfl⟩
  | some record =>
      dsimp only
      rw [if_neg (by rw [h record hrecord]; exact Bool.false_ne_true)]
      exact .ret ⟨rfl, rfl⟩

/-- The number of jobs that are waiting for dispatch. -/
def ExportJobQueue.unstarted (queue : ExportJobQueue R) : Nat :=
  queue.jobs.toList.countP fun (_, record) => record.status.isUnstarted

/-- If the job waits, one of its prerequisites has not succeeded. -/
def ExportJobQueue.Unready (queue : ExportJobQueue R) (jobId : JobId) : Prop :=
  ∀ record : ExportJobRecord R, queue.jobs[jobId]? = some record → record.status = .waiting →
    ∃ dependency ∈ record.dependencies.dependencies.required,
      queue.logicalTerminalState dependency ≠ some .succeeded

/-- If the job is waiting for dispatch, a refresh that finds a full pool changes nothing. -/
def ExportJobQueue.SettledAt (queue : ExportJobQueue R) (jobId : JobId) : Prop :=
  ∀ record : ExportJobRecord R, queue.jobs[jobId]? = some record →
    record.status.isUnstarted = true → record.Settled ∧
      ExportJobRecord.Current queue.logicalTerminalState record.dependencies

/-- What refreshing some jobs, one after the other, does to a sound queue. -/
structure Swept (queue : ExportJobQueue R) (jobIds : List JobId) (changes : Nat)
    (last : ExportJobQueue R) : Prop extends queue.Evolves last where
  unready : ∀ jobId, jobId ∈ jobIds ∨ queue.Unready jobId → last.Unready jobId
  fewer : last.unstarted ≤ queue.unstarted
  /-- Where no waiting job is ready, a change starts a job or ends it. -/
  busy : (∀ jobId, queue.Unready jobId) → changes ≠ 0 → last.unstarted < queue.unstarted
  idle : changes = 0 → ∀ jobId, jobId ∈ jobIds ∨ queue.SettledAt jobId → last.SettledAt jobId

namespace Swept

theorem nil (h : queue.Sound) : Swept queue [] 0 queue where
  toEvolves := .refl h
  unready := fun _ hjob => hjob.resolve_left List.not_mem_nil
  fewer := Nat.le_refl _
  busy := fun _ hzero => absurd rfl hzero
  idle := fun _ _ hjob => hjob.resolve_left List.not_mem_nil

/-- One sweep after another. -/
theorem append {mid last : ExportJobQueue R} {jobIds rest : List JobId} {changes more : Nat}
    (h : Swept queue jobIds changes mid) (h' : Swept mid rest more last) :
    Swept queue (jobIds ++ rest) (changes + more) last where
  toEvolves := h.toEvolves.trans h'.toEvolves
  unready := by
    intro jobId hjob
    rw [List.mem_append, or_assoc] at hjob
    rcases hjob with hfirst | hrest | hbefore
    · exact h'.unready jobId (.inr (h.unready jobId (.inl hfirst)))
    · exact h'.unready jobId (.inl hrest)
    · exact h'.unready jobId (.inr (h.unready jobId (.inr hbefore)))
  fewer := h'.fewer.trans h.fewer
  busy := by
    intro hunready hchanged
    have hmid : ∀ jobId, mid.Unready jobId := fun jobId => h.unready jobId (.inr (hunready jobId))
    by_cases hfirst : changes = 0
    · have hmore : more ≠ 0 := by omega
      exact Nat.lt_of_lt_of_le (h'.busy hmid hmore) h.fewer
    · exact Nat.lt_of_le_of_lt h'.fewer (h.busy hunready hfirst)
  idle := by
    intro hzero jobId hjob
    have hfirst : changes = 0 := by omega
    have hmore : more = 0 := by omega
    rw [List.mem_append, or_assoc] at hjob
    rcases hjob with hmem | hrest | hbefore
    · exact h'.idle hmore jobId (.inr (h.idle hfirst jobId (.inl hmem)))
    · exact h'.idle hmore jobId (.inl hrest)
    · exact h'.idle hmore jobId (.inr (h.idle hfirst jobId (.inr hbefore)))

/-- A job that is passed over. -/
theorem passed {jobId : JobId} (h : queue.Sound)
    (hpassed : ∀ record : ExportJobRecord R, queue.jobs[jobId]? = some record →
      record.status.isUnstarted = false) : Swept queue [jobId] 0 queue where
  toEvolves := .refl h
  unready := by
    rintro other (hself | hother)
    · obtain rfl := List.mem_singleton.1 hself
      intro record hrecord hwaiting
      have hstarted := hpassed record hrecord
      rw [hwaiting] at hstarted
      cases hstarted
    · exact hother
  fewer := Nat.le_refl _
  busy := fun _ hzero => absurd rfl hzero
  idle := by
    rintro - other (hself | hother)
    · obtain rfl := List.mem_singleton.1 hself
      intro record hrecord hunstarted
      rw [hpassed record hrecord] at hunstarted
      cases hunstarted
    · exact hother

end Swept

/-- The count of jobs waiting for dispatch, with one job apart. -/
theorem unstarted_eq {jobId : JobId} {record : ExportJobRecord R}
    (h : queue.jobs[jobId]? = some record) :
    queue.unstarted = (if record.status.isUnstarted then 1 else 0) +
      (queue.jobs.erase jobId).toList.countP fun (_, record) => record.status.isUnstarted := by
  rw [ExportJobQueue.unstarted, (Keyed.toList_perm_of_getElem? h).countP_eq, List.countP_cons,
    Nat.add_comm]

theorem unstarted_replaced {last : ExportJobQueue R} {jobId : JobId} {record next : ExportJobRecord R}
    (hrecord : queue.jobs[jobId]? = some record) (hunstarted : record.status.isUnstarted = true)
    (hreplaces : queue.Replaces jobId next last) :
    last.unstarted + (if next.status.isUnstarted then 0 else 1) = queue.unstarted := by
  have hothers : last.jobs.erase jobId = queue.jobs.erase jobId := by
    refine Std.ExtTreeMap.ext_getElem? fun other => ?_
    rw [Keyed.getElem?_erase_eq, Keyed.getElem?_erase_eq]
    split
    · rfl
    · exact hreplaces.others other ‹_›
  rw [unstarted_eq hrecord, unstarted_eq hreplaces.self, hothers, if_pos hunstarted]
  split <;> omega

/-- A job that is not completed has not succeeded. -/
theorem terminalState_ne_succeeded {record : ExportJobRecord R} (h : record.status ≠ .completed) :
    record.terminalState ≠ some .succeeded := by
  unfold ExportJobRecord.terminalState
  cases hstatus : record.status with
  | completed => exact absurd hstatus h
  | failed => dsimp only; split <;> nofun
  | _ => nofun

/-- One job of a refresh pass. -/
theorem refreshJob_swept (h : queue.Sound) (answer : PoolAnswer) (jobId : JobId) :
    Ensures (refreshJob answer jobId) queue (Swept queue [jobId]) queue.Evolves := by
  by_cases hpassed : ∀ record : ExportJobRecord R, queue.jobs[jobId]? = some record →
      record.status.isUnstarted = false
  · refine .of_succeeds ((refreshJob_passes answer hpassed).mono ?_)
    rintro _ last ⟨rfl, rfl⟩
    exact .passed h hpassed
  push Not at hpassed
  obtain ⟨record, hrecord, hunstarted⟩ := hpassed
  rw [ne_eq, Bool.not_eq_false] at hunstarted
  have hevolves : ∀ {tracker : JobDependencyTracker} {next : ExportJobRecord R}
      {last : ExportJobQueue R}, queue.Replaces jobId next last →
      ExportJobRecord.CaughtUp queue.logicalTerminalState record tracker →
      ExportJobRecord.Advanced { record with dependencies := tracker } next →
      queue.Evolves last := by
    intro tracker next last hreplaces hcaught hnext
    have htracker : next.dependencies = tracker := hnext.dependencies
    refine h.replace hrecord hreplaces hnext.sound hnext.ripe ?_ ?_ ?_
    · rw [htracker, hcaught.declared]
    · rw [htracker]
      exact hcaught.agrees
    · intro hterminal
      rw [ExportJobRecord.isUnstarted_of_terminal hterminal] at hunstarted
      cases hunstarted
  refine (refreshJob_ensures h hrecord hunstarted answer).mono ?_ ?_
  · rintro changes last ⟨tracker, next, hreplaces, hcaught, hnext⟩
    have htracker : next.dependencies = tracker := hnext.dependencies
    have hcount := unstarted_replaced hrecord hunstarted hreplaces
    -- no prerequisite succeeds during a refresh
    have hsucceeded : ∀ dependency, queue.logicalTerminalState dependency ≠ some .succeeded →
        last.logicalTerminalState dependency ≠ some .succeeded := by
      intro dependency hnot
      by_cases hself : dependency = jobId
      · rw [hself, ExportJobQueue.logicalTerminalState, hreplaces.self]
        exact terminalState_ne_succeeded hnext.unfinished
      · rwa [ExportJobQueue.logicalTerminalState, hreplaces.others dependency hself]
    refine ⟨hevolves hreplaces hcaught hnext.toAdvanced, ?_, ?_, ?_, ?_⟩
    · intro other hother found hfound hwaiting
      by_cases hself : other = jobId
      · rw [hself, hreplaces.self] at hfound
        cases hfound
        have hzero : changes = 0 := by
          by_contra hchanged
          rcases hnext.busy hchanged with hstarted | ⟨-, -, hpending⟩
          · rw [hwaiting] at hstarted
            cases hstarted
          · rw [hwaiting] at hpending
            cases hpending
        obtain ⟨hsame, hsettled⟩ := hnext.idle hzero
        rw [hsame] at hwaiting
        have hnotready : tracker.status ≠ .ready := by
          rcases hsettled with ⟨-, jobs, hstatus⟩ | ⟨hpending, -⟩
          · exact hstatus ▸ nofun
          · rw [hwaiting] at hpending
            cases hpending
        by_contra hall
        push Not at hall
        refine hnotready (JobDependencyTracker.status_eq_ready.2 fun dependency hrequired => ?_)
        rw [hcaught.current dependency hrequired]
        by_contra hnot
        refine hsucceeded dependency hnot (hall dependency ?_)
        rwa [htracker]
      · have hunready := (hother.resolve_left fun hmem => hself (List.mem_singleton.1 hmem)) found
        rw [hreplaces.others other hself] at hfound
        obtain ⟨dependency, hrequired, hnot⟩ := hunready hfound hwaiting
        exact ⟨dependency, hrequired, hsucceeded dependency hnot⟩
    · split at hcount <;> omega
    · intro hunready hchanged
      rcases hnext.busy hchanged with hstarted | ⟨hwaiting, hready, -⟩
      · rw [hstarted] at hcount
        simp only [Bool.false_eq_true, if_false] at hcount
        omega
      · obtain ⟨dependency, hrequired, hnot⟩ := hunready jobId record hrecord hwaiting
        rw [← hcaught.declared] at hrequired
        have hrecorded := JobDependencyTracker.status_eq_ready.1 hready dependency hrequired
        exact absurd (hcaught.agrees dependency _ hrecorded) hnot
    · intro hzero other hother found hfound hfoundUnstarted
      obtain ⟨hsame, hsettled⟩ := hnext.idle hzero
      have hstates : last.logicalTerminalState = queue.logicalTerminalState := by
        funext dependency
        by_cases hself : dependency = jobId
        · rw [hself, ExportJobQueue.logicalTerminalState, hreplaces.self, hsame,
            ExportJobQueue.logicalTerminalState, hrecord]
          rfl
        · rw [ExportJobQueue.logicalTerminalState, hreplaces.others dependency hself]
          rfl
      rw [hstates]
      by_cases hself : other = jobId
      · rw [hself, hreplaces.self] at hfound
        cases hfound
        rw [hsame]
        exact ⟨hsettled, hcaught.current⟩
      · rw [hreplaces.others other hself] at hfound
        exact hother.resolve_left (fun hmem => hself (List.mem_singleton.1 hmem)) found hfound
          hfoundUnstarted
  · rintro last ⟨tracker, next, hreplaces, hcaught, hnext⟩
    exact hevolves hreplaces hcaught hnext

/-- A refresh pass over some jobs. -/
theorem refreshPass_swept (answers : JobId → PoolAnswer) (jobIds : List JobId) (h : queue.Sound) :
    Ensures (refreshPass answers jobIds) queue (Swept queue jobIds) queue.Evolves := by
  induction jobIds generalizing queue with
  | nil => exact .ret (.nil h)
  | cons jobId rest ih =>
      refine .bind (refreshJob_swept h (answers jobId) jobId) fun changes mid hmid => ?_
      have hrest := (ih hmid.sound).mono (fun _ _ hlast => hlast) fun _ hlast =>
        hmid.toEvolves.trans hlast
      exact .bind hrest fun more last hlast => .ret (hmid.append hlast)

/-- No refresh that finds a full pool changes anything any more. -/
def ExportJobQueue.Stable (queue : ExportJobQueue R) : Prop :=
  ∀ jobId, queue.SettledAt jobId

/-- A pass over all jobs that changes nothing leaves a stable queue. -/
theorem Swept.stable {last : ExportJobQueue R} (h : Swept queue queue.jobs.keys 0 last) :
    last.Stable := by
  intro jobId
  by_cases hmem : jobId ∈ queue.jobs.keys
  · exact h.idle rfl jobId (.inl hmem)
  · refine h.idle rfl jobId (.inr fun record hrecord => ?_)
    exact absurd (Std.ExtTreeMap.mem_keys.2 (Keyed.mem_of_getElem?_eq_some hrecord)) hmem

/-- After a pass over all jobs no waiting job is ready. -/
theorem Swept.unready_all {last : ExportJobQueue R} {changes : Nat}
    (h : Swept queue queue.jobs.keys changes last) (jobId : JobId) : last.Unready jobId := by
  by_cases hmem : jobId ∈ queue.jobs.keys
  · exact h.unready jobId (.inl hmem)
  · refine h.unready jobId (.inr fun record hrecord => ?_)
    exact absurd (Std.ExtTreeMap.mem_keys.2 (Keyed.mem_of_getElem?_eq_some hrecord)) hmem

theorem stable_of_unstarted (h : queue.unstarted = 0) : queue.Stable := by
  intro jobId record hrecord hunstarted
  rw [unstarted_eq hrecord, if_pos hunstarted] at h
  omega

/-- Where no waiting job is ready, every pass that changes something starts a job or ends it, so as
many passes as there are jobs to dispatch leave a stable queue. -/
theorem refreshPasses_stable (answers : Admissions) (fuel pass : Nat) (h : queue.Sound)
    (hunready : ∀ jobId, queue.Unready jobId) (hfuel : queue.unstarted ≤ fuel) :
    Ensures (refreshPasses answers fuel pass) queue
      (fun _ last => queue.Evolves last ∧ last.Stable) queue.Evolves := by
  induction fuel generalizing queue pass with
  | zero => exact .ret ⟨.refl h, stable_of_unstarted (Nat.le_zero.1 hfuel)⟩
  | succ fuel ih =>
      refine .get (.bind (refreshPass_swept (answers pass) queue.jobs.keys h) ?_)
      intro changes mid hmid
      by_cases hzero : changes = 0
      · rw [if_pos hzero]
        rw [hzero] at hmid
        exact .ret ⟨hmid.toEvolves, hmid.stable⟩
      · rw [if_neg hzero]
        have hfewer := hmid.busy hunready hzero
        have hrest := ih (pass + 1) hmid.sound hmid.unready_all (by omega)
        refine .bind (hrest.mono (fun _ _ hlast => hlast) fun _ hlast =>
          hmid.toEvolves.trans hlast) ?_
        rintro more last ⟨hevolves, hstable⟩
        exact .ret ⟨hmid.toEvolves.trans hevolves, hstable⟩

/-- `refresh_until_stable` deserves its name. -/
theorem refreshUntilStable_stable (answers : Admissions) (h : queue.Sound) :
    Ensures (refreshUntilStable answers) queue
      (fun _ last => queue.Evolves last ∧ last.Stable) queue.Evolves := by
  refine .get (.get (.bind (refreshPass_swept (answers 0) queue.jobs.keys h) ?_))
  intro changes mid hmid
  by_cases hzero : changes = 0
  · rw [if_pos hzero]
    rw [hzero] at hmid
    exact .ret ⟨hmid.toEvolves, hmid.stable⟩
  · rw [if_neg hzero]
    have hfuel : mid.unstarted ≤ queue.jobs.size := by
      refine hmid.fewer.trans ?_
      rw [← Std.ExtTreeMap.length_toList]
      exact List.countP_le_length
    have hrest := refreshPasses_stable answers queue.jobs.size 1 hmid.sound hmid.unready_all hfuel
    refine .bind (hrest.mono (fun _ _ hlast => hlast) fun _ hlast =>
      hmid.toEvolves.trans hlast) ?_
    rintro more last ⟨hevolves, hstable⟩
    exact .ret ⟨hmid.toEvolves.trans hevolves, hstable⟩

theorem change_same {jobId : JobId} {record : ExportJobRecord R}
    (h : queue.jobs[jobId]? = some record) : queue.change jobId (fun _ => record) = queue := by
  have hsame : queue.jobs.modify jobId (fun _ => record) = queue.jobs := by
    refine Std.ExtTreeMap.ext_getElem? fun other => ?_
    rw [Keyed.getElem?_modify_eq]
    split
    · rename_i hself
      rw [hself, h]
      rfl
    · rfl
  rw [ExportJobQueue.change, hsame]

/-- A full pool leaves a stable queue as it is. -/
theorem refreshPass_stable (h : queue.Stable) {answers : JobId → PoolAnswer}
    (hfull : ∀ jobId, ∃ error : Error, answers jobId = .refused error ∧
      error.category = .resourceExhausted) (jobIds : List JobId) :
    Succeeds (refreshPass answers jobIds) queue fun changes last => changes = 0 ∧ last = queue := by
  induction jobIds with
  | nil => exact .ret ⟨rfl, rfl⟩
  | cons jobId rest ih =>
      have hjob : Succeeds (refreshJob (answers jobId) jobId) queue
          fun changes last => changes = 0 ∧ last = queue := by
        refine .get ?_
        cases hrecord : queue.jobs[jobId]? with
        | none => exact .ret ⟨rfl, rfl⟩
        | some record =>
            dsimp only
            split
            · rename_i hunstarted
              obtain ⟨hsettled, hcurrent⟩ := h jobId record hrecord hunstarted
              obtain ⟨error, hanswer, hexhausted⟩ := hfull jobId
              obtain ⟨changes, last, hcall, rfl, rfl⟩ := ExportJobRecord.refreshUnstarted_settled
                hsettled (queue.finalized_reports record) hcurrent hexhausted
              refine ⟨0, queue.change jobId fun _ => last, ?_, rfl, change_same hrecord⟩
              rw [onRecord, hanswer, hcall]
            · exact .ret ⟨rfl, rfl⟩
      refine .through _ hjob ?_
      rintro _ _ ⟨rfl, rfl⟩
      refine .through _ ih ?_
      rintro _ _ ⟨rfl, rfl⟩
      exact .ret ⟨rfl, rfl⟩

end Refresh

end Engine
end Superi

import Superi.Engine.ExportJobsLaws

/-!
# ExportJobsRuns — the export queue over whole runs

Every operation of the queue keeps it sound and leaves final jobs alone; those that end with a
refresh leave a queue that no further refresh changes.  From there the dependency contract holds in
every state that any sequence of calls reaches.
-/

namespace Superi
namespace Engine

open Core Concurrency Stateful

variable {R : Type}

/-! ## Operations -/

section Operations

variable {queue : ExportJobQueue R} {jobId : JobId}

theorem snapshotJob_safe (operation : String) (jobId : JobId) :
    Safe (snapshotJob operation jobId : ExportQueueM R ExportJobSnapshot) := by
  refine .get fun queue h => ?_
  cases queue.jobs[jobId]? with
  | none => exact .raised (.refl h)
  | some record => exact .ret (.refl h)

/-- What polling the attempts does to the records. -/
theorem observed_evolves (h : queue.Sound) (attempts : JobId → AttemptObservation R) :
    queue.Evolves { queue with
      jobs := queue.jobs.map fun jobId (record : ExportJobRecord R) =>
        (record.observe (attempts jobId)).1 } := by
  refine h.evolve rfl (fun jobId record hrecord => ?_) fun jobId next hnext => ?_
  · refine ⟨(record.observe (attempts jobId)).1, ?_, fun hterminal => ?_⟩
    · rw [Std.ExtTreeMap.getElem?_map, hrecord]
      rfl
    · have hinactive := ExportJobRecord.active_of_terminal (h.records jobId record hrecord) hterminal
      rw [ExportJobRecord.observe_of_inactive hinactive]
  · rw [Std.ExtTreeMap.getElem?_map] at hnext
    obtain ⟨record, hrecord, rfl⟩ := Option.map_eq_some_iff.1 hnext
    obtain ⟨hdependencies, hattempt⟩ := record.observe_frame (attempts jobId)
    refine ⟨record, hrecord, ExportJobRecord.observe_sound (h.records jobId record hrecord) _, ?_,
      ?_, ?_⟩
    · intro hpast
      rw [hdependencies]
      refine h.ripe jobId record hrecord (hpast.imp (fun hpending => ?_) fun hstarted => ?_)
      · rwa [ExportJobRecord.isUnstarted_of_observe (by rw [hpending]; rfl)] at hpending
      · rwa [hattempt] at hstarted
    · rw [hdependencies]
    · rw [hdependencies]
      exact h.agrees jobId record hrecord

/-- A poll leaves a stable queue. -/
theorem pollJobs_stable (news : QueueNews R) (h : queue.Sound) :
    Ensures (pollJobs news) queue (fun _ last => queue.Evolves last ∧ last.Stable)
      queue.Evolves := by
  have hobserved := observed_evolves h news.attempts
  refine .get (.put (.bind ((refreshUntilStable_stable news.admissions hobserved.sound).mono
    (fun _ _ hlast => hlast) fun _ hlast => hobserved.trans hlast) ?_))
  rintro more last ⟨hevolves, hstable⟩
  exact .ret ⟨hobserved.trans hevolves, hstable⟩

theorem pollJobs_safe (news : QueueNews R) : Safe (pollJobs news) := fun _ h =>
  (pollJobs_stable news h).mono (fun _ _ hlast => hlast.1) fun _ hlast => hlast

theorem retainedJob_ensures (queue : ExportJobQueue R) (operation : String) (jobId : JobId) :
    Ensures (retainedJob operation jobId) queue
      (fun record last => last = queue ∧ queue.jobs[jobId]? = some record)
      fun last => last = queue := by
  refine .get ?_
  cases hrecord : queue.jobs[jobId]? with
  | none => exact .raised rfl
  | some record => exact .ret ⟨rfl, rfl⟩

/-- A step that reads the record of a job. -/
theorem Safe.onJob {α : Type} {operation : String}
    {next : ExportJobRecord R → ExportQueueM R α}
    (h : ∀ (queue : ExportJobQueue R) (record : ExportJobRecord R), queue.Sound →
      queue.jobs[jobId]? = some record →
      Ensures (next record) queue (fun _ last => queue.Evolves last) queue.Evolves) :
    Safe (retainedJob operation jobId >>= next) := by
  intro queue hsound
  refine .bind ((retainedJob_ensures queue operation jobId).same (.refl hsound)) ?_
  rintro record _ ⟨rfl, hrecord⟩
  exact h _ record hsound hrecord

/-- A record that a control operation may put in the place of another one. -/
structure Controls (record next : ExportJobRecord R) : Prop where
  sound : next.Sound
  dependencies : next.dependencies = record.dependencies
  attempt : next.attempt = record.attempt
  pending : next.status = .pending → record.status = .pending
  final : record.terminalState ≠ none → next = record

theorem Controls.refl {record : ExportJobRecord R} (h : record.Sound) : Controls record record :=
  ⟨h, rfl, rfl, id, fun _ => rfl⟩

theorem change_evolves (h : queue.Sound) {record next : ExportJobRecord R}
    (hrecord : queue.jobs[jobId]? = some record) (hnext : Controls record next) :
    queue.Evolves (queue.change jobId fun _ => next) := by
  refine h.replace hrecord (ExportJobQueue.change_replaces hrecord fun _ => next) hnext.sound ?_ ?_
    ?_ hnext.final
  · intro hpast
    rw [hnext.dependencies]
    refine h.ripe jobId record hrecord (hpast.imp hnext.pending fun hstarted => ?_)
    rwa [hnext.attempt] at hstarted
  · rw [hnext.dependencies]
  · rw [hnext.dependencies]
    exact h.agrees jobId record hrecord

theorem replaceJob_ensures (h : queue.Sound) {record next : ExportJobRecord R}
    (hrecord : queue.jobs[jobId]? = some record) (hnext : Controls record next) :
    Ensures (replaceJob jobId next) queue (fun _ last => queue.Evolves last) queue.Evolves :=
  .change (.ret (change_evolves h hrecord hnext))

/-- The record of a job that is not final, with another status. -/
theorem Controls.of_open {record next : ExportJobRecord R} (hopen : record.terminalState = none)
    (hactive : next.active = next.status.intent?) (hresult : next.result = none)
    (hstatus : next.status ≠ .completed ∧ next.status ≠ .failed ∧ next.status ≠ .pending)
    (hdependencies : next.dependencies = record.dependencies)
    (hattempt : next.attempt = record.attempt) : Controls record next where
  sound := {
    active := hactive
    result := by
      rw [hresult]
      exact ⟨nofun, fun hcompleted => absurd hcompleted hstatus.1⟩
    failure := fun hfailed => absurd hfailed hstatus.2.1 }
  dependencies := hdependencies
  attempt := hattempt
  pending := fun hpending => absurd hpending hstatus.2.2
  final := fun hterminal => absurd hopen hterminal

theorem result_eq_none {record : ExportJobRecord R} (h : record.Sound)
    (hstatus : record.status ≠ .completed) : record.result = none := by
  cases hresult : record.result with
  | none => rfl
  | some value => exact absurd (h.result.1 (by rw [hresult]; rfl)) hstatus

/-- The states that no retained dependent is told about. -/
def ExportJobStatus.isOpen : ExportJobStatus → Bool
  | .completed | .cancelled | .dependencyFailed | .failed => false
  | _ => true

theorem terminalState_eq_none {record : ExportJobRecord R} (h : record.status.isOpen = true) :
    record.terminalState = none := by
  unfold ExportJobRecord.terminalState
  cases hstatus : record.status <;> rw [hstatus] at h <;> first | rfl | cases h

/-- Another status for an open job. -/
theorem replaceOpen_ensures (h : queue.Sound) {record next : ExportJobRecord R}
    (hrecord : queue.jobs[jobId]? = some record) (hopen : record.status.isOpen = true)
    (hactive : next.active = next.status.intent?) (hresult : next.result = record.result)
    (hstatus : next.status ≠ .completed ∧ next.status ≠ .failed ∧ next.status ≠ .pending)
    (hdependencies : next.dependencies = record.dependencies)
    (hattempt : next.attempt = record.attempt) :
    Ensures (replaceJob jobId next) queue (fun _ last => queue.Evolves last) queue.Evolves := by
  refine replaceJob_ensures h hrecord (.of_open (terminalState_eq_none hopen) hactive ?_ hstatus
    hdependencies hattempt)
  rw [hresult]
  refine result_eq_none (h.records jobId record hrecord) fun hcompleted => ?_
  rw [hcompleted] at hopen
  cases hopen

theorem pauseJob_safe (jobId : JobId) (news : QueueNews R) : Safe (pauseJob jobId news) := by
  refine .bind (pollJobs_safe news) fun _ => .onJob fun queue record h hrecord => ?_
  have hsound := h.records jobId record hrecord
  have hactive := hsound.active
  cases hstatus : record.status with
  | waiting | pending =>
      rw [hstatus] at hactive
      exact replaceOpen_ensures h hrecord (by rw [hstatus]; rfl) hactive rfl ⟨nofun, nofun, nofun⟩
        rfl rfl
  | queued | running =>
      rw [hstatus] at hactive
      exact replaceOpen_ensures h hrecord (by rw [hstatus]; rfl) (by rw [hactive]; rfl) rfl
        ⟨nofun, nofun, nofun⟩ rfl rfl
  | pausing | paused => exact replaceJob_ensures h hrecord (.refl hsound)
  | failed | cancelling | cancelled | dependencyFailed | completed => exact .raised (.refl h)

/-- The record of a job that is cancelled at once. -/
theorem Controls.cancelled {record : ExportJobRecord R} (hopen : record.terminalState = none)
    (hactive : record.active = none) :
    Controls record { record with status := .cancelled, result := none } :=
  .of_open hopen hactive rfl ⟨nofun, nofun, nofun⟩ rfl rfl

theorem terminalState_of_retryable {record : ExportJobRecord R} (hstatus : record.status = .failed)
    (h : record.failedRetryably = true) : record.terminalState = none := by
  unfold ExportJobRecord.terminalState
  unfold ExportJobRecord.failedRetryably at h
  rw [hstatus]
  dsimp only
  cases hfailure : record.failure with
  | none => rw [hfailure] at h; cases h
  | some error =>
      rw [hfailure] at h
      rw [if_neg]
      simpa [ExportJobRecord.failedTerminally, hfailure] using h

theorem cancelJob_safe (jobId : JobId) (news : QueueNews R) : Safe (cancelJob jobId news) := by
  refine .bind (pollJobs_safe news) fun _ => .onJob fun queue record h hrecord => ?_
  have hsound := h.records jobId record hrecord
  have hactive := hsound.active
  cases hstatus : record.status with
  | waiting | pending | paused =>
      rw [hstatus] at hactive
      exact replaceJob_ensures h hrecord (.cancelled (terminalState_eq_none (by rw [hstatus]; rfl))
        hactive)
  | failed =>
      rw [hstatus] at hactive
      refine .check (.refl h) fun hretryable => ?_
      rw [Bool.not_eq_false] at hretryable
      exact replaceJob_ensures h hrecord
        (.cancelled (terminalState_of_retryable hstatus hretryable) hactive)
  | queued | running | pausing =>
      rw [hstatus] at hactive
      exact replaceOpen_ensures h hrecord (by rw [hstatus]; rfl) (by rw [hactive]; rfl) rfl
        ⟨nofun, nofun, nofun⟩ rfl rfl
  | cancelling | cancelled => exact replaceJob_ensures h hrecord (.refl hsound)
  | dependencyFailed | completed => exact .raised (.refl h)

/-- A fresh attempt, and the pass over the jobs that follows it. -/
theorem restartJob_stable (h : queue.Sound) {record : ExportJobRecord R}
    (hrecord : queue.jobs[jobId]? = some record) (hopen : record.terminalState = none)
    (hactive : record.active = none) (admissions : Admissions) :
    Ensures (restartJob jobId record admissions) queue
      (fun _ last => queue.Evolves last ∧ last.Stable) queue.Evolves := by
  have hchanged : queue.Evolves
      (queue.change jobId fun _ => { record.resetForAttempt with status := .waiting }) :=
    change_evolves h hrecord (.of_open hopen hactive rfl ⟨nofun, nofun, nofun⟩ rfl rfl)
  refine .change (.bind ((refreshUntilStable_stable admissions hchanged.sound).mono
    (fun _ _ hlast => hlast) fun _ hlast => hchanged.trans hlast) ?_)
  rintro changes last ⟨hevolves, hstable⟩
  refine .get ?_
  cases last.jobs[jobId]? with
  | none => exact .raised (hchanged.trans hevolves)
  | some record => exact .ret ⟨hchanged.trans hevolves, hstable⟩

/-- What a call leaves that ends with a refresh. -/
def Refreshes {α : Type} (call : ExportQueueM R α) : Prop :=
  ∀ queue : ExportJobQueue R, queue.Sound →
    Ensures call queue (fun _ last => queue.Evolves last ∧ last.Stable) queue.Evolves

/-- A call that polls first and then goes on with the record of a job. -/
theorem refreshes_onJob {α : Type} {operation : String} {news : QueueNews R}
    {next : ExportJobRecord R → ExportQueueM R α}
    (h : ∀ (queue : ExportJobQueue R) (record : ExportJobRecord R), queue.Sound →
      queue.jobs[jobId]? = some record →
      Ensures (next record) queue (fun _ last => queue.Evolves last ∧ last.Stable) queue.Evolves) :
    Refreshes (do let _ ← pollJobs news; let record ← retainedJob operation jobId; next record) := by
  intro queue hsound
  refine .bind ((pollJobs_safe news queue hsound).mono (fun _ _ hlast => hlast) fun _ hlast => hlast)
    fun _ mid hmid => ?_
  refine .bind ((retainedJob_ensures mid operation jobId).same hmid) ?_
  rintro record mid ⟨rfl, hrecord⟩
  refine (h mid record hmid.sound hrecord).mono (fun _ last hlast => ?_) fun last hlast =>
    hmid.trans hlast
  exact ⟨hmid.trans hlast.1, hlast.2⟩

theorem resumeJob_refreshes (jobId : JobId) (news : QueueNews R) (admissions : Admissions) :
    Refreshes (resumeJob jobId news admissions) := by
  refine refreshes_onJob fun queue record h hrecord => ?_
  refine .check (.refl h) fun hpaused => ?_
  have hstatus : record.status = .paused := not_ne_iff.1 hpaused
  have hactive := (h.records jobId record hrecord).active
  rw [hstatus] at hactive
  exact restartJob_stable h hrecord (terminalState_eq_none (by rw [hstatus]; rfl)) hactive admissions

theorem retryJob_refreshes (jobId : JobId) (news : QueueNews R) (admissions : Admissions) :
    Refreshes (retryJob jobId news admissions) := by
  refine refreshes_onJob fun queue record h hrecord => ?_
  refine .check (.refl h) fun hfailed => .check (.refl h) fun hretryable => ?_
  have hstatus : record.status = .failed := not_ne_iff.1 hfailed
  have hactive := (h.records jobId record hrecord).active
  rw [hstatus] at hactive
  rw [Bool.not_eq_false] at hretryable
  exact restartJob_stable h hrecord (terminalState_of_retryable hstatus hretryable) hactive admissions

/-! ### Submission -/

/-- The record of a job that was just submitted. -/
def submitted (declared : JobDependencies) : ExportJobRecord R where
  dependencies := .new declared
  status := if declared.required.isEmpty then .pending else .waiting
  attempt := 0
  active := none
  result := none
  failure := none
  dependencyFailures := []

theorem submitted_status (declared : JobDependencies) :
    (submitted declared : ExportJobRecord R).status = .waiting ∨
      (submitted declared : ExportJobRecord R).status = .pending ∧
        declared.required.isEmpty = true := by
  unfold submitted
  dsimp only
  split
  · exact .inr ⟨rfl, ‹_›⟩
  · exact .inl rfl

theorem submitted_sound (declared : JobDependencies) :
    (submitted declared : ExportJobRecord R).Sound := by
  rcases submitted_status (R := R) declared with hstatus | ⟨hstatus, -⟩
  · exact ⟨by rw [hstatus]; rfl, by rw [hstatus]; exact ⟨nofun, nofun⟩, by rw [hstatus]; nofun⟩
  · exact ⟨by rw [hstatus]; rfl, by rw [hstatus]; exact ⟨nofun, nofun⟩, by rw [hstatus]; nofun⟩

theorem submitted_ripe (declared : JobDependencies) :
    (submitted declared : ExportJobRecord R).Ripe := by
  rintro (hpending | hstarted)
  · rcases submitted_status (R := R) declared with hstatus | ⟨-, hempty⟩
    · rw [hstatus] at hpending
      cases hpending
    · refine JobDependencyTracker.status_eq_ready.2 fun dependency hrequired => ?_
      have hrequired : dependency ∈ declared.required := hrequired
      rw [Std.ExtTreeSet.isEmpty_iff.1 hempty] at hrequired
      exact absurd hrequired Std.ExtTreeSet.not_mem_empty
  · exact absurd rfl hstarted

/-- A new job closes no cycle, since no retained job names it. -/
theorem submit_evolves (h : queue.Sound) (hnew : jobId ∉ queue.jobs) {declared : JobDependencies}
    (howner : declared.owner = jobId)
    (hretained : ∀ dependency ∈ declared.required, dependency ∈ queue.jobs) :
    queue.Evolves { queue with jobs := queue.jobs.insert jobId (submitted declared) } := by
  obtain ⟨last, hlast⟩ : ∃ last : ExportJobQueue R,
      last = { queue with jobs := queue.jobs.insert jobId (submitted declared) } := ⟨_, rfl⟩
  have hconfig : last.config = queue.config := by rw [hlast]
  have hself : last.jobs[jobId]? = some (submitted declared) := by
    rw [hlast, Keyed.getElem?_insert_eq, if_pos rfl]
  have hothers : ∀ other, other ≠ jobId → last.jobs[other]? = queue.jobs[other]? :=
    fun other hother => by rw [hlast, Keyed.getElem?_insert_eq, if_neg hother]
  rw [← hlast]
  clear hlast
  have hne : ∀ other, other ∈ queue.jobs → other ≠ jobId := by
    rintro other hmem rfl
    exact hnew hmem
  have hkeeps : ∀ (other : JobId) (record : ExportJobRecord R), queue.jobs[other]? = some record →
      last.jobs[other]? = some record := fun other record hrecord => by
    rw [hothers other (hne other (Keyed.mem_of_getElem?_eq_some hrecord)), hrecord]
  have hmem : ∀ other, other ∈ queue.jobs → other ∈ last.jobs := fun other hother => by
    obtain ⟨record, hrecord⟩ := ExportJobQueue.mem_jobs.1 hother
    exact ExportJobQueue.mem_jobs.2 ⟨record, hkeeps other record hrecord⟩
  have hcases : ∀ (other : JobId) (record : ExportJobRecord R), last.jobs[other]? = some record →
      (other = jobId ∧ record = submitted declared) ∨ queue.jobs[other]? = some record := by
    intro other record hrecord
    by_cases hother : other = jobId
    · rw [hother, hself] at hrecord
      exact .inl ⟨hother, (Option.some.inj hrecord).symm⟩
    · rw [hothers other hother] at hrecord
      exact .inr hrecord
  have hdepends : ∀ a b, last.DependsOn a b →
      (a = jobId ∧ b ∈ declared.required) ∨ queue.DependsOn a b := by
    rintro a b ⟨record, hrecord, hrequired⟩
    rcases hcases a record hrecord with ⟨ha, rfl⟩ | hold
    · exact .inl ⟨ha, hrequired⟩
    · exact .inr ⟨record, hold, hrequired⟩
  have hnamed : ∀ a, ¬ last.DependsOn a jobId := by
    intro a ha
    rcases hdepends a jobId ha with ⟨-, hrequired⟩ | hold
    · exact hnew (hretained jobId hrequired)
    · exact hnew (h.retained a jobId hold)
  refine ⟨⟨?_, ?_, ?_, ?_, ?_, ?_⟩, hconfig, hmem, fun other record hrecord _ =>
    hkeeps other record hrecord⟩
  · intro other record hrecord
    rcases hcases other record hrecord with ⟨-, rfl⟩ | hold
    · exact submitted_sound declared
    · exact h.records other record hold
  · intro other record hrecord
    rcases hcases other record hrecord with ⟨hother, rfl⟩ | hold
    · rw [hother]
      exact howner
    · exact h.owners other record hold
  · intro a b hab
    rcases hdepends a b hab with ⟨-, hrequired⟩ | hold
    · exact hmem b (hretained b hrequired)
    · exact hmem b (h.retained a b hold)
  · refine h.acyclic.change (x := jobId) (fun a b hab => ?_) fun hcycle => ?_
    · exact (hdepends a b hab).symm.imp_right And.left
    · obtain ⟨a, -, ha⟩ := Relation.TransGen.tail'_iff.1 hcycle
      exact hnamed a ha
  · intro other record hrecord dependency state hstate
    rcases hcases other record hrecord with ⟨-, rfl⟩ | hold
    · rw [show (submitted declared : ExportJobRecord R).dependencies = .new declared from rfl,
        JobDependencyTracker.new_recorded] at hstate
      cases hstate
    · exact ExportJobQueue.logicalTerminalState_mono
        (fun other record hrecord _ => hkeeps other record hrecord)
        (h.agrees other record hold dependency state hstate)
  · intro other record hrecord
    rcases hcases other record hrecord with ⟨-, rfl⟩ | hold
    · exact submitted_ripe declared
    · exact h.ripe other record hold

theorem submitJob_refreshes (jobId : JobId) (dependencies : List JobId) (admissions : Admissions) :
    Refreshes (submitJob jobId dependencies admissions : ExportQueueM R ExportJobSnapshot) := by
  intro queue h
  refine .get (.check (.refl h) fun _ => .check (.refl h) fun hnew => ?_)
  refine .through (fun declared last =>
    JobDependencies.new jobId dependencies = .ok declared ∧ last = queue)
    (.ofExcept (.refl h) fun declared hdeclared => ⟨hdeclared, rfl⟩) ?_
  rintro declared _ ⟨hdeclared, rfl⟩
  refine .check (.refl h) fun hretained => ?_
  have hinserted := submit_evolves h hnew (JobDependencies.new_owner hdeclared) fun dependency
    hrequired => by
    by_contra hmissing
    refine hretained (List.any_eq_true.2 ⟨dependency, Std.ExtTreeSet.mem_toList.2 hrequired, ?_⟩)
    exact decide_eq_true hmissing
  refine .put (.bind ((refreshUntilStable_stable admissions hinserted.sound).mono
    (fun _ _ hlast => hlast) fun _ hlast => hinserted.trans hlast) ?_)
  rintro changes last ⟨hevolves, hstable⟩
  refine .get ?_
  cases last.jobs[jobId]? with
  | none => exact .raised (hinserted.trans hevolves)
  | some record => exact .ret ⟨hinserted.trans hevolves, hstable⟩

/-! ### Removal -/

/-- A final job that no retained job names may go. -/
theorem erase_sound (h : queue.Sound) (hfree : ∀ a, a ≠ jobId → ¬ queue.DependsOn a jobId) :
    ({ queue with jobs := queue.jobs.erase jobId } : ExportJobQueue R).Sound := by
  obtain ⟨last, hlast⟩ : ∃ last : ExportJobQueue R,
      last = { queue with jobs := queue.jobs.erase jobId } := ⟨_, rfl⟩
  have hfound : ∀ (other : JobId) (record : ExportJobRecord R), last.jobs[other]? = some record ↔
      other ≠ jobId ∧ queue.jobs[other]? = some record := by
    intro other record
    rw [hlast, Keyed.getElem?_erase_eq]
    split
    · rename_i hself
      exact ⟨nofun, fun hother => absurd hself hother.1⟩
    · exact ⟨fun hrecord => ⟨‹_›, hrecord⟩, And.right⟩
  rw [← hlast]
  clear hlast
  have hdepends : ∀ a b, last.DependsOn a b → a ≠ jobId ∧ queue.DependsOn a b := by
    rintro a b ⟨record, hrecord, hrequired⟩
    obtain ⟨ha, hold⟩ := (hfound a record).1 hrecord
    exact ⟨ha, record, hold, hrequired⟩
  have hkept : ∀ a dependency, a ≠ jobId → queue.DependsOn a dependency →
      last.logicalTerminalState dependency = queue.logicalTerminalState dependency := by
    intro a dependency ha hdepends
    have hne : dependency ≠ jobId := fun hself => hfree a ha (hself ▸ hdepends)
    unfold ExportJobQueue.logicalTerminalState
    congr 1
    refine Option.ext fun record => ?_
    rw [hfound]
    exact ⟨And.right, fun hrecord => ⟨hne, hrecord⟩⟩
  refine ⟨?_, ?_, ?_, h.acyclic.mono fun a b hab => (hdepends a b hab).2, ?_, ?_⟩
  · exact fun other record hrecord => h.records other record ((hfound other record).1 hrecord).2
  · exact fun other record hrecord => h.owners other record ((hfound other record).1 hrecord).2
  · intro a b hab
    obtain ⟨ha, hold⟩ := hdepends a b hab
    obtain ⟨record, hrecord⟩ := ExportJobQueue.mem_jobs.1 (h.retained a b hold)
    refine ExportJobQueue.mem_jobs.2 ⟨record, (hfound b record).2 ⟨?_, hrecord⟩⟩
    rintro rfl
    exact hfree a ha hold
  · intro other record hrecord dependency state hstate
    obtain ⟨hother, hold⟩ := (hfound other record).1 hrecord
    have hrequired : dependency ∈ record.dependencies.dependencies.required :=
      JobDependencyTracker.mem_required_of_recorded (hstate ▸ Option.some_ne_none state)
    rw [hkept other dependency hother ⟨record, hold, hrequired⟩]
    exact h.agrees other record hold dependency state hstate
  · exact fun other record hrecord => h.ripe other record ((hfound other record).1 hrecord).2

theorem not_dependsOn_of_isReferenced (h : queue.isReferenced jobId = false) {a : JobId}
    (ha : a ≠ jobId) : ¬ queue.DependsOn a jobId := by
  rintro ⟨record, hrecord, hrequired⟩
  rw [ExportJobQueue.isReferenced, List.any_eq_false] at h
  refine h (a, record) (Std.ExtTreeMap.mem_toList_iff_getElem?_eq_some.2 hrecord) ?_
  exact decide_eq_true ⟨ha, hrequired⟩

theorem removeJob_ensures (h : queue.Sound) (jobId : JobId) (news : QueueNews R) :
    Ensures (removeJob jobId news) queue
      (fun _ last => last.Sound ∧ ∃ mid : ExportJobQueue R, queue.Evolves mid ∧
        last = { mid with jobs := mid.jobs.erase jobId })
      queue.Evolves := by
  refine .bind ((pollJobs_safe news queue h).mono (fun _ _ hlast => hlast) fun _ hlast => hlast)
    fun _ mid hmid => ?_
  refine .bind ((snapshotJob_safe "snapshot" jobId mid hmid.sound).mono
    (fun _ _ hlast => hmid.trans hlast) fun _ hlast => hmid.trans hlast) fun snapshot mid hmid => ?_
  refine .check hmid fun _ => .get (.check hmid fun hfree => .put (.ret ?_))
  rw [Bool.not_eq_true] at hfree
  exact ⟨erase_sound hmid.sound fun a ha => not_dependsOn_of_isReferenced hfree ha, mid, hmid, rfl⟩

end Operations

/-! ## Runs -/

/-- The calls that end with a refresh. -/
def QueueCall.refreshes : QueueCall R → Bool
  | .submit .. | .poll .. | .resume .. | .retry .. => true
  | .pause .. | .cancel .. | .remove .. => false

/-- A call that succeeds and removes nothing leaves a queue that evolved. -/
structure Makes (queue : ExportJobQueue R) (call : QueueCall R) (last : ExportJobQueue R) :
    Prop where
  sound : last.Sound
  keeps : ∀ (jobId : JobId) (record : ExportJobRecord R), queue.jobs[jobId]? = some record →
    record.terminalState ≠ none →
      last.jobs[jobId]? = some record ∨ ∃ news, call = .remove jobId news
  stable : call.refreshes = true → last.Stable

theorem Ensures.mapped {ε σ α β : Type} {call : EStateM ε σ α} {f : α → β} {start : σ}
    {post : σ → Prop} {fault : σ → Prop} (h : Ensures call start (fun _ last => post last) fault) :
    Ensures (f <$> call) start (fun _ last => post last) fault := by
  rw [map_eq_pure_bind]
  exact h.bind fun _ _ hlast => hlast

section Runs

variable {queue : ExportJobQueue R}

theorem Makes.of_evolves {call : QueueCall R} {last : ExportJobQueue R} (h : queue.Evolves last)
    (hstable : call.refreshes = true → last.Stable) : Makes queue call last :=
  ⟨h.sound, fun jobId record hrecord hterminal => .inl (h.keeps jobId record hrecord hterminal),
    hstable⟩

/-- What one call does to a sound queue. -/
theorem QueueCall.make_ensures (h : queue.Sound) (call : QueueCall R) :
    Ensures call.make queue (fun _ last => Makes queue call last) queue.Evolves := by
  cases call with
  | submit jobId dependencies admissions =>
      refine Ensures.mapped ((submitJob_refreshes jobId dependencies admissions queue h).mono ?_ ?_)
      · exact fun _ last hlast => .of_evolves hlast.1 fun _ => hlast.2
      · exact fun _ hlast => hlast
  | poll news =>
      refine Ensures.mapped ((pollJobs_stable news h).mono ?_ fun _ hlast => hlast)
      exact fun _ last hlast => .of_evolves hlast.1 fun _ => hlast.2
  | pause jobId news =>
      refine Ensures.mapped ((pauseJob_safe jobId news queue h).mono ?_ fun _ hlast => hlast)
      exact fun _ last hlast => .of_evolves hlast nofun
  | resume jobId news admissions =>
      refine Ensures.mapped ((resumeJob_refreshes jobId news admissions queue h).mono ?_ ?_)
      · exact fun _ last hlast => .of_evolves hlast.1 fun _ => hlast.2
      · exact fun _ hlast => hlast
  | retry jobId news admissions =>
      refine Ensures.mapped ((retryJob_refreshes jobId news admissions queue h).mono ?_ ?_)
      · exact fun _ last hlast => .of_evolves hlast.1 fun _ => hlast.2
      · exact fun _ hlast => hlast
  | cancel jobId news =>
      refine Ensures.mapped ((cancelJob_safe jobId news queue h).mono ?_ fun _ hlast => hlast)
      exact fun _ last hlast => .of_evolves hlast nofun
  | remove jobId news =>
      refine Ensures.mapped ((removeJob_ensures h jobId news).mono ?_ fun _ hlast => hlast)
      rintro _ _ ⟨hsound, mid, hmid, rfl⟩
      refine ⟨hsound, fun other record hrecord hterminal => ?_, nofun⟩
      by_cases hself : other = jobId
      · exact .inr ⟨news, by rw [hself]⟩
      · refine .inl ?_
        rw [Keyed.getElem?_erase_eq, if_neg hself]
        exact hmid.keeps other record hrecord hterminal

theorem ExportJobQueue.after_sound (h : queue.Sound) (call : QueueCall R) :
    (queue.after call).Sound := by
  have hmakes := call.make_ensures h
  unfold Ensures at hmakes
  unfold ExportJobQueue.after
  split <;> simp_all only
  · exact hmakes.sound
  · exact hmakes.sound

theorem ExportJobQueue.new_sound (config : ExportJobQueueConfig) :
    (ExportJobQueue.new config : ExportJobQueue R).Sound := by
  have hnone : ∀ (jobId : JobId) (record : ExportJobRecord R),
      (ExportJobQueue.new config : ExportJobQueue R).jobs[jobId]? ≠ some record := by
    intro jobId record
    rw [ExportJobQueue.new, Std.ExtTreeMap.getElem?_empty]
    nofun
  have hedge : ∀ a b, ¬ (ExportJobQueue.new config : ExportJobQueue R).DependsOn a b := by
    rintro a b ⟨record, hrecord, -⟩
    exact hnone a record hrecord
  refine ⟨?_, ?_, ?_, ?_, ?_, ?_⟩
  · exact fun jobId record hrecord => absurd hrecord (hnone jobId record)
  · exact fun jobId record hrecord => absurd hrecord (hnone jobId record)
  · exact fun a b hab => absurd hab (hedge a b)
  · intro a hcycle
    obtain ⟨b, -, hab⟩ := Relation.TransGen.tail'_iff.1 hcycle
    exact hedge b a hab
  · exact fun jobId record hrecord => absurd hrecord (hnone jobId record)
  · exact fun jobId record hrecord => absurd hrecord (hnone jobId record)

/-- Every queue that a run reaches is sound. -/
theorem ExportJobQueue.run_sound (h : queue.Sound) (calls : List (QueueCall R)) :
    (calls.foldl ExportJobQueue.after queue).Sound := by
  induction calls generalizing queue with
  | nil => exact h
  | cons call rest ih => exact ih (after_sound h call)

/-- The contract of a sound queue. -/
theorem ExportJobQueue.Sound.contract (h : queue.Sound) {jobId : JobId}
    {record : ExportJobRecord R} (hrecord : queue.jobs[jobId]? = some record) {dependency : JobId}
    (hrequired : dependency ∈ record.dependencies.dependencies.required) :
    (∃ prerequisite : ExportJobRecord R, queue.jobs[dependency]? = some prerequisite ∧
      (record.attempt ≠ 0 → prerequisite.status = .completed)) ∧
    ∀ state, queue.logicalTerminalState dependency = some state →
      ∃ tracker, record.dependencies.record dependency state = .ok tracker := by
  obtain ⟨prerequisite, hprerequisite⟩ :=
    ExportJobQueue.mem_jobs.1 (h.retained jobId dependency ⟨record, hrecord, hrequired⟩)
  refine ⟨⟨prerequisite, hprerequisite, fun hattempt => ?_⟩, fun state hstate => ?_⟩
  · have hready := h.ripe jobId record hrecord (.inr hattempt)
    have hrecorded := JobDependencyTracker.status_eq_ready.1 hready dependency hrequired
    have hstate := h.agrees jobId record hrecord dependency _ hrecorded
    by_contra hnot
    rw [ExportJobQueue.logicalTerminalState, hprerequisite] at hstate
    exact terminalState_ne_succeeded hnot hstate
  · refine JobDependencyTracker.record_succeeds hrequired fun existing hexisting => ?_
    have hsame := h.agrees jobId record hrecord dependency existing hexisting
    exact Option.some.inj (hsame.symm.trans hstate)

/-- In every state that a run of calls reaches: attempts were dispatched only after every
prerequisite completed; a job owns an attempt exactly while it is queued, running, pausing or
cancelling, and a result exactly when it is completed; prerequisites are retained, form no cycle,
and what becomes of them never conflicts with what is recorded.  A call replaces no final job except
by removing it, and a call that ends with a refresh leaves nothing for another pass to change. -/
theorem export_contract (config : ExportJobQueueConfig) (calls : List (QueueCall R)) :
    let queue := calls.foldl ExportJobQueue.after (.new config)
    (∀ (jobId : JobId) (record : ExportJobRecord R), queue.jobs[jobId]? = some record →
      (record.active.isSome = record.status.isActive) ∧
      (record.result.isSome = true ↔ record.status = .completed) ∧
      ∀ dependency ∈ record.dependencies.dependencies.required,
        (∃ prerequisite : ExportJobRecord R, queue.jobs[dependency]? = some prerequisite ∧
          (record.attempt ≠ 0 → prerequisite.status = .completed)) ∧
        ∀ state, queue.logicalTerminalState dependency = some state →
          ∃ tracker, record.dependencies.record dependency state = .ok tracker) ∧
    Digraph.Acyclic queue.DependsOn ∧
    ∀ call : QueueCall R,
      (∀ (jobId : JobId) (record : ExportJobRecord R), queue.jobs[jobId]? = some record →
        (record.snapshot jobId).isFinal = true →
        (queue.after call).jobs[jobId]? = some record ∨
          ∃ news snapshot last, call = .remove jobId news ∧ call.make queue = .ok snapshot last) ∧
      ∀ value last, call.make queue = .ok value last → call.refreshes = true →
        ∀ answers : JobId → PoolAnswer,
          (∀ jobId, ∃ error, answers jobId = .refused error ∧ error.category = .resourceExhausted) →
          refreshPass answers last.jobs.keys last = .ok 0 last := by
  intro queue
  have h : queue.Sound := ExportJobQueue.run_sound (ExportJobQueue.new_sound config) calls
  refine ⟨fun jobId record hrecord => ?_, h.acyclic, fun call => ⟨?_, ?_⟩⟩
  · have hsound := h.records jobId record hrecord
    refine ⟨?_, hsound.result, fun dependency hrequired => h.contract hrecord hrequired⟩
    rw [hsound.active, ExportJobStatus.isSome_intent?]
  · intro jobId record hrecord hfinal
    have hterminal := (ExportJobRecord.terminalState_ne_none (h.records jobId record hrecord)
      jobId).2 hfinal
    have hmakes := call.make_ensures h
    unfold Ensures at hmakes
    unfold ExportJobQueue.after
    cases hcall : call.make queue with
    | ok snapshot last =>
        rw [hcall] at hmakes
        refine (hmakes.keeps jobId record hrecord hterminal).imp_right ?_
        rintro ⟨news, hremove⟩
        exact ⟨news, snapshot, last, hremove, rfl⟩
    | error error last =>
        rw [hcall] at hmakes
        exact .inl (hmakes.keeps jobId record hrecord hterminal)
  · intro value last hcall hrefreshes answers hfull
    have hmakes := call.make_ensures h
    unfold Ensures at hmakes
    rw [hcall] at hmakes
    obtain ⟨changes, final, hpass, rfl, rfl⟩ :=
      refreshPass_stable (hmakes.stable hrefreshes) hfull last.jobs.keys
    exact hpass

end Runs

end Engine
end Superi

import Superi.Concurrency.WorkerPool
import Superi.Lib.Machine

/-!
# WorkerPoolRuns — the threads of a worker pool

One action is what a thread does between taking the lock of the pool and giving it back, or one
notification of its condition variable.  Between a submission and its notification, and between a
completion and its notification, any other thread may act; a waiting worker may also wake up without
being notified.
-/

namespace Superi
namespace Concurrency

open Core Stateful Rotation Machine

variable {config : WorkerPoolConfig} {τ : Type}

/-! ## Threads -/

/-- Where a worker is in its loop. -/
inductive WorkerPhase (config : WorkerPoolConfig) (τ : Type)
  /-- About to take the lock and look for work. -/
  | polling
  /-- In the condition variable. -/
  | waiting
  | running (task : DispatchedTask config τ)
  /-- The completion is recorded, the other workers are not notified yet. -/
  | completed
  | exited

namespace WorkerPhase

/-- The task a worker is executing. -/
def task? : WorkerPhase config τ → Option (DispatchedTask config τ)
  | running task => some task
  | _ => none

/-- The worker is in the condition variable. -/
def isWaiting : WorkerPhase config τ → Bool
  | waiting => true
  | _ => false

/-- The worker comes back to the queue without being notified. -/
def Awake : WorkerPhase config τ → Prop
  | polling | running _ | completed => True
  | waiting | exited => False

/-- The worker after everyone in the condition variable is notified. -/
def notified : WorkerPhase config τ → WorkerPhase config τ
  | waiting => polling
  | phase => phase

end WorkerPhase

/-- A pool with its workers, the notifications on their way, and the history of its queue. -/
structure PoolThreads (config : WorkerPoolConfig) (τ : Type) where
  state : PoolState config τ
  workers : config.Worker → WorkerPhase config τ
  /-- Submitters that released the lock and have not notified yet. -/
  submitters : Nat
  /-- Shutdowns that released the lock and have not notified yet. -/
  shutdowns : Nat
  /-- Every accepted job with its preferred worker, in submission order. -/
  accepted : List (config.Worker × ScheduledJob τ)
  /-- Every dispatch, in order. -/
  dispatched : List (DispatchedTask config τ)

inductive PoolAction (config : WorkerPoolConfig) (τ : Type)
  | submit (job : ScheduledJob τ)
  /-- A submitter notifies one waiting worker; nobody is woken only if nobody waits. -/
  | notifyOne (woken : Option config.Worker)
  | wake (worker : config.Worker)
  | poll (worker : config.Worker)
  | complete (worker : config.Worker)
  | notifyCompletion (worker : config.Worker)
  | beginShutdown
  | notifyShutdown

/-- The pool acts by itself: nobody submits, shuts down, or wakes up without being notified. -/
def PoolAction.isInternal : PoolAction config τ → Bool
  | .submit _ | .wake _ | .beginShutdown => false
  | _ => true

namespace PoolThreads

/-- A pool whose workers were just spawned. -/
def start (config : WorkerPoolConfig) (τ : Type) : PoolThreads config τ where
  state := .new config τ
  workers := fun _ => .polling
  submitters := 0
  shutdowns := 0
  accepted := []
  dispatched := []

/-- One worker moves on. -/
def setWorker (pool : PoolThreads config τ) (worker : config.Worker)
    (phase : WorkerPhase config τ) : PoolThreads config τ :=
  { pool with workers := Function.update pool.workers worker phase }

def notifyAll (pool : PoolThreads config τ) : PoolThreads config τ :=
  { pool with workers := fun worker => (pool.workers worker).notified }

def submit (pool : PoolThreads config τ) (job : ScheduledJob τ) : PoolThreads config τ :=
  match PoolState.enqueue job pool.state with
  | .ok owner state => { pool with
      state
      submitters := pool.submitters + 1
      accepted := pool.accepted ++ [(owner, job)] }
  | .error _ state => { pool with state }

def notifyOne (pool : PoolThreads config τ) (woken : Option config.Worker) :
    Option (PoolThreads config τ) :=
  match pool.submitters with
  | 0 => none
  | submitters + 1 =>
      match woken with
      | some worker =>
          if (pool.workers worker).isWaiting then
            some ({ pool with submitters }.setWorker worker .polling)
          else none
      | none =>
          if ∀ worker, (pool.workers worker).isWaiting = false then some { pool with submitters }
          else none

/-- One turn of the worker loop under the lock. -/
def poll (pool : PoolThreads config τ) (worker : config.Worker) : PoolThreads config τ :=
  match pool.state.take worker with
  | (some task, state) =>
      { pool with state, dispatched := pool.dispatched ++ [task] }.setWorker worker (.running task)
  | (none, state) =>
      { pool with state }.setWorker worker (if state.acceptingJobs then .waiting else .exited)

def step (pool : PoolThreads config τ) : PoolAction config τ → Option (PoolThreads config τ)
  | .submit job => some (pool.submit job)
  | .notifyOne woken => pool.notifyOne woken
  | .wake worker =>
      if (pool.workers worker).isWaiting then some (pool.setWorker worker .polling) else none
  | .poll worker =>
      match pool.workers worker with
      | .polling => some (pool.poll worker)
      | _ => none
  | .complete worker =>
      match pool.workers worker with
      | .running _ =>
          some ({ pool with state := pool.state.recordCompletion }.setWorker worker .completed)
      | _ => none
  | .notifyCompletion worker =>
      match pool.workers worker with
      | .completed => some (pool.notifyAll.setWorker worker .polling)
      | _ => none
  | .beginShutdown =>
      some { pool with
        state := { pool.state with acceptingJobs := false }
        shutdowns := pool.shutdowns + 1 }
  | .notifyShutdown =>
      match pool.shutdowns with
      | shutdowns + 1 => some { pool.notifyAll with shutdowns }
      | 0 => none

/-! ## The history of a pool -/

/-- The tasks being executed. -/
def running (pool : PoolThreads config τ) : List (DispatchedTask config τ) :=
  (List.finRange config.workerCount).flatMap fun worker => (pool.workers worker).task?.toList

/-- The accepted jobs of one class of one local queue, in submission order. -/
def acceptedFor (pool : PoolThreads config τ) (owner : config.Worker) (priority : JobPriority) :
    List (ScheduledJob τ) :=
  (pool.accepted.filter fun entry => entry.1 = owner ∧ entry.2.priority = priority).map Prod.snd

/-- The jobs that left one class of one local queue, in dispatch order. -/
def dispatchedFrom (pool : PoolThreads config τ) (owner : config.Worker)
    (priority : JobPriority) : List (ScheduledJob τ) :=
  (pool.dispatched.filter fun task =>
    task.preferredWorker = owner ∧ task.job.priority = priority).map DispatchedTask.job

/-- What holds between any two actions. -/
structure Sound (pool : PoolThreads config τ) : Prop where
  indexed : pool.state.Indexed
  once : (pool.accepted.map Prod.snd).Perm
    (pool.dispatched.map DispatchedTask.job ++ pool.state.queued)
  inOrder : ∀ owner priority, pool.acceptedFor owner priority =
    pool.dispatchedFrom owner priority ++ pool.state.line owner priority
  active : pool.state.activeWorkers = pool.running.length
  exits : ∀ worker, pool.workers worker = .exited →
    pool.state.queued = [] ∧ pool.state.acceptingJobs = false
  attended : pool.state.queued ≠ [] →
    pool.submitters ≠ 0 ∨ ∃ worker, (pool.workers worker).Awake

theorem running_length_le (pool : PoolThreads config τ) :
    pool.running.length ≤ config.workerCount := by
  calc pool.running.length
      = ((List.finRange config.workerCount).filterMap fun worker =>
          (pool.workers worker).task?).length := by
          rw [running, List.filterMap_eq_flatMap_toList]
    _ ≤ (List.finRange config.workerCount).length := List.length_filterMap_le _ _
    _ = config.workerCount := List.length_finRange

theorem start_sound : (start config τ).Sound where
  indexed := PoolState.new_indexed
  once := by
    change List.Perm [] ([] ++ (PoolState.new config τ).queued)
    rw [PoolState.new_queued]
    exact .refl []
  inOrder := fun _ _ => rfl
  active := by
    have hnone : (start config τ).running = [] := List.flatMap_eq_nil_iff.2 fun _ _ => rfl
    rw [hnone]
    rfl
  exits := fun _ hexited => nomatch hexited
  attended := fun hqueued => absurd PoolState.new_queued hqueued

/-- Only the worker that moves on is seen elsewhere. -/
theorem setWorker_workers (pool : PoolThreads config τ) (worker other : config.Worker)
    (phase : WorkerPhase config τ) : (pool.setWorker worker phase).workers other =
      if other = worker then phase else pool.workers other :=
  Function.update_apply pool.workers worker phase other

/-- One worker that moves on changes what is running by its own task. -/
theorem running_setWorker (pool : PoolThreads config τ) (worker : config.Worker)
    (phase : WorkerPhase config τ) :
    (pool.workers worker).task?.toList.length + (pool.setWorker worker phase).running.length =
      phase.task?.toList.length + pool.running.length := by
  have hperm := Sequence.flatMap_change_perm (List.nodup_finRange _) (List.mem_finRange worker)
    (f := fun key => (pool.workers key).task?.toList)
    (g := fun key => ((pool.setWorker worker phase).workers key).task?.toList)
    fun key hkey => by rw [setWorker_workers, if_neg hkey]
  rw [setWorker_workers, if_pos rfl] at hperm
  have hlength := hperm.length_eq
  rw [List.length_append, List.length_append] at hlength
  exact hlength

/-- The notified workers execute what they executed. -/
theorem running_notifyAll (pool : PoolThreads config τ) : pool.notifyAll.running = pool.running := by
  refine List.flatMap_congr fun worker _ => ?_
  change (pool.workers worker).notified.task?.toList = _
  cases pool.workers worker <;> rfl

/-- One more accepted job. -/
theorem acceptedFor_concat {pool next : PoolThreads config τ} {owner : config.Worker}
    {job : ScheduledJob τ} (h : next.accepted = pool.accepted ++ [(owner, job)])
    (other : config.Worker) (priority : JobPriority) :
    next.acceptedFor other priority = pool.acceptedFor other priority ++
      if owner = other ∧ job.priority = priority then [job] else [] := by
  rw [acceptedFor, h]
  exact Sequence.map_filter_concat Prod.snd pool.accepted (owner, job)

/-- One more dispatch. -/
theorem dispatchedFrom_concat {pool next : PoolThreads config τ} {task : DispatchedTask config τ}
    (h : next.dispatched = pool.dispatched ++ [task]) (other : config.Worker)
    (priority : JobPriority) :
    next.dispatchedFrom other priority = pool.dispatchedFrom other priority ++
      if task.preferredWorker = other ∧ task.job.priority = priority then [task.job] else [] := by
  rw [dispatchedFrom, h]
  exact Sequence.map_filter_concat DispatchedTask.job pool.dispatched task

theorem notified_exited {phase : WorkerPhase config τ} (h : phase.notified = .exited) :
    phase = .exited := by
  cases phase <;> first | rfl | cases h

theorem task?_of_isWaiting {phase : WorkerPhase config τ} (h : phase.isWaiting = true) :
    phase.task? = none := by
  cases phase <;> first | rfl | cases h

theorem awake_notified {phase : WorkerPhase config τ} (h : phase.Awake) : phase.notified.Awake := by
  cases phase <;> trivial

theorem exited_of_setWorker {pool : PoolThreads config τ} {worker other : config.Worker}
    {phase : WorkerPhase config τ} (hphase : phase ≠ .exited)
    (h : (pool.setWorker worker phase).workers other = .exited) :
    pool.workers other = .exited := by
  rw [setWorker_workers] at h
  split at h
  · exact absurd h hphase
  · exact h

/-! ## One action -/

namespace Sound

variable {pool next : PoolThreads config τ}

/-- An action that moves threads only. -/
theorem of_threads (h : pool.Sound) (hstate : next.state = pool.state)
    (haccepted : next.accepted = pool.accepted) (hdispatched : next.dispatched = pool.dispatched)
    (hrunning : next.running.length = pool.running.length)
    (hexits : ∀ worker, next.workers worker = .exited → pool.workers worker = .exited)
    (hattended : pool.state.queued ≠ [] →
      next.submitters ≠ 0 ∨ ∃ worker, (next.workers worker).Awake) : next.Sound where
  indexed := hstate ▸ h.indexed
  once := by rw [haccepted, hdispatched, hstate]; exact h.once
  inOrder := by
    intro owner priority
    rw [acceptedFor, dispatchedFrom, haccepted, hdispatched, hstate]
    exact h.inOrder owner priority
  active := by rw [hstate, hrunning]; exact h.active
  exits := fun worker hexited => hstate ▸ h.exits worker (hexits worker hexited)
  attended := fun hqueued => hattended (hstate ▸ hqueued)

/-- A worker that executes nothing moves on to where it comes back from. -/
theorem setWorker (h : pool.Sound) {worker : config.Worker} {phase : WorkerPhase config τ}
    (submitters : Nat) (hold : (pool.workers worker).task? = none) (hnew : phase.task? = none)
    (hphase : phase.Awake) : ({ pool with submitters }.setWorker worker phase).Sound := by
  have hrunning := pool.running_setWorker worker phase
  rw [hold, hnew] at hrunning
  refine h.of_threads rfl rfl rfl ?_ (fun other hexited => ?_) fun _ => .inr ⟨worker, ?_⟩
  · change (pool.setWorker worker phase).running.length = _
    simpa using hrunning
  · refine exited_of_setWorker ?_ hexited
    rintro rfl
    exact hphase
  · rw [setWorker_workers, if_pos rfl]
    exact hphase

theorem notifyAll (h : pool.Sound) (shutdowns : Nat) :
    { pool.notifyAll with shutdowns }.Sound := by
  refine h.of_threads rfl rfl rfl ?_ (fun _ => notified_exited) fun hqueued => ?_
  · change pool.notifyAll.running.length = _
    rw [running_notifyAll]
  · refine (h.attended hqueued).imp_right ?_
    rintro ⟨worker, hawake⟩
    exact ⟨worker, awake_notified hawake⟩

/-- While a job is queued, a worker that is not waiting comes back to it. -/
theorem awake_of_not_waiting (h : pool.Sound) (hqueued : pool.state.queued ≠ [])
    {worker : config.Worker} (hworker : (pool.workers worker).isWaiting = false) :
    (pool.workers worker).Awake := by
  cases hphase : pool.workers worker with
  | polling | running | completed => trivial
  | waiting => rw [hphase] at hworker; cases hworker
  | exited => exact absurd (h.exits worker hphase).1 hqueued

theorem notifyOne (h : pool.Sound) {woken : Option config.Worker}
    (hnotify : pool.notifyOne woken = some next) : next.Sound := by
  unfold PoolThreads.notifyOne at hnotify
  split at hnotify
  · cases hnotify
  rename_i submitters hsubmitters
  cases woken with
  | some worker =>
      obtain ⟨hwaiting, hnext⟩ := Option.ite_none_right_eq_some.1 hnotify
      cases hnext
      exact h.setWorker submitters (task?_of_isWaiting hwaiting) rfl trivial
  | none =>
      obtain ⟨hnobody, hnext⟩ := Option.ite_none_right_eq_some.1 hnotify
      cases hnext
      exact h.of_threads rfl rfl rfl rfl (fun _ => id) fun hqueued =>
        .inr ⟨0, h.awake_of_not_waiting hqueued (hnobody 0)⟩

/-- A job went to the end of its class in one local queue. -/
theorem enqueued (h : pool.Sound) {job : ScheduledJob τ} {owner : config.Worker}
    (henqueued : PoolState.Enqueued pool.state job owner next.state)
    (hworkers : next.workers = pool.workers)
    (haccepted : next.accepted = pool.accepted ++ [(owner, job)])
    (hdispatched : next.dispatched = pool.dispatched) (hsubmitters : next.submitters ≠ 0) :
    next.Sound where
  indexed := henqueued.indexed
  once := by
    rw [haccepted, hdispatched, List.map_append]
    refine (h.once.append_right _).trans ?_
    rw [List.append_assoc]
    exact (List.perm_append_comm.trans henqueued.queued.symm).append_left _
  inOrder := by
    intro other priority
    have hsame : next.dispatchedFrom other priority = pool.dispatchedFrom other priority := by
      rw [dispatchedFrom, hdispatched]
      rfl
    rw [acceptedFor_concat haccepted, h.inOrder, List.append_assoc, hsame]
    refine congrArg (pool.dispatchedFrom other priority ++ ·) ?_
    by_cases hline : owner = other ∧ job.priority = priority
    · obtain ⟨rfl, rfl⟩ := hline
      rw [if_pos ⟨rfl, rfl⟩, henqueued.line]
    · rw [if_neg hline, List.append_nil]
      refine (henqueued.lines other priority fun heq => hline ?_).symm
      cases heq
      exact ⟨rfl, rfl⟩
  active := by rw [henqueued.active, h.active, running, running, hworkers]
  exits := by
    intro worker hexited
    have hclosed := (h.exits worker (hworkers ▸ hexited)).2
    rw [henqueued.accepting] at hclosed
    cases hclosed
  attended := fun _ => .inl hsubmitters

theorem submit (h : pool.Sound) (job : ScheduledJob τ) : (pool.submit job).Sound := by
  have hspec := PoolState.enqueue_spec h.indexed job
  unfold Ensures at hspec
  unfold PoolThreads.submit
  cases henqueue : PoolState.enqueue job pool.state with
  | error error state =>
      rw [henqueue] at hspec
      obtain rfl : state = pool.state := hspec
      exact h
  | ok owner state =>
      rw [henqueue] at hspec
      exact h.enqueued hspec rfl rfl rfl (Nat.succ_ne_zero pool.submitters)

/-- The oldest job of one class left one local queue. -/
theorem dispatched (h : pool.Sound) {task : DispatchedTask config τ} {worker : config.Worker}
    (hold : (pool.workers worker).task? = none)
    (hdispatched : PoolState.Dispatched pool.state task next.state)
    (hworkers : next.workers = Function.update pool.workers worker (.running task))
    (haccepted : next.accepted = pool.accepted)
    (hhistory : next.dispatched = pool.dispatched ++ [task]) : next.Sound where
  indexed := hdispatched.indexed
  once := by
    rw [haccepted, hhistory, List.map_append, List.append_assoc]
    exact h.once.trans (hdispatched.queued.append_left _)
  inOrder := by
    intro other priority
    rw [dispatchedFrom_concat hhistory, acceptedFor, haccepted, List.append_assoc]
    refine (h.inOrder other priority).trans (congrArg (pool.dispatchedFrom other priority ++ ·) ?_)
    by_cases hline : task.preferredWorker = other ∧ task.job.priority = priority
    · obtain ⟨rfl, rfl⟩ := hline
      rw [if_pos ⟨rfl, rfl⟩, hdispatched.line]
      rfl
    · rw [if_neg hline, List.nil_append]
      refine (hdispatched.lines other priority fun heq => hline ?_).symm
      cases heq
      exact ⟨rfl, rfl⟩
  active := by
    have hrunning := pool.running_setWorker worker (.running task)
    have hnext : next.running = (pool.setWorker worker (.running task)).running := by
      rw [running, hworkers]
      rfl
    rw [hold, ← hnext] at hrunning
    rw [hdispatched.active, h.active]
    simp only [WorkerPhase.task?, Option.toList, List.length_cons, List.length_nil] at hrunning
    omega
  exits := by
    intro other hexited
    have hqueued := hdispatched.queued
    rw [hworkers, Function.update_apply] at hexited
    split at hexited
    · cases hexited
    · rw [(h.exits other hexited).1] at hqueued
      exact absurd hqueued.symm.eq_nil (List.cons_ne_nil _ _)
  attended := by
    intro _
    refine .inr ⟨worker, ?_⟩
    rw [hworkers, Function.update_self]
    trivial

/-- The worker found nothing: it waits, or exits if the pool is shutting down. -/
theorem drained (h : pool.Sound) {worker : config.Worker} {phase : WorkerPhase config τ}
    (hempty : pool.state.queued = []) (hold : (pool.workers worker).task? = none)
    (hnew : phase.task? = none) (hexit : phase = .exited → pool.state.acceptingJobs = false) :
    (pool.setWorker worker phase).Sound where
  indexed := h.indexed
  once := h.once
  inOrder := h.inOrder
  active := by
    have hrunning := pool.running_setWorker worker phase
    rw [hold, hnew] at hrunning
    exact h.active.trans (by simpa using hrunning.symm)
  exits := by
    intro other hexited
    refine ⟨hempty, ?_⟩
    rw [setWorker_workers] at hexited
    split at hexited
    · exact hexit hexited
    · exact (h.exits other hexited).2
  attended := fun hqueued => absurd hempty hqueued

theorem poll (h : pool.Sound) {worker : config.Worker}
    (hpolling : pool.workers worker = .polling) : (pool.poll worker).Sound := by
  have hold : (pool.workers worker).task? = none := by rw [hpolling]; rfl
  unfold PoolThreads.poll
  rcases PoolState.take_spec h.indexed worker with ⟨hempty, htake⟩ | ⟨task, state, htake, hspec⟩
  · rw [htake]
    refine h.drained hempty hold ?_ fun hexited => ?_
    · split <;> rfl
    · split at hexited
      · cases hexited
      · exact Bool.eq_false_of_not_eq_true ‹_›
  · rw [htake]
    exact h.dispatched hold hspec rfl rfl rfl

/-- A completed task leaves the count of active workers. -/
theorem complete (h : pool.Sound) {worker : config.Worker} {task : DispatchedTask config τ}
    (hrunning : pool.workers worker = .running task) :
    ({ pool with state := pool.state.recordCompletion }.setWorker worker .completed).Sound where
  indexed := ⟨h.indexed.locals, h.indexed.ids⟩
  once := h.once
  inOrder := h.inOrder
  active := by
    have hlength := pool.running_setWorker worker .completed
    rw [hrunning] at hlength
    change pool.state.activeWorkers - 1 = (pool.setWorker worker .completed).running.length
    rw [h.active]
    simp only [WorkerPhase.task?, Option.toList, List.length_cons, List.length_nil] at hlength
    omega
  exits := by
    intro other hexited
    have hother : pool.workers other = .exited := by
      refine exited_of_setWorker ?_ hexited
      exact nofun
    exact h.exits other hother
  attended := by
    intro _
    refine .inr ⟨worker, ?_⟩
    rw [setWorker_workers, if_pos rfl]
    trivial

theorem step (h : pool.Sound) {action : PoolAction config τ}
    (hstep : pool.step action = some next) : next.Sound := by
  cases action with
  | submit job =>
      cases hstep
      exact h.submit job
  | notifyOne woken => exact h.notifyOne hstep
  | wake worker =>
      obtain ⟨hwaiting, hnext⟩ := Option.ite_none_right_eq_some.1 hstep
      cases hnext
      exact h.setWorker pool.submitters (task?_of_isWaiting hwaiting) rfl trivial
  | poll worker =>
      simp only [PoolThreads.step] at hstep
      split at hstep
      · rename_i hpolling
        cases hstep
        exact h.poll hpolling
      · cases hstep
  | complete worker =>
      simp only [PoolThreads.step] at hstep
      split at hstep
      · rename_i task hrunning
        cases hstep
        exact h.complete hrunning
      · cases hstep
  | notifyCompletion worker =>
      simp only [PoolThreads.step] at hstep
      split at hstep
      · rename_i hcompleted
        cases hstep
        have hworker : pool.notifyAll.workers worker = .completed := by
          change (pool.workers worker).notified = _
          rw [hcompleted]
          rfl
        have hold : (pool.notifyAll.workers worker).task? = none := by rw [hworker]; rfl
        change ({ pool.notifyAll with submitters := pool.submitters }.setWorker worker .polling).Sound
        exact (h.notifyAll pool.shutdowns).setWorker pool.submitters hold rfl trivial
      · cases hstep
  | beginShutdown =>
      cases hstep
      exact ⟨⟨h.indexed.locals, h.indexed.ids⟩, h.once, h.inOrder, h.active,
        fun worker hexited => ⟨(h.exits worker hexited).1, rfl⟩, h.attended⟩
  | notifyShutdown =>
      simp only [PoolThreads.step] at hstep
      split at hstep
      · cases hstep
        exact h.notifyAll _
      · cases hstep

end Sound

theorem run_sound {pool last : PoolThreads config τ} {actions : List (PoolAction config τ)}
    (h : pool.Sound) (hrun : run step pool actions = some last) : last.Sound :=
  invariant_of_any_run (fun hsound hstep => hsound.step hstep) h hrun

/-! ## How long a class waits -/

/-- A job of the class is queued, and the class comes up after at most `limit` other turns. -/
structure Waits (pool : PoolThreads config τ) (priority : JobPriority) (limit : Nat) : Prop where
  queued : ∃ owner, pool.state.line owner priority ≠ []
  within : Within servicePattern priority limit pool.state.serviceCursor

/-- What an action dispatches, and what that leaves to a waiting class. -/
structure Progress (pool next : PoolThreads config τ) (fresh : List (DispatchedTask config τ)) :
    Prop where
  dispatched : next.dispatched = pool.dispatched ++ fresh
  waits : ∀ priority limit, pool.Waits priority limit →
    (∀ task ∈ fresh, task.job.priority ≠ priority) →
      ∃ rest, limit = rest + fresh.length ∧ next.Waits priority rest

/-- An action that leaves the queue alone. -/
theorem Progress.idle {pool next : PoolThreads config τ} (hqueues : next.state.queues = pool.state.queues)
    (hcursor : next.state.serviceCursor = pool.state.serviceCursor)
    (hdispatched : next.dispatched = pool.dispatched) : Progress pool next [] where
  dispatched := by rw [hdispatched, List.append_nil]
  waits := by
    intro priority limit hwaits _
    refine ⟨limit, rfl, ?_, hcursor ▸ hwaits.within⟩
    obtain ⟨owner, howner⟩ := hwaits.queued
    exact ⟨owner, by rw [PoolState.line, hqueues]; exact howner⟩

theorem submit_progress {pool : PoolThreads config τ} (h : pool.Sound) (job : ScheduledJob τ) :
    Progress pool (pool.submit job) [] := by
  have hspec := PoolState.enqueue_spec h.indexed job
  unfold Ensures at hspec
  unfold submit
  cases henqueue : PoolState.enqueue job pool.state with
  | error error state =>
      rw [henqueue] at hspec
      obtain rfl : state = pool.state := hspec
      exact .idle rfl rfl rfl
  | ok owner state =>
      rw [henqueue] at hspec
      refine ⟨(List.append_nil _).symm, fun priority limit hwaits _ => ⟨limit, rfl, ?_, ?_⟩⟩
      · obtain ⟨other, hother⟩ := hwaits.queued
        refine ⟨other, ?_⟩
        by_cases hline : (other, priority) = (owner, job.priority)
        · cases hline
          rw [hspec.line]
          exact List.append_ne_nil_of_right_ne_nil _ (List.cons_ne_nil job [])
        · rw [hspec.lines other priority hline]
          exact hother
      · rw [hspec.cursor]
        exact hwaits.within

theorem poll_progress {pool : PoolThreads config τ} (h : pool.Sound) (worker : config.Worker) :
    ∃ fresh, Progress pool (pool.poll worker) fresh := by
  unfold poll
  rcases PoolState.take_spec h.indexed worker with ⟨-, htake⟩ | ⟨task, state, htake, hspec⟩
  · rw [htake]
    exact ⟨[], .idle rfl rfl rfl⟩
  · rw [htake]
    refine ⟨[task], rfl, fun priority limit hwaits hother => ?_⟩
    have hne : priority ≠ task.job.priority := (hother task List.mem_cons_self).symm
    obtain ⟨fewer, rfl, hwithin⟩ := hspec.turns priority limit hne hwaits.queued hwaits.within
    obtain ⟨owner, howner⟩ := hwaits.queued
    refine ⟨fewer, rfl, ⟨owner, ?_⟩, hwithin⟩
    change state.line owner priority ≠ []
    rw [hspec.lines owner priority fun heq => hne (congrArg Prod.snd heq)]
    exact howner

theorem step_progress {pool next : PoolThreads config τ} (h : pool.Sound)
    {action : PoolAction config τ} (hstep : pool.step action = some next) :
    ∃ fresh, Progress pool next fresh := by
  cases action with
  | submit job =>
      cases hstep
      exact ⟨[], submit_progress h job⟩
  | notifyOne woken =>
      simp only [step, notifyOne] at hstep
      split at hstep
      · cases hstep
      · cases woken with
        | some worker =>
            cases (Option.ite_none_right_eq_some.1 hstep).2
            exact ⟨[], .idle rfl rfl rfl⟩
        | none =>
            cases (Option.ite_none_right_eq_some.1 hstep).2
            exact ⟨[], .idle rfl rfl rfl⟩
  | wake worker =>
      cases (Option.ite_none_right_eq_some.1 hstep).2
      exact ⟨[], .idle rfl rfl rfl⟩
  | poll worker =>
      simp only [step] at hstep
      split at hstep
      · cases hstep
        exact poll_progress h worker
      · cases hstep
  | complete worker =>
      simp only [step] at hstep
      split at hstep
      · cases hstep
        exact ⟨[], .idle rfl rfl rfl⟩
      · cases hstep
  | notifyCompletion worker =>
      simp only [step] at hstep
      split at hstep
      · cases hstep
        exact ⟨[], .idle rfl rfl rfl⟩
      · cases hstep
  | beginShutdown =>
      cases hstep
      exact ⟨[], .idle rfl rfl rfl⟩
  | notifyShutdown =>
      simp only [step] at hstep
      split at hstep
      · cases hstep
        exact ⟨[], .idle rfl rfl rfl⟩
      · cases hstep

/-- Induction on the run: every other dispatch uses up a turn the class may have to wait. -/
theorem run_progress {pool last : PoolThreads config τ} {actions : List (PoolAction config τ)}
    (h : pool.Sound) (hrun : run step pool actions = some last) :
    ∃ fresh, last.dispatched = pool.dispatched ++ fresh ∧ ∀ priority limit,
      pool.Waits priority limit → (∀ task ∈ fresh, task.job.priority ≠ priority) →
        fresh.length ≤ limit := by
  induction actions generalizing pool with
  | nil =>
      cases hrun
      exact ⟨[], (List.append_nil _).symm, fun _ limit _ _ => Nat.zero_le limit⟩
  | cons action rest ih =>
      obtain ⟨next, hstep, hrest⟩ := Option.bind_eq_some_iff.1 hrun
      obtain ⟨first, hfirst⟩ := step_progress h hstep
      obtain ⟨later, hlater, hwaits⟩ := ih (h.step hstep) hrest
      refine ⟨first ++ later, ?_, fun priority limit hlimit hother => ?_⟩
      · rw [hlater, hfirst.dispatched, List.append_assoc]
      · obtain ⟨turns, rfl, hnext⟩ := hfirst.waits priority limit hlimit fun task htask =>
          hother task (List.mem_append_left later htask)
        have hle := hwaits priority turns hnext fun task htask =>
          hother task (List.mem_append_right first htask)
        rw [List.length_append]
        omega

/-! ## Draining -/

/-- The pool gets from `pool` to `next` by itself; what is accepted stays. -/
def Leads (pool next : PoolThreads config τ) : Prop :=
  ∃ actions, run step pool actions = some next ∧ (∀ action ∈ actions, action.isInternal = true) ∧
    next.accepted = pool.accepted

theorem Leads.refl (pool : PoolThreads config τ) : pool.Leads pool :=
  ⟨[], rfl, fun _ haction => absurd haction List.not_mem_nil, rfl⟩

theorem Leads.cons {pool mid next : PoolThreads config τ} {action : PoolAction config τ}
    (hstep : pool.step action = some mid) (hinternal : action.isInternal = true)
    (haccepted : mid.accepted = pool.accepted) (h : mid.Leads next) : pool.Leads next := by
  obtain ⟨actions, hrun, hactions, hlast⟩ := h
  refine ⟨action :: actions, ?_, ?_, hlast.trans haccepted⟩
  · rw [run, hstep]
    exact hrun
  · exact List.forall_mem_cons.2 ⟨hinternal, hactions⟩

/-- A worker that looks into a queue with a job in it dispatches one. -/
theorem poll_takes {pool : PoolThreads config τ} (h : pool.Sound)
    (hqueued : pool.state.queued ≠ []) (worker : config.Worker) :
    (pool.poll worker).state.queued.length < pool.state.queued.length ∧
      (pool.poll worker).accepted = pool.accepted := by
  unfold poll
  rcases PoolState.take_spec h.indexed worker with ⟨hempty, -⟩ | ⟨task, state, htake, hspec⟩
  · exact absurd hempty hqueued
  · rw [htake]
    refine ⟨?_, rfl⟩
    change state.queued.length < pool.state.queued.length
    rw [hspec.queued.length_eq]
    exact Nat.lt_succ_self _

/-- A worker that is awake comes back to the queue and dispatches a job. -/
theorem leads_of_awake {pool : PoolThreads config τ} (h : pool.Sound)
    (hqueued : pool.state.queued ≠ []) {worker : config.Worker}
    (hawake : (pool.workers worker).Awake) :
    ∃ next, pool.Leads next ∧ next.state.queued.length < pool.state.queued.length := by
  have hpoll (pool : PoolThreads config τ) (h : pool.Sound) (hqueued : pool.state.queued ≠ [])
      (hpolling : pool.workers worker = .polling) :
      ∃ next, pool.Leads next ∧ next.state.queued.length < pool.state.queued.length := by
    have hstep : pool.step (.poll worker) = some (pool.poll worker) := by
      simp only [step, hpolling]
    obtain ⟨hlt, haccepted⟩ := poll_takes h hqueued worker
    exact ⟨_, .cons hstep rfl haccepted (.refl _), hlt⟩
  have hself (pool : PoolThreads config τ) (phase : WorkerPhase config τ) :
      (pool.setWorker worker phase).workers worker = phase := by
    rw [setWorker_workers, if_pos rfl]
  have hnotify (pool : PoolThreads config τ) (h : pool.Sound) (hqueued : pool.state.queued ≠ [])
      (hcompleted : pool.workers worker = .completed) :
      ∃ next, pool.Leads next ∧ next.state.queued.length < pool.state.queued.length := by
    have hstep : pool.step (.notifyCompletion worker) =
        some (pool.notifyAll.setWorker worker .polling) := by
      simp only [step, hcompleted]
    obtain ⟨next, hleads, hlt⟩ := hpoll _ (h.step hstep) hqueued (hself pool.notifyAll .polling)
    exact ⟨next, .cons hstep rfl rfl hleads, hlt⟩
  cases hphase : pool.workers worker with
  | polling => exact hpoll pool h hqueued hphase
  | completed => exact hnotify pool h hqueued hphase
  | running task =>
      have hstep : pool.step (.complete worker) = some
          ({ pool with state := pool.state.recordCompletion }.setWorker worker .completed) := by
        simp only [step, hphase]
      obtain ⟨next, hleads, hlt⟩ := hnotify _ (h.step hstep) hqueued (hself _ .completed)
      exact ⟨next, .cons hstep rfl rfl hleads, hlt⟩
  | waiting => rw [hphase] at hawake; exact hawake.elim
  | exited => rw [hphase] at hawake; exact hawake.elim

/-- While a job is queued, the pool dispatches one by itself. -/
theorem leads_of_queued {pool : PoolThreads config τ} (h : pool.Sound)
    (hqueued : pool.state.queued ≠ []) :
    ∃ next, pool.Leads next ∧ next.state.queued.length < pool.state.queued.length := by
  rcases h.attended hqueued with hsubmitters | ⟨worker, hawake⟩
  · obtain ⟨submitters, hsubmitters⟩ := Nat.exists_eq_succ_of_ne_zero hsubmitters
    by_cases hwaiting : ∃ worker, (pool.workers worker).isWaiting = true
    · -- the notification on its way wakes a waiting worker
      obtain ⟨worker, hworker⟩ := hwaiting
      have hstep : pool.step (.notifyOne (some worker)) =
          some ({ pool with submitters }.setWorker worker .polling) := by
        simp only [step, notifyOne, hsubmitters, hworker, if_true]
      have hawake : ((PoolThreads.setWorker { pool with submitters } worker
          .polling).workers worker).Awake := by
        rw [setWorker_workers, if_pos rfl]
        trivial
      obtain ⟨next, hleads, hlt⟩ := leads_of_awake (h.step hstep) hqueued hawake
      exact ⟨next, .cons hstep rfl rfl hleads, hlt⟩
    · have hnobody : (pool.workers 0).isWaiting = false :=
        Bool.eq_false_of_not_eq_true fun hworker => hwaiting ⟨0, hworker⟩
      exact leads_of_awake h hqueued (h.awake_of_not_waiting hqueued hnobody)
  · exact leads_of_awake h hqueued hawake

/-- Induction on the number of queued jobs: the pool drains its queue by itself. -/
theorem drains {pool : PoolThreads config τ} (h : pool.Sound) :
    ∃ last, pool.Leads last ∧ last.state.queued = [] := by
  induction hlength : pool.state.queued.length using Nat.strong_induction_on generalizing pool with
  | _ length ih =>
      by_cases hqueued : pool.state.queued = []
      · exact ⟨pool, .refl pool, hqueued⟩
      · obtain ⟨next, ⟨actions, hrun, hactions, haccepted⟩, hlt⟩ := leads_of_queued h hqueued
        obtain ⟨last, ⟨rest, hrest, hinternal, hlast⟩, hempty⟩ :=
          ih _ (hlength ▸ hlt) (run_sound h hrun) rfl
        refine ⟨last, ⟨actions ++ rest, ?_, ?_, hlast.trans haccepted⟩, hempty⟩
        · rw [run_append, hrun]
          exact hrest
        · exact List.forall_mem_append.2 ⟨hactions, hinternal⟩

/-! ## The pool over whole runs -/

/-- What a pool keeps to between any two actions. -/
structure Serves (pool : PoolThreads config τ) : Prop where
  /-- The identity set is the disjoint union of the local queues. -/
  identities : pool.state.queuedIds.toList.Perm
    ((List.finRange config.workerCount).flatMap fun owner =>
      (pool.state.queues owner).jobs.map ScheduledJob.id)
  /-- Every accepted job was dispatched once or is queued once. -/
  once : (pool.accepted.map Prod.snd).Perm (pool.dispatched.map DispatchedTask.job ++
    (List.finRange config.workerCount).flatMap fun owner => (pool.state.queues owner).jobs)
  /-- What is queued can still be dispatched. -/
  drains : ∃ last, pool.Leads last ∧
    (last.accepted.map Prod.snd).Perm (last.dispatched.map DispatchedTask.job)
  /-- A worker exits only when every local queue is empty for good. -/
  exits : ∀ worker, pool.workers worker = .exited →
    (∀ owner, (pool.state.queues owner).jobs = []) ∧ pool.state.acceptingJobs = false
  /-- The active workers are those that execute a task. -/
  active : pool.state.activeWorkers = pool.running.length ∧
    pool.state.activeWorkers ≤ config.workerCount
  /-- The jobs of one class in one local queue leave in submission order. -/
  inOrder : ∀ owner priority, pool.acceptedFor owner priority =
    pool.dispatchedFrom owner priority ++ (pool.state.queues owner).queues priority
  /-- From here on, a class with a queued job waits for a bounded number of other dispatches. -/
  fair : ∀ later last, run step pool later = some last →
    ∃ fresh, last.dispatched = pool.dispatched ++ fresh ∧
      ∀ priority : JobPriority, (∃ owner, (pool.state.queues owner).queues priority ≠ []) →
        (∀ task ∈ fresh, task.job.priority ≠ priority) →
          fresh.length ≤ priority.maximumWaitingDispatches

/-- A worker pool loses no job and starves no class. -/
theorem pool_serves {config : WorkerPoolConfig} {τ : Type}
    {actions : List (PoolAction config τ)} {pool : PoolThreads config τ}
    (hrun : run step (start config τ) actions = some pool) : pool.Serves := by
  have h : pool.Sound := run_sound start_sound hrun
  have hempty (pool : PoolThreads config τ) (hqueued : pool.state.queued = [])
      (owner : config.Worker) : (pool.state.queues owner).jobs = [] :=
    List.flatMap_eq_nil_iff.1 hqueued owner (List.mem_finRange owner)
  refine ⟨?_, h.once, ?_, fun worker hexited => ?_, ⟨h.active, h.active ▸ pool.running_length_le⟩,
    h.inOrder, fun later last hlater => ?_⟩
  · rw [← List.map_flatMap]
    exact h.indexed.ids
  · obtain ⟨last, hleads, hqueued⟩ := drains h
    have ⟨later, hlater, _⟩ := hleads
    have honce := (run_sound h hlater).once
    rw [hqueued, List.append_nil] at honce
    exact ⟨last, hleads, honce⟩
  · exact ⟨hempty pool (h.exits worker hexited).1, (h.exits worker hexited).2⟩
  · obtain ⟨fresh, hfresh, hwaits⟩ := run_progress h hlater
    exact ⟨fresh, hfresh, fun priority hqueued => hwaits priority _
      ⟨hqueued, within_maximumWaiting priority pool.state.serviceCursor⟩⟩

/-- Two workers, four waiting jobs. -/
def twoWorkers : WorkerPoolConfig where
  workerCount := 2
  queueCapacity := 4
  workersPos := by decide
  workersBounded := by decide
  capacityPos := by decide

/-- The first worker steals the playback job of the second one, which then steals its export. -/
def stealing : List (PoolAction twoWorkers Unit) :=
  [.submit ⟨⟨1⟩, .exports, ()⟩, .submit ⟨⟨2⟩, .playback, ()⟩, .poll 0, .poll 1, .complete 0,
    .notifyCompletion 0, .beginShutdown, .poll 0]

theorem pool_serves_stealing : ∃ pool : PoolThreads twoWorkers Unit,
    run step (start twoWorkers Unit) stealing = some pool ∧
      pool.dispatched.map DispatchedTask.origin = [.stolen 1, .stolen 0] ∧ pool.Serves := by
  have hstealing : (run step (start twoWorkers Unit) stealing).map (fun pool =>
      pool.dispatched.map DispatchedTask.origin) = some [.stolen 1, .stolen 0] := by
    decide +kernel
  obtain ⟨pool, hrun, horigin⟩ := Option.map_eq_some_iff.1 hstealing
  exact ⟨pool, hrun, horigin, pool_serves hrun⟩

end PoolThreads

end Concurrency
end Superi

import Superi.Concurrency.Priority

/-!
# WorkerPool — bounded parallel execution with local ownership and work stealing

Every submitted job enters the local queue of a preferred worker, in turn.  At dispatch one service
cursor, shared by all workers, selects the priority class; the worker then takes its own work of
that class or steals from the next worker that has some.  The closures, their controls and their
results are the payload of a job and are left opaque.
-/

namespace Superi
namespace Concurrency

open Core Stateful Rotation

/-- The largest value of a 64-bit counter. -/
def maxDispatches : Nat := 2 ^ 64 - 1

def poolError (category : ErrorCategory) (recoverability : Recoverability)
    (message operation : String) : Error :=
  (Error.new category recoverability message).withContext
    ⟨"superi-concurrency.worker_pool", operation⟩

/-- Immutable resource bounds for one worker pool. -/
structure WorkerPoolConfig where
  workerCount : Nat
  queueCapacity : Nat
  workersPos : workerCount ≠ 0
  workersBounded : workerCount ≤ 256
  capacityPos : queueCapacity ≠ 0
  deriving DecidableEq, Repr

namespace WorkerPoolConfig

abbrev Worker (config : WorkerPoolConfig) : Type := Fin config.workerCount

instance (config : WorkerPoolConfig) : NeZero config.workerCount := ⟨config.workersPos⟩

end WorkerPoolConfig

/-- How a worker obtained one queued job. -/
inductive DispatchOrigin (config : WorkerPoolConfig)
  | owned
  | stolen (fromWorker : config.Worker)
  deriving DecidableEq, Repr

structure DispatchedTask (config : WorkerPoolConfig) (τ : Type) where
  job : ScheduledJob τ
  preferredWorker : config.Worker
  origin : DispatchOrigin config
  deriving DecidableEq

/-- The state behind the lock of a pool. -/
structure PoolState (config : WorkerPoolConfig) (τ : Type) where
  queues : config.Worker → PriorityScheduler τ
  queuedIds : Std.ExtTreeSet JobId
  nextOwner : config.Worker
  serviceCursor : Fin 15
  activeWorkers : Nat
  maximumActiveWorkers : Nat
  ownedDispatches : Nat
  stolenDispatches : Nat
  completedJobs : Nat
  acceptingJobs : Bool

variable {config : WorkerPoolConfig} {τ : Type}

namespace PoolState

def new (config : WorkerPoolConfig) (τ : Type) : PoolState config τ where
  queues := fun _ => .new
  queuedIds := ∅
  nextOwner := 0
  serviceCursor := 0
  activeWorkers := 0
  maximumActiveWorkers := 0
  ownedDispatches := 0
  stolenDispatches := 0
  completedJobs := 0
  acceptingJobs := true

/-! ## Submission -/

/-- Put a job into one local queue; if it refuses, the identity is free again. -/
def enqueueLocal (owner : config.Worker) (job : ScheduledJob τ) :
    EStateM Error (PoolState config τ) PUnit := fun state =>
  match PriorityScheduler.enqueue job (state.queues owner) with
  | .ok _ queue => .ok ⟨⟩ { state with queues := Function.update state.queues owner queue }
  | .error error queue => .error error { state with
      queues := Function.update state.queues owner queue
      queuedIds := state.queuedIds.erase job.id }

/-- Hand a job to the next preferred worker, and say which one that is. -/
def enqueue (job : ScheduledJob τ) : EStateM Error (PoolState config τ) config.Worker := do
  let state ← get
  refuseIf (state.acceptingJobs = false)
    (poolError .unavailable .terminal "worker pool is shutting down" "submit")
  refuseIf (config.queueCapacity ≤ state.queuedIds.size)
    ((poolError .resourceExhausted .retryable "worker queue reached its configured capacity"
      "submit").withContext ⟨"superi-concurrency.worker_pool", "queue_capacity"⟩)
  refuseIf (job.id ∈ state.queuedIds)
    ((poolError .conflict .userCorrectable "job identity is already queued in the worker pool"
      "submit").withContext ⟨"superi-concurrency.worker_pool", "queued_identity"⟩)
  set { state with
    queuedIds := state.queuedIds.insert job.id
    nextOwner := state.nextOwner + 1 }
  enqueueLocal state.nextOwner job
  return state.nextOwner

/-! ## Dispatch -/

/-- The local queues in the order a worker looks into them: its own, then those of the others. -/
def lookupOrder (worker : config.Worker) : List config.Worker :=
  worker :: (List.range' 1 (config.workerCount - 1)).map fun distance =>
    Fin.ofNat config.workerCount (worker + distance)

/-- The oldest job of one class in the first local queue that has one, and what remains there. -/
def offer (state : PoolState config τ) (worker : config.Worker) (priority : JobPriority) :
    Option (config.Worker × ScheduledJob τ × PriorityScheduler τ) :=
  (lookupOrder worker).findSome? fun owner =>
    ((state.queues owner).nextJobFor priority).map fun (job, queue) => (owner, job, queue)

/-- Account for a job that leaves the queue of `preferredWorker`. -/
def recordDispatch (state : PoolState config τ) (job : ScheduledJob τ)
    (worker preferredWorker : config.Worker) : DispatchedTask config τ × PoolState config τ :=
  let owned := worker = preferredWorker
  ({ job, preferredWorker, origin := if owned then .owned else .stolen preferredWorker },
   { state with
      queuedIds := state.queuedIds.erase job.id
      activeWorkers := state.activeWorkers + 1
      maximumActiveWorkers := max state.maximumActiveWorkers (state.activeWorkers + 1)
      ownedDispatches :=
        if owned then min (state.ownedDispatches + 1) maxDispatches else state.ownedDispatches
      stolenDispatches :=
        if owned then state.stolenDispatches else min (state.stolenDispatches + 1) maxDispatches })

/-- The next job for a worker, by the shared service cursor. -/
def take (state : PoolState config τ) (worker : config.Worker) :
    Option (DispatchedTask config τ) × PoolState config τ :=
  if state.queuedIds.isEmpty then (none, state)
  else
    match serve servicePattern (state.offer worker) 15 state.serviceCursor with
    | (none, cursor) => (none, { state with serviceCursor := cursor })
    | (some (owner, job, queue), cursor) =>
        let (task, last) := recordDispatch { state with
          serviceCursor := cursor
          queues := Function.update state.queues owner queue } job worker owner
        (some task, last)

def recordCompletion (state : PoolState config τ) : PoolState config τ :=
  { state with
    activeWorkers := state.activeWorkers - 1
    completedJobs := min (state.completedJobs + 1) maxDispatches }

/-! ## What is queued -/

/-- One class of one local queue. -/
def line (state : PoolState config τ) (owner : config.Worker) (priority : JobPriority) :
    List (ScheduledJob τ) :=
  (state.queues owner).queues priority

/-- The jobs of all local queues. -/
def queued (state : PoolState config τ) : List (ScheduledJob τ) :=
  (List.finRange config.workerCount).flatMap fun owner => (state.queues owner).jobs

/-- The shared identity set and the index of every local queue match what is queued. -/
structure Indexed (state : PoolState config τ) : Prop where
  locals : ∀ owner, (state.queues owner).Indexed
  ids : state.queuedIds.toList.Perm (state.queued.map ScheduledJob.id)

theorem mem_queued {state : PoolState config τ} {job : ScheduledJob τ} :
    job ∈ state.queued ↔ ∃ owner, job ∈ (state.queues owner).jobs := by
  simp only [queued, List.mem_flatMap, List.mem_finRange, true_and]

theorem queued_eq_nil {state : PoolState config τ} :
    state.queued = [] ↔ ∀ owner priority, state.line owner priority = [] := by
  simp only [List.eq_nil_iff_forall_not_mem, mem_queued, PriorityScheduler.mem_jobs, line,
    not_exists]
  exact ⟨fun h owner priority job => h job owner priority,
    fun h job owner priority => h owner priority job⟩

/-- A changed local queue changes what is queued by what that queue gained. -/
theorem queued_perm_of_more {state other : PoolState config τ} {owner : config.Worker}
    {extra : List (ScheduledJob τ)}
    (hothers : ∀ key, key ≠ owner → other.queues key = state.queues key)
    (hmore : (other.queues owner).jobs.Perm (extra ++ (state.queues owner).jobs)) :
    other.queued.Perm (extra ++ state.queued) :=
  Sequence.flatMap_change_perm_more (List.nodup_finRange _) (List.mem_finRange owner)
    (fun key hkey => by rw [hothers key hkey]) hmore

theorem new_queued : (new config τ).queued = [] :=
  queued_eq_nil.2 fun _ _ => rfl

theorem new_indexed : (new config τ).Indexed where
  locals := fun _ => PriorityScheduler.new_indexed
  ids := by rw [new_queued]; exact .refl []

namespace Indexed

variable {state : PoolState config τ}

theorem mem_ids (h : state.Indexed) {id : JobId} :
    id ∈ state.queuedIds ↔ ∃ job ∈ state.queued, job.id = id := by
  rw [← Std.ExtTreeSet.mem_toList, h.ids.mem_iff, List.mem_map]

theorem local_mem_ids (h : state.Indexed) {owner : config.Worker} {id : JobId}
    (hid : id ∈ (state.queues owner).queuedIds) : id ∈ state.queuedIds := by
  rw [← Std.ExtTreeSet.mem_toList, (h.locals owner).ids.mem_iff, List.mem_map] at hid
  obtain ⟨job, hjob, hid⟩ := hid
  exact h.mem_ids.2 ⟨job, mem_queued.2 ⟨owner, hjob⟩, hid⟩

theorem isEmpty_iff (h : state.Indexed) : state.queuedIds.isEmpty = true ↔ state.queued = [] := by
  rw [← Std.ExtTreeSet.isEmpty_toList, List.isEmpty_iff_length_eq_zero, h.ids.length_eq,
    List.length_map, List.length_eq_zero_iff]

end Indexed

/-! ## What a submission does -/

/-- `job` went to the end of its class in the local queue of `owner`. -/
structure Enqueued (state : PoolState config τ) (job : ScheduledJob τ) (owner : config.Worker)
    (last : PoolState config τ) : Prop where
  accepting : state.acceptingJobs = true
  indexed : last.Indexed
  queued : last.queued.Perm ([job] ++ state.queued)
  line : last.line owner job.priority = state.line owner job.priority ++ [job]
  lines : ∀ other priority, (other, priority) ≠ (owner, job.priority) →
    last.line other priority = state.line other priority
  cursor : last.serviceCursor = state.serviceCursor
  active : last.activeWorkers = state.activeWorkers
  open' : last.acceptingJobs = state.acceptingJobs

theorem enqueueLocal_succeeds {state : PoolState config τ} {owner : config.Worker}
    {job : ScheduledJob τ} {post : PriorityScheduler τ → Prop}
    (h : Succeeds (PriorityScheduler.enqueue job) (state.queues owner) fun _ queue => post queue) :
    Succeeds (enqueueLocal owner job) state fun _ last => ∃ queue, post queue ∧
      last = { state with queues := Function.update state.queues owner queue } := by
  obtain ⟨_, queue, henqueue, hpost⟩ := h
  exact ⟨⟨⟩, _, by rw [enqueueLocal, henqueue], queue, hpost, rfl⟩

/-- A job is queued, or the pool stays as it is. -/
theorem enqueue_spec {state : PoolState config τ} (h : state.Indexed) (job : ScheduledJob τ) :
    Ensures (enqueue job) state (fun owner last => Enqueued state job owner last)
      fun last => last = state := by
  refine .get (.check rfl fun haccepting => .check rfl fun _ => .check rfl fun hfresh => .put ?_)
  have hlocal : job.id ∉ (state.queues state.nextOwner).queuedIds := fun hid =>
    hfresh (h.local_mem_ids hid)
  refine .bind (.of_succeeds (enqueueLocal_succeeds
    (PriorityScheduler.enqueue_spec (h.locals state.nextOwner) hlocal))) ?_
  rintro _ last ⟨queue, ⟨hindexed, hjobs, hqueues⟩, hlast⟩
  have hlocals : last.queues = Function.update state.queues state.nextOwner queue := by
    rw [hlast]
  have hids : last.queuedIds = state.queuedIds.insert job.id := by
    rw [hlast]
  have hself : last.queues state.nextOwner = queue := by
    rw [hlocals, Function.update_self]
  have hothers (owner : config.Worker) (howner : owner ≠ state.nextOwner) :
      last.queues owner = state.queues owner := by
    rw [hlocals, Function.update_of_ne howner]
  have hqueued : last.queued.Perm ([job] ++ state.queued) :=
    queued_perm_of_more hothers (hself ▸ hjobs)
  refine .ret ⟨Bool.eq_true_of_not_eq_false haccepting, ⟨fun owner => ?_, ?_⟩, hqueued, ?_,
    fun owner priority hne => ?_, by rw [hlast], by rw [hlast], by rw [hlast]⟩
  · by_cases howner : owner = state.nextOwner
    · rw [howner, hself]
      exact hindexed
    · rw [hothers owner howner]
      exact h.locals owner
  · rw [hids]
    refine (Keyed.toList_insert_perm hfresh).trans ((h.ids.cons job.id).trans ?_)
    exact (hqueued.map ScheduledJob.id).symm
  · rw [line, hself, hqueues, Function.update_self]
    rfl
  · unfold line
    by_cases howner : owner = state.nextOwner
    · have hpriority : priority ≠ job.priority := by
        rintro rfl
        exact hne (by rw [howner])
      rw [howner, hself, hqueues, Function.update_of_ne hpriority]
    · rw [hothers owner howner]

/-! ## What a dispatch does -/

/-- A worker looks into every local queue. -/
theorem mem_lookupOrder (worker owner : config.Worker) : owner ∈ lookupOrder worker := by
  by_cases heq : owner = worker
  · exact heq ▸ List.mem_cons_self
  have hne : owner.val ≠ worker.val := fun hval => heq (Fin.ext hval)
  have howner := owner.isLt
  have hworker := worker.isLt
  refine List.mem_cons_of_mem worker (List.mem_map.2 ?_)
  by_cases hlt : worker.val < owner.val
  · refine ⟨owner - worker, List.mem_range'_1.2 (by omega), Fin.ext ?_⟩
    rw [Fin.val_ofNat, Nat.add_sub_cancel' hlt.le, Nat.mod_eq_of_lt howner]
  · refine ⟨owner + config.workerCount - worker, List.mem_range'_1.2 (by omega), Fin.ext ?_⟩
    rw [Fin.val_ofNat, Nat.add_sub_cancel' (by omega), Nat.add_mod_right, Nat.mod_eq_of_lt howner]

theorem offer_eq_none {state : PoolState config τ} {worker : config.Worker}
    {priority : JobPriority} :
    state.offer worker priority = none ↔ ∀ owner, state.line owner priority = [] := by
  simp only [offer, List.findSome?_eq_none_iff, Option.map_eq_none_iff,
    PriorityScheduler.nextJobFor_eq_none, line]
  exact ⟨fun h owner => h owner (mem_lookupOrder worker owner), fun h owner _ => h owner⟩

theorem offer_eq_some {state : PoolState config τ} {worker owner : config.Worker}
    {priority : JobPriority} {job : ScheduledJob τ} {queue : PriorityScheduler τ}
    (h : state.offer worker priority = some (owner, job, queue)) :
    (state.queues owner).nextJobFor priority = some (job, queue) := by
  obtain ⟨other, -, hother⟩ := List.exists_of_findSome?_eq_some h
  obtain ⟨⟨found, rest⟩, hnext, heq⟩ := Option.map_eq_some_iff.1 hother
  cases heq
  exact hnext

/-- `task` was the oldest of its class in the local queue of its preferred worker, and the turn of
its class had come. -/
structure Dispatched (state : PoolState config τ) (task : DispatchedTask config τ)
    (last : PoolState config τ) : Prop where
  indexed : last.Indexed
  queued : state.queued.Perm ([task.job] ++ last.queued)
  line : state.line task.preferredWorker task.job.priority =
    task.job :: last.line task.preferredWorker task.job.priority
  lines : ∀ other priority, (other, priority) ≠ (task.preferredWorker, task.job.priority) →
    last.line other priority = state.line other priority
  active : last.activeWorkers = state.activeWorkers + 1
  open' : last.acceptingJobs = state.acceptingJobs
  turns : ∀ priority limit, priority ≠ task.job.priority →
    (∃ owner, state.line owner priority ≠ []) →
    Within servicePattern priority limit state.serviceCursor →
    ∃ fewer, limit = fewer + 1 ∧ Within servicePattern priority fewer last.serviceCursor

/-- While a job is queued, the pattern leads to one within a cycle. -/
theorem serve_isSome_of_queued {state : PoolState config τ} (worker : config.Worker)
    (h : state.queued ≠ []) : ∃ served cursor,
      serve servicePattern (state.offer worker) 15 state.serviceCursor = (some served, cursor) := by
  have hline : ∃ owner priority, state.line owner priority ≠ [] := by
    rw [ne_eq, queued_eq_nil] at h
    simpa only [not_forall] using h
  obtain ⟨owner, priority, hline⟩ := hline
  have hoffer : state.offer worker priority ≠ none := fun hnone =>
    hline (offer_eq_none.1 hnone owner)
  have hwithin : Within servicePattern priority 14 state.serviceCursor :=
    (within_maximumWaiting priority state.serviceCursor).mono
      (Nat.le_of_lt_succ (maximumWaiting_lt priority))
  exact serve_isSome hoffer hwithin

/-- The oldest job of a class left the local queue of `owner`. -/
theorem Indexed.dispatched {state last : PoolState config τ} {task : DispatchedTask config τ}
    {queue : PriorityScheduler τ} {worker : config.Worker} {cursor : Fin 15}
    (h : state.Indexed)
    (hserve : serve servicePattern (state.offer worker) 15 state.serviceCursor =
      (some (task.preferredWorker, task.job, queue), cursor))
    (hlocals : last.queues = Function.update state.queues task.preferredWorker queue)
    (hids : last.queuedIds = state.queuedIds.erase task.job.id)
    (hactive : last.activeWorkers = state.activeWorkers + 1)
    (hopen : last.acceptingJobs = state.acceptingJobs) (hcursor : last.serviceCursor = cursor) :
    Dispatched state task last := by
  obtain ⟨priority, hoffer⟩ := serve_eq_some hserve
  have hnext := offer_eq_some hoffer
  obtain ⟨hqueue, hclasses, -⟩ := PriorityScheduler.nextJobFor_eq_some hnext
  obtain ⟨hindexed, rfl, hjobs⟩ :=
    PriorityScheduler.nextJobFor_spec (h.locals task.preferredWorker) hnext
  have hself : last.queues task.preferredWorker = queue := by
    rw [hlocals, Function.update_self]
  have hothers (owner : config.Worker) (howner : owner ≠ task.preferredWorker) :
      last.queues owner = state.queues owner := by
    rw [hlocals, Function.update_of_ne howner]
  have hqueued : state.queued.Perm ([task.job] ++ last.queued) :=
    queued_perm_of_more (fun owner howner => (hothers owner howner).symm) (hself ▸ hjobs)
  refine ⟨⟨fun owner => ?_, ?_⟩, hqueued, ?_, fun owner priority hne => ?_, hactive, hopen, ?_⟩
  · by_cases howner : owner = task.preferredWorker
    · rw [howner, hself]
      exact hindexed
    · rw [hothers owner howner]
      exact h.locals owner
  · have htaken : task.job.id ∈ state.queuedIds :=
      h.mem_ids.2 ⟨task.job, hqueued.mem_iff.2 List.mem_cons_self, rfl⟩
    rw [hids]
    refine List.Perm.cons_inv (a := task.job.id) ?_
    exact (Keyed.toList_erase_perm htaken).symm.trans (h.ids.trans (hqueued.map _))
  · rw [line, line, hself, hqueue]
  · unfold line
    by_cases howner : owner = task.preferredWorker
    · have hpriority : priority ≠ task.job.priority := by
        rintro rfl
        exact hne (by rw [howner])
      rw [howner, hself, hclasses priority hpriority]
    · rw [hothers owner howner]
  · intro priority limit hpriority hwaiting hwithin
    rw [hcursor]
    refine within_of_serve (fun hnone => ?_) hserve (fun hsome => ?_) hwithin
    · obtain ⟨owner, hline⟩ := hwaiting
      exact hline (offer_eq_none.1 hnone owner)
    · have hfound := offer_eq_some hsome
      exact hpriority (PriorityScheduler.nextJobFor_spec (h.locals _) hfound).2.1.symm

/-- A worker that finds a job queued takes one; else it finds nothing and changes nothing. -/
theorem take_spec {state : PoolState config τ} (h : state.Indexed) (worker : config.Worker) :
    (state.queued = [] ∧ state.take worker = (none, state)) ∨
      ∃ task last, state.take worker = (some task, last) ∧ Dispatched state task last := by
  by_cases hempty : state.queuedIds.isEmpty = true
  · exact .inl ⟨h.isEmpty_iff.1 hempty, by rw [take, if_pos hempty]⟩
  have hqueued : state.queued ≠ [] := fun hnil => hempty (h.isEmpty_iff.2 hnil)
  obtain ⟨⟨owner, job, queue⟩, cursor, hserve⟩ := serve_isSome_of_queued worker hqueued
  let record := recordDispatch { state with
    serviceCursor := cursor
    queues := Function.update state.queues owner queue } job worker owner
  refine .inr ⟨record.1, record.2, ?_, h.dispatched hserve rfl rfl rfl rfl rfl⟩
  rw [take, if_neg hempty, hserve]

end PoolState

end Concurrency
end Superi

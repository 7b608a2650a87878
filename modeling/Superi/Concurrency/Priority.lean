import Mathlib
import Std.Data.ExtTreeSet
import Superi.Core.Error
import Superi.Core.Ids
import Superi.Lib.Rotation
import Superi.Lib.Sequence
import Superi.Lib.Stateful

/-!
# Priority — weighted first-in-first-out scheduling of media jobs

A scheduler keeps one queue for each priority class.  Classes are served in a fixed cyclic pattern;
empty ones are passed over, and the order within a class never changes.
-/

namespace Superi
namespace Concurrency

open Core Stateful Rotation

/-- User-visible scheduling importance for one job. -/
inductive JobPriority
  | background
  | exports
  | playback
  | interactive
  deriving DecidableEq, Repr

namespace JobPriority

/-- Every priority in ascending scheduling order. -/
def all : List JobPriority := [background, exports, playback, interactive]

theorem mem_all (priority : JobPriority) : priority ∈ all := by
  cases priority <;> decide

/-- The most other dispatches between services while the priority stays queued. -/
def maximumWaitingDispatches : JobPriority → Nat
  | .background => 14
  | .exports => 7
  | .playback => 3
  | .interactive => 1

end JobPriority

/-! ## The service pattern -/

def servicePattern : Fin 15 → JobPriority :=
  ![.interactive, .playback, .interactive, .exports, .interactive, .playback, .interactive,
    .background, .interactive, .playback, .interactive, .exports, .interactive, .playback,
    .interactive]

/-- Wherever the cursor stands, a priority comes up after no more other turns than it may wait. -/
theorem within_maximumWaiting (priority : JobPriority) (cursor : Fin 15) :
    Within servicePattern priority priority.maximumWaitingDispatches cursor := by
  revert cursor
  cases priority <;> decide

theorem maximumWaiting_lt (priority : JobPriority) :
    priority.maximumWaitingDispatches < 15 := by
  cases priority <;> decide

/-! ## Schedulers -/

/-- One scheduling envelope around an opaque payload. -/
structure ScheduledJob (τ : Type) where
  id : JobId
  priority : JobPriority
  payload : τ
  deriving DecidableEq

structure PriorityScheduler (τ : Type) where
  queues : JobPriority → List (ScheduledJob τ)
  queuedIds : Std.ExtTreeSet JobId

variable {τ : Type}

namespace PriorityScheduler

def new : PriorityScheduler τ where
  queues := fun _ => []
  queuedIds := ∅

/-- Enqueue one job at the tail of its priority class. -/
def enqueue (job : ScheduledJob τ) : EStateM Error (PriorityScheduler τ) PUnit := do
  let scheduler ← get
  refuseIf (job.id ∈ scheduler.queuedIds)
    ((Error.new .conflict .userCorrectable "job identity is already queued").withContext
      ⟨"superi-concurrency.jobs", "enqueue"⟩)
  set { scheduler with
    queues := Function.update scheduler.queues job.priority
      (scheduler.queues job.priority ++ [job])
    queuedIds := scheduler.queuedIds.insert job.id }

/-- Take the oldest job of one exact priority class. -/
def nextJobFor (scheduler : PriorityScheduler τ) (priority : JobPriority) :
    Option (ScheduledJob τ × PriorityScheduler τ) :=
  match scheduler.queues priority with
  | [] => none
  | job :: rest => some (job, {
      queues := Function.update scheduler.queues priority rest
      queuedIds := scheduler.queuedIds.erase job.id })

/-- The jobs of a scheduler, class by class. -/
def jobs (scheduler : PriorityScheduler τ) : List (ScheduledJob τ) :=
  JobPriority.all.flatMap scheduler.queues

/-- The identity index matches the contents of the queues, which hold jobs of their own class. -/
structure Indexed (scheduler : PriorityScheduler τ) : Prop where
  ids : scheduler.queuedIds.toList.Perm (scheduler.jobs.map ScheduledJob.id)
  classes : ∀ priority, ∀ job ∈ scheduler.queues priority, job.priority = priority

theorem new_indexed : (new : PriorityScheduler τ).Indexed where
  ids := .refl []
  classes := fun _ _ hjob => absurd hjob List.not_mem_nil

theorem mem_jobs {scheduler : PriorityScheduler τ} {job : ScheduledJob τ} :
    job ∈ scheduler.jobs ↔ ∃ priority, job ∈ scheduler.queues priority := by
  simp only [jobs, List.mem_flatMap, JobPriority.mem_all, true_and]

/-- A changed class changes what the scheduler holds by what that class gained. -/
theorem jobs_perm_of_more {scheduler other : PriorityScheduler τ} {priority : JobPriority}
    {extra : List (ScheduledJob τ)}
    (hothers : ∀ key, key ≠ priority → other.queues key = scheduler.queues key)
    (hmore : (other.queues priority).Perm (extra ++ scheduler.queues priority)) :
    other.jobs.Perm (extra ++ scheduler.jobs) :=
  Sequence.flatMap_change_perm_more (by decide) priority.mem_all hothers hmore

/-- A scheduler with one more job at the end of its class. -/
theorem Indexed.append {scheduler last : PriorityScheduler τ} {job : ScheduledJob τ}
    (h : scheduler.Indexed) (hfresh : job.id ∉ scheduler.queuedIds)
    (hself : last.queues job.priority = scheduler.queues job.priority ++ [job])
    (hothers : ∀ key, key ≠ job.priority → last.queues key = scheduler.queues key)
    (hids : last.queuedIds = scheduler.queuedIds.insert job.id) :
    last.Indexed ∧ last.jobs.Perm ([job] ++ scheduler.jobs) := by
  have hjobs : last.jobs.Perm ([job] ++ scheduler.jobs) := by
    refine jobs_perm_of_more hothers ?_
    rw [hself]
    exact List.perm_append_comm
  refine ⟨⟨?_, ?_⟩, hjobs⟩
  · rw [hids]
    refine (Keyed.toList_insert_perm hfresh).trans ((h.ids.cons job.id).trans ?_)
    exact (hjobs.map ScheduledJob.id).symm
  · intro key other hother
    by_cases hkey : key = job.priority
    · subst hkey
      rw [hself, List.mem_append, List.mem_singleton] at hother
      rcases hother with hother | rfl
      · exact h.classes _ other hother
      · rfl
    · rw [hothers key hkey] at hother
      exact h.classes key other hother

/-- A job whose identity is not queued is taken in, at the end of its class. -/
theorem enqueue_spec {scheduler : PriorityScheduler τ} {job : ScheduledJob τ}
    (h : scheduler.Indexed) (hfresh : job.id ∉ scheduler.queuedIds) :
    Succeeds (enqueue job) scheduler fun _ last => last.Indexed ∧
      last.jobs.Perm ([job] ++ scheduler.jobs) ∧
      last.queues = Function.update scheduler.queues job.priority
        (scheduler.queues job.priority ++ [job]) := by
  refine .get (.passes hfresh ⟨⟨⟩, _, rfl, and_assoc.1 ⟨h.append hfresh ?_ ?_ rfl, rfl⟩⟩)
  · exact Function.update_self job.priority _ scheduler.queues
  · exact fun key hkey => Function.update_of_ne hkey _ scheduler.queues

theorem nextJobFor_eq_none {scheduler : PriorityScheduler τ} {priority : JobPriority} :
    scheduler.nextJobFor priority = none ↔ scheduler.queues priority = [] := by
  unfold nextJobFor
  cases scheduler.queues priority with
  | nil => exact ⟨fun _ => rfl, fun _ => rfl⟩
  | cons job rest => exact ⟨fun h => (nomatch h), fun h => (nomatch h)⟩

/-- What is taken was the oldest of its class. -/
theorem nextJobFor_eq_some {scheduler last : PriorityScheduler τ} {priority : JobPriority}
    {job : ScheduledJob τ} (hnext : scheduler.nextJobFor priority = some (job, last)) :
    scheduler.queues priority = job :: last.queues priority ∧
      (∀ key, key ≠ priority → last.queues key = scheduler.queues key) ∧
      last.queuedIds = scheduler.queuedIds.erase job.id := by
  unfold nextJobFor at hnext
  cases hqueue : scheduler.queues priority with
  | nil => rw [hqueue] at hnext; cases hnext
  | cons first rest =>
      rw [hqueue] at hnext
      cases hnext
      refine ⟨?_, fun key hkey => Function.update_of_ne hkey rest scheduler.queues, rfl⟩
      exact congrArg (job :: ·) (Function.update_self priority rest scheduler.queues).symm

theorem nextJobFor_spec {scheduler last : PriorityScheduler τ} {priority : JobPriority}
    {job : ScheduledJob τ} (h : scheduler.Indexed)
    (hnext : scheduler.nextJobFor priority = some (job, last)) :
    last.Indexed ∧ job.priority = priority ∧ scheduler.jobs.Perm ([job] ++ last.jobs) := by
  obtain ⟨hqueue, hothers, hids⟩ := nextJobFor_eq_some hnext
  have hmem : job ∈ scheduler.queues priority := hqueue ▸ List.mem_cons_self
  have hjobs : scheduler.jobs.Perm ([job] ++ last.jobs) := by
    refine jobs_perm_of_more (fun key hkey => (hothers key hkey).symm) ?_
    exact .of_eq hqueue
  refine ⟨⟨?_, ?_⟩, h.classes priority job hmem, hjobs⟩
  · have hqueued : job.id ∈ scheduler.queuedIds := by
      rw [← Std.ExtTreeSet.mem_toList, h.ids.mem_iff]
      exact List.mem_map_of_mem (mem_jobs.2 ⟨priority, hmem⟩)
    rw [hids]
    refine List.Perm.cons_inv (a := job.id) ?_
    exact (Keyed.toList_erase_perm hqueued).symm.trans (h.ids.trans (hjobs.map _))
  · intro key other hother
    by_cases hkey : key = priority
    · subst hkey
      exact h.classes key other (hqueue ▸ List.mem_cons_of_mem job hother)
    · rw [hothers key hkey] at hother
      exact h.classes key other hother

end PriorityScheduler

end Concurrency
end Superi

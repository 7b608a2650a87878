import Std.Data.ExtTreeMap
import Superi.Core.Error
import Superi.Core.Ids

/-!
# Dependencies — prerequisites of a job and what became of them

A job names its direct prerequisites once.  A tracker records the terminal state of each one; a
recorded state is never replaced.
-/

namespace Superi
namespace Concurrency

open Core

def dependencyError (category : ErrorCategory) (recoverability : Recoverability)
    (message operation : String) : Error :=
  (Error.new category recoverability message).withContext
    ⟨"superi-concurrency.job_dependency", operation⟩

/-! ## Prerequisite sets -/

/-- A validated set of prerequisite jobs; its members are visited in ascending order. -/
structure JobDependencies where
  owner : JobId
  required : Std.ExtTreeSet JobId
  notOwn : owner ∉ required

namespace JobDependencies

/-- Add the prerequisites to those already collected; none is the owner and none comes twice. -/
def collect (owner : JobId) : List JobId → { required : Std.ExtTreeSet JobId // owner ∉ required } →
    Except Error { required : Std.ExtTreeSet JobId // owner ∉ required }
  | [], collected => .ok collected
  | dependency :: rest, collected =>
      if hown : dependency = owner then
        .error (dependencyError .invalidInput .userCorrectable "job cannot depend on itself"
          "validate")
      else if dependency ∈ collected.1 then
        .error (dependencyError .invalidInput .userCorrectable "job dependency is duplicated"
          "validate")
      else
        collect owner rest ⟨collected.1.insert dependency, fun hmem =>
          (Keyed.mem_insert_eq.1 hmem).elim (fun heq => hown heq.symm) collected.2⟩

/-- Validate the direct prerequisites of a job. -/
def new (owner : JobId) (dependencies : List JobId) : Except Error JobDependencies :=
  (collect owner dependencies ⟨∅, Std.ExtTreeSet.not_mem_empty⟩).map fun collected =>
    { owner, required := collected.1, notOwn := collected.2 }

theorem new_owner {owner : JobId} {dependencies : List JobId} {declared : JobDependencies}
    (h : new owner dependencies = .ok declared) : declared.owner = owner := by
  unfold new at h
  cases hcollect : collect owner dependencies ⟨∅, Std.ExtTreeSet.not_mem_empty⟩ with
  | error error => rw [hcollect] at h; cases h
  | ok collected => rw [hcollect] at h; cases h; rfl

end JobDependencies

/-! ## Terminal states -/

/-- The terminal state of a job without its value or failure. -/
inductive JobTerminalState
  | succeeded
  | failed
  | cancelled
  | deadlineExceeded
  | dependencyFailed
  deriving DecidableEq, Repr

/-- A prerequisite that prevents its dependent job from running. -/
structure JobDependencyFailure where
  jobId : JobId
  state : JobTerminalState
  deriving DecidableEq, Repr

/-- How the prerequisites of a job stand. -/
inductive JobDependencyStatus
  | ready
  | waiting (jobs : List JobId)
  | blocked (failures : List JobDependencyFailure)
  deriving DecidableEq, Repr

/-- The prerequisite state of one job. -/
structure JobDependencyTracker where
  dependencies : JobDependencies
  states : Std.ExtTreeMap JobId (Option JobTerminalState)
  keyed : ∀ id, id ∈ states ↔ id ∈ dependencies.required

namespace JobDependencyTracker

/-- A tracker of prerequisites that are all pending. -/
def new (dependencies : JobDependencies) : JobDependencyTracker where
  dependencies
  states := .ofList (dependencies.required.toList.map fun id => (id, none))
  keyed := by
    intro id
    rw [Std.ExtTreeMap.mem_ofList, List.map_map, List.contains_iff_mem, ← Std.ExtTreeSet.mem_toList]
    simp [Function.comp_def]

/-- What is recorded about a prerequisite. -/
def recorded (tracker : JobDependencyTracker) (dependency : JobId) : Option JobTerminalState :=
  tracker.states[dependency]?.join

/-- Record the terminal state of one prerequisite; the same state may be recorded again. -/
def record (tracker : JobDependencyTracker) (dependency : JobId) (state : JobTerminalState) :
    Except Error JobDependencyTracker :=
  match hstates : tracker.states[dependency]? with
  | none => .error (dependencyError .invalidInput .userCorrectable
      "terminal result does not belong to this job's dependencies" "record")
  | some (some existing) =>
      if existing ≠ state then
        .error ((dependencyError .conflict .degraded
          "job dependency already has a different terminal result" "record").withContext
          ⟨"superi-concurrency.job_dependency", "existing_result"⟩)
      else .ok tracker
  | some none => .ok { tracker with
      states := tracker.states.insert dependency (some state)
      keyed := by
        intro id
        have hmem := Keyed.mem_of_getElem?_eq_some hstates
        rw [Std.ExtTreeMap.mem_insert, Std.compare_eq_iff_eq, ← tracker.keyed]
        exact ⟨fun h => h.elim (fun heq => heq ▸ hmem) fun hold => hold, .inr⟩ }

/-- The prerequisites that ended without success, in ascending order. -/
def blocked (tracker : JobDependencyTracker) : List JobDependencyFailure :=
  tracker.states.toList.filterMap fun (jobId, state) =>
    match state with
    | some .succeeded | none => none
    | some state => some ⟨jobId, state⟩

/-- The prerequisites that have not ended, in ascending order. -/
def waiting (tracker : JobDependencyTracker) : List JobId :=
  tracker.states.toList.filterMap fun (jobId, state) => if state.isNone then some jobId else none

def status (tracker : JobDependencyTracker) : JobDependencyStatus :=
  if tracker.blocked ≠ [] then .blocked tracker.blocked
  else if tracker.waiting = [] then .ready
  else .waiting tracker.waiting

/-! ## What is recorded -/

variable {tracker last : JobDependencyTracker} {dependency : JobId} {state : JobTerminalState}

theorem getElem?_states (h : dependency ∈ tracker.dependencies.required) :
    tracker.states[dependency]? = some (tracker.recorded dependency) := by
  rw [← tracker.keyed, ← Std.ExtTreeMap.isSome_getElem?_iff_mem] at h
  obtain ⟨state, hstate⟩ := Option.isSome_iff_exists.1 h
  rw [recorded, hstate]
  rfl

theorem new_recorded (dependencies : JobDependencies) (dependency : JobId) :
    (new dependencies).recorded dependency = none := by
  by_cases hmem : dependency ∈ dependencies.required
  · have hnone : (new dependencies).states[dependency]? = some none := by
      refine Std.ExtTreeMap.getElem?_ofList_of_mem Std.ReflCmp.compare_self ?_ ?_
      · have hdistinct : dependencies.required.toList.Pairwise fun a b => ¬ compare a b = .eq :=
          Std.ExtTreeSet.distinct_toList
        exact List.pairwise_map.2 hdistinct
      · exact List.mem_map.2 ⟨dependency, Std.ExtTreeSet.mem_toList.2 hmem, rfl⟩
    rw [recorded, hnone]
    rfl
  · have hnone := mt ((new dependencies).keyed dependency).1 hmem
    rw [← Std.ExtTreeMap.isSome_getElem?_iff_mem, Option.not_isSome_iff_eq_none] at hnone
    rw [recorded, hnone]
    rfl

theorem mem_required_of_recorded (h : tracker.recorded dependency ≠ none) :
    dependency ∈ tracker.dependencies.required := by
  rw [← tracker.keyed]
  cases hstates : tracker.states[dependency]? with
  | none => rw [recorded, hstates] at h; exact absurd rfl h
  | some state => exact Keyed.mem_of_getElem?_eq_some hstates

/-- Recording changes what is recorded about that prerequisite only. -/
theorem record_eq_ok (h : tracker.record dependency state = .ok last) :
    last.dependencies = tracker.dependencies ∧ last.recorded dependency = some state ∧
      ∀ other, other ≠ dependency → last.recorded other = tracker.recorded other := by
  unfold record at h
  split at h
  · cases h
  · rename_i existing hstates
    split at h
    · cases h
    · rename_i heq
      cases h
      rw [recorded, hstates, not_ne_iff.1 heq]
      exact ⟨rfl, rfl, fun _ _ => rfl⟩
  · rename_i hstates
    cases h
    refine ⟨rfl, ?_, fun other hother => ?_⟩
    · rw [recorded, Keyed.getElem?_insert_eq, if_pos rfl]
      rfl
    · rw [recorded, recorded, Keyed.getElem?_insert_eq, if_neg hother]

/-- A state that agrees with what is recorded can be recorded. -/
theorem record_succeeds (hmem : dependency ∈ tracker.dependencies.required)
    (hagree : ∀ existing, tracker.recorded dependency = some existing → existing = state) :
    ∃ last, tracker.record dependency state = .ok last := by
  unfold record
  split
  · rename_i hstates
    rw [← tracker.keyed, ← Std.ExtTreeMap.isSome_getElem?_iff_mem, hstates] at hmem
    cases hmem
  · rename_i existing hstates
    have heq : existing = state := hagree existing (by rw [recorded, hstates]; rfl)
    exact ⟨tracker, if_neg (not_ne_iff.2 heq)⟩
  · exact ⟨_, rfl⟩

/-- What is recorded already is recorded again without a change. -/
theorem record_again (h : tracker.recorded dependency = some state) :
    tracker.record dependency state = .ok tracker := by
  unfold record
  split
  · rename_i hstates
    rw [recorded, hstates] at h
    cases h
  · rename_i existing hstates
    rw [recorded, hstates] at h
    cases h
    exact if_neg (not_ne_iff.2 rfl)
  · rename_i hstates
    rw [recorded, hstates] at h
    cases h

/-! ## The status -/

theorem recorded_eq_some : tracker.recorded dependency = some state ↔
    (dependency, some state) ∈ tracker.states.toList := by
  rw [Std.ExtTreeMap.mem_toList_iff_getElem?_eq_some, recorded, Option.join_eq_some_iff]

theorem blocked_eq_nil : tracker.blocked = [] ↔
    ∀ dependency state, tracker.recorded dependency = some state → state = .succeeded := by
  rw [blocked, List.filterMap_eq_nil_iff]
  constructor
  · intro h dependency state hrecorded
    have hnone := h _ (recorded_eq_some.1 hrecorded)
    cases state <;> first | rfl | cases hnone
  · rintro h ⟨dependency, _ | state⟩ hmem
    · rfl
    · rw [h dependency state (recorded_eq_some.2 hmem)]

theorem waiting_eq_nil : tracker.waiting = [] ↔
    ∀ dependency ∈ tracker.dependencies.required, tracker.recorded dependency ≠ none := by
  rw [waiting, List.filterMap_eq_nil_iff]
  constructor
  · intro h dependency hrequired hnone
    have hmem := Std.ExtTreeMap.mem_toList_iff_getElem?_eq_some.2 (getElem?_states hrequired)
    rw [hnone] at hmem
    cases h _ hmem
  · rintro h ⟨dependency, _ | state⟩ hmem
    · have hstates := Std.ExtTreeMap.mem_toList_iff_getElem?_eq_some.1 hmem
      refine absurd ?_ (h dependency ((tracker.keyed dependency).1
        (Keyed.mem_of_getElem?_eq_some hstates)))
      rw [recorded, hstates]
      rfl
    · rfl

/-- The job may run once every prerequisite succeeded. -/
theorem status_eq_ready : tracker.status = .ready ↔
    ∀ dependency ∈ tracker.dependencies.required, tracker.recorded dependency = some .succeeded := by
  unfold status
  constructor
  · intro h dependency hrequired
    split at h
    · cases h
    rename_i hblocked
    split at h
    · rename_i hwaiting
      obtain ⟨state, hstate⟩ := Option.ne_none_iff_exists'.1
        (waiting_eq_nil.1 hwaiting dependency hrequired)
      rw [hstate, blocked_eq_nil.1 (not_ne_iff.1 hblocked) dependency state hstate]
    · cases h
  · intro h
    have hblocked := blocked_eq_nil.2 fun dependency state hstate => by
      have hready := h dependency (mem_required_of_recorded (hstate ▸ Option.some_ne_none state))
      rw [hstate] at hready
      exact Option.some.inj hready
    have hwaiting := waiting_eq_nil.2 fun dependency hrequired =>
      h dependency hrequired ▸ Option.some_ne_none JobTerminalState.succeeded
    rw [if_neg (not_ne_iff.2 hblocked), if_pos hwaiting]

end JobDependencyTracker

end Concurrency
end Superi

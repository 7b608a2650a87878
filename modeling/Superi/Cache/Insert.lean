import Superi.Cache.FrameLaws
import Superi.Cache.LruLaws

/-!
# Insert — one insertion from its permit to its publication

The insertion of a value as its caller sees it, while nobody else works on the cache: what is
retained under the key leaves, and the reservation is tried until it is admitted or nothing is left
to evict.  Intermediate outputs go before final frames, and in a tier the oldest access first.

Every entry that goes is the next one of the documented order, and goes while the insertion is
refused; when the insertion is admitted, no shorter sequence would have done.  The loop ends with
the entries of the constrained scope.  It does not ask whether the value fits at all, so a value
that no eviction can make room for still empties its scope.
-/

namespace Superi
namespace Cache

open Core Graph

variable {V : Type}

/-- What an insertion works on: the tiers and the counters. -/
structure FrameCacheMemory (V : Type) where
  state : FrameMemoryCacheState V
  budget : CacheBudgetState

def FrameMemoryCache.memory (cache : FrameMemoryCache V) : FrameCacheMemory V :=
  ⟨cache.state, cache.budget⟩

/-- One entry that went, and the scope it went for. -/
structure Eviction where
  pressure : CachePressureScope
  tier : EvaluationCacheEntryKind
  key : CacheEntryKey
  deriving DecidableEq

namespace FrameCacheMemory

/-- Drop a removed value with its reservation. -/
def dropValue (memory : FrameCacheMemory V) (retained : RetainedCacheValue V) :
    Option (FrameCacheMemory V) := do
  let reservation := retained.reservation
  let budget ← memory.budget.release reservation.projectId reservation.deviceId reservation.cost
  pure { memory with budget }

/-- Drop what came back from a tier, if anything did. -/
def dropReplaced (memory : FrameCacheMemory V) :
    Option (RetainedCacheValue V) → Option (FrameCacheMemory V)
  | none => some memory
  | some retained => memory.dropValue retained

/-- Evict the oldest entry of one tier that relieves the scope. -/
def evictFrom (memory : FrameCacheMemory V) (pressure : CachePressureScope)
    (tier : EvaluationCacheEntryKind) : Option (FrameCacheMemory V × Option CacheEntryKey) :=
  match (memory.state.entries tier).evictLruWhere 1 fun key => key.matchesPressure pressure with
  | (entries, []) => some ({ memory with state := memory.state.setEntries tier entries }, none)
  | (entries, (key, retained) :: _) => do
      let memory ← { memory with state := memory.state.setEntries tier entries }.dropValue retained
      pure (memory, some key)

/-- Evict one entry, from the intermediate outputs when one of them relieves the scope. -/
def evictOneForPressure (memory : FrameCacheMemory V) (pressure : CachePressureScope) :
    Option (FrameCacheMemory V × Option Eviction) := do
  match ← memory.evictFrom pressure .intermediateNode with
  | (memory, some key) => pure (memory, some ⟨pressure, .intermediateNode, key⟩)
  | (memory, none) =>
      let (memory, key) ← memory.evictFrom pressure .finalFrame
      pure (memory, key.map fun key => ⟨pressure, .finalFrame, key⟩)

end FrameCacheMemory

/-- Reserve the budget of a value where it is to live.  `gpu` is what the memory pool of the device
answers. -/
def CachePlacementId.reserve (placement : CachePlacementId) (budgets : CacheMemoryBudgets)
    (budget : CacheBudgetState) (projectId : ProjectId) (cost : CacheCost)
    (gpu : Except Error Unit) : Option (CacheBudgetState × Except Error CacheBudgetReservation) :=
  match placement with
  | .host => budget.reserveLocal budgets projectId none cost
  | .device deviceId => budget.reserveDevice budgets projectId deviceId cost gpu

/-- How the reservation loop ends. -/
structure LoopEnd (V : Type) where
  memory : FrameCacheMemory V
  evicted : List Eviction
  reservation : Option CacheBudgetReservation

/-- How an insertion ends. -/
structure InsertOutcome (V : Type) where
  memory : FrameCacheMemory V
  evicted : List Eviction
  admitted : Bool

namespace FrameCacheMemory

section Insert

variable (sha256 : List UInt8 → BitVec 256) (budgets : CacheMemoryBudgets)
  (valueCost : EvaluationCacheEntryKind → V → CacheCost)
  (gpu : List Eviction → Except Error Unit)

/-- The scope a refused insertion evicts from, if there is one. -/
def pressureFor (budget : CacheBudgetState) (insertion : Insertion V) (error : Error) :
    Option CachePressureScope :=
  let deviceId := insertion.context.placement.deviceId
  match budget.pressureScope budgets insertion.context.projectId deviceId
      (valueCost insertion.kind insertion.value) with
  | some pressure => some pressure
  | none => if error.category = .resourceExhausted then deviceId.map .device else none

/-- The reservation loop.  The pool of a device answers each attempt, knowing what was evicted
before it; `none` stands for a panic or for more than `fuel` attempts. -/
def insertLoop (insertion : Insertion V) :
    Nat → List Eviction → FrameCacheMemory V → Option (LoopEnd V)
  | 0, _, _ => none
  | fuel + 1, evicted, memory => do
      let (budget, result) ← insertion.context.placement.reserve budgets memory.budget
        insertion.context.projectId (valueCost insertion.kind insertion.value) (gpu evicted)
      let memory := { memory with budget }
      match result with
      | .ok reservation => pure ⟨memory, evicted, some reservation⟩
      | .error error =>
          match pressureFor budgets valueCost budget insertion error with
          | none => pure ⟨memory, evicted, none⟩
          | some pressure => do
              match ← memory.evictOneForPressure pressure with
              | (memory, none) => pure ⟨memory, evicted, none⟩
              | (memory, some eviction) =>
                  insertLoop insertion fuel (evicted ++ [eviction]) memory

/-- Take the permit and drop what is retained under the key; `none` without a permit. -/
def removeReplaced (memory : FrameCacheMemory V) (insertion : Insertion V) :
    Option (Option (FrameCacheMemory V)) :=
  match memory.state.beginInsert insertion.kind
      (insertion.context.entryKey sha256 insertion.identity) insertion.identity with
  | none => some none
  | some (state, replaced) => ({ memory with state }.dropReplaced replaced).map some

/-- Publish an admitted value, and drop what it replaces. -/
def publishValue (memory : FrameCacheMemory V) (insertion : Insertion V)
    (reservation : CacheBudgetReservation) : Option (FrameCacheMemory V) :=
  let (state, replaced) := memory.state.publish insertion.kind
    (insertion.context.entryKey sha256 insertion.identity)
    ⟨insertion.identity, insertion.value, reservation⟩
  { memory with state }.dropReplaced replaced

/-- Insert a value. -/
def insert (fuel : Nat) (memory : FrameCacheMemory V) (insertion : Insertion V) :
    Option (InsertOutcome V) := do
  match ← removeReplaced sha256 memory insertion with
  | none => pure ⟨memory, [], false⟩
  | some cleared =>
      let ended ← insertLoop budgets valueCost gpu insertion fuel [] cleared
      match ended.reservation with
      | none => pure ⟨ended.memory, ended.evicted, false⟩
      | some reservation => do
          let memory ← publishValue sha256 ended.memory insertion reservation
          pure ⟨memory, ended.evicted, true⟩

end Insert

end FrameCacheMemory

open Keyed

/-! ## The oldest eligible entry -/

/-- Evicting one entry takes the first eligible one in the order of eviction. -/
theorem LruMap.evictLruWhere_one {κ : Type} [Ord κ] [Std.TransOrd κ] [Std.LawfulEqOrd κ]
    (map : LruMap κ V) (eligible : κ → Bool) :
    (map.evictLruWhere 1 eligible = (map, []) ∧
      ∀ key, (map.value key).isSome = true → eligible key = false) ∨
    ∃ key entry, map.evictLruWhere 1 eligible =
        ({ map with entries := map.entries.erase key }, [(key, entry.value)]) ∧
      map.entries[key]? = some entry ∧ eligible key = true ∧
      ∀ other found, map.entries[other]? = some found → eligible other = true →
        olderFirst (entry.lastAccess, key) (found.lastAccess, other) = true := by
  have hmem : ∀ stamp key, (stamp, key) ∈ (map.entries.toList.filter fun (key, _) => eligible key).map
      (fun (key, entry) => (entry.lastAccess, key)) ↔
      ∃ entry, map.entries[key]? = some entry ∧ eligible key = true ∧ entry.lastAccess = stamp := by
    intro stamp key
    simp only [List.mem_map, List.mem_filter, Prod.exists, Prod.mk.injEq,
      Std.ExtTreeMap.mem_toList_iff_getElem?_eq_some]
    constructor
    · rintro ⟨_, entry, ⟨hentry, heligible⟩, rfl, rfl⟩
      exact ⟨entry, hentry, heligible, rfl⟩
    · rintro ⟨entry, hentry, heligible, rfl⟩
      exact ⟨key, entry, ⟨hentry, heligible⟩, rfl, rfl⟩
  unfold evictLruWhere victims
  generalize (map.entries.toList.filter fun (key, _) => eligible key).map
    (fun (key, entry) => (entry.lastAccess, key)) = source at hmem
  have hperm := List.mergeSort_perm source olderFirst
  have hsorted := List.pairwise_mergeSort olderFirst_trans olderFirst_total source
  cases hlist : source.mergeSort olderFirst with
  | nil =>
      left
      refine ⟨rfl, fun key hkey => ?_⟩
      rw [hlist] at hperm
      rw [value, Option.isSome_map] at hkey
      obtain ⟨entry, hentry⟩ := Option.isSome_iff_exists.1 hkey
      rw [Bool.eq_false_iff]
      intro heligible
      have hnone := (hmem entry.lastAccess key).2 ⟨entry, hentry, heligible, rfl⟩
      rw [List.nil_perm.1 hperm] at hnone
      cases hnone
  | cons first rest =>
      right
      obtain ⟨stamp, key⟩ := first
      rw [hlist] at hperm hsorted
      obtain ⟨entry, hentry, heligible, rfl⟩ :=
        (hmem stamp key).1 (hperm.mem_iff.1 List.mem_cons_self)
      refine ⟨key, entry, ?_, hentry, heligible, fun other found hfound hother => ?_⟩
      · simp only [List.take_succ_cons, List.take_zero, List.map_cons, List.map_nil, removeKeys,
          remove, value, hentry, Option.map_some]
      · have hlisted := hperm.mem_iff.2 ((hmem found.lastAccess other).2 ⟨found, hfound, hother, rfl⟩)
        rcases List.mem_cons.1 hlisted with heq | hrest
        · rw [heq]
          exact (Bool.or_self _).symm.trans (olderFirst_total _ _)
        · exact List.rel_of_pairwise_cons hsorted hrest

namespace FrameCacheMemory

/-! ## What a memory holds -/

/-- The stamped entry of a tier under a key. -/
def entry (memory : FrameCacheMemory V) (tier : EvaluationCacheEntryKind) (key : CacheEntryKey) :
    Option (LruEntry (RetainedCacheValue V)) :=
  (memory.state.entries tier).entries[key]?

/-- The counters add up to the retained values and to `others`, what is in flight elsewhere. -/
def Balances (budgets : CacheMemoryBudgets) (others : List CacheBudgetReservation)
    (memory : FrameCacheMemory V) : Prop :=
  Accounted budgets memory.budget
    (memory.state.retained.map RetainedCacheValue.reservation ++ others)

/-- `next` is `memory` without one entry of `tier` and without its charge. -/
structure Without (memory next : FrameCacheMemory V) (tier : EvaluationCacheEntryKind)
    (key : CacheEntryKey) : Prop where
  entries : ∀ tier' key', next.entry tier' key' =
    if tier' = tier ∧ key' = key then none else memory.entry tier' key'
  fences : next.state.minimumValidRevisions = memory.state.minimumValidRevisions
  released : ∃ found, memory.entry tier key = some found ∧
    memory.budget.release found.value.reservation.projectId found.value.reservation.deviceId
      found.value.reservation.cost = some next.budget

/-- `key` is what is evicted next from `tier` for `pressure`: the oldest entry there that relieves
the scope, and an intermediate output unless none of them does. -/
structure NextVictim (memory : FrameCacheMemory V) (pressure : CachePressureScope)
    (tier : EvaluationCacheEntryKind) (key : CacheEntryKey) : Prop where
  relieves : key.matchesPressure pressure = true
  oldest : ∃ found, memory.entry tier key = some found ∧
    ∀ other found', memory.entry tier other = some found' →
      other.matchesPressure pressure = true →
        LruMap.olderFirst (found.lastAccess, key) (found'.lastAccess, other) = true
  intermediateFirst : tier = .finalFrame → ∀ other,
    (memory.entry .intermediateNode other).isSome = true → other.matchesPressure pressure = false

variable {budgets : CacheMemoryBudgets} {others : List CacheBudgetReservation}
  {memory next : FrameCacheMemory V} {pressure : CachePressureScope}
  {tier : EvaluationCacheEntryKind}

/-- Evicting from a tier takes its oldest matching entry, or finds none and changes nothing. -/
theorem evictFrom_spec (h : memory.Balances budgets others) (pressure : CachePressureScope)
    (tier : EvaluationCacheEntryKind) :
    (memory.evictFrom pressure tier = some (memory, none) ∧
      ∀ key, (memory.entry tier key).isSome = true → key.matchesPressure pressure = false) ∨
    ∃ next key, memory.evictFrom pressure tier = some (next, some key) ∧
      next.Balances budgets others ∧ memory.Without next tier key ∧
      next.state.retained.length < memory.state.retained.length ∧
      key.matchesPressure pressure = true ∧
      ∃ found, memory.entry tier key = some found ∧
        ∀ other found', memory.entry tier other = some found' →
          other.matchesPressure pressure = true →
            LruMap.olderFirst (found.lastAccess, key) (found'.lastAccess, other) = true := by
  obtain ⟨hshrinks, hfences⟩ := memory.state.evict_spec tier 1 fun key => key.matchesPressure pressure
  rcases (memory.state.entries tier).evictLruWhere_one fun key => key.matchesPressure pressure with
    ⟨hevict, hnone⟩ | ⟨key, found, hevict, hfound, hmatches, holdest⟩
  · left
    refine ⟨?_, fun key hkey => hnone key ?_⟩
    · unfold evictFrom
      rw [hevict]
      cases tier <;> rfl
    · rw [LruMap.value, Option.isSome_map]
      exact hkey
  · right
    simp only [FrameMemoryCacheState.evict, hevict, List.map_cons, List.map_nil] at hshrinks hfences
    have hperm := hshrinks.perm
    have haccounted : Accounted budgets memory.budget (found.value.reservation ::
        (((memory.state.setEntries tier { (memory.state.entries tier) with
          entries := (memory.state.entries tier).entries.erase key }).retained.map
            RetainedCacheValue.reservation) ++ others)) :=
      h.perm ((hperm.map _).append_right _)
    obtain ⟨budget, hrelease, hbalances⟩ := haccounted.release
    refine ⟨⟨memory.state.setEntries tier { (memory.state.entries tier) with
      entries := (memory.state.entries tier).entries.erase key }, budget⟩, key, ?_, hbalances, ?_, ?_,
      hmatches, found, hfound, holdest⟩
    · unfold evictFrom
      rw [hevict]
      simp only [dropValue, hrelease, Option.bind_eq_bind, Option.bind_some, Option.pure_def]
    · refine ⟨fun tier' key' => ?_, hfences, found, hfound, hrelease⟩
      unfold entry
      rw [FrameMemoryCacheState.entries_setEntries]
      by_cases htier : tier' = tier
      · simp only [htier, if_true, true_and, getElem?_erase_eq]
      · rw [if_neg htier, if_neg fun hboth => htier hboth.1]
    · rw [hperm.length_eq]
      exact Nat.lt_succ_self _

/-- The next victim goes; there is none when no entry relieves the scope. -/
theorem evictOneForPressure_spec (h : memory.Balances budgets others)
    (pressure : CachePressureScope) :
    (memory.evictOneForPressure pressure = some (memory, none) ∧
      ∀ tier key, (memory.entry tier key).isSome = true → key.matchesPressure pressure = false) ∨
    ∃ next tier key, memory.evictOneForPressure pressure = some (next, some ⟨pressure, tier, key⟩) ∧
      next.Balances budgets others ∧ memory.Without next tier key ∧
      next.state.retained.length < memory.state.retained.length ∧
      memory.NextVictim pressure tier key := by
  unfold evictOneForPressure
  rcases evictFrom_spec h pressure .intermediateNode with
    ⟨hevict, hnone⟩ | ⟨next, key, hevict, hbalances, hwithout, hfewer, hmatches, holdest⟩
  · rcases evictFrom_spec h pressure .finalFrame with
      ⟨hfinal, hnofinal⟩ | ⟨next, key, hfinal, hbalances, hwithout, hfewer, hmatches, holdest⟩
    · left
      refine ⟨?_, fun tier => ?_⟩
      · simp only [hevict, hfinal, Option.bind_eq_bind, Option.bind_some, Option.pure_def,
          Option.map_none]
      · cases tier with
        | finalFrame => exact hnofinal
        | intermediateNode => exact hnone
    · right
      refine ⟨next, .finalFrame, key, ?_, hbalances, hwithout, hfewer, hmatches, holdest,
        fun _ => hnone⟩
      simp only [hevict, hfinal, Option.bind_eq_bind, Option.bind_some, Option.pure_def,
        Option.map_some]
  · right
    refine ⟨next, .intermediateNode, key, ?_, hbalances, hwithout, hfewer, hmatches, holdest, nofun⟩
    simp only [hevict, Option.bind_eq_bind, Option.bind_some, Option.pure_def]

end FrameCacheMemory

/-! ## One attempt to reserve -/

namespace CacheBudgetState

variable {budgets : CacheMemoryBudgets} {state state' : CacheBudgetState}

theorem limitFailure_kind {kind : LimitKind} {current requested maximum : Nat}
    {failure : LimitFailure} (h : limitFailure kind current requested maximum = some failure) :
    failure.kind = kind := by
  unfold limitFailure at h
  split at h
  · cases h
    rfl
  · cases h

/-- A limit that refuses has a scope: device limits are only looked at for a device. -/
theorem pressureScope_eq_none {projectId : ProjectId} {deviceId : Option DeviceId}
    {cost : CacheCost} : state.pressureScope budgets projectId deviceId cost = none ↔
      state.limitFailureFor budgets projectId deviceId cost = none := by
  unfold pressureScope
  constructor
  · intro hscope
    cases hfailure : state.limitFailureFor budgets projectId deviceId cost with
    | none => rfl
    | some failure =>
        rw [hfailure, Option.bind_some] at hscope
        cases deviceId with
        | some deviceId => cases hkind : failure.kind <;> simp [LimitKind.scope, hkind] at hscope
        | none =>
            simp only [limitFailureFor, firstLimitFailure, Option.map_none, Option.bind_none,
              Option.or_none, Option.or_eq_some_iff] at hfailure
            rcases hfailure with ((hfailure | ⟨-, hfailure⟩) | ⟨-, hfailure⟩) | ⟨-, hfailure⟩
            all_goals simp [LimitKind.scope, limitFailure_kind hfailure] at hscope
  · intro hfailure
    rw [hfailure, Option.bind_none]

theorem limitFailureFor_congr (h : SameUsage state state') (projectId : ProjectId)
    (deviceId : Option DeviceId) (cost : CacheCost) :
    state'.limitFailureFor budgets projectId deviceId cost =
      state.limitFailureFor budgets projectId deviceId cost := by
  obtain ⟨htotal, hprojects, hdevices, -⟩ := h
  have hdevice : state'.deviceUsage = state.deviceUsage := by
    funext device
    rw [deviceUsage, deviceUsage, hdevices]
  rw [limitFailureFor, limitFailureFor, htotal, projectUsage, projectUsage, hprojects, hdevice]

end CacheBudgetState

/-- A local attempt, by what the limits say. -/
theorem Accounted.reserveLocal_cases {budgets : CacheMemoryBudgets} {state : CacheBudgetState}
    {live : List CacheBudgetReservation} (h : Accounted budgets state live) (projectId : ProjectId)
    (deviceId : Option DeviceId) (cost : CacheCost) :
    (state.limitFailureFor budgets projectId deviceId cost = none ∧ ∃ state',
      state.reserveLocal budgets projectId deviceId cost =
        some (state', .ok ⟨projectId, deviceId, cost, false⟩) ∧
      Accounted budgets state' (⟨projectId, deviceId, cost, false⟩ :: live)) ∨
    (state.limitFailureFor budgets projectId deviceId cost ≠ none ∧ ∃ count,
      state.reserveLocal budgets projectId deviceId cost =
        some ({ state with deniedReservations := count }, .error budgetExhausted)) := by
  cases hfailure : state.limitFailureFor budgets projectId deviceId cost with
  | none =>
      refine .inl ⟨rfl, ?_⟩
      rcases h.reserveLocal projectId deviceId cost with hok | ⟨count, hrefused⟩
      · exact hok
      · simp only [CacheBudgetState.reserveLocal, hfailure, Option.bind_eq_bind, Option.pure_def,
          Option.bind_eq_some_iff, Option.some.injEq, Prod.mk.injEq, reduceCtorEq, and_false,
          exists_false] at hrefused
  | some failure =>
      refine .inr ⟨Option.some_ne_none _, min maxU64 (state.deniedReservations + 1), ?_⟩
      simp only [CacheBudgetState.reserveLocal, hfailure]

namespace FrameCacheMemory

section Attempts

variable (budgets : CacheMemoryBudgets) (valueCost : EvaluationCacheEntryKind → V → CacheCost)
  (gpu : List Eviction → Except Error Unit) (insertion : Insertion V)

/-- The scope of the first limit that refuses the insertion. -/
def hitScope (memory : FrameCacheMemory V) : Option CachePressureScope :=
  memory.budget.pressureScope budgets insertion.context.projectId
    insertion.context.placement.deviceId (valueCost insertion.kind insertion.value)

/-- The insertion is refused after some evictions, and `pressure` is to be relieved: the scope of
the first limit that refuses it, or the device whose pool is exhausted. -/
def Refused (evicted : List Eviction) (memory : FrameCacheMemory V)
    (pressure : CachePressureScope) : Prop :=
  memory.hitScope budgets valueCost insertion = some pressure ∨
    memory.hitScope budgets valueCost insertion = none ∧
      ∃ deviceId error, insertion.context.placement = .device deviceId ∧
        gpu evicted = .error error ∧ error.category = .resourceExhausted ∧
        pressure = .device deviceId

/-- Every limit leaves room, and the pool of the device, if there is one, answers yes. -/
def Admissible (evicted : List Eviction) (memory : FrameCacheMemory V) : Prop :=
  memory.hitScope budgets valueCost insertion = none ∧
    ∀ deviceId, insertion.context.placement = .device deviceId → gpu evicted = .ok ()

/-- An empty cache would not admit the value either: it exceeds a limit by itself, or the pool of
the device refuses it whatever is evicted. -/
def Hopeless : Prop :=
  CacheBudgetState.default.limitFailureFor budgets insertion.context.projectId
      insertion.context.placement.deviceId (valueCost insertion.kind insertion.value) ≠ none ∨
    ∃ deviceId, insertion.context.placement = .device deviceId ∧
      ∀ evicted, ∃ error, gpu evicted = .error error

/-- The evictions of one insertion, in the documented order: each is made while the insertion is
refused, for the scope that refuses it. -/
inductive Evicts : List Eviction → FrameCacheMemory V → List Eviction → FrameCacheMemory V → Prop
  | done {evicted : List Eviction} {memory : FrameCacheMemory V} :
      Evicts evicted memory [] memory
  | next {evicted more : List Eviction} {eviction : Eviction}
      {memory next last : FrameCacheMemory V} {attempted : CacheBudgetState}
      (hrefused : Refused budgets valueCost gpu insertion evicted memory eviction.pressure)
      (hvictim : memory.NextVictim eviction.pressure eviction.tier eviction.key)
      (hattempted : SameUsage memory.budget attempted)
      (hwithout : { memory with budget := attempted }.Without next eviction.tier eviction.key)
      (hmore : Evicts (evicted ++ [eviction]) next more last) :
      Evicts evicted memory (eviction :: more) last

end Attempts

variable {budgets : CacheMemoryBudgets} {valueCost : EvaluationCacheEntryKind → V → CacheCost}
  {gpu : List Eviction → Except Error Unit} {insertion : Insertion V}
  {others : List CacheBudgetReservation} {memory next : FrameCacheMemory V}
  {evicted : List Eviction}

variable (valueCost gpu insertion) in
/-- An attempt is admitted and charged, or changes only the counters of attempts and tells the scope
to relieve. -/
theorem reserve_spec (h : memory.Balances budgets others) (evicted : List Eviction) :
    (Admissible budgets valueCost gpu insertion evicted memory ∧ ∃ budget,
      insertion.context.placement.reserve budgets memory.budget insertion.context.projectId
          (valueCost insertion.kind insertion.value) (gpu evicted) =
        some (budget, .ok (insertion.charge valueCost)) ∧
      Balances budgets (insertion.charge valueCost :: others) { memory with budget }) ∨
    (¬ Admissible budgets valueCost gpu insertion evicted memory ∧ ∃ budget error,
      insertion.context.placement.reserve budgets memory.budget insertion.context.projectId
          (valueCost insertion.kind insertion.value) (gpu evicted) = some (budget, .error error) ∧
      Balances budgets others { memory with budget } ∧ SameUsage memory.budget budget ∧
      ∀ pressure, pressureFor budgets valueCost budget insertion error = some pressure ↔
        Refused budgets valueCost gpu insertion evicted memory pressure) := by
  have hscope : memory.hitScope budgets valueCost insertion = none ↔
      memory.budget.limitFailureFor budgets insertion.context.projectId
        insertion.context.placement.deviceId (valueCost insertion.kind insertion.value) = none :=
    CacheBudgetState.pressureScope_eq_none
  -- a limit that refuses is found again after the refusal
  have hlimit : ∀ {budget : CacheBudgetState} {error : Error}, SameUsage memory.budget budget →
      memory.hitScope budgets valueCost insertion ≠ none → ∀ pressure,
        pressureFor budgets valueCost budget insertion error = some pressure ↔
          Refused budgets valueCost gpu insertion evicted memory pressure := by
    intro budget error hsame hne pressure
    obtain ⟨scope, hhit⟩ := Option.ne_none_iff_exists'.1 hne
    have hagain : budget.pressureScope budgets insertion.context.projectId
        insertion.context.placement.deviceId (valueCost insertion.kind insertion.value) =
          some scope := by
      rw [CacheBudgetState.pressureScope, CacheBudgetState.limitFailureFor_congr hsame]
      exact hhit
    simp only [pressureFor, hagain, Refused, hhit, reduceCtorEq, false_and, or_false]
  have hcases := Accounted.reserveLocal_cases h insertion.context.projectId
    insertion.context.placement.deviceId (valueCost insertion.kind insertion.value)
  rw [← hscope] at hcases
  cases hplacement : insertion.context.placement with
  | host =>
      rw [hplacement] at hcases
      rcases hcases with ⟨hnone, budget, hreserve, hbalances⟩ | ⟨hne, count, hreserve⟩
      · refine .inl ⟨⟨hnone, by simp [hplacement]⟩, budget, ?_, ?_⟩
        · rw [Insertion.charge, hplacement]
          exact hreserve
        · rw [Insertion.charge, hplacement]
          exact hbalances.perm List.perm_middle.symm
      · have hne : memory.hitScope budgets valueCost insertion ≠ none := fun hnone =>
          hne (hplacement ▸ hscope.1 hnone)
        exact .inr ⟨fun hadmissible => hne hadmissible.1, _, _, hreserve, h.denied count,
          ⟨rfl, rfl, rfl, rfl⟩, hlimit ⟨rfl, rfl, rfl, rfl⟩ hne⟩
  | device deviceId =>
      rw [hplacement] at hcases
      simp only [CachePlacementId.reserve, CacheBudgetState.reserveDevice]
      rcases hcases with ⟨hnone, budget, hreserve, hbalances⟩ | ⟨hne, count, hreserve⟩
      · have hreserve : memory.budget.reserveLocal budgets insertion.context.projectId
            (some deviceId) (valueCost insertion.kind insertion.value) = _ := hreserve
        cases hgpu : gpu evicted with
        | ok answer =>
            refine .inl ⟨⟨hnone, fun _ _ => hgpu⟩, budget, ?_, ?_⟩
            · rw [hreserve, Insertion.charge, hplacement]
              rfl
            · rw [Insertion.charge, hplacement]
              have haccounted := Accounted.step hbalances (.account (.refl _))
              exact haccounted.perm List.perm_middle.symm
        | error error =>
            obtain ⟨released, hrelease, hreleased⟩ := hbalances.release
            have hsame : SameUsage memory.budget released := h.unique hreleased
            refine .inr ⟨fun hadmissible => ?_, released,
              error.withContext ⟨"superi-cache.memory-budget", "reserve_device"⟩, ?_, hreleased, hsame,
              fun pressure => ?_⟩
            · have hyes := hadmissible.2 deviceId hplacement
              rw [hgpu] at hyes
              cases hyes
            · rw [hreserve]
              simp only [Option.bind_eq_bind, Option.bind_some]
              rw [show budget.release insertion.context.projectId
                (CachePlacementId.device deviceId).deviceId
                (valueCost insertion.kind insertion.value) = some released from hrelease]
              rfl
            · have hagain : released.pressureScope budgets insertion.context.projectId
                  (some deviceId) (valueCost insertion.kind insertion.value) = none := by
                rw [hplacement] at hscope
                exact CacheBudgetState.pressureScope_eq_none.2
                  ((CacheBudgetState.limitFailureFor_congr hsame _ _ _).trans (hscope.1 hnone))
              have hcategory : (error.withContext
                ⟨"superi-cache.memory-budget", "reserve_device"⟩).category = error.category := rfl
              simp only [pressureFor, hplacement, CachePlacementId.deviceId, hagain, hcategory,
                Option.map_some, Refused, hnone, reduceCtorEq, false_or, true_and,
                CachePlacementId.device.injEq, hgpu, Except.error.injEq,
                Option.ite_none_right_eq_some, Option.some.injEq]
              constructor
              · rintro ⟨hexhausted, rfl⟩
                exact ⟨deviceId, error, rfl, rfl, hexhausted, rfl⟩
              · rintro ⟨_, _, rfl, rfl, hexhausted, rfl⟩
                exact ⟨hexhausted, rfl⟩
      · have hreserve : memory.budget.reserveLocal budgets insertion.context.projectId
            (some deviceId) (valueCost insertion.kind insertion.value) = _ := hreserve
        have hne : memory.hitScope budgets valueCost insertion ≠ none := fun hnone =>
          hne (hplacement ▸ hscope.1 hnone)
        refine .inr ⟨fun hadmissible => hne hadmissible.1, _, budgetExhausted, ?_, h.denied count,
          ⟨rfl, rfl, rfl, rfl⟩, hlimit ⟨rfl, rfl, rfl, rfl⟩ hne⟩
        rw [hreserve]
        rfl

/-! ## The loop -/

variable (valueCost gpu insertion) in
/-- With as many attempts as there are values the loop ends.  What it evicts is in the documented
order; it stops when the insertion is admitted, or when nothing relieves the scope that refuses it.
-/
theorem insertLoop_spec (h : memory.Balances budgets others) (evicted : List Eviction) :
    ∃ ended more last, (∀ fuel, memory.state.retained.length < fuel →
        insertLoop budgets valueCost gpu insertion fuel evicted memory = some ended) ∧
      ended.evicted = evicted ++ more ∧
      Evicts budgets valueCost gpu insertion evicted memory more last ∧
      ended.memory.state = last.state ∧
      ((ended.reservation = some (insertion.charge valueCost) ∧
          Admissible budgets valueCost gpu insertion (evicted ++ more) last) ∨
        (ended.reservation = none ∧
          ¬ Admissible budgets valueCost gpu insertion (evicted ++ more) last)) ∧
      Balances budgets (ended.reservation.toList ++ others) ended.memory ∧
      (more = [] → ∀ pressure, Refused budgets valueCost gpu insertion evicted memory pressure →
        ∀ tier key, (memory.entry tier key).isSome = true →
          key.matchesPressure pressure = false) := by
  induction hlength : memory.state.retained.length using Nat.strong_induction_on
    generalizing memory evicted with
  | _ length ih =>
      -- one attempt needs one unit of fuel
      have hfuel : ∀ {fuel : Nat}, length < fuel → ∃ rest, fuel = rest + 1 ∧ length ≤ rest :=
        fun hlt => ⟨_, (Nat.sub_add_cancel (Nat.one_le_of_lt hlt)).symm, Nat.le_sub_one_of_lt hlt⟩
      rcases reserve_spec valueCost gpu insertion h evicted with
        ⟨hadmissible, budget, hreserve, hbalances⟩ |
          ⟨hrefused, budget, error, hreserve, hbalances, hsame, hpressure⟩
      · refine ⟨⟨{ memory with budget }, evicted, some (insertion.charge valueCost)⟩, [], memory,
          fun fuel hlt => ?_, (List.append_nil _).symm, .done, rfl, .inl ⟨rfl, ?_⟩, hbalances, ?_⟩
        · obtain ⟨rest, rfl, -⟩ := hfuel hlt
          simp only [insertLoop, hreserve, Option.bind_eq_bind, Option.bind_some, Option.pure_def]
        · rw [List.append_nil]
          exact hadmissible
        · -- an admissible insertion is not refused
          rintro - pressure (hhit | ⟨-, deviceId, error, hplacement, hgpu, -⟩)
          · rw [hadmissible.1] at hhit
            cases hhit
          · rw [hadmissible.2 deviceId hplacement] at hgpu
            cases hgpu
      · have hstuck : ¬ Admissible budgets valueCost gpu insertion (evicted ++ []) memory := by
          rw [List.append_nil]
          exact hrefused
        cases hscope : pressureFor budgets valueCost budget insertion error with
        | none =>
            refine ⟨⟨{ memory with budget }, evicted, none⟩, [], memory, fun fuel hlt => ?_,
              (List.append_nil _).symm, .done, rfl, .inr ⟨rfl, hstuck⟩, hbalances, ?_⟩
            · obtain ⟨rest, rfl, -⟩ := hfuel hlt
              simp only [insertLoop, hreserve, Option.bind_eq_bind, Option.bind_some, hscope,
                Option.pure_def]
            · intro _ pressure hpressed
              rw [(hpressure pressure).2 hpressed] at hscope
              cases hscope
        | some pressure =>
            have hpressed := (hpressure pressure).1 hscope
            rcases evictOneForPressure_spec hbalances pressure with
              ⟨hevict, hnone⟩ | ⟨next, tier, key, hevict, hnext, hwithout, hfewer, hvictim⟩
            · refine ⟨⟨{ memory with budget }, evicted, none⟩, [], memory, fun fuel hlt => ?_,
                (List.append_nil _).symm, .done, rfl, .inr ⟨rfl, hstuck⟩, hbalances, ?_⟩
              · obtain ⟨rest, rfl, -⟩ := hfuel hlt
                simp only [insertLoop, hreserve, Option.bind_eq_bind, Option.bind_some, hscope,
                  hevict, Option.pure_def]
              · intro _ other hother
                have heq := hscope.symm.trans ((hpressure other).2 hother)
                cases heq
                exact hnone
            · obtain ⟨ended, more, last, hends, hevicted, hmore, hstate, hreservation, hlast, -⟩ :=
                ih next.state.retained.length (hlength ▸ hfewer) hnext
                  (evicted ++ [⟨pressure, tier, key⟩]) rfl
              rw [List.append_assoc] at hevicted hreservation
              refine ⟨ended, ⟨pressure, tier, key⟩ :: more, last, fun fuel hlt => ?_, hevicted,
                .next hpressed ⟨hvictim.relieves, hvictim.oldest, hvictim.intermediateFirst⟩ hsame
                  hwithout hmore, hstate, hreservation, hlast, nofun⟩
              obtain ⟨rest, rfl, hle⟩ := hfuel hlt
              simp only [insertLoop, hreserve, Option.bind_eq_bind, Option.bind_some, hscope, hevict]
              exact hends rest (lt_of_lt_of_le (hlength ▸ hfewer) hle)

theorem Evicts.fences {more : List Eviction} {last : FrameCacheMemory V}
    (h : Evicts budgets valueCost gpu insertion evicted memory more last) :
    last.state.minimumValidRevisions = memory.state.minimumValidRevisions := by
  induction h with
  | done => rfl
  | next hrefused hvictim hattempted hwithout hmore ih => exact ih.trans hwithout.fences

/-! ## The whole insertion -/

/-- Dropping what came back from a tier takes its charge back. -/
theorem dropReplaced_spec {replaced : Option (RetainedCacheValue V)}
    (h : Balances budgets (replaced.toList.map RetainedCacheValue.reservation ++ others) memory) :
    ∃ budget, memory.dropReplaced replaced = some { memory with budget } ∧
      Balances budgets others { memory with budget } := by
  cases replaced with
  | none => exact ⟨memory.budget, rfl, h⟩
  | some found =>
      obtain ⟨budget, hrelease, hbalances⟩ := Accounted.release (h.perm List.perm_middle)
      refine ⟨budget, ?_, hbalances⟩
      simp only [dropReplaced, dropValue, hrelease, Option.bind_eq_bind, Option.bind_some,
        Option.pure_def]

variable {sha256 : List UInt8 → BitVec 256}

/-- Without a permit nothing happens; with one, what is retained under the key leaves. -/
theorem removeReplaced_spec (sha256 : List UInt8 → BitVec 256) (insertion : Insertion V)
    (h : memory.Balances budgets others) :
    removeReplaced sha256 memory insertion = some none ∨
      ∃ cleared, removeReplaced sha256 memory insertion = some (some cleared) ∧
        cleared.Balances budgets others ∧
        memory.state.permits insertion.identity = true ∧
        cleared.state.minimumValidRevisions = memory.state.minimumValidRevisions := by
  unfold removeReplaced
  cases hbegin : memory.state.beginInsert insertion.kind
      (insertion.context.entryKey sha256 insertion.identity) insertion.identity with
  | none => exact .inl rfl
  | some found =>
      obtain ⟨state, replaced⟩ := found
      right
      obtain ⟨hshrinks, hfences⟩ := FrameMemoryCacheState.beginInsert_spec hbegin
      have hpermits : memory.state.permits insertion.identity = true := by
        unfold FrameMemoryCacheState.beginInsert at hbegin
        exact (Option.ite_none_right_eq_some.1 hbegin).1
      have hperm := hshrinks.perm.map RetainedCacheValue.reservation
      rw [List.map_append] at hperm
      have hbalances : Balances budgets (replaced.toList.map RetainedCacheValue.reservation ++ others)
          { memory with state } := by
        refine Accounted.perm h ((hperm.append_right others).trans ?_)
        rw [List.append_assoc]
        exact List.perm_append_comm_assoc _ _ _
      obtain ⟨budget, hdrop, hcleared⟩ := dropReplaced_spec hbalances
      exact ⟨{ state, budget }, congrArg (Option.map some) hdrop, hcleared, hpermits, hfences⟩

variable (sha256) in
/-- A permitted value is retained, and what it replaces is dropped. -/
theorem publishValue_spec {reservation : CacheBudgetReservation}
    (h : Balances budgets (reservation :: others) memory)
    (hpermits : memory.state.permits insertion.identity = true) :
    ∃ next, publishValue sha256 memory insertion reservation = some next ∧
      (next.state.entries insertion.kind).value
          (insertion.context.entryKey sha256 insertion.identity) =
        some ⟨insertion.identity, insertion.value, reservation⟩ := by
  obtain ⟨-, hperm, -⟩ := memory.state.publish_spec insertion.kind
    (insertion.context.entryKey sha256 insertion.identity)
    ⟨insertion.identity, insertion.value, reservation⟩
  have hmapped := hperm.map RetainedCacheValue.reservation
  rw [List.map_append, List.map_cons] at hmapped
  unfold publishValue
  cases hpublish : memory.state.publish insertion.kind
      (insertion.context.entryKey sha256 insertion.identity)
      ⟨insertion.identity, insertion.value, reservation⟩ with
  | mk state replaced =>
      rw [hpublish] at hmapped
      have hbalances : Balances budgets (replaced.toList.map RetainedCacheValue.reservation ++ others)
          { memory with state } := by
        refine Accounted.perm h ?_
        refine List.perm_middle.trans ((hmapped.append_right others).trans ?_)
        rw [List.append_assoc]
        exact List.perm_append_comm_assoc _ _ _
      obtain ⟨budget, hdrop, -⟩ := dropReplaced_spec hbalances
      refine ⟨{ state, budget }, hdrop, ?_⟩
      have hstate : state = (memory.state.publish insertion.kind
          (insertion.context.entryKey sha256 insertion.identity)
          ⟨insertion.identity, insertion.value, reservation⟩).1 := by
        rw [hpublish]
      rw [hstate, FrameMemoryCacheState.publish, if_pos hpermits]
      simp only
      rw [FrameMemoryCacheState.entries_setEntries, if_pos rfl, ← LruMap.getElem?_contents,
        (LruMap.insert_spec _ _ _).1, getElem?_insert_eq, if_pos rfl]

variable (sha256 budgets valueCost gpu insertion) in
/-- An insertion evicts only what helps: in the documented order, no more than it takes to be
admitted, and nothing when an empty cache would refuse it too. -/
structure HelpsOnly (memory : FrameCacheMemory V) (outcome : InsertOutcome V) : Prop where
  documented : ∀ cleared, removeReplaced sha256 memory insertion = some (some cleared) →
    ∃ last, Evicts budgets valueCost gpu insertion [] cleared outcome.evicted last ∧
      (outcome.admitted = true ↔ Admissible budgets valueCost gpu insertion outcome.evicted last)
  retained : outcome.admitted = true → (outcome.memory.state.entries insertion.kind).value
      (insertion.context.entryKey sha256 insertion.identity) =
    some ⟨insertion.identity, insertion.value, insertion.charge valueCost⟩
  unpermitted : removeReplaced sha256 memory insertion = some none →
    outcome = ⟨memory, [], false⟩
  hopeless : Hopeless budgets valueCost gpu insertion → outcome.evicted = []

variable (sha256 budgets valueCost gpu insertion) in
/-- The insertion ends after finitely many attempts. -/
def Ends (memory : FrameCacheMemory V) (outcome : InsertOutcome V) : Prop :=
  ∃ attempts, ∀ fuel, attempts ≤ fuel →
    insert sha256 budgets valueCost gpu fuel memory insertion = some outcome

variable (sha256 budgets valueCost gpu insertion) in
/-- When an empty cache would refuse the insertion too, nothing that is retained would relieve the
scope that refuses it first. -/
def NothingToEvict (memory : FrameCacheMemory V) : Prop :=
  ∀ cleared, removeReplaced sha256 memory insertion = some (some cleared) →
    Hopeless budgets valueCost gpu insertion →
    ∀ pressure, Refused budgets valueCost gpu insertion [] cleared pressure →
    ∀ tier key, (cleared.entry tier key).isSome = true → key.matchesPressure pressure = false

variable (valueCost gpu) in
/-- How an insertion with a permit ends. -/
theorem insert_of_permit {cleared : FrameCacheMemory V} (hcleared : cleared.Balances budgets others)
    (hremove : removeReplaced sha256 memory insertion = some (some cleared))
    (hpermits : cleared.state.permits insertion.identity = true) :
    ∃ outcome last, Ends budgets valueCost gpu insertion sha256 memory outcome ∧
      Evicts budgets valueCost gpu insertion [] cleared outcome.evicted last ∧
      (outcome.admitted = true ↔ Admissible budgets valueCost gpu insertion outcome.evicted last) ∧
      (outcome.admitted = true → (outcome.memory.state.entries insertion.kind).value
          (insertion.context.entryKey sha256 insertion.identity) =
        some ⟨insertion.identity, insertion.value, insertion.charge valueCost⟩) ∧
      (outcome.evicted = [] →
        ∀ pressure, Refused budgets valueCost gpu insertion [] cleared pressure →
        ∀ tier key, (cleared.entry tier key).isSome = true → key.matchesPressure pressure = false) := by
  obtain ⟨ended, more, last, hends, hevicted, hmore, hstate, hreservation, hlast, hnone⟩ :=
    insertLoop_spec valueCost gpu insertion hcleared []
  rw [List.nil_append] at hevicted hreservation
  subst hevicted
  rcases hreservation with ⟨hreservation, hadmissible⟩ | ⟨hreservation, hstuck⟩
  · rw [hreservation] at hlast
    have hlastPermits : ended.memory.state.permits insertion.identity = true := by
      rw [hstate, FrameMemoryCacheState.permits_congr hmore.fences]
      exact hpermits
    obtain ⟨next, hpublish, hretained⟩ := publishValue_spec sha256 hlast hlastPermits
    refine ⟨⟨next, ended.evicted, true⟩, last,
      ⟨cleared.state.retained.length + 1, fun fuel hle => ?_⟩, hmore,
      ⟨fun _ => hadmissible, fun _ => rfl⟩, fun _ => hretained, hnone⟩
    simp only [insert, hremove, hends fuel hle, hreservation, hpublish, Option.bind_eq_bind,
      Option.bind_some, Option.pure_def]
  · refine ⟨⟨ended.memory, ended.evicted, false⟩, last,
      ⟨cleared.state.retained.length + 1, fun fuel hle => ?_⟩, hmore,
      ⟨nofun, fun hadmissible => absurd hadmissible hstuck⟩, nofun, hnone⟩
    simp only [insert, hremove, hends fuel hle, hreservation, Option.bind_eq_bind, Option.bind_some,
      Option.pure_def]

theorem Ends.unique {outcome outcome' : InsertOutcome V}
    (h : Ends budgets valueCost gpu insertion sha256 memory outcome)
    (h' : Ends budgets valueCost gpu insertion sha256 memory outcome') : outcome = outcome' := by
  obtain ⟨attempts, hends⟩ := h
  obtain ⟨attempts', hends'⟩ := h'
  have heq := (hends _ (le_max_left attempts attempts')).symm.trans
    (hends' _ (le_max_right attempts attempts'))
  exact Option.some.inj heq

theorem helpsOnly_iff (h : memory.Balances budgets others) :
    (∃ outcome, Ends budgets valueCost gpu insertion sha256 memory outcome ∧
      HelpsOnly budgets valueCost gpu insertion sha256 memory outcome) ↔
    NothingToEvict budgets valueCost gpu insertion sha256 memory := by
  rcases removeReplaced_spec sha256 insertion h with
    hremove | ⟨cleared, hremove, hcleared, hpermits, hfences⟩
  · -- without a permit there is nothing to show
    refine ⟨fun _ cleared hother => ?_, fun _ => ⟨⟨memory, [], false⟩, ⟨0, fun fuel _ => ?_⟩,
      fun cleared hother => ?_, nofun, fun _ => rfl, fun _ => rfl⟩⟩
    · rw [hremove] at hother
      cases hother
    · simp only [insert, hremove, Option.bind_eq_bind, Option.bind_some, Option.pure_def]
    · rw [hremove] at hother
      cases hother
  · have hclearedPermits : cleared.state.permits insertion.identity = true := by
      rw [FrameMemoryCacheState.permits_congr hfences]
      exact hpermits
    obtain ⟨outcome, last, hends, hevicts, hadmitted, hretained, hnone⟩ :=
      insert_of_permit valueCost gpu hcleared hremove hclearedPermits
    constructor
    · rintro ⟨other, hother, hhelps⟩ cleared' hremove' hhopeless
      cases hother.unique hends
      rw [hremove] at hremove'
      cases hremove'
      exact hnone (hhelps.hopeless hhopeless)
    · intro hnothing
      refine ⟨outcome, hends, ?_, hretained, ?_, fun hhopeless => ?_⟩
      · intro cleared' hremove'
        rw [hremove] at hremove'
        cases hremove'
        exact ⟨last, hevicts, hadmitted⟩
      · intro hremove'
        rw [hremove] at hremove'
        cases hremove'
      · -- the first eviction would be of an entry that relieves the scope
        cases hevicted : outcome.evicted with
        | nil => rfl
        | cons eviction more =>
            rw [hevicted] at hevicts
            cases hevicts with
            | next hrefused hvictim hattempted hwithout hmore =>
                obtain ⟨found, hfound, -⟩ := hvictim.oldest
                have hunmatched := hnothing cleared hremove hhopeless _ hrefused eviction.tier
                  eviction.key (by rw [hfound]; rfl)
                rw [hvictim.relieves] at hunmatched
                cases hunmatched

/-- From every reachable cache an insertion ends; it evicts only what helps exactly when an empty
cache would admit its value, or holds nothing in the scope that refuses it first. -/
theorem eviction_helps_iff {count : Nat} {actions : List (FrameCacheAction V)}
    {cache : FrameMemoryCache V}
    (hrun : Machine.run (FrameMemoryCache.step sha256 budgets valueCost) (.new count) actions =
      some cache) (gpu : List Eviction → Except Error Unit) (insertion : Insertion V) :
    (∃ outcome, Ends budgets valueCost gpu insertion sha256 cache.memory outcome ∧
      HelpsOnly budgets valueCost gpu insertion sha256 cache.memory outcome) ↔
    NothingToEvict budgets valueCost gpu insertion sha256 cache.memory :=
  helpsOnly_iff (FrameMemoryCache.Consistent.run hrun).accounted

/-! ### A value that never fits -/

/-- The value 9 takes two frames of the one there is room for. -/
def sizedCost (_ : EvaluationCacheEntryKind) (value : Nat) : CacheCost :=
  if value = 9 then ⟨16, 2, singleFrameCost.bytesPos, Nat.two_pos⟩ else singleFrameCost

def oversizedInsertion : Insertion Nat where
  context := FrameMemoryCache.racingInsertion.context
  kind := .intermediateNode
  identity := FrameMemoryCache.racingIdentity
  value := 9

/-- One final frame is retained. -/
def frameActions : List (FrameCacheAction Nat) :=
  [.beginInsert 0 FrameMemoryCache.racingInsertion, .reserve 0, .publish 0]

def frameRun : Option (FrameMemoryCache Nat) :=
  Machine.run (FrameMemoryCache.step FrameMemoryCache.racingDigest singleFrameBudgets sizedCost)
    (.new 1) frameActions

theorem eviction_helps_iff_frame : ∃ cache, frameRun = some cache ∧
    ∃ outcome, Ends singleFrameBudgets sizedCost (fun _ => .ok ()) FrameMemoryCache.racingInsertion
      FrameMemoryCache.racingDigest cache.memory outcome ∧
    HelpsOnly singleFrameBudgets sizedCost (fun _ => .ok ()) FrameMemoryCache.racingInsertion
      FrameMemoryCache.racingDigest cache.memory outcome := by
  have hsome : frameRun.isSome = true := by decide +kernel
  obtain ⟨cache, hrun⟩ := Option.isSome_iff_exists.1 hsome
  refine ⟨cache, hrun, (eviction_helps_iff hrun _ _).2 fun cleared hremove hhopeless => ?_⟩
  rcases hhopeless with hlimit | ⟨deviceId, hplacement, -⟩
  · exact absurd (by decide) hlimit
  · cases hplacement

theorem oversized_empties_the_cache : ∃ cache, frameRun = some cache ∧
    ¬ ∃ outcome, Ends singleFrameBudgets sizedCost (fun _ => .ok ()) oversizedInsertion
      FrameMemoryCache.racingDigest cache.memory outcome ∧
    HelpsOnly singleFrameBudgets sizedCost (fun _ => .ok ()) oversizedInsertion
      FrameMemoryCache.racingDigest cache.memory outcome := by
  have hheld : (frameRun.bind fun cache => (removeReplaced FrameMemoryCache.racingDigest cache.memory
      oversizedInsertion).bind fun cleared => cleared.map fun cleared =>
        (cleared.hitScope singleFrameBudgets sizedCost oversizedInsertion,
          (cleared.entry .finalFrame (oversizedInsertion.context.entryKey
            FrameMemoryCache.racingDigest FrameMemoryCache.racingIdentity)).isSome)) =
      some (some .total, true) := by
    decide +kernel
  obtain ⟨cache, hrun, hheld⟩ := Option.bind_eq_some_iff.1 hheld
  obtain ⟨found, hremove, hheld⟩ := Option.bind_eq_some_iff.1 hheld
  obtain ⟨cleared, hfound, hheld⟩ := Option.map_eq_some_iff.1 hheld
  rw [hfound] at hremove
  obtain ⟨hscope, hentry⟩ := Prod.mk.inj hheld
  refine ⟨cache, hrun, fun hhelps => ?_⟩
  have hbalances : cache.memory.Balances singleFrameBudgets cache.inFlight :=
    (FrameMemoryCache.Consistent.run hrun).accounted
  have hnothing := (helpsOnly_iff hbalances).1 hhelps
  have hunmatched := hnothing cleared hremove (.inl (by decide)) .total (.inl hscope) .finalFrame _
    hentry
  cases hunmatched

end FrameCacheMemory

end Cache
end Superi

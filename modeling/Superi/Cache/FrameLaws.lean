import Superi.Cache.BudgetLaws
import Superi.Cache.Frame
import Superi.Lib.Ledger
import Superi.Lib.Sequence

/-!
# FrameLaws — invalidated frames never come back

The fences only rise, and what is retained always meets the fence of its own lineage: the second
permit of an insertion is taken under the lock that an invalidation raises the fences under.  The
reservations of retained values, with those on their way in or out, are the live reservations of the
budget manager; every step of the cache is at most one step of it.
-/

namespace Superi
namespace Cache

open Core Graph Keyed Result

variable {V : Type}

/-! ## Fences -/

namespace FrameMemoryCacheState

variable {state state' : FrameMemoryCacheState V}

/-- A permit is a revision not below the fence, where there is one. -/
theorem permits_iff {identity : EvaluationCacheIdentity} :
    state.permits identity = true ↔
      ∀ minimum, state.minimumValidRevisions[GraphLineage.of identity]? = some minimum →
        ∃ revision, identity.graphRevision = some revision ∧ minimum ≤ revision := by
  unfold permits
  cases hfence : state.minimumValidRevisions[GraphLineage.of identity]? with
  | none => simp
  | some minimum =>
      cases hrevision : identity.graphRevision with
      | none => simp
      | some revision => simp

theorem permits_congr (h : state'.minimumValidRevisions = state.minimumValidRevisions)
    (identity : EvaluationCacheIdentity) : state'.permits identity = state.permits identity := by
  unfold permits
  rw [h]

/-- Raising the fences of some nodes of a graph raises no other fence. -/
theorem getElem?_raiseFences (graphId : GraphId) (revision : Nat) (nodes : List NodeId)
    (fences : Std.ExtTreeMap GraphLineage Nat) (lineage : GraphLineage) :
    (nodes.foldl (fun fences nodeId => raiseFence fences ⟨graphId, nodeId⟩ revision) fences)[
        lineage]? =
      if lineage.graphId = graphId ∧ lineage.nodeId ∈ nodes then
        some (max (fences[lineage]?.getD revision) revision)
      else fences[lineage]? := by
  induction nodes generalizing fences with
  | nil => simp
  | cons nodeId rest ih =>
      rw [List.foldl_cons, ih]
      by_cases hnode : lineage = ⟨graphId, nodeId⟩
      · subst hnode
        simp [raiseFence]
      · have hother : (raiseFence fences ⟨graphId, nodeId⟩ revision)[lineage]? =
            fences[lineage]? := by
          rw [raiseFence, getElem?_insert_eq, if_neg hnode]
        have hmem : (lineage.graphId = graphId ∧ lineage.nodeId ∈ nodeId :: rest) ↔
            (lineage.graphId = graphId ∧ lineage.nodeId ∈ rest) := by
          cases lineage
          simp only [GraphLineage.mk.injEq, not_and] at hnode
          simp only [List.mem_cons]
          exact ⟨fun ⟨hgraph, h⟩ => ⟨hgraph, h.resolve_left (hnode hgraph)⟩,
            fun ⟨hgraph, h⟩ => ⟨hgraph, .inr h⟩⟩
        simp only [hother, hmem]

/-! ## Tiers -/

@[simp] theorem minimumValidRevisions_setEntries (kind : EvaluationCacheEntryKind)
    (entries : CacheEntries V) :
    (state.setEntries kind entries).minimumValidRevisions = state.minimumValidRevisions := by
  cases kind <;> rfl

theorem entries_setEntries (kind kind' : EvaluationCacheEntryKind) (entries : CacheEntries V) :
    (state.setEntries kind entries).entries kind' =
      if kind' = kind then entries else state.entries kind' := by
  cases kind <;> cases kind' <;> rfl

/-- The values of both tiers. -/
def retained (state : FrameMemoryCacheState V) : List (RetainedCacheValue V) :=
  valuesOf state.finalFrames.contents ++ valuesOf state.intermediateNodes.contents

/-- Values leave the tiers, and nothing else changes there. -/
structure Shrinks (state state' : FrameMemoryCacheState V)
    (removed : List (RetainedCacheValue V)) : Prop where
  kept : ∀ kind key found, (state'.entries kind).value key = some found →
    (state.entries kind).value key = some found
  perm : state.retained.Perm (removed ++ state'.retained)

theorem Shrinks.refl (state : FrameMemoryCacheState V) : Shrinks state state [] :=
  ⟨fun _ _ _ h => h, .refl _⟩

/-- A change of one tier is a change of both together. -/
theorem retained_setEntries_perm {kind : EvaluationCacheEntryKind} {entries : CacheEntries V}
    {gone : List (RetainedCacheValue V)} (arrived : List (RetainedCacheValue V))
    (h : (arrived ++ valuesOf (state.entries kind).contents).Perm
      (gone ++ valuesOf entries.contents)) :
    (arrived ++ state.retained).Perm (gone ++ (state.setEntries kind entries).retained) := by
  cases kind with
  | finalFrame =>
      rw [retained, retained, ← List.append_assoc, ← List.append_assoc]
      exact h.append_right _
  | intermediateNode =>
      refine (List.perm_append_comm_assoc _ _ _).trans ?_
      exact (h.append_left _).trans (List.perm_append_comm_assoc _ _ _)

theorem shrinks_setEntries {kind : EvaluationCacheEntryKind} {entries : CacheEntries V}
    {removed : List (RetainedCacheValue V)}
    (hkept : ∀ key found, entries.value key = some found →
      (state.entries kind).value key = some found)
    (hperm : (valuesOf (state.entries kind).contents).Perm
      (removed ++ valuesOf entries.contents)) :
    Shrinks state (state.setEntries kind entries) removed where
  kept kind' key found hfound := by
    rw [entries_setEntries] at hfound
    split at hfound
    · rename_i heq
      rw [heq]
      exact hkept key found hfound
    · exact hfound
  perm := retained_setEntries_perm [] hperm

/-! ## Operations -/

/-- A lookup finds what is retained, if it is permitted, and leaves it there. -/
theorem get_spec (state : FrameMemoryCacheState V) (kind : EvaluationCacheEntryKind)
    (key : CacheEntryKey) (identity : EvaluationCacheIdentity) :
    Shrinks state (state.get kind key identity).1 [] ∧
      (state.get kind key identity).1.minimumValidRevisions = state.minimumValidRevisions ∧
      (state.get kind key identity).2 =
        if state.permits identity then (state.entries kind).value key else none := by
  unfold get
  split
  · obtain ⟨hcontents, hfound⟩ := (state.entries kind).get_spec key
    refine ⟨shrinks_setEntries ?_ ?_, minimumValidRevisions_setEntries _ _, hfound⟩
    · intro other found h
      rwa [LruMap.value_eq_of_contents hcontents] at h
    · rw [hcontents]
      rfl
  · exact ⟨.refl state, rfl, rfl⟩

theorem beginInsert_spec {kind : EvaluationCacheEntryKind} {key : CacheEntryKey}
    {identity : EvaluationCacheIdentity} {replaced : Option (RetainedCacheValue V)}
    (h : state.beginInsert kind key identity = some (state', replaced)) :
    Shrinks state state' replaced.toList ∧
      state'.minimumValidRevisions = state.minimumValidRevisions := by
  unfold beginInsert at h
  split at h
  · obtain ⟨hcontents, hreplaced⟩ := (state.entries kind).remove_spec key
    simp only [Option.some.injEq, Prod.mk.injEq] at h
    obtain ⟨rfl, rfl⟩ := h
    refine ⟨shrinks_setEntries ?_ ?_, minimumValidRevisions_setEntries _ _⟩
    · intro other found hfound
      rw [← LruMap.getElem?_contents, hcontents, getElem?_erase_eq] at hfound
      split at hfound
      · cases hfound
      · rwa [LruMap.getElem?_contents] at hfound
    · rw [hcontents, hreplaced, ← LruMap.getElem?_contents]
      exact valuesOf_perm_erase _ _
  · cases h

theorem evict_spec (state : FrameMemoryCacheState V) (tier : EvaluationCacheEntryKind)
    (maximum : Nat) (eligible : CacheEntryKey → Bool) :
    Shrinks state (state.evict tier maximum eligible).1 (state.evict tier maximum eligible).2 ∧
      (state.evict tier maximum eligible).1.minimumValidRevisions =
        state.minimumValidRevisions := by
  obtain ⟨hkept, hperm⟩ := (state.entries tier).evictLruWhere_spec maximum eligible
  exact ⟨shrinks_setEntries hkept hperm, minimumValidRevisions_setEntries _ _⟩

theorem clear_spec (state : FrameMemoryCacheState V) :
    Shrinks state state.clear.1 state.clear.2 ∧
      state.clear.1.minimumValidRevisions = state.minimumValidRevisions := by
  have hempty (map : CacheEntries V) (h : map = .default) (key : CacheEntryKey) :
      map.value key = none := by
    rw [h]
    rfl
  refine ⟨⟨fun kind key found hfound => ?_, ?_⟩, rfl⟩
  · cases kind with
    | finalFrame => exact nomatch (hempty _ rfl key).symm.trans hfound
    | intermediateNode => exact nomatch (hempty _ rfl key).symm.trans hfound
  · have hnone : valuesOf (LruMap.default : CacheEntries V).contents = [] := by
      rw [LruMap.contents_default]
      rfl
    simp only [clear, retained, hnone, List.append_nil]
    exact .refl _

/-- What an invalidation removes, what it keeps and which fences it raises. -/
theorem applyInvalidation_spec (state : FrameMemoryCacheState V)
    (invalidation : GraphEditInvalidation) :
    (∀ kind key, ((state.applyInvalidation invalidation).1.entries kind).value key =
        ((state.entries kind).value key).filter fun found =>
          !invalidates invalidation found.identity) ∧
      state.retained.Perm ((state.applyInvalidation invalidation).2 ++
        (state.applyInvalidation invalidation).1.retained) ∧
      ∀ lineage : GraphLineage, (state.applyInvalidation invalidation).1.minimumValidRevisions[lineage]? =
        if lineage.graphId = invalidation.graphId ∧ lineage.nodeId ∈ invalidation.affectedNodes then
          some (max (state.minimumValidRevisions[lineage]?.getD invalidation.toRevision)
            invalidation.toRevision)
        else state.minimumValidRevisions[lineage]? := by
  obtain ⟨hfinal, hfinalPerm⟩ := state.finalFrames.removeWhere_spec
    fun _ found => invalidates invalidation found.identity
  obtain ⟨hnode, hnodePerm⟩ := state.intermediateNodes.removeWhere_spec
    fun _ found => invalidates invalidation found.identity
  refine ⟨fun kind => ?_, ?_, getElem?_raiseFences _ _ _ _⟩
  · cases kind with
    | finalFrame => exact hfinal
    | intermediateNode => exact hnode
  · simp only [applyInvalidation, extractInvalidatedEntries, retained, List.map_append]
    refine (hfinalPerm.append hnodePerm).trans ?_
    rw [List.append_assoc, List.append_assoc]
    exact (List.perm_append_comm_assoc _ _ _).append_left _

/-- A publication retains the value when it is permitted, and hands it back otherwise. -/
theorem publish_spec (state : FrameMemoryCacheState V) (kind : EvaluationCacheEntryKind)
    (key : CacheEntryKey) (found : RetainedCacheValue V) :
    (state.publish kind key found).1.minimumValidRevisions = state.minimumValidRevisions ∧
      (found :: state.retained).Perm
        ((state.publish kind key found).2.toList ++ (state.publish kind key found).1.retained) ∧
      ∀ kind' key' other,
        ((state.publish kind key found).1.entries kind').value key' = some other →
        (state.entries kind').value key' = some other ∨
          (state.permits found.identity = true ∧ kind' = kind ∧ key' = key ∧ other = found) := by
  unfold publish
  split
  case isFalse => exact ⟨rfl, .refl _, fun _ _ _ h => .inl h⟩
  case isTrue hpermits =>
      obtain ⟨hcontents, hreplaced⟩ := (state.entries kind).insert_spec key found
      refine ⟨minimumValidRevisions_setEntries _ _, ?_, fun kind' key' other hother => ?_⟩
      · refine retained_setEntries_perm [found] ?_
        rw [hcontents, hreplaced, ← LruMap.getElem?_contents]
        refine ((valuesOf_perm_erase _ key).cons found).trans ?_
        refine List.perm_middle.symm.trans (List.Perm.append_left _ ?_)
        exact (valuesOf_insert_perm _ _ _).symm
      · rw [entries_setEntries] at hother
        split at hother
        · rename_i hkind
          rw [← LruMap.getElem?_contents, hcontents, getElem?_insert_eq] at hother
          split at hother
          · rename_i hkey
            exact .inr ⟨hpermits, hkind, hkey, (Option.some.inj hother).symm⟩
          · rw [LruMap.getElem?_contents] at hother
            exact .inl (by rw [hkind]; exact hother)
        · exact .inl hother

end FrameMemoryCacheState

/-! ## What a step does -/

/-- The reservations a thread holds for its own insertion. -/
def InsertPhase.reservations : InsertPhase V → List CacheBudgetReservation
  | .provisional _ reservation => [reservation]
  | .admitted _ reservation => [reservation]
  | _ => []

/-- The thread is between two calls and holds no removed value. -/
def CacheThread.isQuiet : CacheThread V → Bool
  | ⟨.idle, []⟩ => true
  | _ => false

theorem CacheThread.eq_idle_of_isQuiet {thread : CacheThread V} (h : thread.isQuiet = true) :
    thread = .idle := by
  unfold isQuiet at h
  split at h
  · rfl
  · cases h

/-- All reservations in the hands of a thread. -/
def CacheThread.reservations (thread : CacheThread V) : List CacheBudgetReservation :=
  thread.phase.reservations ++ thread.removed.map RetainedCacheValue.reservation

/-- Where a local admission leads: a device has yet to answer. -/
def admittedPhase (insertion : Insertion V) (reservation : CacheBudgetReservation) :
    InsertPhase V :=
  match insertion.context.placement.deviceId with
  | none => .admitted insertion reservation
  | some _ => .provisional insertion reservation

namespace FrameMemoryCache

open FrameMemoryCacheState

section Step

variable {sha256 : List UInt8 → BitVec 256} {budgets : CacheMemoryBudgets}
  {valueCost : EvaluationCacheEntryKind → V → CacheCost} {cache next : FrameMemoryCache V}
  {action : FrameCacheAction V} {thread : Nat}

variable (sha256 budgets valueCost) in
/-- The effects a step can have. -/
inductive StepEffect (cache : FrameMemoryCache V) : FrameMemoryCache V → Prop
  /-- nothing at all, or a promotion -/
  | looked {state : FrameMemoryCacheState V} (hshrinks : Shrinks cache.state state [])
      (hfences : state.minimumValidRevisions = cache.state.minimumValidRevisions) :
      StepEffect cache { cache with state }
  /-- values are taken out of the tiers -/
  | took {thread : Nat} {state : FrameMemoryCacheState V} {phase phase' : InsertPhase V}
      {removed : List (RetainedCacheValue V)} (hthread : cache.threads[thread]? = some ⟨phase, []⟩)
      (hphase : phase.reservations = []) (hphase' : phase'.reservations = [])
      (hshrinks : Shrinks cache.state state removed)
      (hfences : state.minimumValidRevisions = cache.state.minimumValidRevisions) :
      StepEffect cache ({ cache with state }.setThread thread phase' removed)
  | invalidated {thread : Nat} (invalidation : GraphEditInvalidation)
      (hthread : cache.threads[thread]? = some .idle) :
      StepEffect cache ({ cache with
        state := (cache.state.applyInvalidation invalidation).1 }.setThread thread .idle
          (cache.state.applyInvalidation invalidation).2)
  | admitted {thread : Nat} {insertion : Insertion V} {budget : CacheBudgetState}
      {reservation : CacheBudgetReservation}
      (hthread : cache.threads[thread]? = some ⟨.reserving insertion, []⟩)
      (hreserve : cache.budget.reserveLocal budgets insertion.context.projectId
        insertion.context.placement.deviceId (valueCost insertion.kind insertion.value) =
          some (budget, .ok reservation)) :
      StepEffect cache ({ cache with budget }.setThread thread
        (admittedPhase insertion reservation) [])
  | denied {thread : Nat} {insertion : Insertion V} {budget : CacheBudgetState} {error : Error}
      (hthread : cache.threads[thread]? = some ⟨.reserving insertion, []⟩)
      (hreserve : cache.budget.reserveLocal budgets insertion.context.projectId
        insertion.context.placement.deviceId (valueCost insertion.kind insertion.value) =
          some (budget, .error error)) :
      StepEffect cache ({ cache with budget }.setThread thread (.denied insertion error) [])
  | answered {thread : Nat} {insertion : Insertion V} {reservation : CacheBudgetReservation}
      (hthread : cache.threads[thread]? = some ⟨.provisional insertion reservation, []⟩) :
      StepEffect cache (cache.setThread thread
        (.admitted insertion { reservation with gpuAccounted := true }) [])
  | declined {thread : Nat} {insertion : Insertion V} {reservation : CacheBudgetReservation}
      {budget : CacheBudgetState} (error : Error)
      (hthread : cache.threads[thread]? = some ⟨.provisional insertion reservation, []⟩)
      (hrelease : cache.budget.release reservation.projectId reservation.deviceId
        reservation.cost = some budget) :
      StepEffect cache ({ cache with budget }.setThread thread (.denied insertion error) [])
  | published {thread : Nat} {insertion : Insertion V} {reservation : CacheBudgetReservation}
      (hthread : cache.threads[thread]? = some ⟨.admitted insertion reservation, []⟩) :
      StepEffect cache (cache.stepPublish sha256 thread insertion reservation)
  | dropped {thread : Nat} {phase : InsertPhase V} {found : RetainedCacheValue V}
      {removed : List (RetainedCacheValue V)} {budget : CacheBudgetState}
      (hthread : cache.threads[thread]? = some ⟨phase, found :: removed⟩)
      (hrelease : cache.budget.release found.reservation.projectId found.reservation.deviceId
        found.reservation.cost = some budget) :
      StepEffect cache ({ cache with budget }.setThread thread phase removed)

theorem phase_eq_some {phase : InsertPhase V} (h : cache.phase thread = some phase) :
    cache.threads[thread]? = some ⟨phase, []⟩ := by
  unfold FrameMemoryCache.phase at h
  split at h
  · rename_i hthread
    cases h
    exact hthread
  · cases h

theorem threads_of_isIdle (h : cache.isIdle thread = true) :
    cache.threads[thread]? = some .idle := by
  unfold isIdle at h
  split at h
  · rename_i hphase
    exact phase_eq_some hphase
  · cases h

theorem pressureAfter_reservations (budget : CacheBudgetState) (insertion : Insertion V)
    (cost : CacheCost) (error : Error) :
    (pressureAfter budgets budget insertion cost error).reservations = [] := by
  simp only [pressureAfter]
  split
  · rfl
  · split
    · split <;> rfl
    · rfl

theorem StepEffect.of_beginInsert {insertion : Insertion V}
    (hthread : cache.threads[thread]? = some .idle) :
    StepEffect sha256 budgets valueCost cache (cache.stepBeginInsert sha256 thread insertion) := by
  unfold stepBeginInsert
  split
  · exact .looked (.refl _) rfl
  · rename_i state replaced hbegin
    obtain ⟨hshrinks, hfences⟩ := beginInsert_spec hbegin
    exact .took hthread rfl rfl hshrinks hfences

theorem StepEffect.of_reserve {insertion : Insertion V}
    (hthread : cache.threads[thread]? = some ⟨.reserving insertion, []⟩)
    (hstep : cache.stepReserve budgets valueCost thread insertion = some next) :
    StepEffect sha256 budgets valueCost cache next := by
  simp only [stepReserve, Option.bind_eq_bind, Option.pure_def, Option.bind_eq_some_iff,
    Option.some.injEq, Prod.exists] at hstep
  obtain ⟨budget, result, hreserve, rfl⟩ := hstep
  cases result with
  | error error => exact .denied hthread hreserve
  | ok reservation =>
      have hadmitted : StepEffect sha256 budgets valueCost cache
          ({ cache with budget }.setThread thread (admittedPhase insertion reservation) []) :=
        .admitted hthread hreserve
      unfold admittedPhase at hadmitted
      cases hdevice : insertion.context.placement.deviceId with
      | none => simpa only [hdevice] using hadmitted
      | some deviceId => simpa only [hdevice] using hadmitted

theorem StepEffect.of_answer {insertion : Insertion V} {reservation : CacheBudgetReservation}
    {gpu : Except Error Unit}
    (hthread : cache.threads[thread]? = some ⟨.provisional insertion reservation, []⟩)
    (hstep : cache.stepAnswer thread insertion reservation gpu = some next) :
    StepEffect sha256 budgets valueCost cache next := by
  cases gpu with
  | ok answer =>
      cases hstep
      exact .answered hthread
  | error error =>
      simp only [stepAnswer, Option.bind_eq_bind, Option.pure_def, Option.bind_eq_some_iff,
        Option.some.injEq] at hstep
      obtain ⟨budget, hrelease, rfl⟩ := hstep
      exact .declined _ hthread hrelease

theorem StepEffect.of_evictForPressure {insertion : Insertion V} {pressure : CachePressureScope}
    {tier : EvaluationCacheEntryKind}
    (hthread : cache.threads[thread]? = some ⟨.evicting insertion pressure tier, []⟩) :
    StepEffect sha256 budgets valueCost cache
      (cache.stepEvictForPressure thread insertion pressure tier) := by
  obtain ⟨hshrinks, hfences⟩ :=
    cache.state.evict_spec tier 1 fun key => key.matchesPressure pressure
  unfold stepEvictForPressure
  cases hevict : cache.state.evict tier 1 fun key => key.matchesPressure pressure with
  | mk state removed =>
      rw [hevict] at hshrinks hfences
      cases removed with
      | nil =>
          cases tier with
          | finalFrame => exact .took hthread rfl rfl hshrinks hfences
          | intermediateNode => exact .took hthread rfl rfl hshrinks hfences
      | cons found rest => exact .took hthread rfl rfl hshrinks hfences

/-- Every step has one of the effects. -/
theorem step_cases (hstep : cache.step sha256 budgets valueCost action = some next) :
    StepEffect sha256 budgets valueCost cache next := by
  cases action with
  | get kind context identity =>
      cases hstep
      obtain ⟨hshrinks, hfences, -⟩ :=
        cache.state.get_spec kind (context.entryKey sha256 identity) identity
      exact .looked hshrinks hfences
  | beginInsert thread insertion =>
      obtain ⟨hidle, hnext⟩ := Option.ite_none_right_eq_some.1 hstep
      cases hnext
      exact .of_beginInsert (threads_of_isIdle hidle)
  | reserve thread =>
      simp only [step] at hstep
      split at hstep
      · rename_i hphase
        exact .of_reserve (phase_eq_some hphase) hstep
      · cases hstep
  | answer thread gpu =>
      simp only [step] at hstep
      split at hstep
      · rename_i hphase
        exact .of_answer (phase_eq_some hphase) hstep
      · cases hstep
  | pressure thread =>
      simp only [step] at hstep
      split at hstep
      · rename_i hphase
        cases hstep
        exact .took (phase_eq_some hphase) rfl (pressureAfter_reservations _ _ _ _) (.refl _) rfl
      · cases hstep
  | evictForPressure thread =>
      simp only [step] at hstep
      split at hstep
      · rename_i hphase
        cases hstep
        exact .of_evictForPressure (phase_eq_some hphase)
      · cases hstep
  | publish thread =>
      simp only [step] at hstep
      split at hstep
      · rename_i hphase
        cases hstep
        exact .published (phase_eq_some hphase)
      · cases hstep
  | drop thread =>
      simp only [step, stepDrop] at hstep
      split at hstep
      · rename_i hthread
        simp only [Option.bind_eq_bind, Option.pure_def, Option.bind_eq_some_iff,
          Option.some.injEq] at hstep
        obtain ⟨budget, hrelease, rfl⟩ := hstep
        exact .dropped hthread hrelease
      · cases hstep
  | evictLru thread tier maximum =>
      obtain ⟨hidle, hnext⟩ := Option.ite_none_right_eq_some.1 hstep
      cases hnext
      obtain ⟨hshrinks, hfences⟩ := cache.state.evict_spec tier maximum fun _ => true
      exact .took (threads_of_isIdle hidle) rfl rfl hshrinks hfences
  | applyInvalidation thread invalidation =>
      obtain ⟨hidle, hnext⟩ := Option.ite_none_right_eq_some.1 hstep
      cases hnext
      exact .invalidated invalidation (threads_of_isIdle hidle)
  | clear thread =>
      obtain ⟨hidle, hnext⟩ := Option.ite_none_right_eq_some.1 hstep
      cases hnext
      obtain ⟨hshrinks, hfences⟩ := cache.state.clear_spec
      exact .took (threads_of_isIdle hidle) rfl rfl hshrinks hfences

end Step

/-! ## Reservations -/

/-- The reservations of the retained values. -/
def retainedReservations (cache : FrameMemoryCache V) : List CacheBudgetReservation :=
  cache.state.retained.map RetainedCacheValue.reservation

/-- The reservations on their way in or out. -/
def inFlight (cache : FrameMemoryCache V) : List CacheBudgetReservation :=
  cache.threads.flatMap CacheThread.reservations

def live (cache : FrameMemoryCache V) : List CacheBudgetReservation :=
  cache.retainedReservations ++ cache.inFlight

section Live

variable {sha256 : List UInt8 → BitVec 256} {budgets : CacheMemoryBudgets}
  {valueCost : EvaluationCacheEntryKind → V → CacheCost} {cache next : FrameMemoryCache V}
  {thread : Nat}

/-- What moves between the tiers, a thread and the outside is neither lost nor doubled: `extra`
comes in and `less` goes out. -/
theorem live_setThread_perm {old : CacheThread V} (state : FrameMemoryCacheState V)
    (budget : CacheBudgetState) (phase : InsertPhase V) (removed : List (RetainedCacheValue V))
    (extra less : List CacheBudgetReservation) (hthread : cache.threads[thread]? = some old)
    (hbalance : (old.reservations ++ cache.retainedReservations ++ extra).Perm
      ((CacheThread.mk phase removed).reservations ++
        state.retained.map RetainedCacheValue.reservation ++ less)) :
    (cache.live ++ extra).Perm
      (({ cache with state, budget }.setThread thread phase removed).live ++ less) := by
  have hthreads := Sequence.flatMap_set_perm CacheThread.reservations (CacheThread.mk phase removed)
    hthread
  simp only [live, inFlight, setThread, retainedReservations] at hbalance hthreads ⊢
  simp only [← Multiset.coe_eq_coe, ← Multiset.coe_add] at hbalance hthreads ⊢
  exact Ledger.transfer hbalance hthreads

/-- Values that leave the tiers with a thread stay accounted for. -/
theorem live_took_perm {old : CacheThread V} {state : FrameMemoryCacheState V}
    {phase : InsertPhase V} {removed : List (RetainedCacheValue V)}
    (hthread : cache.threads[thread]? = some old) (hold : old.reservations = [])
    (hphase : phase.reservations = [])
    (hperm : cache.state.retained.Perm (removed ++ state.retained)) :
    ({ cache with state }.setThread thread phase removed).live.Perm cache.live := by
  have hmoved := live_setThread_perm state cache.budget phase removed [] [] hthread ?_
  · simpa only [List.append_nil] using hmoved.symm
  · rw [hold, CacheThread.reservations, hphase, List.append_nil, List.append_nil,
      List.nil_append, List.nil_append, ← List.map_append]
    exact hperm.map _

/-- A step of the cache is at most one step of its budget manager. -/
theorem StepEffect.simulates (h : StepEffect sha256 budgets valueCost cache next) :
    (next.budget = cache.budget ∧ next.live.Perm cache.live) ∨
      ∃ live, BudgetStep budgets ⟨cache.budget, cache.live⟩ ⟨next.budget, live⟩ ∧
        next.live.Perm live := by
  cases h with
  | looked hshrinks hfences => exact .inl ⟨rfl, (hshrinks.perm.symm.map _).append_right _⟩
  | took hthread hphase hphase' hshrinks hfences =>
      refine .inl ⟨rfl, live_took_perm hthread ?_ hphase' hshrinks.perm⟩
      rw [CacheThread.reservations, hphase]
      rfl
  | invalidated invalidation hthread =>
      obtain ⟨-, hperm, -⟩ := cache.state.applyInvalidation_spec invalidation
      exact .inl ⟨rfl, live_took_perm hthread rfl rfl hperm⟩
  | @admitted thread insertion budget reservation hthread hreserve =>
      have hmoved := live_setThread_perm cache.state budget (admittedPhase insertion reservation) []
        [reservation] [] hthread ?_
      · refine .inr ⟨_, .admitted _ _ _ hreserve, ?_⟩
        rw [List.append_nil] at hmoved
        exact hmoved.symm.trans List.perm_append_comm
      · have hphase : (admittedPhase insertion reservation).reservations = [reservation] := by
          unfold admittedPhase
          split <;> rfl
        rw [CacheThread.reservations, CacheThread.reservations, hphase, List.append_nil]
        exact List.perm_append_comm
  | denied hthread hreserve =>
      refine .inr ⟨_, .refuse _ _ _ hreserve, ?_⟩
      exact live_took_perm hthread rfl rfl (.refl _)
  | @answered thread insertion reservation hthread =>
      -- take the reservation out of the thread, then put the answered one in
      have hless := live_setThread_perm cache.state cache.budget .idle [] [] [reservation] hthread
        (by rw [List.append_nil]; exact List.perm_append_comm)
      rw [List.append_nil] at hless
      refine .inr ⟨_, .account (hless.trans List.perm_append_comm), ?_⟩
      obtain ⟨hlength, -⟩ := List.getElem?_eq_some_iff.1 hthread
      have hemptied : (cache.setThread thread .idle []).threads[thread]? = some .idle :=
        List.getElem?_set_self hlength
      have hmore := live_setThread_perm cache.state cache.budget
        (.admitted insertion { reservation with gpuAccounted := true }) []
        [{ reservation with gpuAccounted := true }] [] hemptied
        (by rw [List.append_nil]; exact List.perm_append_comm)
      rw [List.append_nil] at hmore
      simp only [setThread, List.set_set] at hmore ⊢
      exact hmore.symm.trans List.perm_append_comm
  | @declined thread insertion reservation budget error hthread hrelease =>
      have hless := live_setThread_perm cache.state budget (.denied insertion error) [] []
        [reservation] hthread (by rw [List.append_nil]; exact List.perm_append_comm)
      rw [List.append_nil] at hless
      exact .inr ⟨_, .release (hless.trans List.perm_append_comm) hrelease, .refl _⟩
  | @published thread insertion reservation hthread =>
      obtain ⟨-, hperm, -⟩ := cache.state.publish_spec insertion.kind
        (insertion.context.entryKey sha256 insertion.identity)
        ⟨insertion.identity, insertion.value, reservation⟩
      refine .inl ⟨rfl, ?_⟩
      have hmoved := live_setThread_perm (cache.state.publish insertion.kind
          (insertion.context.entryKey sha256 insertion.identity)
          ⟨insertion.identity, insertion.value, reservation⟩).1 cache.budget .idle
        (cache.state.publish insertion.kind
          (insertion.context.entryKey sha256 insertion.identity)
          ⟨insertion.identity, insertion.value, reservation⟩).2.toList [] [] hthread ?_
      · rw [List.append_nil, List.append_nil] at hmoved
        exact hmoved.symm
      · rw [List.append_nil, List.append_nil]
        have hmapped := hperm.map RetainedCacheValue.reservation
        rw [List.map_append] at hmapped
        exact hmapped
  | @dropped thread phase found removed budget hthread hrelease =>
      have hless := live_setThread_perm cache.state budget phase removed [] [found.reservation]
        hthread ?_
      · rw [List.append_nil] at hless
        exact .inr ⟨_, .release (hless.trans List.perm_append_comm) hrelease, .refl _⟩
      · rw [List.append_nil, CacheThread.reservations, CacheThread.reservations]
        simp only [List.map_cons, List.append_assoc]
        refine (List.perm_append_left_iff _).2 ?_
        rw [← List.singleton_append, List.singleton_append, ← List.append_assoc]
        exact (List.perm_append_singleton _ _).symm

end Live

end FrameMemoryCache

/-! ## The invariant -/

/-- The reservation a value of one scope and cost owns: of its project and, when it lives on a
device, of that device and of the pool of the device. -/
def chargeOf (projectId : ProjectId) (placement : CachePlacementId) (cost : CacheCost) :
    CacheBudgetReservation where
  projectId
  deviceId := placement.deviceId
  cost
  gpuAccounted := placement.deviceId.isSome

/-- The reservation an insertion asks for. -/
def Insertion.charge (valueCost : EvaluationCacheEntryKind → V → CacheCost)
    (insertion : Insertion V) : CacheBudgetReservation :=
  chargeOf insertion.context.projectId insertion.context.placement
    (valueCost insertion.kind insertion.value)

/-- A thread holds what its insertion asks for, up to the answer of the device. -/
def InsertPhase.Sound (valueCost : EvaluationCacheEntryKind → V → CacheCost) :
    InsertPhase V → Prop
  | .provisional insertion reservation =>
      insertion.context.placement.deviceId.isSome = true ∧
        { reservation with gpuAccounted := true } = insertion.charge valueCost
  | .admitted insertion reservation => reservation = insertion.charge valueCost
  | _ => True

theorem InsertPhase.Sound.of_reservations
    {valueCost : EvaluationCacheEntryKind → V → CacheCost} {phase : InsertPhase V}
    (h : phase.reservations = []) : phase.Sound valueCost := by
  cases phase with
  | provisional | admitted => cases h
  | _ => trivial

namespace FrameMemoryCache

open FrameMemoryCacheState

variable {sha256 : List UInt8 → BitVec 256} {budgets : CacheMemoryBudgets}
  {valueCost : EvaluationCacheEntryKind → V → CacheCost} {cache next : FrameMemoryCache V}
  {action : FrameCacheAction V} {thread : Nat}

/-- What holds of a cache at every moment. -/
structure Consistent (budgets : CacheMemoryBudgets)
    (valueCost : EvaluationCacheEntryKind → V → CacheCost) (cache : FrameMemoryCache V) :
    Prop where
  fresh : ∀ kind key found, (cache.state.entries kind).value key = some found →
    cache.state.permits found.identity = true
  charged : ∀ kind key found, (cache.state.entries kind).value key = some found →
    found.reservation = chargeOf key.projectId key.placement (valueCost kind found.value)
  threads : ∀ thread ∈ cache.threads, thread.phase.Sound valueCost
  accounted : Accounted budgets cache.budget cache.live

theorem Consistent.new (budgets : CacheMemoryBudgets)
    (valueCost : EvaluationCacheEntryKind → V → CacheCost) (count : Nat) :
    Consistent budgets valueCost (new count) where
  fresh kind key found h := by
    have hnone : ((FrameMemoryCacheState.default (V := V)).entries kind).value key = none := by
      cases kind <;> rfl
    exact nomatch hnone.symm.trans h
  charged kind key found h := by
    have hnone : ((FrameMemoryCacheState.default (V := V)).entries kind).value key = none := by
      cases kind <;> rfl
    exact nomatch hnone.symm.trans h
  threads thread hmem := by
    rw [List.eq_of_mem_replicate hmem]
    trivial
  accounted := by
    have hnone : (FrameMemoryCache.new count : FrameMemoryCache V).live = [] := by
      have hretained : valuesOf (LruMap.default : CacheEntries V).contents = [] := by
        rw [LruMap.contents_default]
        rfl
      simp only [live, inFlight, retainedReservations, FrameMemoryCache.new,
        FrameMemoryCacheState.default, retained, hretained, List.append_nil, List.map_nil,
        List.nil_append, List.flatMap_eq_nil_iff]
      intro thread hmem
      rw [List.eq_of_mem_replicate hmem]
      rfl
    rw [hnone]
    exact .default budgets

/-- A step keeps the entries that were there, raises no fence above one of them, and publishes only
under a permit. -/
theorem StepEffect.entries (h : StepEffect sha256 budgets valueCost cache next)
    (hconsistent : Consistent budgets valueCost cache) {kind : EvaluationCacheEntryKind}
    {key : CacheEntryKey} {found : RetainedCacheValue V}
    (hfound : (next.state.entries kind).value key = some found) :
    next.state.permits found.identity = true ∧
      found.reservation = chargeOf key.projectId key.placement (valueCost kind found.value) := by
  have hold (hfences : next.state.minimumValidRevisions = cache.state.minimumValidRevisions)
      (hfound : (cache.state.entries kind).value key = some found) :
      next.state.permits found.identity = true ∧
        found.reservation = chargeOf key.projectId key.placement (valueCost kind found.value) :=
    ⟨(permits_congr hfences _).trans (hconsistent.fresh kind key found hfound),
      hconsistent.charged kind key found hfound⟩
  cases h with
  | looked hshrinks hfences => exact hold hfences (hshrinks.kept kind key found hfound)
  | took hthread hphase hphase' hshrinks hfences =>
      exact hold hfences (hshrinks.kept kind key found hfound)
  | admitted => exact hold rfl hfound
  | denied => exact hold rfl hfound
  | answered => exact hold rfl hfound
  | declined => exact hold rfl hfound
  | dropped => exact hold rfl hfound
  | invalidated invalidation hthread =>
      obtain ⟨hentries, -, hfences⟩ := cache.state.applyInvalidation_spec invalidation
      have hkept := (hentries kind key).symm.trans hfound
      rw [Option.filter_eq_some_iff] at hkept
      obtain ⟨hbefore, hvalid⟩ := hkept
      refine ⟨permits_iff.2 fun minimum hminimum => ?_, hconsistent.charged kind key found hbefore⟩
      have hpermitted := permits_iff.1 (hconsistent.fresh kind key found hbefore)
      have hminimum := (hfences _).symm.trans hminimum
      split at hminimum
      · rename_i haffected
        -- an affected value that stayed is not older than the invalidation
        obtain ⟨hgraph, hnode⟩ := haffected
        simp only [invalidates, GraphEditInvalidation.affects,
          show found.identity.graphId = invalidation.graphId from hgraph,
          show found.identity.nodeId ∈ invalidation.affectedNodes from hnode] at hvalid
        cases hrevision : found.identity.graphRevision with
        | none => simp [hrevision] at hvalid
        | some revision =>
            simp only [hrevision, decide_true, Bool.and_self, Bool.true_and,
              Bool.not_eq_eq_eq_not, Bool.not_true, decide_eq_false_iff_not, not_lt] at hvalid
            refine ⟨revision, rfl, ?_⟩
            cases hfence : cache.state.minimumValidRevisions[GraphLineage.of found.identity]? with
            | none =>
                rw [hfence] at hminimum
                cases hminimum
                simpa using hvalid
            | some fence =>
                rw [hfence] at hminimum
                cases hminimum
                obtain ⟨held, hheld, hle⟩ := hpermitted fence hfence
                rw [hrevision] at hheld
                cases hheld
                exact max_le hle hvalid
      · exact hpermitted minimum hminimum
  | @published thread insertion reservation hthread =>
      obtain ⟨hfences, -, hentries⟩ := cache.state.publish_spec insertion.kind
        (insertion.context.entryKey sha256 insertion.identity)
        ⟨insertion.identity, insertion.value, reservation⟩
      rcases hentries kind key found hfound with hbefore | ⟨hpermits, rfl, rfl, rfl⟩
      · exact hold hfences hbefore
      · refine ⟨(permits_congr hfences _).trans hpermits, ?_⟩
        exact hconsistent.threads _ (List.mem_of_getElem? hthread)

/-- The phase a step leads to is sound. -/
theorem StepEffect.sound (h : StepEffect sha256 budgets valueCost cache next)
    (hconsistent : Consistent budgets valueCost cache) :
    ∀ thread ∈ next.threads, thread.phase.Sound valueCost := by
  have hset {state : FrameMemoryCacheState V} {budget : CacheBudgetState} {thread : Nat}
      {phase : InsertPhase V} {removed : List (RetainedCacheValue V)}
      (hphase : phase.Sound valueCost) :
      ∀ other ∈ ({ cache with state, budget }.setThread thread phase removed).threads,
        other.phase.Sound valueCost := by
    intro other hmem
    rcases List.mem_or_eq_of_mem_set hmem with hmem | rfl
    · exact hconsistent.threads other hmem
    · exact hphase
  cases h with
  | looked hshrinks hfences => exact hconsistent.threads
  | took hthread hphase hphase' hshrinks hfences => exact hset (.of_reservations hphase')
  | invalidated invalidation hthread => exact hset trivial
  | @admitted thread insertion budget reservation hthread hreserve =>
      refine hset ?_
      have hreservation : reservation = ⟨insertion.context.projectId,
          insertion.context.placement.deviceId, valueCost insertion.kind insertion.value, false⟩ :=
        by
          rcases hconsistent.accounted.reserveLocal insertion.context.projectId
            insertion.context.placement.deviceId (valueCost insertion.kind insertion.value) with
            ⟨_, heq, -⟩ | ⟨_, heq⟩
          · rw [hreserve] at heq
            cases heq
            rfl
          · rw [hreserve] at heq
            cases heq
      unfold admittedPhase
      split
      · rename_i hdevice
        rw [InsertPhase.Sound, hreservation, Insertion.charge, chargeOf, hdevice]
        rfl
      · rename_i hdevice
        rw [InsertPhase.Sound, hreservation, Insertion.charge, chargeOf, hdevice]
        exact ⟨rfl, rfl⟩
  | denied => exact hset trivial
  | answered hthread => exact hset (hconsistent.threads _ (List.mem_of_getElem? hthread)).2
  | declined => exact hset trivial
  | published hthread => exact hset trivial
  | dropped hthread hrelease =>
      exact hset (hconsistent.threads _ (List.mem_of_getElem? hthread))

/-- Every step keeps the invariant. -/
theorem Consistent.step (hconsistent : Consistent budgets valueCost cache)
    (hstep : cache.step sha256 budgets valueCost action = some next) :
    Consistent budgets valueCost next := by
  have heffect := step_cases hstep
  refine ⟨fun _ _ _ h => (heffect.entries hconsistent h).1,
    fun _ _ _ h => (heffect.entries hconsistent h).2, heffect.sound hconsistent, ?_⟩
  rcases heffect.simulates with ⟨hbudget, hlive⟩ | ⟨live, hbudget, hlive⟩
  · rw [hbudget]
    exact hconsistent.accounted.perm hlive.symm
  · exact (hconsistent.accounted.step hbudget).perm hlive.symm

/-- Every reachable cache is consistent. -/
theorem Consistent.run {count : Nat} {actions : List (FrameCacheAction V)}
    {last : FrameMemoryCache V}
    (hrun : Machine.run (FrameMemoryCache.step sha256 budgets valueCost) (.new count) actions =
      some last) :
    Consistent budgets valueCost last :=
  Machine.invariant_of_any_run (fun hconsistent hstep => hconsistent.step hstep)
    (.new budgets valueCost count) hrun

/-! ## Invalidations over a run -/

/-- Whether an identity of an affected node carries a revision the invalidation does not replace. -/
def NotOlder (invalidation : GraphEditInvalidation) (identity : EvaluationCacheIdentity) : Prop :=
  identity.graphId = invalidation.graphId → identity.nodeId ∈ invalidation.affectedNodes →
    ∃ revision, identity.graphRevision = some revision ∧ invalidation.toRevision ≤ revision

/-- The fences of the affected nodes are at least as high as the invalidation raised them. -/
def Fenced (invalidation : GraphEditInvalidation) (cache : FrameMemoryCache V) : Prop :=
  ∀ nodeId ∈ invalidation.affectedNodes, ∃ minimum,
    cache.state.minimumValidRevisions[GraphLineage.mk invalidation.graphId nodeId]? =
      some minimum ∧ invalidation.toRevision ≤ minimum

/-- What an invalidation has done for the lookups and publications of a state. -/
structure Superseded (invalidation : GraphEditInvalidation) (state : FrameMemoryCacheState V) :
    Prop where
  /-- no lookup returns an older value -/
  lookups : ∀ kind key identity found, (state.get kind key identity).2 = some found →
    NotOlder invalidation found.identity
  /-- a lookup on behalf of an older identity returns nothing -/
  requests : ∀ kind key identity, ¬ NotOlder invalidation identity →
    state.get kind key identity = (state, none)
  /-- an insertion of an older identity hands its value back -/
  publications : ∀ kind key found, ¬ NotOlder invalidation found.identity →
    state.publish kind key found = (state, some found)

theorem Fenced.notOlder {invalidation : GraphEditInvalidation} (h : Fenced invalidation cache)
    {identity : EvaluationCacheIdentity} (hpermits : cache.state.permits identity = true) :
    NotOlder invalidation identity := by
  intro hgraph hnode
  obtain ⟨minimum, hminimum, hle⟩ := h identity.nodeId hnode
  rw [← hgraph] at hminimum
  obtain ⟨revision, hrevision, hfence⟩ := permits_iff.1 hpermits minimum hminimum
  exact ⟨revision, hrevision, hle.trans hfence⟩

theorem Fenced.superseded {invalidation : GraphEditInvalidation} (h : Fenced invalidation cache)
    (hconsistent : Consistent budgets valueCost cache) : Superseded invalidation cache.state where
  lookups kind key identity found hfound := by
    have hget := (cache.state.get_spec kind key identity).2.2.symm.trans hfound
    split at hget
    · exact h.notOlder (hconsistent.fresh kind key found hget)
    · cases hget
  requests kind key identity hold := by
    unfold FrameMemoryCacheState.get
    exact if_neg fun hpermits => hold (h.notOlder hpermits)
  publications kind key found hold := by
    unfold FrameMemoryCacheState.publish
    exact if_neg fun hpermits => hold (h.notOlder hpermits)

/-- No step lowers a fence. -/
theorem Fenced.step {invalidation : GraphEditInvalidation} (h : Fenced invalidation cache)
    (hstep : cache.step sha256 budgets valueCost action = some next) :
    Fenced invalidation next := by
  have hsame (hfences : next.state.minimumValidRevisions = cache.state.minimumValidRevisions) :
      Fenced invalidation next := by
    intro nodeId hnode
    rw [hfences]
    exact h nodeId hnode
  cases step_cases hstep with
  | looked hshrinks hfences => exact hsame hfences
  | took hthread hphase hphase' hshrinks hfences => exact hsame hfences
  | admitted => exact hsame rfl
  | denied => exact hsame rfl
  | answered => exact hsame rfl
  | declined => exact hsame rfl
  | dropped => exact hsame rfl
  | published hthread => exact hsame (cache.state.publish_spec _ _ _).1
  | invalidated other hthread =>
      intro nodeId hnode
      obtain ⟨minimum, hminimum, hle⟩ := h nodeId hnode
      have hfence := (cache.state.applyInvalidation_spec other).2.2
        ⟨invalidation.graphId, nodeId⟩
      split at hfence
      · rw [hminimum] at hfence
        exact ⟨_, hfence, hle.trans (le_max_left _ _)⟩
      · exact ⟨minimum, hfence.trans hminimum, hle⟩

/-- An invalidation raises the fences of its nodes. -/
theorem Fenced.of_applyInvalidation {invalidation : GraphEditInvalidation}
    (hstep : cache.step sha256 budgets valueCost (.applyInvalidation thread invalidation) =
      some next) : Fenced invalidation next := by
  obtain ⟨-, hnext⟩ := Option.ite_none_right_eq_some.1 hstep
  cases hnext
  intro nodeId hnode
  refine ⟨_, ((cache.state.applyInvalidation_spec invalidation).2.2
    ⟨invalidation.graphId, nodeId⟩).trans (if_pos ⟨rfl, hnode⟩), le_max_right _ _⟩

/-- An invalidation keeps what it does not affect. -/
theorem kept_of_applyInvalidation {invalidation : GraphEditInvalidation}
    (hstep : cache.step sha256 budgets valueCost (.applyInvalidation thread invalidation) =
      some next) {kind : EvaluationCacheEntryKind} {key : CacheEntryKey}
    {found : RetainedCacheValue V} (hfound : (cache.state.entries kind).value key = some found)
    (hunaffected : found.identity.graphId ≠ invalidation.graphId ∨
      found.identity.nodeId ∉ invalidation.affectedNodes) :
    (next.state.entries kind).value key = some found := by
  obtain ⟨-, hnext⟩ := Option.ite_none_right_eq_some.1 hstep
  cases hnext
  refine ((cache.state.applyInvalidation_spec invalidation).1 kind key).trans ?_
  rw [hfound, Option.filter_some, if_pos]
  rcases hunaffected with hgraph | hnode
  · simp [invalidates, hgraph]
  · simp [invalidates, GraphEditInvalidation.affects, hnode]

/-- In every run of any number of threads: the reservations of the manager are those of the
retained values, each of exactly its own scope and cost, together with those in flight; and once an
invalidation is applied, no later lookup returns an older value of an affected node, no insertion
publishes one, and the values of the other nodes stayed. -/
theorem invalidated_never_return {count : Nat} {actions : List (FrameCacheAction V)}
    {last : FrameMemoryCache V}
    (hrun : Machine.run (step sha256 budgets valueCost) (.new count) actions = some last) :
    ((∀ kind key found, (last.state.entries kind).value key = some found →
        found.reservation = chargeOf key.projectId key.placement (valueCost kind found.value)) ∧
      Accounted budgets last.budget (last.retainedReservations ++ last.inFlight) ∧
      ((∀ thread ∈ last.threads, thread = .idle) →
        Accounted budgets last.budget last.retainedReservations)) ∧
    ∀ before after thread invalidation,
      actions = before ++ .applyInvalidation thread invalidation :: after →
      Superseded invalidation last.state ∧
        ∃ reached next, Machine.run (step sha256 budgets valueCost) (.new count) before =
            some reached ∧
          reached.step sha256 budgets valueCost (.applyInvalidation thread invalidation) =
            some next ∧
          ∀ kind key found, (reached.state.entries kind).value key = some found →
            (found.identity.graphId ≠ invalidation.graphId ∨
              found.identity.nodeId ∉ invalidation.affectedNodes) →
            (next.state.entries kind).value key = some found := by
  have hconsistent := Consistent.run hrun
  refine ⟨⟨hconsistent.charged, hconsistent.accounted, fun hidle => ?_⟩, ?_⟩
  · have hnone : last.inFlight = [] := by
      rw [inFlight, List.flatMap_eq_nil_iff]
      intro thread hmem
      rw [hidle thread hmem]
      rfl
    have haccounted := hconsistent.accounted
    rwa [live, hnone, List.append_nil] at haccounted
  · rintro before after thread invalidation rfl
    obtain ⟨reached, hreached, hrest⟩ := Option.bind_eq_some_iff.1
      ((Machine.run_append _ _ _).symm.trans hrun)
    obtain ⟨next, hstep, hafter⟩ := Option.bind_eq_some_iff.1 hrest
    -- from the invalidation on, its fences hold
    have hfenced : Fenced invalidation last :=
      Machine.invariant_of_any_run (fun h hstep => h.step hstep)
        (Fenced.of_applyInvalidation hstep) hafter
    exact ⟨hfenced.superseded hconsistent, reached, next, hreached, hstep,
      fun kind key found => kept_of_applyInvalidation hstep⟩

/-! ### An insertion that races with an invalidation -/

/-- The digest of the only frame key of this section. -/
def racingDigest : List UInt8 → BitVec 256 := fun _ =>
  0xddc6e5189b00b0bffc3bfb3d566fc419f6aba3eb11235f9bbff18d10522c0b8c

def racingIdentity : EvaluationCacheIdentity where
  graphId := ⟨1⟩
  graphRevision := some 1
  graphKey := ⟨0⟩
  evaluationKey := {
    output := ⟨⟨2⟩, ⟨3⟩⟩
    frame := .zero (.integer 24 Timebase.pos_24 Timebase.fits_24)
    region := ⟨0, 0, 8, 8, by decide, by decide⟩ }

def racingInsertion : Insertion Nat where
  context := ⟨⟨1⟩, .host, [], ⟨0⟩, ⟨0⟩, ⟨0⟩⟩
  kind := .finalFrame
  identity := racingIdentity
  value := 7

def racingInvalidation : GraphEditInvalidation where
  graphId := ⟨1⟩
  fromRevision := 1
  toRevision := 2
  roots := [⟨2⟩]
  affectedNodes := [⟨2⟩]
  ordered := by simp

/-- The second thread takes its permit before the invalidation and publishes after it. -/
def racingActions : List (FrameCacheAction Nat) :=
  [.beginInsert 0 racingInsertion, .reserve 0, .publish 0, .beginInsert 1 racingInsertion, .drop 1,
    .reserve 1] ++ .applyInvalidation 0 racingInvalidation :: [.publish 1, .drop 1]

theorem invalidated_never_return_racing : ∃ last,
    Machine.run (step racingDigest singleFrameBudgets fun _ _ => singleFrameCost) (.new 2)
        racingActions = some last ∧
      Superseded racingInvalidation last.state ∧
      Accounted singleFrameBudgets last.budget last.retainedReservations := by
  have hsome : (Machine.run (step racingDigest singleFrameBudgets fun _ _ => singleFrameCost)
      (.new 2) racingActions).any (fun last => last.threads.all CacheThread.isQuiet) = true := by
    decide +kernel
  obtain ⟨last, hrun, hidle⟩ := (Option.any_eq_true _ _).1 hsome
  obtain ⟨⟨-, -, hquiet⟩, hruns⟩ := invalidated_never_return hrun
  refine ⟨last, hrun, (hruns _ _ 0 racingInvalidation rfl).1, hquiet fun thread hmem => ?_⟩
  rw [CacheThread.eq_idle_of_isQuiet (List.all_eq_true.1 hidle thread hmem)]

end FrameMemoryCache

end Cache
end Superi

import Superi.Cache.Budget
import Superi.Cache.Key
import Superi.Cache.Lru
import Superi.Graph.Eval
import Superi.Lib.Machine

/-!
# Frame — the frame memory cache

Final frames and intermediate node outputs share one lock with the revision fences of the nodes an
edit affected.  A value enters in two phases: a permit is taken before its budget is reserved, and
taken again before it is published.  Reservations are dropped outside the lock, each in a step of
its own, so the budget counters also see values that are on their way in or out.
-/

namespace Superi
namespace Cache

open Core Graph Keyed

/-! ## Entries -/

/-- Host or processing-device placement of retained values.  The memory pool of a device and its
evictors are not part of the cache; what the pool answers is an input of a step. -/
inductive CachePlacementId
  | host
  | device (deviceId : DeviceId)
  deriving DecidableEq, Repr

def CachePlacementId.deviceId : CachePlacementId → Option DeviceId
  | .host => none
  | .device deviceId => some deviceId

namespace CachePlacementId

instance : Ord CachePlacementId := ⟨compareOn deviceId⟩

instance : Std.TransOrd CachePlacementId :=
  inferInstanceAs (Std.TransCmp (compareOn deviceId))

instance : Std.LawfulEqOrd CachePlacementId :=
  lawfulEqCmp_compareOn fun a b h => by cases a <;> cases b <;> simp_all [deviceId]

end CachePlacementId

structure CacheEntryKey where
  projectId : ProjectId
  placement : CachePlacementId
  frameKey : FrameCacheKey
  deriving DecidableEq, Repr

namespace CacheEntryKey

instance : Ord CacheEntryKey :=
  ⟨compareLex (compareOn projectId) (compareLex (compareOn placement) (compareOn frameKey))⟩

instance : Std.TransOrd CacheEntryKey :=
  inferInstanceAs (Std.TransCmp
    (compareLex (compareOn projectId) (compareLex (compareOn placement) (compareOn frameKey))))

instance : Std.LawfulEqOrd CacheEntryKey where
  compare_self := compareLex_eq_eq.2 ⟨Std.ReflOrd.compare_self,
    compareLex_eq_eq.2 ⟨Std.ReflOrd.compare_self, Std.ReflOrd.compare_self⟩⟩
  eq_of_compare := fun {a b} h => by
    obtain ⟨hproject, h⟩ := compareLex_eq_eq.1 h
    obtain ⟨hplacement, hframe⟩ := compareLex_eq_eq.1 h
    have hproject := Std.LawfulEqOrd.eq_of_compare (a := a.projectId) (b := b.projectId) hproject
    have hplacement := Std.LawfulEqOrd.eq_of_compare (a := a.placement) (b := b.placement)
      hplacement
    have hframe := Std.LawfulEqOrd.eq_of_compare (a := a.frameKey) (b := b.frameKey) hframe
    cases a
    cases b
    simp_all

/-- Whether removing this entry relieves the constrained scope. -/
def matchesPressure (key : CacheEntryKey) : CachePressureScope → Bool
  | .total => true
  | .project projectId => decide (key.projectId = projectId)
  | .device deviceId => decide (key.placement = .device deviceId)

end CacheEntryKey

/-- One retained value with the reservation it owns. -/
structure RetainedCacheValue (V : Type) where
  identity : EvaluationCacheIdentity
  value : V
  reservation : CacheBudgetReservation

abbrev CacheEntries (V : Type) := LruMap CacheEntryKey (RetainedCacheValue V)

/-- The result identity shared by one cached evaluation scope, apart from the graph. -/
structure FrameMemoryCacheContext where
  projectId : ProjectId
  placement : CachePlacementId
  media : List MediaCacheIdentity
  parameters : ParameterStateFingerprint
  color : ColorPipelineFingerprint
  renderSettings : RenderSettingsFingerprint

namespace FrameMemoryCacheContext

variable (sha256 : List UInt8 → BitVec 256)

def key (context : FrameMemoryCacheContext) (identity : EvaluationCacheIdentity) : FrameCacheKey :=
  .derive sha256 {
    media := context.media
    graph := identity.graphKey
    parameters := context.parameters
    color := context.color
    time := identity.evaluationKey.frame
    renderSettings := context.renderSettings }

def entryKey (context : FrameMemoryCacheContext) (identity : EvaluationCacheIdentity) :
    CacheEntryKey where
  projectId := context.projectId
  placement := context.placement
  frameKey := context.key sha256 identity

end FrameMemoryCacheContext

/-! ## State behind the lock -/

/-- One node of one graph, over all its revisions. -/
structure GraphLineage where
  graphId : GraphId
  nodeId : NodeId
  deriving DecidableEq, Repr

namespace GraphLineage

instance : Ord GraphLineage := ⟨compareLex (compareOn graphId) (compareOn nodeId)⟩

instance : Std.TransOrd GraphLineage :=
  inferInstanceAs (Std.TransCmp (compareLex (compareOn graphId) (compareOn nodeId)))

instance : Std.LawfulEqOrd GraphLineage :=
  lawfulEqCmp_compareLex fun a b hgraph hnode => by
    cases a
    cases b
    simp_all

/-- The lineage an identity belongs to. -/
def of (identity : EvaluationCacheIdentity) : GraphLineage := ⟨identity.graphId, identity.nodeId⟩

end GraphLineage

structure FrameMemoryCacheState (V : Type) where
  finalFrames : CacheEntries V
  intermediateNodes : CacheEntries V
  minimumValidRevisions : Std.ExtTreeMap GraphLineage Nat

namespace FrameMemoryCacheState

variable {V : Type}

def default : FrameMemoryCacheState V where
  finalFrames := .default
  intermediateNodes := .default
  minimumValidRevisions := ∅

/-- The entries of one tier. -/
def entries (state : FrameMemoryCacheState V) : EvaluationCacheEntryKind → CacheEntries V
  | .finalFrame => state.finalFrames
  | .intermediateNode => state.intermediateNodes

def setEntries (state : FrameMemoryCacheState V) (kind : EvaluationCacheEntryKind)
    (entries : CacheEntries V) : FrameMemoryCacheState V :=
  match kind with
  | .finalFrame => { state with finalFrames := entries }
  | .intermediateNode => { state with intermediateNodes := entries }

/-- Whether an identity is not older than the fence of its lineage. -/
def permits (state : FrameMemoryCacheState V) (identity : EvaluationCacheIdentity) : Bool :=
  match state.minimumValidRevisions[GraphLineage.of identity]? with
  | none => true
  | some minimum =>
      match identity.graphRevision with
      | none => false
      | some revision => decide (minimum ≤ revision)

/-- Look a value up and promote it.  The caller gets a clone of the value. -/
def get (state : FrameMemoryCacheState V) (kind : EvaluationCacheEntryKind) (key : CacheEntryKey)
    (identity : EvaluationCacheIdentity) :
    FrameMemoryCacheState V × Option (RetainedCacheValue V) :=
  if state.permits identity then
    let (entries, retained) := (state.entries kind).get key
    (state.setEntries kind entries, retained)
  else (state, none)

/-- The first half of an insertion: take the permit and remove what is retained under the key. -/
def beginInsert (state : FrameMemoryCacheState V) (kind : EvaluationCacheEntryKind)
    (key : CacheEntryKey) (identity : EvaluationCacheIdentity) :
    Option (FrameMemoryCacheState V × Option (RetainedCacheValue V)) :=
  if state.permits identity then
    let (entries, replaced) := (state.entries kind).remove key
    some (state.setEntries kind entries, replaced)
  else none

/-- The second half: take the permit again and retain the value.  What comes back is to be dropped:
the value itself when the permit is gone. -/
def publish (state : FrameMemoryCacheState V) (kind : EvaluationCacheEntryKind)
    (key : CacheEntryKey) (retained : RetainedCacheValue V) :
    FrameMemoryCacheState V × Option (RetainedCacheValue V) :=
  if state.permits retained.identity then
    let (entries, replaced) := (state.entries kind).insert key retained
    (state.setEntries kind entries, replaced)
  else (state, some retained)

def raiseFence (fences : Std.ExtTreeMap GraphLineage Nat) (lineage : GraphLineage)
    (revision : Nat) : Std.ExtTreeMap GraphLineage Nat :=
  fences.insert lineage (max (fences[lineage]?.getD revision) revision)

/-- Whether an invalidation removes a value of this identity. -/
def invalidates (invalidation : GraphEditInvalidation) (identity : EvaluationCacheIdentity) :
    Bool :=
  let affected := decide (identity.graphId = invalidation.graphId) &&
    invalidation.affects identity.nodeId
  let superseded := match identity.graphRevision with
    | none => true
    | some revision => decide (revision < invalidation.toRevision)
  affected && superseded

def extractInvalidatedEntries (entries : CacheEntries V) (invalidation : GraphEditInvalidation) :
    CacheEntries V × List (CacheEntryKey × RetainedCacheValue V) :=
  entries.removeWhere fun _ retained => invalidates invalidation retained.identity

/-- Raise the fences of the affected nodes and remove what is older, in both tiers. -/
def applyInvalidation (state : FrameMemoryCacheState V) (invalidation : GraphEditInvalidation) :
    FrameMemoryCacheState V × List (RetainedCacheValue V) :=
  let minimumValidRevisions := invalidation.affectedNodes.foldl (fun fences nodeId =>
    raiseFence fences ⟨invalidation.graphId, nodeId⟩ invalidation.toRevision)
    state.minimumValidRevisions
  let (finalFrames, removedFinalFrames) :=
    extractInvalidatedEntries state.finalFrames invalidation
  let (intermediateNodes, removedIntermediateNodes) :=
    extractInvalidatedEntries state.intermediateNodes invalidation
  ({ finalFrames, intermediateNodes, minimumValidRevisions },
    (removedFinalFrames ++ removedIntermediateNodes).map Prod.snd)

/-- Remove up to `maximum` eligible entries of one tier, least recently used first. -/
def evict (state : FrameMemoryCacheState V) (tier : EvaluationCacheEntryKind) (maximum : Nat)
    (eligible : CacheEntryKey → Bool) :
    FrameMemoryCacheState V × List (RetainedCacheValue V) :=
  let (entries, removed) := (state.entries tier).evictLruWhere maximum eligible
  (state.setEntries tier entries, removed.map Prod.snd)

/-- Release every value; the fences stay. -/
def clear (state : FrameMemoryCacheState V) :
    FrameMemoryCacheState V × List (RetainedCacheValue V) :=
  ({ state with finalFrames := .default, intermediateNodes := .default },
    valuesOf state.finalFrames.contents ++ valuesOf state.intermediateNodes.contents)

end FrameMemoryCacheState

/-! ## Threads -/

/-- The arguments of one insertion. -/
structure Insertion (V : Type) where
  context : FrameMemoryCacheContext
  kind : EvaluationCacheEntryKind
  identity : EvaluationCacheIdentity
  value : V

/-- Where a thread stands between its atomic steps. -/
inductive InsertPhase (V : Type)
  | idle
  /-- at the head of the reservation loop -/
  | reserving (insertion : Insertion V)
  /-- admitted locally; the device has not answered -/
  | provisional (insertion : Insertion V) (reservation : CacheBudgetReservation)
  /-- refused, before the constrained scope is read -/
  | denied (insertion : Insertion V) (error : Error)
  /-- about to evict one value of `tier` -/
  | evicting (insertion : Insertion V) (pressure : CachePressureScope)
      (tier : EvaluationCacheEntryKind)
  /-- about to publish -/
  | admitted (insertion : Insertion V) (reservation : CacheBudgetReservation)

/-- A thread, and the removed values it has not dropped yet. -/
structure CacheThread (V : Type) where
  phase : InsertPhase V
  removed : List (RetainedCacheValue V)

def CacheThread.idle {V : Type} : CacheThread V := ⟨.idle, []⟩

/-- A frame memory cache with its budget manager, used by any number of threads. -/
structure FrameMemoryCache (V : Type) where
  state : FrameMemoryCacheState V
  budget : CacheBudgetState
  threads : List (CacheThread V)

/-- One atomic step.  The `thread` of a step works on it alone until its values are dropped. -/
inductive FrameCacheAction (V : Type)
  | get (kind : EvaluationCacheEntryKind) (context : FrameMemoryCacheContext)
      (identity : EvaluationCacheIdentity)
  | beginInsert (thread : Nat) (insertion : Insertion V)
  /-- charge the local scopes -/
  | reserve (thread : Nat)
  /-- the answer of the memory pool of the device -/
  | answer (thread : Nat) (gpu : Except Error Unit)
  /-- read the constrained scope after a refusal -/
  | pressure (thread : Nat)
  /-- try one tier for a victim -/
  | evictForPressure (thread : Nat)
  | publish (thread : Nat)
  /-- release the reservation of one removed value -/
  | drop (thread : Nat)
  | evictLru (thread : Nat) (tier : EvaluationCacheEntryKind) (maximum : Nat)
  | applyInvalidation (thread : Nat) (invalidation : GraphEditInvalidation)
  | clear (thread : Nat)

namespace FrameMemoryCache

variable {V : Type}

/-- A new cache before `count` idle threads. -/
def new (count : Nat) : FrameMemoryCache V where
  state := .default
  budget := .default
  threads := List.replicate count .idle

def setThread (cache : FrameMemoryCache V) (thread : Nat) (phase : InsertPhase V)
    (removed : List (RetainedCacheValue V)) : FrameMemoryCache V :=
  { cache with threads := cache.threads.set thread ⟨phase, removed⟩ }

/-- The phase of a thread that has nothing left to drop. -/
def phase (cache : FrameMemoryCache V) (thread : Nat) : Option (InsertPhase V) :=
  match cache.threads[thread]? with
  | some ⟨phase, []⟩ => some phase
  | _ => none

/-- What follows a refusal: the scope to evict from, or the end of the insertion. -/
def pressureAfter (budgets : CacheMemoryBudgets) (budget : CacheBudgetState)
    (insertion : Insertion V) (cost : CacheCost) (error : Error) : InsertPhase V :=
  let deviceId := insertion.context.placement.deviceId
  match budget.pressureScope budgets insertion.context.projectId deviceId cost with
  | some pressure => .evicting insertion pressure .intermediateNode
  | none =>
      if error.category = .resourceExhausted then
        match deviceId with
        | some deviceId => .evicting insertion (.device deviceId) .intermediateNode
        | none => .idle
      else .idle

section Step

variable (sha256 : List UInt8 → BitVec 256) (budgets : CacheMemoryBudgets)
  (valueCost : EvaluationCacheEntryKind → V → CacheCost)

def stepBeginInsert (cache : FrameMemoryCache V) (thread : Nat) (insertion : Insertion V) :
    FrameMemoryCache V :=
  match cache.state.beginInsert insertion.kind
      (insertion.context.entryKey sha256 insertion.identity) insertion.identity with
  | none => cache
  | some (state, replaced) =>
      { cache with state }.setThread thread (.reserving insertion) replaced.toList

def stepReserve (cache : FrameMemoryCache V) (thread : Nat) (insertion : Insertion V) :
    Option (FrameMemoryCache V) := do
  let deviceId := insertion.context.placement.deviceId
  let (budget, result) ← cache.budget.reserveLocal budgets insertion.context.projectId deviceId
    (valueCost insertion.kind insertion.value)
  let phase := match result, deviceId with
    | .error error, _ => .denied insertion error
    | .ok reservation, none => .admitted insertion reservation
    | .ok reservation, some _ => .provisional insertion reservation
  return { cache with budget }.setThread thread phase []

def stepAnswer (cache : FrameMemoryCache V) (thread : Nat) (insertion : Insertion V)
    (reservation : CacheBudgetReservation) : Except Error Unit → Option (FrameMemoryCache V)
  | .ok () =>
      some (cache.setThread thread (.admitted insertion { reservation with gpuAccounted := true })
        [])
  | .error error => do
      let budget ← cache.budget.release reservation.projectId reservation.deviceId reservation.cost
      return { cache with budget }.setThread thread (.denied insertion
        (error.withContext ⟨"superi-cache.memory-budget", "reserve_device"⟩)) []

def stepEvictForPressure (cache : FrameMemoryCache V) (thread : Nat) (insertion : Insertion V)
    (pressure : CachePressureScope) (tier : EvaluationCacheEntryKind) : FrameMemoryCache V :=
  match cache.state.evict tier 1 fun key => key.matchesPressure pressure, tier with
  | (state, []), .intermediateNode =>
      { cache with state }.setThread thread (.evicting insertion pressure .finalFrame) []
  | (state, []), .finalFrame => { cache with state }.setThread thread .idle []
  | (state, removed), _ => { cache with state }.setThread thread (.reserving insertion) removed

def stepPublish (cache : FrameMemoryCache V) (thread : Nat) (insertion : Insertion V)
    (reservation : CacheBudgetReservation) : FrameMemoryCache V :=
  let (state, replaced) := cache.state.publish insertion.kind
    (insertion.context.entryKey sha256 insertion.identity)
    ⟨insertion.identity, insertion.value, reservation⟩
  { cache with state }.setThread thread .idle replaced.toList

def stepDrop (cache : FrameMemoryCache V) (thread : Nat) : Option (FrameMemoryCache V) :=
  match cache.threads[thread]? with
  | some ⟨phase, retained :: removed⟩ => do
      let reservation := retained.reservation
      let budget ← cache.budget.release reservation.projectId reservation.deviceId reservation.cost
      return { cache with budget }.setThread thread phase removed
  | _ => none

/-- Whether a thread can begin an operation. -/
def isIdle (cache : FrameMemoryCache V) (thread : Nat) : Bool :=
  match cache.phase thread with
  | some .idle => true
  | _ => false

/-- Take one step; there is none where the thread is not at that point. -/
def step (cache : FrameMemoryCache V) : FrameCacheAction V → Option (FrameMemoryCache V)
  | .get kind context identity =>
      let (state, _) := cache.state.get kind (context.entryKey sha256 identity) identity
      some { cache with state }
  | .beginInsert thread insertion =>
      if cache.isIdle thread then some (cache.stepBeginInsert sha256 thread insertion) else none
  | .reserve thread =>
      match cache.phase thread with
      | some (.reserving insertion) => cache.stepReserve budgets valueCost thread insertion
      | _ => none
  | .answer thread gpu =>
      match cache.phase thread with
      | some (.provisional insertion reservation) =>
          cache.stepAnswer thread insertion reservation gpu
      | _ => none
  | .pressure thread =>
      match cache.phase thread with
      | some (.denied insertion error) =>
          some (cache.setThread thread (pressureAfter budgets cache.budget insertion
            (valueCost insertion.kind insertion.value) error) [])
      | _ => none
  | .evictForPressure thread =>
      match cache.phase thread with
      | some (.evicting insertion pressure tier) =>
          some (cache.stepEvictForPressure thread insertion pressure tier)
      | _ => none
  | .publish thread =>
      match cache.phase thread with
      | some (.admitted insertion reservation) =>
          some (cache.stepPublish sha256 thread insertion reservation)
      | _ => none
  | .drop thread => cache.stepDrop thread
  | .evictLru thread tier maximum =>
      if cache.isIdle thread then
        let (state, removed) := cache.state.evict tier maximum fun _ => true
        some ({ cache with state }.setThread thread .idle removed)
      else none
  | .applyInvalidation thread invalidation =>
      if cache.isIdle thread then
        let (state, removed) := cache.state.applyInvalidation invalidation
        some ({ cache with state }.setThread thread .idle removed)
      else none
  | .clear thread =>
      if cache.isIdle thread then
        let (state, removed) := cache.state.clear
        some ({ cache with state }.setThread thread .idle removed)
      else none

end Step

end FrameMemoryCache

end Cache
end Superi

import Superi.Core.Error
import Superi.Core.Ids
import Superi.Lib.Keyed

/-!
# Budget — cache memory admission and accounting

Every cached value holds a reservation that is charged to the whole cache, to its project and, when
it lives on a device, to that device.  The counters are 64-bit; arithmetic that the source expects
to succeed returns `none` where the source would panic.
-/

namespace Superi
namespace Cache

open Core Result

/-- The largest value of a 64-bit counter. -/
def maxU64 : Nat := 18446744073709551615

def invalid (operation message : String) : Error :=
  (Error.new .invalidInput .userCorrectable message).withContext
    ⟨"superi-cache.memory-budget", operation⟩

/-! ## Limits and costs -/

/-- Hard byte and frame limits of one accounting scope. -/
structure CacheBudgetLimit where
  maxBytes : Nat
  maxFrames : Nat
  bytesPos : 0 < maxBytes
  framesPos : 0 < maxFrames
  bytesFit : maxBytes ≤ maxU64
  framesFit : maxFrames ≤ maxU64
  deriving DecidableEq, Repr

def validateChildLimit (scope : String) (child total : CacheBudgetLimit) : Except Error Unit := do
  rejectIf (total.maxBytes < child.maxBytes) (invalid "create_memory_budgets"
    s!"per-{scope} cache byte limit must not exceed the total byte limit")
  rejectIf (total.maxFrames < child.maxFrames) (invalid "create_memory_budgets"
    s!"per-{scope} cache frame limit must not exceed the total frame limit")

/-- The limits of one cache manager. -/
structure CacheMemoryBudgets where
  total : CacheBudgetLimit
  perProject : CacheBudgetLimit
  perDevice : CacheBudgetLimit
  projectWithin : validateChildLimit "project" perProject total = .ok ()
  deviceWithin : validateChildLimit "device" perDevice total = .ok ()

/-- The payload of one reservation; it is never empty. -/
structure CacheCost where
  bytes : Nat
  frames : Nat
  bytesPos : 0 < bytes
  framesPos : 0 < frames
  deriving DecidableEq, Repr

/-! ## Usage -/

/-- Resident bytes and frame results of one scope. -/
structure CacheBudgetUsage where
  bytes : Nat
  frames : Nat
  deriving DecidableEq, Repr, Inhabited

namespace CacheBudgetUsage

instance : Zero CacheBudgetUsage := ⟨⟨0, 0⟩⟩

instance : Add CacheBudgetUsage := ⟨fun a b => ⟨a.bytes + b.bytes, a.frames + b.frames⟩⟩

/-- The usage one reservation accounts for. -/
def ofCost (cost : CacheCost) : CacheBudgetUsage := ⟨cost.bytes, cost.frames⟩

def add (usage : CacheBudgetUsage) (cost : CacheCost) : Option CacheBudgetUsage :=
  if maxU64 < usage.bytes + cost.bytes ∨ maxU64 < usage.frames + cost.frames then none
  else some (usage + ofCost cost)

def subtract (usage : CacheBudgetUsage) (cost : CacheCost) : Option CacheBudgetUsage :=
  if usage.bytes < cost.bytes ∨ usage.frames < cost.frames then none
  else some ⟨usage.bytes - cost.bytes, usage.frames - cost.frames⟩

def isEmpty (usage : CacheBudgetUsage) : Bool := usage.bytes == 0 && usage.frames == 0

end CacheBudgetUsage

/-- The counters behind the lock of a manager. -/
structure CacheBudgetState where
  totalUsage : CacheBudgetUsage
  peakTotalUsage : CacheBudgetUsage
  projects : Std.ExtTreeMap ProjectId CacheBudgetUsage
  devices : Std.ExtTreeMap DeviceId CacheBudgetUsage
  activeReservations : Nat
  deniedReservations : Nat

/-- A new manager has nothing resident. -/
def CacheBudgetState.default : CacheBudgetState where
  totalUsage := 0
  peakTotalUsage := 0
  projects := ∅
  devices := ∅
  activeReservations := 0
  deniedReservations := 0

/-! ## Limits that refuse a reservation -/

/-- The scope that must shrink before a reservation fits. -/
inductive CachePressureScope
  | total
  | project (projectId : ProjectId)
  | device (deviceId : DeviceId)
  deriving DecidableEq

inductive LimitKind
  | totalBytes
  | totalFrames
  | projectBytes
  | projectFrames
  | deviceBytes
  | deviceFrames
  deriving DecidableEq, Repr

structure LimitFailure where
  kind : LimitKind
  current : Nat
  maximum : Nat
  deriving DecidableEq, Repr

/-- The scope of a failure.  A device limit is only checked for a device reservation. -/
def LimitKind.scope (kind : LimitKind) (projectId : ProjectId) (deviceId : Option DeviceId) :
    Option CachePressureScope :=
  match kind with
  | .totalBytes | .totalFrames => some .total
  | .projectBytes | .projectFrames => some (.project projectId)
  | .deviceBytes | .deviceFrames => deviceId.map .device

def limitFailure (kind : LimitKind) (current requested maximum : Nat) : Option LimitFailure :=
  if maximum - current < requested then some ⟨kind, current, maximum⟩ else none

/-- The first limit a reservation would break, in the order global, project, device. -/
def firstLimitFailure (budgets : CacheMemoryBudgets) (total project : CacheBudgetUsage)
    (device : Option CacheBudgetUsage) (cost : CacheCost) : Option LimitFailure :=
  (limitFailure .totalBytes total.bytes cost.bytes budgets.total.maxBytes)
    |>.or (limitFailure .totalFrames total.frames cost.frames budgets.total.maxFrames)
    |>.or (limitFailure .projectBytes project.bytes cost.bytes budgets.perProject.maxBytes)
    |>.or (limitFailure .projectFrames project.frames cost.frames budgets.perProject.maxFrames)
    |>.or (device.bind fun usage =>
      limitFailure .deviceBytes usage.bytes cost.bytes budgets.perDevice.maxBytes)
    |>.or (device.bind fun usage =>
      limitFailure .deviceFrames usage.frames cost.frames budgets.perDevice.maxFrames)

def budgetExhausted : Error :=
  (Error.new .resourceExhausted .retryable
    "cache memory budget cannot admit the requested result").withContext
    ⟨"superi-cache.memory-budget", "reserve_cache_memory"⟩

/-! ## Reservations -/

/-- One owner of admitted capacity. -/
structure CacheBudgetReservation where
  projectId : ProjectId
  deviceId : Option DeviceId
  cost : CacheCost
  gpuAccounted : Bool
  deriving DecidableEq

namespace CacheBudgetState

def projectUsage (state : CacheBudgetState) (projectId : ProjectId) : CacheBudgetUsage :=
  state.projects[projectId]?.getD 0

def deviceUsage (state : CacheBudgetState) (deviceId : DeviceId) : CacheBudgetUsage :=
  state.devices[deviceId]?.getD 0

/-- The first limit that refuses a reservation now. -/
def limitFailureFor (budgets : CacheMemoryBudgets) (state : CacheBudgetState)
    (projectId : ProjectId) (deviceId : Option DeviceId) (cost : CacheCost) : Option LimitFailure :=
  firstLimitFailure budgets state.totalUsage (state.projectUsage projectId)
    (deviceId.map state.deviceUsage) cost

def pressureScope (budgets : CacheMemoryBudgets) (state : CacheBudgetState)
    (projectId : ProjectId) (deviceId : Option DeviceId) (cost : CacheCost) :
    Option CachePressureScope :=
  (state.limitFailureFor budgets projectId deviceId cost).bind fun failure =>
    failure.kind.scope projectId deviceId

/-- Charge the device of a reservation, if it has one. -/
def chargeDevice (devices : Std.ExtTreeMap DeviceId CacheBudgetUsage) (deviceId : Option DeviceId)
    (cost : CacheCost) : Option (Std.ExtTreeMap DeviceId CacheBudgetUsage) :=
  match deviceId with
  | none => some devices
  | some deviceId => do
      let usage ← (devices[deviceId]?.getD 0).add cost
      pure (devices.insert deviceId usage)

/-- Charge an admitted reservation to its scopes. -/
def charge (state : CacheBudgetState) (projectId : ProjectId) (deviceId : Option DeviceId)
    (cost : CacheCost) : Option CacheBudgetState := do
  let totalUsage ← state.totalUsage.add cost
  let usage ← (state.projectUsage projectId).add cost
  let devices ← chargeDevice state.devices deviceId cost
  if maxU64 ≤ state.activeReservations then none
  else pure { state with
    totalUsage
    peakTotalUsage := ⟨max state.peakTotalUsage.bytes totalUsage.bytes,
      max state.peakTotalUsage.frames totalUsage.frames⟩
    projects := state.projects.insert projectId usage
    devices
    activeReservations := state.activeReservations + 1 }

/-- Admit one reservation, or count it as denied. -/
def reserveLocal (budgets : CacheMemoryBudgets) (state : CacheBudgetState) (projectId : ProjectId)
    (deviceId : Option DeviceId) (cost : CacheCost) :
    Option (CacheBudgetState × Except Error CacheBudgetReservation) :=
  match state.limitFailureFor budgets projectId deviceId cost with
  | some _ =>
      some ({ state with deniedReservations := min maxU64 (state.deniedReservations + 1) },
        .error budgetExhausted)
  | none => do
      let state ← state.charge projectId deviceId cost
      pure (state, .ok { projectId, deviceId, cost, gpuAccounted := false })

/-- Take a cost back from one scope; a scope without usage is dropped. -/
def discharge {κ : Type} [Ord κ] [Std.TransOrd κ] (usages : Std.ExtTreeMap κ CacheBudgetUsage)
    (scope : κ) (cost : CacheCost) : Option (Std.ExtTreeMap κ CacheBudgetUsage) := do
  let usage ← usages[scope]?
  let usage ← usage.subtract cost
  pure (if usage.isEmpty then usages.erase scope else usages.insert scope usage)

def dischargeDevice (devices : Std.ExtTreeMap DeviceId CacheBudgetUsage)
    (deviceId : Option DeviceId) (cost : CacheCost) :
    Option (Std.ExtTreeMap DeviceId CacheBudgetUsage) :=
  match deviceId with
  | none => some devices
  | some deviceId => discharge devices deviceId cost

/-- Drop one reservation. -/
def release (state : CacheBudgetState) (projectId : ProjectId) (deviceId : Option DeviceId)
    (cost : CacheCost) : Option CacheBudgetState := do
  let totalUsage ← state.totalUsage.subtract cost
  let projects ← discharge state.projects projectId cost
  let devices ← dischargeDevice state.devices deviceId cost
  if state.activeReservations = 0 then none
  else pure { state with
    totalUsage, projects, devices, activeReservations := state.activeReservations - 1 }

/-- Reserve capacity of a device.  `gpu` is what the shared memory pool of the device answers; a
refusal drops the provisional reservation. -/
def reserveDevice (budgets : CacheMemoryBudgets) (state : CacheBudgetState) (projectId : ProjectId)
    (deviceId : DeviceId) (cost : CacheCost) (gpu : Except Error Unit) :
    Option (CacheBudgetState × Except Error CacheBudgetReservation) := do
  match ← state.reserveLocal budgets projectId (some deviceId) cost with
  | (state, .error error) => pure (state, .error error)
  | (state, .ok reservation) =>
      match gpu with
      | .ok () => pure (state, .ok { reservation with gpuAccounted := true })
      | .error error => do
          let state ← state.release reservation.projectId reservation.deviceId reservation.cost
          pure (state, .error (error.withContext ⟨"superi-cache.memory-budget", "reserve_device"⟩))

end CacheBudgetState

end Cache
end Superi

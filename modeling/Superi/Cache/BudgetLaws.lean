import Mathlib
import Superi.Cache.Budget
import Superi.Lib.Ledger

/-!
# BudgetLaws — cache accounting is exact in every run

The counters of a manager are a ledger of the reservations that are alive: their sums per scope, no
scope without an owner, every sum within its limit.  Reservations are admitted, accounted on their
device, refused by it and dropped in any order.
-/

namespace Superi
namespace Cache

open Core Result Keyed Ledger

/-! ## Arithmetic of usage -/

namespace CacheBudgetUsage

instance : AddCommMonoid CacheBudgetUsage where
  add_assoc a b c := congrArg₂ mk (Nat.add_assoc ..) (Nat.add_assoc ..)
  zero_add a := congrArg₂ mk (Nat.zero_add _) (Nat.zero_add _)
  add_zero _ := rfl
  add_comm a b := congrArg₂ mk (Nat.add_comm ..) (Nat.add_comm ..)
  nsmul := nsmulRec

@[simp] theorem bytes_add (a b : CacheBudgetUsage) : (a + b).bytes = a.bytes + b.bytes := rfl

@[simp] theorem frames_add (a b : CacheBudgetUsage) : (a + b).frames = a.frames + b.frames := rfl

@[simp] theorem bytes_zero : (0 : CacheBudgetUsage).bytes = 0 := rfl

@[simp] theorem frames_zero : (0 : CacheBudgetUsage).frames = 0 := rfl

@[simp] theorem bytes_ofCost (cost : CacheCost) : (ofCost cost).bytes = cost.bytes := rfl

@[simp] theorem frames_ofCost (cost : CacheCost) : (ofCost cost).frames = cost.frames := rfl

/-- Both counters stay within a limit. -/
def Within (usage : CacheBudgetUsage) (limit : CacheBudgetLimit) : Prop :=
  usage.bytes ≤ limit.maxBytes ∧ usage.frames ≤ limit.maxFrames

/-- A sum within a limit does not overflow. -/
theorem add_eq_some {usage : CacheBudgetUsage} {cost : CacheCost} {limit : CacheBudgetLimit}
    (h : (usage + ofCost cost).Within limit) : usage.add cost = some (usage + ofCost cost) := by
  have hbytes := Nat.le_trans h.1 limit.bytesFit
  have hframes := Nat.le_trans h.2 limit.framesFit
  rw [add, if_neg]
  rintro (hover | hover)
  · exact absurd hbytes (Nat.not_le.2 hover)
  · exact absurd hframes (Nat.not_le.2 hover)

/-- What was added can be taken back. -/
theorem subtract_add (cost : CacheCost) (rest : CacheBudgetUsage) :
    (ofCost cost + rest).subtract cost = some rest := by
  rw [subtract, if_neg]
  · simp
  · simp

theorem isEmpty_iff {usage : CacheBudgetUsage} : usage.isEmpty = true ↔ usage = 0 := by
  cases usage with
  | mk bytes frames =>
      simp only [isEmpty, Bool.and_eq_true, beq_iff_eq]
      exact (CacheBudgetUsage.mk.injEq bytes frames 0 0).to_iff.symm

end CacheBudgetUsage

open CacheBudgetUsage

/-! ## Charges of nonempty costs -/

section Charges

variable {κ : Type} [DecidableEq κ]

/-- The charges of some owners: the cost of each in its scope. -/
def chargesOf (owners : List (κ × CacheCost)) : List (κ × CacheBudgetUsage) :=
  owners.map fun owner => (owner.1, ofCost owner.2)

theorem due_le_cons (scope other : κ) (cost : CacheCost) (owners : List (κ × CacheCost)) :
    (due (chargesOf owners) other).bytes ≤ (due (chargesOf ((scope, cost) :: owners)) other).bytes ∧
      (due (chargesOf owners) other).frames ≤
        (due (chargesOf ((scope, cost) :: owners)) other).frames := by
  simp only [chargesOf, List.map_cons, due_cons, bytes_add, frames_add]
  exact ⟨Nat.le_add_left _ _, Nat.le_add_left _ _⟩

/-- An owner's scope is due something. -/
theorem due_pos {owners : List (κ × CacheCost)} {scope : κ} (h : Owned (chargesOf owners) scope) :
    0 < (due (chargesOf owners) scope).bytes ∧ 0 < (due (chargesOf owners) scope).frames := by
  obtain ⟨amount, hmem⟩ := h
  induction owners with
  | nil => simp [chargesOf] at hmem
  | cons owner rest ih =>
      obtain ⟨other, cost⟩ := owner
      simp only [chargesOf, List.map_cons, List.mem_cons, Prod.mk.injEq] at hmem
      rcases hmem with ⟨rfl, rfl⟩ | hmem
      · have hbytes := cost.bytesPos
        have hframes := cost.framesPos
        simp only [chargesOf, List.map_cons, due_cons, if_true, bytes_add, frames_add,
          bytes_ofCost, frames_ofCost]
        omega
      · have hle := due_le_cons other scope cost rest
        have hrest := ih hmem
        omega

variable [Ord κ] [Std.TransOrd κ] [Std.LawfulEqOrd κ]

/-- Every listed scope stays within its limit. -/
def AllWithin (usages : Std.ExtTreeMap κ CacheBudgetUsage) (limit : CacheBudgetLimit) : Prop :=
  ∀ (scope : κ) (usage : CacheBudgetUsage), usages[scope]? = some usage → usage.Within limit

/-- Dropping an owner succeeds, and leaves a ledger of the others. -/
theorem discharge_spec {usages : Std.ExtTreeMap κ CacheBudgetUsage} {scope : κ} {cost : CacheCost}
    {owners : List (κ × CacheCost)} {limit : CacheBudgetLimit}
    (h : Balanced usages (chargesOf ((scope, cost) :: owners))) (hwithin : AllWithin usages limit) :
    ∃ usages', CacheBudgetState.discharge usages scope cost = some usages' ∧
      Balanced usages' (chargesOf owners) ∧ AllWithin usages' limit := by
  have hpos : ∀ charge ∈ chargesOf owners, due (chargesOf owners) charge.1 ≠ 0 := by
    intro charge hmem hzero
    have hdue := (due_pos ⟨charge.2, hmem⟩).1
    rw [hzero] at hdue
    exact absurd hdue (Nat.lt_irrefl 0)
  obtain ⟨hentry, hbalanced⟩ := Balanced.discharge h hpos
  have hentry : usages[scope]? = some (ofCost cost + due (chargesOf owners) scope) := hentry
  refine ⟨_, ?_, hbalanced, ?_⟩
  · simp only [CacheBudgetState.discharge, hentry, Option.bind_eq_bind, Option.bind_some,
      subtract_add, CacheBudgetUsage.isEmpty_iff]
    rfl
  · -- the entries only shrink
    intro other usage husage
    obtain ⟨howned, rfl⟩ := (hbalanced other usage).1 husage
    obtain ⟨amount, hmem⟩ := howned
    have hlarger := hwithin other _
      ((h other _).2 ⟨⟨amount, List.mem_cons_of_mem _ hmem⟩, rfl⟩)
    have hle := due_le_cons scope other cost owners
    exact ⟨Nat.le_trans hle.1 hlarger.1, Nat.le_trans hle.2 hlarger.2⟩

/-- Charging an owner that fits keeps a ledger within its limit. -/
theorem charge_spec {usages : Std.ExtTreeMap κ CacheBudgetUsage} {scope : κ} {cost : CacheCost}
    {owners : List (κ × CacheCost)} {limit : CacheBudgetLimit}
    (h : Balanced usages (chargesOf owners)) (hwithin : AllWithin usages limit)
    (hfits : (usages[scope]?.getD 0 + ofCost cost).Within limit) :
    Balanced (usages.insert scope (usages[scope]?.getD 0 + ofCost cost))
        (chargesOf ((scope, cost) :: owners)) ∧
      AllWithin (usages.insert scope (usages[scope]?.getD 0 + ofCost cost)) limit := by
  refine ⟨h.charge scope (ofCost cost), fun other usage husage => ?_⟩
  rw [getElem?_insert_eq] at husage
  split at husage
  · cases husage
    exact hfits
  · exact hwithin other usage husage

end Charges

/-! ## The invariant -/

namespace CacheBudgetReservation

/-- The project a reservation is charged to. -/
def projectOwner (reservation : CacheBudgetReservation) : ProjectId × CacheCost :=
  (reservation.projectId, reservation.cost)

/-- The device a reservation is charged to, if any. -/
def deviceOwner (reservation : CacheBudgetReservation) : Option (DeviceId × CacheCost) :=
  reservation.deviceId.map fun deviceId => (deviceId, reservation.cost)

end CacheBudgetReservation

open CacheBudgetReservation

/-- The usage of all reservations together. -/
def usageOf (live : List CacheBudgetReservation) : CacheBudgetUsage :=
  (live.map fun reservation => ofCost reservation.cost).sum

/-- The counters are exactly what the live reservations add up to, within the limits. -/
structure Accounted (budgets : CacheMemoryBudgets) (state : CacheBudgetState)
    (live : List CacheBudgetReservation) : Prop where
  total : state.totalUsage = usageOf live
  projects : Balanced state.projects (chargesOf (live.map projectOwner))
  devices : Balanced state.devices (chargesOf (live.filterMap deviceOwner))
  active : state.activeReservations = live.length
  totalWithin : state.totalUsage.Within budgets.total
  projectsWithin : AllWithin state.projects budgets.perProject
  devicesWithin : AllWithin state.devices budgets.perDevice

namespace Accounted

variable {budgets : CacheMemoryBudgets} {state : CacheBudgetState}
  {live live' : List CacheBudgetReservation}

theorem default (budgets : CacheMemoryBudgets) : Accounted budgets .default [] where
  total := rfl
  projects := .empty
  devices := .empty
  active := rfl
  totalWithin := ⟨Nat.zero_le _, Nat.zero_le _⟩
  projectsWithin := by intro scope usage h; simp [CacheBudgetState.default] at h
  devicesWithin := by intro scope usage h; simp [CacheBudgetState.default] at h

theorem perm (h : Accounted budgets state live) (hperm : live.Perm live') :
    Accounted budgets state live' where
  total := by rw [h.total, usageOf, usageOf, (hperm.map _).sum_eq]
  projects := h.projects.perm ((hperm.map _).map _)
  devices := h.devices.perm ((hperm.filterMap _).map _)
  active := by rw [h.active, hperm.length_eq]
  totalWithin := h.totalWithin
  projectsWithin := h.projectsWithin
  devicesWithin := h.devicesWithin

/-- Denials are only counted. -/
theorem denied (h : Accounted budgets state live) (count : Nat) :
    Accounted budgets { state with deniedReservations := count } live :=
  ⟨h.total, h.projects, h.devices, h.active, h.totalWithin, h.projectsWithin, h.devicesWithin⟩

/-- Every reservation has at least one frame, so the frames bound their number. -/
theorem length_le_frames (live : List CacheBudgetReservation) :
    live.length ≤ (usageOf live).frames := by
  induction live with
  | nil => exact Nat.le_refl 0
  | cons reservation rest ih =>
      have hpos := reservation.cost.framesPos
      simp only [usageOf, List.map_cons, List.sum_cons, frames_add, frames_ofCost,
        List.length_cons] at ih ⊢
      omega

end Accounted

/-! ## Admission -/

theorem limitFailure_eq_none {kind : LimitKind} {current requested maximum : Nat} :
    limitFailure kind current requested maximum = none ↔ requested ≤ maximum - current := by
  simp [limitFailure]

/-- A reservation no limit refuses fits into all its scopes. -/
theorem fits_of_limitFailureFor {budgets : CacheMemoryBudgets} {state : CacheBudgetState}
    {projectId : ProjectId} {deviceId : Option DeviceId} {cost : CacheCost}
    (h : state.limitFailureFor budgets projectId deviceId cost = none) :
    (state.totalUsage + ofCost cost).Within budgets.total ∧
      (state.projectUsage projectId + ofCost cost).Within budgets.perProject ∧
      ∀ device ∈ deviceId, (state.deviceUsage device + ofCost cost).Within budgets.perDevice := by
  have hbytes := cost.bytesPos
  have hframes := cost.framesPos
  simp only [CacheBudgetState.limitFailureFor, firstLimitFailure, Option.or_eq_none_iff,
    limitFailure_eq_none] at h
  obtain ⟨⟨⟨⟨⟨htb, htf⟩, hpb⟩, hpf⟩, hdb⟩, hdf⟩ := h
  refine ⟨⟨?_, ?_⟩, ⟨?_, ?_⟩, fun device hdevice => ?_⟩
  · simp only [bytes_add, bytes_ofCost]
    omega
  · simp only [frames_add, frames_ofCost]
    omega
  · simp only [bytes_add, bytes_ofCost]
    omega
  · simp only [frames_add, frames_ofCost]
    omega
  · cases hdevice
    simp only [Option.map_some, Option.bind_some, limitFailure_eq_none] at hdb hdf
    constructor
    · simp only [bytes_add, bytes_ofCost]
      omega
    · simp only [frames_add, frames_ofCost]
      omega

namespace Accounted

variable {budgets : CacheMemoryBudgets} {state : CacheBudgetState}
  {live live' : List CacheBudgetReservation}

/-- Charging the device of a reservation that fits. -/
theorem chargeDevice_spec (h : Accounted budgets state live)
    (reservation : CacheBudgetReservation)
    (hfits : ∀ device ∈ reservation.deviceId,
      (state.deviceUsage device + ofCost reservation.cost).Within budgets.perDevice) :
    ∃ devices, CacheBudgetState.chargeDevice state.devices reservation.deviceId reservation.cost =
        some devices ∧
      Balanced devices (chargesOf ((reservation :: live).filterMap deviceOwner)) ∧
      AllWithin devices budgets.perDevice := by
  cases hdevice : reservation.deviceId with
  | none =>
      refine ⟨state.devices, rfl, ?_, h.devicesWithin⟩
      have hnone : deviceOwner reservation = none := by simp [deviceOwner, hdevice]
      rw [List.filterMap_cons_none hnone]
      exact h.devices
  | some device =>
      have hfit := hfits device hdevice
      have hsome : deviceOwner reservation = some (device, reservation.cost) := by
        simp [deviceOwner, hdevice]
      obtain ⟨hbalanced, hwithin⟩ := charge_spec h.devices h.devicesWithin hfit
      refine ⟨_, ?_, ?_, hwithin⟩
      · rw [CacheBudgetState.chargeDevice, ← CacheBudgetState.deviceUsage, add_eq_some hfit]
        rfl
      · rw [List.filterMap_cons_some hsome]
        exact hbalanced

/-- A reservation that fits is charged without overflow, to exactly its scopes. -/
theorem charge (h : Accounted budgets state live) (reservation : CacheBudgetReservation)
    (hfits : state.limitFailureFor budgets reservation.projectId reservation.deviceId
      reservation.cost = none) :
    ∃ state', state.charge reservation.projectId reservation.deviceId reservation.cost =
        some state' ∧ Accounted budgets state' (reservation :: live) := by
  obtain ⟨htotal, hproject, hdevice⟩ := fits_of_limitFailureFor hfits
  obtain ⟨hbalanced, hwithin⟩ := charge_spec h.projects h.projectsWithin hproject
  obtain ⟨devices, hcharge, hdevices, hdevicesWithin⟩ := h.chargeDevice_spec reservation hdevice
  have hsum : state.totalUsage + ofCost reservation.cost = usageOf (reservation :: live) := by
    rw [h.total, add_comm]
    rfl
  -- the frame limit leaves room for one more reservation
  have hroom : ¬ maxU64 ≤ state.activeReservations := by
    have hlength := length_le_frames (reservation :: live)
    rw [← hsum, List.length_cons, ← h.active] at hlength
    have hfit := Nat.le_trans htotal.2 budgets.total.framesFit
    omega
  refine ⟨{ state with
    totalUsage := state.totalUsage + ofCost reservation.cost
    peakTotalUsage :=
      ⟨max state.peakTotalUsage.bytes (state.totalUsage + ofCost reservation.cost).bytes,
        max state.peakTotalUsage.frames (state.totalUsage + ofCost reservation.cost).frames⟩
    projects := state.projects.insert reservation.projectId
      (state.projectUsage reservation.projectId + ofCost reservation.cost)
    devices := devices
    activeReservations := state.activeReservations + 1 }, ?_, ?_⟩
  · simp only [CacheBudgetState.charge, add_eq_some htotal, add_eq_some hproject, hcharge,
      Option.bind_eq_bind, Option.bind_some, if_neg hroom]
    rfl
  · exact {
      total := hsum
      projects := hbalanced
      devices := hdevices
      active := by rw [List.length_cons, ← h.active]
      totalWithin := htotal
      projectsWithin := hwithin
      devicesWithin := hdevicesWithin }

/-- Dropping a live reservation takes back exactly its charges, and no subtraction fails. -/
theorem release {reservation : CacheBudgetReservation}
    (h : Accounted budgets state (reservation :: live)) :
    ∃ state', state.release reservation.projectId reservation.deviceId reservation.cost =
        some state' ∧ Accounted budgets state' live := by
  have hsum : state.totalUsage = ofCost reservation.cost + usageOf live := h.total
  obtain ⟨projects, hprojects, hbalanced, hwithin⟩ := discharge_spec h.projects h.projectsWithin
  obtain ⟨devices, hdevices, hdevicesBalanced, hdevicesWithin⟩ :
      ∃ devices, CacheBudgetState.dischargeDevice state.devices reservation.deviceId
          reservation.cost = some devices ∧
        Balanced devices (chargesOf (live.filterMap deviceOwner)) ∧
        AllWithin devices budgets.perDevice := by
    have hbalanced := h.devices
    cases hdevice : reservation.deviceId with
    | none =>
        have hnone : deviceOwner reservation = none := by simp [deviceOwner, hdevice]
        rw [List.filterMap_cons_none hnone] at hbalanced
        exact ⟨state.devices, rfl, hbalanced, h.devicesWithin⟩
    | some device =>
        have hsome : deviceOwner reservation = some (device, reservation.cost) := by
          simp [deviceOwner, hdevice]
        rw [List.filterMap_cons_some hsome] at hbalanced
        exact discharge_spec hbalanced h.devicesWithin
  have hactive : ¬ state.activeReservations = 0 := by simp [h.active]
  have hprojects : CacheBudgetState.discharge state.projects reservation.projectId
    reservation.cost = some projects := hprojects
  refine ⟨{ state with
    totalUsage := usageOf live
    projects := projects
    devices := devices
    activeReservations := state.activeReservations - 1 }, ?_, ?_⟩
  · simp only [CacheBudgetState.release, hsum, subtract_add, Option.bind_eq_bind, Option.bind_some,
      hprojects, hdevices, if_neg hactive]
    rfl
  · have hle := h.totalWithin
    rw [hsum] at hle
    exact {
      total := rfl
      projects := hbalanced
      devices := hdevicesBalanced
      active := by simp [h.active]
      totalWithin := ⟨Nat.le_trans (Nat.le_add_left _ _) hle.1,
        Nat.le_trans (Nat.le_add_left _ _) hle.2⟩
      projectsWithin := hwithin
      devicesWithin := hdevicesWithin }

/-- Two accounts of the same reservations show the same usage. -/
theorem unique {state' : CacheBudgetState} (h : Accounted budgets state live)
    (h' : Accounted budgets state' live) : state'.totalUsage = state.totalUsage ∧
      state'.projects = state.projects ∧ state'.devices = state.devices ∧
      state'.activeReservations = state.activeReservations :=
  ⟨h'.total.trans h.total.symm, h'.projects.unique h.projects, h'.devices.unique h.devices,
    h'.active.trans h.active.symm⟩

end Accounted

/-! ## Runs -/

/-- A manager with the reservations that are alive. -/
structure BudgetSystem where
  state : CacheBudgetState
  live : List CacheBudgetReservation

/-- One atomic step of any user of the manager.  Between the local admission of a device
reservation and the answer of the device (`account`, or `release` when it refuses) other users may
take steps. -/
inductive BudgetStep (budgets : CacheMemoryBudgets) : BudgetSystem → BudgetSystem → Prop
  | admitted {state state' : CacheBudgetState} {live : List CacheBudgetReservation}
      {reservation : CacheBudgetReservation} (projectId : ProjectId) (deviceId : Option DeviceId)
      (cost : CacheCost)
      (h : state.reserveLocal budgets projectId deviceId cost = some (state', .ok reservation)) :
      BudgetStep budgets ⟨state, live⟩ ⟨state', reservation :: live⟩
  | refuse {state state' : CacheBudgetState} {live : List CacheBudgetReservation} {error : Error}
      (projectId : ProjectId) (deviceId : Option DeviceId) (cost : CacheCost)
      (h : state.reserveLocal budgets projectId deviceId cost = some (state', .error error)) :
      BudgetStep budgets ⟨state, live⟩ ⟨state', live⟩
  | account {state : CacheBudgetState} {live rest : List CacheBudgetReservation}
      {reservation : CacheBudgetReservation} (hlive : live.Perm (reservation :: rest)) :
      BudgetStep budgets ⟨state, live⟩ ⟨state, { reservation with gpuAccounted := true } :: rest⟩
  | release {state state' : CacheBudgetState} {live rest : List CacheBudgetReservation}
      {reservation : CacheBudgetReservation} (hlive : live.Perm (reservation :: rest))
      (h : state.release reservation.projectId reservation.deviceId reservation.cost =
        some state') :
      BudgetStep budgets ⟨state, live⟩ ⟨state', rest⟩

/-- The systems a new manager can develop into. -/
def BudgetReachable (budgets : CacheMemoryBudgets) (system : BudgetSystem) : Prop :=
  Relation.ReflTransGen (BudgetStep budgets) ⟨.default, []⟩ system

section Steps

variable {budgets : CacheMemoryBudgets} {state state' : CacheBudgetState}
  {live : List CacheBudgetReservation} {projectId : ProjectId} {deviceId : Option DeviceId}
  {cost : CacheCost}

/-- An attempt to reserve never panics: it is admitted and charged, or counted as denied. -/
theorem Accounted.reserveLocal (h : Accounted budgets state live) (projectId : ProjectId)
    (deviceId : Option DeviceId) (cost : CacheCost) :
    (∃ state', state.reserveLocal budgets projectId deviceId cost =
        some (state', .ok ⟨projectId, deviceId, cost, false⟩) ∧
      Accounted budgets state' (⟨projectId, deviceId, cost, false⟩ :: live)) ∨
    (∃ count, state.reserveLocal budgets projectId deviceId cost =
      some ({ state with deniedReservations := count }, .error budgetExhausted)) := by
  cases hfailure : state.limitFailureFor budgets projectId deviceId cost with
  | some failure =>
      right
      exact ⟨min maxU64 (state.deniedReservations + 1),
        by simp only [CacheBudgetState.reserveLocal, hfailure]⟩
  | none =>
      left
      obtain ⟨state', hcharge, hstate'⟩ := h.charge ⟨projectId, deviceId, cost, false⟩ hfailure
      refine ⟨state', ?_, hstate'⟩
      simp only [CacheBudgetState.reserveLocal, hfailure]
      rw [show state.charge projectId deviceId cost = some state' from hcharge]
      rfl

/-- Every step keeps the accounts. -/
theorem Accounted.step {system system' : BudgetSystem}
    (h : Accounted budgets system.state system.live) (hstep : BudgetStep budgets system system') :
    Accounted budgets system'.state system'.live := by
  cases hstep with
  | admitted projectId deviceId cost hok =>
      rcases h.reserveLocal projectId deviceId cost with ⟨state', heq, hstate'⟩ | ⟨count, heq⟩
      · rw [hok] at heq
        cases heq
        exact hstate'
      · rw [hok] at heq
        cases heq
  | refuse projectId deviceId cost hok =>
      rcases h.reserveLocal projectId deviceId cost with ⟨state', heq, -⟩ | ⟨count, heq⟩
      · rw [hok] at heq
        cases heq
      · rw [hok] at heq
        cases heq
        exact h.denied count
  | account hlive =>
      have hperm := h.perm hlive
      exact ⟨hperm.total, hperm.projects, hperm.devices, hperm.active, hperm.totalWithin,
        hperm.projectsWithin, hperm.devicesWithin⟩
  | release hlive hok =>
      obtain ⟨state', heq, hstate'⟩ := (h.perm hlive).release
      rw [hok] at heq
      cases heq
      exact hstate'

/-- Every reachable system is accounted for. -/
theorem BudgetReachable.accounted {system : BudgetSystem} (h : BudgetReachable budgets system) :
    Accounted budgets system.state system.live := by
  induction h with
  | refl => exact .default budgets
  | tail _ hstep ih => exact ih.step hstep

/-- The counters other than those of attempts. -/
def SameUsage (state state' : CacheBudgetState) : Prop :=
  state'.totalUsage = state.totalUsage ∧ state'.projects = state.projects ∧
    state'.devices = state.devices ∧ state'.activeReservations = state.activeReservations

/-- A device that refuses leaves no trace of the provisional reservation. -/
theorem Accounted.reserveDevice_refused (h : Accounted budgets state live) (projectId : ProjectId)
    (deviceId : DeviceId) (cost : CacheCost) (refusal : Error) :
    ∃ state' error, state.reserveDevice budgets projectId deviceId cost (.error refusal) =
      some (state', .error error) ∧ SameUsage state state' := by
  rcases h.reserveLocal projectId (some deviceId) cost with ⟨charged, heq, hcharged⟩ | ⟨count, heq⟩
  · obtain ⟨released, hrelease, hreleased⟩ := hcharged.release
    refine ⟨released, refusal.withContext ⟨"superi-cache.memory-budget", "reserve_device"⟩, ?_,
      h.unique hreleased⟩
    simp only [CacheBudgetState.reserveDevice, heq, Option.bind_eq_bind, Option.bind_some]
    rw [show charged.release projectId (some deviceId) cost = some released from hrelease]
    rfl
  · refine ⟨{ state with deniedReservations := count }, budgetExhausted, ?_, rfl, rfl, rfl, rfl⟩
    simp only [CacheBudgetState.reserveDevice, heq, Option.bind_eq_bind, Option.bind_some]
    rfl

end Steps

/-- In every run the usages are the sums over the live reservations, within the limits and without
empty scopes; refusals change no usage, and neither charging nor dropping ever fails. -/
theorem budget_accounting_exact {budgets : CacheMemoryBudgets} {system : BudgetSystem}
    (h : BudgetReachable budgets system) :
    Accounted budgets system.state system.live ∧
      (∀ (project : ProjectId) (usage : CacheBudgetUsage),
        system.state.projects[project]? = some usage → 0 < usage.bytes ∧ 0 < usage.frames) ∧
      (∀ (device : DeviceId) (usage : CacheBudgetUsage),
        system.state.devices[device]? = some usage → 0 < usage.bytes ∧ 0 < usage.frames) ∧
      (∀ (project : ProjectId) (device : Option DeviceId) (cost : CacheCost),
        ∃ state' result,
          system.state.reserveLocal budgets project device cost = some (state', result) ∧
          (∀ error, result = .error error → SameUsage system.state state')) ∧
      (∀ (project : ProjectId) (device : DeviceId) (cost : CacheCost) (refusal : Error),
        ∃ state' error, system.state.reserveDevice budgets project device cost (.error refusal) =
          some (state', .error error) ∧ SameUsage system.state state') ∧
      ∀ reservation ∈ system.live, ∃ state',
        system.state.release reservation.projectId reservation.deviceId reservation.cost =
          some state' := by
  have haccounted := h.accounted
  refine ⟨haccounted, ?_, ?_, ?_, haccounted.reserveDevice_refused, ?_⟩
  · intro project usage husage
    obtain ⟨howned, rfl⟩ := (haccounted.projects project usage).1 husage
    exact due_pos howned
  · intro device usage husage
    obtain ⟨howned, rfl⟩ := (haccounted.devices device usage).1 husage
    exact due_pos howned
  · intro project device cost
    rcases haccounted.reserveLocal project device cost with ⟨state', heq, -⟩ | ⟨count, heq⟩
    · exact ⟨state', _, heq, fun error herror => by cases herror⟩
    · exact ⟨_, _, heq, fun error _ => ⟨rfl, rfl, rfl, rfl⟩⟩
  · intro reservation hmem
    obtain ⟨state', hrelease, -⟩ := (haccounted.perm (List.perm_cons_erase hmem)).release
    exact ⟨state', hrelease⟩

/-! ### A manager with room for one frame -/

def singleFrameLimit : CacheBudgetLimit where
  maxBytes := 64
  maxFrames := 1
  bytesPos := by decide
  framesPos := by decide
  bytesFit := by decide
  framesFit := by decide

def singleFrameBudgets : CacheMemoryBudgets where
  total := singleFrameLimit
  perProject := singleFrameLimit
  perDevice := singleFrameLimit
  projectWithin := rfl
  deviceWithin := rfl

def singleFrameCost : CacheCost where
  bytes := 16
  frames := 1
  bytesPos := by decide
  framesPos := by decide

theorem budget_accounting_exact_single : ∃ state : CacheBudgetState,
    state.totalUsage = ⟨16, 1⟩ ∧
      ∃ state', state.release ⟨1⟩ (some ⟨2⟩) singleFrameCost = some state' := by
  have hstart := Accounted.default singleFrameBudgets
  obtain ⟨state, hcharge, haccounted⟩ :=
    hstart.charge ⟨⟨1⟩, some ⟨2⟩, singleFrameCost, false⟩ (by decide)
  have hreserve : CacheBudgetState.default.reserveLocal singleFrameBudgets ⟨1⟩ (some ⟨2⟩)
      singleFrameCost = some (state, .ok ⟨⟨1⟩, some ⟨2⟩, singleFrameCost, false⟩) := by
    have hnone : CacheBudgetState.default.limitFailureFor singleFrameBudgets ⟨1⟩ (some ⟨2⟩)
        singleFrameCost = none := by decide
    simp only [CacheBudgetState.reserveLocal, hnone]
    rw [show CacheBudgetState.default.charge ⟨1⟩ (some ⟨2⟩) singleFrameCost = some state from
      hcharge]
    rfl
  have hreachable : BudgetReachable singleFrameBudgets
      ⟨state, [⟨⟨1⟩, some ⟨2⟩, singleFrameCost, false⟩]⟩ := .single (.admitted _ _ _ hreserve)
  have hexact := budget_accounting_exact hreachable
  refine ⟨state, haccounted.total, ?_⟩
  exact hexact.2.2.2.2.2 ⟨⟨1⟩, some ⟨2⟩, singleFrameCost, false⟩ List.mem_cons_self

end Cache
end Superi

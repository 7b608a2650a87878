import Mathlib

/-!
# Coherent — one atomic location under relaxed accesses

The values written to a location form its modification order.  A relaxed load may return any of them
from the last one its thread has seen, and a thread that has seen a value never sees an older one.
A compare-and-exchange that succeeds works on the newest value.
-/

namespace Superi
namespace Coherent

variable {α : Type*}

/-- The values of one location, oldest first. -/
structure Location (α : Type*) where
  initial : α
  writes : List α

namespace Location

variable (location : Location α)

def values : List α := location.initial :: location.writes

def latest : α := location.writes.getLastD location.initial

/-- The value at `index`, as far as a thread that has seen `view` may load it. -/
def load (view index : Nat) : Option α :=
  if view ≤ index then location.values[index]? else none

/-- Write `value` over the newest value `current`. -/
def exchange [DecidableEq α] (current value : α) : Option (Location α) :=
  if location.latest = current then
    some { location with writes := location.writes ++ [value] }
  else none

/-- The modification order only goes up. -/
def Increasing [LT α] : Prop := location.values.Pairwise (· < ·)

variable {location}

theorem load_eq_some {view index : Nat} {value : α} :
    location.load view index = some value ↔ view ≤ index ∧ location.values[index]? = some value := by
  unfold load
  split <;> simp_all

theorem mem_of_load {view index : Nat} {value : α} (h : location.load view index = some value) :
    value ∈ location.values :=
  List.mem_of_getElem? (load_eq_some.1 h).2

theorem latest_eq_getLast :
    location.latest = location.values.getLast (List.cons_ne_nil _ _) :=
  (List.getLast_eq_getLastD _).symm

section Exchange

variable [DecidableEq α] {next : Location α} {current value : α}

theorem exchange_eq_some : location.exchange current value = some next ↔
    location.latest = current ∧ next = { location with writes := location.writes ++ [value] } := by
  unfold exchange
  split <;> simp_all [eq_comm]

theorem values_of_exchange (h : location.exchange current value = some next) :
    next.values = location.values ++ [value] := by
  obtain ⟨-, rfl⟩ := exchange_eq_some.1 h
  rfl

theorem latest_of_exchange (h : location.exchange current value = some next) :
    next.latest = value := by
  obtain ⟨-, rfl⟩ := exchange_eq_some.1 h
  simp [latest]

end Exchange

section Order

variable [LinearOrder α]

/-- Every value is at most the newest. -/
theorem Increasing.le_latest (h : location.Increasing) {value : α} (hvalue : value ∈ location.values) :
    value ≤ location.latest := by
  rw [latest_eq_getLast]
  rcases List.eq_nil_or_concat location.values with hnil | ⟨front, last, hsplit⟩
  · cases hnil
  · have hsplit' : location.values = front ++ [last] := by simpa using hsplit
    rw [Increasing, hsplit', List.pairwise_append] at h
    simp only [hsplit', List.getLast_append_singleton] at hvalue ⊢
    rcases List.mem_append.1 hvalue with hfront | hlast
    · exact (h.2.2 value hfront last (List.mem_singleton_self _)).le
    · exact (List.mem_singleton.1 hlast).le

/-- What is loaded later in the modification order is not smaller. -/
theorem Increasing.getElem?_mono (h : location.Increasing) {i j : Nat} {first second : α}
    (hij : i ≤ j) (hfirst : location.values[i]? = some first)
    (hsecond : location.values[j]? = some second) : first ≤ second := by
  obtain ⟨hi, rfl⟩ := List.getElem?_eq_some_iff.1 hfirst
  obtain ⟨hj, rfl⟩ := List.getElem?_eq_some_iff.1 hsecond
  rcases Nat.lt_or_eq_of_le hij with hlt | rfl
  · exact (List.pairwise_iff_getElem.1 h i j hi hj hlt).le
  · exact le_rfl

theorem Increasing.exchange {next : Location α} {current value : α} (h : location.Increasing)
    (hlt : current < value) (hnext : location.exchange current value = some next) :
    next.Increasing := by
  obtain ⟨hlatest, -⟩ := exchange_eq_some.1 hnext
  rw [Increasing, values_of_exchange hnext, List.pairwise_append]
  refine ⟨h, List.pairwise_singleton _ _, ?_⟩
  intro earlier hearlier last hlast
  rw [List.mem_singleton.1 hlast]
  exact lt_of_le_of_lt (hlatest ▸ h.le_latest hearlier) hlt

end Order

end Location

end Coherent
end Superi

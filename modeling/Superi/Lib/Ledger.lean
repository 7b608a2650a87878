import Mathlib
import Superi.Lib.Keyed

/-!
# Ledger — running totals per scope

Owners are charged to scopes.  A ledger keeps, for every scope with an owner, the sum of its
charges and nothing for the others; charging and discharging one owner keep it that way as long as
no charge is zero.
-/

namespace Superi
namespace Ledger

open Keyed

variable {κ α : Type*} [DecidableEq κ] [AddCommMonoid α]

/-! ## What a scope is due -/

/-- The sum of the charges of one scope. -/
def due (charges : List (κ × α)) (scope : κ) : α :=
  ((charges.filter fun charge => charge.1 = scope).map Prod.snd).sum

theorem due_cons (scope scope' : κ) (amount : α) (charges : List (κ × α)) :
    due ((scope, amount) :: charges) scope' =
      (if scope = scope' then amount else 0) + due charges scope' := by
  by_cases h : scope = scope'
  · simp [due, h]
  · simp [due, h]

theorem due_perm {charges charges' : List (κ × α)} (h : charges.Perm charges') (scope : κ) :
    due charges scope = due charges' scope :=
  ((h.filter _).map _).sum_eq

/-- A scope has an owner. -/
def Owned (charges : List (κ × α)) (scope : κ) : Prop :=
  ∃ amount, (scope, amount) ∈ charges

/-- Without owners nothing is due. -/
theorem due_of_not_owned {charges : List (κ × α)} {scope : κ} (h : ¬ Owned charges scope) :
    due charges scope = 0 := by
  have hnone : charges.filter (fun charge => charge.1 = scope) = [] := by
    apply List.filter_eq_nil_iff.2
    intro charge hmem hscope
    exact h ⟨charge.2, by simpa [← of_decide_eq_true hscope] using hmem⟩
  simp [due, hnone]

/-! ## Balanced ledgers -/

variable [Ord κ] [Std.TransOrd κ]

/-- Exactly the scopes with an owner are listed, each with what it is due. -/
def Balanced (map : Std.ExtTreeMap κ α) (charges : List (κ × α)) : Prop :=
  ∀ (scope : κ) (amount : α),
    map[scope]? = some amount ↔ Owned charges scope ∧ due charges scope = amount

theorem Balanced.empty : Balanced (∅ : Std.ExtTreeMap κ α) [] := by
  intro scope amount
  simp [Owned]

theorem Balanced.perm {map : Std.ExtTreeMap κ α} {charges charges' : List (κ × α)}
    (h : Balanced map charges) (hperm : charges.Perm charges') : Balanced map charges' := by
  intro scope amount
  have howned : Owned charges scope ↔ Owned charges' scope :=
    exists_congr fun _ => hperm.mem_iff
  rw [h, howned, due_perm hperm]

/-- The entry of a scope, or zero, is what it is due. -/
theorem Balanced.getD_eq {map : Std.ExtTreeMap κ α} {charges : List (κ × α)}
    (h : Balanced map charges) (scope : κ) : map[scope]?.getD 0 = due charges scope := by
  cases hentry : map[scope]? with
  | some amount => exact ((h scope amount).1 hentry).2.symm
  | none =>
      by_cases howned : Owned charges scope
      · have := (h scope (due charges scope)).2 ⟨howned, rfl⟩
        rw [hentry] at this
        cases this
      · rw [due_of_not_owned howned]
        rfl

variable [Std.LawfulEqOrd κ]

/-- A balanced ledger is determined by the charges. -/
theorem Balanced.unique {map map' : Std.ExtTreeMap κ α} {charges : List (κ × α)}
    (h : Balanced map charges) (h' : Balanced map' charges) : map = map' := by
  apply Std.ExtTreeMap.ext_getElem?
  intro scope
  apply Option.ext
  intro amount
  rw [h, h']

/-- Charging an owner to a scope. -/
theorem Balanced.charge {map : Std.ExtTreeMap κ α} {charges : List (κ × α)}
    (h : Balanced map charges) (scope : κ) (amount : α) :
    Balanced (map.insert scope (map[scope]?.getD 0 + amount)) ((scope, amount) :: charges) := by
  intro other total
  rw [getElem?_insert_eq, due_cons]
  by_cases hother : other = scope
  · subst hother
    have howned : Owned ((other, amount) :: charges) other := ⟨amount, List.mem_cons_self⟩
    rw [if_pos rfl, if_pos rfl, h.getD_eq, Option.some.injEq, add_comm]
    exact ⟨fun heq => ⟨howned, heq⟩, fun heq => heq.2⟩
  · have howned : Owned ((scope, amount) :: charges) other ↔ Owned charges other := by
      constructor
      · rintro ⟨a, hmem⟩
        rcases List.mem_cons.1 hmem with heq | hmem
        · exact absurd (congrArg Prod.fst heq) hother
        · exact ⟨a, hmem⟩
      · rintro ⟨a, hmem⟩
        exact ⟨a, List.mem_cons_of_mem _ hmem⟩
    rw [if_neg hother, if_neg (Ne.symm hother), h, howned, zero_add]

/-- Discharging an owner.  A scope is dropped from the ledger when nothing is due any more, which
happens exactly when its last owner goes. -/
theorem Balanced.discharge [DecidableEq α] {map : Std.ExtTreeMap κ α} {charges : List (κ × α)}
    {scope : κ} {amount : α} (h : Balanced map ((scope, amount) :: charges))
    (hzero : ∀ charge ∈ charges, due charges charge.1 ≠ 0) :
    map[scope]? = some (amount + due charges scope) ∧
      Balanced (if due charges scope = 0 then map.erase scope
        else map.insert scope (due charges scope)) charges := by
  have hentry : map[scope]? = some (amount + due charges scope) := by
    refine (h scope _).2 ⟨⟨amount, List.mem_cons_self⟩, ?_⟩
    rw [due_cons, if_pos rfl]
  refine ⟨hentry, fun other total => ?_⟩
  by_cases hother : other = scope
  · subst hother
    by_cases hdue : due charges other = 0
    · rw [if_pos hdue, getElem?_erase_eq, if_pos rfl]
      constructor
      · intro hnone
        cases hnone
      · rintro ⟨⟨a, hmem⟩, -⟩
        exact absurd hdue (hzero _ hmem)
    · rw [if_neg hdue, getElem?_insert_eq, if_pos rfl, Option.some.injEq]
      refine ⟨fun heq => ⟨?_, heq⟩, fun heq => heq.2⟩
      by_contra hnot
      exact hdue (due_of_not_owned hnot)
  · -- other scopes keep their entry and their owners
    have hsame : (if due charges scope = 0 then map.erase scope
        else map.insert scope (due charges scope))[other]? = map[other]? := by
      split
      · rw [getElem?_erase_eq, if_neg hother]
      · rw [getElem?_insert_eq, if_neg hother]
    have howned : Owned ((scope, amount) :: charges) other ↔ Owned charges other := by
      constructor
      · rintro ⟨a, hmem⟩
        rcases List.mem_cons.1 hmem with heq | hmem
        · exact absurd (congrArg Prod.fst heq) hother
        · exact ⟨a, hmem⟩
      · rintro ⟨a, hmem⟩
        exact ⟨a, List.mem_cons_of_mem _ hmem⟩
    rw [hsame, h, howned, due_cons, if_neg (Ne.symm hother), zero_add]

/-! ## Transfers -/

/-- One of several holders passes from `holder` to `holder'`, the common stock from `stock` to
`stock'`.  If the two balance, so do the stock and all holders together. -/
theorem transfer {α : Type*} [AddCancelCommMonoid α]
    {holder holder' holders holders' stock stock' incoming outgoing : α}
    (hbalance : holder + stock + incoming = holder' + stock' + outgoing)
    (hholders : holder + holders' = holder' + holders) :
    stock + holders + incoming = stock' + holders' + outgoing := by
  refine add_left_cancel (a := holder) ?_
  calc holder + (stock + holders + incoming)
      = holder + stock + incoming + holders := by abel
    _ = holder' + holders + (stock' + outgoing) := by
        rw [hbalance]
        abel
    _ = holder + (stock' + holders' + outgoing) := by
        rw [← hholders]
        abel

end Ledger
end Superi

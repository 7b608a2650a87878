import Mathlib

/-!
# Sequence — lists seen from one of their elements

Code that finds a position and then reads or replaces around it is embedded with a split of the
list at the first matching element, so that "before", "at" and "after" are values rather than
index arithmetic.
-/

namespace Superi
namespace Sequence

variable {α β : Type*}

/-- The first element satisfying `p`, with the elements before and after it. -/
def splitFirst (p : α → Bool) : List α → Option (List α × α × List α)
  | [] => none
  | x :: xs =>
      if p x then some ([], x, xs)
      else (splitFirst p xs).map fun (before, y, after) => (x :: before, y, after)

theorem splitFirst_eq_some {p : α → Bool} {xs before after : List α} {x : α}
    (h : splitFirst p xs = some (before, x, after)) :
    xs = before ++ x :: after ∧ p x = true ∧ ∀ y ∈ before, p y = false := by
  induction xs generalizing before with
  | nil => cases h
  | cons z zs ih =>
      unfold splitFirst at h
      split at h
      · rename_i hz
        cases h
        exact ⟨rfl, hz, fun y hy => by cases hy⟩
      · rename_i hz
        rw [Option.map_eq_some_iff] at h
        obtain ⟨⟨before', y, after'⟩, hsplit, heq⟩ := h
        cases heq
        obtain ⟨hzs, hp, hbefore⟩ := ih hsplit
        refine ⟨by rw [hzs, List.cons_append], hp, fun w hw => ?_⟩
        rcases List.mem_cons.1 hw with rfl | hw
        · simpa using hz
        · exact hbefore w hw

theorem splitFirst_eq_none {p : α → Bool} {xs : List α} :
    splitFirst p xs = none ↔ ∀ x ∈ xs, p x = false := by
  induction xs with
  | nil => simp [splitFirst]
  | cons x xs ih =>
      by_cases hx : p x = true
      · simp [splitFirst, hx]
      · simp [splitFirst, hx, ih]

theorem find?_eq_splitFirst (p : α → Bool) (xs : List α) :
    xs.find? p = (splitFirst p xs).map fun split => split.2.1 := by
  induction xs with
  | nil => rfl
  | cons x xs ih =>
      by_cases hx : p x = true
      · simp [splitFirst, hx]
      · simp [splitFirst, hx, ih, Option.map_map, Function.comp_def]

theorem splitFirst_append {p : α → Bool} {before after : List α} {x : α} (hx : p x = true)
    (hbefore : ∀ y ∈ before, p y = false) :
    splitFirst p (before ++ x :: after) = some (before, x, after) := by
  induction before with
  | nil => simp [splitFirst, hx]
  | cons y before ih =>
      have hy : p y = false := hbefore y List.mem_cons_self
      rw [List.cons_append, splitFirst, hy, ih fun z hz => hbefore z (List.mem_cons_of_mem y hz)]
      rfl

/-- Two splits of one list, the second one position later, share everything but the two
elements in the middle. -/
theorem split_adjacent {xs before before' after after' : List α} {x y : α}
    (h : xs = before ++ x :: after) (h' : xs = before' ++ y :: after')
    (hlen : before'.length = before.length + 1) :
    before' = before ++ [x] ∧ xs = before ++ x :: y :: after' := by
  have heq : before ++ [x] ++ after = before' ++ y :: after' := by
    rw [← h', h, List.append_assoc, List.singleton_append]
  have hpre : before ++ [x] = before' :=
    (List.append_inj heq (by simp [hlen])).1
  refine ⟨hpre.symm, ?_⟩
  rw [h', ← hpre, List.append_assoc, List.singleton_append]

/-- Add an element at the end unless it is already present. -/
def pushUnique [DecidableEq α] (values : List α) (value : α) : List α :=
  if value ∈ values then values else values ++ [value]

/-- What is drawn from the elements of one kind, after one more element. -/
theorem map_filter_concat {κ : α → Prop} [DecidablePred κ] (f : α → β) (xs : List α) (x : α) :
    ((xs ++ [x]).filter fun y => κ y).map f =
      (xs.filter fun y => κ y).map f ++ if κ x then [f x] else [] := by
  rw [List.filter_append, List.map_append]
  refine congrArg ((xs.filter fun y => κ y).map f ++ ·) ?_
  by_cases hx : κ x <;> simp [hx]

/-! ## Lists changed in place -/

/-- Two changes in a row, element by element. -/
theorem forall₂_trans {α β γ : Type*} {R : α → β → Prop} {S : β → γ → Prop} {xs : List α}
    {ys : List β} {zs : List γ} (h : List.Forall₂ R xs ys) (h' : List.Forall₂ S ys zs) :
    List.Forall₂ (fun x z => ∃ y, R x y ∧ S y z) xs zs := by
  induction h generalizing zs with
  | nil =>
      cases h'
      exact .nil
  | cons hxy _ ih =>
      cases h' with
      | cons hyz hrest => exact .cons ⟨_, hxy, hyz⟩ (ih hrest)

/-- What every change keeps is kept throughout. -/
theorem map_eq_of_forall₂ {α γ : Type*} {f : α → γ} {xs ys : List α}
    (h : List.Forall₂ (fun x y => f y = f x) xs ys) : ys.map f = xs.map f := by
  induction h with
  | nil => rfl
  | cons hxy _ ih => rw [List.map_cons, List.map_cons, hxy, ih]

/-- One element of a list is exchanged. -/
theorem forall₂_exchange {α : Type*} {R : α → α → Prop} {front back : List α} {x y : α}
    (hxy : R x y) (hothers : ∀ z ∈ front ++ back, R z z) :
    List.Forall₂ R (front ++ x :: back) (front ++ y :: back) := by
  have hfront : List.Forall₂ R front front :=
    List.forall₂_same.2 fun z hz => hothers z (List.mem_append_left _ hz)
  have hback : List.Forall₂ R back back :=
    List.forall₂_same.2 fun z hz => hothers z (List.mem_append_right _ hz)
  exact List.rel_append hfront (.cons hxy hback)

/-- What the elements of a list give together changes only by what one of them gives. -/
theorem flatMap_set_perm {l : List α} {i : Nat} {a : α} (f : α → List β) (b : α)
    (h : l[i]? = some a) : (f a ++ (l.set i b).flatMap f).Perm (f b ++ l.flatMap f) := by
  obtain ⟨hi, rfl⟩ := List.getElem?_eq_some_iff.1 h
  have hsplit : l = l.take i ++ l[i] :: l.drop (i + 1) := by
    rw [← List.drop_eq_getElem_cons hi, List.take_append_drop]
  have hset : l.set i b = l.take i ++ b :: l.drop (i + 1) := by
    rw [List.set_eq_take_append_cons_drop, if_pos hi]
  have hcomm (x y : List β) (pre post : List β) :
      (x ++ (pre ++ (y ++ post))).Perm (y ++ (pre ++ (x ++ post))) := by
    refine (List.perm_append_comm_assoc x pre _).trans ?_
    refine ((List.perm_append_comm_assoc x y post).append_left pre).trans ?_
    exact List.perm_append_comm_assoc pre y _
  rw [hset]
  conv_rhs => rw [hsplit]
  simp only [List.flatMap_append, List.flatMap_cons]
  exact hcomm _ _ _ _

/-- What a family of lists gives together changes only by what the changed member gives. -/
theorem flatMap_change_perm {keys : List α} {key : α} {f g : α → List β} (hnodup : keys.Nodup)
    (hkey : key ∈ keys) (hothers : ∀ other, other ≠ key → g other = f other) :
    (f key ++ keys.flatMap g).Perm (g key ++ keys.flatMap f) := by
  obtain ⟨before, after, rfl⟩ := List.append_of_mem hkey
  have hothers : ∀ other ∈ before ++ after, g other = f other := by
    intro other hother
    refine hothers other ?_
    rintro rfl
    exact (List.nodup_cons.1 (List.perm_middle.nodup_iff.1 hnodup)).1 hother
  have hbefore : before.flatMap g = before.flatMap f :=
    List.flatMap_congr fun other hother => hothers other (List.mem_append_left _ hother)
  have hafter : after.flatMap g = after.flatMap f :=
    List.flatMap_congr fun other hother => hothers other (List.mem_append_right _ hother)
  rw [List.flatMap_append, List.flatMap_append, List.flatMap_cons, List.flatMap_cons, hbefore, hafter]
  refine (List.perm_append_comm_assoc _ _ _).trans ?_
  refine ((List.perm_append_comm_assoc _ _ _).append_left _).trans ?_
  exact List.perm_append_comm_assoc _ _ _

/-- A member that gives `extra` more. -/
theorem flatMap_change_perm_more {keys : List α} {key : α} {f g : α → List β} {extra : List β}
    (hnodup : keys.Nodup) (hkey : key ∈ keys) (hothers : ∀ other, other ≠ key → g other = f other)
    (hmore : (g key).Perm (extra ++ f key)) :
    (keys.flatMap g).Perm (extra ++ keys.flatMap f) := by
  refine (List.perm_append_left_iff (f key)).1 ((flatMap_change_perm hnodup hkey hothers).trans ?_)
  refine (hmore.append_right _).trans ?_
  rw [List.append_assoc]
  exact List.perm_append_comm_assoc _ _ _

end Sequence
end Superi

import Mathlib

/-!
# Tiling — runs of intervals that cover a line segment without holes

An item occupies the half-open interval `[lo i, hi i)` of a linear order.  A list *tiles* `[a, b)`
when its items follow one another from `a` to `b` with neither hole nor overlap.  Empty items are
allowed, so two neighbours may share a start.

The module also studies the one edit every range operation performs, cutting the hole `[a, b)` out
of a tiling and moving what lies behind it by a monotone map, and the grid that cuts the positions
below a size into steps, the last one as long as what is left.
-/

namespace Superi
namespace Tiling

variable {ι κ K : Type*} [LinearOrder K]

/-- `items` follow one another from `a` to `b`. -/
def Tiles (lo hi : ι → K) : K → List ι → K → Prop
  | a, [], b => a = b
  | a, i :: is, b => lo i = a ∧ lo i ≤ hi i ∧ Tiles lo hi (hi i) is b

/-- The instant `t` lies in the half-open interval of `i`. -/
def Covers (lo hi : ι → K) (t : K) (i : ι) : Prop :=
  lo i ≤ t ∧ t < hi i

variable {lo hi : ι → K} {a b c t : K}

/-! ## Structure of a tiling -/

@[simp] theorem tiles_nil : Tiles lo hi a [] b ↔ a = b := Iff.rfl

@[simp] theorem tiles_cons {i : ι} {is : List ι} :
    Tiles lo hi a (i :: is) b ↔ lo i = a ∧ lo i ≤ hi i ∧ Tiles lo hi (hi i) is b := Iff.rfl

theorem tiles_singleton {i : ι} :
    Tiles lo hi a [i] b ↔ lo i = a ∧ lo i ≤ hi i ∧ hi i = b := by
  simp

theorem tiles_append {xs ys : List ι} :
    Tiles lo hi a (xs ++ ys) c ↔ ∃ b, Tiles lo hi a xs b ∧ Tiles lo hi b ys c := by
  induction xs generalizing a with
  | nil => simp
  | cons i is ih =>
      simp only [List.cons_append, tiles_cons, ih]
      constructor
      · rintro ⟨hlo, hle, b, his, hys⟩
        exact ⟨b, ⟨hlo, hle, his⟩, hys⟩
      · rintro ⟨b, ⟨hlo, hle, his⟩, hys⟩
        exact ⟨hlo, hle, b, his, hys⟩

theorem Tiles.append {xs ys : List ι} (hxs : Tiles lo hi a xs b) (hys : Tiles lo hi b ys c) :
    Tiles lo hi a (xs ++ ys) c :=
  tiles_append.2 ⟨b, hxs, hys⟩

theorem Tiles.le {xs : List ι} (h : Tiles lo hi a xs b) : a ≤ b := by
  induction xs generalizing a with
  | nil => exact le_of_eq h
  | cons i is ih =>
      obtain ⟨hlo, hle, his⟩ := h
      exact hlo ▸ le_trans hle (ih his)

theorem Tiles.mem_bounds {xs : List ι} {i : ι} (h : Tiles lo hi a xs b) (hmem : i ∈ xs) :
    a ≤ lo i ∧ lo i ≤ hi i ∧ hi i ≤ b := by
  induction xs generalizing a with
  | nil => cases hmem
  | cons j js ih =>
      obtain ⟨hlo, hle, hjs⟩ := h
      rcases List.mem_cons.1 hmem with rfl | hmem'
      · exact ⟨hlo.ge, hle, hjs.le⟩
      · obtain ⟨h₁, h₂, h₃⟩ := ih hjs hmem'
        exact ⟨hlo ▸ le_trans hle h₁, h₂, h₃⟩

/-- Starts never decrease along a tiling. -/
theorem Tiles.pairwise_lo {xs : List ι} (h : Tiles lo hi a xs b) :
    xs.Pairwise fun i j => lo i ≤ lo j := by
  induction xs generalizing a with
  | nil => exact List.Pairwise.nil
  | cons i is ih =>
      refine List.Pairwise.cons ?_ (ih h.2.2)
      intro j hj
      exact le_trans h.2.1 (h.2.2.mem_bounds hj).1

/-- A pointwise image under a monotone map of the line is again a tiling. -/
theorem Tiles.of_forall₂ {lo' hi' : κ → K} {σ : K → K} (mono : Monotone σ)
    {xs : List ι} {ys : List κ}
    (hrel : List.Forall₂ (fun i j => lo' j = σ (lo i) ∧ hi' j = σ (hi i)) xs ys)
    (h : Tiles lo hi a xs b) : Tiles lo' hi' (σ a) ys (σ b) := by
  induction hrel generalizing a with
  | nil => exact congrArg σ h
  | cons hij _ ih =>
      obtain ⟨hlo, hle, his⟩ := h
      refine ⟨hij.1.trans (congrArg σ hlo), ?_, ?_⟩
      · rw [hij.1, hij.2]
        exact mono hle
      · rw [hij.2]
        exact ih his

/-! ## Coverage -/

theorem Tiles.exists_covers {xs : List ι} (h : Tiles lo hi a xs b) (hat : a ≤ t) (htb : t < b) :
    ∃ i ∈ xs, Covers lo hi t i := by
  induction xs generalizing a with
  | nil =>
      have hab : a = b := h
      exact absurd htb (not_lt.2 (hab ▸ hat))
  | cons i is ih =>
      obtain ⟨hlo, hle, his⟩ := h
      by_cases hti : t < hi i
      · exact ⟨i, List.mem_cons_self, hlo.trans_le hat, hti⟩
      · obtain ⟨j, hj, hcov⟩ := ih his (not_lt.1 hti)
        exact ⟨j, List.mem_cons_of_mem _ hj, hcov⟩

/-- At most one item of a tiling covers an instant. -/
theorem Tiles.covers_unique {xs : List ι} {i j : ι} (h : Tiles lo hi a xs b)
    (hmi : i ∈ xs) (hmj : j ∈ xs) (hti : Covers lo hi t i) (htj : Covers lo hi t j) : i = j := by
  induction xs generalizing a with
  | nil => cases hmi
  | cons x rest ih =>
      obtain ⟨-, -, hrest⟩ := h
      -- an item of the tail starts only after the head has ended
      have later : ∀ k ∈ rest, Covers lo hi t k → ¬ Covers lo hi t x := fun k hk htk htx =>
        absurd (lt_of_lt_of_le htx.2 (hrest.mem_bounds hk).1) (not_lt.2 htk.1)
      rcases List.mem_cons.1 hmi with rfl | hmi'
      · rcases List.mem_cons.1 hmj with rfl | hmj'
        · rfl
        · exact absurd hti (later j hmj' htj)
      · rcases List.mem_cons.1 hmj with rfl | hmj'
        · exact absurd htj (later i hmi' hti)
        · exact ih hrest hmi' hmj'

/-- The last interval that starts at or before an instant is the one that covers it. -/
theorem Covers.takeWhile_lo {xs : List ι} {i : ι} (hcov : Covers lo hi t i)
    (h : Tiles lo hi a xs b) (hmem : i ∈ xs) : ∃ before after, xs = before ++ i :: after ∧
      xs.takeWhile (fun j => decide (lo j ≤ t)) = before ++ [i] := by
  induction xs generalizing a with
  | nil => exact absurd hmem List.not_mem_nil
  | cons j rest ih =>
      obtain ⟨-, hle, hrest⟩ := h
      rcases List.mem_cons.1 hmem with rfl | hmem
      · refine ⟨[], rest, rfl, ?_⟩
        rw [List.takeWhile_cons_of_pos (by simpa using hcov.1)]
        cases rest with
        | nil => rfl
        | cons k after =>
            have hnext : ¬ lo k ≤ t := by
              rw [hrest.1]
              exact not_le.2 hcov.2
            rw [List.takeWhile_cons_of_neg (by simpa using hnext)]
            rfl
      · obtain ⟨before, after, heq, htake⟩ := ih hrest hmem
        have hbefore : lo j ≤ t :=
          le_trans hle (le_trans (hrest.mem_bounds hmem).1 hcov.1)
        refine ⟨j :: before, after, by rw [heq]; rfl, ?_⟩
        rw [List.takeWhile_cons_of_pos (by simpa using hbefore), htake]
        rfl

theorem Covers.mem_segment {xs : List ι} {i : ι} (h : Tiles lo hi a xs b) (hmem : i ∈ xs)
    (ht : Covers lo hi t i) : a ≤ t ∧ t < b :=
  ⟨le_trans (h.mem_bounds hmem).1 ht.1, lt_of_lt_of_le ht.2 (h.mem_bounds hmem).2.2⟩

/-! ## Cutting a hole out of a tiling -/

/-- What a cut at the hole `[a, b)` leaves of the item `i`: `before` is its part in front of the
hole, `after` its part behind it, moved by `σ`. -/
structure Cut (lo hi : ι → K) (a b : K) (σ : K → K) (i : ι) (before after : List ι) : Prop where
  before_tiles : Tiles lo hi (min (lo i) a) before (min (hi i) a)
  after_tiles : Tiles lo hi (σ (max (lo i) b)) after (σ (max (hi i) b))
  before_nil : b ≤ lo i → before = []
  after_nil : hi i < b → after = []

/-- Every item of a list cut at the same hole, and the pieces in the order they were produced. -/
inductive CutAll (lo hi : ι → K) (a b : K) (σ : K → K) : List ι → List ι → Prop
  | nil : CutAll lo hi a b σ [] []
  | cons {i : ι} {is before after rest : List ι} (head : Cut lo hi a b σ i before after)
      (tail : CutAll lo hi a b σ is rest) :
      CutAll lo hi a b σ (i :: is) (before ++ after ++ rest)

/-- The pieces of a cut tiling are a tiling of the part before the hole followed by a tiling of
the moved part behind it. -/
theorem CutAll.split {σ : K → K} {x y : K} {items pieces : List ι}
    (hcut : CutAll lo hi a b σ items pieces) (htiles : Tiles lo hi x items y) :
    ∃ front back, pieces = front ++ back ∧
      Tiles lo hi (min x a) front (min y a) ∧ Tiles lo hi (σ (max x b)) back (σ (max y b)) ∧
      (b ≤ x → front = []) := by
  induction hcut generalizing x with
  | nil =>
      have hxy : x = y := htiles
      exact ⟨[], [], rfl, by rw [hxy]; exact rfl, by rw [hxy]; exact rfl, fun _ => rfl⟩
  | @cons i is before after rest head tail ih =>
      obtain ⟨hlo, hle, his⟩ := htiles
      subst hlo
      obtain ⟨front, back, rfl, hfront, hback, hnil⟩ := ih his
      by_cases hb : b ≤ hi i
      · -- everything after `i` lies behind the hole
        have hfnil : front = [] := hnil hb
        subst hfnil
        refine ⟨before, after ++ back, by simp, ?_, head.after_tiles.append hback,
          head.before_nil⟩
        have hend : min (hi i) a = min y a := hfront
        exact hend ▸ head.before_tiles
      · have hanil : after = [] := head.after_nil (not_le.1 hb)
        subst hanil
        refine ⟨before ++ front, back, by simp, head.before_tiles.append hfront, ?_, ?_⟩
        · have hend : σ (max (lo i) b) = σ (max (hi i) b) := head.after_tiles
          exact hend ▸ hback
        · intro hbx
          exact absurd (le_trans hbx hle) hb

/-! ## Putting an item back in order -/

/-- A stable sort by start moves an item that was pushed last in front of exactly those items
that start later. -/
theorem insertionSort_splice (key : ι → K) (m : ι) (front back : List ι)
    (hfront : (front ++ [m]).Pairwise fun i j => key i ≤ key j)
    (hback : back.Pairwise fun i j => key i ≤ key j) (hlater : ∀ j ∈ back, key m < key j) :
    (front ++ back ++ [m]).insertionSort (fun i j => key i ≤ key j) = front ++ m :: back := by
  have sorted : ∀ xs : List ι, xs.Pairwise (fun i j => key i ≤ key j) →
      xs.insertionSort (fun i j => key i ≤ key j) = xs := fun xs hxs => hxs.insertionSort_eq
  -- the pushed item passes every later one
  have htail : (back ++ [m]).insertionSort (fun i j => key i ≤ key j) = m :: back := by
    induction back with
    | nil => simp
    | cons j js ih =>
        have hjs := ih hback.of_cons (fun k hk => hlater k (List.mem_cons_of_mem _ hk))
        have hj : ¬ key j ≤ key m := not_le.2 (hlater j List.mem_cons_self)
        have hsorted := sorted (j :: js) hback
        rw [List.insertionSort_cons, sorted js hback.of_cons] at hsorted
        rw [List.cons_append, List.insertionSort_cons, hjs, List.orderedInsert_cons, if_neg hj,
          hsorted]
  induction front with
  | nil => simpa using htail
  | cons i is ih =>
      have his := ih hfront.of_cons
      have hhead : ∀ k ∈ is ++ m :: back, key i ≤ key k := by
        intro k hk
        have him : key i ≤ key m := List.rel_of_pairwise_cons hfront (by simp)
        rcases List.mem_append.1 hk with hk | hk
        · exact List.rel_of_pairwise_cons hfront (by simp [hk])
        · rcases List.mem_cons.1 hk with rfl | hk
          · exact him
          · exact le_trans him (le_of_lt (hlater k hk))
      rw [List.cons_append, List.cons_append, List.insertionSort_cons, his]
      cases hrest : is ++ m :: back with
      | nil => simp at hrest
      | cons k ks =>
          have hik : key i ≤ key k := hhead k (by simp [hrest])
          rw [List.orderedInsert_cons, if_pos hik, List.cons_append, hrest]

end Tiling

end Superi

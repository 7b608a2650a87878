import Mathlib

/-!
# Skipping — counting that leaves out labels

Labels come in groups of `period + skip`.  In nine of ten groups the first `skip` labels stand for
nothing, so that the labels that are left number the items without a hole.  The closed form that
finds the label of an item and the subtraction that finds the item of a label undo each other.
-/

namespace Superi
namespace Skipping

variable (period skip : Nat)

/-- The items of ten groups. -/
def cycle : Nat := 10 * period + skip

/-- A label that stands for no item. -/
def Skipped (label : Nat) : Prop :=
  label / (period + skip) % 10 ≠ 0 ∧ label % (period + skip) < skip

/-- The item of a label: the labels before it less those that were skipped. -/
def itemOf (label : Nat) : Nat :=
  label - (label / (period + skip) - label / (period + skip) / 10) * skip

/-- The label of an item. -/
def labelOf (item : Nat) : Nat :=
  let rest := item % cycle period skip
  item + item / cycle period skip * skip * 9 +
    if skip ≤ rest then skip * ((rest - skip) / period) else 0

/-! ## Places

An item and its label have one place: a cycle of ten groups, a group in it, and an offset, which in
a group with skipped labels starts after them. -/

structure Place where
  tens : Nat
  group : Nat
  offset : Nat
  group_lt : group < 10
  offset_lt : offset < period + skip
  kept : group = 0 ∨ skip ≤ offset

namespace Place

variable {period skip} (place : Place period skip)

def label : Nat := (10 * place.tens + place.group) * (period + skip) + place.offset

def item : Nat := place.tens * cycle period skip + (place.group * period + place.offset)

theorem label_div : place.label / (period + skip) = 10 * place.tens + place.group := by
  have hpos : 0 < period + skip := Nat.lt_of_le_of_lt (Nat.zero_le _) place.offset_lt
  rw [label, Nat.add_comm, Nat.add_mul_div_right _ _ hpos, Nat.div_eq_of_lt place.offset_lt,
    Nat.zero_add]

theorem label_mod : place.label % (period + skip) = place.offset := by
  rw [label, Nat.add_comm, Nat.add_mul_mod_self_right, Nat.mod_eq_of_lt place.offset_lt]

theorem not_skipped : ¬ Skipped period skip place.label := by
  rw [Skipped, place.label_div, place.label_mod]
  rintro ⟨hgroup, hoffset⟩
  have hlt := place.group_lt
  rcases place.kept with h | h <;> omega

theorem itemOf_label : itemOf period skip place.label = place.item := by
  have htens : (10 * place.tens + place.group) / 10 = place.tens := by
    have hlt := place.group_lt
    omega
  have hsplit : place.label =
      place.item + (10 * place.tens + place.group - place.tens) * skip := by
    have hnine : 10 * place.tens + place.group - place.tens = 9 * place.tens + place.group := by
      omega
    rw [hnine, label, item, cycle]
    ring
  rw [itemOf, place.label_div, htens, hsplit, Nat.add_sub_cancel]

/-- What is left of an item after its cycles. -/
theorem rest_lt : place.group * period + place.offset < cycle period skip := by
  have hgroup : place.group * period ≤ 9 * period :=
    Nat.mul_le_mul_right _ (by have := place.group_lt; omega)
  have hoffset := place.offset_lt
  rw [cycle]
  omega

theorem labelOf_item : labelOf period skip place.item = place.label := by
  have hrest := place.rest_lt
  have hpos : 0 < cycle period skip := Nat.lt_of_le_of_lt (Nat.zero_le _) hrest
  have hmod : place.item % cycle period skip = place.group * period + place.offset := by
    rw [item, Nat.mul_comm, Nat.mul_add_mod, Nat.mod_eq_of_lt hrest]
  have hdiv : place.item / cycle period skip = place.tens := by
    rw [item, Nat.mul_comm, Nat.mul_add_div hpos, Nat.div_eq_of_lt hrest, Nat.add_zero]
  -- the closed form counts the groups that start after their skipped labels
  have hgroups : (if skip ≤ place.group * period + place.offset then
      skip * ((place.group * period + place.offset - skip) / period) else 0) =
        skip * place.group := by
    have hoffset := place.offset_lt
    split
    · rename_i hle
      rcases place.kept with hzero | hkept
      · rw [hzero, Nat.zero_mul, Nat.zero_add] at hle ⊢
        rw [Nat.div_eq_of_lt (by omega)]
      · have hperiod : 0 < period := by omega
        rw [Nat.add_sub_assoc hkept, Nat.add_comm, Nat.add_mul_div_right _ _ hperiod,
          Nat.div_eq_of_lt (by omega), Nat.zero_add]
    · rename_i hnot
      rcases place.kept with hzero | hkept
      · rw [hzero, Nat.mul_zero]
      · exact absurd (Nat.le_trans hkept (Nat.le_add_left _ _)) hnot
  simp only [labelOf, hmod, hdiv, hgroups]
  rw [label, item, cycle]
  ring

end Place

variable {period skip}

/-- Every label that is not skipped has a place. -/
theorem exists_place_of_label {label : Nat} (hpos : 0 < period + skip)
    (h : ¬ Skipped period skip label) : ∃ place : Place period skip, place.label = label := by
  refine ⟨⟨label / (period + skip) / 10, label / (period + skip) % 10, label % (period + skip),
    Nat.mod_lt _ (by decide), Nat.mod_lt _ hpos, ?_⟩, ?_⟩
  · by_contra hnot
    rw [not_or, Nat.not_le] at hnot
    exact h hnot
  · rw [Place.label]
    simp only [Nat.div_add_mod, Nat.div_add_mod']

/-- Every item has a place. -/
theorem exists_place_of_item (hperiod : 0 < period) (item : Nat) :
    ∃ place : Place period skip, place.item = item := by
  have hpos : 0 < cycle period skip := by
    rw [cycle]
    omega
  have hrest := Nat.mod_lt item hpos
  have hitem := Nat.div_add_mod' item (cycle period skip)
  generalize item % cycle period skip = rest at *
  generalize item / cycle period skip = tens at *
  rcases Nat.lt_or_ge rest skip with hlt | hge
  · -- the first labels of a cycle are not skipped
    refine ⟨⟨tens, 0, rest, by decide, by omega, .inl rfl⟩, ?_⟩
    rw [Place.item]
    simp only [Nat.zero_mul, Nat.zero_add, hitem]
  · have hgroup : (rest - skip) / period < 10 := by
      rw [Nat.div_lt_iff_lt_mul hperiod]
      rw [cycle] at hrest
      omega
    have hoffset := Nat.mod_lt (rest - skip) hperiod
    refine ⟨⟨tens, (rest - skip) / period, skip + (rest - skip) % period, hgroup, by omega,
      .inr (Nat.le_add_right _ _)⟩, ?_⟩
    have hsplit := Nat.div_add_mod' (rest - skip) period
    rw [Place.item]
    simp only
    omega

theorem itemOf_labelOf (hperiod : 0 < period) (item : Nat) :
    itemOf period skip (labelOf period skip item) = item := by
  obtain ⟨place, rfl⟩ := @exists_place_of_item _ skip hperiod item
  rw [place.labelOf_item, place.itemOf_label]

theorem not_skipped_labelOf (hperiod : 0 < period) (item : Nat) :
    ¬ Skipped period skip (labelOf period skip item) := by
  obtain ⟨place, rfl⟩ := @exists_place_of_item _ skip hperiod item
  rw [place.labelOf_item]
  exact place.not_skipped

theorem labelOf_itemOf (hpos : 0 < period + skip) {label : Nat} (h : ¬ Skipped period skip label) :
    labelOf period skip (itemOf period skip label) = label := by
  obtain ⟨place, rfl⟩ := exists_place_of_label hpos h
  rw [place.itemOf_label, place.labelOf_item]

/-- Where at most half of a group is skipped, labels are at most twice their items. -/
theorem labelOf_le (hperiod : 0 < period) (hskip : skip ≤ period) (item : Nat) :
    labelOf period skip item ≤ 2 * item := by
  obtain ⟨place, rfl⟩ := @exists_place_of_item _ skip hperiod item
  rw [place.labelOf_item, Place.label, Place.item, cycle]
  have hgroups : (9 * place.tens + place.group) * skip ≤
      (9 * place.tens + place.group) * period := Nat.mul_le_mul_left _ hskip
  nlinarith [Nat.zero_le (place.tens * period), Nat.zero_le (place.tens * skip)]

end Skipping
end Superi

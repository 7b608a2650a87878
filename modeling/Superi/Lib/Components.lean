import Mathlib

/-!
# Components — disjoint families under merging, restriction and renaming

A family of sets is apart when no element lies in two of its members.  A fine family lies within a
coarse one when every fine member that meets a coarse member is contained in it.  Merging some
elements into a family absorbs every member that meets them; both laws survive merging, restriction
to some elements and renaming.
-/

namespace Superi
namespace Components

variable {α β : Type*} {family family' fine coarse : Set (Set α)} {members keep a b : Set α}

/-- No element lies in two members. -/
def Apart (family : Set (Set α)) : Prop :=
  ∀ a ∈ family, ∀ b ∈ family, (a ∩ b).Nonempty → a = b

/-- A fine member that meets a coarse member lies in it. -/
def Within (fine coarse : Set (Set α)) : Prop :=
  ∀ a ∈ fine, ∀ b ∈ coarse, (a ∩ b).Nonempty → a ⊆ b

/-- Some elements with every member of the family that meets them. -/
def absorbed (family : Set (Set α)) (members : Set α) : Set α :=
  members ∪ ⋃₀ {a ∈ family | (a ∩ members).Nonempty}

/-- The family in which the elements are one member. -/
def merge (family : Set (Set α)) (members : Set α) : Set (Set α) :=
  insert (absorbed family members) {a ∈ family | ¬ (a ∩ members).Nonempty}

/-- The members cut down to some elements, as far as two of them are left. -/
def restrict (family : Set (Set α)) (keep : Set α) : Set (Set α) :=
  {b | b.Nontrivial ∧ ∃ a ∈ family, b = a ∩ keep}

/-! ## Families -/

theorem subset_absorbed : members ⊆ absorbed family members := Set.subset_union_left

theorem subset_absorbed_of_meets (ha : a ∈ family) (hmeets : (a ∩ members).Nonempty) :
    a ⊆ absorbed family members := fun _ hx => .inr ⟨a, ⟨ha, hmeets⟩, hx⟩

/-- In a family that is apart, the absorbed elements meet no member that was not absorbed. -/
theorem Apart.not_meets_absorbed (h : Apart family) (ha : a ∈ family)
    (hmeets : ¬ (a ∩ members).Nonempty) : ¬ (a ∩ absorbed family members).Nonempty := by
  rintro ⟨x, hxa, hx | ⟨b, ⟨hb, hbmeets⟩, hxb⟩⟩
  · exact hmeets ⟨x, hxa, hx⟩
  · rw [h a ha b hb ⟨x, hxa, hxb⟩] at hmeets
    exact hmeets hbmeets

/-! ## Fine and coarse -/

theorem Within.mono_coarse {coarse' : Set (Set α)} (h : Within fine coarse)
    (hsub : coarse' ⊆ coarse) : Within fine coarse' :=
  fun a ha b hb => h a ha b (hsub hb)

/-- Coarse merging of elements that are closed under the fine family. -/
theorem Within.merge_coarse (h : Within fine coarse)
    (hclosed : ∀ a ∈ fine, (a ∩ members).Nonempty → a ⊆ members) :
    Within fine (merge coarse members) := by
  rintro a ha b hb hmeets
  rcases hb with rfl | ⟨hb, -⟩
  · obtain ⟨x, hxa, hx | ⟨c, ⟨hc, hcmeets⟩, hxc⟩⟩ := hmeets
    · exact (hclosed a ha ⟨x, hxa, hx⟩).trans subset_absorbed
    · exact (h a ha c hc ⟨x, hxa, hxc⟩).trans (subset_absorbed_of_meets hc hcmeets)
  · exact h a ha b hb hmeets

/-- Fine merging, when the merged elements lie in every coarse member that they meet. -/
theorem Within.merge_fine (h : Within fine coarse)
    (hmerged : ∀ b ∈ coarse, (absorbed fine members ∩ b).Nonempty → absorbed fine members ⊆ b) :
    Within (merge fine members) coarse := by
  rintro a (rfl | ⟨ha, -⟩) b hb hmeets
  · exact hmerged b hb hmeets
  · exact h a ha b hb hmeets

/-- Merging the fine family, and with it the coarse one. -/
theorem Within.merge_both (h : Within fine coarse) (hfine : Apart fine) :
    Within (merge fine members) (merge coarse (absorbed fine members)) := by
  have hclosed : ∀ a ∈ fine, (a ∩ absorbed fine members).Nonempty →
      a ⊆ absorbed fine members := by
    intro a ha hmeets
    by_cases hdirect : (a ∩ members).Nonempty
    · exact subset_absorbed_of_meets ha hdirect
    · exact absurd hmeets (hfine.not_meets_absorbed ha hdirect)
  refine (h.merge_coarse hclosed).merge_fine ?_
  rintro b (rfl | ⟨hb, hnot⟩) hmeets
  · exact subset_absorbed
  · rw [Set.inter_comm] at hmeets
    exact absurd hmeets hnot

theorem Within.restrict_both (h : Within fine coarse) :
    Within (restrict fine keep) (restrict coarse keep) := by
  rintro _ ⟨-, a, ha, rfl⟩ _ ⟨-, b, hb, rfl⟩ ⟨x, ⟨hxa, hx⟩, ⟨hxb, -⟩⟩
  exact Set.inter_subset_inter_left keep (h a ha b hb ⟨x, hxa, hxb⟩)

/-- Restriction of the fine family alone. -/
theorem Within.restrict_fine (h : Within fine coarse) : Within (restrict fine keep) coarse := by
  rintro _ ⟨-, a, ha, rfl⟩ b hb ⟨x, ⟨hxa, -⟩, hxb⟩
  exact Set.inter_subset_left.trans (h a ha b hb ⟨x, hxa, hxb⟩)

/-- Renaming that keeps the elements of both families apart. -/
theorem Within.rename {f : α → β} (h : Within fine coarse)
    (hf : ∀ a ∈ fine, ∀ b ∈ coarse, ∀ x ∈ a, ∀ y ∈ b, f x = f y → x = y) :
    Within (Set.image f '' fine) (Set.image f '' coarse) := by
  rintro _ ⟨a, ha, rfl⟩ _ ⟨b, hb, rfl⟩ ⟨_, ⟨x, hx, rfl⟩, ⟨y, hy, heq⟩⟩
  obtain rfl := hf a ha b hb x hx y hy heq.symm
  exact Set.image_mono (h a ha b hb ⟨x, hx, hy⟩)

end Components
end Superi
